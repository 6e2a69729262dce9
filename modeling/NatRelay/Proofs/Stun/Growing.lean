import NatRelay.Proofs.Stun.Packet
import NatRelay.Proofs.Stun.Positional

/-! Writing into a buffer that grows. Lengths are not known before their bytes are there: a
placeholder is written first and patched later, the one in the header up to three times. A step
gives nothing where it would patch bytes that are not there, take a number from a smaller one, or
cut off the high bits of a number. Main statement: `encode_frames`, that no step does so, that the
buffer ends as the bytes of the message, and how these are framed. -/
namespace NatRelay.Stun

open Positional

namespace Growing

/-! ### Steps -/

/-- The difference of two numbers. -/
def minus (n k : Nat) : Positional Nat := ExceptT.mk (if k ≤ n then some (.ok (n - k)) else none)

/-- A number whose high bits are dropped, as long as they are zero. -/
def cast16 (n : Nat) : Positional UInt16 :=
  ExceptT.mk (if n ≤ maxLength then some (.ok (UInt16.ofNat n)) else none)

/-- A number in 16 bits, or a refusal. -/
def fit16 (n : Nat) : Positional UInt16 :=
  settled (if n ≤ maxLength then .ok (UInt16.ofNat n) else .error .invalidInput)

/-- The two bytes at an index are replaced. -/
def patch16 (b : Bytes) (i : Nat) (n : UInt16) : Positional Bytes :=
  ExceptT.mk
    (if i + 2 ≤ b.length then some (.ok (b.take i ++ Bytes.be16 n ++ b.drop (i + 2))) else none)

/-- Append an attribute: its length is patched when its value is there. -/
def writeAttribute (tid : TransactionId) (a : Attribute) (b : Bytes) : Positional Bytes := do
  let start := b.length
  let b := b ++ Bytes.be16 a.code ++ Bytes.be16 0 ++ a.value tid
  let size ← minus b.length start
  let size ← minus size 4
  let length ← fit16 size
  let b ← patch16 b (start + 2) length
  let rest ← minus (Bytes.paddedLength length.toNat) length.toNat
  pure (b ++ List.replicate rest 0)

/-- Patch the header so that the message ends at `total` bytes. -/
def setLength (b : Bytes) (total : Nat) : Positional Bytes := do
  let size ← minus total headerLength
  let length ← fit16 size
  patch16 b 2 length

/-- Append the code of a key over a buffer whose header counts the code. -/
def writeCode (key : Key) (b : Bytes) : Positional Bytes := do
  let b ← setLength b (b.length + 4 + key.mechanism.macLength)
  let length ← cast16 key.mechanism.macLength
  pure (b ++ Bytes.be16 key.mechanism.kind.code ++ Bytes.be16 length ++ key.sign [b])

/-- Append the fingerprint of a buffer whose header counts the fingerprint. -/
def writeMark (b : Bytes) : Positional Bytes := do
  let b ← setLength b (b.length + 8)
  pure (b ++ Bytes.be16 Kind.fingerprint.code ++ Bytes.be16 4 ++
    Bytes.be32 (Stun.fingerprint [b]))

/-- Append the attributes but for those that protect. -/
def writeAttributes (tid : TransactionId) : List Attribute → Bytes → Positional Bytes
  | [], b => pure b
  | a :: as, b => do
    let b ← if a.isProtection then pure b else writeAttribute tid a b
    writeAttributes tid as b

/-- Write a message. -/
def encode (m : Message) (key? : Option Key) (fingerprint : Bool) : Positional Bytes := do
  let b := Bytes.be16 (messageType m.method m.cls) ++ Bytes.be16 0 ++
    Bytes.ofNat 4 magicCookie.toNat ++ Bytes.ofNat 12 m.tid.toNat
  let b ← writeAttributes m.tid m.attributes b
  let b ← match key? with
    | some key => writeCode key b
    | none => pure b
  let b ← if fingerprint then writeMark b else pure b
  setLength b b.length

variable {n k : Nat} {b : Bytes}

theorem minus_eq (h : k ≤ n) : minus n k = settled (.ok (n - k)) := by
  rw [minus, if_pos h]
  rfl

theorem cast16_eq (h : n ≤ maxLength) : cast16 n = settled (.ok (UInt16.ofNat n)) := by
  rw [cast16, if_pos h]
  rfl

theorem patch16_eq {front back : Bytes} {old : UInt16} (new : UInt16) :
    patch16 (front ++ Bytes.be16 old ++ back) front.length new =
      settled (.ok (front ++ Bytes.be16 new ++ back)) := by
  have hold : (front ++ Bytes.be16 old).length = front.length + 2 := by
    rw [List.length_append, Bytes.length_be16]
  have hroom : front.length + 2 ≤ (front ++ Bytes.be16 old ++ back).length := by
    rw [List.length_append, hold]
    exact Nat.le_add_right _ _
  have htake : (front ++ Bytes.be16 old ++ back).take front.length = front := by
    rw [List.append_assoc, List.take_left]
  rw [patch16, if_pos hroom, htake, List.drop_left' hold]
  rfl

theorem fit16_eq (n : Nat) :
    fit16 n = settled (if n ≤ 65535 then .ok (UInt16.ofNat n) else .error .invalidInput) := rfl

/-- A record is appended, or refused. -/
theorem writeAttribute_eq (tid : TransactionId) (a : Attribute) (b : Bytes) :
    writeAttribute tid a b = settled ((b ++ ·) <$> record a.code (a.value tid)) := by
  have hhead : (b ++ Bytes.be16 a.code).length = b.length + 2 := by
    rw [List.length_append, Bytes.length_be16]
  have hlength : (b ++ Bytes.be16 a.code ++ Bytes.be16 0 ++ a.value tid).length =
      b.length + 4 + (a.value tid).length := by
    rw [List.length_append, List.length_append, hhead, Bytes.length_be16]
  have hsize : b.length + 4 + (a.value tid).length - b.length - 4 = (a.value tid).length := by omega
  rw [writeAttribute, hlength, minus_eq (by omega), settled_ok_bind, minus_eq (by omega),
    settled_ok_bind, hsize, fit16_eq, record_eq]
  split
  · rename_i hfits
    have hof : (UInt16.ofNat (a.value tid).length).toNat = (a.value tid).length :=
      UInt16.toNat_ofNat_of_lt' (Nat.lt_succ_of_le hfits)
    rw [settled_ok_bind, ← hhead, patch16_eq, settled_ok_bind, hof,
      minus_eq (Bytes.le_paddedLength _), settled_ok_bind]
    change settled (.ok _) = settled (.ok _)
    simp only [written, Bytes.padding, List.append_assoc]
  · rfl

/-- The records of all plain attributes are appended, or one is refused. -/
theorem writeAttributes_eq (tid : TransactionId) (as : List Attribute) (b : Bytes) :
    writeAttributes tid as b = settled ((fun records => b ++ List.flatten records) <$>
      (as.filter (!·.isProtection)).mapM fun a => record a.code (a.value tid)) := by
  induction as generalizing b with
  | nil =>
    change settled (.ok b) = settled (.ok (b ++ []))
    rw [List.append_nil]
  | cons a as ih =>
    rw [writeAttributes]
    cases hprotects : a.isProtection with
    | true =>
      have hfilter : (a :: as).filter (!·.isProtection) = as.filter (!·.isProtection) := by
        simp [hprotects]
      rw [hfilter]
      exact ih b
    | false =>
      have hfilter : (a :: as).filter (!·.isProtection) =
          a :: as.filter (!·.isProtection) := by simp [hprotects]
      rw [hfilter, List.mapM_cons]
      simp only [Bool.false_eq_true, if_false]
      rw [writeAttribute_eq]
      cases record a.code (a.value tid) with
      | error e => rfl
      | ok bytes =>
        refine (ih (b ++ bytes)).trans ?_
        cases (as.filter (!·.isProtection)).mapM fun a => record a.code (a.value tid) with
        | error e => rfl
        | ok records => exact congrArg (fun b => settled (.ok b)) (List.append_assoc ..)

variable (m : Message) (body : Bytes)

/-- The header is patched for what is there and what is still to come. -/
theorem setLength_eq (n extra : Nat) :
    setLength (m.header n ++ body) ((m.header n ++ body).length + extra) =
      settled (m.frame body extra) := by
  have hsize : (m.header n ++ body).length + extra - headerLength = body.length + extra := by
    rw [List.length_append, Message.length_header]
    omega
  have hge : headerLength ≤ (m.header n ++ body).length + extra := by
    rw [List.length_append, Message.length_header]
    omega
  have hheader (n : Nat) : m.header n ++ body = Bytes.be16 (messageType m.method m.cls) ++
      Bytes.be16 (UInt16.ofNat n) ++ (Bytes.ofNat 4 magicCookie.toNat ++
        Bytes.ofNat 12 m.tid.toNat ++ body) := by
    simp only [Message.header, List.append_assoc]
  rw [setLength, minus_eq hge, settled_ok_bind, hsize, fit16_eq, Message.frame_eq]
  split
  · rw [settled_ok_bind, hheader, hheader]
    exact patch16_eq _
  · rfl

theorem writeCode_eq (n : Nat) (key : Key) : writeCode key (m.header n ++ body) =
    settled ((fun signed => m.header signed.length ++ signed) <$> m.protect body key) := by
  have hshort : key.mechanism.macLength ≤ maxLength := by cases key.mechanism <;> decide
  have hmod (parts : List Bytes) : (key.sign parts).length % 4 = 0 := by
    rw [Key.length_sign]
    cases key.mechanism <;> rfl
  rw [writeCode, Nat.add_assoc, setLength_eq, Message.protect_eq, Message.frame_eq]
  split
  · change _ = settled (.ok (m.header (body ++ _).length ++ (body ++ _)))
    rw [settled_ok_bind, cast16_eq hshort, settled_ok_bind, List.length_append,
      Message.length_codeRecord, Message.codeRecord, written_of_mod _ (hmod _), Key.length_sign]
    simp only [List.append_assoc]
    rfl
  · rfl

theorem writeMark_eq (n : Nat) : writeMark (m.header n ++ body) =
    settled ((fun stamped => m.header stamped.length ++ stamped) <$> m.stamp body) := by
  have hmod (crc : UInt32) : (Bytes.be32 crc).length % 4 = 0 := by rw [Bytes.length_be32]
  rw [writeMark, setLength_eq, Message.stamp_eq, Message.frame_eq]
  split
  · change _ = settled (.ok (m.header (body ++ _).length ++ (body ++ _)))
    rw [settled_ok_bind, List.length_append, Message.length_markRecord, Message.markRecord,
      written_of_mod _ (hmod _), Bytes.length_be32]
    simp only [List.append_assoc]
    rfl
  · rfl

/-- What follows a step needs to know the step only up to the header. -/
theorem settled_map_bind {α β γ : Type} {h : α → β} {f : β → Positional γ}
    {g : α → Except Error γ} (x : Except Error α) (hf : ∀ a, f (h a) = settled (g a)) :
    settled (h <$> x) >>= f = settled (x >>= g) := by
  cases x with
  | error e => rfl
  | ok a => exact hf a

theorem setLength_end (n : Nat) :
    setLength (m.header n ++ body) (m.header n ++ body).length = settled (m.frame body 0) := by
  have hend := setLength_eq m body n 0
  rwa [Nat.add_zero] at hend

/-- The end of writing, from a body under any header. -/
theorem stamp_end (n : Nat) (fingerprint : Bool) :
    (if fingerprint then writeMark (m.header n ++ body) >>= fun b => setLength b b.length
      else setLength (m.header n ++ body) (m.header n ++ body).length) =
    settled (if fingerprint then m.stamp body >>= (m.frame · 0) else m.frame body 0) := by
  cases fingerprint with
  | false => exact setLength_end m body n
  | true =>
    simp only [if_true]
    rw [writeMark_eq]
    exact settled_map_bind (m.stamp body) fun stamped => setLength_end m stamped _

/-- The buffer is patched until it is the frame of its body. -/
theorem encode_eq (key? : Option Key) (fingerprint : Bool) :
    encode m key? fingerprint = settled (m.encode key? fingerprint) := by
  have hhead : Bytes.be16 (messageType m.method m.cls) ++ Bytes.be16 0 ++
    Bytes.ofNat 4 magicCookie.toNat ++ Bytes.ofNat 12 m.tid.toNat = m.header 0 := rfl
  rw [encode, hhead, writeAttributes_eq, Message.encode, Message.body, bind_assoc]
  refine settled_map_bind _ fun records => ?_
  cases key? with
  | none =>
    simp only [pure_bind]
    exact stamp_end m _ 0 fingerprint
  | some key =>
    simp only [pure_bind]
    rw [writeCode_eq]
    exact settled_map_bind _ fun signed => stamp_end m signed _ fingerprint

end Growing

/-- Writing never patches bytes that are not there nor cuts a length off. What fits is written, with
right lengths and with zeros for padding, and what does not is refused. -/
theorem encode_frames (m : Message) (key? : Option Key) (fingerprint : Bool) :
    Growing.encode m key? fingerprint = settled (m.encode key? fingerprint) ∧
      if m.size key? fingerprint ≤ 65535 then
        ∃ bytes, m.encode key? fingerprint = .ok bytes ∧ m.Frames key? fingerprint bytes
      else m.encode key? fingerprint = .error .invalidInput := by
  refine ⟨Growing.encode_eq m key? fingerprint, ?_⟩
  rw [Message.encode_eq]
  split
  · rename_i hfits
    exact ⟨_, rfl, Message.frames_packet hfits⟩
  · rfl

end NatRelay.Stun
