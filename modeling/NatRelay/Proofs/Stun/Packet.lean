import Mathlib.Data.List.Forall2
import NatRelay.Proofs.Stun.Canonical
import NatRelay.Proofs.Stun.Signed

/-! The layout of a written message. What is written and whether it fits depend on lengths alone:
`encode_eq` gives the bytes of a message of at most 65535 bytes behind its header, and refuses any
other. `frames_packet` says how these bytes are framed. -/
namespace NatRelay.Stun

variable {tid : TransactionId}

/-! ### Records -/

/-- The record of a code and a value. Its length field is right for values of up to 65535 bytes. -/
def written (code : UInt16) (value : Bytes) : Bytes :=
  Bytes.be16 code ++ Bytes.be16 (UInt16.ofNat value.length) ++ value ++ Bytes.padding value.length

@[simp] theorem length_written (code : UInt16) (value : Bytes) :
    (written code value).length = 4 + Bytes.paddedLength value.length := by
  have hle := Bytes.le_paddedLength value.length
  simp only [written, List.length_append, Bytes.length_be16, Bytes.length_padding]
  omega

/-- A value of whole words needs no padding. -/
theorem written_of_mod (code : UInt16) {value : Bytes} (h : value.length % 4 = 0) :
    written code value =
      Bytes.be16 code ++ Bytes.be16 (UInt16.ofNat value.length) ++ value := by
  have hpadded : Bytes.paddedLength value.length - value.length = 0 := by
    rw [Bytes.paddedLength]
    omega
  rw [written, Bytes.padding, hpadded, List.replicate_zero, List.append_nil]

theorem record_eq (code : UInt16) (value : Bytes) : record code value =
    if value.length ≤ 65535 then .ok (written code value) else .error .invalidInput := by
  rw [record, maxLength]
  split
  · rename_i h
    rw [if_neg (Nat.not_le.2 h)]
  · rename_i h
    rw [if_pos (Nat.le_of_not_lt h)]
    rfl

theorem record_of_le (code : UInt16) {value : Bytes} (h : value.length ≤ 65535) :
    record code value = .ok (written code value) := by
  rw [record_eq, if_pos h]

/-- Bytes that hold a code and a value, the length of the value between them, and zeros behind. -/
structure IsRecord (code : UInt16) (value bytes : Bytes) : Prop where
  kind : bytes.take 2 = Bytes.be16 code
  length : Bytes.toNat ((bytes.drop 2).take 2) = value.length
  content : (bytes.drop 4).take value.length = value
  padding : bytes.drop (4 + value.length) =
    List.replicate (Bytes.paddedLength value.length - value.length) 0

theorem toNat_be16 {n : Nat} (h : n ≤ 65535) : Bytes.toNat (Bytes.be16 (UInt16.ofNat n)) = n := by
  rw [Bytes.be16, Bytes.toNat_ofNat (UInt16.toNat_lt _),
    UInt16.toNat_ofNat_of_lt' (Nat.lt_succ_of_le h)]

/-- The length field is not cut off. -/
theorem isRecord_written (code : UInt16) {value : Bytes} (h : value.length ≤ 65535) :
    IsRecord code value (written code value) := by
  have hcode := Bytes.length_be16 code
  have hsize := Bytes.length_be16 (UInt16.ofNat value.length)
  have hhead : (Bytes.be16 code ++ Bytes.be16 (UInt16.ofNat value.length)).length = 4 := by
    rw [List.length_append, hcode, hsize]
  have hwritten : written code value = Bytes.be16 code ++
      (Bytes.be16 (UInt16.ofNat value.length) ++ (value ++ Bytes.padding value.length)) := by
    simp only [written, List.append_assoc]
  have hbody : (written code value).drop 4 = value ++ Bytes.padding value.length := by
    rw [written, List.append_assoc]
    exact List.drop_left' hhead
  refine ⟨?_, ?_, ?_, ?_⟩
  · rw [hwritten]
    exact List.take_left' hcode
  · rw [hwritten, List.drop_left' hcode, List.take_left' hsize, toNat_be16 h]
  · rw [hbody, List.take_left]
  · rw [← List.drop_drop, hbody, List.drop_left, Bytes.padding]

/-- Records are written just if every value is short enough. -/
theorem mapM_record_eq (tid : TransactionId) (as : List Attribute) :
    as.mapM (fun a => record a.code (a.value tid)) =
      if ∀ a ∈ as, (a.value tid).length ≤ 65535 then
        .ok (as.map fun a => written a.code (a.value tid))
      else .error .invalidInput := by
  induction as with
  | nil => rfl
  | cons a as ih =>
    have hcons : (∀ b ∈ a :: as, (b.value tid).length ≤ 65535) ↔
        (a.value tid).length ≤ 65535 ∧ ∀ b ∈ as, (b.value tid).length ≤ 65535 :=
      List.forall_mem_cons
    rw [List.mapM_cons, ih, record_eq]
    by_cases ha : (a.value tid).length ≤ 65535
    · by_cases has : ∀ b ∈ as, (b.value tid).length ≤ 65535
      · rw [if_pos ha, if_pos has, if_pos (hcons.2 ⟨ha, has⟩)]
        rfl
      · rw [if_pos ha, if_neg has, if_neg fun h => has (hcons.1 h).2]
        rfl
    · rw [if_neg ha, if_neg fun h => ha (hcons.1 h).1]
      rfl

/-- Bytes that the records of attributes take. -/
def recordsLength (tid : TransactionId) : List Attribute → Nat
  | [] => 0
  | a :: as => 4 + Bytes.paddedLength (a.value tid).length + recordsLength tid as

theorem length_flatten_written (tid : TransactionId) (as : List Attribute) :
    (as.map fun a => written a.code (a.value tid)).flatten.length = recordsLength tid as := by
  induction as with
  | nil => rfl
  | cons a as ih =>
    rw [List.map_cons, List.flatten_cons, List.length_append, length_written, ih, recordsLength]

/-- A value takes no more than its record. -/
theorem length_le_recordsLength {as : List Attribute} {a : Attribute} (h : a ∈ as) :
    (a.value tid).length ≤ recordsLength tid as := by
  induction h with
  | head as =>
    have hle := Bytes.le_paddedLength (a.value tid).length
    rw [recordsLength]
    omega
  | tail b _ ih =>
    rw [recordsLength]
    omega

theorem recordsLength_mod (tid : TransactionId) (as : List Attribute) :
    recordsLength tid as % 4 = 0 := by
  induction as with
  | nil => rfl
  | cons a as ih =>
    have hmod := Bytes.paddedLength_mod (a.value tid).length
    rw [recordsLength]
    omega

theorem recordsLength_append (as bs : List Attribute) :
    recordsLength tid (as ++ bs) = recordsLength tid as + recordsLength tid bs := by
  induction as with
  | nil => rw [List.nil_append, recordsLength, Nat.zero_add]
  | cons a as ih =>
    rw [List.cons_append, recordsLength, recordsLength, ih]
    omega

namespace Message
variable {m : Message} {body bytes : Bytes}

/-! ### The layout -/

/-- The header in front of so many bytes. -/
def header (m : Message) (length : Nat) : Bytes :=
  Bytes.be16 (messageType m.method m.cls) ++ Bytes.be16 (UInt16.ofNat length) ++
    Bytes.ofNat 4 magicCookie.toNat ++ Bytes.ofNat 12 m.tid.toNat

/-- The records of the plain attributes. -/
def plainBytes (m : Message) : Bytes :=
  (m.unprotected.attributes.map fun a => written a.code (a.value m.tid)).flatten

/-- The record with the code of a key behind a body. -/
def codeRecord (m : Message) (key : Key) (body : Bytes) : Bytes :=
  written key.mechanism.kind.code
    (key.sign [m.header (body.length + (4 + key.mechanism.macLength)) ++ body])

/-- The record with the fingerprint behind a body. -/
def markRecord (m : Message) (body : Bytes) : Bytes :=
  written Kind.fingerprint.code
    (Bytes.be32 (Stun.fingerprint [m.header (body.length + 8) ++ body]))

/-- The plain records, and the code of a key behind them. -/
def signed (m : Message) (key? : Option Key) : Bytes :=
  m.plainBytes ++ key?.elim [] (m.codeRecord · m.plainBytes)

/-- All that stands behind the header. -/
def payload (m : Message) (key? : Option Key) (fingerprint : Bool) : Bytes :=
  m.signed key? ++ if fingerprint then m.markRecord (m.signed key?) else []

/-- The bytes of a message that fits. -/
def packet (m : Message) (key? : Option Key) (fingerprint : Bool) : Bytes :=
  m.header (m.payload key? fingerprint).length ++ m.payload key? fingerprint

/-- Bytes that the code of a key takes. -/
def codeLength (key? : Option Key) : Nat := key?.elim 0 fun key => 4 + key.mechanism.macLength

/-- Bytes behind the header: four and the padded value for each attribute that does not protect,
then the code of the key and the fingerprint. -/
def size (m : Message) (key? : Option Key) (fingerprint : Bool) : Nat :=
  recordsLength m.tid m.unprotected.attributes +
    (match key?.map Key.mechanism with
      | none => 0
      | some .sha1 => 24
      | some .sha256 => 36) +
    if fingerprint then 8 else 0

theorem length_header (m : Message) (n : Nat) : (m.header n).length = headerLength := by
  simp [header, headerLength]

theorem length_plainBytes (m : Message) :
    m.plainBytes.length = recordsLength m.tid m.unprotected.attributes :=
  length_flatten_written m.tid m.unprotected.attributes

theorem length_codeRecord (m : Message) (key : Key) (body : Bytes) :
    (m.codeRecord key body).length = 4 + key.mechanism.macLength := by
  rw [codeRecord, length_written, Key.length_sign]
  cases key.mechanism <;> rfl

theorem length_markRecord (m : Message) (body : Bytes) : (m.markRecord body).length = 8 := by
  rw [markRecord, length_written, Bytes.length_be32]
  rfl

theorem length_signed (m : Message) (key? : Option Key) :
    (m.signed key?).length = recordsLength m.tid m.unprotected.attributes + codeLength key? := by
  rw [signed, List.length_append, length_plainBytes]
  cases key? with
  | none => rfl
  | some key => exact congrArg _ (m.length_codeRecord key _)

theorem size_eq (m : Message) (key? : Option Key) (fingerprint : Bool) :
    m.size key? fingerprint = recordsLength m.tid m.unprotected.attributes + codeLength key? +
      if fingerprint then 8 else 0 := by
  rw [size]
  cases key? with
  | none => rfl
  | some key =>
    obtain ⟨k, secret⟩ := key
    cases k <;> rfl

theorem length_payload (m : Message) (key? : Option Key) (fingerprint : Bool) :
    (m.payload key? fingerprint).length = m.size key? fingerprint := by
  rw [payload, List.length_append, length_signed, size_eq]
  cases fingerprint with
  | false => rfl
  | true => exact congrArg _ (m.length_markRecord _)

theorem size_mod (m : Message) (key? : Option Key) (fingerprint : Bool) :
    m.size key? fingerprint % 4 = 0 := by
  have hplain := recordsLength_mod m.tid m.unprotected.attributes
  have hcode : codeLength key? % 4 = 0 := by
    cases key? with
    | none => rfl
    | some key => cases hk : key.mechanism <;> simp [codeLength, hk, Mechanism.macLength]
  rw [size_eq]
  cases fingerprint <;> simp only [Bool.false_eq_true, if_false, if_true] <;> omega

/-! ### Writing -/

theorem frame_eq (m : Message) (body : Bytes) (extra : Nat) : m.frame body extra =
    if body.length + extra ≤ 65535 then .ok (m.header (body.length + extra) ++ body)
    else .error .invalidInput := by
  rw [frame, maxLength]
  split
  · rename_i h
    rw [if_neg (Nat.not_le.2 h)]
  · rename_i h
    rw [if_pos (Nat.le_of_not_lt h)]
    rfl

theorem body_eq (m : Message) : m.body =
    if ∀ a ∈ m.unprotected.attributes, (a.value m.tid).length ≤ 65535 then .ok m.plainBytes
    else .error .invalidInput := by
  change (m.unprotected.attributes.mapM fun a => record a.code (a.value m.tid)) >>= _ = _
  rw [mapM_record_eq]
  split <;> rfl

theorem protect_eq (m : Message) (body : Bytes) (key : Key) : m.protect body key =
    if body.length + (4 + key.mechanism.macLength) ≤ 65535 then
      .ok (body ++ m.codeRecord key body)
    else .error .invalidInput := by
  split
  · rename_i hroom
    have hmac (parts : List Bytes) : (key.sign parts).length ≤ 65535 := by
      rw [Key.length_sign]
      omega
    refine protect_eq_ok.2 ⟨_, _, ?_, record_of_le _ (hmac _), rfl⟩
    rw [frame_eq, if_pos hroom]
  · rename_i hroom
    rw [protect, frame_eq, if_neg hroom]
    rfl

theorem stamp_eq (m : Message) (body : Bytes) : m.stamp body =
    if body.length + 8 ≤ 65535 then .ok (body ++ m.markRecord body)
    else .error .invalidInput := by
  split
  · rename_i hroom
    have hmark (crc : UInt32) : (Bytes.be32 crc).length ≤ 65535 := by
      rw [Bytes.length_be32]
      omega
    refine stamp_eq_ok.2 ⟨_, _, ?_, record_of_le _ (hmark _), rfl⟩
    rw [frame_eq, if_pos hroom]
  · rename_i hroom
    rw [stamp, frame_eq, if_neg hroom]
    rfl

/-- A body that is stamped if asked and framed; it is the frame that decides. -/
theorem stamp_frame_eq (m : Message) (body : Bytes) (fingerprint : Bool) :
    ((if fingerprint then m.stamp body else pure body) >>= (m.frame · 0)) =
      if body.length + (if fingerprint then 8 else 0) ≤ 65535 then
        .ok (m.header (body ++ if fingerprint then m.markRecord body else []).length ++
          (body ++ if fingerprint then m.markRecord body else []))
      else .error .invalidInput := by
  cases fingerprint with
  | false =>
    simp only [Bool.false_eq_true, if_false, List.append_nil]
    exact m.frame_eq body 0
  | true =>
    have hlength : (body ++ m.markRecord body).length = body.length + 8 := by
      rw [List.length_append, length_markRecord]
    simp only [if_true]
    rw [stamp_eq]
    split
    · rename_i hroom
      refine (m.frame_eq _ 0).trans (if_pos ?_)
      rw [hlength]
      exact hroom
    · rfl

/-- Just the messages that fit are written, and every other is refused as too large. -/
theorem encode_eq (m : Message) (key? : Option Key) (fingerprint : Bool) :
    m.encode key? fingerprint =
      if m.size key? fingerprint ≤ 65535 then .ok (m.packet key? fingerprint)
      else .error .invalidInput := by
  have hsize : m.size key? fingerprint =
      (m.signed key?).length + if fingerprint then 8 else 0 := by rw [size_eq, length_signed]
  by_cases hshort : ∀ a ∈ m.unprotected.attributes, (a.value m.tid).length ≤ 65535
  · have hbody : m.body = .ok m.plainBytes := by rw [body_eq, if_pos hshort]
    have hframe := m.stamp_frame_eq (m.signed key?) fingerprint
    rw [← hsize] at hframe
    rw [encode, hbody]
    cases key? with
    | none =>
      refine Eq.trans ?_ hframe
      rw [signed, Option.elim_none, List.append_nil]
      cases fingerprint <;> rfl
    | some key =>
      change m.protect m.plainBytes key >>= _ = _
      rw [protect_eq]
      split
      · refine Eq.trans ?_ hframe
        cases fingerprint <;> rfl
      · rename_i hroom
        rw [length_plainBytes] at hroom
        rw [if_neg]
        · rfl
        rw [hsize, length_signed, codeLength, Option.elim_some]
        omega
  · -- One value is longer than any record, so the whole is too large as well.
    have hlarge : ¬ m.size key? fingerprint ≤ 65535 := by
      intro hfits
      refine hshort fun a ha => ?_
      have hle : (a.value m.tid).length ≤ _ := length_le_recordsLength ha
      rw [size_eq] at hfits
      omega
    rw [encode, body_eq, if_neg hshort, if_neg hlarge]
    rfl

theorem encode_isOk (m : Message) (key? : Option Key) (fingerprint : Bool) :
    (∃ bytes, m.encode key? fingerprint = .ok bytes) ↔ m.size key? fingerprint ≤ 65535 := by
  rw [encode_eq]
  split <;> simp [*]

/-! ### The framing -/

/-- How a message is framed: the header with the number of bytes behind it, then one record for each
plain attribute, for the code of the key and for the fingerprint. Each record protects all in front
of it, with a header that counts the record. -/
structure Frames (m : Message) (key? : Option Key) (fingerprint : Bool) (bytes : Bytes) :
    Prop where
  length : bytes.length = 20 + m.size key? fingerprint
  words : m.size key? fingerprint % 4 = 0
  head : bytes.take 20 = m.header (m.size key? fingerprint)
  field : Bytes.toNat ((bytes.drop 2).take 2) = m.size key? fingerprint
  records : ∃ plain code mark, bytes.drop 20 = List.flatten plain ++ code ++ mark ∧
    List.Forall₂ (fun a record => IsRecord a.code (a.value m.tid) record)
      m.unprotected.attributes plain ∧
    (match key? with
      | none => code = []
      | some key => IsRecord key.mechanism.kind.code (key.sign [m.header
          (plain.flatten.length + (4 + key.mechanism.macLength)) ++ plain.flatten]) code) ∧
    if fingerprint then IsRecord Kind.fingerprint.code (Bytes.be32 (Stun.fingerprint
      [m.header ((plain.flatten ++ code).length + 8) ++ (plain.flatten ++ code)])) mark
    else mark = []

/-- The length field of a header is what it counts. -/
theorem header_field (m : Message) {n : Nat} (h : n ≤ 65535) (rest : Bytes) :
    Bytes.toNat (((m.header n ++ rest).drop 2).take 2) = n := by
  have htype := Bytes.length_be16 (messageType m.method m.cls)
  have hsize := Bytes.length_be16 (UInt16.ofNat n)
  simp only [header, List.append_assoc]
  rw [List.drop_left' htype, List.take_left' hsize, toNat_be16 h]

theorem forall₂_written {as : List Attribute} (h : ∀ a ∈ as, (a.value tid).length ≤ 65535) :
    List.Forall₂ (fun a record => IsRecord a.code (a.value tid) record) as
      (as.map fun a => written a.code (a.value tid)) := by
  rw [List.forall₂_map_right_iff, List.forall₂_same]
  exact fun a ha => isRecord_written a.code (h a ha)

theorem frames_packet {key? : Option Key} {fingerprint : Bool}
    (h : m.size key? fingerprint ≤ 65535) :
    m.Frames key? fingerprint (m.packet key? fingerprint) := by
  have hhead : (m.header (m.payload key? fingerprint).length).length = 20 := m.length_header _
  have hlength := m.length_payload key? fingerprint
  have hshort : ∀ a ∈ m.unprotected.attributes, (a.value m.tid).length ≤ 65535 := by
    intro a ha
    have hle : (a.value m.tid).length ≤ _ := length_le_recordsLength ha
    rw [size_eq] at h
    omega
  refine ⟨?_, m.size_mod key? fingerprint, ?_, ?_, ?_⟩
  · rw [packet, List.length_append, hhead, hlength]
  · rw [packet, List.take_left' hhead, hlength]
  · rw [packet, hlength, header_field m h]
  · refine ⟨m.unprotected.attributes.map fun a => written a.code (a.value m.tid),
      key?.elim [] (m.codeRecord · m.plainBytes),
      if fingerprint then m.markRecord (m.signed key?) else [], ?_, ?_, ?_, ?_⟩
    · rw [packet, List.drop_left' hhead, payload, signed, plainBytes]
    · exact forall₂_written hshort
    · cases key? with
      | none => rfl
      | some key =>
        refine isRecord_written _ ?_
        rw [Key.length_sign]
        cases key.mechanism <;> decide
    · cases fingerprint with
      | false => rfl
      | true =>
        refine isRecord_written _ ?_
        rw [Bytes.length_be32]
        decide

end Message
end NatRelay.Stun
