import Mathlib.Control.Monad.Basic
import NatRelay.Proofs.Stun.Reading

/-! A verified code covers all that a receiver reads. Main statement: `checkIntegrity_covers`. -/
namespace NatRelay.Stun

/-- The mechanism whose code is checked, and where its record starts. -/
def Wire.checked? (w : Wire) : Option (Mechanism × Nat) :=
  match w.marks.sha256, w.marks.sha1 with
  | some offset, _ => some (.sha256, offset)
  | none, some offset => some (.sha1, offset)
  | none, none => none

theorem Wire.offset?_of_checked? {w : Wire} {k : Mechanism} {offset : Nat}
    (h : w.checked? = some (k, offset)) : w.marks.offset? k = some offset := by
  rw [checked?] at h
  split at h
  · rename_i hmark
    obtain ⟨rfl, rfl⟩ := Prod.mk.inj (Option.some.inj h)
    exact hmark
  · rename_i hmark
    obtain ⟨rfl, rfl⟩ := Prod.mk.inj (Option.some.inj h)
    exact hmark
  · cases h

/-- Whether a code is the one expected; one of HMAC-SHA256 may be cut on the right. -/
def Mechanism.Accepts (k : Mechanism) (expected mac : Bytes) : Prop :=
  match k with
  | sha1 => mac = expected
  | sha256 => 16 ≤ mac.length ∧ mac.length ≤ 32 ∧ mac = expected.take mac.length

theorem Key.accepts_of_verify {key : Key} {parts : List Bytes} {mac : Bytes}
    (h : key.verify parts mac = .ok ()) : key.mechanism.Accepts (key.sign parts) mac := by
  obtain ⟨k, secret⟩ := key
  rw [verify] at h
  cases k with
  | sha1 =>
    dsimp only at h
    split at h
    · rename_i heq
      exact eq_of_beq heq
    · cases h
  | sha256 =>
    dsimp only at h
    split at h
    · rename_i heq
      simp only [length_sign, Mechanism.macLength, Bool.and_eq_true, decide_eq_true_iff,
        beq_iff_eq] at heq
      exact ⟨heq.1.1, heq.1.2, heq.2⟩
    · cases h

theorem Message.mac?_eq (m : Message) :
    m.mac? = m.attributes.findSome? Mechanism.sha1.macOf? := by
  rw [mac?]
  congr
  funext a
  cases a <;> rfl

theorem Message.mac256?_eq (m : Message) :
    m.mac256? = m.attributes.findSome? Mechanism.sha256.macOf? := by
  rw [mac256?]
  congr
  funext a
  cases a <;> rfl

/-- The check by its stages: a mechanism, a code, a length, the verification. -/
theorem checkIntegrity_eq (m : Message) (w : Wire) (c : Credential) :
    checkIntegrity m (some w) c =
      match w.checked? with
      | none => .error .notIntegrity
      | some (k, offset) =>
        match m.attributes.findSome? k.macOf? with
        | none => .error .notIntegrity
        | some mac =>
          if offset + 4 + mac.length - headerLength > maxLength then .error .invalidInput
          else (c.key k).verify (covered w.bytes offset mac.length) mac >>= fun _ => .ok k := by
  rw [checkIntegrity, Wire.checked?, m.mac?_eq, m.mac256?_eq]
  cases w.marks.sha256 with
  | some offset =>
    simp only [pure_bind]
    cases m.attributes.findSome? Mechanism.sha256.macOf? <;> rfl
  | none =>
    cases w.marks.sha1 with
    | some offset =>
      simp only [pure_bind]
      cases m.attributes.findSome? Mechanism.sha1.macOf? <;> rfl
    | none => rfl

theorem Key.verify_eq_error {key : Key} {parts : List Bytes} {mac : Bytes} {e : Error}
    (h : key.verify parts mac = .error e) : e = .integrityFailed := by
  unfold verify at h
  dsimp only at h
  split at h
  · split at h
    · cases h
    · exact (Except.error.inj h).symm
  · split at h
    · cases h
    · exact (Except.error.inj h).symm

/-- The ways in which a check fails. -/
theorem checkIntegrity_eq_error {m : Message} {w : Wire} {c : Credential} {e : Error}
    (h : checkIntegrity m (some w) c = .error e) :
    e = .notIntegrity ∨ e = .invalidInput ∨ e = .integrityFailed := by
  rw [checkIntegrity_eq] at h
  split at h
  · exact .inl (Except.error.inj h).symm
  split at h
  · exact .inl (Except.error.inj h).symm
  split at h
  · exact .inr (.inl (Except.error.inj h).symm)
  · rename_i k offset _ _ mac _ _
    cases hverify : (c.key k).verify (covered w.bytes offset mac.length) mac with
    | ok =>
      rw [hverify] at h
      cases h
    | error e' =>
      rw [hverify] at h
      obtain rfl := Except.error.inj h
      exact .inr (.inr (Key.verify_eq_error hverify))

theorem validate_eq_error {m : Message} {w : Wire} {c : Credential} {e : Error}
    (h : validate m (some w) c = .error e) :
    e = .notIntegrity ∨ e = .invalidInput ∨ e = .integrityFailed := by
  rw [validate] at h
  split at h
  · exact .inl (Except.error.inj h).symm
  split at h
  · exact .inr (.inl (Except.error.inj h).symm)
  · exact checkIntegrity_eq_error h

theorem checkIntegrity_eq_ok {m : Message} {w : Wire} {c : Credential} {k : Mechanism}
    (h : checkIntegrity m (some w) c = .ok k) :
    ∃ offset mac, w.checked? = some (k, offset) ∧ m.attributes.findSome? k.macOf? = some mac ∧
      offset + 4 + mac.length - headerLength ≤ maxLength ∧
      (c.key k).verify (covered w.bytes offset mac.length) mac = .ok () := by
  rw [checkIntegrity_eq] at h
  split at h
  · cases h
  rename_i hchecked
  split at h
  · cases h
  rename_i hmac
  split at h
  · cases h
  rename_i hlength
  obtain ⟨⟨⟩, hverify, h⟩ := bind_eq_ok.1 h
  obtain rfl := Except.ok.inj h
  exact ⟨_, _, hchecked, hmac, Nat.not_lt.1 hlength, hverify⟩

section Agreement
variable {b b' : Bytes} {r r' : Received} {k : Mechanism} {offset : Nat}

/-- The record that is checked. -/
theorem Decodes.checked (h : Decodes b r) (hchecked : r.wire.checked? = some (k, offset)) :
    ∃ x ∈ (splitRecords headerLength (b.drop headerLength)).1, x.offset = offset ∧
      x.code = k.kind.code ∧ r.message.attributes.findSome? k.macOf? = some x.value := by
  obtain ⟨whole, hcollect⟩ := h.attributes
  refine collect_marks ?_ hcollect (Wire.offset?_of_checked? hchecked)
  cases k <;> rfl

/-- The code of a message that was read ends within it. -/
theorem checkIntegrity_ne_invalidInput (h : Received.decode b = .ok r) (c : Credential) :
    checkIntegrity r.message (some r.wire) c ≠ .error .invalidInput := by
  obtain ⟨⟨hhead, size, -, hwords, hsize⟩, -⟩ := decode_eq_ok.1 h
  rw [checkIntegrity_eq]
  split
  · rintro ⟨⟩
  rename_i k offset hchecked
  obtain ⟨x, hx, rfl, -, hvalue⟩ := (decodes h).checked hchecked
  rw [hvalue]
  dsimp only
  rw [if_neg]
  · intro hinvalid
    cases hverify : (c.key k).verify (covered r.wire.bytes x.offset x.value.length) x.value with
    | ok u =>
      rw [hverify] at hinvalid
      cases hinvalid
    | error e =>
      rw [hverify] at hinvalid
      obtain rfl := Except.error.inj hinvalid
      cases Key.verify_eq_error hverify
  · obtain ⟨hcode, hlies⟩ := of_mem_splitRecords hx
    have hcode := congrArg List.length hcode
    have hlies := congrArg List.length hlies
    have hlt := size.toNat_lt
    simp only [List.length_take, List.length_drop, Bytes.length_be16, headerLength, maxLength]
      at hcode hlies ⊢
    omega

theorem takeWhile_append_of_neg {α : Type} {p : α → Bool} {x : α} (hx : p x = false)
    (before after : List α) : (before ++ x :: after).takeWhile p = before.takeWhile p := by
  induction before with
  | nil =>
    rw [List.nil_append, List.takeWhile_cons_of_neg (by simp [hx])]
    rfl
  | cons y ys ih =>
    rw [List.cons_append, List.takeWhile_cons, List.takeWhile_cons, ih]

/-- Two packets whose checked records are of one mechanism and at one offset, and that agree in
front of it but for the length field, are read alike. -/
theorem Decodes.agree (h : Decodes b r) (h' : Decodes b' r')
    (hchecked : r.wire.checked? = some (k, offset))
    (hchecked' : r'.wire.checked? = some (k, offset)) (htype : b'.take 2 = b.take 2)
    (hbody : (b'.take offset).drop 4 = (b.take offset).drop 4) :
    r'.message.method = r.message.method ∧ r'.message.cls = r.message.cls ∧
      r'.message.tid = r.message.tid ∧
      r'.message.attributes.filter (!·.isProtection) =
        r.message.attributes.filter (!·.isProtection) := by
  obtain ⟨x, hx, hoffset, hcode, -⟩ := h.checked hchecked
  obtain ⟨x', hx', hoffset', hcode', -⟩ := h'.checked hchecked'
  have hle : headerLength ≤ offset := hoffset ▸ le_offset hx
  have htid : r'.message.tid = r.message.tid := by
    have hbytes := congrArg (fun l => (l.drop 4).take 12) hbody
    have hmin : min 12 (offset - 4 - 4) = 12 := by
      simp only [headerLength] at hle
      omega
    simp only [List.drop_take, List.drop_drop, List.take_take, hmin] at hbytes
    rw [h.tid, h'.tid, hbytes]
  obtain ⟨n, rfl⟩ := Nat.exists_eq_add_of_le hle
  have hrecords : (b'.drop headerLength).take n = (b.drop headerLength).take n := by
    have hbytes := congrArg (List.drop 16) hbody
    rw [List.drop_drop, List.drop_drop] at hbytes
    rw [List.take_drop, List.take_drop]
    exact hbytes
  obtain ⟨before, after, after', hsplit, hsplit'⟩ :=
    splitRecords_agree hx hx' hoffset hoffset' hrecords
  obtain ⟨high, low, htake, hkind⟩ := h.kind
  obtain ⟨high', low', htake', hkind'⟩ := h'.kind
  rw [htake, htake'] at htype
  obtain ⟨rfl, rfl⟩ : high' = high ∧ low' = low := by simpa using htype
  obtain ⟨hmethod, hcls⟩ := Prod.mk.inj (Except.ok.inj (hkind'.symm.trans hkind))
  refine ⟨hmethod, hcls, htid, ?_⟩
  obtain ⟨whole, hcollect⟩ := h.attributes
  obtain ⟨whole', hcollect'⟩ := h'.attributes
  have hprotects := Record.isProtection_of_code hcode
  have hprotects' := Record.isProtection_of_code hcode'
  rw [collect_plain hcollect, collect_plain hcollect', hsplit, hsplit', htid,
    takeWhile_append_of_neg (by simp [hprotects']), takeWhile_append_of_neg (by simp [hprotects])]

/-- A code that verifies is the code of the packet in front of it, with a length field that ends
behind it, and a packet cannot be changed there: any other that is read with a code of the same
mechanism at the same offset has the same head and the same attributes, but for those that
protect. -/
theorem checkIntegrity_covers {c : Credential} (h : Received.decode b = .ok r)
    (hok : checkIntegrity r.message (some r.wire) c = .ok k) :
    ∃ offset mac, r.wire.checked? = some (k, offset) ∧
      r.message.attributes.findSome? k.macOf? = some mac ∧
      (b.drop offset).take 2 = Bytes.be16 k.kind.code ∧
      (b.drop (offset + 4)).take mac.length = mac ∧
      offset + 4 + mac.length - 20 ≤ 65535 ∧
      k.Accepts ((c.key k).sign [b.take 2,
        Bytes.be16 (UInt16.ofNat (offset + 4 + mac.length - 20)), (b.take offset).drop 4]) mac ∧
      ∀ b' r', Received.decode b' = .ok r' → r'.wire.checked? = some (k, offset) →
        b'.take 2 = b.take 2 → (b'.take offset).drop 4 = (b.take offset).drop 4 →
        r'.message.method = r.message.method ∧ r'.message.cls = r.message.cls ∧
          r'.message.tid = r.message.tid ∧
          r'.message.attributes.filter (!·.isProtection) =
            r.message.attributes.filter (!·.isProtection) := by
  have hdecodes := decodes h
  obtain ⟨offset, mac, hchecked, hmac, hlength, hverify⟩ := checkIntegrity_eq_ok hok
  obtain ⟨x, hx, rfl, hcode, hvalue⟩ := hdecodes.checked hchecked
  obtain rfl := Option.some.inj (hmac.symm.trans hvalue)
  have hle := le_offset hx
  obtain ⟨hlies, hlies'⟩ := of_mem_splitRecords hx
  rw [List.drop_drop] at hlies hlies'
  have haccepts := Key.accepts_of_verify hverify
  rw [Credential.mechanism_key, hdecodes.bytes] at haccepts
  refine ⟨x.offset, x.value, hchecked, hmac, ?_, ?_, hlength, haccepts, ?_⟩
  · rw [← hcode, ← hlies, Nat.add_sub_cancel' hle]
  · rw [← Nat.add_assoc, Nat.add_sub_cancel' hle] at hlies'
    exact hlies'
  · intro b' r' h' hchecked' htype hbody
    exact hdecodes.agree (decodes h') hchecked hchecked' htype hbody

/-- A Refresh request for ten minutes, with a code of HMAC-SHA256 cut to sixteen bytes. -/
theorem checkIntegrity_covers_lifetime :
    let body : Bytes := [0x21, 0x12, 0xA4, 0x42, 0, 0, 0, 0, 0, 0, 0, 0, 0, 0, 0, 7,
      0, 0x0D, 0, 4, 0, 0, 2, 0x58]
    let mac : Bytes := [199, 30, 3, 244, 213, 76, 160, 121, 100, 229, 103, 212, 152, 200, 213, 8]
    let b : Bytes := [0, 4, 0, 28] ++ body ++ [0, 0x1C, 0, 16] ++ mac
    let r : Received :=
      ⟨⟨.refresh, .request, 7, [.lifetime 600, .messageIntegritySha256 mac]⟩, b, none, some 28⟩
    Received.decode b = .ok r ∧
      checkIntegrity r.message (some r.wire) ⟨"alice", "example.org", "secret"⟩ = .ok .sha256 ∧
      ∀ b' r', Received.decode b' = .ok r' → r'.wire.checked? = some (.sha256, 28) →
        b'.take 2 = [0, 4] → (b'.take 28).drop 4 = body →
        r'.message.attributes.filter (!·.isProtection) = [.lifetime 600] := by
  intro body mac b r
  have hdecode : Received.decode b = .ok r := by decide +kernel
  have hok : checkIntegrity r.message (some r.wire) ⟨"alice", "example.org", "secret"⟩ =
      .ok .sha256 := by decide +kernel
  refine ⟨hdecode, hok, ?_⟩
  obtain ⟨offset, mac', hchecked, -, -, -, -, -, hcovers⟩ := checkIntegrity_covers hdecode hok
  obtain rfl : 28 = offset := (Prod.mk.inj (Option.some.inj hchecked)).2
  intro b' r' hdecode' hchecked' htype hbody
  exact (hcovers b' r' hdecode' hchecked' htype hbody).2.2.2

end Agreement

end NatRelay.Stun
