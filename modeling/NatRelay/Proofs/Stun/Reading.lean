import NatRelay.Proofs.Stun.Records

/-! Reading the records of a message. What is read besides the attributes that protect stands in
front of them (`collect_plain`), and a mark leads to the record that set it (`collect_marks`). A
packet is read by its header and its records (`decode_eq_ok`). -/
namespace NatRelay.Stun

namespace Marks

/-- Where the record of a mechanism starts that was passed. -/
def offset? (marks : Marks) : Mechanism → Option Nat
  | .sha1 => marks.sha1
  | .sha256 => marks.sha256

/-- Whether an integrity record was passed. -/
def isProtected (marks : Marks) : Bool := marks.sha1.isSome || marks.sha256.isSome

theorem offset?_after (marks : Marks) (a : Attribute) (offset : Nat) (k : Mechanism) :
    (marks.after a offset).offset? k =
      if (k.macOf? a).isSome then some offset else marks.offset? k := by
  cases a <;> cases k <;> rfl

theorem offset?_of_shows {marks : Marks} {k : Mechanism} (h : marks.shows k.kind.code) :
    marks.offset? k = none := by
  cases k with
  | sha1 =>
    have hnone : marks.sha1.isNone ∧ marks.sha256.isNone := by
      simpa [shows, Mechanism.kind, Kind.code] using h
    exact Option.isNone_iff_eq_none.1 hnone.1
  | sha256 => exact Option.isNone_iff_eq_none.1 h

theorem shows_empty (code : UInt16) : ({} : Marks).shows code := by
  rw [shows]
  split
  · rfl
  split <;> rfl

/-- Behind an integrity record no attribute of another sort is visible. -/
theorem isProtection_of_shows {marks : Marks} {code : UInt16} (hprotected : marks.isProtected)
    (h : marks.shows code) : (Kind.ofCode? code).any Kind.isProtection := by
  rw [shows] at h
  split at h
  · rename_i hcode
    rw [hcode]
    rfl
  split at h
  · rename_i hcode
    rw [hcode]
    rfl
  · rw [isProtected] at hprotected
    cases h1 : marks.sha1 <;> cases h2 : marks.sha256 <;> simp_all

theorem isProtected_after {marks : Marks} {a : Attribute} {offset : Nat}
    (h : marks.isProtected ∨ a.isProtection ∧ ∀ crc, a ≠ .fingerprint crc) :
    (marks.after a offset).isProtected := by
  rcases h with h | ⟨h, hne⟩
  · cases a <;> simp_all [after, isProtected]
  · cases a <;> simp_all [after, isProtected, Attribute.isProtection]

theorem after_of_not_isProtection {marks : Marks} {a : Attribute} {offset : Nat}
    (h : a.isProtection = false) : marks.after a offset = marks := by
  cases a <;> first | rfl | cases h

end Marks

theorem Record.isProtection_of_code {r : Record} {k : Mechanism} (h : r.code = k.kind.code) :
    r.isProtection := by
  rw [isProtection, h, Kind.ofCode?_code]
  cases k <;> rfl

variable {packet : Bytes} {tid : TransactionId} {whole : Bool} {marks final : Marks}
  {records : List Record} {attributes : List Attribute}

theorem collect_nil (h : collect packet tid whole marks [] = .ok (attributes, final)) :
    attributes = [] ∧ final = marks := by
  rw [collect] at h
  split at h
  · obtain ⟨rfl, rfl⟩ := Prod.mk.inj (Except.ok.inj h)
    exact ⟨rfl, rfl⟩
  · cases h

/-- What reading one record does: it is passed over, it is the fingerprint that ends the reading, or
its attribute comes first. -/
theorem collect_cons {r : Record} {rs : List Record}
    (h : collect packet tid whole marks (r :: rs) = .ok (attributes, final)) :
    (marks.shows r.code = false ∧ collect packet tid whole marks rs = .ok (attributes, final)) ∨
      marks.shows r.code = true ∧ ∃ a, Attribute.ofValue tid r.code r.value = .ok a ∧
        ((∃ crc, a = .fingerprint crc ∧ attributes = [a] ∧ final = marks) ∨
          (∀ crc, a ≠ .fingerprint crc) ∧ ∃ rest, attributes = a :: rest ∧
            collect packet tid whole (marks.after a r.offset) rs = .ok (rest, final)) := by
  rw [collect] at h
  cases hshows : marks.shows r.code with
  | false =>
    simp only [hshows, Bool.false_eq_true, if_false] at h
    exact .inl ⟨rfl, h⟩
  | true =>
    simp only [hshows, if_true] at h
    obtain ⟨a, ha, h⟩ := bind_eq_ok.1 h
    refine .inr ⟨rfl, a, ha, ?_⟩
    split at h
    · rename_i crc
      split at h
      · obtain ⟨rfl, rfl⟩ := Prod.mk.inj (Except.ok.inj h)
        exact .inl ⟨crc, rfl, rfl, rfl⟩
      · cases h
    · rename_i hne
      obtain ⟨⟨rest, final'⟩, hrest, h⟩ := bind_eq_ok.1 h
      obtain ⟨rfl, rfl⟩ := Prod.mk.inj (Except.ok.inj h)
      exact .inr ⟨hne, rest, rfl, hrest⟩

/-- A visible record in front adds its attribute to what is behind it. -/
theorem collect_shown {r : Record} {a : Attribute}
    (hshows : marks.shows r.code) (ha : Attribute.ofValue tid r.code r.value = .ok a)
    (hne : ∀ crc, a ≠ .fingerprint crc) (rs : List Record) :
    collect packet tid whole marks (r :: rs) =
      (fun read => (a :: read.1, read.2)) <$>
        collect packet tid whole (marks.after a r.offset) rs := by
  rw [collect, if_pos hshows, ha]
  cases a with
  | fingerprint crc => exact absurd rfl (hne crc)
  | _ =>
    change (collect packet tid whole _ rs >>= _) = _
    cases collect packet tid whole _ rs <;> rfl

/-- No record is read twice. -/
theorem length_of_collect (h : collect packet tid whole marks records = .ok (attributes, final)) :
    attributes.length ≤ records.length := by
  induction records generalizing marks attributes with
  | nil =>
    obtain ⟨rfl, -⟩ := collect_nil h
    exact Nat.le_refl _
  | cons r rs ih =>
    rcases collect_cons h with ⟨-, hrest⟩ | ⟨-, a, -, ⟨crc, -, rfl, -⟩ | ⟨-, rest, rfl, hrest⟩⟩
    · exact Nat.le_succ_of_le (ih hrest)
    · simp
    · exact Nat.succ_le_succ (ih hrest)

/-- Behind an integrity record only attributes that protect are read. -/
theorem collect_protected (hprotected : marks.isProtected)
    (h : collect packet tid whole marks records = .ok (attributes, final)) :
    attributes.filter (!·.isProtection) = [] := by
  induction records generalizing marks attributes with
  | nil =>
    obtain ⟨rfl, -⟩ := collect_nil h
    rfl
  | cons r rs ih =>
    rcases collect_cons h with ⟨-, hrest⟩ | ⟨hshows, a, ha, hread⟩
    · exact ih hprotected hrest
    have hprotection : a.isProtection :=
      (Attribute.isProtection_ofValue ha).trans (Marks.isProtection_of_shows hprotected hshows)
    rcases hread with ⟨crc, -, rfl, -⟩ | ⟨-, rest, rfl, hrest⟩
    · simp [hprotection]
    · rw [List.filter_cons_of_neg (by simp [hprotection])]
      exact ih (Marks.isProtected_after (.inl hprotected)) hrest

/-- The attributes that do not protect are those of the records in front of the first that does, one
for each. -/
theorem mapM_of_collect (h : collect packet tid whole {} records = .ok (attributes, final)) :
    (records.takeWhile (!·.isProtection)).mapM (fun r => Attribute.ofValue tid r.code r.value) =
      .ok (attributes.filter (!·.isProtection)) := by
  induction records generalizing attributes with
  | nil =>
    obtain ⟨rfl, -⟩ := collect_nil h
    rfl
  | cons r rs ih =>
    rcases collect_cons h with ⟨hshows, -⟩ | ⟨-, a, ha, hread⟩
    · rw [Marks.shows_empty] at hshows
      cases hshows
    have hprotection : a.isProtection = r.isProtection := Attribute.isProtection_ofValue ha
    cases hr : r.isProtection with
    | true =>
      rw [hr] at hprotection
      rw [List.takeWhile_cons_of_neg (by simp [hr])]
      rcases hread with ⟨crc, -, rfl, -⟩ | ⟨hne, rest, rfl, hrest⟩
      · simp [hprotection, Pure.pure, Except.pure]
      · rw [List.filter_cons_of_neg (by simp [hprotection]),
          collect_protected (Marks.isProtected_after (.inr ⟨hprotection, hne⟩)) hrest]
        rfl
    | false =>
      rw [hr] at hprotection
      rw [List.takeWhile_cons_of_pos (by simp [hr])]
      rcases hread with ⟨crc, rfl, -, -⟩ | ⟨-, rest, rfl, hrest⟩
      · cases hprotection
      · rw [Marks.after_of_not_isProtection hprotection] at hrest
        rw [List.filter_cons_of_pos (by simp [hprotection]), List.mapM_cons, ha, ih hrest]
        rfl

theorem filterMap_of_mapM {ε α β : Type} {f : α → Except ε β} {as : List α} {bs : List β}
    (h : as.mapM f = .ok bs) : as.filterMap (fun a => (f a).toOption) = bs := by
  induction as generalizing bs with
  | nil =>
    obtain rfl := Except.ok.inj h
    rfl
  | cons a as ih =>
    rw [List.mapM_cons] at h
    obtain ⟨b, hb, h⟩ := bind_eq_ok.1 h
    obtain ⟨rest, hrest, h⟩ := bind_eq_ok.1 h
    obtain rfl := Except.ok.inj h
    rw [List.filterMap_cons, hb, ih hrest]
    rfl

/-- The attributes that do not protect are determined by the records in front of the first that
does. -/
theorem collect_plain (h : collect packet tid whole {} records = .ok (attributes, final)) :
    attributes.filter (!·.isProtection) =
      (records.takeWhile (!·.isProtection)).filterMap
        fun r => (Attribute.ofValue tid r.code r.value).toOption :=
  (filterMap_of_mapM (mapM_of_collect h)).symm

/-- A mark stays where it was set. -/
theorem collect_marked {k : Mechanism} {offset : Nat} (hmark : marks.offset? k = some offset)
    (h : collect packet tid whole marks records = .ok (attributes, final)) :
    final.offset? k = some offset := by
  induction records generalizing marks attributes with
  | nil =>
    obtain ⟨-, rfl⟩ := collect_nil h
    exact hmark
  | cons r rs ih =>
    rcases collect_cons h with ⟨-, hrest⟩ | ⟨hshows, a, ha, hread⟩
    · exact ih hmark hrest
    rcases hread with ⟨crc, -, -, rfl⟩ | ⟨-, rest, -, hrest⟩
    · exact hmark
    · have hcode : r.code ≠ k.kind.code := by
        intro hcode
        rw [hcode] at hshows
        rw [Marks.offset?_of_shows hshows] at hmark
        cases hmark
      refine ih ?_ hrest
      rw [Marks.offset?_after, Attribute.macOf?_ofValue ha, if_neg hcode]
      exact hmark

/-- A mark that is set leads to a record, whose value is the first code of its mechanism. -/
theorem collect_marks {k : Mechanism} {offset : Nat} (hmark : marks.offset? k = none)
    (h : collect packet tid whole marks records = .ok (attributes, final))
    (hfinal : final.offset? k = some offset) :
    ∃ r ∈ records, r.offset = offset ∧ r.code = k.kind.code ∧
      attributes.findSome? k.macOf? = some r.value := by
  induction records generalizing marks attributes with
  | nil =>
    obtain ⟨-, rfl⟩ := collect_nil h
    rw [hmark] at hfinal
    cases hfinal
  | cons r rs ih =>
    rcases collect_cons h with ⟨-, hrest⟩ | ⟨hshows, a, ha, hread⟩
    · obtain ⟨r', hr', hfound⟩ := ih hmark hrest
      exact ⟨r', List.mem_cons_of_mem _ hr', hfound⟩
    rcases hread with ⟨crc, -, -, rfl⟩ | ⟨-, rest, rfl, hrest⟩
    · rw [hmark] at hfinal
      cases hfinal
    have hmac := Attribute.macOf?_ofValue ha k
    have hafter := marks.offset?_after a r.offset k
    by_cases hcode : r.code = k.kind.code
    · rw [if_pos hcode] at hmac
      rw [hmac] at hafter
      have hoffset := (collect_marked hafter hrest).symm.trans hfinal
      refine ⟨r, List.mem_cons_self, Option.some.inj hoffset, hcode, ?_⟩
      rw [List.findSome?_cons, hmac]
    · rw [if_neg hcode] at hmac
      rw [hmac] at hafter
      obtain ⟨r', hr', hoffset, hcode', hfound⟩ := ih (hafter.trans hmark) hrest
      refine ⟨r', List.mem_cons_of_mem _ hr', hoffset, hcode', ?_⟩
      rw [List.findSome?_cons, hmac]
      exact hfound

/-! ### Packets -/

/-- A header is there, and its length field counts in whole words what is behind it. -/
def Sized (b : Bytes) : Prop :=
  20 ≤ b.length ∧ ∃ size : UInt16, (b.drop 2).take 2 = Bytes.be16 size ∧ size.toNat % 4 = 0 ∧
    size.toNat = b.length - 20

/-- The twelve bytes of a header that pair a response with its request. -/
def headerId (b : Bytes) : TransactionId := BitVec.ofNat 96 (Bytes.toNat ((b.drop 8).take 12))

theorem toNat_eq_magicCookie {bytes : Bytes} (h : bytes.length = 4) :
    bytes.toNat = magicCookie.toNat ↔ bytes = [0x21, 0x12, 0xA4, 0x42] := by
  constructor
  · intro hcookie
    rw [← Bytes.ofNat_toNat bytes, h, hcookie]
    rfl
  · rintro rfl
    rfl

theorem sized_iff {t₁ t₀ l₁ l₀ : UInt8} {rest : Bytes} : Sized (t₁ :: t₀ :: l₁ :: l₀ :: rest) ↔
    ¬ (rest.length < 16 ∨ (Bytes.word16 l₁ l₀).toNat % 4 ≠ 0 ∨
      (t₁ :: t₀ :: l₁ :: l₀ :: rest).length ≠ headerLength + (Bytes.word16 l₁ l₀).toNat) := by
  have hsize (size : UInt16) :
      ((t₁ :: t₀ :: l₁ :: l₀ :: rest).drop 2).take 2 = Bytes.be16 size ↔
        size = Bytes.word16 l₁ l₀ := Bytes.eq_be16_iff
  simp only [Sized, hsize, exists_eq_left, List.length_cons, headerLength]
  omega

/-- A packet is read if its header is right and its records are. -/
theorem decode_eq_ok {b : Bytes} {r : Received} : Received.decode b = .ok r ↔
    Sized b ∧ (b.drop 4).take 4 = [0x21, 0x12, 0xA4, 0x42] ∧
    (∃ type, b.take 2 = Bytes.be16 type ∧
      splitMessageType type = .ok (r.message.method, r.message.cls)) ∧
    r.message.tid = headerId b ∧ r.wire.bytes = b ∧
    collect b (headerId b) (splitRecords 20 (b.drop 20)).2 {} (splitRecords 20 (b.drop 20)).1 =
      .ok (r.message.attributes, r.wire.marks) := by
  match b with
  | [] | [_] | [_, _] | [_, _, _] => simp [Received.decode, Sized]
  | t₁ :: t₀ :: l₁ :: l₀ :: rest =>
    have htype (type : UInt16) : (t₁ :: t₀ :: l₁ :: l₀ :: rest).take 2 = Bytes.be16 type ↔
        type = Bytes.word16 t₁ t₀ := Bytes.eq_be16_iff
    simp only [sized_iff, htype, exists_eq_left]
    rw [Received.decode]
    dsimp only
    split
    · rename_i hshape
      simp only [reduceCtorEq, hshape, not_true_eq_false, false_and]
    rename_i hshape
    have hcookie : Bytes.toNat (rest.take 4) = magicCookie.toNat ↔
        ((t₁ :: t₀ :: l₁ :: l₀ :: rest).drop 4).take 4 = [0x21, 0x12, 0xA4, 0x42] := by
      refine @toNat_eq_magicCookie (rest.take 4) ?_
      rw [List.length_take]
      omega
    rw [and_iff_right hshape]
    split
    · rename_i hne
      simp only [reduceCtorEq, false_iff, not_and]
      exact fun heq => absurd (hcookie.2 heq) hne
    rename_i heq
    rw [and_iff_right (hcookie.1 (Classical.not_not.1 heq)), bind_eq_ok]
    simp only [bind_eq_ok]
    constructor
    · rintro ⟨⟨method, cls⟩, hkind, ⟨attributes, marks⟩, hcollect, h⟩
      obtain rfl := Except.ok.inj h
      exact ⟨hkind, rfl, rfl, hcollect⟩
    · obtain ⟨⟨method, cls, tid, attributes⟩, ⟨bytes, marks⟩⟩ := r
      rintro ⟨hkind, rfl, rfl, hcollect⟩
      exact ⟨_, hkind, _, hcollect, rfl⟩

/-- What a packet holds that is read as a message. -/
structure Decodes (b : Bytes) (r : Received) : Prop where
  bytes : r.wire.bytes = b
  length : headerLength ≤ b.length
  kind : ∃ high low, b.take 2 = [high, low] ∧
    splitMessageType (Bytes.word16 high low) = .ok (r.message.method, r.message.cls)
  tid : r.message.tid = BitVec.ofNat 96 (Bytes.toNat ((b.drop 8).take 12))
  attributes : ∃ whole, collect b r.message.tid whole {}
    (splitRecords headerLength (b.drop headerLength)).1 =
      .ok (r.message.attributes, r.wire.marks)

theorem decodes {b : Bytes} {r : Received} (h : Received.decode b = .ok r) : Decodes b r := by
  obtain ⟨hsized, -, ⟨type, htype, hkind⟩, htid, hbytes, hcollect⟩ := decode_eq_ok.1 h
  obtain ⟨high, low, hbe, hword, -⟩ := Bytes.be16_eq type
  rw [← htid] at hcollect
  exact ⟨hbytes, hsized.1, ⟨high, low, htype.trans hbe, hword.symm ▸ hkind⟩, htid, _, hcollect⟩

/-- What the length field of a packet counts bounds the attributes. -/
theorem length_attributes {b : Bytes} {r : Received} (h : Received.decode b = .ok r) :
    4 * r.message.attributes.length ≤ 65535 := by
  obtain ⟨⟨hhead, size, -, -, hsize⟩, -, -, -, -, hcollect⟩ := decode_eq_ok.1 h
  have hlt := size.toNat_lt
  have hread := length_of_collect hcollect
  have hsplit := length_splitRecords 20 (b.drop 20)
  rw [List.length_drop] at hsplit
  omega

end NatRelay.Stun
