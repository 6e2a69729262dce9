import Mathlib.Data.List.Forall2
import NatRelay.Proofs.Stun.Positional
import NatRelay.Proofs.Stun.Reading
import NatRelay.Proofs.Stun.WellFormed

/-! The grammar of packets, and that reading accepts just the packets of the grammar.

Reading walks over the records with two marks. What it sees depends only on the codes it has passed:
the marks stand for them (`Marks.StandFor`). From there on the grammar and the reading go record by
record together (`collect_iff`). Main statement: `decode_grammatical`. -/
namespace NatRelay.Stun

/-! ### The grammar -/

/-- The records of a packet from an offset on. They follow one another up to the end, or up to the
first fingerprint, behind which any bytes may stand. -/
inductive Cut : Nat → Bytes → List Record → Prop
  | done {offset : Nat} : Cut offset [] []
  | mark {r : Record} {bytes tail : Bytes} :
      r.code = Kind.fingerprint.code → r.Fills bytes → Cut r.offset (bytes ++ tail) [r]
  | next {r : Record} {bytes rest : Bytes} {rs : List Record} :
      r.code ≠ Kind.fingerprint.code → r.Fills bytes → Cut (r.offset + bytes.length) rest rs →
        Cut r.offset (bytes ++ rest) (r :: rs)

/-- Whether records of a code protect the attributes in front of them. -/
def IsIntegrity (code : UInt16) : Prop :=
  code = Kind.messageIntegrity.code ∨ code = Kind.messageIntegritySha256.code

/-- Whether a record of a code is visible behind records of other codes: all are in front of the
first integrity record, and behind it the first of HMAC-SHA256 and the fingerprint. -/
def Visible (before : List UInt16) (code : UInt16) : Prop :=
  (∀ c ∈ before, ¬ IsIntegrity c) ∨ code = Kind.fingerprint.code ∨
    code = Kind.messageIntegritySha256.code ∧ Kind.messageIntegritySha256.code ∉ before

instance (code : UInt16) : Decidable (IsIntegrity code) := inferInstanceAs (Decidable (_ ∨ _))

instance (before : List UInt16) (code : UInt16) : Decidable (Visible before code) :=
  inferInstanceAs (Decidable (_ ∨ _ ∨ _))

/-- The visible records behind others. -/
def visible (before : List UInt16) : List Record → List Record
  | [] => []
  | r :: rs =>
    if Visible before r.code then r :: visible (before ++ [r.code]) rs
    else visible (before ++ [r.code]) rs

/-- The type of the packet has no top bits and holds a known method. -/
def HasMethod (b : Bytes) : Prop :=
  ∃ type : UInt16, b.take 2 = Bytes.be16 type ∧ type < 0x4000 ∧
    ∃ method : Method, methodCode type = method.code

/-- Whether the value of a record at an offset is the checksum of what is in front of it, with a
length field that ends behind the record. -/
def Record.Seals (r : Record) (b : Bytes) : Prop :=
  r.value = Bytes.be32 (fingerprint
    [b.take 2, Bytes.be16 (UInt16.ofNat (r.offset + 8 - 20)), (b.take r.offset).drop 4])

/-- Packets that hold one message. -/
structure Grammatical (b : Bytes) (records : List Record) : Prop where
  sized : Sized b
  cookie : (b.drop 4).take 4 = [0x21, 0x12, 0xA4, 0x42]
  method : HasMethod b
  cut : Cut 20 (b.drop 20) records
  values : ∀ r ∈ visible [] records, WellFormed r.code r.value
  seals : ∀ r ∈ records, r.code = Kind.fingerprint.code → r.Seals b

/-! ### What is visible -/

namespace Marks
variable {marks : Marks} {before : List UInt16}

/-- The marks stand for the codes of the records that were passed. -/
def StandFor (marks : Marks) (before : List UInt16) : Prop :=
  (marks.isProtected ↔ ∃ c ∈ before, IsIntegrity c) ∧
    (marks.sha256.isSome ↔ Kind.messageIntegritySha256.code ∈ before)

theorem shows_iff (h : marks.StandFor before) (code : UInt16) :
    marks.shows code ↔ Visible before code := by
  obtain ⟨hprotected, hsha256⟩ := h
  have hnone : marks.sha256.isNone ↔ Kind.messageIntegritySha256.code ∉ before := by
    rw [← hsha256, Option.isNone_iff_eq_none, Option.isSome_iff_ne_none, Classical.not_not]
  rw [shows]
  by_cases hsha : code = Kind.messageIntegritySha256.code
  · rw [if_pos hsha, hnone]
    constructor
    · intro hmem
      exact .inr (.inr ⟨hsha, hmem⟩)
    · rintro (hclear | hmark | ⟨-, hmem⟩) hpassed
      · exact hclear _ hpassed (.inr rfl)
      · rw [hsha] at hmark
        cases hmark
      · exact hmem hpassed
  by_cases hmark : code = Kind.fingerprint.code
  · rw [if_neg hsha, if_pos hmark]
    exact iff_of_true rfl (.inr (.inl hmark))
  · have hclear : (marks.sha1.isNone && marks.sha256.isNone) = true ↔
        ∀ c ∈ before, ¬ IsIntegrity c := by
      have hnot : (∀ c ∈ before, ¬ IsIntegrity c) ↔ ¬ ∃ c ∈ before, IsIntegrity c := by simp
      rw [hnot, ← hprotected, isProtected]
      cases marks.sha1 <;> cases marks.sha256 <;> simp
    rw [if_neg hsha, if_neg hmark, hclear]
    simp [Visible, hsha, hmark]

theorem standFor_empty : ({} : Marks).StandFor [] := by
  simp [StandFor, isProtected]

theorem exists_isIntegrity_snoc (code : UInt16) : (∃ c ∈ before ++ [code], IsIntegrity c) ↔
    (∃ c ∈ before, IsIntegrity c) ∨ IsIntegrity code := by
  simp [or_and_right, exists_or]

theorem isSome_offset?_after {tid : TransactionId} {code : UInt16} {value : Bytes} {a : Attribute}
    (ha : Attribute.ofValue tid code value = .ok a) (marks : Marks) (offset : Nat)
    (k : Mechanism) : ((marks.after a offset).offset? k).isSome ↔
      (marks.offset? k).isSome ∨ code = k.kind.code := by
  rw [offset?_after, Attribute.macOf?_ofValue ha]
  by_cases hcode : code = k.kind.code
  · rw [if_pos hcode]
    exact iff_of_true rfl (.inr hcode)
  · rw [if_neg hcode]
    exact (or_iff_left hcode).symm

theorem isProtected_iff (marks : Marks) : marks.isProtected ↔
    (marks.offset? .sha1).isSome ∨ (marks.offset? .sha256).isSome := by
  rw [isProtected, Bool.or_eq_true]
  rfl

/-- A record that was read is marked. -/
theorem StandFor.after (h : marks.StandFor before) {tid : TransactionId} {code : UInt16}
    {value : Bytes} {a : Attribute} (ha : Attribute.ofValue tid code value = .ok a)
    (offset : Nat) : (marks.after a offset).StandFor (before ++ [code]) := by
  obtain ⟨hprotected, hsha256⟩ := h
  have hpassed := isSome_offset?_after ha marks offset .sha256
  constructor
  · rw [exists_isIntegrity_snoc, ← hprotected, isProtected_iff, isProtected_iff, hpassed,
      isSome_offset?_after ha, or_or_or_comm]
    rfl
  · rw [List.mem_append, List.mem_singleton, ← hsha256, @eq_comm _ _ code]
    exact hpassed

/-- A record that was not read needs no mark. -/
theorem StandFor.past (h : marks.StandFor before) {code : UInt16}
    (hhidden : ¬ Visible before code) : marks.StandFor (before ++ [code]) := by
  obtain ⟨hprotected, hsha256⟩ := h
  simp only [Visible, not_or, not_and, Classical.not_not] at hhidden
  obtain ⟨hbehind, -, hfirst⟩ := hhidden
  have hbehind : ∃ c ∈ before, IsIntegrity c := by simpa using hbehind
  rw [StandFor, exists_isIntegrity_snoc, List.mem_append, List.mem_singleton]
  refine ⟨iff_of_true (hprotected.2 hbehind) (.inl hbehind), ?_⟩
  constructor
  · exact fun hmark => .inl (hsha256.1 hmark)
  · rintro (hmem | hcode)
    · exact hsha256.2 hmem
    · exact hsha256.2 (hfirst hcode.symm)

end Marks

/-! ### Cutting and reading -/

section Reading
variable {packet : Bytes} {tid : TransactionId} {whole : Bool} {marks final : Marks}
  {as : List Attribute} {before : List UInt16}

/-- Whether an attribute is what a record holds. -/
def Record.Holds (tid : TransactionId) (r : Record) (a : Attribute) : Prop :=
  Attribute.ofValue tid r.code r.value = .ok a

theorem ofValue_fingerprint {value : Bytes} {a : Attribute} :
    Attribute.ofValue tid Kind.fingerprint.code value = .ok a ↔
      value.length = 4 ∧ a = .fingerprint (Bytes.word32 value) := by
  rw [Attribute.ofValue, Kind.ofCode?_code]
  change Attribute.fingerprint <$> readWord value = .ok a ↔ _
  rw [map_eq_ok, readWord]
  split
  · rename_i hlength
    simp [hlength, eq_comm]
  · rename_i hlength
    simp [hlength]

/-- A fingerprint ends the reading if it is right. -/
theorem collect_mark {r : Record} (hcode : r.code = Kind.fingerprint.code) (rs : List Record) :
    collect packet tid whole marks (r :: rs) = .ok (as, final) ↔
      (r.Seals packet ∧ ∃ a, r.Holds tid a ∧ as = [a]) ∧ final = marks := by
  have hshows : marks.shows r.code := by
    rw [hcode]
    rfl
  rw [collect, if_pos hshows, bind_eq_ok]
  simp only [Record.Holds, hcode, ofValue_fingerprint]
  constructor
  · rintro ⟨_, ⟨hlength, rfl⟩, h⟩
    dsimp only at h
    split at h
    · rename_i hcrc
      obtain ⟨rfl, rfl⟩ := Prod.mk.inj (Except.ok.inj h)
      refine ⟨⟨?_, _, ⟨hlength, rfl⟩, rfl⟩, rfl⟩
      rw [Record.Seals, ← Bytes.be32_word32 hlength]
      exact congrArg Bytes.be32 hcrc
    · cases h
  · rintro ⟨⟨hseals, _, ⟨hlength, rfl⟩, rfl⟩, rfl⟩
    refine ⟨_, ⟨hlength, rfl⟩, if_pos ?_⟩
    rw [hseals, Bytes.word32_be32]
    rfl

/-- Reading what is cut off goes record by record over the visible ones. -/
theorem collect_iff {offset : Nat} {bytes : Bytes} {records : List Record}
    (hcut : Cut offset bytes records) (h : marks.StandFor before) :
    (∃ final, collect packet tid (splitRecords offset bytes).2 marks
        (splitRecords offset bytes).1 = .ok (as, final)) ↔
      (∀ r ∈ records, r.code = Kind.fingerprint.code → r.Seals packet) ∧
        List.Forall₂ (Record.Holds tid) (visible before records) as := by
  induction hcut generalizing marks before as with
  | done =>
    rw [splitRecords, collect, visible, List.forall₂_nil_left_iff]
    simp [eq_comm]
  | @mark r bytes tail hcode hfills =>
    have hvisible : Visible before r.code := .inr (.inl hcode)
    rw [splitRecords_fills hfills, visible, if_pos hvisible, visible]
    simp only [collect_mark hcode, List.forall₂_cons_left_iff, List.forall₂_nil_left_iff]
    simp [hcode]
  | @next r bytes rest rs hcode hfills hcut ih =>
    rw [splitRecords_fills hfills, visible]
    simp only [List.forall_mem_cons, hcode, false_imp_iff, true_and]
    by_cases hvisible : Visible before r.code
    · have hshows := (Marks.shows_iff h r.code).2 hvisible
      rw [if_pos hvisible, List.forall₂_cons_left_iff]
      cases hvalue : Attribute.ofValue tid r.code r.value with
      | error e =>
        simp only [collect, if_pos hshows, hvalue, Record.Holds, reduceCtorEq, false_and,
          exists_false, and_false, iff_false, not_exists]
        intro final heq
        cases heq
      | ok a =>
        have hne : ∀ crc, a ≠ .fingerprint crc := by
          rintro crc rfl
          exact hcode (Attribute.code_ofValue hvalue).symm
        simp only [collect_shown hshows hvalue hne, map_eq_ok, Record.Holds, hvalue,
          Except.ok.injEq]
        have hafter := h.after hvalue r.offset
        constructor
        · rintro ⟨final, ⟨others, _⟩, hread, heq⟩
          obtain ⟨rfl, rfl⟩ := Prod.mk.inj heq
          obtain ⟨hseals, hothers⟩ := (ih hafter).1 ⟨_, hread⟩
          exact ⟨hseals, a, others, rfl, hothers, rfl⟩
        · rintro ⟨hseals, _, others, rfl, hothers, rfl⟩
          obtain ⟨final, hread⟩ := (ih hafter).2 ⟨hseals, hothers⟩
          exact ⟨final, _, hread, rfl⟩
    · have hhidden : marks.shows r.code = false := by
        rw [← Bool.not_eq_true, Marks.shows_iff h]
        exact hvisible
      simp only [if_neg hvisible, collect, hhidden, Bool.false_eq_true, if_false]
      exact ih (h.past hvisible)

theorem eq_nil_of_splitRecords {offset : Nat} {bytes : Bytes}
    (h : splitRecords offset bytes = ([], true)) : bytes = [] := by
  match bytes with
  | [] => rfl
  | [_] | [_, _] | [_, _, _] => simp [splitRecords] at h
  | a :: b :: c :: d :: rest =>
    rw [splitRecords] at h
    dsimp only at h
    split at h <;> simp at h

/-- What is read was cut off in the way of the grammar. -/
theorem exists_cut {offset : Nat} {bytes : Bytes}
    (h : collect packet tid (splitRecords offset bytes).2 marks (splitRecords offset bytes).1 =
      .ok (as, final)) : ∃ records, Cut offset bytes records := by
  generalize hrecords : (splitRecords offset bytes).1 = all at h
  induction all generalizing offset bytes marks as with
  | nil =>
    rw [collect] at h
    split at h
    · rename_i hwhole
      obtain rfl := eq_nil_of_splitRecords (Prod.ext hrecords hwhole)
      exact ⟨[], .done⟩
    · cases h
  | cons r rs ih =>
    obtain ⟨head, rest, rfl, rfl, hfills⟩ := fills_of_splitRecords hrecords
    rw [splitRecords_fills hfills] at h hrecords
    obtain ⟨-, rfl⟩ := List.cons.inj hrecords
    by_cases hcode : r.code = Kind.fingerprint.code
    · exact ⟨[r], .mark hcode hfills⟩
    -- Whether the record is seen or not, what follows it is read.
    have hrest : ∃ marks as, collect packet tid
        (splitRecords (r.offset + head.length) rest).2 marks
        (splitRecords (r.offset + head.length) rest).1 = .ok (as, final) := by
      rcases collect_cons h with ⟨-, hrest⟩ | ⟨-, a, ha, ⟨crc, rfl, -, -⟩ | ⟨-, as, -, hrest⟩⟩
      · exact ⟨_, _, hrest⟩
      · exact absurd (Attribute.code_ofValue ha).symm hcode
      · exact ⟨_, _, hrest⟩
    obtain ⟨marks, as, hrest⟩ := hrest
    obtain ⟨records, hcut⟩ := ih rfl hrest
    exact ⟨r :: records, .next hcode hfills hcut⟩

end Reading

/-! ### The header -/

theorem splitMessageType_isOk {type : UInt16} : (∃ kind, splitMessageType type = .ok kind) ↔
    type < 0x4000 ∧ ∃ method : Method, methodCode type = method.code := by
  rw [splitMessageType]
  split
  · rename_i htop
    simp [UInt16.not_lt.2 htop]
  · rename_i htop
    rw [and_iff_right (UInt16.not_le.1 htop)]
    cases hmethod : Method.ofCode? (methodCode type) with
    | none =>
      have hunknown (method : Method) : methodCode type ≠ method.code := by
        intro heq
        rw [heq, Method.ofCode?_code] at hmethod
        cases hmethod
      simp [hunknown]
    | some method =>
      exact iff_of_true ⟨_, rfl⟩ ⟨method, (Method.code_of_ofCode? hmethod).symm⟩

/-! ### Packets -/

section Packets
variable {b b' : Bytes} {r : Received} {records records' : List Record}

theorem Grammatical.attributes (hg : Grammatical b records) (h : Received.decode b = .ok r) :
    List.Forall₂ (Record.Holds r.message.tid) (visible [] records) r.message.attributes := by
  obtain ⟨-, -, -, htid, -, hcollect⟩ := decode_eq_ok.1 h
  rw [htid]
  exact ((collect_iff hg.cut Marks.standFor_empty).1 ⟨_, hcollect⟩).2

theorem exists_holds_iff {tid : TransactionId} {rs : List Record} :
    (∃ as, List.Forall₂ (Record.Holds tid) rs as) ↔ ∀ r ∈ rs, WellFormed r.code r.value := by
  induction rs with
  | nil => exact iff_of_true ⟨[], .nil⟩ (by simp)
  | cons r rs ih =>
    rw [List.forall_mem_cons, ← ih, ← @Attribute.ofValue_isOk tid]
    constructor
    · rintro ⟨_, hholds⟩
      obtain ⟨a, as, ha, has, -⟩ := List.forall₂_cons_left_iff.1 hholds
      exact ⟨⟨a, ha⟩, as, has⟩
    · rintro ⟨⟨a, ha⟩, as, has⟩
      exact ⟨a :: as, .cons ha has⟩

/-- Just the packets of the grammar are read. -/
theorem decode_isOk : (∃ r, Received.decode b = .ok r) ↔ ∃ records, Grammatical b records := by
  constructor
  · rintro ⟨r, h⟩
    obtain ⟨hsized, hcookie, ⟨type, htype, hkind⟩, -, -, hcollect⟩ := decode_eq_ok.1 h
    obtain ⟨records, hcut⟩ := exists_cut hcollect
    obtain ⟨hseals, hholds⟩ := (collect_iff hcut Marks.standFor_empty).1 ⟨_, hcollect⟩
    exact ⟨records, hsized, hcookie, ⟨type, htype, splitMessageType_isOk.1 ⟨_, hkind⟩⟩, hcut,
      exists_holds_iff.1 ⟨_, hholds⟩, hseals⟩
  · rintro ⟨records, hg⟩
    obtain ⟨type, htype, hkind⟩ := hg.method
    obtain ⟨⟨method, cls⟩, hkind⟩ := splitMessageType_isOk.2 hkind
    obtain ⟨as, hholds⟩ := (@exists_holds_iff (headerId b) _).2 hg.values
    obtain ⟨final, hcollect⟩ := (collect_iff hg.cut Marks.standFor_empty).2 ⟨hg.seals, hholds⟩
    exact ⟨⟨⟨method, cls, headerId b, as⟩, ⟨b, final⟩⟩,
      decode_eq_ok.2 ⟨hg.sized, hg.cookie, ⟨type, htype, hkind⟩, rfl, rfl, hcollect⟩⟩

/-- Packets with the same head are read as messages with the same head. -/
theorem head_eq {r' : Received} (h : Received.decode b = .ok r) (h' : Received.decode b' = .ok r')
    (htype : b'.take 2 = b.take 2) (hid : headerId b' = headerId b) :
    r'.message.method = r.message.method ∧ r'.message.cls = r.message.cls ∧
      r'.message.tid = r.message.tid := by
  obtain ⟨-, -, ⟨type, htake, hkind⟩, htid, -, -⟩ := decode_eq_ok.1 h
  obtain ⟨-, -, ⟨type', htake', hkind'⟩, htid', -, -⟩ := decode_eq_ok.1 h'
  rw [htake, htake'] at htype
  rw [Bytes.be16_injective htype] at hkind'
  obtain ⟨hmethod, hcls⟩ := Prod.mk.inj (Except.ok.inj (hkind'.symm.trans hkind))
  exact ⟨hmethod, hcls, by rw [htid, htid', hid]⟩

/-- The codes and values of the visible records but for the fingerprint. -/
def plainValues (records : List Record) : List (UInt16 × Bytes) :=
  ((visible [] records).filter (·.code ≠ Kind.fingerprint.code)).map fun r => (r.code, r.value)

theorem holds_inj {tid : TransactionId} {rs : List Record} {as as' : List Attribute}
    (h : List.Forall₂ (Record.Holds tid) rs as) (h' : List.Forall₂ (Record.Holds tid) rs as') :
    as' = as := by
  induction h generalizing as' with
  | nil =>
    cases h'
    rfl
  | cons ha _ ih =>
    cases h' with
    | cons ha' h' => rw [Except.ok.inj (Eq.trans (Eq.symm ha') ha), ih h']

/-- The attributes besides the fingerprint are told by the codes and values. -/
theorem filter_of_holds {tid : TransactionId} {rs : List Record} {as : List Attribute}
    (h : List.Forall₂ (Record.Holds tid) rs as) :
    (as.filter (·.code ≠ Kind.fingerprint.code)).map Except.ok =
      ((rs.filter (·.code ≠ Kind.fingerprint.code)).map fun r => (r.code, r.value)).map
        fun v => Attribute.ofValue tid v.1 v.2 := by
  induction h with
  | nil => rfl
  | @cons r a rs as ha _ ih =>
    have hcode : a.code = r.code := Attribute.code_ofValue ha
    by_cases hmark : r.code = Kind.fingerprint.code
    · rw [List.filter_cons_of_neg (by simp [hcode, hmark]),
        List.filter_cons_of_neg (by simp [hmark]), ih]
    · rw [List.filter_cons_of_pos (by simp [hcode, hmark]),
        List.filter_cons_of_pos (by simp [hmark])]
      simp only [List.map_cons, ih]
      rw [show Attribute.ofValue tid r.code r.value = .ok a from ha]

/-- What follows a fingerprint can be exchanged. -/
theorem Cut.exchange_tail {offset : Nat} {bytes : Bytes} (hcut : Cut offset bytes records)
    {x : Record} (hx : x ∈ records) (hcode : x.code = Kind.fingerprint.code)
    (hlength : x.value.length = 4) :
    (∀ y ∈ records, y.code = Kind.fingerprint.code → y = x) ∧
      ∃ front tail, bytes = front ++ tail ∧ offset + front.length = x.offset + 8 ∧
        ∀ tail', Cut offset (front ++ tail') records := by
  induction hcut with
  | done => simp at hx
  | @mark r bytes tail hmark hfills =>
    obtain rfl := List.mem_singleton.1 hx
    have hfull := hfills.length_eq
    rw [hlength] at hfull
    exact ⟨by simp, bytes, tail, rfl, by rw [hfull]; rfl, fun tail' => .mark hmark hfills⟩
  | @next r bytes rest rs hne hfills hcut ih =>
    have hx : x ∈ rs := by
      rcases List.mem_cons.1 hx with rfl | hx
      · exact absurd hcode hne
      · exact hx
    obtain ⟨hunique, front, tail, rfl, hend, hcuts⟩ := ih hx
    refine ⟨List.forall_mem_cons.2 ⟨fun heq => absurd heq hne, hunique⟩, bytes ++ front, tail,
      (List.append_assoc _ _ _).symm, ?_, fun tail' => ?_⟩
    · rw [List.length_append, ← Nat.add_assoc, hend]
    · rw [List.append_assoc]
      exact .next hne hfills (hcuts tail')

theorem take_drop_eq {e i n : Nat} (h : (b'.take e).drop 4 = (b.take e).drop 4) (hi : 4 ≤ i)
    (hn : i + n ≤ e) : (b'.drop i).take n = (b.drop i).take n := by
  have hinside (c : Bytes) : (c.drop i).take n = (((c.take e).drop 4).drop (i - 4)).take n := by
    rw [List.drop_drop, Nat.add_sub_cancel' hi, List.drop_take, List.take_take,
      Nat.min_eq_left (by omega)]
  rw [hinside b', hinside b, h]

/-- What stands in a packet behind its fingerprint is not read. -/
theorem Grammatical.exchange_tail (hg : Grammatical b records) {x : Record} (hx : x ∈ records)
    (hcode : x.code = Kind.fingerprint.code) (hsized : Sized b') (htype : b'.take 2 = b.take 2)
    (hfront : (b'.take (x.offset + 8)).drop 4 = (b.take (x.offset + 8)).drop 4) :
    Grammatical b' records ∧ headerId b' = headerId b := by
  have hlength : x.value.length = 4 := by
    rw [hg.seals x hx hcode, Bytes.length_be32]
  obtain ⟨hunique, front, tail, hbody, hend, hcuts⟩ := hg.cut.exchange_tail hx hcode hlength
  have hbody' : b'.drop 20 = front ++ (b'.drop 20).drop front.length := by
    have htake := @take_drop_eq b b' _ 20 front.length hfront (by decide) (by omega)
    rw [hbody, List.take_left] at htake
    conv => lhs; rw [← List.take_append_drop front.length (b'.drop 20), htake]
  refine ⟨⟨hsized, ?_, ?_, ?_, hg.values, ?_⟩, ?_⟩
  · rw [take_drop_eq hfront (Nat.le_refl _) (by omega), hg.cookie]
  · rw [HasMethod, htype]
    exact hg.method
  · rw [hbody']
    exact hcuts _
  · intro y hy hmark
    obtain rfl := hunique y hy hmark
    have hcovered : (b'.take y.offset).drop 4 = (b.take y.offset).drop 4 := by
      rw [List.drop_take, List.drop_take, take_drop_eq hfront (Nat.le_refl _) (by omega)]
    rw [Record.Seals, htype, hcovered]
    exact hg.seals y hy hmark
  · rw [headerId, take_drop_eq hfront (by decide) (by omega)]
    rfl

theorem mem_of_mem_visible {before : List UInt16} {x : Record} (h : x ∈ visible before records) :
    x ∈ records := by
  induction records generalizing before with
  | nil => exact h
  | cons r rs ih =>
    rw [visible] at h
    split at h
    · rcases List.mem_cons.1 h with rfl | h
      · exact List.mem_cons_self
      · exact List.mem_cons_of_mem _ (ih h)
    · exact List.mem_cons_of_mem _ (ih h)

theorem Record.Seals.wellFormed {x : Record} (h : x.Seals b)
    (hcode : x.code = Kind.fingerprint.code) : WellFormed x.code x.value := by
  intro kind hkind
  have hmark := Kind.ofCode?_eq_some.2 (hcode.symm.trans hkind)
  rw [Kind.ofCode?_code] at hmark
  obtain rfl := Option.some.inj hmark
  rw [h]
  exact Bytes.length_be32 _

/-- Besides the fingerprint just the codes and values decide whether what is visible is
well-formed. -/
theorem forall_visible_iff : (∀ x ∈ visible [] records, x.code ≠ Kind.fingerprint.code →
    WellFormed x.code x.value) ↔ ∀ v ∈ plainValues records, WellFormed v.1 v.2 := by
  rw [plainValues, List.forall_mem_map]
  simp

/-- A packet with another's head and visible values is as good, if it is cut into records and its
fingerprint is right. -/
theorem Grammatical.of_plainValues (hg : Grammatical b records) (hsized : Sized b')
    (htype : b'.take 2 = b.take 2) (hhead : (b'.take 20).drop 4 = (b.take 20).drop 4)
    (hcut : Cut 20 (b'.drop 20) records')
    (hseals : ∀ x ∈ records', x.code = Kind.fingerprint.code → x.Seals b')
    (hvalues : plainValues records' = plainValues records) :
    Grammatical b' records' ∧ headerId b' = headerId b := by
  refine ⟨⟨hsized, ?_, ?_, hcut, ?_, hseals⟩, ?_⟩
  · rw [take_drop_eq hhead (Nat.le_refl _) (by decide), hg.cookie]
  · rw [HasMethod, htype]
    exact hg.method
  · have hplain := forall_visible_iff.1 fun x hx _ => hg.values x hx
    rw [← hvalues, ← forall_visible_iff] at hplain
    intro x hx
    by_cases hcode : x.code = Kind.fingerprint.code
    · exact (hseals x (mem_of_mem_visible hx) hcode).wellFormed hcode
    · exact hplain x hx hcode
  · rw [headerId, take_drop_eq hhead (by decide) (by decide)]
    rfl

theorem decode_exchange_tail (h : Received.decode b = .ok r) (hg : Grammatical b records)
    {x : Record} (hx : x ∈ records) (hcode : x.code = Kind.fingerprint.code) (hsized : Sized b')
    (htype : b'.take 2 = b.take 2)
    (hfront : (b'.take (x.offset + 8)).drop 4 = (b.take (x.offset + 8)).drop 4) :
    ∃ r', Received.decode b' = .ok r' ∧ r'.message = r.message := by
  obtain ⟨hg', hid⟩ := hg.exchange_tail hx hcode hsized htype hfront
  obtain ⟨r', h'⟩ := decode_isOk.2 ⟨_, hg'⟩
  obtain ⟨hmethod, hcls, htid⟩ := head_eq h h' htype hid
  have hholds := hg'.attributes h'
  rw [htid] at hholds
  have hattributes := holds_inj (hg.attributes h) hholds
  refine ⟨r', h', ?_⟩
  calc r'.message
      = ⟨r'.message.method, r'.message.cls, r'.message.tid, r'.message.attributes⟩ := rfl
    _ = r.message := by rw [hmethod, hcls, htid, hattributes]

theorem decode_of_plainValues (h : Received.decode b = .ok r) (hg : Grammatical b records)
    (hsized : Sized b') (htype : b'.take 2 = b.take 2)
    (hhead : (b'.take 20).drop 4 = (b.take 20).drop 4) (hcut : Cut 20 (b'.drop 20) records')
    (hseals : ∀ x ∈ records', x.code = Kind.fingerprint.code → x.Seals b')
    (hvalues : plainValues records' = plainValues records) :
    ∃ r', Received.decode b' = .ok r' ∧ r'.message.method = r.message.method ∧
      r'.message.cls = r.message.cls ∧ r'.message.tid = r.message.tid ∧
      r'.message.attributes.filter (·.code ≠ Kind.fingerprint.code) =
        r.message.attributes.filter (·.code ≠ Kind.fingerprint.code) := by
  obtain ⟨hg', hid⟩ := hg.of_plainValues hsized htype hhead hcut hseals hvalues
  obtain ⟨r', h'⟩ := decode_isOk.2 ⟨_, hg'⟩
  obtain ⟨hmethod, hcls, htid⟩ := head_eq h h' htype hid
  have hplain := filter_of_holds (hg'.attributes h')
  rw [plainValues, plainValues] at hvalues
  rw [htid, hvalues, ← filter_of_holds (hg.attributes h)] at hplain
  exact ⟨r', h', hmethod, hcls, htid, List.map_injective_iff.2 (fun _ _ => Except.ok.inj) hplain⟩

/-- Reading accepts just the packets of the grammar. The attributes are what the visible records
hold, in order. What stands behind a fingerprint can be exchanged, and so can hidden records and
padding where the fingerprint, if there is one, is exchanged with them. Reading by position never
leaves the packet. -/
theorem decode_grammatical (b : Bytes) :
    ((∃ r, Received.decode b = .ok r) ↔ ∃ records, Grammatical b records) ∧
      (∀ r records, Received.decode b = .ok r → Grammatical b records →
        List.Forall₂ (Record.Holds r.message.tid) (visible [] records) r.message.attributes ∧
        (∀ x ∈ records, x.code = Kind.fingerprint.code → ∀ b', Sized b' → b'.take 2 = b.take 2 →
          (b'.take (x.offset + 8)).drop 4 = (b.take (x.offset + 8)).drop 4 →
          ∃ r', Received.decode b' = .ok r' ∧ r'.message = r.message) ∧
        (∀ b' records', Sized b' → b'.take 2 = b.take 2 →
          (b'.take 20).drop 4 = (b.take 20).drop 4 → Cut 20 (b'.drop 20) records' →
          (∀ x ∈ records', x.code = Kind.fingerprint.code → x.Seals b') →
          plainValues records' = plainValues records →
          ∃ r', Received.decode b' = .ok r' ∧ r'.message.method = r.message.method ∧
            r'.message.cls = r.message.cls ∧ r'.message.tid = r.message.tid ∧
            r'.message.attributes.filter (·.code ≠ Kind.fingerprint.code) =
              r.message.attributes.filter (·.code ≠ Kind.fingerprint.code))) ∧
      (decodeAt b).run = some (Received.decode b) := by
  refine ⟨decode_isOk, fun r records h hg => ⟨hg.attributes h, ?_, ?_⟩, by rw [decodeAt_eq]; rfl⟩
  · intro x hx hcode b' hsized htype hfront
    exact decode_exchange_tail h hg hx hcode hsized htype hfront
  · intro b' records' hsized htype hhead hcut hseals hvalues
    exact decode_of_plainValues h hg hsized htype hhead hcut hseals hvalues

/-- Behind a code of HMAC-SHA256 a lifetime of one byte is not even looked at. -/
example :
    let header : Bytes := [0, 4, 0, 28, 33, 18, 164, 66, 0, 0, 0, 0, 0, 0, 0, 0, 0, 0, 0, 7]
    let mac : Bytes := [1, 2, 3, 4, 5, 6, 7, 8, 9, 10, 11, 12, 13, 14, 15, 16]
    let code : Bytes := [0, 0x1C, 0, 16] ++ mac
    let lifetime : Bytes := [0, 0x0D, 0, 1, 7, 0, 0, 0]
    (Received.decode (header ++ code ++ lifetime)).map (·.message.attributes) =
        .ok [.messageIntegritySha256 mac] ∧
      Received.decode (header ++ lifetime ++ code) = .error .invalidInput := by
  decide +kernel

end Packets

end NatRelay.Stun
