import Mathlib.Logic.Basic
import NatRelay.Number.Reading
import NatRelay.Proofs.JsonText.Scalar

/-! The texts that read as numbers, as a grammar. Main statements: `intOfText?_isSome` and
`ofText?_isSome`, that just these texts are read, and `intOfText?_toString`, that a whole number is
read back. -/
namespace NatRelay
open Numeral (Stops stops_nil stops_cons takeWhile_front dropWhile_front)

variable {cs sign rest : List Char}

/-! ### Whole numbers -/

/-- All characters are decimal digits. -/
def IsDigits (cs : List Char) : Prop := ∀ c ∈ cs, c.isDigit

theorem readable_iff : ¬ (cs.isEmpty ∨ cs.any (!·.isDigit)) ↔ cs ≠ [] ∧ IsDigits cs := by
  rw [not_or, List.isEmpty_iff, List.any_eq_true, not_exists]
  refine and_congr_right fun _ => forall_congr' fun c => ?_
  cases c.isDigit <;> simp

theorem natOfDigits?_isSome : (natOfDigits? cs).isSome ↔ cs ≠ [] ∧ IsDigits cs := by
  rw [natOfDigits?, ← readable_iff]
  split
  · rename_i h
    exact iff_of_false Bool.false_ne_true (not_not_intro h)
  · rename_i h
    exact iff_of_true rfl h

/-- A plus, a minus or nothing. -/
inductive IsSign : List Char → Prop where
  | none : IsSign []
  | plus : IsSign ['+']
  | minus : IsSign ['-']

/-- Whether a character is a sign. -/
def isSign (c : Char) : Bool := c == '+' || c == '-'

theorem splitSign_append (hsign : IsSign sign) (hrest : Stops isSign rest) :
    splitSign (sign ++ rest) = (decide (sign = ['-']), rest) := by
  cases hsign with
  | none =>
    cases rest with
    | nil => rfl
    | cons c rest =>
      have hc : isSign c = false := hrest c rfl
      simp only [isSign, Bool.or_eq_false_iff, beq_eq_false_iff_ne] at hc
      rw [List.nil_append, splitSign]
      · rfl
      · rintro _ ⟨⟩
        exact hc.2 rfl
      · rintro _ ⟨⟩
        exact hc.1 rfl
  | plus => rfl
  | minus => rfl

theorem exists_sign (cs : List Char) : ∃ sign, IsSign sign ∧ cs = sign ++ (splitSign cs).2 := by
  rw [splitSign.eq_def]
  split
  · exact ⟨['-'], .minus, rfl⟩
  · exact ⟨['+'], .plus, rfl⟩
  · exact ⟨[], .none, rfl⟩

/-- A text of a whole number: digits with or without a sign. -/
inductive WholeText : List Char → Prop where
  | mk {sign digits : List Char} (hsign : IsSign sign) (hdigits : IsDigits digits)
    (hne : digits ≠ []) : WholeText (sign ++ digits)

theorem stops_isSign_of_isDigit (h : ∀ c ∈ rest.head?, c.isDigit) : Stops isSign rest := by
  intro c hc
  have hdigit := h c hc
  rw [isSign, Bool.or_eq_false_iff, beq_eq_false_iff_ne, beq_eq_false_iff_ne]
  constructor
  · rintro rfl
    exact absurd hdigit (by decide)
  · rintro rfl
    exact absurd hdigit (by decide)

theorem IsDigits.stops_isSign (h : IsDigits cs) : Stops isSign cs :=
  stops_isSign_of_isDigit fun c hc => h c (List.mem_of_mem_head? hc)

theorem intOfText?_eq (cs : List Char) : intOfText? cs =
    (natOfDigits? (splitSign cs).2).map fun (n : Nat) =>
      if (splitSign cs).1 then -(n : Int) else n := by
  rw [intOfText?]
  obtain ⟨negative, cs⟩ := splitSign cs
  dsimp only
  cases natOfDigits? cs <;> rfl

theorem intOfText?_isSome : (intOfText? cs).isSome ↔ WholeText cs := by
  rw [intOfText?_eq, Option.isSome_map, natOfDigits?_isSome]
  constructor
  · rintro ⟨hne, hdigits⟩
    obtain ⟨sign, hsign, hcs⟩ := exists_sign cs
    rw [hcs]
    exact .mk hsign hdigits hne
  · rintro ⟨hsign, hdigits, hne⟩
    rw [splitSign_append hsign hdigits.stops_isSign]
    exact ⟨hne, hdigits⟩

theorem isDigits_toDigits (n : Nat) : IsDigits (Nat.toDigits 10 n) :=
  fun _ hc => Nat.isDigit_of_mem_toDigits (by decide) (by decide) hc

theorem natOfDigits?_toDigits (n : Nat) : natOfDigits? (Nat.toDigits 10 n) = some n := by
  rw [natOfDigits?, if_neg (readable_iff.2 ⟨Nat.toDigits_ne_nil, isDigits_toDigits n⟩)]
  exact congrArg some (JsonText.digitsValue_toDigits n)

/-- A whole number is read back from its digits. -/
theorem intOfText?_toString (n : Int) : intOfText? (toString n).toList = some n := by
  rw [JsonText.toList_toString_int]
  by_cases hn : n < 0
  · rw [if_pos hn, intOfText?_eq, splitSign_append .minus (isDigits_toDigits _).stops_isSign,
      natOfDigits?_toDigits]
    have hvalue : -(n.natAbs : Int) = n := by omega
    exact congrArg some hvalue
  · rw [if_neg hn, intOfText?_eq, splitSign_append .none (isDigits_toDigits _).stops_isSign,
      natOfDigits?_toDigits]
    have hvalue : (n.natAbs : Int) = n := by omega
    exact congrArg some hvalue

/-! ### Numbers with a fraction -/

namespace Binary64

/-- The words that stand for no number of digits. -/
def words : List String := ["inf", "infinity", "nan"]

/-- A point with or without digits behind it, or nothing. -/
inductive IsFraction : List Char → List Char → Prop where
  | none : IsFraction [] []
  | point (places : List Char) (hplaces : IsDigits places) : IsFraction ('.' :: places) places

/-- A mark and a whole number, or nothing. -/
inductive IsPower : List Char → Prop where
  | none : IsPower []
  | mark {mark : Char} {power : List Char} (hmark : mark = 'e' ∨ mark = 'E')
    (hpower : WholeText power) : IsPower (mark :: power)

/-- A text of a number: a word in any case, or digits with at most one point among them and at most
one power of ten behind them; both with or without a sign. -/
inductive RealText : List Char → Prop where
  | word {sign word : List Char} (hsign : IsSign sign)
    (hword : String.ofList (word.map Char.toLower) ∈ words) : RealText (sign ++ word)
  | decimal {sign whole fraction places power : List Char} (hsign : IsSign sign)
    (hwhole : IsDigits whole) (hfraction : IsFraction fraction places)
    (hne : whole ++ places ≠ []) (hpower : IsPower power) :
    RealText (sign ++ (whole ++ fraction ++ power))

variable {whole fraction places power : List Char} {negative : Bool}

/-- The mark of a power of ten. -/
def isMark (c : Char) : Bool := c == 'e' || c == 'E'

theorem isMark_iff {c : Char} : isMark c ↔ c = 'e' ∨ c = 'E' := by simp [isMark]

theorem not_isMark_of_isDigit {c : Char} (h : c.isDigit) : (!isMark c) = true := by
  rw [Bool.not_eq_true', ← Bool.not_eq_true, isMark_iff]
  rintro (rfl | rfl) <;> exact absurd h (by decide)

theorem ne_point_of_isDigit {c : Char} (h : c.isDigit) : decide (c ≠ '.') = true := by
  rw [decide_eq_true_iff]
  rintro rfl
  exact absurd h (by decide)

/-- What is in front of the point, and what is behind it. -/
theorem mantissa?_append (hwhole : IsDigits whole) (hfraction : IsFraction fraction places) :
    mantissa? (whole ++ fraction) =
      (natOfDigits? (whole ++ places)).map fun n => (n, places.length) := by
  have hfront : ∀ c ∈ whole, decide (c ≠ '.') = true := fun c hc =>
    ne_point_of_isDigit (hwhole c hc)
  cases hfraction with
  | none => rw [mantissa?, takeWhile_front hfront stops_nil, dropWhile_front hfront stops_nil]; rfl
  | point places hplaces =>
    have hstops : Stops (fun c => decide (c ≠ '.')) ('.' :: places) := stops_cons rfl
    rw [mantissa?, takeWhile_front hfront hstops, dropWhile_front hfront hstops]
    rfl

theorem exists_fraction (cs : List Char) (h : (mantissa? cs).isSome) :
    ∃ whole fraction places, IsDigits whole ∧ IsFraction fraction places ∧
      whole ++ places ≠ [] ∧ cs = whole ++ fraction := by
  rw [mantissa?, Option.isSome_map, natOfDigits?_isSome] at h
  obtain ⟨hne, hdigits⟩ := h
  obtain ⟨hwhole, hplaces⟩ := List.forall_mem_append.1 hdigits
  have hcs : cs = cs.takeWhile (fun c => decide (c ≠ '.')) ++
    cs.dropWhile (fun c => decide (c ≠ '.')) := List.takeWhile_append_dropWhile.symm
  refine ⟨_, cs.dropWhile (fun c => decide (c ≠ '.')), _, hwhole, ?_, hne, hcs⟩
  have hstop := List.head?_dropWhile_not (fun c => decide (c ≠ '.')) cs
  generalize cs.dropWhile (fun c => decide (c ≠ '.')) = rest at hstop hplaces ⊢
  cases rest with
  | nil => exact .none
  | cons c rest =>
    obtain rfl : c = '.' := by simpa using hstop
    exact .point _ hplaces

/-- The exponent behind a mark, or none. -/
def power? : List Char → Option Int
  | [] => some 0
  | _ :: power => intOfText? power

theorem IsPower.stops (h : IsPower power) : Stops (fun c => !isMark c) power := by
  cases h with
  | none => exact stops_nil
  | mark hmark => exact stops_cons (by rw [isMark_iff.2 hmark]; rfl)

theorem IsPower.isSome (h : IsPower power) : (power? power).isSome := by
  cases h with
  | none => rfl
  | mark _ hpower => exact intOfText?_isSome.2 hpower

theorem ofUnsigned?_eq (negative : Bool) (cs : List Char) : ofUnsigned? negative cs =
    (mantissa? (cs.takeWhile (!isMark ·))).bind fun m =>
      (power? (cs.dropWhile (!isMark ·))).map fun e => ofDecimal negative m.1 (e - m.2) := by
  change (mantissa? (cs.takeWhile (!isMark ·))).bind _ = _
  cases mantissa? (cs.takeWhile (!isMark ·)) with
  | none => rfl
  | some m =>
    obtain ⟨n, places⟩ := m
    change (match cs.dropWhile (!isMark ·) with
      | [] => (some (0 : Int)).bind fun e => some (ofDecimal negative n (e - places))
      | _ :: power => (intOfText? power).bind fun e => some (ofDecimal negative n (e - places))) = _
    cases cs.dropWhile (!isMark ·) with
    | nil => rfl
    | cons mark power =>
      change (intOfText? power).bind _ = (intOfText? power).map _
      cases intOfText? power <;> rfl

/-- What the digits and the power of ten are worth. -/
theorem ofUnsigned?_append (negative : Bool) (hwhole : IsDigits whole)
    (hfraction : IsFraction fraction places) (hpower : IsPower power) :
    ofUnsigned? negative (whole ++ fraction ++ power) =
      (natOfDigits? (whole ++ places)).bind fun n =>
        (power? power).map fun e => ofDecimal negative n (e - places.length) := by
  have hfront : ∀ c ∈ whole ++ fraction, (!isMark c) = true := by
    refine List.forall_mem_append.2 ⟨fun c hc => not_isMark_of_isDigit (hwhole c hc), ?_⟩
    cases hfraction with
    | none => exact List.forall_mem_nil _
    | point places hplaces =>
      exact List.forall_mem_cons.2 ⟨rfl, fun c hc => not_isMark_of_isDigit (hplaces c hc)⟩
  rw [ofUnsigned?_eq, takeWhile_front hfront hpower.stops, dropWhile_front hfront hpower.stops,
    mantissa?_append hwhole hfraction]
  cases natOfDigits? (whole ++ places) <;> rfl

theorem ofUnsigned?_isSome : (ofUnsigned? negative cs).isSome ↔
    ∃ whole fraction places power, IsDigits whole ∧ IsFraction fraction places ∧
      whole ++ places ≠ [] ∧ IsPower power ∧ cs = whole ++ fraction ++ power := by
  constructor
  · intro h
    rw [ofUnsigned?_eq, Option.isSome_bind, Option.any_eq_true] at h
    obtain ⟨m, hm, hpower⟩ := h
    rw [Option.isSome_map] at hpower
    obtain ⟨whole, fraction, places, hwhole, hfraction, hne, hfront⟩ :=
      exists_fraction _ (Option.isSome_of_mem hm)
    refine ⟨whole, fraction, places, cs.dropWhile (!isMark ·), hwhole, hfraction, hne, ?_, ?_⟩
    · have hstop := List.head?_dropWhile_not (!isMark ·) cs
      generalize cs.dropWhile (!isMark ·) = rest at hstop hpower ⊢
      cases rest with
      | nil => exact .none
      | cons c rest =>
        have hmark : isMark c = true := by simpa using hstop
        exact .mark (isMark_iff.1 hmark) (intOfText?_isSome.1 hpower)
    · rw [← hfront, List.takeWhile_append_dropWhile]
  · rintro ⟨whole, fraction, places, power, hwhole, hfraction, hne, hpower, rfl⟩
    obtain ⟨e, he⟩ := Option.isSome_iff_exists.1 hpower.isSome
    have hdigits : IsDigits (whole ++ places) := by
      refine List.forall_mem_append.2 ⟨hwhole, ?_⟩
      cases hfraction with
      | none => exact List.forall_mem_nil _
      | point _ hplaces => exact hplaces
    obtain ⟨n, hn⟩ := Option.isSome_iff_exists.1 (natOfDigits?_isSome.2 ⟨hne, hdigits⟩)
    rw [ofUnsigned?_append negative hwhole hfraction hpower, hn, he]
    rfl

/-- No sign stands in front of a word. -/
theorem stops_of_word {word : List Char} (h : String.ofList (word.map Char.toLower) ∈ words) :
    Stops isSign word := by
  intro c hc
  obtain ⟨word, rfl⟩ := List.head?_eq_some_iff.1 hc
  rw [isSign, Bool.or_eq_false_iff, beq_eq_false_iff_ne, beq_eq_false_iff_ne]
  constructor
  · rintro rfl
    simp [words, ← String.toList_inj] at h
  · rintro rfl
    simp [words, ← String.toList_inj] at h

theorem stops_of_decimal (hwhole : IsDigits whole) (hfraction : IsFraction fraction places)
    (hne : whole ++ places ≠ []) : Stops isSign (whole ++ fraction ++ power) := by
  cases whole with
  | cons c whole =>
    refine stops_isSign_of_isDigit fun d hd => ?_
    obtain rfl : c = d := by simpa using hd
    exact hwhole c List.mem_cons_self
  | nil =>
    cases hfraction with
    | none => exact absurd rfl hne
    | point places hplaces => exact stops_cons rfl

theorem ofText?_eq (cs : List Char) : ofText? cs =
    if String.ofList ((splitSign cs).2.map Char.toLower) = "inf" ∨
        String.ofList ((splitSign cs).2.map Char.toLower) = "infinity" then
      some (infinite (splitSign cs).1)
    else if String.ofList ((splitSign cs).2.map Char.toLower) = "nan" then some nan
    else ofUnsigned? (splitSign cs).1 (splitSign cs).2 := rfl

theorem ofText?_isSome : (ofText? cs).isSome ↔ RealText cs := by
  have hread : (ofText? cs).isSome ↔
      String.ofList ((splitSign cs).2.map Char.toLower) ∈ words ∨
        (ofUnsigned? (splitSign cs).1 (splitSign cs).2).isSome := by
    rw [ofText?_eq]
    generalize String.ofList ((splitSign cs).2.map Char.toLower) = word
    split
    · rename_i h
      rcases h with rfl | rfl <;> simp [words]
    · rename_i h
      split
      · rename_i hnan
        simp [words, hnan]
      · rename_i hnan
        simp_all [words]
  rw [hread]
  constructor
  · obtain ⟨sign, hsign, hcs⟩ := exists_sign cs
    rw [ofUnsigned?_isSome]
    rintro (hword | ⟨whole, fraction, places, power, hwhole, hfraction, hne, hpower, hrest⟩)
    · rw [hcs]
      exact .word hsign hword
    · rw [hcs, hrest]
      exact .decimal hsign hwhole hfraction hne hpower
  · rintro (⟨hsign, hword⟩ | ⟨hsign, hwhole, hfraction, hne, hpower⟩)
    · rw [splitSign_append hsign (stops_of_word hword)]
      exact .inl hword
    · rw [splitSign_append hsign (stops_of_decimal hwhole hfraction hne), ofUnsigned?_isSome]
      exact .inr ⟨_, _, _, _, hwhole, hfraction, hne, hpower, rfl⟩

/-- A number is a word or has a digit. -/
theorem RealText.word_or_digit (h : RealText cs) :
    (∃ sign word, IsSign sign ∧ String.ofList (word.map Char.toLower) ∈ words ∧
      cs = sign ++ word) ∨ ∃ c ∈ cs, c.isDigit := by
  obtain ⟨hsign, hword⟩ | ⟨-, hwhole, hfraction, hne, -⟩ := h
  · exact .inl ⟨_, _, hsign, hword, rfl⟩
  · right
    cases hfraction with
    | none =>
      obtain ⟨c, hc⟩ := List.exists_mem_of_ne_nil _ hne
      rw [List.append_nil] at hc
      exact ⟨c, by simp [hc], hwhole c hc⟩
    | point places hplaces =>
      obtain ⟨c, hc⟩ := List.exists_mem_of_ne_nil _ hne
      refine ⟨c, ?_, List.forall_mem_append.2 ⟨hwhole, hplaces⟩ c hc⟩
      rcases List.mem_append.1 hc with hc | hc <;> simp [hc]

theorem realText_of_wholeText (h : WholeText cs) : RealText cs := by
  obtain ⟨hsign, hdigits, hne⟩ := h
  have hdecimal := RealText.decimal hsign hdigits .none (by simpa using hne) .none
  simpa using hdecimal

theorem colon_not_mem_of_isDigits (h : IsDigits cs) : ':' ∉ cs :=
  fun hmem => absurd (h ':' hmem) (by decide)

theorem colon_not_mem_of_isSign (h : IsSign cs) : ':' ∉ cs := by
  cases h <;> decide

theorem colon_not_mem_of_word {word : List Char}
    (h : String.ofList (word.map Char.toLower) ∈ words) : ':' ∉ word := by
  intro hmem
  have hlower : ':' ∈ (String.ofList (word.map Char.toLower)).toList := by
    rw [String.toList_ofList]
    exact List.mem_map.2 ⟨':', hmem, rfl⟩
  have hwords : ∀ s ∈ words, ':' ∉ s.toList := by decide
  exact hwords _ h hlower

/-- There is no colon in a number. -/
theorem RealText.colon (h : RealText cs) : ':' ∉ cs := by
  obtain ⟨hsign, hword⟩ | ⟨hsign, hwhole, hfraction, -, hpower⟩ := h
  · exact List.not_mem_append (colon_not_mem_of_isSign hsign) (colon_not_mem_of_word hword)
  · refine List.not_mem_append (colon_not_mem_of_isSign hsign)
      (List.not_mem_append (List.not_mem_append (colon_not_mem_of_isDigits hwhole) ?_) ?_)
    · cases hfraction with
      | none => exact List.not_mem_nil
      | point places hplaces => simp [colon_not_mem_of_isDigits hplaces]
    · cases hpower with
      | none => exact List.not_mem_nil
      | mark hmark hpower =>
        obtain ⟨hsign, hdigits, -⟩ := hpower
        have hcolon := List.not_mem_append (colon_not_mem_of_isSign hsign)
          (colon_not_mem_of_isDigits hdigits)
        rcases hmark with rfl | rfl <;> simpa using hcolon

end Binary64
end NatRelay
