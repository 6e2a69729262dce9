import NatRelay.Proofs.Number.Plain
import NatRelay.Settings.Value

/-! How the text of a setting is taken: as a truth value, as a number or as it stands, and written
out again. Main statements: `typed_iff`, and `taken_eq_iff`, that just the texts come out as they
went in that are spelled as their values are. -/
namespace NatRelay.Settings
open Binary64 (PlainText RealText realText_of_wholeText)

variable {s : String}

/-- A truth value, in any case. -/
def TruthText (s : String) : Prop := lower s = "true" ∨ lower s = "false"

/-- The whole numbers of 64 bits with a sign. -/
def Fits (n : Int) : Prop := -0x8000000000000000 ≤ n ∧ n < 0x8000000000000000

instance (n : Int) : Decidable (Fits n) :=
  inferInstanceAs (Decidable (-0x8000000000000000 ≤ n ∧ n < 0x8000000000000000))

/-- What a text is taken for. -/
inductive Typed (s : String) : Value → Prop where
  | yes (h : lower s = "true") : Typed s (.bool true)
  | no (h : lower s = "false") : Typed s (.bool false)
  /-- A whole number that fits. -/
  | whole {n : Int} (h : intOfText? s.toList = some n) (hfits : Fits n) : Typed s (.integer n)
  /-- Any other number. -/
  | real {x : Binary64} (hwhole : ∀ n, intOfText? s.toList = some n → ¬ Fits n)
    (h : Binary64.ofText? s.toList = some x) : Typed s (.real x)
  | text (htruth : ¬ TruthText s) (hreal : ¬ RealText s.toList) : Typed s (.text s)

theorem ofText_eq (htruth : ¬ TruthText s) : Value.ofText s =
    (match (intOfText? s.toList).filter fun n => decide (Fits n) with
      | some n => some (Value.integer n)
      | none => (Binary64.ofText? s.toList).map Value.real).getD (.text s) := by
  obtain ⟨htrue, hfalse⟩ := not_or.1 htruth
  rw [Value.ofText, if_neg htrue, if_neg hfalse]
  rfl

theorem ofText_typed (s : String) : Typed s (Value.ofText s) := by
  by_cases htrue : lower s = "true"
  · rw [Value.ofText, if_pos htrue]
    exact .yes htrue
  by_cases hfalse : lower s = "false"
  · rw [Value.ofText, if_neg htrue, if_pos hfalse]
    exact .no hfalse
  have htruth : ¬ TruthText s := not_or.2 ⟨htrue, hfalse⟩
  rw [ofText_eq htruth]
  cases hwhole : (intOfText? s.toList).filter fun n => decide (Fits n) with
  | some n =>
    obtain ⟨hn, hfits⟩ := Option.filter_eq_some_iff.1 hwhole
    exact .whole hn (of_decide_eq_true hfits)
  | none =>
    have hnone : ∀ n, intOfText? s.toList = some n → ¬ Fits n := by
      simpa using Option.filter_eq_none_iff.1 hwhole
    cases hreal : Binary64.ofText? s.toList with
    | some x => exact .real hnone hreal
    | none =>
      refine .text htruth fun h => ?_
      have hsome := Binary64.ofText?_isSome.2 h
      rw [hreal] at hsome
      cases hsome

theorem toList_lower (s : String) : (lower s).toList = s.toList.map Char.toLower :=
  String.toList_ofList

theorem toLower_of_isDigit {c : Char} (h : c.isDigit) : c.toLower = c := by
  have hnot : ¬ (c.val ≥ 65 ∧ c.val ≤ 90) := by
    simp only [Char.isDigit, Bool.and_eq_true, decide_eq_true_eq] at h
    grind
  exact dif_neg hnot

/-- No number is a truth value. -/
theorem not_truthText (h : RealText s.toList) : ¬ TruthText s := by
  have hlower := toList_lower s
  rcases h.word_or_digit with ⟨sign, word, hsign, hword, hs⟩ | ⟨c, hc, hdigit⟩
  · have hwords : ∀ sign' ∈ [[], ['+'], ['-']], ∀ word' ∈ Binary64.words,
        sign' ++ word'.toList ≠ "true".toList ∧ sign' ++ word'.toList ≠ "false".toList := by
      decide
    have hsign' : sign.map Char.toLower ∈ [[], ['+'], ['-']] := by cases hsign <;> decide
    obtain ⟨htrue, hfalse⟩ := hwords _ hsign' _ hword
    rw [String.toList_ofList, ← List.map_append, ← hs, ← hlower] at htrue hfalse
    rintro (h | h)
    · exact htrue (h ▸ rfl)
    · exact hfalse (h ▸ rfl)
  · have hmem : c ∈ (lower s).toList := by
      rw [hlower]
      exact List.mem_map.2 ⟨c, hc, toLower_of_isDigit hdigit⟩
    rintro (h | h)
    · rw [h] at hmem
      simp at hmem
      rcases hmem with rfl | rfl | rfl | rfl <;> exact absurd hdigit (by decide)
    · rw [h] at hmem
      simp at hmem
      rcases hmem with rfl | rfl | rfl | rfl | rfl <;> exact absurd hdigit (by decide)

/-- A text is taken for one value only. -/
theorem Typed.eq {v : Value} (h : Typed s v) : Value.ofText s = v := by
  cases h with
  | yes h => rw [Value.ofText, if_pos h]
  | no h =>
    have htrue : ¬ lower s = "true" := by
      rw [h]
      decide
    rw [Value.ofText, if_neg htrue, if_pos h]
  | @whole n h hfits =>
    have hreal := realText_of_wholeText (intOfText?_isSome.1 (Option.isSome_of_eq_some h))
    rw [ofText_eq (not_truthText hreal), h, Option.filter_some, if_pos (decide_eq_true hfits)]
    rfl
  | @real x hwhole h =>
    have hreal := Binary64.ofText?_isSome.1 (Option.isSome_of_eq_some h)
    have hnone : (intOfText? s.toList).filter (fun n => decide (Fits n)) = none := by
      simpa [Option.filter_eq_none_iff] using hwhole
    rw [ofText_eq (not_truthText hreal), hnone, h]
    rfl
  | text htruth hreal =>
    have hnone : intOfText? s.toList = none := by
      rw [← Option.not_isSome_iff_eq_none, intOfText?_isSome]
      exact fun h => hreal (realText_of_wholeText h)
    have hnone' : Binary64.ofText? s.toList = none := by
      rwa [← Option.not_isSome_iff_eq_none, Binary64.ofText?_isSome]
    rw [ofText_eq htruth, hnone, hnone']
    rfl

/-- What a text is taken for is the value that it is read as. -/
theorem typed_iff {v : Value} : Typed s v ↔ Value.ofText s = v :=
  ⟨Typed.eq, fun h => h ▸ ofText_typed s⟩

/-! ### Written out again -/

/-- What comes of the text of a setting. -/
def taken (s : String) : String := (Value.ofText s).render

/-- The texts that are spelled as their values are. -/
inductive Verbatim : String → Prop where
  | yes : Verbatim "true"
  | no : Verbatim "false"
  | whole {n : Int} (hfits : Fits n) : Verbatim (toString n)
  | real {s : String} {x : Binary64} (htyped : Typed s (.real x)) (htext : x.text = s) : Verbatim s
  | text {s : String} (htruth : ¬ TruthText s) (hreal : ¬ RealText s.toList) : Verbatim s

theorem taken_of_typed {v : Value} (h : Typed s v) : taken s = v.render := by
  rw [taken, h.eq]

theorem taken_eq_iff : taken s = s ↔ Verbatim s := by
  constructor
  · intro h
    have htyped := ofText_typed s
    rw [taken] at h
    generalize Value.ofText s = v at h htyped
    cases htyped with
    | yes => exact h ▸ .yes
    | no => exact h ▸ .no
    | whole _ hfits => exact h ▸ .whole hfits
    | real hwhole hreal => exact .real (.real hwhole hreal) h
    | text htruth hreal => exact .text htruth hreal
  · intro h
    cases h with
    | yes => exact taken_of_typed (.yes rfl)
    | no => exact taken_of_typed (.no rfl)
    | whole hfits => exact taken_of_typed (.whole (intOfText?_toString _) hfits)
    | real htyped htext => exact (taken_of_typed htyped).trans htext
    | text htruth hreal => exact taken_of_typed (.text htruth hreal)

/-- Plain decimals are spelled as their values are. -/
theorem verbatim_of_plainText (h : PlainText s.toList) : Verbatim s := by
  obtain ⟨x, hread, htext⟩ := Binary64.text_of_plainText h
  have hpoint : '.' ∈ s.toList := by
    generalize s.toList = cs at h
    cases h
    simp
  have hwhole : ∀ n, intOfText? s.toList = some n → ¬ Fits n := by
    intro n hn
    have hdigits := intOfText?_isSome.1 (Option.isSome_of_eq_some hn)
    generalize s.toList = cs at hdigits hpoint
    obtain ⟨hsign, hdigits, -⟩ := hdigits
    rcases List.mem_append.1 hpoint with hmem | hmem
    · cases hsign <;> exact absurd hmem (by decide)
    · exact absurd (hdigits '.' hmem) (by decide)
  exact .real (.real hwhole hread) (htext.trans String.ofList_toList)

theorem taken_of_colon (h : ':' ∈ s.toList) : taken s = s := by
  have htruth : ¬ TruthText s := by
    have hmem : ':' ∈ (lower s).toList := by
      rw [toList_lower]
      exact List.mem_map.2 ⟨':', h, rfl⟩
    rintro (hs | hs) <;> exact absurd (hs ▸ hmem) (by decide)
  exact taken_of_typed (.text htruth fun hreal => hreal.colon h)

end NatRelay.Settings
