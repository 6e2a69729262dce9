import Mathlib.Data.List.DropRight
import NatRelay.Proofs.Numeral
import NatRelay.Text.Pieces

/-! Lists that are written with commas. The pieces of a text are what stands between the commas, and
its items what is left of them without blanks at the ends, unless nothing is left. Main statement:
`lists_iff`, that there is one way only to read a text as a list. -/
namespace NatRelay.Text
open Numeral (Stops stops_nil takeWhile_front dropWhile_front)

variable {sep : Char} {cs before item after front rest : List Char}
  {pieces items : List (List Char)}

/-! ### Cutting -/

theorem splitAt_eq_splitOn (sep : Char) (cs : List Char) : splitAt sep cs = cs.splitOn sep := by
  induction cs with
  | nil => rfl
  | cons c cs ih =>
    obtain ⟨piece, pieces, hcs⟩ := List.exists_cons_of_ne_nil (List.splitOn_ne_nil sep cs)
    rw [List.splitOn_cons_eq_if_modifyHead, splitAt, ih, hcs]
    by_cases hc : c = sep <;> simp [hc]

theorem intercalate_splitAt (sep : Char) (cs : List Char) :
    [sep].intercalate (splitAt sep cs) = cs := by
  rw [splitAt_eq_splitOn, List.intercalate_splitOn]

theorem splitAt_intercalate (hpieces : ∀ piece ∈ pieces, sep ∉ piece) (hne : pieces ≠ []) :
    splitAt sep ([sep].intercalate pieces) = pieces := by
  rw [splitAt_eq_splitOn, List.splitOn_intercalate sep hpieces hne]

theorem mem_intercalate {piece : List Char} {c : Char} (hpiece : piece ∈ pieces) (hc : c ∈ piece) :
    c ∈ [sep].intercalate pieces := by
  induction pieces with
  | nil => cases hpiece
  | cons first others ih =>
    cases others with
    | nil =>
      obtain rfl := List.mem_singleton.1 hpiece
      simpa [List.intercalate] using hc
    | cons second others =>
      rw [List.intercalate_cons_cons, List.mem_append]
      rcases List.mem_cons.1 hpiece with rfl | hpiece
      · exact .inl (List.mem_append_left _ hc)
      · exact .inr (ih hpiece)

theorem not_mem_of_mem_splitAt {piece : List Char} (h : piece ∈ splitAt sep cs) : sep ∉ piece := by
  induction cs generalizing piece with
  | nil => simp_all [splitAt]
  | cons c cs ih =>
    rw [splitAt] at h
    split at h
    · rename_i first others hcs
      have hfirst : sep ∉ first := ih (by simp [hcs])
      split at h
      · rcases List.mem_cons.1 h with rfl | h
        · simp
        · exact ih (hcs ▸ h)
      · rename_i hc
        rcases List.mem_cons.1 h with rfl | h
        · simp [Ne.symm hc, hfirst]
        · exact ih (by simp [hcs, h])
    · rename_i hcs
      exact absurd (splitAt_eq_splitOn sep cs ▸ hcs) (List.splitOn_ne_nil sep cs)

theorem splitOnce_front (h : sep ∉ front) :
    splitOnce sep (front ++ sep :: rest) = some (front, rest) := by
  have hfront : ∀ c ∈ front, decide (c ≠ sep) = true := by
    intro c hc
    exact decide_eq_true (ne_of_mem_of_not_mem hc h)
  have hrest : Stops (fun c => decide (c ≠ sep)) (sep :: rest) := by simp [Stops]
  rw [splitOnce, dropWhile_front hfront hrest, takeWhile_front hfront hrest]

theorem splitOnce_eq_none : splitOnce sep cs = none ↔ sep ∉ cs := by
  constructor
  · intro h hmem
    obtain ⟨front, rest, rfl, hfront⟩ := List.eq_append_cons_of_mem hmem
    rw [splitOnce_front hfront] at h
    cases h
  · intro h
    have hcs : cs.dropWhile (fun c => decide (c ≠ sep)) = [] := by
      rw [List.dropWhile_eq_nil_iff]
      intro c hc
      exact decide_eq_true (ne_of_mem_of_not_mem hc h)
    rw [splitOnce, hcs]

theorem splitOnce_eq_some :
    splitOnce sep cs = some (front, rest) ↔ cs = front ++ sep :: rest ∧ sep ∉ front := by
  constructor
  · intro h
    have hmem : sep ∈ cs := by
      by_contra hnot
      rw [splitOnce_eq_none.2 hnot] at h
      cases h
    obtain ⟨front', rest', rfl, hfront⟩ := List.eq_append_cons_of_mem hmem
    rw [splitOnce_front hfront] at h
    cases h
    exact ⟨rfl, hfront⟩
  · rintro ⟨rfl, hfront⟩
    exact splitOnce_front hfront

/-! ### Blanks -/

/-- Neither end is blank. -/
structure IsTrimmed (cs : List Char) : Prop where
  head : Stops isBlank cs
  last : Stops isBlank cs.reverse

theorem trim_eq (cs : List Char) : trim cs = (cs.dropWhile isBlank).rdropWhile isBlank := rfl

theorem trim_of_blank (h : ∀ c ∈ cs, isBlank c) : trim cs = [] := by
  rw [trim_eq, List.dropWhile_eq_nil_iff.2 h, List.rdropWhile_nil]

theorem trim_spaced (hbefore : ∀ c ∈ before, isBlank c) (hafter : ∀ c ∈ after, isBlank c)
    (hitem : IsTrimmed item) (hne : item ≠ []) : trim (before ++ item ++ after) = item := by
  have hstops : Stops isBlank (item ++ after) := by
    rw [Stops, List.head?_append_of_ne_nil _ hne]
    exact hitem.head
  have hback : ∀ c ∈ after.reverse, isBlank c := by simpa using hafter
  rw [trim, List.append_assoc, dropWhile_front hbefore hstops, List.reverse_append,
    dropWhile_front hback hitem.last, List.reverse_reverse]

theorem stops_dropWhile {α : Type} (p : α → Bool) (xs : List α) : Stops p (xs.dropWhile p) := by
  intro x hx
  have := List.head?_dropWhile_not p xs
  simpa [Option.mem_def.1 hx] using this

/-- What is trimmed, and the blanks that are dropped. -/
theorem exists_spaces (cs : List Char) : ∃ before after, (∀ c ∈ before, isBlank c) ∧
    (∀ c ∈ after, isBlank c) ∧ cs = before ++ trim cs ++ after := by
  refine ⟨cs.takeWhile isBlank, (cs.dropWhile isBlank).rtakeWhile isBlank, ?_, ?_, ?_⟩
  · exact fun c hc => List.mem_takeWhile_imp hc
  · exact fun c hc => List.mem_rtakeWhile_imp hc
  · rw [trim_eq, List.append_assoc, List.rdropWhile_append_rtakeWhile,
      List.takeWhile_append_dropWhile]

theorem isTrimmed_trim (cs : List Char) : IsTrimmed (trim cs) where
  head := by
    intro c hc
    obtain ⟨after, hafter⟩ := List.rdropWhile_prefix isBlank (l := cs.dropWhile isBlank)
    apply stops_dropWhile isBlank cs c
    rw [← hafter, ← trim_eq, List.head?_append, hc]
    rfl
  last := by
    rw [trim, List.reverse_reverse]
    exact stops_dropWhile isBlank _

theorem blank_of_trim_eq_nil (h : trim cs = []) : ∀ c ∈ cs, isBlank c := by
  obtain ⟨before, after, hbefore, hafter, hcs⟩ := exists_spaces cs
  rw [h, List.append_nil] at hcs
  rw [hcs]
  exact List.forall_mem_append.2 ⟨hbefore, hafter⟩

theorem dropWhile_append_stop {α : Type} {p : α → Bool} {x : α} (hx : p x = false)
    (front rest : List α) : (front ++ x :: rest).dropWhile p = front.dropWhile p ++ x :: rest := by
  induction front with
  | nil => exact List.dropWhile_cons_of_neg (by simp [hx])
  | cons y front ih => by_cases hy : p y <;> simp [hy, ih]

/-- Around what is not blank, each side is trimmed on its own. -/
theorem trim_append_cons {c : Char} (hc : isBlank c = false) (front rest : List Char) :
    trim (front ++ c :: rest) = front.dropWhile isBlank ++ c :: rest.rdropWhile isBlank := by
  rw [trim, dropWhile_append_stop hc, List.reverse_append, List.reverse_cons, List.append_assoc,
    List.singleton_append, dropWhile_append_stop hc]
  simp [List.rdropWhile]

/-! ### Lists -/

/-- Items with blanks around them, and blank pieces between them. -/
inductive Spaced : List (List Char) → List (List Char) → Prop where
  | nil : Spaced [] []
  | blank {piece : List Char} {pieces items : List (List Char)} (hblank : ∀ c ∈ piece, isBlank c)
    (hrest : Spaced pieces items) : Spaced (piece :: pieces) items
  | item {before item after : List Char} {pieces items : List (List Char)}
    (hbefore : ∀ c ∈ before, isBlank c) (hafter : ∀ c ∈ after, isBlank c)
    (hrest : Spaced pieces items) : Spaced ((before ++ item ++ after) :: pieces) (item :: items)

/-- An item that is something, without commas and without blanks at its ends. -/
structure IsItem (item : List Char) : Prop where
  nonempty : item ≠ []
  trimmed : IsTrimmed item
  comma : ',' ∉ item

/-- A text is a list of items: they stand between commas, with blanks around them, and pieces that
are blank do not count. -/
def Lists (s : String) (items : List (List Char)) : Prop :=
  (∀ item ∈ items, IsItem item) ∧
    ∃ pieces, Spaced pieces items ∧ s.toList = [','].intercalate pieces

theorem Spaced.items_eq (h : Spaced pieces items) (hitems : ∀ item ∈ items, IsItem item) :
    (pieces.map trim).filter (!·.isEmpty) = items := by
  induction h with
  | nil => rfl
  | blank hblank _ ih => simp [trim_of_blank hblank, ih hitems]
  | @item before item after pieces items hbefore hafter _ ih =>
    obtain ⟨hitem, hitems⟩ := List.forall_mem_cons.1 hitems
    have htrim := trim_spaced hbefore hafter hitem.trimmed hitem.nonempty
    rw [List.map_cons, htrim, List.filter_cons_of_pos (by simp [hitem.nonempty]), ih hitems]

theorem not_comma_of_isBlank {c : Char} (h : isBlank c) : c ≠ ',' := by
  rintro rfl
  revert h
  decide

theorem Spaced.comma (h : Spaced pieces items) (hitems : ∀ item ∈ items, ',' ∉ item) :
    ∀ piece ∈ pieces, ',' ∉ piece := by
  have hblanks {cs : List Char} (hcs : ∀ c ∈ cs, isBlank c) : ',' ∉ cs :=
    fun hmem => not_comma_of_isBlank (hcs _ hmem) rfl
  induction h with
  | nil => simp
  | blank hblank _ ih => exact List.forall_mem_cons.2 ⟨hblanks hblank, ih hitems⟩
  | item hbefore hafter _ ih =>
    obtain ⟨hitem, hitems⟩ := List.forall_mem_cons.1 hitems
    refine List.forall_mem_cons.2 ⟨?_, ih hitems⟩
    simp [hblanks hbefore, hblanks hafter, hitem]

theorem spaced_trim (pieces : List (List Char)) :
    Spaced pieces ((pieces.map trim).filter (!·.isEmpty)) := by
  induction pieces with
  | nil => exact .nil
  | cons piece pieces ih =>
    rw [List.map_cons]
    by_cases hpiece : trim piece = []
    · rw [hpiece, List.filter_cons_of_neg (by simp)]
      exact .blank (blank_of_trim_eq_nil hpiece) ih
    · obtain ⟨before, after, hbefore, hafter, hspaces⟩ := exists_spaces piece
      rw [List.filter_cons_of_pos (by simpa using hpiece)]
      conv in piece :: pieces => rw [hspaces]
      exact .item hbefore hafter ih

theorem lists_items (s : String) : Lists s (Text.items s) := by
  refine ⟨?_, splitAt ',' s.toList, spaced_trim _, (intercalate_splitAt ',' s.toList).symm⟩
  intro item hitem
  obtain ⟨hmem, hkept⟩ := List.mem_filter.1 hitem
  obtain ⟨piece, hpiece, rfl⟩ := List.mem_map.1 hmem
  refine ⟨by simpa using hkept, isTrimmed_trim piece, fun hcomma => ?_⟩
  obtain ⟨before, after, -, -, hspaces⟩ := exists_spaces piece
  apply not_mem_of_mem_splitAt hpiece
  rw [hspaces]
  simp [hcomma]

/-- The text that the pieces make has the items. -/
theorem items_intercalate (hspaced : Spaced pieces items) (hitems : ∀ item ∈ items, IsItem item) :
    Text.items (String.ofList ([','].intercalate pieces)) = items := by
  rw [Text.items, String.toList_ofList]
  cases pieces with
  | nil =>
    cases hspaced
    rfl
  | cons piece pieces =>
    have hcomma := hspaced.comma fun item hitem => (hitems item hitem).comma
    rw [splitAt_intercalate hcomma (List.cons_ne_nil piece pieces), hspaced.items_eq hitems]

/-- A text is one list only. -/
theorem lists_iff {s : String} : Lists s items ↔ items = Text.items s := by
  constructor
  · rintro ⟨hitems, pieces, hspaced, hs⟩
    rw [← items_intercalate hspaced hitems, ← hs, String.ofList_toList]
  · rintro rfl
    exact lists_items s

end NatRelay.Text
