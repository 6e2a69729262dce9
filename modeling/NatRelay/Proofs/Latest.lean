import Mathlib.Data.List.Induction

/-! The latest entry of a kind in a list that grows at its end. -/
namespace NatRelay
variable {α : Type}

/-- The latest entry is of the one kind, or it is not of the other kind. -/
theorem exists_latest_concat {other kind : α → Prop} (xs : List α) (x : α) :
    (∃ before y after, xs ++ [x] = before ++ y :: after ∧ (∀ z ∈ after, ¬ other z) ∧ kind y) ↔
      kind x ∨ (¬ other x ∧
        ∃ before y after, xs = before ++ y :: after ∧ (∀ z ∈ after, ¬ other z) ∧ kind y) := by
  constructor
  · rintro ⟨before, y, after, h, hafter, hkind⟩
    rcases List.eq_nil_or_concat after with rfl | ⟨after, z, rfl⟩
    · obtain ⟨-, hlast⟩ := List.append_inj' h rfl
      obtain rfl := List.head_eq_of_cons_eq hlast
      exact .inl hkind
    · rw [List.concat_eq_append, ← List.cons_append, ← List.append_assoc] at h
      rw [List.concat_eq_append] at hafter
      obtain ⟨rfl, hlast⟩ := List.append_inj' h rfl
      obtain rfl := List.head_eq_of_cons_eq hlast
      refine .inr ⟨hafter x (by simp), before, y, after, rfl, ?_, hkind⟩
      exact fun w hw => hafter w (List.mem_append_left _ hw)
  · rintro (hkind | ⟨hother, before, y, after, rfl, hafter, hkind⟩)
    · exact ⟨xs, x, [], rfl, by simp, hkind⟩
    · refine ⟨before, y, after ++ [x], by simp, ?_, hkind⟩
      intro z hz
      rcases List.mem_append.1 hz with hz | hz
      · exact hafter z hz
      · rwa [List.mem_singleton.1 hz]

end NatRelay
