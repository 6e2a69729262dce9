import Mathlib.Data.List.Perm.Basic
import NatRelay.Assoc

/-! Association lists with distinct keys as finite maps: a value is found under a key exactly where
the entry is in the list. -/
namespace NatRelay.Assoc
variable {α β : Type} [DecidableEq α] {m : Assoc α β} {k : α} {v : β}

theorem mem_of_lookup (h : m.lookup k = some v) : (k, v) ∈ m := by
  obtain ⟨before, after, rfl, -⟩ := List.lookup_eq_some_iff.1 h
  simp

theorem lookup_eq_none : m.lookup k = none ↔ ∀ e ∈ m, e.1 ≠ k := by
  simp only [List.lookup_eq_none_iff, bne_iff_ne, ne_comm]

theorem lookup_of_mem (nodup : m.keys.Nodup) (h : (k, v) ∈ m) : m.lookup k = some v := by
  induction m with
  | nil => simp at h
  | cons e m ih =>
    obtain ⟨hne, nodup⟩ := List.nodup_cons.1 nodup
    rcases List.mem_cons.1 h with rfl | h
    · simp
    · have hk : k ≠ e.1 := by
        rintro rfl
        exact hne (List.mem_map.2 ⟨_, h, rfl⟩)
      rw [List.lookup_cons, beq_false_of_ne hk]
      exact ih nodup h

theorem lookup_eq_some (nodup : m.keys.Nodup) : m.lookup k = some v ↔ (k, v) ∈ m :=
  ⟨mem_of_lookup, lookup_of_mem nodup⟩

theorem remove_of_lookup_eq_none (h : m.lookup k = none) : m.remove k = m := by
  rw [remove, List.filter_eq_self]
  intro e he
  simpa using lookup_eq_none.1 h e he

theorem put_of_lookup_eq_none (h : m.lookup k = none) : m.put k v = (k, v) :: m := by
  rw [put, remove_of_lookup_eq_none h]

theorem length_remove (nodup : m.keys.Nodup) (h : m.lookup k = some v) :
    (m.remove k).length + 1 = m.length := by
  induction m with
  | nil => simp at h
  | cons e m ih =>
    obtain ⟨hne, nodup⟩ := List.nodup_cons.1 nodup
    by_cases hk : e.1 = k
    · have hm : m.lookup k = none := by
        rw [lookup_eq_none]
        intro d hd hdk
        exact hne (List.mem_map.2 ⟨d, hd, hdk.trans hk.symm⟩)
      rw [remove, List.filter_cons_of_neg (by simp [hk])]
      exact congrArg (List.length · + 1) (remove_of_lookup_eq_none hm)
    · rw [List.lookup_cons, beq_false_of_ne (Ne.symm hk)] at h
      rw [remove, List.filter_cons_of_pos (by simpa using hk), List.length_cons, List.length_cons]
      exact congrArg (· + 1) (ih nodup h)

omit [DecidableEq α] in
theorem nodup_keys_filter (nodup : m.keys.Nodup) (p : α × β → Bool) :
    (Assoc.keys (m.filter p)).Nodup :=
  nodup.sublist (List.filter_sublist.map _)

theorem lookup_filter (nodup : m.keys.Nodup) (p : α × β → Bool) :
    (m.filter p).lookup k = (m.lookup k).filter fun v => p (k, v) := by
  ext v
  rw [lookup_eq_some (nodup_keys_filter nodup p), List.mem_filter, Option.filter_eq_some_iff,
    lookup_eq_some nodup]

theorem lookup_mapValues {γ : Type} (m : Assoc α β) (k : α) (f : β → γ) :
    (m.map fun e => (e.1, f e.2)).lookup k = (m.lookup k).map f := by
  induction m with
  | nil => rfl
  | cons e m ih =>
    rw [List.map_cons, List.lookup_cons, List.lookup_cons, ih]
    split <;> simp

/-- The entries under a key are the one that is found. -/
theorem filter_key (nodup : m.keys.Nodup) (k : α) :
    m.filter (·.1 = k) = ((m.lookup k).map (k, ·)).toList := by
  induction m with
  | nil => rfl
  | cons e m ih =>
    obtain ⟨hne, nodup⟩ := List.nodup_cons.1 nodup
    by_cases hk : e.1 = k
    · have hm : m.filter (·.1 = k) = [] := by
        rw [List.filter_eq_nil_iff]
        intro d hd hdk
        exact hne (List.mem_map.2 ⟨d, hd, (of_decide_eq_true hdk).trans hk.symm⟩)
      rw [List.filter_cons_of_pos (by simpa using hk), hm, ← hk, List.lookup_cons,
        beq_self_eq_true]
      rfl
    · rw [List.filter_cons_of_neg (by simpa using hk), List.lookup_cons,
        beq_false_of_ne (Ne.symm hk)]
      exact ih nodup

/-- In a part of the list a key has the value that it has in the whole, or none. -/
theorem lookup_of_sublist {m' : Assoc α β} (nodup : m.keys.Nodup) (h : m'.Sublist m) (k : α) :
    m'.lookup k = m.lookup k ∨ m'.lookup k = none := by
  cases hk : m'.lookup k with
  | none => exact .inr rfl
  | some v => exact .inl (lookup_of_mem nodup (h.subset (mem_of_lookup hk))).symm

theorem lookup_eraseIdx_ne {n : ℕ} (h : n < m.length) (hk : k ≠ m[n].1) :
    (m.eraseIdx n).lookup k = m.lookup k := by
  induction m generalizing n with
  | nil => simp at h
  | cons e m ih =>
    cases n with
    | zero =>
      have hk : k ≠ e.1 := hk
      rw [List.eraseIdx_cons_zero, List.lookup_cons, beq_false_of_ne hk]
    | succ n =>
      rw [List.eraseIdx_cons_succ, List.lookup_cons, List.lookup_cons,
        ih (Nat.lt_of_succ_lt_succ h) hk]

theorem length_put_le (m : Assoc α β) (k : α) (v : β) : (m.put k v).length ≤ m.length + 1 :=
  Nat.succ_le_succ (List.length_filter_le _ _)

/-- A change at one key does not show where it cannot be seen. -/
theorem map_mapAt {γ : Type} (m : Assoc α β) (k : α) (f : β → β) (g : α × β → γ)
    (h : ∀ v, g (k, f v) = g (k, v)) : (m.mapAt k f).map g = m.map g := by
  rw [mapAt, List.map_map]
  apply List.map_congr_left
  rintro ⟨l, v⟩ -
  by_cases hl : l = k
  · subst hl; simp [h]
  · simp [hl]

end NatRelay.Assoc
