/-! Association lists with one entry per key. -/
namespace NatRelay

/-- Keys with their values. -/
abbrev Assoc (α β : Type) := List (α × β)

namespace Assoc
variable {α β : Type} [DecidableEq α]

/-- Drop the entry of a key. -/
def remove (m : Assoc α β) (k : α) : Assoc α β := m.filter fun e => e.1 ≠ k

/-- Set the value of a key. -/
def put (m : Assoc α β) (k : α) (v : β) : Assoc α β := (k, v) :: m.remove k

/-- Change the value of a key that has one. -/
def mapAt (m : Assoc α β) (k : α) (f : β → β) : Assoc α β :=
  m.map fun e => if e.1 = k then (e.1, f e.2) else e

def keys (m : Assoc α β) : List α := m.map (·.1)

def values (m : Assoc α β) : List β := m.map (·.2)

@[simp] theorem lookup_remove_self (m : Assoc α β) (k : α) : (m.remove k).lookup k = none := by
  rw [List.lookup_eq_none_iff]
  intro e he
  have : e.1 ≠ k := by simpa using (List.mem_filter.1 he).2
  simpa using fun h => this h.symm

theorem lookup_remove_ne (m : Assoc α β) {k l : α} (h : l ≠ k) :
    (m.remove k).lookup l = m.lookup l := by
  induction m with
  | nil => rfl
  | cons e m ih =>
    obtain ⟨a, b⟩ := e
    simp only [remove] at ih
    by_cases ha : a = k
    · have hb : (l == a) = false := by simpa [ha] using h
      rw [remove, List.filter_cons_of_neg (by simp [ha]), ih, List.lookup_cons, hb]
    · rw [remove, List.filter_cons_of_pos (by simpa using ha), List.lookup_cons, List.lookup_cons,
        ih]

@[simp] theorem lookup_put_self (m : Assoc α β) (k : α) (v : β) :
    (m.put k v).lookup k = some v := by simp [put]

theorem lookup_put_ne (m : Assoc α β) {k l : α} (v : β) (h : l ≠ k) :
    (m.put k v).lookup l = m.lookup l := by
  have hb : (l == k) = false := by simpa using h
  simp [put, List.lookup_cons, hb, lookup_remove_ne m h]

theorem lookup_mapAt (m : Assoc α β) (k l : α) (f : β → β) :
    (m.mapAt k f).lookup l = if l = k then (m.lookup l).map f else m.lookup l := by
  induction m with
  | nil => simp [mapAt]
  | cons e m ih =>
    obtain ⟨a, b⟩ := e
    simp only [mapAt] at ih
    rw [mapAt, List.map_cons]
    by_cases hl : l = a
    · subst hl
      by_cases hk : l = k <;> simp [hk]
    · have hb : (l == a) = false := by simpa using hl
      by_cases hk : a = k
      · rw [if_pos hk, List.lookup_cons, List.lookup_cons, hb, ih]
      · rw [if_neg hk, List.lookup_cons, List.lookup_cons, hb, ih]

theorem keys_mapAt (m : Assoc α β) (k : α) (f : β → β) : (m.mapAt k f).keys = m.keys := by
  simp only [keys, mapAt, List.map_map]
  apply List.map_congr_left
  intro e _
  by_cases h : e.1 = k <;> simp [h]

theorem nodup_keys_remove {m : Assoc α β} (h : m.keys.Nodup) (k : α) : (m.remove k).keys.Nodup :=
  h.sublist (List.Sublist.map _ List.filter_sublist)

theorem nodup_keys_put {m : Assoc α β} (h : m.keys.Nodup) (k : α) (v : β) :
    (m.put k v).keys.Nodup := by
  refine List.nodup_cons.2 ⟨?_, nodup_keys_remove h k⟩
  rintro hk
  obtain ⟨e, he, hek⟩ := List.mem_map.1 hk
  exact absurd hek (by simpa using (List.mem_filter.1 he).2)

end Assoc
end NatRelay
