import NatRelay.Proofs.Allocation.Step

/-! The books agree after every run of operations: no address is leaked and none is given to two
owners. Main statement: `run_balanced`. -/
namespace NatRelay.Table

section Census
variable {α β : Type} [DecidableEq β]

theorem length_filter_mem_cons (f : α → β) (name : β) (names : List β) (l : List α) :
    (l.filter (f · = name)).length +
        (l.filter (f · ∈ names.filter fun n => !n == name)).length =
      (l.filter (f · ∈ name :: names)).length := by
  rw [(l.filter (f · ∈ name :: names)).length_eq_countP_add_countP (f · = name),
    List.countP_filter, List.countP_filter, List.countP_eq_length_filter,
    List.countP_eq_length_filter]
  congr 2
  · apply List.filter_congr
    intro x _
    by_cases hx : f x = name <;> simp [hx]
  · apply List.filter_congr
    intro x _
    by_cases hx : f x = name <;> simp [hx]

/-- Sorting values by the distinct names that they have loses and repeats none. -/
theorem length_flatMap_eraseDups (f : α → β) (names : List β) (l : List α) :
    (names.eraseDups.flatMap fun name => l.filter (f · = name)).length =
      (l.filter (f · ∈ names)).length := by
  induction hn : names.length using Nat.strongRecOn generalizing names with
  | ind n ih =>
    cases names with
    | nil => simp
    | cons name names =>
      have hshorter : (names.filter fun n => !n == name).length < n := by
        have hle := List.length_filter_le (fun n => !n == name) names
        simp only [List.length_cons] at hn
        omega
      rw [List.eraseDups_cons, List.flatMap_cons, List.length_append, ih _ hshorter _ rfl,
        length_filter_mem_cons]

end Census

/-- The lists of the users' clients name every allocation once. -/
theorem length_users (t : Table) : (t.users.flatMap (·.2)).length = t.size := by
  have hall : t.entries.values.filter
      (fun a => a.username ∈ t.entries.values.map (·.username)) = t.entries.values := by
    rw [List.filter_eq_self]
    intro a ha
    exact decide_eq_true (List.mem_map_of_mem ha)
  rw [users, List.flatMap_map, ← List.map_flatMap, List.length_map, length_flatMap_eraseDups, hall]
  simp [Assoc.values, size]

/-- What the books of a table say about its allocations, when its pool was made of the given
addresses and ports. -/
structure Balanced (options : AllocationOptions) (addresses : List Ip) (first last : UInt16)
    (t : Table) : Prop where
  /-- A five-tuple has one allocation. -/
  keys_nodup : t.entries.keys.Nodup
  key_eq : ∀ e ∈ t.entries, e.2.fiveTuple = e.1
  /-- The index leads from the address of each allocation to its owner, and from nowhere else. -/
  relays_nodup : t.relays.keys.Nodup
  lookup_relays : ∀ relay ft, t.relays.lookup relay = some ft ↔
    ∃ a, t.entries.lookup ft = some a ∧ a.relay = relay
  relay_inj : ∀ e₁ ∈ t.entries, ∀ e₂ ∈ t.entries, e₁.2.relay = e₂.2.relay → e₁ = e₂
  /-- The addresses on lease are those of the allocations. -/
  leased_nodup : t.pool.leased.Nodup
  mem_leased : ∀ relay, relay ∈ t.pool.leased ↔ ∃ e ∈ t.entries, e.2.relay = relay
  offered : ∀ relay ∈ t.pool.leased,
    ∃ ip ∈ addresses, ∃ port, first ≤ port ∧ port ≤ last ∧ relay = .ofIp ip port
  slots_eq : t.slots = t.entries.length
  size_le : 0 < options.maxAllocations → t.size ≤ options.maxAllocations
  /-- Entries, index, leases and the users' lists are of one length. -/
  size_eq_relays : t.size = t.relays.keys.length
  size_eq_leased : t.size = t.pool.leased.length
  size_eq_users : t.size = (t.users.flatMap (·.2)).length

theorem Consistent.balanced {t : Table} (c : t.Consistent) {options : AllocationOptions}
    {addresses : List Ip} {first last : UInt16}
    (h : SameTerms { options, pool := .make addresses first last } t) :
    t.Balanced options addresses first last where
  keys_nodup := c.keys_nodup
  key_eq := c.key_eq
  relays_nodup := c.relays_nodup
  lookup_relays := c.lookup_relays
  relay_inj _ h₁ _ h₂ := c.eq_of_relay_eq h₁ h₂
  leased_nodup := c.leased_nodup
  mem_leased := c.mem_leased
  offered relay hmem := Pool.offers_make.1 ((h.offers relay).1 (c.leased_offered relay hmem))
  slots_eq := c.slots_eq
  size_le hmax := by
    have hle := c.slots_le
    rw [h.options, c.slots_eq] at hle
    exact hle hmax
  size_eq_relays := by
    have hlength := c.relays_perm.length_eq
    simpa [owners, Assoc.keys, size] using hlength.symm
  size_eq_leased := by
    have hlength := c.leased_perm.length_eq
    simpa [owners, Assoc.keys, size] using hlength.symm
  size_eq_users := t.length_users.symm

/-- From a table without allocations, no run of operations with whatever arguments, times and port
offsets brings the books out of balance. -/
theorem run_balanced (options : AllocationOptions) (addresses : List Ip) (first last : UInt16)
    (ops : List (Op × Time)) :
    Balanced options addresses first last
      (run { options, pool := .make addresses first last } ops).2 := by
  obtain ⟨hc, hterms⟩ := run_consistent (consistent_empty options addresses first last) ops
  exact hc.balanced hterms

end NatRelay.Table
