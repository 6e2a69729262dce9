import NatRelay.Allocation.InPlace
import NatRelay.Proofs.Allocation.Lease
import NatRelay.Proofs.Allocation.Quota

/-! When a table grants an allocation, and what it has changed by then. The quota is looked at
first, then the five-tuple, then the room for one more. A table that is worked on in place, slot
first and lease second, ends up the same, and as it was if there is an error. Main statement:
`run_decides`. -/
namespace NatRelay.Table
variable {t t' : Table} {r : Request} {offset : Nat} {now : Time} {a : Allocation}

/-! ### In place -/

namespace InPlace

@[simp] theorem exec_pure (a : α) (t : Table) : exec (pure a) t = (.ok a, t) := rfl

@[simp] theorem exec_throw (e : TableError) (t : Table) :
    exec (throw e : InPlace α) t = (.error e, t) := rfl

theorem exec_bind (x : InPlace α) (f : α → InPlace β) (t : Table) : exec (x >>= f) t =
    match exec x t with
    | (.ok a, t) => exec (f a) t
    | (.error e, t) => (.error e, t) := by
  cases h : exec x t with
  | mk result t' =>
    change StateT.run (ExceptT.run x) t = (result, t') at h
    rw [exec, ExceptT.run_bind, StateT.run_bind, h]
    cases result <;> rfl

@[simp] theorem exec_get (t : Table) : exec get t = (.ok t, t) := rfl

@[simp] theorem exec_set (t' t : Table) : exec (set t') t = (.ok (), t') := rfl

@[simp] theorem exec_modify (f : Table → Table) (t : Table) :
    exec (modify f) t = (.ok (), f t) := rfl

theorem exec_reserve (t : Table) : exec reserve t =
    if 0 < t.options.maxAllocations ∧ t.options.maxAllocations ≤ t.slots then (.error .capacity, t)
    else (.ok (), { t with slots := t.slots + 1 }) := by
  rw [reserve, exec_bind, exec_get]
  dsimp only
  split <;> simp

theorem exec_leaseRelay (t : Table) (f : Family) (offset : Nat) : exec (leaseRelay f offset) t =
    match t.pool.lease f offset with
    | some (relay, pool) => (.ok (some relay), { t with pool })
    | none => (.ok none, t) := by
  rw [leaseRelay, exec_bind, exec_get]
  dsimp only
  cases t.pool.lease f offset with
  | none => simp
  | some taken => simp [exec_bind, -bind_pure_comp]

theorem exec_replaceInPlace (stale : Allocation) (r : Request) (offset : Nat) (now : Time)
    (t : Table) : exec (replaceInPlace stale r offset now) t =
      match t.pool.lease r.family offset with
      | none => (.error .capacity, t)
      | some (relay, pool) => (.ok (t.build r relay now),
        { t with
          pool := pool.release stale.relay
          entries := t.entries.put r.fiveTuple (t.build r relay now)
          relays := (t.relays.remove stale.relay).put relay r.fiveTuple }) := by
  rw [replaceInPlace, exec_bind, exec_leaseRelay]
  cases t.pool.lease r.family offset with
  | none => simp
  | some taken =>
    simp [exec_bind, putEntry, removeRelay, releaseRelay, putRelay, build, grantedLifetime,
      -bind_pure_comp]

theorem exec_enterInPlace (r : Request) (offset : Nat) (now : Time) (t : Table) :
    exec (enterInPlace r offset now) t =
      if 0 < t.options.maxAllocations ∧ t.options.maxAllocations ≤ t.slots then
        (.error .capacity, t)
      else match t.pool.lease r.family offset with
        | none => (.error .capacity, t)
        | some (relay, pool) => (.ok (t.build r relay now),
          { t with
            pool
            entries := t.entries.put r.fiveTuple (t.build r relay now)
            relays := t.relays.put relay r.fiveTuple
            slots := t.slots + 1 }) := by
  rw [enterInPlace, exec_bind, exec_reserve]
  by_cases hroom : 0 < t.options.maxAllocations ∧ t.options.maxAllocations ≤ t.slots
  · rw [if_pos hroom, if_pos hroom]
  · rw [if_neg hroom, if_neg hroom]
    dsimp only
    rw [exec_bind, exec_leaseRelay]
    cases t.pool.lease r.family offset with
    | none => simp [exec_bind, unreserve]
    | some taken =>
      simp [exec_bind, putEntry, putRelay, build, grantedLifetime, -bind_pure_comp]

theorem exec_createInPlace (r : Request) (offset : Nat) (now : Time) (t : Table) :
    exec (createInPlace r offset now) t =
      match t.create r offset now with
      | .ok (a, t') => (.ok a, t')
      | .error e => (.error e, t) := by
  rw [createInPlace, exec_bind, exec_get, create]
  dsimp only
  split
  · rfl
  cases t.entries.lookup r.fiveTuple with
  | none =>
    change exec (enterInPlace r offset now) t = _
    rw [exec_enterInPlace]
    dsimp only
    split
    · rfl
    · cases t.pool.lease r.family offset <;> rfl
  | some stale =>
    dsimp only
    split
    · rfl
    · change exec (replaceInPlace stale r offset now) t = _
      rw [exec_replaceInPlace]
      cases t.pool.lease r.family offset <;> rfl
end InPlace

/-! ### Which way it goes -/

/-- The user holds as many live allocations as it may. -/
def AtQuota (t : Table) (username : String) (now : Time) : Prop :=
  0 < t.options.userQuota ∧ t.options.userQuota ≤ (t.held username now).length

/-- The five-tuple has a live allocation. -/
def Taken (t : Table) (ft : FiveTuple) (now : Time) : Prop :=
  ∃ a, t.entries.lookup ft = some a ∧ now < a.expiresAt

/-- There is no address for the request, or it would be one entry too many. -/
def NoRoom (t : Table) (r : Request) : Prop :=
  (∀ ip ∈ t.pool.addresses, ip.family = r.family → ∀ port, t.pool.firstPort ≤ port →
    port ≤ t.pool.lastPort → Endpoint.ofIp ip port ∈ t.pool.leased) ∨
    t.entries.lookup r.fiveTuple = none ∧ 0 < t.options.maxAllocations ∧
      t.size = t.options.maxAllocations

/-- The outcome of a create, one case for each way through it. -/
inductive Outcome (t : Table) (r : Request) (now : Time) :
    Except TableError (Allocation × Table) → Prop
  | quota (hquota : t.AtQuota r.username now) : Outcome t r now (.error (.quota r.username))
  | taken (hquota : ¬ t.AtQuota r.username now) (htaken : t.Taken r.fiveTuple now) :
    Outcome t r now (.error (.alreadyExists r.fiveTuple.client))
  | full (hquota : ¬ t.AtQuota r.username now) (htaken : ¬ t.Taken r.fiveTuple now)
      (hroom : t.NoRoom r) : Outcome t r now (.error .capacity)
  | granted {a : Allocation} {t' : Table} (hquota : ¬ t.AtQuota r.username now)
      (htaken : ¬ t.Taken r.fiveTuple now) (hroom : ¬ t.NoRoom r)
      (hcreated : t.Created r now a t') : Outcome t r now (.ok (a, t'))

/-- All slots are taken just if there are as many entries as there may be. -/
theorem Consistent.slots_full (c : t.Consistent) :
    0 < t.options.maxAllocations ∧ t.options.maxAllocations ≤ t.slots ↔
      0 < t.options.maxAllocations ∧ t.size = t.options.maxAllocations := by
  refine and_congr_right fun hmax => ?_
  have hle := c.slots_le hmax
  rw [c.slots_eq] at hle ⊢
  exact ⟨fun h => Nat.le_antisymm hle h, fun h => Nat.le_of_eq h.symm⟩

/-- What a create within the quota may be refused for. -/
theorem create_eq_error {e : TableError}
    (hquota : ¬ (0 < t.options.userQuota ∧ t.options.userQuota ≤ t.userCount r.username now))
    (h : t.create r offset now = .error e) :
    e = .alreadyExists r.fiveTuple.client ∧ t.Taken r.fiveTuple now ∨
    e = .capacity ∧ ¬ t.Taken r.fiveTuple now ∧
      (t.pool.lease r.family offset = none ∨ t.entries.lookup r.fiveTuple = none ∧
        0 < t.options.maxAllocations ∧ t.options.maxAllocations ≤ t.slots) := by
  rw [create, if_neg hquota] at h
  cases hlookup : t.entries.lookup r.fiveTuple with
  | some stale =>
    rw [hlookup] at h
    dsimp only at h
    by_cases hlive : now < stale.expiresAt
    · rw [if_pos (by simpa [Allocation.isExpired] using hlive)] at h
      exact .inl ⟨(Except.error.inj h).symm, stale, hlookup, hlive⟩
    · rw [if_neg (by simpa [Allocation.isExpired] using hlive)] at h
      have hfree : ¬ t.Taken r.fiveTuple now := by
        rintro ⟨b, hb, hlive'⟩
        obtain rfl := Option.some.inj (hlookup.symm.trans hb)
        exact hlive hlive'
      cases hlease : t.pool.lease r.family offset with
      | none =>
        rw [hlease] at h
        exact .inr ⟨(Except.error.inj h).symm, hfree, .inl rfl⟩
      | some taken =>
        rw [hlease] at h
        cases h
  | none =>
    rw [hlookup] at h
    dsimp only at h
    have hfree : ¬ t.Taken r.fiveTuple now := by
      rintro ⟨b, hb, -⟩
      cases hlookup.symm.trans hb
    by_cases hslots : 0 < t.options.maxAllocations ∧ t.options.maxAllocations ≤ t.slots
    · rw [if_pos hslots] at h
      exact .inr ⟨(Except.error.inj h).symm, hfree, .inr ⟨rfl, hslots⟩⟩
    · rw [if_neg hslots] at h
      cases hlease : t.pool.lease r.family offset with
      | none =>
        rw [hlease] at h
        exact .inr ⟨(Except.error.inj h).symm, hfree, .inl rfl⟩
      | some taken =>
        rw [hlease] at h
        cases h

theorem Created.not_taken (h : t.Created r now a t') : ¬ t.Taken r.fiveTuple now := by
  rintro ⟨b, hb, hlive⟩
  exact absurd (h.stale b hb) (Nat.not_le_of_lt hlive)

/-- The relayed address is one of the pool's, of the family asked for. -/
theorem Created.offered_family (h : t.Created r now a t') :
    ∃ ip ∈ t.pool.addresses, ip.family = r.family ∧
      ∃ port, t.pool.firstPort ≤ port ∧ port ≤ t.pool.lastPort ∧ a.relay = .ofIp ip port := by
  obtain ⟨ip, hip, port, hfirst, hlast, heq⟩ := h.offered
  have hfamily := h.family
  rw [heq, Endpoint.family, Endpoint.ip_ofIp] at hfamily
  exact ⟨ip, hip, hfamily, port, hfirst, hlast, heq⟩

theorem Created.not_noRoom (h : t.Created r now a t') (c : t.Consistent) : ¬ t.NoRoom r := by
  rintro (hleased | ⟨hnone, hmax, hsize⟩)
  · obtain ⟨ip, hip, hfamily, port, hfirst, hlast, heq⟩ := h.offered_family
    exact h.free (heq ▸ hleased ip hip hfamily port hfirst hlast)
  · have hlt := h.room hnone hmax
    rw [c.slots_eq] at hlt
    exact absurd hsize (Nat.ne_of_lt hlt)

theorem Consistent.outcome (c : t.Consistent) (r : Request) (offset : Nat) (now : Time) :
    Outcome t r now (t.create r offset now) := by
  by_cases hquota : t.AtQuota r.username now
  · rw [(c.create_eq_quota_iff r offset).2 ⟨rfl, hquota⟩]
    exact .quota hquota
  cases hresult : t.create r offset now with
  | error e =>
    have hcount : ¬ (0 < t.options.userQuota ∧
        t.options.userQuota ≤ t.userCount r.username now) := by
      rw [c.userCount_eq]
      exact hquota
    rcases create_eq_error hcount hresult with
      ⟨rfl, htaken⟩ | ⟨rfl, hfree, hlease | ⟨hnone, hslots⟩⟩
    · exact .taken hquota htaken
    · exact .full hquota hfree (.inl (Pool.lease_eq_none.1 hlease))
    · exact .full hquota hfree (.inr ⟨hnone, c.slots_full.1 hslots⟩)
  | ok made =>
    have hcreated := c.created hresult
    exact .granted hquota hcreated.not_taken (hcreated.not_noRoom c) hcreated

/-! ### What a granted request has changed -/

/-- The lifetime that a request is granted, with the options of the table. -/
def granted (options : AllocationOptions) : Option UInt32 → Duration
  | none => options.defaultLifetime
  | some n => if n = 0 then options.defaultLifetime
    else max options.defaultLifetime (min (seconds n.toNat) options.maxLifetime)

theorem grantedLifetime_eq (t : Table) (requested : Option UInt32) :
    t.grantedLifetime requested = granted t.options requested := by
  rw [grantedLifetime]
  cases requested with
  | none => exact ite_self _
  | some n =>
    rw [AllocationOptions.desiredLifetime, granted]
    by_cases hn : n = 0
    · rw [if_pos hn, if_pos hn]
      exact if_pos rfl
    · rw [if_neg hn, if_neg hn, max_comm]
      by_cases hzero :
          max t.options.defaultLifetime (min (seconds n.toNat) t.options.maxLifetime) = 0
      · rw [hzero]
        exact (if_pos rfl).trans (Nat.max_eq_zero_iff.1 hzero).1
      · exact if_neg hzero

/-- The address that a new allocation of the five-tuple sets free: that of the one before. -/
def freed (t : Table) (ft : FiveTuple) : Option Endpoint := (t.entries.lookup ft).map (·.relay)

/-- Only that address is not spared. -/
theorem Consistent.spares_freed (c : t.Consistent) (ft : FiveTuple) (relay : Endpoint) :
    t.spares (·.1 ≠ ft) relay = decide (t.freed ft ≠ some relay) := by
  rw [freed]
  cases hlookup : t.entries.lookup ft with
  | some b =>
    rw [c.spares_key hlookup]
    simp [eq_comm]
  | none =>
    rw [spares, Bool.eq_iff_iff, List.all_eq_true]
    simp only [Option.map_none, ne_eq, reduceCtorEq, not_false_eq_true, decide_true, iff_true]
    intro e he
    simp [Assoc.lookup_eq_none.1 hlookup e he]

/-- What a table has become that gave a request the allocation `a`, and what it gave. -/
structure Grants (options : AllocationOptions) (addresses : List Ip) (first last : UInt16)
    (t : Table) (r : Request) (now : Time) (a : Allocation) (t' : Table) : Prop where
  built : a = {
    fiveTuple := r.fiveTuple, username := r.username, relay := a.relay, tid := r.tid
    lifetime := granted options r.lifetime, createdAt := now
    expiresAt := now + granted options r.lifetime, permissions := [], channels := [] }
  unleased : a.relay ∉ t.pool.leased
  offered : ∃ ip ∈ addresses, ip.family = r.family ∧
    ∃ port, first ≤ port ∧ port ≤ last ∧ a.relay = .ofIp ip port
  /-- Only the entry of the request is another one. -/
  lookup : ∀ ft, t'.entries.lookup ft = if ft = r.fiveTuple then some a else t.entries.lookup ft
  lookup_relays : ∀ relay, t'.relays.lookup relay =
    if relay = a.relay then some r.fiveTuple
    else if t.freed r.fiveTuple = some relay then none
    else t.relays.lookup relay
  mem_leased : ∀ relay, relay ∈ t'.pool.leased ↔
    relay = a.relay ∨ relay ∈ t.pool.leased ∧ t.freed r.fiveTuple ≠ some relay
  /-- One address more is on lease and one slot more is taken, unless an allocation was replaced. -/
  length_leased : t'.pool.leased.length =
    t.pool.leased.length + if t.entries.lookup r.fiveTuple = none then 1 else 0
  slots : t'.slots = t.slots + if t.entries.lookup r.fiveTuple = none then 1 else 0
  terms : t.SameTerms t'

theorem Created.grants (h : t.Created r now a t') (c : t.Consistent) {options : AllocationOptions}
    {addresses : List Ip} {first last : UInt16}
    (hterms : SameTerms { options, pool := .make addresses first last } t) :
    Grants options addresses first last t r now a t' := by
  have c' := h.consistent c
  have hlength (d : Table) (cd : d.Consistent) : d.pool.leased.length = d.slots := by
    rw [cd.slots_eq, cd.leased_perm.length_eq]
    simp [owners, Assoc.keys]
  have hslots : t'.slots = t.slots + if t.entries.lookup r.fiveTuple = none then 1 else 0 := by
    rw [h.table, c.slots_eq]
    change (t.entries.remove r.fiveTuple).length + 1 = _
    cases hlookup : t.entries.lookup r.fiveTuple with
    | none => rw [Assoc.remove_of_lookup_eq_none hlookup, if_pos rfl]
    | some b => rw [Assoc.length_remove c.keys_nodup hlookup, if_neg (by simp), Nat.add_zero]
  refine ⟨?_, h.free, ?_, h.lookup, fun relay => ?_, fun relay => ?_, ?_, hslots, ?_⟩
  · have hoptions : t.options = options := hterms.options
    conv_lhs => rw [h.built, build, grantedLifetime_eq, hoptions]
  · obtain ⟨ip, hip, hfamily, port, hfirst, hlast, heq⟩ := h.offered_family
    rw [hterms.addresses, Pool.make, List.mem_eraseDups] at hip
    rw [hterms.firstPort] at hfirst
    rw [hterms.lastPort] at hlast
    exact ⟨ip, hip, hfamily, port, hfirst, hlast, heq⟩
  · rw [h.table, add, keep, List.lookup_cons, h.fiveTuple]
    by_cases hrelay : relay = a.relay
    · simp [hrelay]
    · rw [beq_false_of_ne hrelay, if_neg hrelay]
      dsimp only
      rw [Assoc.lookup_filter c.relays_nodup]
      simp only [c.spares_freed]
      by_cases hfreed : t.freed r.fiveTuple = some relay <;>
        cases t.relays.lookup relay <;> simp [hfreed]
  · rw [h.table]
    change relay ∈ a.relay :: t.pool.leased.filter _ ↔ _
    rw [List.mem_cons, List.mem_filter, c.spares_freed, decide_eq_true_iff]
  · rw [hlength t' c', hlength t c, hslots]
  · rw [h.table]
    exact ⟨rfl, rfl, rfl, rfl⟩

/-! ### All of it -/

/-- What a create makes of a request, for a table with the given options whose pool was made of the
given addresses and ports. -/
structure Decides (options : AllocationOptions) (addresses : List Ip) (first last : UInt16)
    (t : Table) (r : Request) (offset : Nat) (now : Time) : Prop where
  error_iff : ∀ e, t.create r offset now = .error e ↔
    e = .quota r.username ∧ t.AtQuota r.username now ∨
    e = .alreadyExists r.fiveTuple.client ∧ ¬ t.AtQuota r.username now ∧
      t.Taken r.fiveTuple now ∨
    e = .capacity ∧ ¬ t.AtQuota r.username now ∧ ¬ t.Taken r.fiveTuple now ∧ t.NoRoom r
  ok_iff : (∃ a t', t.create r offset now = .ok (a, t')) ↔
    ¬ t.AtQuota r.username now ∧ ¬ t.Taken r.fiveTuple now ∧ ¬ t.NoRoom r
  grants : ∀ a t', t.create r offset now = .ok (a, t') →
    Grants options addresses first last t r now a t'
  /-- A table that is worked on in place is the new one in the end, or the one before if there is
  an error, slots and all. -/
  in_place : (createInPlace r offset now).exec t =
    match t.create r offset now with
    | .ok (a, t') => (.ok a, t')
    | .error e => (.error e, t)
  /-- The terms of the table are those it was made with. -/
  terms : SameTerms { options, pool := .make addresses first last } t

theorem run_decides (options : AllocationOptions) (addresses : List Ip) (first last : UInt16)
    (ops : List (Op × Time)) (r : Request) (offset : Nat) (now : Time) :
    Decides options addresses first last
      (run { options, pool := .make addresses first last } ops).2 r offset now := by
  obtain ⟨c, hterms⟩ := run_consistent (consistent_empty options addresses first last) ops
  generalize (run { options, pool := .make addresses first last } ops).2 = t at *
  have houtcome := c.outcome r offset now
  refine ⟨fun e => ?_, ?_, fun a t' h => (c.created h).grants c hterms,
    InPlace.exec_createInPlace r offset now t, hterms⟩
  · generalize t.create r offset now = result at *
    cases houtcome with
    | quota hquota => simp [hquota, eq_comm]
    | taken hquota htaken => simp [hquota, htaken, eq_comm]
    | full hquota htaken hroom => simp [hquota, htaken, hroom, eq_comm]
    | granted hquota htaken hroom => simp [hquota, htaken, hroom]
  · generalize t.create r offset now = result at *
    cases houtcome with
    | quota hquota => simp [hquota]
    | taken hquota htaken => simp [hquota, htaken]
    | full hquota htaken hroom => simp [hquota, htaken, hroom]
    | granted hquota htaken hroom => simp [hquota, htaken, hroom]

end NatRelay.Table
