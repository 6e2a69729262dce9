import Mathlib.Data.List.Perm.Subperm
import NatRelay.Proofs.Allocation.Tenure

/-! The quota of a user bounds what the user holds, now and at any time to come, and what expired
counts for nothing, swept or not. Main statement: `run_quota`. -/
namespace NatRelay.Table

/-- The five-tuples whose live allocations are a user's. -/
def held (t : Table) (username : String) (now : Time) : List FiveTuple :=
  t.entries.keys.filter fun ft => (t.find? ft now).any (·.username = username)

section Held
variable {t : Table} {username : String} {ft : FiveTuple} {now : Time}

theorem mem_held : ft ∈ t.held username now ↔
    ∃ a, t.find? ft now = some a ∧ a.username = username := by
  rw [held, List.mem_filter, Option.any_eq_true]
  simp only [decide_eq_true_iff, and_iff_right_iff_imp]
  rintro ⟨a, ha, -⟩
  exact List.mem_map.2 ⟨_, Assoc.mem_of_lookup (find?_eq_some.1 ha).1, rfl⟩

namespace Consistent
variable (c : t.Consistent)
include c

theorem nodup_held (username : String) (now : Time) : (t.held username now).Nodup :=
  c.keys_nodup.filter _

/-- The count that a create goes by is that of the live allocations. -/
theorem userCount_eq (username : String) (now : Time) :
    t.userCount username now = (t.held username now).length := by
  rw [held, Assoc.keys, List.filter_map, List.length_map, ← List.countP_eq_length_filter, userCount]
  apply List.countP_congr
  intro e he
  have hlookup : t.entries.lookup e.1 = some e.2 := Assoc.lookup_of_mem c.keys_nodup he
  cases hexpired : e.2.isExpired now <;> simp [find?, hlookup, hexpired]

/-- A sweep makes no difference to what a user holds. -/
theorem mem_held_sweep {earlier : Time} (h : earlier ≤ now) :
    ft ∈ (t.sweep earlier).2.held username now ↔ ft ∈ t.held username now := by
  rw [mem_held, mem_held, c.sweep_eq]
  simp only [find?_eq_some, lookup_mapValues, c.lookup_keep, Option.map_eq_some_iff,
    Option.filter_eq_some_iff]
  constructor
  · rintro ⟨_, ⟨⟨a, ⟨ha, -⟩, rfl⟩, hlive⟩, hname⟩
    exact ⟨a, ⟨ha, hlive⟩, hname⟩
  · rintro ⟨a, ⟨ha, hlive⟩, hname⟩
    have hkept : earlier < a.expiresAt := Nat.lt_of_le_of_lt h hlive
    exact ⟨_, ⟨⟨a, ⟨ha, by simpa [Allocation.isExpired] using hkept⟩, rfl⟩, hlive⟩, hname⟩

theorem length_held_sweep (username : String) {earlier : Time} (h : earlier ≤ now) :
    ((t.sweep earlier).2.held username now).length = (t.held username now).length := by
  apply List.Perm.length_eq
  have hswept : (t.sweep earlier).2.Consistent := step_consistent c .sweep earlier
  rw [List.perm_ext_iff_of_nodup (hswept.nodup_held username now) (c.nodup_held username now)]
  exact fun ft => c.mem_held_sweep h

/-- A request meets the quota just if its user holds so many live allocations. -/
theorem create_eq_quota_iff (r : Request) (offset : Nat) :
    t.create r offset now = .error (.quota username) ↔ r.username = username ∧
      0 < t.options.userQuota ∧ t.options.userQuota ≤ (t.held r.username now).length := by
  rw [create_eq_quota, c.userCount_eq]

end Consistent
end Held

section Step
variable {t t' : Table} {username : String} {ft : FiveTuple} {now later : Time} {op : Op}
  {reply : Reply}

/-- What lives on behind an exchange was just made, or it lived before and was the same user's. -/
theorem Passage.live {x : Exchange} {before : Option Allocation} {b : Allocation}
    (h : Passage t ft x before (some b)) (hle : x.time ≤ later) (hlive : later < b.expiresAt) :
    (x.opens = some ft ∧ x.Begins b) ∨
      ∃ a, before = some a ∧ x.time < a.expiresAt ∧ a.username = b.username := by
  cases h with
  | opened _ hopens _ _ hbegins => exact .inl ⟨hopens, hbegins⟩
  | renewed hbefore => exact .inr ⟨_, rfl, hbefore, rfl⟩
  | kept hsame hends =>
    exact .inr ⟨_, rfl, hends ▸ Nat.lt_of_le_of_lt hle hlive, hsame.username.symm⟩

/-- What a user holds from a step on was held before, or it was made for the user by that step. -/
theorem Step.mem_held (h : t.Step now op reply t') (c : t.Consistent) (hle : now ≤ later)
    (hheld : ft ∈ t'.held username later) : ft ∈ t.held username now ∨
      Exchange.opens ⟨op, now, reply⟩ = some ft ∧
        ∃ b : Allocation, Exchange.Begins b ⟨op, now, reply⟩ ∧ b.username = username := by
  obtain ⟨b, hb, hname⟩ := Table.mem_held.1 hheld
  obtain ⟨hlookup, hlive⟩ := find?_eq_some.1 hb
  have hpassage := h.passage c ft
  rw [hlookup] at hpassage
  rcases hpassage.live hle hlive with ⟨hopens, hbegins⟩ | ⟨a, ha, hbefore, hsame⟩
  · exact .inr ⟨hopens, b, hbegins, hname⟩
  · exact .inl (Table.mem_held.2 ⟨a, find?_eq_some.2 ⟨ha, hbefore⟩, hsame.trans hname⟩)

/-- A user gains at most one five-tuple in a step, and that one by a create within the quota. -/
theorem Step.held_subset (h : t.Step now op reply t') (c : t.Consistent) (username : String)
    (hle : now ≤ later) : t'.held username later ⊆ t.held username now ∨
      ∃ r a, t.Created r now a t' ∧ r.username = username ∧
        t'.held username later ⊆ r.fiveTuple :: t.held username now := by
  have hmem (ft : FiveTuple) (hft : ft ∈ t'.held username later) := h.mem_held c hle hft
  cases h with
  | @create r _ a _ hcreated =>
    by_cases hname : r.username = username
    · refine .inr ⟨r, a, hcreated, hname, fun ft hft => ?_⟩
      rcases hmem ft hft with hbefore | ⟨hopens, -⟩
      · exact List.mem_cons_of_mem _ hbefore
      · rw [← Option.some.inj hopens]
        exact List.mem_cons_self
    · refine .inl fun ft hft => ?_
      rcases hmem ft hft with hbefore | ⟨-, b, hbegins, rfl⟩
      · exact hbefore
      · exact absurd hbegins.1.symm hname
  | idle hidle =>
    exact .inl fun ft hft => (hmem ft hft).resolve_right (by simp [Exchange.of_idle hidle])
  | _ => exact .inl fun ft hft => (hmem ft hft).resolve_right (by simp [Exchange.opens])

/-- One step keeps within the quota, for all time to come. -/
theorem Step.length_held_le (h : t.Step now op reply t') (c : t.Consistent)
    (hpos : 0 < t.options.userQuota)
    (hheld : (t.held username now).length ≤ t.options.userQuota) (hle : now ≤ later) :
    (t'.held username later).length ≤ t.options.userQuota := by
  have hnodup := (h.consistent c).nodup_held username later
  rcases h.held_subset c username hle with hsub | ⟨r, a, hcreated, rfl, hsub⟩
  · exact Nat.le_trans (hnodup.subperm hsub).length_le hheld
  · have hroom : t.userCount r.username now < t.options.userQuota := hcreated.quota hpos
    rw [c.userCount_eq] at hroom
    exact Nat.le_trans (hnodup.subperm hsub).length_le hroom

end Step

section Run
variable {options : AllocationOptions} {addresses : List Ip} {first last : UInt16}
  {ops : List (Op × Time)} {now : Time}

theorem run_length_held_le (hpos : 0 < options.userQuota) (h : Timely ops now) (username : String)
    {later : Time} (hle : now ≤ later) :
    ((run { options, pool := .make addresses first last } ops).2.held username later).length ≤
      options.userQuota := by
  refine history_induct (P := fun _ last t => ∀ later, last ≤ later →
      (t.held username later).length ≤ options.userQuota)
    (consistent_empty options addresses first last) ?_ ?_ ?_ h later hle
  · exact fun _ _ => Nat.zero_le _
  · exact fun hmono hheld later hle => hheld later (Nat.le_trans hmono hle)
  · intro _ t t' now op reply c hterms hstep hheld later hle
    have hquota : t.options.userQuota = options.userQuota :=
      congrArg AllocationOptions.userQuota hterms.options
    rw [← hquota] at hpos hheld ⊢
    exact hstep.length_held_le c hpos (hheld now (Nat.le_refl now)) hle

/-- No user ever holds more live allocations than the quota, now or at any time to come. A request
meets the quota exactly if its user holds that many, and an earlier sweep of what expired makes no
difference to that. -/
theorem run_quota (hpos : 0 < options.userQuota) (h : Timely ops now) :
    let t₀ : Table := { options, pool := .make addresses first last }
    let t := (t₀.run ops).2
    (∀ username later, now ≤ later →
      (t.held username later).length ≤ options.userQuota) ∧
      (∀ r offset username, t.create r offset now = .error (.quota username) ↔
        r.username = username ∧ options.userQuota ≤ (t.held username now).length) ∧
      ∀ r offset username earlier, earlier ≤ now →
        ((t.sweep earlier).2.create r offset now = .error (.quota username) ↔
          t.create r offset now = .error (.quota username)) := by
  intro t₀ t
  obtain ⟨c, hterms⟩ : t.Consistent ∧ t₀.SameTerms t :=
    run_consistent (consistent_empty options addresses first last) ops
  have hquota : t.options.userQuota = options.userQuota :=
    congrArg AllocationOptions.userQuota hterms.options
  refine ⟨fun username later hle => run_length_held_le hpos h username hle, ?_, ?_⟩
  · intro r offset username
    rw [c.create_eq_quota_iff, hquota]
    exact and_congr_right fun hname => by rw [hname, and_iff_right hpos]
  · intro r offset username earlier hle
    have hswept : (t.sweep earlier).2.Consistent := step_consistent c .sweep earlier
    have hoptions : (t.sweep earlier).2.options = t.options := by rw [c.sweep_eq]; rfl
    rw [c.create_eq_quota_iff, hswept.create_eq_quota_iff, hoptions, c.length_held_sweep _ hle]

/-- An allocation that expired stands in the way of its user no longer, although nobody swept. -/
theorem run_quota_at_expiry :
    let t₀ : Table :=
      { options := { userQuota := 1 }, pool := .make [.v4 0x0a000001] 49152 49153 }
    let alice : Request :=
      { fiveTuple := .udp (.v4 0xc0000201 5000) (.v4 0xc0000202 3478), username := "alice", tid := 7
        family := .v4 }
    let again : Request :=
      { alice with fiveTuple := .udp (.v4 0xc0000201 5001) (.v4 0xc0000202 3478) }
    let ops : List (Op × Time) := [(.create alice 0, 0)]
    let t := (t₀.run ops).2
    0 < t₀.options.userQuota ∧ Timely ops 599999 ∧ Timely ops 600000 ∧ t.size = 1 ∧
      (∀ later, 599999 ≤ later → (t.held "alice" later).length ≤ 1) ∧
      t.create again 0 599999 = .error (.quota "alice") ∧
      t.create again 0 600000 ≠ .error (.quota "alice") := by
  intro t₀ alice again ops t
  have hpos : 0 < t₀.options.userQuota := by decide
  have htimely : Timely ops 599999 := by decide
  have htimely' : Timely ops 600000 := by decide
  obtain ⟨hheld, hrefused, -⟩ :=
    @run_quota t₀.options [.v4 0x0a000001] 49152 49153 ops 599999 hpos htimely
  obtain ⟨-, hrefused', -⟩ :=
    @run_quota t₀.options [.v4 0x0a000001] 49152 49153 ops 600000 hpos htimely'
  have hone : t₀.options.userQuota ≤ (t.held "alice" 599999).length := by decide +kernel
  have hnone : ¬ t₀.options.userQuota ≤ (t.held "alice" 600000).length := by decide +kernel
  refine ⟨hpos, htimely, htimely', by decide +kernel, hheld "alice", ?_, fun hagain => ?_⟩
  · exact (hrefused again 0 "alice").2 ⟨rfl, hone⟩
  · exact hnone ((hrefused' again 0 "alice").1 hagain).2

end Run

end NatRelay.Table
