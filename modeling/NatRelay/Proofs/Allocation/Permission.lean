import NatRelay.Proofs.Allocation.History

/-! The stored ends of permissions sum up the history of their allocation. Main statement:
`permitSend_eq_some_iff_permitted`, that data leaves a relayed address only towards a peer that was
permitted less than a lifetime ago. -/
namespace NatRelay

namespace Allocation

theorem isPermitted_permit (a : Allocation) (ip ip' : Ip) (until_ now : Time) :
    (a.permit ip until_).isPermitted ip' now ↔
      a.isPermitted ip' now ∨ (ip' = ip ∧ now < until_) := by
  by_cases h : ip' = ip
  · subst h
    simp only [isPermitted, permit, Assoc.lookup_put_self]
    cases a.permissions.lookup ip' with
    | none => simp
    | some ends =>
      simp only [Option.any_some, decide_eq_true_iff, true_and, Time]
      omega
  · simp [isPermitted, permit, Assoc.lookup_put_ne _ _ h, h]

theorem isPermitted_prune {a : Allocation} (nodup : a.permissions.keys.Nodup) (ip : Ip)
    {now later : Time} (h : now ≤ later) :
    (a.prune now).isPermitted ip later = a.isPermitted ip later := by
  simp only [isPermitted, prune, Assoc.lookup_filter nodup]
  cases a.permissions.lookup ip with
  | none => rfl
  | some ends =>
    by_cases hends : now < ends
    · simp [hends]
    · have hlater : ¬ later < ends := fun hlt => hends (Nat.lt_of_le_of_lt h hlt)
      simp [hends, hlater]

end Allocation

namespace Table

/-- What a history says of one five-tuple is what its entry says, from `last` on. -/
structure Tracks (lifetime : Duration) (xs : List Exchange) (last : Time) (ft : FiveTuple)
    (entry : Option Allocation) : Prop where
  /-- An allocation that is gone without a word had expired. -/
  tenancy_none : entry = none → ∀ relay ends, tenancy ft xs = some (relay, ends) → ends ≤ last
  tenancy_some : ∀ a, entry = some a → tenancy ft xs = some (a.relay, a.expiresAt)
  permissions_nodup : ∀ a, entry = some a → a.permissions.keys.Nodup
  permitted : ∀ a, entry = some a → ∀ ip now, last ≤ now →
    (a.isPermitted ip now ↔ Permitted lifetime ft ip now xs)

namespace Tracks
variable {lifetime : Duration} {xs : List Exchange} {last : Time} {ft : FiveTuple}
  {entry : Option Allocation} {x : Exchange}

theorem mono (h : Tracks lifetime xs last ft entry) {later : Time} (hle : last ≤ later) :
    Tracks lifetime xs later ft entry where
  tenancy_none hnone relay ends htenancy :=
    Nat.le_trans (h.tenancy_none hnone relay ends htenancy) hle
  tenancy_some := h.tenancy_some
  permissions_nodup := h.permissions_nodup
  permitted a ha ip now hnow := h.permitted a ha ip now (Nat.le_trans hle hnow)

/-- An exchange that is not about the five-tuple. -/
theorem frame (h : Tracks lifetime xs last ft entry) (hopens : x.opens ≠ some ft)
    (hpermits : ∀ ip, x.permits ≠ some (ft, ip))
    (htenancy : ∀ before, x.tenancy ft before = before) :
    Tracks lifetime (xs ++ [x]) last ft entry where
  tenancy_none := by simpa [htenancy] using h.tenancy_none
  tenancy_some := by simpa [htenancy] using h.tenancy_some
  permissions_nodup := h.permissions_nodup
  permitted a ha ip now hnow := by
    rw [permitted_concat, h.permitted a ha ip now hnow]
    simp [hopens, hpermits ip]

/-- The five-tuple gets an allocation. -/
theorem opened {a : Allocation} (hopens : x.opens = some ft)
    (htenancy : ∀ before, x.tenancy ft before = some (a.relay, a.expiresAt))
    (hpermits : x.permits = none) (hnew : a.permissions = []) :
    Tracks lifetime (xs ++ [x]) last ft (some a) where
  tenancy_none := by simp
  tenancy_some := by
    rintro _ ⟨⟩
    rw [tenancy_concat, htenancy]
  permissions_nodup := by
    rintro _ ⟨⟩
    simp [hnew, Assoc.keys]
  permitted := by
    rintro _ ⟨⟩ ip now -
    rw [permitted_concat]
    simp [hopens, hpermits, Allocation.isPermitted, hnew]

/-- The five-tuple's allocation is taken away. -/
theorem closed (htenancy : ∀ before, x.tenancy ft before = none) :
    Tracks lifetime (xs ++ [x]) last ft none where
  tenancy_none := by simp [htenancy]
  tenancy_some := by simp
  permissions_nodup := by simp
  permitted := by simp

/-- The end of the five-tuple's allocation moves. -/
theorem renewed {a b : Allocation} (h : Tracks lifetime xs last ft (some a))
    (hrelay : b.relay = a.relay) (hpermissions : b.permissions = a.permissions)
    (hopens : x.opens = none) (hpermits : x.permits = none)
    (htenancy : ∀ relay ends, x.tenancy ft (some (relay, ends)) = some (relay, b.expiresAt)) :
    Tracks lifetime (xs ++ [x]) last ft (some b) where
  tenancy_none := by simp
  tenancy_some := by
    rintro _ ⟨⟩
    rw [tenancy_concat, h.tenancy_some a rfl, htenancy, hrelay]
  permissions_nodup := by
    rintro _ ⟨⟩
    rw [hpermissions]
    exact h.permissions_nodup a rfl
  permitted := by
    rintro _ ⟨⟩ ip now hnow
    rw [permitted_concat, ← h.permitted a rfl ip now hnow]
    simp [hopens, hpermits, Allocation.isPermitted, hpermissions]

/-- A peer is permitted under the five-tuple's allocation. -/
theorem granted {a b : Allocation} {ip : Ip} (h : Tracks lifetime xs last ft (some a))
    (hrelay : b.relay = a.relay) (hends : b.expiresAt = a.expiresAt)
    (hpermissions : b.permissions = (a.permit ip (x.time + lifetime)).permissions)
    (hopens : x.opens = none) (hpermits : x.permits = some (ft, ip))
    (htenancy : ∀ before, x.tenancy ft before = before) :
    Tracks lifetime (xs ++ [x]) last ft (some b) where
  tenancy_none := by simp
  tenancy_some := by
    rintro _ ⟨⟩
    rw [tenancy_concat, htenancy, h.tenancy_some a rfl, hrelay, hends]
  permissions_nodup := by
    rintro _ ⟨⟩
    rw [hpermissions]
    exact Assoc.nodup_keys_put (h.permissions_nodup a rfl) _ _
  permitted := by
    rintro _ ⟨⟩ ip' now hnow
    have hpermit := a.isPermitted_permit ip ip' (x.time + lifetime) now
    rw [Allocation.isPermitted, ← hpermissions] at hpermit
    rw [Allocation.isPermitted, hpermit, permitted_concat, ← h.permitted a rfl ip' now hnow,
      hopens, hpermits]
    simp only [Option.some.injEq, Prod.mk.injEq, true_and, ne_eq, reduceCtorEq, not_false_eq_true,
      @eq_comm _ ip ip']
    exact or_comm

/-- A sweep takes away an allocation that expired, and nothing that still counts of another. -/
theorem swept (h : Tracks lifetime xs x.time ft entry) (hx : x.isSweep) :
    Tracks lifetime (xs ++ [x]) x.time ft
      ((entry.filter (!·.isExpired x.time)).map (·.prune x.time)) := by
  obtain ⟨hopens, hpermits, htenancy⟩ := Exchange.of_isSweep hx
  have h := h.frame (x := x) (by simp [hopens]) (by simp [hpermits]) (htenancy ft)
  cases entry with
  | none => exact h
  | some a =>
    by_cases hexpired : a.isExpired x.time
    · have hgone : (some a).filter (!·.isExpired x.time) = none := by simp [hexpired]
      rw [hgone]
      refine ⟨?_, by simp, by simp, by simp⟩
      intro _ relay ends htenancy
      rw [h.tenancy_some a rfl] at htenancy
      obtain ⟨-, rfl⟩ := Prod.mk.inj (Option.some.inj htenancy)
      simpa [Allocation.isExpired] using hexpired
    · have hkept : (some a).filter (!·.isExpired x.time) = some a := by simp [hexpired]
      rw [hkept]
      refine ⟨by simp, ?_, ?_, ?_⟩
      · rintro _ ⟨⟩
        exact h.tenancy_some a rfl
      · rintro _ ⟨⟩
        exact Assoc.nodup_keys_filter (h.permissions_nodup a rfl) _
      · rintro _ ⟨⟩ ip now hnow
        rw [Allocation.isPermitted_prune (h.permissions_nodup a rfl) ip hnow]
        exact h.permitted a rfl ip now hnow

end Tracks

/-- Every entry of a table is what the history says. -/
def Recorded (lifetime : Duration) (xs : List Exchange) (last : Time) (t : Table) : Prop :=
  ∀ ft, Tracks lifetime xs last ft (t.entries.lookup ft)

/-- What is done to one five-tuple. -/
theorem Recorded.only {t t' : Table} {lifetime : Duration} {xs : List Exchange} {last : Time}
    {x : Exchange} (h : Recorded lifetime xs last t) {ft : FiveTuple}
    (hop : x.op.fiveTuple? = some ft)
    (hothers : ∀ ft', ft' ≠ ft → t'.entries.lookup ft' = t.entries.lookup ft')
    (hft : Tracks lifetime (xs ++ [x]) last ft (t'.entries.lookup ft)) :
    Recorded lifetime (xs ++ [x]) last t' := by
  intro ft'
  by_cases hne : ft' = ft
  · rw [hne]
    exact hft
  · obtain ⟨hopens, hpermits, htenancy⟩ := Exchange.of_other hop hne
    rw [hothers ft' hne]
    exact (h ft').frame hopens hpermits htenancy

/-- Permitting a peer under an allocation that is in the table. -/
theorem Recorded.permit {t : Table} {lifetime : Duration} {xs : List Exchange} {last : Time}
    {x : Exchange} (h : Recorded lifetime xs last t) {ft : FiveTuple} {a : Allocation} {ip : Ip}
    (hop : x.op.fiveTuple? = some ft) (ha : t.entries.lookup ft = some a)
    (f : Allocation → Allocation)
    (hf : f a = { f a with
      relay := a.relay, expiresAt := a.expiresAt
      permissions := (a.permit ip (x.time + lifetime)).permissions })
    (hopens : x.opens = none) (hpermits : x.permits = some (ft, ip))
    (htenancy : ∀ before, x.tenancy ft before = before) :
    Recorded lifetime (xs ++ [x]) last (t.update ft f) := by
  refine h.only hop (fun ft' hne => t.lookup_update_ne f hne) ?_
  have htracks := h ft
  rw [ha] at htracks
  rw [lookup_update, if_pos rfl, ha]
  exact htracks.granted (by rw [hf]) (by rw [hf]) (by rw [hf]) hopens hpermits htenancy

/-- One step writes its own line of the history. -/
theorem Recorded.step {t t' : Table} {lifetime : Duration} {xs : List Exchange} {now : Time}
    {op : Op} {reply : Reply} (h : Recorded lifetime xs now t) (c : t.Consistent)
    (hlifetime : t.options.permissionLifetime = lifetime) (hstep : t.Step now op reply t') :
    Recorded lifetime (xs ++ [⟨op, now, reply⟩]) now t' := by
  subst hlifetime
  cases hstep with
  | idle hidle =>
    obtain ⟨hopens, hpermits, htenancy⟩ := @Exchange.of_idle _ now _ hidle
    exact fun ft => (h ft).frame (by simp [hopens]) (by simp [hpermits]) (htenancy ft)
  | @create r _ a _ hcreated =>
    have hnew : a.permissions = [] := by rw [hcreated.built]; rfl
    refine h.only rfl (fun ft hne => ?_) ?_
    · rw [hcreated.lookup, if_neg hne]
    · rw [hcreated.lookup, if_pos rfl]
      exact .opened rfl (fun _ => if_pos rfl) rfl hnew
  | @refresh ft lifetime a ha =>
    have htracks := h ft
    rw [(find?_eq_some.1 ha).1] at htracks
    refine h.only rfl (fun ft' hne => t.lookup_update_ne _ hne) ?_
    rw [lookup_update, if_pos rfl, (find?_eq_some.1 ha).1]
    exact htracks.renewed rfl rfl rfl rfl fun _ _ => if_pos rfl
  | @delete ft a ha =>
    refine h.only rfl (fun ft' hne => ?_) ?_
    · rw [lookup_keep_ne, if_neg hne]
    · rw [lookup_keep_ne, if_pos rfl]
      exact .closed fun _ => if_pos rfl
  | sweep =>
    intro ft
    rw [lookup_mapValues, c.lookup_keep]
    exact (h ft).swept rfl
  | createPermission ha => exact h.permit rfl (find?_eq_some.1 ha).1 _ rfl rfl rfl fun _ => rfl
  | bindChannel ha => exact h.permit rfl (find?_eq_some.1 ha).1 _ rfl rfl rfl fun _ => rfl
  | permitSend ha => exact h.permit rfl (find?_eq_some.1 ha).1 _ rfl rfl rfl fun _ => rfl
  | channelPeer ha => exact h.permit rfl (find?_eq_some.1 ha).1 _ rfl rfl rfl fun _ => rfl
  | @removeUser username =>
    intro ft
    have htracks := h ft
    have htenancy (before : Option (Endpoint × Time)) :
        Exchange.tenancy ft before ⟨.removeUser username, now, .removed
          (Assoc.values (t.entries.filter (·.2.username = username)))⟩ =
        if (t.entries.lookup ft).any (·.username = username) then none else before := by
      rw [← c.any_filter (·.username = username) ft]
      rfl
    rw [c.lookup_keep]
    cases hlookup : t.entries.lookup ft with
    | none =>
      rw [hlookup] at htracks htenancy
      exact htracks.frame (by simp [Exchange.opens]) (by simp [Exchange.permits]) htenancy
    | some a =>
      rw [hlookup] at htracks htenancy
      by_cases hname : a.username = username
      · simp only [hname, ne_eq, not_true_eq_false, decide_false, Option.filter_some,
          Bool.false_eq_true, if_false]
        exact .closed fun before => (htenancy before).trans (if_pos (by simpa using hname))
      · simp only [hname, ne_eq, not_false_eq_true, decide_true, Option.filter_some, if_true]
        exact htracks.frame (by simp [Exchange.opens]) (by simp [Exchange.permits])
          fun before => (htenancy before).trans (if_neg (by simpa using hname))

theorem recorded_empty (options : AllocationOptions) (pool : Pool) :
    Recorded options.permissionLifetime [] 0 { options, pool } := by
  intro ft
  refine ⟨?_, by simp, by simp, by simp⟩
  intro _ relay ends h
  simp [tenancy] at h

section Run
variable {options : AllocationOptions} {addresses : List Ip} {first last : UInt16}
  {ops : List (Op × Time)} {now : Time}

theorem run_recorded (h : Timely ops now) :
    Recorded options.permissionLifetime
      (history { options, pool := .make addresses first last } ops) now
      (run { options, pool := .make addresses first last } ops).2 := by
  refine history_induct (consistent_empty options addresses first last)
    (recorded_empty options (.make addresses first last)) ?_ ?_ h
  · exact fun hle hrecorded ft => (hrecorded ft).mono hle
  · intro xs t t' now op reply c hterms hstep hrecorded
    exact hrecorded.step c (congrArg AllocationOptions.permissionLifetime hterms.options) hstep

/-- The live allocation of a five-tuple, as the history tells it. -/
theorem Recorded.find? {t : Table} {lifetime : Duration} {xs : List Exchange}
    (h : Recorded lifetime xs now t) (ft : FiveTuple) :
    (t.find? ft now).map (·.relay) =
      ((tenancy ft xs).filter fun (_, ends) => now < ends).map (·.1) := by
  cases hlookup : t.entries.lookup ft with
  | none =>
    have htracks := h ft
    rw [hlookup] at htracks
    have hgone : t.find? ft now = none := find?_eq_none.2 (by simp [hlookup])
    rw [hgone]
    cases htenancy : tenancy ft xs with
    | none => rfl
    | some held =>
      have hended := htracks.tenancy_none rfl held.1 held.2 htenancy
      simp [Option.filter_some, Nat.not_lt.2 hended]
  | some a =>
    have htracks := h ft
    rw [hlookup] at htracks
    rw [htracks.tenancy_some a rfl, Table.find?, hlookup]
    by_cases hlive : now < a.expiresAt
    · simp [Option.filter_some, Allocation.isExpired, hlive, Nat.not_le.2 hlive]
    · simp [Option.filter_some, Allocation.isExpired, hlive, Nat.le_of_not_lt hlive]

theorem Recorded.permitSend {t : Table} {lifetime : Duration} {xs : List Exchange}
    (h : Recorded lifetime xs now t) (ft : FiveTuple) (peer relay : Endpoint) :
    (t.permitSend ft peer now).map (·.1) = some relay ↔
      (∃ a, t.find? ft now = some a ∧ a.relay = relay) ∧
        Permitted lifetime ft peer.ip now xs := by
  constructor
  · intro hsend
    obtain ⟨⟨_, t'⟩, hsent, rfl⟩ := Option.map_eq_some_iff.1 hsend
    obtain ⟨a, ha, hp, hrelay, -⟩ := permitSend_eq_some.1 hsent
    refine ⟨⟨a, ha, hrelay⟩, ?_⟩
    exact ((h ft).permitted a (find?_eq_some.1 ha).1 peer.ip now (Nat.le_refl now)).1 hp
  · rintro ⟨⟨a, ha, hrelay⟩, hpermitted⟩
    have hp := ((h ft).permitted a (find?_eq_some.1 ha).1 peer.ip now (Nat.le_refl now)).2
      hpermitted
    exact Option.map_eq_some_iff.2 ⟨_, permitSend_eq_some.2 ⟨a, ha, hp, hrelay, rfl⟩, rfl⟩

/-- Data leaves for a peer exactly from the address of the live allocation, and if the peer's IP was
permitted under that very allocation less than a lifetime ago. Runs that differ in their sweeps
alone let the same data through, whatever the port. -/
theorem permitSend_eq_some_iff_permitted (h : Timely ops now) (ft : FiveTuple) (peer : Endpoint) :
    let t₀ : Table := { options, pool := .make addresses first last }
    let sender (ops : List (Op × Time)) (peer : Endpoint) : Option Endpoint :=
      ((t₀.run ops).2.permitSend ft peer now).map (·.1)
    (∀ relay, sender ops peer = some relay ↔
      (∃ a, (t₀.run ops).2.find? ft now = some a ∧ a.relay = relay) ∧
        Permitted options.permissionLifetime ft peer.ip now (t₀.history ops)) ∧
      ∀ ops' peer', Timely ops' now → traffic (t₀.history ops') = traffic (t₀.history ops) →
        peer'.ip = peer.ip → sender ops' peer' = sender ops peer := by
  intro t₀ sender
  refine ⟨(run_recorded h).permitSend ft peer, ?_⟩
  intro ops' peer' h' htraffic hip
  apply Option.ext
  intro relay
  have hlive : ((t₀.run ops').2.find? ft now).map (·.relay) =
      ((t₀.run ops).2.find? ft now).map (·.relay) := by
    rw [(run_recorded h').find? ft, (run_recorded h).find? ft, ← tenancy_traffic, htraffic,
      tenancy_traffic]
  rw [(run_recorded h').permitSend ft peer', (run_recorded h).permitSend ft peer, hip,
    ← permitted_traffic, htraffic, permitted_traffic, ← Option.map_eq_some_iff, hlive,
    Option.map_eq_some_iff]

/-- A peer at another port than the one named in the request, and behind a sweep. -/
theorem permitSend_after_createPermission :
    let t₀ : Table := { options := {}, pool := .make [.v4 0x0a000001] 49152 49153 }
    let ft : FiveTuple := .udp (.v4 0xc0000201 5000) (.v4 0xc0000202 3478)
    let alice : Request := { fiveTuple := ft, username := "alice", tid := 7, family := .v4 }
    let ops : List (Op × Time) :=
      [(.create alice 0, 0), (.createPermission ft (.v4 0xc0000203), 1000), (.sweep, 2000)]
    Timely ops 300999 ∧ ((t₀.run ops).2.permitSend ft (.v4 0xc0000203 9) 300999).map (·.1) =
      some (.v4 0x0a000001 49152) := by
  intro t₀ ft alice ops
  have htimely : Timely ops 300999 := by decide
  refine ⟨htimely, ?_⟩
  have hiff := (@permitSend_eq_some_iff_permitted {} [.v4 0x0a000001] 49152 49153 ops 300999
    htimely ft (.v4 0xc0000203 9)).1 (.v4 0x0a000001 49152)
  let a := t₀.build alice (.v4 0x0a000001 49152) 0
  refine hiff.2 ⟨⟨a.permit (.v4 0xc0000203) 301000, by decide, rfl⟩, ?_⟩
  exact ⟨[⟨.create alice 0, 0, .allocation a⟩],
    ⟨.createPermission ft (.v4 0xc0000203), 1000, .fresh true⟩, [⟨.sweep, 2000, .removed []⟩],
    rfl, by decide, rfl, by decide⟩

end Run

end Table
end NatRelay
