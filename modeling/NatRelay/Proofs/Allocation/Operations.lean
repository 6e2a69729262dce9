import NatRelay.Proofs.Allocation.Consistency

/-! What each operation does to a table whose books agree: it refuses, it changes one allocation in
place, it drops some allocations, or it drops an expired one and enters another. -/
namespace NatRelay

namespace Allocation

/-- The end of the allocation moved. -/
def renew (a : Allocation) (lifetime : Duration) (now : Time) : Allocation :=
  { a with lifetime, expiresAt := now + lifetime }

/-- A channel number given to a peer, in place of any other number of that peer. -/
def bind (a : Allocation) (number : UInt16) (peer : Endpoint) (until_ : Time) : Allocation :=
  { a with channels :=
      Assoc.put (a.channels.filter fun e => e.2.peer ≠ peer) number ⟨peer, until_⟩ }

/-- The end of a channel moved. -/
def extend (a : Allocation) (number : UInt16) (until_ : Time) : Allocation :=
  { a with channels := a.channels.mapAt number fun c => { c with expiresAt := until_ } }

/-- The peer that gets a number had given up any other. -/
theorem nodup_peers_bind {a : Allocation} (h : (a.channels.map (·.2.peer)).Nodup) (number : UInt16)
    (peer : Endpoint) (until_ : Time) :
    ((a.bind number peer until_).channels.map (·.2.peer)).Nodup := by
  refine List.nodup_cons.2 ⟨?_, ?_⟩
  · intro hmem
    obtain ⟨e, he, hpeer⟩ := List.mem_map.1 hmem
    have hne := (List.mem_filter.1 (List.mem_of_mem_filter he)).2
    exact absurd hpeer (by simpa using hne)
  · exact h.sublist ((List.filter_sublist.trans List.filter_sublist).map _)

theorem peers_extend (a : Allocation) (number : UInt16) (until_ : Time) :
    (a.extend number until_).channels.map (·.2.peer) = a.channels.map (·.2.peer) := by
  rw [extend, Assoc.map_mapAt]
  exact fun _ => rfl

end Allocation

namespace Table

theorem find?_eq_some {t : Table} {ft : FiveTuple} {now : Time} {a : Allocation} :
    t.find? ft now = some a ↔ t.entries.lookup ft = some a ∧ now < a.expiresAt := by
  simp [find?, Option.filter_eq_some_iff, Allocation.isExpired]

theorem find?_eq_none {t : Table} {ft : FiveTuple} {now : Time} :
    t.find? ft now = none ↔ ∀ a, t.entries.lookup ft = some a → a.expiresAt ≤ now := by
  simp [find?, Option.filter_eq_none_iff, Allocation.isExpired]

theorem refresh_eq_ok {t t' : Table} {ft : FiveTuple} {lifetime : Duration} {now : Time} :
    t.refresh ft lifetime now = .ok t' ↔
      ∃ a, t.find? ft now = some a ∧ t' = t.update ft (·.renew lifetime now) := by
  rw [refresh]
  cases t.find? ft now with
  | none => simp
  | some a => simp [update, Allocation.renew, eq_comm]

theorem createPermission_eq_ok {t t' : Table} {ft : FiveTuple} {peer : Ip} {now : Time}
    {isNew : Bool} : t.createPermission ft peer now = .ok (isNew, t') ↔
      ∃ a, t.find? ft now = some a ∧ peer.family = a.family ∧ isNew = !a.isPermitted peer now ∧
        t' = t.update ft (·.permit peer (now + t.options.permissionLifetime)) := by
  rw [createPermission]
  cases t.find? ft now with
  | none => simp
  | some a =>
    by_cases hf : peer.family = a.family
    · simp [hf, eq_comm]
    · simp [hf]

theorem bindChannel_eq_ok {t t' : Table} {ft : FiveTuple} {number : UInt16} {peer : Endpoint}
    {now : Time} {isNew : Bool} : t.bindChannel ft number peer now = .ok (isNew, t') ↔
      ∃ a, t.find? ft now = some a ∧ peer.family = a.family ∧
        clashes a number peer now = false ∧
        isNew = !((a.channels.lookup number).any fun c => c.peer = peer && now < c.expiresAt) ∧
        t' = t.update ft fun a => (a.bind number peer (now + t.options.channelLifetime)).permit
          peer.ip (now + t.options.permissionLifetime) := by
  rw [bindChannel]
  cases t.find? ft now with
  | none => simp
  | some a =>
    simp only [Option.some.injEq, exists_eq_left']
    by_cases hf : peer.family = a.family
    · cases hc : clashes a number peer now with
      | true => simp [hf]
      | false =>
        simp only [hf, ne_eq, not_true_eq_false, if_false, Bool.false_eq_true, Except.ok.injEq,
          Prod.mk.injEq, true_and]
        rw [@eq_comm _ _ isNew, @eq_comm _ _ t']
        refine and_congr (Eq.congr rfl ?_) Iff.rfl
        cases a.channels.lookup number with
        | none => rfl
        | some c =>
          by_cases hlive : now < c.expiresAt
          · simp [hlive, Nat.not_le.2 hlive]
          · simp [hlive, Nat.le_of_not_lt hlive]
    · simp [hf]

theorem bindChannel_of_clashes {t : Table} {ft : FiveTuple} {number : UInt16} {peer : Endpoint}
    {now : Time} {a : Allocation} (h : t.find? ft now = some a) (hfamily : peer.family = a.family)
    (hclash : clashes a number peer now) :
    t.bindChannel ft number peer now = .error (.channelConflict number) := by
  simp only [bindChannel, h, hfamily, ne_eq, not_true_eq_false, if_false, hclash, if_true]

theorem permitSend_eq_some {t t' : Table} {ft : FiveTuple} {peer relay : Endpoint} {now : Time} :
    t.permitSend ft peer now = some (relay, t') ↔
      ∃ a, t.find? ft now = some a ∧ a.isPermitted peer.ip now ∧ a.relay = relay ∧
        t' = t.update ft (·.permit peer.ip (now + t.options.permissionLifetime)) := by
  rw [permitSend]
  cases t.find? ft now with
  | none => simp
  | some a =>
    by_cases hp : a.isPermitted peer.ip now
    · simp only [hp, if_true, Option.some.injEq, Prod.mk.injEq, exists_eq_left', true_and]
      rw [@eq_comm _ t']
    · simp [hp]

theorem channelPeer_eq_some {t t' : Table} {ft : FiveTuple} {number : UInt16}
    {relay peer : Endpoint} {now : Time} :
    t.channelPeer ft number now = some ((relay, peer), t') ↔
      ∃ a c, t.find? ft now = some a ∧ a.channels.lookup number = some c ∧ now < c.expiresAt ∧
        a.relay = relay ∧ c.peer = peer ∧
        t' = t.update ft fun a => (a.extend number (now + t.options.channelLifetime)).permit
          peer.ip (now + t.options.permissionLifetime) := by
  rw [channelPeer]
  cases t.find? ft now with
  | none => simp
  | some a =>
    simp only [Option.some.injEq, exists_and_left, exists_eq_left']
    cases a.channels.lookup number with
    | none => simp
    | some c =>
      simp only [Option.some.injEq, exists_eq_left']
      by_cases hlive : now < c.expiresAt
      · simp only [gt_iff_lt, hlive, if_true, Option.some.injEq, Prod.mk.injEq, true_and]
        constructor
        · rintro ⟨⟨rfl, rfl⟩, rfl⟩
          exact ⟨rfl, rfl, rfl⟩
        · rintro ⟨rfl, rfl, rfl⟩
          exact ⟨⟨rfl, rfl⟩, rfl⟩
      · simp [hlive]

/-- The quota is looked at before all else. -/
theorem create_eq_quota {t : Table} {r : Request} {offset : Nat} {now : Time} {username : String} :
    t.create r offset now = .error (.quota username) ↔ r.username = username ∧
      0 < t.options.userQuota ∧ t.options.userQuota ≤ t.userCount r.username now := by
  rw [create]
  by_cases hquota : 0 < t.options.userQuota ∧ t.options.userQuota ≤ t.userCount r.username now
  · simp [hquota]
  · rw [if_neg hquota]
    simp only [hquota, and_false, iff_false]
    cases t.entries.lookup r.fiveTuple <;> cases t.pool.lease r.family offset <;>
      dsimp only <;> split <;> simp

/-- An allocation comes in where there is none and a slot is free, or in place of an expired one. -/
theorem create_eq_ok {t t' : Table} {r : Request} {offset : Nat} {now : Time} {a : Allocation}
    (h : t.create r offset now = .ok (a, t')) :
    ∃ relay pool, t.pool.lease r.family offset = some (relay, pool) ∧ a = t.build r relay now ∧
      ((t.entries.lookup r.fiveTuple = none ∧
          (0 < t.options.maxAllocations → t.slots < t.options.maxAllocations) ∧
          t' = { t with
            pool
            entries := t.entries.put r.fiveTuple a
            relays := t.relays.put relay r.fiveTuple
            slots := t.slots + 1 }) ∨
        ∃ b, t.entries.lookup r.fiveTuple = some b ∧ b.expiresAt ≤ now ∧
          t' = { t with
            pool := pool.release b.relay
            entries := t.entries.put r.fiveTuple a
            relays := (t.relays.remove b.relay).put relay r.fiveTuple }) := by
  rw [create] at h
  split at h
  · cases h
  split at h
  · rename_i b hlookup
    split at h
    · cases h
    rename_i hexpired
    split at h
    · cases h
    rename_i relay pool hlease
    obtain ⟨rfl, rfl⟩ := Prod.mk.inj (Except.ok.inj h)
    refine ⟨relay, pool, hlease, rfl, .inr ⟨b, hlookup, ?_, rfl⟩⟩
    simpa [Allocation.isExpired] using hexpired
  · rename_i hlookup
    split at h
    · cases h
    rename_i hroom
    split at h
    · cases h
    rename_i relay pool hlease
    obtain ⟨rfl, rfl⟩ := Prod.mk.inj (Except.ok.inj h)
    refine ⟨relay, pool, hlease, rfl, .inl ⟨hlookup, ?_, rfl⟩⟩
    exact fun hmax => Nat.lt_of_not_le fun hle => hroom ⟨hmax, hle⟩

/-- The first client of a table gets an allocation of every family that the table has. -/
theorem create_of_unleased {t : Table} {r : Request} (hentries : t.entries = [])
    (hslots : t.slots = 0) (hleased : t.pool.leased = []) (hfamily : t.hasFamily r.family)
    (hports : t.pool.firstPort ≤ t.pool.lastPort) (offset : Nat) (now : Time) :
    ∃ a t', t.create r offset now = .ok (a, t') := by
  obtain ⟨relay, pool, hlease⟩ := Pool.lease_of_unleased hleased hfamily hports offset
  have hquota : ¬ (0 < t.options.userQuota ∧ t.options.userQuota ≤ t.userCount r.username now) := by
    rw [userCount, hentries]
    exact fun h => Nat.lt_irrefl 0 (Nat.lt_of_lt_of_le h.1 h.2)
  have hroom : ¬ (0 < t.options.maxAllocations ∧ t.options.maxAllocations ≤ t.slots) := by
    rw [hslots]
    exact fun h => Nat.lt_irrefl 0 (Nat.lt_of_lt_of_le h.1 h.2)
  have hnone : t.entries.lookup r.fiveTuple = none := by
    rw [hentries]
    rfl
  rw [create, if_neg hquota, hnone]
  dsimp only
  rw [if_neg hroom, hlease]
  exact ⟨_, _, rfl⟩

theorem entries_create {t t' : Table} {r : Request} {offset : Nat} {now : Time} {a : Allocation}
    (h : t.create r offset now = .ok (a, t')) : t'.entries = t.entries.put r.fiveTuple a := by
  obtain ⟨relay, pool, -, rfl, ⟨-, -, rfl⟩ | ⟨b, -, -, rfl⟩⟩ := create_eq_ok h <;> rfl

/-! ### The entry of a five-tuple in a changed table -/

theorem lookup_update (t : Table) (ft ft' : FiveTuple) (f : Allocation → Allocation) :
    (t.update ft f).entries.lookup ft' =
      if ft' = ft then (t.entries.lookup ft').map f else t.entries.lookup ft' :=
  Assoc.lookup_mapAt _ _ _ _

theorem lookup_update_ne (t : Table) (f : Allocation → Allocation) {ft ft' : FiveTuple}
    (h : ft' ≠ ft) : (t.update ft f).entries.lookup ft' = t.entries.lookup ft' := by
  rw [lookup_update, if_neg h]

theorem Consistent.lookup_keep {t : Table} (c : t.Consistent) (p : FiveTuple × Allocation → Bool)
    (ft : FiveTuple) :
    (t.keep p).entries.lookup ft = (t.entries.lookup ft).filter fun a => p (ft, a) :=
  Assoc.lookup_filter c.keys_nodup p

theorem lookup_add (t : Table) (a : Allocation) (ft : FiveTuple) :
    (t.add a).entries.lookup ft = if ft = a.fiveTuple then some a else t.entries.lookup ft := by
  rw [add, List.lookup_cons]
  by_cases h : ft = a.fiveTuple
  · simp [h]
  · rw [beq_false_of_ne h, if_neg h]

theorem lookup_mapValues (t : Table) (f : Allocation → Allocation) (ft : FiveTuple) :
    (t.mapValues f).entries.lookup ft = (t.entries.lookup ft).map f :=
  Assoc.lookup_mapValues _ _ _

/-- A live allocation stays live where its end does not move. -/
theorem find?_update {t : Table} {ft : FiveTuple} {now : Time} {a : Allocation}
    (h : t.find? ft now = some a) {f : Allocation → Allocation}
    (hends : (f a).expiresAt = a.expiresAt) : (t.update ft f).find? ft now = some (f a) := by
  obtain ⟨hlookup, hlive⟩ := find?_eq_some.1 h
  refine find?_eq_some.2 ⟨?_, hends ▸ hlive⟩
  rw [lookup_update, if_pos rfl, hlookup, Option.map_some]

theorem lookup_keep_ne (t : Table) (ft ft' : FiveTuple) :
    (t.keep (·.1 ≠ ft)).entries.lookup ft' =
      if ft' = ft then none else t.entries.lookup ft' := by
  change (t.entries.remove ft).lookup ft' = _
  by_cases h : ft' = ft
  · rw [h, if_pos rfl, Assoc.lookup_remove_self]
  · rw [if_neg h, Assoc.lookup_remove_ne _ h]

/-- The allocation of a five-tuple is among those of a kind just if it is of that kind. -/
theorem Consistent.any_filter {t : Table} (c : t.Consistent) (p : Allocation → Bool)
    (ft : FiveTuple) : (Assoc.values (t.entries.filter fun e => p e.2)).any (·.fiveTuple = ft) =
      (t.entries.lookup ft).any p := by
  rw [Bool.eq_iff_iff, List.any_eq_true, Option.any_eq_true]
  constructor
  · rintro ⟨a, ha, hft⟩
    obtain ⟨e, he, rfl⟩ := List.mem_map.1 ha
    obtain ⟨he, hp⟩ := List.mem_filter.1 he
    obtain rfl : e.1 = ft := (c.key_eq e he).symm.trans (of_decide_eq_true hft)
    exact ⟨e.2, Assoc.lookup_of_mem c.keys_nodup he, hp⟩
  · rintro ⟨a, ha, hp⟩
    refine ⟨a, List.mem_map.2 ⟨(ft, a), List.mem_filter.2 ⟨Assoc.mem_of_lookup ha, hp⟩, rfl⟩, ?_⟩
    exact decide_eq_true (c.fiveTuple_eq ha)

/-! ### Dropping and entering allocations -/

namespace Consistent
variable {t : Table} (c : t.Consistent)
include c

/-- Only the address of the dropped allocation is not spared. -/
theorem spares_key {ft : FiveTuple} {a : Allocation} (h : t.entries.lookup ft = some a)
    (relay : Endpoint) : t.spares (·.1 ≠ ft) relay = decide (relay ≠ a.relay) := by
  rw [Bool.eq_iff_iff, spares, List.all_eq_true, decide_eq_true_iff]
  constructor
  · rintro hall rfl
    simpa using hall _ (Assoc.mem_of_lookup h)
  · intro hne e he
    by_cases hk : e.1 = ft
    · have heq : e = (ft, a) := by
        obtain ⟨k, b⟩ := e
        obtain rfl : k = ft := hk
        rw [Option.some.inj (h.symm.trans (Assoc.lookup_of_mem c.keys_nodup he))]
      simpa [heq] using hne.symm
    · simp [hk]

theorem delete_eq (ft : FiveTuple) :
    t.delete ft = (t.entries.lookup ft).map fun a => (a, t.keep (·.1 ≠ ft)) := by
  rw [delete]
  cases h : t.entries.lookup ft with
  | none => rfl
  | some a =>
    have hspares : t.spares (·.1 ≠ ft) = fun relay => decide (relay ≠ a.relay) :=
      funext (c.spares_key h)
    have hlength : (t.entries.remove ft).length + 1 = t.entries.length :=
      Assoc.length_remove c.keys_nodup h
    have hslots : t.slots - 1 = (t.entries.remove ft).length := by
      rw [c.slots_eq, ← hlength, Nat.add_sub_cancel]
    rw [Option.map_some, Option.map_some, Table.keep, hspares, hslots]
    rfl

/-- The state behind a delete, whether or not there was something to delete. -/
theorem keep_eq_of_lookup_eq_none {ft : FiveTuple} (h : t.entries.lookup ft = none) :
    t.keep (·.1 ≠ ft) = t :=
  c.keep_all fun e he => by simpa using Assoc.lookup_eq_none.1 h e he

/-- Marking the address and the owner of what expired marks just the index entries of it. -/
theorem any_expired_eq (now : Time) {e : FiveTuple × Allocation} (he : e ∈ t.entries) :
    ((Assoc.values (t.entries.filter (·.2.isExpired now))).any
      fun a => a.relay = e.2.relay && a.fiveTuple = e.1) = e.2.isExpired now := by
  rw [Bool.eq_iff_iff, List.any_eq_true]
  constructor
  · rintro ⟨a, ha, heq⟩
    obtain ⟨d, hd, rfl⟩ := List.mem_map.1 ha
    obtain ⟨hd, hexpired⟩ := List.mem_filter.1 hd
    simp only [Bool.and_eq_true, decide_eq_true_iff] at heq
    rwa [c.eq_of_relay_eq hd he heq.1] at hexpired
  · intro hexpired
    refine ⟨e.2, List.mem_map.2 ⟨e, List.mem_filter.2 ⟨he, hexpired⟩, rfl⟩, ?_⟩
    simp [c.key_eq e he]

/-- A sweep drops what expired and prunes the rest. -/
theorem sweep_eq (now : Time) :
    t.sweep now = (Assoc.values (t.entries.filter (·.2.isExpired now)),
      (t.keep (!·.2.isExpired now)).mapValues (·.prune now)) := by
  have hspares (relay : Endpoint) : (Assoc.values (t.entries.filter (·.2.isExpired now))).all
      (fun a => a.relay ≠ relay) = t.spares (!·.2.isExpired now) relay := by
    simp [Assoc.values, spares, List.all_map, List.all_filter]
  have hrelays : (t.relays.filter fun r =>
      !(Assoc.values (t.entries.filter (·.2.isExpired now))).any
        fun a => a.relay = r.1 && a.fiveTuple = r.2) =
      t.relays.filter fun r => t.spares (!·.2.isExpired now) r.1 := by
    apply List.filter_congr
    intro r hr
    obtain ⟨e, he, rfl⟩ := List.mem_map.1 (c.relays_perm.mem_iff.1 hr)
    rw [c.spares_eq he]
    exact congrArg not (c.any_expired_eq now he)
  have hslots : t.slots - (Assoc.values (t.entries.filter (·.2.isExpired now))).length =
      (t.entries.filter (!·.2.isExpired now)).length := by
    have hlength := t.entries.length_eq_countP_add_countP (·.2.isExpired now)
    simp only [Bool.not_eq_true, Bool.decide_eq_false, List.countP_eq_length_filter] at hlength
    rw [c.slots_eq, Assoc.values, List.length_map, hlength, Nat.add_sub_cancel_left]
  simp only [sweep, Pool.foldl_release, hslots, hspares]
  rw [hrelays]
  rfl

/-- Deletes one after the other drop all that they name. -/
theorem foldl_delete (es : Assoc FiveTuple Allocation) (nodup : es.keys.Nodup)
    (hes : ∀ e ∈ es, t.entries.lookup e.1 = some e.2) (removed : List Allocation) :
    es.keys.foldl (fun (removed, t) ft =>
        match t.delete ft with
        | some (a, t) => (removed ++ [a], t)
        | none => (removed, t)) (removed, t) =
      (removed ++ es.values, t.keep fun e => e.1 ∉ es.keys) := by
  induction es generalizing t removed with
  | nil => simp [Assoc.keys, Assoc.values, c.keep_all]
  | cons e es ih =>
    obtain ⟨hne, nodup⟩ := List.nodup_cons.1 nodup
    have hrest : ∀ d ∈ es, (t.keep (·.1 ≠ e.1)).entries.lookup d.1 = some d.2 := by
      intro d hd
      have hk : d.1 ≠ e.1 := by
        intro hk
        exact hne (List.mem_map.2 ⟨d, hd, hk⟩)
      exact (Assoc.lookup_remove_ne t.entries hk).trans (hes d (List.mem_cons_of_mem _ hd))
    simp only [Assoc.keys, List.map_cons, List.foldl_cons]
    rw [c.delete_eq, hes e List.mem_cons_self]
    refine (ih (c.keep _) nodup hrest _).trans ?_
    rw [keep_keep]
    refine Prod.ext (by simp [Assoc.values]) (keep_congr fun d _ => ?_)
    rw [Bool.eq_iff_iff, Bool.and_eq_true, decide_eq_true_iff, decide_eq_true_iff,
      decide_eq_true_iff, ← not_or]
    exact not_congr List.mem_cons.symm

/-- The allocations of a user are dropped together. -/
theorem removeUser_eq (username : String) :
    t.removeUser username = (Assoc.values (t.entries.filter (·.2.username = username)),
      t.keep (·.2.username ≠ username)) := by
  refine (c.foldl_delete _ (Assoc.nodup_keys_filter c.keys_nodup _) ?_ []).trans ?_
  · intro e he
    exact Assoc.lookup_of_mem c.keys_nodup (List.mem_of_mem_filter he)
  · refine Prod.ext (List.nil_append _) (keep_congr fun e he => ?_)
    rw [Bool.eq_iff_iff, decide_eq_true_iff, decide_eq_true_iff, not_iff_not]
    constructor
    · intro hmem
      obtain ⟨d, hd, hk⟩ := List.mem_map.1 hmem
      obtain ⟨hd, hname⟩ := List.mem_filter.1 hd
      have heq : d = e := List.inj_on_of_nodup_map c.keys_nodup hd he hk
      simpa [heq] using hname
    · intro hname
      exact List.mem_map.2 ⟨e, List.mem_filter.2 ⟨he, by simpa using hname⟩, rfl⟩

/-- Entering an allocation where the five-tuple has none. -/
theorem enter_eq {a : Allocation} (h : t.entries.lookup a.fiveTuple = none)
    (hfree : a.relay ∉ t.pool.leased) :
    { t with
      pool := { t.pool with leased := a.relay :: t.pool.leased }
      entries := t.entries.put a.fiveTuple a
      relays := t.relays.put a.relay a.fiveTuple
      slots := t.slots + 1 } = (t.keep (·.1 ≠ a.fiveTuple)).add a := by
  rw [c.keep_eq_of_lookup_eq_none h, Assoc.put_of_lookup_eq_none h,
    Assoc.put_of_lookup_eq_none (c.lookup_relays_of_free hfree)]
  rfl

/-- Entering an allocation in place of another, whose address is given back after the lease. -/
theorem replace_eq {a b : Allocation} (h : t.entries.lookup a.fiveTuple = some b)
    (hfree : a.relay ∉ t.pool.leased) :
    { t with
      pool := ({ t.pool with leased := a.relay :: t.pool.leased } : Pool).release b.relay
      entries := t.entries.put a.fiveTuple a
      relays := (t.relays.remove b.relay).put a.relay a.fiveTuple } =
      (t.keep (·.1 ≠ a.fiveTuple)).add a := by
  have hne : a.relay ≠ b.relay := by
    intro heq
    exact hfree ((c.mem_leased _).2 ⟨_, Assoc.mem_of_lookup h, heq.symm⟩)
  have hrelays : (t.relays.remove b.relay).lookup a.relay = none :=
    (Assoc.lookup_remove_ne _ hne).trans (c.lookup_relays_of_free hfree)
  have hleased : (a.relay :: t.pool.leased).filter (· ≠ b.relay) =
      a.relay :: t.pool.leased.filter (· ≠ b.relay) :=
    List.filter_cons_of_pos (by simpa using hne)
  have hspares : t.spares (·.1 ≠ a.fiveTuple) = fun relay => decide (relay ≠ b.relay) :=
    funext (c.spares_key h)
  have hslots := Assoc.length_remove c.keys_nodup h
  rw [Assoc.put_of_lookup_eq_none hrelays, Table.keep, hspares, Pool.release, hleased, c.slots_eq,
    ← hslots]
  rfl

end Consistent

/-- How an allocation comes into a table: on a free address of the pool, in a free slot or in place
of one that expired, within the quota of its user. -/
structure Created (t : Table) (r : Request) (now : Time) (a : Allocation) (t' : Table) : Prop where
  built : a = t.build r a.relay now
  free : a.relay ∉ t.pool.leased
  offered : t.pool.Offers a.relay
  family : a.relay.family = r.family
  stale : ∀ b, t.entries.lookup r.fiveTuple = some b → b.expiresAt ≤ now
  room : t.entries.lookup r.fiveTuple = none →
    0 < t.options.maxAllocations → t.slots < t.options.maxAllocations
  quota : 0 < t.options.userQuota → t.userCount r.username now < t.options.userQuota
  table : t' = (t.keep (·.1 ≠ r.fiveTuple)).add a

theorem Consistent.created {t t' : Table} (c : t.Consistent) {r : Request} {offset : Nat}
    {now : Time} {a : Allocation} (h : t.create r offset now = .ok (a, t')) :
    t.Created r now a t' := by
  have hquota : 0 < t.options.userQuota → t.userCount r.username now < t.options.userQuota := by
    intro hpos
    by_contra hfull
    rw [create_eq_quota.2 ⟨rfl, hpos, Nat.le_of_not_lt hfull⟩] at h
    cases h
  obtain ⟨relay, pool, hlease, rfl, hway⟩ := create_eq_ok h
  obtain ⟨hfree, hoffered, hfamily, rfl⟩ := Pool.of_lease hlease
  rcases hway with ⟨hlookup, hroom, rfl⟩ | ⟨b, hlookup, hexpired, rfl⟩
  · refine ⟨rfl, hfree, hoffered, hfamily, by simp [hlookup], fun _ => hroom, hquota, ?_⟩
    exact c.enter_eq (a := t.build r relay now) hlookup hfree
  · refine ⟨rfl, hfree, hoffered, hfamily, ?_, by simp [hlookup], hquota, ?_⟩
    · intro b' hb'
      obtain rfl := Option.some.inj (hlookup.symm.trans hb')
      exact hexpired
    · exact c.replace_eq (a := t.build r relay now) hlookup hfree

theorem Created.fiveTuple {t t' : Table} {r : Request} {now : Time} {a : Allocation}
    (h : t.Created r now a t') : a.fiveTuple = r.fiveTuple := by
  rw [h.built, build]

/-- Only the entry of the request is another one. -/
theorem Created.lookup {t t' : Table} {r : Request} {now : Time} {a : Allocation}
    (h : t.Created r now a t') (ft : FiveTuple) : t'.entries.lookup ft =
      if ft = r.fiveTuple then some a else t.entries.lookup ft := by
  rw [h.table, lookup_add, h.fiveTuple, lookup_keep_ne]
  split <;> rfl

/-- Entering an allocation keeps the books. -/
theorem Created.consistent {t t' : Table} {r : Request} {now : Time} {a : Allocation}
    (h : t.Created r now a t') (c : t.Consistent) : t'.Consistent := by
  rw [h.table]
  apply (c.keep _).add
  · rw [h.fiveTuple]
    exact Assoc.lookup_remove_self t.entries r.fiveTuple
  · exact fun hmem => h.free (List.mem_of_mem_filter hmem)
  · exact h.offered
  · intro hmax
    change (t.entries.remove r.fiveTuple).length < t.options.maxAllocations
    have hle := c.slots_le hmax
    rw [c.slots_eq] at hle
    cases hlookup : t.entries.lookup r.fiveTuple with
    | none =>
      have hlt := h.room hlookup hmax
      rwa [c.slots_eq, ← Assoc.remove_of_lookup_eq_none hlookup] at hlt
    | some b =>
      have hlength := Assoc.length_remove c.keys_nodup hlookup
      omega

end Table
end NatRelay
