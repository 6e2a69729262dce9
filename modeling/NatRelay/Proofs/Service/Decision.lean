import NatRelay.Proofs.Allocation.Operations
import NatRelay.Service.Decision

/-! What the requests of an authenticated client can do to the table. All that is known of it is
`decide_effect`; that a request leaves the entries of other five-tuples alone, and the client's own
entry too if it is live and another user's, follows from it case by case. -/
namespace NatRelay

/-- Whether a request is for time: an Allocate, and a Refresh that is not to delete. -/
def Stun.Message.IsForTime (m : Stun.Message) (options : AllocationOptions) : Prop :=
  m.method = .allocate ∨ m.method = .refresh ∧ options.desiredLifetime m.lifetime ≠ 0

instance (m : Stun.Message) (options : AllocationOptions) : Decidable (m.IsForTime options) :=
  inferInstanceAs (Decidable (_ ∨ _))

/-- Whether the code of a refusal tells all there is to tell. -/
def Refusal.isPlain : Refusal → Bool
  | unauthorized | unknownAttribute | staleNonce => false
  | _ => true

theorem Refusal.isPlain_ofTableError (e : TableError) : (ofTableError e).isPlain := by
  cases e <;> rfl

namespace Request
variable {r : Request} {t t' : Table} {now : Time} {a : Allocation} {offset : Nat} {d : Decision}

theorem owned_eq_ok :
    r.owned t now = .ok a ↔ t.find? r.fiveTuple now = some a ∧ a.username = r.username := by
  rw [owned]
  cases t.find? r.fiveTuple now with
  | none => simp
  | some b =>
    by_cases hname : b.username = r.username
    · simp only [hname, if_true, Except.ok.injEq, Option.some.injEq]
      constructor
      · rintro rfl
        exact ⟨rfl, hname⟩
      · exact And.left
    · simp only [hname, if_false, Option.some.injEq, reduceCtorEq, false_iff]
      rintro ⟨rfl, hname'⟩
      exact hname hname'

/-- What becomes of a request: it is refused, or its sender is told of what is there or is not, or
the one allocation that it is about changes. -/
inductive Effect (r : Request) (t : Table) (offset : Nat) (now : Time) : Decision → Prop
  | refused (why : Refusal) (hplain : why.isPlain) : Effect r t offset now (refused t why)
  | repeated {a : Allocation} (hfound : t.find? r.fiveTuple now = some a)
    (hmethod : r.message.method = .allocate) :
    Effect r t offset now { verdict := r.granted a now, table := t }
  | gone (hother : ¬ r.message.IsForTime t.options) :
    Effect r t offset now { verdict := lifetimeIs 0, table := t }
  | created {family : Family} {a : Allocation} {t' : Table}
    (hnone : t.find? r.fiveTuple now = none)
    (hcreate : t.create ⟨r.fiveTuple, r.username, r.message.tid, family, r.message.lifetime⟩
      offset now = .ok (a, t'))
    (hmethod : r.message.method = .allocate) :
    Effect r t offset now
      { verdict := r.granted a now
        events := [.allocationCreated r.addr r.username a.relay.port a.relay], table := t' }
  | released {a : Allocation} {t' : Table} (howned : r.owned t now = .ok a)
    (hdelete : t.delete r.fiveTuple = some (a, t'))
    (hother : ¬ r.message.IsForTime t.options) :
    Effect r t offset now
      { verdict := lifetimeIs 0
        events := [.allocationAborted r.addr a.username a.relay], table := t' }
  | extended {a : Allocation} {lifetime : Duration} {t' : Table}
    (howned : r.owned t now = .ok a)
    (hrefresh : t.refresh r.fiveTuple lifetime now = .ok t')
    (hlifetime : lifetime = t.options.desiredLifetime r.message.lifetime)
    (hmethod : r.message.method = .refresh) (hpos : 0 < lifetime) :
    Effect r t offset now
      { verdict := lifetimeIs (wholeSeconds lifetime)
        events := [.allocationRefreshed r.addr r.username (wholeSeconds lifetime)], table := t' }
  | permitted {a : Allocation} {fresh : List Endpoint} {t' : Table}
    (howned : r.owned t now = .ok a)
    (hjudged : ∀ peer ∈ r.message.peerAddresses, objection? a.family peer = none)
    (hpermit : permitAll t r.fiveTuple now (distinctPeers r.message.peerAddresses) =
      (.ok fresh, t'))
    (hother : ¬ r.message.IsForTime t.options) :
    Effect r t offset now
      { verdict := .success [] none
        events := fresh.map fun peer => .permissionCreated r.addr r.username peer, table := t' }
  | bound {a : Allocation} {number : UInt16} {peer : Endpoint} {isNew : Bool} {t' : Table}
    (howned : r.owned t now = .ok a)
    (hallowed : isForbidden peer.ip = false)
    (hbind : t.bindChannel r.fiveTuple number peer now = .ok (isNew, t'))
    (hnumber : Stun.isChannelNumber number)
    (hother : ¬ r.message.IsForTime t.options) :
    Effect r t offset now
      { verdict := .success [] none
        events := [.channelBound r.addr r.username number], table := t' }

theorem allocate_effect (hmethod : r.message.method = .allocate) :
    r.Effect t offset now (r.allocate t offset now) := by
  rw [allocate]
  split
  · rename_i hfound
    split
    · exact .repeated hfound hmethod
    · exact .refused _ rfl
  rename_i hnone
  rw [allocateNew]
  split
  · exact .refused _ rfl
  · split
    · exact .refused _ rfl
    dsimp only
    split
    · rename_i e _
      exact .refused _ (by cases e <;> rfl)
    · rename_i hcreate
      exact .created hnone hcreate hmethod
  · exact .refused _ rfl

theorem isPlain_of_owned {why : Refusal} (h : r.owned t now = .error why) : why.isPlain := by
  rw [owned] at h
  split at h
  · obtain rfl := Except.error.inj h
    rfl
  · split at h
    · cases h
    · obtain rfl := Except.error.inj h
      rfl

theorem refresh_effect (hmethod : r.message.method = .refresh) :
    r.Effect t offset now (r.refresh t now) := by
  have hdeletes (hzero : t.options.desiredLifetime r.message.lifetime = 0) :
      ¬ r.message.IsForTime t.options := by
    simp [Stun.Message.IsForTime, hmethod, hzero]
  rw [refresh]
  split
  · split
    · rename_i hzero
      exact .gone (hdeletes hzero)
    · exact .refused _ rfl
  · rename_i howned
    exact .refused _ (isPlain_of_owned howned)
  rename_i a howned
  split
  · exact .refused _ rfl
  split
  -- What is deleted is the allocation that was judged.
  · rename_i hzero
    have hlookup := (Table.find?_eq_some.1 (owned_eq_ok.1 howned).1).1
    rw [release]
    split
    · rename_i hdelete
      obtain ⟨b, hb, heq⟩ := Option.map_eq_some_iff.1 hdelete
      obtain ⟨rfl, -⟩ := Prod.mk.inj heq
      obtain rfl := Option.some.inj (hlookup.symm.trans hb)
      exact .released howned hdelete (hdeletes hzero)
    · exact .gone (hdeletes hzero)
  · rename_i hdesired
    rw [extend]
    split
    · rename_i hrefresh
      exact .extended howned hrefresh rfl hmethod (Nat.pos_of_ne_zero hdesired)
    · exact .refused _ (Refusal.isPlain_ofTableError _)

/-- Peers of the allocation's family are all permitted: permitting one keeps the allocation. -/
theorem permitAll_eq_ok {ft : FiveTuple} (ha : t.find? ft now = some a) {peers : List Endpoint}
    (hfamily : ∀ peer ∈ peers, peer.family = a.family) :
    ∃ fresh, (permitAll t ft now peers).1 = .ok fresh := by
  induction peers generalizing t a with
  | nil => exact ⟨[], rfl⟩
  | cons peer peers ih =>
    obtain ⟨hpeer, hpeers⟩ := List.forall_mem_cons.1 hfamily
    have hpermit := Table.createPermission_eq_ok.2 ⟨a, ha, hpeer, rfl, rfl⟩
    have hkept := Table.find?_update ha (f := (·.permit peer.ip
      (now + t.options.permissionLifetime))) rfl
    obtain ⟨fresh, hrest⟩ := ih hkept hpeers
    rw [permitAll, hpermit]
    dsimp only
    rw [hrest]
    exact ⟨_, rfl⟩

theorem distinctPeers_subset (peers : List Endpoint) : distinctPeers peers ⊆ peers := by
  match peers with
  | [] => exact List.Subset.refl _
  | peer :: peers =>
    rw [distinctPeers, List.eraseDupsBy_cons]
    exact List.cons_subset_cons peer
      (List.Subset.trans (distinctPeers_subset _) (List.filter_subset_self _))
termination_by peers.length
decreasing_by exact Nat.lt_succ_of_le (List.length_filter_le _ _)

theorem family_of_objection?_eq_none {family : Family} {peer : Endpoint}
    (h : objection? family peer = none) : peer.family = family := by
  rw [objection?] at h
  split at h
  · cases h
  split at h
  · cases h
  · rename_i hfamily
    exact Decidable.not_not.1 hfamily

theorem isPlain_of_objection? {family : Family} {peer : Endpoint} {why : Refusal}
    (h : objection? family peer = some why) : why.isPlain := by
  rw [objection?] at h
  split at h
  · obtain rfl := Option.some.inj h
    rfl
  split at h
  · obtain rfl := Option.some.inj h
    rfl
  · cases h

/-- The peers are judged before any of them is permitted, so no refusal follows a change. -/
theorem createPermission_effect (hother : ¬ r.message.IsForTime t.options) :
    r.Effect t offset now (r.createPermission t now) := by
  rw [createPermission]
  split
  · exact .refused _ rfl
  split
  · rename_i howned
    exact .refused _ (isPlain_of_owned howned)
  rename_i a howned
  split
  · rename_i why hobjection
    obtain ⟨peer, -, hpeer⟩ := List.exists_of_findSome?_eq_some hobjection
    exact .refused _ (isPlain_of_objection? hpeer)
  rename_i hjudged
  rw [List.findSome?_eq_none_iff] at hjudged
  have hfamily (peer : Endpoint) (hpeer : peer ∈ distinctPeers r.message.peerAddresses) :
      peer.family = a.family :=
    family_of_objection?_eq_none (hjudged peer (distinctPeers_subset _ hpeer))
  obtain ⟨fresh, hfresh⟩ := permitAll_eq_ok (owned_eq_ok.1 howned).1 hfamily
  split
  · rename_i hpermit
    rw [hpermit] at hfresh
    cases hfresh
  · rename_i hpermit
    exact .permitted howned hjudged hpermit hother

theorem channelBind_effect (hother : ¬ r.message.IsForTime t.options) :
    r.Effect t offset now (r.channelBind t now) := by
  rw [channelBind]
  split
  · rename_i hnumber _
    split
    · rename_i howned
      exact .refused _ (isPlain_of_owned howned)
    rename_i howned
    split
    · exact .refused _ rfl
    rename_i hallowed
    split
    · exact .refused _ (Refusal.isPlain_ofTableError _)
    · rename_i hbind
      exact .bound howned (Bool.eq_false_iff.2 hallowed) hbind
        (Option.filter_eq_some_iff.1 hnumber).2 hother
  · exact .refused _ rfl

/-- No request does anything else. -/
theorem decide_effect (r : Request) (t : Table) (offset : Nat) (now : Time) :
    r.Effect t offset now (r.decide t offset now) := by
  rw [decide]
  split
  · rename_i hmethod
    exact allocate_effect hmethod
  · rename_i hmethod
    exact refresh_effect hmethod
  · rename_i hmethod
    exact createPermission_effect (by simp [Stun.Message.IsForTime, hmethod])
  · rename_i hallocate hrefresh _
    exact channelBind_effect (not_or.2 ⟨hallocate, fun h => hrefresh h.1⟩)

/-- A request changes no entry but that of its own five-tuple, and none at all if that one is live
and another user's. -/
structure Confined (r : Request) (t t' : Table) (now : Time) : Prop where
  others : ∀ ft, ft ≠ r.fiveTuple → t'.entries.lookup ft = t.entries.lookup ft
  owner : t' = t ∨ ∀ a, t.find? r.fiveTuple now = some a → a.username = r.username

theorem Confined.refl (r : Request) (t : Table) (now : Time) : r.Confined t t now :=
  ⟨fun _ _ => rfl, .inl rfl⟩

/-- A live allocation that a request changed is its sender's. -/
theorem Confined.of_changed (h : r.Confined t t' now) {ft : FiveTuple}
    (ha : t.find? ft now = some a) (hchanged : t'.entries.lookup ft ≠ some a) :
    ft = r.fiveTuple ∧ a.username = r.username := by
  have hlookup := (Table.find?_eq_some.1 ha).1
  by_cases hft : ft = r.fiveTuple
  · subst hft
    refine ⟨rfl, ?_⟩
    rcases h.owner with rfl | howner
    · exact absurd hlookup hchanged
    · exact howner a ha
  · exact absurd ((h.others ft hft).trans hlookup) hchanged

/-- A change of the sender's own allocation. -/
theorem Confined.of_owned (h : r.owned t now = .ok a)
    (hothers : ∀ ft, ft ≠ r.fiveTuple → t'.entries.lookup ft = t.entries.lookup ft) :
    r.Confined t t' now := by
  refine ⟨hothers, .inr ?_⟩
  intro b hb
  obtain ⟨ha, hname⟩ := owned_eq_ok.1 h
  obtain rfl := Option.some.inj (ha.symm.trans hb)
  exact hname

theorem lookup_permitAll {ft ft' : FiveTuple} (h : ft' ≠ ft) (peers : List Endpoint) :
    (permitAll t ft now peers).2.entries.lookup ft' = t.entries.lookup ft' := by
  induction peers generalizing t with
  | nil => rfl
  | cons peer peers ih =>
    rw [permitAll]
    split
    · rfl
    · rename_i hpermit
      obtain ⟨a, -, -, -, rfl⟩ := Table.createPermission_eq_ok.1 hpermit
      exact ih.trans (Table.lookup_update_ne _ _ h)

theorem Effect.confined (h : r.Effect t offset now d) : r.Confined t d.table now := by
  cases h with
  | refused | repeated | gone => exact .refl r t now
  | created hnone hcreate =>
    refine ⟨fun ft hft => ?_, .inr (by simp [hnone])⟩
    rw [Table.entries_create hcreate]
    exact Assoc.lookup_put_ne _ _ hft
  | released howned hdelete =>
    obtain ⟨b, -, heq⟩ := Option.map_eq_some_iff.1 hdelete
    obtain ⟨-, rfl⟩ := Prod.mk.inj heq
    exact .of_owned howned fun ft hft => Assoc.lookup_remove_ne _ hft
  | extended howned hrefresh =>
    obtain ⟨b, -, rfl⟩ := Table.refresh_eq_ok.1 hrefresh
    exact .of_owned howned fun ft hft => t.lookup_update_ne _ hft
  | permitted howned _ hpermit =>
    refine .of_owned howned fun ft hft => ?_
    have hkept := @lookup_permitAll t now _ _ hft (distinctPeers r.message.peerAddresses)
    rwa [hpermit] at hkept
  | bound howned _ hbind =>
    obtain ⟨b, -, -, -, -, rfl⟩ := Table.bindChannel_eq_ok.1 hbind
    exact .of_owned howned fun ft hft => t.lookup_update_ne _ hft

end Request
end NatRelay
