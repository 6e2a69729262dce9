import NatRelay.Proofs.Service.Process
import NatRelay.Service.Run

/-! How allocations come and go in a service, and what the host is told of it. `step_turnover` says
that every step leaves the relayed addresses with their owners, or takes one more, or gives some
back, with an event for each. -/
namespace NatRelay

namespace Event

/-- The relayed address of an allocation that the host hears is there. -/
def opened? : Event → Option Endpoint
  | allocationCreated _ _ _ relay => some relay
  | _ => none

/-- The relayed address of an allocation that the host hears is gone. -/
def closed? : Event → Option Endpoint
  | allocationAborted _ _ relay => some relay
  | _ => none

end Event

namespace Table

/-- The relayed addresses have the owners that they had. -/
structure SameOwners (t t' : Table) : Prop where
  owners : t'.owners = t.owners
  consistent : t.Consistent → t'.Consistent

theorem SameOwners.refl (t : Table) : t.SameOwners t := ⟨rfl, id⟩

theorem SameOwners.trans {t₁ t₂ t₃ : Table} (h : t₁.SameOwners t₂) (h' : t₂.SameOwners t₃) :
    t₁.SameOwners t₃ :=
  ⟨h'.owners.trans h.owners, fun c => h'.consistent (h.consistent c)⟩

theorem sameOwners_update (t : Table) (ft : FiveTuple) {f : Allocation → Allocation}
    (hf : ∀ a, (f a).fiveTuple = a.fiveTuple ∧ (f a).relay = a.relay) :
    t.SameOwners (t.update ft f) :=
  ⟨Assoc.map_mapAt _ _ _ _ fun a => by rw [(hf a).2], fun c => c.update hf⟩

theorem sameOwners_mapValues (t : Table) {f : Allocation → Allocation}
    (hf : ∀ a, (f a).fiveTuple = a.fiveTuple ∧ (f a).relay = a.relay) :
    t.SameOwners (t.mapValues f) := by
  refine ⟨?_, fun c => c.mapValues hf⟩
  simp [owners, mapValues, Function.comp_def, hf]

/-- What a step does to the allocations of a table, and what the host hears of it. -/
inductive Turnover (t : Table) (es : List Event) : Table → Prop
  | kept {t'} (hopened : es.filterMap Event.opened? = [])
    (hclosed : es.filterMap Event.closed? = []) (h : t.SameOwners t') : Turnover t es t'
  | opened {r now a t'} (hopened : es.filterMap Event.opened? = [a.relay])
    (hclosed : es.filterMap Event.closed? = []) (h : t.Created r now a t') : Turnover t es t'
  | closed {t'} (p : FiveTuple × Allocation → Bool) (hopened : es.filterMap Event.opened? = [])
    (nodup : (es.filterMap Event.closed?).Nodup)
    (hclosed : ∀ relay, relay ∈ es.filterMap Event.closed? ↔
      ∃ e ∈ t.entries, p e = false ∧ e.2.relay = relay)
    (h : (t.keep p).SameOwners t') : Turnover t es t'

namespace Turnover
variable {t t' : Table} {es : List Event}

theorem refl (t : Table) : t.Turnover [] t := .kept rfl rfl (.refl t)

theorem consistent (h : t.Turnover es t') (c : t.Consistent) : t'.Consistent := by
  cases h with
  | kept _ _ h => exact h.consistent c
  | opened _ _ h => exact h.consistent c
  | closed p _ _ _ h => exact h.consistent (c.keep p)

/-- An event in front that tells of no allocation. -/
theorem cons (h : t.Turnover es t') {e : Event} (hopened : e.opened? = none)
    (hclosed : e.closed? = none) : t.Turnover (e :: es) t' := by
  have hopened := List.filterMap_cons_none hopened (l := es)
  have hclosed := List.filterMap_cons_none hclosed (l := es)
  cases h with
  | kept hes hes' h => exact .kept (hopened.trans hes) (hclosed.trans hes') h
  | opened hes hes' h => exact .opened (hopened.trans hes) (hclosed.trans hes') h
  | closed p hes nodup hrelays h =>
    rw [← hclosed] at nodup hrelays
    exact .closed p (hopened.trans hes) nodup hrelays h

end Turnover

/-- Dropping allocations of a kind gives their addresses back, each once. -/
theorem Consistent.dropped {t : Table} (c : t.Consistent) (q : FiveTuple × Allocation → Bool) :
    ((Assoc.values (t.entries.filter q)).map (·.relay)).Nodup ∧
      ∀ relay, relay ∈ (Assoc.values (t.entries.filter q)).map (·.relay) ↔
        ∃ e ∈ t.entries, q e = true ∧ e.2.relay = relay := by
  constructor
  · have nodup := c.owners_nodup
    rw [owners, Assoc.keys, List.map_map] at nodup
    rw [Assoc.values, List.map_map]
    exact nodup.sublist (List.filter_sublist.map _)
  · intro relay
    simp only [Assoc.values, List.map_map, List.mem_map, List.mem_filter, Function.comp_apply,
      and_assoc]

end Table

namespace Request
variable {r : Request} {t : Table} {now : Time}

theorem permitAll_sameOwners (ft : FiveTuple) (peers : List Endpoint) :
    t.SameOwners (permitAll t ft now peers).2 := by
  induction peers generalizing t with
  | nil => exact .refl t
  | cons peer peers ih =>
    rw [permitAll]
    split
    · exact .refl t
    · rename_i hpermit
      obtain ⟨a, -, -, -, rfl⟩ := Table.createPermission_eq_ok.1 hpermit
      have hupdate := t.sameOwners_update ft
        (f := (·.permit peer.ip (now + t.options.permissionLifetime))) fun _ => ⟨rfl, rfl⟩
      exact hupdate.trans ih

theorem Effect.turnover {offset : Nat} {d : Decision} (h : r.Effect t offset now d)
    (c : t.Consistent) : t.Turnover d.events d.table := by
  cases h with
  | refused | repeated | gone => exact .refl t
  | created _ hcreate => exact .opened rfl rfl (c.created hcreate)
  | released _ hdelete =>
    rw [c.delete_eq, Option.map_eq_some_iff] at hdelete
    obtain ⟨a, hlookup, heq⟩ := hdelete
    obtain ⟨rfl, rfl⟩ := Prod.mk.inj heq
    refine .closed _ rfl (List.nodup_singleton _) (fun relay => ?_) (.refl _)
    refine Iff.trans (List.mem_singleton (b := a.relay)) ?_
    constructor
    · rintro rfl
      exact ⟨_, Assoc.mem_of_lookup hlookup, by simp, rfl⟩
    · rintro ⟨⟨ft, b⟩, hb, hft, rfl⟩
      obtain rfl : ft = r.fiveTuple := by simpa using hft
      rw [Option.some.inj ((Assoc.lookup_of_mem c.keys_nodup hb).symm.trans hlookup)]
  | extended _ hrefresh =>
    obtain ⟨b, -, rfl⟩ := Table.refresh_eq_ok.1 hrefresh
    exact .kept rfl rfl (t.sameOwners_update _ fun _ => ⟨rfl, rfl⟩)
  | permitted _ _ hpermit =>
    have hkept := @permitAll_sameOwners t now r.fiveTuple (distinctPeers r.message.peerAddresses)
    rw [hpermit] at hkept
    exact .kept (by simp [Event.opened?]) (by simp [Event.closed?]) hkept
  | bound _ _ hbind =>
    obtain ⟨b, -, -, -, -, rfl⟩ := Table.bindChannel_eq_ok.1 hbind
    exact .kept rfl rfl (t.sameOwners_update _ fun _ => ⟨rfl, rfl⟩)

end Request

namespace Service
variable {s : Service} {i : Interface} {bytes : Bytes} {addr : Endpoint} {now : Time}

/-- Up to the lookup of a password no allocation comes or goes. -/
theorem Receipt.turnover {draw : Draw} {o : Outcome Progress}
    (h : s.Receipt i bytes addr draw now o) : s.table.Turnover o.events o.service.table := by
  cases h with
  | sent _ _ _ _ _ hsend =>
    obtain ⟨a, -, -, -, rfl⟩ := Table.permitSend_eq_some.1 hsend
    exact .kept rfl rfl (s.table.sameOwners_update _ fun _ => ⟨rfl, rfl⟩)
  | sentOnChannel _ hchannel =>
    obtain ⟨a, b, -, -, -, -, -, rfl⟩ := Table.channelPeer_eq_some.1 hchannel
    exact .kept rfl rfl (s.table.sameOwners_update _ fun _ => ⟨rfl, rfl⟩)
  | malformed | unanswered | misunderstood | observed | refused | asks =>
    exact .kept rfl rfl (.refl _)

theorem Settlement.turnover {p : PendingRequest} {password? : Option String} {draw : Draw}
    {o : Outcome (Except Stun.Error (Option Response))} (h : s.Settlement p password? draw now o)
    (c : s.table.Consistent) : s.table.Turnover o.events o.service.table := by
  cases h with
  | refused => exact .refl _
  | accepted _ _ heffect => exact heffect.turnover c

theorem process_turnover (c : s.table.Consistent) (login : Login) (draw draw' : Draw) :
    s.table.Turnover (s.process login i bytes addr draw draw' now).events
      (s.process login i bytes addr draw draw' now).service.table := by
  rw [process]
  cases hanswer : (s.receive i bytes addr draw now).answer with
  | done result => exact (s.receive_receipt i bytes addr draw now).turnover
  | asks p =>
    obtain ⟨hservice, hevents⟩ := receive_asks hanswer
    dsimp only
    rw [hservice, hevents]
    exact ((s.resume_settlement _ _ _ _).turnover c).cons rfl rfl

/-- Of allocations that are dropped the host hears one by one. -/
theorem aborted_turnover {t t' : Table} (c : t.Consistent) (p q : FiveTuple × Allocation → Bool)
    (hpq : ∀ e, p e = !q e) (h : (t.keep p).SameOwners t') :
    t.Turnover (aborted (Assoc.values (t.entries.filter q))) t' := by
  have hopened (removed : List Allocation) : (aborted removed).filterMap Event.opened? = [] := by
    simp [aborted, Event.opened?]
  have hclosed (removed : List Allocation) :
      (aborted removed).filterMap Event.closed? = removed.map (·.relay) := by
    simp [aborted, List.filterMap_map, Function.comp_def, Event.closed?]
  obtain ⟨nodup, hrelays⟩ := c.dropped q
  refine .closed p (hopened _) ?_ ?_ h
  · rw [hclosed]
    exact nodup
  · rw [hclosed]
    simpa only [hpq, Bool.not_eq_false'] using hrelays

theorem sweep_turnover (c : s.table.Consistent) :
    s.table.Turnover (s.sweep now).events (s.sweep now).service.table := by
  rw [sweep, c.sweep_eq]
  exact aborted_turnover c _ _ (fun _ => rfl)
    (Table.sameOwners_mapValues _ (f := (·.prune now)) fun _ => ⟨rfl, rfl⟩)

theorem removeUser_turnover (c : s.table.Consistent) (username : String) :
    s.table.Turnover (s.removeUser username).events (s.removeUser username).service.table := by
  rw [removeUser, c.removeUser_eq]
  exact aborted_turnover c _ _ (by simp) (.refl _)

/-- Every step of a service is a turnover of its table. -/
theorem step_turnover (c : s.table.Consistent) (op : Op) (now : Time) :
    s.table.Turnover (s.step op now).events (s.step op now).service.table := by
  cases op with
  | process login i bytes addr draw draw' => exact process_turnover c login draw draw'
  | receive i bytes addr draw => exact (s.receive_receipt i bytes addr draw now).turnover
  | resume p password? draw => exact (s.resume_settlement p password? draw now).turnover c
  | relayInbound relay peer payload draw => exact .refl _
  | sweep => exact sweep_turnover c
  | removeUser username => exact removeUser_turnover c username

end Service
end NatRelay
