import NatRelay.Proofs.Allocation.History

/-! What is done for a live allocation is a matter of that allocation alone: an operation for it
answers, and changes it, as `Allocation.serve` says, whatever else the table holds. -/
namespace NatRelay
namespace Table

/-- The five-tuple whose live allocation an operation is for. -/
def Op.serves : Op → Option FiveTuple
  | .find ft | .refresh ft _ | .createPermission ft _ | .bindChannel ft _ _ | .permitSend ft _ |
    .channelPeer ft _ => some ft
  | _ => none

/-- What such an operation answers where there is no live allocation. -/
def Op.missed : Op → Reply
  | .refresh ft _ | .createPermission ft _ | .bindChannel ft _ _ => .refused (.notFound ft.client)
  | _ => .nothing

end Table

namespace Allocation
open Table (Op Reply clashes)

/-- Whether the number is actively bound to the peer. -/
def isBound (a : Allocation) (number : UInt16) (peer : Endpoint) (now : Time) : Bool :=
  (a.channels.lookup number).any fun c => c.peer = peer && now < c.expiresAt

/-- What an operation answers for a live allocation, and makes of it. -/
def serve (a : Allocation) (o : AllocationOptions) (op : Op) (now : Time) : Reply × Allocation :=
  match op with
  | .refresh _ lifetime => (.lifetime lifetime, a.renew lifetime now)
  | .createPermission _ peer =>
    if peer.family ≠ a.family then (.refused (.familyMismatch (.ofIp peer 0)), a)
    else (.fresh (!a.isPermitted peer now), a.permit peer (now + o.permissionLifetime))
  | .bindChannel _ number peer =>
    if peer.family ≠ a.family then (.refused (.familyMismatch peer), a)
    else if clashes a number peer now then (.refused (.channelConflict number), a)
    else (.fresh (!a.isBound number peer now),
      (a.bind number peer (now + o.channelLifetime)).permit peer.ip (now + o.permissionLifetime))
  | .permitSend _ peer =>
    if a.isPermitted peer.ip now then
      (.sender a.relay, a.permit peer.ip (now + o.permissionLifetime))
    else (.nothing, a)
  | .channelPeer _ number =>
    match (a.channels.lookup number).filter (now < ·.expiresAt) with
    | some c => (.path a.relay c.peer,
        (a.extend number (now + o.channelLifetime)).permit c.peer.ip (now + o.permissionLifetime))
    | none => (.nothing, a)
  | _ => (.allocation a, a)

/-- How a packet from the peer reaches the client: on a channel, plainly, or not at all. -/
def path? (a : Allocation) (peer : Endpoint) (now : Time) : Option (Option UInt16) :=
  match a.channelForPeer peer now with
  | some number => some (some number)
  | none => if a.isPermitted peer.ip now then some none else none

end Allocation

namespace Table
variable {t t' : Table} {ft : FiveTuple} {now : Time} {op : Op}

theorem Op.fiveTuple?_of_serves (hop : op.serves = some ft) : op.fiveTuple? = some ft := by
  cases op with
  | create | delete | sweep | inboundRoute | removeUser => cases hop
  | _ => exact hop

theorem step_of_find?_eq_none (hop : op.serves = some ft) (h : t.find? ft now = none) :
    t.step op now = (op.missed, t) := by
  cases op with
  | create | delete | sweep | inboundRoute | removeUser => cases hop
  | _ =>
    obtain rfl := Option.some.inj hop
    simp [step, Op.missed, refresh, createPermission, bindChannel, permitSend, channelPeer, h]

theorem step_inboundRoute (t : Table) (relay peer : Endpoint) (now : Time) :
    t.step (.inboundRoute relay peer) now =
      ((t.inboundRoute relay peer now).elim .nothing .route, t) := by
  rw [step]
  cases t.inboundRoute relay peer now <;> rfl

/-- For a live allocation an operation does what `Allocation.serve` says. -/
theorem step_of_find?_eq_some {a : Allocation} (hop : op.serves = some ft)
    (h : t.find? ft now = some a) :
    (t.step op now).1 = (a.serve t.options op now).1 ∧
      (t.step op now).2.entries.lookup ft = some (a.serve t.options op now).2 := by
  have hlookup := (find?_eq_some.1 h).1
  have hupdate (f : Allocation → Allocation) :
      (t.update ft f).entries.lookup ft = some (f a) := by
    rw [lookup_update, if_pos rfl, hlookup, Option.map_some]
  cases op with
  | create | delete | sweep | inboundRoute | removeUser => cases hop
  | find ft' =>
    obtain rfl := Option.some.inj hop
    simp [step, h, Allocation.serve, hlookup]
  | refresh ft' lifetime =>
    obtain rfl := Option.some.inj hop
    rw [step, refresh_eq_ok.2 ⟨a, h, rfl⟩]
    exact ⟨rfl, hupdate _⟩
  | createPermission ft' peer =>
    obtain rfl := Option.some.inj hop
    by_cases hfamily : peer.family = a.family
    · rw [step, createPermission_eq_ok.2 ⟨a, h, hfamily, rfl, rfl⟩, Allocation.serve,
        if_neg (not_not.2 hfamily)]
      exact ⟨rfl, hupdate _⟩
    · simp [step, createPermission, h, hfamily, Allocation.serve, hlookup]
  | bindChannel ft' number peer =>
    obtain rfl := Option.some.inj hop
    by_cases hfamily : peer.family = a.family
    · cases hclash : clashes a number peer now with
      | true =>
        rw [step, bindChannel_of_clashes h hfamily hclash, Allocation.serve,
          if_neg (not_not.2 hfamily), if_pos hclash]
        exact ⟨rfl, hlookup⟩
      | false =>
        rw [step, bindChannel_eq_ok.2 ⟨a, h, hfamily, hclash, rfl, rfl⟩, Allocation.serve,
          if_neg (not_not.2 hfamily), hclash]
        exact ⟨rfl, hupdate _⟩
    · simp [step, bindChannel, h, hfamily, Allocation.serve, hlookup]
  | permitSend ft' peer =>
    obtain rfl := Option.some.inj hop
    by_cases hp : a.isPermitted peer.ip now
    · rw [step, permitSend_eq_some.2 ⟨a, h, hp, rfl, rfl⟩, Allocation.serve, if_pos hp]
      exact ⟨rfl, hupdate _⟩
    · simp [step, permitSend, h, hp, Allocation.serve, hlookup]
  | channelPeer ft' number =>
    obtain rfl := Option.some.inj hop
    cases hfound : (a.channels.lookup number).filter (now < ·.expiresAt) with
    | none =>
      have hnone : t.channelPeer ft' number now = none := by
        rw [Option.eq_none_iff_forall_ne_some]
        rintro ⟨⟨relay, peer⟩, t'⟩ hsome
        obtain ⟨b, c, hb, hc, hlive, -⟩ := channelPeer_eq_some.1 hsome
        obtain rfl := Option.some.inj (h.symm.trans hb)
        simp only [hc, Option.filter_some, hlive, decide_true, if_true, reduceCtorEq] at hfound
      rw [step, hnone, Allocation.serve, hfound]
      exact ⟨rfl, hlookup⟩
    | some c =>
      obtain ⟨hc, hlive⟩ := Option.filter_eq_some_iff.1 hfound
      rw [step, channelPeer_eq_some.2 ⟨a, c, h, hc, of_decide_eq_true hlive, rfl, rfl, rfl⟩,
        Allocation.serve, hfound]
      exact ⟨rfl, hupdate _⟩

/-- Packets on a relayed address lead to the live allocation that has it, and to no other. -/
theorem Consistent.inboundRoute_eq_some (c : t.Consistent) {relay peer : Endpoint} {r : Route} :
    t.inboundRoute relay peer now = some r ↔
      ∃ a, t.find? r.fiveTuple now = some a ∧ a.relay = relay ∧
        a.path? peer now = some r.channel := by
  cases hrelay : t.relays.lookup relay with
  | none =>
    simp only [inboundRoute, hrelay, reduceCtorEq, false_iff]
    rintro ⟨a, ha, hrelay', -⟩
    rw [(c.lookup_relays _ _).2 ⟨a, (find?_eq_some.1 ha).1, hrelay'⟩] at hrelay
    cases hrelay
  | some ft =>
    obtain ⟨a, ha, rfl⟩ := (c.lookup_relays _ _).1 hrelay
    have hroute : t.inboundRoute a.relay peer now =
        if a.isExpired now then none else (a.path? peer now).map (Route.mk ft) := by
      simp only [inboundRoute, hrelay, ha, ne_eq, not_true_eq_false, decide_false, Bool.or_false,
        Allocation.path?]
      cases a.channelForPeer peer now <;> cases a.isPermitted peer.ip now <;> rfl
    rw [hroute]
    constructor
    · intro h
      split at h
      · cases h
      rename_i hlive
      obtain ⟨channel, hpath, rfl⟩ := Option.map_eq_some_iff.1 h
      refine ⟨a, find?_eq_some.2 ⟨ha, ?_⟩, rfl, hpath⟩
      simpa [Allocation.isExpired] using hlive
    · rintro ⟨b, hb, hsame, hpath⟩
      obtain ⟨hlookup, hlive⟩ := find?_eq_some.1 hb
      rw [(c.lookup_relays _ _).2 ⟨b, hlookup, hsame⟩] at hrelay
      obtain rfl := Option.some.inj hrelay
      obtain rfl := Option.some.inj (ha.symm.trans hlookup)
      rw [if_neg (by simpa [Allocation.isExpired] using hlive), hpath]
      rfl

/-- An operation about one five-tuple leaves the entries of the others alone. -/
theorem Step.lookup_of_other {reply : Reply} (h : t.Step now op reply t')
    {ft' : FiveTuple} (hop : op.fiveTuple? = some ft') (hne : ft ≠ ft') :
    t'.entries.lookup ft = t.entries.lookup ft := by
  cases h with
  | idle => rfl
  | create h =>
    obtain rfl := Option.some.inj hop
    rw [h.lookup, if_neg hne]
  | delete =>
    obtain rfl := Option.some.inj hop
    rw [lookup_keep_ne, if_neg hne]
  | refresh | createPermission | bindChannel | permitSend | channelPeer =>
    obtain rfl := Option.some.inj hop
    exact lookup_update_ne _ _ hne
  | sweep | removeUser => cases hop

end Table
end NatRelay
