import NatRelay.Proofs.Allocation.Entries
import NatRelay.Proofs.Allocation.Pruning

/-! The way out of a relay and the way in are the same. Main statement: `run_routes`, that a client
sends to a peer over a channel, or with leave to send plainly, just where packets of the peer come
back to it in the same way. Out goes from the five-tuple through its allocation, in from the relayed
address through the index; they meet because channels of one allocation have distinct peers. -/
namespace NatRelay

namespace Allocation
variable {a : Allocation} {now : Time}

/-- No two channels have the same peer, nor the same number. -/
structure Paired (a : Allocation) : Prop extends Keyed a where
  peers : (a.channels.map (·.2.peer)).Nodup

namespace Paired

theorem prune (h : a.Paired) (w : Time) : (a.prune w).Paired :=
  ⟨h.toKeyed.prune w, h.peers.sublist (List.filter_sublist.map _)⟩

theorem permit (h : a.Paired) (ip : Ip) (until_ : Time) : (a.permit ip until_).Paired :=
  ⟨h.toKeyed.permit .., h.peers⟩

theorem bind (h : a.Paired) (number : UInt16) (peer : Endpoint) (until_ : Time) :
    (a.bind number peer until_).Paired :=
  ⟨h.toKeyed.bind .., nodup_peers_bind h.peers ..⟩

theorem extend (h : a.Paired) (number : UInt16) (until_ : Time) :
    (a.extend number until_).Paired := by
  refine ⟨h.toKeyed.extend .., ?_⟩
  rw [peers_extend]
  exact h.peers

theorem serve (h : a.Paired) (o : AllocationOptions) (op : Table.Op) (now : Time) :
    (a.serve o op now).2.Paired := by
  cases op with
  | create | find | delete | sweep | inboundRoute | removeUser => exact h
  | refresh => exact ⟨⟨h.permissions, h.channels⟩, h.peers⟩
  | createPermission =>
    rw [Allocation.serve]
    split
    · exact h
    · exact h.permit ..
  | bindChannel =>
    rw [Allocation.serve]
    split
    · exact h
    split
    · exact h
    · exact (h.bind ..).permit ..
  | permitSend =>
    rw [Allocation.serve]
    split
    · exact h.permit ..
    · exact h
  | channelPeer =>
    rw [Allocation.serve]
    split
    · exact (h.extend ..).permit ..
    · exact h

variable {peer : Endpoint} {number : UInt16}

theorem of_channelForPeer (h : a.Paired) (hfound : a.channelForPeer peer now = some number) :
    ∃ c, a.channels.lookup number = some c ∧ c.peer = peer ∧ now < c.expiresAt := by
  obtain ⟨e, he, rfl⟩ := Option.map_eq_some_iff.1 hfound
  have hactive := List.find?_some he
  obtain ⟨hpeer, hlive⟩ := of_decide_eq_true hactive
  exact ⟨e.2, Assoc.lookup_of_mem h.channels (List.mem_of_find?_eq_some he), hpeer, hlive⟩

/-- The active channel of a peer is the number that is actively bound to it. -/
theorem channelForPeer_eq_some (h : a.Paired) : a.channelForPeer peer now = some number ↔
    ∃ c, a.channels.lookup number = some c ∧ c.peer = peer ∧ now < c.expiresAt := by
  refine ⟨h.of_channelForPeer, ?_⟩
  rintro ⟨c, hc, hpeer, hlive⟩
  have hmem := Assoc.mem_of_lookup hc
  have hsome : (a.channelForPeer peer now).isSome := by
    rw [channelForPeer, Option.isSome_map, List.find?_isSome]
    exact ⟨_, hmem, decide_eq_true ⟨hpeer, hlive⟩⟩
  obtain ⟨number', hfound⟩ := Option.isSome_iff_exists.1 hsome
  -- The channel that is found has the same peer, so it is the same.
  obtain ⟨c', hc', hpeer', -⟩ := h.of_channelForPeer hfound
  have heq : (number', c') = (number, c) := List.inj_on_of_nodup_map h.peers
    (Assoc.mem_of_lookup hc') hmem (hpeer'.trans hpeer.symm)
  rw [hfound, (Prod.mk.inj heq).1]

end Paired

theorem path?_eq_channel {peer : Endpoint} {number : UInt16} :
    a.path? peer now = some (some number) ↔ a.channelForPeer peer now = some number := by
  rw [path?]
  cases a.channelForPeer peer now with
  | some number' => simp
  | none => simp

/-- A permitted peer gets through, on its channel or plainly, and plainly only if permitted. -/
theorem path?_of_isPermitted {peer : Endpoint} (h : a.isPermitted peer.ip now) :
    ∃ channel, a.path? peer now = some channel := by
  rw [path?]
  cases a.channelForPeer peer now with
  | some number => exact ⟨_, rfl⟩
  | none => exact ⟨_, if_pos h⟩

theorem isPermitted_of_path? {peer : Endpoint} (h : a.path? peer now = some none) :
    a.isPermitted peer.ip now := by
  rw [path?] at h
  split at h
  · cases h
  · simpa using h

end Allocation

namespace Table
variable {t : Table} {ft : FiveTuple} {now : Time}

/-- The channels of every allocation pair numbers with peers, at whatever times the operations
came. -/
theorem run_paired (c : t.Consistent) (h : t.entries = []) (ops : List (Op × Time)) :
    ∀ ft a, (t.run ops).2.entries.lookup ft = some a → a.Paired := by
  refine run_entries c ?_ (fun a w ha => ha.prune w) (fun o _ a ha => ha.serve ..) ?_
  · intro a hpermissions hchannels
    refine ⟨⟨?_, ?_⟩, ?_⟩ <;> simp [Assoc.keys, hpermissions, hchannels]
  · simp [h]

theorem channelPeer_isPath {number : UInt16} {relay peer : Endpoint} :
    (t.channelPeer ft number now).map (·.1) = some (relay, peer) ↔
      ∃ a c, t.find? ft now = some a ∧ a.channels.lookup number = some c ∧ now < c.expiresAt ∧
        a.relay = relay ∧ c.peer = peer := by
  rw [Option.map_eq_some_iff]
  constructor
  · rintro ⟨⟨⟨relay', peer'⟩, t'⟩, h, heq⟩
    obtain ⟨rfl, rfl⟩ := Prod.mk.inj heq
    obtain ⟨a, c, ha, hc, hlive, hrelay, hpeer, -⟩ := channelPeer_eq_some.1 h
    exact ⟨a, c, ha, hc, hlive, hrelay, hpeer⟩
  · rintro ⟨a, c, ha, hc, hlive, hrelay, hpeer⟩
    exact ⟨_, channelPeer_eq_some.2 ⟨a, c, ha, hc, hlive, hrelay, hpeer, rfl⟩, rfl⟩

theorem permitSend_isRelay {relay peer : Endpoint} :
    (t.permitSend ft peer now).map (·.1) = some relay ↔
      ∃ a, t.find? ft now = some a ∧ a.isPermitted peer.ip now ∧ a.relay = relay := by
  rw [Option.map_eq_some_iff]
  constructor
  · rintro ⟨⟨relay', t'⟩, h, rfl⟩
    obtain ⟨a, ha, hp, hrelay, -⟩ := permitSend_eq_some.1 h
    exact ⟨a, ha, hp, hrelay⟩
  · rintro ⟨a, ha, hp, hrelay⟩
    exact ⟨_, permitSend_eq_some.2 ⟨a, ha, hp, hrelay, rfl⟩, rfl⟩

/-- A channel leads to a peer just where the peer's packets lead to the channel. -/
theorem Consistent.channelPeer_iff_inboundRoute (c : t.Consistent)
    (hpaired : ∀ ft a, t.entries.lookup ft = some a → a.Paired) {number : UInt16}
    {relay peer : Endpoint} :
    (t.channelPeer ft number now).map (·.1) = some (relay, peer) ↔
      t.inboundRoute relay peer now = some ⟨ft, some number⟩ := by
  rw [channelPeer_isPath, c.inboundRoute_eq_some]
  refine exists_congr fun a => ?_
  constructor
  · rintro ⟨b, ha, hb, hlive, hrelay, hpeer⟩
    refine ⟨ha, hrelay, Allocation.path?_eq_channel.2 ?_⟩
    have ha := hpaired ft a (find?_eq_some.1 ha).1
    exact ha.channelForPeer_eq_some.2 ⟨b, hb, hpeer, hlive⟩
  · rintro ⟨ha, hrelay, hpath⟩
    have hpair := hpaired ft a (find?_eq_some.1 ha).1
    obtain ⟨b, hb, hpeer, hlive⟩ :=
      hpair.channelForPeer_eq_some.1 (Allocation.path?_eq_channel.1 hpath)
    exact ⟨b, ha, hb, hlive, hrelay, hpeer⟩

/-- In a reachable table, at any time: a channel leads out to a peer just where packets of the peer
lead in on that channel; who may send plainly to a peer hears from it, and who hears from it plainly
may send. What comes in goes to the one allocation that owns the relayed address, and that is
live. -/
theorem run_routes (options : AllocationOptions) (addresses : List Ip) (first last : UInt16)
    (ops : List (Op × Time)) (now : Time) :
    let t := (run { options, pool := .make addresses first last } ops).2
    (∀ ft number relay peer, (t.channelPeer ft number now).map (·.1) = some (relay, peer) ↔
      t.inboundRoute relay peer now = some ⟨ft, some number⟩) ∧
    (∀ ft relay peer, (t.permitSend ft peer now).map (·.1) = some relay →
      ∃ channel, t.inboundRoute relay peer now = some ⟨ft, channel⟩) ∧
    (∀ ft relay peer, t.inboundRoute relay peer now = some ⟨ft, none⟩ →
      (t.permitSend ft peer now).map (·.1) = some relay) ∧
    ∀ r relay peer, t.inboundRoute relay peer now = some r →
      ∃ a, t.find? r.fiveTuple now = some a ∧ a.relay = relay ∧
        ∀ ft b, t.entries.lookup ft = some b → b.relay = relay → ft = r.fiveTuple := by
  intro t
  have c₀ := consistent_empty options addresses first last
  have c : t.Consistent := (run_consistent c₀ ops).1
  have hpaired : ∀ ft a, t.entries.lookup ft = some a → a.Paired := run_paired c₀ rfl ops
  refine ⟨fun ft number relay peer => c.channelPeer_iff_inboundRoute hpaired, ?_, ?_, ?_⟩
  · intro ft relay peer h
    obtain ⟨a, ha, hp, hrelay⟩ := permitSend_isRelay.1 h
    obtain ⟨channel, hpath⟩ := Allocation.path?_of_isPermitted hp
    exact ⟨channel, c.inboundRoute_eq_some.2 ⟨a, ha, hrelay, hpath⟩⟩
  · intro ft relay peer h
    obtain ⟨a, ha, hrelay, hpath⟩ := c.inboundRoute_eq_some.1 h
    exact permitSend_isRelay.2 ⟨a, ha, Allocation.isPermitted_of_path? hpath, hrelay⟩
  · intro r relay peer h
    obtain ⟨a, ha, hrelay, -⟩ := c.inboundRoute_eq_some.1 h
    refine ⟨a, ha, hrelay, fun ft b hb hsame => ?_⟩
    have ha := Assoc.mem_of_lookup (find?_eq_some.1 ha).1
    exact congrArg Prod.fst (c.eq_of_relay_eq (Assoc.mem_of_lookup hb) ha (hsame.trans hrelay.symm))

end Table
end NatRelay
