import NatRelay.Proofs.Service.Feedback
import NatRelay.Proofs.Stun.Sealed

/-! Data across the relay. What a peer sends to a relayed address is wrapped and reaches the client
that owns it, if the packet has room (`relayInbound_isSome`), and whoever reads the packet finds the
peer and the bytes that it sent (`delivers_of_relayInbound`). What the client sends to a peer leaves
as the bytes that it wrapped, where a permission or a channel leads to the peer, and goes nowhere
else (`carries_of_indication`, `carries_of_frame`). Main statement: `run_relays`. -/
namespace NatRelay
open Stun (Attribute ChannelData Datagram Message Received)

/-! ### Room -/

/-- Whether the packet that takes data from a peer to the client has room for it: on a channel the
data alone counts, else the attribute with the address of the peer as well. -/
def Route.HasRoom (r : Route) (peer : Endpoint) (payload : Bytes) : Prop :=
  match r.channel with
  | some _ => payload.length ≤ 65535
  | none =>
    (match peer.family with
      | .v4 => 12
      | .v6 => 24) + (4 + Bytes.paddedLength payload.length) ≤ 65535

namespace Service
variable {s : Service} {relay peer : Endpoint} {payload : Bytes} {draw : Draw} {now : Time}

/-- The indication that tells a client of data from a peer. -/
def indication (draw : Draw) (peer : Endpoint) (payload : Bytes) : Message :=
  ⟨.data, .indication, draw.tid, [.xorPeerAddress peer, .data payload]⟩

theorem length_peerValue (tid : Stun.TransactionId) (peer : Endpoint) :
    4 + Bytes.paddedLength (Attribute.value tid (.xorPeerAddress peer)).length =
      match peer.family with
      | .v4 => 12
      | .v6 => 24 := by
  cases peer with
  | v4 ip port => simp [Attribute.value, Stun.addressValue, Stun.plainValue, Stun.obfuscate,
      Endpoint.ip, Endpoint.family, Ip.bytes, Ip.family, Bytes.paddedLength]
  | v6 ip port flow zone => simp [Attribute.value, Stun.addressValue, Stun.plainValue,
      Stun.obfuscate, Endpoint.ip, Endpoint.family, Ip.bytes, Ip.family, Bytes.paddedLength]

theorem size_indication (draw : Draw) (peer : Endpoint) (payload : Bytes) :
    (indication draw peer payload).size none false =
      (match peer.family with
        | .v4 => 12
        | .v6 => 24) + (4 + Bytes.paddedLength payload.length) := by
  rw [← length_peerValue draw.tid peer]
  simp [Message.size, Message.unprotected, indication, Attribute.isProtection, Attribute.value,
    Stun.recordsLength]

/-- The packet can be written just if it has room. -/
theorem wrap_isOk (r : Route) (peer : Endpoint) (payload : Bytes) (draw : Draw) :
    (∃ data, (wrap r.channel peer payload draw).2 = .ok data) ↔ r.HasRoom peer payload := by
  rw [Route.HasRoom]
  cases r.channel with
  | some number =>
    change (∃ data, Stun.record number payload = .ok data) ↔ _
    rw [Stun.record_eq]
    split <;> simp [*]
  | none =>
    have hroom := (indication draw peer payload).encode_isOk none false
    rwa [size_indication] at hroom

theorem relayInbound_eq_some {response : Response} :
    s.relayInbound relay peer payload draw now = some response ↔
      ∃ r framing data, s.table.inboundRoute relay peer now = some r ∧
        wrap r.channel peer payload draw = (framing, .ok data) ∧
        response = .toClient relay r.fiveTuple.server r.fiveTuple.client framing data := by
  rw [relayInbound]
  cases s.table.inboundRoute relay peer now with
  | none => simp
  | some r =>
    simp only [Option.some.injEq, exists_and_left, exists_eq_left']
    split
    · rename_i framing data hwrap
      simp [hwrap, eq_comm]
    · rename_i framing e hwrap
      simp [hwrap]

/-- Data from a peer reaches a client just along a route and in a packet with room. -/
theorem relayInbound_isSome : (s.relayInbound relay peer payload draw now).isSome ↔
    ∃ r, s.table.inboundRoute relay peer now = some r ∧ r.HasRoom peer payload := by
  rw [Option.isSome_iff_exists]
  constructor
  · rintro ⟨response, h⟩
    obtain ⟨r, framing, data, hroute, hwrap, -⟩ := relayInbound_eq_some.1 h
    exact ⟨r, hroute, (wrap_isOk r peer payload draw).1 ⟨data, congrArg Prod.snd hwrap⟩⟩
  · rintro ⟨r, hroute, hroom⟩
    obtain ⟨data, hdata⟩ := (wrap_isOk r peer payload draw).2 hroom
    exact ⟨_, relayInbound_eq_some.2 ⟨r, _, data, hroute, Prod.ext rfl hdata, rfl⟩⟩

/-! ### In -/

/-- The packet goes from the interface to the client of the route, and it holds the data: on the
channel of the route, or beside the address of the peer. -/
inductive Delivers (relay peer : Endpoint) (payload : Bytes) (draw : Draw) (r : Route) :
    Response → Prop
  | onChannel {number : UInt16} {data : Bytes} (hchannel : r.channel = some number)
    (hread : Datagram.decode data = .ok (.channelData ⟨number, payload⟩)) :
    Delivers relay peer payload draw r
      (.toClient relay r.fiveTuple.server r.fiveTuple.client .channelData data)
  | plainly {received : Received} {data : Bytes} (hchannel : r.channel = none)
    (hread : Datagram.decode data = .ok (.message received))
    (hmessage : received.message = indication draw peer payload) :
    Delivers relay peer payload draw r
      (.toClient relay r.fiveTuple.server r.fiveTuple.client .dataIndication data)

/-- The indication is read as it was written, but for what an address attribute does not carry. -/
theorem read_indication {data : Bytes}
    (h : (indication draw peer payload).encode none false = .ok data) :
    ∃ received, Datagram.decode data = .ok (.message received) ∧
      received.message = indication draw (.ofIp peer.ip peer.port) payload := by
  have hbare : (indication draw peer payload).bare =
      indication draw (.ofIp peer.ip peer.port) payload := rfl
  have hrep : ∀ a ∈ (indication draw (.ofIp peer.ip peer.port) payload).attributes,
      a.isProtection = false → a.Representable := by
    simp only [indication, List.forall_mem_cons]
    exact ⟨fun _ => Endpoint.isBare_ofIp .., fun _ => trivial, List.forall_mem_nil _⟩
  rw [← Message.encode_bare, hbare] at h
  exact ⟨_, Message.datagram_of_encode h (Message.decode_of_encode_plain hrep h), rfl⟩

/-- The reader finds what was sent, and of the peer its IP and port. -/
theorem delivers_of_relayInbound (c : s.table.Consistent) (hadmissible : s.table.Admissible)
    {response : Response} (h : s.relayInbound relay peer payload draw now = some response) :
    ∃ r a, s.table.inboundRoute relay peer now = some r ∧
      s.table.find? r.fiveTuple now = some a ∧ a.relay = relay ∧
      Delivers relay (.ofIp peer.ip peer.port) payload draw r response := by
  obtain ⟨r, framing, data, hroute, hwrap, rfl⟩ := relayInbound_eq_some.1 h
  obtain ⟨a, ha, hrelay, hpath⟩ := c.inboundRoute_eq_some.1 hroute
  refine ⟨r, a, hroute, ha, hrelay, ?_⟩
  cases hchannel : r.channel with
  | some number =>
    rw [hchannel] at hwrap hpath
    obtain ⟨rfl, hdata⟩ := Prod.mk.inj hwrap
    have hnumber := (hadmissible _ a (Table.find?_eq_some.1 ha).1).of_path? hpath
    have hread : Datagram.decode data = .ok (.channelData ⟨number, payload⟩) :=
      ChannelData.decode_of_encode hdata (Stun.div_of_isChannelNumber hnumber)
    exact .onChannel hchannel hread
  | none =>
    rw [hchannel] at hwrap
    obtain ⟨rfl, hdata⟩ := Prod.mk.inj hwrap
    obtain ⟨received, hread, hmessage⟩ := read_indication hdata
    exact .plainly hchannel hread hmessage

end Service

/-! ### Out -/

/-- How a client says where its data is to go: to a peer, or on a channel. -/
inductive Way where
  | peer (e : Endpoint)
  | channel (number : UInt16)

/-- Where the way leads that a client names: from its relayed address to a permitted peer, or to the
peer of an active channel. -/
inductive Table.Path (t : Table) (ft : FiveTuple) (now : Time) : Way → Endpoint → Endpoint → Prop
  | plain {a : Allocation} {peer : Endpoint} (ha : t.find? ft now = some a)
    (hp : a.isPermitted peer.ip now) : Path t ft now (.peer peer) a.relay peer
  | channel {a : Allocation} {number : UInt16} {c : Channel} (ha : t.find? ft now = some a)
    (hc : a.channels.lookup number = some c) (hlive : now < c.expiresAt) :
    Path t ft now (.channel number) a.relay c.peer

/-- Bytes in which a client wrote data and where it is to go: a Send indication that can be read, or
a frame. -/
inductive Wrapped : Way → Bytes → Bytes → Prop
  | indication {m : Message} {peer : Endpoint} {payload bytes : Bytes} {key? : Option Stun.Key}
    {fingerprint : Bool} (hmethod : m.method = .send) (hcls : m.cls = .indication)
    (hpeer : m.peerAddresses.head? = some peer) (hdata : m.data = some payload)
    (hrep : ∀ a ∈ m.attributes, a.isProtection = false → a.bare.Representable)
    (h : m.encode key? fingerprint = .ok bytes) :
    Wrapped (.peer (.ofIp peer.ip peer.port)) payload bytes
  | frame {number : UInt16} {payload bytes : Bytes}
    (h : ChannelData.encode ⟨number, payload⟩ = .ok bytes) :
    Wrapped (.channel number) payload bytes

/-- The least of Send indications is one that can be read. -/
theorem wrapped_send {tid : Stun.TransactionId} {peer : Endpoint} {payload bytes : Bytes}
    {key? : Option Stun.Key} {fingerprint : Bool}
    (h : (⟨.send, .indication, tid, [.xorPeerAddress peer, .data payload]⟩ : Message).encode key?
      fingerprint = .ok bytes) : Wrapped (.peer (.ofIp peer.ip peer.port)) payload bytes := by
  refine .indication rfl rfl rfl rfl ?_ h
  simp only [List.forall_mem_cons]
  exact ⟨fun _ => Endpoint.isBare_ofIp .., fun _ => trivial, List.forall_mem_nil _⟩

namespace Service
variable {s : Service} {i : Interface} {addr : Endpoint} {payload bytes : Bytes} {now : Time}
  {draw draw' : Draw} {login : Login}

/-- The data goes where the way leads, and if it leads nowhere, nothing goes out. -/
structure Carries (s : Service) (ft : FiveTuple) (now : Time) (way : Way) (payload : Bytes)
    (o : Outcome (Except Stun.Error (Option Response))) : Prop where
  sent : ∀ relay peer, s.table.Path ft now way relay peer →
    o.answer = .ok (some (.toPeer relay peer payload))
  silent : (∀ relay peer, ¬ s.table.Path ft now way relay peer) → s.Silent o

/-- A Send indication that is read sends its data under a permission, or it is passed over. -/
theorem carries_of_indication {r : Received} {peer : Endpoint}
    (hdecoded : Datagram.decode bytes = .ok (.message r)) (hcls : r.message.cls = .indication)
    (hmethod : r.message.method = .send) (hpeer : r.message.peerAddresses.head? = some peer)
    (hdata : r.message.data = some payload) :
    s.Carries (.udp addr i.listening) now (.peer peer) payload
      (s.process login i bytes addr draw draw' now) := by
  have hprocess : s.process login i bytes addr draw draw' now =
      { answer := .ok (s.sendIndication i r.message addr now).1
        service := (s.sendIndication i r.message addr now).2 } := by
    simp only [process, receive, hdecoded, hcls]
  rw [hprocess, sendIndication, hmethod, hpeer, hdata]
  constructor
  · intro relay target hpath
    cases hpath with
    | plain ha hp =>
      dsimp only
      rw [Table.permitSend_eq_some.2 ⟨_, ha, hp, rfl, rfl⟩]
  · intro hnone
    have hdenied : s.table.permitSend (.udp addr i.listening) peer now = none := by
      rw [Option.eq_none_iff_forall_ne_some]
      rintro ⟨relay, t'⟩ hsend
      obtain ⟨a, ha, hp, -⟩ := Table.permitSend_eq_some.1 hsend
      exact hnone _ _ (.plain ha hp)
    dsimp only
    rw [hdenied]
    exact s.silent_none

/-- A frame sends its data on the channel of its number, or it is passed over. -/
theorem carries_of_frame {c : ChannelData}
    (hdecoded : Datagram.decode bytes = .ok (.channelData c)) :
    s.Carries (.udp addr i.listening) now (.channel c.number) c.data
      (s.process login i bytes addr draw draw' now) := by
  have hprocess : s.process login i bytes addr draw draw' now =
      { answer := .ok (s.sendChannelData i c addr now).1
        service := (s.sendChannelData i c addr now).2 } := by
    simp only [process, receive, hdecoded]
  rw [hprocess, sendChannelData]
  constructor
  · intro relay target hpath
    cases hpath with
    | channel ha hc hlive =>
      rw [Table.channelPeer_eq_some.2 ⟨_, _, ha, hc, hlive, rfl, rfl, rfl⟩]
  · intro hnone
    have hdenied : s.table.channelPeer (.udp addr i.listening) c.number now = none := by
      rw [Option.eq_none_iff_forall_ne_some]
      rintro ⟨⟨relay, peer⟩, t'⟩ hsend
      obtain ⟨a, b, ha, hb, hlive, -⟩ := Table.channelPeer_eq_some.1 hsend
      exact hnone _ _ (.channel ha hb hlive)
    rw [hdenied]
    exact s.silent_none

/-- What cannot be read carries nothing. No channel has the number of a frame that cannot. -/
theorem carries_of_unreadable (hadmissible : s.table.Admissible) {number : UInt16}
    {e : Stun.Error} (hdecoded : Datagram.decode bytes = .error e)
    (hnumber : number.toNat / 0x4000 ≠ 1) :
    s.Carries (.udp addr i.listening) now (.channel number) payload
      (s.process login i bytes addr draw draw' now) := by
  constructor
  · intro relay target hpath
    cases hpath with
    | channel ha hc _ =>
      have hallowed := ((hadmissible _ _ (Table.find?_eq_some.1 ha).1).of_lookup hc).1
      exact absurd (Stun.div_of_isChannelNumber hallowed) hnumber
  · intro _
    rw [process_of_malformed login draw' hdecoded]
    exact s.silent_error e

theorem carries_of_wrapped (hadmissible : s.table.Admissible) {way : Way}
    (h : Wrapped way payload bytes) :
    s.Carries (.udp addr i.listening) now way payload
      (s.process login i bytes addr draw draw' now) := by
  cases h with
  | indication hmethod hcls hpeer hdata hrep h =>
    obtain ⟨r, hdecoded, hseals⟩ := Message.decode_bare hrep h
    refine carries_of_indication hdecoded (hseals.cls.trans hcls) (hseals.method.trans hmethod) ?_
      ?_
    · rw [hseals.peerAddresses_eq, Message.peerAddresses_bare, List.head?_map, hpeer]
      rfl
    · rw [hseals.data_eq, Message.data_bare, hdata]
  | frame h =>
    have hdecoded := ChannelData.decode_encoded h
    split at hdecoded
    · exact carries_of_frame hdecoded
    · rename_i hnumber
      exact carries_of_unreadable hadmissible hdecoded hnumber

/-- In every reachable state, at any time: data from a peer reaches the client just if the table
routes it and the packet has room. The packet goes from the interface to the client that owns the
relayed address, and holds the channel of the peer or its address, and the very data. What a client
wraps for a peer leaves as it was for the peer of a live permission or channel, and without one
nothing leaves. -/
theorem run_relays (o : ServiceOptions) (ops : List (Op × Time)) (now : Time) :
    let s := ((make o).run ops).service
    (∀ relay peer payload draw,
      ((s.relayInbound relay peer payload draw now).isSome ↔
        ∃ r, s.table.inboundRoute relay peer now = some r ∧ r.HasRoom peer payload) ∧
      ∀ response, s.relayInbound relay peer payload draw now = some response →
        ∃ r a, s.table.inboundRoute relay peer now = some r ∧
          s.table.find? r.fiveTuple now = some a ∧ a.relay = relay ∧
          Delivers relay (.ofIp peer.ip peer.port) payload draw r response ∧
          (peer.flow = 0 ∧ peer.zone = 0 → Delivers relay peer payload draw r response)) ∧
    ∀ login i addr draw draw' way payload bytes, Wrapped way payload bytes →
      s.Carries (.udp addr i.listening) now way payload
        (s.process login i bytes addr draw draw' now) := by
  intro s
  have hleads := (make o).run_leads ops
  have c : s.table.Consistent := hleads.consistent (make_consistent o)
  have hempty : (make o).table.Admissible := by simp [Table.Admissible, make]
  have hadmissible : s.table.Admissible := hleads.admissible (make_consistent o) hempty
  refine ⟨fun relay peer payload draw => ⟨relayInbound_isSome, fun response h => ?_⟩, ?_⟩
  · obtain ⟨r, a, hroute, ha, hrelay, hdelivers⟩ := delivers_of_relayInbound c hadmissible h
    refine ⟨r, a, hroute, ha, hrelay, hdelivers, fun hbare => ?_⟩
    rwa [Endpoint.ofIp_ip_port.2 hbare] at hdelivers
  · intro login i addr draw draw' way payload bytes hwrapped
    exact carries_of_wrapped hadmissible hwrapped

end Service
end NatRelay
