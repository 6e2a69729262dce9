import NatRelay.Service.Authentication

/-! What the service does with a datagram. A request that needs a password stops until it is
there, and goes on at a later time. -/
namespace NatRelay
open Stun (ChannelData Datagram Message Received)

/-- How far a datagram got. -/
inductive Progress where
  /-- Dealt with: nothing to send, a packet, or a fault. -/
  | done (result : Except Stun.Error (Option Response))
  /-- The password of a user is needed. -/
  | asks (request : PendingRequest)

namespace Service

/-- Put a verdict into bytes. -/
def reply (s : Service) (m : Message) (i : Interface) (v : Verdict) :
    Except Stun.Error (Option Response) :=
  some <$> v.respond m s.software i.listening none

/-- Finish with a verdict. -/
def conclude (s : Service) (m : Message) (i : Interface) (v : Verdict) (events : List Event) :
    Outcome Progress :=
  { answer := .done (s.reply m i v), events, service := s }

/-- Where the client is seen to be. -/
def observed (i : Interface) (addr : Endpoint) : Verdict :=
  .success [.xorMappedAddress addr, .mappedAddress addr, .responseOrigin i.external] none

/-- A request, up to the point where a password is needed. -/
def receiveRequest (s : Service) (i : Interface) (r : Received) (addr : Endpoint) (draw : Draw)
    (now : Time) : Outcome Progress :=
  let m := r.message
  if m.unknownRequired ≠ [] then
    s.conclude m i (.refusal .unknownAttribute [.unknownAttributes m.unknownRequired]) []
  else
    match m.method with
    | .binding => s.conclude m i (observed i addr) [.bindingObserved addr]
    | .send | .data => s.conclude m i (.refuse .badRequest) []
    | _ =>
      match s.identify m addr draw.nonce now with
      | .rejected v s => s.conclude m i v []
      | .named username realm =>
        { answer := .asks ⟨m, r.wire, addr, i, username, realm⟩
          events := [Login.announcement addr username]
          service := s }

/-- Data that a client sends under a permission. -/
def sendIndication (s : Service) (i : Interface) (m : Message) (addr : Endpoint) (now : Time) :
    Option Response × Service :=
  match m.method, m.peerAddresses.head?, m.data with
  | .send, some peer, some data =>
    match s.table.permitSend (.udp addr i.listening) peer now with
    | some (relay, table) => (some (.toPeer relay peer data), { s with table })
    | none => (none, s)
  | _, _, _ => (none, s)

/-- Data that a client sends on a channel. -/
def sendChannelData (s : Service) (i : Interface) (c : ChannelData) (addr : Endpoint)
    (now : Time) : Option Response × Service :=
  match s.table.channelPeer (.udp addr i.listening) c.number now with
  | some ((relay, peer), table) => (some (.toPeer relay peer c.data), { s with table })
  | none => (none, s)

/-- A datagram from a client. Indications and channel data are never answered, and responses are
passed over. -/
def receive (s : Service) (i : Interface) (bytes : Bytes) (addr : Endpoint) (draw : Draw)
    (now : Time) : Outcome Progress :=
  let relayed := fun ((response?, s) : Option Response × Service) =>
    ({ answer := .done (.ok response?), service := s } : Outcome Progress)
  match Datagram.decode bytes with
  | .error e => { answer := .done (.error e), service := s }
  | .ok (.channelData c) => relayed (s.sendChannelData i c addr now)
  | .ok (.message r) =>
    match r.message.cls with
    | .request => s.receiveRequest i r addr draw now
    | .indication => relayed (s.sendIndication i r.message addr now)
    | .success | .error => { answer := .done (.ok none), service := s }

/-- Go on with a request once the lookup has ended. -/
def resume (s : Service) (p : PendingRequest) (password? : Option String) (draw : Draw)
    (now : Time) : Outcome (Except Stun.Error (Option Response)) :=
  match s.authenticate p password? draw.nonce now with
  | .failed e => { answer := .error e, service := s }
  | .rejected v s => { answer := s.reply p.message p.interface v, service := s }
  | .accepted key =>
    let request : Request := ⟨p.message, p.addr, p.interface, p.username⟩
    let d := request.decide s.table draw.portOffset now
    { answer := some <$> d.verdict.respond p.message s.software p.interface.listening (some key)
      events := d.events
      service := { s with table := d.table } }

/-- A datagram from a client, from start to end. A lookup takes the time that the host needs; the
second draw serves the part behind it. -/
def process (s : Service) (login : Login) (i : Interface) (bytes : Bytes) (addr : Endpoint)
    (draw draw' : Draw) (now : Time) : Outcome (Except Stun.Error (Option Response)) :=
  let first := s.receive i bytes addr draw now
  match first.answer with
  | .done result => { answer := result, events := first.events, service := first.service }
  | .asks p =>
    let found := login.find addr p.username
    let second := first.service.resume p found.password? draw' (now + found.elapsed)
    { second with events := first.events ++ second.events }

/-- The packet that takes data from a peer to the client: a frame on the peer's channel, else a Data
indication. -/
def wrap (channel? : Option UInt16) (peer : Endpoint) (payload : Bytes) (draw : Draw) :
    Framing × Except Stun.Error Bytes :=
  match channel? with
  | some number => (.channelData, ChannelData.encode ⟨number, payload⟩)
  | none =>
    let indication : Message :=
      ⟨.data, .indication, draw.tid, [.xorPeerAddress peer, .data payload]⟩
    (.dataIndication, indication.encode none false)

/-- What becomes of data that arrived on a relayed address. What does not fit a packet is
dropped. -/
def relayInbound (s : Service) (relay peer : Endpoint) (payload : Bytes) (draw : Draw)
    (now : Time) : Option Response :=
  match s.table.inboundRoute relay peer now with
  | none => none
  | some route =>
    match wrap route.channel peer payload draw with
    | (framing, .ok data) =>
      some (.toClient relay route.fiveTuple.server route.fiveTuple.client framing data)
    | (_, .error _) => none

end Service
end NatRelay
