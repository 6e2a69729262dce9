import NatRelay.Host.Router
import NatRelay.Service.Process

/-! The host of the service: its listening sockets, the sockets of relayed addresses, the mailbox
that events come in, and the requests that wait for a password. -/
namespace NatRelay

/-- Why no server comes up. -/
inductive HostError where
  | noInterfaces
  /-- Somebody else has the address. -/
  | addressInUse (addr : Endpoint)
  deriving DecidableEq

def HostError.message : HostError → String
  | noInterfaces => "Invalid configuration: no interfaces configured"
  | addressInUse addr =>
    s!"Network error: Failed to bind {addr.text}: Address already in use (os error 98)"

/-- A request that waits for a password. -/
structure Waiting where
  request : PendingRequest
  password? : Option String
  /-- When the wait ends. -/
  due : Time

structure Host where
  service : Service
  login : Login
  /-- Listening sockets in order. -/
  interfaces : List Interface
  router : Router
  mailbox : Mailbox
  /-- Bound on the requests that wait; further ones are dropped. -/
  maxPending : Nat := 1024
  waiting : List Waiting := []
  reconcileEvery : Duration := seconds 5
  reconcileAt : Time

namespace Host

/-- Bind one interface. An external port of zero becomes the listening one. -/
def bindInterface (n : Network) (i : Interface) : Option (Interface × Network) :=
  let listening := n.settled i.listening
  let external := if i.external.port = 0 then i.external.withPort listening.port else i.external
  (n.bind? listening).map fun n => (⟨listening, external⟩, n)

/-- Bind interfaces one by one. Those before the first that fails are returned with the fault. -/
def bindInterfaces (n : Network) : List Interface → List Interface × Except HostError Network
  | [] => ([], .ok n)
  | i :: is =>
    match bindInterface n i with
    | none => ([], .error (.addressInUse i.listening))
    | some (i, n) =>
      let (bound, result) := bindInterfaces n is
      (i :: bound, result)

/-- Bind all interfaces, of which there must be one. -/
def listen (n : Network) (interfaces : List Interface) :
    List Interface × Except HostError Network :=
  if interfaces.isEmpty then ([], .error .noInterfaces) else bindInterfaces n interfaces

/-- A host on interfaces that are bound. The first reconciliation is due at once. -/
def make (service : Service) (login : Login) (interfaces : List Interface) (eventCapacity : Nat)
    (now : Time) : Host :=
  { service, login, interfaces
    router := .make interfaces
    mailbox := .make eventCapacity
    reconcileAt := now }

/-- At least one request may wait. -/
def withMaxPending (h : Host) (limit : Nat) : Host := { h with maxPending := max 1 limit }

/-- An interval of zero is no choice. -/
def withReconcileEvery (h : Host) (period : Duration) : Host :=
  if period = 0 then h else { h with reconcileEvery := period }

/-- Where a packet to the client of an interface is sent from. -/
def listener? (h : Host) (listening : Endpoint) : Option Interface :=
  h.interfaces.find? (·.listening = listening)

/-- Send what the service answers to a datagram that came from `client`. -/
def deliver (h : Host) (n : Network) (client : Endpoint) : Response → Host × Network
  | .reply interface _ data => (h, n.post ⟨interface, client, data⟩)
  | .toPeer relay peer data =>
    let (isOpen, router, n) := h.router.openRelay Network.layer n relay
    let h := { h with router }
    match h.router.base? relay, isOpen with
    | some i, true => (h, n.post ⟨Router.localAddress i relay, peer, data⟩)
    | _, _ => (h, n)
  | .toClient _ interface target _ data => (h, n.post ⟨interface, target, data⟩)

/-- Take in the result of a service step. -/
def conclude (h : Host) (n : Network) (client : Endpoint)
    (o : Outcome (Except Stun.Error (Option Response))) : Host × Network :=
  let h := { h with service := o.service, mailbox := h.mailbox.postAll o.events }
  match o.answer with
  | .ok (some r) => h.deliver n client r
  | _ => (h, n)

/-- Go on with a request whose password is known or given up. -/
def resume (h : Host) (n : Network) (p : PendingRequest) (password? : Option String) (draw : Draw)
    (now : Time) : Host × Network :=
  h.conclude n p.addr (h.service.resume p password? draw now)

/-- Ask for the password of a request, and go on at once if it is at hand. -/
def ask (h : Host) (n : Network) (p : PendingRequest) (draw : Draw) (now : Time) : Host × Network :=
  let reply := h.login.ask p.addr p.username
  let answer := h.login.settle reply
  match reply with
  | .known _ | .dropped => h.resume n p answer.password? draw now
  | _ => ({ h with waiting := h.waiting ++ [⟨p, answer.password?, now + answer.elapsed⟩] }, n)

/-- A datagram on a listening socket. -/
def receive (h : Host) (n : Network) (i : Interface) (client : Endpoint) (data : Bytes)
    (draw : Draw) (now : Time) : Host × Network :=
  if Stun.peekClass data = some .request ∧ h.maxPending ≤ h.waiting.length then (h, n)
  else
    let o := h.service.receive i data client draw now
    match o.answer with
    | .done result =>
      h.conclude n client { answer := result, events := o.events, service := o.service }
    | .asks p =>
      let h := { h with service := o.service, mailbox := h.mailbox.postAll o.events }
      h.ask n p draw now

/-- A datagram on the socket of a relayed address. -/
def receivePeer (h : Host) (n : Network) (relay peer : Endpoint) (data : Bytes) (draw : Draw)
    (now : Time) : Host × Network :=
  match h.service.relayInbound relay peer data draw now with
  | some (.toClient relay interface client framing data) =>
    if (h.listener? interface).isSome then
      h.deliver n client (.toClient relay interface client framing data)
    else (h, n)
  | _ => (h, n)

/-- The relayed address that a socket stands behind. -/
def relayAt? (h : Host) (socket : Endpoint) : Option Endpoint :=
  h.router.relays.find? fun relay =>
    (h.router.base? relay).any fun i => Router.localAddress i relay = socket

/-- A datagram on any socket of the host. -/
def accept (h : Host) (n : Network) (socket : Endpoint) (p : Packet) (draw : Draw) (now : Time) :
    Host × Network :=
  match h.listener? socket, h.relayAt? socket with
  | some i, _ => h.receive n i p.source p.data draw now
  | none, some relay => h.receivePeer n relay p.source p.data draw now
  | none, none => (h, n)

/-- Follow the events in the mailbox. -/
def observe (h : Host) (n : Network) : Host × Network :=
  let (router, n) := h.mailbox.events.foldl
    (fun (router, n) e => router.follow Network.layer n e) (h.router, n)
  ({ h with router, mailbox := { h.mailbox with events := [] } }, n)

/-- Bring the sockets in line with the table if it is time; missed times count once. -/
def reconcile (h : Host) (n : Network) (now : Time) : Host × Network :=
  if now < h.reconcileAt then (h, n)
  else
    let (_, router, n) := h.router.reconcile Network.layer n h.service.table
    ({ h with router, reconcileAt := now + h.reconcileEvery }, n)

/-- Go on with the requests whose wait is over, each with a draw of its own. -/
def wake (h : Host) (n : Network) (draws : Nat → Draw) (now : Time) : Host × Network :=
  let (due, waiting) := h.waiting.partition (·.due ≤ now)
  due.zipIdx.foldl
    (fun (h, n) (w, k) => h.resume n w.request w.password? (draws k) now) ({ h with waiting }, n)

/-- What the passing of time brings. -/
def tick (h : Host) (n : Network) (draws : Nat → Draw) (now : Time) : Host × Network :=
  let (h, n) := h.wake n draws now
  let (h, n) := h.observe n
  h.reconcile n now

/-- The host tells itself of what the service removed. -/
def told {α : Type} (h : Host) (n : Network) (o : Outcome α) : Host × Network :=
  { h with service := o.service, mailbox := h.mailbox.postAll o.events }.observe n

/-- The sockets of the host. -/
def sockets (h : Host) : List Endpoint :=
  h.interfaces.map (·.listening) ++ h.router.relays.filterMap fun relay =>
    (h.router.base? relay).map fun i => Router.localAddress i relay

/-- The machine has not bound a socket of the host after all. The relayed address behind it is tried
again later. -/
def lose (h : Host) (n : Network) (socket : Endpoint) : Host × Network :=
  match h.relayAt? socket with
  | some relay =>
    let (router, n) := h.router.closeRelay Network.layer n relay
    ({ h with router }, n)
  | none => (h, n)

/-- Handle the packets for the host until no more arrive, each with a draw of its own. The last
argument bounds the rounds. -/
def settle (h : Host) (n : Network) (draws : Nat → Nat → Draw) (now : Time) : Nat → Host × Network
  | 0 => (h, n)
  | rounds + 1 =>
    match n.takeFor h.sockets with
    | ([], _) => (h, n)
    | (arrived, n) =>
      let (h, n) := arrived.zipIdx.foldl
        (fun (h, n) ((e, p), k) => h.accept n e p (draws rounds k) now) (h, n)
      let (h, n) := h.observe n
      h.settle n draws now rounds

/-- Rounds of packets that one run handles at most. -/
def maxRounds : Nat := 1000

/-- What the passing of time brings, and then the packets that have arrived. -/
def run (h : Host) (n : Network) (draws : Nat → Nat → Draw) (now : Time) : Host × Network :=
  let (h, n) := h.tick n (draws maxRounds) now
  h.settle n draws now maxRounds

end Host
end NatRelay
