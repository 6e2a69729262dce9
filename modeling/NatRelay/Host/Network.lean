import NatRelay.Net.Endpoint

/-! UDP sockets in memory. A network keeps the addresses with a socket and the packets on their way;
one that carries nothing still lets sockets be bound. -/
namespace NatRelay

/-- How a machine is asked for sockets: binding may be refused. -/
structure SocketLayer (σ : Type) where
  bind : σ → Endpoint → Option σ
  close : σ → Endpoint → σ

/-- A datagram and its way. -/
structure Packet where
  source : Endpoint
  target : Endpoint
  data : Bytes
  deriving DecidableEq

/-- Why a packet is not sent. -/
inductive SendError where
  /-- The network carries nothing. -/
  | unreachable
  /-- The data do not fit a datagram. -/
  | tooLong
  deriving DecidableEq

structure Network where
  sockets : List Endpoint := []
  /-- Whether packets are carried at all. -/
  carries : Bool := true
  /-- Packets on their way, oldest first. -/
  inFlight : List Packet := []

namespace Network

/-- Two sockets of one port cannot both be bound if one of them takes packets for the other. -/
def conflict (a b : Endpoint) : Bool :=
  a.port = b.port && a.family = b.family &&
    (a.ip = b.ip || a.ip.isUnspecified || b.ip.isUnspecified)

def isBound (n : Network) (e : Endpoint) : Bool := n.sockets.contains e

/-- Bind a socket to an address that nobody has. -/
def bind? (n : Network) (e : Endpoint) : Option Network :=
  if n.sockets.any (conflict e) then none else some { n with sockets := n.sockets ++ [e] }

/-- The first of the ports for passing use that an address is free at. -/
def freePort (n : Network) (e : Endpoint) : Endpoint :=
  (((List.range 28232).map fun k => e.withPort (UInt16.ofNat (32768 + k))).find? fun e =>
    !n.sockets.any (conflict e)).getD e

/-- The address that a socket gets; port zero stands for any free port. -/
def settled (n : Network) (e : Endpoint) : Endpoint := if e.port = 0 then n.freePort e else e

def close (n : Network) (e : Endpoint) : Network :=
  { n with sockets := n.sockets.filter (· ≠ e) }

def layer : SocketLayer Network := ⟨bind?, close⟩

/-- Greatest number of bytes in a datagram. -/
def maxData : Nat := 65507

/-- Send a packet. Nobody learns whether there is a socket at its target. -/
def send (n : Network) (p : Packet) : Except SendError Network :=
  if !n.carries then .error .unreachable
  else if p.data.length > maxData then .error .tooLong
  else .ok { n with inFlight := n.inFlight ++ [p] }

/-- Send a packet, whatever comes of it. -/
def post (n : Network) (p : Packet) : Network :=
  match n.send p with
  | .ok n => n
  | .error _ => n

/-- The socket that takes packets for an address. -/
def receiver? (n : Network) (target : Endpoint) : Option Endpoint :=
  (n.sockets.find? (· = target)).or (n.sockets.find? (conflict target))

/-- The packets that sockets of a list are to receive, and the network without them. -/
def takeFor (n : Network) (sockets : List Endpoint) : List (Endpoint × Packet) × Network :=
  let mine (p : Packet) := (n.receiver? p.target).filter sockets.contains
  (n.inFlight.filterMap fun p => (mine p).map fun e => (e, p),
    { n with inFlight := n.inFlight.filter fun p => (mine p).isNone })

end Network
end NatRelay
