import NatRelay.Host.Network
import NatRelay.Service.Basic

/-! The sockets behind relayed addresses. They are opened and closed as allocations come and go, and
reconciled with the table in between, because events may get lost. -/
namespace NatRelay

structure Router where
  /-- The interface of an external IP, whose listening IP the sockets are bound to. -/
  bases : Assoc Ip Interface
  /-- Relayed addresses with an open socket. -/
  relays : List Endpoint := []

namespace Router
variable {σ : Type}

/-- The first interface of every external IP counts. -/
def make (interfaces : List Interface) : Router :=
  { bases := interfaces.map fun i => (i.external.ip, i) }

def base? (r : Router) (relay : Endpoint) : Option Interface := r.bases.lookup relay.ip

/-- Where the socket of a relayed address is bound. -/
def localAddress (i : Interface) (relay : Endpoint) : Endpoint :=
  .ofIp i.listening.ip relay.port

/-- Open the socket of a relayed address unless it is open; tells whether it is open now. -/
def openRelay (os : SocketLayer σ) (r : Router) (s : σ) (relay : Endpoint) : Bool × Router × σ :=
  if r.relays.contains relay then (true, r, s)
  else
    match r.base? relay with
    | none => (false, r, s)
    | some i =>
      match os.bind s (localAddress i relay) with
      | none => (false, r, s)
      | some s => (true, { r with relays := r.relays ++ [relay] }, s)

/-- Close the socket of a relayed address. -/
def closeRelay (os : SocketLayer σ) (r : Router) (s : σ) (relay : Endpoint) : Router × σ :=
  match r.relays.contains relay, r.base? relay with
  | true, some i =>
    ({ r with relays := r.relays.filter (· ≠ relay) }, os.close s (localAddress i relay))
  | _, _ => ({ r with relays := r.relays.filter (· ≠ relay) }, s)

/-- Follow an event. -/
def follow (os : SocketLayer σ) (r : Router) (s : σ) : Event → Router × σ
  | .allocationCreated _ _ _ relay => (openRelay os r s relay).2
  | .allocationAborted _ _ relay => closeRelay os r s relay
  | _ => (r, s)

def closeAll (os : SocketLayer σ) (r : Router) (s : σ) (relays : List Endpoint) : Router × σ :=
  relays.foldl (fun (r, s) relay => closeRelay os r s relay) (r, s)

/-- Open the sockets that are closed; their number comes first. -/
def openAll (os : SocketLayer σ) (r : Router) (s : σ) : List Endpoint → Nat × Router × σ
  | [] => (0, r, s)
  | relay :: relays =>
    let missing := !r.relays.contains relay
    let (isOpen, r, s) := openRelay os r s relay
    let (opened, r, s) := openAll os r s relays
    (if missing && isOpen then opened + 1 else opened, r, s)

/-- Close the sockets without an allocation and open those that are missing; tells how many of
either. -/
def reconcile (os : SocketLayer σ) (r : Router) (s : σ) (t : Table) : (Nat × Nat) × Router × σ :=
  let stale := r.relays.filter (!t.hasRelay ·)
  let (r, s) := closeAll os r s stale
  let (opened, r, s) := openAll os r s t.relays.keys
  ((stale.length, opened), r, s)

end Router
end NatRelay
