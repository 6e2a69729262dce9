import NatRelay.Assoc
import NatRelay.Net.EndpointText
import NatRelay.Stun.Attribute

/-! Allocations: a relayed transport address leased to a client for a time, with the peers it may
exchange data with. Times and durations are in milliseconds; time is always given from outside. -/
namespace NatRelay

/-- A point in time. -/
abbrev Time := Nat

/-- A length of time. -/
abbrev Duration := Nat

/-- A duration given in seconds. -/
def seconds (n : Nat) : Duration := n * 1000

open Stun (Transport TransactionId)

/-- Client address, server address and protocol. -/
structure FiveTuple where
  client : Endpoint
  server : Endpoint
  transport : Transport
  deriving DecidableEq

/-- The five-tuple of a client that talks UDP. -/
def FiveTuple.udp (client server : Endpoint) : FiveTuple := ⟨client, server, .udp⟩

/-- A peer that a channel number stands for. -/
structure Channel where
  peer : Endpoint
  expiresAt : Time
  deriving DecidableEq

/-- A channel number or a peer stays tied to an expired binding for five minutes. -/
def channelGuard : Duration := seconds 300

/-- Whether a binding, active or expired, still ties its number and its peer. -/
def Channel.isGuarded (c : Channel) (now : Time) : Bool := c.expiresAt + channelGuard > now

structure Allocation where
  fiveTuple : FiveTuple
  /-- The user that created it. -/
  username : String
  /-- The leased address. -/
  relay : Endpoint
  /-- Transaction ID of the request that created it. -/
  tid : TransactionId
  lifetime : Duration
  createdAt : Time
  expiresAt : Time
  /-- Peer IPs, and when each permission ends. -/
  permissions : Assoc Ip Time := []
  /-- Channel numbers and their bindings. -/
  channels : Assoc UInt16 Channel := []
  deriving DecidableEq

namespace Allocation

def isExpired (a : Allocation) (now : Time) : Bool := now ≥ a.expiresAt

/-- Time left; none once expired. -/
def remaining (a : Allocation) (now : Time) : Duration := a.expiresAt - now

/-- Whether the peer IP holds a permission that has not ended. -/
def isPermitted (a : Allocation) (peer : Ip) (now : Time) : Bool :=
  (a.permissions.lookup peer).any (· > now)

/-- The active channel of a peer. -/
def channelForPeer (a : Allocation) (peer : Endpoint) (now : Time) : Option UInt16 :=
  (a.channels.find? fun (_, c) => c.peer = peer ∧ c.expiresAt > now).map (·.1)

def family (a : Allocation) : Family := a.relay.family

/-- Grant a permission until the given time; one that ends later stays. -/
def permit (a : Allocation) (peer : Ip) (until_ : Time) : Allocation :=
  let ends := match a.permissions.lookup peer with
    | some old => max old until_
    | none => until_
  { a with permissions := a.permissions.put peer ends }

/-- Drop ended permissions, and bindings that tie nothing any more. -/
def prune (a : Allocation) (now : Time) : Allocation :=
  { a with
    permissions := a.permissions.filter fun (_, ends) => ends > now
    channels := a.channels.filter fun (_, c) => c.isGuarded now }

end Allocation

/-- Lifetimes and limits. -/
structure AllocationOptions where
  defaultLifetime : Duration := seconds 600
  maxLifetime : Duration := seconds 3600
  permissionLifetime : Duration := seconds 300
  channelLifetime : Duration := seconds 600
  /-- Bound on all allocations; zero is no bound. -/
  maxAllocations : Nat := 0
  /-- Bound on the allocations of one user; zero is no bound. -/
  userQuota : Nat := 0

/-- The lifetime for a requested number of seconds: absent is the default, zero is zero, and
anything else is held between the default and the maximum. -/
def AllocationOptions.desiredLifetime (o : AllocationOptions) : Option UInt32 → Duration
  | none => o.defaultLifetime
  | some n => if n = 0 then 0 else max (min (seconds n.toNat) o.maxLifetime) o.defaultLifetime

/-- Why the table refuses. -/
inductive TableError where
  | notFound (client : Endpoint)
  | alreadyExists (client : Endpoint)
  | capacity
  | quota (username : String)
  | channelConflict (number : UInt16)
  | familyMismatch (peer : Endpoint)
  deriving DecidableEq

/-- At least four hexadecimal digits. -/
def TableError.hex4 (n : UInt16) : String :=
  String.ofList ((Numeral.digits 16 4 n.toNat).map Nat.digitChar)

def TableError.message : TableError → String
  | notFound client => "Allocation not found: " ++ client.text
  | alreadyExists client => "Allocation already exists: " ++ client.text
  | capacity => "Insufficient capacity"
  | quota username => "Allocation quota reached: " ++ username
  | channelConflict number => "Channel conflict: 0x" ++ hex4 number
  | familyMismatch peer => "Peer address family mismatch: " ++ peer.text

end NatRelay
