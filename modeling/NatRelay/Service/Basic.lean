import NatRelay.Login
import NatRelay.Nonce
import NatRelay.Service.Decision

/-! The relay service: the allocation table and the nonces, with the texts that clients see. -/
namespace NatRelay

structure ServiceOptions where
  realm : String := "localhost"
  software : String := "turn-relay"
  allocation : AllocationOptions := {}
  relayAddresses : List Ip := []
  firstPort : UInt16 := 49152
  lastPort : UInt16 := 65535
  nonceTtl : Duration := seconds 3600
  nonceCapacity : Nat := 65536
  loginTimeout : Duration := seconds 5

structure Service where
  realm : String
  software : String
  table : Table
  nonces : NonceTable

/-- What one step of the service takes from chance. -/
structure Draw where
  nonce : NonceDraw
  /-- Where the search for a free port starts. -/
  portOffset : Nat := 0
  /-- Transaction ID of a Data indication. -/
  tid : Stun.TransactionId := 0

/-- What a step answers, what it tells the host, and the service afterwards. -/
structure Outcome (α : Type) where
  answer : α
  events : List Event := []
  service : Service

namespace Service

/-- A service without allocations. -/
def make (o : ServiceOptions) : Service :=
  { realm := o.realm
    software := o.software
    table := { options := o.allocation, pool := .make o.relayAddresses o.firstPort o.lastPort }
    nonces := { ttl := o.nonceTtl, capacity := o.nonceCapacity } }

/-- The host is told of every allocation that is removed. -/
def aborted (removed : List Allocation) : List Event :=
  removed.map fun a => .allocationAborted a.fiveTuple.client a.username a.relay

/-- Remove what expired; the number of removed allocations is answered. -/
def sweep (s : Service) (now : Time) : Outcome Nat :=
  let (removed, table) := s.table.sweep now
  { answer := removed.length
    events := aborted removed
    service := { s with table, nonces := (s.nonces.sweep now).2 } }

/-- Sweep at once and then once a period, as often as is said. -/
def sweeps (s : Service) (period : Duration) (now : Time) : Nat → List (Outcome Nat)
  | 0 => [s.sweep now]
  | more + 1 =>
    let o := s.sweep now
    o :: o.service.sweeps period (now + period) more

/-- Remove the allocations of a user; their number is answered. -/
def removeUser (s : Service) (username : String) : Outcome Nat :=
  let (removed, table) := s.table.removeUser username
  { answer := removed.length
    events := aborted removed
    service := { s with table } }

end Service
end NatRelay
