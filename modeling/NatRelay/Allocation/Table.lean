import NatRelay.Allocation.Basic
import NatRelay.Allocation.Pool

/-! The allocation table. Beside the allocations it keeps an index from relayed addresses to their
owners, the pool that the addresses are leased from, and a count of taken slots. Operations are
functions of the table and of the time; one that refuses gives no new table. -/
namespace NatRelay
open Stun (Transport TransactionId)

structure Table where
  options : AllocationOptions
  pool : Pool
  entries : Assoc FiveTuple Allocation := []
  /-- Which five-tuple owns a relayed address. -/
  relays : Assoc Endpoint FiveTuple := []
  /-- Slots taken under the bound on all allocations. -/
  slots : Nat := 0

/-- Where a packet goes that arrived on a relayed address. -/
structure Route where
  fiveTuple : FiveTuple
  /-- The channel of the peer, if it has one. -/
  channel : Option UInt16
  deriving DecidableEq

namespace Table

/-- Number of allocations, expired ones included. -/
def size (t : Table) : Nat := t.entries.length

def hasFamily (t : Table) (f : Family) : Bool := t.pool.hasFamily f

def capacity (t : Table) : Nat := t.pool.capacity

/-- The allocation of a five-tuple, unless it expired. -/
def find? (t : Table) (ft : FiveTuple) (now : Time) : Option Allocation :=
  (t.entries.lookup ft).filter fun a => !a.isExpired now

/-- Number of a user's allocations that have not expired. -/
def userCount (t : Table) (username : String) (now : Time) : Nat :=
  t.entries.countP fun (_, a) => a.username = username && !a.isExpired now

/-- Who asks for an allocation, and for what. -/
structure Request where
  fiveTuple : FiveTuple
  username : String
  tid : TransactionId
  family : Family
  lifetime : Option UInt32 := none

/-- The granted lifetime: a request for zero gets the default. -/
def grantedLifetime (t : Table) (requested : Option UInt32) : Duration :=
  let d := t.options.desiredLifetime requested
  if d = 0 then t.options.defaultLifetime else d

/-- The allocation that a request gets on a relayed address. -/
def build (t : Table) (r : Request) (relay : Endpoint) (now : Time) : Allocation :=
  let lifetime := t.grantedLifetime r.lifetime
  { fiveTuple := r.fiveTuple, username := r.username, relay, tid := r.tid, lifetime
    createdAt := now, expiresAt := now + lifetime }

/-- Create an allocation, or put one in place of an expired one. The port search starts at
`offset`. An expired one keeps its own address on lease until the new one has its lease. -/
def create (t : Table) (r : Request) (offset : Nat) (now : Time) :
    Except TableError (Allocation × Table) :=
  if 0 < t.options.userQuota ∧ t.options.userQuota ≤ t.userCount r.username now then
    .error (.quota r.username)
  else
    match t.entries.lookup r.fiveTuple with
    | some stale =>
      if !stale.isExpired now then .error (.alreadyExists r.fiveTuple.client)
      else
        match t.pool.lease r.family offset with
        | none => .error .capacity
        | some (relay, pool) =>
          let a := t.build r relay now
          .ok (a, { t with
            pool := pool.release stale.relay
            entries := t.entries.put r.fiveTuple a
            relays := (t.relays.remove stale.relay).put relay r.fiveTuple })
    | none =>
      if 0 < t.options.maxAllocations ∧ t.options.maxAllocations ≤ t.slots then .error .capacity
      else
        match t.pool.lease r.family offset with
        | none => .error .capacity
        | some (relay, pool) =>
          let a := t.build r relay now
          .ok (a, { t with
            pool
            entries := t.entries.put r.fiveTuple a
            relays := t.relays.put relay r.fiveTuple
            slots := t.slots + 1 })

/-- Let a live allocation expire `lifetime` from now. -/
def refresh (t : Table) (ft : FiveTuple) (lifetime : Duration) (now : Time) :
    Except TableError Table :=
  match t.find? ft now with
  | none => .error (.notFound ft.client)
  | some _ => .ok { t with
      entries := t.entries.mapAt ft fun a => { a with lifetime, expiresAt := now + lifetime } }

/-- Remove an allocation, expired or not, and release its address. -/
def delete (t : Table) (ft : FiveTuple) : Option (Allocation × Table) :=
  (t.entries.lookup ft).map fun a => (a, { t with
    pool := t.pool.release a.relay
    entries := t.entries.remove ft
    relays := t.relays.remove a.relay
    slots := t.slots - 1 })

/-- Remove the expired allocations and prune the others. -/
def sweep (t : Table) (now : Time) : List Allocation × Table :=
  let removed := Assoc.values (t.entries.filter fun (_, a) => a.isExpired now)
  let kept := t.entries.filter fun (_, a) => !a.isExpired now
  (removed, { t with
    pool := removed.foldl (fun p a => p.release a.relay) t.pool
    entries := kept.map fun (ft, a) => (ft, a.prune now)
    relays := t.relays.filter fun (relay, ft) =>
      !removed.any fun a => a.relay = relay && a.fiveTuple = ft
    slots := t.slots - removed.length })

/-- Change the allocation of a five-tuple. -/
def update (t : Table) (ft : FiveTuple) (f : Allocation → Allocation) : Table :=
  { t with entries := t.entries.mapAt ft f }

/-- Grant or extend the permission of a peer IP; true if it had none. -/
def createPermission (t : Table) (ft : FiveTuple) (peer : Ip) (now : Time) :
    Except TableError (Bool × Table) :=
  match t.find? ft now with
  | none => .error (.notFound ft.client)
  | some a =>
    if peer.family ≠ a.family then .error (.familyMismatch (.ofIp peer 0))
    else .ok (!a.isPermitted peer now,
      t.update ft (·.permit peer (now + t.options.permissionLifetime)))

/-- Whether binding `number` to `peer` clashes with a binding that still ties one of them. -/
def clashes (a : Allocation) (number : UInt16) (peer : Endpoint) (now : Time) : Bool :=
  a.channels.any fun (n, c) =>
    decide (n = number) != decide (c.peer = peer) && c.isGuarded now

/-- Bind a channel number to a peer, or extend the binding, and permit the peer; true if the
binding was not active. -/
def bindChannel (t : Table) (ft : FiveTuple) (number : UInt16) (peer : Endpoint) (now : Time) :
    Except TableError (Bool × Table) :=
  match t.find? ft now with
  | none => .error (.notFound ft.client)
  | some a =>
    if peer.family ≠ a.family then .error (.familyMismatch peer)
    else if clashes a number peer now then .error (.channelConflict number)
    else
      let fresh := match a.channels.lookup number with
        | some c => c.peer ≠ peer || c.expiresAt ≤ now
        | none => true
      let binding : Channel := ⟨peer, now + t.options.channelLifetime⟩
      let bind (a : Allocation) : Allocation :=
        { a with channels := Assoc.put (a.channels.filter fun e => e.2.peer ≠ peer) number binding }
      .ok (fresh, t.update ft fun a =>
        (bind a).permit peer.ip (now + t.options.permissionLifetime))

/-- The address to send from, if the peer is permitted; the permission is extended. -/
def permitSend (t : Table) (ft : FiveTuple) (peer : Endpoint) (now : Time) :
    Option (Endpoint × Table) :=
  match t.find? ft now with
  | none => none
  | some a =>
    if a.isPermitted peer.ip now then
      some (a.relay, t.update ft (·.permit peer.ip (now + t.options.permissionLifetime)))
    else none

/-- The relayed address and the peer of an active channel; channel and permission are extended. -/
def channelPeer (t : Table) (ft : FiveTuple) (number : UInt16) (now : Time) :
    Option ((Endpoint × Endpoint) × Table) :=
  match t.find? ft now with
  | none => none
  | some a =>
    match a.channels.lookup number with
    | none => none
    | some c =>
      if c.expiresAt > now then
        let extend (a : Allocation) : Allocation :=
          { a with channels := a.channels.mapAt number fun c =>
              { c with expiresAt := now + t.options.channelLifetime } }
        some ((a.relay, c.peer), t.update ft fun a =>
          (extend a).permit c.peer.ip (now + t.options.permissionLifetime))
      else none

/-- Where a packet from `peer` goes that arrived on `relay`: over the peer's channel, or plainly
if the peer is permitted. -/
def inboundRoute (t : Table) (relay peer : Endpoint) (now : Time) : Option Route :=
  match t.relays.lookup relay with
  | none => none
  | some ft =>
    match t.entries.lookup ft with
    | none => none
    | some a =>
      if a.isExpired now || a.relay ≠ relay then none
      else
        match a.channelForPeer peer now with
        | some n => some ⟨ft, some n⟩
        | none => if a.isPermitted peer.ip now then some ⟨ft, none⟩ else none

/-- Remove every allocation of a user, expired or not. -/
def removeUser (t : Table) (username : String) : List Allocation × Table :=
  (Assoc.keys (t.entries.filter fun e => e.2.username = username)).foldl
    (fun (removed, t) ft =>
      match t.delete ft with
      | some (a, t) => (removed ++ [a], t)
      | none => (removed, t))
    ([], t)

def hasRelay (t : Table) (relay : Endpoint) : Bool := t.relays.keys.contains relay

/-- The users that have allocations, each with the clients of theirs. -/
def users (t : Table) : Assoc String (List Endpoint) :=
  (t.entries.values.map (·.username)).eraseDups.map fun name =>
    (name, (t.entries.values.filter (·.username = name)).map (·.fiveTuple.client))

end Table
end NatRelay
