import NatRelay.Allocation.Table

/-! Creating an allocation in a table that is changed in place, one part of it at a time. What was
changed before an error stays changed unless it is taken back. -/
namespace NatRelay.Table

/-- What works on a table in place and may refuse. -/
abbrev InPlace := ExceptT TableError (StateM Table)

/-- The result, and the table as it was left. -/
def InPlace.exec {α : Type} (x : InPlace α) (t : Table) : Except TableError α × Table :=
  StateT.run (ExceptT.run x) t

/-- Take a slot under the bound on all allocations. -/
def reserve : InPlace Unit := do
  let t ← get
  if 0 < t.options.maxAllocations ∧ t.options.maxAllocations ≤ t.slots then throw .capacity
  set { t with slots := t.slots + 1 }

/-- Give a slot back. -/
def unreserve : InPlace Unit := modify fun t => { t with slots := t.slots - 1 }

def leaseRelay (f : Family) (offset : Nat) : InPlace (Option Endpoint) := do
  let t ← get
  match t.pool.lease f offset with
  | some (relay, pool) =>
    set { t with pool }
    return some relay
  | none => return none

def releaseRelay (relay : Endpoint) : InPlace Unit :=
  modify fun t => { t with pool := t.pool.release relay }

def putEntry (ft : FiveTuple) (a : Allocation) : InPlace Unit :=
  modify fun t => { t with entries := t.entries.put ft a }

def putRelay (relay : Endpoint) (ft : FiveTuple) : InPlace Unit :=
  modify fun t => { t with relays := t.relays.put relay ft }

def removeRelay (relay : Endpoint) : InPlace Unit :=
  modify fun t => { t with relays := t.relays.remove relay }

/-- Put an allocation in place of an expired one. -/
def replaceInPlace (stale : Allocation) (r : Request) (offset : Nat) (now : Time) :
    InPlace Allocation := do
  match ← leaseRelay r.family offset with
  | none => throw .capacity
  | some relay =>
    let a := (← get).build r relay now
    putEntry r.fiveTuple a
    removeRelay stale.relay
    releaseRelay stale.relay
    putRelay relay r.fiveTuple
    return a

/-- Enter an allocation where the five-tuple has none. The slot is taken before the lease. -/
def enterInPlace (r : Request) (offset : Nat) (now : Time) : InPlace Allocation := do
  reserve
  match ← leaseRelay r.family offset with
  | none =>
    unreserve
    throw .capacity
  | some relay =>
    let a := (← get).build r relay now
    putRelay relay r.fiveTuple
    putEntry r.fiveTuple a
    return a

def createInPlace (r : Request) (offset : Nat) (now : Time) : InPlace Allocation := do
  let t ← get
  if 0 < t.options.userQuota ∧ t.options.userQuota ≤ t.userCount r.username now then
    throw (.quota r.username)
  match t.entries.lookup r.fiveTuple with
  | some stale =>
    if !stale.isExpired now then throw (.alreadyExists r.fiveTuple.client)
    replaceInPlace stale r offset now
  | none => enterInPlace r offset now

end NatRelay.Table
