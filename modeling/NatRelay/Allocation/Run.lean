import NatRelay.Allocation.Table

/-! Operations on the allocation table as data, and what a sequence of them does. -/
namespace NatRelay.Table

inductive Op where
  | create (request : Request) (offset : Nat)
  | find (ft : FiveTuple)
  | refresh (ft : FiveTuple) (lifetime : Duration)
  | delete (ft : FiveTuple)
  | sweep
  | createPermission (ft : FiveTuple) (peer : Ip)
  | bindChannel (ft : FiveTuple) (number : UInt16) (peer : Endpoint)
  | permitSend (ft : FiveTuple) (peer : Endpoint)
  | channelPeer (ft : FiveTuple) (number : UInt16)
  | inboundRoute (relay peer : Endpoint)
  | removeUser (username : String)

/-- What an operation answers. -/
inductive Reply where
  | allocation (a : Allocation)
  | lifetime (d : Duration)
  | removed (as : List Allocation)
  /-- Whether the permission or the binding is a new one. -/
  | fresh (isNew : Bool)
  /-- The relayed address to send from. -/
  | sender (relay : Endpoint)
  /-- The relayed address to send from, and the peer to send to. -/
  | path (relay peer : Endpoint)
  | route (r : Route)
  | nothing
  | refused (e : TableError)
  deriving DecidableEq

/-- One operation at a time. -/
def step (t : Table) (op : Op) (now : Time) : Reply × Table :=
  match op with
  | .create r offset =>
    match t.create r offset now with
    | .ok (a, t) => (.allocation a, t)
    | .error e => (.refused e, t)
  | .find ft =>
    match t.find? ft now with
    | some a => (.allocation a, t)
    | none => (.nothing, t)
  | .refresh ft lifetime =>
    match t.refresh ft lifetime now with
    | .ok t => (.lifetime lifetime, t)
    | .error e => (.refused e, t)
  | .delete ft =>
    match t.delete ft with
    | some (a, t) => (.allocation a, t)
    | none => (.nothing, t)
  | .sweep =>
    let (as, t) := t.sweep now
    (.removed as, t)
  | .createPermission ft peer =>
    match t.createPermission ft peer now with
    | .ok (isNew, t) => (.fresh isNew, t)
    | .error e => (.refused e, t)
  | .bindChannel ft number peer =>
    match t.bindChannel ft number peer now with
    | .ok (isNew, t) => (.fresh isNew, t)
    | .error e => (.refused e, t)
  | .permitSend ft peer =>
    match t.permitSend ft peer now with
    | some (relay, t) => (.sender relay, t)
    | none => (.nothing, t)
  | .channelPeer ft number =>
    match t.channelPeer ft number now with
    | some ((relay, peer), t) => (.path relay peer, t)
    | none => (.nothing, t)
  | .inboundRoute relay peer =>
    match t.inboundRoute relay peer now with
    | some r => (.route r, t)
    | none => (.nothing, t)
  | .removeUser username =>
    let (as, t) := t.removeUser username
    (.removed as, t)

/-- Operations one after the other, each at its time. -/
def run (t : Table) : List (Op × Time) → List Reply × Table
  | [] => ([], t)
  | (op, now) :: rest =>
    let (reply, t) := t.step op now
    let (replies, t) := run t rest
    (reply :: replies, t)

end NatRelay.Table
