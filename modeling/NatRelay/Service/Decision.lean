import NatRelay.Allocation.Table
import NatRelay.Event.Basic
import NatRelay.Service.Response

/-! What the four requests of an authenticated client do to the table: a verdict, the events to
tell the host, and the table afterwards. -/
namespace NatRelay
open Stun (Attribute Message)

structure Decision where
  verdict : Verdict
  events : List Event := []
  table : Table

/-- An authenticated request and who sent it. -/
structure Request where
  message : Message
  addr : Endpoint
  interface : Interface
  username : String

namespace Request

def fiveTuple (r : Request) : FiveTuple := .udp r.addr r.interface.listening

/-- Leave the table as it is. -/
def refused (t : Table) (why : Refusal) : Decision := { verdict := .refuse why, table := t }

/-- A number of whole seconds, which wraps at 2 to the 32. -/
def wholeSeconds (d : Duration) : UInt32 := UInt32.ofNat (d / 1000)

/-- What a client learns of its allocation. -/
def granted (r : Request) (a : Allocation) (now : Time) : Verdict :=
  .success [.xorRelayedAddress a.relay, .xorMappedAddress r.addr,
    .lifetime (wholeSeconds (a.remaining now))] (some a.relay)

/-- How an Allocate is refused that the table refuses. -/
def refusalOfCreate (e : TableError) : Refusal :=
  match e with
  | .alreadyExists _ | .capacity | .quota _ => .ofTableError e
  | _ => .serverError

/-- Create an allocation for a client that has none. The relayed address is of the family asked for,
else of the interface's own. -/
def allocateNew (r : Request) (t : Table) (offset : Nat) (now : Time) : Decision :=
  match r.message.requestedTransport with
  | none => refused t .badRequest
  | some .udp =>
    if r.message.requestedFamily.any (!t.hasFamily ·) then refused t .addressFamilyNotSupported
    else
      let family := r.message.requestedFamily.getD r.interface.external.family
      let wanted : Table.Request :=
        ⟨r.fiveTuple, r.username, r.message.tid, family, r.message.lifetime⟩
      match t.create wanted offset now with
      | .error e => refused t (refusalOfCreate e)
      | .ok (a, t) =>
        { verdict := r.granted a now
          events := [.allocationCreated r.addr r.username a.relay.port a.relay]
          table := t }
  | some _ => refused t .unsupportedTransportProtocol

/-- Allocate. A repeated request gets the allocation that the first one made. -/
def allocate (r : Request) (t : Table) (offset : Nat) (now : Time) : Decision :=
  match t.find? r.fiveTuple now with
  | some a =>
    if a.tid = r.message.tid ∧ a.username = r.username then
      { verdict := r.granted a now, table := t }
    else refused t .allocationMismatch
  | none => r.allocateNew t offset now

/-- The client's live allocation, which must be the user's own. -/
def owned (r : Request) (t : Table) (now : Time) : Except Refusal Allocation :=
  match t.find? r.fiveTuple now with
  | none => .error .allocationMismatch
  | some a => if a.username = r.username then .ok a else .error .wrongCredentials

/-- Success with a lifetime. -/
def lifetimeIs (seconds : UInt32) : Verdict := .success [.lifetime seconds] none

/-- Delete the client's allocation. -/
def release (r : Request) (t : Table) : Decision :=
  match t.delete r.fiveTuple with
  | some (a, t) =>
    { verdict := lifetimeIs 0
      events := [.allocationAborted r.addr a.username a.relay]
      table := t }
  | none => { verdict := lifetimeIs 0, table := t }

/-- Start the client's allocation anew. -/
def extend (r : Request) (t : Table) (lifetime : Duration) (now : Time) : Decision :=
  match t.refresh r.fiveTuple lifetime now with
  | .ok t =>
    { verdict := lifetimeIs (wholeSeconds lifetime)
      events := [.allocationRefreshed r.addr r.username (wholeSeconds lifetime)]
      table := t }
  | .error e => refused t (.ofTableError e)

/-- Refresh. A lifetime of zero deletes the allocation; deleting what is gone succeeds. -/
def refresh (r : Request) (t : Table) (now : Time) : Decision :=
  let desired := t.options.desiredLifetime r.message.lifetime
  match r.owned t now with
  | .error .allocationMismatch =>
    if desired = 0 then { verdict := lifetimeIs 0, table := t } else refused t .allocationMismatch
  | .error why => refused t why
  | .ok a =>
    if r.message.requestedFamily.any (· ≠ a.family) then refused t .peerAddressFamilyMismatch
    else if desired = 0 then r.release t
    else r.extend t desired now

/-- No data is relayed to such an address. -/
def isForbidden (peer : Ip) : Bool := peer.isUnspecified || peer.isMulticast

/-- Why a peer may have no permission under an allocation of the given family. -/
def objection? (family : Family) (peer : Endpoint) : Option Refusal :=
  if isForbidden peer.ip then some .forbidden
  else if peer.family ≠ family then some .peerAddressFamilyMismatch
  else none

/-- Permit the IPs of the peers one by one. The peers are returned that had no permission. -/
def permitAll (t : Table) (ft : FiveTuple) (now : Time) :
    List Endpoint → Except TableError (List Endpoint) × Table
  | [] => (.ok [], t)
  | peer :: peers =>
    match t.createPermission ft peer.ip now with
    | .error e => (.error e, t)
    | .ok (isNew, t) =>
      let (fresh, t) := permitAll t ft now peers
      (fresh.map fun fresh => if isNew then peer :: fresh else fresh, t)

/-- The first address of each IP. -/
def distinctPeers (peers : List Endpoint) : List Endpoint :=
  peers.eraseDupsBy fun a b => a.ip = b.ip

/-- CreatePermission. All peers are judged before any of them is permitted; the host is told of
those that had no permission. -/
def createPermission (r : Request) (t : Table) (now : Time) : Decision :=
  let peers := r.message.peerAddresses
  if peers = [] then refused t .badRequest
  else
    match r.owned t now with
    | .error why => refused t why
    | .ok a =>
      match peers.findSome? (objection? a.family) with
      | some why => refused t why
      | none =>
        match permitAll t r.fiveTuple now (distinctPeers peers) with
        | (.error e, t) => refused t (.ofTableError e)
        | (.ok fresh, t) =>
          { verdict := .success [] none
            events := fresh.map fun peer => .permissionCreated r.addr r.username peer
            table := t }

/-- ChannelBind. The first peer of the request counts. -/
def channelBind (r : Request) (t : Table) (now : Time) : Decision :=
  match r.message.channelNumber.filter Stun.isChannelNumber, r.message.peerAddresses.head? with
  | some number, some peer =>
    match r.owned t now with
    | .error why => refused t why
    | .ok _ =>
      if isForbidden peer.ip then refused t .forbidden
      else
        match t.bindChannel r.fiveTuple number peer now with
        | .error e => refused t (.ofTableError e)
        | .ok (_, t) =>
          { verdict := .success [] none
            events := [.channelBound r.addr r.username number]
            table := t }
  | _, _ => refused t .badRequest

/-- What a request does. Only these four methods are authenticated. -/
def decide (r : Request) (t : Table) (offset : Nat) (now : Time) : Decision :=
  match r.message.method with
  | .allocate => r.allocate t offset now
  | .refresh => r.refresh t now
  | .createPermission => r.createPermission t now
  | _ => r.channelBind t now

end Request
end NatRelay
