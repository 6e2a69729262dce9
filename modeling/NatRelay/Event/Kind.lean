import NatRelay.Event.Basic
import NatRelay.JsonText.Basic

/-! The kinds of event, their names and fields, and events as JSON objects: the name of the kind
under the key `type`, then the fields in order. -/
namespace NatRelay
open JsonText (Value)

namespace Event

inductive Kind where
  | passwordRequested
  | allocationCreated
  | bindingObserved
  | channelBound
  | permissionCreated
  | allocationRefreshed
  | allocationAborted
  deriving DecidableEq

namespace Kind

def all : List Kind :=
  [passwordRequested, allocationCreated, bindingObserved, channelBound, permissionCreated,
    allocationRefreshed, allocationAborted]

def name : Kind → String
  | passwordRequested => "password.requested"
  | allocationCreated => "allocation.created"
  | bindingObserved => "binding.observed"
  | channelBound => "channel.bound"
  | permissionCreated => "permission.created"
  | allocationRefreshed => "allocation.refreshed"
  | allocationAborted => "allocation.aborted"

def ofName? (s : String) : Option Kind := all.find? (·.name = s)

/-- The keys of an event's fields. -/
def fields : Kind → List String
  | passwordRequested => ["addr", "username"]
  | allocationCreated => ["addr", "username", "port", "relay"]
  | bindingObserved => ["addr"]
  | channelBound => ["addr", "username", "channel"]
  | permissionCreated => ["addr", "username", "peer"]
  | allocationRefreshed => ["addr", "username", "lifetime"]
  | allocationAborted => ["addr", "username", "relay"]

@[simp] theorem ofName?_name (k : Kind) : ofName? k.name = some k := by cases k <;> rfl

end Kind

def kind : Event → Kind
  | passwordRequested .. => .passwordRequested
  | allocationCreated .. => .allocationCreated
  | bindingObserved .. => .bindingObserved
  | channelBound .. => .channelBound
  | permissionCreated .. => .permissionCreated
  | allocationRefreshed .. => .allocationRefreshed
  | allocationAborted .. => .allocationAborted

/-- The key of the kind's name. -/
def tagKey : String := "type"

def ofEndpoint (e : Endpoint) : Value := .text e.text

/-- The values of an event's fields. -/
def values : Event → List Value
  | passwordRequested addr username => [ofEndpoint addr, .text username]
  | allocationCreated addr username port relay =>
    [ofEndpoint addr, .text username, .integer port.toNat, ofEndpoint relay]
  | bindingObserved addr => [ofEndpoint addr]
  | channelBound addr username channel => [ofEndpoint addr, .text username, .integer channel.toNat]
  | permissionCreated addr username peer => [ofEndpoint addr, .text username, ofEndpoint peer]
  | allocationRefreshed addr username lifetime =>
    [ofEndpoint addr, .text username, .integer lifetime.toNat]
  | allocationAborted addr username relay => [ofEndpoint addr, .text username, ofEndpoint relay]

/-- The event as a JSON object. -/
def toJson (e : Event) : Value :=
  .object ((tagKey, .text e.kind.name) :: e.kind.fields.zip e.values)

def toEndpoint? : Value → Option Endpoint
  | .text s => Endpoint.ofText? s
  | _ => none

def toText? : Value → Option String
  | .text s => some s
  | _ => none

/-- A whole number below a bound. -/
def toNat? (bound : Nat) : Value → Option Nat
  | .integer n => if 0 ≤ n ∧ n.toNat < bound then some n.toNat else none
  | _ => none

def toUInt16? (v : Value) : Option UInt16 := (toNat? 0x10000 v).map UInt16.ofNat

def toUInt32? (v : Value) : Option UInt32 := (toNat? 0x100000000 v).map UInt32.ofNat

/-- The event of a kind with the given field values. -/
def ofValues? : Kind → List Value → Option Event
  | .passwordRequested, [addr, username] => do
    return passwordRequested (← toEndpoint? addr) (← toText? username)
  | .allocationCreated, [addr, username, port, relay] => do
    return allocationCreated (← toEndpoint? addr) (← toText? username) (← toUInt16? port)
      (← toEndpoint? relay)
  | .bindingObserved, [addr] => do return bindingObserved (← toEndpoint? addr)
  | .channelBound, [addr, username, channel] => do
    return channelBound (← toEndpoint? addr) (← toText? username) (← toUInt16? channel)
  | .permissionCreated, [addr, username, peer] => do
    return permissionCreated (← toEndpoint? addr) (← toText? username) (← toEndpoint? peer)
  | .allocationRefreshed, [addr, username, lifetime] => do
    return allocationRefreshed (← toEndpoint? addr) (← toText? username) (← toUInt32? lifetime)
  | .allocationAborted, [addr, username, relay] => do
    return allocationAborted (← toEndpoint? addr) (← toText? username) (← toEndpoint? relay)
  | _, _ => none

@[simp] theorem length_values (e : Event) : e.values.length = e.kind.fields.length := by
  cases e <;> rfl

end Event
end NatRelay
