import NatRelay.Stun.Attribute
import NatRelay.Stun.MessageType

/-! STUN messages and the questions a receiver asks of their attributes. The first attribute of a
kind answers for it. -/
namespace NatRelay.Stun

structure Message where
  method : Method
  cls : Class
  tid : TransactionId
  attributes : List Attribute := []
  deriving DecidableEq

namespace Message

/-- A message of the given class, without attributes, that answers this one. -/
def reply (m : Message) (cls : Class) : Message := ⟨m.method, cls, m.tid, []⟩

/-- The first attribute of a kind. -/
def get? (m : Message) (code : UInt16) : Option Attribute :=
  m.attributes.find? (·.code == code)

/-- All attributes of a kind, in order. -/
def getAll (m : Message) (code : UInt16) : List Attribute :=
  m.attributes.filter (·.code == code)

def username (m : Message) : Option String :=
  match m.get? Kind.username.code with
  | some (.username t) => some t
  | _ => none

def realm (m : Message) : Option String :=
  match m.get? Kind.realm.code with
  | some (.realm t) => some t
  | _ => none

def nonce (m : Message) : Option String :=
  match m.get? Kind.nonce.code with
  | some (.nonce t) => some t
  | _ => none

def lifetime (m : Message) : Option UInt32 :=
  match m.get? Kind.lifetime.code with
  | some (.lifetime n) => some n
  | _ => none

def channelNumber (m : Message) : Option UInt16 :=
  match m.get? Kind.channelNumber.code with
  | some (.channelNumber n) => some n
  | _ => none

def requestedTransport (m : Message) : Option Transport :=
  match m.get? Kind.requestedTransport.code with
  | some (.requestedTransport t) => some t
  | _ => none

def requestedFamily (m : Message) : Option Family :=
  match m.get? Kind.requestedAddressFamily.code with
  | some (.requestedAddressFamily f) => some f
  | _ => none

def xorMappedAddress (m : Message) : Option Endpoint :=
  match m.get? Kind.xorMappedAddress.code with
  | some (.xorMappedAddress e) => some e
  | _ => none

def xorRelayedAddress (m : Message) : Option Endpoint :=
  match m.get? Kind.xorRelayedAddress.code with
  | some (.xorRelayedAddress e) => some e
  | _ => none

/-- Every peer address, in order. -/
def peerAddresses (m : Message) : List Endpoint :=
  m.attributes.filterMap fun
    | .xorPeerAddress e => some e
    | _ => none

def data (m : Message) : Option Bytes :=
  match m.get? Kind.data.code with
  | some (.data bytes) => some bytes
  | _ => none

def errorCode (m : Message) : Option ErrorCode :=
  match m.get? Kind.errorCode.code with
  | some (.errorCode e) => some e
  | _ => none

/-- Whether a code of either mechanism is among the attributes. -/
def hasIntegrity (m : Message) : Bool :=
  m.attributes.any fun
    | .messageIntegrity _ | .messageIntegritySha256 _ => true
    | _ => false

/-- The first code of HMAC-SHA1. -/
def mac? (m : Message) : Option Bytes :=
  m.attributes.findSome? fun
    | .messageIntegrity mac => some mac
    | _ => none

/-- The first code of HMAC-SHA256. -/
def mac256? (m : Message) : Option Bytes :=
  m.attributes.findSome? fun
    | .messageIntegritySha256 mac => some mac
    | _ => none

/-- Kinds that must be understood and have no typed form, in order. -/
def unknownRequired (m : Message) : List UInt16 :=
  m.attributes.filterMap fun
    | .other code _ => if isComprehensionRequired code then some code else none
    | _ => none

end Message
end NatRelay.Stun
