import NatRelay.Stun.XorAddress

/-! Typed attributes of STUN and TURN, and the numbers of their kinds. -/
namespace NatRelay.Stun

/-- The kinds of attribute that have a typed form. -/
inductive Kind where
  | mappedAddress
  | username
  | messageIntegrity
  | errorCode
  | unknownAttributes
  | channelNumber
  | lifetime
  | xorPeerAddress
  | data
  | realm
  | nonce
  | xorRelayedAddress
  | requestedAddressFamily
  | requestedTransport
  | messageIntegritySha256
  | xorMappedAddress
  | software
  | fingerprint
  | responseOrigin
  deriving DecidableEq

namespace Kind

/-- The number that stands for the kind. -/
def code : Kind → UInt16
  | mappedAddress => 0x0001
  | username => 0x0006
  | messageIntegrity => 0x0008
  | errorCode => 0x0009
  | unknownAttributes => 0x000A
  | channelNumber => 0x000C
  | lifetime => 0x000D
  | xorPeerAddress => 0x0012
  | data => 0x0013
  | realm => 0x0014
  | nonce => 0x0015
  | xorRelayedAddress => 0x0016
  | requestedAddressFamily => 0x0017
  | requestedTransport => 0x0019
  | messageIntegritySha256 => 0x001C
  | xorMappedAddress => 0x0020
  | software => 0x8022
  | fingerprint => 0x8028
  | responseOrigin => 0x802B

/-- The kind that a number stands for. -/
def ofCode? (n : UInt16) : Option Kind :=
  match n.toNat with
  | 0x0001 => some mappedAddress
  | 0x0006 => some username
  | 0x0008 => some messageIntegrity
  | 0x0009 => some errorCode
  | 0x000A => some unknownAttributes
  | 0x000C => some channelNumber
  | 0x000D => some lifetime
  | 0x0012 => some xorPeerAddress
  | 0x0013 => some data
  | 0x0014 => some realm
  | 0x0015 => some nonce
  | 0x0016 => some xorRelayedAddress
  | 0x0017 => some requestedAddressFamily
  | 0x0019 => some requestedTransport
  | 0x001C => some messageIntegritySha256
  | 0x0020 => some xorMappedAddress
  | 0x8022 => some software
  | 0x8028 => some fingerprint
  | 0x802B => some responseOrigin
  | _ => none

@[simp] theorem ofCode?_code (k : Kind) : ofCode? k.code = some k := by cases k <;> rfl

theorem code_of_ofCode? {n : UInt16} {k : Kind} (h : ofCode? n = some k) : k.code = n := by
  apply UInt16.toNat_inj.1
  unfold ofCode? at h
  split at h <;> simp at h <;> subst h <;> simp_all [code]

end Kind

/-- A receiver that does not know such an attribute must refuse the request. -/
def isComprehensionRequired (code : UInt16) : Bool := code < 0x8000

/-- Transport protocol between a client and the relay. -/
inductive Transport where
  | udp
  | tcp
  | other (protocol : UInt8)
  deriving DecidableEq, Hashable

namespace Transport

def protocol : Transport → UInt8
  | udp => 17
  | tcp => 6
  | other p => p

def ofProtocol (p : UInt8) : Transport :=
  if p = 17 then udp else if p = 6 then tcp else other p

end Transport

/-- A numbered error and its reason phrase. -/
structure ErrorCode where
  code : UInt16
  reason : String
  deriving DecidableEq

inductive Attribute where
  | mappedAddress (addr : Endpoint)
  | xorMappedAddress (addr : Endpoint)
  | xorPeerAddress (addr : Endpoint)
  | xorRelayedAddress (addr : Endpoint)
  | responseOrigin (addr : Endpoint)
  | username (text : String)
  | realm (text : String)
  | nonce (text : String)
  | software (text : String)
  | messageIntegrity (mac : Bytes)
  | messageIntegritySha256 (mac : Bytes)
  | fingerprint (value : UInt32)
  | errorCode (error : ErrorCode)
  | unknownAttributes (codes : List UInt16)
  | channelNumber (number : UInt16)
  | lifetime (seconds : UInt32)
  | data (bytes : Bytes)
  | requestedTransport (transport : Transport)
  | requestedAddressFamily (family : Family)
  /-- An attribute kept as it came. -/
  | other (code : UInt16) (value : Bytes)
  deriving DecidableEq

namespace Attribute

/-- The number of the attribute's kind. -/
def code : Attribute → UInt16
  | mappedAddress _ => Kind.mappedAddress.code
  | xorMappedAddress _ => Kind.xorMappedAddress.code
  | xorPeerAddress _ => Kind.xorPeerAddress.code
  | xorRelayedAddress _ => Kind.xorRelayedAddress.code
  | responseOrigin _ => Kind.responseOrigin.code
  | username _ => Kind.username.code
  | realm _ => Kind.realm.code
  | nonce _ => Kind.nonce.code
  | software _ => Kind.software.code
  | messageIntegrity _ => Kind.messageIntegrity.code
  | messageIntegritySha256 _ => Kind.messageIntegritySha256.code
  | fingerprint _ => Kind.fingerprint.code
  | errorCode _ => Kind.errorCode.code
  | unknownAttributes _ => Kind.unknownAttributes.code
  | channelNumber _ => Kind.channelNumber.code
  | lifetime _ => Kind.lifetime.code
  | data _ => Kind.data.code
  | requestedTransport _ => Kind.requestedTransport.code
  | requestedAddressFamily _ => Kind.requestedAddressFamily.code
  | other c _ => c

/-- Whether the attribute protects the message in front of it; such attributes are computed when a
message is written. -/
def isProtection : Attribute → Bool
  | messageIntegrity _ | messageIntegritySha256 _ | fingerprint _ => true
  | _ => false

end Attribute
end NatRelay.Stun
