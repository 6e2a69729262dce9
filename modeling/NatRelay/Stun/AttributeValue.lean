import NatRelay.Stun.Attribute

/-! The bytes of attribute values, written by `Attribute.value` and read by `Attribute.ofValue`. -/
namespace NatRelay.Stun

/-- Greatest number of bytes in a username. -/
def maxUsernameLength : Nat := 513

/-- Greatest number of bytes in any other text. -/
def maxTextLength : Nat := 763

/-- Text of at most `limit` bytes. -/
def readText (limit : Nat) (value : Bytes) : Except Error String :=
  if value.length > limit then .error .invalidInput
  else (Utf8.decode value).mapError .utf8Error

/-- Exactly four bytes as a number. -/
def readWord (value : Bytes) : Except Error UInt32 :=
  if value.length = 4 then .ok (Bytes.word32 value) else .error .invalidInput

/-- Exactly four bytes, of which the first two count. -/
def readShort : Bytes → Except Error UInt16
  | [high, low, _, _] => .ok (Bytes.word16 high low)
  | _ => .error .invalidInput

/-- Exactly four bytes, of which the first counts. -/
def readByte : Bytes → Except Error UInt8
  | [b, _, _, _] => .ok b
  | _ => .error .invalidInput

/-- A list of 16-bit numbers without gap. -/
def readShorts : Bytes → Except Error (List UInt16)
  | [] => .ok []
  | [_] => .error .invalidInput
  | high :: low :: rest => do
    let codes ← readShorts rest
    pure (Bytes.word16 high low :: codes)

/-- Two reserved bytes, the hundreds digit in three bits, the rest of the number, and the reason. -/
def readErrorCode : Bytes → Except Error ErrorCode
  | _ :: _ :: hundreds :: number :: reason =>
    let h := hundreds.toNat % 8
    if h < 3 ∨ h > 6 ∨ number.toNat > 99 then .error .invalidInput
    else do
      let reason ← readText maxTextLength reason
      pure ⟨UInt16.ofNat (h * 100 + number.toNat), reason⟩
  | _ => .error .invalidInput

/-- A code of 16 to 32 bytes in whole words. -/
def readMac256 (value : Bytes) : Except Error Bytes :=
  if value.length < 16 ∨ value.length > 32 ∨ value.length % 4 ≠ 0 then .error .invalidInput
  else .ok value

/-- A code of 20 bytes. -/
def readMac (value : Bytes) : Except Error Bytes :=
  if value.length = 20 then .ok value else .error .invalidInput

namespace Attribute

/-- The bytes of the value. -/
def value (tid : TransactionId) : Attribute → Bytes
  | mappedAddress e | responseOrigin e => addressValue none e
  | xorMappedAddress e | xorPeerAddress e | xorRelayedAddress e => addressValue (some tid) e
  | username t | realm t | nonce t | software t => Bytes.ofText t
  | messageIntegrity mac | messageIntegritySha256 mac => mac
  | fingerprint crc => Bytes.be32 crc
  | errorCode e =>
    0 :: 0 :: UInt8.ofNat (e.code.toNat / 100) :: UInt8.ofNat (e.code.toNat % 100) ::
      Bytes.ofText e.reason
  | unknownAttributes codes => codes.flatMap Bytes.be16
  | channelNumber n => Bytes.be16 n ++ [0, 0]
  | lifetime seconds => Bytes.be32 seconds
  | data bytes => bytes
  | requestedTransport t => [t.protocol, 0, 0, 0]
  | requestedAddressFamily f => [f.code, 0, 0, 0]
  | other _ bytes => bytes

/-- Read the value of an attribute of a known kind. -/
def ofKind (tid : TransactionId) (value : Bytes) : Kind → Except Error Attribute
  | .mappedAddress => .mappedAddress <$> readAddress none value
  | .responseOrigin => .responseOrigin <$> readAddress none value
  | .xorMappedAddress => .xorMappedAddress <$> readAddress (some tid) value
  | .xorPeerAddress => .xorPeerAddress <$> readAddress (some tid) value
  | .xorRelayedAddress => .xorRelayedAddress <$> readAddress (some tid) value
  | .username => .username <$> readText maxUsernameLength value
  | .realm => .realm <$> readText maxTextLength value
  | .nonce => .nonce <$> readText maxTextLength value
  | .software => .software <$> readText maxTextLength value
  | .messageIntegrity => .messageIntegrity <$> readMac value
  | .messageIntegritySha256 => .messageIntegritySha256 <$> readMac256 value
  | .fingerprint => .fingerprint <$> readWord value
  | .errorCode => .errorCode <$> readErrorCode value
  | .unknownAttributes => .unknownAttributes <$> readShorts value
  | .channelNumber => .channelNumber <$> readShort value
  | .lifetime => .lifetime <$> readWord value
  | .data => .ok (.data value)
  | .requestedTransport => (fun p => .requestedTransport (.ofProtocol p)) <$> readByte value
  | .requestedAddressFamily => do
    let code ← readByte value
    .requestedAddressFamily <$> familyOfCode code

/-- Read the value of an attribute; one of an unknown kind is kept as it came. -/
def ofValue (tid : TransactionId) (code : UInt16) (value : Bytes) : Except Error Attribute :=
  match Kind.ofCode? code with
  | some kind => ofKind tid value kind
  | none => .ok (.other code value)

end Attribute
end NatRelay.Stun
