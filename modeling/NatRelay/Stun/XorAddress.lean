import NatRelay.Net.Endpoint
import NatRelay.Stun.MessageType

/-! Transport addresses as attribute values, plain or obfuscated with the magic cookie and the
transaction ID. `unobfuscate` is `obfuscate` again, because the mask is added bit by bit. -/
namespace NatRelay
namespace Stun

/-- Sent in every STUN header. -/
def magicCookie : BitVec 32 := 0x2112A442

/-- The 96 bits that pair a response with its request. -/
abbrev TransactionId := BitVec 96

/-- Add the mask to an address. Flow label and zone are not carried. -/
def obfuscate (tid : TransactionId) : Endpoint → Endpoint
  | .v4 ip port => .v4 (ip ^^^ magicCookie) (port ^^^ 0x2112)
  | .v6 ip port _ _ => .v6 (ip ^^^ (magicCookie ++ tid)) (port ^^^ 0x2112) 0 0

/-- Take the mask off an address. -/
def unobfuscate (tid : TransactionId) (e : Endpoint) : Endpoint := obfuscate tid e

@[simp] theorem unobfuscate_obfuscate (tid : TransactionId) (e : Endpoint) :
    unobfuscate tid (obfuscate tid e) = .ofIp e.ip e.port := by
  have hport (port : UInt16) : port ^^^ 0x2112 ^^^ 0x2112 = port := by
    rw [UInt16.xor_assoc, UInt16.xor_self, UInt16.xor_zero]
  cases e with
  | v4 ip port =>
    have hip : ip ^^^ magicCookie ^^^ magicCookie = ip := by
      rw [BitVec.xor_assoc, BitVec.xor_self, BitVec.xor_zero]
    simp only [unobfuscate, obfuscate, hip, hport, Endpoint.ofIp, Endpoint.ip, Endpoint.port]
  | v6 ip port flow zone =>
    have hip : ip ^^^ (magicCookie ++ tid) ^^^ (magicCookie ++ tid) = ip := by
      rw [BitVec.xor_assoc, BitVec.xor_self, BitVec.xor_zero]
    simp only [unobfuscate, obfuscate, hip, hport, Endpoint.ofIp, Endpoint.ip, Endpoint.port]

end Stun

/-- The byte that stands for a family. -/
def Family.code : Family → UInt8
  | v4 => 1
  | v6 => 2

namespace Stun

/-- The family that a byte stands for. -/
def familyOfCode (code : UInt8) : Except Error Family :=
  if code = 1 then .ok .v4 else if code = 2 then .ok .v6 else .error .unsupportedIpFamily

@[simp] theorem familyOfCode_code (f : Family) : familyOfCode f.code = .ok f := by
  cases f <;> rfl

/-- A reserved byte, the family, the port and the IP. -/
def plainValue (e : Endpoint) : Bytes :=
  0 :: e.family.code :: (Bytes.be16 e.port ++ e.ip.bytes)

/-- The value of an address attribute, obfuscated where a transaction ID is given. -/
def addressValue (tid? : Option TransactionId) (e : Endpoint) : Bytes :=
  match tid? with
  | some tid => plainValue (obfuscate tid e)
  | none => plainValue e

/-- An IP of a family from exactly its bytes. -/
def ipOfBytes (bytes : Bytes) : Family → Except Error Ip
  | .v4 => if bytes.length = 4 then .ok (.v4 (.ofNat 32 bytes.toNat)) else .error .invalidInput
  | .v6 => if bytes.length = 16 then .ok (.v6 (.ofNat 128 bytes.toNat)) else .error .invalidInput

/-- Read the value of an address attribute. -/
def readAddress (tid? : Option TransactionId) : Bytes → Except Error Endpoint
  | _ :: code :: high :: low :: rest => do
    let family ← familyOfCode code
    let ip ← ipOfBytes rest family
    let e := Endpoint.ofIp ip (Bytes.word16 high low)
    pure (match tid? with
      | some tid => unobfuscate tid e
      | none => e)
  | _ => .error .invalidInput

end Stun
end NatRelay
