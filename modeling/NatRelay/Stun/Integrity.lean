import NatRelay.Checksum.Crc32
import NatRelay.Digest.Hmac
import NatRelay.Digest.Sha1
import NatRelay.Digest.Sha256
import NatRelay.Stun.MessageType

/-! Keys that protect messages, with HMAC-SHA1 or HMAC-SHA256; and the checksum of the fingerprint. -/
namespace NatRelay.Stun

/-- The two ways to protect a message. -/
inductive Mechanism where
  | sha1
  | sha256
  deriving DecidableEq

/-- A secret and the mechanism that it is used with. -/
structure Key where
  mechanism : Mechanism
  secret : Bytes
  deriving DecidableEq

namespace Mechanism

/-- Bytes of a code written with the mechanism. -/
def macLength : Mechanism → Nat
  | sha1 => 20
  | sha256 => 32

def code (m : Mechanism) (secret message : Bytes) : Bytes :=
  match m with
  | sha1 => Hmac.code Sha1.hash secret message
  | sha256 => Hmac.code Sha256.hash secret message

@[simp] theorem length_code (m : Mechanism) (secret message : Bytes) :
    (m.code secret message).length = m.macLength := by
  cases m <;> simp [code, Hmac.code, macLength]

end Mechanism

namespace Key

/-- The code over the concatenation of the parts. -/
def sign (key : Key) (parts : List Bytes) : Bytes := key.mechanism.code key.secret parts.flatten

@[simp] theorem length_sign (key : Key) (parts : List Bytes) :
    (key.sign parts).length = key.mechanism.macLength := by simp [sign]

/-- Check a code. One of HMAC-SHA256 may be cut down to its first 16 bytes or more. -/
def verify (key : Key) (parts : List Bytes) (mac : Bytes) : Except Error Unit :=
  let expected := key.sign parts
  let ok := match key.mechanism with
    | .sha1 => mac == expected
    | .sha256 => decide (16 ≤ mac.length ∧ mac.length ≤ expected.length) &&
        mac == expected.take mac.length
  if ok then .ok () else .error .integrityFailed

end Key

/-- The fingerprint of the concatenation of the parts. -/
def fingerprint (parts : List Bytes) : UInt32 := Crc32.checksum parts.flatten ^^^ 0x5354554E

end NatRelay.Stun
