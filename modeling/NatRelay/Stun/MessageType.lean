import NatRelay.Text.Utf8

/-! The first sixteen bits of a STUN message, and why a message is refused. A message type is two zero
bits, then the method with the two bits of the class set between its digits. `split_messageType`
says that both can be read back. -/
namespace NatRelay.Stun

/-- Why a datagram or a credential is refused. -/
inductive Error where
  /-- A size, a framing or a checksum is wrong. -/
  | invalidInput
  | unsupportedIpFamily
  /-- No attribute protects the message. -/
  | notIntegrity
  /-- The attribute that protects the message does not match. -/
  | integrityFailed
  | notCookie
  | unknownMethod
  /-- A text attribute is not UTF-8. -/
  | utf8Error (fault : Utf8.Fault)
  deriving DecidableEq

def Error.message : Error → String
  | invalidInput => "invalid input"
  | unsupportedIpFamily => "unsupported ip family"
  | notIntegrity => "message integrity missing"
  | integrityFailed => "message integrity check failed"
  | notCookie => "magic cookie mismatch"
  | unknownMethod => "unknown method"
  | utf8Error fault => "utf8 error: " ++ fault.message

inductive Method where
  | binding
  | allocate
  | refresh
  | send
  | data
  | createPermission
  | channelBind
  deriving DecidableEq

namespace Method

def code : Method → Nat
  | binding => 0x001
  | allocate => 0x003
  | refresh => 0x004
  | send => 0x006
  | data => 0x007
  | createPermission => 0x008
  | channelBind => 0x009

def ofCode? : Nat → Option Method
  | 0x001 => some binding
  | 0x003 => some allocate
  | 0x004 => some refresh
  | 0x006 => some send
  | 0x007 => some data
  | 0x008 => some createPermission
  | 0x009 => some channelBind
  | _ => none

@[simp] theorem ofCode?_code (m : Method) : ofCode? m.code = some m := by cases m <;> rfl

theorem code_of_ofCode? {n : Nat} {m : Method} (h : ofCode? n = some m) : m.code = n := by
  unfold ofCode? at h
  split at h <;> simp at h <;> subst h <;> rfl

/-- Whether requests of the method must be authenticated. -/
def requiresAuth : Method → Bool
  | allocate | refresh | createPermission | channelBind => true
  | binding | send | data => false

end Method

inductive Class where
  | request
  | indication
  | success
  | error
  deriving DecidableEq

namespace Class

def bits : Class → Nat
  | request => 0
  | indication => 1
  | success => 2
  | error => 3

def ofBits (n : Nat) : Class :=
  match n % 4 with
  | 0 => request
  | 1 => indication
  | 2 => success
  | _ => error

@[simp] theorem ofBits_bits (c : Class) : ofBits c.bits = c := by cases c <;> rfl

/-- The class that bits 4 and 8 of a message type hold. -/
def ofType (value : UInt16) : Class :=
  ofBits (value.toNat / 16 % 2 + value.toNat / 256 % 2 * 2)

end Class

/-- The message type of a method and a class. -/
def messageType (m : Method) (c : Class) : UInt16 :=
  UInt16.ofNat (m.code % 16 + c.bits % 2 * 16 + m.code / 16 % 8 * 32 + c.bits / 2 * 256 +
    m.code / 128 % 32 * 512)

/-- The method code that surrounds the class bits of a message type. -/
def methodCode (value : UInt16) : Nat :=
  value.toNat % 16 + value.toNat / 32 % 8 * 16 + value.toNat / 512 % 32 * 128

/-- Read a message type. -/
def splitMessageType (value : UInt16) : Except Error (Method × Class) :=
  if value ≥ 0x4000 then .error .invalidInput
  else
    match Method.ofCode? (methodCode value) with
    | some m => .ok (m, Class.ofType value)
    | none => .error .unknownMethod

@[simp] theorem split_messageType (m : Method) (c : Class) :
    splitMessageType (messageType m c) = .ok (m, c) := by
  cases m <;> cases c <;> rfl

end NatRelay.Stun
