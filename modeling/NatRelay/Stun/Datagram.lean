import NatRelay.Stun.Wire

/-! ChannelData frames, and telling them from STUN messages by the top two bits. -/
namespace NatRelay.Stun

/-- A channel number and the data sent on it. -/
structure ChannelData where
  number : UInt16
  data : Bytes
  deriving DecidableEq

/-- Whether a client may bind the channel number. -/
def isChannelNumber (n : UInt16) : Bool := 0x4000 ≤ n && n ≤ 0x7FFE

namespace ChannelData

/-- The number, the length and the data padded to four bytes. -/
def encode (c : ChannelData) : Except Error Bytes :=
  if c.data.length > maxLength then .error .invalidInput
  else .ok (Bytes.be16 c.number ++ Bytes.be16 (UInt16.ofNat c.data.length) ++ c.data ++
    Bytes.padding c.data.length)

/-- Read a frame, padded or not. -/
def decode : Bytes → Except Error ChannelData
  | n₁ :: n₀ :: l₁ :: l₀ :: body =>
    let number := Bytes.word16 n₁ n₀
    let length := (Bytes.word16 l₁ l₀).toNat
    if number.toNat / 0x4000 ≠ 1 then .error .invalidInput
    else if body.length ≠ length ∧ body.length ≠ Bytes.paddedLength length then
      .error .invalidInput
    else .ok ⟨number, body.take length⟩
  | _ => .error .invalidInput

end ChannelData

/-- What arrives on a listening socket. -/
inductive Datagram where
  | message (received : Received)
  | channelData (frame : ChannelData)
  deriving DecidableEq

/-- Read a datagram of either framing. -/
def Datagram.decode (bytes : Bytes) : Except Error Datagram :=
  match bytes with
  | first :: _ :: _ :: _ :: _ =>
    match first.toNat / 64 with
    | 0 => .message <$> Received.decode bytes
    | 1 => .channelData <$> ChannelData.decode bytes
    | _ => .error .invalidInput
  | _ => .error .invalidInput

/-- The class of a STUN message from its first two bytes alone. -/
def peekClass : Bytes → Option Class
  | high :: low :: _ => if high.toNat / 64 = 0 then some (.ofType (Bytes.word16 high low)) else none
  | _ => none

end NatRelay.Stun
