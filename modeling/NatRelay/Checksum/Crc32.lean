import NatRelay.Bytes

/-! The CRC-32 of Ethernet: bits enter from the low end, the register starts and ends inverted. -/
namespace NatRelay.Crc32

/-- Shift one bit out of the register. -/
def shift (r : UInt32) : UInt32 :=
  if r &&& 1 = 1 then (r >>> 1) ^^^ 0xEDB88320 else r >>> 1

/-- Take one byte into the register. -/
def absorb (r : UInt32) (b : UInt8) : UInt32 :=
  shift (shift (shift (shift (shift (shift (shift (shift (r ^^^ b.toUInt32))))))))

/-- The checksum of a byte string. -/
def checksum (bytes : Bytes) : UInt32 := bytes.foldl absorb 0xFFFFFFFF ^^^ 0xFFFFFFFF

end NatRelay.Crc32
