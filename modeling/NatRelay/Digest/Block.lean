import NatRelay.Bytes

/-! The shape that MD5, SHA-1 and SHA-256 share: a message is padded to whole blocks of 64 bytes,
and a compression function folds the blocks into a chaining state. -/
namespace NatRelay.Digest

/-- Bytes in one block. -/
def blockSize : Nat := 64

/-- A one bit, zeros, and the eight given bytes of length, so that whole blocks result. -/
def pad (message lengthField : Bytes) : Bytes :=
  message ++ 0x80 :: List.replicate ((119 - message.length % 64) % 64) 0 ++ lengthField

/-- The consecutive blocks of a byte string; a shorter last block is kept. -/
def blocks (bytes : Bytes) : List Bytes :=
  if bytes.length = 0 then [] else bytes.take blockSize :: blocks (bytes.drop blockSize)
termination_by bytes.length
decreasing_by simp [blockSize]; omega

/-- Words of four bytes, each read by `word`. -/
def words (word : Bytes → UInt32) : Bytes → List UInt32
  | a :: b :: c :: d :: rest => word [a, b, c, d] :: words word rest
  | _ => []

/-- The bits of the message counted modulo 2 to the 64. -/
def bitLength (message : Bytes) : Nat := message.length * 8 % 0x10000000000000000

def rotateLeft (x : UInt32) (n : UInt32) : UInt32 := (x <<< n) ||| (x >>> (32 - n))

def rotateRight (x : UInt32) (n : UInt32) : UInt32 := (x >>> n) ||| (x <<< (32 - n))

end NatRelay.Digest
