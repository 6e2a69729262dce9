import NatRelay.Digest.Block

/-! Keyed hashing (HMAC) over any hash function with blocks of 64 bytes. -/
namespace NatRelay.Hmac
open Digest

/-- The key filled with zeros to one block; a longer key is hashed first. -/
def blockKey (hash : Bytes → Bytes) (key : Bytes) : Bytes :=
  let key := if key.length > blockSize then hash key else key
  key ++ List.replicate (blockSize - key.length) 0

/-- The code of a message under a key. -/
def code (hash : Bytes → Bytes) (key message : Bytes) : Bytes :=
  let k := blockKey hash key
  hash (k.map (· ^^^ 0x5c) ++ hash (k.map (· ^^^ 0x36) ++ message))

end NatRelay.Hmac
