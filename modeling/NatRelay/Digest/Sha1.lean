import NatRelay.Digest.Block

/-! SHA-1, a hash of twenty bytes. -/
namespace NatRelay.Sha1
open Digest

/-- The chaining state. -/
structure State where
  a : UInt32
  b : UInt32
  c : UInt32
  d : UInt32
  e : UInt32

def initial : State := ⟨0x67452301, 0xefcdab89, 0x98badcfe, 0x10325476, 0xc3d2e1f0⟩

/-- Extend the sixteen words of a block to eighty. -/
def schedule (block : Bytes) : Array UInt32 :=
  (List.range 64).foldl
    (fun w i => w.push (rotateLeft
      (w.getD (i + 13) 0 ^^^ w.getD (i + 8) 0 ^^^ w.getD (i + 2) 0 ^^^ w.getD i 0) 1))
    (words Bytes.word32 block).toArray

/-- The bitwise function and the constant of step `i`. -/
def mix (i : Nat) (b c d : UInt32) : UInt32 × UInt32 :=
  match i / 20 with
  | 0 => ((b &&& c) ||| (~~~b &&& d), 0x5a827999)
  | 1 => (b ^^^ c ^^^ d, 0x6ed9eba1)
  | 2 => ((b &&& c) ||| (b &&& d) ||| (c &&& d), 0x8f1bbcdc)
  | _ => (b ^^^ c ^^^ d, 0xca62c1d6)

def step (w : Array UInt32) (s : State) (i : Nat) : State :=
  let (f, k) := mix i s.b s.c s.d
  ⟨rotateLeft s.a 5 + f + s.e + k + w.getD i 0, s.a, rotateLeft s.b 30, s.c, s.d⟩

/-- Fold one block into the state. -/
def compress (s : State) (block : Bytes) : State :=
  let t := (List.range 80).foldl (step (schedule block)) s
  ⟨s.a + t.a, s.b + t.b, s.c + t.c, s.d + t.d, s.e + t.e⟩

/-- The digest: 20 bytes. -/
def hash (message : Bytes) : Bytes :=
  let s := (blocks (pad message (Bytes.ofNat 8 (bitLength message)))).foldl compress initial
  [s.a, s.b, s.c, s.d, s.e].flatMap Bytes.be32

@[simp] theorem length_hash (message : Bytes) : (hash message).length = 20 := by simp [hash]

end NatRelay.Sha1
