import NatRelay.Net.Endpoint

/-! The text form of addresses: dotted decimals for IPv4, the canonical shortened form for
IPv6, and brackets around an IPv6 address that a port follows. -/
namespace NatRelay

namespace Ip

/-- Four decimals separated by points. -/
def dotted (a : BitVec 32) : String :=
  ".".intercalate ((Numeral.digits 256 4 a.toNat).map toString)

/-- The eight groups of sixteen bits. -/
def groups (a : BitVec 128) : List Nat := Numeral.digits 65536 8 a.toNat

/-- A group in hexadecimal without leading zeros. -/
def hexGroup (n : Nat) : String := String.ofList (Nat.toDigits 16 n)

/-- Length of the run of zero groups in front. -/
def zeroRun (gs : List Nat) : Nat := (gs.takeWhile (· == 0)).length

/-- The first of the longest runs of zero groups, as start and length. -/
def longestRun : List Nat → Nat × Nat
  | [] => (0, 0)
  | g :: gs =>
    let here := zeroRun (g :: gs)
    let (start, length) := longestRun gs
    if here ≥ length then (0, here) else (start + 1, length)

def joinGroups (gs : List Nat) : String := ":".intercalate (gs.map hexGroup)

/-- The longest run of at least two zero groups is written as two colons, and an address mapped
from IPv4 ends in dotted decimals. -/
def v6Text (a : BitVec 128) : String :=
  if a.toNat >>> 32 = 0xFFFF then "::ffff:" ++ dotted (a.truncate 32)
  else
    let gs := groups a
    let (start, length) := longestRun gs
    if length ≥ 2 then joinGroups (gs.take start) ++ "::" ++ joinGroups (gs.drop (start + length))
    else joinGroups gs

/-- The text of an address. -/
def text : Ip → String
  | v4 a => dotted a
  | v6 a => v6Text a

end Ip

/-- The text of a transport address. -/
def Endpoint.text : Endpoint → String
  | v4 a p => s!"{Ip.dotted a}:{p.toNat}"
  | v6 a p _ z =>
    let zone := if z = 0 then "" else s!"%{z.toNat}"
    s!"[{Ip.v6Text a}{zone}]:{p.toNat}"

namespace AddressReader

/-- Value of a digit in a base of at most 16. -/
def digit? (base : Nat) (c : Char) : Option Nat :=
  let value? :=
    if '0' ≤ c ∧ c ≤ '9' then some (c.toNat - '0'.toNat)
    else if 'a' ≤ c ∧ c ≤ 'f' then some (c.toNat - 'a'.toNat + 10)
    else if 'A' ≤ c ∧ c ≤ 'F' then some (c.toNat - 'A'.toNat + 10)
    else none
  value?.filter (· < base)

/-- The number below `bound` that stands in front, all of its digits taken. -/
def number (base bound : Nat) (cs : List Char) : Option (Nat × List Char) :=
  let ds := cs.takeWhile fun c => (digit? base c).isSome
  let n := Numeral.value base (ds.filterMap (digit? base))
  if ds.isEmpty ∨ n ≥ bound then none else some (n, cs.drop ds.length)

/-- A decimal below 256 of at most three digits without leading zero. -/
def octet (cs : List Char) : Option (Nat × List Char) :=
  let ds := cs.takeWhile fun c => (digit? 10 c).isSome
  if ds.length > 3 ∨ (ds.length > 1 ∧ ds.head? = some '0') then none else number 10 256 cs

/-- One to four hexadecimal digits. -/
def group (cs : List Char) : Option (Nat × List Char) :=
  let ds := cs.takeWhile fun c => (digit? 16 c).isSome
  if ds.length > 4 then none else number 16 65536 cs

/-- The given character. -/
def mark (c : Char) : List Char → Option (List Char)
  | d :: rest => if d = c then some rest else none
  | [] => none

/-- An IPv4 address in front. -/
def v4 (cs : List Char) : Option (BitVec 32 × List Char) := do
  let (a, cs) ← octet cs
  let cs ← mark '.' cs
  let (b, cs) ← octet cs
  let cs ← mark '.' cs
  let (c, cs) ← octet cs
  let cs ← mark '.' cs
  let (d, cs) ← octet cs
  pure (BitVec.ofNat 32 (Numeral.value 256 [a, b, c, d]), cs)

/-- A separating colon, except in front of the first group. -/
def separator (first : Bool) (cs : List Char) : Option (List Char) :=
  if first then some cs else mark ':' cs

/-- Colon-separated groups that fill at most `slots` places; two of them may be written as an IPv4
address, after which no group follows. -/
def groups (first : Bool) : Nat → List Char → List Nat × Bool × List Char
  | 0, cs => ([], false, cs)
  | slots + 1, cs =>
    let tail := if slots = 0 then none else (separator first cs).bind v4
    match tail with
    | some (a, rest) => ([a.toNat / 65536, a.toNat % 65536], true, rest)
    | none =>
      match (separator first cs).bind group with
      | some (g, rest) =>
        let (gs, dotted, rest) := groups false slots rest
        (g :: gs, dotted, rest)
      | none => ([], false, cs)

/-- An IPv6 address in front. -/
def v6 (cs : List Char) : Option (BitVec 128 × List Char) :=
  let ofGroups (gs : List Nat) := BitVec.ofNat 128 (Numeral.value 65536 gs)
  match groups true 8 cs with
  | (front, dotted, rest) =>
    if front.length = 8 then some (ofGroups front, rest)
    else if dotted then none
    else do
      let rest ← mark ':' rest
      let rest ← mark ':' rest
      let (back, _, rest) := groups true (7 - front.length) rest
      pure (ofGroups (front ++ List.replicate (8 - front.length - back.length) 0 ++ back), rest)

/-- A port after a colon. -/
def port (cs : List Char) : Option (UInt16 × List Char) := do
  let (n, cs) ← number 10 65536 (← mark ':' cs)
  pure (UInt16.ofNat n, cs)

/-- A zone after a percent sign; absent is zero. -/
def zone (cs : List Char) : UInt32 × List Char :=
  match (mark '%' cs).bind (number 10 0x100000000) with
  | some (n, rest) => (UInt32.ofNat n, rest)
  | none => (0, cs)

def endpoint4 (cs : List Char) : Option (Endpoint × List Char) := do
  let (a, cs) ← v4 cs
  let (p, cs) ← port cs
  pure (.v4 a p, cs)

def endpoint6 (cs : List Char) : Option (Endpoint × List Char) := do
  let (a, cs) ← v6 (← mark '[' cs)
  let (z, cs) := zone cs
  let (p, cs) ← port (← mark ']' cs)
  pure (.v6 a p 0 z, cs)

/-- What was read, if nothing is left over. -/
def whole {α : Type} : Option (α × List Char) → Option α
  | some (a, []) => some a
  | _ => none

end AddressReader

/-- Read an IP address. -/
def Ip.ofText? (s : String) : Option Ip :=
  match AddressReader.v4 s.toList with
  | some (a, rest) => AddressReader.whole (some (.v4 a, rest))
  | none => AddressReader.whole ((AddressReader.v6 s.toList).map fun (a, rest) => (.v6 a, rest))

/-- Read a transport address. -/
def Endpoint.ofText? (s : String) : Option Endpoint :=
  AddressReader.whole ((AddressReader.endpoint4 s.toList).or (AddressReader.endpoint6 s.toList))

end NatRelay
