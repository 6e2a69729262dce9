import NatRelay.Number.Binary64
import NatRelay.Numeral

/-! Reading whole and floating-point numbers from text, all of which must be used up. -/
namespace NatRelay

/-- The number of a text of decimal digits; there must be one. -/
def natOfDigits? (cs : List Char) : Option Nat :=
  if cs.isEmpty ∨ cs.any (!·.isDigit) then none
  else some (Numeral.value 10 (cs.map fun c => c.toNat - '0'.toNat))

/-- A sign in front, and whether it is a minus. -/
def splitSign : List Char → Bool × List Char
  | '-' :: cs => (true, cs)
  | '+' :: cs => (false, cs)
  | cs => (false, cs)

/-- Read a whole number with or without sign. -/
def intOfText? (cs : List Char) : Option Int :=
  let (negative, cs) := splitSign cs
  (natOfDigits? cs).map fun n => if negative then -(n : Int) else n

namespace Binary64

/-- The value of the digits, and how many of them are behind the point. -/
def mantissa? (cs : List Char) : Option (Nat × Nat) :=
  let whole := cs.takeWhile (· ≠ '.')
  let places := (cs.dropWhile (· ≠ '.')).drop 1
  (natOfDigits? (whole ++ places)).map fun n => (n, places.length)

/-- A number without its sign: digits with at most one point, and an exponent behind a letter. -/
def ofUnsigned? (negative : Bool) (cs : List Char) : Option Binary64 := do
  let isMark (c : Char) : Bool := c == 'e' || c == 'E'
  let (n, places) ← mantissa? (cs.takeWhile (!isMark ·))
  let e ← match cs.dropWhile (!isMark ·) with
    | [] => some 0
    | _ :: power => intOfText? power
  pure (ofDecimal negative n (e - places))

/-- Read a number. Infinity and NaN are written as words, in any case. -/
def ofText? (cs : List Char) : Option Binary64 :=
  let (negative, cs) := splitSign cs
  let word := String.ofList (cs.map Char.toLower)
  if word = "inf" ∨ word = "infinity" then some (infinite negative)
  else if word = "nan" then some nan
  else ofUnsigned? negative cs

end Binary64
end NatRelay
