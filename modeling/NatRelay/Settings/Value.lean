import NatRelay.Number.Reading
import NatRelay.Number.Shortest

/-! Values of settings. A text that reads as a truth value or as a number is one, and is written out
again as such. -/
namespace NatRelay.Settings

inductive Value where
  | bool (b : Bool)
  /-- A whole number of 64 bits with a sign. -/
  | integer (n : Int)
  | real (x : Binary64)
  | text (s : String)

/-- Lower case for the letters of ASCII. -/
def lower (s : String) : String := String.ofList (s.toList.map Char.toLower)

namespace Value

/-- The value that a text stands for. -/
def ofText (s : String) : Value :=
  let fits (n : Int) : Bool := -0x8000000000000000 ≤ n ∧ n < 0x8000000000000000
  let number :=
    match (intOfText? s.toList).filter fits with
    | some n => some (integer n)
    | none => (Binary64.ofText? s.toList).map real
  if lower s = "true" then bool true
  else if lower s = "false" then bool false
  else number.getD (text s)

/-- The value as text. -/
def render : Value → String
  | bool b => if b then "true" else "false"
  | integer n => toString n
  | real x => x.text
  | text s => s

/-- The value as a count below 2 to the 64. Fractions are rounded, and what is too small or too
great is held to the bounds; a negative whole number is none, and of texts only words for yes and no
are. -/
def toCount? : Value → Option Nat
  | bool b => some (if b then 1 else 0)
  | integer n => if n < 0 then none else some n.toNat
  | real x => some (x.toNatClamped 0xFFFFFFFFFFFFFFFF)
  | text s =>
    if lower s ∈ ["true", "on", "yes"] then some 1
    else if lower s ∈ ["false", "off", "no"] then some 0
    else none

end Value
end NatRelay.Settings
