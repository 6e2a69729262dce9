/-! Floating-point numbers of 64 bits as exact values: a mantissa below 2 to the 53
times a power of two. Decimals are read by rounding to the nearest, a half going to the even
mantissa, in exact arithmetic. -/
namespace NatRelay

inductive Binary64 where
  /-- The mantissa times 2 to the exponent. -/
  | finite (negative : Bool) (mantissa : Nat) (exponent : Int)
  | infinite (negative : Bool)
  | nan
  deriving DecidableEq

namespace Binary64

-- Powers are those of the core library in every scope.
attribute [local instance(5000)] instPowNat

/-- Least mantissa beside exponents that are not the least: 2 to the 52. -/
def leastMantissa : Nat := 0x10000000000000

/-- Least exponent, used by all numbers with a mantissa below 2 to the 52. -/
def minExponent : Int := -1074

/-- Greatest exponent. -/
def maxExponent : Int := 971

/-- The quotient rounded to the nearest, a half to the even neighbour. -/
def roundHalfEven (num den : Nat) : Nat :=
  let q := num / den
  let r := num % den
  if 2 * r < den then q
  else if 2 * r > den then q + 1
  else q + q % 2

/-- Number of decimal digits; none for zero. -/
def decimalLength (n : Nat) : Nat := if n = 0 then 0 else (Nat.toDigits 10 n).length

/-- The greatest `e` such that 2 to the `e` is at most the quotient. -/
def floorLog2 (num den : Nat) : Int :=
  let e : Int := (num.log2 : Int) - den.log2
  let reaches := if e ≥ 0 then den * 2 ^ e.toNat ≤ num else den ≤ num * 2 ^ (-e).toNat
  if reaches then e else e - 1

/-- The nearest number to a positive quotient. -/
def ofQuotient (negative : Bool) (num den : Nat) : Binary64 :=
  let q := max (floorLog2 num den - 52) minExponent
  let m := if q ≥ 0 then roundHalfEven num (den * 2 ^ q.toNat)
    else roundHalfEven (num * 2 ^ (-q).toNat) den
  let (m, q) := if m = 2 * leastMantissa then (leastMantissa, q + 1) else (m, q)
  if q > maxExponent then infinite negative else finite negative m q

/-- The nearest number to a mantissa times a power of ten. Far outside the range the result is
known from the number of digits. -/
def ofDecimal (negative : Bool) (mantissa : Nat) (exponent : Int) : Binary64 :=
  let magnitude : Int := decimalLength mantissa + exponent
  if mantissa = 0 ∨ magnitude < -330 then finite negative 0 minExponent
  else if magnitude > 310 then infinite negative
  else if exponent ≥ 0 then ofQuotient negative (mantissa * 10 ^ exponent.toNat) 1
  else ofQuotient negative mantissa (10 ^ (-exponent).toNat)

/-- A whole number rounded to 53 binary digits. -/
def roundWhole (n : Nat) : Nat :=
  let unit := 2 ^ (n.log2 - 52)
  roundHalfEven n unit * unit

/-- The least whole number that rounds to infinity, half a unit above the greatest that does not. -/
def firstInfinite : Nat := (4 * leastMantissa - 1) * 2 ^ (maxExponent.toNat - 1)

/-- Whether a whole number times a power of ten comes out infinite when both are rounded before they
are multiplied. Powers of ten are known up to the 308th. -/
def overflows (n exponent : Nat) : Bool :=
  n != 0 && (exponent > 308 || firstInfinite ≤ roundWhole n * roundWhole (10 ^ exponent))

/-- The nearest whole number held between zero and `top`; a half goes away from zero. -/
def toNatClamped (top : Nat) : Binary64 → Nat
  | finite true _ _ | infinite true | nan => 0
  | infinite false => top
  | finite false m q =>
    let n := if q ≥ 0 then m * 2 ^ q.toNat
      else (2 * m + 2 ^ (-q).toNat) / (2 * 2 ^ (-q).toNat)
    min n top

end Binary64
end NatRelay
