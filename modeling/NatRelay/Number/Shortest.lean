import NatRelay.Number.Binary64

/-! The shortest decimal text of a floating-point number: the fewest digits that round back to it,
and of those the nearest to its value, the greater of two equally near. It is written without an
exponent. -/
namespace NatRelay.Binary64

-- Powers are those of the core library in every scope.
attribute [local instance(5000)] instPowNat

/-- A decimal: digits as a whole number, times a power of ten. -/
structure Decimal where
  digits : Nat
  exponent : Int

/-- Compare a decimal with `a` times 2 to the `q`. -/
def Decimal.compareWith (d : Decimal) (a : Nat) (q : Int) : Ordering :=
  compare (d.digits * 10 ^ d.exponent.toNat * 2 ^ (-q).toNat)
    (a * 2 ^ q.toNat * 10 ^ (-d.exponent).toNat)

/-- The ends of the interval that rounds to the number, in quarters of its last place. -/
def quarters (m : Nat) (q : Int) : Nat × Nat :=
  (if m = leastMantissa ∧ q > minExponent then 4 * m - 1 else 4 * m - 2, 4 * m + 2)

/-- Whether a decimal rounds to the number; the ends belong to it when the mantissa is even. -/
def Decimal.roundsTo (d : Decimal) (m : Nat) (q : Int) : Bool :=
  let (low, high) := quarters m q
  let atLow := d.compareWith low (q - 2)
  let atHigh := d.compareWith high (q - 2)
  if m % 2 = 0 then atLow != .lt && atHigh != .gt else atLow == .gt && atHigh == .lt

/-- The quotient of the number by a power of ten, as numerator and denominator. -/
def scaled (m : Nat) (q p : Int) : Nat × Nat :=
  (m * 2 ^ q.toNat * 10 ^ (-p).toNat, 2 ^ (-q).toNat * 10 ^ p.toNat)

/-- Number of digits in front of the point; not positive for small numbers. -/
def pointPlace (m : Nat) (q : Int) : Int :=
  let (num, den) := scaled m q (-400)
  (decimalLength (num / den) : Int) - 400

/-- The multiple of 10 to the `p` that rounds to the number, the nearer one of two, the upper one of
two equally near. -/
def onGrid? (m : Nat) (q p : Int) : Option Decimal :=
  let (num, den) := scaled m q p
  let below : Decimal := ⟨num / den, p⟩
  let above : Decimal := ⟨num / den + 1, p⟩
  let nearer := if 2 * (num % den) < den then [below, above] else [above, below]
  nearer.find? (·.roundsTo m q)

/-- The shortest decimal of a positive number; seventeen digits always suffice. -/
def shortest (m : Nat) (q : Int) : Decimal :=
  let k := pointPlace m q
  ((List.range 17).findSome? fun (n : Nat) => onGrid? m q (k - (n + 1 : Nat))).getD ⟨m, 0⟩

/-- Digits with a point where the exponent puts it; zeros at the end of a fraction are dropped. -/
def Decimal.text (d : Decimal) : String :=
  if d.exponent ≥ 0 then toString (d.digits * 10 ^ d.exponent.toNat)
  else
    let places := (-d.exponent).toNat
    let whole := toString (d.digits / 10 ^ places)
    let rest := Nat.toDigits 10 (d.digits % 10 ^ places)
    let fraction := List.replicate (places - rest.length) '0' ++ rest
    let fraction := (fraction.reverse.dropWhile (· == '0')).reverse
    if fraction.isEmpty then whole else whole ++ "." ++ String.ofList fraction

/-- The text of a number. -/
def text : Binary64 → String
  | nan => "NaN"
  | infinite negative => if negative then "-inf" else "inf"
  | finite negative m q =>
    (if negative then "-" else "") ++ if m = 0 then "0" else (shortest m q).text

end NatRelay.Binary64
