import SchemaTypings.Number.Decimal

/-!
# 64-bit binary floating point

The finite numbers of 64-bit binary floating point as fractions of natural
numbers: the one nearest to a decimal number, and the fewest decimal digits that
lead back to it. All arithmetic is exact.
-/

namespace SchemaTypings

/-- The number `± significand · 2 ^ exponent`. -/
structure Binary where
  negative : Bool
  significand : Nat
  exponent : Int
deriving DecidableEq, Repr

namespace Binary

/-- Where a number half way between two whole numbers goes. -/
inductive Half where
  | toEven
  | up
deriving DecidableEq, Repr

/-- The quotient of two natural numbers, rounded to the nearest whole number. -/
def roundDiv (half : Half) (num den : Nat) : Nat :=
  let q := num / den
  let twice := 2 * (num % den)
  if den < twice || (den == twice && (half = .up || q % 2 == 1)) then q + 1 else q

/-- The fraction `num / den · base ^ exponent`. -/
def scaled (num den base : Nat) (exponent : Int) : Nat × Nat :=
  if 0 ≤ exponent then (num * Nat.pow base exponent.toNat, den)
  else (num, den * Nat.pow base (-exponent).toNat)

def precision : Nat := 53

def minExponent : Int := -1074

/-- The nearest number to a natural number, of two the one with an even significand.
It is a natural number too. -/
def roundNat (n : Nat) : Nat :=
  let unit := Nat.pow 2 (Nat.log2 n + 1 - precision)
  roundDiv .toEven n unit * unit

/-- The number of bits before the point of a fraction, or a number one higher. -/
def bitsOf (num den : Nat) : Int :=
  (Nat.log2 num : Int) - Nat.log2 den + 1

/-- The nearest number with a given sign to a positive fraction that does not
overflow, of two the one with an even significand. -/
def ofFraction (negative : Bool) (num den : Nat) : Binary :=
  let guess := max minExponent (bitsOf num den - 1 - precision)
  let fits (exponent : Int) : Bool :=
    let (n, d) := scaled num den 2 (-exponent)
    n < d * Nat.pow 2 precision
  let exponent := if fits guess then guess else if fits (guess + 1) then guess + 1 else guess + 2
  let (n, d) := scaled num den 2 (-exponent)
  let significand := roundDiv .toEven n d
  if significand = Nat.pow 2 precision then ⟨negative, Nat.pow 2 (precision - 1), exponent + 1⟩
  else ⟨negative, significand, exponent⟩

/-- The nearest number to a decimal number that does not overflow. A number too
small for any significand is zero. -/
def ofDecimal (d : Decimal) : Binary :=
  let places := (Decimal.digitCount d.coefficient : Int) + d.exponent
  if d.coefficient = 0 || places < -330 then ⟨d.negative, 0, minExponent⟩
  else
    let (num, den) := scaled d.coefficient 1 10 d.exponent
    ofFraction d.negative num den

/-! ### Decimal digits -/

/-- The numbers that round to a number lie between two fractions over one
denominator; the ends belong to them if the significand is even. -/
structure Interval where
  low : Nat
  value : Nat
  high : Nat
  den : Nat
  closed : Bool

/-- The interval of a positive number. Below a power of two the neighbours stand
half as far apart. -/
def interval (b : Binary) : Interval :=
  let (unit, den) := scaled 1 4 2 b.exponent
  let m := b.significand
  let atPower := m == Nat.pow 2 (precision - 1) && b.exponent != minExponent
  ⟨unit * (4 * m - (if atPower then 1 else 2)), unit * (4 * m), unit * (4 * m + 2), den,
    m % 2 == 0⟩

/-- Whether the number `digits · 10 ^ exponent` lies in an interval. -/
def Interval.holds (i : Interval) (digits : Nat) (exponent : Int) : Bool :=
  let (num, den) := scaled digits 1 10 exponent
  let x := num * i.den
  if i.closed then i.low * den ≤ x && x ≤ i.high * den
  else i.low * den < x && x < i.high * den

/-- The smallest power of ten above a fraction, as an exponent; the search starts
at `exponent` and goes up at most `steps` times. -/
def powerAbove (num den : Nat) : (steps : Nat) → (exponent : Int) → Int
  | 0, exponent => exponent
  | steps + 1, exponent =>
    let (n, d) := scaled den 1 10 exponent
    if num * d < n then exponent else powerAbove num den steps (exponent + 1)

/-- The nearer in an interval of the two decimal numbers next to its value on the
grid of a power of ten, and the higher one of two that are as near. -/
def Interval.onGrid (i : Interval) (exponent : Int) : Option Nat :=
  let (n, d) := scaled i.value i.den 10 (-exponent)
  let below := n / d
  let near := roundDiv .up n d
  let far := if near == below then below + 1 else below
  if i.holds near exponent then some near
  else if i.holds far exponent then some far
  else none

/-- The fewest digits that lead back to a number, on finer and finer grids from
`exponent` on down. -/
def shortestFrom (i : Interval) : (grids : Nat) → (exponent : Int) → Nat × Int
  | 0, exponent => ((i.onGrid exponent).getD 0, exponent)
  | grids + 1, exponent =>
    match i.onGrid exponent with
    | some digits => (digits, exponent)
    | none => shortestFrom i grids (exponent - 1)

/-- The decimal number with the fewest digits that leads back to a number, and of
several such numbers the nearest one; of two as near it is the one further from
zero. -/
def shortest (b : Binary) : Decimal :=
  if b.significand = 0 then ⟨b.negative, 0, 0⟩
  else
    let i := b.interval
    let top := powerAbove i.value i.den 700 (-330)
    let (digits, exponent) := shortestFrom i 18 top
    ⟨b.negative, digits, exponent⟩

end Binary

namespace Decimal

/-- A decimal number written out with all its places, and with at least one place
behind the point. -/
def positional (d : Decimal) : String :=
  let digits := Nat.toDigits 10 d.coefficient
  let sign := if d.negative then "-" else ""
  if 0 ≤ d.exponent then
    let zeros := if d.coefficient = 0 then 0 else d.exponent.toNat
    sign ++ String.ofList (digits ++ List.replicate zeros '0') ++ ".0"
  else
    let places := (-d.exponent).toNat
    let padded := List.replicate (places + 1 - digits.length) '0' ++ digits
    sign ++ String.ofList (padded.take (padded.length - places)) ++ "."
      ++ String.ofList (padded.drop (padded.length - places))

end Decimal

end SchemaTypings
