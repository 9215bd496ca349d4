/-!
# Decimal numbers

A decimal number is a coefficient times a power of ten. `Decimal.overflows` says
whether it lies beyond the finite numbers of 64-bit binary floating point.
-/

namespace SchemaTypings

/-- The number `± coefficient · 10 ^ exponent`. -/
structure Decimal where
  negative : Bool
  coefficient : Nat
  exponent : Int
deriving DecidableEq, Repr

namespace Decimal

def natOfDigits (digits : List Char) : Nat :=
  digits.foldl (fun value c => 10 * value + (c.toNat - '0'.toNat)) 0

/-- Half a unit beyond the largest finite 64-bit floating point number: from here
on, rounding to nearest gives infinity. -/
def overflowBound : Nat := Nat.pow 2 1024 - Nat.pow 2 970

/-- How many digits a natural number has in decimal, none for zero. -/
def digitCount (n : Nat) : Nat :=
  if n = 0 then 0 else (Nat.toDigits 10 n).length

/-- The number is infinite as a 64-bit floating point number. The number of
digits before the point decides at once for numbers that are far from the bound,
whose powers of ten would be too large to compute with. -/
def overflows (d : Decimal) : Bool :=
  let places := (digitCount d.coefficient : Int) + d.exponent
  if d.coefficient = 0 then false
  else if places < 309 then false
  else if places > 309 then true
  else if 0 ≤ d.exponent then overflowBound ≤ d.coefficient * Nat.pow 10 d.exponent.toNat
  else overflowBound * Nat.pow 10 (-d.exponent).toNat ≤ d.coefficient

end Decimal

end SchemaTypings
