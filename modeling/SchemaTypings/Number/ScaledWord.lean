import SchemaTypings.Number.Binary

/-!
# Words scaled by a power of ten

The digits of a number are gathered in a 64-bit word as long as they fit; a power
of ten puts the word into its place. As a 64-bit floating point number its value is
the product of two nearest numbers, that of the word and that of the power, and not
the number nearest to all its digits.
-/

namespace SchemaTypings

/-- The number `word · 10 ^ exponent`. -/
structure ScaledWord where
  word : Nat
  exponent : Int
deriving DecidableEq, Repr

namespace ScaledWord

def wordBound : Nat := Nat.pow 2 64

/-- A word with the digits that it takes up behind its own, and the digits from the
first one on that would make it too large. -/
def absorb (word : Nat) : List Char → Nat × List Char
  | [] => (word, [])
  | c :: rest =>
    let next := 10 * word + (c.toNat - '0'.toNat)
    if next < wordBound then absorb next rest else (word, c :: rest)

/-- The number that digits before and behind a point and an exponent write. A digit
before the point that is not taken up still counts as a place; a digit behind the
point that is not taken up does not count at all. -/
def ofDigits (whole fraction : List Char) (exponent : Int) : ScaledWord :=
  let (leading, places) := absorb 0 whole
  let (word, dropped) := absorb leading fraction
  ⟨word, exponent + places.length - (fraction.length - dropped.length : Nat)⟩

/-- The number is infinite as a 64-bit floating point number. A number with a
negative exponent is less than its word, and no word is infinite. -/
def overflows (number : ScaledWord) : Bool :=
  number.word != 0 && 0 ≤ number.exponent
    && (308 < number.exponent
      || Decimal.overflowBound ≤
        Binary.roundNat number.word * Binary.roundNat (Nat.pow 10 number.exponent.toNat))

end ScaledWord

end SchemaTypings
