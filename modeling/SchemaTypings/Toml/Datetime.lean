import SchemaTypings.Number.Decimal

/-!
# Dates and times

A date, a time of day, or both together; only both together can have an offset
from universal time. `Datetime.ofWord?` reads them and `Datetime.text` writes them.
What is read may have a blank or a small letter between date and time and any number
of places behind the second; what is written has a capital letter and at most nine
places.
-/

namespace SchemaTypings.Toml

/-! ### Dates -/

structure Date where
  year : Nat
  month : Nat
  day : Nat
deriving DecidableEq, Repr

def isLeapYear (year : Nat) : Bool :=
  year % 4 == 0 && (year % 100 != 0 || year % 400 == 0)

def daysIn (year month : Nat) : Nat :=
  if month = 2 then if isLeapYear year then 29 else 28
  else if [4, 6, 9, 11].contains month then 30
  else 31

def Date.isValid (date : Date) : Bool :=
  1 ≤ date.month && date.month ≤ 12 && 1 ≤ date.day && date.day ≤ daysIn date.year date.month

/-- A time of day. A second may be a leap second, and the digits of its fraction
are at most nine, the last of them not zero. -/
structure Time where
  hour : Nat
  minute : Nat
  second : Nat
  fraction : List Char
deriving DecidableEq, Repr

def Time.isValid (time : Time) : Bool :=
  time.hour ≤ 23 && time.minute ≤ 59 && time.second ≤ 60

/-- How far a time is from universal time. -/
inductive Offset where
  | universal
  | minutes (count : Int)
deriving DecidableEq, Repr

/-- A date, a time of day, or both. -/
inductive Datetime where
  | day (date : Date)
  | clock (time : Time)
  | moment (date : Date) (time : Time) (offset : Option Offset)
deriving DecidableEq, Repr

/-! ### Reading -/

/-- A number of exactly two digits. -/
def pair (a b : Char) : Option Nat :=
  if a.isDigit && b.isDigit then some (Decimal.natOfDigits [a, b]) else none

def takeDate : List Char → Option (Date × List Char)
  | a :: b :: c :: d :: '-' :: e :: f :: '-' :: g :: h :: rest => do
    let century ← pair a b
    let year ← pair c d
    let date : Date := ⟨100 * century + year, ← pair e f, ← pair g h⟩
    if date.isValid then return (date, rest) else none
  | _ => none

/-- The fraction of a second, in nine places without the zeros at its end. -/
def fractionOf (digits : List Char) : List Char :=
  ((digits.take 9).reverse.dropWhile (· == '0')).reverse

/-- The fraction that a text begins with, if it begins with a point, and what
follows it. -/
def takeFraction : List Char → Option (List Char × List Char)
  | '.' :: rest =>
    match rest.takeWhile Char.isDigit with
    | [] => none
    | digits => some (fractionOf digits, rest.dropWhile Char.isDigit)
  | rest => some ([], rest)

/-- The time that a text begins with, and what follows it. -/
def takeTime : List Char → Option (Time × List Char)
  | a :: b :: ':' :: c :: d :: ':' :: e :: f :: rest => do
    let (fraction, rest) ← takeFraction rest
    let time : Time := ⟨← pair a b, ← pair c d, ← pair e f, fraction⟩
    if time.isValid then return (time, rest) else none
  | _ => none

/-- The offset that a text writes, if it writes anything. -/
def offsetOf : List Char → Option (Option Offset)
  | [] => some none
  | ['Z'] => some (some .universal)
  | ['z'] => some (some .universal)
  | [sign, a, b, ':', c, d] => do
    let hours ← pair a b
    let minutes ← pair c d
    let count : Int := 60 * hours + minutes
    if hours ≤ 23 && minutes ≤ 59 then
      if sign = '+' then return some (.minutes count)
      else if sign = '-' then return some (.minutes (-count))
      else none
    else none
  | _ => none

/-- The date or time that a word writes. -/
def Datetime.ofWord? (word : List Char) : Option Datetime :=
  match takeDate word with
  | some (date, []) => some (.day date)
  | some (date, mark :: rest) => do
    let (time, rest) ← takeTime rest
    let offset ← offsetOf rest
    if mark = 'T' || mark = 't' || mark = ' ' then return .moment date time offset else none
  | none =>
    match takeTime word with
    | some (time, []) => some (.clock time)
    | _ => none

/-! ### Writing -/

def padded (width n : Nat) : String :=
  String.ofList ((Nat.toDigits 10 n).leftpad width '0')

def Date.text (date : Date) : String :=
  padded 4 date.year ++ "-" ++ padded 2 date.month ++ "-" ++ padded 2 date.day

def Time.text (time : Time) : String :=
  padded 2 time.hour ++ ":" ++ padded 2 time.minute ++ ":" ++ padded 2 time.second
    ++ (if time.fraction.isEmpty then "" else "." ++ String.ofList time.fraction)

def Offset.text : Offset → String
  | universal => "Z"
  | minutes count =>
    (if count < 0 then "-" else "+")
      ++ padded 2 (count.natAbs / 60) ++ ":" ++ padded 2 (count.natAbs % 60)

def Datetime.text : Datetime → String
  | day date => date.text
  | clock time => time.text
  | moment date time offset => date.text ++ "T" ++ time.text ++ (offset.map Offset.text).getD ""

end SchemaTypings.Toml
