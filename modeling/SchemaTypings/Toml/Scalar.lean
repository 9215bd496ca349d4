import SchemaTypings.Toml.Value

/-!
# Unquoted TOML values

Booleans, numbers, dates and times are written without quotes. Such a value is
read as one word, whose form says what it is. Blanks do not end a word if more of a
word follows them, as between a date and a time.

A number is judged by its form alone. A number of the right form need not have a
value: it can be too large, its digits can be missing behind the letter of its base,
and behind an underscore characters can follow that are no digits.
-/

namespace SchemaTypings.Toml

/-! ### Extent of a word -/

def isSpace (c : Char) : Bool := c == ' ' || c == '\t'

/-- The characters that are no part of a word. Blanks among them can stand inside a
word all the same. -/
def wordEnds : List Char := ['=', ',', '[', ']', '\x7b', '\x7d', '#', ' ', '\t', '\r', '\n']

/-- The characters of a word that is an unquoted value. -/
def isWordPart (c : Char) : Bool := !wordEnds.contains c

/-- More of a word follows the blanks that a text begins with. A quote there opens a
string. -/
def wordGoesOn (text : List Char) : Bool :=
  match text.dropWhile isSpace with
  | [] => false
  | c :: _ => isWordPart c && c != '"' && c != '\x27'

/-- The word that a text begins with, and what follows it. -/
def takeWord : List Char → List Char × List Char
  | [] => ([], [])
  | c :: rest =>
    if isWordPart c || (isSpace c && wordGoesOn rest) then
      let (word, after) := takeWord rest
      (c :: word, after)
    else ([], c :: rest)

/-! ### Digits -/

def isHexDigit (c : Char) : Bool :=
  c.isDigit || ('a' ≤ c && c ≤ 'f') || ('A' ≤ c && c ≤ 'F')

def digitValue (c : Char) : Nat :=
  if c.isDigit then c.toNat - '0'.toNat
  else if 'a' ≤ c then c.toNat - 'a'.toNat + 10
  else c.toNat - 'A'.toNat + 10

def valueOf (base : Nat) (digits : List Char) : Nat :=
  digits.foldl (fun value c => base * value + digitValue c) 0

/-- A sign, whether it is a minus, and what follows it. -/
def splitSign : List Char → Bool × List Char
  | '-' :: rest => (true, rest)
  | '+' :: rest => (false, rest)
  | word => (false, word)

/-- Every underscore stands between two digits. -/
def underscoresFit (isDigit : Char → Bool) (word : List Char) : Bool :=
  let parts := word.splitOn '_'
  (parts.dropLast.all fun part => part.getLast?.any isDigit)
    && parts.tail.all fun part => part.head?.any isDigit

def withoutUnderscores (word : List Char) : List Char := word.filter (· != '_')

/-! ### Integers -/

/-- Integers are those of signed and of unsigned 128-bit words. -/
def isInteger (value : Int) : Bool := -Nat.pow 2 127 ≤ value && value < Nat.pow 2 128

/-- The integer of a sign and an absolute value; one that is too large has no value. -/
def integerOf (negative : Bool) (size : Nat) : Value :=
  let value : Int := if negative then -size else size
  if isInteger value then .integer value else .unreadable

/-- The integer that digits of a base write, with underscores among them. -/
def basedInteger (base : Nat) (isDigit : Char → Bool) (word : List Char) : Option Value :=
  if (word.all fun c => isDigit c || c == '_') && underscoresFit isDigit word then
    if word.isEmpty then some .unreadable
    else some (integerOf false (valueOf base (withoutUnderscores word)))
  else none

/-- The integer that decimal digits write behind a sign, with underscores among
them. -/
def decimalInteger (word : List Char) : Value :=
  let (negative, body) := splitSign (withoutUnderscores word)
  if body.all Char.isDigit then integerOf negative (valueOf 10 body) else .unreadable

/-! ### Floating point numbers -/

/-- What follows a run of digits and underscores with a digit in it. Several digits
can be required not to begin with zero. -/
def afterDigits (zeroFirst : Bool) (word : List Char) : Option (List Char) :=
  let run := word.takeWhile fun c => c.isDigit || c == '_'
  let count := run.countP Char.isDigit
  if count = 0 || (1 < count && !zeroFirst && run.head? == some '0') then none
  else some (word.drop run.length)

/-- What follows a floating point number without its sign. -/
def afterFloat (word : List Char) : Option (List Char) := do
  let rest ← afterDigits false word
  let rest ← match rest with
    | '.' :: fraction => afterDigits true fraction
    | rest => some rest
  match rest with
  | 'e' :: exponent => afterDigits true (splitSign exponent).2
  | 'E' :: exponent => afterDigits true (splitSign exponent).2
  | rest => some rest

def spanDigits (word : List Char) : List Char × List Char :=
  (word.takeWhile Char.isDigit, word.dropWhile Char.isDigit)

/-- The decimal number that a floating point number without underscores writes. -/
def decimalOf (word : List Char) : Decimal :=
  let (negative, body) := splitSign word
  let (whole, rest) := spanDigits body
  let (fraction, rest) := match rest with
    | '.' :: places => spanDigits places
    | rest => ([], rest)
  let (below, power) := splitSign (rest.drop 1)
  let size : Int := valueOf 10 power
  ⟨negative, valueOf 10 (whole ++ fraction), (if below then -size else size) - fraction.length⟩

/-- The finite number that a word writes; one that is too large has no value. -/
def finiteFloat (word : List Char) : Value :=
  let number := decimalOf (withoutUnderscores word)
  if number.overflows then .unreadable else .float (.finite number)

/-! ### Words -/

/-- The number, date or time that a word writes; `body` is the word behind its sign. -/
def valueOfDigits (word body : List Char) : Option Value :=
  match body.dropWhile Char.isDigit with
  | [] =>
    if body.isEmpty || (1 < body.length && body.head? == some '0') then none
    else some (decimalInteger word)
  | c :: rest =>
    if c = '-' || c = ':' then (Datetime.ofWord? word).map .datetime
    else if (c :: rest).any fun c => c == '.' || c == 'e' || c == 'E' then
      if afterFloat body == some [] && underscoresFit Char.isDigit word then
        some (finiteFloat word)
      else none
    else if c = '_' && body.head? != some '0' && underscoresFit isHexDigit word then
      some (decimalInteger word)
    else none

def valueOfWord (word : List Char) : Option Value :=
  if word = "true".toList then some (.boolean true)
  else if word = "false".toList then some (.boolean false)
  else
    let (negative, body) := splitSign word
    if body = "inf".toList then some (.float (.infinite negative))
    else if body = "nan".toList then some (.float .notANumber)
    else
      match word with
      | '0' :: 'x' :: digits => basedInteger 16 isHexDigit digits
      | '0' :: 'o' :: digits => basedInteger 8 (fun c => '0' ≤ c && c ≤ '7') digits
      | '0' :: 'b' :: digits => basedInteger 2 (fun c => c == '0' || c == '1') digits
      | _ => valueOfDigits word body

end SchemaTypings.Toml
