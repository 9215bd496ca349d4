import SchemaTypings.Sdl.Document

/-!
# Tokens of the schema definition language

Each reader here takes one token, and with it the text without meaning that
follows: blanks, commas, byte order marks, line ends and comments. So between
tokens a text always stands at the start of a token or at its end.

A token ends as soon as it can: a keyword needs nothing between itself and a name
that follows, whereas a name takes every character that can belong to it.
-/

namespace SchemaTypings.Sdl

open Text

/-! ### Text without meaning -/

def isLineEnd (c : Char) : Bool := c == '\n' || c == '\r'

def isBlank (c : Char) : Bool :=
  c == ' ' || c == ',' || c == '\t' || c == '\ufeff' || isLineEnd c

/-- Drops blanks and comments; `inComment` says whether the text begins inside a
comment, which lasts up to the end of its line. -/
def skipFrom : (inComment : Bool) → List Char → List Char
  | _, [] => []
  | true, c :: rest => skipFrom (!isLineEnd c) rest
  | false, c :: rest =>
    if isBlank c then skipFrom false rest
    else if c = '#' then skipFrom true rest
    else c :: rest

/-- Drops the blanks and comments a text begins with. -/
def skipBlank (text : List Char) : List Char := skipFrom false text

/-- Reads blanks and comments, if there are any. -/
def blank : Reader Unit := fun text => ⟨none, some ((), skipBlank text)⟩

/-- A token read by a function, with the blanks that follow it. -/
def lexeme {α : Type} (read : List Char → Option (α × List Char)) : Reader α := fun text =>
  ⟨none, (read text).map fun (a, rest) => (a, skipBlank rest)⟩

/-! ### Words and marks -/

/-- A keyword or a mark, exactly as written. -/
def literal (word : String) : Reader Unit :=
  lexeme fun text => (word.toList.isPrefixOf? text).map fun rest => ((), rest)

/-! ### Names -/

def isNameStart (c : Char) : Bool := c.isAlpha || c == '_'

def isNamePart (c : Char) : Bool := c.isAlphanum || c == '_'

def takeName : List Char → Option (List Char × List Char)
  | [] => none
  | c :: rest =>
    if isNameStart c then some (c :: rest.takeWhile isNamePart, rest.dropWhile isNamePart)
    else none

def name : Reader (Located String) := Reader.rule fun text =>
  lexeme (fun text => (takeName text).map fun (cs, rest) => (⟨String.ofList cs, text.length⟩, rest)) text

/-- Words that no enumeration value may begin with. -/
def constantWords : List (List Char) := ["true".toList, "false".toList, "null".toList]

/-- A value of an enumeration: a name that begins with none of the words for
constants, not even as a part of a longer name. -/
def enumValue : Reader String := Reader.rule <| lexeme fun text =>
  if constantWords.any fun word => word.isPrefixOf text then none
  else (takeName text).map fun (cs, rest) => (String.ofList cs, rest)

/-! ### Type references -/

/-- A type with the non-null mark that may follow it. -/
def withMark (type : TypeRef) : List Char → TypeRef × List Char
  | '!' :: rest => (.nonNull type, rest)
  | rest => (type, rest)

/-- A type reference, written without blanks. -/
def takeType : List Char → Option (TypeRef × List Char)
  | '[' :: rest =>
    match takeType rest with
    | some (item, ']' :: after) => some (withMark (.list item) after)
    | _ => none
  | text => (takeName text).map fun (cs, rest) => withMark (.named (String.ofList cs)) rest

/-- The type of a field or an argument. -/
def typeRef : Reader TypeRef := Reader.rule (lexeme takeType)

/-! ### Strings -/

def isHexDigit (c : Char) : Bool :=
  c.isDigit || ('a' ≤ c && c ≤ 'f') || ('A' ≤ c && c ≤ 'F')

/-- The first two of four hexadecimal digits name one half of a surrogate pair,
which is no character. -/
def isSurrogate (a b : Char) : Bool :=
  (a == 'd' || a == 'D') && isHexDigit b && !('0' ≤ b && b ≤ '7')

/-- Characters that a backslash may stand before. -/
def isEscapable (c : Char) : Bool :=
  c == '"' || c == '\\' || c == '/' || c == 'b' || c == 'f' || c == 'n' || c == 'r' || c == 't'

/-- What follows a string, given the text behind its opening quote. -/
def afterString : List Char → Option (List Char)
  | [] => none
  | '"' :: rest => some rest
  | '\\' :: 'u' :: a :: b :: c :: d :: rest =>
    if [a, b, c, d].all isHexDigit && !isSurrogate a b then afterString rest else none
  | '\\' :: c :: rest => if isEscapable c then afterString rest else none
  | c :: rest => if c == '\\' || isLineEnd c then none else afterString rest

/-- What follows a block string, given the text behind its opening quotes. -/
def afterBlockString : List Char → Option (List Char)
  | [] => none
  | '"' :: '"' :: '"' :: rest => some rest
  | '\\' :: '"' :: '"' :: '"' :: rest => afterBlockString rest
  | _ :: rest => afterBlockString rest

/-- What follows the string that a text begins with. Three quotes that open no
block string are an empty string and a quote. -/
def dropString : List Char → Option (List Char)
  | '"' :: '"' :: '"' :: rest => afterBlockString rest <|> some ('"' :: rest)
  | '"' :: rest => afterString rest
  | _ => none

def string : Reader Unit := Reader.rule <| lexeme fun text =>
  (dropString text).map fun rest => ((), rest)

/-! ### Numbers -/

/-- The digits of a whole number: zero, or digits that do not begin with zero. -/
def takeWhole : List Char → Option (List Char × List Char)
  | '0' :: rest => some (['0'], rest)
  | text =>
    match text.takeWhile Char.isDigit with
    | [] => none
    | digits => some (digits, text.dropWhile Char.isDigit)

/-- The digits behind a decimal point, if there is a point with digits. -/
def takeFraction : List Char → List Char × List Char
  | '.' :: rest =>
    match rest.takeWhile Char.isDigit with
    | [] => ([], '.' :: rest)
    | digits => (digits, rest.dropWhile Char.isDigit)
  | text => ([], text)

/-- A sign before an exponent: whether it is a minus. -/
def takeSign : List Char → Bool × List Char
  | '-' :: rest => (true, rest)
  | '+' :: rest => (false, rest)
  | text => (false, text)

/-- The exponent, if there is a letter for it with digits. -/
def takeExponent : List Char → Int × List Char
  | [] => (0, [])
  | c :: rest =>
    if c == 'e' || c == 'E' then
      let (negative, digits) := takeSign rest
      match digits.takeWhile Char.isDigit with
      | [] => (0, c :: rest)
      | taken =>
        let size : Int := Decimal.natOfDigits taken
        (if negative then -size else size, digits.dropWhile Char.isDigit)
    else (0, c :: rest)

/-- A number behind its sign, which no letter may follow. -/
def takeUnsigned (text : List Char) : Option (ScaledWord × List Char) := do
  let (whole, rest) ← takeWhole text
  let (fraction, rest) := takeFraction rest
  let (exponent, rest) := takeExponent rest
  let number := ScaledWord.ofDigits whole fraction exponent
  match rest with
  | c :: _ => if isNameStart c then none else some (number, rest)
  | [] => some (number, rest)

/-- A number, whose sign does not matter. -/
def takeNumber : List Char → Option (ScaledWord × List Char)
  | '-' :: rest => takeUnsigned rest
  | text => takeUnsigned text

def number : Reader Number := Reader.rule fun text =>
  lexeme (fun text =>
    (takeNumber text).map fun (number, rest) => (⟨number, text.length⟩, rest)) text

end SchemaTypings.Sdl
