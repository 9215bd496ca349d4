import SchemaTypings.Number.Decimal

/-!
# Quoted TOML strings

Strings in double quotes have escapes, strings in single quotes are taken as they
are. Three quotes in a row open a string of several lines, which may hold up to
two quotes in a row, also right before the three that close it.

Each function takes a text behind the opening quotes and gives the content and the
text behind the closing quotes.
-/

namespace SchemaTypings.Toml

/-- Characters that may stand for themselves in comments and strings: all but
control characters, of which the tab is allowed. -/
def isPlain (c : Char) : Bool :=
  c == '\t' || (' ' ≤ c && c != '\x7f')

/-! ### Escapes -/

/-- The character of hexadecimal digits, if there is one. -/
def charOf (digits : List Char) : Option Char :=
  if digits.all fun c => c.isDigit || ('a' ≤ c && c ≤ 'f') || ('A' ≤ c && c ≤ 'F') then
    let code := digits.foldl (fun value c =>
      16 * value + (if c.isDigit then c.toNat - '0'.toNat
        else if 'a' ≤ c then c.toNat - 'a'.toNat + 10
        else c.toNat - 'A'.toNat + 10)) 0
    if code < 0xD800 || (0xDFFF < code && code ≤ 0x10FFFF) then some (Char.ofNat code) else none
  else none

/-- The character of a letter behind a backslash. -/
def escaped : Char → Option Char
  | 'b' => some '\x08'
  | 't' => some '\t'
  | 'n' => some '\n'
  | 'f' => some '\x0c'
  | 'r' => some '\r'
  | '"' => some '"'
  | '\\' => some '\\'
  | _ => none

/-- Adds a character to what is read behind it. -/
def consContent (c : Char) : Option (List Char × List Char) → Option (List Char × List Char)
  | some (content, rest) => some (c :: content, rest)
  | none => none

/-! ### One line -/

/-- The content of a string in double quotes. -/
def basicContent : List Char → Option (List Char × List Char)
  | [] => none
  | '"' :: rest => some ([], rest)
  | '\\' :: 'u' :: a :: b :: c :: d :: rest => do
    let char ← charOf [a, b, c, d]
    consContent char (basicContent rest)
  | '\\' :: 'U' :: a :: b :: c :: d :: e :: f :: g :: h :: rest => do
    let char ← charOf [a, b, c, d, e, f, g, h]
    consContent char (basicContent rest)
  | '\\' :: c :: rest => do
    let char ← escaped c
    consContent char (basicContent rest)
  | c :: rest => if isPlain c && c != '\\' then consContent c (basicContent rest) else none

/-- The content of a string in single quotes. -/
def literalContent : List Char → Option (List Char × List Char)
  | [] => none
  | '\x27' :: rest => some ([], rest)
  | c :: rest => if isPlain c then consContent c (literalContent rest) else none

/-! ### Several lines -/

/-- A text without the line end it begins with. -/
def afterNewline : List Char → List Char
  | '\n' :: rest => rest
  | '\r' :: '\n' :: rest => rest
  | text => text

/-- Whether a text is blank up to the end of its line. -/
def isBlankLine : List Char → Bool
  | ' ' :: rest => isBlankLine rest
  | '\t' :: rest => isBlankLine rest
  | '\n' :: _ => true
  | '\r' :: '\n' :: _ => true
  | _ => false

/-- The content of a string of several lines in double quotes. A backslash at the
end of a line takes all blanks and line ends after it away, which goes on as long
as `trimming` holds. -/
def basicLines : (trimming : Bool) → List Char → Option (List Char × List Char)
  | _, [] => none
  | true, ' ' :: rest => basicLines true rest
  | true, '\t' :: rest => basicLines true rest
  | true, '\n' :: rest => basicLines true rest
  | true, '\r' :: '\n' :: rest => basicLines true rest
  | _, '"' :: '"' :: '"' :: '"' :: '"' :: rest => some (['"', '"'], rest)
  | _, '"' :: '"' :: '"' :: '"' :: rest => some (['"'], rest)
  | _, '"' :: '"' :: '"' :: rest => some ([], rest)
  | _, '\\' :: 'u' :: a :: b :: c :: d :: rest => do
    let char ← charOf [a, b, c, d]
    consContent char (basicLines false rest)
  | _, '\\' :: 'U' :: a :: b :: c :: d :: e :: f :: g :: h :: rest => do
    let char ← charOf [a, b, c, d, e, f, g, h]
    consContent char (basicLines false rest)
  | _, '\\' :: c :: rest =>
    if isBlankLine (c :: rest) then basicLines true (c :: rest)
    else do
      let char ← escaped c
      consContent char (basicLines false rest)
  | _, '\r' :: '\n' :: rest => consContent '\r' (consContent '\n' (basicLines false rest))
  | _, c :: rest =>
    if (isPlain c && c != '\\') || c == '\n' then consContent c (basicLines false rest)
    else none

/-- The content of a string of several lines in single quotes. -/
def literalLines : List Char → Option (List Char × List Char)
  | [] => none
  | '\x27' :: '\x27' :: '\x27' :: '\x27' :: '\x27' :: rest => some (['\x27', '\x27'], rest)
  | '\x27' :: '\x27' :: '\x27' :: '\x27' :: rest => some (['\x27'], rest)
  | '\x27' :: '\x27' :: '\x27' :: rest => some ([], rest)
  | '\r' :: '\n' :: rest => consContent '\r' (consContent '\n' (literalLines rest))
  | c :: rest =>
    if isPlain c || c == '\n' then consContent c (literalLines rest) else none

/-! ### Strings -/

def takeLineString : List Char → Option (List Char × List Char)
  | '"' :: rest => basicContent rest
  | '\x27' :: rest => literalContent rest
  | _ => none

def takeString : List Char → Option (List Char × List Char)
  | '"' :: '"' :: '"' :: rest => basicLines false (afterNewline rest)
  | '\x27' :: '\x27' :: '\x27' :: rest => literalLines (afterNewline rest)
  | text => takeLineString text

end SchemaTypings.Toml
