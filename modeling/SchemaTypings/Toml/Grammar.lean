import SchemaTypings.Text.Reader
import SchemaTypings.Toml.Quoted
import SchemaTypings.Toml.Scalar
import SchemaTypings.Toml.Table

/-!
# Grammar of TOML

A document is a sequence of lines, each of which holds at most one header or
assignment. Inside brackets a value may go on over several lines; inside braces it
may not. How deep values may be nested is limited, and so is how many keys may stand
in one path.
-/

namespace SchemaTypings.Toml

open Text Reader

/-! ### Blanks -/

def spaces : Reader Unit := fun text => ⟨none, some ((), text.dropWhile isSpace)⟩

/-- What follows a comment, whose text holds no control characters. -/
def afterComment : List Char → Option (List Char)
  | [] => some []
  | '\n' :: rest => some ('\n' :: rest)
  | '\r' :: '\n' :: rest => some ('\r' :: '\n' :: rest)
  | c :: rest => if isPlain c then afterComment rest else none

/-- The end of a line, with a comment before it. -/
def lineEnd : Reader Unit := ofFunction fun text => do
  let rest ← match text.dropWhile isSpace with
    | '#' :: comment => afterComment comment
    | rest => some rest
  match rest with
  | [] => some ((), [])
  | '\n' :: rest => some ((), rest)
  | '\r' :: '\n' :: rest => some ((), rest)
  | _ => none

/-- Blanks, comments and line ends; `inComment` says whether the text begins inside
a comment. -/
def afterGap : (inComment : Bool) → List Char → Option (List Char)
  | _, [] => some []
  | _, '\n' :: rest => afterGap false rest
  | _, '\r' :: '\n' :: rest => afterGap false rest
  | true, c :: rest => if isPlain c then afterGap true rest else none
  | false, c :: rest =>
    if isSpace c then afterGap false rest
    else if c = '#' then afterGap true rest
    else some (c :: rest)

/-- Blanks, comments and line ends between the values of an array. -/
def gap : Reader Unit := ofFunction fun text => (afterGap false text).map fun rest => ((), rest)

def mark (c : Char) : Reader Unit := ofFunction fun
  | [] => none
  | d :: rest => if c = d then some ((), rest) else none

/-- How deep brackets and braces may be nested, and how many keys a path may have. -/
def maxNesting : Nat := 80

/-! ### Keys -/

def isKeyPart (c : Char) : Bool := c.isAlphanum || c == '_' || c == '-'

/-- The name of a key: a string on one line, or a bare word. -/
def takeKey (text : List Char) : Option (List Char × List Char) :=
  match text with
  | '"' :: _ => takeLineString text
  | '\x27' :: _ => takeLineString text
  | _ =>
    match text.takeWhile isKeyPart with
    | [] => none
    | name => some (name, text.dropWhile isKeyPart)

def key : Reader Key := ofFunction fun text =>
  (takeKey text).map fun (name, rest) =>
    (⟨String.ofList name, ⟨text.length, rest.length⟩⟩, rest)

/-- A key behind the keys that lead to it, with points between them. -/
def keyPath : Reader (List Key × Key) := do
  let first ← key
  let others ← many do
    spaces
    mark '.'
    spaces
    key
  let path := first :: others
  if path.length ≤ maxNesting then return (path.dropLast, path.getLast?.getD first) else fail

/-! ### Values -/

/-- A value with the stretch of text that writes it. -/
def spanned (read : Reader Value) : Reader (Span × Value) := do
  let start ← remaining
  let value ← read
  let stop ← remaining
  return (⟨start, stop⟩, value)

/-- A key with the value that `value` reads. -/
def assignmentOf (value : Reader (Span × Value)) :
    Reader (List Key × Key × Span × Value) := do
  let (parents, key) ← keyPath
  spaces
  mark '='
  spaces
  let (span, value) ← value
  return (parents, key, span, value)

/-- An array of values that `value` reads. -/
def arrayOf (value : Reader (Span × Value)) : Reader Value := do
  mark '['
  gap
  let items ← optional do
    let first ← value
    let others ← many do
      gap
      mark ','
      gap
      value
    gap
    let _ ← optional do
      mark ','
      gap
    return first :: others
  mark ']'
  return .array (items.getD [])

/-- A table in braces, of values that `value` reads. -/
def tableOf (value : Reader (Span × Value)) : Reader Value := do
  mark '\x7b'
  spaces
  let assignments ← optional do
    let first ← assignmentOf value
    let others ← many do
      spaces
      mark ','
      spaces
      assignmentOf value
    spaces
    return first :: others
  mark '\x7d'
  match inlineEntries (assignments.getD []) with
  | some entries => return .table .inline entries
  | none => fail

def stringValue : Reader Value := ofFunction fun text =>
  (takeString text).map fun (content, rest) => (.string (String.ofList content), rest)

def wordValue : Reader Value := ofFunction fun text =>
  let (word, rest) := takeWord text
  (valueOfWord word).map fun value => (value, rest)

/-- A value in which brackets and braces are nested at most `depth` deep. -/
def valueWithin : (depth : Nat) → Reader (Span × Value)
  | 0 => spanned <| firstOf [stringValue, wordValue]
  | depth + 1 => spanned <| firstOf
    [stringValue, arrayOf (valueWithin depth), tableOf (valueWithin depth), wordValue]

def value : Reader (Span × Value) := valueWithin maxNesting

/-! ### Lines -/

def arrayHeader : Reader Statement := do
  let start ← remaining
  mark '['
  mark '['
  spaces
  let (parents, key) ← keyPath
  spaces
  mark ']'
  mark ']'
  let stop ← remaining
  return .arrayHeader parents key ⟨start, stop⟩

def header : Reader Statement := do
  let start ← remaining
  mark '['
  spaces
  let (parents, key) ← keyPath
  spaces
  mark ']'
  let stop ← remaining
  return .header parents key ⟨start, stop⟩

def assignment : Reader Statement := do
  let (parents, key, span, value) ← assignmentOf value
  return .assignment parents key span value

/-- A line, with the statement on it. -/
def line : Reader (Option Statement) := do
  spaces
  let statement ← optional (firstOf [arrayHeader, header, assignment])
  lineEnd
  return statement

/-- A text without the byte order mark it may begin with. -/
def withoutMark : List Char → List Char
  | '\ufeff' :: rest => rest
  | text => text

/-- The table that a text describes; none if the text is no TOML document. -/
def parse (text : List Char) : Option Entries :=
  match (many line (withoutMark text)).result with
  | some (statements, []) => rootOf (statements.filterMap id)
  | _ => none

end SchemaTypings.Toml
