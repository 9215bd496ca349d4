/-!
# Positions in a text

A position is a line and a column, both counted from one; columns count
characters. There are two ways to count, which differ on a carriage return that
no line feed follows: `Position.after` takes it for one more column, and
`Position.afterReturns` takes it for a return to column one of the same line.

`byteOffset` leads from a position back to a place in the text, in bytes. It
knows line feeds only, and a position that lies past the end of its line, or of
the text, leads to that end.
-/

namespace SchemaTypings.Text

def byteSize (text : List Char) : Nat :=
  text.foldr (fun c size => c.utf8Size + size) 0

@[simp]
theorem byteSize_nil : byteSize [] = 0 := rfl

@[simp]
theorem byteSize_cons (c : Char) (text : List Char) :
    byteSize (c :: text) = c.utf8Size + byteSize text := rfl

@[simp]
theorem byteSize_append (a b : List Char) : byteSize (a ++ b) = byteSize a + byteSize b := by
  induction a with
  | nil => simp
  | cons c rest ih => simp [ih, Nat.add_assoc]

/-- A line and a column, both counted from one. -/
structure Position where
  line : Nat
  column : Nat
deriving DecidableEq, Repr

namespace Position

def start : Position := ⟨1, 1⟩

/-- One character on: a line feed starts a line, all else takes a column. -/
def step (p : Position) (c : Char) : Position :=
  if c = '\n' then ⟨p.line + 1, 1⟩ else ⟨p.line, p.column + 1⟩

/-- One character on, where a carriage return goes back to column one. -/
def stepReturns (p : Position) (c : Char) : Position :=
  if c = '\n' then ⟨p.line + 1, 1⟩
  else if c = '\r' then ⟨p.line, 1⟩
  else ⟨p.line, p.column + 1⟩

def after (text : List Char) : Position :=
  text.foldl step start

/-- The position that follows a text, where a carriage return goes back to
column one. -/
def afterReturns (text : List Char) : Position :=
  text.foldl stepReturns start

end Position

def firstLine : List Char → List Char
  | [] => []
  | c :: rest => if c = '\n' then [c] else c :: firstLine rest

def afterFirstLine : List Char → List Char
  | [] => []
  | c :: rest => if c = '\n' then rest else afterFirstLine rest

/-- The first line and what follows it make up the text. -/
theorem firstLine_append_afterFirstLine (text : List Char) :
    firstLine text ++ afterFirstLine text = text := by
  induction text with
  | nil => rfl
  | cons c rest ih =>
    by_cases h : c = '\n' <;> simp [firstLine, afterFirstLine, h, ih]

/-- Bytes up to a column, `lines` lines further down. -/
def offsetBelow : (lines : Nat) → (column : Nat) → List Char → Nat
  | 0, column, text => byteSize ((firstLine text).take (column - 1))
  | lines + 1, column, text =>
    byteSize (firstLine text) + offsetBelow lines column (afterFirstLine text)

/-- Bytes from the start of a text to a position. There is no line zero: it
counts as past the end. -/
def byteOffset (text : List Char) (p : Position) : Nat :=
  if p.line = 0 then byteSize text else offsetBelow (p.line - 1) p.column text

end SchemaTypings.Text
