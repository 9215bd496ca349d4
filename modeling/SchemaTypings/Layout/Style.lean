/-!
# Layout style

How code is indented and how its lines end. Generated declarations use two blanks
and a carriage return with a line feed.
-/

namespace SchemaTypings.Layout

/-- What a level of indentation consists of. -/
inductive Indent where
  | spaces (width : Nat)
  | tab
deriving DecidableEq, Repr

/-- The text of one level. The widths in use are two, four and eight; every other
width counts as four. -/
def Indent.unit : Indent → String
  | spaces 2 => "  "
  | spaces 8 => "        "
  | spaces _ => "    "
  | tab => "\t"

inductive LineEnd where
  | lf
  | crlf
deriving DecidableEq, Repr

def LineEnd.text : LineEnd → String
  | lf => "\n"
  | crlf => "\r\n"

/-- Indentation and line ends of a piece of code. -/
structure Style where
  indent : Indent
  lineEnd : LineEnd
deriving DecidableEq, Repr

def Style.declarations : Style := ⟨.spaces 2, .crlf⟩

@[simp]
theorem Style.unit_declarations : Style.declarations.indent.unit = "  " := rfl

@[simp]
theorem Style.lineEnd_declarations : Style.declarations.lineEnd.text = "\r\n" := rfl

end SchemaTypings.Layout
