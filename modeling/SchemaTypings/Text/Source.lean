import SchemaTypings.Text.Position

/-!
# Sources and labels

A source is a text that came from somewhere, and a label is a remark on a span of
it. A span is given in bytes; the places that spans are made of are known by the
number of characters left.
-/

namespace SchemaTypings.Text

/-- A text with the name it is known by. -/
structure Source where
  name : String
  text : String
deriving DecidableEq, Repr

/-- A remark on a span of a text, in bytes. -/
structure Label where
  text : String
  offset : Nat
  length : Nat
deriving DecidableEq, Repr

def textBefore (text : List Char) (left : Nat) : List Char :=
  text.take (text.length - left)

end SchemaTypings.Text
