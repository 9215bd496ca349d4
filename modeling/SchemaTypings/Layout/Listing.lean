import SchemaTypings.Layout.Style
import SchemaTypings.Text.Lines

/-!
# Listings

A listing is code that grows line by line at a level of indentation. Code that
comes as a tree of fragments is emitted into a listing; a block indents its body
by one level and goes back to the level it began at.

A text of several lines is split and its lines are indented one by one, except
that an empty line stays empty.
-/

namespace SchemaTypings.Layout

/-- A piece of code: a line, an empty line, or a block between a header and an
optional closing line. -/
inductive Fragment where
  | line (text : String)
  | blank
  | block (header : String) (body : List Fragment) (close : Option String)
deriving Inhabited, Repr

/-- Code written so far, and the level at which it goes on. -/
structure Listing where
  style : Style
  level : Nat
  text : String
deriving DecidableEq, Repr

namespace Listing

def empty (style : Style) : Listing := ⟨style, 0, ""⟩

/-- The blanks before a line at the current level. -/
def indentation (listing : Listing) : String :=
  String.join (List.replicate listing.level listing.style.indent.unit)

/-! ### Single lines -/

/-- Adds a line as it is, indented. -/
def line (listing : Listing) (content : String) : Listing :=
  { listing with
    text := listing.text ++ listing.indentation ++ content ++ listing.style.lineEnd.text }

/-- Adds an empty line, not indented. -/
def blank (listing : Listing) : Listing :=
  { listing with text := listing.text ++ listing.style.lineEnd.text }

def indent (listing : Listing) : Listing :=
  { listing with level := listing.level + 1 }

/-- One level back; at the outermost level nothing changes. -/
def dedent (listing : Listing) : Listing :=
  { listing with level := listing.level - 1 }

/-- Adds a line of a longer text: an empty one is not indented. -/
def lineOf (listing : Listing) (content : List Char) : Listing :=
  if content.isEmpty then listing.blank else listing.line (String.ofList content)

def lines (listing : Listing) (content : String) : Listing :=
  (Text.lines content.toList).foldl lineOf listing

/-! ### Fragments -/

mutual

/-- Adds a fragment. A line that holds a line feed is a text of several lines. -/
def add (listing : Listing) : Fragment → Listing
  | .line text =>
    if text.toList.contains '\n' then listing.lines text else listing.line text
  | .blank => listing.blank
  | .block header body close =>
    let filled := (addAll (listing.line header).indent body).dedent
    match close with
    | none => filled
    | some text => filled.line text

def addAll (listing : Listing) : List Fragment → Listing
  | [] => listing
  | fragment :: rest => addAll (add listing fragment) rest

end

/-- The text of fragments in a style, from the outermost level on. -/
def render (style : Style) (fragments : List Fragment) : String :=
  (addAll (empty style) fragments).text

end Listing

end SchemaTypings.Layout
