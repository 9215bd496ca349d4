import SchemaTypings.Proofs.Names

/-!
# Layouts of definitions

`Definition.tokens` spells a definition in the schema definition language, token by
token. `LaidOut` relates tokens to the texts that write them in order, with blanks,
commas, byte order marks, line ends and comments between them. A gap between two tokens
may be empty unless a name would run into the next one.
-/

namespace SchemaTypings.Sdl

/-! ### Gaps -/

def lineEnds : List Char := ['\n', '\r']

def separators : List Char := [' ', '\t', ',', '\ufeff'] ++ lineEnds

/-- Separators and comments, in any number and order. A comment ends with its line. -/
inductive IsGap : List Char → Prop where
  | nil : IsGap []
  | separator {c : Char} {rest : List Char} : c ∈ separators → IsGap rest → IsGap (c :: rest)
  | comment {body rest : List Char} {ending : Char} : (∀ c ∈ body, c ∉ lineEnds) →
      ending ∈ lineEnds → IsGap rest → IsGap ('#' :: body ++ ending :: rest)

/-! ### Tokens -/

/-- The marks that a printed definition makes use of. -/
inductive Mark where
  | opening
  | closing
  | colon
  | ampersand
deriving DecidableEq, Repr

def Mark.char : Mark → Char
  | opening => '\x7b'
  | closing => '\x7d'
  | colon => ':'
  | ampersand => '&'

/-- A token: a keyword or a name, a mark, or a whole type reference. -/
inductive Token where
  | word (word : String)
  | mark (mark : Mark)
  | type (ty : TypeRef)
deriving DecidableEq, Repr

/-- The characters of a token. A type reference is spelled without gaps. -/
def Token.text : Token → List Char
  | .word w => w.toList
  | .mark m => [m.char]
  | .type ty => ty.spelling.toList

/-- The text ends with a character that can belong to a name. -/
def EndsInName (text : List Char) : Prop := ∃ c ∈ text.getLast?, isNamePart c = true

instance (text : List Char) : Decidable (EndsInName text) :=
  decidable_of_iff (text.getLast?.any isNamePart = true) (by simp [EndsInName, Option.any_eq_true])

/-- The text writes the tokens in order, each with a gap behind it. -/
inductive LaidOut : List Token → List Char → Prop where
  | nil : LaidOut [] []
  | cons {token : Token} {tokens : List Token} {gap text : List Char} : IsGap gap →
      (gap = [] → ¬ (EndsInName token.text ∧ ContinuesName text)) → LaidOut tokens text →
      LaidOut (token :: tokens) (token.text ++ gap ++ text)

end SchemaTypings.Sdl

namespace SchemaTypings

open Sdl

/-! ### Printed definitions -/

/-- Members in braces, or nothing where there are none. -/
def braced : List Token → List Token
  | [] => []
  | member :: members => .mark .opening :: member :: members ++ [.mark .closing]

def implementsTokens : List String → List Token
  | [] => []
  | first :: others =>
    .word "implements" :: .word first ::
      others.flatMap fun interface => [.mark .ampersand, .word interface]

def Field.tokens (field : Field) : List Token :=
  [.word field.name, .mark .colon, .type field.type]

def Record.tokens (keyword : String) (record : Record) : List Token :=
  .word keyword :: .word record.name ::
    (implementsTokens record.interfaces ++ braced (record.fields.toList.flatMap Field.tokens))

/-- A definition as tokens of the schema definition language. -/
def Definition.tokens : Definition → List Token
  | scalar s => [.word "scalar", .word s.name]
  | enumeration e => .word "enum" :: .word e.name :: braced (e.values.map .word)
  | object r => r.tokens "type"
  | interface r => r.tokens "interface"

/-! ### Definitions that can be printed -/

/-- No non-null mark stands directly inside another. -/
def TypeRef.MarksOnce : TypeRef → Prop
  | named _ => True
  | list item => item.MarksOnce
  | nonNull inner => inner.isNonNull = false ∧ inner.MarksOnce

instance TypeRef.decidableMarksOnce : DecidablePred TypeRef.MarksOnce
  | named _ => inferInstanceAs (Decidable True)
  | list item => decidableMarksOnce item
  | nonNull inner =>
    have := decidableMarksOnce inner
    inferInstanceAs (Decidable (inner.isNonNull = false ∧ inner.MarksOnce))

def Definition.values : Definition → List String
  | enumeration e => e.values
  | _ => []

/-- The definition can be spelled: its names are names, its field types are references to
names, and none of its values begins like a constant. -/
structure Definition.IsPrintable (definition : Definition) : Prop where
  names : ∀ name ∈ definition.ownNames, IsName name
  types : ∀ field ∈ definition.fields, IsName field.type.baseName ∧ field.type.MarksOnce
  values : ∀ value ∈ definition.values, ∀ word ∈ ["true", "false", "null"],
    ¬ word.toList <+: value.toList

end SchemaTypings
