import SchemaTypings.Sdl.Token

/-!
# Grammar of the schema definition language

One reader per rule of the grammar, from constant values up to a whole document.
Rules are tried in the order of the grammar and never revised, so where a text is
no document, the furthest place where a rule failed is the place to report.
-/

namespace SchemaTypings.Sdl

open Text Reader

/-- A reader's list, or the empty list where it fails. -/
def orEmpty {α : Type} (read : Reader (List α)) : Reader (List α) :=
  orElse read (done [])

def description : Reader Unit :=
  orElse string (done ())

/-- The word that makes a declaration an extension. -/
def extend : Reader Unit := rule (literal "extend")

/-! ### Constant values -/

/-- A value that holds no number. -/
def plainValue : Reader Unit := firstOf
  [ string,
    rule (orElse (literal "true") (literal "false")),
    rule (literal "null"),
    andThen enumValue fun _ => done () ]

/-- A list of values that `value` reads. -/
def listOf (value : Reader (List Number)) : Reader (List Number) := rule do
  literal "["
  let numbers ← many value
  literal "]"
  return numbers.flatten

/-- An object whose members' values `value` reads. -/
def objectOf (value : Reader (List Number)) : Reader (List Number) := rule do
  literal "\x7b"
  let numbers ← many <| rule do
    let _ ← name
    literal ":"
    value
  literal "\x7d"
  return numbers.flatten

/-- The numbers in a constant value that is nested less than `depth` deep. -/
def valueWithin : (depth : Nat) → Reader (List Number)
  | 0 => fun _ => ⟨none, none⟩
  | depth + 1 => rule <| firstOf
    [ andThen number fun n => done [n],
      andThen plainValue fun _ => done [],
      listOf (valueWithin depth),
      objectOf (valueWithin depth) ]

/-- The numbers in a constant value. Every level of nesting takes a bracket, so no
value is nested as deep as the text is long. -/
def constValue : Reader (List Number) := fun text => valueWithin (text.length + 1) text

/-! ### Directives and arguments -/

/-- The numbers in the arguments given to a directive. -/
def directiveArguments : Reader (List Number) := rule do
  literal "("
  let numbers ← several <| rule do
    let _ ← name
    literal ":"
    constValue
  literal ")"
  return numbers.flatten

/-- The numbers in a run of directives. -/
def directives : Reader (List Number) := rule do
  let numbers ← several <| rule do
    literal "@"
    let _ ← name
    orEmpty directiveArguments
  return numbers.flatten

def defaultValue : Reader (List Number) := rule do
  literal "="
  constValue

/-- The numbers in the declaration of an argument or an input field. -/
def inputValue : Reader (List Number) := rule do
  description
  let _ ← name
  literal ":"
  let _ ← typeRef
  let default ← orEmpty defaultValue
  let applied ← orEmpty directives
  return default ++ applied

/-- The numbers in the declared arguments of a field or a directive. -/
def arguments : Reader (List Number) := rule do
  literal "("
  let numbers ← several inputValue
  literal ")"
  return numbers.flatten

/-! ### Members of types -/

def field : Reader (FieldDecl × List Number) := rule do
  description
  let name ← name
  let inArguments ← orEmpty arguments
  literal ":"
  let type ← typeRef
  let applied ← orEmpty directives
  return (⟨name, type⟩, inArguments ++ applied)

def fields : Reader (List (FieldDecl × List Number)) := rule do
  literal "\x7b"
  let fields ← several field
  literal "\x7d"
  return fields

def interfaces : Reader (List String) := rule do
  literal "implements"
  let _ ← optional (literal "&")
  let first ← name
  let others ← many do
    literal "&"
    name
  return (first :: others).map Located.value

def enumValues : Reader (List (String × List Number)) := rule do
  literal "\x7b"
  let values ← several <| rule do
    description
    let value ← enumValue
    let applied ← orEmpty directives
    return (value, applied)
  literal "\x7d"
  return values

def unionMembers : Reader Unit := rule do
  literal "="
  let _ ← optional (literal "|")
  let _ ← name
  let _ ← many do
    literal "|"
    name

/-- The numbers in the fields of an input object, in braces. -/
def inputFields : Reader (List Number) := rule do
  literal "\x7b"
  let numbers ← several inputValue
  literal "\x7d"
  return numbers.flatten

/-! ### Type declarations -/

/-- What follows the name in a type declaration: directives and a body, whose
numbers are kept in order. -/
abbrev Rest := Body × List Number

/-- The start of a type declaration, up to its name. -/
def declaring (keyword : String) : Reader (Located String) := do
  description
  literal keyword
  name

/-- The start of a type extension, up to its name. -/
def extending (keyword : String) : Reader (Located String) := do
  extend
  literal keyword
  name

/-- Directives and a body; in an extension one of the two must be there. -/
def directivesAnd {α : Type} (body : Reader α) : Reader (List Number × Option α) :=
  orElse
    (do
      let applied ← orEmpty directives
      let body ← body
      return (applied, some body))
    (do
      let applied ← directives
      return (applied, none))

/-- Directives and a body, each of which may be missing. -/
def maybeDirectivesAnd {α : Type} (body : Reader α) : Reader (List Number × Option α) := do
  let applied ← orEmpty directives
  let body ← optional body
  return (applied, body)

/-- A declaration or an extension, by what may follow the name in either. -/
def declaration (keyword : String) (declared extended : Reader Rest) :
    Reader (TypeDecl × List Number) :=
  rule <| orElse
    (do
      let name ← declaring keyword
      let (body, numbers) ← declared
      return (⟨name, false, body⟩, numbers))
    (do
      let name ← extending keyword
      let (body, numbers) ← extended
      return (⟨name, true, body⟩, numbers))

/-- A record's interfaces and fields, and the numbers in it. -/
def recordRest (make : List FieldDecl → List String → Body) (interfaces : List String)
    (rest : List Number × Option (List (FieldDecl × List Number))) : Rest :=
  let fields := rest.2.getD []
  (make (fields.map Prod.fst) interfaces, rest.1 ++ (fields.map Prod.snd).flatten)

/-- An enumeration's values, and the numbers in it. -/
def enumerationRest (rest : List Number × Option (List (String × List Number))) : Rest :=
  let values := rest.2.getD []
  (.enumeration (values.map Prod.fst), rest.1 ++ (values.map Prod.snd).flatten)

def scalarType : Reader (TypeDecl × List Number) :=
  declaration "scalar"
    (do return (.scalar, ← orEmpty directives))
    (do return (.scalar, ← directives))

def objectType : Reader (TypeDecl × List Number) :=
  declaration "type"
    (do
      let implemented ← orEmpty interfaces
      return recordRest .object implemented (← maybeDirectivesAnd fields))
    (orElse
      (do
        let implemented ← orEmpty interfaces
        return recordRest .object implemented (← directivesAnd fields))
      (do return (.object [] (← interfaces), [])))

def interfaceType : Reader (TypeDecl × List Number) :=
  declaration "interface"
    (do
      let implemented ← orEmpty interfaces
      return recordRest .interface implemented (← maybeDirectivesAnd fields))
    (do
      let implemented ← orEmpty interfaces
      return recordRest .interface implemented (← directivesAnd fields))

def unionType : Reader (TypeDecl × List Number) :=
  declaration "union"
    (do return (.union, (← maybeDirectivesAnd unionMembers).1))
    (do return (.union, (← directivesAnd unionMembers).1))

def enumType : Reader (TypeDecl × List Number) :=
  declaration "enum"
    (do return enumerationRest (← maybeDirectivesAnd enumValues))
    (do return enumerationRest (← directivesAnd enumValues))

def inputObjectType : Reader (TypeDecl × List Number) :=
  declaration "input"
    (do
      let (applied, fields) ← maybeDirectivesAnd inputFields
      return (.inputObject, applied ++ fields.getD []))
    (do
      let (applied, fields) ← directivesAnd inputFields
      return (.inputObject, applied ++ fields.getD []))

def typeDeclaration : Reader (TypeDecl × List Number) := rule <| firstOf
  [scalarType, objectType, interfaceType, unionType, enumType, inputObjectType]

/-! ### Schema blocks and directive declarations -/

def operation : Reader (Located Operation) := rule do
  let left ← remaining
  firstOf <| [Operation.query, .mutation, .subscription].map fun operation =>
    andThen (literal operation.keyword) fun _ => done ⟨operation, left⟩

def roots : Reader (List (Located Operation)) := do
  literal "\x7b"
  let roots ← several <| rule do
    let operation ← operation
    literal ":"
    let _ ← name
    return operation
  literal "\x7d"
  return roots

def schemaBlock : Reader SchemaBlock := rule do
  let left ← remaining
  orElse
    (do
      literal "schema"
      let numbers ← orEmpty directives
      return ⟨left, false, numbers, ← roots⟩)
    (do
      extend
      literal "schema"
      let (numbers, roots) ← directivesAnd roots
      return ⟨left, true, numbers, roots.getD []⟩)

def directiveLocations : List String :=
  ["QUERY", "MUTATION", "SUBSCRIPTION", "FIELD_DEFINITION", "FIELD", "FRAGMENT_DEFINITION",
    "FRAGMENT_SPREAD", "INLINE_FRAGMENT", "VARIABLE_DEFINITION", "SCHEMA", "SCALAR", "OBJECT",
    "ARGUMENT_DEFINITION", "INTERFACE", "UNION", "ENUM_VALUE", "ENUM", "INPUT_OBJECT",
    "INPUT_FIELD_DEFINITION"]

def directiveLocation : Reader Unit := rule (firstOf (directiveLocations.map literal))

/-- The numbers in the declaration of a directive. -/
def directiveDeclaration : Reader (List Number) := rule do
  description
  literal "directive"
  literal "@"
  let _ ← name
  let numbers ← orEmpty arguments
  let _ ← optional (literal "repeatable")
  literal "on"
  rule do
    let _ ← optional (literal "|")
    directiveLocation
    let _ ← many do
      literal "|"
      directiveLocation
  return numbers

/-! ### Documents -/

def item : Reader Item := rule <| firstOf
  [ andThen schemaBlock fun block => done (.schema block),
    andThen typeDeclaration fun (declaration, numbers) => done (.type declaration numbers),
    andThen directiveDeclaration fun numbers => done (.directive numbers) ]

def endOfText : Reader Unit := rule fun
  | [] => ⟨none, some ((), [])⟩
  | _ => ⟨none, none⟩

/-- A whole document: at least one part, and nothing after the last. -/
def document : Reader Document := rule do
  blank
  let items ← several item
  endOfText
  return items

end SchemaTypings.Sdl
