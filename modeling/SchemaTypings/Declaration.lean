import SchemaTypings.Definition
import SchemaTypings.Layout.Listing

/-!
# TypeScript declarations

The declarations a generated module consists of, and the texts of the types they
mention. A declaration is laid out as fragments, so its indentation and line ends
are decided by the listing it is added to.
-/

namespace SchemaTypings

open Layout

/-! ### Texts of types -/

def targetLanguage : String := "typescript"

def StandardScalar.primitive : StandardScalar → String
  | string => "string"
  | int => "number"
  | float => "number"
  | boolean => "boolean"
  | id => "string"

def arrayOf (item : String) : String := item ++ "[]"

/-! ### Members -/

/-- A property of an interface. -/
structure Member where
  name : String
  type : String
  isOptional : Bool
  isReadonly : Bool
deriving DecidableEq, Repr

def Member.line (member : Member) : String :=
  (if member.isReadonly then "readonly " else "") ++ member.name
    ++ (if member.isOptional then "?" else "") ++ ": " ++ member.type ++ ";"

/-! ### Declarations -/

/-- A declaration. The members of an interface are prepared lines, so any text can
stand in its body. -/
inductive Declaration where
  | typeAlias (name target : String)
  | enumeration (name : String) (members : List String) (isExported : Bool)
  | interface (name : String) (parents members : List String) (isExported : Bool)
deriving DecidableEq, Repr

namespace Declaration

/-- Members of an enumeration, with a comma after each but the last. -/
def separated : List String → List String
  | [] => []
  | [last] => [last]
  | member :: rest => (member ++ ",") :: separated rest

/-- The word that makes a declaration visible outside its module. -/
def exportMark (isExported : Bool) : String :=
  if isExported then "export " else ""

/-- The clause that names the interfaces an interface extends, if any. -/
def extendsClause : List String → String
  | [] => ""
  | parents => " extends " ++ String.intercalate ", " parents

/-- The declaration of an alias, without a line end. -/
def aliasLine (name target : String) : String :=
  "type " ++ name ++ " = " ++ target

def fragments : Declaration → List Fragment
  | typeAlias name target => [.line (aliasLine name target)]
  | enumeration name members isExported =>
    [.block (exportMark isExported ++ "enum " ++ name ++ " \x7b")
      ((separated members).map .line) (some "\x7d")]
  | interface name parents members isExported =>
    [.block (exportMark isExported ++ "interface " ++ name ++ extendsClause parents ++ " \x7b")
      (members.map .line) (some "\x7d")]

def render (declaration : Declaration) : String :=
  Listing.render .declarations declaration.fragments

end Declaration

end SchemaTypings
