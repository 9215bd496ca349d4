import SchemaTypings.Rules.Effective
import SchemaTypings.Sdl.Load

/-!
# Generating a module

A generator renders the visible definitions of a schema in order and puts the
texts one after the other. The first definition that cannot be rendered decides
the outcome, and nothing is generated. While it works, a generator records what it
does.
-/

namespace SchemaTypings

/-! ### Results and events -/

structure Generated where
  moduleName : String
  content : String
deriving DecidableEq, Repr

def Generated.fileName (generated : Generated) : String :=
  generated.moduleName ++ ".ts"

inductive Event where
  | started (moduleName : String) (types : Nat)
  | skipped (typeName : String)
  | rendering (typeName : String) (kind : Kind)
  | finished (moduleName : String) (bytes : Nat)
deriving DecidableEq, Repr

inductive Level where
  | debug
  | trace
deriving DecidableEq, Repr

inductive Detail where
  | text (value : String)
  | number (value : Nat)
deriving DecidableEq, Repr

namespace Event

def level : Event → Level
  | started _ _ => .debug
  | skipped _ => .trace
  | rendering _ _ => .trace
  | finished _ _ => .debug

def message : Event → String
  | started _ _ => "generating declarations"
  | skipped _ => "skipping reserved type"
  | rendering _ _ => "generating type"
  | finished _ _ => "generation finished"

def details : Event → List (String × Detail)
  | started moduleName types =>
    [("module", .text moduleName), ("language", .text targetLanguage), ("types", .number types)]
  | skipped typeName => [("type_name", .text typeName)]
  | rendering typeName kind => [("type_name", .text typeName), ("kind", .text kind.label)]
  | finished moduleName bytes => [("module", .text moduleName), ("bytes", .number bytes)]

end Event

/-! ### Generators -/

/-- Choices of a caller, each of which has a default. -/
structure Options where
  moduleName : Option String := none
  overrides : Overrides := {}

/-- A module name and a rule for every kind of element. A generator serves any
number of schemas. -/
structure Generator where
  moduleName : String
  rules : Rules

namespace Generator

def defaultModuleName : String := "types"

def ofOptions (options : Options) : Generator :=
  ⟨options.moduleName.getD defaultModuleName, .overriding options.overrides⟩

/-- Renders definitions in order and records it. -/
def renderAll (context : Context) : List Definition → List Event × Answer
  | [] => ([], .ok "")
  | definition :: rest =>
    if isReserved definition.name then
      let (events, answer) := renderAll context rest
      (.skipped definition.name :: events, answer)
    else
      let event := Event.rendering definition.name definition.kind
      match context.render definition.element with
      | .error error => ([event], .error error)
      | .ok text =>
        let (events, answer) := renderAll context rest
        (event :: events, answer.map (text ++ ·))

def run (generator : Generator) (schema : Schema) :
    List Event × Except GenerateError Generated :=
  let started := Event.started generator.moduleName schema.size
  let context := generator.rules.context generator.moduleName schema
  match renderAll context schema.toList with
  | (events, .error error) => (started :: events, .error error)
  | (events, .ok content) =>
    (started :: events ++ [.finished generator.moduleName content.utf8ByteSize],
      .ok ⟨generator.moduleName, content⟩)

def generate (generator : Generator) (schema : Schema) : Except GenerateError Generated :=
  (generator.run schema).2

/-- Loads a text and generates a module for its schema, and records what is
generated. -/
def runSource (generator : Generator) (text : String) :
    List Event × Except GenerateError Generated :=
  match Sdl.load ⟨Sdl.defaultSourceName, text⟩ with
  | .error error => ([], .error (.schema error))
  | .ok schema => generator.run schema

def generateSource (generator : Generator) (text : String) : Except GenerateError Generated :=
  (generator.runSource text).2

end Generator

/-- Generates a module for a schema. -/
def generateTypes (schema : Schema) (options : Options) : Except GenerateError Generated :=
  (Generator.ofOptions options).generate schema

def generateTypesFromSource (text : String) (options : Options) :
    Except GenerateError Generated :=
  (Generator.ofOptions options).generateSource text

end SchemaTypings
