import SchemaTypings.Files.Access
import SchemaTypings.Files.Path
import SchemaTypings.Generator
import SchemaTypings.Report
import SchemaTypings.Settings

/-!
# Operations

The two things that can be done with a schema: checking that a module could be
generated for it, and generating the module. A module is written only if there is
a directory to write it to and writing was asked for, and only once the whole of
it has been generated.
-/

namespace SchemaTypings

inductive OperationError where
  | generation (schemaPath : String) (cause : GenerateError)
  | directory (path : String)
  | file (path : String)
deriving DecidableEq, Repr

def OperationError.message : OperationError → String
  | generation schemaPath _ => "Failed to generate types for " ++ schemaPath
  | directory path => "Failed to create " ++ path
  | file path => "Failed to write " ++ path

/-- The generation error behind a failure, if that was the reason. -/
def OperationError.cause? : OperationError → Option GenerateError
  | generation _ cause => some cause
  | _ => none

/-- Checks a schema: generates a module with the rules of the settings and keeps
only the error. -/
def check (schemaPath : String) (schema : Schema) (settings : Settings) : CheckReport :=
  let generator := Generator.ofOptions { overrides := settings.overrides }
  { schemaPath := schemaPath
    types := schema.visible.map fun definition => (definition.name, definition.kind)
    errors :=
      match generator.generate schema with
      | .ok _ => []
      | .error error => [error.message] }

def writeModule {m : Type → Type} [Monad m] (files : FileAccess m) (directory : String)
    (generated : Generated) : m (Except OperationError Target) := do
  let path := Path.join directory generated.fileName
  if ← files.createDirectories directory then
    if ← files.writeText path generated.content then
      return .ok (.written path generated.content.utf8ByteSize)
    else return .error (.file path)
  else return .error (.directory directory)

/-- Generates a module for a schema and writes it if there is an output directory
and it is no dry run. -/
def generate {m : Type → Type} [Monad m] (files : FileAccess m) (schemaPath : String)
    (schema : Schema) (options : Options) (output : Option String) (dryRun : Bool) :
    m (Except OperationError GenerateReport) := do
  match (Generator.ofOptions options).generate schema with
  | .error error => return .error (.generation schemaPath error)
  | .ok generated =>
    let target ← match output with
      | none => pure (.ok (.stdout generated.content))
      | some directory =>
        if dryRun then
          pure (.ok (.preview (Path.join directory generated.fileName) generated.content))
        else writeModule files directory generated
    return target.map fun target =>
      ⟨schemaPath, generated.moduleName, schema.visible.length, target⟩

def loadFile {m : Type → Type} [Monad m] (files : FileAccess m) (path : String) :
    m (Except Sdl.LoadError Schema) := do
  match ← files.readText path with
  | none => return .error (.unreadable path)
  | some text => return Sdl.load ⟨path, text⟩

end SchemaTypings
