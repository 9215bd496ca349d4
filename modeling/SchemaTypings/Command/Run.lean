import SchemaTypings.Command.Arguments
import SchemaTypings.Operation

/-!
# Running a command

A run reads the settings, finds the schema, and checks it or generates a module
for it. What the command is told counts for more than the settings, and a path it
is told is taken from the working directory instead of that of the settings. A run
ends with the first thing that fails.
-/

namespace SchemaTypings.Command

/-! ### Outcomes -/

inductive Outcome where
  | usage (error : UsageError)
  | version
  | help
  | noSettings (error : SettingsError)
  | noSchemaPath
  | noSchema (error : Sdl.LoadError)
  | failed (error : OperationError)
  | generated (report : GenerateReport)
  | checked (report : CheckReport)
deriving DecidableEq, Repr

def versionText : String := "gqlts 0.1.0"

def helpText : String :=
  "Generate TypeScript declarations from a GraphQL schema\n\n"
    ++ "Usage: gqlts generate [SCHEMA] [-c CONFIG] [-m MODULE_NAME] [-o OUTPUT] [--dry-run]\n"
    ++ "       gqlts check [SCHEMA] [-c CONFIG]\n"

namespace Outcome

/-- The exit status: zero for success, two for arguments that make no sense. -/
def status : Outcome → Nat
  | usage _ => 2
  | version => 0
  | help => 0
  | noSettings _ => 1
  | noSchemaPath => 1
  | noSchema _ => 1
  | failed _ => 1
  | generated _ => 0
  | checked report => if report.isValid then 0 else 1

/-- An error that ends a run, as it is printed. -/
def failure (message : String) : Printed :=
  { stderr := "Error: " ++ message ++ "\n" }

def print : Outcome → Printed
  | usage _ => { stderr := helpText }
  | version => Printed.line {} versionText
  | help => Printed.raw {} helpText
  | noSettings error => failure error.message
  | noSchemaPath => failure "no schema given; pass a path or set `schema` in gqlts.toml"
  | noSchema error => failure error.message
  | failed error => failure error.message
  | generated report => report.print
  | checked report => report.print

end Outcome

/-! ### Commands -/

variable {m : Type → Type} [Monad m]

/-- Finds and loads the schema of a run: the one that the command is told, or else
that of the settings. -/
def findSchema (files : FileAccess m) (told : Option String) (settings : Settings) :
    m (Except Outcome (String × Schema)) := do
  match told <|> settings.schemaPath with
  | none => return .error .noSchemaPath
  | some path =>
    match ← loadFile files path with
    | .error error => return .error (.noSchema error)
    | .ok schema => return .ok (path, schema)

def runGenerate (files : FileAccess m) (arguments : GenerateArguments) : m Outcome := do
  match ← Settings.discover files arguments.settings with
  | .error error => return .noSettings error
  | .ok settings =>
    match ← findSchema files arguments.schema settings with
    | .error outcome => return outcome
    | .ok (path, schema) =>
      let options : Options :=
        ⟨arguments.moduleName <|> settings.moduleName, settings.overrides⟩
      let output := arguments.output <|> settings.outputDirectory
      match ← generate files path schema options output arguments.dryRun with
      | .error error => return .failed error
      | .ok report => return .generated report

def runCheck (files : FileAccess m) (arguments : CheckArguments) : m Outcome := do
  match ← Settings.discover files arguments.settings with
  | .error error => return .noSettings error
  | .ok settings =>
    match ← findSchema files arguments.schema settings with
    | .error outcome => return outcome
    | .ok (path, schema) => return .checked (check path schema settings)

def run (files : FileAccess m) (arguments : List String) : m Outcome := do
  match Request.ofArguments arguments with
  | .error error => return .usage error
  | .ok .version => return .version
  | .ok .help => return .help
  | .ok (.generate arguments) => runGenerate files arguments
  | .ok (.check arguments) => runCheck files arguments

end SchemaTypings.Command
