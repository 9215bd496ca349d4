import SchemaTypings.Definition

/-!
# Reports

What a command found or did, and how it is printed. A report prints to two
outputs: results go to the standard output, errors to the error output.
-/

namespace SchemaTypings

/-! ### Printing -/

/-- The texts printed to the standard output and to the error output. -/
structure Printed where
  stdout : String := ""
  stderr : String := ""
deriving DecidableEq, Repr

namespace Printed

def raw (printed : Printed) (text : String) : Printed :=
  { printed with stdout := printed.stdout ++ text }

def line (printed : Printed) (text : String) : Printed :=
  printed.raw (text ++ "\n")

def keyValue (printed : Printed) (key value : String) : Printed :=
  printed.line ("  " ++ key ++ ": " ++ value)

def item (printed : Printed) (text : String) : Printed :=
  printed.line ("    " ++ text)

def divider (printed : Printed) (text : String) : Printed :=
  printed.line ("── " ++ text ++ " ──")

def error (printed : Printed) (text : String) : Printed :=
  { printed with stderr := printed.stderr ++ "error: " ++ text ++ "\n" }

end Printed

/-! ### Checking a schema -/

/-- What checking a schema found: its visible types, and the errors. -/
structure CheckReport where
  schemaPath : String
  types : List (String × Kind)
  errors : List String
deriving DecidableEq, Repr

namespace CheckReport

def isValid (report : CheckReport) : Bool :=
  report.errors.isEmpty

def count (report : CheckReport) (kind : Kind) : Nat :=
  report.types.countP fun (_, k) => k == kind

/-- The kinds in the order in which they are counted, with their plurals. -/
def sections : List (String × Kind) :=
  [("scalars", .scalar), ("enums", .enumeration), ("interfaces", .interface),
    ("objects", .object)]

/-- Prints the errors, or else the number of types of each kind and the types. -/
def print (report : CheckReport) : Printed :=
  if report.isValid then
    let heading := (Printed.line {} ("✓ " ++ report.schemaPath ++ " is valid")).line ""
    let counts := sections.foldl
      (fun printed (plural, kind) => printed.keyValue plural (toString (report.count kind)))
      heading
    if report.types.isEmpty then counts
    else report.types.foldl
      (fun printed (name, kind) => printed.item (name ++ " (" ++ kind.label ++ ")"))
      (counts.line "")
  else report.errors.foldl Printed.error {}

end CheckReport

/-! ### Generating a module -/

/-- Where a generated module went: to the standard output, nowhere because nothing
was to be written, or to a file. -/
inductive Target where
  | stdout (content : String)
  | preview (path content : String)
  | written (path : String) (bytes : Nat)
deriving DecidableEq, Repr

structure GenerateReport where
  schemaPath : String
  moduleName : String
  typeCount : Nat
  target : Target
deriving DecidableEq, Repr

/-- Prints the module where it was not written, and a summary where it was. -/
def GenerateReport.print (report : GenerateReport) : Printed :=
  match report.target with
  | .stdout content => Printed.raw {} content
  | .preview path content =>
    ((Printed.divider {} path).raw content).divider "dry run, nothing written"
  | .written path bytes =>
    ((Printed.line {} ("✓ Generated module '" ++ report.moduleName ++ "' from "
        ++ report.schemaPath)).keyValue "types" (toString report.typeCount)).keyValue "file"
      (path ++ " (" ++ toString bytes ++ " bytes)")

end SchemaTypings
