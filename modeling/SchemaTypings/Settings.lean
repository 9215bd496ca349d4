import SchemaTypings.Files.Access
import SchemaTypings.Files.Path
import SchemaTypings.Rules.Effective
import SchemaTypings.Text.Quoted
import SchemaTypings.Toml.Grammar

/-!
# Settings

A project keeps its settings in a TOML file: where its schema is, what its module
is called, where to write it, and which types stand for its scalars. Every setting
may be missing, and no other setting is allowed. Paths are taken from the
directory of the file.
-/

namespace SchemaTypings

open Text

/-! ### What can be wrong -/

/-- A reason to refuse a settings text, with the stretch of text that shows it. -/
inductive SettingsFault where
  /-- The text is no TOML document, or a number that is asked for has no value. -/
  | invalidToml
  /-- There is no setting of this name. -/
  | unknownKey (name : String) (span : Toml.Span)
  /-- A value has the wrong type. -/
  | wrongType (found expected : String) (span : Toml.Span)
deriving DecidableEq, Repr

inductive SettingsError where
  | unreadable (path : String)
  | refused (source : Source) (fault : SettingsFault)
deriving DecidableEq, Repr

def settingNames : List String := ["schema", "module_name", "output", "scalars"]

namespace SettingsFault

/-- What exactly is wrong. -/
def detail : SettingsFault → String
  | invalidToml => "toml syntax"
  | unknownKey name _ =>
    "unknown field `" ++ name ++ "`, expected one of "
      ++ String.intercalate ", " (settingNames.map fun known => "`" ++ known ++ "`")
  | wrongType found expected _ => "invalid type: " ++ found ++ ", expected " ++ expected

/-- The stretch of text that is wrong; in a text that is no TOML document none is
singled out. -/
def span? : SettingsFault → Option Toml.Span
  | invalidToml => none
  | unknownKey _ span => some span
  | wrongType _ _ span => some span

/-- The remark on a text that shows a fault. -/
def label? (text : List Char) (fault : SettingsFault) : Option Label :=
  fault.span?.map fun span =>
    let offset := byteSize (textBefore text span.start)
    ⟨"parse error here", offset, byteSize (textBefore text span.stop) - offset⟩

end SettingsFault

namespace SettingsError

def message : SettingsError → String
  | unreadable path => "failed to read '" ++ path ++ "'"
  | refused _ _ => "failed to parse config"

def help? : SettingsError → Option String
  | unreadable _ => some "create it or pass a different path with --config"
  | refused _ _ => none

def code? : SettingsError → Option String
  | unreadable _ => none
  | refused _ _ => some "gqlts::config"

end SettingsError

/-! ### Settings -/

/-- The types that stand for scalars, by the scalar's name. -/
abbrev ScalarTable := List (String × String)

/-- The settings of a project, and the directory its paths are taken from. -/
structure Settings where
  schema : Option String := none
  moduleName : Option String := none
  output : Option String := none
  scalars : ScalarTable := []
  directory : String := ""
deriving DecidableEq, Repr

namespace Settings

def defaultPath : String := "gqlts.toml"

/-! ### Reading settings -/

def describeInteger (value : Int) : String :=
  if -Nat.pow 2 63 ≤ value && value < Nat.pow 2 64 then "integer `" ++ toString value ++ "`"
  else if value < Nat.pow 2 127 then "integer `" ++ toString value ++ "` as i128"
  else "integer `" ++ toString value ++ "` as u128"

def describeFloat (value : Toml.FloatValue) : String :=
  let text := match value with
    | .finite number => (Binary.ofDecimal number).shortest.positional
    | .infinite negative => if negative then "-inf" else "inf"
    | .notANumber => "NaN"
  "floating point `" ++ text ++ "`"

/-- The fault of a value that should be something else. -/
def mismatch (expected : String) (span : Toml.Span) (value : Toml.Value) : SettingsFault :=
  let found (words : String) : SettingsFault := .wrongType words expected span
  match value with
  | .string text => found ("string " ++ quoted text)
  | .integer value => found (describeInteger value)
  | .float value => found (describeFloat value)
  | .boolean value => found ("boolean `" ++ (if value then "true" else "false") ++ "`")
  | .datetime _ => found "map"
  | .unreadable => .invalidToml
  | .array _ => found "sequence"
  | .tables _ => found "sequence"
  | .table _ _ => found "map"

/-- A value that has to be a text; `expected` says what kind of text. -/
def textOf (expected : String) (span : Toml.Span) : Toml.Value → Except SettingsFault String
  | .string text => .ok text
  | value => .error (mismatch expected span value)

/-- Entries in the order of their names, in which they are looked at. -/
def byName (entries : Toml.Entries) : Toml.Entries :=
  entries.mergeSort fun a b => decide (a.1.name ≤ b.1.name)

/-- The name of the single entry of a date or time, which counts as a table. -/
def datetimeEntry : String := "$__toml_private_datetime"

/-- A value that has to be a table of texts. -/
def scalarsOf (span : Toml.Span) : Toml.Value → Except SettingsFault ScalarTable
  | .table _ entries =>
    (byName entries).mapM fun (key, span, value) => do
      return (key.name, ← textOf "a string" span value)
  | .datetime value => .ok [(datetimeEntry, value.text)]
  | value => .error (mismatch "a map" span value)

/-- The settings with one more entry of the file. -/
def withEntry (settings : Settings) : Toml.Key × Toml.Span × Toml.Value →
    Except SettingsFault Settings
  | (key, span, value) =>
    if key.name = "schema" then do
      return { settings with schema := some (← textOf "path string" span value) }
    else if key.name = "module_name" then do
      return { settings with moduleName := some (← textOf "a string" span value) }
    else if key.name = "output" then do
      return { settings with output := some (← textOf "path string" span value) }
    else if key.name = "scalars" then do
      return { settings with scalars := ← scalarsOf span value }
    else .error (.unknownKey key.name key.span)

/-- The settings that a text describes. Of several faults the one under the least
name is reported. -/
def ofText (text : List Char) : Except SettingsFault Settings :=
  match Toml.parse text with
  | none => .error .invalidToml
  | some entries => (byName entries).foldlM withEntry {}

def parse (source : Source) : Except SettingsError Settings :=
  (ofText source.text.toList).mapError (.refused source)

/-! ### Settings files -/

def read {m : Type → Type} [Monad m] (files : FileAccess m) (path : String) :
    m (Except SettingsError Settings) := do
  match ← files.readText path with
  | none => return .error (.unreadable path)
  | some text =>
    return (parse ⟨path, text⟩).map fun settings =>
      { settings with directory := Path.parent path }

/-- Reads the settings file that is named, which has to exist, or else the default
one if it exists. -/
def discover {m : Type → Type} [Monad m] (files : FileAccess m) (path : Option String) :
    m (Except SettingsError Settings) := do
  match path with
  | some path => read files path
  | none =>
    if ← files.isFile defaultPath then read files defaultPath else return .ok {}

/-! ### What settings mean -/

/-- A path of the settings, taken from their directory. -/
def resolvePath (settings : Settings) (path : String) : String :=
  Path.join settings.directory path

def schemaPath (settings : Settings) : Option String :=
  settings.schema.map settings.resolvePath

def outputDirectory (settings : Settings) : Option String :=
  settings.output.map settings.resolvePath

end Settings

/-- The rules for scalars that a table gives types to. Such a scalar is used as its
type; one that is not standard is declared as an alias of it. -/
def ScalarTable.overrides (table : ScalarTable) : Overrides :=
  if table.isEmpty then {}
  else
    { scalar := some fun scalar context =>
        match table.lookup scalar.name with
        | some type => .ok type
        | none => Default.scalar scalar context
      scalarDef := some fun scalar context =>
        match table.lookup scalar.name with
        | some type =>
          if scalar.isStandard then Default.scalarDef scalar context
          else .ok (Declaration.typeAlias scalar.name type).render
        | none => Default.scalarDef scalar context }

def Settings.overrides (settings : Settings) : Overrides :=
  ScalarTable.overrides settings.scalars

end SchemaTypings
