import SchemaTypings.Proofs.Files.Writing
import SchemaTypings.Proofs.Settings.NoSchema

/-!
# Commands and settings

Settings say what a command is not told. It makes no difference whether the schema, the name
of the module and the directory come from the command or from the settings, when the paths of
the settings are taken from their directory; and what the command is told is not looked up in
the settings.
-/

namespace SchemaTypings

open FileTree

/-! ### Files with another content -/

namespace FileTree

variable {tree tree' : FileTree} {location : Location} {path text : String}

/-- A path is read where it leads to a file whose bytes are a text. -/
theorem readText_eq_some_iff : tree.readText path = some text ↔
    ∃ location content, tree.locate path = .ok location ∧
      tree.find? location = some (.file content) ∧ String.fromUTF8? content = some text := by
  unfold readText entryAt?
  cases tree.locate path with
  | error error => simp
  | ok location =>
    cases found : tree.find? location with
    | none => simp [found]
    | some entry => cases entry <;> simp [found]

/-- What can be read is a file. -/
theorem isFile_of_readText (readable : tree.readText path = some text) :
    tree.isFile path = true := by
  obtain ⟨location, content, located, found, -⟩ := readText_eq_some_iff.mp readable
  simp [isFile, entryAt?, located, found]

/-- Bytes that write a text are read as this text. -/
theorem fromUTF8?_toByteArray (text : String) :
    String.fromUTF8? text.toByteArray = some text := by
  unfold String.fromUTF8?
  rw [dif_pos text.isValidUTF8]
  rfl

def withText (tree : FileTree) (location : Location) (text : String) : FileTree :=
  tree.put location (.file text.toUTF8)

/-- Another text in a file leaves the shape of the tree. -/
theorem sameShape_withText {content : ByteArray}
    (file : tree.find? location = some (.file content)) (text : String) :
    SameShape tree (tree.withText location text) :=
  .put_file file

/-- What a path leads to is read as before, unless that is the changed file. -/
theorem readText_withText {content : ByteArray} (file : tree.find? location = some (.file content))
    (text path : String) :
    (tree.withText location text).readText path = tree.readText path ∨
      tree.locate path = .ok location ∧
        (tree.withText location text).readText path = some text := by
  have same := sameShape_withText file text
  have below : location ≠ [] := ne_nil_of_find? tree (by simp [file])
  unfold readText entryAt?
  rw [← same.locate_eq]
  cases located : tree.locate path with
  | error error => exact .inl rfl
  | ok other =>
    by_cases here : other = location
    · subst here
      right
      simp [withText, find?_put below, fromUTF8?_toByteArray]
    · left
      simp [withText, find?_put_of_ne here]

/-! ### Writing in two trees -/

namespace SameShape

/-- Writing a text makes the same changes in trees of one shape, whether it succeeds or not.
-/
theorem writeText (same : SameShape tree tree') (path text : String) :
    ∃ written changes, tree.writeText path text = (written, tree.after changes) ∧
      tree'.writeText path text = (written, tree'.after changes) := by
  rw [writeText_eq, writeText_eq, ← same.newFile_eq]
  cases tree.newFile path with
  | error error => exact ⟨false, [], rfl, rfl⟩
  | ok location =>
    dsimp only [store]
    rw [← same.writing]
    cases tree.writing location with
    | done => exact ⟨true, [(location, .file text.toUTF8)], rfl, rfl⟩
    | refused => exact ⟨false, [], rfl, rfl⟩
    | brokenOff left => exact ⟨false, [(location, .file left)], rfl, rfl⟩

/-- So does writing a module, directory and file. -/
theorem writeModule (same : SameShape tree tree') (directory : String) (generated : Generated) :
    ∃ result changes,
      (SchemaTypings.writeModule access directory generated).run tree =
        (result, tree.after changes) ∧
      (SchemaTypings.writeModule access directory generated).run tree' =
        (result, tree'.after changes) := by
  obtain ⟨made, changes, makes, makes', -⟩ :=
    same.createInnermost (enclosing directory.length directory)
  change tree.createDirectories directory = _ at makes
  change tree'.createDirectories directory = _ at makes'
  rw [run_writeModule, run_writeModule, makes, makes']
  cases made with
  | false => exact ⟨.error (.directory directory), changes, rfl, rfl⟩
  | true =>
    obtain ⟨written, later, writes, writes'⟩ := (same.after changes).writeText
      (Path.join directory generated.fileName) generated.content
    simp only [writes, writes', after_after]
    cases written
    · exact ⟨_, later ++ changes, rfl, rfl⟩
    · exact ⟨_, later ++ changes, rfl, rfl⟩

/-- Generating comes to the same in two trees of one shape. -/
theorem generate (same : SameShape tree tree') (path : String) (schema : Schema)
    (options : Options) (output : Option String) (dryRun : Bool) :
    ∃ result changes,
      (SchemaTypings.generate access path schema options output dryRun).run tree =
        (result, tree.after changes) ∧
      (SchemaTypings.generate access path schema options output dryRun).run tree' =
        (result, tree'.after changes) := by
  by_cases dry : output = none ∨ dryRun = true
  · rw [generate_eq_pure dry]
    exact ⟨_, [], rfl, rfl⟩
  · simp only [not_or, Bool.not_eq_true] at dry
    obtain ⟨given, rfl⟩ := dry
    obtain ⟨directory, rfl⟩ := Option.ne_none_iff_exists'.mp given
    cases succeeds : generateTypes schema options with
    | error error =>
      rw [generate_of_error succeeds]
      exact ⟨_, [], rfl, rfl⟩
    | ok generated =>
      obtain ⟨result, changes, writes, writes'⟩ := same.writeModule directory generated
      rw [generate_of_ok succeeds, StateT.run_map, StateT.run_map, writes, writes']
      exact ⟨_, changes, rfl, rfl⟩

end SameShape

end FileTree

/-! ### Runs with settings -/

namespace Command

/-- The arguments with what settings in a directory say of that which is not told. -/
def GenerateArguments.completed (arguments : GenerateArguments) (directory : String)
    (settings : Settings) : GenerateArguments :=
  { arguments with
    schema := arguments.schema <|> settings.schema.map (Path.join directory)
    moduleName := arguments.moduleName <|> settings.moduleName
    output := arguments.output <|> settings.output.map (Path.join directory) }

/-- Once settings were consulted, settings without these entries add nothing. -/
theorem GenerateArguments.completed_completed (arguments : GenerateArguments) (directory : String)
    (settings : Settings) (scalars : ScalarTable) :
    (arguments.completed directory settings).completed directory { scalars := scalars } =
      arguments.completed directory settings := by
  simp [completed]

/-- What the command is told is not looked up. -/
theorem GenerateArguments.completed_congr {arguments : GenerateArguments} {directory : String}
    {settings settings' : Settings}
    (schema : arguments.schema = none → settings'.schema = settings.schema)
    (moduleName : arguments.moduleName = none → settings'.moduleName = settings.moduleName)
    (output : arguments.output = none → settings'.output = settings.output) :
    arguments.completed directory settings' = arguments.completed directory settings := by
  have told {α : Type} {own found found' : Option α} (same : own = none → found' = found) :
      (own <|> found') = (own <|> found) := by
    cases own with
    | none => simpa using same rfl
    | some value => rfl
  unfold completed
  rw [told fun unset => congrArg (Option.map (Path.join directory)) (schema unset),
    told moduleName, told fun unset => congrArg (Option.map (Path.join directory)) (output unset)]

def GenerateArguments.settingsPath (arguments : GenerateArguments) : String :=
  arguments.settings.getD Settings.defaultPath

section Runs

variable {tree tree' : FileTree} {arguments : GenerateArguments} {text : String}
  {settings : Settings}

/-- A step of a run, and what comes behind it. -/
theorem run_bind_of_run {α β : Type} {first : StateM FileTree α} {next : α → StateM FileTree β}
    {a : α} (ran : first.run tree = (a, tree')) :
    (first >>= next).run tree = (next a).run tree' := by
  rw [StateT.run_bind, ran]
  rfl

/-- Reading a file says what it holds and leaves the tree. -/
theorem run_readText (tree : FileTree) (path : String) :
    (access.readText path).run tree = (tree.readText path, tree) := rfl

/-- Asking whether a path names a file leaves the tree too. -/
theorem run_isFile (tree : FileTree) (path : String) :
    (access.isFile path).run tree = (tree.isFile path, tree) := rfl

/-- A settings file that can be read and understood is taken as it is, with its own
directory. -/
theorem run_read {path : String} (readable : tree.readText path = some text)
    (read : Settings.ofText text.toList = .ok settings) :
    (Settings.read access path).run tree =
      (.ok { settings with directory := Path.parent path }, tree) := by
  rw [Settings.read, run_bind_of_run (run_readText tree path), readable]
  simp only [Settings.parse, read]
  rfl

/-- The settings of a command are read from its path, or from the default one where it names
none. -/
theorem run_discover (readable : tree.readText arguments.settingsPath = some text)
    (read : Settings.ofText text.toList = .ok settings) :
    (Settings.discover access arguments.settings).run tree =
      (.ok { settings with directory := Path.parent arguments.settingsPath }, tree) := by
  have found := run_read readable read
  unfold GenerateArguments.settingsPath at readable found ⊢
  unfold Settings.discover
  cases told : arguments.settings with
  | some path =>
    rw [told] at found
    exact found
  | none =>
    rw [told] at readable found
    rw [Option.getD_none] at readable found
    dsimp only
    rw [run_bind_of_run (run_isFile tree _), isFile_of_readText readable]
    exact found

def schemaAt (tree : FileTree) : Option String → Except Outcome (String × Schema)
  | none => .error .noSchemaPath
  | some path =>
    match tree.readText path with
    | none => .error (.noSchema (.unreadable path))
    | some text =>
      match Sdl.load ⟨path, text⟩ with
      | .error error => .error (.noSchema error)
      | .ok schema => .ok (path, schema)

/-- A schema is looked for where the command says, or else where the settings say. -/
theorem run_findSchema (told : Option String) (settings : Settings) :
    (findSchema access told settings).run tree =
      (schemaAt tree (told <|> settings.schemaPath), tree) := by
  unfold findSchema schemaAt
  cases told <|> settings.schemaPath with
  | none => rfl
  | some path =>
    have loaded : (loadFile access path).run tree = (match tree.readText path with
        | none => .error (.unreadable path)
        | some text => Sdl.load ⟨path, text⟩, tree) := by
      rw [loadFile, run_bind_of_run (run_readText tree path)]
      cases tree.readText path <;> rfl
    dsimp only
    rw [run_bind_of_run loaded]
    cases tree.readText path with
    | none => rfl
    | some text =>
      dsimp only
      cases Sdl.load ⟨path, text⟩ <;> rfl

/-- A run that takes nothing but the scalars from settings. -/
def runTold (tree : FileTree) (arguments : GenerateArguments) (scalars : ScalarTable) :
    Outcome × FileTree :=
  match schemaAt tree arguments.schema with
  | .error outcome => (outcome, tree)
  | .ok (path, schema) =>
    let result := (generate access path schema ⟨arguments.moduleName, scalars.overrides⟩
      arguments.output arguments.dryRun).run tree
    (.ofGeneration result.1, result.2)

/-- A run with settings is one that is told what they say. -/
theorem run_runGenerate (readable : tree.readText arguments.settingsPath = some text)
    (read : Settings.ofText text.toList = .ok settings) :
    (runGenerate access arguments).run tree =
      runTold tree (arguments.completed (Path.parent arguments.settingsPath) settings)
        settings.scalars := by
  rw [runGenerate, run_bind_of_run (run_discover readable read)]
  dsimp only
  rw [run_bind_of_run (run_findSchema _ _)]
  -- the paths of the settings are taken from their directory
  let told := arguments.completed (Path.parent arguments.settingsPath) settings
  have same : (arguments.schema <|> Settings.schemaPath
      { settings with directory := Path.parent arguments.settingsPath }) = told.schema := rfl
  rw [same, runTold]
  cases schemaAt tree told.schema with
  | error outcome => rfl
  | ok found =>
    obtain ⟨path, schema⟩ := found
    obtain ⟨result, tree', ran⟩ : ∃ result tree', (generate access path schema
        ⟨told.moduleName, settings.scalars.overrides⟩ told.output told.dryRun).run tree =
          (result, tree') := ⟨_, _, rfl⟩
    dsimp only
    rw [ran]
    refine (run_bind_of_run ran).trans ?_
    cases result <;> rfl

end Runs

/-! ### Runs in trees with other settings -/

/-- Two runs, each from its own tree, print the same results, exit with the same status, and
make the same changes. -/
structure ComesToSame (tree tree' : FileTree) (first second : Outcome × FileTree) : Prop where
  stdout : first.1.print.stdout = second.1.print.stdout
  status : first.1.status = second.1.status
  changes : ∃ changes, first.2 = tree.after changes ∧ second.2 = tree'.after changes

section OtherSettings

variable {tree : FileTree} {location : Location} {content : ByteArray} {text text' : String}

/-- With other settings in the place of the old ones, the same schema is found; only where the
settings themselves are taken for a schema, the failure may be another one. -/
theorem schemaAt_cases (file : tree.find? location = some (.file content))
    (holds : String.fromUTF8? content = some text) {settings settings' : Settings}
    (read : Settings.ofText text.toList = .ok settings)
    (read' : Settings.ofText text'.toList = .ok settings') (path : Option String) :
    schemaAt (tree.withText location text') path = schemaAt tree path ∨
      ∃ error error', schemaAt tree path = .error (.noSchema error) ∧
        schemaAt (tree.withText location text') path = .error (.noSchema error') := by
  have refused {text : String} {settings : Settings} (path : String)
      (read : Settings.ofText text.toList = .ok settings) :
      ∃ error, Sdl.load ⟨path, text⟩ = .error error := by
    cases loaded : Sdl.load ⟨path, text⟩ with
    | error error => exact ⟨error, rfl⟩
    | ok schema => exact (Settings.not_schemaOf read (Traversal.mapError_eq_ok_iff.mp loaded)).elim
  cases path with
  | none => exact .inl rfl
  | some path =>
    -- the path may lead to the settings themselves, which are no schema in either tree
    rcases readText_withText file text' path with same | ⟨located, there⟩
    · left
      simp only [schemaAt, same]
    · right
      have here : tree.readText path = some text :=
        readText_eq_some_iff.mpr ⟨location, content, located, file, holds⟩
      obtain ⟨error, fails⟩ := refused path read
      obtain ⟨error', fails'⟩ := refused path read'
      exact ⟨error, error', by simp only [schemaAt, here, fails],
        by simp only [schemaAt, there, fails']⟩

/-- Where only the settings differ, runs that are told everything come to the same. -/
theorem comesToSame_runTold (file : tree.find? location = some (.file content))
    (holds : String.fromUTF8? content = some text) {settings settings' : Settings}
    (read : Settings.ofText text.toList = .ok settings)
    (read' : Settings.ofText text'.toList = .ok settings') (arguments : GenerateArguments)
    (scalars : ScalarTable) :
    ComesToSame tree (tree.withText location text') (runTold tree arguments scalars)
      (runTold (tree.withText location text') arguments scalars) := by
  unfold runTold
  rcases schemaAt_cases file holds read read' arguments.schema with
    same | ⟨error, error', here, there⟩
  · rw [same]
    cases schemaAt tree arguments.schema with
    | error outcome => exact ⟨rfl, rfl, [], rfl, rfl⟩
    | ok found =>
      obtain ⟨path, schema⟩ := found
      obtain ⟨result, changes, ran, ran'⟩ := (sameShape_withText file text').generate path schema
        ⟨arguments.moduleName, scalars.overrides⟩ arguments.output arguments.dryRun
      dsimp only
      rw [ran, ran']
      exact ⟨rfl, rfl, changes, rfl, rfl⟩
  · rw [here, there]
    exact ⟨rfl, rfl, [], rfl, rfl⟩

end OtherSettings

end Command

/-! ### The main result -/

open Command

/-- Settings are equivalent to what a command is told. Take a run of a command in a file tree
with a settings file, named or the default one, in some directory. It comes to the same as
the run that is told whatever the settings say and the command does not, with the paths taken
from that directory, when nothing but the scalars is left in the settings. And it comes to the
same under any other settings that agree on the scalars and on all that the command does not
say itself. -/
theorem settings_complete_commands (tree : FileTree) (arguments : GenerateArguments)
    (location : Location) (text : String) (settings : Settings)
    (located : tree.locate arguments.settingsPath = .ok location)
    (readable : tree.readText arguments.settingsPath = some text)
    (read : Settings.ofText text.toList = .ok settings) :
    let directory := Path.parent arguments.settingsPath
    (∀ text', Settings.ofText text'.toList = .ok { scalars := settings.scalars } →
      ComesToSame tree (tree.withText location text')
        ((runGenerate access arguments).run tree)
        ((runGenerate access (arguments.completed directory settings)).run
          (tree.withText location text'))) ∧
    ∀ text' settings', Settings.ofText text'.toList = .ok settings' →
      settings'.scalars = settings.scalars →
      (arguments.schema = none → settings'.schema = settings.schema) →
      (arguments.moduleName = none → settings'.moduleName = settings.moduleName) →
      (arguments.output = none → settings'.output = settings.output) →
      ComesToSame tree (tree.withText location text')
        ((runGenerate access arguments).run tree)
        ((runGenerate access arguments).run (tree.withText location text')) := by
  intro directory
  obtain ⟨_, content, located', file, holds⟩ := readText_eq_some_iff.mp readable
  rw [located] at located'
  cases located'
  have readable' (text' : String) :
      (tree.withText location text').readText arguments.settingsPath = some text' := by
    have below : location ≠ [] := ne_nil_of_find? tree (by simp [file])
    rw [readText_eq_some_iff, ← (sameShape_withText file text').locate_eq]
    exact ⟨location, _, located, find?_put below, fromUTF8?_toByteArray text'⟩
  rw [run_runGenerate readable read]
  constructor
  · intro text' read'
    let told := arguments.completed directory settings
    have ran : (runGenerate access told).run (tree.withText location text') = _ :=
      run_runGenerate (readable' text') read'
    have again : told.completed (Path.parent told.settingsPath) { scalars := settings.scalars } =
        told := GenerateArguments.completed_completed arguments directory settings settings.scalars
    rw [ran, again]
    exact comesToSame_runTold file holds read read' told settings.scalars
  · intro text' settings' read' scalars schema moduleName output
    rw [run_runGenerate (readable' text') read', scalars,
      GenerateArguments.completed_congr schema moduleName output]
    exact comesToSame_runTold file holds read read' _ settings.scalars

def fullSettings : String :=
  "module_name = \"api\"\noutput = \"out\"\nscalars = \x7b Date = \"Moment\" \x7d\n" ++
    "schema = \"api.graphql\"\n"

def namelessSettings : String :=
  "output = \"out\"\nscalars = \x7b Date = \"Moment\" \x7d\nschema = \"api.graphql\"\n"

/-- What is left of the settings where a command says the rest. -/
def scalarSettings : String := "[scalars]\nDate = \"Moment\"\n"

def projectTree : FileTree :=
  ((bare ["work"]).withFile ["work", "project", "api.graphql"] "scalar Date".toUTF8).withFile
    ["work", "project", "gqlts.toml"] fullSettings.toUTF8

/-- In the project, the name of the module is told, and the rest comes from the settings. -/
theorem project_settings_complete_commands :
    let location := ["work", "project", "gqlts.toml"]
    let run (tree : FileTree) (arguments : GenerateArguments) :=
      (runGenerate access { arguments with settings := some "project/gqlts.toml" }).run tree
    let tree' := projectTree.withText location scalarSettings
    let tree'' := projectTree.withText location namelessSettings
    (run projectTree { moduleName := some "dates" }).1.status = 0 ∧
    ComesToSame projectTree tree' (run projectTree { moduleName := some "dates" })
      (run tree' { schema := some "project/api.graphql", moduleName := some "dates",
                   output := some "project/out" }) ∧
    ComesToSame projectTree tree'' (run projectTree { moduleName := some "dates" })
      (run tree'' { moduleName := some "dates" }) := by
  intro location run tree' tree''
  have read : Settings.ofText fullSettings.toList = .ok
      { schema := some "api.graphql", moduleName := some "api", output := some "out",
        scalars := [("Date", "Moment")] } := Settings.ofText_of_sorted (by decide +kernel)
  have nameless : Settings.ofText namelessSettings.toList = .ok
      { schema := some "api.graphql", output := some "out", scalars := [("Date", "Moment")] } :=
    Settings.ofText_of_sorted (by decide +kernel)
  have readable : projectTree.readText "project/gqlts.toml" = some fullSettings := by
    decide +kernel
  obtain ⟨told, untold⟩ := settings_complete_commands projectTree
    { settings := some "project/gqlts.toml", moduleName := some "dates" } location _ _ rfl readable
    read
  refine ⟨?_, told scalarSettings (by decide +kernel), ?_⟩
  · simp only [run]
    rw [run_runGenerate readable read]
    decide +kernel
  · exact untold namelessSettings _ nameless rfl (fun _ => rfl) (fun set => nomatch set)
      fun _ => rfl

end SchemaTypings
