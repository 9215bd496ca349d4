import SchemaTypings.Proofs.Command.Agreement
import SchemaTypings.Proofs.Files.Changes

/-!
# Writing a module

A module is written as a whole or not at all, and the text that is written is the one
that is printed where there is no directory to write it to, or where nothing is to be
written.
-/

namespace SchemaTypings

/-! ### What writing comes to -/

namespace FileTree

variable {tree tree' : FileTree} {path text : String}

/-- A text was written: the path leads to a file that holds it and nothing else, and
everything elsewhere is kept. -/
def HasWritten (before : FileTree) (path text : String) (after : FileTree) : Prop :=
  ∃ location, after.locate path = .ok location ∧ after.fileAt? location = some text.toUTF8 ∧
    ∀ other, other ≠ location → before.Keeps after other

/-- A text could not be written: everything is kept, except that a file to which the path
leads holds what is left of a write that broke off. -/
def HasFailed (before : FileTree) (path : String) (after : FileTree) : Prop :=
  ∀ location, before.Keeps after location ∨ after.locate path = .ok location ∧
    ∃ left, before.writing location = .brokenOff left ∧ after.fileAt? location = some left

/-- Every file is as it was before, unless the path leads to it. -/
def KeepsOthers (before : FileTree) (path : String) (after : FileTree) : Prop :=
  ∀ location, after.locate path = .ok location ∨ after.fileAt? location = before.fileAt? location

/-- A text that is written leaves all other files. -/
theorem HasWritten.keepsOthers (written : tree.HasWritten path text tree') :
    tree.KeepsOthers path tree' := by
  obtain ⟨location, located, -, elsewhere⟩ := written
  intro other
  by_cases here : other = location
  · exact .inl (here ▸ located)
  · exact .inr (elsewhere other here).fileAt?_eq

/-- So does a text that could not be written. -/
theorem HasFailed.keepsOthers (failed : tree.HasFailed path tree') :
    tree.KeepsOthers path tree' :=
  fun location => (failed location).symm.imp And.left Keeps.fileAt?_eq

/-- What writing a text after making directories comes to. -/
theorem MakesDirectories.writeText_cases {changes : Changes}
    (made : tree.MakesDirectories changes) (path text : String) :
    (∃ after, (tree.after changes).writeText path text = (true, after) ∧
      tree.HasWritten path text after) ∨
    ∃ after, (tree.after changes).writeText path text = (false, after) ∧
      tree.HasFailed path after := by
  rw [writeText_eq]
  cases new : (tree.after changes).newFile path with
  | error error => exact .inr ⟨_, rfl, fun location => .inl (made.keeps location)⟩
  | ok location =>
    have below : location ≠ [] :=
      ne_nil_of_find? (tree.after changes) (locateNew_of_newFile new).1
    have holds (content : ByteArray) :
        ((tree.after changes).put location (.file content)).fileAt? location = some content := by
      simp [fileAt?, find?_put below]
    have keeps (content : ByteArray) (other : Location) (ne : other ≠ location) :
        tree.Keeps ((tree.after changes).put location (.file content)) other := by
      rw [Keeps, find?_put_of_ne ne]
      exact made.keeps other
    have same : (tree.after changes).writing = tree.writing := rfl
    dsimp only [store]
    rw [same]
    cases attempt : tree.writing location with
    | done => exact .inl ⟨_, rfl, location, locate_put_newFile new, holds _, keeps _⟩
    | refused => exact .inr ⟨_, rfl, fun location => .inl (made.keeps location)⟩
    | brokenOff left =>
      refine .inr ⟨_, rfl, fun other => ?_⟩
      by_cases here : other = location
      · subst here
        exact .inr ⟨locate_put_newFile new, left, attempt, holds left⟩
      · exact .inl (keeps left other here)

end FileTree

open FileTree

/-- Writing a module in a tree: first the directory, then the file. -/
theorem run_writeModule (tree : FileTree) (directory : String) (generated : Generated) :
    (writeModule access directory generated).run tree =
      let path := Path.join directory generated.fileName
      match tree.createDirectories directory with
      | (false, tree) => (.error (.directory directory), tree)
      | (true, tree) =>
        match tree.writeText path generated.content with
        | (false, tree) => (.error (.file path), tree)
        | (true, tree) => (.ok (.written path generated.content.utf8ByteSize), tree) := by
  simp only [writeModule, access, StateT.run_bind, StateT.run_modifyGet]
  rcases tree.createDirectories directory with ⟨_ | _, made⟩
  · rfl
  · simp only [pure_bind, if_true, StateT.run_bind, StateT.run_modifyGet]
    rcases made.writeText (Path.join directory generated.fileName) generated.content with
      ⟨_ | _, written⟩ <;> rfl

/-- A module is written under its name, or its directory or the module cannot be written. -/
theorem writeModule_cases (tree : FileTree) (directory : String) (generated : Generated) :
    let path := Path.join directory generated.fileName
    let result := (writeModule access directory generated).run tree
    (result.1 = .ok (.written path generated.content.utf8ByteSize) ∧
        tree.HasWritten path generated.content result.2) ∨
      (result.1 = .error (.directory directory) ∧ ∀ location, tree.Keeps result.2 location) ∨
      (result.1 = .error (.file path) ∧ tree.HasFailed path result.2) := by
  intro path result
  obtain ⟨made, changes, makes, -, directories⟩ :=
    (SameShape.refl tree).createInnermost (enclosing directory.length directory)
  change tree.createDirectories directory = _ at makes
  simp only [result, run_writeModule, makes]
  cases made with
  | false => exact .inr (.inl ⟨rfl, directories.keeps⟩)
  | true =>
    dsimp only
    obtain ⟨after, writes, written⟩ | ⟨after, writes, failed⟩ :=
      directories.writeText_cases (Path.join directory generated.fileName) generated.content
    · rw [writes]
      exact .inl ⟨rfl, written⟩
    · rw [writes]
      exact .inr (.inr ⟨rfl, failed⟩)

/-! ### Generating and writing -/

section Operations

variable {m : Type → Type} [Monad m] {files : FileAccess m} {path : String} {schema : Schema}
  {options : Options}

/-- A module has the name that the options give it. -/
theorem moduleName_of_generateTypes {generated : Generated}
    (succeeds : generateTypes schema options = .ok generated) :
    generated.moduleName = options.moduleName.getD Generator.defaultModuleName := by
  unfold generateTypes at succeeds
  rw [Generator.generate_eq_map] at succeeds
  obtain ⟨texts, -, rfl⟩ := Traversal.map_eq_ok_iff.mp succeeds
  rfl

/-- Where generation fails, nothing is done but to report it. -/
theorem generate_of_error {error : GenerateError}
    (fails : generateTypes schema options = .error error)
    (output : Option String) (dryRun : Bool) :
    generate files path schema options output dryRun = pure (.error (.generation path error)) := by
  unfold generateTypes at fails
  simp only [generate, fails]

/-- A module that is written is reported as what was written. -/
theorem generate_of_ok [LawfulMonad m] {generated : Generated}
    (succeeds : generateTypes schema options = .ok generated) (directory : String) :
    generate files path schema options (some directory) false =
      (Except.map fun target => ⟨path, generated.moduleName, schema.visible.length, target⟩) <$>
        writeModule files directory generated := by
  unfold generateTypes at succeeds
  simp only [generate, succeeds, Bool.false_eq_true, if_false, bind_pure_comp]

end Operations

/-- Generating a module that can be generated writes it and reports so, or fails as writing
it does. -/
theorem generate_cases {path : String} {schema : Schema} {options : Options}
    {generated : Generated} (succeeds : generateTypes schema options = .ok generated)
    (tree : FileTree) (directory : String) :
    let file := Path.join directory generated.fileName
    let result := (generate access path schema options (some directory) false).run tree
    (result.1 = .ok ⟨path, generated.moduleName, schema.visible.length,
          .written file generated.content.utf8ByteSize⟩ ∧
        tree.HasWritten file generated.content result.2) ∨
      (result.1 = .error (.directory directory) ∧ ∀ location, tree.Keeps result.2 location) ∨
      (result.1 = .error (.file file) ∧ tree.HasFailed file result.2) := by
  intro file result
  let outcome := (writeModule access directory generated).run tree
  have ran : result = (outcome.1.map fun target =>
      ⟨path, generated.moduleName, schema.visible.length, target⟩, outcome.2) := by
    simp only [result, generate_of_ok succeeds]
    rfl
  rw [ran]
  obtain ⟨written, holds⟩ | ⟨fails, kept⟩ | ⟨fails, kept⟩ :=
    writeModule_cases tree directory generated
  · exact .inl ⟨by rw [written]; rfl, holds⟩
  · exact .inr (.inl ⟨by rw [fails]; rfl, kept⟩)
  · exact .inr (.inr ⟨by rw [fails]; rfl, kept⟩)

/-! ### The main result -/

/-- A dry run prints the text of a module between two lines. -/
theorem print_preview (path moduleName file content : String) (count : Nat) :
    (GenerateReport.print ⟨path, moduleName, count, .preview file content⟩) =
      { stdout := "── " ++ file ++ " ──\n" ++ content ++ "── dry run, nothing written ──\n" } := by
  have above : " ──" ++ "\n" = " ──\n" := rfl
  have below : "── " ++ "dry run, nothing written" ++ " ──\n" =
      "── dry run, nothing written ──\n" := rfl
  simp only [GenerateReport.print, Printed.divider, Printed.line, Printed.raw]
  simp [String.append_assoc, above, ← below]

/-- Generating writes all or nothing, and the same text everywhere. In every file tree:
where generation fails, no directory is given or the run is dry, the tree stays as it is.
Otherwise every file but that of the module stays as it is. A run that ends well has put
the text of the module into this file, which it reports with the size of the text. A run
that cannot make the directory leaves this file too, and one that cannot write leaves it or,
where the write broke off, what this has left of it. Whatever else is new is a directory.
The text is the same that is printed verbatim without a directory, and between two lines in
a dry run. -/
theorem generate_writes_all_or_nothing (path : String) (schema : Schema) (options : Options) :
    (∀ (tree : FileTree) (output : Option String) (dryRun : Bool),
      (∃ error, generateTypes schema options = .error error) ∨ output = none ∨ dryRun = true →
      ((generate access path schema options output dryRun).run tree).2 = tree) ∧
    ∀ generated, generateTypes schema options = .ok generated →
      let name := options.moduleName.getD Generator.defaultModuleName ++ ".ts"
      (∀ (tree : FileTree) (directory : String),
        let file := Path.join directory name
        let result := (generate access path schema options (some directory) false).run tree
        tree.KeepsOthers file result.2 ∧
        (∀ report, result.1 = .ok report →
          report.target = .written file generated.content.utf8ByteSize ∧
          tree.HasWritten file generated.content result.2) ∧
        ∀ error, result.1 = .error error →
          (error = .directory directory ∧ ∀ location, tree.Keeps result.2 location) ∨
          (error = .file file ∧ tree.HasFailed file result.2)) ∧
      (∀ (tree : FileTree) (dryRun : Bool), ∃ report,
        ((generate access path schema options none dryRun).run tree).1 = .ok report ∧
        report.print = { stdout := generated.content }) ∧
      ∀ (tree : FileTree) (directory : String), ∃ report,
        ((generate access path schema options (some directory) true).run tree).1 = .ok report ∧
        report.print = { stdout := "── " ++ Path.join directory name ++ " ──\n" ++
          generated.content ++ "── dry run, nothing written ──\n" } := by
  constructor
  · intro tree output dryRun nothing
    obtain ⟨error, fails⟩ | dry := nothing
    · rw [generate_of_error fails]
      rfl
    · rw [generate_eq_pure dry]
      rfl
  · intro generated succeeds name
    have named : generated.fileName = name := by
      rw [Generated.fileName, moduleName_of_generateTypes succeeds]
    have shown (output : Option String) : dryOutcome path schema options output = .ok
        ⟨path, generated.moduleName, schema.visible.length, generated.shown output⟩ := by
      rw [dryOutcome, succeeds]
      rfl
    rw [← named]
    refine ⟨fun tree directory => ?_, fun tree dryRun => ?_, fun tree directory => ?_⟩
    · intro file result
      obtain ⟨ran, written⟩ | ⟨ran, kept⟩ | ⟨ran, failed⟩ := generate_cases succeeds tree directory
      · refine ⟨written.keepsOthers, fun report succeeded => ?_, fun error fails => ?_⟩
        · cases ran.symm.trans succeeded
          exact ⟨rfl, written⟩
        · cases ran.symm.trans fails
      · refine ⟨fun location => .inr (kept location).fileAt?_eq, fun report succeeded => ?_,
          fun error fails => ?_⟩
        · cases ran.symm.trans succeeded
        · cases ran.symm.trans fails
          exact .inl ⟨rfl, kept⟩
      · refine ⟨failed.keepsOthers, fun report succeeded => ?_, fun error fails => ?_⟩
        · cases ran.symm.trans succeeded
        · cases ran.symm.trans fails
          exact .inr ⟨rfl, failed⟩
    · rw [generate_eq_pure (.inl rfl), shown]
      exact ⟨_, rfl, by simp [GenerateReport.print, Generated.shown, Printed.raw]⟩
    · rw [generate_eq_pure (.inr rfl), shown]
      exact ⟨_, rfl, print_preview _ _ _ _ _⟩

def dateSchema : Schema := .ofList [.scalar ⟨"Date"⟩]

/-- A directory with an older module. -/
def olderTree : FileTree :=
  (bare ["work"]).withFile ["work", "out", "dates.ts"] "type Day = string".toUTF8

/-- The same directory on a disk that takes no more than a part of any file. -/
def fullTree : FileTree :=
  { olderTree with writing := fun _ => .brokenOff "type".toUTF8 }

def generateDates (tree : FileTree) (directory : String) (dryRun : Bool) :
    Except OperationError GenerateReport × FileTree :=
  (generate access "date.graphql" dateSchema ⟨some "dates", {}⟩ (some directory) dryRun).run tree

/-- Runs over an older module, dry and not, with a file in place of the directory, and on a
full disk. -/
theorem dates_are_written :
    (generateDates olderTree "out" false).1 =
      .ok ⟨"date.graphql", "dates", 1, .written "out/dates.ts" 20⟩ ∧
    olderTree.HasWritten "out/dates.ts" "type Date = string\r\n"
      (generateDates olderTree "out" false).2 ∧
    (generateDates olderTree "out" true).2 = olderTree ∧
    (generateDates olderTree "out/dates.ts" false).1 = .error (.directory "out/dates.ts") ∧
    (∀ location, olderTree.Keeps (generateDates olderTree "out/dates.ts" false).2 location) ∧
    (generateDates fullTree "out" false).1 = .error (.file "out/dates.ts") ∧
    fullTree.HasFailed "out/dates.ts" (generateDates fullTree "out" false).2 ∧
    (generateDates fullTree "out" false).2.fileAt? ["work", "out", "dates.ts"] =
      some "type".toUTF8 := by
  obtain ⟨nothing, written⟩ :=
    generate_writes_all_or_nothing "date.graphql" dateSchema ⟨some "dates", {}⟩
  obtain ⟨writes, -, -⟩ := written ⟨"dates", "type Date = string\r\n"⟩ rfl
  refine ⟨rfl, ?_, ?_, rfl, ?_, rfl, ?_, rfl⟩
  · exact ((writes olderTree "out").2.1 _ rfl).2
  · exact nothing olderTree (some "out") true (.inr (.inr rfl))
  · obtain ⟨-, kept⟩ | ⟨other, -⟩ := (writes olderTree "out/dates.ts").2.2 _ rfl
    · exact kept
    · cases other
  · obtain ⟨other, -⟩ | ⟨-, failed⟩ := (writes fullTree "out").2.2 _ rfl
    · cases other
    · exact failed

end SchemaTypings
