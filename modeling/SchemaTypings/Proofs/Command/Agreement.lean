import SchemaTypings.Command.Run
import SchemaTypings.Files.Tree
import SchemaTypings.Proofs.Generation.Chains

/-!
# Checking agrees with generating

Checking a schema and generating a module that is not written come to the same. Both
read the same settings and the same schema and fail where one of them is missing; and
then a check finds the error with which generation fails, or none where it succeeds. The
name of the module and the place to write it to make no difference.
-/

namespace SchemaTypings

open Traversal

/-! ### Generating without writing -/

/-- With rules from a table, neither the name of a module nor the links to spare decide what
is in it. -/
theorem generateTypes_eq_map (schema : Schema) (table : ScalarTable)
    (moduleName moduleName' : Option String) (spare spare' : Nat) :
    generateTypes schema ⟨moduleName, table.overrides.sparing spare⟩ =
      (generateTypes schema ⟨moduleName', table.overrides.sparing spare'⟩).map fun generated =>
        ⟨moduleName.getD Generator.defaultModuleName, generated.content⟩ := by
  rw [table.generateTypes_sparing schema moduleName, table.generateTypes_sparing schema moduleName']
  let generator (name : Option String) := Generator.ofOptions ⟨name, table.overrides.sparing 0⟩
  have same : (generator moduleName).renderDefinition schema =
      (generator moduleName').renderDefinition schema :=
    funext fun _ => (table.areLocal 0).declare_congr fun _ _ => rfl
  change (generator moduleName).generate schema = ((generator moduleName').generate schema).map _
  rw [Generator.generate_eq_map, Generator.generate_eq_map, same]
  cases schema.visible.mapM ((generator moduleName').renderDefinition schema) <;> rfl

/-- Where a module goes that is not written. -/
def Generated.shown (generated : Generated) : Option String → Target
  | none => .stdout generated.content
  | some directory => .preview (Path.join directory generated.fileName) generated.content

/-- What generating comes to where nothing is written. -/
def dryOutcome (path : String) (schema : Schema) (options : Options) (output : Option String) :
    Except OperationError GenerateReport :=
  ((generateTypes schema options).mapError (.generation path)).map fun generated =>
    ⟨path, generated.moduleName, schema.visible.length, generated.shown output⟩

section Operations

variable {m : Type → Type} [Monad m] [LawfulMonad m] {files : FileAccess m} {path : String}
  {schema : Schema}

/-- Without a directory or in a dry run, no file is touched. -/
theorem generate_eq_pure {options : Options} {output : Option String} {dryRun : Bool}
    (dry : output = none ∨ dryRun = true) :
    generate files path schema options output dryRun =
      pure (dryOutcome path schema options output) := by
  unfold generate dryOutcome generateTypes
  cases (Generator.ofOptions options).generate schema with
  | error error => rfl
  | ok generated =>
    cases output with
    | none => simp [Except.map, Except.mapError, Generated.shown]
    | some directory =>
      obtain rfl : dryRun = true := dry.resolve_left (by simp)
      simp [Except.map, Except.mapError, Generated.shown]

end Operations

/-! ### Checking -/

def errorsOf : Except GenerateError Generated → List String
  | .ok _ => []
  | .error error => [error.message]

/-- A check finds the error with which generation fails, and nothing where it succeeds,
under whatever name and with any links to spare. -/
theorem check_errors (path : String) (schema : Schema) (settings : Settings)
    (moduleName : Option String) (spare : Nat) :
    (check path schema settings).errors =
      errorsOf (generateTypes schema ⟨moduleName, settings.overrides.sparing spare⟩) := by
  let table := settings.scalars
  have errors : (check path schema settings).errors =
      errorsOf (generateTypes schema ⟨none, table.overrides.sparing table.overrides.spare⟩) := rfl
  rw [errors, generateTypes_eq_map schema table none moduleName _ spare]
  change errorsOf (Except.map _ (generateTypes schema ⟨moduleName, settings.overrides.sparing _⟩)) =
    errorsOf (generateTypes schema ⟨moduleName, settings.overrides.sparing spare⟩)
  cases generateTypes schema ⟨moduleName, settings.overrides.sparing spare⟩ <;> rfl

/-- A check finds an error exactly where generation without writing has no outcome. -/
theorem check_errors_eq_nil_iff {path : String} {schema : Schema} {settings : Settings}
    {moduleName output : Option String} (spare : Nat) :
    (check path schema settings).errors = [] ↔ ∃ report,
      dryOutcome path schema ⟨moduleName, settings.overrides.sparing spare⟩ output = .ok report := by
  rw [check_errors path schema settings moduleName spare, dryOutcome]
  cases generateTypes schema ⟨moduleName, settings.overrides.sparing spare⟩ <;>
    simp [errorsOf, Except.mapError, Except.map]

/-- Every type that a report lists is of one of the four kinds. -/
theorem CheckReport.count_add (report : CheckReport) :
    report.count .scalar + report.count .enumeration + report.count .object +
      report.count .interface = report.types.length := by
  unfold CheckReport.count
  induction report.types with
  | nil => rfl
  | cons entry rest ih =>
    obtain ⟨name, kind⟩ := entry
    cases kind <;> simp at ih ⊢ <;> omega

/-! ### Commands -/

namespace Command

section Inputs

variable {m : Type → Type} [Monad m] [LawfulMonad m] (files : FileAccess m)

/-- The settings and the schema of a run with the path of the schema, which both commands
look for first. -/
def findInputs (told path : Option String) : m (Except Outcome (Settings × String × Schema)) := do
  match ← Settings.discover files path with
  | .error error => return .error (.noSettings error)
  | .ok settings => return (← findSchema files told settings).map fun found => (settings, found)

def checkInputs : Except Outcome (Settings × String × Schema) → Outcome
  | .error outcome => outcome
  | .ok (settings, path, schema) => .checked (check path schema settings)

def Outcome.ofGeneration : Except OperationError GenerateReport → Outcome
  | .error error => .failed error
  | .ok report => .generated report

/-- A run that generates ends well exactly if generating does. -/
theorem Outcome.status_ofGeneration {result : Except OperationError GenerateReport} :
    (Outcome.ofGeneration result).status = 0 ↔ ∃ report, result = .ok report := by
  cases result <;> simp [ofGeneration, status]

def dryInputs (moduleName output : Option String) :
    Except Outcome (Settings × String × Schema) → Outcome
  | .error outcome => outcome
  | .ok (settings, path, schema) =>
    let options : Options := ⟨moduleName <|> settings.moduleName, settings.overrides⟩
    .ofGeneration (dryOutcome path schema options (output <|> settings.outputDirectory))

/-- Checking looks for the settings and the schema, and goes on with them. -/
theorem runCheck_eq_map (schema settings : Option String) :
    runCheck files ⟨schema, settings⟩ = checkInputs <$> findInputs files schema settings := by
  unfold runCheck findInputs
  rw [map_bind]
  refine bind_congr fun found => ?_
  cases found with
  | error error => simp [checkInputs]
  | ok settings =>
    simp only [map_bind, map_pure]
    refine bind_congr fun found => ?_
    cases found <;> rfl

/-- So does a dry run, for the same settings and the same schema. -/
theorem runGenerate_eq_map (schema settings moduleName output : Option String) :
    runGenerate files ⟨schema, settings, moduleName, output, true⟩ =
      dryInputs moduleName output <$> findInputs files schema settings := by
  unfold runGenerate findInputs
  rw [map_bind]
  refine bind_congr fun found => ?_
  cases found with
  | error error => simp [dryInputs]
  | ok settings =>
    simp only [map_bind, map_pure]
    refine bind_congr fun found => ?_
    cases found with
    | error outcome => rfl
    | ok input =>
      simp only [generate_eq_pure (.inr rfl), pure_bind, dryInputs, Except.map]
      cases dryOutcome _ _ _ _ <;> rfl

/-- Behind the same inputs, both commands end well or neither does. -/
theorem status_checkInputs_iff (moduleName output : Option String)
    (inputs : Except Outcome (Settings × String × Schema)) :
    (checkInputs inputs).status = 0 ↔ (dryInputs moduleName output inputs).status = 0 := by
  cases inputs with
  | error outcome => rfl
  | ok inputs =>
    obtain ⟨settings, path, schema⟩ := inputs
    have valid : (checkInputs (.ok (settings, path, schema))).status = 0 ↔
        (check path schema settings).errors = [] := by
      simp [checkInputs, Outcome.status, CheckReport.isValid]
    exact (valid.trans (check_errors_eq_nil_iff _)).trans Outcome.status_ofGeneration.symm

end Inputs

/-- The exit status of a command in a file tree. -/
def statusIn (tree : FileTree) (command : StateM FileTree Outcome) : Nat :=
  (command.run tree).1.status

/-- Where a command only computes what comes after another one, its status is what that
computes. -/
theorem statusIn_map {α : Type} (tree : FileTree) (f : α → Outcome) (command : StateM FileTree α) :
    statusIn tree (f <$> command) = (f (command.run tree).1).status := rfl

/-- In every file tree, checking ends well exactly if a dry run does that is told the same
settings and the same schema. -/
theorem statusIn_check_iff (tree : FileTree) (schema settings moduleName output : Option String) :
    statusIn tree (runCheck FileTree.access ⟨schema, settings⟩) = 0 ↔
      statusIn tree
        (runGenerate FileTree.access ⟨schema, settings, moduleName, output, true⟩) = 0 := by
  rw [runCheck_eq_map, runGenerate_eq_map, statusIn_map, statusIn_map]
  exact status_checkInputs_iff moduleName output _

end Command

/-! ### The main result -/

open Command

/-- Checking and generating without writing agree. In every file tree, both commands exit
with status zero or neither does, whatever module name and directory the second is told;
and this holds for their command lines. For every schema and settings, a check reports no
error exactly if generation succeeds, however many links there are to spare, and otherwise
the message of the error with which it fails; where both succeed, the check lists the visible definitions in order, as many as
generation counts, and its counts by kind add up to their number. -/
theorem check_agrees_with_dry_run :
    (∀ (tree : FileTree) (schema settings moduleName output : Option String),
      statusIn tree (runCheck FileTree.access ⟨schema, settings⟩) = 0 ↔
        statusIn tree
          (runGenerate FileTree.access ⟨schema, settings, moduleName, output, true⟩) = 0) ∧
    (∀ (tree : FileTree) (line line' : List String) (schema settings moduleName output),
      Request.ofArguments line = .ok (.check ⟨schema, settings⟩) →
      Request.ofArguments line' = .ok (.generate ⟨schema, settings, moduleName, output, true⟩) →
      (statusIn tree (run FileTree.access line) = 0 ↔
        statusIn tree (run FileTree.access line') = 0)) ∧
    ∀ (tree : FileTree) (path : String) (schema : Schema) (settings : Settings)
      (moduleName output : Option String) (dryRun : Bool) (spare : Nat),
      output = none ∨ dryRun = true →
      let report := check path schema settings
      let outcome := ((generate FileTree.access path schema
        ⟨moduleName, settings.overrides.sparing spare⟩ output dryRun).run tree).1
      (report.errors = [] ↔ ∃ generated, outcome = .ok generated) ∧
      (∀ error, outcome = .error error →
        ∃ cause, error = .generation path cause ∧ report.errors = [cause.message]) ∧
      ∀ generated, outcome = .ok generated →
        report.types =
          schema.visible.map (fun definition => (definition.name, definition.kind)) ∧
        report.types.length = generated.typeCount ∧
        report.count .scalar + report.count .enumeration + report.count .object +
          report.count .interface = generated.typeCount := by
  refine ⟨statusIn_check_iff, ?_, ?_⟩
  · intro tree line line' schema settings moduleName output checks generates
    have check : run FileTree.access line = runCheck FileTree.access ⟨schema, settings⟩ := by
      rw [run, checks]
    have dryRun : run FileTree.access line' =
        runGenerate FileTree.access ⟨schema, settings, moduleName, output, true⟩ := by
      rw [run, generates]
    rw [check, dryRun]
    exact statusIn_check_iff tree schema settings moduleName output
  · intro tree path schema settings moduleName output dryRun spare dry report outcome
    have dryOnly : outcome =
        dryOutcome path schema ⟨moduleName, settings.overrides.sparing spare⟩ output := by
      simp only [outcome, generate_eq_pure dry]
      rfl
    have errors : report.errors = errorsOf _ := check_errors path schema settings moduleName spare
    rw [dryOnly]
    refine ⟨check_errors_eq_nil_iff spare, ?_, ?_⟩
    · intro error fails
      rw [dryOutcome, map_eq_error_iff] at fails
      cases generation : generateTypes schema ⟨moduleName, settings.overrides.sparing spare⟩ with
      | ok generated =>
        rw [generation] at fails
        cases fails
      | error cause =>
        rw [generation] at fails errors
        cases fails
        exact ⟨cause, rfl, errors⟩
    · intro generated succeeds
      obtain ⟨module, -, rfl⟩ := map_eq_ok_iff.mp succeeds
      have listed : report.types.length = schema.visible.length := List.length_map _
      exact ⟨rfl, listed, report.count_add.trans listed⟩

/-- A schema with a field of a type that no declaration expresses. -/
def gridSchema : Schema :=
  .ofList [.scalar ⟨"Date"⟩, .object ⟨"Grid", .ofList [⟨"cells", .list (.list (.named "Int"))⟩], []⟩]

def gridTree : FileTree :=
  (FileTree.bare ["work"]).withFile ["work", "grid.graphql"]
    "type Grid \x7b cells: [[Int]] \x7d".toUTF8

theorem grid_fails_in_both :
    (statusIn gridTree (run FileTree.access ["check", "grid.graphql"]) = 0 ↔
      statusIn gridTree (run FileTree.access
        ["generate", "--dry-run", "-m", "grids", "grid.graphql", "--output=out"]) = 0) ∧
    (∃ cause : GenerateError,
      (check "grid.graphql" gridSchema {}).errors = [cause.message]) ∧
    (check "date.graphql" (.ofList [.scalar ⟨"Date"⟩]) {}).types.length = 1 := by
  have theory := check_agrees_with_dry_run
  refine ⟨?_, ?_, ?_⟩
  · exact theory.2.1 gridTree _ _ (some "grid.graphql") none (some "grids") (some "out") rfl rfl
  · obtain ⟨-, fails, -⟩ := theory.2.2 gridTree "grid.graphql" gridSchema {} none none false 64
      (.inl rfl)
    obtain ⟨cause, -, errors⟩ := fails _ rfl
    exact ⟨cause, errors⟩
  · obtain ⟨-, -, succeeds⟩ := theory.2.2 gridTree "date.graphql" (.ofList [.scalar ⟨"Date"⟩]) {}
      (some "dates") (some "out") true 0 (.inr rfl)
    exact (succeeds _ rfl).2.1.trans rfl

end SchemaTypings
