import SchemaTypings.Generator
import SchemaTypings.Proofs.Traversal

/-!
# Generation as a traversal

A generator renders the visible definitions in order. What it makes of a schema is
the concatenation of their texts, or the failure of the first definition that
cannot be rendered.
-/

namespace SchemaTypings

namespace Generator

open Traversal

/-- What the effective rules make of a definition in a context. -/
def declare (context : Context) (definition : Definition) : Answer :=
  context.render definition.element

/-- What a generator makes of a definition of a schema. -/
def renderDefinition (generator : Generator) (schema : Schema) : Definition → Answer :=
  declare (generator.rules.context generator.moduleName schema)

/-- Rendering a list of definitions passes over the reserved ones and joins the
texts of the others. -/
theorem renderAll_snd (context : Context) (definitions : List Definition) :
    (renderAll context definitions).2 =
      ((definitions.filter fun definition => !isReserved definition.name).mapM
        (declare context)).map String.join := by
  induction definitions with
  | nil => simp [renderAll, pure, Except.pure, Except.map]
  | cons definition rest ih =>
    by_cases reserved : isReserved definition.name
    · simp [renderAll, reserved, ih]
    · rw [List.filter_cons_of_pos (by simpa using reserved)]
      cases rendered : declare context definition with
      | error e =>
        rw [mapM_cons_of_error rendered]
        rw [declare] at rendered
        simp [renderAll, reserved, rendered, Except.map]
      | ok text =>
        rw [mapM_cons_of_ok rendered]
        rw [declare] at rendered
        simp only [renderAll, reserved, rendered, Bool.false_eq_true, if_false, ih]
        cases (rest.filter fun definition => !isReserved definition.name).mapM (declare context)
          <;> simp [Except.map]

/-- A generated module is the concatenation of the texts of the visible definitions. -/
theorem generate_eq_map (generator : Generator) (schema : Schema) :
    generator.generate schema =
      (schema.visible.mapM (generator.renderDefinition schema)).map
        fun texts => ⟨generator.moduleName, String.join texts⟩ := by
  have joined := renderAll_snd (generator.rules.context generator.moduleName schema) schema.toList
  rw [generate, run, renderDefinition, Schema.visible]
  generalize schema.toList.filter _ = definitions at joined ⊢
  generalize renderAll _ schema.toList = rendered at joined ⊢
  obtain ⟨events, answer⟩ := rendered
  obtain rfl : answer = _ := joined
  cases definitions.mapM (declare (generator.rules.context generator.moduleName schema)) <;> rfl

/-- Generation succeeds with the joined texts of the visible definitions. -/
theorem generate_eq_ok_iff {generator : Generator} {schema : Schema} {generated : Generated} :
    generator.generate schema = .ok generated ↔
      ∃ texts, List.Forall₂ (fun definition text =>
          generator.renderDefinition schema definition = .ok text) schema.visible texts ∧
        generated = ⟨generator.moduleName, String.join texts⟩ := by
  simp only [generate_eq_map, ← mapM_eq_ok_iff]
  cases schema.visible.mapM (generator.renderDefinition schema) <;> simp [Except.map, eq_comm]

/-- Generation succeeds exactly when no visible definition fails. -/
theorem generate_succeeds_iff {generator : Generator} {schema : Schema} :
    (∃ generated, generator.generate schema = .ok generated) ↔
      ∀ definition ∈ schema.visible, ¬ Fails (generator.renderDefinition schema) definition := by
  rw [← mapM_succeeds_iff, generate_eq_map]
  cases schema.visible.mapM (generator.renderDefinition schema) <;> simp [Except.map]

/-- Generation fails as the first visible definition that fails. -/
theorem generate_eq_error_iff {generator : Generator} {schema : Schema} {error : GenerateError} :
    generator.generate schema = .error error ↔
      ∃ definition,
        FirstWith (Fails (generator.renderDefinition schema)) schema.visible definition ∧
          generator.renderDefinition schema definition = .error error := by
  rw [← mapM_eq_error_iff, generate_eq_map]
  cases schema.visible.mapM (generator.renderDefinition schema) <;> simp [Except.map]

end Generator

/-- Whether a text generates is decided by its schema. -/
theorem generateTypesFromSource_eq_ok_iff {text : String} {options : Options}
    {generated : Generated} :
    generateTypesFromSource text options = .ok generated ↔
      ∃ schema, Sdl.load ⟨Sdl.defaultSourceName, text⟩ = .ok schema ∧
        generateTypes schema options = .ok generated := by
  unfold generateTypesFromSource Generator.generateSource Generator.runSource
  split
  · next fault failed =>
    refine iff_of_false (fun eq => nomatch eq) ?_
    rintro ⟨schema, loaded, -⟩
    cases failed.symm.trans loaded
  · next schema loaded =>
    constructor
    · exact fun generated => ⟨schema, loaded, generated⟩
    · rintro ⟨other, again, generated⟩
      cases loaded.symm.trans again
      exact generated

end SchemaTypings
