import SchemaTypings.Proofs.Generation.Faults
import SchemaTypings.Proofs.NamedLists

/-!
# What a declaration depends on

A definition is declared from itself and from what the base names of its fields lead
to: nothing, a scalar, or a definition of another kind. `Schema.standing` says which.
So two schemas that agree on it declare a definition alike, the order of a schema
decides about nothing but the order of its texts, and a definition that no other one
refers to can be taken out without a trace.
-/

namespace SchemaTypings

open Traversal

/-! ### What a name leads to -/

/-- What a name leads to, as far as a field that refers to it can tell. -/
inductive Standing where
  | undefined
  | scalar
  | other
deriving DecidableEq, Repr

/-- What a name leads to in a schema. -/
def Schema.standing (schema : Schema) (name : String) : Standing :=
  match schema.find? name with
  | none => .undefined
  | some (.scalar _) => .scalar
  | some _ => .other

theorem Schema.standing_congr {first second : Schema} {name : String}
    (same : first.find? name = second.find? name) : first.standing name = second.standing name := by
  rw [standing, standing, same]

def Schema.without (schema : Schema) (name : String) : Schema where
  toList := schema.toList.filter fun definition => definition.name != name
  distinct := schema.distinct.sublist (List.filter_sublist.map _)

/-! ### Fields and records -/

/-- The text for a base name, by what the name leads to. -/
theorem baseText_eq_of_standing (field : Field) (name : String) (context : Context) :
    baseText field name context =
      match context.schema.standing name with
      | .scalar => context.render (.scalar ⟨name⟩)
      | .other => .ok name
      | .undefined =>
        match StandardScalar.ofName? name with
        | some standard => context.render (.scalar (.ofStandard standard))
        | none => .error (.unknownType context.parentName field.name name) := by
  unfold baseText Schema.standing
  cases found : context.schema.find? name with
  | none => rfl
  | some definition =>
    obtain ⟨-, rfl⟩ := NamedList.find?_eq_some_iff.mp found
    cases definition <;> rfl

section Fields

variable {first second : Context} {field : Field}
  (scalars : ∀ scalar, first.render (.scalar scalar) = second.render (.scalar scalar))
  (parents : first.parent = second.parent)
  (same : first.schema.standing field.type.baseName = second.schema.standing field.type.baseName)
include scalars parents same

/-- The type of a field depends on what its base name leads to. -/
theorem resolve_congr : resolve field first = resolve field second := by
  by_cases form : field.type.IsExpressible
  · rw [resolve_of_isExpressible form, resolve_of_isExpressible form,
      baseText_eq_of_standing, baseText_eq_of_standing, same]
    simp only [scalars, Context.parentName, parents]
  · rw [resolve_of_not_isExpressible form, resolve_of_not_isExpressible form,
      Context.parentName, Context.parentName, parents]

/-- A field is rendered from its own type and from what its base name leads to. -/
theorem Default.field_congr : Default.field field first = Default.field field second := by
  rw [Default.field_eq_map, Default.field_eq_map, resolve_congr scalars parents same]

end Fields

/-- A record depends on what its fields are rendered to. -/
theorem Default.record_congr {record : Record} {first second : Context}
    (fields : ∀ field ∈ record.fields.toList,
      (first.within record.name).render (.field field) =
        (second.within record.name).render (.field field)) :
    Default.record record first = Default.record record second := by
  rw [Default.record_eq_map, Default.record_eq_map, Context.members, Context.members,
    mapM_congr fields]

/-! ### Rules that look at nothing else -/

/-- The rules for scalars look at the scalar only, and the other rules are the default
ones. -/
structure Rules.AreLocal (rules : Rules) : Prop where
  scalar (scalar : Scalar) (first second : Context) :
    rules.scalar scalar first = rules.scalar scalar second
  scalarDef (scalar : Scalar) (first second : Context) :
    rules.scalarDef scalar first = rules.scalarDef scalar second
  enumeration : rules.enumeration = Default.enumeration
  field : rules.field = Default.field
  interface : rules.interface = Default.record
  object : rules.object = Default.record

/-- A table of types for scalars leaves the rules local. -/
theorem ScalarTable.areLocal (table : ScalarTable) (spare : Nat) :
    (Rules.overriding (table.overrides.sparing spare)).AreLocal := by
  unfold ScalarTable.overrides
  split
  · exact ⟨fun _ _ _ => rfl, fun _ _ _ => rfl, rfl, rfl, rfl, rfl⟩
  · exact ⟨fun _ _ _ => rfl, fun _ _ _ => rfl, rfl, rfl, rfl, rfl⟩

namespace Rules.AreLocal

variable {rules : Rules} (isLocal : rules.AreLocal) {first second : Schema}
  {moduleName moduleName' : String}
include isLocal

/-- So it is by the effective rules, in whatever module. -/
theorem answer_field_congr {depth : Nat} {parent : String} {field : Field}
    (same : first.standing field.type.baseName = second.standing field.type.baseName) :
    rules.answer moduleName first (depth + 2) (some parent) (.field field) =
      rules.answer moduleName' second (depth + 2) (some parent) (.field field) := by
  change rules.field field _ = rules.field field _
  rw [isLocal.field]
  exact Default.field_congr (fun scalar => isLocal.scalar scalar _ _) rfl same

/-- A definition is declared from itself and from what the base names of its fields lead
to. -/
theorem declare_congr {definition : Definition}
    (same : ∀ field ∈ definition.fields,
      first.standing field.type.baseName = second.standing field.type.baseName) :
    Generator.declare (rules.context moduleName first) definition =
      Generator.declare (rules.context moduleName' second) definition := by
  have record (r : Record)
      (same : ∀ field ∈ r.fields.toList,
        first.standing field.type.baseName = second.standing field.type.baseName) :
      Default.record r
          ⟨moduleName, first, some r.name, rules.answer moduleName first (rules.spare + 2)⟩ =
        Default.record r
          ⟨moduleName', second, some r.name, rules.answer moduleName' second (rules.spare + 2)⟩ :=
    Default.record_congr fun field mem => isLocal.answer_field_congr (same field mem)
  cases definition with
  | scalar s => exact isLocal.scalarDef s _ _
  | enumeration e =>
    change rules.enumeration e _ = rules.enumeration e _
    rw [isLocal.enumeration]
    rfl
  | object r =>
    change rules.object r _ = rules.object r _
    rw [isLocal.object]
    exact record r same
  | interface r =>
    change rules.interface r _ = rules.interface r _
    rw [isLocal.interface]
    exact record r same

end Rules.AreLocal

/-! ### Generating from two schemas -/

/-- The text that a generator declares a definition by; empty where it fails. -/
def Generator.textOf (generator : Generator) (schema : Schema) (definition : Definition) : String :=
  match generator.renderDefinition schema definition with
  | .ok text => text
  | .error _ => ""

/-- A generated module joins the texts of the visible definitions. -/
theorem Generator.generate_eq_ok_iff_textOf {generator : Generator} {schema : Schema}
    {generated : Generated} :
    generator.generate schema = .ok generated ↔
      (∀ definition ∈ schema.visible, generator.renderDefinition schema definition =
        .ok (generator.textOf schema definition)) ∧
      generated = ⟨generator.moduleName,
        String.join (schema.visible.map (generator.textOf schema))⟩ := by
  rw [generate_eq_ok_iff]
  constructor
  · rintro ⟨texts, rendered, rfl⟩
    have declared : List.Forall₂ (fun definition text =>
        generator.renderDefinition schema definition = .ok (generator.textOf schema definition) ∧
          generator.textOf schema definition = text) schema.visible texts :=
      rendered.imp fun definition text found => by simp [textOf, found]
    obtain ⟨sound, same⟩ := (List.forall₂_and_left _ _).mp declared
    rw [← List.forall₂_map_left_iff, List.forall₂_eq_eq_eq] at same
    exact ⟨sound, same ▸ rfl⟩
  · rintro ⟨sound, rfl⟩
    exact ⟨_, List.forall₂_map_right_iff.mpr (List.forall₂_same.mpr sound), rfl⟩

/-- A generator that declares the visible definitions of a schema as it declares them in
another one generates a module of the same texts. -/
theorem Generator.generate_eq_ok_of_rendered {generator : Generator} {first second : Schema}
    {generated : Generated} (succeeds : generator.generate first = .ok generated)
    (visible : ∀ definition ∈ second.visible, definition ∈ first.visible)
    (same : ∀ definition ∈ second.visible,
      generator.renderDefinition first definition =
        generator.renderDefinition second definition) :
    generator.generate second = .ok ⟨generator.moduleName,
      String.join (second.visible.map (generator.textOf first))⟩ := by
  obtain ⟨rendered, -⟩ := generate_eq_ok_iff_textOf.mp succeeds
  have texts : ∀ definition ∈ second.visible,
      generator.textOf first definition = generator.textOf second definition := by
    intro definition mem
    rw [textOf, textOf, same definition mem]
  rw [List.map_congr_left texts]
  refine generate_eq_ok_iff_textOf.mpr ⟨fun definition mem => ?_, rfl⟩
  rw [← texts definition mem, ← same definition mem]
  exact rendered definition (visible definition mem)

/-- Schemas with the same definitions in different orders lead names to the same
definitions. -/
theorem Schema.standing_of_perm {first second : Schema} (perm : first.toList.Perm second.toList)
    (name : String) : first.standing name = second.standing name :=
  standing_congr (NamedList.find?_congr fun _ _ => perm.mem_iff)

/-- Without a definition, the other names lead to what they led to before. -/
theorem Schema.standing_without {schema : Schema} {name other : String} (differs : other ≠ name) :
    schema.standing other = (schema.without name).standing other :=
  standing_congr <| NamedList.find?_congr fun definition named => by
    have kept : definition.name ≠ name := fun same => differs (named.symm.trans same)
    simp [without, kept]

/-- The visible definitions of a schema without a name are those that do not have it. -/
theorem Schema.visible_without (schema : Schema) (name : String) :
    (schema.without name).visible =
      schema.visible.filter fun definition => definition.name != name :=
  List.filter_comm ..

/-! ### The main result -/

/-- With any table of types for scalars and any number of links to spare, two schemas that
agree on what the base names of a definition's fields lead to declare the definition alike,
with the same text or the same error. So generation succeeds for both of two orders of a
schema or for neither, and then joins the same texts in either order; and where generation
succeeds, taking out a definition that no remaining visible one refers to takes out its text
and no more. -/
theorem declarations_are_local (table : ScalarTable) (spare : Nat) (moduleName : Option String) :
    let options : Options := ⟨moduleName, table.overrides.sparing spare⟩
    let generator := Generator.ofOptions options
    (∀ (first second : Schema) (definition : Definition),
      definition ∈ first.toList → definition ∈ second.toList →
      (∀ field ∈ definition.fields,
        first.standing field.type.baseName = second.standing field.type.baseName) →
      generator.renderDefinition first definition =
        generator.renderDefinition second definition) ∧
    (∀ first second : Schema, first.toList.Perm second.toList →
      ((∃ generated, generateTypes first options = .ok generated) ↔
        ∃ generated, generateTypes second options = .ok generated) ∧
      ∀ generated generated', generateTypes first options = .ok generated →
        generateTypes second options = .ok generated' →
        ∃ text : Definition → String,
          (∀ definition ∈ first.visible,
            generator.renderDefinition first definition = .ok (text definition)) ∧
          generated.content = String.join (first.visible.map text) ∧
          generated'.content = String.join (second.visible.map text)) ∧
    ∀ (schema : Schema) (name : String) (generated : Generated),
      generateTypes schema options = .ok generated →
      (∀ definition ∈ (schema.without name).visible, ∀ field ∈ definition.fields,
        field.type.baseName ≠ name) →
      ∃ text : Definition → String,
        (∀ definition ∈ schema.visible,
          generator.renderDefinition schema definition = .ok (text definition)) ∧
        generated.content = String.join (schema.visible.map text) ∧
        generateTypes (schema.without name) options = .ok ⟨generated.moduleName,
          String.join ((schema.visible.filter fun definition => definition.name != name).map
            text)⟩ := by
  intro options generator
  have congruent {first second : Schema} {definition : Definition}
      (same : ∀ field ∈ definition.fields,
        first.standing field.type.baseName = second.standing field.type.baseName) :
      generator.renderDefinition first definition = generator.renderDefinition second definition :=
    (table.areLocal spare).declare_congr same
  have permuted {first second : Schema} {generated : Generated}
      (perm : first.toList.Perm second.toList)
      (succeeds : generateTypes first options = .ok generated) :
      generateTypes second options = .ok ⟨generator.moduleName,
        String.join (second.visible.map (generator.textOf first))⟩ :=
    Generator.generate_eq_ok_of_rendered succeeds (fun _ => (perm.filter _).mem_iff.mpr)
      fun _ _ => congruent fun _ _ => Schema.standing_of_perm perm _
  refine ⟨fun _ _ _ _ _ => congruent, fun first second perm => ⟨⟨?_, ?_⟩, ?_⟩, ?_⟩
  · rintro ⟨_, succeeds⟩
    exact ⟨_, permuted perm succeeds⟩
  · rintro ⟨_, succeeds⟩
    exact ⟨_, permuted perm.symm succeeds⟩
  · intro generated generated' succeeds succeeds'
    obtain ⟨rendered, rfl⟩ := Generator.generate_eq_ok_iff_textOf.mp succeeds
    cases succeeds'.symm.trans (permuted perm succeeds)
    exact ⟨generator.textOf first, rendered, rfl, rfl⟩
  · intro schema name generated succeeds unused
    obtain ⟨rendered, rfl⟩ := Generator.generate_eq_ok_iff_textOf.mp succeeds
    refine ⟨generator.textOf schema, rendered, rfl, ?_⟩
    rw [← schema.visible_without name]
    refine Generator.generate_eq_ok_of_rendered succeeds (fun definition mem => ?_)
      fun definition mem => congruent fun field listed => ?_
    · rw [schema.visible_without] at mem
      exact (List.mem_filter.mp mem).1
    · exact Schema.standing_without (unused definition mem field listed)

/-- An object type that refers to an enumeration, to a type that refers back to it, and to
a scalar. -/
def branchObject : Definition :=
  .object ⟨"Branch", .ofList [⟨"leaves", .nonNull (.list (.named "Leaf"))⟩,
    ⟨"hue", .named "Hue"⟩, ⟨"grown", .named "Date"⟩], []⟩

/-- A schema with types that refer to each other, one that nothing refers to, and a
reserved one. -/
def branchSchema : Schema :=
  .ofList [branchObject, .enumeration ⟨"Hue", ["RED"]⟩, .scalar ⟨"Date"⟩,
    .interface ⟨"Leaf", .ofList [⟨"branch", .named "Branch"⟩], []⟩,
    .object ⟨"Root", .ofList [⟨"branch", .named "Branch"⟩, ⟨"self", .named "Root"⟩], []⟩,
    .enumeration ⟨"__Kind", []⟩]

/-- The same names, of which two lead to definitions of another kind. -/
def otherBranchSchema : Schema :=
  .ofList [.object ⟨"Hue", .ofList [⟨"grid", .list (.list (.named "Int"))⟩], []⟩, branchObject,
    .scalar ⟨"Date"⟩, .enumeration ⟨"Leaf", []⟩]

def reversedBranchSchema : Schema where
  toList := branchSchema.toList.reverse
  distinct := by decide

def dateTable : ScalarTable := [("Date", "Date")]

/-- The branch is declared alike in both schemas, and a module is generated in either order,
and without the root. -/
theorem branch_is_local :
    let options : Options := ⟨none, dateTable.overrides.sparing 0⟩
    (Generator.ofOptions options).renderDefinition branchSchema branchObject =
      (Generator.ofOptions options).renderDefinition otherBranchSchema branchObject ∧
    (∃ generated, generateTypes reversedBranchSchema options = .ok generated) ∧
    ∃ generated rest, generateTypes branchSchema options = .ok generated ∧
      generateTypes (branchSchema.without "Root") options = .ok rest := by
  intro options
  have theory := declarations_are_local dateTable 0 none
  obtain ⟨generated, succeeds⟩ : ∃ g, generateTypes branchSchema options = .ok g := ⟨_, rfl⟩
  refine ⟨theory.1 _ _ _ (.head _) (.tail _ (.head _)) (by decide), ?_, ?_⟩
  · exact (theory.2.1 _ _ (List.reverse_perm _).symm).1.mp ⟨generated, succeeds⟩
  · obtain ⟨_, -, -, without⟩ := theory.2.2 _ "Root" _ succeeds (by decide)
    exact ⟨generated, _, succeeds, without⟩

end SchemaTypings
