import SchemaTypings.Proofs.Generation.Concatenation
import SchemaTypings.Proofs.Shape
import SchemaTypings.Settings

/-!
# What makes generation fail

As long as only the rules for scalars are replaced, and by rules that do not fail,
a field is the only thing that can make generation fail: its type has a form that no
declaration expresses, or its base name leads nowhere. Generation then fails as
the first such field does, in the order of the schema and then of the fields.
-/

namespace SchemaTypings

open Traversal

/-! ### Fields that cannot be rendered -/

/-- A name that a field may refer to: one the schema defines, or a standard scalar. -/
def Schema.Knows (schema : Schema) (name : String) : Prop :=
  name ∈ schema.names ∨ ∃ standard : StandardScalar, standard.name = name

def Schema.Supports (schema : Schema) (field : Field) : Prop :=
  field.type.IsExpressible ∧ schema.Knows field.type.baseName

/-- The error that a field of the record `parent` gives rise to. The form of the
type is looked at first. -/
inductive FieldFault (schema : Schema) (parent : String) (field : Field) :
    GenerateError → Prop where
  | shape : ¬ field.type.IsExpressible →
      FieldFault schema parent field (.unsupportedShape parent field.name field.type)
  | unknown : field.type.IsExpressible → ¬ schema.Knows field.type.baseName →
      FieldFault schema parent field (.unknownType parent field.name field.type.baseName)

section FieldFaults

variable {schema : Schema} {parent : String} {field : Field}

/-- A field with a fault cannot be rendered. -/
theorem FieldFault.not_supports {error : GenerateError}
    (fault : FieldFault schema parent field error) : ¬ schema.Supports field := by
  rintro ⟨form, known⟩
  cases fault with
  | shape other => exact other form
  | unknown _ unknown => exact unknown known

/-- Where the form of the type is at fault, the message writes the full type in GraphQL
notation. -/
theorem FieldFault.message_of_not_isExpressible {error : GenerateError}
    (fault : FieldFault schema parent field error) (other : ¬ field.type.IsExpressible) :
    error.message =
      "unsupported schema type shape '" ++ field.type.spelling ++ "' on field '" ++ parent ++ "."
        ++ field.name ++ "'" := by
  cases fault with
  | shape _ => rfl
  | unknown form _ => exact absurd form other

/-- A field that cannot be rendered has exactly one error. -/
theorem exists_fieldFault_iff :
    (∃ error, FieldFault schema parent field error) ↔ ¬ schema.Supports field := by
  constructor
  · rintro ⟨error, fault⟩
    exact fault.not_supports
  · intro unsupported
    by_cases form : field.type.IsExpressible
    · exact ⟨_, .unknown form fun known => unsupported ⟨form, known⟩⟩
    · exact ⟨_, .shape form⟩

end FieldFaults

/-! ### The default rules for fields and records -/

/-- The fields of a record, rendered with the record as their parent. -/
def Context.members (context : Context) (record : Record) : Except GenerateError (List String) :=
  record.fields.toList.mapM fun field => (context.within record.name).render (.field field)

/-- A record is rendered from its members, of which the empty ones are left out. -/
theorem Default.record_eq_map (record : Record) (context : Context) :
    Default.record record context =
      (context.members record).map fun members =>
        (Declaration.interface record.name record.interfaces
          (members.filter fun member => !member.isEmpty) true).render :=
  bind_pure_eq_map _ _

section Fields

variable {context : Context} {field : Field}

/-- Where scalars can always be rendered, the text for a base name is missing exactly
if the name leads nowhere. -/
theorem baseText_eq_error_iff {name : String} {error : GenerateError}
    (scalars : ∀ scalar, ∃ text, context.render (.scalar scalar) = .ok text) :
    baseText field name context = .error error ↔
      ¬ context.schema.Knows name ∧ error = .unknownType context.parentName field.name name := by
  unfold baseText
  cases found : context.schema.find? name with
  | some definition =>
    have known : context.schema.Knows name := by
      refine .inl (Classical.not_not.mp fun missing => ?_)
      rw [NamedList.find?_eq_none_iff.mpr missing] at found
      cases found
    cases definition with
    | scalar scalar =>
      obtain ⟨text, rendered⟩ := scalars scalar
      simp [known, rendered]
    | enumeration e => simp [known]
    | object r => simp [known]
    | interface r => simp [known]
  | none =>
    cases standard : StandardScalar.ofName? name with
    | some scalar =>
      have known : context.schema.Knows name :=
        .inr ⟨scalar, StandardScalar.ofName?_eq_some_iff.mp standard⟩
      obtain ⟨text, rendered⟩ := scalars (.ofStandard scalar)
      simp [known, rendered]
    | none =>
      have unknown : ¬ context.schema.Knows name := by
        rintro (mem | ⟨scalar, named⟩)
        · exact NamedList.find?_eq_none_iff.mp found mem
        · rw [StandardScalar.ofName?_eq_some_iff.mpr named] at standard
          cases standard
      simp [unknown, eq_comm]

/-- The type of an expressible field is the text of its base name, in brackets if one of
the wrappers is a list. -/
theorem resolve_of_isExpressible (form : field.type.IsExpressible) :
    resolve field context =
      (baseText field field.type.baseName context).map fun base =>
        ⟨if field.type.hasList then arrayOf base else base, !field.type.isNonNull⟩ := by
  rw [resolve, TypeRef.unwrap?_of_isExpressible form]
  exact bind_pure_eq_map _ _

/-- The form of a type is refused whatever its base name is. -/
theorem resolve_of_not_isExpressible (form : ¬ field.type.IsExpressible) :
    resolve field context =
      .error (.unsupportedShape context.parentName field.name field.type) := by
  rw [resolve, TypeRef.unwrap?_eq_none_iff.mpr form]

theorem Default.field_eq_map :
    Default.field field context =
      (resolve field context).map fun type =>
        Member.line ⟨field.name, type.text, type.isOptional, false⟩ :=
  bind_pure_eq_map _ _

/-- The default rule for fields fails with the fault of the field. -/
theorem Default.field_eq_error_iff {error : GenerateError}
    (scalars : ∀ scalar, ∃ text, context.render (.scalar scalar) = .ok text) :
    Default.field field context = .error error ↔
      FieldFault context.schema context.parentName field error := by
  rw [Default.field_eq_map, map_eq_error_iff]
  by_cases form : field.type.IsExpressible
  · rw [resolve_of_isExpressible form, map_eq_error_iff, baseText_eq_error_iff scalars]
    constructor
    · rintro ⟨unknown, rfl⟩
      exact .unknown form unknown
    · rintro (other | ⟨-, unknown⟩)
      · exact absurd form other
      · exact ⟨unknown, rfl⟩
  · rw [resolve_of_not_isExpressible form]
    constructor
    · rintro ⟨⟩
      exact .shape form
    · rintro (_ | ⟨form', -⟩)
      · rfl
      · exact absurd form' form

end Fields

/-! ### Rules that leave fields and records to the defaults -/

/-- Only the rules for scalars are replaced, and by rules that do not fail. -/
structure Rules.OnlyScalars (rules : Rules) : Prop where
  scalar (scalar : Scalar) (context : Context) : ∃ text, rules.scalar scalar context = .ok text
  scalarDef (scalar : Scalar) (context : Context) :
    ∃ text, rules.scalarDef scalar context = .ok text
  enumeration : rules.enumeration = Default.enumeration
  field : rules.field = Default.field
  interface : rules.interface = Default.record
  object : rules.object = Default.record

/-- A table of types for scalars replaces only the rules for scalars. -/
theorem ScalarTable.onlyScalars (table : ScalarTable) (spare : Nat) :
    (Rules.overriding (table.overrides.sparing spare)).OnlyScalars := by
  have scalar (s : Scalar) (c : Context) : ∃ text, Default.scalar s c = .ok text := by
    unfold Default.scalar
    split <;> exact ⟨_, rfl⟩
  have scalarDef (s : Scalar) (c : Context) : ∃ text, Default.scalarDef s c = .ok text := by
    unfold Default.scalarDef
    split <;> exact ⟨_, rfl⟩
  unfold ScalarTable.overrides
  split
  · exact ⟨scalar, scalarDef, rfl, rfl, rfl, rfl⟩
  · refine ⟨fun s c => ?_, fun s c => ?_, rfl, rfl, rfl, rfl⟩
    · simp only [Rules.overriding, Overrides.sparing, Option.getD_some]
      split
      · exact ⟨_, rfl⟩
      · exact scalar s c
    · simp only [Rules.overriding, Overrides.sparing, Option.getD_some]
      split
      · split
        · exact scalarDef s c
        · exact ⟨_, rfl⟩
      · exact scalarDef s c

namespace Rules.OnlyScalars

variable {rules : Rules} (only : rules.OnlyScalars) {moduleName : String} {schema : Schema}
include only

/-- Two links of the chain of rules are enough for a field. -/
theorem answer_field_eq_error_iff {depth : Nat} {parent : String} {field : Field}
    {error : GenerateError} :
    rules.answer moduleName schema (depth + 2) (some parent) (.field field) = .error error ↔
      FieldFault schema parent field error := by
  change rules.field field _ = _ ↔ _
  rw [only.field]
  exact Default.field_eq_error_iff fun scalar => only.scalar scalar _

/-- A definition fails as its first field does that cannot be rendered. -/
theorem declare_eq_error_iff {definition : Definition} {error : GenerateError} :
    Generator.declare (rules.context moduleName schema) definition = .error error ↔
      ∃ field, FirstWith (fun field => ¬ schema.Supports field) definition.fields field ∧
        FieldFault schema definition.name field error := by
  have record (r : Record) (context : Context)
      (effective : context.effective = rules.answer moduleName schema (rules.spare + 2)) :
      Default.record r context = .error error ↔
        ∃ field, FirstWith (fun field => ¬ schema.Supports field) r.fields.toList field ∧
          FieldFault schema r.name field error := by
    have render (field : Field) (e : GenerateError) :
        (context.within r.name).render (.field field) = .error e ↔
          FieldFault schema r.name field e := by
      unfold Context.render Context.within
      rw [effective]
      exact only.answer_field_eq_error_iff
    rw [Default.record_eq_map, map_eq_error_iff, Context.members, mapM_eq_error_iff]
    refine exists_congr fun field => and_congr (FirstWith.congr fun f _ => ?_) (render field error)
    simp only [Fails, render, exists_fieldFault_iff]
  have infallible {answer : Answer} (succeeds : ∃ text, answer = .ok text) :
      answer = .error error ↔
        ∃ field, FirstWith (fun field => ¬ schema.Supports field) [] field ∧
          FieldFault schema definition.name field error := by
    obtain ⟨text, rfl⟩ := succeeds
    simp
  cases definition with
  | scalar s => exact infallible (only.scalarDef s _)
  | enumeration e =>
    change rules.enumeration e _ = _ ↔ _
    rw [only.enumeration]
    exact infallible ⟨_, rfl⟩
  | object r =>
    change rules.object r _ = _ ↔ _
    rw [only.object]
    exact record r _ rfl
  | interface r =>
    change rules.interface r _ = _ ↔ _
    rw [only.interface]
    exact record r _ rfl

/-- A definition fails exactly if one of its fields cannot be rendered. -/
theorem fails_declare_iff {definition : Definition} :
    Fails (Generator.declare (rules.context moduleName schema)) definition ↔
      ∃ field ∈ definition.fields, ¬ schema.Supports field := by
  simp only [Fails, only.declare_eq_error_iff]
  rw [exists_comm, ← FirstWith.exists_iff]
  refine exists_congr fun field => ?_
  rw [exists_and_left, exists_fieldFault_iff]
  exact and_iff_left_of_imp fun first => first.1

end Rules.OnlyScalars

/-! ### The main result -/

/-- With any table of types for scalars, and however many links a chain of rules may have to
spare, generation succeeds exactly if every field of every visible definition has an
expressible type and a known base name. Otherwise the error is that of the first field, in
the order of the schema and then of the fields, for which this does not hold; the message
about a form writes the whole type. -/
theorem generate_fails_at_first_fault (schema : Schema) (table : ScalarTable)
    (spare : Nat) (moduleName : Option String) :
    let result := generateTypes schema ⟨moduleName, table.overrides.sparing spare⟩
    ((∃ generated, result = .ok generated) ↔
      ∀ definition ∈ schema.visible, ∀ field ∈ definition.fields,
        field.type.IsExpressible ∧ schema.Knows field.type.baseName) ∧
    ∀ error, result = .error error ↔
      ∃ definition field,
        FirstWith (fun d => ∃ f ∈ d.fields, ¬ schema.Supports f) schema.visible definition ∧
        FirstWith (fun f => ¬ schema.Supports f) definition.fields field ∧
        FieldFault schema definition.name field error ∧
        (¬ field.type.IsExpressible → error.message =
          "unsupported schema type shape '" ++ field.type.spelling ++ "' on field '"
            ++ definition.name ++ "." ++ field.name ++ "'") := by
  have only := table.onlyScalars spare
  let generator := Generator.ofOptions ⟨moduleName, table.overrides.sparing spare⟩
  have fails_iff (definition : Definition) :
      Fails (generator.renderDefinition schema) definition ↔
        ∃ field ∈ definition.fields, ¬ schema.Supports field := only.fails_declare_iff
  constructor
  · refine Generator.generate_succeeds_iff.trans (forall₂_congr fun definition _ => ?_)
    rw [fails_iff]
    simp only [not_exists, not_and, Classical.not_not]
    rfl
  · intro error
    refine Generator.generate_eq_error_iff.trans (exists_congr fun definition => ?_)
    have fault_iff : generator.renderDefinition schema definition = .error error ↔ _ :=
      only.declare_eq_error_iff
    rw [FirstWith.congr fun d _ => fails_iff d, fault_iff, ← exists_and_left]
    refine exists_congr fun field => and_congr_right fun _ => and_congr_right fun _ => ?_
    exact ⟨fun fault => ⟨fault, fault.message_of_not_isExpressible⟩, And.left⟩

end SchemaTypings
