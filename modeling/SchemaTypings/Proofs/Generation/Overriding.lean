import SchemaTypings.Proofs.Generation.Locality

/-!
# Overridden rules

A caller's rule that asks for no other rule sees its element and the site: the module, the
schema and the parent. For overrides of this kind, `SiteOverrides.moduleText` says what a
module comes to, without any chain of rules that ask for each other: every key has the
caller's rule or the default, records ask for their fields and fields for their scalars.

`SiteOverrides.Reaches` says which keys have a part in a definition. A key that is not
reached makes no difference, and a rule that is reached is honoured: if it fails, so does
the definition.
-/

namespace SchemaTypings

open Traversal

/-! ### Rules that ask for no other rule -/

/-- Where an element is rendered: all that a rule sees apart from its element and the other
rules. -/
structure Site where
  moduleName : String
  schema : Schema
  parent : Option String

namespace Site

/-- The same site for the fields of a record. -/
def within (site : Site) (parent : String) : Site :=
  { site with parent := some parent }

/-- The parent as errors name it: empty where there is none. -/
def parentName (site : Site) : String :=
  site.parent.getD ""

end Site

def Context.site (context : Context) : Site :=
  ⟨context.moduleName, context.schema, context.parent⟩

/-- A rule that asks for no other rule. It may fail. -/
abbrev SiteRule (α : Type) := α → Site → Answer

/-- The same rule among rules that may ask for each other. -/
def SiteRule.rule {α : Type} (rule : SiteRule α) : Rule α :=
  fun element context => rule element context.site

/-- Overrides by rules that ask for no other rule. -/
structure SiteOverrides where
  scalar : Option (SiteRule Scalar) := none
  scalarDef : Option (SiteRule Scalar) := none
  enumeration : Option (SiteRule Enumeration) := none
  field : Option (SiteRule Field) := none
  interface : Option (SiteRule Record) := none
  object : Option (SiteRule Record) := none

/-! ### Default rules for scalars -/

/-- What a scalar is referred to by under the default rules. -/
def Scalar.reference (scalar : Scalar) : String :=
  (scalar.standard?.map StandardScalar.primitive).getD scalar.name

theorem Default.scalar_eq (scalar : Scalar) (context : Context) :
    Default.scalar scalar context = .ok scalar.reference := by
  unfold Default.scalar Scalar.reference
  split <;> simp [*]

/-- A scalar is declared by an alias of `string`, and a standard one by nothing. -/
theorem Default.scalarDef_eq (scalar : Scalar) (context : Context) :
    Default.scalarDef scalar context =
      .ok (if scalar.isStandard then "" else
        (Declaration.typeAlias scalar.name "string").render) := by
  unfold Default.scalarDef
  split <;> rfl

namespace SiteOverrides

/-- The overrides as a caller hands them over, with links to spare. -/
def toOverrides (overrides : SiteOverrides) (spare : Nat) : Overrides where
  scalar := overrides.scalar.map SiteRule.rule
  scalarDef := overrides.scalarDef.map SiteRule.rule
  enumeration := overrides.enumeration.map SiteRule.rule
  field := overrides.field.map SiteRule.rule
  interface := overrides.interface.map SiteRule.rule
  object := overrides.object.map SiteRule.rule
  spare := spare

/-! ### What a module comes to -/

variable (overrides : SiteOverrides)

/-- What a scalar is used as: unless a rule is set, a standard scalar as its primitive type
and another one by its name. -/
def scalarText (site : Site) (scalar : Scalar) : Answer :=
  match overrides.scalar with
  | some rule => rule scalar site
  | none => .ok scalar.reference

/-- The text for the base name of a field: a scalar as it is used, at the same site, and
any other definition by its name. A standard scalar need not be in the schema. -/
def baseText (site : Site) (field : Field) (name : String) : Answer :=
  match site.schema.standing name, StandardScalar.ofName? name with
  | .scalar, _ => overrides.scalarText site ⟨name⟩
  | .other, _ => .ok name
  | .undefined, some _ => overrides.scalarText site ⟨name⟩
  | .undefined, none => .error (.unknownType site.parentName field.name name)

/-- What a field comes to: unless a rule is set, a property of the resolved type. -/
def fieldText (site : Site) (field : Field) : Answer :=
  match overrides.field, field.type.unwrap? with
  | some rule, _ => rule field site
  | none, none => .error (.unsupportedShape site.parentName field.name field.type)
  | none, some ⟨name, isNonNull, isList⟩ =>
    (overrides.baseText site field name).map fun base =>
      Member.line ⟨field.name, if isList then arrayOf base else base, !isNonNull, false⟩

/-- What a record comes to by the rule of its kind. The rule sees the record itself as
parent; if none is set, the fields are rendered with the record as their parent, and those
that come to nothing are left out. -/
def recordText (rule : Option (SiteRule Record)) (site : Site) (record : Record) : Answer :=
  match rule with
  | some rule => rule record (site.within record.name)
  | none =>
    (record.fields.toList.mapM (overrides.fieldText (site.within record.name))).map fun members =>
      (Declaration.interface record.name record.interfaces
        (members.filter fun member => !member.isEmpty) true).render

/-- What a definition comes to, by the rule of its kind. -/
def definitionText (site : Site) : Definition → Answer
  | .scalar s =>
    match overrides.scalarDef with
    | some rule => rule s site
    | none => .ok (if s.isStandard then "" else (Declaration.typeAlias s.name "string").render)
  | .enumeration e =>
    match overrides.enumeration with
    | some rule => rule e site
    | none => .ok (Declaration.enumeration e.name e.values false).render
  | .object r => overrides.recordText overrides.object site r
  | .interface r => overrides.recordText overrides.interface site r

/-- What a module comes to: the texts of the visible definitions in order, or the error of
the first one that fails. -/
def moduleText (moduleName : String) (schema : Schema) : Answer :=
  (schema.visible.mapM (overrides.definitionText ⟨moduleName, schema, none⟩)).map String.join

/-! ### The rules at a site -/

abbrev rules (spare : Nat) : Rules := .overriding (overrides.toOverrides spare)

section Rules

variable {overrides} {spare : Nat} {context : Context}

/-- A scalar is used as the overrides say, wherever it is rendered. -/
theorem rules_scalar (scalar : Scalar) :
    (overrides.rules spare).scalar scalar context = overrides.scalarText context.site scalar := by
  change (overrides.scalar.map SiteRule.rule).getD Default.scalar scalar context = _
  unfold scalarText
  cases overrides.scalar with
  | some rule => rfl
  | none => exact Default.scalar_eq scalar context

theorem rules_scalarDef (scalar : Scalar) :
    (overrides.rules spare).scalarDef scalar context =
      overrides.definitionText context.site (.scalar scalar) := by
  change (overrides.scalarDef.map SiteRule.rule).getD Default.scalarDef scalar context = _
  unfold definitionText
  cases overrides.scalarDef with
  | some rule => rfl
  | none => exact Default.scalarDef_eq scalar context

/-- An enumeration is declared as the overrides say. -/
theorem rules_enumeration (enumeration : Enumeration) :
    (overrides.rules spare).enumeration enumeration context =
      overrides.definitionText context.site (.enumeration enumeration) := by
  change (overrides.enumeration.map SiteRule.rule).getD Default.enumeration enumeration context = _
  unfold definitionText
  cases overrides.enumeration <;> rfl

/-- Where scalars are used as the overrides say, so are base names. -/
theorem baseText_eq {field : Field} {name : String}
    (scalars : ∀ scalar, context.render (.scalar scalar) =
      overrides.scalarText context.site scalar) :
    SchemaTypings.baseText field name context = overrides.baseText context.site field name := by
  rw [baseText_eq_of_standing, baseText, Context.site]
  cases context.schema.standing name with
  | scalar => exact scalars ⟨name⟩
  | other => rfl
  | undefined =>
    cases found : StandardScalar.ofName? name with
    | none => rfl
    | some standard =>
      obtain rfl := StandardScalar.ofName?_eq_some_iff.mp found
      exact scalars ⟨standard.name⟩

/-- Where scalars are used as the overrides say, so are fields. -/
theorem rules_field {field : Field}
    (scalars : ∀ scalar, context.render (.scalar scalar) =
      overrides.scalarText context.site scalar) :
    (overrides.rules spare).field field context = overrides.fieldText context.site field := by
  change (overrides.field.map SiteRule.rule).getD Default.field field context = _
  unfold fieldText
  cases overrides.field with
  | some rule => rfl
  | none =>
    change Default.field field context = _
    rw [Default.field_eq_map, resolve]
    cases field.type.unwrap? with
    | none => rfl
    | some unwrapped =>
      obtain ⟨name, isNonNull, isList⟩ := unwrapped
      simp only [baseText_eq scalars]
      cases overrides.baseText context.site field name <;> rfl

/-- A record by a rule, or by its fields, each of them with the record as parent. -/
theorem record_eq {rule : Option (SiteRule Record)} {record : Record}
    (parent : context.parent = some record.name)
    (fields : ∀ field, context.render (.field field) = overrides.fieldText context.site field) :
    (rule.map SiteRule.rule).getD Default.record record context =
      overrides.recordText rule context.site record := by
  have inside : context.within record.name = context := by
    rw [Context.within, ← parent]
  have site : context.site.within record.name = context.site := by
    rw [Site.within, ← parent]
    rfl
  unfold recordText
  cases rule with
  | some rule =>
    rw [site]
    rfl
  | none =>
    change Default.record record context = _
    simp only [Default.record_eq_map, Context.members, inside, site, fields]

end Rules

/-! ### The chain of rules -/

section Chain

variable {overrides} {moduleName : String} {schema : Schema} {spare depth : Nat}
  {parent : Option String}

/-- One link is enough for a scalar, and two for a field. -/
theorem answer_scalar (scalar : Scalar) :
    (overrides.rules spare).answer moduleName schema (depth + 1) parent (.scalar scalar) =
      overrides.scalarText ⟨moduleName, schema, parent⟩ scalar :=
  rules_scalar scalar

theorem answer_field (field : Field) :
    (overrides.rules spare).answer moduleName schema (depth + 2) parent (.field field) =
      overrides.fieldText ⟨moduleName, schema, parent⟩ field :=
  rules_field answer_scalar

/-- Three links are enough for a definition. -/
theorem declare_eq (definition : Definition) :
    Generator.declare ((overrides.rules spare).context moduleName schema) definition =
      overrides.definitionText ⟨moduleName, schema, none⟩ definition := by
  cases definition with
  | scalar s => exact rules_scalarDef s
  | enumeration e => exact rules_enumeration e
  | object r => exact record_eq rfl answer_field
  | interface r => exact record_eq rfl answer_field

end Chain

end SiteOverrides

/-! ### Keys that have a part in a definition -/

inductive RuleKey where
  | scalar
  | scalarDef
  | enumeration
  | field
  | interface
  | object
deriving DecidableEq, Repr

namespace Schema

/-- The default rule for fields asks what a scalar is used as. -/
def UsesScalar (schema : Schema) (field : Field) : Prop :=
  field.type.IsExpressible ∧
    (schema.standing field.type.baseName = .scalar ∨
      schema.standing field.type.baseName = .undefined ∧
        ∃ standard : StandardScalar, standard.name = field.type.baseName)

/-- One of the fields asks for a scalar, and none before it fails. -/
def AsksForScalar (schema : Schema) (fields : List Field) : Prop :=
  ∃ before field after, fields = before ++ field :: after ∧
    (∀ earlier ∈ before, schema.Supports earlier) ∧ schema.UsesScalar field

/-- A name that leads nowhere is undefined, and not the name of a standard scalar. -/
theorem standing_of_not_knows {schema : Schema} {name : String} (unknown : ¬ schema.Knows name) :
    schema.standing name = .undefined ∧ StandardScalar.ofName? name = none := by
  constructor
  · have missing := NamedList.find?_eq_none_iff.mpr fun mem => unknown (.inl mem)
    rw [standing, missing]
  · refine Option.eq_none_iff_forall_ne_some.mpr fun standard found => ?_
    exact unknown (.inr ⟨standard, StandardScalar.ofName?_eq_some_iff.mp found⟩)

theorem not_mem_names_of_standing {schema : Schema} {name : String}
    (undefined : schema.standing name = .undefined) : name ∉ schema.names := by
  refine NamedList.find?_eq_none_iff.mp ?_
  unfold standing at undefined
  cases found : schema.find? name with
  | none => rfl
  | some definition =>
    rw [found] at undefined
    cases definition <;> cases undefined

end Schema

namespace SiteOverrides

/-- Both set the same rule under a key, or none. -/
def AgreeOn (first second : SiteOverrides) : RuleKey → Prop
  | .scalar => first.scalar = second.scalar
  | .scalarDef => first.scalarDef = second.scalarDef
  | .enumeration => first.enumeration = second.enumeration
  | .field => first.field = second.field
  | .interface => first.interface = second.interface
  | .object => first.object = second.object

section Reach

variable (overrides : SiteOverrides)

/-- The definition is a record, and no rule of its kind is set. -/
def RendersFields (definition : Definition) : Prop :=
  definition.kind = .object ∧ overrides.object = none ∨
    definition.kind = .interface ∧ overrides.interface = none

/-- Rendering a definition reaches the rule of a key: the rule of its own kind always, the
rule for fields where the record is left to its fields, and the rule for scalars where
these are left to their types. -/
def Reaches (schema : Schema) (definition : Definition) : RuleKey → Prop
  | .scalarDef => definition.kind = .scalar
  | .enumeration => definition.kind = .enumeration
  | .object => definition.kind = .object
  | .interface => definition.kind = .interface
  | .field => overrides.RendersFields definition ∧ definition.fields ≠ []
  | .scalar => overrides.RendersFields definition ∧ overrides.field = none ∧
      schema.AsksForScalar definition.fields

/-- The overrides with a rule under a key that always fails. -/
def failing (error : GenerateError) : RuleKey → SiteOverrides
  | .scalar => { overrides with scalar := some fun _ _ => .error error }
  | .scalarDef => { overrides with scalarDef := some fun _ _ => .error error }
  | .enumeration => { overrides with enumeration := some fun _ _ => .error error }
  | .field => { overrides with field := some fun _ _ => .error error }
  | .interface => { overrides with interface := some fun _ _ => .error error }
  | .object => { overrides with object := some fun _ _ => .error error }

end Reach

/-! ### Keys that are not reached -/

section Unreached

variable {first second : SiteOverrides} {site : Site}

/-- A field depends on the rule for fields and, if it asks for a scalar, on what that is
used as. -/
theorem fieldText_congr {field : Field} (rule : first.field = second.field)
    (scalars : first.field = none → site.schema.UsesScalar field →
      first.scalarText site ⟨field.type.baseName⟩ =
        second.scalarText site ⟨field.type.baseName⟩) :
    first.fieldText site field = second.fieldText site field := by
  unfold fieldText
  rw [← rule]
  cases unset : first.field with
  | some _ => rfl
  | none =>
    cases shape : field.type.unwrap? with
    | none => rfl
    | some unwrapped =>
      obtain ⟨form, rfl⟩ := TypeRef.unwrap?_eq_some_iff.mp shape
      have base : first.baseText site field field.type.baseName =
          second.baseText site field field.type.baseName := by
        unfold baseText
        cases standing : site.schema.standing field.type.baseName with
        | scalar => exact scalars unset ⟨form, .inl standing⟩
        | other => rfl
        | undefined =>
          cases found : StandardScalar.ofName? field.type.baseName with
          | none => rfl
          | some standard =>
            exact scalars unset
              ⟨form, .inr ⟨standing, standard, StandardScalar.ofName?_eq_some_iff.mp found⟩⟩
      simp only [base]

/-- A record that is left to its fields is rendered alike where they are. -/
theorem recordText_congr {rule : Option (SiteRule Record)} {record : Record}
    (fields : rule = none →
      record.fields.toList.mapM (first.fieldText (site.within record.name)) =
        record.fields.toList.mapM (second.fieldText (site.within record.name))) :
    first.recordText rule site record = second.recordText rule site record := by
  unfold recordText
  cases rule with
  | some rule => rfl
  | none => simp only [fields rfl]

/-- Where the rule for fields is not set, a field at fault fails with its fault. -/
theorem fieldText_of_fault {field : Field} {error : GenerateError} (unset : first.field = none)
    (fault : FieldFault site.schema site.parentName field error) :
    first.fieldText site field = .error error := by
  unfold fieldText
  rw [unset]
  cases fault with
  | shape other => rw [TypeRef.unwrap?_eq_none_iff.mpr other]
  | unknown form unknown =>
    obtain ⟨standing, plain⟩ := Schema.standing_of_not_knows unknown
    simp only [TypeRef.unwrap?_of_isExpressible form, baseText, standing, plain]
    rfl

/-- A field that the default rule renders is of a known type of an expressible form. -/
theorem supports_of_not_fails {field : Field} (unset : first.field = none)
    (sound : ¬ Fails (first.fieldText site) field) : site.schema.Supports field := by
  refine Classical.not_not.mp fun unsupported => sound ?_
  obtain ⟨error, fault⟩ := exists_fieldFault_iff.mpr unsupported
  exact ⟨error, fieldText_of_fault unset fault⟩

section OneKey

variable {key : RuleKey} (differ : ∀ other, other ≠ key → first.AgreeOn second other)
include differ

/-- Overrides that differ under one key render fields alike if there are none, or if it is
not the key for fields and no scalar is asked for that it would be the key of. -/
theorem mapM_fieldText_congr {fields : List Field} (noField : key = .field → fields = [])
    (noScalar : key = .scalar → first.field = none → ¬ site.schema.AsksForScalar fields) :
    fields.mapM (first.fieldText site) = fields.mapM (second.fieldText site) := by
  by_cases isField : key = .field
  · rw [noField isField]
    rfl
  · have rule : first.field = second.field := differ .field fun same => isField same.symm
    -- A field only matters if those before it do not fail, so that it is reached at all.
    refine mapM_congr_of_split fun before field after split sound => ?_
    refine fieldText_congr rule fun unset uses => ?_
    by_cases isScalar : key = .scalar
    · refine absurd ⟨before, field, after, split, fun earlier mem => ?_, uses⟩
        (noScalar isScalar unset)
      exact supports_of_not_fails unset (sound earlier mem)
    · have scalar : first.scalar = second.scalar := differ .scalar fun same => isScalar same.symm
      rw [scalarText, scalarText, scalar]

/-- A key that rendering a definition does not reach makes no difference to it. -/
theorem definitionText_congr_of_not_reaches {definition : Definition}
    (unreached : ¬ first.Reaches site.schema definition key) :
    first.definitionText site definition = second.definitionText site definition := by
  have agree (other : RuleKey) (reached : first.Reaches site.schema definition other) :
      first.AgreeOn second other := differ other fun same => unreached (same ▸ reached)
  have members (renders : first.RendersFields definition) :
      definition.fields.mapM (first.fieldText (site.within definition.name)) =
        definition.fields.mapM (second.fieldText (site.within definition.name)) := by
    refine mapM_fieldText_congr differ (fun isField => ?_) fun isScalar unset asks => ?_
    · subst isField
      exact Classical.not_not.mp fun some => unreached ⟨renders, some⟩
    · subst isScalar
      exact unreached ⟨renders, unset, asks⟩
  cases definition with
  | scalar s =>
    have same : first.scalarDef = second.scalarDef := agree .scalarDef rfl
    rw [definitionText, definitionText, same]
  | enumeration e =>
    have same : first.enumeration = second.enumeration := agree .enumeration rfl
    rw [definitionText, definitionText, same]
  | object r =>
    have same : first.object = second.object := agree .object rfl
    rw [definitionText, definitionText, ← same]
    exact recordText_congr fun unset => members (.inl ⟨rfl, unset⟩)
  | interface r =>
    have same : first.interface = second.interface := agree .interface rfl
    rw [definitionText, definitionText, ← same]
    exact recordText_congr fun unset => members (.inr ⟨rfl, unset⟩)

end OneKey

end Unreached

/-! ### Keys that are reached -/

section Reached

variable {overrides : SiteOverrides} {site : Site} {error : GenerateError}

/-- A record that is left to its fields fails as they do. -/
theorem recordText_eq_error {record : Record}
    (fails : record.fields.toList.mapM (overrides.fieldText (site.within record.name)) =
      .error error) :
    overrides.recordText none site record = .error error :=
  map_eq_error_iff.mpr fails

/-- A record that is left to its fields fails as they do. -/
theorem definitionText_eq_error {definition : Definition}
    (renders : overrides.RendersFields definition)
    (fails : definition.fields.mapM (overrides.fieldText (site.within definition.name)) =
      .error error) :
    overrides.definitionText site definition = .error error := by
  cases definition with
  | scalar s => simp [RendersFields, Definition.kind] at renders
  | enumeration e => simp [RendersFields, Definition.kind] at renders
  | object r =>
    have unset : overrides.object = none := by simpa [RendersFields, Definition.kind] using renders
    rw [definitionText, unset]
    exact recordText_eq_error fails
  | interface r =>
    have unset : overrides.interface = none := by
      simpa [RendersFields, Definition.kind] using renders
    rw [definitionText, unset]
    exact recordText_eq_error fails

/-- Where the rule for scalars always fails, so does a field that asks for a scalar. -/
theorem fieldText_of_usesScalar {field : Field} (unset : overrides.field = none)
    (scalars : ∀ scalar, overrides.scalarText site scalar = .error error)
    (uses : site.schema.UsesScalar field) : overrides.fieldText site field = .error error := by
  obtain ⟨form, leads⟩ := uses
  have base : overrides.baseText site field field.type.baseName = .error error := by
    unfold baseText
    rcases leads with scalar | ⟨undefined, standard, named⟩
    · rw [scalar]
      exact scalars _
    · rw [undefined, StandardScalar.ofName?_eq_some_iff.mpr named]
      exact scalars _
  unfold fieldText
  rw [unset, TypeRef.unwrap?_of_isExpressible form]
  exact map_eq_error_iff.mpr base

/-- A field that can be rendered and asks for no scalar is rendered. -/
theorem fieldText_of_supports {field : Field} (unset : overrides.field = none)
    (supported : site.schema.Supports field) (other : ¬ site.schema.UsesScalar field) :
    ∃ text, overrides.fieldText site field = .ok text := by
  obtain ⟨form, known⟩ := supported
  have leads : site.schema.standing field.type.baseName = .other := by
    cases standing : site.schema.standing field.type.baseName with
    | scalar => exact absurd ⟨form, .inl standing⟩ other
    | other => rfl
    | undefined =>
      rcases known with mem | standard
      · exact absurd mem (Schema.not_mem_names_of_standing standing)
      · exact absurd ⟨form, .inr ⟨standing, standard⟩⟩ other
  unfold fieldText
  rw [unset, TypeRef.unwrap?_of_isExpressible form]
  simp only [baseText, leads]
  exact ⟨_, rfl⟩

/-- A rule that is reached is honoured: if it always fails, so does the definition. -/
theorem definitionText_failing {definition : Definition} {key : RuleKey}
    (reached : overrides.Reaches site.schema definition key) :
    (overrides.failing error key).definitionText site definition = .error error := by
  cases key with
  | scalarDef => cases definition <;> first | rfl | cases reached
  | enumeration => cases definition <;> first | rfl | cases reached
  | object => cases definition <;> first | rfl | cases reached
  | interface => cases definition <;> first | rfl | cases reached
  | field =>
    obtain ⟨renders, some⟩ := reached
    refine definitionText_eq_error renders ?_
    obtain ⟨field, rest, fields⟩ := List.exists_cons_of_ne_nil some
    rw [fields]
    exact mapM_cons_of_error rfl
  | scalar =>
    obtain ⟨renders, unset, before, field, after, fields, supported, uses⟩ := reached
    refine definitionText_eq_error renders ?_
    rw [fields]
    -- Fields in front of this one may ask for scalars too, and then fail with the same error.
    refine mapM_eq_error_of_split (fieldText_of_usesScalar unset (fun _ => rfl) uses) ?_
    intro earlier mem
    by_cases asks : site.schema.UsesScalar earlier
    · exact .inl (fieldText_of_usesScalar unset (fun _ => rfl) asks)
    · exact .inr (fieldText_of_supports unset (supported earlier mem) asks)

end Reached

/-! ### Generating -/

/-- A generator renders a definition to what it comes to under the overrides. -/
theorem renderDefinition_eq (overrides : SiteOverrides) (spare : Nat)
    (moduleName : Option String) (schema : Schema) :
    (Generator.ofOptions ⟨moduleName, overrides.toOverrides spare⟩).renderDefinition schema =
      overrides.definitionText ⟨moduleName.getD Generator.defaultModuleName, schema, none⟩ :=
  funext overrides.declare_eq

/-- A module is what the overrides say of the schema, with any number of links to spare. -/
theorem generateTypes_eq (overrides : SiteOverrides) (spare : Nat)
    (moduleName : Option String) (schema : Schema) :
    generateTypes schema ⟨moduleName, overrides.toOverrides spare⟩ =
      (overrides.moduleText (moduleName.getD Generator.defaultModuleName) schema).map fun content =>
        ⟨moduleName.getD Generator.defaultModuleName, content⟩ := by
  rw [generateTypes, Generator.generate_eq_map, renderDefinition_eq, moduleText]
  cases schema.visible.mapM (overrides.definitionText _) <;> rfl

end SiteOverrides

/-! ### The main result -/

/-- For every schema and all overrides by rules that ask for no other rule, with any number of
links to spare, a module is the texts of its visible definitions in order, or the error of the
first one that fails. A definition is rendered by the rule of its kind, a record that no rule
is set for by its fields, and a field that no rule is set for by its type; the record is the
parent of both.

So a key makes no difference to the definitions that do not reach it: overrides that differ
under this key only render them alike. And a rule that is reached is honoured: if it always
fails, the definition fails with its error. -/
theorem overrides_are_honoured (spare : Nat) :
    (∀ (schema : Schema) (overrides : SiteOverrides) (moduleName : Option String),
      let name := moduleName.getD Generator.defaultModuleName
      generateTypes schema ⟨moduleName, overrides.toOverrides spare⟩ =
        (overrides.moduleText name schema).map fun content => ⟨name, content⟩) ∧
    ∀ (schema : Schema) (moduleName : Option String) (definition : Definition) (key : RuleKey),
      let render (overrides : SiteOverrides) : Answer :=
        (Generator.ofOptions ⟨moduleName, overrides.toOverrides spare⟩).renderDefinition schema
          definition
      (∀ first second : SiteOverrides,
        (∀ other, other ≠ key → first.AgreeOn second other) →
        ¬ first.Reaches schema definition key → render first = render second) ∧
      ∀ (overrides : SiteOverrides) (error : GenerateError),
        overrides.Reaches schema definition key →
        render (overrides.failing error key) = .error error := by
  refine ⟨fun schema overrides moduleName => overrides.generateTypes_eq spare moduleName schema, ?_⟩
  intro schema moduleName definition key render
  constructor
  · intro first second differ unreached
    simp only [render, SiteOverrides.renderDefinition_eq]
    exact SiteOverrides.definitionText_congr_of_not_reaches differ unreached
  · intro overrides error reached
    simp only [render, SiteOverrides.renderDefinition_eq]
    exact SiteOverrides.definitionText_failing reached

def eventObject : Definition :=
  .object ⟨"Event", .ofList [⟨"hue", .named "Hue"⟩, ⟨"at", .nonNull (.named "Date")⟩], []⟩

def eventSchema : Schema :=
  .ofList [eventObject, .enumeration ⟨"Hue", ["RED"]⟩, .scalar ⟨"Date"⟩]

/-- Scalars are used as texts that name the parent. -/
def datedOverrides : SiteOverrides where
  scalar := some fun scalar site => .ok (scalar.name ++ "Of" ++ site.parentName)

/-- The same, and a rule for enumerations that fails. -/
def hueless : SiteOverrides :=
  { datedOverrides with enumeration := some fun _ _ => .error (.rule "no hues") }

/-- A rule for enumerations is not reached by an object, and one for scalars is. -/
theorem event_overrides_are_honoured :
    let render (overrides : SiteOverrides) : Answer :=
      (Generator.ofOptions ⟨none, overrides.toOverrides 0⟩).renderDefinition eventSchema eventObject
    datedOverrides.moduleText "types" eventSchema = .ok (String.join
      ["export interface Event \x7b\r\n  hue?: Hue;\r\n  at: DateOfEvent;\r\n\x7d\r\n",
        "enum Hue \x7b\r\n  RED\r\n\x7d\r\n", "type Date = string\r\n"]) ∧
    generateTypes eventSchema ⟨none, datedOverrides.toOverrides 0⟩ =
      (datedOverrides.moduleText "types" eventSchema).map (⟨"types", ·⟩) ∧
    render datedOverrides = render hueless ∧
    render (datedOverrides.failing (.rule "no dates") .scalar) = .error (.rule "no dates") := by
  obtain ⟨generation, keys⟩ := overrides_are_honoured 0
  refine ⟨by decide +kernel, generation eventSchema datedOverrides none, ?_, ?_⟩
  · refine (keys eventSchema none eventObject .enumeration).1 datedOverrides hueless ?_ ?_
    · intro other differs
      cases other <;> first | rfl | exact absurd rfl differs
    · intro reached
      cases reached
  · refine (keys eventSchema none eventObject .scalar).2 datedOverrides (.rule "no dates") ?_
    refine ⟨.inl ⟨rfl, rfl⟩, rfl, [_], _, [], rfl, ?_, .nonNull (.named "Date"), .inl rfl⟩
    exact List.forall_mem_singleton.mpr ⟨.plain (.named "Hue"), .inl (by decide)⟩

end SchemaTypings
