import SchemaTypings.Proofs.Generation.Overriding

/-!
# Rules of a table of types for scalars

The rules of a table ask for no other rules. Under them, a field whose type leads somewhere
comes to a line with one place for the text of its base, which is the only one that depends
on the table.
-/

namespace SchemaTypings

open Traversal

/-! ### Scalars under a table -/

namespace ScalarTable

variable (table : ScalarTable) (spare : Nat)

/-- What a scalar is used as: its type in the table, or else its primitive type if it is
standard, and its name if it is not. -/
def reference (scalar : Scalar) : String :=
  (table.lookup scalar.name).getD scalar.reference

/-- What a scalar that is not standard is declared as: its type in the table, or `string`. -/
def target (scalar : Scalar) : String :=
  (table.lookup scalar.name).getD "string"

/-- The rules of a table, which ask for no other rules. -/
def siteOverrides : SiteOverrides where
  scalar := some fun scalar _ => .ok (table.reference scalar)
  scalarDef := some fun scalar _ =>
    .ok (if scalar.isStandard then "" else
      (Declaration.typeAlias scalar.name (table.target scalar)).render)

/-! An empty table sets no rules at all; this makes no difference to what the rules are. -/

/-- Under a table, a scalar is used as its reference. -/
theorem overriding_scalar (scalar : Scalar) (context : Context) :
    (Rules.overriding (table.overrides.sparing spare)).scalar scalar context =
      .ok (table.reference scalar) := by
  rw [overrides, reference]
  split
  · obtain rfl : table = [] := by simpa using ‹table.isEmpty = true›
    exact Default.scalar_eq scalar context
  · simp only [Rules.overriding, Overrides.sparing, Option.getD_some]
    cases table.lookup scalar.name with
    | some type => rfl
    | none => exact Default.scalar_eq scalar context

/-- Under a table, a scalar that is not standard is an alias of its target. -/
theorem overriding_scalarDef (scalar : Scalar) (context : Context) :
    (Rules.overriding (table.overrides.sparing spare)).scalarDef scalar context =
      .ok (if scalar.isStandard then "" else
        (Declaration.typeAlias scalar.name (table.target scalar)).render) := by
  rw [overrides, target]
  split
  · obtain rfl : table = [] := by simpa using ‹table.isEmpty = true›
    exact Default.scalarDef_eq scalar context
  · simp only [Rules.overriding, Overrides.sparing, Option.getD_some]
    cases table.lookup scalar.name with
    | some type => cases standard : scalar.isStandard <;> simp [Default.scalarDef_eq, standard]
    | none => exact Default.scalarDef_eq scalar context

/-- The rules of a table are those that `siteOverrides` sets. -/
theorem overriding_siteOverrides :
    Rules.overriding (table.siteOverrides.toOverrides spare) =
      Rules.overriding (table.overrides.sparing spare) := by
  have scalar := table.overriding_scalar spare
  have scalarDef := table.overriding_scalarDef spare
  obtain ⟨-, -, enumeration, field, interface, object⟩ := table.onlyScalars spare
  have links : (Rules.overriding (table.overrides.sparing spare)).spare = spare := rfl
  generalize Rules.overriding (table.overrides.sparing spare) = rules at *
  obtain ⟨ruleScalar, ruleScalarDef, _, _, _, _, _⟩ := rules
  obtain rfl : ruleScalar = fun s _ => .ok (table.reference s) :=
    funext fun s => funext (scalar s)
  obtain rfl : ruleScalarDef = fun s _ => .ok (if s.isStandard then "" else
      (Declaration.typeAlias s.name (table.target s)).render) :=
    funext fun s => funext (scalarDef s)
  cases enumeration
  cases field
  cases interface
  cases object
  cases links
  rfl

/-- A table generates what the rules of its kind generate that ask for no other rule. -/
theorem generateTypes_eq (moduleName : Option String) (schema : Schema) :
    generateTypes schema ⟨moduleName, table.overrides.sparing spare⟩ =
      generateTypes schema ⟨moduleName, table.siteOverrides.toOverrides spare⟩ := by
  rw [generateTypes, generateTypes, Generator.ofOptions, Generator.ofOptions,
    overriding_siteOverrides]

end ScalarTable

/-! ### Fields and records -/

/-- The text for a base name under a table, in which only scalars are looked up. -/
def ScalarTable.base (table : ScalarTable) (schema : Schema) (name : String) : String :=
  match schema.standing name with
  | .other => name
  | _ => table.reference ⟨name⟩

def ScalarTable.line (table : ScalarTable) (schema : Schema) (field : Field) : String :=
  let base := table.base schema field.type.baseName
  Member.line ⟨field.name, if field.type.hasList then arrayOf base else base,
    !field.type.isNonNull, false⟩

section Lines

variable {table : ScalarTable} {site : Site}

/-- A name that leads somewhere comes to its base under the table. -/
theorem baseText_eq_base {field : Field} {name : String} (known : site.schema.Knows name) :
    table.siteOverrides.baseText site field name = .ok (table.base site.schema name) := by
  unfold SiteOverrides.baseText ScalarTable.base
  cases standing : site.schema.standing name with
  | scalar => rfl
  | other => rfl
  | undefined =>
    rcases known with mem | ⟨standard, named⟩
    · exact absurd mem (Schema.not_mem_names_of_standing standing)
    · rw [StandardScalar.ofName?_eq_some_iff.mpr named]
      rfl

/-- A field that is rendered has a type that leads somewhere, and comes to its line. -/
theorem fieldText_eq_ok {field : Field} {text : String}
    (found : table.siteOverrides.fieldText site field = .ok text) :
    site.schema.Knows field.type.baseName ∧ table.line site.schema field = text := by
  obtain ⟨form, known⟩ : site.schema.Supports field :=
    SiteOverrides.supports_of_not_fails rfl (not_fails_iff.mpr ⟨text, found⟩)
  refine ⟨known, ?_⟩
  have base : table.siteOverrides.baseText site field field.type.baseName =
      .ok (table.base site.schema field.type.baseName) := baseText_eq_base known
  unfold SiteOverrides.fieldText at found
  simp only [ScalarTable.siteOverrides, TypeRef.unwrap?_of_isExpressible form] at found base
  rw [base] at found
  cases found
  rfl

/-- A field always comes to something. -/
theorem line_isEmpty (schema : Schema) (field : Field) :
    (table.line schema field).isEmpty = false := by
  rw [String.isEmpty_eq_false_iff]
  intro empty
  have chars := congrArg String.toList empty
  simp [ScalarTable.line, Member.line] at chars

/-- A record is rendered to the lines of its fields, none of which is left out. -/
theorem recordText_eq_ok {record : Record} {text : String}
    (found : table.siteOverrides.recordText none site record = .ok text) :
    (∀ field ∈ record.fields.toList, site.schema.Knows field.type.baseName) ∧
      (Declaration.interface record.name record.interfaces
        (record.fields.toList.map (table.line site.schema)) true).render = text := by
  obtain ⟨members, rendered, rfl⟩ := map_eq_ok_iff.mp found
  have fields : List.Forall₂ (fun field member => site.schema.Knows field.type.baseName ∧
      table.line site.schema field = member) record.fields.toList members :=
    (mapM_eq_ok_iff.mp rendered).imp fun _ _ found => fieldText_eq_ok found
  obtain ⟨known, lines⟩ := (List.forall₂_and_left _ _).mp fields
  rw [← List.forall₂_map_left_iff, List.forall₂_eq_eq_eq] at lines
  subst lines
  refine ⟨known, ?_⟩
  rw [List.filter_eq_self.mpr]
  exact List.forall_mem_map.mpr fun field _ => by simp [line_isEmpty]

end Lines

end SchemaTypings
