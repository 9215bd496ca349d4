import SchemaTypings.Proofs.Generation.TableRules

/-!
# Standard scalars need not be defined

A field refers to a standard scalar alike whether the schema defines it or not, and a
standard scalar that is defined is declared by nothing. So a schema may leave any of the
standard scalars out, or have them anywhere among its definitions: `FillsIn` says that one
list of definitions is another one with standard scalars put in, and the two come to the
same module, or to the same error.
-/

namespace SchemaTypings

open Traversal

/-- The second list is the first one with standard scalars put in anywhere. -/
inductive FillsIn : List Definition → List Definition → Prop where
  | nil : FillsIn [] []
  | keep (definition : Definition) {definitions filled : List Definition} :
    FillsIn definitions filled → FillsIn (definition :: definitions) (definition :: filled)
  | fill (standard : StandardScalar) {definitions filled : List Definition} :
    FillsIn definitions filled → FillsIn definitions (.scalar (.ofStandard standard) :: filled)

namespace FillsIn

variable {definitions filled : List Definition} {definition : Definition}

/-- Nothing is lost. -/
theorem mem (fills : FillsIn definitions filled) (listed : definition ∈ definitions) :
    definition ∈ filled := by
  induction fills with
  | nil => exact listed
  | keep other _ ih =>
    rcases List.mem_cons.mp listed with rfl | listed
    · exact List.mem_cons_self
    · exact List.mem_cons_of_mem _ (ih listed)
  | fill standard _ ih => exact List.mem_cons_of_mem _ (ih listed)

/-- What is new is a standard scalar. -/
theorem mem_or_standard (fills : FillsIn definitions filled) (listed : definition ∈ filled) :
    definition ∈ definitions ∨
      ∃ standard : StandardScalar, definition = .scalar (.ofStandard standard) := by
  induction fills with
  | nil => exact .inl listed
  | keep other _ ih =>
    rcases List.mem_cons.mp listed with rfl | listed
    · exact .inl List.mem_cons_self
    · exact (ih listed).imp_left (List.mem_cons_of_mem _)
  | fill standard _ ih =>
    rcases List.mem_cons.mp listed with rfl | listed
    · exact .inr ⟨standard, rfl⟩
    · exact ih listed

theorem map_join_cons (text : String) (rest : Except GenerateError (List String)) :
    (rest.map (text :: ·)).map String.join = (rest.map String.join).map (text ++ ·) := by
  cases rest <;> simp [Except.map]

/-- Standard scalars that are rendered to nothing make no difference to the joined texts,
nor to the first error. -/
theorem mapM_join {render : Definition → Answer} {p : Definition → Bool}
    (silent : ∀ standard : StandardScalar, render (.scalar (.ofStandard standard)) = .ok "")
    (fills : FillsIn definitions filled) :
    ((definitions.filter p).mapM render).map String.join =
      ((filled.filter p).mapM render).map String.join := by
  induction fills with
  | nil => rfl
  | keep other _ ih =>
    by_cases kept : p other = true
    · rw [List.filter_cons_of_pos kept, List.filter_cons_of_pos kept]
      cases rendered : render other with
      | error error => rw [mapM_cons_of_error rendered, mapM_cons_of_error rendered]
      | ok text =>
        rw [mapM_cons_of_ok rendered, mapM_cons_of_ok rendered, map_join_cons, map_join_cons, ih]
    · rw [List.filter_cons_of_neg kept, List.filter_cons_of_neg kept, ih]
  | @fill standard definitions filled _ ih =>
    rw [ih]
    by_cases kept : p (.scalar (.ofStandard standard)) = true
    · rw [List.filter_cons_of_pos kept, mapM_cons_of_ok (silent standard), map_join_cons]
      cases (filled.filter p).mapM render <;> simp [Except.map]
    · rw [List.filter_cons_of_neg kept]

end FillsIn

/-! ### What a name leads to -/

/-- A name leads to the same, or it is the name of a standard scalar that only the second
schema defines. -/
theorem FillsIn.standing {first second : Schema} (fills : FillsIn first.toList second.toList)
    (name : String) :
    first.standing name = second.standing name ∨
      first.standing name = .undefined ∧ second.standing name = .scalar ∧
        ∃ standard : StandardScalar, standard.name = name := by
  cases found : first.find? name with
  | some definition =>
    obtain ⟨listed, named⟩ := NamedList.find?_eq_some_iff.mp found
    have again : second.find? name = some definition :=
      NamedList.find?_eq_some_iff.mpr ⟨fills.mem listed, named⟩
    exact .inl (Schema.standing_congr (found.trans again.symm))
  | none =>
    cases found' : second.find? name with
    | none => exact .inl (Schema.standing_congr (found.trans found'.symm))
    | some definition =>
      obtain ⟨listed, named⟩ := NamedList.find?_eq_some_iff.mp found'
      rcases fills.mem_or_standard listed with listed | ⟨standard, rfl⟩
      · have again := NamedList.find?_eq_some_iff.mpr ⟨listed, named⟩
        rw [found] at again
        cases again
      · exact .inr ⟨by rw [Schema.standing, found], by rw [Schema.standing, found'],
          standard, named⟩

/-! ### Rules that look at the use of a scalar -/

namespace SiteOverrides

/-- Only rules for scalars are set. What a scalar is used as depends on the scalar, the
parent and the name of the module, but not on the schema; what it is declared as depends on
the scalar only, and a standard one is declared by nothing. -/
structure LooksAtUses (overrides : SiteOverrides) : Prop where
  scalar (moduleName : String) (parent : Option String) (scalar : Scalar) (first second : Schema) :
    overrides.scalarText ⟨moduleName, first, parent⟩ scalar =
      overrides.scalarText ⟨moduleName, second, parent⟩ scalar
  scalarDef (scalar : Scalar) (first second : Site) :
    overrides.definitionText first (.scalar scalar) =
      overrides.definitionText second (.scalar scalar)
  standard (standard : StandardScalar) (site : Site) :
    overrides.definitionText site (.scalar (.ofStandard standard)) = .ok ""
  enumeration : overrides.enumeration = none
  field : overrides.field = none
  interface : overrides.interface = none
  object : overrides.object = none

namespace LooksAtUses

variable {overrides : SiteOverrides} (looks : overrides.LooksAtUses) {first second : Schema}
  (fills : FillsIn first.toList second.toList) {moduleName : String} {parent : Option String}
include looks fills

/-- A base name comes to the same whether or not standard scalars are filled in. -/
theorem baseText_eq (field : Field) (name : String) :
    overrides.baseText ⟨moduleName, first, parent⟩ field name =
      overrides.baseText ⟨moduleName, second, parent⟩ field name := by
  have scalar := looks.scalar moduleName parent ⟨name⟩ first second
  unfold baseText
  rcases fills.standing name with same | ⟨undefined, defined, standard, named⟩
  · simp only [same, scalar]
    rfl
  · simp only [undefined, defined, StandardScalar.ofName?_eq_some_iff.mpr named, scalar]

/-- So does a field. -/
theorem fieldText_eq (field : Field) :
    overrides.fieldText ⟨moduleName, first, parent⟩ field =
      overrides.fieldText ⟨moduleName, second, parent⟩ field := by
  unfold fieldText
  simp only [looks.field, looks.baseText_eq fills]
  cases field.type.unwrap? <;> rfl

/-- Every definition comes to the same in both schemas. -/
theorem definitionText_eq (definition : Definition) :
    overrides.definitionText ⟨moduleName, first, parent⟩ definition =
      overrides.definitionText ⟨moduleName, second, parent⟩ definition := by
  have record (r : Record) :
      overrides.recordText none ⟨moduleName, first, parent⟩ r =
        overrides.recordText none ⟨moduleName, second, parent⟩ r := by
    have fields : r.fields.toList.mapM
          (overrides.fieldText ⟨moduleName, first, some r.name⟩) =
        r.fields.toList.mapM (overrides.fieldText ⟨moduleName, second, some r.name⟩) :=
      mapM_congr fun field _ => looks.fieldText_eq fills field
    simp only [recordText, Site.within, fields]
  cases definition with
  | scalar s => exact looks.scalarDef s _ _
  | enumeration e => simp only [definitionText, looks.enumeration]
  | object r =>
    simp only [definitionText, looks.object]
    exact record r
  | interface r =>
    simp only [definitionText, looks.interface]
    exact record r

/-- So does a module. -/
theorem moduleText_eq : overrides.moduleText moduleName first =
    overrides.moduleText moduleName second := by
  rw [moduleText, moduleText, funext (looks.definitionText_eq fills)]
  exact fills.mapM_join fun standard => looks.standard standard _

end LooksAtUses

/-- The rules of a table look at the scalar only. -/
theorem looksAtUses_table (table : ScalarTable) : table.siteOverrides.LooksAtUses where
  scalar _ _ _ _ _ := rfl
  scalarDef _ _ _ := rfl
  standard standard _ := by cases standard <;> rfl
  enumeration := rfl
  field := rfl
  interface := rfl
  object := rfl

/-- The default rules, with a rule for uses of scalars. -/
def forUses (rule : Scalar → Option String → String → Answer) : SiteOverrides where
  scalar := some fun scalar site => rule scalar site.parent site.moduleName

theorem looksAtUses_forUses (rule : Scalar → Option String → String → Answer) :
    (forUses rule).LooksAtUses where
  scalar _ _ _ _ _ := rfl
  scalarDef _ _ _ := rfl
  standard standard _ := by cases standard <;> rfl
  enumeration := rfl
  field := rfl
  interface := rfl
  object := rfl

end SiteOverrides

/-- The overrides set no rule, those of a table, or a rule for uses of scalars that may fail
and looks at the scalar, the parent and the name of the module. -/
inductive Overrides.LookAtUses : Overrides → Prop where
  | default (spare : Nat) : LookAtUses { spare }
  | table (table : ScalarTable) (spare : Nat) : LookAtUses (table.overrides.sparing spare)
  | scalar (rule : Scalar → Option String → String → Answer) (spare : Nat) :
    LookAtUses
      { scalar := some fun scalar context => rule scalar context.parent context.moduleName
        spare }

/-- Such overrides come to the same as overrides by rules that ask for no other rule. -/
theorem Overrides.LookAtUses.exists_siteOverrides {overrides : Overrides}
    (look : overrides.LookAtUses) : ∃ site : SiteOverrides, site.LooksAtUses ∧
      ∀ (schema : Schema) (moduleName : Option String),
        generateTypes schema ⟨moduleName, overrides⟩ =
          generateTypes schema ⟨moduleName, site.toOverrides overrides.spare⟩ := by
  cases look with
  | default spare =>
    refine ⟨ScalarTable.siteOverrides [], SiteOverrides.looksAtUses_table [], ?_⟩
    exact fun schema moduleName => ScalarTable.generateTypes_eq [] spare moduleName schema
  | table table spare =>
    refine ⟨table.siteOverrides, SiteOverrides.looksAtUses_table table, ?_⟩
    exact fun schema moduleName => table.generateTypes_eq spare moduleName schema
  | scalar rule spare =>
    exact ⟨SiteOverrides.forUses rule, SiteOverrides.looksAtUses_forUses rule, fun _ _ => rfl⟩

/-! ### The main result -/

/-- A schema generates the same as the schema with any of the standard scalars that it does
not define put in anywhere: the same module, or the same error. This holds for the default
rules, for every table of types for scalars, and for every rule for uses of scalars that looks
at the scalar, the parent and the name of the module, whether or not it fails. -/
theorem generate_filledIn (first second : Schema) (moduleName : Option String)
    (overrides : Overrides) (fills : FillsIn first.toList second.toList)
    (look : overrides.LookAtUses) :
    generateTypes first ⟨moduleName, overrides⟩ = generateTypes second ⟨moduleName, overrides⟩ := by
  obtain ⟨site, looks, same⟩ := look.exists_siteOverrides
  rw [same, same, SiteOverrides.generateTypes_eq, SiteOverrides.generateTypes_eq,
    looks.moduleText_eq fills]

def noteObject : Definition :=
  .object ⟨"Note", .ofList [⟨"id", .nonNull (.named "ID")⟩, ⟨"sizes", .list (.named "Int")⟩], []⟩

def noteSchema : Schema := .ofList [noteObject, .scalar ⟨"Date"⟩]

/-- The same schema with both, and with a standard scalar that it does not use. -/
def filledNotes : Schema :=
  .ofList [.scalar ⟨"Boolean"⟩, noteObject, .scalar ⟨"Int"⟩, .scalar ⟨"Date"⟩, .scalar ⟨"ID"⟩]

def withoutIntegers (scalar : Scalar) (parent : Option String) (moduleName : String) : Answer :=
  if scalar.name = "Int" then .error (.rule ("no integers in " ++ parent.getD moduleName))
  else .ok (moduleName ++ "." ++ scalar.name)

/-- Two scalars that are filled in make no difference, even where one of them fails. -/
theorem notes_filledIn :
    let failing : Overrides :=
      { scalar := some fun scalar context =>
          withoutIntegers scalar context.parent context.moduleName }
    generateTypes noteSchema ⟨none, {}⟩ = generateTypes filledNotes ⟨none, {}⟩ ∧
    generateTypes filledNotes ⟨none, {}⟩ = .ok ⟨"types",
      "export interface Note \x7b\r\n  id: string;\r\n  sizes?: number[];\r\n\x7d\r\n"
        ++ "type Date = string\r\n"⟩ ∧
    generateTypes noteSchema ⟨none, failing⟩ = generateTypes filledNotes ⟨none, failing⟩ ∧
    generateTypes filledNotes ⟨none, failing⟩ = .error (.rule "no integers in Note") := by
  have fills : FillsIn noteSchema.toList filledNotes.toList :=
    .fill .boolean (.keep _ (.fill .int (.keep _ (.fill .id .nil))))
  refine ⟨generate_filledIn _ _ none _ fills (.default _), by decide +kernel, ?_, by decide +kernel⟩
  exact generate_filledIn _ _ none _ fills (.scalar withoutIntegers _)

end SchemaTypings
