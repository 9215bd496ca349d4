import SchemaTypings.Proofs.Generation.OutlineText
import SchemaTypings.Proofs.Generation.TableRules
import SchemaTypings.Proofs.Loading.Names

/-!
# Decoding a generated module

Under the default rules a module is the declarations of the outlines of its schema, in
order. Where all names are GraphQL names, the text of the module tells the outlines: two
schemas have the same module exactly if they have the same outlines.
-/

namespace SchemaTypings

open Traversal

/-! ### Declarations -/

section Declarations

variable {schema : Schema}

/-- Under the empty table, base names are written as their outlines. -/
theorem base_nil (schema : Schema) (name : String) :
    ScalarTable.base [] schema name = schema.baseOutline name := by
  unfold ScalarTable.base Schema.baseOutline Schema.standing
  cases schema.find? name with
  | none => rfl
  | some definition => cases definition <;> rfl

/-- Under no table, the line of a field is that of its outline. -/
theorem line_nil (schema : Schema) :
    ScalarTable.line [] schema = FieldOutline.line ∘ Field.outline schema := by
  funext field
  rw [ScalarTable.line, base_nil]
  rfl

def Definition.declared (schema : Schema) (definition : Definition) : String :=
  match definition.outline? schema with
  | none => ""
  | some outline => outline.declaration.render

/-- The default rules render a definition to the declaration of its outline, if it has one. -/
theorem definitionText_nil_eq_ok {site : Site} {definition : Definition} {text : String}
    (found : (ScalarTable.siteOverrides []).definitionText site definition = .ok text) :
    (∀ field ∈ definition.fields, site.schema.Knows field.type.baseName) ∧
      definition.declared site.schema = text := by
  have record {r : Record}
      (found : (ScalarTable.siteOverrides []).recordText none site r = .ok text) :
      (∀ field ∈ r.fields.toList, site.schema.Knows field.type.baseName) ∧
        (r.outline site.schema).declaration.render = text := by
    obtain ⟨known, rfl⟩ := recordText_eq_ok found
    exact ⟨known, by simp [Record.outline, Outline.declaration, line_nil]⟩
  cases definition with
  | scalar s =>
    cases found
    refine ⟨List.forall_mem_nil _, ?_⟩
    unfold Definition.declared Definition.outline?
    by_cases standard : s.isStandard
    · simp [standard]
    · simp only [standard, Bool.false_eq_true, if_false]
      rfl
  | enumeration e =>
    cases found
    exact ⟨List.forall_mem_nil _, rfl⟩
  | object r => exact record found
  | interface r => exact record found

/-- Definitions without a declaration add nothing to a module. -/
theorem join_declared (definitions : List Definition) :
    String.join (definitions.map (Definition.declared schema)) =
      String.join ((definitions.filterMap (Definition.outline? schema)).map fun outline =>
        outline.declaration.render) := by
  induction definitions with
  | nil => rfl
  | cons definition rest ih =>
    cases outline : definition.outline? schema with
    | none => simp [Definition.declared, outline, ih]
    | some _ => simp [Definition.declared, outline, ih]

/-- Under the default rules, a module is the declarations of the outlines of its schema. -/
theorem generate_default_eq_ok {generated : Generated} {name : Option String} {spare : Nat}
    (found : generateTypes schema ⟨name, { spare }⟩ = .ok generated) :
    (∀ definition ∈ schema.visible, ∀ field ∈ definition.fields,
      schema.Knows field.type.baseName) ∧
      generated.content =
        String.join (schema.outlines.map fun outline => outline.declaration.render) := by
  change generateTypes schema ⟨name, (ScalarTable.overrides []).sparing spare⟩ = _ at found
  rw [ScalarTable.generateTypes_eq, generateTypes] at found
  obtain ⟨texts, rendered, rfl⟩ := Generator.generate_eq_ok_iff.mp found
  rw [SiteOverrides.renderDefinition_eq] at rendered
  have declared : List.Forall₂ (fun definition text =>
      (∀ field ∈ definition.fields, schema.Knows field.type.baseName) ∧
        definition.declared schema = text) schema.visible texts :=
    rendered.imp fun _ _ found => definitionText_nil_eq_ok found
  obtain ⟨known, texts_eq⟩ := (List.forall₂_and_left _ _).mp declared
  rw [← List.forall₂_map_left_iff, List.forall₂_eq_eq_eq] at texts_eq
  subst texts_eq
  exact ⟨known, join_declared schema.visible⟩

end Declarations

/-! ### Names in outlines -/

/-- Primitive types are written as names. -/
theorem isName_primitive (standard : StandardScalar) : IsName standard.primitive := by
  cases standard <;> decide

section Names

variable {schema : Schema} (named : schema.HasNames)
include named

/-- A name that the schema knows is a GraphQL name. -/
theorem Schema.HasNames.isName_of_knows {name : String} (known : schema.Knows name) :
    IsName name := by
  rcases known with mem | ⟨standard, rfl⟩
  · obtain ⟨definition, listed, rfl⟩ := List.mem_map.mp mem
    exact named definition listed _ definition.name_mem_ownNames
  · exact standard.isName_name

theorem Schema.HasNames.isName_baseOutline {name : String} (known : schema.Knows name) :
    IsName (schema.baseOutline name) := by
  have isName := named.isName_of_knows known
  have primitive :
      IsName (((StandardScalar.ofName? name).map StandardScalar.primitive).getD name) := by
    cases StandardScalar.ofName? name with
    | none => exact isName
    | some standard => exact isName_primitive standard
  unfold baseOutline
  split
  · exact primitive
  · exact primitive
  · exact isName

/-- Where every field leads somewhere, names make up the outlines. -/
theorem Schema.HasNames.isNamed_outlines
    (known : ∀ definition ∈ schema.visible, ∀ field ∈ definition.fields,
      schema.Knows field.type.baseName) :
    ∀ outline ∈ schema.outlines, outline.IsNamed := by
  have record (r : Record) (names : ∀ name ∈ r.ownNames, IsName name)
      (fields : ∀ field ∈ r.fields.toList, schema.Knows field.type.baseName) :
      (r.outline schema).IsNamed := by
    refine ⟨names _ List.mem_cons_self, fun _ mem => names _ (r.interface_mem_ownNames mem), ?_⟩
    intro outline mem
    obtain ⟨field, listed, rfl⟩ := List.mem_map.mp mem
    exact ⟨names _ (r.name_mem_ownNames listed), named.isName_baseOutline (fields field listed)⟩
  intro outline mem
  obtain ⟨definition, visible, found⟩ := List.mem_filterMap.mp mem
  have names := named definition (List.mem_filter.mp visible).1
  have fields := known definition visible
  cases definition with
  | scalar s =>
    by_cases standard : s.isStandard
    · simp [Definition.outline?, standard] at found
    · obtain rfl : Outline.typeAlias s.name = outline := by
        simpa [Definition.outline?, standard] using found
      exact names _ List.mem_cons_self
  | enumeration e =>
    cases found
    exact ⟨names _ List.mem_cons_self, fun _ mem => names _ (List.mem_cons_of_mem _ mem)⟩
  | object r =>
    cases found
    exact record r names fields
  | interface r =>
    cases found
    exact record r names fields

end Names

/-! ### The main result -/

/-- The names of a schema that is loaded from a text are GraphQL names. And two schemas
whose names are GraphQL names have the same module under the default rules exactly if they
have the same outlines in the same order. -/
theorem content_eq_iff_outlines_eq :
    (∀ source schema, Sdl.load source = .ok schema → schema.HasNames) ∧
    ∀ {first second : Schema} {generated generated' : Generated}
      {moduleName moduleName' : Option String} {spare spare' : Nat},
      first.HasNames → second.HasNames →
      generateTypes first ⟨moduleName, { spare }⟩ = .ok generated →
      generateTypes second ⟨moduleName', { spare := spare' }⟩ = .ok generated' →
      (generated.content = generated'.content ↔ first.outlines = second.outlines) := by
  refine ⟨fun _ _ => Sdl.hasNames_of_load, ?_⟩
  intro first second generated generated' moduleName moduleName' spare spare' named named'
    succeeds succeeds'
  obtain ⟨known, content⟩ := generate_default_eq_ok succeeds
  obtain ⟨known', content'⟩ := generate_default_eq_ok succeeds'
  rw [content, content']
  constructor
  · exact Outline.texts_inj (named.isNamed_outlines known) (named'.isNamed_outlines known')
  · intro same
    rw [same]

def pairObject : Schema :=
  .ofList [.scalar ⟨"Date"⟩, .enumeration ⟨"Hue", ["RED", "BLUE"]⟩,
    .object ⟨"Pair", .ofList [⟨"a", .nonNull (.list (.named "Int"))⟩, ⟨"b", .named "Date"⟩],
      ["Node", "Item"]⟩]

/-- A schema with an interface type instead, and with types that are not declared. -/
def pairInterface : Schema :=
  .ofList [.scalar ⟨"Float"⟩, .scalar ⟨"Date"⟩, .enumeration ⟨"__Kind", []⟩,
    .enumeration ⟨"Hue", ["RED", "BLUE"]⟩,
    .interface ⟨"Pair", .ofList [⟨"a", .nonNull (.list (.nonNull (.named "Float")))⟩,
      ⟨"b", .named "Date"⟩], ["Node", "Item"]⟩]

/-- An object and an interface that say the same have the same module. -/
theorem content_eq_pair :
    ∃ generated generated', generateTypes pairObject {} = .ok generated ∧
      generateTypes pairInterface {} = .ok generated' ∧
      generated.content = generated'.content := by
  obtain ⟨generated, succeeds⟩ : ∃ g, generateTypes pairObject {} = .ok g := ⟨_, rfl⟩
  obtain ⟨generated', succeeds'⟩ : ∃ g, generateTypes pairInterface {} = .ok g := ⟨_, rfl⟩
  refine ⟨generated, generated', succeeds, succeeds', ?_⟩
  exact (content_eq_iff_outlines_eq.2 (by decide) (by decide) succeeds succeeds').mpr (by decide)

end SchemaTypings
