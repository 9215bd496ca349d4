import SchemaTypings.Proofs.Generation.Locality
import SchemaTypings.Proofs.Loading.Definitions

/-!
# Values of enumerations

Declarations are turned into definitions without a look at the values of enumerations:
whatever is done to the values, the same is done to those of the schema, and nothing is
refused for it. In particular a value that is declared twice stands in the schema twice, so
the values of an enumeration are distinct exactly if they were declared so.
-/

namespace SchemaTypings

open Traversal

/-! ### Changing values -/

namespace Sdl

def Body.mapValues (change : List String → List String) : Body → Body
  | .enumeration values => .enumeration (change values)
  | body => body

def TypeDecl.mapValues (change : List String → List String) (declaration : TypeDecl) : TypeDecl :=
  { declaration with body := declaration.body.mapValues change }

end Sdl

def Definition.mapValues (change : List String → List String) : Definition → Definition
  | .enumeration e => .enumeration { e with values := change e.values }
  | definition => definition

/-- Other values leave the name of a definition. -/
@[simp]
theorem Definition.name_mapValues (change : List String → List String) (definition : Definition) :
    (definition.mapValues change).name = definition.name := by
  cases definition <;> rfl

/-- The schema with the values of all enumerations changed. -/
def Schema.mapValues (change : List String → List String) (schema : Schema) : Schema where
  toList := schema.toList.map (Definition.mapValues change)
  distinct := by
    have names : Named.name ∘ Definition.mapValues change = Named.name :=
      funext (Definition.name_mapValues change)
    rw [List.map_map, names]
    exact schema.distinct

@[simp]
theorem Schema.toList_mapValues (change : List String → List String) (schema : Schema) :
    (schema.mapValues change).toList = schema.toList.map (Definition.mapValues change) := rfl

/-- Other values leave the place at which a definition is put. -/
theorem map_mapValues_place (change : List String → List String) (definition : Definition)
    (definitions : List Definition) :
    (NamedList.place definition definitions).map (Definition.mapValues change) =
      NamedList.place (definition.mapValues change)
        (definitions.map (Definition.mapValues change)) := by
  induction definitions with
  | nil => rfl
  | cons other rest ih =>
    have names : Named.name (other.mapValues change) = Named.name (definition.mapValues change) ↔
        Named.name other = Named.name definition := by
      simp [Named.name]
    by_cases same : Named.name other = Named.name definition
    · simp [NamedList.place, same, names.mpr same]
    · simp [NamedList.place, same, mt names.mp same, ih]

/-- Changing values does not interfere with adding a definition. -/
theorem Schema.mapValues_insert (change : List String → List String) (schema : Schema)
    (definition : Definition) :
    Schema.mapValues change (schema.insert definition) =
      (schema.mapValues change).insert (definition.mapValues change) :=
  NamedList.ext (map_mapValues_place change definition schema.toList)

namespace Sdl

section Changed

variable (change : List String → List String)

/-! ### Defining -/

/-- A declaration is accepted or refused whatever its values are. -/
theorem accept_mapValues (seen : List (Text.Located String)) (declaration : TypeDecl) :
    accept seen (declaration.mapValues change) =
      (accept seen declaration).map (Definition.mapValues change) := by
  obtain ⟨name, isExtension, body⟩ := declaration
  unfold accept
  cases isExtension with
  | true => rfl
  | false =>
    simp only [TypeDecl.mapValues]
    cases seen.find? fun earlier => earlier.value == name.value with
    | some first => rfl
    | none =>
      cases body with
      | scalar => rfl
      | enumeration values => rfl
      | object declared interfaces =>
        simp only [Body.mapValues, Bool.false_eq_true, if_false, define_record.1]
        cases defineFields name.value declared <;> rfl
      | interface declared interfaces =>
        simp only [Body.mapValues, Bool.false_eq_true, if_false, define_record.2]
        cases defineFields name.value declared <;> rfl
      | union => rfl
      | inputObject => rfl

/-- What is done to the declared values is done to the schema that is defined. -/
theorem defineFrom_mapValues (seen : List (Text.Located String)) (schema : Schema)
    (declarations : List TypeDecl) :
    defineFrom seen (schema.mapValues change) (declarations.map (TypeDecl.mapValues change)) =
      (defineFrom seen schema declarations).map (Schema.mapValues change) := by
  induction declarations generalizing seen schema with
  | nil => rfl
  | cons declaration rest ih =>
    rw [List.map_cons, defineFrom_cons, defineFrom_cons, accept_mapValues]
    cases accept seen declaration with
    | error fault => rfl
    | ok definition =>
      simp only [Except.map, Except.bind]
      rw [← Schema.mapValues_insert]
      exact ih (declaration.name :: seen) (schema.insert definition)

/-- Whatever is done to the values that are declared, is done to the values of the schema;
and what is refused, is refused as before. -/
theorem define_mapValues (declarations : List TypeDecl) :
    define (declarations.map (TypeDecl.mapValues change)) =
      (define declarations).map (Schema.mapValues change) := by
  have names : typeNames (declarations.map (TypeDecl.mapValues change)) =
      typeNames declarations := by
    simp [typeNames, TypeDecl.mapValues, Function.comp_def]
  have given : (standardSchema declarations).mapValues change =
      standardSchema (declarations.map (TypeDecl.mapValues change)) := by
    refine NamedList.ext ?_
    rw [Schema.toList_mapValues, toList_standardSchema, toList_standardSchema, names]
    simp [standardBeside, Definition.mapValues, Function.comp_def]
  rw [define_eq_defineFrom, define_eq_defineFrom, ← given]
  exact defineFrom_mapValues change [] (standardSchema declarations) declarations

end Changed

/-! ### Enumerations of a document -/

/-- The enumeration that a declaration declares, if it declares one. -/
def TypeDecl.enumeration? (declaration : TypeDecl) : Option Enumeration :=
  match declaration.body with
  | .enumeration values => some ⟨declaration.name.value, values⟩
  | _ => none

/-- The enumerations that a document declares, in order, each with all values that are
written. -/
def Document.enumerations (document : Document) : List Enumeration :=
  document.types.filterMap TypeDecl.enumeration?

end Sdl

def Definition.enumeration? : Definition → Option Enumeration
  | .enumeration e => some e
  | _ => none

def Schema.enumerations (schema : Schema) : List Enumeration :=
  schema.toList.filterMap Definition.enumeration?

namespace Sdl

theorem filterMap_enumeration?_of_describes {declarations : List TypeDecl}
    {definitions : List Definition} (described : List.Forall₂ Describes declarations definitions) :
    definitions.filterMap Definition.enumeration? =
      declarations.filterMap TypeDecl.enumeration? := by
  induction described with
  | nil => rfl
  | @cons declaration definition _ _ describes _ ih =>
    have same : definition.enumeration? = declaration.enumeration? := by cases describes <;> rfl
    rw [List.filterMap_cons, List.filterMap_cons, same, ih]

/-- The enumerations of a schema are those that its document declares. -/
theorem enumerations_of_define {document : Document} {schema : Schema}
    (defined : define document.types = .ok schema) :
    schema.enumerations = document.enumerations := by
  obtain ⟨definitions, described, whole⟩ := define_list_eq_ok_iff.mp defined
  have standard : (standardBeside (typeNames document.types)).filterMap
      Definition.enumeration? = [] := by
    simp [standardBeside, Definition.enumeration?]
  rw [Schema.enumerations, whole, List.filterMap_append, standard, List.nil_append]
  exact filterMap_enumeration?_of_describes described

end Sdl

/-! ### Enumerations of a module -/

theorem exists_join_eq_of_mem {texts : List String} {text : String} (mem : text ∈ texts) :
    ∃ before after, String.join texts = before ++ text ++ after := by
  obtain ⟨front, back, rfl⟩ := List.append_of_mem mem
  exact ⟨String.join front, String.join back, by simp [String.append_assoc]⟩

/-- Under the default rules, every visible enumeration has a block of all its values. -/
theorem exists_block_of_mem_enumerations {schema : Schema} {moduleName : Option String}
    {spare : Nat} {generated : Generated} {e : Enumeration}
    (succeeds : generateTypes schema ⟨moduleName, { spare }⟩ = .ok generated)
    (listed : e ∈ schema.enumerations) (visible : isReserved e.name = false) :
    ∃ before after, generated.content =
      before ++ (Declaration.enumeration e.name e.values false).render ++ after := by
  obtain ⟨definition, mem, found⟩ := List.mem_filterMap.mp listed
  cases definition with
  | enumeration _ =>
    cases found
    obtain ⟨-, rfl⟩ := Generator.generate_eq_ok_iff_textOf.mp succeeds
    have shown : Definition.enumeration e ∈ schema.visible :=
      List.mem_filter.mpr ⟨mem, by simpa [Definition.name] using visible⟩
    exact exists_join_eq_of_mem (List.mem_map_of_mem shown)
  | scalar _ => cases found
  | object _ => cases found
  | interface _ => cases found

/-! ### The main result -/

/-- Values are loaded as they are declared. A text that loads has the enumerations that it
declares, each with the values in the order in which they are written; so their values are
distinct exactly if the text declares no value twice. Nothing else comes of a value that is
repeated: whatever is done to the values that are declared, the schema changes by just that.
A module that is generated for it by the default rules has a block of these values for each
enumeration whose name is not reserved. -/
theorem values_are_loaded_as_declared (source : Text.Source) (schema : Schema)
    (loaded : Sdl.load source = .ok schema) :
    ∃ document, Sdl.parse source.text.toList = .ok document ∧
      schema.enumerations = document.enumerations ∧
      ((∀ e ∈ schema.enumerations, e.values.Nodup) ↔
        ∀ e ∈ document.enumerations, e.values.Nodup) ∧
      (∀ change : List String → List String,
        Sdl.define (document.types.map (Sdl.TypeDecl.mapValues change)) =
          .ok (schema.mapValues change)) ∧
      ∀ (moduleName : Option String) (spare : Nat) (generated : Generated),
        generateTypes schema ⟨moduleName, { spare }⟩ = .ok generated →
        ∀ e ∈ document.enumerations, isReserved e.name = false →
          ∃ before after, generated.content =
            before ++ (Declaration.enumeration e.name e.values false).render ++ after := by
  obtain ⟨document, parsed, defined⟩ := Sdl.load_eq_ok_iff.mp loaded
  have same := Sdl.enumerations_of_define defined
  refine ⟨document, parsed, same, by rw [same], ?_, ?_⟩
  · intro change
    rw [Sdl.define_mapValues, defined]
    rfl
  · intro moduleName spare generated succeeds e listed visible
    exact exists_block_of_mem_enumerations succeeds (same ▸ listed) visible

def repeatedValue : Text.Source := ⟨Sdl.defaultSourceName, "enum Hue \x7b RED RED \x7d"⟩

theorem parse_repeatedValue : Sdl.parse repeatedValue.text.toList =
    .ok [.type ⟨⟨"Hue", 15⟩, false, .enumeration ["RED", "RED"]⟩ []] := by
  decide +kernel

def repeatedHue : Schema :=
  .ofList (Sdl.standardBeside ["Hue"] ++ [.enumeration ⟨"Hue", ["RED", "RED"]⟩])

theorem load_repeatedValue : Sdl.load repeatedValue = .ok repeatedHue :=
  Sdl.load_eq_ok_iff.mpr ⟨_, parse_repeatedValue, rfl⟩

/-- The value that is declared twice is loaded twice. -/
theorem repeatedValue_is_loaded_as_declared :
    Sdl.load repeatedValue = .ok repeatedHue ∧
    ∃ document, Sdl.parse repeatedValue.text.toList = .ok document ∧
      repeatedHue.enumerations = document.enumerations ∧
      ¬ ∀ e ∈ document.enumerations, e.values.Nodup := by
  obtain ⟨document, parsed, same, distinct, -⟩ :=
    values_are_loaded_as_declared repeatedValue repeatedHue load_repeatedValue
  have repeated : ¬ ∀ e ∈ repeatedHue.enumerations, e.values.Nodup := by decide
  exact ⟨load_repeatedValue, document, parsed, same, mt distinct.mpr repeated⟩

/-- A text that declares a value twice is loaded, and the module declares it twice. -/
theorem repeatedValue_is_generated_twice :
    ∃ schema, Sdl.load repeatedValue = .ok schema ∧
      (∃ e ∈ schema.enumerations, ¬ e.values.Nodup) ∧
      generateTypesFromSource repeatedValue.text {} =
        .ok ⟨"types", "enum Hue \x7b\r\n  RED,\r\n  RED\r\n\x7d\r\n"⟩ := by
  refine ⟨repeatedHue, load_repeatedValue, ⟨_, List.mem_cons_self, by decide⟩, ?_⟩
  exact generateTypesFromSource_eq_ok_iff.mpr ⟨repeatedHue, load_repeatedValue, by decide +kernel⟩

end SchemaTypings
