import SchemaTypings.Proofs.Generation.Faults
import SchemaTypings.Proofs.Loading.FieldTypes

/-!
# Notation of types

A type reference is loaded from the text that spells it and is spelled by the text it was
loaded from. Since no two references to names are spelled alike, the shape that an error
names tells which type the field has.
-/

namespace SchemaTypings

open Sdl Text

/-! ### Types of a source -/

/-- The schema has the types of fields as the source writes them: each is a reference that
can be written, and every field that the source declares has one text for its type, which
spells the type that the field of the definition has. -/
structure LoadsTypes (source : Source) (schema : Schema) : Prop where
  writable : ∀ definition ∈ schema.toList, ∀ field ∈ definition.fields, IsWritable field.type
  spelled : ∃ items, parse source.text.toList = .ok items ∧
    ∀ declaration ∈ items.types,
      (∃ definition ∈ schema.toList, Describes declaration definition) ∧
      ∀ declared ∈ declaration.body.fields, ∀ typeText,
        declared.WrittenAs source.text.toList typeText ↔
          typeText = declared.type.spelling.toList

/-- A schema that is loaded has the types of its fields as they are written. -/
theorem loadsTypes_of_load {source : Source} {schema : Schema}
    (loaded : load source = .ok schema) : LoadsTypes source schema := by
  refine ⟨isWritable_of_load loaded, ?_⟩
  obtain ⟨items, parsed, defined⟩ := load_eq_ok_iff.mp loaded
  obtain ⟨definitions, described, whole⟩ := define_list_eq_ok_iff.mp defined
  refine ⟨items, parsed, fun declaration listed => ⟨?_, fun declared own typeText => ?_⟩⟩
  · obtain ⟨definition, mem, describes⟩ := (exists_describes described).1 declaration listed
    exact ⟨definition, whole ▸ List.mem_append_right _ mem, describes⟩
  · obtain ⟨-, written⟩ := isWritten_of_parse parsed declaration listed declared own
    constructor
    · intro written'
      exact written'.unique written
    · rintro rfl
      exact written

/-! ### Shapes in errors -/

/-- The shape that an error about the form of a type names. -/
def GenerateError.shape? : GenerateError → Option String
  | unsupportedShape _ _ type => some type.spelling
  | _ => none

/-- The shape is the spelling of the type and, among references to names, of no other. -/
def TypeRef.HasShape (type : TypeRef) (shape : String) : Prop :=
  type.spelling = shape ∧
    (IsName type.baseName → ∀ other : TypeRef, IsName other.baseName →
      other.spelling = shape → other = type)

/-- The spelling of a type is its shape. -/
theorem TypeRef.hasShape_spelling (type : TypeRef) : type.HasShape type.spelling := by
  refine ⟨rfl, fun named other named' same => ?_⟩
  exact spelling_inj named' named same

/-- Whatever the rules for scalars are, the default rule for fields fails with the shape of a
type that it cannot express. -/
theorem field_of_unwrap?_eq_none {field : Field} {context : Context}
    (refused : field.type.unwrap? = none) :
    Default.field field context =
      .error (.unsupportedShape context.parentName field.name field.type) := by
  have form : ¬ field.type.IsExpressible := TypeRef.unwrap?_eq_none_iff.mp refused
  rw [Default.field_eq_map, resolve_of_not_isExpressible form]
  rfl

/-- Where generation fails with a shape, this is the spelling of a field's type. -/
theorem exists_field_of_shape {schema : Schema} {table : ScalarTable} {moduleName : Option String}
    {spare : Nat} {error : GenerateError} {shape : String}
    (failed : generateTypes schema ⟨moduleName, table.overrides.sparing spare⟩ = .error error)
    (shaped : error.shape? = some shape) :
    ∃ definition ∈ schema.visible, ∃ field ∈ definition.fields,
      error = .unsupportedShape definition.name field.name field.type ∧
      field.type.spelling = shape := by
  obtain ⟨definition, first, fault⟩ := Generator.generate_eq_error_iff.mp failed
  obtain ⟨field, firstField, faulty⟩ := (table.onlyScalars spare).declare_eq_error_iff.mp fault
  cases faulty with
  | shape form => exact ⟨definition, first.mem, field, firstField.mem, rfl, Option.some.inj shaped⟩
  | unknown _ _ => cases shaped

/-! ### The main result -/

/-- Texts of types and references that can be written correspond to each other, and this
correspondence is how the types of fields are loaded and how errors name them. -/
theorem type_notation_round_trips :
    -- A text that the rule for types accepts as a whole is read as the one reference it spells.
    (∀ text, IsTypeText text ↔ ∃ ty, takeType text = some (ty, [])) ∧
    (∀ text ty, takeType text = some (ty, []) ↔ IsWritable ty ∧ ty.spelling.toList = text) ∧
    -- The type of a loaded field is spelled by the text that the source declares it with.
    (∀ source schema, load source = .ok schema → LoadsTypes source schema) ∧
    -- Whatever references can be written are the types of loaded fields.
    (∀ record : Record, (∀ name ∈ record.ownNames, IsName name) →
      (∀ field ∈ record.fields.toList, IsWritable field.type) →
      ∀ definition ∈ [Definition.object record, .interface record],
      ∀ lead text source, IsGap lead → LaidOut definition.tokens text →
        source.text.toList = lead ++ text →
        ∃ schema, load source = .ok schema ∧ definition ∈ schema.toList) ∧
    -- References to names, with repeated marks or without, are told apart by their spellings.
    (∀ a b : TypeRef, IsName a.baseName → IsName b.baseName → a.spelling = b.spelling → a = b) ∧
    -- So the shape in an error tells which type it is about, in the rule for fields as in the
    -- generation of a module.
    (∀ (field : Field) (context : Context), field.type.unwrap? = none →
      ∃ error shape, Default.field field context = .error error ∧ error.shape? = some shape ∧
        field.type.HasShape shape) ∧
    (∀ (schema : Schema) (table : ScalarTable) spare moduleName error shape,
      generateTypes schema ⟨moduleName, table.overrides.sparing spare⟩ = .error error →
      error.shape? = some shape →
      ∃ definition ∈ schema.visible, ∃ field ∈ definition.fields,
        error = .unsupportedShape definition.name field.name field.type ∧
        field.type.HasShape shape) := by
  refine ⟨fun text => ?_, fun text ty => takeType_eq_some_nil_iff, ?_, ?_, ?_, ?_, ?_⟩
  · rw [isTypeText_iff]
    exact exists_congr fun ty => takeType_eq_some_nil_iff.symm
  · intro source schema loaded
    exact loadsTypes_of_load loaded
  · intro record names types definition mem lead text source gap laidOut written
    exact load_definition_of_laidOut (isPrintable_record names types definition mem) gap laidOut
      written
  · intro a b named named' same
    exact spelling_inj named named' same
  · intro field context refused
    exact ⟨_, _, field_of_unwrap?_eq_none refused, rfl, field.type.hasShape_spelling⟩
  · intro schema table spare moduleName error shape failed shaped
    obtain ⟨definition, visible, field, own, rfl, rfl⟩ := exists_field_of_shape failed shaped
    exact ⟨definition, visible, field, own, rfl, field.type.hasShape_spelling⟩

def cellsType : TypeRef := .nonNull (.list (.list (.nonNull (.named "ID"))))

def cubeRecord : Record := ⟨"Cube", .ofList [⟨"cells", cellsType⟩], []⟩

/-- A list of lists is loaded, and refused where the module is generated. -/
theorem cube_types_round_trip :
    (∃ schema, load ⟨defaultSourceName, "type Cube\x7bcells:[[ID!]]!\x7d"⟩ = .ok schema ∧
      .object cubeRecord ∈ schema.toList ∧
      LoadsTypes ⟨defaultSourceName, "type Cube\x7bcells:[[ID!]]!\x7d"⟩ schema) ∧
    (∀ ty : TypeRef, IsName ty.baseName → ty.spelling = "[[ID!]]!" → ty = cellsType) ∧
    (∃ error shape,
      Default.field ⟨"cells", cellsType⟩ (Rules.default.context "types" .empty) = .error error ∧
      error.shape? = some shape ∧ cellsType.HasShape shape) ∧
    ∃ definition ∈ Schema.visible (.ofList [.object cubeRecord]), ∃ field ∈ definition.fields,
      field.type.HasShape "[[ID!]]!" := by
  obtain ⟨-, -, loads, writes, apart, rule, generates⟩ := type_notation_round_trips
  refine ⟨?loaded, ?apart, ?rule, ?generated⟩
  case loaded =>
    have laidOut : LaidOut (Definition.object cubeRecord).tokens _ :=
      .cons (.separator (c := ' ') (by decide) .nil) (by decide) <| .cons .nil (by decide) <|
      .cons .nil (by decide) <| .cons .nil (by decide) <| .cons .nil (by decide) <|
      .cons .nil (by decide) <| .cons .nil (by decide) .nil
    obtain ⟨schema, loaded, mem⟩ := writes cubeRecord (by decide) (by decide) _
      List.mem_cons_self [] _ ⟨defaultSourceName, "type Cube\x7bcells:[[ID!]]!\x7d"⟩ .nil laidOut
      (by decide)
    exact ⟨schema, loaded, mem, loads _ schema loaded⟩
  case apart =>
    intro ty named same
    exact apart ty cellsType named (by decide) same
  case rule => exact rule ⟨"cells", cellsType⟩ _ rfl
  case generated =>
    obtain ⟨definition, visible, field, own, -, shape⟩ :=
      generates (.ofList [.object cubeRecord]) [] 0 none
        (.unsupportedShape "Cube" "cells" cellsType) _ rfl rfl
    exact ⟨definition, visible, field, own, shape⟩

end SchemaTypings
