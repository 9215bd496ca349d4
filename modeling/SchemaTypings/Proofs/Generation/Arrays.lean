import SchemaTypings.Proofs.Generation.FieldLines
import SchemaTypings.Proofs.Generation.TableRules
import SchemaTypings.Proofs.Generation.TypeExpressions

/-!
# Arrays of mapped scalars

A list of a scalar is rendered by putting the suffix for arrays behind the type that a table
has for the scalar, whatever text this is. The suffix goes to the last operand of the
expression. So the list is an array of the mapped type exactly if this is a single operand;
between types with `|`, only the last choice becomes an array.
-/

namespace SchemaTypings

open Traversal

/-! ### Fields of mapped scalars -/

/-- A field that asks for a scalar of the table has the type in the table as its base. -/
theorem baseText_of_lookup {schema : Schema} {table : ScalarTable} {field : Field}
    {mapped : String} {moduleName : String} {parent : Option String} {spare depth : Nat}
    (uses : schema.UsesScalar field) (entry : table.lookup field.type.baseName = some mapped) :
    baseText field field.type.baseName ⟨moduleName, schema, parent,
      (Rules.overriding (table.overrides.sparing spare)).answer moduleName schema (depth + 1)⟩ =
        .ok mapped := by
  have reference : table.reference ⟨field.type.baseName⟩ = mapped := by
    rw [ScalarTable.reference, entry]
    rfl
  have scalar (context : Context) :
      (Rules.overriding (table.overrides.sparing spare)).scalar ⟨field.type.baseName⟩ context =
        .ok mapped := by
    rw [table.overriding_scalar, reference]
  obtain ⟨-, leads⟩ := uses
  rw [baseText_eq_of_standing]
  rcases leads with standing | ⟨standing, standard, named⟩
  · rw [standing]
    exact scalar _
  · have same : Scalar.ofStandard standard = ⟨field.type.baseName⟩ := congrArg Scalar.mk named
    rw [standing, StandardScalar.ofName?_eq_some_iff.mpr named]
    change (Rules.overriding (table.overrides.sparing spare)).scalar (.ofStandard standard) _ = _
    rw [same]
    exact scalar _

/-- A list of a scalar of the table is a line with the type in the table and a suffix. -/
theorem render_list_of_lookup {schema : Schema} {table : ScalarTable} {field : Field}
    {mapped : String} {moduleName parent : String} {spare : Nat} (uses : schema.UsesScalar field)
    (list : field.type.hasList = true) (entry : table.lookup field.type.baseName = some mapped) :
    (((Rules.overriding (table.overrides.sparing spare)).context moduleName schema).within
      parent).render (.field field) =
      .ok (Member.line ⟨field.name, arrayOf mapped, !field.type.isNonNull, false⟩) := by
  have rule : (Rules.overriding (table.overrides.sparing spare)).field = Default.field :=
    (table.onlyScalars spare).field
  change (Rules.overriding (table.overrides.sparing spare)).field field _ = _
  rw [rule, Default.field_eq_map, resolve_of_isExpressible uses.1, baseText_of_lookup uses entry,
    list]
  rfl

/-! ### The main result -/

/-- A list of a mapped scalar is rendered as the mapped text with a suffix behind it. If the
text is an expression, the suffix goes to its last operand, and what is written denotes an
array of the mapped type exactly if this operand is all there is. -/
theorem lists_suffix_last_operands {schema : Schema} {table : ScalarTable} {field : Field}
    {mapped : String} {expression : Alternatives} (spare : Nat) (moduleName parent : String)
    (uses : schema.UsesScalar field) (list : field.type.hasList = true)
    (entry : table.lookup field.type.baseName = some mapped)
    (written : expression.tokens = typeTokens mapped.toList) :
    (((Rules.overriding (table.overrides.sparing spare)).context moduleName schema).within
      parent).render (.field field) =
      .ok (Member.line ⟨field.name, mapped ++ "[]", !field.type.isNonNull, false⟩) ∧
    (∀ type, Denotes mapped type ↔ type = expression.type) ∧
    (∀ type, Denotes (mapped ++ "[]") type ↔ type = expression.suffixed.type) ∧
    (Denotes (mapped ++ "[]") (.array expression.type) ↔ expression.IsOperand) := by
  have denotes : Denotes mapped expression.type := ⟨expression, written, rfl⟩
  have suffixed : Denotes (mapped ++ "[]") expression.suffixed.type := by
    refine ⟨expression.suffixed, ?_, rfl⟩
    rw [expression.tokens_suffixed, written]
    exact (typeTokens_arrayOf mapped).symm
  refine ⟨render_list_of_lookup uses list entry, fun type => ?mapped, fun type => ?list, ?array⟩
  case mapped => exact ⟨fun other => other.unique denotes, fun same => same ▸ denotes⟩
  case list => exact ⟨fun other => other.unique suffixed, fun same => same ▸ suffixed⟩
  case array =>
    rw [← expression.type_suffixed_iff]
    constructor
    · intro array
      exact suffixed.unique array
    · intro same
      rw [← same]
      exact suffixed

def daySchema : Schema :=
  .ofList [.scalar ⟨"DateTime"⟩,
    .object ⟨"Event", .ofList [⟨"days", .list (.named "DateTime")⟩], []⟩]

def nullableDate : ScalarTable := [("DateTime", "Date | null")]

def dateOrNull : Alternatives :=
  .more (.last (.name "Date".toList 0)) (.last (.last (.name "null".toList 0)))

/-- The list of dates gets its suffix behind `null`. -/
theorem days_suffix_last_operand :
    (((Rules.overriding (nullableDate.overrides.sparing 0)).context "types" daySchema).within
      "Event").render (.field ⟨"days", .list (.named "DateTime")⟩) = .ok "days?: Date | null[];" ∧
    Denotes "Date | null[]" (.either (.name "Date".toList) (.array (.name "null".toList))) := by
  obtain ⟨line, -, list, -⟩ := @lists_suffix_last_operands daySchema nullableDate
    ⟨"days", .list (.named "DateTime")⟩ "Date | null" dateOrNull 0 "types" "Event"
    ⟨.plain (.list (.named "DateTime")), .inl rfl⟩ rfl rfl rfl
  exact ⟨line.trans rfl, (list _).mpr rfl⟩

/-- The list of dates that may be null is rendered as a date, or an array of null. -/
theorem days_are_no_array :
    generateTypes daySchema ⟨none, nullableDate.overrides⟩ =
      .ok ⟨"types", "type DateTime = Date | null\r\n" ++
        "export interface Event \x7b\r\n  days?: Date | null[];\r\n\x7d\r\n"⟩ ∧
    Denotes "Date | null" (.either (.name "Date".toList) (.name "null".toList)) ∧
    ∀ item, ¬ Denotes "Date | null[]" (.array item) := by
  refine ⟨by decide, ⟨dateOrNull, rfl, rfl⟩, fun item array => ?_⟩
  have choice : Denotes "Date | null[]" dateOrNull.suffixed.type := ⟨dateOrNull.suffixed, rfl, rfl⟩
  cases choice.unique array

end SchemaTypings
