import SchemaTypings.Proofs.Generation.Faults
import SchemaTypings.Proofs.Loading.FieldTypes

/-!
# Lines of fields

There are six forms of a type reference that a declaration can express. The line of a field
shows which of them the type has, except that it says nothing about a mark on the items of
a list. Among the types that are loaded, those with two or more lists have none of the forms.
-/

namespace SchemaTypings

open Traversal Sdl

/-! ### The six forms -/

namespace TypeRef

/-- The references to a name that a declaration can express: `n`, `n!`, `[n]`, `[n]!`, `[n!]`
and `[n!]!`. -/
def forms (name : String) : List TypeRef :=
  [.named name, .nonNull (.named name),
    .list (.named name), .nonNull (.list (.named name)),
    .list (.nonNull (.named name)), .nonNull (.list (.nonNull (.named name)))]

/-- The six forms are the expressible references to a name. -/
theorem mem_forms_iff {ty : TypeRef} : ty ∈ forms ty.baseName ↔ ty.IsExpressible := by
  constructor
  · generalize ty.baseName = name
    intro mem
    simp only [forms, List.mem_cons, List.not_mem_nil, or_false] at mem
    rcases mem with rfl | rfl | rfl | rfl | rfl | rfl
    · exact .plain (.named name)
    · exact .nonNull (.named name)
    · exact .plain (.list (.named name))
    · exact .nonNull (.list (.named name))
    · exact .plain (.list (.nonNull name))
    · exact .nonNull (.list (.nonNull name))
  · rintro (form | form)
    · rcases form with name | (name | name) <;> simp [forms, baseName]
    · rcases form with name | (name | name) <;> simp [forms, baseName]

/-! ### Lists in a reference without doubled marks -/

variable {ty : TypeRef}

/-- Where no mark is repeated, an item is what holds no list. -/
theorem isItem_iff (marks : ty.MarksOnce) : ty.IsItem ↔ ty.listDepth = 0 := by
  constructor
  · rintro (name | name) <;> rfl
  · intro depth
    cases ty with
    | named name => exact .named name
    | list item => cases depth
    | nonNull inner =>
      cases inner with
      | named name => exact .nonNull name
      | list item => cases depth
      | nonNull inner => cases marks.1

/-- Where no mark is repeated, a mark may stand on what holds at most one list. -/
theorem isPlain_iff (marks : ty.MarksOnce) (plain : ty.isNonNull = false) :
    ty.IsPlain ↔ ty.listDepth < 2 := by
  cases ty with
  | named name => exact ⟨fun _ => by simp [listDepth], fun _ => .named name⟩
  | list item =>
    have items : item.IsItem ↔ item.listDepth = 0 := isItem_iff marks
    simp only [listDepth]
    constructor
    · intro form
      cases form with
      | list form =>
        have depth := items.mp form
        omega
    · intro depth
      have none : item.listDepth = 0 := by omega
      exact .list (items.mpr none)
  | nonNull inner => cases plain

/-- Without doubled marks, what a declaration cannot express are lists of lists. -/
theorem isExpressible_iff (marks : ty.MarksOnce) : ty.IsExpressible ↔ ty.listDepth < 2 := by
  cases mark : ty.isNonNull with
  | false =>
    rw [← isPlain_iff marks mark]
    constructor
    · intro form
      cases form with
      | plain form => exact form
      | nonNull form => cases mark
    · exact .plain
  | true =>
    cases ty with
    | named name => cases mark
    | list item => cases mark
    | nonNull inner =>
      rw [listDepth, ← isPlain_iff marks.2 marks.1]
      constructor
      · rintro (form | form)
        · cases form
        · exact form
      · exact .nonNull

/-- Where no mark is repeated, a reference is refused for its lists only. -/
theorem unwrap?_eq_none_iff_of_marksOnce (marks : ty.MarksOnce) :
    ty.unwrap? = none ↔ 2 ≤ ty.listDepth := by
  rw [unwrap?_eq_none_iff, isExpressible_iff marks]
  omega

end TypeRef

/-! ### The line of a field -/

/-- The line of a field of a type whose base name comes to a text. -/
def Field.lineOf (field : Field) (base : String) : String :=
  field.name ++ (if field.type.isNonNull then "" else "?") ++ ": " ++ base
    ++ (if field.type.hasList then "[]" else "") ++ ";"

theorem line_eq_lineOf (field : Field) (base : String) :
    Member.line ⟨field.name, if field.type.hasList then arrayOf base else base,
      !field.type.isNonNull, false⟩ = field.lineOf base := by
  rw [Member.line, Field.lineOf]
  cases field.type.isNonNull <;> cases field.type.hasList <;> simp [arrayOf, String.append_assoc]

/-- The default rule for fields succeeds with the line of the field, and only where the type
has one of the forms and its base name comes to a text. -/
theorem Default.field_eq_ok_iff {field : Field} {context : Context} {text : String} :
    Default.field field context = .ok text ↔
      field.type.IsExpressible ∧ ∃ base,
        baseText field field.type.baseName context = .ok base ∧ text = field.lineOf base := by
  rw [Default.field_eq_map, map_eq_ok_iff]
  constructor
  · rintro ⟨type, resolved, rfl⟩
    by_cases form : field.type.IsExpressible
    · rw [resolve_of_isExpressible form] at resolved
      obtain ⟨base, found, rfl⟩ := map_eq_ok_iff.mp resolved
      exact ⟨form, base, found, line_eq_lineOf field base⟩
    · rw [resolve_of_not_isExpressible form] at resolved
      cases resolved
  · rintro ⟨form, base, found, rfl⟩
    have resolved := @resolve_of_isExpressible context field form
    rw [found] at resolved
    exact ⟨_, resolved, (line_eq_lineOf field base).symm⟩

/-- Fields of one name are rendered alike if their types have the same base name, the same
outermost mark, and a list both or neither. -/
theorem Default.field_eq_of_alike {field other : Field} {context : Context}
    (name : field.name = other.name)
    (form : field.type.IsExpressible) (form' : other.type.IsExpressible)
    (base : field.type.baseName = other.type.baseName)
    (mark : field.type.isNonNull = other.type.isNonNull)
    (list : field.type.hasList = other.type.hasList) :
    Default.field field context = Default.field other context := by
  have bases : baseText field field.type.baseName context =
      baseText other other.type.baseName context := by
    rw [baseText, baseText, name, base]
  rw [Default.field_eq_map, Default.field_eq_map, resolve_of_isExpressible form,
    resolve_of_isExpressible form', bases, name, mark, list]

/-! ### The main result -/

/-- A reference is taken apart exactly if it has one of the six forms, and these are what the
default rule for fields can render. Among the types that are loaded, they are those with at
most one list. -/
theorem field_lines_follow_forms :
    (∀ ty unwrapped, TypeRef.unwrap? ty = some unwrapped ↔
      ty ∈ TypeRef.forms ty.baseName ∧
        unwrapped = ⟨ty.baseName, ty.isNonNull, decide (0 < ty.listDepth)⟩) ∧
    (∀ ty, TypeRef.unwrap? ty = none ↔ ty ∉ TypeRef.forms ty.baseName) ∧
    (∀ (field : Field) context text, Default.field field context = .ok text ↔
      field.type ∈ TypeRef.forms field.type.baseName ∧
      ∃ base, baseText field field.type.baseName context = .ok base ∧
        text = field.name ++ (if field.type.isNonNull then "" else "?") ++ ": " ++ base
          ++ (if 0 < field.type.listDepth then "[]" else "") ++ ";") ∧
    (∀ fieldName name context, ∀ outer ∈ [id, TypeRef.nonNull],
      Default.field ⟨fieldName, outer (.list (.nonNull (.named name)))⟩ context =
        Default.field ⟨fieldName, outer (.list (.named name))⟩ context) ∧
    (∀ source schema, load source = .ok schema →
      ∀ definition ∈ schema.toList, ∀ field ∈ definition.fields,
        (field.type.unwrap? = none ↔ 2 ≤ field.type.listDepth)) := by
  refine ⟨?taken, ?refused, ?line, ?item, ?loaded⟩
  case taken =>
    intro ty unwrapped
    rw [TypeRef.mem_forms_iff]
    exact TypeRef.unwrap?_eq_some_iff
  case refused =>
    intro ty
    rw [TypeRef.mem_forms_iff]
    exact TypeRef.unwrap?_eq_none_iff
  case line =>
    intro field context text
    rw [TypeRef.mem_forms_iff, Default.field_eq_ok_iff]
    simp only [Field.lineOf, TypeRef.hasList, decide_eq_true_eq]
  case item =>
    intro fieldName name context outer mem
    simp only [List.mem_cons, List.not_mem_nil, or_false] at mem
    have marked : TypeRef.IsPlain (.list (.nonNull (.named name))) := .list (.nonNull name)
    have unmarked : TypeRef.IsPlain (.list (.named name)) := .list (.named name)
    rcases mem with rfl | rfl
    · exact Default.field_eq_of_alike rfl (.plain marked) (.plain unmarked) rfl rfl rfl
    · exact Default.field_eq_of_alike rfl (.nonNull marked) (.nonNull unmarked) rfl rfl rfl
  case loaded =>
    intro source schema loaded definition mem field own
    obtain ⟨-, marks⟩ := isWritable_of_load loaded definition mem field own
    exact TypeRef.unwrap?_eq_none_iff_of_marksOnce marks

def albumRecord : Record :=
  ⟨"Album", .ofList [⟨"ids", .nonNull (.list (.nonNull (.named "ID")))⟩,
    ⟨"pages", .list (.list (.named "Int"))⟩], []⟩

/-- The marks in a list leave no trace, and the list of lists is refused. -/
theorem album_lines_follow_forms :
    (∃ schema, load ⟨defaultSourceName, "type Album\x7bids:[ID!]! pages:[[Int]]\x7d"⟩ = .ok schema ∧
      .object albumRecord ∈ schema.toList ∧
      ∀ field ∈ albumRecord.fields.toList,
        field.type.unwrap? = none ↔ 2 ≤ field.type.listDepth) ∧
    Default.field ⟨"ids", .nonNull (.list (.nonNull (.named "ID")))⟩
      (Rules.default.context "types" .empty) = .ok "ids: string[];" ∧
    Default.field ⟨"ids", .nonNull (.list (.nonNull (.named "ID")))⟩
        (Rules.default.context "types" .empty) =
      Default.field ⟨"ids", .nonNull (.list (.named "ID"))⟩
        (Rules.default.context "types" .empty) := by
  obtain ⟨-, -, line, item, loads⟩ := field_lines_follow_forms
  refine ⟨?_, ?_, ?_⟩
  · have printable : (Definition.object albumRecord).IsPrintable :=
      isPrintable_record (by decide) (by decide) _ List.mem_cons_self
    have laidOut : LaidOut (Definition.object albumRecord).tokens _ :=
      .cons (.separator (c := ' ') (by decide) .nil) (by decide) <| .cons .nil (by decide) <|
      .cons .nil (by decide) <| .cons .nil (by decide) <| .cons .nil (by decide) <|
      .cons (.separator (c := ' ') (by decide) .nil) (by decide) <| .cons .nil (by decide) <|
      .cons .nil (by decide) <| .cons .nil (by decide) <| .cons .nil (by decide) .nil
    obtain ⟨schema, loaded, mem⟩ := load_definition_of_laidOut printable .nil laidOut
      (show (⟨defaultSourceName, "type Album\x7bids:[ID!]! pages:[[Int]]\x7d"⟩ :
        Text.Source).text.toList = _ by decide)
    exact ⟨schema, loaded, mem, loads _ schema loaded _ mem⟩
  · exact (line _ _ _).mpr ⟨by decide, "string", rfl, by decide⟩
  · exact item "ids" "ID" _ .nonNull (List.mem_cons_of_mem _ List.mem_cons_self)

end SchemaTypings
