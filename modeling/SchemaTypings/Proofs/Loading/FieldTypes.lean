import SchemaTypings.Proofs.Loading.Places
import SchemaTypings.Proofs.Loading.Printed
import SchemaTypings.Proofs.Loading.TypeTexts

/-!
# Types of loaded fields

Behind its name and its arguments a field is declared with the text of a type.
`FieldDecl.WrittenAs` says with which, by the place of the name in the source. Wherever a
source is read, the type of each field is spelled by the text it is declared with, and
definitions take the types of their fields over from the declarations.
-/

namespace SchemaTypings.Sdl

open Text Reader

/-! ### Texts that fields are declared with -/

/-- A field from its name up to its type. -/
def fieldStart : Reader (Located String) := do
  let name ← name
  let _ ← orEmpty arguments
  literal ":"
  return name

/-- At the place of the field's name in the source, a type begins behind the name, the
arguments and a colon, and it takes this text. -/
def FieldDecl.WrittenAs (source : List Char) (declared : FieldDecl) (typeText : List Char) :
    Prop :=
  ∃ start after, start <:+ source ∧
    (fieldStart start).result = some (declared.name, typeText ++ after) ∧
    (takeType (typeText ++ after)).map Prod.snd = some after

/-- A name is found where the reader stands. -/
theorem left_of_name {text rest : List Char} {found : Located String}
    (read : (name text).result = some (found, rest)) : found.left = text.length := by
  obtain ⟨⟨taken, left⟩, isTaken, eq⟩ := Option.map_eq_some_iff.mp (result_rule.symm.trans read)
  obtain ⟨⟨cs, behind⟩, -, eq'⟩ := Option.map_eq_some_iff.mp isTaken
  cases eq'
  cases eq
  rfl

/-- The place of the name tells where the field begins. -/
theorem left_of_fieldStart {start rest : List Char} {found : Located String}
    (read : (fieldStart start).result = some (found, rest)) : found.left = start.length := by
  obtain ⟨first, middle, named, read⟩ := result_bind_eq_some_iff.mp read
  obtain ⟨numbers, middle', -, read⟩ := result_bind_eq_some_iff.mp read
  obtain ⟨colon, middle'', -, read⟩ := result_bind_eq_some_iff.mp read
  cases read
  exact left_of_name named

/-- A field is declared with one text only. -/
theorem FieldDecl.WrittenAs.unique {source : List Char} {declared : FieldDecl}
    {text text' : List Char} (written : declared.WrittenAs source text)
    (written' : declared.WrittenAs source text') : text = text' := by
  obtain ⟨start, after, place, found, left⟩ := written
  obtain ⟨start', after', place', found', left'⟩ := written'
  -- Both times the name is at the same place, so all behind it is the same.
  have length : start.length = start'.length := by
    rw [← left_of_fieldStart found, left_of_fieldStart found']
  obtain rfl : start = start' :=
    (List.suffix_of_suffix_length_le place place' length.le).eq_of_length length
  rw [found] at found'
  obtain ⟨-, same⟩ := Prod.mk.inj (Option.some.inj found')
  rw [same, left'] at left
  obtain rfl : after' = after := Option.some.inj left
  exact List.append_cancel_right same

/-! ### Fields that are read -/

section Source

variable {source : List Char}

/-- A field that is read in a source is declared there with the spelling of its type, a
reference that can be written. -/
def FieldDecl.IsWritten (source : List Char) (declared : FieldDecl) : Prop :=
  IsWritable declared.type ∧ declared.WrittenAs source declared.type.spelling.toList

theorem forward_field : Forward field := by
  refine .rule (.bind forward_description fun _ => .bind forward_name fun _ => ?_)
  exact .bind (forward_orEmpty forward_arguments) fun _ => .bind (forward_literal _) fun _ =>
    .bind forward_typeRef fun _ => .bind (forward_orEmpty forward_directives) fun _ => .done

/-- A field has the type that the source writes for it. -/
theorem within_field : Within source field fun member => member.1.IsWritten source := by
  intro text value rest place read
  refine ⟨?_, (forward_field _ _ _ read).trans place⟩
  have found := result_rule.symm.trans read
  obtain ⟨described, start, description, found⟩ := result_bind_eq_some_iff.mp found
  obtain ⟨name, middle, named, found⟩ := result_bind_eq_some_iff.mp found
  obtain ⟨numbers, middle', declared, found⟩ := result_bind_eq_some_iff.mp found
  obtain ⟨colon, behind, colonRead, found⟩ := result_bind_eq_some_iff.mp found
  obtain ⟨type, middle'', typed, found⟩ := result_bind_eq_some_iff.mp found
  obtain ⟨applied, last, directed, found⟩ := result_bind_eq_some_iff.mp found
  cases found
  -- Behind the description the field begins as `fieldStart` reads it.
  have started : (fieldStart start).result = some (name, behind) :=
    result_bind_eq_some_iff.mpr ⟨name, middle, named, result_bind_eq_some_iff.mpr
      ⟨numbers, middle', declared, result_bind_eq_some_iff.mpr ⟨colon, behind, colonRead, rfl⟩⟩⟩
  obtain ⟨⟨ty, after⟩, taken, eq⟩ := Option.map_eq_some_iff.mp (result_rule.symm.trans typed)
  cases eq
  obtain ⟨spelled, writable⟩ := spelling_append_of_takeType taken
  refine ⟨writable, start, after, (forward_description _ _ _ description).trans place, ?_, ?_⟩
  · rw [spelled]
    exact started
  · rw [spelled, taken]
    rfl

theorem within_fields :
    Within source fields fun members => ∀ member ∈ members, member.1.IsWritten source :=
  .rule (.seq (forward_literal _) fun _ => within_field.several.bind fun _ held =>
    .seq (forward_literal _) fun _ => .done held)

section Bodies

variable {α : Type} {body : Reader α} {holds : α → Prop}

theorem within_maybeDirectivesAnd (within : Within source body holds) :
    Within source (maybeDirectivesAnd body) fun rest => ∀ a ∈ rest.2, holds a :=
  .seq (forward_orEmpty forward_directives) fun _ => within.optional.bind fun _ held => .done held

theorem within_directivesAnd (within : Within source body holds) :
    Within source (directivesAnd body) fun rest => ∀ a ∈ rest.2, holds a := by
  refine .orElse ?_ (.seq forward_directives fun _ => .done (by simp))
  refine .seq (forward_orEmpty forward_directives) fun _ => within.bind fun _ held => .done ?_
  rintro _ ⟨⟩
  exact held

end Bodies

/-- The fields of the body are declared in the source with the spellings of their types. -/
def Body.IsWritten (source : List Char) (body : Body) : Prop :=
  ∀ declared ∈ body.fields, declared.IsWritten source

/-- What follows the name of a declaration declares its fields. -/
abbrev WithinFields (source : List Char) (read : Reader Rest) : Prop :=
  Within source read fun rest => rest.1.IsWritten source

/-- A declaration has the fields that the source writes for it, and an extension too. -/
theorem within_declaration {keyword : String} {declared extended : Reader Rest}
    (within : WithinFields source declared) (within' : WithinFields source extended) :
    Within source (declaration keyword declared extended) fun found =>
      found.1.body.IsWritten source := by
  refine .rule (.orElse ?_ ?_)
  · have start : Forward (declaring keyword) :=
      .bind forward_description fun _ => .bind (forward_literal _) fun _ => forward_name
    exact .seq start fun _ => within.bind fun _ held => .done held
  · have start : Forward (extending keyword) :=
      .bind forward_extend fun _ => .bind (forward_literal _) fun _ => forward_name
    exact .seq start fun _ => within'.bind fun _ held => .done held

/-- A body without fields may be read by any reader. -/
theorem withinFields_of_eq_nil {α : Type} {read : Reader α} {rest : α → Rest}
    (forward : Forward read) (none : ∀ a, (rest a).1.fields = []) :
    WithinFields source (do return rest (← read)) :=
  .seq forward fun a => .done (by simp [Body.IsWritten, none a])

/-- Interfaces and then fields, however the fields are read. -/
theorem withinFields_record {make : List FieldDecl → List String → Body}
    {read : Reader (List Number × Option (List (FieldDecl × List Number)))}
    (own : ∀ fields interfaces, (make fields interfaces).fields = fields)
    (within : Within source read fun rest =>
      ∀ members ∈ rest.2, ∀ member ∈ members, member.1.IsWritten source) :
    WithinFields source (do
      let implemented ← orEmpty interfaces
      return recordRest make implemented (← read)) := by
  refine .seq (forward_orEmpty forward_interfaces) fun implemented => within.bind fun rest held =>
    .done ?_
  rw [recordRest, Body.IsWritten, own, List.forall_mem_map]
  exact forall_mem_getD_nil held

/-- Types of any kind have the fields that the source writes; only records have any. -/
theorem within_typeDeclaration :
    Within source typeDeclaration fun found => found.1.body.IsWritten source := by
  have fields := within_maybeDirectivesAnd (@within_fields source)
  have fields' := within_directivesAnd (@within_fields source)
  refine .rule (.firstOf ?_)
  simp only [List.forall_mem_cons, List.not_mem_nil, false_implies, implies_true, and_true]
  refine ⟨?scalar, ?object, ?interface, ?union, ?enumeration, ?inputObject⟩
  case scalar =>
    apply within_declaration
    · exact withinFields_of_eq_nil (forward_orEmpty forward_directives) fun _ => rfl
    · exact withinFields_of_eq_nil forward_directives fun _ => rfl
  case object =>
    apply within_declaration
    · exact withinFields_record (fun _ _ => rfl) fields
    · refine .orElse (withinFields_record (fun _ _ => rfl) fields') ?_
      exact withinFields_of_eq_nil forward_interfaces fun _ => rfl
  case interface =>
    apply within_declaration
    · exact withinFields_record (fun _ _ => rfl) fields
    · exact withinFields_record (fun _ _ => rfl) fields'
  case union =>
    apply within_declaration
    · exact withinFields_of_eq_nil (forward_maybeDirectivesAnd forward_unionMembers) fun _ => rfl
    · exact withinFields_of_eq_nil (forward_directivesAnd forward_unionMembers) fun _ => rfl
  case enumeration =>
    apply within_declaration
    · exact withinFields_of_eq_nil (forward_maybeDirectivesAnd forward_enumValues) fun _ => rfl
    · exact withinFields_of_eq_nil (forward_directivesAnd forward_enumValues) fun _ => rfl
  case inputObject =>
    apply within_declaration
    · exact withinFields_of_eq_nil (forward_maybeDirectivesAnd forward_inputFields) fun _ => rfl
    · exact withinFields_of_eq_nil (forward_directivesAnd forward_inputFields) fun _ => rfl

theorem within_item : Within source item fun found => ∀ declaration numbers,
    found = .type declaration numbers → declaration.body.IsWritten source := by
  refine .rule (.firstOf ?_)
  simp only [List.forall_mem_cons, List.not_mem_nil, false_implies, implies_true, and_true]
  refine ⟨?schema, ?type, ?directive⟩
  case schema => exact (Within.of_forward forward_schemaBlock).andThen fun _ _ => .done (by simp)
  case directive =>
    exact (Within.of_forward forward_directiveDeclaration).andThen fun _ _ => .done (by simp)
  case type =>
    refine within_typeDeclaration.andThen fun found held => .done ?_
    rintro _ _ ⟨⟩
    exact held

/-- All types of a document have the fields that the source writes for them. -/
theorem within_document : Within source document fun items =>
    ∀ declaration ∈ Document.types items, declaration.body.IsWritten source := by
  refine .rule (.seq forward_blank fun _ => within_item.several.bind fun items held => ?_)
  refine .seq forward_endOfText fun _ => .done fun declaration mem => ?_
  obtain ⟨item, listed, eq⟩ := List.mem_filterMap.mp mem
  cases item with
  | schema block => cases eq
  | type found numbers =>
    cases eq
    exact held _ listed _ _ rfl
  | directive numbers => cases eq

/-- The fields of a document are declared in its text with the spellings of their types. -/
theorem isWritten_of_parse {items : Document} (parsed : parse source = .ok items) :
    ∀ declaration ∈ items.types, declaration.body.IsWritten source := by
  obtain ⟨⟨rest, read⟩, -⟩ := parse_eq_ok_iff.mp parsed
  exact (within_document _ _ _ List.suffix_rfl read).1

end Source

/-! ### Fields of definitions -/

/-- The fields of a definition are those of its declaration. -/
theorem Describes.fields_eq {declaration : TypeDecl} {definition : Definition}
    (describes : Describes declaration definition) :
    definition.fields = declaration.body.fields.map FieldDecl.field := by
  cases describes with
  | scalar => rfl
  | enumeration => rfl
  | object same => exact same
  | interface same => exact same

/-- Declarations and the definitions they stand for have partners in each other. -/
theorem exists_describes {declarations : List TypeDecl} {definitions : List Definition}
    (described : List.Forall₂ Describes declarations definitions) :
    (∀ declaration ∈ declarations, ∃ definition ∈ definitions, Describes declaration definition) ∧
      ∀ definition ∈ definitions, ∃ declaration ∈ declarations,
        Describes declaration definition := by
  induction described with
  | nil => simp
  | cons describes _ ih =>
    simp only [List.forall_mem_cons, List.exists_mem_cons_iff]
    exact ⟨⟨.inl describes, fun other mem => .inr (ih.1 other mem)⟩,
      .inl describes, fun other mem => .inr (ih.2 other mem)⟩

/-- The type of a loaded field is a reference to a name, in which no mark stands directly
inside another. -/
theorem isWritable_of_load {source : Source} {schema : Schema}
    (loaded : load source = .ok schema) :
    ∀ definition ∈ schema.toList, ∀ field ∈ definition.fields, IsWritable field.type := by
  obtain ⟨items, parsed, defined⟩ := load_eq_ok_iff.mp loaded
  obtain ⟨definitions, described, whole⟩ := define_list_eq_ok_iff.mp defined
  rw [whole, List.forall_mem_append]
  constructor
  · -- The standard scalars have no fields.
    intro definition standard field own
    obtain ⟨scalar, -, rfl⟩ := List.mem_map.mp standard
    cases own
  · intro definition mem
    obtain ⟨declaration, listed, describes⟩ := (exists_describes described).2 definition mem
    rw [describes.fields_eq, List.forall_mem_map]
    exact fun declared own => (isWritten_of_parse parsed declaration listed declared own).1

/-! ### Definitions that are written and loaded -/

/-- A definition of its own, in any layout, is loaded as it is. -/
theorem load_definition_of_laidOut {definition : Definition} (printable : definition.IsPrintable)
    {lead text : List Char} {source : Source} (gap : IsGap lead)
    (laidOut : LaidOut definition.tokens text) (written : source.text.toList = lead ++ text) :
    ∃ schema, load source = .ok schema ∧ definition ∈ schema.toList := by
  have laidOut' : LaidOut ([definition].flatMap Definition.tokens) text := by
    simpa using laidOut
  obtain ⟨items, rest, read, declared⟩ :=
    document_of_laidOut (by simp) (by simpa using printable) gap laidOut'
  have described := types_of_declares declared
  have distinct : (typeNames (Document.types items)).Nodup := by
    rw [← names_of_describes described]
    exact List.nodup_singleton _
  obtain ⟨schema, defined, whole⟩ := exists_define_eq_ok described distinct
  refine ⟨schema, load_eq_ok_iff.mpr ⟨items, ?_, defined⟩, ?_⟩
  · rw [written]
    exact parse_eq_ok_iff.mpr ⟨⟨rest, read⟩, check_of_declares declared⟩
  · rw [whole]
    exact List.mem_append_right _ List.mem_cons_self

/-- Records are printable if their names are names and their types can be written. -/
theorem isPrintable_record {record : Record} (names : ∀ name ∈ record.ownNames, IsName name)
    (types : ∀ field ∈ record.fields.toList, IsWritable field.type) :
    ∀ definition ∈ [Definition.object record, .interface record], definition.IsPrintable := by
  simp only [List.forall_mem_cons, List.not_mem_nil, false_implies, implies_true, and_true]
  constructor
  · exact ⟨names, types, by simp [Definition.values]⟩
  · exact ⟨names, types, by simp [Definition.values]⟩

end SchemaTypings.Sdl
