import SchemaTypings.Proofs.Loading.Definitions
import SchemaTypings.Proofs.Names
import SchemaTypings.Proofs.Text.Reading

/-!
# Names in a loaded schema

A reader takes a name off a text only where one is written, so every name in a
document is a GraphQL name, whatever the text. Definitions take their names over from
the declarations they describe, and the standard scalars have GraphQL names too.
-/

namespace SchemaTypings.Sdl

open Text Reader

/-! ### Names of a declaration -/

/-- The names that a record lists as its interfaces and gives to its fields, and the
values of an enumeration. -/
def Body.ownNames : Body → List String
  | scalar => []
  | enumeration values => values
  | object fields interfaces => interfaces ++ fieldNames fields
  | interface fields interfaces => interfaces ++ fieldNames fields
  | union => []
  | inputObject => []

/-- The names of a declaration and of its members are GraphQL names. -/
def TypeDecl.HasNames (declaration : TypeDecl) : Prop :=
  IsName declaration.name.value ∧ ∀ name ∈ declaration.body.ownNames, IsName name

/-- A definition has the names of its declaration. -/
theorem Describes.ownNames_eq {declaration : TypeDecl} {definition : Definition}
    (describes : Describes declaration definition) :
    definition.ownNames = declaration.name.value :: declaration.body.ownNames := by
  have names {fields : NamedList Field} {declared : List FieldDecl}
      (same : fields.toList = declared.map FieldDecl.field) :
      fields.names = fieldNames declared := by
    rw [NamedList.names, same, List.map_map]
    rfl
  cases describes with
  | scalar => rfl
  | enumeration => rfl
  | object same => simp [Definition.ownNames, Record.ownNames, Body.ownNames, names same]
  | interface same => simp [Definition.ownNames, Record.ownNames, Body.ownNames, names same]

/-- Definitions have the names of the declarations they stand for. -/
theorem isName_of_describes {declarations : List TypeDecl} {definitions : List Definition}
    (described : List.Forall₂ Describes declarations definitions)
    (named : ∀ declaration ∈ declarations, declaration.HasNames) :
    ∀ definition ∈ definitions, ∀ name ∈ definition.ownNames, IsName name := by
  induction described with
  | nil => simp
  | cons describes _ ih =>
    obtain ⟨first, others⟩ := List.forall_mem_cons.mp named
    refine List.forall_mem_cons.mpr ⟨?_, ih others⟩
    rw [describes.ownNames_eq]
    exact List.forall_mem_cons.mpr first

/-! ### Names that are read -/

/-- What is read as a name is one. -/
theorem isName_of_takeName {text cs rest : List Char} (taken : takeName text = some (cs, rest)) :
    IsName (String.ofList cs) := by
  cases text with
  | nil => cases taken
  | cons c text =>
    rw [takeName] at taken
    split at taken
    · next start =>
      cases taken
      exact ⟨c, text.takeWhile isNamePart, String.toList_ofList, start,
        List.all_eq_true.mp List.all_takeWhile⟩
    · cases taken

/-- A token is what the function reads, whatever blanks follow. -/
theorem yields_lexeme {α : Type} {read : List Char → Option (α × List Char)} {holds : α → Prop}
    (takes : ∀ text value rest, read text = some (value, rest) → holds value) :
    Yields (lexeme read) holds := by
  intro text value rest found
  obtain ⟨⟨a, left⟩, taken, eq⟩ := Option.map_eq_some_iff.mp found
  cases eq
  exact takes _ _ _ taken

theorem yields_name : Yields name fun name => IsName name.value := by
  refine Yields.rule (yields_lexeme fun text value rest found => ?_)
  obtain ⟨⟨cs, left⟩, taken, eq⟩ := Option.map_eq_some_iff.mp found
  cases eq
  exact isName_of_takeName taken

/-- Values of enumerations are names. -/
theorem yields_enumValue : Yields enumValue IsName := by
  refine Yields.rule (yields_lexeme fun text value rest found => ?_)
  split at found
  · cases found
  · obtain ⟨⟨cs, left⟩, taken, eq⟩ := Option.map_eq_some_iff.mp found
    cases eq
    exact isName_of_takeName taken

/-! ### Names in each rule of the grammar -/

theorem yields_interfaces : Yields interfaces fun names => ∀ name ∈ names, IsName name := by
  refine Yields.rule (.seq fun _ => .seq fun _ => yields_name.bind fun first isName => ?_)
  refine (Yields.many (.seq fun _ => yields_name)).bind fun others isNames => .done ?_
  rw [List.forall_mem_map]
  exact List.forall_mem_cons.mpr ⟨isName, isNames⟩

theorem yields_orEmpty {α : Type} {read : Reader (List α)} {holds : α → Prop}
    (yields : Yields read fun values => ∀ a ∈ values, holds a) :
    Yields (orEmpty read) fun values => ∀ a ∈ values, holds a :=
  yields.orElse (.done (by simp))

/-- Fields are read with names. -/
theorem yields_field : Yields field fun member => IsName member.1.name.value := by
  refine Yields.rule (.seq fun _ => yields_name.bind fun name isName => ?_)
  exact .seq fun _ => .seq fun _ => .seq fun _ => .seq fun _ => .done isName

theorem yields_fields :
    Yields fields fun members => ∀ member ∈ members, IsName member.1.name.value :=
  .rule (.seq fun _ => yields_field.several.bind fun _ named => .seq fun _ => .done named)

theorem yields_enumValues : Yields enumValues fun values => ∀ value ∈ values, IsName value.1 := by
  refine Yields.rule (.seq fun _ => ?_)
  refine (Yields.several ?_).bind fun _ named => .seq fun _ => .done named
  exact .rule (.seq fun _ => yields_enumValue.bind fun _ isName => .seq fun _ => .done isName)

section Bodies

variable {α : Type} {body : Reader α} {holds : α → Prop}

theorem yields_maybeDirectivesAnd (yields : Yields body holds) :
    Yields (maybeDirectivesAnd body) fun rest => ∀ a ∈ rest.2, holds a :=
  .seq fun _ => yields.optional.bind fun _ held => .done held

theorem yields_directivesAnd (yields : Yields body holds) :
    Yields (directivesAnd body) fun rest => ∀ a ∈ rest.2, holds a := by
  refine .orElse (.seq fun _ => yields.bind fun _ held => .done ?_) (.seq fun _ => .done ?_)
  · rintro _ ⟨⟩
    exact held
  · simp

end Bodies

/-- What follows the name of a declaration gives and lists GraphQL names. -/
abbrev YieldsNames (read : Reader Rest) : Prop :=
  Yields read fun rest => ∀ name ∈ rest.1.ownNames, IsName name

/-- A declaration is read with names only, and so is an extension. -/
theorem yields_declaration {keyword : String} {declared extended : Reader Rest}
    (names : YieldsNames declared) (names' : YieldsNames extended) :
    Yields (declaration keyword declared extended) fun found => found.1.HasNames := by
  refine Yields.rule (.orElse ?_ ?_)
  · have start : Yields (declaring keyword) fun name => IsName name.value :=
      .seq fun _ => .seq fun _ => yields_name
    exact start.bind fun _ isName => names.bind fun _ isNames => .done ⟨isName, isNames⟩
  · have start : Yields (extending keyword) fun name => IsName name.value :=
      .seq fun _ => .seq fun _ => yields_name
    exact start.bind fun _ isName => names'.bind fun _ isNames => .done ⟨isName, isNames⟩

theorem forall_mem_getD_nil {α : Type} {found : Option (List α)} {p : α → Prop}
    (all : ∀ members ∈ found, ∀ a ∈ members, p a) : ∀ a ∈ found.getD [], p a := by
  cases found with
  | none => simp
  | some members => exact all members rfl

/-- A record's interfaces and fields, whichever kind of record it is. -/
theorem isName_recordRest {make : List FieldDecl → List String → Body} {implemented : List String}
    {rest : List Number × Option (List (FieldDecl × List Number))}
    (own : ∀ fields interfaces, (make fields interfaces).ownNames = interfaces ++ fieldNames fields)
    (isNames : ∀ name ∈ implemented, IsName name)
    (named : ∀ members ∈ rest.2, ∀ member ∈ members, IsName member.1.name.value) :
    ∀ name ∈ (recordRest make implemented rest).1.ownNames, IsName name := by
  rw [recordRest, own, List.forall_mem_append]
  refine ⟨isNames, ?_⟩
  rw [fieldNames, List.map_map, List.forall_mem_map]
  exact forall_mem_getD_nil named

theorem isName_enumerationRest {rest : List Number × Option (List (String × List Number))}
    (named : ∀ values ∈ rest.2, ∀ value ∈ values, IsName value.1) :
    ∀ name ∈ (enumerationRest rest).1.ownNames, IsName name :=
  List.forall_mem_map.mpr (forall_mem_getD_nil named)

/-! ### Names in each kind of declaration -/

/-- What gives no names may be read by any reader. -/
theorem yieldsNames_of_eq_nil {α : Type} {read : Reader α} {rest : α → Rest}
    (none : ∀ a, (rest a).1.ownNames = []) : YieldsNames (do return rest (← read)) :=
  .seq fun a => .done (by simp [none a])

/-- Interfaces and then fields, however the fields are read. -/
theorem yieldsNames_record {make : List FieldDecl → List String → Body}
    {read : Reader (List Number × Option (List (FieldDecl × List Number)))}
    (own : ∀ fields interfaces, (make fields interfaces).ownNames = interfaces ++ fieldNames fields)
    (yields : Yields read fun rest =>
      ∀ members ∈ rest.2, ∀ member ∈ members, IsName member.1.name.value) :
    YieldsNames (do
      let implemented ← orEmpty interfaces
      return recordRest make implemented (← read)) :=
  (yields_orEmpty yields_interfaces).bind fun _ isNames => yields.bind fun _ named =>
    .done (isName_recordRest own isNames named)

/-- Types of any kind are read with names only. -/
theorem yields_typeDeclaration : Yields typeDeclaration fun found => found.1.HasNames := by
  have fields := yields_maybeDirectivesAnd yields_fields
  have fields' := yields_directivesAnd yields_fields
  refine Yields.rule (.firstOf ?_)
  simp only [List.forall_mem_cons, List.not_mem_nil, false_implies, implies_true, and_true]
  refine ⟨?scalar, ?object, ?interface, ?union, ?enumeration, ?inputObject⟩
  case scalar =>
    apply yields_declaration
    · exact yieldsNames_of_eq_nil fun _ => rfl
    · exact yieldsNames_of_eq_nil fun _ => rfl
  case object =>
    apply yields_declaration
    · exact yieldsNames_record (fun _ _ => rfl) fields
    · refine .orElse (yieldsNames_record (fun _ _ => rfl) fields') ?_
      exact yields_interfaces.bind fun _ isNames => .done (by simpa [Body.ownNames, fieldNames])
  case interface =>
    apply yields_declaration
    · exact yieldsNames_record (fun _ _ => rfl) fields
    · exact yieldsNames_record (fun _ _ => rfl) fields'
  case union =>
    apply yields_declaration
    · exact yieldsNames_of_eq_nil fun _ => rfl
    · exact yieldsNames_of_eq_nil fun _ => rfl
  case enumeration =>
    apply yields_declaration
    · exact (yields_maybeDirectivesAnd yields_enumValues).bind fun _ named =>
        .done (isName_enumerationRest named)
    · exact (yields_directivesAnd yields_enumValues).bind fun _ named =>
        .done (isName_enumerationRest named)
  case inputObject =>
    apply yields_declaration
    · exact yieldsNames_of_eq_nil fun _ => rfl
    · exact yieldsNames_of_eq_nil fun _ => rfl

/-- Parts of a document that declare types have names only. -/
theorem yields_item : Yields item fun found => ∀ declaration numbers,
    found = .type declaration numbers → declaration.HasNames := by
  refine Yields.rule (.firstOf ?_)
  simp only [List.forall_mem_cons, List.not_mem_nil, false_implies, implies_true, and_true]
  refine ⟨.seq fun _ => .done (by simp), ?_, .seq fun _ => .done (by simp)⟩
  refine yields_typeDeclaration.andThen fun found named => .done ?_
  rintro _ _ ⟨⟩
  exact named

/-- Every type that a document declares has GraphQL names. -/
theorem yields_document :
    Yields document fun items => ∀ declaration ∈ Document.types items, declaration.HasNames := by
  refine Yields.rule (.seq fun _ => yields_item.several.bind fun items named => ?_)
  refine .seq fun _ => .done fun declaration mem => ?_
  obtain ⟨item, listed, eq⟩ := List.mem_filterMap.mp mem
  cases item with
  | schema block => cases eq
  | type found numbers =>
    cases eq
    exact named _ listed _ _ rfl
  | directive numbers => cases eq

/-! ### The main result -/

/-- Whatever text a schema is loaded from, its names are GraphQL names. -/
theorem hasNames_of_load {source : Source} {schema : Schema} (loaded : load source = .ok schema) :
    schema.HasNames := by
  obtain ⟨items, parsed, defined⟩ := load_eq_ok_iff.mp loaded
  obtain ⟨⟨rest, read⟩, -⟩ := parse_eq_ok_iff.mp parsed
  obtain ⟨definitions, described, whole⟩ := define_list_eq_ok_iff.mp defined
  have named := yields_document _ _ _ read
  rw [Schema.HasNames, whole, List.forall_mem_append]
  constructor
  · intro definition mem
    obtain ⟨standard, -, rfl⟩ := List.mem_map.mp mem
    exact List.forall_mem_singleton.mpr standard.isName_name
  · exact isName_of_describes described named

end SchemaTypings.Sdl
