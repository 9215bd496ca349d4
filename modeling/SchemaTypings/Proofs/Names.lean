import SchemaTypings.Schema
import SchemaTypings.Sdl.Token

/-!
# Names

A GraphQL name is a letter or an underscore, followed by letters, digits and
underscores. Behind a name that nothing of the kind follows, `takeName` takes the
name and leaves the rest.
-/

namespace SchemaTypings

open Sdl

/-- A letter or an underscore, then letters, digits and underscores. -/
def IsName (name : String) : Prop :=
  ∃ first rest, name.toList = first :: rest ∧ isNameStart first = true ∧
    ∀ c ∈ rest, isNamePart c = true

instance (name : String) : Decidable (IsName name) :=
  decidable_of_iff
    ((name.toList.head?.any isNameStart && name.toList.tail.all isNamePart) = true) <| by
    unfold IsName
    cases name.toList with
    | nil => simp
    | cons first rest => simp [and_assoc]

/-- Standard scalars have GraphQL names. -/
theorem StandardScalar.isName_name (standard : StandardScalar) : IsName standard.name := by
  cases standard <;> decide

/-- The names that a record gives to itself and its fields, and those it lists. -/
def Record.ownNames (record : Record) : List String :=
  record.name :: record.interfaces ++ record.fields.names

theorem Record.interface_mem_ownNames {record : Record} {name : String}
    (mem : name ∈ record.interfaces) : name ∈ record.ownNames :=
  List.mem_append_left _ (List.mem_cons_of_mem _ mem)

theorem Record.name_mem_ownNames {record : Record} {field : Field}
    (mem : field ∈ record.fields.toList) : field.name ∈ record.ownNames :=
  List.mem_append_right _ (List.mem_map_of_mem (f := Named.name) mem)

/-- The names that a definition gives to itself and its members, and those of the
interfaces it lists. -/
def Definition.ownNames : Definition → List String
  | scalar s => [s.name]
  | enumeration e => e.name :: e.values
  | object r => r.ownNames
  | interface r => r.ownNames

theorem Definition.name_mem_ownNames (definition : Definition) :
    definition.name ∈ definition.ownNames := by
  cases definition <;> exact List.mem_cons_self

/-- All names that the definitions of the schema give or list are GraphQL names. -/
def Schema.HasNames (schema : Schema) : Prop :=
  ∀ definition ∈ schema.toList, ∀ name ∈ definition.ownNames, IsName name

instance (schema : Schema) : Decidable schema.HasNames :=
  inferInstanceAs
    (Decidable (∀ definition ∈ schema.toList, ∀ name ∈ definition.ownNames, IsName name))

/-! ### Characters of names -/

/-- The text begins with a character that can belong to a name. -/
def ContinuesName (text : List Char) : Prop := ∃ c ∈ text.head?, isNamePart c = true

instance (text : List Char) : Decidable (ContinuesName text) :=
  decidable_of_iff (text.head?.any isNamePart = true) (by simp [ContinuesName, Option.any_eq_true])

/-- What begins a name may stand inside one. -/
theorem isNamePart_of_isNameStart {c : Char} (start : isNameStart c = true) :
    isNamePart c = true := by
  simp only [isNameStart, isNamePart, Char.isAlphanum, Bool.or_eq_true] at start ⊢
  exact start.imp_left .inl

/-- A name is made of parts of names. -/
theorem IsName.isNamePart {name : String} (named : IsName name) :
    ∀ c ∈ name.toList, isNamePart c = true := by
  obtain ⟨first, rest, eq, start, parts⟩ := named
  rw [eq]
  intro c mem
  cases mem with
  | head => exact isNamePart_of_isNameStart start
  | tail _ mem => exact parts c mem

theorem not_continuesName_nil : ¬ ContinuesName [] := by
  rintro ⟨c, mem, -⟩
  cases mem

theorem continuesName_cons {c : Char} {text : List Char} :
    ContinuesName (c :: text) ↔ isNamePart c = true := by
  simp [ContinuesName]

/-! ### Taking a name -/

/-- A name ends where no part of a name follows. -/
theorem takeWhile_isNamePart_append {taken text : List Char}
    (parts : ∀ c ∈ taken, isNamePart c = true) (ends : ¬ ContinuesName text) :
    (taken ++ text).takeWhile isNamePart = taken ∧ (taken ++ text).dropWhile isNamePart = text := by
  rw [List.takeWhile_append_of_pos parts, List.dropWhile_append_of_pos parts]
  cases text with
  | nil => simp
  | cons c text =>
    rw [continuesName_cons] at ends
    simp [ends]

/-- A name is taken whole where nothing continues it. -/
theorem takeName_append {name : String} {text : List Char} (named : IsName name)
    (ends : ¬ ContinuesName text) : takeName (name.toList ++ text) = some (name.toList, text) := by
  obtain ⟨first, rest, eq, start, parts⟩ := named
  obtain ⟨taken, left⟩ := takeWhile_isNamePart_append parts ends
  rw [eq, List.cons_append, takeName, if_pos start, taken, left]

/-- There is no name where the first character cannot begin one. -/
theorem takeName_eq_none {c : Char} {text : List Char} (other : isNameStart c = false) :
    takeName (c :: text) = none := by
  rw [takeName, if_neg (by simp [other])]

/-- The name that is taken begins the text, and nothing behind it continues it. -/
theorem append_of_takeName {text cs rest : List Char} (taken : takeName text = some (cs, rest)) :
    cs ++ rest = text ∧ ¬ ContinuesName rest := by
  cases text with
  | nil => cases taken
  | cons c text =>
    rw [takeName] at taken
    split at taken
    · cases taken
      refine ⟨by simp [List.takeWhile_append_dropWhile], ?_⟩
      rintro ⟨d, head, continues⟩
      have stops := List.head?_dropWhile_not isNamePart text
      rw [Option.mem_def.mp head] at stops
      exact absurd continues (Bool.eq_false_iff.mp stops)
    · cases taken

end SchemaTypings
