import Mathlib.Data.List.Forall2
import Mathlib.Data.List.Induction
import Mathlib.Data.List.Nodup
import SchemaTypings.Proofs.Traversal
import SchemaTypings.Sdl.Load

/-!
# Declarations and the definitions they describe

`Describes` relates a declaration to the definition that says the same, and
`DeclarationFault` gives the reason for which a declaration is refused behind those
before it. A declaration is accepted exactly with the definition it describes, and
refused exactly with its fault.
-/

namespace SchemaTypings.Sdl

open Text Traversal

/-! ### What a declaration describes -/

def FieldDecl.field (declared : FieldDecl) : Field := ⟨declared.name.value, declared.type⟩

def fieldNames (fields : List FieldDecl) : List String :=
  fields.map fun field => field.name.value

def typeNames (declarations : List TypeDecl) : List String :=
  declarations.map fun declaration => declaration.name.value

/-- The declaration is no extension and describes the definition, member by member and
in order. -/
inductive Describes : TypeDecl → Definition → Prop where
  | scalar {name : Located String} :
      Describes ⟨name, false, .scalar⟩ (.scalar ⟨name.value⟩)
  | enumeration {name : Located String} {values : List String} :
      Describes ⟨name, false, .enumeration values⟩ (.enumeration ⟨name.value, values⟩)
  | object {name : Located String} {declared : List FieldDecl} {interfaces : List String}
      {fields : NamedList Field} : fields.toList = declared.map FieldDecl.field →
      Describes ⟨name, false, .object declared interfaces⟩
        (.object ⟨name.value, fields, interfaces⟩)
  | interface {name : Located String} {declared : List FieldDecl} {interfaces : List String}
      {fields : NamedList Field} : fields.toList = declared.map FieldDecl.field →
      Describes ⟨name, false, .interface declared interfaces⟩
        (.interface ⟨name.value, fields, interfaces⟩)

/-- A definition has the name that its declaration gives. -/
theorem Describes.name_eq {declaration : TypeDecl} {definition : Definition}
    (describes : Describes declaration definition) :
    definition.name = declaration.name.value := by
  cases describes <;> rfl

theorem Describes.isExtension {declaration : TypeDecl} {definition : Definition}
    (describes : Describes declaration definition) : declaration.isExtension = false := by
  cases describes <;> rfl

/-! ### What is wrong with a declaration -/

/-- The kind of a body that has no counterpart among the definitions. -/
def Body.unsupported? : Body → Option Unsupported
  | .union => some .union
  | .inputObject => some .inputObject
  | _ => none

def Body.fields : Body → List FieldDecl
  | .object fields _ => fields
  | .interface fields _ => fields
  | _ => []

/-- The earliest field that repeats the name of one before it. -/
def FirstRepeated (fields : List FieldDecl) (field : FieldDecl) : Prop :=
  ∃ before after, fields = before ++ field :: after ∧ (fieldNames before).Nodup ∧
    field.name.value ∈ fieldNames before

/-- The declaration cannot be turned into a definition behind those before it. -/
def Offends (earlier : List TypeDecl) (declaration : TypeDecl) : Prop :=
  declaration.isExtension ∨ declaration.name.value ∈ typeNames earlier ∨
    declaration.body.unsupported?.isSome ∨ ¬ (fieldNames declaration.body.fields).Nodup

/-- The fault of a declaration behind those before it. -/
inductive DeclarationFault (earlier : List TypeDecl) (declaration : TypeDecl) : Fault → Prop where
  | extension : declaration.isExtension = true →
      DeclarationFault earlier declaration (.unsupported .typeExtension declaration.name)
  | duplicate {first : TypeDecl} : declaration.isExtension = false → first ∈ earlier →
      first.name.value = declaration.name.value →
      (∀ other ∈ earlier, other.name.value = declaration.name.value → other = first) →
      DeclarationFault earlier declaration (.duplicateType first.name declaration.name)
  | unsupported {kind : Unsupported} : declaration.isExtension = false →
      declaration.name.value ∉ typeNames earlier → declaration.body.unsupported? = some kind →
      DeclarationFault earlier declaration (.unsupported kind declaration.name)
  | field {field : FieldDecl} : declaration.isExtension = false →
      declaration.name.value ∉ typeNames earlier → FirstRepeated declaration.body.fields field →
      DeclarationFault earlier declaration (.duplicateField declaration.name.value field.name)

/-- No declaration of the list offends behind the `earlier` ones and those before it. -/
def CleanAfter (earlier declarations : List TypeDecl) : Prop :=
  ¬ ∃ before declaration after, declarations = before ++ declaration :: after ∧
    Offends (earlier ++ before) declaration

theorem cleanAfter_nil {earlier : List TypeDecl} : CleanAfter earlier [] :=
  not_exists_split_nil

/-- Declarations are clean one by one, each behind those before it. -/
theorem cleanAfter_cons {earlier rest : List TypeDecl} {declaration : TypeDecl} :
    CleanAfter earlier (declaration :: rest) ↔
      ¬ Offends earlier declaration ∧ CleanAfter (earlier ++ [declaration]) rest := by
  unfold CleanAfter
  rw [exists_split_cons_iff, not_or, List.append_nil]
  simp only [List.append_assoc, List.singleton_append]

/-! ### Fields -/

/-- Adds one declared field, as `defineFields` does. -/
def addField (typeName : String) (fields : NamedList Field) (field : FieldDecl) :
    Except Fault (NamedList Field) :=
  if fields.contains field.name.value then .error (.duplicateField typeName field.name)
  else .ok (fields.insert field.field)

section AddField

variable {typeName : String} {fields : NamedList Field} {field : FieldDecl}

/-- A name that is taken is refused. -/
theorem addField_of_mem (taken : field.name.value ∈ fields.names) :
    addField typeName fields field = .error (.duplicateField typeName field.name) := by
  rw [addField, if_pos (NamedList.contains_iff.mpr taken)]

/-- A new name is added behind the others. -/
theorem addField_of_not_mem (fresh : field.name.value ∉ fields.names) :
    addField typeName fields field = .ok (fields.insert field.field) := by
  rw [addField, if_neg (NamedList.contains_iff.not.mpr fresh)]

/-- Fields are added in order, behind those that are there. -/
theorem foldlM_addField_eq_ok_iff {declared : List FieldDecl} {result : NamedList Field} :
    declared.foldlM (addField typeName) fields = .ok result ↔
      result.toList = fields.toList ++ declared.map FieldDecl.field := by
  induction declared generalizing fields with
  | nil =>
    simp only [List.foldlM_nil, pure, Except.pure, List.map_nil, List.append_nil]
    rw [Except.ok.injEq, NamedList.ext_iff, eq_comm]
  | cons field rest ih =>
    rw [List.foldlM_cons]
    by_cases taken : field.name.value ∈ fields.names
    · rw [addField_of_mem taken]
      refine ⟨fun h => (by cases h), fun whole => ?_⟩
      have distinct := result.nodup_names
      rw [NamedList.names, whole, List.map_append, List.nodup_append] at distinct
      exact absurd rfl (distinct.2.2 _ taken _ (by simp [FieldDecl.field, Named.name]))
    · rw [addField_of_not_mem taken]
      refine ih.trans ?_
      rw [NamedList.toList_insert_of_not_mem taken]
      simp

/-- Adding fails at the earliest field whose name is taken. -/
theorem foldlM_addField_eq_error_iff {declared : List FieldDecl} {fault : Fault} :
    declared.foldlM (addField typeName) fields = .error fault ↔
      ∃ before field after, declared = before ++ field :: after ∧
        (fields.names ++ fieldNames before).Nodup ∧
        field.name.value ∈ fields.names ++ fieldNames before ∧
        fault = .duplicateField typeName field.name := by
  induction declared generalizing fields with
  | nil => simp [pure, Except.pure]
  | cons field rest ih =>
    rw [List.foldlM_cons]
    by_cases taken : field.name.value ∈ fields.names
    · rw [addField_of_mem taken]
      rw [exists_split_cons_iff]
      constructor
      · rintro ⟨⟩
        exact .inl ⟨by simpa [fieldNames] using fields.nodup_names,
          by simpa [fieldNames] using taken, rfl⟩
      · rintro (⟨-, -, rfl⟩ | ⟨before, other, after, -, distinct, -⟩)
        · rfl
        · rw [List.nodup_append] at distinct
          exact absurd rfl (distinct.2.2 _ taken _ List.mem_cons_self)
    · rw [addField_of_not_mem taken, exists_split_cons_iff]
      refine ih.trans ?_
      have names : (fields.insert field.field).names = fields.names ++ [field.name.value] := by
        rw [NamedList.names_insert]
        exact if_neg taken
      simp [names, fieldNames, taken]

end AddField

/-- Fields are defined as they are declared, or not at all. -/
theorem defineFields_eq_ok_iff {typeName : String} {declared : List FieldDecl}
    {fields : NamedList Field} :
    defineFields typeName declared = .ok fields ↔
      fields.toList = declared.map FieldDecl.field :=
  foldlM_addField_eq_ok_iff

/-- Fields are refused for the earliest one that repeats a name. -/
theorem defineFields_eq_error_iff {typeName : String} {declared : List FieldDecl}
    {fault : Fault} :
    defineFields typeName declared = .error fault ↔
      ∃ field, FirstRepeated declared field ∧ fault = .duplicateField typeName field.name := by
  refine foldlM_addField_eq_error_iff.trans ?_
  constructor
  · rintro ⟨before, field, after, split, distinct, repeated, rfl⟩
    exact ⟨field, ⟨before, after, split, distinct, repeated⟩, rfl⟩
  · rintro ⟨field, ⟨before, after, split, distinct, repeated⟩, rfl⟩
    exact ⟨before, field, after, split, distinct, repeated, rfl⟩

/-! ### Declarations -/

def seenNames (earlier : List TypeDecl) : List (Located String) :=
  (earlier.map TypeDecl.name).reverse

/-- Turns a declaration into a definition, as `defineFrom` does before it goes on. -/
def accept (seen : List (Located String)) (declaration : TypeDecl) : Except Fault Definition :=
  if declaration.isExtension then .error (.unsupported .typeExtension declaration.name)
  else
    match seen.find? fun earlier => earlier.value == declaration.name.value with
    | some first => .error (.duplicateType first declaration.name)
    | none => declaration.define

/-- Declarations are accepted one by one, each with the names before it. -/
theorem defineFrom_cons (seen : List (Located String)) (schema : Schema)
    (declaration : TypeDecl) (rest : List TypeDecl) :
    defineFrom seen schema (declaration :: rest) =
      (accept seen declaration).bind fun definition =>
        defineFrom (declaration.name :: seen) (schema.insert definition) rest := by
  rw [defineFrom, accept]
  split
  · rfl
  · cases seen.find? fun earlier => earlier.value == declaration.name.value <;> rfl

/-- The definition of an object or interface type is made from its fields. -/
theorem define_record {name : Located String} {declared : List FieldDecl}
    {interfaces : List String} :
    TypeDecl.define ⟨name, false, .object declared interfaces⟩ =
        (defineFields name.value declared).map (fun fields =>
          .object ⟨name.value, fields, interfaces⟩) ∧
      TypeDecl.define ⟨name, false, .interface declared interfaces⟩ =
        (defineFields name.value declared).map (fun fields =>
          .interface ⟨name.value, fields, interfaces⟩) :=
  ⟨bind_pure_eq_map _ _, bind_pure_eq_map _ _⟩

/-- A declaration defines what it describes. -/
theorem define_eq_ok_iff {declaration : TypeDecl} {definition : Definition}
    (plain : declaration.isExtension = false) :
    declaration.define = .ok definition ↔ Describes declaration definition := by
  obtain ⟨name, isExtension, body⟩ := declaration
  obtain rfl : isExtension = false := plain
  cases body with
  | scalar => exact ⟨fun h => (by cases h; exact .scalar), fun h => (by cases h; rfl)⟩
  | enumeration values =>
    exact ⟨fun h => (by cases h; exact .enumeration), fun h => (by cases h; rfl)⟩
  | object declared interfaces =>
    rw [define_record.1, map_eq_ok_iff]
    constructor
    · rintro ⟨fields, defined, rfl⟩
      exact .object (defineFields_eq_ok_iff.mp defined)
    · rintro ⟨⟩
      exact ⟨_, defineFields_eq_ok_iff.mpr ‹_›, rfl⟩
  | interface declared interfaces =>
    rw [define_record.2, map_eq_ok_iff]
    constructor
    · rintro ⟨fields, defined, rfl⟩
      exact .interface (defineFields_eq_ok_iff.mp defined)
    · rintro ⟨⟩
      exact ⟨_, defineFields_eq_ok_iff.mpr ‹_›, rfl⟩
  | union => exact ⟨fun h => (by cases h), fun h => (by cases h)⟩
  | inputObject => exact ⟨fun h => (by cases h), fun h => (by cases h)⟩

/-- A declaration is refused for its kind, or for the earliest field that repeats a name. -/
theorem define_eq_error_iff {declaration : TypeDecl} {fault : Fault}
    (plain : declaration.isExtension = false) :
    declaration.define = .error fault ↔
      (∃ kind, declaration.body.unsupported? = some kind ∧
        fault = .unsupported kind declaration.name) ∨
      ∃ field, FirstRepeated declaration.body.fields field ∧
        fault = .duplicateField declaration.name.value field.name := by
  obtain ⟨name, isExtension, body⟩ := declaration
  obtain rfl : isExtension = false := plain
  have none_repeated (field : FieldDecl) : ¬ FirstRepeated [] field := by
    rintro ⟨before, after, split, -⟩
    simp at split
  cases body with
  | object declared interfaces =>
    rw [define_record.1, map_eq_error_iff, defineFields_eq_error_iff]
    simp [Body.unsupported?, Body.fields]
  | interface declared interfaces =>
    rw [define_record.2, map_eq_error_iff, defineFields_eq_error_iff]
    simp [Body.unsupported?, Body.fields]
  | scalar => simp [TypeDecl.define, Body.unsupported?, Body.fields, none_repeated]
  | enumeration values => simp [TypeDecl.define, Body.unsupported?, Body.fields, none_repeated]
  | union => simp [TypeDecl.define, Body.unsupported?, Body.fields, none_repeated, eq_comm]
  | inputObject => simp [TypeDecl.define, Body.unsupported?, Body.fields, none_repeated, eq_comm]

/-- A list with a repeated name has an earliest field that repeats one. -/
theorem exists_firstRepeated_iff {fields : List FieldDecl} :
    (∃ field, FirstRepeated fields field) ↔ ¬ (fieldNames fields).Nodup := by
  constructor
  · rintro ⟨field, before, after, rfl, -, repeated⟩ distinct
    rw [fieldNames, List.map_append, List.nodup_append] at distinct
    exact distinct.2.2 _ repeated _ (by simp) rfl
  · intro repeated
    induction fields using List.reverseRecOn with
    | nil => exact absurd List.nodup_nil repeated
    | append_singleton before field ih =>
      by_cases distinct : (fieldNames before).Nodup
      · refine ⟨field, before, [], rfl, distinct, ?_⟩
        by_contra fresh
        refine repeated ?_
        rw [fieldNames, List.map_append, List.nodup_append]
        refine ⟨distinct, by simp, ?_⟩
        rintro name mem _ last rfl
        rw [List.map_singleton, List.mem_singleton] at last
        exact fresh (last ▸ mem)
      · obtain ⟨found, front, back, rfl, rest⟩ := ih distinct
        exact ⟨found, front, back ++ [field], by simp, rest⟩

section Admit

variable {earlier : List TypeDecl} {declaration : TypeDecl}

theorem find?_seenNames_eq_none_iff {name : String} :
    (seenNames earlier).find? (fun seen => seen.value == name) = none ↔
      name ∉ typeNames earlier := by
  simp [seenNames, typeNames, List.find?_eq_none]

/-- Behind declarations of different names, the declaration that has a name is found. -/
theorem find?_seenNames_eq_some_iff {name : String} {found : Located String}
    (distinct : (typeNames earlier).Nodup) :
    (seenNames earlier).find? (fun seen => seen.value == name) = some found ↔
      ∃ first ∈ earlier, first.name.value = name ∧ found = first.name := by
  constructor
  · intro search
    have mem := List.mem_of_find?_eq_some search
    have same := List.find?_some search
    simp only [seenNames, List.mem_reverse, List.mem_map] at mem
    obtain ⟨first, mem, rfl⟩ := mem
    exact ⟨first, mem, by simpa using same, rfl⟩
  · rintro ⟨first, mem, same, rfl⟩
    cases search : (seenNames earlier).find? fun seen => seen.value == name with
    | none =>
      refine absurd ?_ (find?_seenNames_eq_none_iff.mp search)
      exact List.mem_map.mpr ⟨first, mem, same⟩
    | some other =>
      have memOther := List.mem_of_find?_eq_some search
      have sameOther := List.find?_some search
      simp only [seenNames, List.mem_reverse, List.mem_map] at memOther
      obtain ⟨other, memOther, rfl⟩ := memOther
      have names : other.name.value = first.name.value := by simpa [same] using sameOther
      rw [List.inj_on_of_nodup_map distinct memOther mem names]

/-- A declaration with a fault offends. -/
theorem DeclarationFault.offends {fault : Fault}
    (faulty : DeclarationFault earlier declaration fault) : Offends earlier declaration := by
  rcases faulty with extension | ⟨-, mem, same, -⟩ | ⟨-, -, kind⟩ | ⟨-, -, repeated⟩
  · exact .inl extension
  · exact .inr (.inl (List.mem_map.mpr ⟨_, mem, same⟩))
  · exact .inr (.inr (.inl (by rw [kind]; rfl)))
  · exact .inr (.inr (.inr (exists_firstRepeated_iff.mp ⟨_, repeated⟩)))

/-- A declaration has a fault exactly if it offends. -/
theorem exists_declarationFault_iff (distinct : (typeNames earlier).Nodup) :
    (∃ fault, DeclarationFault earlier declaration fault) ↔ Offends earlier declaration := by
  constructor
  · rintro ⟨fault, faulty⟩
    exact faulty.offends
  · intro offends
    by_cases extension : declaration.isExtension
    · exact ⟨_, .extension extension⟩
    · have plain : declaration.isExtension = false := by simpa using extension
      by_cases taken : declaration.name.value ∈ typeNames earlier
      · obtain ⟨first, mem, same⟩ := List.mem_map.mp taken
        refine ⟨_, .duplicate plain mem same fun other memOther sameOther => ?_⟩
        exact List.inj_on_of_nodup_map distinct memOther mem (sameOther.trans same.symm)
      · rcases offends with extension' | taken' | kind | repeated
        · exact absurd extension' extension
        · exact absurd taken' taken
        · obtain ⟨kind, eq⟩ := Option.isSome_iff_exists.mp kind
          exact ⟨_, .unsupported plain taken eq⟩
        · obtain ⟨field, repeated⟩ := exists_firstRepeated_iff.mpr repeated
          exact ⟨_, .field plain taken repeated⟩

/-- A declaration is refused with its fault. -/
theorem accept_eq_error_iff {fault : Fault} (distinct : (typeNames earlier).Nodup) :
    accept (seenNames earlier) declaration = .error fault ↔
      DeclarationFault earlier declaration fault := by
  unfold accept
  by_cases extension : declaration.isExtension
  · rw [if_pos extension]
    constructor
    · rintro ⟨⟩
      exact .extension extension
    · rintro (_ | ⟨plain, _⟩ | ⟨plain, _⟩ | ⟨plain, _⟩)
      · rfl
      all_goals exact absurd extension (by simp [plain])
  · have plain : declaration.isExtension = false := by simpa using extension
    rw [if_neg extension]
    cases search : (seenNames earlier).find? fun seen =>
        seen.value == declaration.name.value with
    | some found =>
      obtain ⟨first, mem, same, rfl⟩ := (find?_seenNames_eq_some_iff distinct).mp search
      have taken : declaration.name.value ∈ typeNames earlier :=
        List.mem_map.mpr ⟨first, mem, same⟩
      constructor
      · rintro ⟨⟩
        refine .duplicate plain mem same fun other memOther sameOther => ?_
        exact List.inj_on_of_nodup_map distinct memOther mem (sameOther.trans same.symm)
      · rintro (extension' | ⟨-, memOther, sameOther, -⟩ | ⟨-, fresh, -⟩ | ⟨-, fresh, -⟩)
        · exact absurd extension' extension
        · rw [List.inj_on_of_nodup_map distinct memOther mem (sameOther.trans same.symm)]
        · exact absurd taken fresh
        · exact absurd taken fresh
    | none =>
      have fresh := find?_seenNames_eq_none_iff.mp search
      refine (define_eq_error_iff plain).trans ?_
      constructor
      · rintro (⟨kind, eq, rfl⟩ | ⟨field, repeated, rfl⟩)
        · exact .unsupported plain fresh eq
        · exact .field plain fresh repeated
      · rintro (extension' | ⟨-, mem, same, -⟩ | ⟨-, -, eq⟩ | ⟨-, -, repeated⟩)
        · exact absurd extension' extension
        · exact absurd (List.mem_map.mpr ⟨_, mem, same⟩) fresh
        · exact .inl ⟨_, eq, rfl⟩
        · exact .inr ⟨_, repeated, rfl⟩

/-- A declaration is accepted if its name is new and it describes a definition. -/
theorem accept_eq_ok_iff {definition : Definition} :
    accept (seenNames earlier) declaration = .ok definition ↔
      declaration.name.value ∉ typeNames earlier ∧ Describes declaration definition := by
  unfold accept
  by_cases extension : declaration.isExtension
  · rw [if_pos extension]
    refine ⟨fun h => (by cases h), fun ⟨_, describes⟩ => ?_⟩
    rw [describes.isExtension] at extension
    cases extension
  · have plain : declaration.isExtension = false := by simpa using extension
    rw [if_neg extension]
    cases search : (seenNames earlier).find? fun seen =>
        seen.value == declaration.name.value with
    | some found =>
      refine ⟨fun h => (by cases h), fun ⟨fresh, _⟩ => ?_⟩
      rw [find?_seenNames_eq_none_iff.mpr fresh] at search
      cases search
    | none =>
      have fresh := find?_seenNames_eq_none_iff.mp search
      exact (define_eq_ok_iff plain).trans ⟨fun h => ⟨fresh, h⟩, And.right⟩

/-- A declaration that can be turned into a definition does not offend. -/
theorem not_offends_of_accept {definition : Definition} (distinct : (typeNames earlier).Nodup)
    (accepted : accept (seenNames earlier) declaration = .ok definition) :
    ¬ Offends earlier declaration := by
  rw [← exists_declarationFault_iff distinct]
  rintro ⟨fault, faulty⟩
  rw [(accept_eq_error_iff distinct).mpr faulty] at accepted
  cases accepted

end Admit

end SchemaTypings.Sdl
