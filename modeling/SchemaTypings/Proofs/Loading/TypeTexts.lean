import SchemaTypings.Proofs.Loading.Names
import SchemaTypings.Proofs.Loading.Tokens

/-!
# Texts of types

`IsTypeText` states the rule of the grammar for types: a name or a type in brackets, and
then perhaps a mark. Such a text is the spelling of exactly one reference, in which no mark
stands directly inside another, and the reader of types takes it for this reference. Among
all references to names, those with repeated marks included, no two are spelled alike.
-/

namespace SchemaTypings.Sdl

/-! ### The rule for types -/

/-- The text is a type as a whole: a name or a type in brackets, with or without a mark. -/
inductive IsTypeText : List Char → Prop where
  | name {name : String} : IsName name → IsTypeText name.toList
  | markedName {name : String} : IsName name → IsTypeText (name.toList ++ ['!'])
  | list {item : List Char} : IsTypeText item → IsTypeText ('[' :: item ++ [']'])
  | markedList {item : List Char} : IsTypeText item → IsTypeText ('[' :: item ++ [']', '!'])

/-- A reference to a name, in which no mark stands directly inside another. -/
def IsWritable (ty : TypeRef) : Prop := IsName ty.baseName ∧ ty.MarksOnce

instance : DecidablePred IsWritable := fun _ => instDecidableAnd

theorem toList_spelling_list (item : TypeRef) :
    (TypeRef.list item).spelling.toList = '[' :: item.spelling.toList ++ [']'] := by
  simp [TypeRef.spelling]

theorem toList_spelling_nonNull (inner : TypeRef) :
    (TypeRef.nonNull inner).spelling.toList = inner.spelling.toList ++ ['!'] := by
  simp [TypeRef.spelling]

/-- Spellings of references that can be written are texts of types. -/
theorem isTypeText_spelling {ty : TypeRef} (writable : IsWritable ty) :
    IsTypeText ty.spelling.toList := by
  obtain ⟨named, marks⟩ := writable
  -- A marked reference is one case with what the mark stands on.
  have plain_and_marked : IsTypeText ty.spelling.toList ∧
      (ty.isNonNull = false → IsTypeText (ty.spelling.toList ++ ['!'])) := by
    induction ty with
    | named name => exact ⟨.name named, fun _ => .markedName named⟩
    | list item ih =>
      have inner := (ih named marks).1
      rw [toList_spelling_list]
      refine ⟨.list inner, fun _ => ?_⟩
      simpa using IsTypeText.markedList inner
    | nonNull inner ih =>
      rw [toList_spelling_nonNull]
      refine ⟨(ih named marks.2).2 marks.1, fun plain => ?_⟩
      cases plain
  exact plain_and_marked.1

/-- A text is a type exactly if it spells a reference that can be written. -/
theorem isTypeText_iff {text : List Char} :
    IsTypeText text ↔ ∃ ty, IsWritable ty ∧ ty.spelling.toList = text := by
  constructor
  · intro isText
    induction isText with
    | @name name isName => exact ⟨.named name, ⟨isName, trivial⟩, rfl⟩
    | @markedName name isName =>
      exact ⟨.nonNull (.named name), ⟨isName, rfl, trivial⟩, toList_spelling_nonNull _⟩
    | list _ ih =>
      obtain ⟨item, writable, rfl⟩ := ih
      exact ⟨.list item, writable, toList_spelling_list item⟩
    | markedList _ ih =>
      obtain ⟨item, writable, rfl⟩ := ih
      refine ⟨.nonNull (.list item), ⟨writable.1, rfl, writable.2⟩, ?_⟩
      rw [toList_spelling_nonNull, toList_spelling_list, List.append_assoc]
      rfl
  · rintro ⟨ty, writable, rfl⟩
    exact isTypeText_spelling writable

/-! ### Taking a type -/

/-- A mark behind a reference is taken with it. -/
theorem spelling_append_of_withMark {inner ty : TypeRef} {after rest : List Char}
    (plain : inner.isNonNull = false) (writable : IsWritable inner)
    (marked : withMark inner after = (ty, rest)) :
    ty.spelling.toList ++ rest = inner.spelling.toList ++ after ∧ IsWritable ty := by
  unfold withMark at marked
  split at marked
  · cases marked
    refine ⟨?_, writable.1, plain, writable.2⟩
    rw [toList_spelling_nonNull, List.append_assoc]
    rfl
  · cases marked
    exact ⟨rfl, writable⟩

/-- The reference that is taken is spelled by what is taken off the text. -/
theorem spelling_append_of_takeType {text rest : List Char} {ty : TypeRef}
    (taken : takeType text = some (ty, rest)) :
    ty.spelling.toList ++ rest = text ∧ IsWritable ty := by
  fun_induction takeType text generalizing ty rest with
  | case1 text item after found ih =>
    obtain ⟨inside, writable⟩ := ih found
    obtain ⟨spelled, writable'⟩ :=
      @spelling_append_of_withMark (.list item) _ _ _ rfl writable (Option.some.inj taken)
    refine ⟨?_, writable'⟩
    rw [spelled, ← inside, toList_spelling_list, List.append_assoc]
    rfl
  | case2 => cases taken
  | case3 text _ =>
    obtain ⟨⟨cs, left⟩, named, eq⟩ := Option.map_eq_some_iff.mp taken
    obtain ⟨spelled, writable⟩ := @spelling_append_of_withMark (.named (String.ofList cs)) _ _ _
      rfl ⟨isName_of_takeName named, trivial⟩ eq
    refine ⟨?_, writable⟩
    rw [spelled, TypeRef.spelling, String.toList_ofList]
    exact (append_of_takeName named).1

/-- The reader of types takes a whole text for a reference exactly if this can be written
and is spelled by the text. -/
theorem takeType_eq_some_nil_iff {text : List Char} {ty : TypeRef} :
    takeType text = some (ty, []) ↔ IsWritable ty ∧ ty.spelling.toList = text := by
  constructor
  · intro taken
    obtain ⟨spelled, writable⟩ := spelling_append_of_takeType taken
    exact ⟨writable, by simpa using spelled⟩
  · rintro ⟨writable, rfl⟩
    have taken := (@takeType_append ty [] writable.1 writable.2 fun apart =>
      not_continuesName_nil apart.2).2 (by simp)
    rwa [List.append_nil] at taken

/-! ### Spellings are told apart -/

/-- The spelling of a list ends in a bracket. -/
theorem getLast?_spelling_list (item : TypeRef) :
    (TypeRef.list item).spelling.toList.getLast? = some ']' := by
  rw [toList_spelling_list, List.getLast?_concat]

/-- That of a marked reference ends in the mark. -/
theorem getLast?_spelling_nonNull (inner : TypeRef) :
    (TypeRef.nonNull inner).spelling.toList.getLast? = some '!' := by
  rw [toList_spelling_nonNull, List.getLast?_concat]

/-- A name ends in a character of names, so no reference with wrappers is spelled by it. -/
theorem getLast?_name {name : String} {c : Char} (named : IsName name)
    (last : name.toList.getLast? = some c) : isNamePart c = true := by
  obtain ⟨d, found, part⟩ := endsInName named
  rw [Option.mem_def, last] at found
  cases found
  exact part

/-- References to names that are spelled alike are equal. -/
theorem spelling_inj {a b : TypeRef} (named : IsName a.baseName) (named' : IsName b.baseName)
    (same : a.spelling = b.spelling) : a = b := by
  induction a generalizing b with
  | named name =>
    have last : name.toList.getLast? = b.spelling.toList.getLast? := by
      rw [← same, TypeRef.spelling]
    cases b with
    | named other => exact congrArg TypeRef.named same
    | list item =>
      rw [getLast?_spelling_list] at last
      exact absurd (getLast?_name named last) (by decide)
    | nonNull inner =>
      rw [getLast?_spelling_nonNull] at last
      exact absurd (getLast?_name named last) (by decide)
  | list item ih =>
    have last : b.spelling.toList.getLast? = some ']' := by
      rw [← same, getLast?_spelling_list]
    cases b with
    | named other => exact absurd (getLast?_name named' last) (by decide)
    | list item' =>
      have inside : item.spelling = item'.spelling := by simpa [TypeRef.spelling] using same
      have equal : item = item' := ih named named' inside
      rw [equal]
    | nonNull inner =>
      rw [getLast?_spelling_nonNull] at last
      exact absurd last (by decide)
  | nonNull inner ih =>
    have last : b.spelling.toList.getLast? = some '!' := by
      rw [← same, getLast?_spelling_nonNull]
    cases b with
    | named other => exact absurd (getLast?_name named' last) (by decide)
    | list item =>
      rw [getLast?_spelling_list] at last
      exact absurd last (by decide)
    | nonNull inner' =>
      have inside : inner.spelling = inner'.spelling := by simpa [TypeRef.spelling] using same
      have equal : inner = inner' := ih named named' inside
      rw [equal]

end SchemaTypings.Sdl
