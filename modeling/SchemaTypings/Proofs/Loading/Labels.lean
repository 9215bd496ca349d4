import SchemaTypings.Proofs.Loading.Definitions
import SchemaTypings.Proofs.Loading.Places
import SchemaTypings.Proofs.Text.Offsets

/-!
# Labels and the names they mark

A fault that is found when declarations become definitions is about one or two names, and
each of its labels marks one of them. As long as every carriage return is part of a line
end, the bytes under a label are those of the name. In any other text the label may begin
too early, but always between two characters and never outside the text.
-/

namespace SchemaTypings.Sdl

open Text

/-! ### What a label marks -/

/-- The label is as long as the name. It begins no later than the name stands, between two
characters, and ends within the text. If every carriage return in the text is part of a
line end, the label begins where the name stands, and the bytes under it are the name's. -/
structure Marks (text : String) (label : Label) (name : Located String) : Prop where
  length : label.length = name.value.utf8ByteSize
  place : ∃ before after, text.toList = before ++ (name.value.toList ++ after) ∧
    name.left = (name.value.toList ++ after).length ∧
    (∃ front, front <+: before ∧ label.offset = byteSize front) ∧
    label.offset ≤ byteSize before ∧
    (ReturnsEndLines text.toList → label.offset = byteSize before)
  within : label.offset + label.length ≤ text.utf8ByteSize
  spells : ReturnsEndLines text.toList →
    text.toByteArray.extract label.offset (label.offset + label.length) = name.value.toByteArray

theorem IsName.head?_ne {name : String} (named : IsName name) (after : List Char) :
    (name.toList ++ after).head? ≠ some '\n' := by
  obtain ⟨first, rest, eq, start, -⟩ := named
  rw [eq]
  rintro ⟨⟩
  exact absurd start (by decide)

/-- A label on a name that stands in the text marks it. -/
theorem marks_of_stand {text : String} {rest : List Char} {names : List (Located String)}
    (stand : Stand rest text.toList names) {name : Located String} (mem : name ∈ names)
    (remark : String) : Marks text (nameLabel text.toList remark name) name := by
  obtain ⟨before, after, split, left, isName, -⟩ := stand.exists_split mem
  have upTo : textBefore text.toList name.left = before := by
    rw [textBefore, left, split, List.length_append, Nat.add_sub_cancel, List.take_left]
  obtain ⟨front, le, offset⟩ := byteOffset_afterReturns before (name.value.toList ++ after)
  rw [← split] at offset
  have early := byteSize_le_of_prefix le
  have exact (returns : ReturnsEndLines text.toList) :
      byteOffset text.toList (Position.afterReturns before) = byteSize before := by
    rw [split] at returns ⊢
    exact byteOffset_afterReturns_eq returns (IsName.head?_ne isName after)
  have size : text.utf8ByteSize =
      byteSize before + (name.value.utf8ByteSize + byteSize after) := by
    rw [← byteSize_toList, split, byteSize_append, byteSize_append, byteSize_toList]
  refine ⟨rfl, ⟨before, after, split, left, ?_⟩, ?_, ?_⟩
  all_goals simp only [nameLabel, tokenOffset, upTo]
  · exact ⟨⟨front, le, offset⟩, offset ▸ early, exact⟩
  · omega
  · intro returns
    rw [exact returns]
    exact extract_eq_of_split split

/-! ### The names of a fault -/

/-- The names that a fault is about, if it was found after reading the text, in the order
in which its labels show them. -/
def Fault.names : Fault → List (Located String)
  | unsupported _ name => [name]
  | duplicateType first second => [first, second]
  | duplicateField _ field => [field]
  | _ => []

/-- Labels of a fault mark its names if these stand in the text. -/
theorem Fault.forall₂_marks {text : String} {rest : List Char} {fault : Fault}
    (later : fault.names ≠ []) (stand : Stand rest text.toList fault.names) :
    List.Forall₂ (Marks text) (fault.labels text.toList) fault.names := by
  have marks {name : Located String} (mem : name ∈ fault.names) (remark : String) :=
    marks_of_stand stand mem remark
  cases fault with
  | unsupported kind name => exact .cons (marks List.mem_cons_self _) .nil
  | duplicateType first second =>
    exact .cons (marks List.mem_cons_self _)
      (.cons (marks (List.mem_cons_of_mem _ List.mem_cons_self) _) .nil)
  | duplicateField typeName field => exact .cons (marks List.mem_cons_self _) .nil
  | _ => exact absurd rfl later

/-- The names of a declaration's fault are among those of the declarations, in order. -/
theorem DeclarationFault.names_sublist {before after : List TypeDecl} {declaration : TypeDecl}
    {fault : Fault} (faulty : DeclarationFault before declaration fault) :
    fault.names.Sublist ((before ++ declaration :: after).flatMap TypeDecl.places) := by
  rw [List.flatMap_append, List.flatMap_cons]
  have own {name : Located String} (mem : name ∈ declaration.places) :
      [name].Sublist (declaration.places ++ after.flatMap TypeDecl.places) :=
    List.singleton_sublist.mpr (List.mem_append_left _ mem)
  cases faulty with
  | extension _ => exact (own List.mem_cons_self).trans (List.sublist_append_right _ _)
  | @duplicate first _ mem _ _ =>
    have earlier : [first.name].Sublist (before.flatMap TypeDecl.places) :=
      List.singleton_sublist.mpr (List.mem_flatMap.mpr ⟨first, mem, List.mem_cons_self⟩)
    exact earlier.append (own List.mem_cons_self)
  | unsupported _ _ _ => exact (own List.mem_cons_self).trans (List.sublist_append_right _ _)
  | @field field _ _ repeated =>
    obtain ⟨front, back, eq, -, -⟩ := repeated
    have mem : field.name ∈ declaration.places :=
      List.mem_cons_of_mem _ (List.mem_map_of_mem (eq ▸ by simp))
    exact (own mem).trans (List.sublist_append_right _ _)

/-! ### The main result -/

/-- If the result is a fault, the fault is about no name. -/
def Nameless {α : Type} (result : Except Fault α) : Prop :=
  ∀ fault, result = .error fault → fault.names = []

namespace Nameless

variable {α β : Type} {result : Except Fault α}

theorem ok (a : α) : Nameless (.ok a : Except Fault α) := fun _ eq => nomatch eq

theorem error {fault : Fault} (none : fault.names = []) : Nameless (.error fault : Except Fault α) := by
  rintro _ ⟨⟩
  exact none

/-- Where no step is about a name, neither is the whole. -/
theorem bind {next : α → Except Fault β} (first : Nameless result)
    (second : ∀ a, Nameless (next a)) : Nameless (result >>= next) := by
  intro fault failed
  cases outcome : result with
  | error other =>
    rw [outcome] at failed
    cases failed
    exact first _ outcome
  | ok a =>
    rw [outcome] at failed
    exact second a fault failed

end Nameless

/-- Numbers that overflow are no names. -/
theorem nameless_checkNumbers (numbers : List Number) : Nameless (checkNumbers numbers) := by
  unfold checkNumbers
  split
  · exact .error rfl
  · exact .ok _

/-- Neither are operations with two roots. -/
theorem nameless_checkRoots (seen : List Operation) (roots : List (Located Operation)) :
    Nameless (checkRoots seen roots) := by
  induction roots generalizing seen with
  | nil => exact .ok _
  | cons root roots ih =>
    rw [checkRoots]
    split
    · exact .error rfl
    · exact ih _

theorem nameless_check (item : Item) : Nameless item.check := by
  cases item with
  | schema block =>
    refine (nameless_checkNumbers _).bind fun _ => (nameless_checkRoots _ _).bind fun _ => ?_
    split
    · exact .ok _
    · exact .error rfl
  | type _ numbers => exact nameless_checkNumbers numbers
  | directive numbers => exact nameless_checkNumbers numbers

/-- So the checks of a document say nothing about names. -/
theorem nameless_checks (items : Document) : Nameless (items.forM Item.check) := by
  induction items with
  | nil => exact .ok _
  | cons item items ih => exact (nameless_check item).bind fun _ => ih

/-- What is found while a text is read is about no name. -/
theorem nameless_parse (text : List Char) : Nameless (parse text) := by
  unfold parse
  split
  · exact .error rfl
  · exact (nameless_checks _).bind fun _ => .ok _

/-- If loading fails for names of types or fields, the fault is the one of the first
declaration that offends. Its names stand in the text, one after the other, and each of its
labels marks one of them. -/
theorem labels_mark_names {source : Source} {fault : Fault}
    (failed : load source = .error (.refused source fault)) (later : fault.names ≠ []) :
    (∃ document before declaration after, parse source.text.toList = .ok document ∧
      document.types = before ++ declaration :: after ∧ CleanAfter [] before ∧
      DeclarationFault before declaration fault) ∧
    Stand [] source.text.toList fault.names ∧
    List.Forall₂ (Marks source.text) (LoadError.refused source fault).labels fault.names := by
  obtain parsed | ⟨document, parsed, defined⟩ := load_eq_error_iff.mp failed
  · exact absurd (nameless_parse _ _ parsed) later
  · rw [define_eq_defineFrom] at defined
    obtain ⟨before, declaration, after, split, clean, faulty⟩ :=
      (defineFrom_eq_error_iff (by simp [typeNames])).mp defined
    obtain ⟨⟨rest, read⟩, -⟩ := parse_eq_ok_iff.mp parsed
    have stand := (stand_of_document read).sublist (split ▸ faulty.names_sublist)
    exact ⟨⟨document, before, declaration, after, parsed, split, clean, faulty⟩,
      stand.whole, fault.forall₂_marks later stand⟩

/-- Behind a character of two bytes and a line end of two characters, both labels begin
where the names stand: at byte 11 and at byte 29. -/
theorem repeated_type_is_marked :
    let source : Source := ⟨"a", "# é\r\ntype A \x7bx: Int\x7d\r\n\ttype A \x7by: Int\x7d"⟩
    let fault : Fault := .duplicateType ⟨"A", 28⟩ ⟨"A", 10⟩
    load source = .error (.refused source fault) ∧ fault.names ≠ [] ∧
      (LoadError.refused source fault).labels =
        [⟨"first defined here", 11, 1⟩, ⟨"defined again here", 29, 1⟩] ∧
      Stand [] source.text.toList fault.names ∧
      List.Forall₂ (Marks source.text) (LoadError.refused source fault).labels fault.names := by
  intro source fault
  have parsed : parse source.text.toList = .ok
      [.type ⟨⟨"A", 28⟩, false, .object [⟨⟨"x", 25⟩, .named "Int"⟩] []⟩ [],
        .type ⟨⟨"A", 10⟩, false, .object [⟨⟨"y", 7⟩, .named "Int"⟩] []⟩ []] := by
    decide +kernel
  have failed : load source = .error (.refused source fault) :=
    load_eq_error_iff.mpr (.inr ⟨_, parsed, rfl⟩)
  have later : fault.names ≠ [] := by decide
  exact ⟨failed, later, by decide +kernel, (labels_mark_names failed later).2⟩

end SchemaTypings.Sdl
