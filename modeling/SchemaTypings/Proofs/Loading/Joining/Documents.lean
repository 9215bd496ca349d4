import SchemaTypings.Proofs.Loading.Definitions
import SchemaTypings.Proofs.Loading.Joining.Declarations
import SchemaTypings.Proofs.Loading.Places

/-!
# Joined documents

Two documents are joined to one that has the parts of the first and then those of the
second. Its declarations are defined together if no name is declared in both, and otherwise
the first name of the second document that the first one has too is refused.
-/

namespace SchemaTypings.Sdl

open Text Reader Traversal

/-! ### Reading joined documents -/

theorem forward_item : Forward item := fun text a rest found =>
  (adds_item text text a rest (.nil List.suffix_rfl) found).suffix

/-- Every part begins where no missing piece of another one could. -/
theorem begins_item : Begins item (Avoids openers) :=
  (@isPart_item []).begins.mono fun _ announces => announces.avoids

theorem result_item_nil : (item []).result = none := rfl

theorem avoids_nil : Avoids openers [] := by
  have nonempty : ∀ word ∈ openers, word.toList ≠ [] := by decide
  exact fun word mem begins => nonempty word mem (List.prefix_nil.mp begins)

/-- A document consists of its parts, and nothing stands behind the last one. -/
theorem result_document {text rest : List Char} {items : Document} :
    (document text).result = some (items, rest) ↔
      rest = [] ∧ (several item (skipBlank text)).result = some (items, []) := by
  have ends (left : List Char) :
      (endOfText left).result = if left = [] then some ((), []) else none := by
    cases left <;> rfl
  have blanks : (blank text).result = some ((), skipBlank text) := rfl
  rw [document, result_rule, result_bind_of_some blanks, result_bind]
  cases (several item (skipBlank text)).result with
  | none => simp
  | some found =>
    obtain ⟨items', left⟩ := found
    change ((endOfText >>= fun _ => Reader.done items') left).result = _ ↔ _
    rw [result_bind, ends]
    by_cases empty : left = []
    · simp [empty, eq_comm, and_comm]
    · simp [empty]

/-- Repetition reads the first part of a document as it reads the others. -/
theorem many_of_several {text : List Char} {items : List Item}
    (found : (several item text).result = some (items, [])) :
    (many item text).result = some (items, []) := by
  obtain ⟨first, middle, others, firstFound, later, rfl⟩ := result_several_eq_some_iff.mp found
  have le := forward_item _ _ _ firstFound
  by_cases shorter : middle.length < text.length
  · rw [result_many_of_some firstFound shorter, later]
    rfl
  · -- A part that takes no text would leave the whole text, which is not empty.
    obtain rfl := le.eq_of_length_le (Nat.le_of_not_lt shorter)
    rw [result_many_of_same firstFound shorter] at later
    cases later
    rw [result_item_nil] at firstFound
    cases firstFound

section Joined

variable {first second : List Char} {items others : List Item}

/-- Behind the parts of the first text stand those of the second one. -/
theorem many_joined {text : List Char} (joinable : Joinable second text)
    (found : (many item text).result = some (items, []))
    (behind : (many item (skipBlank second)).result = some (others, [])) :
    (many item (joined second text)).result =
      some (moved (second.length + 1) items ++ others, []) := by
  fun_induction Reader.many item text generalizing items with
  | case1 text stuck failed =>
    cases found
    exact behind
  | case2 text stuck item' middle taken shorter later =>
    rename_i ih
    obtain ⟨⟨as, last⟩, found', eq⟩ := Option.map_eq_some_iff.mp found
    cases eq
    obtain ⟨joinable', same⟩ := isPart_item.carries text joinable item' middle (by rw [taken])
    have last (text : List Char) (empty : text = []) : Avoids openers text := empty ▸ avoids_nil
    have avoids : Avoids openers middle := Precedes.many begins_item last middle as [] found' rfl
    rw [result_many_of_some (same avoids) (joinable.length_joined_lt joinable' shorter),
      ih joinable' found']
    rfl
  | case3 text stuck item' middle taken same =>
    cases found
    exact behind

/-- The parts of both texts are those of the joined text, the first ones moved. -/
theorem document_joined {rest rest' : List Char} (keeps : KeepsStrings first second)
    (read : (document first).result = some (items, rest))
    (read' : (document second).result = some (others, rest')) :
    (document (first ++ '\n' :: second)).result =
      some (moved (second.length + 1) items ++ others, []) := by
  obtain ⟨-, found⟩ := result_document.mp read
  obtain ⟨-, found'⟩ := result_document.mp read'
  obtain ⟨head, middle, tail, headFound, -, -⟩ := result_several_eq_some_iff.mp found'
  have joinable : Joinable second (skipBlank first) :=
    ⟨skipBlank_skipFrom false first, keeps.imp_left ClosesBlocks.skipBlank,
      begins_item _ _ _ headFound⟩
  obtain ⟨item', left, later, taken, more, rfl⟩ := result_several_eq_some_iff.mp found
  obtain ⟨joinable', same⟩ := isPart_item.carries _ joinable item' left taken
  have last (text : List Char) (empty : text = []) : Avoids openers text := empty ▸ avoids_nil
  refine result_document.mpr ⟨rfl, result_several_eq_some_iff.mpr
    ⟨moved (second.length + 1) item', joined second left,
      moved (second.length + 1) later ++ others, ?_,
      many_joined joinable' more (many_of_several found'), rfl⟩⟩
  rw [skipBlank, skipFrom_joined]
  exact same (Precedes.many begins_item last left later [] more rfl)

end Joined

/-! ### Checking joined documents -/

theorem forM_eq_ok_iff {α ε : Type} {check : α → Except ε Unit} {xs : List α} :
    xs.forM check = .ok () ↔ ∀ x ∈ xs, check x = .ok () := by
  induction xs with
  | nil => simp [pure, Except.pure]
  | cons x xs ih =>
    change (check x >>= fun _ => xs.forM check) = _ ↔ _
    rw [bind_eq_ok_iff, List.forall_mem_cons, ← ih]
    exact ⟨fun ⟨_, one, others⟩ => ⟨one, others⟩, fun ⟨one, others⟩ => ⟨(), one, others⟩⟩

/-- Numbers are accepted if none overflows. -/
theorem checkNumbers_eq_ok_iff {numbers : List Number} :
    checkNumbers numbers = .ok () ↔ ∀ number ∈ numbers, number.value.overflows = false := by
  unfold checkNumbers
  split
  · next number found =>
    refine iff_of_false (by simp) fun finite => ?_
    have overflows := List.find?_some found
    rw [finite number (List.mem_of_find?_eq_some found)] at overflows
    cases overflows
  · next none => simpa using none

/-- Where numbers stand makes no difference to whether they are accepted. -/
theorem checkNumbers_moved {count : Nat} {numbers : List Number} :
    checkNumbers (moved count numbers) = .ok () ↔ checkNumbers numbers = .ok () := by
  rw [checkNumbers_eq_ok_iff, checkNumbers_eq_ok_iff]
  exact List.forall_mem_map

/-- Neither does it for roots. -/
theorem checkRoots_moved {count : Nat} {seen : List Operation} {roots : List (Located Operation)} :
    checkRoots seen (moved count roots) = .ok () ↔ checkRoots seen roots = .ok () := by
  induction roots generalizing seen with
  | nil => rfl
  | cons root roots ih =>
    change (if seen.contains root.value then _ else _) = _ ↔ _
    rw [checkRoots]
    split
    · simp
    · exact ih

/-- A schema block is accepted for its numbers, its roots and a root for queries. -/
theorem checkBlock_eq_ok_iff {block : SchemaBlock} :
    block.check = .ok () ↔ checkNumbers block.numbers = .ok () ∧ checkRoots [] block.roots = .ok () ∧
      (block.isExtension || block.roots.any fun root => root.value == .query) = true := by
  unfold SchemaBlock.check
  cases checkNumbers block.numbers with
  | error fault => exact iff_of_false (fun eq => nomatch eq) fun eq => nomatch eq.1
  | ok _ =>
    cases checkRoots [] block.roots with
    | error fault => exact iff_of_false (fun eq => nomatch eq) fun eq => nomatch eq.2.1
    | ok _ =>
      simp only [bind, Except.bind]
      split
      · next given => simp [given]
      · next missing => simp [missing]

/-- Where things stand does not matter for what is checked. -/
theorem check_moved {count : Nat} {item : Item} :
    (moved count item).check = .ok () ↔ item.check = .ok () := by
  cases item with
  | schema block =>
    have roots : ((moved count block.roots).any fun root => root.value == .query) =
        block.roots.any fun root => root.value == .query := List.any_map
    change (moved count block).check = _ ↔ block.check = _
    rw [checkBlock_eq_ok_iff, checkBlock_eq_ok_iff]
    exact and_congr checkNumbers_moved (and_congr checkRoots_moved (by rw [← roots]; rfl))
  | type declaration numbers => exact checkNumbers_moved
  | directive numbers => exact checkNumbers_moved

/-- Texts that can be read alone can be read when they are joined. -/
theorem parse_joined {first second : List Char} {document document' : Document}
    (keeps : KeepsStrings first second) (parsed : parse first = .ok document)
    (parsed' : parse second = .ok document') :
    parse (first ++ '\n' :: second) = .ok (moved (second.length + 1) document ++ document') := by
  obtain ⟨⟨rest, read⟩, clean⟩ := parse_eq_ok_iff.mp parsed
  obtain ⟨⟨rest', read'⟩, clean'⟩ := parse_eq_ok_iff.mp parsed'
  refine parse_eq_ok_iff.mpr ⟨⟨[], document_joined keeps read read'⟩, ?_⟩
  rw [forM_eq_ok_iff] at clean clean' ⊢
  refine List.forall_mem_append.mpr ⟨List.forall_mem_map.mpr fun item mem => ?_, clean'⟩
  exact check_moved.mpr (clean item mem)

/-- The types of joined documents are those of both. -/
theorem types_joined {count : Nat} {document document' : Document} :
    Document.types (moved count document ++ document') =
      moved count document.types ++ document'.types := by
  rw [Document.types, List.filterMap_append]
  refine congrArg (· ++ _) ?_
  induction document with
  | nil => rfl
  | cons item document ih => cases item <;> simpa [Document.types, moved] using ih

/-! ### Defining joined declarations -/

theorem fields_moved {count : Nat} (declared : List FieldDecl) :
    (moved count declared).map FieldDecl.field = declared.map FieldDecl.field :=
  List.map_map ..

/-- A declaration describes the same wherever it stands. -/
theorem describes_moved {count : Nat} {declaration : TypeDecl} {definition : Definition}
    (describes : Describes declaration definition) :
    Describes (moved count declaration) definition := by
  cases describes with
  | scalar => exact .scalar
  | enumeration => exact .enumeration
  | object fields => exact .object (fields.trans (fields_moved _).symm)
  | interface fields => exact .interface (fields.trans (fields_moved _).symm)

theorem typeNames_moved {count : Nat} (declarations : List TypeDecl) :
    typeNames (moved count declarations) = typeNames declarations :=
  List.map_map ..

section Define

variable {first second : List TypeDecl} {schema schema' : Schema} {count : Nat}

/-- The names of joined declarations are those of both. -/
theorem typeNames_joined :
    typeNames (moved count first ++ second) = typeNames first ++ typeNames second := by
  rw [typeNames, List.map_append]
  exact congrArg (· ++ _) (typeNames_moved first)

/-- Declarations that share no name are defined together, the first ones before the
others. -/
theorem define_joined {definitions definitions' : List Definition}
    (described : List.Forall₂ Describes first definitions)
    (described' : List.Forall₂ Describes second definitions')
    (distinct : (typeNames first).Nodup) (distinct' : (typeNames second).Nodup)
    (apart : ∀ name ∈ typeNames second, name ∉ typeNames first) :
    ∃ whole, define (moved count first ++ second) = .ok whole ∧
      whole.toList =
        standardBeside (typeNames first ++ typeNames second) ++ (definitions ++ definitions') := by
  have all : List.Forall₂ Describes (moved count first ++ second) (definitions ++ definitions') :=
    List.rel_append (List.forall₂_map_left_iff.mpr (described.imp fun _ _ => describes_moved))
      described'
  rw [← @typeNames_joined first second count]
  refine exists_define_eq_ok all ?_
  rw [typeNames_joined, List.nodup_append]
  exact ⟨distinct, distinct', fun name mem other mem' eq => apart other mem' (eq ▸ mem)⟩

/-- If names are shared, the first of the second declarations with a shared name is
refused, as a repetition of the one that has the name among the first declarations. -/
theorem define_joined_eq_error {before after : List TypeDecl} {declared repeated : TypeDecl}
    (defined : define first = .ok schema)
    (defined' : define (before ++ repeated :: after) = .ok schema')
    (fresh : ∀ name ∈ typeNames before, name ∉ typeNames first) (mem : declared ∈ first)
    (same : declared.name.value = repeated.name.value) :
    define (moved count first ++ (before ++ repeated :: after)) =
      .error (.duplicateType (moved count declared.name) repeated.name) := by
  obtain ⟨definitions, described, -⟩ := define_list_eq_ok_iff.mp defined
  obtain ⟨definitions', described', -⟩ := define_list_eq_ok_iff.mp defined'
  have distinct := nodup_typeNames_of_define defined
  have distinct' := nodup_typeNames_of_define defined'
  rw [typeNames, List.map_append] at distinct'
  -- Up to the repeated name the declarations can be defined, so that nothing offends before.
  obtain ⟨part, partDefined, -⟩ : ∃ part, define (moved count first ++ before) = .ok part ∧ _ :=
    define_joined described (List.forall₂_take_append _ _ _ described'.flip).flip distinct
      (List.nodup_append.mp distinct').1 fresh
  have plain : repeated.isExtension = false := by
    obtain ⟨_, _, describes, -⟩ :=
      List.forall₂_cons_left_iff.mp (List.forall₂_drop_append _ _ _ described'.flip).flip
    exact describes.isExtension
  rw [define_eq_defineFrom] at partDefined ⊢
  refine (defineFrom_eq_error_iff (by simp [typeNames])).mpr
    ⟨moved count first ++ before, repeated, after, by simp, ?_, ?_⟩
  · exact cleanAfter_of_defineFrom (by simp [typeNames]) partDefined
  · rw [List.nil_append]
    refine @DeclarationFault.duplicate _ _ (moved count declared) plain ?_ same ?_
    · exact List.mem_append_left _ (List.mem_map_of_mem mem)
    · intro other mem' same'
      rcases List.mem_append.mp mem' with mem' | mem'
      · obtain ⟨other, listed, rfl⟩ := List.mem_map.mp mem'
        have names : other.name.value = declared.name.value := Eq.trans same' same.symm
        rw [List.inj_on_of_nodup_map distinct listed mem names]
      · refine absurd (List.mem_map_of_mem mem) (fresh declared.name.value ?_)
        exact same.trans same'.symm ▸ List.mem_map_of_mem mem'

end Define

end SchemaTypings.Sdl
