import SchemaTypings.Proofs.Loading.Joining.Readers

/-!
# The grammar on joined texts

Every rule of the grammar can be carried over to a joined text. Only the parts of a rule
that may be missing at its end depend on what follows: `Avoids` lists the words that would
begin them.
-/

namespace SchemaTypings.Sdl

open Text Reader

/-! ### Words and marks -/

/-- A word that stands in one line and holds neither strings nor comments. -/
def IsWord (word : String) : Prop :=
  word.toList ≠ [] ∧ ∀ c ∈ word.toList, IsPlain c ∧ c ≠ '\n'

instance (word : String) : Decidable (IsWord word) :=
  @instDecidableAnd _ _ _ (List.decidableBAll _ _)

/-- The text begins with a name or a string. -/
def BeginsWord (text : List Char) : Prop :=
  ∃ c rest, text = c :: rest ∧ (isNameStart c = true ∨ c = '"')

/-- The word begins with a character that begins neither a name nor a string. -/
def IsMark (word : String) : Prop :=
  ∃ c ∈ word.toList.head?, isNameStart c = false ∧ c ≠ '"'

instance (word : String) : Decidable (IsMark word) :=
  decidable_of_iff (word.toList.head?.any (fun c => !isNameStart c && c != '"') = true)
    (by simp [IsMark, Option.any_eq_true])

/-- Neither the word nor one of the others begins the other one. -/
def Apart (word : String) (others : List String) : Prop :=
  ∀ other ∈ others, ¬ word.toList <+: other.toList ∧ ¬ other.toList <+: word.toList

instance (word : String) (others : List String) : Decidable (Apart word others) :=
  List.decidableBAll _ _

/-- A text that begins with a word begins with no word apart from it. -/
theorem Apart.avoids {word : String} {others : List String} (apart : Apart word others)
    {text : List Char} (begins : word.toList <+: text) : Avoids others text := by
  intro other mem begins'
  rcases List.prefix_or_prefix_of_prefix begins begins' with le | le
  · exact (apart other mem).1 le
  · exact (apart other mem).2 le

/-- A mark begins neither a name nor a string. -/
theorem IsMark.not_beginsWord {word : String} (mark : IsMark word) {text : List Char}
    (begins : word.toList <+: text) : ¬ BeginsWord text := by
  obtain ⟨c, head, notStart, notQuote⟩ := mark
  obtain ⟨behind, rfl⟩ := begins
  rintro ⟨d, rest, eq, first⟩
  cases letters : word.toList with
  | nil =>
    rw [letters] at head
    cases head
  | cons e letters' =>
    rw [letters] at head eq
    cases head
    cases eq
    rcases first with start | quote
    · rw [notStart] at start
      cases start
    · exact notQuote quote

/-- A name or a string begins with none of the marks. -/
theorem BeginsWord.avoids {words : List String} (marks : ∀ word ∈ words, IsMark word)
    {text : List Char} (begins : BeginsWord text) : Avoids words text :=
  fun word mem begins' => (marks word mem).not_beginsWord begins' begins

/-- Marks that begin the parts of a member that may be missing. -/
def memberOpeners : List String := ["(", "@", "="]

theorem isMark_of_mem_memberOpeners : ∀ word ∈ memberOpeners, IsMark word := by decide

/-- Words that can stand around members. -/
structure Encloses (opening closing : String) : Prop where
  isWord : IsWord opening
  isWord' : IsWord closing
  mark : IsMark closing
  apart : Apart closing memberOpeners

theorem encloses_parentheses : Encloses "(" ")" :=
  ⟨by decide, by decide, by decide, by decide⟩

theorem encloses_brackets : Encloses "[" "]" :=
  ⟨by decide, by decide, by decide, by decide⟩

theorem encloses_braces : Encloses "\x7b" "\x7d" :=
  ⟨by decide, by decide, by decide, by decide⟩

section Grammar

variable {behind : List Char} {follows : List Char → Prop}

/-! ### Tokens -/

/-- A word is read in the joined text as in the first one. -/
theorem exact_literal {word : String} (isWord : IsWord word) :
    Exact behind (literal word) (literal word) := by
  have single : '\n' ∉ word.toList := fun mem => (isWord.2 _ mem).2 rfl
  refine .lexeme (fun text _ => ?_) fun text a rest keeps found => ?_
  · rw [isPrefixOf?_joined single, Option.map_map, Option.map_map]
    rfl
  · obtain ⟨left, taken, eq⟩ := Option.map_eq_some_iff.mp found
    cases eq
    refine keeps.leaves ⟨word.toList, List.append_eq_of_isPrefixOf?_eq_some taken, fun c mem => ?_⟩
    exact (isWord.2 c mem).1

/-- What reads a word begins with it. -/
theorem begins_literal (word : String) : Begins (literal word) (word.toList <+: ·) := by
  refine .lexeme fun text a rest taken => ?_
  obtain ⟨left, taken, -⟩ := Option.map_eq_some_iff.mp taken
  exact ⟨left, List.append_eq_of_isPrefixOf?_eq_some taken⟩

theorem carries_literal (word : String) (isWord : IsWord word) :
    Carries behind follows (literal word) (literal word) := by
  intro text joinable a rest found
  refine Carries.of_exact (exact_literal isWord) ?_ text joinable a rest found
  by_contra some
  obtain ⟨⟨b, left⟩, found⟩ := Option.ne_none_iff_exists'.mp some
  exact isWord.1 (List.prefix_nil.mp (begins_literal word _ _ _ found))

theorem carries_colon : Carries behind follows (literal ":") (literal ":") :=
  carries_literal ":" (by decide)

/-- Names end in the joined text where they ended. -/
theorem exact_name : Exact behind name name := by
  refine .rule (.lexeme (fun text _ => ?_) fun text a rest keeps found => ?_)
  · rw [takeName_joined, Option.map_map, Option.map_map, List.length_append, List.length_cons]
    rfl
  · obtain ⟨⟨cs, left⟩, taken, eq⟩ := Option.map_eq_some_iff.mp found
    cases eq
    exact keeps.leaves (behind_of_takeName taken)

/-- So do values of enumerations. -/
theorem exact_enumValue : Exact behind enumValue enumValue := by
  refine .rule (.lexeme (fun text _ => ?_) fun text a rest keeps found => ?_)
  · have words : (constantWords.any fun word => word.isPrefixOf (text ++ '\n' :: behind)) =
        constantWords.any fun word => word.isPrefixOf text := by
      have single : ∀ word ∈ constantWords, '\n' ∉ word := by decide
      refine Bool.eq_iff_iff.mpr ?_
      simp only [List.any_eq_true, List.isPrefixOf_iff_prefix]
      exact exists_congr fun word => and_congr_right fun mem =>
        prefix_joined_iff (single word mem) text
    rw [words, takeName_joined]
    split
    · rfl
    · rw [Option.map_map, Option.map_map]
      rfl
  · split at found
    · cases found
    · obtain ⟨⟨cs, left⟩, taken, eq⟩ := Option.map_eq_some_iff.mp found
      cases eq
      exact keeps.leaves (behind_of_takeName taken)

/-- So do types. -/
theorem exact_typeRef : Exact behind typeRef typeRef :=
  .rule (.lexeme (fun text _ => takeType_joined text) fun _ _ _ keeps taken =>
    keeps.leaves (behind_of_takeType taken))

/-- So do numbers. -/
theorem exact_number : Exact behind number number := by
  refine .rule (.lexeme (fun text _ => ?_) fun text a rest keeps found => ?_)
  · rw [takeNumber_joined, Option.map_map, Option.map_map, List.length_append, List.length_cons]
    rfl
  · obtain ⟨⟨number, left⟩, taken, eq⟩ := Option.map_eq_some_iff.mp found
    cases eq
    exact keeps.leaves (behind_of_takeNumber taken)

/-- So do strings, as long as none is closed in the second text. -/
theorem exact_string : Exact behind string string := by
  refine .rule (.lexeme (fun text keeps => ?_) fun text a rest keeps found => ?_)
  · rw [dropString_joined keeps, Option.map_map, Option.map_map]
    rfl
  · obtain ⟨left, taken, eq⟩ := Option.map_eq_some_iff.mp found
    cases eq
    exact keeps.imp_left fun closes => closes.dropString taken

theorem carries_name : Carries behind follows name name := .of_exact exact_name rfl

theorem carries_typeRef : Carries behind follows typeRef typeRef := .of_exact exact_typeRef rfl

/-- What is read as a name begins with one. -/
theorem beginsWord_of_takeName {text cs rest : List Char}
    (taken : takeName text = some (cs, rest)) : BeginsWord text := by
  cases text with
  | nil => cases taken
  | cons c text =>
    rw [takeName] at taken
    split at taken
    · next start => exact ⟨c, text, rfl, .inl start⟩
    · cases taken

theorem begins_name : Begins name BeginsWord := by
  refine .rule (.lexeme fun text a rest taken => ?_)
  obtain ⟨⟨cs, left⟩, taken, -⟩ := Option.map_eq_some_iff.mp taken
  exact beginsWord_of_takeName taken

theorem begins_enumValue : Begins enumValue BeginsWord := by
  refine .rule (.lexeme fun text a rest taken => ?_)
  split at taken
  · cases taken
  · obtain ⟨⟨cs, left⟩, taken, -⟩ := Option.map_eq_some_iff.mp taken
    exact beginsWord_of_takeName taken

theorem begins_string : Begins string ("\"".toList <+: ·) := by
  refine .rule (.lexeme fun text a rest taken => ?_)
  obtain ⟨left, taken, -⟩ := Option.map_eq_some_iff.mp taken
  cases text with
  | nil => cases taken
  | cons c text =>
    by_cases quote : c = '"'
    · exact ⟨text, quote ▸ rfl⟩
    · rw [dropString_of_ne quote] at taken
      cases taken

theorem beginsWord_of_quote {text : List Char} (quote : "\"".toList <+: text) :
    BeginsWord text := by
  obtain ⟨rest, rfl⟩ := quote
  exact ⟨'"', rest, rfl, .inr rfl⟩

section Descriptions

variable {β : Type} {next next' : Reader β}

/-- A description is a string, which counts as the begin of a member. -/
theorem begins_described (begins : Begins next BeginsWord) :
    Begins (description >>= fun _ => next) BeginsWord :=
  .of_precedes (.orElse_done (begins_string.mono fun _ => beginsWord_of_quote) fun _ =>
    begins.precedes)

/-- A description is read with the member behind it. -/
theorem carries_described [Moves β] (begins : Begins next BeginsWord)
    (carries : Carries behind follows next next') :
    Carries behind follows (description >>= fun _ => next) (description >>= fun _ => next') := by
  have exact : Exact behind description description := exact_string.orElse (.done rfl)
  refine (Carries.of_exact_forward exact forward_description).bind (fun _ => carries) fun _ => ?_
  refine (begins.mono ?_).precedes
  rintro text ⟨c, rest, rfl, -⟩
  exact List.cons_ne_nil _ _

end Descriptions

/-! ### Constant values -/

/-- No value begins with the bracket that closes a list. -/
theorem begins_valueWithin (depth : Nat) :
    Begins (valueWithin depth) fun text => ¬ "]".toList <+: text := by
  rintro text a rest found ⟨behind, rfl⟩
  cases depth with
  | zero => cases found
  | succ depth => cases found

/-- Brackets around something show where it ends. -/
theorem carries_enclosed {α β : Type} [Moves α] [Moves β] {opening closing : String}
    {read read' : Reader α} {f f' : α → β}
    (encloses : Encloses opening closing)
    (carries : Carries behind (closing.toList <+: ·) read read')
    (same : ∀ a, f' (moved (behind.length + 1) a) = moved (behind.length + 1) (f a)) :
    Carries behind follows
      (do
        literal opening
        let a ← read
        literal closing
        return f a)
      (do
        literal opening
        let a ← read'
        literal closing
        return f' a) := by
  refine .seq (carries_literal opening encloses.isWord) fun _ => ?_
  refine carries.bind (fun a => ?_) fun a => ?_
  · exact .seq (carries_literal closing encloses.isWord') fun _ => .done (same a)
  · exact (begins_literal closing).bind.precedes

theorem moved_flatten {α : Type} [Moves α] (count : Nat) (lists : List (List α)) :
    (moved count lists).flatten = moved count lists.flatten :=
  (List.map_flatten ..).symm

/-- Values without numbers are read in the joined text as in the first one. -/
theorem exact_plainValue : Exact behind plainValue plainValue := by
  have boolean : Exact behind (orElse (literal "true") (literal "false"))
      (orElse (literal "true") (literal "false")) :=
    .orElse (exact_literal (by decide)) (exact_literal (by decide))
  have null : Exact behind (literal "null") (literal "null") := exact_literal (by decide)
  exact exact_string.orElse <| boolean.rule.orElse <| null.rule.orElse <|
    exact_enumValue.andThen_done fun _ => rfl

/-- Members stand between marks, so that the last one is followed by a mark that could
not begin another one. -/
theorem carries_members {α β : Type} [Moves α] [Moves β] {opening closing : String}
    {read : Reader α} {f : List α → β} (encloses : Encloses opening closing)
    (each : Carries behind (Avoids memberOpeners) read read) (begins : Begins read BeginsWord)
    (same : ∀ as, f (moved (behind.length + 1) as) = moved (behind.length + 1) (f as)) :
    let members : Reader β := do
      literal opening
      let as ← several read
      literal closing
      return f as
    Carries behind follows members members := by
  refine carries_enclosed encloses (.several each ?_ ?_ ?_ ?_) same
  · exact begins.mono fun text word => word.avoids isMark_of_mem_memberOpeners
  · exact fun text closes => encloses.apart.avoids closes
  · exact begins.rejects fun text closes => encloses.mark.not_beginsWord closes
  · exact lasts_begun encloses.isWord'.1

/-- Nesting in a joined text may be deeper than in the first text alone. -/
theorem carries_valueWithin {depth depth' : Nat} (le : depth ≤ depth') :
    Carries behind follows (valueWithin depth) (valueWithin depth') := by
  induction depth generalizing depth' follows with
  | zero =>
    intro text joinable a rest found
    cases found
  | succ depth ih =>
    cases depth' with
    | zero => exact absurd le (Nat.not_succ_le_zero _)
    | succ depth' =>
      have value {follows : List Char → Prop} :
          Carries behind follows (valueWithin depth) (valueWithin depth') :=
        ih (Nat.le_of_succ_le_succ le)
      have list : Carries behind follows (listOf (valueWithin depth))
          (listOf (valueWithin depth')) := by
        refine .rule (carries_enclosed encloses_brackets
          (.many value (fun _ _ _ _ => True.intro) ?_ ?_ ?_) ?_)
        · exact fun _ _ => True.intro
        · exact (begins_valueWithin depth').rejects fun text begins not => not begins
        · exact lasts_begun (by decide)
        · exact moved_flatten _
      have object : Carries behind follows (objectOf (valueWithin depth))
          (objectOf (valueWithin depth')) := by
        refine .rule (carries_enclosed encloses_braces (.many (.rule (.seq carries_name fun _ =>
          .seq (carries_colon) fun _ => value)) (fun _ _ _ _ => True.intro) ?_ ?_ ?_) ?_)
        · exact fun _ _ => True.intro
        · refine Begins.rejects (.rule begins_name.bind) fun text closes => ?_
          exact IsMark.not_beginsWord (by decide) closes
        · exact lasts_begun (by decide)
        · exact moved_flatten _
      refine .rule (.orElse_of_exact (.andThen_done exact_number fun _ => rfl) rfl rfl ?_)
      refine .orElse_of_exact (.andThen_done exact_plainValue fun _ => rfl) rfl rfl ?_
      refine list.orElse_of_begins object (.rule (begins_literal "[").bind)
        (.rule (begins_literal "\x7b").bind) (lasts_begun (by decide)) ?_
      rintro text ⟨rest, rfl⟩ ⟨rest', eq⟩
      cases eq

/-- A constant value is read in the joined text with its numbers moved. -/
theorem carries_constValue : Carries behind follows constValue constValue := by
  intro text joinable a rest found
  have nonempty : text ≠ [] := by
    rintro rfl
    cases found
  refine @carries_valueWithin behind follows _ _ ?_ text joinable a rest found
  rw [joinable.length_joined nonempty]
  omega

/-! ### Directives and arguments -/

/-- So are the arguments given to a directive. -/
theorem carries_directiveArguments :
    Carries behind follows directiveArguments directiveArguments := by
  refine .rule (carries_members encloses_parentheses ?_ ?_ (moved_flatten _))
  · exact .rule (.seq carries_name fun _ => .seq (carries_colon) fun _ => carries_constValue)
  · exact .rule begins_name.bind

theorem begins_directiveArguments : Begins directiveArguments ("(".toList <+: ·) :=
  .rule (begins_literal "(").bind

section Missing

variable {α : Type} {word : String} {words : List String}

/-- Fewer words are avoided too. -/
theorem Avoids.mono {words' : List String} {text : List Char} (avoids : Avoids words text)
    (le : words' ⊆ words) : Avoids words' text :=
  fun word mem => avoids word (le mem)

theorem Precedes.done_subset {words' : List String} {a : α} (le : words' ⊆ words) :
    Precedes (Reader.done a) (Avoids words) (Avoids words') :=
  Precedes.done fun _ avoids => avoids.mono le

/-- What begins with an opening word is missing where the word is. -/
theorem carries_orEmpty [Moves α] {read : Reader (List α)}
    (carries : Carries behind (Avoids words) read read)
    (begins : Begins read (word.toList <+: ·)) (mem : word ∈ words)
    (known : words ⊆ openers) :
    Carries behind (Avoids words) (orEmpty read) (orEmpty read) :=
  carries.orEmpty (begins.rejects fun _ avoids => avoids word mem) (lasts_avoids known)

/-- What may be missing is not found in the second text if its first word is avoided. -/
theorem carries_optional [Moves α] {read : Reader α}
    (carries : Carries behind (Avoids words) read read)
    (begins : Begins read (word.toList <+: ·)) (mem : word ∈ words)
    (known : words ⊆ openers) :
    Carries behind (Avoids words) (optional read) (optional read) :=
  carries.optional (begins.rejects fun _ avoids => avoids word mem) (lasts_avoids known)

/-- A list that may be missing begins with none of the words if neither it nor what follows
does. -/
theorem precedes_orEmpty {β : Type} {read : Reader (List α)} {next : List α → Reader β}
    (begins : Begins read (word.toList <+: ·)) (apart : Apart word words)
    (precedes : ∀ a, Precedes (next a) follows (Avoids words)) :
    Precedes (orEmpty read >>= next) follows (Avoids words) :=
  .orElse_done (begins.mono fun _ => apart.avoids) precedes

end Missing

abbrev appliedDirective : Reader (List Number) := rule do
  literal "@"
  let _ ← name
  orEmpty directiveArguments

theorem begins_appliedDirective : Begins appliedDirective ("@".toList <+: ·) :=
  .rule (begins_literal "@").bind

theorem begins_directives : Begins directives ("@".toList <+: ·) :=
  .rule (Begins.bind begins_appliedDirective.andThen)

/-- Directives end with the first text, where neither arguments nor more of them follow. -/
theorem carries_directives : Carries behind (Avoids ["(", "@"]) directives directives := by
  have applied : Carries behind (Avoids ["("]) appliedDirective appliedDirective :=
    .rule (.seq (carries_literal "@" (by decide)) fun _ => .seq carries_name fun _ =>
      carries_orEmpty carries_directiveArguments begins_directiveArguments (by decide) (by decide))
  refine .rule (.bind (.several applied ?_ ?_ ?_ (lasts_avoids (by decide)))
    (fun _ => .done (moved_flatten _ _)) fun _ => .done fun _ avoids => avoids)
  · exact begins_appliedDirective.mono fun text => Apart.avoids (by decide)
  · exact fun _ avoids => avoids.mono (by decide)
  · exact begins_appliedDirective.rejects fun _ avoids => avoids "@" (by decide)

theorem carries_maybeDirectives :
    Carries behind (Avoids ["(", "@"]) (orEmpty directives) (orEmpty directives) :=
  carries_orEmpty carries_directives begins_directives (by decide) (by decide)

theorem moved_append {α : Type} [Moves α] (count : Nat) (first second : List α) :
    moved count first ++ moved count second = moved count (first ++ second) :=
  (List.map_append ..).symm

theorem begins_inputValue : Begins inputValue BeginsWord :=
  .rule (begins_described begins_name.bind)

/-- An argument is read with its default value and its directives. -/
theorem carries_inputValue : Carries behind (Avoids memberOpeners) inputValue inputValue := by
  have default : Carries behind (Avoids ["="]) defaultValue defaultValue :=
    .rule (.seq (carries_literal "=" (by decide)) fun _ => carries_constValue)
  have begins : Begins defaultValue ("=".toList <+: ·) := .rule (begins_literal "=").bind
  refine .rule (carries_described begins_name.bind ?_)
  refine .seq carries_name fun _ => .seq (carries_colon) fun _ => .seq carries_typeRef fun _ => ?_
  refine .bind (carries_orEmpty default begins (by decide) (by decide)) (fun values => ?_)
    fun values => ?_
  · refine .bind carries_maybeDirectives (fun applied => ?_) fun _ => ?_
    · exact .done (moved_append _ values applied)
    · exact .done_subset (by decide)
  · exact precedes_orEmpty begins_directives (by decide) fun _ => .done_subset (by decide)

theorem begins_arguments : Begins arguments ("(".toList <+: ·) := .rule (begins_literal "(").bind

theorem carries_arguments : Carries behind follows arguments arguments :=
  .rule (carries_members encloses_parentheses carries_inputValue begins_inputValue
    (moved_flatten _))

/-! ### Members of types -/

instance : Moves FieldDecl := ⟨fun count field => ⟨moved count field.name, field.type⟩⟩

theorem begins_field : Begins field BeginsWord := .rule (begins_described begins_name.bind)

/-- A field is read with its arguments, type and directives. -/
theorem carries_field : Carries behind (Avoids memberOpeners) field field := by
  have given : Carries behind (Avoids ["("]) (orEmpty arguments) (orEmpty arguments) :=
    carries_orEmpty carries_arguments begins_arguments (by decide) (by decide)
  refine .rule (carries_described begins_name.bind (.seq carries_name fun name => ?_))
  refine given.bind (fun inArguments => ?_) fun _ => ?_
  · refine .seq (carries_colon) fun _ => .seq carries_typeRef fun type => ?_
    refine .bind carries_maybeDirectives (fun applied => ?_) fun _ => ?_
    · exact .done (congrArg _ (moved_append _ inArguments applied))
    · exact .done_subset (by decide)
  · exact ((begins_literal ":").bind.mono fun _ => Apart.avoids (by decide)).precedes

/-- The fields of a record are closed by a brace, so nothing behind them matters. -/
theorem carries_fields : Carries behind follows fields fields :=
  .rule (carries_members (f := id) encloses_braces carries_field begins_field fun _ => rfl)

theorem begins_fields : Begins fields ("\x7b".toList <+: ·) := .rule (begins_literal "\x7b").bind

/-- So are the values of an enumeration. -/
theorem carries_enumValues : Carries behind follows enumValues enumValues := by
  refine .rule (carries_members (f := id) encloses_braces (.rule ?_) ?_ fun _ => rfl)
  · refine carries_described begins_enumValue.bind ?_
    refine .seq (.of_exact exact_enumValue rfl) fun value => ?_
    refine .bind carries_maybeDirectives (fun _ => .done rfl) fun _ => ?_
    exact .done_subset (by decide)
  · exact .rule (begins_described begins_enumValue.bind)

theorem begins_enumValues : Begins enumValues ("\x7b".toList <+: ·) :=
  .rule (begins_literal "\x7b").bind

theorem carries_inputFields : Carries behind follows inputFields inputFields :=
  .rule (carries_members encloses_braces carries_inputValue begins_inputValue (moved_flatten _))

theorem begins_inputFields : Begins inputFields ("\x7b".toList <+: ·) :=
  .rule (begins_literal "\x7b").bind

/-- Values between marks, of which the first one may be left out. -/
theorem carries_separated {α β : Type} [Moves α] [Moves β] {separator : String} {read : Reader α}
    {f : α → List α → β} {start : List Char → Prop} (isWord : IsWord separator)
    (known : separator ∈ openers)
    (carries : ∀ {follows}, Carries behind follows read read) (begins : Begins read start)
    (apart : ∀ text, start text → Avoids [separator] text)
    (same : ∀ a as, f (moved (behind.length + 1) a) (moved (behind.length + 1) as) =
      moved (behind.length + 1) (f a as)) :
    let separated : Reader β := do
      let _ ← optional (literal separator)
      let first ← read
      let others ← many do
        literal separator
        read
      return f first others
    Carries behind (Avoids [separator]) separated separated := by
  have starts := begins_literal separator
  have subset : [separator] ⊆ openers := by simpa using known
  refine .bind (carries_optional (carries_literal separator isWord) starts (by simp) subset)
    (fun _ => .seq carries fun first => ?_) fun _ => (begins.bind.mono apart).precedes
  refine .bind (.many (.seq (carries_literal separator isWord) fun _ => carries) (fun _ _ _ _ =>
    True.intro) (fun _ _ => True.intro) ?_ (lasts_avoids subset)) (fun others => ?_) fun _ => ?_
  · exact starts.bind.rejects fun _ avoids => avoids separator (by simp)
  · exact .done (same first others)
  · exact .done fun _ avoids => avoids

/-- Interfaces go on as long as their separator follows. -/
theorem carries_interfaces : Carries behind (Avoids ["&"]) interfaces interfaces := by
  refine .rule (.seq (carries_literal "implements" (by decide)) fun _ => ?_)
  refine carries_separated (by decide) (by decide) carries_name begins_name
    (fun _ word => word.avoids (by decide)) ?_
  intro first others
  simp [moved, Function.comp_def]

theorem begins_interfaces : Begins interfaces ("implements".toList <+: ·) :=
  .rule (begins_literal "implements").bind

/-- So do the members of a union. -/
theorem carries_unionMembers : Carries behind (Avoids ["|"]) unionMembers unionMembers := by
  refine .rule (.seq (carries_literal "=" (by decide)) fun _ => ?_)
  exact carries_separated (by decide) (by decide) carries_name begins_name
    (fun _ word => word.avoids (by decide)) fun _ _ => rfl

theorem begins_unionMembers : Begins unionMembers ("=".toList <+: ·) :=
  .rule (begins_literal "=").bind

/-! ### Bodies -/

section Bodies

variable {α : Type} {word : String} {body : Reader α}

theorem precedes_directives {next : List Number → Reader α} {words : List String}
    (apart : Apart "@" words)
    (precedes : ∀ applied, Precedes (next applied) follows (Avoids words)) :
    Precedes (orEmpty directives >>= next) follows (Avoids words) :=
  precedes_orEmpty begins_directives apart precedes

theorem begins_directivesAnd (begins : Begins body (word.toList <+: ·)) :
    Begins (directivesAnd body) fun text => "@".toList <+: text ∨ word.toList <+: text := by
  refine .orElse (.of_precedes ?_) (begins_directives.bind.mono fun _ => .inl)
  refine .orElse_done (begins_directives.mono fun _ => .inl) fun _ => ?_
  exact (begins.bind.mono fun _ => .inr).precedes

variable [Moves α]

/-- A word that can begin what stands behind directives. -/
structure OpensBody (word : String) : Prop where
  mem : word ∈ openers
  apart : Apart word ["(", "@"]

theorem opensBody_brace : OpensBody "\x7b" := ⟨by decide, by decide⟩

theorem opensBody_equals : OpensBody "=" := ⟨by decide, by decide⟩

/-- Where nothing that may be missing begins, a body that may be missing is carried over. -/
theorem carries_maybeDirectivesAnd (carries : Carries behind (Avoids openers) body body)
    (begins : Begins body (word.toList <+: ·)) (opens : OpensBody word) :
    Carries behind (Avoids openers) (maybeDirectivesAnd body) (maybeDirectivesAnd body) := by
  have optional := carries_optional carries begins opens.mem (List.Subset.refl _)
  refine .bind carries_maybeDirectives (fun applied => ?_) fun _ => ?_
  · exact optional.bind (fun _ => .done rfl) fun _ => .done fun _ avoids => avoids
  · exact .optional (begins.mono fun _ => opens.apart.avoids) fun _ => .done_subset (by decide)

/-- Directives and a body of which one is there are read in the joined text as in the first
one. -/
theorem carries_directivesAnd (carries : Carries behind (Avoids openers) body body)
    (begins : Begins body (word.toList <+: ·)) (opens : OpensBody word) :
    Carries behind (Avoids openers) (directivesAnd body) (directivesAnd body) := by
  refine .orElse ?_ ?_ ?_
  · refine .bind carries_maybeDirectives (fun applied => ?_) fun _ => ?_
    · exact carries.bind (fun _ => .done rfl) fun _ => .done fun _ avoids => avoids
    · exact (begins.bind.mono fun _ => opens.apart.avoids).precedes
  · exact .bind carries_directives (fun _ => .done rfl) fun _ => .done_subset (by decide)
  · intro text joinable _ a rest found avoids
    rw [result_bind, Option.bind_eq_some_iff] at found
    obtain ⟨⟨applied, left⟩, found, eq⟩ := found
    cases eq
    obtain ⟨joinable', -⟩ := carries_directives text joinable applied _ found
    refine carries_directives.orEmpty_bind_eq_none joinable found ?_ fun _ => ?_
    · exact avoids.mono (by decide)
    · exact begins.bind.rejects (fun _ avoids => avoids word opens.mem) _
        (lasts_avoids (List.Subset.refl _) _ joinable' avoids)

end Bodies

end Grammar

end SchemaTypings.Sdl
