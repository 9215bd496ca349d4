import SchemaTypings.Proofs.Loading.Joining.Grammar
import SchemaTypings.Proofs.Names

/-!
# Declarations on joined texts

A declaration announces itself by its keyword, behind a description or the word for
extensions. So of the parts of a document only one kind can begin at a place, whatever
follows, and no such beginning could be taken for a missing end of the part before it.
-/

namespace SchemaTypings.Sdl

open Text Reader

/-! ### Places in declarations -/

instance : Moves Body where
  moved count
    | .object fields interfaces => .object (moved count fields) interfaces
    | .interface fields interfaces => .interface (moved count fields) interfaces
    | body => body

instance : Moves TypeDecl :=
  ⟨fun count declaration =>
    ⟨moved count declaration.name, declaration.isExtension, moved count declaration.body⟩⟩

instance : Moves SchemaBlock :=
  ⟨fun count block =>
    ⟨block.left + count, block.isExtension, moved count block.numbers, moved count block.roots⟩⟩

instance : Moves Item where
  moved count
    | .schema block => .schema (moved count block)
    | .type declaration numbers => .type (moved count declaration) (moved count numbers)
    | .directive numbers => .directive (moved count numbers)

theorem moved_strings (count : Nat) (names : List String) : moved count names = names :=
  List.map_id names

section Members

variable {α : Type} [Moves α] {count : Nat}

/-- Members keep their order where they are moved. -/
theorem fst_moved (members : List (α × List Number)) :
    (moved count members).map Prod.fst = moved count (members.map Prod.fst) := by
  simp [moved, Function.comp_def]

theorem flatten_snd_moved (members : List (α × List Number)) :
    ((moved count members).map Prod.snd).flatten = moved count (members.map Prod.snd).flatten := by
  rw [← moved_flatten]
  simp [moved, Function.comp_def]

theorem getD_moved (members : Option (List α)) :
    (moved count members).getD [] = moved count (members.getD []) := by
  cases members <;> rfl

end Members

/-- The body of a record is moved with its fields. -/
theorem recordRest_moved {make : List FieldDecl → List String → Body} {count : Nat}
    (own : ∀ fields interfaces, make (moved count fields) interfaces =
      moved count (make fields interfaces)) (implemented : List String)
    (rest : List Number × Option (List (FieldDecl × List Number))) :
    recordRest make (moved count implemented) (moved count rest) =
      moved count (recordRest make implemented rest) := by
  obtain ⟨applied, members⟩ := rest
  refine Prod.ext ?_ ?_
  · change make (((moved count members).getD []).map Prod.fst) _ = _
    rw [getD_moved, fst_moved, moved_strings, own]
    rfl
  · change moved count applied ++ (((moved count members).getD []).map Prod.snd).flatten = _
    rw [getD_moved, flatten_snd_moved, moved_append]
    rfl

theorem enumerationRest_moved {count : Nat}
    (rest : List Number × Option (List (String × List Number))) :
    enumerationRest (moved count rest) = moved count (enumerationRest rest) := by
  obtain ⟨applied, values⟩ := rest
  refine Prod.ext ?_ ?_
  · change Body.enumeration (((moved count values).getD []).map Prod.fst) = _
    rw [getD_moved, fst_moved, moved_strings]
    rfl
  · change moved count applied ++ (((moved count values).getD []).map Prod.snd).flatten = _
    rw [getD_moved, flatten_snd_moved, moved_append]
    rfl

/-! ### Keywords -/

/-- Parts of names are plain, and end no line. -/
theorem isPlain_of_isNamePart {c : Char} (part : isNamePart c = true) : IsPlain c ∧ c ≠ '\n' := by
  refine ⟨⟨?_, ?_⟩, ?_⟩
  all_goals
    rintro rfl
    exact absurd part (by decide)

theorem IsName.isWord {word : String} (isName : IsName word) : IsWord word := by
  refine ⟨?_, fun c mem => isPlain_of_isNamePart (IsName.isNamePart isName c mem)⟩
  obtain ⟨first, rest, eq, -, -⟩ := isName
  rw [eq]
  exact List.cons_ne_nil _ _

theorem IsName.beginsWord {word : String} (isName : IsName word) {text : List Char}
    (begins : word.toList <+: text) : BeginsWord text := by
  obtain ⟨first, rest, eq, start, -⟩ := isName
  obtain ⟨behind, rfl⟩ := begins
  rw [eq]
  exact ⟨first, rest ++ behind, rfl, .inl start⟩

/-! ### Beginnings of declarations -/

/-- Behind a description or the word for extensions, if there is one, stands the word. -/
def Announces (word : String) (text : List Char) : Prop :=
  ∃ middle, (orElse extend description text).result = some ((), middle) ∧
    word.toList <+: middle

section Declarations

variable {behind : List Char} {follows : List Char → Prop} {word : String}

theorem begins_extend : Begins extend ("extend".toList <+: ·) := .rule (begins_literal "extend")

/-- So does what extends one. -/
theorem begins_extending {β : Type} {next : Unit → Reader β} :
    Begins (extend >>= fun _ => literal word >>= next) (Announces word) := by
  intro text b rest found
  rw [result_bind, Option.bind_eq_some_iff] at found
  obtain ⟨⟨⟨⟩, middle⟩, extended, found⟩ := found
  refine ⟨middle, ?_, (begins_literal word).bind _ _ _ found⟩
  rw [result_orElse, extended]
  rfl

/-- A description before a keyword is none where the word for extensions stands. -/
theorem begins_declaring_not_extend {β : Type} {next : Unit → Reader β}
    (apart : Apart word ["extend"]) :
    Begins (description >>= fun _ => literal word >>= next)
      fun text => ¬ "extend".toList <+: text := by
  rintro text b rest found ⟨rest', rfl⟩
  have none : (description ("extend".toList ++ rest')).result =
      some ((), "extend".toList ++ rest') := rfl
  rw [result_bind_of_some none] at found
  have begins := (begins_literal word).bind _ _ _ found
  exact apart.avoids begins "extend" (by simp) (List.prefix_append _ _)

/-- What declares a type announces its keyword. -/
theorem begins_declaring {β : Type} {next : Unit → Reader β}
    (apart : Apart word ["extend"]) :
    Begins (description >>= fun _ => literal word >>= next) (Announces word) := by
  intro text b rest found
  have fresh := begins_declaring_not_extend apart _ _ _ found
  have extended := begins_extend.rejects (fun _ not => not) text fresh
  rw [result_bind, Option.bind_eq_some_iff] at found
  obtain ⟨⟨⟨⟩, middle⟩, described, found⟩ := found
  refine ⟨middle, ?_, (begins_literal word).bind _ _ _ found⟩
  rw [result_orElse, extended, described]
  rfl

/-- A word that is announced is announced in the joined text. -/
theorem lasts_announces (isWord : IsWord word) : Lasts behind (Announces word) := by
  rintro text joinable ⟨middle, found, begins⟩
  have exact : Exact behind (orElse extend description) (orElse extend description) :=
    .orElse (.rule (exact_literal (by decide))) (.orElse exact_string (.done rfl))
  have forward : Forward (orElse extend description) := forward_extend.orElse forward_description
  obtain ⟨joinable', same⟩ :=
    Carries.of_exact_forward exact forward text joinable () middle found
  have nonempty : middle ≠ [] := by
    rintro rfl
    exact isWord.1 (List.prefix_nil.mp begins)
  exact ⟨joined behind middle, same nonempty, lasts_begun isWord.1 middle joinable' begins⟩

/-- Where a part is announced, no missing piece of the part before it begins. -/
theorem Announces.avoids {text : List Char} (announces : Announces word text)
    (apart : Apart word openers) : Avoids openers text := by
  obtain ⟨middle, found, begins⟩ := announces
  rw [result_orElse, Option.or_eq_some_iff] at found
  rcases found with extended | ⟨-, described⟩
  · have begins := begins_extend _ _ _ extended
    exact Apart.avoids (by decide) begins
  · rw [description, result_orElse, Option.or_eq_some_iff] at described
    rcases described with quoted | ⟨-, plain⟩
    · have begins := begins_string _ _ _ quoted
      exact Apart.avoids (by decide) begins
    · cases plain
      exact apart.avoids begins

/-- One of the words is announced. -/
def AnnouncesOne (words : List String) (text : List Char) : Prop :=
  ∃ word ∈ words, Announces word text

theorem lasts_announcesOne {words : List String} (isWord : ∀ word ∈ words, IsWord word) :
    Lasts behind (AnnouncesOne words) := by
  rintro text joinable ⟨word, mem, announces⟩
  exact ⟨word, mem, lasts_announces (isWord word mem) text joinable announces⟩

/-- Where one word is announced, no other one is. -/
theorem AnnouncesOne.not_announcesOne {words others : List String}
    (apart : ∀ word ∈ words, Apart word others) {text : List Char}
    (announces : AnnouncesOne words text) : ¬ AnnouncesOne others text := by
  rintro ⟨other, mem', middle', found', begins'⟩
  obtain ⟨word, mem, middle, found, begins⟩ := announces
  rw [found] at found'
  cases found'
  exact (apart word mem).avoids begins other mem' begins'

/-- A part of a document, which begins with one of the words. -/
structure IsPart {α : Type} [Moves α] (behind : List Char) (words : List String)
    (read : Reader α) : Prop where
  isWord : ∀ word ∈ words, IsWord word
  carries : Carries behind (Avoids openers) read read
  begins : Begins read (AnnouncesOne words)

namespace IsPart

variable {α β : Type} [Moves α] [Moves β] {read other : Reader α} {words others : List String}

theorem rule (part : IsPart behind words read) : IsPart behind words (rule read) :=
  ⟨part.isWord, part.carries.rule, part.begins.rule⟩

theorem andThen_done {f : α → β} (part : IsPart behind words read)
    (same : ∀ a, f (moved (behind.length + 1) a) = moved (behind.length + 1) (f a)) :
    IsPart behind words (andThen read fun a => done (f a)) := by
  refine ⟨part.isWord, part.carries.andThen (fun a => .done (same a)) fun _ => ?_,
    part.begins.andThen⟩
  exact .done fun _ avoids => avoids

/-- Parts that begin with different words. -/
theorem orElse (one : IsPart behind words read) (apart : ∀ word ∈ others, Apart word words)
    (two : IsPart behind others other) : IsPart behind (words ++ others) (orElse read other) := by
  refine ⟨List.forall_mem_append.mpr ⟨one.isWord, two.isWord⟩,
    one.carries.orElse_of_begins two.carries one.begins two.begins
      (lasts_announcesOne two.isWord) fun text => AnnouncesOne.not_announcesOne apart, ?_⟩
  refine .orElse (one.begins.mono ?_) (two.begins.mono ?_)
  · rintro text ⟨word, mem, announces⟩
    exact ⟨word, List.mem_append_left _ mem, announces⟩
  · rintro text ⟨word, mem, announces⟩
    exact ⟨word, List.mem_append_right _ mem, announces⟩

end IsPart

/-! ### Declarations of types -/

/-- A declaration begins in the joined text as in the first one. -/
theorem carries_declaring (isName : IsName word) :
    Carries behind follows (declaring word) (declaring word) := by
  refine carries_described ((begins_literal word).bind.mono fun _ => IsName.beginsWord isName) ?_
  exact .seq (carries_literal word (IsName.isWord isName)) fun _ => carries_name

/-- So does an extension. -/
theorem carries_extending (isName : IsName word) :
    Carries behind follows (extending word) (extending word) :=
  .seq (.rule (carries_literal "extend" (by decide))) fun _ =>
    .seq (carries_literal word (IsName.isWord isName)) fun _ => carries_name

/-- A declaration and its extension are parts behind one keyword. -/
theorem isPart_declaration {declared extended : Reader Rest}
    (isName : IsName word) (apart : Apart word ["extend"])
    (carries : Carries behind (Avoids openers) declared declared)
    (carries' : Carries behind (Avoids openers) extended extended) :
    IsPart behind [word] (declaration word declared extended) := by
  refine IsPart.rule ⟨List.forall_mem_singleton.mpr (IsName.isWord isName), ?_, ?_⟩
  · have one := @begins_declaring_not_extend word _ (fun _ => name) apart
    have two := @begins_extend
    refine Carries.orElse_of_begins ?_ ?_ one.bind two.bind.bind (lasts_begun (by decide)) ?_
    · refine .seq (carries_declaring isName) fun name => ?_
      exact carries.bind (fun rest => .done rfl) fun _ => .done fun _ avoids => avoids
    · refine .seq (carries_extending isName) fun name => ?_
      exact carries'.bind (fun rest => .done rfl) fun _ => .done fun _ avoids => avoids
    · exact fun text begins not => not begins
  · have announces {text : List Char} (announces : Announces word text) : AnnouncesOne [word] text :=
      ⟨word, List.mem_cons_self, announces⟩
    exact .orElse ((begins_declaring apart).bind.mono fun _ => announces)
      (begins_extending.bind.mono fun _ => announces)

section Records

variable {make : List FieldDecl → List String → Body}
  {read : Reader (List Number × Option (List (FieldDecl × List Number)))}

/-- Interfaces and then fields, however the fields are read. -/
theorem carries_recordRest
    (own : ∀ fields interfaces, make (moved (behind.length + 1) fields) interfaces =
      moved (behind.length + 1) (make fields interfaces))
    (carries : Carries behind (Avoids openers) read read)
    (precedes : Precedes read (Avoids openers) (Avoids ["&", "implements"])) :
    let record : Reader Rest := do
      let implemented ← orEmpty interfaces
      return recordRest make implemented (← read)
    Carries behind (Avoids openers) record record := by
  have given : Carries behind (Avoids ["&", "implements"]) interfaces interfaces :=
    carries_interfaces.mono fun _ avoids => avoids.mono (by decide)
  refine .bind (carries_orEmpty given begins_interfaces (by decide) (by decide))
    (fun implemented => ?_) fun _ => precedes.andThen_done
  refine carries.bind (fun rest => .done (recordRest_moved own implemented rest)) fun _ => ?_
  exact .done fun _ avoids => avoids

end Records

theorem carries_maybeFields :
    Carries behind (Avoids openers) (maybeDirectivesAnd fields) (maybeDirectivesAnd fields) :=
  carries_maybeDirectivesAnd carries_fields begins_fields opensBody_brace

theorem carries_directivesAndFields :
    Carries behind (Avoids openers) (directivesAnd fields) (directivesAnd fields) :=
  carries_directivesAnd carries_fields begins_fields opensBody_brace

/-- Directives and fields begin neither like interfaces nor like more of them. -/
theorem precedes_maybeFields :
    Precedes (maybeDirectivesAnd fields) (Avoids openers) (Avoids ["&", "implements"]) :=
  precedes_directives (by decide) fun _ =>
    .optional (begins_fields.mono fun _ => Apart.avoids (by decide)) fun _ =>
      .done_subset (by decide)

theorem precedes_directivesAndFields :
    Precedes (directivesAnd fields) (Avoids openers) (Avoids ["&", "implements"]) := by
  refine ((begins_directivesAnd begins_fields).mono ?_).precedes
  rintro text (begins | begins)
  · exact Apart.avoids (by decide) begins
  · exact Apart.avoids (by decide) begins

theorem isPart_scalarType : IsPart behind ["scalar"] scalarType := by
  refine isPart_declaration (by decide) (by decide) ?_ ?_
  · refine .bind carries_maybeDirectives (fun _ => .done rfl) fun _ => ?_
    exact .done_subset (by decide)
  · exact .bind carries_directives (fun _ => .done rfl) fun _ => .done_subset (by decide)

theorem isPart_interfaceType : IsPart behind ["interface"] interfaceType := by
  have own (fields : List FieldDecl) (interfaces : List String) :
      Body.interface (moved (behind.length + 1) fields) interfaces =
        moved (behind.length + 1) (.interface fields interfaces) := rfl
  refine isPart_declaration (by decide) (by decide) ?_ ?_
  · exact carries_recordRest own carries_maybeFields precedes_maybeFields
  · exact carries_recordRest own carries_directivesAndFields precedes_directivesAndFields

theorem isPart_objectType : IsPart behind ["type"] objectType := by
  have own (fields : List FieldDecl) (interfaces : List String) :
      Body.object (moved (behind.length + 1) fields) interfaces =
        moved (behind.length + 1) (.object fields interfaces) := rfl
  refine isPart_declaration (by decide) (by decide) ?_ (.orElse ?_ ?_ ?_)
  · exact carries_recordRest own carries_maybeFields precedes_maybeFields
  · exact carries_recordRest own carries_directivesAndFields precedes_directivesAndFields
  · exact .bind carries_interfaces (fun implemented => .done (by rw [moved_strings]; rfl))
      fun _ => .done_subset (by decide)
  · intro text joinable _ a rest found avoids
    rw [result_bind, Option.bind_eq_some_iff] at found
    obtain ⟨⟨implemented, left⟩, found, eq⟩ := found
    cases eq
    obtain ⟨joinable', -⟩ := carries_interfaces text joinable implemented _ found
    refine carries_interfaces.orEmpty_bind_eq_none joinable found ?_ fun _ => ?_
    · exact avoids.mono (by decide)
    refine (begins_directivesAnd begins_fields).bind.rejects ?_ _
      (lasts_avoids (List.Subset.refl _) _ joinable' avoids)
    rintro text avoids (begins | begins)
    · exact avoids "@" (by decide) begins
    · exact avoids "\x7b" (by decide) begins

theorem isPart_unionType : IsPart behind ["union"] unionType := by
  have members : Carries behind (Avoids openers) unionMembers unionMembers :=
    carries_unionMembers.mono fun _ avoids => avoids.mono (by decide)
  refine isPart_declaration (by decide) (by decide) ?_ ?_
  · exact .bind (carries_maybeDirectivesAnd members begins_unionMembers opensBody_equals)
      (fun _ => .done rfl) fun _ => .done fun _ avoids => avoids
  · exact .bind (carries_directivesAnd members begins_unionMembers opensBody_equals)
      (fun _ => .done rfl) fun _ => .done fun _ avoids => avoids

theorem isPart_enumType : IsPart behind ["enum"] enumType := by
  refine isPart_declaration (by decide) (by decide) ?_ ?_
  · exact .bind (carries_maybeDirectivesAnd carries_enumValues begins_enumValues opensBody_brace)
      (fun rest => .done (enumerationRest_moved rest)) fun _ => .done fun _ avoids => avoids
  · exact .bind (carries_directivesAnd carries_enumValues begins_enumValues opensBody_brace)
      (fun rest => .done (enumerationRest_moved rest)) fun _ => .done fun _ avoids => avoids

theorem isPart_inputObjectType : IsPart behind ["input"] inputObjectType := by
  have rest (applied : List Number) (fields : Option (List Number)) :
      ((.inputObject, moved (behind.length + 1) applied ++
        (moved (behind.length + 1) fields).getD []) : Rest) =
      moved (behind.length + 1) (.inputObject, applied ++ fields.getD []) := by
    rw [getD_moved, moved_append]
    rfl
  refine isPart_declaration (by decide) (by decide) ?_ ?_
  · exact .bind (carries_maybeDirectivesAnd carries_inputFields begins_inputFields opensBody_brace)
      (fun found => .done (rest found.1 found.2)) fun _ => .done fun _ avoids => avoids
  · exact .bind (carries_directivesAnd carries_inputFields begins_inputFields opensBody_brace)
      (fun found => .done (rest found.1 found.2)) fun _ => .done fun _ avoids => avoids

/-- A type of any kind is a part, behind one of six keywords. -/
theorem isPart_typeDeclaration :
    IsPart behind ["scalar", "type", "interface", "union", "enum", "input"] typeDeclaration :=
  .rule <| isPart_scalarType.orElse (by decide) <| isPart_objectType.orElse (by decide) <|
    isPart_interfaceType.orElse (by decide) <| isPart_unionType.orElse (by decide) <|
      isPart_enumType.orElse (by decide) isPart_inputObjectType

/-! ### Schema blocks and directive declarations -/

theorem isName_keyword (operation : Operation) : IsName operation.keyword := by
  cases operation <;> decide

/-- Keywords of operations are read in the joined text as in the first one. -/
theorem exact_operation : Exact behind operation operation := by
  refine .rule (.remaining fun left => .firstOf fun operation _ => ?_)
  exact .andThen_done (exact_literal (IsName.isWord (isName_keyword operation))) fun _ => rfl

theorem begins_operation : Begins operation BeginsWord := by
  refine .rule (.remaining fun left => .firstOf fun operation _ => .andThen ?_)
  exact (begins_literal _).mono fun _ => IsName.beginsWord (isName_keyword operation)

theorem carries_roots : Carries behind follows roots roots := by
  refine carries_members (f := id) encloses_braces (.rule ?_) (.rule begins_operation.bind)
    fun _ => rfl
  exact .seq (.of_exact exact_operation rfl) fun _ => .seq (carries_colon) fun _ =>
    .seq carries_name fun _ => .done rfl

theorem begins_roots : Begins roots ("\x7b".toList <+: ·) := (begins_literal "\x7b").bind

/-- A schema block is a part. -/
theorem isPart_schemaBlock : IsPart behind ["schema"] schemaBlock := by
  refine .rule ⟨by decide, .remaining (fun left => ?_) fun _ => rfl, .remaining fun left => ?_⟩
  · refine .orElse_of_begins ?_ ?_ (begins_literal "schema").bind begins_extend.bind
      (lasts_begun (by decide)) ?_
    · refine .seq (carries_literal "schema" (by decide)) fun _ => ?_
      refine .bind carries_maybeDirectives (fun numbers => ?_) fun _ => ?_
      · exact .seq carries_roots fun roots => .done rfl
      · exact (begins_roots.bind.mono fun _ => Apart.avoids (by decide)).precedes
    · refine .seq (.rule (carries_literal "extend" (by decide))) fun _ =>
        .seq (carries_literal "schema" (by decide)) fun _ => ?_
      refine .bind (carries_directivesAnd carries_roots begins_roots opensBody_brace)
        (fun rest => .done ?_) fun _ => ?_
      · exact congrArg (SchemaBlock.mk _ true _) (getD_moved rest.2)
      · exact .done fun _ avoids => avoids
    · rintro text ⟨rest, rfl⟩ ⟨rest', eq⟩
      cases eq
  · have announces {text : List Char} (announces : Announces "schema" text) :
        AnnouncesOne ["schema"] text := ⟨"schema", List.mem_cons_self, announces⟩
    refine .orElse ((begins_literal "schema").bind.mono ?_)
      (begins_extending.mono fun _ => announces)
    rintro text ⟨rest, rfl⟩
    exact announces ⟨"schema".toList ++ rest, rfl, List.prefix_append _ _⟩

theorem isName_directiveLocation : ∀ location ∈ directiveLocations, IsName location := by decide

theorem exact_directiveLocation : Exact behind directiveLocation directiveLocation :=
  .rule (.firstOf fun location mem =>
    exact_literal (IsName.isWord (isName_directiveLocation location mem)))

theorem begins_directiveLocation : Begins directiveLocation BeginsWord :=
  .rule (.firstOf fun location mem =>
    (begins_literal location).mono fun _ =>
      IsName.beginsWord (isName_directiveLocation location mem))

theorem carries_directiveLocations :
    let locations : Reader Unit := do
      let _ ← optional (literal "|")
      directiveLocation
      let _ ← many do
        literal "|"
        directiveLocation
    Carries behind (Avoids ["|"]) locations locations :=
  carries_separated (by decide) (by decide) (.of_exact exact_directiveLocation rfl)
    begins_directiveLocation     (fun _ word => word.avoids (by decide)) fun _ _ => rfl

/-- The declaration of a directive is a part. -/
theorem isPart_directiveDeclaration : IsPart behind ["directive"] directiveDeclaration := by
  refine .rule ⟨by decide, ?_, (begins_declaring (by decide)).mono fun text announces =>
    ⟨"directive", List.mem_cons_self, announces⟩⟩
  refine carries_described ((begins_literal "directive").bind.mono fun _ => ?_) ?_
  · exact IsName.beginsWord (by decide)
  refine .seq (carries_literal "directive" (by decide)) fun _ =>
    .seq (carries_literal "@" (by decide)) fun _ => .seq carries_name fun _ => ?_
  have given : Carries behind (Avoids ["("]) (orEmpty arguments) (orEmpty arguments) :=
    carries_orEmpty carries_arguments begins_arguments (by decide) (by decide)
  have begins_on {β : Type} {next : Unit → Reader β} :
      Begins (literal "on" >>= next) ("on".toList <+: ·) := (begins_literal "on").bind
  refine given.bind (fun numbers => ?_) fun numbers => ?_
  · refine .bind (.optional (carries_literal "repeatable" (by decide)) ?_ (lasts_begun (by decide)))
      (fun _ => ?_) fun _ => begins_on.precedes
    · refine (begins_literal "repeatable").rejects fun text begins begins' => ?_
      have apart : Apart "on" ["repeatable"] := by decide
      exact apart.avoids begins "repeatable" List.mem_cons_self begins'
    · refine .seq (carries_literal "on" (by decide)) fun _ => ?_
      exact .bind (.rule carries_directiveLocations) (fun _ => .done rfl) fun _ =>
        .done_subset (by decide)
  · exact .optional ((begins_literal "repeatable").mono fun _ => Apart.avoids (by decide)) fun _ =>
      (begins_on.mono fun _ => Apart.avoids (by decide)).precedes

/-! ### Documents -/

def itemWords : List String :=
  ["schema", "scalar", "type", "interface", "union", "enum", "input", "directive"]

/-- A document is made of such parts only. -/
theorem isPart_item : IsPart behind itemWords item := by
  have block : IsPart behind ["schema"]
      (andThen schemaBlock fun block => done (Item.schema block)) :=
    isPart_schemaBlock.andThen_done fun _ => rfl
  have type : IsPart behind ["scalar", "type", "interface", "union", "enum", "input"]
      (andThen typeDeclaration fun found => done (Item.type found.1 found.2)) :=
    isPart_typeDeclaration.andThen_done fun _ => rfl
  have directive : IsPart behind ["directive"]
      (andThen directiveDeclaration fun numbers => done (Item.directive numbers)) :=
    isPart_directiveDeclaration.andThen_done fun _ => rfl
  exact .rule (block.orElse (by decide) (type.orElse (by decide) directive))

theorem AnnouncesOne.avoids {text : List Char} (announces : AnnouncesOne itemWords text) :
    Avoids openers text := by
  obtain ⟨word, mem, announces⟩ := announces
  have apart : ∀ word ∈ itemWords, Apart word openers := by decide
  exact announces.avoids (apart word mem)

end Declarations

end SchemaTypings.Sdl
