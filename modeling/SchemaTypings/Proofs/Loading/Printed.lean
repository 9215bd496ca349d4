import SchemaTypings.Proofs.Loading.Definitions
import SchemaTypings.Proofs.Loading.Tokens

/-!
# Loading printed definitions

A text that lays out the tokens of definitions is read as one declaration for each of
them, whatever the layout, even where names are keywords. So loading it gives the
definitions back, behind the standard scalars that are missing among them.
-/

namespace SchemaTypings.Sdl

open Text Reader

/-! ### Tokens behind a part of a definition -/

/-- A token that goes on with a definition or begins the next one: a name or a brace. -/
inductive Token.Resumes : Token → Prop where
  | word {word : String} : IsName word → Resumes (.word word)
  | opening : Resumes (.mark .opening)
  | closing : Resumes (.mark .closing)

def keywords : List Token := ["scalar", "type", "interface", "enum"].map .word

/-- A definition may begin behind another one. -/
theorem resumes_of_mem_keywords {token : Token} (mem : token ∈ keywords) : token.Resumes := by
  obtain ⟨word, listed, rfl⟩ := List.mem_map.mp mem
  simp only [List.mem_cons, List.not_mem_nil, or_false] at listed
  rcases listed with rfl | rfl | rfl | rfl
  all_goals exact .word (by decide)

theorem resumes_of_mem_cons {token : Token} (mem : token ∈ Token.mark .opening :: keywords) :
    token.Resumes := by
  rcases List.mem_cons.mp mem with rfl | mem
  · exact .opening
  · exact resumes_of_mem_keywords mem

/-- Names and braces clash with every other sign. -/
theorem Token.Resumes.clash {token : Token} {c : Char} (resumes : token.Resumes)
    (sign : isNameStart c = false ∧ c ≠ Mark.opening.char ∧ c ≠ Mark.closing.char) :
    Clash [c] token.text := by
  rw [clash_singleton]
  cases resumes with
  | word named =>
    obtain ⟨first, rest, eq, start, -⟩ := named
    refine ⟨first, rest, eq, ?_⟩
    rintro rfl
    exact absurd start (by simp [sign.1])
  | opening => exact ⟨_, [], rfl, sign.2.1⟩
  | closing => exact ⟨_, [], rfl, sign.2.2⟩

section Resuming

variable {after : List Token} (resumes : Opens Token.Resumes after)
include resumes

/-- Printed definitions have no descriptions. -/
theorem reads_no_description : Reads description after (fun _ => True) after :=
  reads_description (resumes.imp fun _ h => h.clash (by decide))

/-- A literal of one other sign is rejected. -/
theorem rejects_sign {word : String} {c : Char} (spelled : word.toList = [c])
    (sign : isNameStart c = false ∧ c ≠ Mark.opening.char ∧ c ≠ Mark.closing.char) :
    Rejects (literal word) after := by
  apply rejects_literal
  · simp [spelled]
  · rw [spelled]
    exact resumes.imp fun _ h => h.clash sign

theorem rejects_ampersand : Rejects (literal "&") after :=
  rejects_sign resumes rfl (by decide)

/-- Printed definitions have no directives. -/
theorem rejects_directives : Rejects directives after :=
  .rule <| .bind <| .bind <| .rule <| .bind <| rejects_sign resumes rfl (by decide)

theorem reads_no_directives : Reads (orEmpty directives) after (· = []) after :=
  .orEmpty_nil (rejects_directives resumes)

end Resuming

/-! ### Members -/

/-- A printed field is read with its name and its type. -/
theorem reads_field {field : Field} {after : List Token} (name : IsName field.name)
    (type : IsName field.type.baseName ∧ field.type.MarksOnce)
    (resumes : Opens Token.Resumes after) :
    Reads Sdl.field (field.tokens ++ after) (fun found => found.1.field = field ∧ found.2 = [])
      after := by
  refine .rule <| .bind (reads_no_description (opens_cons.mpr (.word name))) fun _ _ => ?_
  refine .bind (reads_name name) fun found same => ?_
  refine .bind (.orEmpty_nil (.rule (.bind (rejects_literal (by decide)
    (opens_cons.mpr (by decide)))))) fun inArguments none => ?_
  refine .bind (reads_mark .colon rfl) fun _ _ => ?_
  refine .bind (reads_typeRef type.1 type.2 (resumes.imp fun _ h => h.clash (by decide)))
    fun ty sameType => ?_
  refine .bind (reads_no_directives resumes) fun applied none' => ?_
  subst sameType none none'
  exact .pure ⟨by rw [FieldDecl.field, same], rfl⟩

theorem rejects_field {after : List Token} : Rejects field (.mark .closing :: after) :=
  .rule <| .bind_right (reads_no_description (opens_cons.mpr .closing)) fun _ _ =>
    .bind rejects_name

/-- A body in braces is read where there is one, and is missed nowhere. -/
theorem reads_body {α β : Type} {read : Reader α} {tokens : β → List Token}
    {holds : β → α → Prop} {members : List β} {after : List Token}
    (each : ∀ x ∈ members, ∀ rest, Opens Token.Resumes rest →
      Reads read (tokens x ++ rest) (holds x) rest)
    (starts : ∀ x ∈ members, ∃ word rest, tokens x = .word word :: rest ∧ IsName word)
    (rejects : ∀ rest, Rejects read (.mark .closing :: rest))
    (follow : Opens (· ∈ keywords) after) :
    Reads
      (optional <| rule do
        literal "\x7b"
        let found ← several read
        literal "\x7d"
        return found)
      (braced (members.flatMap tokens) ++ after)
      (fun found => List.Forall₂ holds members (found.getD [])) after := by
  cases members with
  | nil =>
    refine .optional_none (.rule (.bind (rejects_literal (by decide)
      (follow.imp fun token mem => ?_)))) .nil
    revert token
    decide
  | cons x members =>
    have tokens_eq : braced ((x :: members).flatMap tokens) ++ after =
        .mark .opening :: ((x :: members).flatMap tokens ++ .mark .closing :: after) := by
      obtain ⟨word, rest, eq, -⟩ := starts x List.mem_cons_self
      simp [braced, eq]
    have found : Reads (several read)
        ((x :: members).flatMap tokens ++ .mark .closing :: after)
        (List.Forall₂ holds (x :: members)) (.mark .closing :: after) := by
      refine .several (Opens Token.Resumes) each (fun y mem => ?_) (opens_cons.mpr .closing)
        (rejects after)
      obtain ⟨word, rest, eq, named⟩ := starts y mem
      exact ⟨by simp [eq], fun rest => by simpa [eq, opens_cons] using .word named⟩
    rw [tokens_eq]
    refine .optional_some <| .rule ?_
    refine .bind (reads_mark .opening rfl) fun _ _ => ?_
    refine .bind found fun list held => ?_
    exact .bind (reads_mark .closing rfl) fun _ _ => .pure held

/-- Printed fields are read in order, and a record without fields is read as one. -/
theorem reads_fields {fields : List Field} {after : List Token}
    (names : ∀ field ∈ fields, IsName field.name)
    (types : ∀ field ∈ fields, IsName field.type.baseName ∧ field.type.MarksOnce)
    (follow : Opens (· ∈ keywords) after) :
    Reads (optional Sdl.fields) (braced (fields.flatMap Field.tokens) ++ after)
      (fun found => List.Forall₂ (fun field read => read.1.field = field ∧ read.2 = []) fields
        (found.getD [])) after :=
  reads_body (fun field mem _ resumes => reads_field (names field mem) (types field mem) resumes)
    (fun field mem => ⟨_, _, rfl, names field mem⟩) (fun _ => rejects_field) follow

/-- Printed values are read in order. -/
theorem reads_enumValues {values : List String} {after : List Token}
    (names : ∀ value ∈ values, IsName value)
    (plain : ∀ value ∈ values, ∀ word ∈ ["true", "false", "null"],
      ¬ word.toList <+: value.toList)
    (follow : Opens (· ∈ keywords) after) :
    Reads (optional enumValues) (braced (values.map .word) ++ after)
      (fun found => List.Forall₂ (fun value read => read.1 = value ∧ read.2 = []) values
        (found.getD [])) after := by
  rw [List.map_eq_flatMap]
  refine reads_body (fun value mem rest resumes => ?_)
    (fun value mem => ⟨_, _, rfl, names value mem⟩) (fun rest => ?_) follow
  · have named := names value mem
    refine .rule <| .bind (reads_no_description (opens_cons.mpr (.word named))) fun _ _ => ?_
    refine .bind (reads_enumValue named (plain value mem)) fun found same => ?_
    exact .bind (reads_no_directives resumes) fun applied none => .pure ⟨same, none⟩
  · exact .rule <| .bind_right (reads_no_description (opens_cons.mpr .closing)) fun _ _ =>
      .bind rejects_enumValue

/-- Interfaces are read up to the body or the next definition. -/
theorem reads_interfaces {interfaces : List String} {after : List Token}
    (names : ∀ interface ∈ interfaces, IsName interface)
    (follow : Opens (· ∈ Token.mark .opening :: keywords) after) :
    Reads (orEmpty Sdl.interfaces) (implementsTokens interfaces ++ after) (· = interfaces)
      after := by
  cases interfaces with
  | nil =>
    refine .orEmpty_nil (.rule (.bind (rejects_literal (by decide)
      (follow.imp fun token mem => ?_))))
    revert token
    decide
  | cons first others =>
    have named := names first List.mem_cons_self
    have noMark (rest : List Token) : Reads (optional (literal "&")) (.word first :: rest)
        (fun _ => True) (.word first :: rest) :=
      .optional_none (rejects_ampersand (opens_cons.mpr (.word named))) trivial
    have another : ∀ interface ∈ others, ∀ rest, True →
        Reads (do literal "&"; name) (.mark .ampersand :: .word interface :: rest)
          (fun found => found.value = interface) rest := by
      intro interface mem rest _
      refine .bind (reads_mark .ampersand rfl) fun _ _ => ?_
      exact reads_name (names interface (List.mem_cons_of_mem _ mem))
    have stop : Rejects (do literal "&"; name) after :=
      .bind (rejects_ampersand (follow.imp fun _ => resumes_of_mem_cons))
    refine .orElse_left <| .rule ?_
    refine .bind (reads_literal (.word "implements") rfl (by decide)) fun _ _ => ?_
    refine .bind (noMark _) fun _ _ => ?_
    refine .bind (reads_name named) fun found same => ?_
    refine .bind (.many (fun _ => True) another (fun _ _ => ⟨by simp, fun _ => trivial⟩) trivial
      stop) fun found' held => .pure ?_
    have rest : found'.map Located.value = others := by
      rw [← List.forall₂_eq_eq_eq, List.forall₂_map_left_iff]
      exact held.flip
    rw [List.map_cons, same, rest]

/-! ### Bodies -/

/-- Where every member has its value and no number, so has the list. -/
theorem map_fst_of_forall₂ {α β : Type} (view : α → β) {members : List β}
    {found : List (α × List Number)}
    (held : List.Forall₂ (fun x read => view read.1 = x ∧ read.2 = []) members found) :
    (found.map Prod.fst).map view = members ∧ (found.map Prod.snd).flatten = [] := by
  induction held with
  | nil => exact ⟨rfl, rfl⟩
  | cons held _ ih =>
    simp only [List.map_cons, List.flatten_cons, held.1, held.2, ih.1, ih.2]
    exact ⟨trivial, rfl⟩

theorem reads_maybeDirectivesAnd {α : Type} {read : Reader α} {before after : List Token}
    {holds : Option α → Prop} (resumes : Opens Token.Resumes before)
    (reads : Reads (optional read) before holds after) :
    Reads (maybeDirectivesAnd read) before (fun found => found.1 = [] ∧ holds found.2) after :=
  .bind (reads_no_directives resumes) fun _ none => .bind reads fun _ held => .pure ⟨none, held⟩

/-- A body begins with its brace, and where there is none, the next definition begins. -/
theorem opens_braced {members after : List Token} (follow : Opens (· ∈ keywords) after) :
    Opens (· ∈ Token.mark .opening :: keywords) (braced members ++ after) := by
  cases members with
  | nil => exact follow.imp fun _ mem => List.mem_cons_of_mem _ mem
  | cons member members => exact opens_cons.mpr List.mem_cons_self

/-- A printed record is read with its interfaces and fields. -/
theorem reads_record {record : Record} {make : List FieldDecl → List String → Body}
    {after : List Token} (names : ∀ name ∈ record.ownNames, IsName name)
    (types : ∀ field ∈ record.fields.toList, IsName field.type.baseName ∧ field.type.MarksOnce)
    (follow : Opens (· ∈ keywords) after) :
    Reads
      (do
        let implemented ← orEmpty Sdl.interfaces
        return recordRest make implemented (← maybeDirectivesAnd Sdl.fields))
      (implementsTokens record.interfaces ++
        (braced (record.fields.toList.flatMap Field.tokens) ++ after))
      (fun found => ∃ declared, found = (make declared record.interfaces, []) ∧
        declared.map FieldDecl.field = record.fields.toList) after := by
  have interfaceNames : ∀ interface ∈ record.interfaces, IsName interface := fun _ mem =>
    names _ (record.interface_mem_ownNames mem)
  have fieldNames : ∀ field ∈ record.fields.toList, IsName field.name := fun _ mem =>
    names _ (record.name_mem_ownNames mem)
  have body : Opens (· ∈ Token.mark .opening :: keywords)
      (braced (record.fields.toList.flatMap Field.tokens) ++ after) := opens_braced follow
  refine .bind (reads_interfaces interfaceNames body) fun implemented same => ?_
  refine .bind (reads_maybeDirectivesAnd (body.imp fun _ => resumes_of_mem_cons)
    (reads_fields fieldNames types follow)) fun found held => .pure ?_
  obtain ⟨fields, numbers⟩ := map_fst_of_forall₂ FieldDecl.field held.2
  refine ⟨(found.2.getD []).map Prod.fst, ?_, fields⟩
  simp only [recordRest, same, held.1, numbers, List.append_nil]

/-! ### Declarations -/

section Declaring

variable {keyword : String} {declared extended : Reader Rest} {after body : List Token}

/-- A declaration is read behind its keyword and its name. -/
theorem reads_declaration (definition : Definition) (holds : Rest → Prop)
    (known : .word keyword ∈ keywords) (named : IsName definition.name)
    (reads : Reads declared body holds after)
    (describes : ∀ name rest, name.value = definition.name → holds rest →
      Describes ⟨name, false, rest.1⟩ definition ∧ rest.2 = []) :
    Reads (declaration keyword declared extended)
      (.word keyword :: .word definition.name :: body)
      (fun found => Describes found.1 definition ∧ found.2 = []) after := by
  have resumes := resumes_of_mem_keywords known
  have nonempty : keyword.toList ≠ [] := by
    cases resumes with
    | word named => exact text_ne_nil named
  have start : Reads (declaring keyword) (.word keyword :: .word definition.name :: body)
      (fun found => found.value = definition.name) body := by
    refine .bind (reads_no_description (opens_cons.mpr resumes)) fun _ _ => ?_
    exact .bind (reads_literal (.word keyword) rfl nonempty) fun _ _ => reads_name named
  refine .rule <| .orElse_left <| .bind start fun name same => .bind reads fun rest held => ?_
  exact .pure (describes name rest same held)

/-- A declaration is rejected where another keyword stands. -/
theorem rejects_declaration {other : String} (known : .word other ∈ keywords)
    (nonempty : keyword.toList ≠ []) (clash : Clash keyword.toList other.toList) :
    Rejects (declaration keyword declared extended) (.word other :: after) := by
  have resumes := resumes_of_mem_keywords known
  refine .rule <| .orElse (.bind <| .bind_right (reads_no_description (opens_cons.mpr resumes))
    fun _ _ => .bind (rejects_literal nonempty (opens_cons.mpr clash))) ?_
  refine .bind <| .bind <| .rule <| rejects_literal (by decide) (opens_cons.mpr ?_)
  have extends_clash : ∀ token ∈ keywords, Clash "extend".toList token.text := by decide
  exact extends_clash _ known

end Declaring

/-! ### Definitions -/

section Definitions

variable {after : List Token} (follow : Opens (· ∈ keywords) after)
include follow

/-- A printed scalar is read as one. -/
theorem reads_scalarType {s : Scalar} (printable : (Definition.scalar s).IsPrintable) :
    Reads scalarType ((Definition.scalar s).tokens ++ after)
      (fun found => Describes found.1 (.scalar s) ∧ found.2 = []) after := by
  have resumes := follow.imp fun _ => resumes_of_mem_keywords
  refine reads_declaration (.scalar s) (· = (.scalar, [])) (by decide)
    (printable.names _ List.mem_cons_self) ?_ ?_
  · exact .bind (reads_no_directives resumes) fun numbers none => .pure (by rw [none])
  · rintro name _ same rfl
    cases s
    cases same
    exact ⟨.scalar, rfl⟩

/-- A printed enumeration is read with its values. -/
theorem reads_enumType {e : Enumeration} (printable : (Definition.enumeration e).IsPrintable) :
    Reads enumType ((Definition.enumeration e).tokens ++ after)
      (fun found => Describes found.1 (.enumeration e) ∧ found.2 = []) after := by
  refine reads_declaration (.enumeration e) (· = (.enumeration e.values, [])) (by decide)
    (printable.names _ List.mem_cons_self) ?_ ?_
  · refine .bind (reads_maybeDirectivesAnd
      ((opens_braced follow).imp fun _ => resumes_of_mem_cons)
      (reads_enumValues (fun value mem => printable.names value (List.mem_cons_of_mem _ mem))
        printable.values follow)) fun found held => .pure ?_
    obtain ⟨values, numbers⟩ := map_fst_of_forall₂ id held.2
    rw [List.map_id] at values
    simp only [enumerationRest, held.1, values, numbers, List.append_nil]
  · rintro name _ same rfl
    cases e
    cases same
    exact ⟨.enumeration, rfl⟩

/-- Both kinds of records are read alike, up to what is made of them. -/
theorem reads_recordType {definition : Definition} {record : Record} {keyword : String}
    {make : List FieldDecl → List String → Body} {extended : Reader Rest}
    (known : .word keyword ∈ keywords) (same : definition.name = record.name)
    (names : ∀ name ∈ record.ownNames, IsName name)
    (types : ∀ field ∈ record.fields.toList, IsName field.type.baseName ∧ field.type.MarksOnce)
    (describes : ∀ name declared, name.value = record.name →
      record.fields.toList = declared.map FieldDecl.field →
      Describes ⟨name, false, make declared record.interfaces⟩ definition) :
    Reads
      (declaration keyword
        (do
          let implemented ← orEmpty Sdl.interfaces
          return recordRest make implemented (← maybeDirectivesAnd Sdl.fields))
        extended)
      (record.tokens keyword ++ after)
      (fun found => Describes found.1 definition ∧ found.2 = []) after := by
  have tokens_eq : record.tokens keyword ++ after =
      .word keyword :: .word definition.name :: (implementsTokens record.interfaces ++
        (braced (record.fields.toList.flatMap Field.tokens) ++ after)) := by
    simp [Record.tokens, same]
  rw [tokens_eq]
  apply reads_declaration definition _ known
  · rw [same]
    exact names _ List.mem_cons_self
  · exact reads_record names types follow
  · rintro name _ same' ⟨declared, rfl, fields⟩
    exact ⟨describes name declared (same'.trans same) fields.symm, rfl⟩

/-- A printed object is read as it is. -/
theorem reads_objectType {r : Record} (printable : (Definition.object r).IsPrintable) :
    Reads objectType ((Definition.object r).tokens ++ after)
      (fun found => Describes found.1 (.object r) ∧ found.2 = []) after := by
  refine reads_recordType follow (by decide) rfl printable.names printable.types ?_
  intro name declared same fields
  cases r
  cases same
  exact .object fields

/-- A printed interface is read as it is. -/
theorem reads_interfaceType {r : Record} (printable : (Definition.interface r).IsPrintable) :
    Reads interfaceType ((Definition.interface r).tokens ++ after)
      (fun found => Describes found.1 (.interface r) ∧ found.2 = []) after := by
  refine reads_recordType follow (by decide) rfl printable.names printable.types ?_
  intro name declared same fields
  cases r
  cases same
  exact .interface fields

/-- A printed definition is read as a declaration that describes it. -/
theorem reads_definition {definition : Definition} (printable : definition.IsPrintable) :
    Reads typeDeclaration (definition.tokens ++ after)
      (fun found => Describes found.1 definition ∧ found.2 = []) after := by
  refine .rule ?_
  cases definition with
  | scalar s => exact .orElse_left (reads_scalarType follow printable)
  | object r =>
    refine .orElse_right ?_ (.orElse_left (reads_objectType follow printable))
    exact rejects_declaration (by decide) (by decide) (by decide)
  | interface r =>
    refine .orElse_right ?_ (.orElse_right ?_ (.orElse_left (reads_interfaceType follow printable)))
    all_goals exact rejects_declaration (by decide) (by decide) (by decide)
  | enumeration e =>
    refine .orElse_right ?_ (.orElse_right ?_ (.orElse_right ?_ (.orElse_right ?_
      (.orElse_left (reads_enumType follow printable)))))
    all_goals exact rejects_declaration (by decide) (by decide) (by decide)

end Definitions

/-! ### Documents -/

/-- A printed definition begins with a keyword. -/
theorem opens_definition (definition : Definition) (after : List Token) :
    Opens (· ∈ keywords) (definition.tokens ++ after) := by
  cases definition <;> exact opens_cons.mpr (by decide)

/-- A schema block begins with a word of its own. -/
theorem rejects_schemaBlock {tokens : List Token} (follow : Opens (· ∈ keywords) tokens) :
    Rejects schemaBlock tokens := by
  have clash : ∀ word ∈ ["schema", "extend"], ∀ token ∈ keywords,
      Clash word.toList token.text := by decide
  have remains : Reads remaining tokens (fun _ => True) tokens :=
    fun text laid => ⟨text.length, text, rfl, trivial, laid, Nat.le_refl _⟩
  refine .rule <| .bind_right remains fun left _ => .orElse (.bind ?_) (.bind (.rule ?_))
  · exact rejects_literal (by decide) (follow.imp (clash "schema" (by decide)))
  · exact rejects_literal (by decide) (follow.imp (clash "extend" (by decide)))

/-- The item declares what the definition says, without any numbers. -/
def Declares (definition : Definition) (item : Item) : Prop :=
  ∃ declaration, item = .type declaration [] ∧ Describes declaration definition

/-- Printed definitions of any kind are read as parts of a document. -/
theorem reads_item {definition : Definition} {after : List Token}
    (printable : definition.IsPrintable) (follow : Opens (· ∈ keywords) after) :
    Reads item (definition.tokens ++ after) (Declares definition) after := by
  refine .rule <| .orElse_right (.bind (rejects_schemaBlock (opens_definition definition after))) ?_
  refine .orElse_left <| .bind (reads_definition follow printable) ?_
  rintro ⟨declaration, numbers⟩ ⟨describes, rfl⟩
  exact .done ⟨declaration, rfl, describes⟩

/-- No definition is read from the end of a text. -/
theorem rejects_item_nil : Rejects item [] := by
  rintro text rfl
  rfl

theorem reads_endOfText : Reads endOfText [] (fun _ => True) [] := by
  rintro text rfl
  exact ⟨(), [], rfl, trivial, rfl, Nat.le_refl _⟩

theorem visible_braced {members : List Token} (visible : ∀ token ∈ members, token.IsVisible) :
    ∀ token ∈ braced members, token.IsVisible := by
  cases members with
  | nil => simp [braced]
  | cons member members =>
    intro token mem
    simp only [braced, List.cons_append, List.mem_cons, List.mem_append, List.not_mem_nil,
      or_false] at mem
    rcases mem with rfl | rfl | mem | rfl
    · exact visible_mark _
    · exact visible _ List.mem_cons_self
    · exact visible token (List.mem_cons_of_mem _ mem)
    · exact visible_mark _

theorem visible_implementsTokens {interfaces : List String}
    (names : ∀ interface ∈ interfaces, IsName interface) :
    ∀ token ∈ implementsTokens interfaces, token.IsVisible := by
  cases interfaces with
  | nil => simp [implementsTokens]
  | cons first others =>
    intro token mem
    simp only [implementsTokens, List.mem_cons, List.mem_flatMap, List.not_mem_nil,
      or_false] at mem
    rcases mem with rfl | rfl | ⟨interface, listed, rfl | rfl⟩
    · exact visible_word (by decide)
    · exact visible_word (names _ List.mem_cons_self)
    · exact visible_mark _
    · exact visible_word (names _ (List.mem_cons_of_mem _ listed))

theorem visible_record {record : Record} {keyword : String} (word : IsName keyword)
    (names : ∀ name ∈ record.ownNames, IsName name)
    (types : ∀ field ∈ record.fields.toList, IsName field.type.baseName) :
    ∀ token ∈ record.tokens keyword, token.IsVisible := by
  have fields : ∀ token ∈ record.fields.toList.flatMap Field.tokens, token.IsVisible := by
    intro token mem
    obtain ⟨field, listed, mem⟩ := List.mem_flatMap.mp mem
    simp only [Field.tokens, List.mem_cons, List.not_mem_nil, or_false] at mem
    rcases mem with rfl | rfl | rfl
    · exact visible_word (names _ (record.name_mem_ownNames listed))
    · exact visible_mark _
    · exact visible_type (types field listed)
  intro token mem
  simp only [Record.tokens, List.mem_cons, List.mem_append] at mem
  rcases mem with rfl | rfl | mem | mem
  · exact visible_word word
  · exact visible_word (names _ (by simp [Record.ownNames]))
  · have interfaces : ∀ interface ∈ record.interfaces, IsName interface := fun _ mem =>
      names _ (record.interface_mem_ownNames mem)
    exact visible_implementsTokens interfaces _ mem
  · exact visible_braced fields _ mem

/-- Every token of a printed definition says something. -/
theorem visible_tokens {definition : Definition} (printable : definition.IsPrintable) :
    ∀ token ∈ definition.tokens, token.IsVisible := by
  obtain ⟨names, types, _⟩ := printable
  cases definition with
  | scalar s =>
    intro token mem
    simp only [Definition.tokens, List.mem_cons, List.not_mem_nil, or_false] at mem
    rcases mem with rfl | rfl
    · exact visible_word (by decide)
    · exact visible_word (names _ List.mem_cons_self)
  | enumeration e =>
    have values : ∀ token ∈ e.values.map Token.word, token.IsVisible := by
      intro token mem
      obtain ⟨value, listed, rfl⟩ := List.mem_map.mp mem
      exact visible_word (names value (List.mem_cons_of_mem _ listed))
    intro token mem
    simp only [Definition.tokens, List.mem_cons] at mem
    rcases mem with rfl | rfl | mem
    · exact visible_word (by decide)
    · exact visible_word (names _ List.mem_cons_self)
    · exact visible_braced values _ mem
  | object r =>
    exact visible_record (by decide) names fun field mem => (types field mem).1
  | interface r =>
    exact visible_record (by decide) names fun field mem => (types field mem).1

/-- A text that lays out definitions is a document that declares them. -/
theorem document_of_laidOut {definitions : List Definition} {lead text : List Char}
    (nonempty : definitions ≠ []) (printable : ∀ d ∈ definitions, d.IsPrintable)
    (gap : IsGap lead) (laidOut : LaidOut (definitions.flatMap Definition.tokens) text) :
    ∃ items rest, (document (lead ++ text)).result = some (items, rest) ∧
      List.Forall₂ Declares definitions items := by
  obtain ⟨laid, start⟩ := laidOut.laid fun token mem => by
    obtain ⟨definition, listed, mem⟩ := List.mem_flatMap.mp mem
    exact visible_tokens (printable definition listed) token mem
  have reads : Reads (do let items ← several item; endOfText; return items)
      (definitions.flatMap Definition.tokens) (List.Forall₂ Declares definitions) [] := by
    obtain ⟨first, others, rfl⟩ := List.exists_cons_of_ne_nil nonempty
    rw [← List.append_nil (List.flatMap _ _)]
    refine .bind (.several (Opens (· ∈ keywords))
      (fun definition mem rest follow => reads_item (printable definition mem) follow)
      (fun definition _ => ⟨?_, opens_definition definition⟩) opens_nil rejects_item_nil)
      fun items declared => .bind reads_endOfText fun _ _ => .pure declared
    cases definition <;> simp [Definition.tokens, Record.tokens]
  have blanks : (blank (lead ++ text)).result = some ((), text) := by
    rw [blank, skipBlank_append gap, start]
  obtain ⟨items, rest, result, declared, -⟩ := reads text laid
  exact ⟨items, rest, result_rule.trans ((result_bind_of_some blanks).trans result), declared⟩

/-- Nothing is wrong with items that hold no numbers. -/
theorem check_of_declares {definitions : List Definition} {items : List Item}
    (declared : List.Forall₂ Declares definitions items) : items.forM Item.check = .ok () := by
  induction declared with
  | nil => rfl
  | cons held _ ih =>
    obtain ⟨declaration, rfl, -⟩ := held
    exact ih

/-- Parts that declare definitions are types that describe them. -/
theorem types_of_declares {definitions : List Definition} {items : List Item}
    (declared : List.Forall₂ Declares definitions items) :
    List.Forall₂ Describes (Document.types items) definitions := by
  induction declared with
  | nil => exact .nil
  | cons held _ ih =>
    obtain ⟨declaration, rfl, describes⟩ := held
    exact .cons describes ih

/-! ### The main result -/

/-- Definitions of different names, printed in any layout, are loaded as they are, behind
the standard scalars whose names they do not take. -/
theorem load_of_laidOut {definitions : List Definition} {lead text : List Char} {source : Source}
    (nonempty : definitions ≠ []) (distinct : (definitions.map Definition.name).Nodup)
    (printable : ∀ definition ∈ definitions, definition.IsPrintable)
    (gap : IsGap lead) (laidOut : LaidOut (definitions.flatMap Definition.tokens) text)
    (written : source.text.toList = lead ++ text) :
    ∃ schema, load source = .ok schema ∧
      schema.toList = standardBeside (definitions.map Definition.name) ++ definitions := by
  obtain ⟨items, rest, read, declared⟩ := document_of_laidOut nonempty printable gap laidOut
  have described := types_of_declares declared
  have names : typeNames (Document.types items) = definitions.map Definition.name :=
    (names_of_describes described).symm
  let schema : Schema := ⟨standardBeside (definitions.map Definition.name) ++ definitions, by
    rw [List.map_append, List.nodup_append]
    refine ⟨nodup_standardBeside _, distinct, ?_⟩
    rintro name standard other mem rfl
    rw [names_standardBeside] at standard
    obtain ⟨scalar, kept, rfl⟩ := List.mem_map.mp standard
    have absent : scalar.name ∉ definitions.map Definition.name := by
      simpa using (List.mem_filter.mp kept).2
    exact absent mem⟩
  refine ⟨schema, load_eq_ok_iff.mpr ⟨items, ?parsed, ?defined⟩, rfl⟩
  case parsed => exact written ▸ parse_eq_ok_iff.mpr ⟨⟨rest, read⟩, check_of_declares declared⟩
  case defined => exact define_list_eq_ok_iff.mpr ⟨definitions, described, by rw [names]⟩

def keywordDefinitions : List Definition :=
  [.object ⟨"type", ⟨[⟨"enum", .nonNull (.list (.named "ID"))⟩], by decide⟩, ["on", "a"]⟩,
    .scalar ⟨"ID"⟩,
    .enumeration ⟨"enum", ["nul"]⟩]

/-- Keywords are names where names are expected, behind a comment that a carriage return
ends. -/
theorem load_keywordDefinitions :
    ∃ schema, load ⟨defaultSourceName,
      "\ufefftype#\rtype implements on&a\x7benum:[ID]!\x7d,scalar ID\r\nenum enum\x7bnul\x7d#\n"⟩ =
        .ok schema ∧
      schema.toList = standardBeside ["type", "ID", "enum"] ++ keywordDefinitions := by
  have blank : IsGap [' '] := .separator (by decide) .nil
  have laidOut : LaidOut (keywordDefinitions.flatMap Definition.tokens) _ :=
    .cons (@IsGap.comment [] [] '\r' (by simp) (by decide) .nil) (by decide) <|
    .cons blank (by decide) <| .cons blank (by decide) <| .cons .nil (by decide) <|
    .cons .nil (by decide) <| .cons .nil (by decide) <| .cons .nil (by decide) <|
    .cons .nil (by decide) <| .cons .nil (by decide) <| .cons .nil (by decide) <|
    .cons (.separator (c := ',') (by decide) .nil) (by decide) <| .cons blank (by decide) <|
    .cons (.separator (c := '\r') (by decide) (.separator (c := '\n') (by decide) .nil))
      (by decide) <|
    .cons blank (by decide) <| .cons .nil (by decide) <| .cons .nil (by decide) <|
    .cons .nil (by decide) <|
    .cons (@IsGap.comment [] [] '\n' (by simp) (by decide) .nil) (by decide) .nil
  refine load_of_laidOut (by decide) (by decide) ?_ (.separator (c := '\ufeff') (by decide) .nil)
    laidOut (by decide)
  intro definition mem
  simp only [keywordDefinitions, List.mem_cons, List.not_mem_nil, or_false] at mem
  rcases mem with rfl | rfl | rfl
  all_goals exact ⟨by decide, by decide, by decide⟩

end SchemaTypings.Sdl
