import SchemaTypings.Proofs.Loading.Joining.Documents
import SchemaTypings.Proofs.Settings.Beginning

/-!
# Settings are no schema

No text can be read both as settings and as a schema. Settings that say something begin with
a bracket or with a key, and behind the key stands a point or an equals sign. Of the keys of
settings only two begin like a part of a schema document, and no document goes on as they do.
-/

namespace SchemaTypings

open Text Reader Toml

namespace Sdl

/-! ### Beginnings of parts -/

variable {text rest more : List Char} {word : String} {mark : Char}

/-- A part of a document with neither a description nor the word for extensions begins with
its keyword. -/
theorem Announces.isPrefix (announces : Announces word text)
    (plain : Avoids ["extend", "\""] text) : word.toList <+: text := by
  obtain ⟨middle, found, begins⟩ := announces
  rw [result_orElse, Option.or_eq_some_iff] at found
  rcases found with extended | ⟨-, described⟩
  · exact absurd (begins_extend _ _ _ extended) (plain "extend" (by decide))
  · rw [description, result_orElse, Option.or_eq_some_iff] at described
    rcases described with quoted | ⟨-, nothing⟩
    · exact absurd (begins_string _ _ _ quoted) (plain "\"" (by decide))
    · cases nothing
      exact begins

/-- What may stand before the keyword of a part begins with one of these words. -/
abbrev withOpeners (words : List String) : List String := "extend" :: "\"" :: words

/-- A part of a document cannot be read where none of its words begins. -/
theorem IsPart.result_eq_none {α : Type} [Moves α] {read : Reader α} {words : List String}
    (part : IsPart [] words read) (avoids : Avoids (withOpeners words) text) :
    (read text).result = none := by
  by_contra some
  obtain ⟨⟨found, left⟩, found⟩ := Option.ne_none_iff_exists'.mp some
  obtain ⟨word, mem, announces⟩ := part.begins _ _ _ found
  exact avoids word (by simp [mem]) (announces.isPrefix (avoids.mono (by simp)))

/-- A text does not begin with a word that has another first letter. -/
theorem avoids_cons {words : List String} {c : Char}
    (others : words.all fun word => word.toList.head?.any (· != c)) : Avoids words (c :: rest) := by
  rintro word mem ⟨behind, eq⟩
  obtain ⟨d, head, ne⟩ := (Option.any_eq_true _ _).mp (List.all_eq_true.mp others word mem)
  obtain ⟨letters, eq'⟩ := List.head?_eq_some_iff.mp head
  rw [eq', List.cons_append, List.cons.injEq] at eq
  exact (bne_iff_ne.mp ne) eq.1

/-! ### Keys that begin like a part -/

/-- What stands behind a key: blanks, and a point or an equals sign. -/
def Assigned (text : List Char) : Prop :=
  ∃ mark more, text.dropWhile isSpace = mark :: more ∧ (mark = '.' ∨ mark = '=')

namespace Assigned

/-- Behind a key there is a point or an equals sign. -/
theorem skipBlank_eq (assigned : Assigned text) :
    ∃ mark more, skipBlank text = mark :: more ∧ (mark = '.' ∨ mark = '=') := by
  obtain ⟨mark, more, behind, isMark⟩ := assigned
  refine ⟨mark, more, ?_, isMark⟩
  rw [← skipBlank_dropWhile_isSpace, behind]
  rcases isMark with rfl | rfl <;> rfl

/-- Nothing follows that begins a part of a document, or goes on with one. -/
theorem avoids (assigned : Assigned text) :
    Avoids ("@" :: "\x7b" :: withOpeners itemWords) (skipBlank text) := by
  obtain ⟨mark, more, eq, isMark⟩ := assigned.skipBlank_eq
  rw [eq]
  rcases isMark with rfl | rfl <;> exact avoids_cons (by decide)

theorem ne_nil (assigned : Assigned text) : skipBlank text ≠ [] := by
  obtain ⟨mark, more, eq, -⟩ := assigned.skipBlank_eq
  simp [eq]

/-- No name goes on with what stands behind a key. -/
theorem not_continuesName (assigned : Assigned text) : ¬ ContinuesName text := by
  obtain ⟨mark, more, behind, isMark⟩ := assigned
  cases text with
  | nil => cases behind
  | cons c text =>
    rw [continuesName_cons]
    by_cases space : isSpace c = true
    · simp only [isSpace, Bool.or_eq_true, beq_iff_eq] at space
      rcases space with rfl | rfl <;> decide
    · rw [List.dropWhile_cons_of_neg space] at behind
      cases behind
      rcases isMark with rfl | rfl <;> decide

end Assigned

/-- A keyword is read off the front, with the blanks behind it. -/
theorem result_literal_append (word : String) (text : List Char) :
    (literal word (word.toList ++ text)).result = some ((), skipBlank text) := by
  have found : word.toList.isPrefixOf? (word.toList ++ text) = some text :=
    List.isPrefixOf?_eq_some_iff_append_eq.mpr rfl
  simp [literal, lexeme, found]

/-- So is a name. -/
theorem result_name_append (named : IsName word) (ends : ¬ ContinuesName text) :
    ∃ left, (name (word.toList ++ text)).result = some (⟨word, left⟩, skipBlank text) := by
  refine ⟨(word.toList ++ text).length, ?_⟩
  refine result_rule.trans ?_
  simp [lexeme, takeName_append named ends]

/-- There are no directives behind a key. -/
theorem result_orEmpty_directives (assigned : Assigned text) :
    (orEmpty directives (skipBlank text)).result = some ([], skipBlank text) := by
  have none := begins_directives.rejects (fun _ (avoids : Avoids ["@"] _) => avoids "@" (by simp))
    (skipBlank text) (assigned.avoids.mono (by simp))
  rw [orEmpty, result_orElse, none]
  rfl

/-- A schema block does not go on like an assignment. -/
theorem result_schemaBlock (assigned : Assigned text) :
    (schemaBlock ("schema".toList ++ text)).result = none := by
  have noRoots := begins_roots.rejects
    (fun _ (avoids : Avoids ["\x7b"] _) => avoids "\x7b" (by simp)) (skipBlank text)
    (assigned.avoids.mono (by simp))
  have noExtension := begins_extend.rejects
    (fun _ (begins : "schema".toList <+: _) =>
      Apart.avoids (by decide : Apart "schema" ["extend"]) begins "extend" (by simp))
    ("schema".toList ++ text) (List.prefix_append _ _)
  have left : (remaining ("schema".toList ++ text)).result = some (_, _) := rfl
  rw [schemaBlock, result_rule, result_bind_of_some left, result_orElse, Option.or_eq_none_iff]
  constructor
  · rw [result_bind_of_some (result_literal_append "schema" text),
      result_bind_of_some (result_orEmpty_directives assigned), result_bind, noRoots]
    rfl
  · rw [result_bind, noExtension]
    rfl

/-- Where the key of the scalars stands, a scalar of a single letter is declared, and it ends
with the key. -/
theorem result_typeDeclaration (assigned : Assigned text) :
    ∃ found, (typeDeclaration ("scalars".toList ++ text)).result =
      some (found, skipBlank text) := by
  obtain ⟨left, named⟩ :=
    result_name_append (by decide : IsName "s") assigned.not_continuesName
  have described : (description ("scalars".toList ++ text)).result =
      some ((), "scalar".toList ++ ("s".toList ++ text)) := rfl
  have keyword : (literal "scalar" ("scalar".toList ++ ("s".toList ++ text))).result =
      some ((), "s".toList ++ text) := result_literal_append "scalar" _
  have declared : (scalarType ("scalars".toList ++ text)).result =
      some ((⟨⟨"s", left⟩, false, .scalar⟩, []), skipBlank text) := by
    have opened : (declaring "scalar" ("scalars".toList ++ text)).result =
        some (⟨"s", left⟩, skipBlank text) := by
      rw [declaring, result_bind_of_some described, result_bind_of_some keyword, named]
    have closed : ((do return (.scalar, ← orEmpty directives) : Reader Rest)
        (skipBlank text)).result = some ((.scalar, []), skipBlank text) :=
      result_bind_of_some (result_orEmpty_directives assigned)
    rw [scalarType, declaration, result_rule, result_orElse, result_bind_of_some opened,
      result_bind_of_some closed]
    rfl
  refine ⟨(⟨⟨"s", left⟩, false, .scalar⟩, []), ?_⟩
  rw [typeDeclaration, result_rule]
  change (orElse scalarType _ _).result = _
  rw [result_orElse, declared]
  rfl

/-! ### Keys in quotes -/

/-- A character in front of a string leaves what follows the string. -/
theorem of_consContent {c : Char} {content : List Char} {found : Option (List Char × List Char)}
    (read : consContent c found = some (content, rest)) :
    ∃ content', found = some (content', rest) := by
  cases found with
  | none => cases read
  | some taken =>
    cases read
    exact ⟨_, rfl⟩

/-- What a backslash stands for in settings may stand behind one in a schema. -/
theorem isEscapable_of_escaped {c d : Char} (found : escaped c = some d) :
    isEscapable c = true := by
  unfold escaped at found
  split at found <;> first | rfl | cases found

/-- Where a key in quotes is read, a schema text has the same string or none. -/
theorem afterString_of_basicContent {content : List Char}
    (read : basicContent text = some (content, rest)) :
    afterString text = some rest ∨ afterString text = none := by
  fun_induction basicContent text generalizing content with
  | case1 => cases read
  | case2 left =>
    cases read
    exact .inl rfl
  | case3 a b c d left ih =>
    obtain ⟨char, -, read⟩ := Option.bind_eq_some_iff.mp read
    obtain ⟨content', read⟩ := of_consContent read
    rw [afterString_digits]
    split
    · exact ih read
    · exact .inr rfl
  | case4 => exact .inr (afterString_eq_none (by decide) fun eq => absurd eq (by decide))
  | case5 c left _ _ ih =>
    obtain ⟨char, found, read⟩ := Option.bind_eq_some_iff.mp read
    obtain ⟨content', read⟩ := of_consContent read
    rw [afterString_of_isEscapable (isEscapable_of_escaped found)]
    exact ih read
  | case6 c left quote _ _ _ plain ih =>
    obtain ⟨content', read⟩ := of_consContent read
    have backslash : c ≠ '\\' := by simpa using (Bool.and_eq_true_iff.mp plain).2
    rw [afterString_of_ne quote backslash]
    split
    · exact .inr rfl
    · exact ih read
  | case7 => cases read

/-- No part of a document begins with a key in quotes that something is assigned to. -/
theorem result_item_quoted {content : List Char} (nonempty : content ≠ [])
    (read : basicContent text = some (content, rest)) (assigned : Assigned rest) :
    (item ('"' :: text)).result = none := by
  have single : ¬ ['"', '"'] <+: text := by
    rintro ⟨behind, rfl⟩
    cases read
    exact nonempty rfl
  by_contra found
  obtain ⟨⟨part, left⟩, found⟩ := Option.ne_none_iff_exists'.mp found
  obtain ⟨word, mem, middle, described, begins⟩ := (@isPart_item []).begins _ _ _ found
  have quote : ∀ word ∈ itemWords, ¬ word.toList <+: '"' :: text := by
    simp [itemWords]
  rw [result_orElse, Option.or_eq_some_iff] at described
  rcases described with extended | ⟨-, described⟩
  · simpa using begins_extend _ _ _ extended
  rw [description, result_orElse, Option.or_eq_some_iff] at described
  rcases described with quoted | ⟨-, nothing⟩
  · rw [string, result_rule, lexeme, dropString_of_not_prefix single] at quoted
    rcases afterString_of_basicContent read with same | none
    · rw [same] at quoted
      cases quoted
      exact assigned.avoids word (by simp [mem]) begins
    · rw [none] at quoted
      cases quoted
  · cases nothing
    exact quote word mem begins

/-! ### Documents -/

/-- No document begins with a text that no part begins with. -/
theorem not_document_of_none (none : (item text).result = none) {items : Document} :
    (several item text).result ≠ some (items, []) := by
  intro read
  obtain ⟨part, left, others, found, -, -⟩ := result_several_eq_some_iff.mp read
  rw [none] at found
  cases found

/-- The key `schema` would begin a schema block, for which an equals sign is no name. -/
theorem result_item_schema (assigned : Assigned text) :
    (item ("schema".toList ++ text)).result = none := by
  have begins : "schema".toList <+: "schema".toList ++ text := List.prefix_append _ _
  have noType := isPart_typeDeclaration.result_eq_none (Apart.avoids (by decide) begins)
  have noDirective := isPart_directiveDeclaration.result_eq_none (Apart.avoids (by decide) begins)
  refine result_rule.trans ?_
  change (orElse _ (orElse _ (andThen directiveDeclaration _)) _).result = _
  rw [result_orElse, result_orElse, result_andThen, result_andThen, result_andThen,
    result_schemaBlock assigned, noType, noDirective]
  rfl

/-- The key `scalars` is read as the keyword of a scalar and its name. -/
theorem result_item_scalars (assigned : Assigned text) :
    ∃ part, (item ("scalars".toList ++ text)).result = some (part, skipBlank text) := by
  have begins : "scalars".toList <+: "scalars".toList ++ text := List.prefix_append _ _
  have noBlock := isPart_schemaBlock.result_eq_none (Apart.avoids (by decide) begins)
  obtain ⟨found, declared⟩ := result_typeDeclaration assigned
  refine ⟨.type found.1 found.2, result_rule.trans ?_⟩
  change (orElse _ (orElse _ _) _).result = _
  rw [result_orElse, result_orElse, result_andThen, result_andThen, noBlock, declared]
  rfl

/-- The only part of a document that begins with the key of a setting ends with that key. -/
theorem rest_of_known {name : String} (known : name ∈ settingNames) (assigned : Assigned text)
    {part : Item} (read : (item (name.toList ++ text)).result = some (part, rest)) :
    rest = skipBlank text := by
  have begins : name.toList <+: name.toList ++ text := List.prefix_append _ _
  simp only [settingNames, List.mem_cons, List.not_mem_nil, or_false] at known
  rcases known with rfl | rfl | rfl | rfl
  -- only the first and the last key begin with a keyword
  · rw [result_item_schema assigned] at read
    cases read
  · rw [(@isPart_item []).result_eq_none (Apart.avoids (by decide) begins)] at read
    cases read
  · rw [(@isPart_item []).result_eq_none (Apart.avoids (by decide) begins)] at read
    cases read
  · obtain ⟨part', found⟩ := result_item_scalars assigned
    rw [found] at read
    cases read
    rfl

/-- A text that begins with a setting is no document. -/
theorem not_document_of_known {name : String} (known : name ∈ settingNames)
    (assigned : Assigned text) {items : Document} :
    (several item (skipBlank (name.toList ++ text))).result ≠ some (items, []) := by
  intro read
  have start : skipBlank (name.toList ++ text) = name.toList ++ text := by
    simp only [settingNames, List.mem_cons, List.not_mem_nil, or_false] at known
    rcases known with rfl | rfl | rfl | rfl <;> rfl
  rw [start] at read
  obtain ⟨part, left, others, found, more, -⟩ := result_several_eq_some_iff.mp read
  obtain rfl := rest_of_known known assigned found
  rw [result_many_of_none ((@isPart_item []).result_eq_none (assigned.avoids.mono (by simp)))]
    at more
  exact assigned.ne_nil (congrArg Prod.snd (Option.some.inj more))

/-- Where a header stands or the key of a setting, no document stands. -/
theorem not_document_of_beginsSetting (begins : BeginsSetting text) {items : Document} :
    (several item (skipBlank text)).result ≠ some (items, []) := by
  cases begins with
  | header rest =>
    have avoids : Avoids (withOpeners itemWords) ('[' :: rest) := avoids_cons (by decide)
    exact not_document_of_none ((@isPart_item []).result_eq_none avoids)
  | @key _ name rest more mark taken known marked isMark =>
    have assigned : Assigned rest := ⟨mark, more, marked, isMark⟩
    unfold takeKey at taken
    split at taken
    · next behind =>
      have nonempty : name ≠ [] := by
        rintro rfl
        exact absurd known (by decide)
      exact not_document_of_none (result_item_quoted nonempty taken assigned)
    · next behind =>
      have avoids : Avoids (withOpeners itemWords) ('\x27' :: behind) := avoids_cons (by decide)
      exact not_document_of_none ((@isPart_item []).result_eq_none avoids)
    · split at taken
      · cases taken
      · cases taken
        have whole : text.takeWhile isKeyPart ++ text.dropWhile isKeyPart = text :=
          List.takeWhile_append_dropWhile
        rw [← whole]
        rw [← String.toList_ofList (l := text.takeWhile isKeyPart)]
        exact not_document_of_known known assigned

end Sdl

/-- No text is both a schema and settings. -/
theorem Settings.not_schemaOf {text : List Char} {settings : Settings}
    (read : Settings.ofText text = .ok settings) {schema : Schema} :
    Sdl.schemaOf text ≠ .ok schema := by
  intro loaded
  obtain ⟨document, parsed, -⟩ := Traversal.bind_eq_ok_iff.mp loaded
  obtain ⟨⟨rest, found⟩, -⟩ := Sdl.parse_eq_ok_iff.mp parsed
  obtain ⟨-, items⟩ := Sdl.result_document.mp found
  rcases Settings.begins_of_ofText read with nothing | ⟨start, same, begins⟩
  · rw [nothing] at items
    exact Sdl.not_document_of_none Sdl.result_item_nil items
  · rw [same] at items
    exact Sdl.not_document_of_beginsSetting begins items

end SchemaTypings
