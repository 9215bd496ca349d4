import SchemaTypings.Proofs.Loading.Progress
import SchemaTypings.Proofs.Loading.Reading

/-!
# Readers of single tokens

Every reader of a token takes the token it is for off any layout. A keyword or mark is
rejected where the first token clashes with it, and a name where no name begins.
-/

namespace SchemaTypings.Sdl

open Text Reader

/-- The first token, if there is one, has the property. -/
def Opens (p : Token → Prop) (tokens : List Token) : Prop := ∀ token ∈ tokens.head?, p token

theorem opens_nil {p : Token → Prop} : Opens p [] := by
  intro token mem
  cases mem

theorem opens_cons {p : Token → Prop} {token : Token} {tokens : List Token} :
    Opens p (token :: tokens) ↔ p token := by
  simp [Opens]

theorem Opens.imp {p q : Token → Prop} {tokens : List Token} (opens : Opens p tokens)
    (imp : ∀ token, p token → q token) : Opens q tokens :=
  fun token mem => imp token (opens token mem)

/-! ### Reading a token -/

/-- A reader that takes a token where nothing lengthens it, and the blanks behind it,
reads the token. -/
theorem reads_token {α : Type} {read : Reader α} {token : Token} {holds : α → Prop}
    {after : List Token} (nonempty : token.text ≠ [])
    (takes : ∀ text, ¬ (EndsInName token.text ∧ ContinuesName text) → Laid after (skipBlank text) →
      ∃ a, (read (token.text ++ text)).result = some (a, skipBlank text) ∧ holds a) :
    Reads read (token :: after) holds after := by
  rintro text ⟨rest, rfl, apart, laid⟩
  obtain ⟨a, result, held⟩ := takes rest apart laid
  have shorter : (skipBlank rest).length ≤ rest.length := (skipFrom_suffix false rest).length_le
  have taken := List.length_pos_iff.mpr nonempty
  refine ⟨a, skipBlank rest, result, held, laid, ?_⟩
  simp only [List.length_cons, List.length_append]
  omega

/-! ### Keywords and marks -/

/-- Neither text begins with the other. -/
def Clash (a b : List Char) : Prop := a.isPrefixOf b = false ∧ b.isPrefixOf a = false

instance {a b : List Char} : Decidable (Clash a b) := inferInstanceAs (Decidable (_ ∧ _))

/-- A text that clashes with the begin of another one does not begin it. -/
theorem Clash.isPrefixOf? {a b text : List Char} (clash : Clash a b) :
    a.isPrefixOf? (b ++ text) = none := by
  cases found : a.isPrefixOf? (b ++ text) with
  | none => rfl
  | some rest =>
    have eq : a ++ rest = b ++ text := List.append_eq_of_isPrefixOf?_eq_some found
    rcases List.prefix_or_prefix_of_prefix ⟨rest, eq⟩ (List.prefix_append b text) with le | le
    · exact absurd (List.isPrefixOf_iff_prefix.mpr le) (by simp [clash.1])
    · exact absurd (List.isPrefixOf_iff_prefix.mpr le) (by simp [clash.2])

/-- A text clashes with a character exactly if it begins with another one. -/
theorem clash_singleton {c : Char} {text : List Char} :
    Clash [c] text ↔ ∃ d rest, text = d :: rest ∧ c ≠ d := by
  cases text with
  | nil => simp [Clash]
  | cons d rest =>
    refine ⟨fun clash => ⟨d, rest, rfl, fun same => ?_⟩, ?_⟩
    · simp [Clash, List.isPrefixOf, same] at clash
    · rintro ⟨_, _, ⟨⟩, other⟩
      simp [Clash, List.isPrefixOf, other, other.symm]

/-- A token is read as the word that it spells. -/
theorem reads_literal (token : Token) {word : String} {after : List Token}
    (same : token.text = word.toList) (nonempty : word.toList ≠ []) :
    Reads (literal word) (token :: after) (fun _ => True) after := by
  refine reads_token (same ▸ nonempty) fun text _ _ => ⟨(), ?_, trivial⟩
  have found : word.toList.isPrefixOf? (token.text ++ text) = some text :=
    List.isPrefixOf?_eq_some_iff_append_eq.mpr (by rw [same])
  simp [literal, lexeme, found]

theorem reads_mark (mark : Mark) {word : String} {after : List Token}
    (spelled : word.toList = [mark.char]) :
    Reads (literal word) (.mark mark :: after) (fun _ => True) after :=
  reads_literal (.mark mark) spelled.symm (by simp [spelled])

/-- A word is refused where every text that may follow clashes with it. -/
theorem rejects_literal {word : String} {tokens : List Token} (nonempty : word.toList ≠ [])
    (clash : Opens (fun token => Clash word.toList token.text) tokens) :
    Rejects (literal word) tokens := by
  intro text laid
  cases tokens with
  | nil =>
    cases laid
    cases eq : word.toList with
    | nil => exact absurd eq nonempty
    | cons c rest => simp [literal, lexeme, eq, List.isPrefixOf?]
  | cons token tokens =>
    obtain ⟨rest, rfl, -⟩ := laid
    simp [literal, lexeme, (opens_cons.mp clash).isPrefixOf?]

/-! ### Strings -/

/-- There is no string where the text begins with another character. -/
theorem rejects_string {tokens : List Token}
    (clash : Opens (fun token => Clash ['"'] token.text) tokens) : Rejects string tokens := by
  refine .rule fun text laid => ?_
  cases tokens with
  | nil =>
    cases laid
    rfl
  | cons token tokens =>
    obtain ⟨rest, rfl, -⟩ := laid
    obtain ⟨d, front, eq, other⟩ := clash_singleton.mp (opens_cons.mp clash)
    have none : dropString (d :: (front ++ rest)) = none := by
      unfold dropString
      split
      · next h => exact absurd (List.cons.inj h).1.symm other
      · next h => exact absurd (List.cons.inj h).1.symm other
      · rfl
    simp [lexeme, eq, none]

/-- Without a description, the reader of one takes nothing. -/
theorem reads_description {tokens : List Token}
    (clash : Opens (fun token => Clash ['"'] token.text) tokens) :
    Reads description tokens (fun _ => True) tokens :=
  .orElse_right (rejects_string clash) (.done trivial)

/-! ### Names -/

theorem endsInName {word : String} (named : IsName word) : EndsInName word.toList := by
  have parts := named.isNamePart
  obtain ⟨first, rest, eq, -, -⟩ := named
  have last : word.toList.getLast? = some (word.toList.getLast (by simp [eq])) :=
    List.getLast?_eq_some_getLast _
  exact ⟨_, last, parts _ (List.getLast_mem _)⟩

/-- A name is not empty. -/
theorem text_ne_nil {word : String} (named : IsName word) : (Token.word word).text ≠ [] := by
  obtain ⟨first, rest, eq, -⟩ := named
  simp [Token.text, eq]

/-- A name is read as a whole, up to the gap behind it. -/
theorem reads_name {word : String} {after : List Token} (named : IsName word) :
    Reads name (.word word :: after) (fun found => found.value = word) after := by
  refine .rule <| reads_token (text_ne_nil named) fun text apart _ => ?_
  have taken := takeName_append named fun continues => apart ⟨endsInName named, continues⟩
  refine ⟨⟨word, (word.toList ++ text).length⟩, ?_, rfl⟩
  simp [lexeme, Token.text, taken]

theorem rejects_name {after : List Token} : Rejects name (.mark .closing :: after) := by
  refine .rule ?_
  rintro text ⟨rest, rfl, -⟩
  simp [lexeme, Token.text, takeName_eq_none (c := Mark.closing.char) (by decide)]

/-- Where nothing continues a name, the text begins with no other name than those it
begins with itself. -/
theorem prefix_of_prefix_append {word constant text : List Char}
    (parts : ∀ c ∈ constant, isNamePart c = true) (ends : ¬ ContinuesName text)
    (le : constant <+: word ++ text) : constant <+: word := by
  rcases List.prefix_or_prefix_of_prefix le (List.prefix_append word text) with le' | ⟨tail, eq⟩
  · exact le'
  · cases tail with
    | nil => exact ⟨[], by simp [← eq]⟩
    | cons c tail =>
      subst eq
      obtain ⟨rest, eq⟩ := (List.prefix_append_right_inj word).mp le
      refine absurd ?_ ends
      rw [← eq, List.cons_append, continuesName_cons]
      exact parts c (by simp)

/-- A value that begins with none of the words for constants is read as it is. -/
theorem reads_enumValue {word : String} {after : List Token} (named : IsName word)
    (plain : ∀ constant ∈ ["true", "false", "null"], ¬ constant.toList <+: word.toList) :
    Reads enumValue (.word word :: after) (· = word) after := by
  refine .rule <| reads_token (text_ne_nil named) fun text apart _ => ⟨word, ?_, rfl⟩
  have ends : ¬ ContinuesName text := fun continues => apart ⟨endsInName named, continues⟩
  have noConstant : (constantWords.any fun constant =>
      constant.isPrefixOf (word.toList ++ text)) = false := by
    rw [List.any_eq_false]
    intro constant mem found
    have parts : ∀ constant ∈ constantWords, ∀ c ∈ constant, isNamePart c = true := by
      simp only [← List.all_eq_true]
      decide
    have le := prefix_of_prefix_append (parts constant mem) ends
      (List.isPrefixOf_iff_prefix.mp found)
    have spelled : constant ∈ ["true", "false", "null"].map String.toList := mem
    obtain ⟨name, listed, rfl⟩ := List.mem_map.mp spelled
    exact plain name listed le
  simp [lexeme, Token.text, noConstant, takeName_append named ends]

/-- The brace that closes an enumeration is no value. -/
theorem rejects_enumValue {after : List Token} : Rejects enumValue (.mark .closing :: after) := by
  refine .rule ?_
  rintro text ⟨rest, rfl, -⟩
  simp [lexeme, Token.text, takeName_eq_none (c := Mark.closing.char) (by decide)]

/-! ### Type references -/

theorem text_type_cons {ty : TypeRef} (named : IsName ty.baseName) :
    ∃ c rest, (Token.type ty).text = c :: rest ∧ (isNameStart c = true ∨ c = '[') := by
  induction ty with
  | named name =>
    obtain ⟨first, rest, eq, start, -⟩ := named
    exact ⟨first, rest, eq, .inl start⟩
  | list item _ =>
    exact ⟨'[', (item.spelling ++ "]").toList, by simp [Token.text, TypeRef.spelling], .inr rfl⟩
  | nonNull inner ih =>
    obtain ⟨c, rest, eq, start⟩ := ih named
    exact ⟨c, rest ++ ['!'], by simp_all [Token.text, TypeRef.spelling], start⟩

/-- Without a mark behind it, a type is as it is. -/
theorem withMark_of_clash {ty : TypeRef} {text : List Char} (other : text.head? ≠ some '!') :
    withMark ty text = (ty, text) := by
  unfold withMark
  split
  · exact absurd rfl other
  · rfl

/-- A reference is taken as it is spelled, with one mark more if there is one behind it. -/
theorem takeType_append {ty : TypeRef} {text : List Char} (named : IsName ty.baseName)
    (marks : ty.MarksOnce) (apart : ¬ (EndsInName ty.spelling.toList ∧ ContinuesName text)) :
    (ty.isNonNull = false → takeType (ty.spelling.toList ++ text) = some (withMark ty text)) ∧
    (text.head? ≠ some '!' → takeType (ty.spelling.toList ++ text) = some (ty, text)) := by
  induction ty generalizing text with
  | named name =>
    have taken : takeType (name.toList ++ text) = some (withMark (.named name) text) := by
      have isName : IsName name := named
      have found := takeName_append isName fun continues => apart ⟨endsInName isName, continues⟩
      obtain ⟨first, rest, eq, start, -⟩ := isName
      unfold takeType
      split
      · next h =>
        rw [eq, List.cons_append] at h
        rw [(List.cons.inj h).1] at start
        exact absurd start (by decide)
      · rw [found]
        simp
    exact ⟨fun _ => taken, fun other => by rw [← withMark_of_clash other]; exact taken⟩
  | list item ih =>
    have inner := (@ih (']' :: text) named marks (by
      rintro ⟨-, continues⟩
      exact absurd (continuesName_cons.mp continues) (by decide))).2 (by simp)
    have taken : takeType ((TypeRef.list item).spelling.toList ++ text) =
        some (withMark (.list item) text) := by
      have eq : (TypeRef.list item).spelling.toList ++ text =
          '[' :: (item.spelling.toList ++ ']' :: text) := by simp [TypeRef.spelling]
      rw [eq, takeType, inner]
      rfl
    exact ⟨fun _ => taken, fun other => by rw [taken, withMark_of_clash other]⟩
  | nonNull inner ih =>
    refine ⟨fun none => absurd none (by simp [TypeRef.isNonNull]), fun _ => ?_⟩
    have marked := (@ih ('!' :: text) named marks.2 (by
      rintro ⟨-, continues⟩
      exact absurd (continuesName_cons.mp continues) (by decide))).1 marks.1
    have eq : (TypeRef.nonNull inner).spelling.toList ++ text =
        inner.spelling.toList ++ '!' :: text := by simp [TypeRef.spelling]
    rw [eq, marked]
    rfl

/-- A character that clashes with the first token does not stand before it either. -/
theorem head?_ne_of_laid {c : Char} {tokens : List Token} {text : List Char}
    (notBlank : isBlank c = false) (notHash : c ≠ '#') (laid : Laid tokens (skipBlank text))
    (clash : Opens (fun token => Clash [c] token.text) tokens) : text.head? ≠ some c := by
  cases text with
  | nil => simp
  | cons d text =>
    simp only [List.head?_cons, ne_eq, Option.some.injEq]
    rintro rfl
    rw [skipBlank, skipFrom, notBlank, if_neg (by simp), if_neg notHash] at laid
    cases tokens with
    | nil => cases laid
    | cons token tokens =>
      obtain ⟨rest, same, -⟩ := laid
      obtain ⟨first, front, eq, other⟩ := clash_singleton.mp (opens_cons.mp clash)
      rw [eq, List.cons_append] at same
      exact other (List.cons.inj same).1

/-- A type is read as it is spelled, if its marks stand once. -/
theorem reads_typeRef {ty : TypeRef} {after : List Token} (named : IsName ty.baseName)
    (marks : ty.MarksOnce) (clash : Opens (fun token => Clash ['!'] token.text) after) :
    Reads typeRef (.type ty :: after) (· = ty) after := by
  obtain ⟨c, rest, eq, -⟩ := text_type_cons named
  refine .rule <| reads_token (by simp [eq]) fun text apart laid => ⟨ty, ?_, rfl⟩
  have other : text.head? ≠ some '!' := head?_ne_of_laid (by decide) (by decide) laid clash
  simp [lexeme, Token.text, (takeType_append named marks apart).2 other]

/-! ### Visible tokens -/

theorem not_isBlank_of_isNameStart {c : Char} (start : isNameStart c = true) :
    isBlank c = false ∧ c ≠ '#' := by
  have separators_other : ∀ d ∈ separators, isNameStart d = false := by
    simp [separators, lineEnds]
    decide
  constructor
  · refine Bool.eq_false_iff.mpr fun blank => ?_
    rw [separators_other c (isBlank_iff.mp blank)] at start
    cases start
  · rintro rfl
    exact absurd start (by decide)

/-- Names say something. -/
theorem visible_word {word : String} (named : IsName word) : (Token.word word).IsVisible := by
  obtain ⟨first, rest, eq, start, -⟩ := named
  exact ⟨first, rest, eq, not_isBlank_of_isNameStart start⟩

theorem visible_mark (mark : Mark) : (Token.mark mark).IsVisible :=
  ⟨mark.char, [], rfl, by cases mark <;> decide⟩

theorem visible_type {ty : TypeRef} (named : IsName ty.baseName) : (Token.type ty).IsVisible := by
  obtain ⟨c, rest, eq, start | rfl⟩ := text_type_cons named
  · exact ⟨c, rest, eq, not_isBlank_of_isNameStart start⟩
  · exact ⟨'[', rest, eq, by decide⟩

end SchemaTypings.Sdl
