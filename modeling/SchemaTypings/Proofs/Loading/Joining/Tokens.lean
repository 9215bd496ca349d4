import SchemaTypings.Proofs.Loading.Progress

/-!
# Tokens of joined texts

A text is joined to another one behind it by a line feed, which no token can hold but a
block string. So each token of the first text is taken from the joined text as it is taken
from the first one alone, as long as no block string of the first text is left open that the
second one could close.
-/

namespace SchemaTypings.Sdl

open Text Reader

/-! ### Block strings -/

/-- Every block string that begins in the text is closed in it. -/
inductive ClosesBlocks : List Char → Prop where
  | nil : ClosesBlocks []
  | comment {text : List Char} : ClosesBlocks (skipFrom true text) → ClosesBlocks ('#' :: text)
  | block {text rest : List Char} : afterBlockString text = some rest → ClosesBlocks rest →
      ClosesBlocks ('"' :: '"' :: '"' :: text)
  | string {text rest : List Char} : ¬ ['"', '"'] <+: text → afterString text = some rest →
      ClosesBlocks rest → ClosesBlocks ('"' :: text)
  | plain {c : Char} {rest : List Char} : IsPlain c → ClosesBlocks rest → ClosesBlocks (c :: rest)

namespace ClosesBlocks

variable {text rest taken : List Char}

/-- Behind a plain character, block strings are closed too. -/
theorem of_cons {c : Char} (closes : ClosesBlocks (c :: rest)) (isPlain : IsPlain c) :
    ClosesBlocks rest := by
  cases closes with
  | comment _ => exact absurd rfl isPlain.2
  | block _ _ => exact absurd rfl isPlain.1
  | string _ _ _ => exact absurd rfl isPlain.1
  | plain _ closes => exact closes

/-- Plain characters in front make no difference. -/
theorem append_iff (plain : ∀ c ∈ taken, IsPlain c) :
    ClosesBlocks (taken ++ rest) ↔ ClosesBlocks rest := by
  induction taken with
  | nil => rfl
  | cons c taken ih =>
    rw [List.forall_mem_cons] at plain
    rw [List.cons_append, ← ih plain.2]
    exact ⟨fun closes => closes.of_cons plain.1, .plain plain.1⟩

theorem behind (closes : ClosesBlocks text) (left : Behind rest text) : ClosesBlocks rest := by
  obtain ⟨taken, rfl, plain⟩ := left
  exact (append_iff plain).mp closes

theorem isPlain_of_isBlank {c : Char} (blank : isBlank c = true) : IsPlain c := by
  constructor
  all_goals
    rintro rfl
    exact absurd blank (by decide)

/-- Blanks hold no block strings. -/
theorem skipBlank (closes : ClosesBlocks text) : ClosesBlocks (skipBlank text) := by
  induction text with
  | nil => exact .nil
  | cons c text ih =>
    rw [Sdl.skipBlank, skipFrom]
    split
    · next blank => exact ih (closes.of_cons (isPlain_of_isBlank blank))
    · split
      · next hash =>
        subst hash
        cases closes with
        | comment closes => exact closes
        | plain isPlain _ => exact absurd rfl isPlain.2
      · exact closes

/-- A string that begins with three quotes is a closed block string. -/
theorem exists_afterBlockString (closes : ClosesBlocks ('"' :: '"' :: '"' :: text)) :
    ∃ rest, afterBlockString text = some rest ∧ ClosesBlocks rest := by
  cases closes with
  | block closed closes => exact ⟨_, closed, closes⟩
  | string single _ _ => exact absurd ⟨text, rfl⟩ single
  | plain isPlain _ => exact absurd rfl isPlain.1

/-- A string that is closed leaves the block strings behind it closed. -/
theorem dropString (closes : ClosesBlocks text) (found : dropString text = some rest) :
    ClosesBlocks rest := by
  unfold Sdl.dropString at found
  split at found
  · next text =>
    obtain ⟨left, closed, closes⟩ := closes.exists_afterBlockString
    rw [closed] at found
    cases found
    exact closes
  · next text others =>
    cases closes with
    | block closed closes => exact absurd rfl (others _)
    | string _ read closes =>
      cases read.symm.trans found
      exact closes
    | plain isPlain _ => exact absurd rfl isPlain.1
  · cases found

end ClosesBlocks

/-- No block string of the first text is closed in the second one. -/
def KeepsStrings (text behind : List Char) : Prop :=
  ClosesBlocks text ∨ afterBlockString behind = none

/-- Strings that are kept apart are so behind plain characters. -/
theorem KeepsStrings.leaves {text rest behind : List Char} (keeps : KeepsStrings text behind)
    (left : Behind rest text) : KeepsStrings rest behind :=
  keeps.imp_left fun closes => closes.behind left

/-! ### Characters of a joined text -/

section Characters

variable {behind : List Char}

/-- A prefix without line feed does not reach beyond the first text. -/
theorem isPrefixOf?_joined {word : List Char} (single : '\n' ∉ word) (text : List Char) :
    word.isPrefixOf? (text ++ '\n' :: behind) =
      (word.isPrefixOf? text).map (· ++ '\n' :: behind) := by
  induction word generalizing text with
  | nil => simp [List.isPrefixOf?]
  | cons c word ih =>
    rw [List.mem_cons, not_or] at single
    cases text with
    | nil => simp [List.isPrefixOf?, Ne.symm single.1]
    | cons d text =>
      by_cases same : c = d
      · simpa [List.isPrefixOf?, same] using ih single.2 text
      · simp [List.isPrefixOf?, same]

/-- A word in one line does not reach into the second text. -/
theorem prefix_joined_iff {word : List Char} (single : '\n' ∉ word) (text : List Char) :
    word <+: text ++ '\n' :: behind ↔ word <+: text := by
  rw [← List.isPrefixOf_iff_prefix, ← List.isPrefixOf_iff_prefix,
    ← List.isSome_isPrefixOf?_eq_isPrefixOf, ← List.isSome_isPrefixOf?_eq_isPrefixOf,
    isPrefixOf?_joined single, Option.isSome_map]

/-- What stops at a line end does not reach into the second text. -/
theorem takeWhile_joined {part : Char → Bool} (stops : part '\n' = false) (text : List Char) :
    (text ++ '\n' :: behind).takeWhile part = text.takeWhile part := by
  induction text with
  | nil => simp [stops]
  | cons c text ih => by_cases h : part c <;> simp [h, ih]

theorem dropWhile_joined {part : Char → Bool} (stops : part '\n' = false) (text : List Char) :
    (text ++ '\n' :: behind).dropWhile part = text.dropWhile part ++ '\n' :: behind := by
  induction text with
  | nil => simp [stops]
  | cons c text ih => by_cases h : part c <;> simp [h, ih]

end Characters

/-! ### Functions that take a token -/

section Functions

variable {behind : List Char}

/-- Names are taken alike. -/
theorem takeName_joined (text : List Char) :
    takeName (text ++ '\n' :: behind) =
      (takeName text).map (Prod.map id (· ++ '\n' :: behind)) := by
  cases text with
  | nil => rfl
  | cons c text =>
    rw [List.cons_append, takeName, takeName, takeWhile_joined rfl, dropWhile_joined rfl]
    split <;> rfl

theorem withMark_joined (ty : TypeRef) (text : List Char) :
    withMark ty (text ++ '\n' :: behind) =
      Prod.map id (· ++ '\n' :: behind) (withMark ty text) := by
  cases text with
  | nil => rfl
  | cons c text =>
    by_cases mark : c = '!'
    · subst mark
      rfl
    · rw [List.cons_append, withMark, withMark]
      · rfl
      · simpa using mark
      · simpa using mark

/-- Types are taken alike. -/
theorem takeType_joined (text : List Char) :
    takeType (text ++ '\n' :: behind) =
      (takeType text).map (Prod.map id (· ++ '\n' :: behind)) := by
  fun_induction takeType text with
  | case1 text item after found ih =>
    rw [List.cons_append, takeType, ih, found]
    exact congrArg some (withMark_joined _ after)
  | case2 text other ih =>
    rw [List.cons_append, takeType, ih]
    cases found : takeType text with
    | none => rfl
    | some taken =>
      obtain ⟨item, rest⟩ := taken
      cases rest with
      | nil => rfl
      | cons c rest =>
        have different : c ≠ ']' := by
          rintro rfl
          exact other _ _ found
        simp [different]
  | case3 text other =>
    have named (text : List Char) (other : ∀ rest, text ≠ '[' :: rest) :
        takeType text = (takeName text).map fun taken =>
          withMark (.named (String.ofList taken.1)) taken.2 := by
      rw [takeType]
      simpa using other
    rw [named, takeName_joined, Option.map_map, Option.map_map]
    · exact congrArg (Option.map · _) (funext fun taken => withMark_joined _ taken.2)
    · rintro rest eq
      cases text with
      | nil => cases eq
      | cons c text =>
        cases eq
        exact other _ rfl

/-! ### Strings -/

/-- Four digits behind a backslash write one character. -/
theorem afterString_digits (a b c d : Char) (text : List Char) :
    afterString ('\\' :: 'u' :: a :: b :: c :: d :: text) =
      if [a, b, c, d].all isHexDigit && !isSurrogate a b then afterString text else none :=
  rfl

theorem afterString_of_isEscapable {c : Char} (escapable : isEscapable c = true)
    (text : List Char) : afterString ('\\' :: c :: text) = afterString text := by
  rw [afterString.eq_def]
  split
  · contradiction
  · next eq => cases eq
  · next eq =>
    cases eq
    cases escapable
  · next eq =>
    cases eq
    rw [if_pos escapable]
  · next other eq =>
    cases eq
    exact (other _ _ rfl rfl).elim

/-- A character that is neither a quote nor a backslash belongs to the string, unless it
ends the line. -/
theorem afterString_of_ne {c : Char} (quote : c ≠ '"') (backslash : c ≠ '\\') (text : List Char) :
    afterString (c :: text) = if isLineEnd c then none else afterString text := by
  rw [afterString.eq_def]
  split
  · contradiction
  · next eq => exact absurd (List.cons.inj eq).1 quote
  · next eq => exact absurd (List.cons.inj eq).1 backslash
  · next eq => exact absurd (List.cons.inj eq).1 backslash
  · next eq =>
    cases eq
    simp [backslash]

/-- A backslash stands only before characters that can be escaped, or before a `u` with four
digits. -/
theorem afterString_eq_none {c : Char} {text : List Char} (other : isEscapable c = false)
    (noDigits : c = 'u' → ∃ d ∈ text.take 4, isHexDigit d = false) :
    afterString ('\\' :: c :: text) = none := by
  rw [afterString.eq_def]
  split
  · contradiction
  · next eq => cases eq
  · next a b d e rest eq =>
    cases eq
    rw [if_neg]
    simp only [List.take, List.mem_cons] at noDigits
    grind
  · next rest _ eq =>
    cases eq
    rw [if_neg (by simp [other])]
  · next rest _ _ other eq =>
    cases eq
    exact (other _ _ rfl rfl).elim

/-- No string goes on in the next line. -/
theorem afterString_joined (text : List Char) :
    afterString (text ++ '\n' :: behind) = (afterString text).map (· ++ '\n' :: behind) := by
  fun_induction afterString text with
  | case1 => rfl
  | case2 text => rfl
  | case3 a b c d text valid ih =>
    simp only [List.cons_append]
    rw [afterString_digits, if_pos valid, ih]
  | case4 a b c d text invalid =>
    simp only [List.cons_append]
    rw [afterString_digits, if_neg invalid]
    rfl
  | case5 c text _ escapable ih =>
    simp only [List.cons_append]
    rw [afterString_of_isEscapable escapable, ih]
  | case6 c text short other =>
    refine afterString_eq_none (by simpa using other) fun eq => ⟨'\n', ?_, rfl⟩
    rcases text with _ | ⟨a, _ | ⟨b, _ | ⟨d, _ | ⟨e, text⟩⟩⟩⟩
    case cons.cons.cons.cons => exact (short _ _ _ _ _ eq rfl).elim
    all_goals simp
  | case7 c text quote _ alone ends =>
    by_cases backslash : c = '\\'
    · cases text with
      | nil =>
        subst backslash
        exact afterString_eq_none rfl (fun eq => absurd eq (by decide))
      | cons d text => exact (alone _ _ backslash rfl).elim
    · have lineEnd : isLineEnd c = true := by simpa [backslash] using ends
      rw [List.cons_append, afterString_of_ne quote backslash, if_pos lineEnd]
      rfl
  | case8 c text quote _ _ inside ih =>
    rw [Bool.or_eq_true, beq_iff_eq, not_or] at inside
    rw [List.cons_append, afterString_of_ne quote inside.1, if_neg inside.2, ih]

/-- A character at which no quotes begin belongs to the block string. -/
theorem afterBlockString_cons {c : Char} {text : List Char}
    (opened : ¬ ['"', '"', '"'] <+: c :: text) (escaped : ¬ ['\\', '"', '"', '"'] <+: c :: text) :
    afterBlockString (c :: text) = afterBlockString text := by
  rw [afterBlockString]
  · rintro rest rfl rfl
    exact opened ⟨rest, rfl⟩
  · rintro rest rfl rfl
    exact escaped ⟨rest, rfl⟩

/-- A block string is closed in the first text, or else in the one behind it. -/
theorem afterBlockString_joined (text : List Char) :
    afterBlockString (text ++ '\n' :: behind) =
      ((afterBlockString text).map (· ++ '\n' :: behind)).or (afterBlockString behind) := by
  fun_induction afterBlockString text with
  | case1 => rfl
  | case2 text => rfl
  | case3 text ih => exact ih
  | case4 c text open_ escaped ih =>
    rw [← ih, List.cons_append, afterBlockString_cons]
    · rw [← List.cons_append, prefix_joined_iff (by decide)]
      rintro ⟨rest, eq⟩
      cases eq
      exact open_ _ rfl rfl
    · rw [← List.cons_append, prefix_joined_iff (by decide)]
      rintro ⟨rest, eq⟩
      cases eq
      exact escaped _ rfl rfl

theorem dropString_of_not_prefix {text : List Char} (single : ¬ ['"', '"'] <+: text) :
    dropString ('"' :: text) = afterString text := by
  rw [dropString]
  rintro rest rfl
  exact single ⟨rest, rfl⟩

theorem dropString_of_ne {c : Char} (quote : c ≠ '"') (text : List Char) :
    dropString (c :: text) = none := by
  rw [dropString]
  all_goals simp [quote]

/-- Strings are dropped alike, if no block string is closed in the second text. -/
theorem dropString_joined {text : List Char} (keeps : KeepsStrings text behind) :
    dropString (text ++ '\n' :: behind) = (dropString text).map (· ++ '\n' :: behind) := by
  cases text with
  | nil => exact dropString_of_ne (by decide) behind
  | cons c text =>
    by_cases quote : c = '"'
    · subst quote
      by_cases block : ['"', '"'] <+: text
      · obtain ⟨text, rfl⟩ := block
        have closed : afterBlockString (text ++ '\n' :: behind) =
            (afterBlockString text).map (· ++ '\n' :: behind) := by
          rw [afterBlockString_joined]
          rcases keeps with closes | none
          · obtain ⟨rest, found, -⟩ := @ClosesBlocks.exists_afterBlockString text closes
            rw [found]
            rfl
          · rw [none, Option.or_none]
        simp only [List.cons_append, List.nil_append, dropString, closed]
        cases afterBlockString text <;> rfl
      · rw [List.cons_append, dropString_of_not_prefix block, ← afterString_joined,
          dropString_of_not_prefix]
        rwa [prefix_joined_iff (by decide)]
    · rw [List.cons_append, dropString_of_ne quote, dropString_of_ne quote]
      rfl

/-! ### Numbers -/

theorem takeWhole_joined (text : List Char) :
    takeWhole (text ++ '\n' :: behind) =
      (takeWhole text).map (Prod.map id (· ++ '\n' :: behind)) := by
  cases text with
  | nil => rfl
  | cons c text =>
    by_cases zero : c = '0'
    · subst zero
      rfl
    · rw [List.cons_append, takeWhole, takeWhole, ← List.cons_append, takeWhile_joined rfl,
        dropWhile_joined rfl]
      · cases (c :: text).takeWhile Char.isDigit <;> rfl
      · simpa using zero
      · simpa using zero

theorem takeFraction_joined (text : List Char) :
    takeFraction (text ++ '\n' :: behind) =
      Prod.map id (· ++ '\n' :: behind) (takeFraction text) := by
  cases text with
  | nil => rfl
  | cons c text =>
    by_cases point : c = '.'
    · subst point
      simp only [List.cons_append, takeFraction]
      rw [takeWhile_joined rfl, dropWhile_joined rfl]
      cases text.takeWhile Char.isDigit <;> rfl
    · rw [List.cons_append, takeFraction, takeFraction]
      · rfl
      · simpa using point
      · simpa using point

theorem takeSign_joined (text : List Char) :
    takeSign (text ++ '\n' :: behind) = Prod.map id (· ++ '\n' :: behind) (takeSign text) := by
  cases text with
  | nil => rfl
  | cons c text =>
    rw [List.cons_append]
    unfold takeSign
    split
    · next eq =>
      cases eq
      rfl
    · next eq =>
      cases eq
      rfl
    · next minus plus =>
      split
      · next eq =>
        cases eq
        exact absurd rfl (minus _)
      · next eq =>
        cases eq
        exact absurd rfl (plus _)
      · rfl

/-- Exponents are taken alike. -/
theorem takeExponent_joined (text : List Char) :
    takeExponent (text ++ '\n' :: behind) =
      Prod.map id (· ++ '\n' :: behind) (takeExponent text) := by
  cases text with
  | nil => rfl
  | cons c text =>
    rw [List.cons_append, takeExponent_cons, takeExponent_cons, takeSign_joined]
    by_cases letter : c == 'e' || c == 'E'
    · rw [if_pos letter, if_pos letter]
      simp only [Prod.map_fst, Prod.map_snd, id_eq]
      rw [takeWhile_joined rfl, dropWhile_joined rfl]
      cases (takeSign text).2.takeWhile Char.isDigit <;> rfl
    · rw [if_neg letter, if_neg letter]
      rfl

theorem takeUnsigned_joined (text : List Char) :
    takeUnsigned (text ++ '\n' :: behind) =
      (takeUnsigned text).map (Prod.map id (· ++ '\n' :: behind)) := by
  rw [takeUnsigned_eq, takeUnsigned_eq, takeWhole_joined]
  cases takeWhole text with
  | none => rfl
  | some taken =>
    obtain ⟨whole, rest⟩ := taken
    simp only [Option.map_some, Option.bind_some, Prod.map_fst, Prod.map_snd, Prod.map_apply, id_eq,
      takeFraction_joined, takeExponent_joined]
    cases (takeExponent (takeFraction rest).2).2 with
    | nil => rfl
    | cons c last =>
      by_cases continues : isNameStart c <;> simp [continues]

/-- Numbers are taken alike. -/
theorem takeNumber_joined (text : List Char) :
    takeNumber (text ++ '\n' :: behind) =
      (takeNumber text).map (Prod.map id (· ++ '\n' :: behind)) := by
  cases text with
  | nil => exact takeUnsigned_joined []
  | cons c text =>
    by_cases minus : c = '-'
    · subst minus
      exact takeUnsigned_joined text
    · rw [List.cons_append, takeNumber, takeNumber, ← List.cons_append, takeUnsigned_joined]
      · simpa using minus
      · simpa using minus

end Functions

end SchemaTypings.Sdl
