import Mathlib.Data.List.Infix
import SchemaTypings.Proofs.Text.Progress
import SchemaTypings.Sdl.Grammar

/-!
# Every rule of the grammar goes forward

The readers of tokens leave the end of the text they were given, so all rules do.
-/

namespace SchemaTypings.Sdl

open Text Reader

/-! ### Tokens -/

/-- No string and no comment begins with the character. -/
def IsPlain (c : Char) : Prop := c ≠ '"' ∧ c ≠ '#'

instance : DecidablePred IsPlain := fun _ => instDecidableAnd

/-- What is left of a text behind some plain characters. -/
def Behind (rest text : List Char) : Prop :=
  ∃ taken, taken ++ rest = text ∧ ∀ c ∈ taken, IsPlain c

namespace Behind

variable {rest middle text : List Char}

theorem rfl : Behind text text := ⟨[], List.nil_append _, by simp⟩

/-- What is left is the end of the text. -/
theorem suffix (behind : Behind rest text) : rest <:+ text :=
  ⟨behind.choose, behind.choose_spec.1⟩

/-- Plain characters behind plain characters are plain. -/
theorem trans (last : Behind rest middle) (first : Behind middle text) : Behind rest text := by
  obtain ⟨taken, eq, plain⟩ := first
  obtain ⟨taken', eq', plain'⟩ := last
  refine ⟨taken ++ taken', by rw [List.append_assoc, eq', eq], ?_⟩
  exact List.forall_mem_append.mpr ⟨plain, plain'⟩

theorem cons {c : Char} (plain : IsPlain c) : Behind text (c :: text) :=
  ⟨[c], List.singleton_append, by simpa using plain⟩

theorem dropWhile {part : Char → Bool} (quote : part '"' = false) (hash : part '#' = false)
    (text : List Char) : Behind (text.dropWhile part) text := by
  refine ⟨text.takeWhile part, List.takeWhile_append_dropWhile, fun c mem => ?_⟩
  have isPart := List.all_eq_true.mp List.all_takeWhile c mem
  constructor
  · rintro rfl
    rw [quote] at isPart
    cases isPart
  · rintro rfl
    rw [hash] at isPart
    cases isPart

end Behind

/-- Skipping blanks and comments leaves the end of the text. -/
theorem skipFrom_suffix (inComment : Bool) (text : List Char) : skipFrom inComment text <:+ text := by
  fun_induction skipFrom inComment text with
  | case1 => exact List.suffix_rfl
  | case2 c rest ih => exact ih.trans (List.suffix_cons c rest)
  | case3 c rest _ ih => exact ih.trans (List.suffix_cons c rest)
  | case4 rest _ ih => exact ih.trans (List.suffix_cons _ rest)
  | case5 => exact List.suffix_rfl

/-- A token is followed by the end of the text if the function leaves one. -/
theorem forward_lexeme {α : Type} {read : List Char → Option (α × List Char)}
    (forward : ∀ text value rest, read text = some (value, rest) → rest <:+ text) :
    Forward (lexeme read) := by
  intro text value rest found
  obtain ⟨⟨a, left⟩, taken, eq⟩ := Option.map_eq_some_iff.mp found
  cases eq
  exact (skipFrom_suffix false left).trans (forward _ _ _ taken)

theorem forward_literal (word : String) : Forward (literal word) := by
  refine forward_lexeme fun text value rest found => ?_
  obtain ⟨left, taken, eq⟩ := Option.map_eq_some_iff.mp found
  cases eq
  exact ⟨word.toList, List.append_eq_of_isPrefixOf?_eq_some taken⟩

/-- Names are made of plain characters. -/
theorem behind_of_takeName {text cs rest : List Char} (taken : takeName text = some (cs, rest)) :
    Behind rest text := by
  cases text with
  | nil => cases taken
  | cons c text =>
    rw [takeName] at taken
    split at taken
    · next start =>
      cases taken
      refine (Behind.dropWhile (by decide) (by decide) text).trans (.cons ⟨?_, ?_⟩)
      all_goals
        rintro rfl
        exact absurd start (by decide)
    · cases taken

theorem forward_name : Forward name := by
  refine .rule fun text => forward_lexeme (fun text value rest found => ?_) text
  obtain ⟨⟨cs, left⟩, taken, eq⟩ := Option.map_eq_some_iff.mp found
  cases eq
  exact (behind_of_takeName taken).suffix

theorem forward_enumValue : Forward enumValue := by
  refine .rule (forward_lexeme fun text value rest found => ?_)
  split at found
  · cases found
  · obtain ⟨⟨cs, left⟩, taken, eq⟩ := Option.map_eq_some_iff.mp found
    cases eq
    exact (behind_of_takeName taken).suffix

theorem behind_withMark (ty : TypeRef) (text : List Char) : Behind (withMark ty text).2 text := by
  unfold withMark
  split
  · exact .cons (by decide)
  · exact .rfl

/-- Types are made of plain characters. -/
theorem behind_of_takeType {text rest : List Char} {ty : TypeRef}
    (taken : takeType text = some (ty, rest)) : Behind rest text := by
  fun_induction takeType text generalizing ty rest with
  | case1 text item after found ih =>
    have marked := behind_withMark (.list item) after
    rw [Option.some.inj taken] at marked
    exact ((marked.trans (.cons (by decide))).trans (ih found)).trans (.cons (by decide))
  | case2 => cases taken
  | case3 text _ =>
    obtain ⟨⟨cs, left⟩, named, eq⟩ := Option.map_eq_some_iff.mp taken
    have marked := behind_withMark (.named (String.ofList cs)) left
    rw [show withMark (.named (String.ofList cs)) left = (ty, rest) from eq] at marked
    exact marked.trans (behind_of_takeName named)

theorem forward_typeRef : Forward typeRef :=
  .rule (forward_lexeme fun _ _ _ taken => (behind_of_takeType taken).suffix)

/-- Behind a string there is the end of the text. -/
theorem afterString_suffix {text rest : List Char} (found : afterString text = some rest) :
    rest <:+ text := by
  fun_induction afterString text with
  | case1 => cases found
  | case2 text =>
    cases found
    exact List.suffix_cons _ _
  | case3 a b c d text _ ih => exact (ih found).trans ⟨['\\', 'u', a, b, c, d], rfl⟩
  | case4 => cases found
  | case5 c text _ _ ih => exact (ih found).trans ⟨['\\', c], rfl⟩
  | case6 => cases found
  | case7 => cases found
  | case8 c text _ _ _ _ ih => exact (ih found).trans (List.suffix_cons c text)

theorem afterBlockString_suffix {text rest : List Char} (found : afterBlockString text = some rest) :
    rest <:+ text := by
  fun_induction afterBlockString text with
  | case1 => cases found
  | case2 text =>
    cases found
    exact ⟨['"', '"', '"'], rfl⟩
  | case3 text ih => exact (ih found).trans ⟨['\\', '"', '"', '"'], rfl⟩
  | case4 c text _ _ ih => exact (ih found).trans (List.suffix_cons c text)

/-- Behind a string of either form there is the end of the text. -/
theorem dropString_suffix {text rest : List Char} (found : dropString text = some rest) :
    rest <:+ text := by
  unfold dropString at found
  split at found
  · next text =>
    rw [Option.orElse_eq_orElse, Option.orElse_eq_or, Option.or_eq_some_iff] at found
    rcases found with found | ⟨-, found⟩
    · exact (afterBlockString_suffix found).trans ⟨['"', '"', '"'], rfl⟩
    · cases found
      exact ⟨['"', '"'], rfl⟩
  · exact (afterString_suffix found).trans (List.suffix_cons _ _)
  · cases found

theorem forward_string : Forward string := by
  refine .rule (forward_lexeme fun text value rest found => ?_)
  obtain ⟨left, taken, eq⟩ := Option.map_eq_some_iff.mp found
  cases eq
  exact dropString_suffix taken

theorem behind_of_takeWhole {text digits rest : List Char}
    (taken : takeWhole text = some (digits, rest)) : Behind rest text := by
  unfold takeWhole at taken
  split at taken
  · cases taken
    exact .cons (by decide)
  · split at taken
    · cases taken
    · cases taken
      exact .dropWhile (by decide) (by decide) _

theorem behind_takeFraction (text : List Char) : Behind (takeFraction text).2 text := by
  unfold takeFraction
  split
  · split
    · exact .rfl
    · exact (Behind.dropWhile (by decide) (by decide) _).trans (.cons (by decide))
  · exact .rfl

theorem behind_takeSign (text : List Char) : Behind (takeSign text).2 text := by
  unfold takeSign
  split
  · exact .cons (by decide)
  · exact .cons (by decide)
  · exact .rfl

/-- An exponent is a letter, perhaps a sign, and digits; without digits there is none. -/
theorem takeExponent_cons (c : Char) (rest : List Char) :
    takeExponent (c :: rest) =
      if c == 'e' || c == 'E' then
        match (takeSign rest).2.takeWhile Char.isDigit with
        | [] => (0, c :: rest)
        | taken =>
          (if (takeSign rest).1 then -(Decimal.natOfDigits taken : Int)
            else Decimal.natOfDigits taken,
            (takeSign rest).2.dropWhile Char.isDigit)
      else (0, c :: rest) := rfl

theorem behind_takeExponent (text : List Char) : Behind (takeExponent text).2 text := by
  cases text with
  | nil => exact .rfl
  | cons c rest =>
    rw [takeExponent_cons]
    split
    · next letter =>
      split
      · exact .rfl
      · refine ((Behind.dropWhile (by decide) (by decide) _).trans (behind_takeSign rest)).trans
          (.cons ⟨?_, ?_⟩)
        all_goals
          rintro rfl
          exact absurd letter (by decide)
    · exact .rfl

/-- A number by its parts. -/
theorem takeUnsigned_eq (text : List Char) :
    takeUnsigned text =
      (takeWhole text).bind fun (whole, rest) =>
        let fraction := takeFraction rest
        let exponent := takeExponent fraction.2
        if exponent.2.head?.any isNameStart then none
        else some (ScaledWord.ofDigits whole fraction.1 exponent.1, exponent.2) := by
  unfold takeUnsigned
  cases takeWhole text with
  | none => rfl
  | some taken =>
    obtain ⟨whole, rest⟩ := taken
    simp only [Option.bind_some, Option.bind_eq_bind]
    obtain ⟨fraction, behind⟩ := takeFraction rest
    obtain ⟨exponent, last⟩ := takeExponent behind
    cases last with
    | nil => rfl
    | cons c tail => by_cases continues : isNameStart c <;> simp [continues]

theorem behind_of_takeUnsigned {text rest : List Char} {number : ScaledWord}
    (taken : takeUnsigned text = some (number, rest)) : Behind rest text := by
  rw [takeUnsigned_eq] at taken
  obtain ⟨⟨whole, behind⟩, isWhole, taken⟩ := Option.bind_eq_some_iff.mp taken
  simp only at taken
  split at taken
  · cases taken
  · cases taken
    exact ((behind_takeExponent _).trans (behind_takeFraction _)).trans (behind_of_takeWhole isWhole)

/-- Numbers are made of plain characters. -/
theorem behind_of_takeNumber {text rest : List Char} {number : ScaledWord}
    (taken : takeNumber text = some (number, rest)) : Behind rest text := by
  unfold takeNumber at taken
  split at taken
  · exact (behind_of_takeUnsigned taken).trans (.cons (by decide))
  · exact behind_of_takeUnsigned taken

theorem forward_number : Forward number := by
  refine .rule fun text => forward_lexeme (fun text value rest found => ?_) text
  obtain ⟨⟨number, left⟩, taken, eq⟩ := Option.map_eq_some_iff.mp found
  cases eq
  exact (behind_of_takeNumber taken).suffix

/-! ### Constant values -/

theorem forward_orEmpty {α : Type} {read : Reader (List α)} (forward : Forward read) :
    Forward (orEmpty read) :=
  forward.orElse .done

theorem forward_description : Forward description := forward_string.orElse .done

theorem forward_extend : Forward extend := .rule (forward_literal _)

theorem forward_plainValue : Forward plainValue := by
  refine .firstOf ?_
  simp only [List.forall_mem_cons, List.not_mem_nil, false_implies, implies_true, and_true]
  exact ⟨forward_string, .rule (.orElse (forward_literal _) (forward_literal _)),
    .rule (forward_literal _), forward_enumValue.andThen fun _ => .done⟩

/-- Brackets around a repetition. -/
theorem forward_enclosed {α β : Type} {opening closing : String} {read : Reader (List α)}
    {f : List α → β} (forward : Forward read) :
    Forward (do
      literal opening
      let values ← read
      literal closing
      return f values) :=
  .bind (forward_literal _) fun _ => .bind forward fun _ => .bind (forward_literal _) fun _ => .done

/-- Values leave the end of the text, however deep they are nested. -/
theorem forward_valueWithin (depth : Nat) : Forward (valueWithin depth) := by
  induction depth with
  | zero => rintro text value rest ⟨⟩
  | succ depth ih =>
    refine .rule (.firstOf ?_)
    simp only [List.forall_mem_cons, List.not_mem_nil, false_implies, implies_true, and_true]
    refine ⟨forward_number.andThen fun _ => .done, forward_plainValue.andThen fun _ => .done,
      .rule (forward_enclosed ih.many), .rule (forward_enclosed (.many (.rule ?_)))⟩
    exact .bind forward_name fun _ => .bind (forward_literal _) fun _ => ih

theorem forward_constValue : Forward constValue :=
  fun text => forward_valueWithin (text.length + 1) text

/-! ### Directives and arguments -/

theorem forward_directiveArguments : Forward directiveArguments := by
  refine .rule (forward_enclosed (.several (.rule ?_)))
  exact .bind forward_name fun _ => .bind (forward_literal _) fun _ => forward_constValue

/-- Directives leave the end of the text. -/
theorem forward_directives : Forward directives := by
  refine .rule (.bind (.several (.rule ?_)) fun _ => .done)
  exact .bind (forward_literal _) fun _ => .bind forward_name fun _ =>
    forward_orEmpty forward_directiveArguments

theorem forward_inputValue : Forward inputValue := by
  refine .rule (.bind forward_description fun _ => .bind forward_name fun _ =>
    .bind (forward_literal _) fun _ => .bind forward_typeRef fun _ => .bind (forward_orEmpty ?_)
      fun _ => .bind (forward_orEmpty forward_directives) fun _ => .done)
  exact .rule (.bind (forward_literal _) fun _ => forward_constValue)

/-- Declared arguments leave the end of the text. -/
theorem forward_arguments : Forward arguments := .rule (forward_enclosed forward_inputValue.several)

theorem forward_inputFields : Forward inputFields :=
  .rule (forward_enclosed forward_inputValue.several)

theorem forward_interfaces : Forward interfaces := by
  refine .rule (.bind (forward_literal _) fun _ => .bind (.optional (forward_literal _)) fun _ =>
    .bind forward_name fun _ => .bind (.many ?_) fun _ => .done)
  exact .bind (forward_literal _) fun _ => forward_name

theorem forward_unionMembers : Forward unionMembers := by
  refine .rule (.bind (forward_literal _) fun _ => .bind (.optional (forward_literal _)) fun _ =>
    .bind forward_name fun _ => .bind (.many ?_) fun _ => .done)
  exact .bind (forward_literal _) fun _ => forward_name

theorem forward_enumValues : Forward enumValues := by
  refine .rule (forward_enclosed (f := id) (.several (.rule ?_)))
  exact .bind forward_description fun _ => .bind forward_enumValue fun _ =>
    .bind (forward_orEmpty forward_directives) fun _ => .done

/-! ### Schema blocks and directive declarations -/

theorem forward_maybeDirectivesAnd {α : Type} {body : Reader α} (forward : Forward body) :
    Forward (maybeDirectivesAnd body) :=
  .bind (forward_orEmpty forward_directives) fun _ => .bind forward.optional fun _ => .done

theorem forward_directivesAnd {α : Type} {body : Reader α} (forward : Forward body) :
    Forward (directivesAnd body) :=
  .orElse (.bind (forward_orEmpty forward_directives) fun _ => .bind forward fun _ => .done)
    (.bind forward_directives fun _ => .done)

theorem forward_remaining : Forward remaining := by
  rintro text value rest ⟨⟩
  exact List.suffix_rfl

theorem forward_operation : Forward operation := by
  refine .rule (.bind forward_remaining fun left => .firstOf ?_)
  rw [List.forall_mem_map]
  exact fun operation _ => .andThen (forward_literal _) fun _ => .done

theorem forward_roots : Forward roots := by
  refine forward_enclosed (f := id) (.several (.rule ?_))
  exact .bind forward_operation fun _ => .bind (forward_literal _) fun _ =>
    .bind forward_name fun _ => .done

theorem forward_schemaBlock : Forward schemaBlock := by
  refine .rule (.bind forward_remaining fun left => .orElse ?_ ?_)
  · exact .bind (forward_literal _) fun _ => .bind (forward_orEmpty forward_directives) fun _ =>
      .bind forward_roots fun _ => .done
  · exact .bind forward_extend fun _ => .bind (forward_literal _) fun _ =>
      .bind (forward_directivesAnd forward_roots) fun _ => .done

theorem forward_directiveLocation : Forward directiveLocation := by
  refine .rule (.firstOf ?_)
  rw [List.forall_mem_map]
  exact fun location _ => forward_literal location

theorem forward_directiveDeclaration : Forward directiveDeclaration := by
  refine .rule (.bind forward_description fun _ => .bind (forward_literal _) fun _ =>
    .bind (forward_literal _) fun _ => .bind forward_name fun _ =>
    .bind (forward_orEmpty forward_arguments) fun _ => .bind (.optional (forward_literal _)) fun _ =>
    .bind (forward_literal _) fun _ => .bind (.rule ?_) fun _ => .done)
  refine .bind (.optional (forward_literal _)) fun _ => .bind forward_directiveLocation fun _ =>
    .bind (.many ?_) fun _ => .done
  exact .bind (forward_literal _) fun _ => forward_directiveLocation

end SchemaTypings.Sdl
