import Mathlib.Data.List.Forall2
import SchemaTypings.Proofs.Loading.Layout
import SchemaTypings.Proofs.Text.Reading
import SchemaTypings.Sdl.Grammar

/-!
# Reading laid-out tokens

`Laid` says of a text what its readers need: it begins with a token, which nothing
lengthens, and reads on with the other tokens behind blanks. `Reads` says which tokens a
reader takes off any text that is laid out from them, and `Rejects` that it takes none.
-/

namespace SchemaTypings.Sdl

open Text Reader

/-! ### Texts in which tokens stand in order -/

/-- The text begins with the first token, cut off from what stands behind it, and goes on
with the others behind blanks. -/
def Laid : List Token → List Char → Prop
  | [], text => text = []
  | token :: tokens, text => ∃ after, text = token.text ++ after ∧
      ¬ (EndsInName token.text ∧ ContinuesName after) ∧ Laid tokens (skipBlank after)

/-- The first character of the token says something. -/
def Token.IsVisible (token : Token) : Prop :=
  ∃ c rest, token.text = c :: rest ∧ isBlank c = false ∧ c ≠ '#'

theorem isBlank_iff {c : Char} : isBlank c = true ↔ c ∈ separators := by
  simp only [isBlank, isLineEnd, separators, lineEnds, List.mem_append, List.mem_cons,
    List.not_mem_nil, or_false, Bool.or_eq_true, beq_iff_eq]
  grind

theorem isLineEnd_iff {c : Char} : isLineEnd c = true ↔ c ∈ lineEnds := by
  simp [isLineEnd, lineEnds]

/-- A comment ends with its line, and blanks go on behind it. -/
theorem skipFrom_comment {body rest : List Char} {ending : Char}
    (line : ∀ c ∈ body, c ∉ lineEnds) (ends : ending ∈ lineEnds) :
    skipFrom true (body ++ ending :: rest) = skipBlank rest := by
  induction body with
  | nil =>
    rw [List.nil_append, skipFrom, isLineEnd_iff.mpr ends]
    rfl
  | cons c body ih =>
    have inside : isLineEnd c = false :=
      Bool.eq_false_iff.mpr fun h => line c List.mem_cons_self (isLineEnd_iff.mp h)
    rw [List.cons_append, skipFrom, inside]
    exact ih fun c mem => line c (List.mem_cons_of_mem _ mem)

/-- A gap is skipped as a whole. -/
theorem skipBlank_append {gap text : List Char} (isGap : IsGap gap) :
    skipBlank (gap ++ text) = skipBlank text := by
  induction isGap with
  | nil => rfl
  | separator mem _ ih =>
    rw [List.cons_append, skipBlank, skipFrom, if_pos (isBlank_iff.mpr mem)]
    exact ih
  | comment line ends _ ih =>
    rw [List.cons_append, List.cons_append, List.append_assoc, List.cons_append, skipBlank,
      skipFrom, if_neg (by decide), if_pos rfl]
    exact (skipFrom_comment line ends).trans ih

/-- No blank is skipped in front of a token that says something. -/
theorem skipBlank_visible {token : Token} (visible : token.IsVisible) (after : List Char) :
    skipBlank (token.text ++ after) = token.text ++ after := by
  obtain ⟨c, rest, eq, notBlank, notHash⟩ := visible
  rw [eq, List.cons_append, skipBlank, skipFrom, notBlank, if_neg (by simp), if_neg notHash]

/-- No gap with something in it goes on with a name. -/
theorem IsGap.not_continuesName {gap text : List Char} (isGap : IsGap gap) (some : gap ≠ []) :
    ¬ ContinuesName (gap ++ text) := by
  cases isGap with
  | nil => exact absurd rfl some
  | separator mem _ =>
    rw [List.cons_append, continuesName_cons]
    simp only [separators, lineEnds, List.cons_append, List.nil_append, List.mem_cons,
      List.not_mem_nil, or_false] at mem
    rcases mem with rfl | rfl | rfl | rfl | rfl | rfl <;> decide
  | comment _ _ _ =>
    rw [List.cons_append, List.cons_append, continuesName_cons]
    decide

/-- Laid-out tokens can be read one after the other. -/
theorem LaidOut.laid {tokens : List Token} {text : List Char} (laidOut : LaidOut tokens text)
    (visible : ∀ token ∈ tokens, token.IsVisible) :
    Laid tokens text ∧ skipBlank text = text := by
  induction laidOut with
  | nil => exact ⟨rfl, rfl⟩
  | @cons token tokens gap text isGap apart _ ih =>
    obtain ⟨laid, start⟩ := ih fun token mem => visible token (List.mem_cons_of_mem _ mem)
    rw [List.append_assoc]
    refine ⟨⟨gap ++ text, rfl, ?_, ?_⟩, skipBlank_visible (visible token List.mem_cons_self) _⟩
    · rintro ⟨ends, continues⟩
      by_cases empty : gap = []
      · subst empty
        exact apart rfl ⟨ends, continues⟩
      · exact isGap.not_continuesName empty continues
    · rw [skipBlank_append isGap, start]
      exact laid

/-! ### What readers do on tokens -/

/-- From any text that lays out the tokens `before`, the reader takes a value for which
`holds`, and leaves a text that lays out `after`. -/
def Reads {α : Type} (read : Reader α) (before : List Token) (holds : α → Prop)
    (after : List Token) : Prop :=
  ∀ text, Laid before text → ∃ a rest, (read text).result = some (a, rest) ∧ holds a ∧
    Laid after rest ∧ before.length + rest.length ≤ after.length + text.length

/-- The reader fails on any text that lays out the tokens. -/
def Rejects {α : Type} (read : Reader α) (tokens : List Token) : Prop :=
  ∀ text, Laid tokens text → (read text).result = none

section Combinations

variable {α β : Type} {read first second : Reader α} {next : α → Reader β}
  {before middle after : List Token} {holds : α → Prop} {then_ : β → Prop}

theorem Reads.done {a : α} (held : holds a) : Reads (Reader.done a) after holds after :=
  fun text laid => ⟨a, text, rfl, held, laid, Nat.le_refl _⟩

theorem Reads.pure {a : α} (held : holds a) : Reads (Pure.pure a) after holds after :=
  Reads.done held

/-- One reader takes up where the other leaves off. -/
theorem Reads.bind (one : Reads first before holds middle)
    (two : ∀ a, holds a → Reads (next a) middle then_ after) :
    Reads (first >>= next) before then_ after := by
  intro text laid
  obtain ⟨a, rest, result, held, laid, length⟩ := one text laid
  obtain ⟨b, last, result', held', laid', length'⟩ := two a held rest laid
  exact ⟨b, last, (result_bind_of_some result).trans result', held', laid', by omega⟩

theorem Reads.rule (reads : Reads read before holds after) :
    Reads (Reader.rule read) before holds after := by
  intro text laid
  rw [result_rule]
  exact reads text laid

theorem Reads.orElse_left (reads : Reads first before holds after) :
    Reads (orElse first second) before holds after := by
  intro text laid
  obtain ⟨a, rest, result, others⟩ := reads text laid
  exact ⟨a, rest, by rw [result_orElse, result]; rfl, others⟩

/-- The second reader has its turn where the first one fails. -/
theorem Reads.orElse_right (rejects : Rejects first before)
    (reads : Reads second before holds after) : Reads (orElse first second) before holds after := by
  intro text laid
  rw [result_orElse, rejects text laid]
  exact reads text laid

/-- A reader that fails is passed over. -/
theorem Reads.optional_none {known : Option α → Prop} (rejects : Rejects read after)
    (held : known none) : Reads (optional read) after known after := by
  intro text laid
  exact ⟨none, text, by rw [result_optional, rejects text laid]; rfl, held, laid, Nat.le_refl _⟩

/-- A reader that succeeds is not passed over. -/
theorem Reads.optional_some {known : Option α → Prop}
    (reads : Reads read before (fun a => known (some a)) after) :
    Reads (optional read) before known after := by
  intro text laid
  obtain ⟨a, rest, result, others⟩ := reads text laid
  exact ⟨some a, rest, by rw [result_optional, result]; rfl, others⟩

theorem Reads.orEmpty_nil {read : Reader (List α)} (rejects : Rejects read after) :
    Reads (orEmpty read) after (· = []) after :=
  .orElse_right rejects (.done rfl)

theorem Rejects.rule (rejects : Rejects read before) : Rejects (Reader.rule read) before := by
  intro text laid
  rw [result_rule]
  exact rejects text laid

/-- A sequence fails where its first reader does. -/
theorem Rejects.bind (rejects : Rejects first before) : Rejects (first >>= next) before := by
  intro text laid
  rw [result_bind, rejects text laid]
  rfl

/-- A reader rejects also where only what comes second does. -/
theorem Rejects.bind_right (one : Reads first before holds middle)
    (two : ∀ a, holds a → Rejects (next a) middle) : Rejects (first >>= next) before := by
  intro text laid
  obtain ⟨a, rest, result, held, laid, -⟩ := one text laid
  exact (result_bind_of_some result).trans (two a held rest laid)

theorem Rejects.orElse (one : Rejects first before) (two : Rejects second before) :
    Rejects (orElse first second) before := by
  intro text laid
  rw [result_orElse, one text laid, two text laid]
  rfl

end Combinations

/-! ### Repetition -/

section Repetition

variable {α β : Type} {read : Reader α} {tokens : β → List Token} {holds : β → α → Prop}
  {after : List Token}

/-- Repetition reads one value for each member of a list, as long as it finds behind every
member what may follow one, and is rejected in the end. -/
theorem Reads.many (follows : List Token → Prop) {members : List β}
    (each : ∀ x ∈ members, ∀ rest, follows rest → Reads read (tokens x ++ rest) (holds x) rest)
    (starts : ∀ x ∈ members, tokens x ≠ [] ∧ ∀ rest, follows (tokens x ++ rest))
    (last : follows after) (rejects : Rejects read after) :
    Reads (many read) (members.flatMap tokens ++ after) (List.Forall₂ holds members) after := by
  induction members with
  | nil =>
    intro text laid
    exact ⟨[], text, result_many_of_none (rejects text laid), .nil, laid, Nat.le_refl _⟩
  | cons x members ih =>
    obtain ⟨nonempty, -⟩ := starts x List.mem_cons_self
    have next : follows (members.flatMap tokens ++ after) := by
      cases members with
      | nil => exact last
      | cons y members =>
        rw [List.flatMap_cons, List.append_assoc]
        exact (starts y (by simp)).2 _
    intro text laid
    rw [List.flatMap_cons, List.append_assoc] at laid
    obtain ⟨a, rest, result, held, laid, length⟩ := each x List.mem_cons_self _ next text laid
    obtain ⟨as, final, result', held', laid', length'⟩ :=
      ih (fun y mem => each y (List.mem_cons_of_mem _ mem))
        (fun y mem => starts y (List.mem_cons_of_mem _ mem)) rest laid
    have taken := List.length_pos_iff.mpr nonempty
    simp only [List.flatMap_cons, List.length_append] at length length' ⊢
    refine ⟨a :: as, final, ?_, .cons held held', laid', by omega⟩
    rw [result_many_of_some result (by omega), result']
    rfl

/-- One value and more are read in order, up to where the next one fails. -/
theorem Reads.several (follows : List Token → Prop) {x : β} {members : List β}
    (each : ∀ y ∈ x :: members, ∀ rest, follows rest → Reads read (tokens y ++ rest) (holds y) rest)
    (starts : ∀ y ∈ x :: members, tokens y ≠ [] ∧ ∀ rest, follows (tokens y ++ rest))
    (last : follows after) (rejects : Rejects read after) :
    Reads (several read) ((x :: members).flatMap tokens ++ after)
      (List.Forall₂ holds (x :: members)) after := by
  have next : follows (members.flatMap tokens ++ after) := by
    cases members with
    | nil => exact last
    | cons y members =>
      rw [List.flatMap_cons, List.append_assoc]
      exact (starts y (by simp)).2 _
  rw [List.flatMap_cons, List.append_assoc]
  refine .bind (each x List.mem_cons_self _ next) fun a held => ?_
  refine .bind (.many follows (fun y mem => each y (List.mem_cons_of_mem _ mem))
    (fun y mem => starts y (List.mem_cons_of_mem _ mem)) last rejects) fun as held' => ?_
  exact .done (.cons held held')

end Repetition

end SchemaTypings.Sdl
