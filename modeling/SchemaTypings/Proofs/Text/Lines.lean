import SchemaTypings.Text.Lines

/-!
# Texts made of lines

A text is terminated if it is made of lines, each of which ends with a carriage return and
a line feed. Its lines can be read off it, nothing follows the last one, and no line feed
stands alone.
-/

namespace SchemaTypings

/-- The text holds no line feed. -/
def IsUnbroken (text : String) : Prop := '\n' ∉ text.toList

instance (text : String) : Decidable (IsUnbroken text) :=
  inferInstanceAs (Decidable ('\n' ∉ text.toList))

theorem isUnbroken_append {a b : String} : IsUnbroken (a ++ b) ↔ IsUnbroken a ∧ IsUnbroken b := by
  simp [IsUnbroken]

namespace Text

/-! ### Lines of a text -/

/-- In front of a character that is not part of a line end, a line goes on. -/
theorem lines_cons {c : Char} {text : List Char} (other : c ≠ '\n')
    (inside : c = '\r' → text.head? ≠ some '\n') :
    lines (c :: text) =
      match lines text with
      | [] => [[c]]
      | line :: others => (c :: line) :: others := by
  refine lines.eq_4 c text other ?_
  rintro rest rfl rfl
  exact inside rfl rfl

/-- A line with its end is the first line of a text. -/
theorem lines_append {line : List Char} (unbroken : '\n' ∉ line) (text : List Char) :
    lines (line ++ '\r' :: '\n' :: text) = line :: lines text := by
  induction line with
  | nil => rfl
  | cons c line ih =>
    obtain ⟨other, rest⟩ := not_or.mp fun mem => unbroken (List.mem_cons.mpr mem)
    have inside : c = '\r' → (line ++ '\r' :: '\n' :: text).head? ≠ some '\n' := by
      cases line with
      | nil => simp
      | cons d line => exact fun _ head => rest (by simp_all)
    rw [List.cons_append, lines_cons (Ne.symm other) inside, ih rest]

/-- Lines are read off the text that they make up with their ends. -/
theorem lines_flatMap {texts : List (List Char)} (unbroken : ∀ line ∈ texts, '\n' ∉ line) :
    lines (texts.flatMap fun line => line ++ ['\r', '\n']) = texts := by
  induction texts with
  | nil => rfl
  | cons line rest ih =>
    obtain ⟨first, others⟩ := List.forall_mem_cons.mp unbroken
    simp only [List.flatMap_cons, List.append_assoc, List.cons_append, List.nil_append]
    rw [lines_append first, ih others]

/-- No line of a text holds a line feed. -/
theorem not_mem_of_mem_lines {text line : List Char} (mem : line ∈ lines text) : '\n' ∉ line := by
  fun_induction lines text generalizing line with
  | case1 => cases mem
  | case2 rest ih =>
    cases mem with
    | head => simp
    | tail _ mem => exact ih mem
  | case3 rest ih =>
    cases mem with
    | head => simp
    | tail _ mem => exact ih mem
  | case4 c rest other _ none ih =>
    cases mem with
    | head => simpa using Ne.symm other
    | tail _ mem => cases mem
  | case5 c rest other _ first others some ih =>
    rw [some] at ih
    cases mem with
    | head =>
      have tail : '\n' ∉ first := ih List.mem_cons_self
      simp [tail, Ne.symm other]
    | tail _ mem => exact ih (List.mem_cons_of_mem _ mem)

/-! ### Terminated texts -/

/-- The text is made of lines, each of which ends with a carriage return and a line feed. -/
def IsTerminated (text : String) : Prop :=
  ∃ texts : List (List Char), (∀ line ∈ texts, '\n' ∉ line) ∧
    text.toList = texts.flatMap fun line => line ++ ['\r', '\n']

theorem isTerminated_empty : IsTerminated "" := ⟨[], by simp, rfl⟩

/-- A line with its end is terminated. -/
theorem isTerminated_line {line : String} (unbroken : IsUnbroken line) :
    IsTerminated (line ++ "\r\n") :=
  ⟨[line.toList], List.forall_mem_singleton.mpr unbroken, by simp⟩

namespace IsTerminated

variable {text other : String}

/-- Terminated texts are terminated one after the other. -/
theorem append (terminated : IsTerminated text) (terminated' : IsTerminated other) :
    IsTerminated (text ++ other) := by
  obtain ⟨texts, unbroken, chars⟩ := terminated
  obtain ⟨texts', unbroken', chars'⟩ := terminated'
  refine ⟨texts ++ texts', List.forall_mem_append.mpr ⟨unbroken, unbroken'⟩, ?_⟩
  rw [String.toList_append, chars, chars', List.flatMap_append]

/-- And so are any number of them. -/
theorem join {texts : List String} (terminated : ∀ text ∈ texts, IsTerminated text) :
    IsTerminated (String.join texts) := by
  induction texts with
  | nil => exact isTerminated_empty
  | cons first rest ih =>
    obtain ⟨head, tail⟩ := List.forall_mem_cons.mp terminated
    rw [String.join_cons]
    exact head.append (ih tail)

/-- The lines of a text behind a terminated one are lines of their own. -/
theorem lines_toList_append (terminated : IsTerminated text) (rest : List Char) :
    lines (text.toList ++ rest) = lines text.toList ++ lines rest := by
  obtain ⟨texts, unbroken, chars⟩ := terminated
  rw [chars, lines_flatMap unbroken]
  clear chars
  induction texts with
  | nil => rfl
  | cons line others ih =>
    obtain ⟨first, unbroken⟩ := List.forall_mem_cons.mp unbroken
    simp only [List.flatMap_cons, List.append_assoc, List.cons_append, List.nil_append]
    rw [lines_append first, ih unbroken]

/-- A terminated text is empty or ends with a line end. -/
theorem eq_empty_or_ends (terminated : IsTerminated text) :
    text = "" ∨ ∃ start, text = start ++ "\r\n" := by
  obtain ⟨texts, -, chars⟩ := terminated
  rcases List.eq_nil_or_concat texts with rfl | ⟨before, line, rfl⟩
  · exact .inl (String.toList_injective chars)
  · refine .inr ⟨String.ofList (before.flatMap (· ++ ['\r', '\n']) ++ line), ?_⟩
    rw [← String.toList_inj, chars]
    simp

/-- A carriage return stands before every line feed of a terminated text. -/
theorem before_lineFeed (terminated : IsTerminated text) {before after : List Char}
    (split : text.toList = before ++ '\n' :: after) : ∃ start, before = start ++ ['\r'] := by
  obtain ⟨texts, unbroken, chars⟩ := terminated
  rw [chars] at split
  clear chars
  induction texts generalizing before with
  | nil => simp at split
  | cons line rest ih =>
    obtain ⟨first, others⟩ := List.forall_mem_cons.mp unbroken
    have whole : (line ++ ['\r']) ++ '\n' :: rest.flatMap (fun line => line ++ ['\r', '\n']) =
        before ++ '\n' :: after := by
      rw [← split]
      simp
    -- The line feed ends the first line or stands behind it, as no line holds one.
    rcases List.append_eq_append_iff.mp whole with ⟨passed, rfl, left⟩ | ⟨ahead, begun, left⟩
    · cases passed with
      | nil => exact ⟨line, by simp⟩
      | cons c passed =>
        obtain ⟨rfl, further⟩ := List.cons.inj left
        obtain ⟨start, rfl⟩ := ih further others
        exact ⟨line ++ ['\r', '\n'] ++ start, by simp⟩
    · cases ahead with
      | nil => exact ⟨line, by simpa using begun.symm⟩
      | cons c ahead =>
        obtain ⟨rfl, -⟩ := List.cons.inj left
        have inside : '\n' ∈ line ++ ['\r'] := begun ▸ by simp
        exact absurd inside (by simpa using first)

end IsTerminated

end Text

end SchemaTypings
