import SchemaTypings.Proofs.Text.Lines

/-!
# Splitting a text

The lines of a text are what stands between its line ends, and the end of the text ends a
line only if something is left.
-/

namespace SchemaTypings.Text

/-- The text is made of these lines. Each ends with a line feed, or with a carriage return
and a line feed; the last one may end with the text, if it is not empty. -/
inductive SplitsInto : List Char → List (List Char) → Prop where
  | nil : SplitsInto [] []
  | last {line : List Char} : line ≠ [] → '\n' ∉ line → SplitsInto line [line]
  | lineFeed {line rest : List Char} {others : List (List Char)} : '\n' ∉ line →
      line.getLast? ≠ some '\r' → SplitsInto rest others →
      SplitsInto (line ++ '\n' :: rest) (line :: others)
  | both {line rest : List Char} {others : List (List Char)} : '\n' ∉ line →
      SplitsInto rest others → SplitsInto (line ++ '\r' :: '\n' :: rest) (line :: others)

/-- A text without line feeds is one line, unless it is empty. -/
theorem lines_of_single {line : List Char} (nonempty : line ≠ []) (single : '\n' ∉ line) :
    lines line = [line] := by
  induction line with
  | nil => exact absurd rfl nonempty
  | cons c rest ih =>
    obtain ⟨other, single'⟩ := not_or.mp fun mem => single (List.mem_cons.mpr mem)
    have inside : c = '\r' → rest.head? ≠ some '\n' := by
      intro _ head
      exact single' (List.mem_of_mem_head? head)
    rw [lines_cons (Ne.symm other) inside]
    cases rest with
    | nil => rfl
    | cons d rest => rw [ih (List.cons_ne_nil d rest) single']

/-- A line that ends with a line feed only is the first line of a text. -/
theorem lines_append_lineFeed {line : List Char} (single : '\n' ∉ line)
    (plain : line.getLast? ≠ some '\r') (text : List Char) :
    lines (line ++ '\n' :: text) = line :: lines text := by
  induction line with
  | nil => rfl
  | cons c rest ih =>
    obtain ⟨other, single'⟩ := not_or.mp fun mem => single (List.mem_cons.mpr mem)
    have inside : c = '\r' → (rest ++ '\n' :: text).head? ≠ some '\n' := by
      cases rest with
      | nil => exact fun carriage => absurd (congrArg some carriage) plain
      | cons d rest => exact fun _ head => single' (by simp_all)
    have plain' : rest.getLast? ≠ some '\r' := by
      cases rest with
      | nil => exact nofun
      | cons d rest => rwa [List.getLast?_cons_cons] at plain
    rw [List.cons_append, lines_cons (Ne.symm other) inside, ih single' plain']

/-- A text can be split in one way only. -/
theorem lines_of_splitsInto {text : List Char} {parts : List (List Char)}
    (splits : SplitsInto text parts) : lines text = parts := by
  induction splits with
  | nil => rfl
  | last nonempty single => exact lines_of_single nonempty single
  | lineFeed single plain _ ih => rw [lines_append_lineFeed single plain, ih]
  | both single _ ih => rw [lines_append single, ih]

/-- In front of a text that is split, a character that ends no line continues the first one. -/
theorem SplitsInto.cons {c : Char} {text line : List Char} {others : List (List Char)}
    (splits : SplitsInto text (line :: others)) (other : c ≠ '\n')
    (inside : c = '\r' → text.head? ≠ some '\n') :
    SplitsInto (c :: text) ((c :: line) :: others) := by
  cases splits with
  | last nonempty single =>
    exact .last (List.cons_ne_nil c _) (by simp [single, Ne.symm other])
  | @lineFeed _ rest _ single plain splits =>
    have single' : '\n' ∉ c :: line := by simp [single, Ne.symm other]
    refine .lineFeed single' ?_ splits
    cases line with
    | nil =>
      intro last
      exact inside (Option.some.inj last) rfl
    | cons d line => rwa [List.getLast?_cons_cons]
  | both single splits =>
    have single' : '\n' ∉ c :: line := by simp [single, Ne.symm other]
    exact .both single' splits

/-- The lines of a text are those that it is made of. -/
theorem splitsInto_lines (text : List Char) : SplitsInto text (lines text) := by
  fun_induction lines text with
  | case1 => exact .nil
  | case2 rest ih => exact @SplitsInto.lineFeed [] rest _ (by simp) (by simp) ih
  | case3 rest ih => exact @SplitsInto.both [] rest _ (by simp) ih
  | case4 c rest other inside none ih =>
    rw [lines_eq_nil_iff.mp none]
    exact .last (List.cons_ne_nil c []) (by simpa using Ne.symm other)
  | case5 c rest other inside line others some ih =>
    rw [some] at ih
    refine ih.cons other ?_
    rintro rfl head
    cases rest with
    | nil => cases head
    | cons d rest =>
      cases head
      exact inside _ rfl rfl

/-- A text is made of its lines, and of no others. -/
theorem splitsInto_iff {text : List Char} {parts : List (List Char)} :
    SplitsInto text parts ↔ lines text = parts := by
  constructor
  · exact lines_of_splitsInto
  · rintro rfl
    exact splitsInto_lines text

end SchemaTypings.Text
