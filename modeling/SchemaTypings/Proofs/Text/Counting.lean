import Mathlib.Data.List.DropRight
import SchemaTypings.Proofs.Text.Offsets

/-!
# Counting lines and columns

The position behind a text is found by counting: its line feeds, and the characters behind
the last of them. Every position leads to a place between two characters, a counted one to
the place where the counting stopped, and a later one to no earlier place.
-/

namespace SchemaTypings.Text

/-! ### Counted positions -/

/-- One more than the line feeds in a text, and one more than the characters behind the
last of them. -/
def Position.counted (before : List Char) : Position :=
  ⟨1 + before.count '\n', 1 + (before.rtakeWhile (· != '\n')).length⟩

/-- Only what stands behind a character that ends the run matters to the end of a list. -/
theorem rtakeWhile_append_cons_of_neg {α : Type} {p : α → Bool} {a : α} (stops : ¬ p a)
    (front back : List α) : (front ++ a :: back).rtakeWhile p = back.rtakeWhile p := by
  induction back using List.reverseRecOn with
  | nil => rw [List.rtakeWhile_concat_neg p front a stops, List.rtakeWhile_nil]
  | append_singleton back b ih =>
    rw [← List.cons_append, ← List.append_assoc, List.rtakeWhile_concat, List.rtakeWhile_concat, ih]

/-- A text without a line feed is counted in its first line. -/
theorem counted_line {line : List Char} (single : '\n' ∉ line) :
    Position.counted line = ⟨1, 1 + line.length⟩ := by
  have whole : line.rtakeWhile (· != '\n') = line := by
    rw [List.rtakeWhile_eq_self_iff]
    intro c mem
    simpa using ne_of_mem_of_not_mem mem single
  rw [Position.counted, List.count_eq_zero.mpr single, whole]

/-- Behind a line feed, counting starts anew one line further down. -/
theorem counted_append_line {line : List Char} (single : '\n' ∉ line) (rest : List Char) :
    Position.counted (line ++ '\n' :: rest) =
      ⟨rest.count '\n' + 2, (Position.counted rest).column⟩ := by
  have lines : (line ++ '\n' :: rest).count '\n' = rest.count '\n' + 1 := by
    rw [List.count_append, List.count_eq_zero.mpr single, List.count_cons_self, Nat.zero_add]
  rw [Position.counted, rtakeWhile_append_cons_of_neg (by decide), lines, Nat.add_comm 1]
  rfl

/-- A step through a text counts what it passes. -/
theorem after_eq_counted (before : List Char) : Position.after before = .counted before := by
  induction before using List.reverseRecOn with
  | nil => rfl
  | append_singleton before c ih =>
    have step : Position.after (before ++ [c]) = (Position.after before).step c := by
      rw [Position.after, List.foldl_append]
      rfl
    rw [step, ih, Position.step, Position.counted, Position.counted, List.rtakeWhile_concat,
      List.count_append]
    by_cases feed : c = '\n'
    · simp [feed, Nat.add_assoc]
    · simp [feed, Nat.add_assoc]

/-! ### Where positions lead -/

/-- A counted position leads back to where the counting stopped. -/
theorem byteOffset_counted (before after : List Char) :
    byteOffset (before ++ after) (.counted before) = byteSize before := by
  induction before using lineInduction with
  | last line single =>
    rw [counted_line single]
    simp [byteOffset, offsetBelow, firstLine_append single]
  | more line rest single ih =>
    rw [counted_append_line single, List.append_assoc, List.cons_append,
      byteOffset_below_line single]
    have inner : Position.counted rest = ⟨rest.count '\n' + 1, (Position.counted rest).column⟩ := by
      rw [Position.counted, Nat.add_comm 1]
    rw [← inner, ih]
    simp [Nat.add_assoc]

theorem firstLine_isPrefix (text : List Char) : firstLine text <+: text :=
  ⟨afterFirstLine text, firstLine_append_afterFirstLine text⟩

/-- Some lines further down, a column leads to the end of a text that begins the text. -/
theorem offsetBelow_eq_byteSize (lines column : Nat) (text : List Char) :
    ∃ front, front <+: text ∧ offsetBelow lines column text = byteSize front := by
  induction lines generalizing text with
  | zero => exact ⟨_, (List.take_prefix _ _).trans (firstLine_isPrefix text), rfl⟩
  | succ lines ih =>
    obtain ⟨front, ⟨behind, rest⟩, offset⟩ := ih (afterFirstLine text)
    refine ⟨firstLine text ++ front, ⟨behind, ?_⟩, ?_⟩
    · rw [List.append_assoc, rest, firstLine_append_afterFirstLine]
    · rw [offsetBelow, offset, byteSize_append]

/-- An offset is the size of what stands before it. -/
theorem byteOffset_eq_byteSize (text : List Char) (p : Position) :
    ∃ front, front <+: text ∧ byteOffset text p = byteSize front := by
  unfold byteOffset
  split
  · exact ⟨text, List.prefix_rfl, rfl⟩
  · exact offsetBelow_eq_byteSize _ _ text

/-- An offset lies between two characters, or at an end of the text. -/
theorem isValid_byteOffset (text : String) (p : Position) :
    String.Pos.Raw.IsValid text ⟨byteOffset text.toList p⟩ := by
  obtain ⟨front, ⟨behind, split⟩, offset⟩ := byteOffset_eq_byteSize text.toList p
  rw [String.Pos.Raw.isValid_iff_exists_append]
  refine ⟨String.ofList front, String.ofList behind, ?_, ?_⟩
  · rw [← String.ofList_append, split, String.ofList_toList]
  · rw [String.Pos.Raw.ext_iff, offset, String.byteIdx_rawEndPos, ← byteSize_toList,
      String.toList_ofList]

/-! ### Positions in order -/

/-- Every column of a line leads to a place before every line further down. -/
theorem offsetBelow_le_of_lt {lines lines' : Nat} (further : lines < lines')
    (column column' : Nat) (text : List Char) :
    offsetBelow lines column text ≤ offsetBelow lines' column' text := by
  induction lines generalizing lines' text with
  | zero =>
    obtain ⟨more, rfl⟩ := Nat.exists_eq_succ_of_ne_zero (Nat.ne_of_gt further)
    have within := byteSize_le_of_prefix (List.take_prefix (column - 1) (firstLine text))
    rw [offsetBelow, offsetBelow]
    exact Nat.le_add_right_of_le within
  | succ lines ih =>
    obtain ⟨more, rfl⟩ := Nat.exists_eq_succ_of_ne_zero (Nat.ne_zero_of_lt further)
    rw [offsetBelow, offsetBelow]
    exact Nat.add_le_add_left (ih (Nat.lt_of_succ_lt_succ further) _) _

/-- In a line, a later column leads to no earlier place. -/
theorem offsetBelow_le_of_le (lines : Nat) {column column' : Nat} (further : column ≤ column')
    (text : List Char) : offsetBelow lines column text ≤ offsetBelow lines column' text := by
  induction lines generalizing text with
  | zero =>
    apply byteSize_le_of_prefix
    exact List.take_prefix_take_left (Nat.sub_le_sub_right further 1)
  | succ lines ih =>
    rw [offsetBelow, offsetBelow]
    exact Nat.add_le_add_left (ih _) _

/-- From the first line on, a later position leads to no earlier place. -/
theorem byteOffset_le {p q : Position} (first : 1 ≤ p.line)
    (order : p.line < q.line ∨ p.line = q.line ∧ p.column ≤ q.column) (text : List Char) :
    byteOffset text p ≤ byteOffset text q := by
  unfold byteOffset
  rcases order with below | ⟨same, further⟩
  · rw [if_neg (by omega), if_neg (by omega)]
    exact offsetBelow_le_of_lt (by omega) _ _ text
  · rw [← same, if_neg (by omega), if_neg (by omega)]
    exact offsetBelow_le_of_le _ further text

/-! ### The main result -/

/-- A line and a column that were counted up to a place between two characters, all at once
or step by step, lead back to it. Any line and any column lead to such a place, and from the
first line on, a later position leads to no earlier place. -/
theorem offsets_invert_counting (text : String) :
    (∀ place : text.Pos,
      let before := (text.sliceTo place).copy.toList
      byteOffset text.toList (.counted before) = place.offset.byteIdx ∧
        Position.after before = .counted before) ∧
    (∀ p : Position, String.Pos.Raw.IsValid text ⟨byteOffset text.toList p⟩ ∧
      byteOffset text.toList p ≤ text.utf8ByteSize) ∧
    ∀ p q : Position, 1 ≤ p.line →
      p.line < q.line ∨ p.line = q.line ∧ p.column ≤ q.column →
      byteOffset text.toList p ≤ byteOffset text.toList q := by
  refine ⟨?counted, ?within, ?order⟩
  case counted =>
    intro place before
    have split := place.splits
    have chars : text.toList = before ++ (text.sliceFrom place).copy.toList := by
      rw [← String.toList_append, ← split.eq_append]
    refine ⟨?_, after_eq_counted before⟩
    rw [chars, byteOffset_counted, byteSize_toList, split.offset_eq_rawEndPos,
      String.byteIdx_rawEndPos]
  case within =>
    intro p
    have valid := isValid_byteOffset text p
    exact ⟨valid, valid.le_utf8ByteSize⟩
  case order =>
    intro p q first order
    exact byteOffset_le first order text.toList

/-- Column nine of a line with one character leads behind the line feed at its end. -/
theorem column_past_line_leads_behind_it :
    let text := "é\nb"
    let past : Position := ⟨1, 9⟩
    let below : Position := ⟨2, 1⟩
    1 ≤ past.line ∧ (past.line < below.line ∨ past.line = below.line ∧ past.column ≤ below.column) ∧
      byteOffset text.toList past ≤ byteOffset text.toList below ∧
      byteOffset text.toList past = 3 := by
  intro text past below
  have order : past.line < below.line ∨ past.line = below.line ∧ past.column ≤ below.column :=
    .inl (by decide)
  exact ⟨by decide, order, (offsets_invert_counting text).2.2 past below (by decide) order,
    by decide⟩

end SchemaTypings.Text
