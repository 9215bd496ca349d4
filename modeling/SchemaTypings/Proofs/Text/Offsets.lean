import Mathlib.Data.List.Induction
import SchemaTypings.Text.Position

/-!
# Positions and the places they lead to

A position counted with returns to column one leads back into the text it follows, never
past its end, and to its end exactly if every carriage return in the text is part of a
line end. The proof goes line by line: both countings start anew behind a line feed.
-/

namespace SchemaTypings.Text

/-! ### Texts as bytes -/

theorem byteSize_eq_size_utf8Encode (text : List Char) : byteSize text = text.utf8Encode.size := by
  induction text with
  | nil => rfl
  | cons c text ih =>
    rw [byteSize_cons, ih, ← List.singleton_append, List.utf8Encode_append, ByteArray.size_append]
    simp [List.utf8Encode_singleton]

/-- The size of a text is that of its characters. -/
theorem byteSize_toList (text : String) : byteSize text.toList = text.utf8ByteSize := by
  rw [byteSize_eq_size_utf8Encode, ← String.toByteArray_ofList, String.ofList_toList,
    String.size_toByteArray]

/-- A part of a text has the bytes from its offset on, as many as it takes. -/
theorem extract_eq_of_split {text part : String} {before after : List Char}
    (split : text.toList = before ++ (part.toList ++ after)) :
    text.toByteArray.extract (byteSize before) (byteSize before + part.utf8ByteSize) =
      part.toByteArray := by
  have bytes : text.toByteArray = before.utf8Encode ++ part.toByteArray ++ after.utf8Encode := by
    rw [← String.ofList_toList (s := text), split, String.toByteArray_ofList,
      List.utf8Encode_append, List.utf8Encode_append, ByteArray.append_assoc,
      ← String.toByteArray_ofList (l := part.toList), String.ofList_toList]
  rw [bytes, byteSize_eq_size_utf8Encode, ← String.size_toByteArray, ← ByteArray.size_append,
    ByteArray.extract_append, ByteArray.extract_append_eq_right rfl ByteArray.size_append]
  simp

/-- A longer text takes no fewer bytes. -/
theorem byteSize_le_of_prefix {front text : List Char} (le : front <+: text) :
    byteSize front ≤ byteSize text := by
  obtain ⟨behind, rfl⟩ := le
  rw [byteSize_append]
  exact Nat.le_add_right _ _

/-! ### Texts line by line -/

/-- A text is a line without line feed, or such a line with its line feed before another
text. -/
@[elab_as_elim]
theorem lineInduction {motive : List Char → Prop}
    (last : ∀ line, '\n' ∉ line → motive line)
    (more : ∀ line rest, '\n' ∉ line → motive rest → motive (line ++ '\n' :: rest))
    (text : List Char) : motive text := by
  by_cases feed : '\n' ∈ text
  · obtain ⟨line, rest, rfl, single⟩ := List.eq_append_cons_of_mem feed
    exact more line rest single (lineInduction last more rest)
  · exact last text feed
termination_by text.length
decreasing_by
  simp [*]
  omega

/-- A first line goes on up to its line feed. -/
theorem firstLine_append {line : List Char} (single : '\n' ∉ line) (text : List Char) :
    firstLine (line ++ text) = line ++ firstLine text := by
  induction line with
  | nil => rfl
  | cons c line ih =>
    rw [List.mem_cons, not_or] at single
    rw [List.cons_append, firstLine, if_neg (Ne.symm single.1), ih single.2, List.cons_append]

theorem afterFirstLine_append {line : List Char} (single : '\n' ∉ line) (text : List Char) :
    afterFirstLine (line ++ '\n' :: text) = text := by
  induction line with
  | nil => rfl
  | cons c line ih =>
    rw [List.mem_cons, not_or] at single
    rw [List.cons_append, afterFirstLine, if_neg (Ne.symm single.1), ih single.2]

/-! ### Counting with returns -/

/-- The column goes back to what follows the last carriage return of a line. -/
theorem afterReturns_line {line : List Char} (single : '\n' ∉ line) :
    ∃ returned kept, line = returned ++ kept ∧
      Position.afterReturns line = ⟨1, kept.length + 1⟩ ∧ ('\r' ∉ line → returned = []) := by
  induction line using List.reverseRecOn with
  | nil => exact ⟨[], [], rfl, rfl, fun _ => rfl⟩
  | append_singleton line c ih =>
    rw [List.mem_append, not_or, List.mem_singleton] at single
    obtain ⟨returned, kept, rfl, position, clean⟩ := ih single.1
    have next : Position.afterReturns (returned ++ kept ++ [c]) =
        Position.stepReturns ⟨1, kept.length + 1⟩ c := by
      rw [← position, Position.afterReturns, Position.afterReturns, List.foldl_append]
      rfl
    rw [next, Position.stepReturns, if_neg (Ne.symm single.2)]
    by_cases isReturn : c = '\r'
    · exact ⟨returned ++ kept ++ [c], [], by simp, by simp [isReturn], by simp [isReturn]⟩
    · refine ⟨returned, kept ++ [c], by simp, by simp [isReturn], fun none => clean ?_⟩
      exact fun mem => none (List.mem_append_left _ mem)

/-- Counting from a later line gives the same column. -/
theorem foldl_stepReturns_line (text : List Char) (lines line column : Nat) :
    text.foldl Position.stepReturns ⟨lines + line, column⟩ =
      ⟨lines + (text.foldl Position.stepReturns ⟨line, column⟩).line,
        (text.foldl Position.stepReturns ⟨line, column⟩).column⟩ := by
  induction text generalizing line column with
  | nil => rfl
  | cons c text ih =>
    have step : Position.stepReturns ⟨lines + line, column⟩ c =
        ⟨lines + (Position.stepReturns ⟨line, column⟩ c).line,
          (Position.stepReturns ⟨line, column⟩ c).column⟩ := by
      unfold Position.stepReturns
      split
      · rfl
      · split <;> rfl
    rw [List.foldl_cons, List.foldl_cons, step, ih]

/-- Behind a line feed, counting starts anew. -/
theorem afterReturns_append_line {line : List Char} (single : '\n' ∉ line) (rest : List Char) :
    Position.afterReturns (line ++ '\n' :: rest) =
      ⟨1 + (Position.afterReturns rest).line, (Position.afterReturns rest).column⟩ := by
  obtain ⟨_, kept, -, position, -⟩ := afterReturns_line single
  rw [Position.afterReturns] at position
  rw [Position.afterReturns, List.foldl_append, position, List.foldl_cons]
  exact foldl_stepReturns_line rest 1 1 1

/-- Lines are counted from one. -/
theorem afterReturns_line_pos (text : List Char) : 0 < (Position.afterReturns text).line := by
  induction text using lineInduction with
  | last line single =>
    obtain ⟨_, kept, -, position, -⟩ := afterReturns_line single
    simp [position]
  | more line rest single _ =>
    rw [afterReturns_append_line single]
    exact Nat.lt_add_right _ Nat.one_pos

/-! ### Where a position leads -/

/-- Below a line, an offset is what it is in the text below that line, and the line on top. -/
theorem byteOffset_below_line {line : List Char} (single : '\n' ∉ line) (text : List Char)
    (lines column : Nat) :
    byteOffset (line ++ '\n' :: text) ⟨lines + 2, column⟩ =
      byteSize (line ++ ['\n']) + byteOffset text ⟨lines + 1, column⟩ := by
  simp only [byteOffset]
  rw [if_neg (Nat.succ_ne_zero _), if_neg (Nat.succ_ne_zero _), Nat.add_sub_cancel,
    show lines + 2 - 1 = lines + 1 by omega, offsetBelow, firstLine_append single,
    afterFirstLine_append single]
  rfl

/-- The offset of a position in a text that goes on with `rest` behind a line. -/
theorem byteOffset_append_line {line : List Char} (single : '\n' ∉ line) (before after : List Char) :
    byteOffset (line ++ '\n' :: before ++ after)
        (Position.afterReturns (line ++ '\n' :: before)) =
      byteSize (line ++ ['\n']) +
        byteOffset (before ++ after) (Position.afterReturns before) := by
  obtain ⟨lines, count⟩ : ∃ lines, (Position.afterReturns before).line = lines + 1 :=
    ⟨_, (Nat.succ_pred_eq_of_pos (afterReturns_line_pos before)).symm⟩
  have below := byteOffset_below_line single (before ++ after) lines
    (Position.afterReturns before).column
  rw [← count] at below
  rw [afterReturns_append_line single, count, List.append_assoc, List.cons_append,
    show 1 + (lines + 1) = lines + 2 by omega]
  exact below

/-- A position leads to the end of a text that begins the text it follows. -/
theorem byteOffset_afterReturns (before after : List Char) :
    ∃ front, front <+: before ∧
      byteOffset (before ++ after) (Position.afterReturns before) = byteSize front := by
  induction before using lineInduction with
  | last line single =>
    obtain ⟨returned, kept, eq, position, -⟩ := afterReturns_line single
    refine ⟨line.take kept.length, List.take_prefix _ _, ?_⟩
    have short : kept.length ≤ line.length := by simp [eq]
    rw [position, byteOffset, if_neg (by simp)]
    simp [offsetBelow, firstLine_append single, List.take_append_of_le_length short]
  | more line rest single ih =>
    obtain ⟨front, ⟨behind, rfl⟩, offset⟩ := ih
    refine ⟨line ++ '\n' :: front, ⟨behind, by simp⟩, ?_⟩
    rw [byteOffset_append_line single, offset]
    simp [Nat.add_assoc]

/-- Every carriage return in the text has a line feed right behind it. -/
def ReturnsEndLines (text : List Char) : Prop :=
  ∀ before after, text = before ++ '\r' :: after → ∃ rest, after = '\n' :: rest

/-- Where every carriage return is part of a line end, the position behind a text that
does not end inside a line end leads to the end of the text. -/
theorem byteOffset_afterReturns_eq {before after : List Char}
    (returns : ReturnsEndLines (before ++ after)) (inside : after.head? ≠ some '\n') :
    byteOffset (before ++ after) (Position.afterReturns before) = byteSize before := by
  induction before using lineInduction with
  | last line single =>
    have clean : '\r' ∉ line := by
      intro mem
      obtain ⟨front, back, rfl⟩ := List.append_of_mem mem
      obtain ⟨rest, feed⟩ := returns front (back ++ after) (by simp)
      cases back with
      | nil =>
        rw [List.nil_append] at feed
        exact inside (by simp [feed])
      | cons c back =>
        obtain rfl : c = '\n' := (List.cons.inj feed).1
        simp at single
    obtain ⟨returned, kept, eq, position, whole⟩ := afterReturns_line single
    obtain rfl := whole clean
    obtain rfl : line = kept := eq
    rw [position, byteOffset, if_neg (by simp)]
    simp [offsetBelow, firstLine_append single]
  | more line rest single ih =>
    have later : ReturnsEndLines (rest ++ after) := fun front back split =>
      returns (line ++ '\n' :: front) back (by simp [split])
    rw [byteOffset_append_line single, ih later]
    simp [Nat.add_assoc]

end SchemaTypings.Text
