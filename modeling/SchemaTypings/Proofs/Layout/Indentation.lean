import Mathlib.Data.List.Forall2
import SchemaTypings.Proofs.Layout.Blocks
import SchemaTypings.Proofs.Layout.LineEnds
import SchemaTypings.Proofs.Text.Splitting

/-!
# Indentation of texts

The lines of a text are indented one by one, and an empty line stays empty. Where lines
end with a carriage return and a line feed, what has been written is split into the very
lines that were written. So a text can be indented again, and the levels add up.
-/

namespace SchemaTypings

namespace Layout

/-! ### Lines -/

/-- A line behind an indentation; an empty line stays empty. -/
def indentLine (indentation line : List Char) : List Char :=
  if line = [] then [] else indentation ++ line

/-- Indenting a line twice is indenting it by both indentations. -/
theorem indentLine_indentLine (outer inner line : List Char) :
    indentLine outer (indentLine inner line) = indentLine (outer ++ inner) line := by
  by_cases empty : line = []
  · simp [indentLine, empty]
  · simp [indentLine, empty, List.append_assoc]

/-- Indented lines hold no line feed if neither part does. -/
theorem not_mem_indentLine {indentation line : List Char} (unbroken : '\n' ∉ indentation)
    (unbroken' : '\n' ∉ line) : '\n' ∉ indentLine indentation line := by
  unfold indentLine
  split
  · exact List.not_mem_nil
  · intro mem
    rcases List.mem_append.mp mem with blank | inside
    · exact unbroken blank
    · exact unbroken' inside

namespace Style

/-- The levels of an indentation add up. -/
theorem indentation_add (style : Style) (m n : Nat) :
    style.indentation (m + n) = style.indentation m ++ style.indentation n := by
  rw [indentation, ← List.replicate_append_replicate, String.join_append]
  rfl

def joinLines (style : Style) (lines : List (List Char)) : String :=
  String.join (lines.map fun line => String.ofList line ++ style.lineEnd.text)

/-- The lines of a text at a level of indentation. -/
def indented (style : Style) (level : Nat) (text : String) : String :=
  ((⟨style, level, ""⟩ : Listing).lines text).text

theorem splitLine_eq (style : Style) (indentation : String) (line : List Char) :
    style.splitLine indentation line =
      String.ofList (indentLine indentation.toList line) ++ style.lineEnd.text := by
  unfold splitLine indentLine
  cases line with
  | nil => rfl
  | cons c rest => simp [String.ofList_append]

theorem indented_eq (style : Style) (level : Nat) (text : String) :
    style.indented level text = style.joinLines
      ((Text.lines text.toList).map (indentLine (style.indentation level).toList)) := by
  rw [indented, Listing.lines, Listing.foldl_lineOf, joinLines, List.map_map]
  simp only [String.empty_append]
  congr 1
  apply List.map_congr_left
  intro line _
  exact style.splitLine_eq (style.indentation level) line

/-! ### Lines that are read back -/

theorem isUnbroken_indentation (style : Style) (level : Nat) :
    IsUnbroken (style.indentation level) :=
  (⟨style, level, ""⟩ : Listing).isUnbroken_indentation

/-- Lines that are indented are lines still. -/
theorem unbroken_indented (style : Style) (level : Nat) (text : List Char) :
    ∀ line ∈ (Text.lines text).map (indentLine (style.indentation level).toList),
      '\n' ∉ line := by
  intro line mem
  obtain ⟨plain, listed, rfl⟩ := List.mem_map.mp mem
  exact not_mem_indentLine (style.isUnbroken_indentation level) (Text.not_mem_of_mem_lines listed)

/-- Lines that end with a carriage return and a line feed are read back. -/
theorem lines_joinLines {style : Style} (crlf : style.lineEnd = .crlf)
    {lines : List (List Char)} (unbroken : ∀ line ∈ lines, '\n' ∉ line) :
    Text.lines (style.joinLines lines).toList = lines := by
  have chars : (style.joinLines lines).toList =
      lines.flatMap fun line => line ++ ['\r', '\n'] := by
    rw [joinLines, String.toList_join, List.flatMap_map, crlf]
    simp [LineEnd.text]
  rw [chars, Text.lines_flatMap unbroken]

/-- With two characters as line end, indenting a text indents its lines. -/
theorem lines_indented {style : Style} (crlf : style.lineEnd = .crlf) (level : Nat)
    (text : String) :
    Text.lines (style.indented level text).toList =
      (Text.lines text.toList).map (indentLine (style.indentation level).toList) := by
  rw [indented_eq, lines_joinLines crlf (style.unbroken_indented level text.toList)]

/-- What is indented twice is indented by both levels together. -/
theorem indented_indented {style : Style} (crlf : style.lineEnd = .crlf) (m n : Nat)
    (text : String) :
    style.indented m (style.indented n text) = style.indented (m + n) text := by
  rw [style.indented_eq m, lines_indented crlf, style.indented_eq (m + n), List.map_map]
  congr 1
  apply List.map_congr_left
  intro line _
  rw [Function.comp_apply, indentLine_indentLine, indentation_add, String.toList_append]

end Style

/-! ### Empty lines -/

/-- What is read back of an empty line is empty. -/
def StaysEmpty (line kept : List Char) : Prop := line = [] → kept = []

namespace Style

/-- Whatever lines end with, a line is read back on its own. It may lose a carriage return
at its end, so an empty line stays empty. -/
theorem lines_append_lineEnd (style : Style) {line : List Char} (unbroken : '\n' ∉ line)
    (text : List Char) :
    ∃ kept, Text.lines (line ++ style.lineEnd.text.toList ++ text) = kept :: Text.lines text ∧
      StaysEmpty line kept := by
  rw [List.append_assoc]
  cases style.lineEnd with
  | crlf => exact ⟨line, Text.lines_append unbroken text, id⟩
  | lf =>
    by_cases carriage : line.getLast? = some '\r'
    · obtain ⟨start, rfl⟩ := List.getLast?_eq_some_iff.mp carriage
      have unbroken' : '\n' ∉ start := fun mem => unbroken (List.mem_append_left _ mem)
      refine ⟨start, ?_, fun empty => absurd empty (by simp)⟩
      rw [List.append_assoc]
      exact Text.lines_append unbroken' text
    · exact ⟨line, Text.lines_append_lineFeed unbroken carriage text, id⟩

/-- Joined lines are read back, and empty ones stay empty whatever the line end is. -/
theorem forall₂_lines_joinLines (style : Style) {lines : List (List Char)}
    (unbroken : ∀ line ∈ lines, '\n' ∉ line) :
    List.Forall₂ StaysEmpty lines (Text.lines (style.joinLines lines).toList) := by
  induction lines with
  | nil => exact .nil
  | cons line rest ih =>
    obtain ⟨first, others⟩ := List.forall_mem_cons.mp unbroken
    obtain ⟨kept, read, empty⟩ :=
      style.lines_append_lineEnd first (style.joinLines rest).toList
    have chars : (style.joinLines (line :: rest)).toList =
        line ++ style.lineEnd.text.toList ++ (style.joinLines rest).toList := by
      simp [joinLines]
    rw [chars, read]
    exact .cons empty (ih others)

/-- No empty line of a text gains indentation. -/
theorem forall₂_lines_indented (style : Style) (level : Nat) (text : String) :
    List.Forall₂ StaysEmpty (Text.lines text.toList)
      (Text.lines (style.indented level text).toList) := by
  rw [indented_eq]
  have written := style.forall₂_lines_joinLines (style.unbroken_indented level text.toList)
  rw [List.forall₂_map_left_iff] at written
  apply written.imp
  intro line kept stays empty
  exact stays (if_pos empty)

end Style

/-- A listing gets the lines of a text at its level. -/
theorem Listing.lines_eq_indented (listing : Listing) (content : String) :
    listing.lines content =
      { listing with text := listing.text ++ listing.style.indented listing.level content } := by
  rw [Style.indented, Listing.lines, Listing.lines, foldl_lineOf, foldl_lineOf]
  simp only [String.empty_append]
  rfl

/-! ### The main result -/

/-- Where lines end with a carriage return and a line feed, a text that was indented to one
level and is indented to another has the sum of both levels, and at the outermost level
nothing changes any more. Each line of the text is written behind the blanks of the level,
and an empty line is written as it is, whatever lines end with. -/
theorem indentation_adds_up (indent : Indent) (text : String) :
    let style : Style := ⟨indent, .crlf⟩
    (∀ level before, (⟨style, level, before⟩ : Listing).lines text =
      ⟨style, level, before ++ style.indented level text⟩) ∧
    (∀ m n, style.indented m (style.indented n text) = style.indented (m + n) text) ∧
    style.indented 0 (style.indented 0 text) = style.indented 0 text ∧
    (∀ level, Text.lines (style.indented level text).toList =
      (Text.lines text.toList).map (indentLine (style.indentation level).toList)) ∧
    ∀ lineEnd level, List.Forall₂ StaysEmpty (Text.lines text.toList)
      (Text.lines ((⟨indent, lineEnd⟩ : Style).indented level text).toList) := by
  intro style
  have crlf : style.lineEnd = .crlf := rfl
  refine ⟨?appends, ?adds, ?outermost, ?lines, ?empty⟩
  case appends =>
    intro level before
    exact Listing.lines_eq_indented ⟨style, level, before⟩ text
  case adds => exact fun m n => Style.indented_indented crlf m n text
  case outermost => exact Style.indented_indented crlf 0 0 text
  case lines => exact fun level => Style.lines_indented crlf level text
  case empty => exact fun lineEnd level => Style.forall₂_lines_indented ⟨indent, lineEnd⟩ level text

example : (⟨.tab, .crlf⟩ : Style).indented 1 ((⟨.tab, .crlf⟩ : Style).indented 1 "a\r\r\n\n\rb") =
    "\t\ta\r\r\n\r\n\t\t\rb\r\n" := by decide

end Layout

end SchemaTypings
