import SchemaTypings.Declaration

/-!
# Texts of fragments

What a listing is given as a line may be any text. One that holds a line feed is written
line by line, each line at the level of the listing, and an empty one without indentation.
A block is its header, its body one level deeper, and its closing line if there is one.

So what a fragment comes to depends on the style and the level alone: `Style.fragmentText`
says it without a listing, and a listing gets just that text and goes on at its level.
-/

namespace SchemaTypings

open Layout

namespace Layout

/-! ### Texts at a level -/

namespace Style

def indentation (style : Style) (level : Nat) : String :=
  String.join (List.replicate level style.indent.unit)

/-- One line of a text that is split, at an indentation. -/
def splitLine (style : Style) (indentation : String) (line : List Char) : String :=
  (if line.isEmpty then "" else indentation ++ String.ofList line) ++ style.lineEnd.text

/-- A text that is given as a line, at an indentation. -/
def lineText (style : Style) (indentation text : String) : String :=
  if '\n' ∈ text.toList then
    String.join ((Text.lines text.toList).map (style.splitLine indentation))
  else indentation ++ text ++ style.lineEnd.text

/-- A text without a line feed is one line behind the indentation. -/
theorem lineText_of_single {style : Style} {indentation text : String}
    (single : '\n' ∉ text.toList) :
    style.lineText indentation text = indentation ++ text ++ style.lineEnd.text :=
  if_neg single

def lineAt (style : Style) (level : Nat) (text : String) : String :=
  style.indentation level ++ text ++ style.lineEnd.text

mutual

/-- What a fragment comes to at a level. -/
def fragmentText (style : Style) (level : Nat) : Fragment → String
  | .line text => style.lineText (style.indentation level) text
  | .blank => style.lineEnd.text
  | .block header body close =>
    style.lineAt level header ++ style.fragmentsText (level + 1) body ++
      close.elim "" (style.lineAt level)

/-- What fragments come to at a level, one after the other. -/
def fragmentsText (style : Style) (level : Nat) : List Fragment → String
  | [] => ""
  | fragment :: rest => style.fragmentText level fragment ++ style.fragmentsText level rest

end

/-- Lines at one level are written one after the other. -/
theorem fragmentsText_lines (style : Style) (level : Nat) (texts : List String) :
    style.fragmentsText level (texts.map .line) =
      String.join (texts.map (style.lineText (style.indentation level))) := by
  induction texts with
  | nil => rfl
  | cons text rest ih =>
    rw [List.map_cons, fragmentsText, fragmentText, ih, List.map_cons, String.join_cons]

end Style

/-! ### Texts in a listing -/

namespace Listing

theorem line_eq (listing : Listing) (content : String) :
    listing.line content =
      { listing with text := listing.text ++ listing.style.lineAt listing.level content } := by
  simp [line, Style.lineAt, Style.indentation, indentation, String.append_assoc]

theorem lineOf_eq (listing : Listing) (line : List Char) :
    listing.lineOf line =
      { listing with
        text := listing.text ++ listing.style.splitLine listing.indentation line } := by
  unfold lineOf Style.splitLine
  split <;> simp [Listing.line, Listing.blank, indentation, String.append_assoc]

/-- Lines that are added one by one are appended to what is there. -/
theorem foldl_lineOf (listing : Listing) (lines : List (List Char)) :
    lines.foldl lineOf listing =
      { listing with
        text := listing.text ++
          String.join (lines.map (listing.style.splitLine listing.indentation)) } := by
  induction lines generalizing listing with
  | nil => simp
  | cons line rest ih =>
    rw [List.foldl_cons, ih, lineOf_eq]
    simp [indentation, String.append_assoc]

/-- A line is appended, split where it holds line feeds. -/
theorem add_line (listing : Listing) (text : String) :
    listing.add (.line text) =
      { listing with text := listing.text ++ listing.style.lineText listing.indentation text } := by
  unfold add Style.lineText
  by_cases split : '\n' ∈ text.toList
  · rw [if_pos (by simpa using split), if_pos split, Listing.lines, foldl_lineOf]
  · rw [if_neg (by simpa using split), if_neg split, Listing.line]
    simp [String.append_assoc]

mutual

/-- A fragment adds its text to a listing, which goes on at its level. -/
theorem add_eq (listing : Listing) : (fragment : Fragment) → listing.add fragment =
    { listing with text := listing.text ++ listing.style.fragmentText listing.level fragment }
  | .line text => by
    rw [add_line, Style.fragmentText]
    rfl
  | .blank => by
    rw [add, Style.fragmentText]
    rfl
  | .block header body close => by
    have filled := addAll_eq (listing.line header).indent body
    rw [Style.fragmentText]
    cases close with
    | none =>
      rw [add, filled]
      simp [line_eq, indent, dedent, String.append_assoc]
    | some text =>
      rw [add, filled]
      simp [line_eq, indent, dedent, String.append_assoc]

/-- Adding fragments appends their text and leaves the level. -/
theorem addAll_eq (listing : Listing) : (fragments : List Fragment) → listing.addAll fragments =
    { listing with text := listing.text ++ listing.style.fragmentsText listing.level fragments }
  | [] => by simp [addAll, Style.fragmentsText]
  | fragment :: rest => by
    rw [addAll, add_eq listing fragment, addAll_eq _ rest, Style.fragmentsText]
    simp [String.append_assoc]

end

/-- A rendering is the text of the fragments at the outermost level. -/
theorem render_eq (style : Style) (fragments : List Fragment) :
    render style fragments = style.fragmentsText 0 fragments := by
  rw [render, addAll_eq]
  simp [empty]

/-! ### Lines and blocks of lines -/

/-- A single line stands for itself. -/
theorem render_line {style : Style} {line : String} (single : '\n' ∉ line.toList) :
    render style [.line line] = line ++ style.lineEnd.text := by
  rw [render_eq, ← List.map_singleton, Style.fragmentsText_lines]
  simp [Style.indentation, Style.lineText_of_single single]

/-- A block is its header, its texts one level deeper, and its closing line. -/
theorem render_block_texts {style : Style} {header close : String} {texts : List String} :
    render style [.block header (texts.map .line) (some close)] =
      header ++ style.lineEnd.text ++ String.join (texts.map (style.lineText style.indent.unit)) ++
        close ++ style.lineEnd.text := by
  rw [render_eq, Style.fragmentsText, Style.fragmentsText, Style.fragmentText,
    Style.fragmentsText_lines]
  simp [Style.lineAt, Style.indentation, String.append_assoc]

/-! ### Blocks in braces -/

/-- A block of a declaration is its header, its texts at two blanks, and a brace. -/
theorem render_braces {header : String} {texts : List String} :
    render .declarations [.block header (texts.map .line) (some "\x7d")] =
      header ++ "\r\n" ++ String.join (texts.map (Style.declarations.lineText "  ")) ++
        "\x7d\r\n" := by
  have brace : "\x7d\r\n" = "\x7d" ++ "\r\n" := by decide
  rw [render_block_texts, Style.unit_declarations, Style.lineEnd_declarations, brace,
    ← String.append_assoc]

/-- Lines that hold no line feed stand in it as they are. -/
theorem render_braces_of_single {header : String} {lines : List String}
    (single : ∀ line ∈ lines, '\n' ∉ line.toList) :
    render .declarations [.block header (lines.map .line) (some "\x7d")] =
      header ++ "\r\n" ++ String.join (lines.map fun line => "  " ++ line ++ "\r\n") ++
        "\x7d\r\n" := by
  rw [render_braces,
    List.map_congr_left fun line mem => Style.lineText_of_single (single line mem),
    Style.lineEnd_declarations]

end Listing

end Layout

end SchemaTypings
