import SchemaTypings.Proofs.Layout.Indentation

/-!
# Nested blocks

A block writes its body one level deeper and goes back to the level it began at. So a
fragment at some level is its text at the outermost level, indented: inside a block the
levels of both add up. An empty line given as such would get blanks at one level and none at
another, and a header is not split, so fragments must be filled and framed for that.
-/

namespace SchemaTypings

namespace Layout

/-! ### Fragments that are indented -/

/-- No line, header or closing line in the fragment is empty. -/
inductive Fragment.IsFilled : Fragment → Prop where
  | line {text : String} : text ≠ "" → IsFilled (.line text)
  | blank : IsFilled .blank
  | block {header : String} {body : List Fragment} {close : Option String} :
    header ≠ "" → (∀ fragment ∈ body, IsFilled fragment) → (∀ text ∈ close, text ≠ "") →
    IsFilled (.block header body close)

namespace Style

variable {style : Style}

/-- A text of several lines is indented. -/
theorem lineText_of_broken {level : Nat} {text : String} (broken : '\n' ∈ text.toList) :
    style.lineText (style.indentation level) text = style.indented level text := by
  rw [lineText, if_pos broken, indented, Listing.lines, Listing.foldl_lineOf, String.empty_append]
  rfl

/-- Texts behind a terminated one are indented on their own. -/
theorem indented_append {text : String} (terminated : Text.IsTerminated text) (level : Nat)
    (rest : String) :
    style.indented level (text ++ rest) =
      style.indented level text ++ style.indented level rest := by
  simp only [indented_eq, joinLines]
  rw [String.toList_append, terminated.lines_toList_append, List.map_append, List.map_append,
    String.join_append]

theorem indented_empty (level : Nat) : style.indented level "" = "" := by
  rw [indented_eq]
  rfl

variable (crlf : style.lineEnd = .crlf)
include crlf

/-- At any level, the text of a framed fragment is made of whole lines. -/
theorem isTerminated_fragmentText {fragment : Fragment} (framed : fragment.IsFramed)
    (level : Nat) : Text.IsTerminated (style.fragmentText level fragment) := by
  have start : (⟨style, level, ""⟩ : Listing).IsTerminated := ⟨crlf, Text.isTerminated_empty⟩
  have text := (start.add framed).text
  rw [Listing.add_eq, String.empty_append] at text
  exact text

theorem isTerminated_fragmentsText {fragments : List Fragment}
    (framed : ∀ fragment ∈ fragments, fragment.IsFramed) (level : Nat) :
    Text.IsTerminated (style.fragmentsText level fragments) := by
  induction fragments with
  | nil => exact Text.isTerminated_empty
  | cons fragment rest ih =>
    obtain ⟨first, others⟩ := List.forall_mem_cons.mp framed
    exact (isTerminated_fragmentText crlf first level).append (ih others)

theorem isTerminated_lineAt {text : String} (unbroken : IsUnbroken text) (level : Nat) :
    Text.IsTerminated (style.lineAt level text) := by
  have whole : IsUnbroken (style.indentation level ++ text) :=
    isUnbroken_append.mpr ⟨style.isUnbroken_indentation level, unbroken⟩
  rw [lineAt, crlf]
  exact Text.isTerminated_line whole

/-- A line that is not empty is indented as it is. -/
theorem indented_lineAt {text : String} (filled : text ≠ "") (unbroken : IsUnbroken text)
    (level : Nat) : style.indented level (style.lineAt 0 text) = style.lineAt level text := by
  have chars : (style.lineAt 0 text).toList = text.toList ++ '\r' :: '\n' :: [] := by
    simp [lineAt, indentation, crlf, LineEnd.text]
  have nonempty : text.toList ≠ [] := fun empty => filled (String.toList_injective empty)
  rw [indented_eq, chars, Text.lines_append unbroken, joinLines]
  simp [Text.lines, indentLine, nonempty, lineAt, String.append_assoc]

/-- A line end alone is not indented. -/
theorem indented_lineEnd (level : Nat) :
    style.indented level style.lineEnd.text = style.lineEnd.text := by
  rw [indented_eq, crlf, joinLines, crlf]
  simp [LineEnd.text, Text.lines, indentLine]

/-- What stands behind a block is indented with it. -/
theorem indented_closing {close : Option String} (filled : ∀ text ∈ close, text ≠ "")
    (unbroken : ∀ text ∈ close, IsUnbroken text) (level : Nat) :
    style.indented level (close.elim "" (style.lineAt 0)) =
      close.elim "" (style.lineAt level) := by
  cases close with
  | none => exact indented_empty level
  | some text => exact indented_lineAt crlf (filled text rfl) (unbroken text rfl) level

/-- Fragments are indented together if each of them is indented alone. -/
theorem indented_fragmentsText {fragments : List Fragment}
    (framed : ∀ fragment ∈ fragments, fragment.IsFramed)
    (each : ∀ fragment ∈ fragments, ∀ level,
      style.indented level (style.fragmentText 0 fragment) = style.fragmentText level fragment)
    (level : Nat) :
    style.indented level (style.fragmentsText 0 fragments) =
      style.fragmentsText level fragments := by
  induction fragments with
  | nil => exact indented_empty level
  | cons fragment rest ih =>
    obtain ⟨first, others⟩ := List.forall_mem_cons.mp framed
    obtain ⟨head, tail⟩ := List.forall_mem_cons.mp each
    have terminated := isTerminated_fragmentText crlf first 0
    rw [fragmentsText, indented_append terminated, head level, ih others tail, fragmentsText]

/-- A fragment at a level is its text at the outermost level, indented. -/
theorem indented_fragmentText {fragment : Fragment} (framed : fragment.IsFramed)
    (filled : fragment.IsFilled) (level : Nat) :
    style.indented level (style.fragmentText 0 fragment) = style.fragmentText level fragment := by
  induction framed generalizing level with
  | line text =>
    cases filled with
    | line nonempty =>
      rw [fragmentText, fragmentText]
      by_cases broken : '\n' ∈ text.toList
      · -- A text that is split has been indented already, to the outermost level.
        rw [lineText_of_broken broken, lineText_of_broken broken]
        exact indented_indented crlf level 0 text
      · rw [lineText_of_single broken, lineText_of_single broken]
        exact indented_lineAt crlf nonempty broken level
  | blank => exact indented_lineEnd crlf level
  | @block header body close unbroken framed unbroken' ih =>
    cases filled with
    | block nonempty filled nonempty' =>
      have inner (level : Nat) : style.indented level (style.fragmentsText 0 body) =
          style.fragmentsText level body :=
        indented_fragmentsText crlf framed
          (fun fragment mem level => ih fragment mem (filled fragment mem) level) level
      -- The body stands one level deeper on both sides, so the levels add up.
      have deeper : style.indented level (style.fragmentsText 1 body) =
          style.fragmentsText (level + 1) body := by
        rw [← inner 1, indented_indented crlf, inner (level + 1)]
      have start := isTerminated_lineAt crlf unbroken 0
      have upTo := start.append (isTerminated_fragmentsText crlf framed 1)
      calc style.indented level (style.fragmentText 0 (.block header body close))
        _ = style.indented level (style.lineAt 0 header ++ style.fragmentsText 1 body ++
              close.elim "" (style.lineAt 0)) := by rw [fragmentText]
        _ = style.indented level (style.lineAt 0 header) ++
              style.indented level (style.fragmentsText 1 body) ++
              style.indented level (close.elim "" (style.lineAt 0)) := by
            rw [indented_append upTo, indented_append start]
        _ = style.lineAt level header ++ style.fragmentsText (level + 1) body ++
              close.elim "" (style.lineAt level) := by
            rw [indented_lineAt crlf nonempty unbroken, deeper,
              indented_closing crlf nonempty' unbroken']
        _ = style.fragmentText level (.block header body close) := by rw [fragmentText]

end Style

/-! ### The main result -/

/-- Fragments add a text to a listing that depends on its style and level only, and the
listing goes on at the level it was at. Where lines end with a carriage return and a line
feed, no line, header or closing line is empty, and no header or closing line holds a line
feed, that text is what the fragments are rendered to at the outermost level, added line by
line. -/
theorem nesting_is_indentation (listing : Listing) (fragments : List Fragment) :
    listing.addAll fragments =
      { listing with text := listing.text ++ listing.style.fragmentsText listing.level fragments } ∧
    (listing.style.lineEnd = .crlf → (∀ fragment ∈ fragments, fragment.IsFilled) →
      (∀ fragment ∈ fragments, fragment.IsFramed) →
      listing.addAll fragments = listing.lines (Listing.render listing.style fragments)) := by
  refine ⟨listing.addAll_eq fragments, ?_⟩
  intro crlf filled framed
  have each : ∀ fragment ∈ fragments, ∀ level,
      listing.style.indented level (listing.style.fragmentText 0 fragment) =
        listing.style.fragmentText level fragment := by
    intro fragment mem level
    exact Style.indented_fragmentText crlf (framed fragment mem) (filled fragment mem) level
  rw [Listing.addAll_eq, Listing.lines_eq_indented, Listing.render_eq,
    Style.indented_fragmentsText crlf framed each]

/-- A block in a block, without closing line, and lines that are split, one of them empty
and one that ends with a carriage return. -/
def nestedFragments : List Fragment :=
  [.block "namespace a" [.line "b\n\nc\r", .block "d" [.line "\r", .blank] none] (some "end"),
    .line "e"]

/-- Adding the nested block at level two is adding the lines of its rendering. -/
theorem nestedFragments_are_indented :
    let listing : Listing := ⟨⟨.tab, .crlf⟩, 2, "f"⟩
    listing.style.lineEnd = .crlf ∧ (∀ fragment ∈ nestedFragments, fragment.IsFilled) ∧
      (∀ fragment ∈ nestedFragments, fragment.IsFramed) ∧
      listing.addAll nestedFragments =
        listing.lines (Listing.render listing.style nestedFragments) := by
  intro listing
  have filled : ∀ fragment ∈ nestedFragments, fragment.IsFilled := by
    have inner : ∀ fragment ∈ [.line "\r", .blank], Fragment.IsFilled fragment :=
      List.forall_mem_cons.mpr ⟨.line (by decide), List.forall_mem_singleton.mpr .blank⟩
    have body : ∀ fragment ∈ [.line "b\n\nc\r", .block "d" [.line "\r", .blank] none],
        Fragment.IsFilled fragment :=
      List.forall_mem_cons.mpr ⟨.line (by decide),
        List.forall_mem_singleton.mpr (.block (by decide) inner nofun)⟩
    exact List.forall_mem_cons.mpr ⟨.block (by decide) body (by decide),
      List.forall_mem_singleton.mpr (.line (by decide))⟩
  have framed : ∀ fragment ∈ nestedFragments, fragment.IsFramed := by
    have inner : ∀ fragment ∈ [.line "\r", .blank], Fragment.IsFramed fragment :=
      List.forall_mem_cons.mpr ⟨.line "\r", List.forall_mem_singleton.mpr .blank⟩
    have body : ∀ fragment ∈ [.line "b\n\nc\r", .block "d" [.line "\r", .blank] none],
        Fragment.IsFramed fragment :=
      List.forall_mem_cons.mpr ⟨.line "b\n\nc\r",
        List.forall_mem_singleton.mpr (.block (by decide) inner nofun)⟩
    exact List.forall_mem_cons.mpr ⟨.block (by decide) body (by decide),
      List.forall_mem_singleton.mpr (.line "e")⟩
  exact ⟨rfl, filled, framed,
    (nesting_is_indentation listing nestedFragments).2 rfl filled framed⟩

end Layout

end SchemaTypings
