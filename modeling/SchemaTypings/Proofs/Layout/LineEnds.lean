import SchemaTypings.Declaration
import SchemaTypings.Proofs.Text.Lines

/-!
# Line ends of declarations

A listing in the style of declarations is terminated, whatever texts are added to it as
lines: a text that holds a line feed is split, and every line of it gets its own line end.
Headers and closing lines of blocks are written as they are. So a declaration is terminated
unless a line feed stands in its name or in the name of a parent; its members can be any
texts.
-/

namespace SchemaTypings

namespace Layout

/-! ### Listings -/

/-- The fragment writes no line feed that is not a line end: no header or closing line of a
block holds one. Lines may hold any text. -/
inductive Fragment.IsFramed : Fragment → Prop where
  | line (text : String) : IsFramed (.line text)
  | blank : IsFramed .blank
  | block {header : String} {body : List Fragment} {close : Option String} :
    IsUnbroken header → (∀ fragment ∈ body, IsFramed fragment) →
    (∀ text ∈ close, IsUnbroken text) → IsFramed (.block header body close)

theorem Indent.isUnbroken_unit (indent : Indent) : IsUnbroken indent.unit := by
  unfold Indent.unit
  split <;> decide

namespace Listing

/-- Indentations hold no line feed. -/
theorem isUnbroken_indentation (listing : Listing) : IsUnbroken listing.indentation := by
  rw [indentation, IsUnbroken, String.toList_join]
  intro mem
  obtain ⟨unit, listed, inside⟩ := List.mem_flatMap.mp mem
  rw [List.eq_of_mem_replicate listed] at inside
  exact listing.style.indent.isUnbroken_unit inside

/-- Lines end with a carriage return and a line feed, and all lines so far did. -/
structure IsTerminated (listing : Listing) : Prop where
  style : listing.style.lineEnd = .crlf
  text : Text.IsTerminated listing.text

namespace IsTerminated

variable {listing : Listing} (terminated : listing.IsTerminated)
include terminated

/-- A line without a line feed of its own is terminated by its end. -/
theorem line {content : String} (unbroken : IsUnbroken content) :
    (listing.line content).IsTerminated := by
  have whole : IsUnbroken (listing.indentation ++ content) :=
    isUnbroken_append.mpr ⟨listing.isUnbroken_indentation, unbroken⟩
  refine ⟨terminated.style, ?_⟩
  have text := terminated.text.append (Text.isTerminated_line whole)
  simpa [Listing.line, terminated.style, LineEnd.text, String.append_assoc] using text

theorem blank : listing.blank.IsTerminated := by
  have empty : IsUnbroken "" := by decide
  refine ⟨terminated.style, ?_⟩
  have text := terminated.text.append (Text.isTerminated_line empty)
  simpa [Listing.blank, terminated.style, LineEnd.text] using text

theorem indent : listing.indent.IsTerminated := ⟨terminated.style, terminated.text⟩

theorem dedent : listing.dedent.IsTerminated := ⟨terminated.style, terminated.text⟩

/-- So is a line of a longer text. -/
theorem lineOf {content : List Char} (unbroken : '\n' ∉ content) :
    (listing.lineOf content).IsTerminated := by
  unfold Listing.lineOf
  split
  · exact terminated.blank
  · exact terminated.line (by simpa [IsUnbroken] using unbroken)

/-- Any text can be split into lines and added. -/
theorem lines (content : String) : (listing.lines content).IsTerminated := by
  have unbroken : ∀ line ∈ Text.lines content.toList, '\n' ∉ line :=
    fun _ => Text.not_mem_of_mem_lines
  unfold Listing.lines
  generalize Text.lines content.toList = lines at unbroken
  induction lines generalizing listing with
  | nil => exact terminated
  | cons line rest ih =>
    obtain ⟨first, others⟩ := List.forall_mem_cons.mp unbroken
    exact ih (terminated.lineOf first) others

omit terminated in
/-- Fragments can be added one after the other if each of them can be added anywhere. -/
theorem addAll {fragments : List Fragment} (terminated : listing.IsTerminated)
    (each : ∀ fragment ∈ fragments, ∀ listing : Listing, listing.IsTerminated →
      (listing.add fragment).IsTerminated) : (listing.addAll fragments).IsTerminated := by
  induction fragments generalizing listing with
  | nil => simpa [Listing.addAll] using terminated
  | cons fragment rest ih =>
    obtain ⟨first, others⟩ := List.forall_mem_cons.mp each
    rw [Listing.addAll]
    exact ih (first listing terminated) others

/-- A fragment that is framed leaves the listing terminated. -/
theorem add {fragment : Fragment} (framed : fragment.IsFramed) :
    (listing.add fragment).IsTerminated := by
  -- The body of a block is added to another listing, which ends with the header.
  induction framed generalizing listing with
  | line text =>
    rw [Listing.add]
    split
    case isTrue => exact terminated.lines text
    case isFalse single => exact terminated.line (by simpa [IsUnbroken] using single)
  | blank => exact terminated.blank
  | @block header body close unbroken _ unbroken' ih =>
    have filled : ((listing.line header).indent.addAll body).dedent.IsTerminated :=
      ((terminated.line unbroken).indent.addAll fun fragment mem _ terminated =>
        ih fragment mem terminated).dedent
    cases close with
    | none =>
      rw [Listing.add]
      exact filled
    | some text =>
      rw [Listing.add]
      exact filled.line (unbroken' text rfl)

end IsTerminated

/-- Framed fragments come to a terminated text. -/
theorem isTerminated_render {style : Style} {fragments : List Fragment}
    (crlf : style.lineEnd = .crlf) (framed : ∀ fragment ∈ fragments, fragment.IsFramed) :
    Text.IsTerminated (render style fragments) := by
  have start : (empty style).IsTerminated := ⟨crlf, Text.isTerminated_empty⟩
  exact (start.addAll fun fragment mem _ terminated => terminated.add (framed fragment mem)).text

end Listing

end Layout

/-! ### Declarations -/

open Layout

/-- Unbroken texts between unbroken separators are unbroken. -/
theorem isUnbroken_intercalate {separator : String} {texts : List String}
    (unbroken : IsUnbroken separator) (unbroken' : ∀ text ∈ texts, IsUnbroken text) :
    IsUnbroken (String.intercalate separator texts) := by
  induction texts with
  | nil => simp [IsUnbroken]
  | cons text rest ih =>
    obtain ⟨first, others⟩ := List.forall_mem_cons.mp unbroken'
    cases rest with
    | nil => simpa using first
    | cons next rest =>
      rw [String.intercalate_cons_cons]
      exact isUnbroken_append.mpr ⟨isUnbroken_append.mpr ⟨first, unbroken⟩, ih others⟩

namespace Declaration

theorem isUnbroken_extendsClause {parents : List String}
    (unbroken : ∀ parent ∈ parents, IsUnbroken parent) : IsUnbroken (extendsClause parents) := by
  cases parents with
  | nil => decide
  | cons parent rest =>
    exact isUnbroken_append.mpr ⟨by decide, isUnbroken_intercalate (by decide) unbroken⟩

/-- The names in the header of a block hold no line feed. -/
def IsFramed : Declaration → Prop
  | typeAlias _ _ => True
  | enumeration name _ _ => IsUnbroken name
  | interface name parents _ _ => IsUnbroken name ∧ ∀ parent ∈ parents, IsUnbroken parent

/-- A declaration of unbroken names writes framed fragments, whatever its members are. -/
theorem isFramed_fragments {declaration : Declaration} (framed : declaration.IsFramed) :
    ∀ fragment ∈ declaration.fragments, fragment.IsFramed := by
  have mark (isExported : Bool) : IsUnbroken (exportMark isExported) := by
    revert isExported
    decide
  have block {header : String} {lines : List String} (unbroken : IsUnbroken header) :
      (Fragment.block header (lines.map .line) (some "\x7d")).IsFramed :=
    .block unbroken (List.forall_mem_map.mpr fun line _ => .line line) (by decide)
  cases declaration with
  | typeAlias name target => exact List.forall_mem_singleton.mpr (.line _)
  | enumeration name members isExported =>
    refine List.forall_mem_singleton.mpr (block ?_)
    simp only [isUnbroken_append]
    exact ⟨⟨⟨mark isExported, by decide⟩, framed⟩, by decide⟩
  | interface name parents members isExported =>
    refine List.forall_mem_singleton.mpr (block ?_)
    simp only [isUnbroken_append]
    exact ⟨⟨⟨⟨mark isExported, by decide⟩, framed.1⟩, isUnbroken_extendsClause framed.2⟩, by decide⟩

/-- Every line of a declaration ends with a carriage return and a line feed. -/
theorem isTerminated_render {declaration : Declaration} (framed : declaration.IsFramed) :
    Text.IsTerminated declaration.render :=
  Listing.isTerminated_render rfl (isFramed_fragments framed)

end Declaration

end SchemaTypings
