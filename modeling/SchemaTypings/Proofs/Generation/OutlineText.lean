import Mathlib.Data.List.Basic
import SchemaTypings.Proofs.Generation.Outline
import SchemaTypings.Proofs.Layout.Blocks

/-!
# Texts of outlines

The declaration of an outline is written line by line, and no name breaks a line. So the
texts of declarations in a row are told apart into lines, and the lines into outlines.
-/

namespace SchemaTypings

/-! ### Texts of outlines -/

/-- The line of a field with names in it is one line. -/
theorem FieldOutline.isLine_line {field : FieldOutline}
    (named : IsName field.name ∧ IsName field.base) : IsLine field.line := by
  have optional : IsLine (if field.isOptional then "?: " else ": ") := by split <;> decide
  have list : IsLine (if field.isList then "[];" else ";") := by split <;> decide
  rw [line_eq, tail]
  simp only [isLine_append]
  exact ⟨named.1.isLine, optional, named.2.isLine, list⟩

/-- Names with commas behind them are lines. -/
theorem isLine_separated {values : List String} (named : ∀ value ∈ values, IsName value) :
    ∀ line ∈ Declaration.separated values, IsLine line :=
  Declaration.forall_mem_separated
    (fun _ isLine => isLine_append.mpr ⟨isLine, by decide⟩) fun value mem => (named value mem).isLine

theorem isLine_extendsClause {parents : List String} (named : ∀ parent ∈ parents, IsName parent) :
    IsLine (Declaration.extendsClause parents) := by
  have comma : IsLine ", " := by decide
  cases parents with
  | nil => decide
  | cons parent rest =>
    rcases List.forall_mem_cons.mp named with ⟨isName, isNames⟩
    refine isLine_append.mpr ⟨by decide, ?_⟩
    rw [IsLine, toList_intercalate, List.forall_mem_append]
    refine ⟨isName.isLine, fun c mem => ?_⟩
    obtain ⟨other, listed, mem⟩ := List.mem_flatMap.mp mem
    exact (List.mem_append.mp mem).elim (comma c) ((isNames other listed).isLine c)

/-- The header of a declaration is one line. -/
theorem Outline.isLine_header {outline : Outline} (named : outline.IsNamed) :
    IsLine outline.header := by
  cases outline with
  | typeAlias name =>
    simp only [header, Declaration.aliasLine, isLine_append]
    exact ⟨⟨⟨by decide, named.isLine⟩, by decide⟩, by decide⟩
  | enumeration name values =>
    simp only [header, isLine_append]
    exact ⟨⟨by decide, named.1.isLine⟩, by decide⟩
  | record name parents fields =>
    simp only [header, isLine_append]
    exact ⟨⟨⟨by decide, named.1.isLine⟩, isLine_extendsClause named.2.1⟩, by decide⟩

/-- The members of a declaration are one line each. -/
theorem Outline.isLine_body {outline : Outline} (named : outline.IsNamed) :
    ∀ members ∈ outline.body, ∀ line ∈ members, IsLine line := by
  rintro members body line mem
  cases outline with
  | typeAlias name => cases body
  | enumeration name values =>
    cases body
    exact isLine_separated named.2 line mem
  | record name parents fields =>
    cases body
    obtain ⟨field, listed, rfl⟩ := List.mem_map.mp mem
    exact FieldOutline.isLine_line (named.2.2 field listed)

theorem Outline.isLine_lines {outline : Outline} (named : outline.IsNamed) :
    ∀ line ∈ outline.lines, IsLine line := by
  have members := isLine_body named
  rw [lines]
  refine List.forall_mem_cons.mpr ⟨isLine_header named, ?_⟩
  cases body : outline.body with
  | none => simp
  | some lines =>
    refine List.forall_mem_append.mpr ⟨fun line mem => ?_, by decide⟩
    obtain ⟨member, listed, rfl⟩ := List.mem_map.mp mem
    exact isLine_append.mpr ⟨by decide, members lines body member listed⟩

/-- A declaration is a line, or a block of one line for each member. -/
theorem Outline.fragments_eq (outline : Outline) :
    outline.declaration.fragments =
      match outline.body with
      | none => [.line outline.header]
      | some members => [.block outline.header (members.map .line) (some "\x7d")] := by
  cases outline <;> rfl

/-- A declaration is written line by line. -/
theorem Outline.render_eq {outline : Outline} (named : outline.IsNamed) :
    outline.declaration.render.toList =
      outline.lines.flatMap fun line => line.toList ++ "\r\n".toList := by
  have members := isLine_body named
  rw [Declaration.render, fragments_eq, lines]
  cases body : outline.body with
  | none =>
    simp only [Layout.Listing.render_line (isLine_header named).single]
    simp
  | some lines =>
    simp only [Layout.Listing.render_braces_of_single fun line mem =>
      (members lines body line mem).single]
    simp [List.flatMap_map]

section Row

variable {outlines : List Outline} (named : ∀ outline ∈ outlines, outline.IsNamed)
include named

/-- Declarations in a row are written line by line. -/
theorem Outline.toList_join_render :
    (String.join (outlines.map fun outline => outline.declaration.render)).toList =
      (outlines.flatMap lines).flatMap fun line => line.toList ++ "\r\n".toList := by
  rw [String.toList_join, List.flatMap_map, List.flatMap_assoc]
  exact List.flatMap_congr fun outline mem => render_eq (named outline mem)

theorem Outline.isLine_of_mem_flatMap : ∀ line ∈ outlines.flatMap lines, IsLine line := by
  intro line mem
  obtain ⟨outline, listed, mem⟩ := List.mem_flatMap.mp mem
  exact isLine_lines (named outline listed) line mem

end Row

/-- The texts of declarations in a row tell the outlines. -/
theorem Outline.texts_inj {outlines outlines' : List Outline}
    (named : ∀ outline ∈ outlines, outline.IsNamed)
    (named' : ∀ outline ∈ outlines', outline.IsNamed)
    (same : String.join (outlines.map fun outline => outline.declaration.render) =
      String.join (outlines'.map fun outline => outline.declaration.render)) :
    outlines = outlines' := by
  have texts := congrArg String.toList same
  rw [toList_join_render named, toList_join_render named'] at texts
  have text_code := readsBack_line.flatMap (· = []) (by simp) (by simp) (by simp)
  have line_code := readsBack_lines.flatMap (· = []) (by simp) (by simp)
    (by simp [lines])
  have lines_eq := (text_code (isLine_of_mem_flatMap named) (isLine_of_mem_flatMap named') rfl rfl
    (congrArg (· ++ []) texts)).1
  exact (line_code named named' rfl rfl (congrArg (· ++ []) lines_eq)).1

end SchemaTypings
