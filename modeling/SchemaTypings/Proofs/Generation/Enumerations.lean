import SchemaTypings.Proofs.Generation.Concatenation
import SchemaTypings.Proofs.Layout.Indentation

/-!
# Texts of enumerations

The values of an enumeration are written one level deeper, each on a line of its own, and a
comma stands behind all of them but the last. `separated_eq_mapIdx` tells the line of a value
by its place, and `join_separated` puts the lines together: the comma, the line end and the
indentation between two values are one separator. A value may be any text without a line
feed; it may be empty, hold commas, or stand in the list more than once.
-/

namespace SchemaTypings

open Layout

/-! ### Members with commas -/

namespace Declaration

/-- A member has a comma unless its place is the last. -/
theorem separated_eq_mapIdx (members : List String) :
    separated members =
      members.mapIdx fun i member => member ++ if i + 1 < members.length then "," else "" := by
  induction members with
  | nil => rfl
  | cons member rest ih =>
    cases rest with
    | nil => simp [separated]
    | cons next rest =>
      -- The places of the tail are shifted by one, and so is the last of them.
      rw [separated, ih, List.mapIdx_cons (l := next :: rest)]
      · simp
      · simp

/-- What holds of all members, with a comma or without, holds of all lines. -/
theorem forall_mem_separated {p : String → Prop} {members : List String}
    (comma : ∀ member, p member → p (member ++ ",")) (each : ∀ member ∈ members, p member) :
    ∀ line ∈ separated members, p line := by
  rw [separated_eq_mapIdx]
  intro line mem
  obtain ⟨i, inside, rfl⟩ := List.mem_mapIdx.mp mem
  have holds := each _ (List.getElem_mem inside)
  split
  · exact comma _ holds
  · simpa using holds

/-- Members are told by their lines, as commas stand behind all but the last. -/
theorem separated_inj {members members' : List String}
    (same : separated members = separated members') : members = members' := by
  rw [separated_eq_mapIdx, separated_eq_mapIdx] at same
  have lengths : members.length = members'.length := by simpa using congrArg List.length same
  refine List.ext_getElem lengths fun i inside inside' => ?_
  have lines := congrArg (·[i]?) same
  simpa [inside, inside', lengths, String.append_left_inj] using lines

/-- What is made of each line is made of each member by its place. -/
theorem map_separated {α : Type} (f : String → α) (members : List String) :
    (separated members).map f =
      members.mapIdx fun i member => f (member ++ if i + 1 < members.length then "," else "") := by
  rw [separated_eq_mapIdx]
  refine (List.mapIdx_eq_iff.mpr fun i => ?_).symm
  rw [List.getElem?_map, List.getElem?_mapIdx, Option.map_map]
  rfl

/-- Between the same texts, the lines are the members joined by a comma and these texts. -/
theorem join_separated (before after : String) (members : List String) :
    String.join ((separated members).map fun line => before ++ line ++ after) =
      if members = [] then ""
      else before ++ String.intercalate ("," ++ after ++ before) members ++ after := by
  induction members with
  | nil => rfl
  | cons member rest ih =>
    rw [if_neg (List.cons_ne_nil member rest)]
    cases rest with
    | nil => simp [separated]
    | cons next rest =>
      rw [if_neg (List.cons_ne_nil next rest)] at ih
      rw [separated, List.map_cons, String.join_cons, ih, String.intercalate_cons_cons]
      · simp only [String.append_assoc]
      · simp

end Declaration

/-! ### What is written -/

/-- Where no member holds a line feed, no line does. -/
theorem Declaration.isUnbroken_separated {members : List String}
    (unbroken : ∀ member ∈ members, IsUnbroken member) :
    ∀ line ∈ separated members, IsUnbroken line :=
  forall_mem_separated (fun _ first => isUnbroken_append.mpr ⟨first, by decide⟩) unbroken

/-- An enumeration whose members hold no line feed is its header, its lines and a brace. -/
theorem Declaration.render_enumeration (name : String) (isExported : Bool) {members : List String}
    (unbroken : ∀ member ∈ members, IsUnbroken member) :
    (Declaration.enumeration name members isExported).render =
      exportMark isExported ++ "enum " ++ name ++ " \x7b\r\n" ++
        String.join ((separated members).map fun line => "  " ++ line ++ "\r\n") ++
        "\x7d\r\n" := by
  have opening : " \x7b\r\n" = " \x7b" ++ "\r\n" := by decide
  have single := isUnbroken_separated unbroken
  rw [render, fragments, Listing.render_braces_of_single single, opening, ← String.append_assoc]

/-- Lines that are written one level deeper are read back. -/
theorem lines_join_indented {lines : List String} (unbroken : ∀ line ∈ lines, IsUnbroken line) :
    Text.lines (String.join (lines.map fun line => "  " ++ line ++ "\r\n")).toList =
      lines.map fun line => ("  " ++ line).toList := by
  have whole : String.join (lines.map fun line => "  " ++ line ++ "\r\n") =
      Style.declarations.joinLines (lines.map fun line => ("  " ++ line).toList) := by
    simp only [Style.joinLines, Style.lineEnd_declarations, List.map_map, Function.comp_def,
      String.ofList_toList]
  have deeper : ∀ line ∈ lines.map fun line => ("  " ++ line).toList, '\n' ∉ line :=
    List.forall_mem_map.mpr fun line mem =>
      isUnbroken_append.mpr ⟨by decide, unbroken line mem⟩
  rw [whole, Style.lines_joinLines rfl deeper]

/-- A generator that keeps the default rule for enumerations renders them by it. -/
theorem Generator.renderDefinition_enumeration {generator : Generator}
    (kept : generator.rules.enumeration = Default.enumeration) (schema : Schema)
    (enumeration : Enumeration) :
    ∃ context, generator.renderDefinition schema (.enumeration enumeration) =
      Default.enumeration enumeration context := by
  rw [← kept]
  exact ⟨_, rfl⟩

/-! ### The main result -/

/-- The default rule writes an enumeration as its header, its values joined by a comma, a line
end and the indentation, and a brace; without values nothing stands between the two. So does
every generator in which the rule for enumerations is not replaced. Between header and brace
there is one line for each value, in order, with one comma behind each but the last. -/
theorem enumerations_join_values (name : String) (values : List String)
    (unbroken : ∀ value ∈ values, IsUnbroken value) :
    let body :=
      if values = [] then "" else "  " ++ String.intercalate ",\r\n  " values ++ "\r\n"
    let text := "enum " ++ name ++ " \x7b\r\n" ++ body ++ "\x7d\r\n"
    (∀ context, Default.enumeration ⟨name, values⟩ context = .ok text) ∧
    (∀ generator : Generator, generator.rules.enumeration = Default.enumeration →
      ∀ schema, generator.renderDefinition schema (.enumeration ⟨name, values⟩) = .ok text) ∧
    Text.lines body.toList = values.mapIdx fun i value =>
      ("  " ++ (value ++ if i + 1 < values.length then "," else "")).toList := by
  intro body text
  have joined :
      String.join ((Declaration.separated values).map fun line => "  " ++ line ++ "\r\n") =
        body := by
    have separator : "," ++ "\r\n" ++ "  " = ",\r\n  " := by decide
    rw [Declaration.join_separated, separator]
  have written (context : Context) : Default.enumeration ⟨name, values⟩ context = .ok text := by
    rw [Default.enumeration, Declaration.render_enumeration name false unbroken, joined]
    rfl
  refine ⟨written, ?kept, ?lines⟩
  case kept =>
    intro generator kept schema
    obtain ⟨context, rendered⟩ := Generator.renderDefinition_enumeration kept schema ⟨name, values⟩
    rw [rendered, written]
  case lines =>
    have single := Declaration.isUnbroken_separated unbroken
    rw [← joined, lines_join_indented single, Declaration.map_separated]

/-- A name of two lines; a value that holds a comma and stands twice, and one that is empty. -/
theorem hues_join_values :
    (∀ value ∈ ["RED,", "", "RED,"], IsUnbroken value) ∧
    (Generator.ofOptions ⟨none, {}⟩).renderDefinition .empty
        (.enumeration ⟨"Hue\n", ["RED,", "", "RED,"]⟩) =
      .ok "enum Hue\n \x7b\r\n  RED,,\r\n  ,\r\n  RED,\r\n\x7d\r\n" ∧
    Default.enumeration ⟨"Hue\n", []⟩ (Rules.default.context "types" .empty) =
      .ok "enum Hue\n \x7b\r\n\x7d\r\n" := by
  have unbroken : ∀ value ∈ ["RED,", "", "RED,"], IsUnbroken value := by decide
  obtain ⟨-, generator, -⟩ := enumerations_join_values "Hue\n" _ unbroken
  refine ⟨unbroken, ?_, ?_⟩
  · exact (generator (.ofOptions ⟨none, {}⟩) rfl .empty).trans (by decide)
  · exact ((enumerations_join_values "Hue\n" [] (by simp)).1 _).trans (by decide)

end SchemaTypings
