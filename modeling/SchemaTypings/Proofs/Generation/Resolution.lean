import SchemaTypings.Proofs.Generation.Decoding
import SchemaTypings.Proofs.Generation.Locality
import SchemaTypings.Proofs.Text.Lines

/-!
# References and declarations of a module

In a module that is generated from a text under the default rules, every field refers to a
primitive type or to a type of the schema. And a type is declared by one line of the module,
wherever fields refer to it, unless it is reserved or a standard scalar; then no line
declares it.
-/

namespace SchemaTypings

/-! ### Declared definitions -/

def Definition.IsStandardScalar (definition : Definition) : Prop :=
  ∃ standard : StandardScalar, definition = .scalar (.ofStandard standard)

/-- The definition is visible, and not a standard scalar. -/
def Definition.IsDeclared (definition : Definition) : Prop :=
  isReserved definition.name = false ∧ ¬ definition.IsStandardScalar

/-- The line declares a type of this name, and is not indented. -/
inductive Declares (name : String) : String → Prop where
  | typeAlias (target : String) : Declares name ("type " ++ name ++ " = " ++ target)
  | enumeration : Declares name ("enum " ++ name ++ " \x7b")
  | interface : Declares name ("export interface " ++ name ++ " \x7b")
  | extending (parents : String) :
    Declares name ("export interface " ++ name ++ " extends " ++ parents ++ " \x7b")

/-- What a field that refers to a name can be written with: the primitive type of the
standard scalar of that name, or the name itself, which then belongs to another definition
of the schema. -/
inductive Schema.Resolves (schema : Schema) (name : String) : String → Prop where
  | primitive (standard : StandardScalar) :
    standard.name = name → .scalar (.ofStandard standard) ∈ schema.toList →
    Resolves schema name standard.primitive
  | definition (definition : Definition) :
    definition ∈ schema.toList → definition.name = name → ¬ definition.IsStandardScalar →
    Resolves schema name name

/-- One member has the property, and no other member has it. -/
def ExactlyOne {α : Type} (p : α → Prop) (xs : List α) : Prop :=
  ∃ before x after, xs = before ++ x :: after ∧ p x ∧ ∀ y ∈ before ++ after, ¬ p y

def Generated.lines (generated : Generated) : List String :=
  (Text.lines generated.content.toList).map String.ofList

/-! ### References -/

/-- A definition of another kind is not a standard scalar. -/
theorem Definition.not_isStandardScalar {definition : Definition}
    (other : (definition.kind == .scalar) = false) : ¬ definition.IsStandardScalar := by
  rintro ⟨standard, rfl⟩
  cases other

theorem Scalar.isStandard_iff {scalar : Scalar} :
    scalar.isStandard = true ↔ (Definition.scalar scalar).IsStandardScalar := by
  unfold isStandard standard? Definition.IsStandardScalar
  rw [Option.isSome_iff_exists]
  refine exists_congr fun standard => StandardScalar.ofName?_eq_some_iff.trans ?_
  obtain ⟨name⟩ := scalar
  simp [ofStandard, eq_comm]

/-- Where every standard name is defined, a known name resolves to its outline. -/
theorem Schema.resolves_baseOutline {schema : Schema} {name : String}
    (standard : ∀ standard : StandardScalar, standard.name ∈ schema.names)
    (known : schema.Knows name) : schema.Resolves name (schema.baseOutline name) := by
  have mem : name ∈ schema.names := by
    rcases known with mem | ⟨scalar, rfl⟩
    · exact mem
    · exact standard scalar
  obtain ⟨definition, listed, rfl⟩ := List.mem_map.mp mem
  have found : schema.find? (Named.name definition) = some definition :=
    NamedList.find?_eq_some_iff.mpr ⟨listed, rfl⟩
  rw [baseOutline, found]
  cases definition with
  | scalar s =>
    change schema.Resolves s.name (((StandardScalar.ofName? s.name).map _).getD s.name)
    cases same : StandardScalar.ofName? s.name with
    | some scalar =>
      obtain rfl : .ofStandard scalar = s :=
        congrArg Scalar.mk (StandardScalar.ofName?_eq_some_iff.mp same)
      exact .primitive scalar rfl listed
    | none =>
      refine .definition _ listed rfl fun isStandard => ?_
      have isSome := Scalar.isStandard_iff.mpr isStandard
      rw [Scalar.isStandard, Scalar.standard?, same] at isSome
      cases isSome
  | enumeration e => exact .definition _ listed rfl (Definition.not_isStandardScalar rfl)
  | object r => exact .definition _ listed rfl (Definition.not_isStandardScalar rfl)
  | interface r => exact .definition _ listed rfl (Definition.not_isStandardScalar rfl)

/-! ### Lines that declare -/

def declaringWords : List String := ["type ", "enum ", "export interface "]

/-- A text begins with one declaring word at most, which tells what follows it. -/
theorem declaringWords_inj {word word' s t : String} (mem : word ∈ declaringWords)
    (mem' : word' ∈ declaringWords) (same : word ++ s = word' ++ t) : s = t := by
  have begins (word : String) (mem : word ∈ declaringWords) (rest : String) :
      (word ++ rest).toList.take 2 = word.toList.take 2 := by
    simp only [declaringWords, List.mem_cons, List.not_mem_nil, or_false] at mem
    rcases mem with rfl | rfl | rfl <;> simp
  have apart : ∀ word ∈ declaringWords, ∀ word' ∈ declaringWords,
      word.toList.take 2 = word'.toList.take 2 → word = word' := by decide
  obtain rfl : word = word' := by
    refine apart word mem word' mem' ?_
    rw [← begins word mem s, same, begins word' mem' t]
  exact (String.append_right_inj word).mp same

/-- A line that declares a name begins with a word for it, and something behind the name
ends it. -/
theorem Declares.exists_word {name line : String} (declares : Declares name line) :
    ∃ word ∈ declaringWords, ∃ rest, line = word ++ (name ++ rest) ∧
      ¬ ContinuesName rest.toList := by
  have blank (rest : String) : ¬ ContinuesName (" " ++ rest).toList := by
    rw [String.toList_append]
    exact fun continues => absurd (continuesName_cons.mp continues) (by decide)
  cases declares with
  | typeAlias target =>
    refine ⟨"type ", by decide, " " ++ ("= " ++ target), ?_, blank _⟩
    simp [← String.toList_inj]
  | enumeration =>
    refine ⟨"enum ", by decide, " " ++ "\x7b", ?_, blank _⟩
    simp [← String.toList_inj]
  | interface =>
    refine ⟨"export interface ", by decide, " " ++ "\x7b", ?_, blank _⟩
    simp [← String.toList_inj]
  | extending parents =>
    refine ⟨"export interface ", by decide, " " ++ ("extends " ++ parents ++ " \x7b"), ?_, blank _⟩
    simp [← String.toList_inj]

/-- A line declares one name at most. -/
theorem Declares.unique {name name' line : String} (isName : IsName name) (isName' : IsName name')
    (declares : Declares name line) (declares' : Declares name' line) : name = name' := by
  obtain ⟨word, mem, rest, rfl, ends⟩ := declares.exists_word
  obtain ⟨word', mem', rest', same, ends'⟩ := declares'.exists_word
  exact (name_append_inj isName isName' ends ends' (declaringWords_inj mem mem' same)).1

/-- No line declares a name that begins with a blank or a brace. -/
theorem Declares.head_ne {name line : String} (declares : Declares name line) :
    line.toList.head? ≠ some ' ' ∧ line.toList.head? ≠ some '\x7d' := by
  obtain ⟨word, mem, rest, rfl, -⟩ := declares.exists_word
  simp only [declaringWords, List.mem_cons, List.not_mem_nil, or_false] at mem
  rcases mem with rfl | rfl | rfl <;> simp

namespace Outline

def name : Outline → String
  | typeAlias name => name
  | enumeration name _ => name
  | record name _ _ => name

theorem IsNamed.isName_name {outline : Outline} (named : outline.IsNamed) :
    IsName outline.name := by
  cases outline with
  | typeAlias name => exact named
  | enumeration name values => exact named.1
  | record name parents fields => exact named.1

/-- The header of a declaration declares its name. -/
theorem declares_header (outline : Outline) : Declares outline.name outline.header := by
  cases outline with
  | typeAlias name => exact .typeAlias "string"
  | enumeration name values => exact .enumeration
  | record typeName parents fields =>
    cases parents with
    | nil =>
      convert Declares.interface using 1
      simp [header, name, Declaration.exportMark, Declaration.extendsClause]
    | cons parent rest =>
      convert Declares.extending (String.intercalate ", " (parent :: rest)) using 1
      simp [header, name, Declaration.exportMark, Declaration.extendsClause, ← String.toList_inj]

/-- The lines behind the header are members, which are indented, or a brace. -/
theorem not_declares_of_mem_tail {outline : Outline} {name line : String}
    (mem : line ∈ outline.lines.tail) : ¬ Declares name line := by
  intro declares
  obtain ⟨notBlank, notBrace⟩ := declares.head_ne
  rw [lines, List.tail_cons] at mem
  cases body : outline.body with
  | none => simp [body] at mem
  | some members =>
    rw [body] at mem
    rcases List.mem_append.mp mem with mem | mem
    · obtain ⟨member, -, rfl⟩ := List.mem_map.mp mem
      simp at notBlank
    · cases List.mem_singleton.mp mem
      simp at notBrace

/-- The lines of an outline declare its name only. -/
theorem eq_of_declares {outline : Outline} {name line : String} (named : outline.IsNamed)
    (isName : IsName name) (mem : line ∈ outline.lines) (declares : Declares name line) :
    name = outline.name := by
  rcases List.mem_cons.mp mem with rfl | mem
  · exact declares.unique isName named.isName_name outline.declares_header
  · exact absurd declares (not_declares_of_mem_tail mem)

end Outline

/-! ### Names of outlines -/

/-- An outline has the name of its definition, which is no standard scalar. -/
theorem Definition.name_eq_of_outline? {schema : Schema} {definition : Definition}
    {outline : Outline} (found : definition.outline? schema = some outline) :
    outline.name = definition.name ∧ ¬ definition.IsStandardScalar := by
  cases definition with
  | scalar s =>
    by_cases standard : s.isStandard
    · cases (if_pos standard).symm.trans found
    · cases (if_neg standard).symm.trans found
      exact ⟨rfl, fun isStandard => standard (Scalar.isStandard_iff.mpr isStandard)⟩
  | enumeration e =>
    cases found
    exact ⟨rfl, not_isStandardScalar rfl⟩
  | object r =>
    cases found
    exact ⟨rfl, not_isStandardScalar rfl⟩
  | interface r =>
    cases found
    exact ⟨rfl, not_isStandardScalar rfl⟩

/-- Only standard scalars have no outline. -/
theorem Definition.exists_outline? {schema : Schema} {definition : Definition}
    (other : ¬ definition.IsStandardScalar) :
    ∃ outline, definition.outline? schema = some outline := by
  cases definition with
  | scalar s =>
    rw [← Scalar.isStandard_iff] at other
    exact ⟨_, if_neg other⟩
  | enumeration e => exact ⟨_, rfl⟩
  | object r => exact ⟨_, rfl⟩
  | interface r => exact ⟨_, rfl⟩

namespace Schema

variable {schema : Schema}

/-- The names of the outlines are those of the declared definitions. -/
theorem exists_outline_iff {definition : Definition} (mem : definition ∈ schema.toList) :
    (∃ outline ∈ schema.outlines, outline.name = definition.name) ↔ definition.IsDeclared := by
  constructor
  · rintro ⟨outline, listed, named⟩
    obtain ⟨other, visible, found⟩ := List.mem_filterMap.mp listed
    obtain ⟨mem', seen⟩ := List.mem_filter.mp visible
    obtain ⟨named', declared⟩ := Definition.name_eq_of_outline? found
    obtain rfl : other = definition :=
      List.inj_on_of_nodup_map schema.distinct mem' mem (named'.symm.trans named)
    exact ⟨by simpa using seen, declared⟩
  · rintro ⟨seen, other⟩
    obtain ⟨outline, found⟩ := Definition.exists_outline? other
    refine ⟨outline, List.mem_filterMap.mpr ⟨definition, List.mem_filter.mpr ⟨mem, ?_⟩, found⟩,
      (Definition.name_eq_of_outline? found).1⟩
    simpa using seen

/-- Outlines keep the order of their definitions. -/
theorem sublist_names_outlines (definitions : List Definition) :
    ((definitions.filterMap (Definition.outline? schema)).map Outline.name).Sublist
      (definitions.map Named.name) := by
  induction definitions with
  | nil => exact .slnil
  | cons definition rest ih =>
    cases found : definition.outline? schema with
    | none =>
      rw [List.filterMap_cons_none found]
      exact ih.cons _
    | some outline =>
      rw [List.filterMap_cons_some found, List.map_cons, List.map_cons,
        (Definition.name_eq_of_outline? found).1]
      exact ih.cons_cons _

/-- No two outlines have the same name. -/
theorem nodup_names_outlines : (schema.outlines.map Outline.name).Nodup :=
  (schema.distinct.sublist (List.filter_sublist.map _)).sublist (sublist_names_outlines _)

end Schema

/-- A name is declared by the header of the one outline that has it. -/
theorem exactlyOne_declares {outlines : List Outline} {outline : Outline}
    (named : ∀ outline ∈ outlines, outline.IsNamed) (distinct : (outlines.map Outline.name).Nodup)
    (mem : outline ∈ outlines) :
    ExactlyOne (Declares outline.name) (outlines.flatMap Outline.lines) := by
  obtain ⟨before, after, rfl⟩ := List.append_of_mem mem
  refine ⟨before.flatMap Outline.lines, outline.header,
    outline.lines.tail ++ after.flatMap Outline.lines, ?_, outline.declares_header, ?_⟩
  · rw [List.flatMap_append, List.flatMap_cons]
    rfl
  · have others (other : Outline) (line : String) (mem' : other ∈ before ++ after)
        (inside : line ∈ other.lines) : ¬ Declares outline.name line := by
      intro declares
      have listed : other ∈ before ++ outline :: after := by
        rw [List.mem_append] at mem' ⊢
        exact mem'.imp_right (List.mem_cons_of_mem _)
      have same := Outline.eq_of_declares (named other listed) (named outline mem).isName_name
        inside declares
      -- Two outlines would have one name.
      rw [List.map_append, List.map_cons, List.nodup_middle, List.nodup_cons,
        ← List.map_append] at distinct
      exact distinct.1 (List.mem_map.mpr ⟨other, mem', same.symm⟩)
    intro line inside
    simp only [List.mem_append, List.mem_flatMap] at inside
    rcases inside with ⟨other, mem', inside⟩ | inside | ⟨other, mem', inside⟩
    · exact others other line (List.mem_append_left _ mem') inside
    · exact Outline.not_declares_of_mem_tail inside
    · exact others other line (List.mem_append_right _ mem') inside

/-! ### The main result -/

/-- The lines of a module are those of its declarations. -/
theorem lines_eq_flatMap {schema : Schema} {moduleName : Option String} {spare : Nat}
    {generated : Generated} (named : schema.HasNames)
    (succeeds : generateTypes schema ⟨moduleName, { spare }⟩ = .ok generated) :
    generated.lines = schema.outlines.flatMap Outline.lines := by
  obtain ⟨known, content⟩ := generate_default_eq_ok succeeds
  have namedOutlines := named.isNamed_outlines known
  have unbroken : ∀ line ∈ (schema.outlines.flatMap Outline.lines).map String.toList,
      '\n' ∉ line :=
    List.forall_mem_map.mpr fun line mem =>
      (Outline.isLine_of_mem_flatMap namedOutlines line mem).single
  have chars : generated.content.toList =
      ((schema.outlines.flatMap Outline.lines).map String.toList).flatMap
        fun line => line ++ ['\r', '\n'] := by
    rw [content, Outline.toList_join_render namedOutlines, List.flatMap_map]
    rfl
  rw [Generated.lines, chars, Text.lines_flatMap unbroken, List.map_map]
  exact List.map_id'' (fun line => String.ofList_toList) _

/-- The line of a field is among the lines of its record. -/
theorem mem_lines_of_mem_fields {schema : Schema} {definition : Definition} {field : Field}
    (visible : definition ∈ schema.visible) (mem : field ∈ definition.fields) :
    "  " ++ (field.outline schema).line ∈ schema.outlines.flatMap Outline.lines := by
  have record (r : Record) (found : definition.outline? schema = some (r.outline schema))
      (mem : field ∈ r.fields.toList) :
      "  " ++ (field.outline schema).line ∈ schema.outlines.flatMap Outline.lines := by
    refine List.mem_flatMap.mpr ⟨_, List.mem_filterMap.mpr ⟨definition, visible, found⟩, ?_⟩
    refine List.mem_cons_of_mem _ (List.mem_append_left _ (List.mem_map_of_mem ?_))
    exact List.mem_map_of_mem (List.mem_map_of_mem mem)
  cases definition with
  | scalar s => cases mem
  | enumeration e => cases mem
  | object r => exact record r rfl mem
  | interface r => exact record r rfl mem

/-- Let a schema be loaded from a text and a module be generated for it under the default
rules. The lines of the module are those of the outlines of the schema. Every field of a
visible type has a line, and the base in it is the primitive type of a standard scalar or
the name of another definition. Every visible definition that is not a standard scalar is
declared by exactly one line, and every other definition by none. -/
theorem references_resolve {source : Text.Source} {schema : Schema} {moduleName : Option String}
    {spare : Nat} {generated : Generated} (loaded : Sdl.load source = .ok schema)
    (succeeds : generateTypes schema ⟨moduleName, { spare }⟩ = .ok generated) :
    generated.lines = schema.outlines.flatMap Outline.lines ∧
    (∀ definition ∈ schema.visible, ∀ field ∈ definition.fields,
      "  " ++ (field.outline schema).line ∈ generated.lines ∧
        schema.Resolves field.type.baseName (field.outline schema).base) ∧
    ∀ definition ∈ schema.toList,
      (definition.IsDeclared → ExactlyOne (Declares definition.name) generated.lines) ∧
      (¬ definition.IsDeclared → ∀ line ∈ generated.lines, ¬ Declares definition.name line) := by
  have named : schema.HasNames := Sdl.hasNames_of_load loaded
  have known := (generate_default_eq_ok succeeds).1
  have namedOutlines := named.isNamed_outlines known
  rw [lines_eq_flatMap named succeeds]
  refine ⟨rfl, fun definition visible field mem => ⟨?_, ?_⟩, fun definition mem => ⟨?_, ?_⟩⟩
  · exact mem_lines_of_mem_fields visible mem
  · exact Schema.resolves_baseOutline (Sdl.standard_mem_names_of_load loaded)
      (known definition visible field mem)
  · intro declared
    obtain ⟨outline, listed, same⟩ := (Schema.exists_outline_iff mem).mpr declared
    rw [← same]
    exact exactlyOne_declares namedOutlines Schema.nodup_names_outlines listed
  · intro undeclared line inside declares
    obtain ⟨outline, listed, inside⟩ := List.mem_flatMap.mp inside
    have isName : IsName definition.name := named definition mem _ definition.name_mem_ownNames
    have same := Outline.eq_of_declares (namedOutlines outline listed) isName inside declares
    exact undeclared ((Schema.exists_outline_iff mem).mp ⟨outline, listed, same.symm⟩)

/-- An object with fields of a scalar that is declared behind it, of a standard scalar, and of
an object that takes the name of one. -/
def entryDefinition : Definition :=
  .object ⟨"A", .ofList [⟨"b", .list (.named "B")⟩, ⟨"s", .named "ID"⟩, ⟨"i", .named "Int"⟩], []⟩

/-- A text that declares it first, and a reserved scalar last. -/
def forwardText : String := "type A\x7bb:[B]s:ID i:Int\x7dscalar B type Int scalar __K"

/-- The schema of the text, with the other standard scalars in front. -/
def forwardSchema : Schema :=
  .ofList [.scalar ⟨"String"⟩, .scalar ⟨"Float"⟩, .scalar ⟨"Boolean"⟩, .scalar ⟨"ID"⟩,
    entryDefinition, .scalar ⟨"B"⟩, .object (.ofName "Int"), .scalar ⟨"__K"⟩]

/-- A field may refer to what is declared behind it, and a type may take the name of a
scalar. -/
theorem forward_references_resolve :
    Sdl.load ⟨Sdl.defaultSourceName, forwardText⟩ = .ok forwardSchema ∧
    ∃ generated, generateTypes forwardSchema ⟨none, {}⟩ = .ok generated ∧
      forwardSchema.Resolves "ID" "string" ∧ forwardSchema.Resolves "Int" "Int" ∧
      ExactlyOne (Declares "Int") generated.lines ∧
      ∀ line ∈ generated.lines, ¬ Declares "__K" line := by
  have parsed : Sdl.parse forwardText.toList = .ok
      [.type ⟨⟨"A", 46⟩, false, .object [⟨⟨"b", 44⟩, .list (.named "B")⟩, ⟨⟨"s", 39⟩, .named "ID"⟩,
        ⟨⟨"i", 34⟩, .named "Int"⟩] []⟩ [], .type ⟨⟨"B", 21⟩, false, .scalar⟩ [],
      .type ⟨⟨"Int", 14⟩, false, .object [] []⟩ [], .type ⟨⟨"__K", 3⟩, false, .scalar⟩ []] := by
    decide +kernel
  have loaded : Sdl.load ⟨Sdl.defaultSourceName, forwardText⟩ = .ok forwardSchema :=
    Sdl.load_eq_ok_iff.mpr ⟨_, parsed, rfl⟩
  obtain ⟨generated, succeeds⟩ : ∃ g, generateTypes forwardSchema ⟨none, {}⟩ = .ok g := ⟨_, rfl⟩
  obtain ⟨-, references, declarations⟩ := references_resolve loaded succeeds
  have visible : entryDefinition ∈ forwardSchema.visible := List.mem_of_getElem? (i := 4) rfl
  have plain : Definition.object (.ofName "Int") ∈ forwardSchema.toList :=
    List.mem_of_getElem? (i := 6) rfl
  have reserved : Definition.scalar ⟨"__K"⟩ ∈ forwardSchema.toList :=
    List.mem_of_getElem? (i := 7) rfl
  refine ⟨loaded, generated, succeeds, ?_, ?_, ?_, ?_⟩
  · exact (references _ visible ⟨"s", .named "ID"⟩ (by decide)).2
  · exact (references _ visible ⟨"i", .named "Int"⟩ (by decide)).2
  · exact (declarations _ plain).1 ⟨by decide, Definition.not_isStandardScalar rfl⟩
  · exact (declarations _ reserved).2 fun declared => absurd declared.1 (by decide)

end SchemaTypings
