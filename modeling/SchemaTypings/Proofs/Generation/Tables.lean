import SchemaTypings.Proofs.Generation.Decoding
import SchemaTypings.Proofs.Text.Lines

/-!
# Tables of types for scalars

A table decides what a scalar is used as and what it is declared as, and nothing else. So
it has no part in whether generation succeeds or how it fails, and what it says of other
names makes no difference. `Schema.pieces` takes a module apart into fixed texts and places
for scalars: under every table whose types hold no line feed, the module is these pieces
with the places filled in.
-/

namespace SchemaTypings

open Layout Traversal

/-! ### Pieces of a module -/

/-- A piece of a module: a fixed text, or a place where a scalar is used or declared. -/
inductive Piece where
  | text (content : String)
  | use (scalar : Scalar)
  | target (scalar : Scalar)
deriving DecidableEq, Repr

/-- What a piece says under a table. -/
def Piece.fill (table : ScalarTable) : Piece → String
  | .text content => content
  | .use scalar => table.reference scalar
  | .target scalar => table.target scalar

def ScalarTable.fill (table : ScalarTable) (pieces : List Piece) : String :=
  String.join (pieces.map (Piece.fill table))

/-- The piece for a base name. Only scalars are looked up in a table. -/
def Schema.basePiece (schema : Schema) (name : String) : Piece :=
  match schema.standing name with
  | .other => .text name
  | _ => .use ⟨name⟩

def Field.pieces (schema : Schema) (field : Field) : List Piece :=
  [.text ("  " ++ field.name ++ if field.type.isNonNull then ": " else "?: "),
    schema.basePiece field.type.baseName,
    .text (if field.type.hasList then "[];\r\n" else ";\r\n")]

def Record.pieces (schema : Schema) (record : Record) : List Piece :=
  .text ("export interface " ++ record.name ++ Declaration.extendsClause record.interfaces ++
      " \x7b\r\n") ::
    record.fields.toList.flatMap (Field.pieces schema) ++ [.text "\x7d\r\n"]

/-- The pieces of a declaration. A standard scalar is not declared. -/
def Definition.pieces (schema : Schema) : Definition → List Piece
  | scalar s =>
    if s.isStandard then [] else [.text ("type " ++ s.name ++ " = "), .target s, .text "\r\n"]
  | enumeration e => [.text (Declaration.enumeration e.name e.values false).render]
  | object r => r.pieces schema
  | interface r => r.pieces schema

def Schema.pieces (schema : Schema) : List Piece :=
  schema.visible.flatMap (Definition.pieces schema)

section Fill

variable {table : ScalarTable}

@[simp]
theorem fill_nil : table.fill [] = "" := rfl

@[simp]
theorem fill_cons (piece : Piece) (pieces : List Piece) :
    table.fill (piece :: pieces) = piece.fill table ++ table.fill pieces := by
  simp [ScalarTable.fill]

@[simp]
theorem fill_append (pieces pieces' : List Piece) :
    table.fill (pieces ++ pieces') = table.fill pieces ++ table.fill pieces' := by
  simp [ScalarTable.fill, String.join_append]

theorem fill_flatMap {α : Type} (pieces : α → List Piece) (members : List α) :
    table.fill (members.flatMap pieces) =
      String.join (members.map fun member => table.fill (pieces member)) := by
  induction members with
  | nil => rfl
  | cons member rest ih => simp [ih]

end Fill

/-! ### Definitions in pieces -/

/-- The types of the table hold no line feed. -/
def ScalarTable.IsUnbroken (table : ScalarTable) : Prop :=
  ∀ entry ∈ table, SchemaTypings.IsUnbroken entry.2

instance (table : ScalarTable) : Decidable table.IsUnbroken :=
  inferInstanceAs (Decidable (∀ entry ∈ table, SchemaTypings.IsUnbroken entry.2))

section Unbroken

variable {table : ScalarTable} (unbroken : table.IsUnbroken)
include unbroken

/-- What a table gives for a name is unbroken if the default is. -/
theorem ScalarTable.IsUnbroken.getD_lookup {name default : String}
    (other : SchemaTypings.IsUnbroken default) :
    SchemaTypings.IsUnbroken ((table.lookup name).getD default) := by
  cases found : table.lookup name with
  | none => exact other
  | some type =>
    obtain ⟨before, after, rfl, -⟩ := List.lookup_eq_some_iff.mp found
    exact unbroken (name, type) (by simp)

theorem isUnbroken_base {schema : Schema} {name : String} (isName : IsName name) :
    IsUnbroken (table.base schema name) := by
  have reference : IsUnbroken (table.reference ⟨name⟩) := by
    refine unbroken.getD_lookup ?_
    unfold Scalar.reference
    cases (Scalar.mk name).standard? with
    | none => exact isName.isLine.single
    | some standard => exact (isName_primitive standard).isLine.single
  unfold ScalarTable.base
  cases schema.standing name with
  | undefined => exact reference
  | scalar => exact reference
  | other => exact isName.isLine.single

end Unbroken

section Fills

variable {table : ScalarTable} {schema : Schema}

theorem fill_basePiece (name : String) :
    (schema.basePiece name).fill table = table.base schema name := by
  unfold Schema.basePiece ScalarTable.base
  cases schema.standing name <;> rfl

/-- The pieces of a field say its line, indented. -/
theorem fill_field (field : Field) :
    table.fill (field.pieces schema) = "  " ++ table.line schema field ++ "\r\n" := by
  unfold Field.pieces ScalarTable.line Member.line arrayOf
  rw [← fill_basePiece]
  cases field.type.isNonNull <;> cases field.type.hasList <;>
    simp [Piece.fill, ← String.toList_inj]

variable (unbroken : table.IsUnbroken)
include unbroken

/-- The line of a field is one line. -/
theorem isUnbroken_line {field : Field} (isName : IsName field.name)
    (isName' : IsName field.type.baseName) : IsUnbroken (table.line schema field) := by
  have name : IsUnbroken field.name := isName.isLine.single
  have base : IsUnbroken (table.base schema field.type.baseName) :=
    isUnbroken_base unbroken isName'
  unfold IsUnbroken at name base ⊢
  unfold ScalarTable.line Member.line arrayOf
  cases field.type.isNonNull <;> cases field.type.hasList <;> simp [name, base]

/-- A record of named fields is written in its pieces. -/
theorem fill_record {record : Record}
    (named : ∀ field ∈ record.fields.toList, IsName field.name ∧ IsName field.type.baseName) :
    (Declaration.interface record.name record.interfaces
        (record.fields.toList.map (table.line schema)) true).render =
      table.fill (record.pieces schema) := by
  have lines : ∀ line ∈ record.fields.toList.map (table.line schema), '\n' ∉ line.toList := by
    refine List.forall_mem_map.mpr fun field mem => ?_
    exact isUnbroken_line unbroken (named field mem).1 (named field mem).2
  rw [Declaration.render, Declaration.fragments, Listing.render_braces_of_single lines]
  have mark : Declaration.exportMark true ++ "interface " = "export interface " := by decide
  simp only [Record.pieces, List.cons_append, fill_cons, fill_append, fill_flatMap, fill_nil,
    fill_field, Piece.fill, List.map_map, Function.comp_def, mark]
  simp [← String.toList_inj]

/-- A definition is written in its pieces, and its fields lead somewhere. -/
theorem definitionText_eq_ok {moduleName : String} {parent : Option String}
    {definition : Definition} {text : String}
    (found : table.siteOverrides.definitionText ⟨moduleName, schema, parent⟩ definition =
      .ok text) (named : schema.HasNames) (mem : definition ∈ schema.toList) :
    text = table.fill (definition.pieces schema) := by
  have record (r : Record) (names : ∀ name ∈ r.ownNames, IsName name)
      (found : table.siteOverrides.recordText none ⟨moduleName, schema, parent⟩ r = .ok text) :
      text = table.fill (r.pieces schema) := by
    obtain ⟨known, rfl⟩ := recordText_eq_ok found
    refine fill_record unbroken fun field mem => ⟨?_, named.isName_of_knows (known field mem)⟩
    exact names _ (r.name_mem_ownNames mem)
  have names := named definition mem
  cases definition with
  | scalar s =>
    cases found
    unfold Definition.pieces
    by_cases standard : s.isStandard
    · simp [standard]
    · have target : IsUnbroken (table.target s) := unbroken.getD_lookup (by decide)
      have line : IsUnbroken (Declaration.aliasLine s.name (table.target s)) := by
        have name : IsUnbroken s.name := (names _ List.mem_cons_self).isLine.single
        simp [IsUnbroken, Declaration.aliasLine] at name target ⊢
        exact ⟨name, target⟩
      simp only [standard, Bool.false_eq_true, if_false, Declaration.render, Declaration.fragments,
        Listing.render_line line]
      simp [Piece.fill, Declaration.aliasLine, String.append_assoc]
  | enumeration e =>
    cases found
    simp [Definition.pieces, Piece.fill]
  | object r => exact record r names found
  | interface r => exact record r names found

end Fills

/-! ### Tables that agree -/

section Agreement

variable {schema : Schema} {table table' : ScalarTable}

/-- Whether generation succeeds and how it fails does not depend on the table. -/
theorem generateTypes_eq_error_iff {moduleName moduleName' : Option String} {spare spare' : Nat}
    {error : GenerateError} :
    generateTypes schema ⟨moduleName, table.overrides.sparing spare⟩ = .error error ↔
      generateTypes schema ⟨moduleName', table'.overrides.sparing spare'⟩ = .error error := by
  have fails (table : ScalarTable) (spare : Nat) (moduleName : Option String)
      (definition : Definition) :
      Fails ((Generator.ofOptions ⟨moduleName, table.overrides.sparing spare⟩).renderDefinition
        schema) definition ↔ ∃ field ∈ definition.fields, ¬ schema.Supports field :=
    (table.onlyScalars spare).fails_declare_iff
  have errors (table : ScalarTable) (spare : Nat) (moduleName : Option String)
      (definition : Definition) :
      (Generator.ofOptions ⟨moduleName, table.overrides.sparing spare⟩).renderDefinition schema
        definition = .error error ↔ _ :=
    (table.onlyScalars spare).declare_eq_error_iff
  rw [generateTypes, generateTypes, Generator.generate_eq_error_iff,
    Generator.generate_eq_error_iff]
  refine exists_congr fun definition => and_congr (FirstWith.congr fun other _ => ?_) ?_
  · exact (fails table spare moduleName other).trans (fails table' spare' moduleName' other).symm
  · exact (errors table spare moduleName definition).trans
      (errors table' spare' moduleName' definition).symm

/-- The tables agree on the scalars of the schema and on the standard scalars that it does
not define. -/
structure AgreeOnScalars (schema : Schema) (table table' : ScalarTable) : Prop where
  defined (scalar : Scalar) : .scalar scalar ∈ schema.toList →
    table.lookup scalar.name = table'.lookup scalar.name
  standard (standard : StandardScalar) : standard.name ∉ schema.names →
    table.lookup standard.name = table'.lookup standard.name

/-- A name leads to a scalar only if the schema defines this scalar. -/
theorem Schema.mem_of_standing {name : String} (scalar : schema.standing name = .scalar) :
    .scalar ⟨name⟩ ∈ schema.toList := by
  unfold Schema.standing at scalar
  cases found : schema.find? name with
  | none => rw [found] at scalar; cases scalar
  | some definition =>
    obtain ⟨mem, rfl⟩ := NamedList.find?_eq_some_iff.mp found
    rw [found] at scalar
    cases definition with
    | scalar s => exact mem
    | enumeration e => cases scalar
    | object r => cases scalar
    | interface r => cases scalar

/-- Tables that agree on scalars render the fields and definitions of the schema alike. -/
theorem AgreeOnScalars.fieldText_eq (site : Site) (agree : AgreeOnScalars site.schema table table')
    (field : Field) :
    table.siteOverrides.fieldText site field = table'.siteOverrides.fieldText site field := by
  refine SiteOverrides.fieldText_congr rfl fun _ uses => ?_
  have same : table.lookup field.type.baseName = table'.lookup field.type.baseName := by
    rcases uses.2 with scalar | ⟨undefined, standard, named⟩
    · exact agree.defined _ (Schema.mem_of_standing scalar)
    · rw [← named] at undefined ⊢
      exact agree.standard standard (Schema.not_mem_names_of_standing undefined)
  simp only [SiteOverrides.scalarText, ScalarTable.siteOverrides, ScalarTable.reference, same]

theorem AgreeOnScalars.definitionText_eq (site : Site)
    (agree : AgreeOnScalars site.schema table table') {definition : Definition}
    (mem : definition ∈ site.schema.toList) :
    table.siteOverrides.definitionText site definition =
      table'.siteOverrides.definitionText site definition := by
  have record (r : Record) : table.siteOverrides.recordText none site r =
      table'.siteOverrides.recordText none site r :=
    SiteOverrides.recordText_congr fun _ => mapM_congr fun field _ =>
      AgreeOnScalars.fieldText_eq (site.within r.name) agree field
  cases definition with
  | scalar s =>
    simp only [SiteOverrides.definitionText, ScalarTable.siteOverrides, ScalarTable.target,
      agree.defined s mem]
  | enumeration e => rfl
  | object r => exact record r
  | interface r => exact record r

/-- Tables that agree on scalars generate the same module, or the same error. -/
theorem AgreeOnScalars.generateTypes_eq (agree : AgreeOnScalars schema table table')
    (spare : Nat) (moduleName : Option String) :
    generateTypes schema ⟨moduleName, table.overrides.sparing spare⟩ =
      generateTypes schema ⟨moduleName, table'.overrides.sparing spare⟩ := by
  let site : Site := ⟨moduleName.getD Generator.defaultModuleName, schema, none⟩
  have same : schema.visible.mapM (table.siteOverrides.definitionText site) =
      schema.visible.mapM (table'.siteOverrides.definitionText site) :=
    mapM_congr fun definition visible =>
      AgreeOnScalars.definitionText_eq site agree (List.mem_of_mem_filter visible)
  -- Both sides become maps over the same definitions, without any chain of rules.
  rw [table.generateTypes_eq, table'.generateTypes_eq, SiteOverrides.generateTypes_eq,
    SiteOverrides.generateTypes_eq, SiteOverrides.moduleText, SiteOverrides.moduleText, same]

end Agreement

/-! ### The main result -/

/-- Under a table whose types hold no line feed, a module is its pieces, filled in. -/
theorem content_eq_fill {schema : Schema} {table : ScalarTable} {moduleName : Option String}
    {spare : Nat} {generated : Generated} (named : schema.HasNames) (unbroken : table.IsUnbroken)
    (succeeds : generateTypes schema ⟨moduleName, table.overrides.sparing spare⟩ = .ok generated) :
    generated.content = table.fill schema.pieces := by
  rw [table.generateTypes_eq, generateTypes, Generator.generate_eq_ok_iff_textOf] at succeeds
  obtain ⟨rendered, rfl⟩ := succeeds
  rw [Schema.pieces, fill_flatMap]
  refine congrArg String.join (List.map_congr_left fun definition visible => ?_)
  have found := rendered definition visible
  rw [SiteOverrides.renderDefinition_eq] at found
  exact definitionText_eq_ok unbroken found named (List.mem_of_mem_filter visible)

/-- With any two tables of types for scalars, and however many links there are to spare,
generation succeeds with both or fails with both, and then with the same error; and it comes
to the same if the tables agree on the scalars of the schema and on the standard scalars that
the schema does not define.

Where the names of the schema are GraphQL names and the types of a table hold no line feed,
a generated module is made of the pieces of the schema: a scalar that is visible and not
standard is declared as its type in the table or `string`; a field that refers to a scalar
uses its type in the table, or its primitive type or name; a standard scalar is declared by
nothing; and the other pieces are fixed, so that they are those of a module under the
default rules. -/
theorem tables_fill_in_scalars (schema : Schema) (spare : Nat) (moduleName : Option String) :
    (∀ (table table' : ScalarTable) (spare' : Nat) (moduleName' : Option String)
      (error : GenerateError),
      generateTypes schema ⟨moduleName, table.overrides.sparing spare⟩ = .error error ↔
        generateTypes schema ⟨moduleName', table'.overrides.sparing spare'⟩ = .error error) ∧
    (∀ table table' : ScalarTable, AgreeOnScalars schema table table' →
      generateTypes schema ⟨moduleName, table.overrides.sparing spare⟩ =
        generateTypes schema ⟨moduleName, table'.overrides.sparing spare⟩) ∧
    ∀ (table : ScalarTable) (generated : Generated), schema.HasNames → table.IsUnbroken →
      generateTypes schema ⟨moduleName, table.overrides.sparing spare⟩ = .ok generated →
      generated.content = table.fill schema.pieces ∧
      ∃ plain, generateTypes schema ⟨moduleName, { spare }⟩ = .ok plain ∧
        plain.content = ScalarTable.fill [] schema.pieces := by
  refine ⟨fun _ _ _ _ _ => generateTypes_eq_error_iff, ?_, ?_⟩
  · exact fun _ _ agree => agree.generateTypes_eq spare moduleName
  · intro table generated named unbroken succeeds
    refine ⟨content_eq_fill named unbroken succeeds, ?_⟩
    cases plain : generateTypes schema ⟨moduleName, { spare }⟩ with
    | error error =>
      have fails : generateTypes schema ⟨moduleName, (ScalarTable.overrides []).sparing spare⟩ =
          .error error := plain
      cases succeeds.symm.trans (generateTypes_eq_error_iff.mp fails)
    | ok generated' =>
      have empty : ScalarTable.IsUnbroken [] := List.forall_mem_nil _
      exact ⟨generated', rfl, content_eq_fill named empty plain⟩

/-- A type for dates, and an entry that names no scalar. -/
def nullableDates : ScalarTable := [("Hue", "string"), ("Date", "Date | null")]

/-- An entry for a name that is no scalar makes no difference. -/
theorem nullableDates_fills_in_dates :
    let generate (table : ScalarTable) :=
      generateTypes eventSchema ⟨none, table.overrides.sparing 0⟩
    generate nullableDates = generate [("Date", "Date | null")] ∧
    nullableDates.fill eventSchema.pieces = String.join
      ["export interface Event \x7b\r\n  hue?: Hue;\r\n  at: Date | null;\r\n\x7d\r\n",
        "enum Hue \x7b\r\n  RED\r\n\x7d\r\n", "type Date = Date | null\r\n"] ∧
    ∃ generated, generate nullableDates = .ok generated ∧
      generated.content = nullableDates.fill eventSchema.pieces := by
  intro generate
  obtain ⟨-, agreement, filling⟩ := tables_fill_in_scalars eventSchema 0 none
  obtain ⟨generated, succeeds⟩ : ∃ g, generate nullableDates = .ok g := ⟨_, rfl⟩
  refine ⟨agreement _ _ ⟨fun scalar mem => ?_, fun standard _ => ?_⟩, by decide +kernel, generated,
    succeeds, ?_⟩
  · have listed : Definition.scalar scalar ∈
        [eventObject, .enumeration ⟨"Hue", ["RED"]⟩, .scalar ⟨"Date"⟩] := mem
    obtain rfl : scalar = ⟨"Date"⟩ := by simpa [eventObject] using listed
    rfl
  · cases standard <;> rfl
  · exact (filling nullableDates generated (by decide) (by decide) succeeds).1

end SchemaTypings
