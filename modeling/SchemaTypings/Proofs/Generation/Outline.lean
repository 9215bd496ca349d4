import SchemaTypings.Declaration
import SchemaTypings.Proofs.Generation.Enumerations
import SchemaTypings.Proofs.Shape
import SchemaTypings.Proofs.Text.Codes
import SchemaTypings.Schema

/-!
# Outlines of declarations

An outline is what a generated declaration says: an alias, an enumeration with its values,
or a record with its parents and fields. `Schema.outlines` reads the outlines of a schema
off its definitions, and `readsBack_lines` reads them off the lines that declare them.
-/

namespace SchemaTypings

/-! ### Outlines -/

/-- What a property says about a field. -/
structure FieldOutline where
  name : String
  isOptional : Bool
  isList : Bool
  base : String
deriving DecidableEq, Repr

/-- What a declaration says about a definition. Objects and interfaces look the same. -/
inductive Outline where
  | typeAlias (name : String)
  | enumeration (name : String) (values : List String)
  | record (name : String) (parents : List String) (fields : List FieldOutline)
deriving DecidableEq, Repr

/-- The text for a base name: the primitive type of a standard scalar, unless the schema
gives its name to something else, and otherwise the name itself. -/
def Schema.baseOutline (schema : Schema) (name : String) : String :=
  let primitive := ((StandardScalar.ofName? name).map StandardScalar.primitive).getD name
  match schema.find? name with
  | none => primitive
  | some (.scalar _) => primitive
  | some _ => name

def Field.outline (schema : Schema) (field : Field) : FieldOutline :=
  ⟨field.name, !field.type.isNonNull, field.type.hasList, schema.baseOutline field.type.baseName⟩

def Record.outline (schema : Schema) (record : Record) : Outline :=
  .record record.name record.interfaces (record.fields.toList.map (Field.outline schema))

/-- The outline of a definition. A scalar with a standard name is not declared. -/
def Definition.outline? (schema : Schema) : Definition → Option Outline
  | scalar s => if s.isStandard then none else some (.typeAlias s.name)
  | enumeration e => some (.enumeration e.name e.values)
  | object r => some (r.outline schema)
  | interface r => some (r.outline schema)

/-- The outlines of the declarations of a schema, in order. -/
def Schema.outlines (schema : Schema) : List Outline :=
  schema.visible.filterMap (Definition.outline? schema)

/-! ### Declarations of outlines -/

def FieldOutline.line (field : FieldOutline) : String :=
  Member.line ⟨field.name, if field.isList then arrayOf field.base else field.base,
    field.isOptional, false⟩

def Outline.declaration : Outline → Declaration
  | typeAlias name => .typeAlias name "string"
  | enumeration name values => .enumeration name values false
  | record name parents fields => .interface name parents (fields.map FieldOutline.line) true

/-- All names in the outline are names. -/
def Outline.IsNamed : Outline → Prop
  | typeAlias name => IsName name
  | enumeration name values => IsName name ∧ ∀ value ∈ values, IsName value
  | record name parents fields => IsName name ∧ (∀ parent ∈ parents, IsName parent) ∧
      ∀ field ∈ fields, IsName field.name ∧ IsName field.base

/-! ### Lines of members -/

/-- A name in front of a text that does not continue it is a code. -/
theorem name_append_inj {a b s t : String} (isName : IsName a) (isName' : IsName b)
    (ends : ¬ ContinuesName s.toList) (ends' : ¬ ContinuesName t.toList)
    (same : a ++ s = b ++ t) : a = b ∧ s = t := by
  have chars := congrArg String.toList same
  rw [String.toList_append, String.toList_append] at chars
  obtain ⟨rfl, rest⟩ := readsBack_name isName isName' ends ends' chars
  exact ⟨rfl, String.toList_injective rest⟩

def FieldOutline.tail (field : FieldOutline) : String :=
  (if field.isOptional then "?: " else ": ") ++
    (field.base ++ (if field.isList then "[];" else ";"))

/-- The line of a field begins with its name. -/
theorem FieldOutline.line_eq (field : FieldOutline) : field.line = field.name ++ field.tail := by
  obtain ⟨name, optional, list, base⟩ := field
  cases optional <;> cases list <;>
    simp [line, tail, Member.line, arrayOf, ← String.toList_inj]

/-- The line of a named field says everything about it. -/
theorem FieldOutline.line_inj {a b : FieldOutline} (named : IsName a.name ∧ IsName a.base)
    (named' : IsName b.name ∧ IsName b.base) (same : a.line = b.line) : a = b := by
  have ends (f : FieldOutline) : ¬ ContinuesName f.tail.toList := by
    unfold tail
    split <;> simp [continuesName_cons] <;> decide
  have ends' (list : Bool) : ¬ ContinuesName (if list then "[];" else ";").toList := by
    revert list
    decide
  rw [line_eq, line_eq] at same
  obtain ⟨names, tails⟩ := name_append_inj named.1 named'.1 (ends a) (ends b) same
  obtain ⟨name, optional, list, base⟩ := a
  obtain ⟨name', optional', list', base'⟩ := b
  have optionals : optional = optional' := by
    have first := congrArg (fun text => text.toList.head?) tails
    cases optional <;> cases optional' <;> simp [tail] at first ⊢
  subst optionals
  obtain ⟨bases, closings⟩ := name_append_inj named.2 named'.2 (ends' list) (ends' list')
    ((String.append_right_inj _).mp tails)
  have lists : list = list' := by
    cases list <;> cases list' <;> simp at closings ⊢
  rw [FieldOutline.mk.injEq]
  exact ⟨names, rfl, lists, bases⟩

/-- A comma separates a parent from those before it. -/
def parentTail (parents : List String) : List Char :=
  parents.flatMap fun other => ", ".toList ++ other.toList

theorem toList_intercalate (parent : String) (parents : List String) :
    (String.intercalate ", " (parent :: parents)).toList =
      parent.toList ++ parentTail parents := by
  induction parents generalizing parent with
  | nil => simp [parentTail]
  | cons other rest ih => simp [String.intercalate_cons_cons, ih other, parentTail]

theorem not_continuesName_parentTail (parents : List String) :
    ¬ ContinuesName (parentTail parents) := by
  cases parents with
  | nil => exact not_continuesName_nil
  | cons parent rest => exact fun continues => absurd (continuesName_cons.mp continues) (by decide)

/-- Parents behind the first one are read back up to the end of the list. -/
theorem readsBack_parentTail :
    ReadsBack (fun parents => ∀ parent ∈ parents, IsName parent) parentTail (· = []) := by
  have another : ReadsBack IsName (fun parent => ", ".toList ++ parent.toList)
      (¬ ContinuesName ·) := by
    intro a b s t isName isName' ends ends' same
    rw [List.append_assoc, List.append_assoc] at same
    exact readsBack_name isName isName' ends ends' (List.append_cancel_left same)
  refine another.flatMap _ ?_ ?_ ?_
  · intro parent rest _ continues
    exact absurd (continuesName_cons.mp continues) (by decide)
  · rintro _ rfl
    exact not_continuesName_nil
  · intro parent rest _
    simp

/-- The parents of a record are told by the clause that names them. -/
theorem extendsClause_inj {parents parents' : List String}
    (named : ∀ parent ∈ parents, IsName parent) (named' : ∀ parent ∈ parents', IsName parent)
    (same : Declaration.extendsClause parents = Declaration.extendsClause parents') :
    parents = parents' := by
  cases parents with
  | nil =>
    cases parents' with
    | nil => rfl
    | cons parent rest => simp [Declaration.extendsClause, ← String.toList_inj] at same
  | cons parent rest =>
    cases parents' with
    | nil => simp [Declaration.extendsClause, ← String.toList_inj] at same
    | cons parent' rest' =>
      have chars := congrArg String.toList ((String.append_right_inj " extends ").mp same)
      rw [toList_intercalate, toList_intercalate] at chars
      obtain ⟨isName, isNames⟩ := List.forall_mem_cons.mp named
      obtain ⟨isName', isNames'⟩ := List.forall_mem_cons.mp named'
      obtain ⟨rfl, tails⟩ := readsBack_name isName isName' (not_continuesName_parentTail rest)
        (not_continuesName_parentTail rest') chars
      obtain ⟨rfl, -⟩ := readsBack_parentTail isNames isNames' rfl rfl (congrArg (· ++ []) tails)
      rfl

/-! ### Lines of outlines -/

def Outline.header : Outline → String
  | typeAlias name => Declaration.aliasLine name "string"
  | enumeration name _ => Declaration.exportMark false ++ "enum " ++ name ++ " \x7b"
  | record name parents _ =>
    Declaration.exportMark true ++ "interface " ++ name ++ Declaration.extendsClause parents ++
      " \x7b"

/-- The lines between braces, if there are braces. -/
def Outline.body : Outline → Option (List String)
  | typeAlias _ => none
  | enumeration _ values => some (Declaration.separated values)
  | record _ _ fields => some (fields.map FieldOutline.line)

/-- The lines of a declaration, without their ends. -/
def Outline.lines (outline : Outline) : List String :=
  outline.header :: match outline.body with
    | none => []
    | some members => members.map ("  " ++ ·) ++ ["\x7d"]

/-- The two letters that a declaration begins with. -/
def Outline.letters : Outline → List Char
  | typeAlias _ => ['t', 'y']
  | enumeration _ _ => ['e', 'n']
  | record _ _ _ => ['e', 'x']

/-- The kind of a declaration is told by its first letters. -/
theorem Outline.letters_eq_of_header {a b : Outline} (same : a.header = b.header) :
    a.letters = b.letters := by
  have take (o : Outline) : o.header.toList.take 2 = o.letters := by
    cases o <;> simp only [header, Declaration.aliasLine, String.toList_append] <;> rfl
  rw [← take a, ← take b, same]

/-- The header of a declaration tells whether it has braces. -/
theorem Outline.body_isSome_of_header {a b : Outline} (same : a.header = b.header) :
    a.body.isSome = b.body.isSome := by
  have kinds := letters_eq_of_header same
  cases a <;> cases b <;> first | rfl | exact absurd kinds (by simp [letters])

theorem not_continuesName_extendsClause (parents : List String) :
    ¬ ContinuesName (Declaration.extendsClause parents).toList := by
  cases parents with
  | nil => exact not_continuesName_nil
  | cons parent rest =>
    rw [Declaration.extendsClause, String.toList_append]
    · exact fun continues => absurd (continuesName_cons.mp continues) (by decide)
    · simp

/-- The lines of named fields are told one by one. -/
theorem FieldOutline.map_line_inj {fields fields' : List FieldOutline}
    (named : ∀ field ∈ fields, IsName field.name ∧ IsName field.base)
    (named' : ∀ field ∈ fields', IsName field.name ∧ IsName field.base)
    (same : fields.map line = fields'.map line) : fields = fields' := by
  have code : ReadsBack (fun field : FieldOutline => IsName field.name ∧ IsName field.base)
      (fun field => [field.line]) (fun _ => True) := by
    intro a b s t named named' _ _ same
    obtain ⟨lines, rest⟩ := List.cons.inj same
    exact ⟨line_inj named named' lines, rest⟩
  have fields_code := code.flatMap (· = []) (by simp) (by simp) (by simp)
  rw [List.map_eq_flatMap, List.map_eq_flatMap] at same
  exact (fields_code named named' rfl rfl (congrArg (· ++ []) same)).1

/-- Header and body tell the outline. -/
theorem Outline.header_body_inj {a b : Outline} (named : a.IsNamed) (named' : b.IsNamed)
    (headers : a.header = b.header) (bodies : a.body = b.body) : a = b := by
  have kinds := letters_eq_of_header headers
  cases a with
  | typeAlias name =>
    cases b with
    | typeAlias name' =>
      simp only [header, Declaration.aliasLine, String.append_left_inj] at headers
      rw [(String.append_right_inj _).mp headers]
    | enumeration _ _ => exact absurd kinds (by simp [letters])
    | record _ _ _ => exact absurd kinds (by simp [letters])
  | enumeration name values =>
    cases b with
    | typeAlias _ => exact absurd kinds (by simp [letters])
    | enumeration name' values' =>
      simp only [header, String.append_left_inj] at headers
      rw [(String.append_right_inj _).mp headers,
        Declaration.separated_inj (Option.some.inj bodies)]
    | record _ _ _ => exact absurd kinds (by simp [letters])
  | record name parents fields =>
    cases b with
    | typeAlias _ => exact absurd kinds (by simp [letters])
    | enumeration _ _ => exact absurd kinds (by simp [letters])
    | record name' parents' fields' =>
      simp only [header, String.append_left_inj] at headers
      simp only [String.append_assoc, String.append_right_inj] at headers
      obtain ⟨rfl, clauses⟩ := name_append_inj named.1 named'.1
        (not_continuesName_extendsClause parents) (not_continuesName_extendsClause parents') headers
      rw [extendsClause_inj named.2.1 named'.2.1 clauses,
        FieldOutline.map_line_inj named.2.2 named'.2.2 (Option.some.inj bodies)]

/-- The lines between braces end where the brace stands. -/
theorem readsBack_body :
    ReadsBack (fun _ => True) (List.map ("  " ++ ·)) (fun lines => lines.head? = some "\x7d") := by
  have code : ReadsBack (fun _ => True) (fun line => ["  " ++ line]) (fun _ => True) := by
    intro a b s t _ _ _ _ same
    obtain ⟨lines, rest⟩ := List.cons.inj same
    exact ⟨(String.append_right_inj _).mp lines, rest⟩
  have body := code.flatMap (fun lines => lines.head? = some "\x7d") (by simp) (by simp)
    (fun line rest _ brace => ?_)
  · intro a b s t _ _ brace brace' same
    rw [List.map_eq_flatMap, List.map_eq_flatMap] at same
    exact body (by simp) (by simp) brace brace' same
  · have first := congrArg (fun line => line.toList.head?) (Option.some.inj brace)
    simp at first

/-- A declaration is told by its lines, wherever they stand in a module. -/
theorem Outline.readsBack_lines : ReadsBack IsNamed lines (fun _ => True) := by
  intro a b s t named named' _ _ same
  obtain ⟨headers, rest⟩ := List.cons.inj same
  have braces := body_isSome_of_header headers
  cases body : a.body with
  | none =>
    cases body' : b.body with
    | none =>
      rw [body, body'] at rest
      exact ⟨header_body_inj named named' headers (body.trans body'.symm), rest⟩
    | some members => rw [body, body'] at braces; cases braces
  | some members =>
    cases body' : b.body with
    | none => rw [body, body'] at braces; cases braces
    | some members' =>
      rw [body, body'] at rest
      have braced : members.map ("  " ++ ·) ++ "\x7d" :: s =
          members'.map ("  " ++ ·) ++ "\x7d" :: t := by simpa using rest
      obtain ⟨rfl, ends⟩ := readsBack_body trivial trivial rfl rfl braced
      exact ⟨header_body_inj named named' headers (body.trans body'.symm),
        List.tail_eq_of_cons_eq ends⟩

end SchemaTypings
