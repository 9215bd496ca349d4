import SchemaTypings.Proofs.Generation.Faults
import SchemaTypings.Proofs.Layout.Blocks
import SchemaTypings.Proofs.Text.Splitting

/-!
# Texts of records

A record is a header, the texts that its fields come to, one level deeper, and a brace. A
field whose text is empty leaves nothing behind, so the record might as well not have it.
-/

namespace SchemaTypings

open Traversal Layout

/-! ### What is written -/

/-- The text of a field inside a record. One that holds a line feed is split into lines, of
which the empty ones are not indented. -/
def memberText (text : String) : String :=
  if '\n' ∈ text.toList then
    String.join ((Text.lines text.toList).map fun line =>
      if line = [] then "\r\n" else "  " ++ String.ofList line ++ "\r\n")
  else "  " ++ text ++ "\r\n"

example : memberText "/** A name. */\r\n\nname: string;\n" =
    "  /** A name. */\r\n\r\n  name: string;\r\n" := by decide

def nonemptyTexts (texts : List String) : List String :=
  texts.filter fun text => !text.isEmpty

namespace Record

def header (record : Record) : String :=
  "export interface " ++ record.name
    ++ (if record.interfaces = [] then ""
      else " extends " ++ String.intercalate ", " record.interfaces)
    ++ " \x7b\r\n"

/-- The header, these texts as members, and a brace. -/
def enclose (record : Record) (texts : List String) : String :=
  record.header ++ String.join (texts.map memberText) ++ "\x7d\r\n"

/-- A record whose fields come to these texts. -/
def written (record : Record) (texts : List String) : String :=
  record.enclose (nonemptyTexts texts)

def without (record : Record) (removed : Field → Bool) : Record :=
  { record with fields :=
    ⟨record.fields.toList.filter fun field => !removed field,
      record.fields.distinct.sublist (List.filter_sublist.map Named.name)⟩ }

end Record

/-- In the style of declarations, a member is written as a field is. -/
theorem lineText_declarations (text : String) :
    Style.declarations.lineText "  " text = memberText text := by
  have splitLine : Style.declarations.splitLine "  " =
      fun line => if line = [] then "\r\n" else "  " ++ String.ofList line ++ "\r\n" := by
    funext line
    rw [Style.splitLine]
    cases line <;> rfl
  rw [Style.lineText, splitLine]
  rfl

/-- A record is laid out as its header, its members and a brace. -/
theorem Record.written_eq_render (record : Record) (texts : List String) :
    record.written texts = (Declaration.interface record.name record.interfaces
      (nonemptyTexts texts) true).render := by
  have members : Style.declarations.lineText "  " = memberText := funext lineText_declarations
  have header : record.header = Declaration.exportMark true ++ "interface " ++ record.name
      ++ Declaration.extendsClause record.interfaces ++ " \x7b" ++ "\r\n" := by
    unfold Record.header
    cases record.interfaces <;>
      simp [Declaration.exportMark, Declaration.extendsClause, String.append_assoc]
  rw [Declaration.render, Declaration.fragments, Listing.render_braces, members, Record.written,
    Record.enclose, header]

/-! ### Fields that come to nothing -/

/-- Texts of fields, of which the removed ones come to nothing. -/
def silenced (removed : Field → Bool) (texts : Field → Answer) (field : Field) : Answer :=
  if removed field then .ok "" else texts field

/-- One more text in front makes no difference between lists that agree on the others. -/
theorem map_nonemptyTexts_cons {first second : Except GenerateError (List String)} (text : String)
    (same : first.map nonemptyTexts = second.map nonemptyTexts) :
    (first.map (text :: ·)).map nonemptyTexts = (second.map (text :: ·)).map nonemptyTexts := by
  cases first with
  | error error => cases second with
    | error error' => exact same
    | ok others => cases same
  | ok others => cases second with
    | error error => cases same
    | ok others' =>
      have kept : nonemptyTexts others = nonemptyTexts others' := Except.ok.inj same
      have append (tail : List String) :
          nonemptyTexts (text :: tail) = nonemptyTexts [text] ++ nonemptyTexts tail :=
        List.filter_append [text] tail
      change Except.ok (nonemptyTexts (text :: others)) =
        Except.ok (nonemptyTexts (text :: others'))
      rw [append others, append others', kept]

/-- A field that comes to nothing might as well not be there, as far as the texts that are
not empty are concerned. -/
theorem mapM_silenced (removed : Field → Bool) (texts : Field → Answer) (fields : List Field) :
    (fields.mapM (silenced removed texts)).map nonemptyTexts =
      ((fields.filter fun field => !removed field).mapM texts).map nonemptyTexts := by
  induction fields with
  | nil => rfl
  | cons field rest ih =>
    cases gone : removed field with
    | true =>
      have silent : silenced removed texts field = .ok "" := if_pos gone
      rw [mapM_cons_of_ok silent, List.filter_cons_of_neg (by simp [gone]), ← ih]
      cases rest.mapM (silenced removed texts) <;> rfl
    | false =>
      have heard : silenced removed texts field = texts field := if_neg (by simp [gone])
      rw [List.filter_cons_of_pos (by simp [gone])]
      cases found : texts field with
      | error error => rw [mapM_cons_of_error (heard.trans found), mapM_cons_of_error found]
      | ok text =>
        rw [mapM_cons_of_ok (heard.trans found), mapM_cons_of_ok found]
        exact map_nonemptyTexts_cons text ih

/-! ### Rules for fields -/

/-- The overrides with this rule for fields, which sees the name of the record only, and
without rules for records. -/
def Overrides.withFields (overrides : Overrides) (rule : Field → String → Answer) : Overrides :=
  { overrides with
    field := some fun field context => rule field context.parentName
    object := Option.none
    interface := Option.none }

section Records

variable {schema : Schema} {moduleName : Option String} {overrides : Overrides}
  {rule : Field → String → Answer} {record : Record}

/-- An object or interface type is rendered to what is written of its texts. -/
theorem renderDefinition_withFields {definition : Definition}
    (kind : definition = .object record ∨ definition = .interface record) :
    (Generator.ofOptions ⟨moduleName, overrides.withFields rule⟩).renderDefinition schema
        definition =
      (record.fields.toList.mapM (rule · record.name)).map record.written := by
  have render (context : Context)
      (members : context.members record = record.fields.toList.mapM (rule · record.name)) :
      Default.record record context =
        (record.fields.toList.mapM (rule · record.name)).map record.written := by
    rw [Default.record_eq_map, members, funext record.written_eq_render]
    rfl
  rcases kind with rfl | rfl
  · apply render
    rfl
  · apply render
    rfl

/-- A record whose removed fields come to nothing is rendered like the record without them. -/
theorem map_written_silenced (removed : Field → Bool) (texts : Field → Answer) :
    (record.fields.toList.mapM (silenced removed texts)).map record.written =
      ((record.without removed).fields.toList.mapM texts).map (record.without removed).written := by
  have written (record : Record) (result : Except GenerateError (List String)) :
      result.map record.written = (result.map nonemptyTexts).map record.enclose := by
    cases result <;> rfl
  rw [written, written, mapM_silenced]
  rfl

end Records

/-! ### The main result -/

/-- Whatever rule renders the fields of a record, the record fails as the first of its fields
does, or else its text is its header, the lines of those texts of its fields that are not
empty, and a brace. So fields whose texts are made empty might as well be removed, and it
does not matter whether the record is an object type or an interface type. -/
theorem records_follow_fields (schema : Schema) (moduleName : Option String)
    (overrides : Overrides) (rule : Field → String → Answer) (record : Record) :
    let render (rule : Field → String → Answer) : Definition → Answer :=
      (Generator.ofOptions ⟨moduleName, overrides.withFields rule⟩).renderDefinition schema
    (∀ error, render rule (.object record) = .error error ↔
      ∃ field, FirstWith (Fails (rule · record.name)) record.fields.toList field ∧
        rule field record.name = .error error) ∧
    (∀ text, render rule (.object record) = .ok text ↔
      ∃ texts, List.Forall₂ (fun field text => rule field record.name = .ok text)
          record.fields.toList texts ∧
        text = record.header ++
          String.join ((texts.filter fun text => !text.isEmpty).map memberText) ++ "\x7d\r\n") ∧
    (∀ text parts, Text.lines text = parts ↔ Text.SplitsInto text parts) ∧
    (∀ removed : Field → Bool,
      render (fun field parent => if removed field then .ok "" else rule field parent)
          (.object record) =
        render rule (.object (record.without removed))) ∧
    render rule (.interface record) = render rule (.object record) := by
  intro render
  have object (rule : Field → String → Answer) (record : Record) :
      render rule (.object record) =
        (record.fields.toList.mapM (rule · record.name)).map record.written :=
    renderDefinition_withFields (.inl rfl)
  refine ⟨fun error => ?fails, fun text => ?succeeds, ?split, fun removed => ?removed, ?kind⟩
  case fails => rw [object, map_eq_error_iff, mapM_eq_error_iff]
  case succeeds =>
    rw [object, map_eq_ok_iff]
    exact exists_congr fun texts => and_congr_left fun _ => mapM_eq_ok_iff
  case split => exact fun text parts => Text.splitsInto_iff.symm
  case removed =>
    rw [object, object]
    exact map_written_silenced removed (rule · record.name)
  case kind =>
    rw [object]
    exact renderDefinition_withFields (.inr rfl)

end SchemaTypings
