import SchemaTypings.Proofs.Generation.Tables
import SchemaTypings.Proofs.Layout.LineEnds

/-!
# Line ends of modules

As long as the rules that declare enumerations and records are the default ones, and a
scalar is declared by a terminated text, every line of a module ends with a carriage return
and a line feed. What fields and scalars are rendered to where they are used can be any
text, and so can the values of enumerations and the names of fields.
-/

namespace SchemaTypings

open Traversal

def Definition.interfaces : Definition → List String
  | object r => r.interfaces
  | interface r => r.interfaces
  | _ => []

/-- No line feed stands in a name of a type or of an implemented interface. -/
def Schema.HasUnbrokenNames (schema : Schema) : Prop :=
  ∀ definition ∈ schema.toList,
    IsUnbroken definition.name ∧ ∀ name ∈ definition.interfaces, IsUnbroken name

instance (schema : Schema) : Decidable schema.HasUnbrokenNames :=
  inferInstanceAs (Decidable (∀ definition ∈ schema.toList,
    IsUnbroken definition.name ∧ ∀ name ∈ definition.interfaces, IsUnbroken name))

/-! ### Rules that declare by terminated texts -/

/-- Enumerations and records are declared by the default rules, and scalars by terminated
texts. -/
structure Rules.DeclaresTerminated (rules : Rules) : Prop where
  scalarDef {scalar : Scalar} {context : Context} {text : String} :
    rules.scalarDef scalar context = .ok text → Text.IsTerminated text
  enumeration : rules.enumeration = Default.enumeration
  interface : rules.interface = Default.record
  object : rules.object = Default.record

/-- The overrides leave declarations alone: they say what scalars and fields are rendered to
where they are used, or are those of a table of types for scalars. -/
inductive Overrides.LeavesDeclarations : Overrides → Prop where
  | uses (scalar : Option (Rule Scalar)) (field : Option (Rule Field)) (spare : Nat) :
    LeavesDeclarations { scalar, field, spare }
  | table (table : ScalarTable) (spare : Nat) :
    LeavesDeclarations (table.overrides.sparing spare)

/-- An alias is terminated whatever it stands for, and so is no declaration at all. -/
theorem isTerminated_scalarDef (scalar : Scalar) (target : String) :
    Text.IsTerminated (if scalar.isStandard then "" else
      (Declaration.typeAlias scalar.name target).render) := by
  split
  · exact Text.isTerminated_empty
  · exact Declaration.isTerminated_render trivial

/-- Overrides that leave declarations alone declare everything by terminated texts. -/
theorem Overrides.LeavesDeclarations.declaresTerminated {overrides : Overrides}
    (leaves : overrides.LeavesDeclarations) : (Rules.overriding overrides).DeclaresTerminated := by
  cases leaves with
  | uses scalar field spare =>
    refine ⟨fun {s context text} found => ?_, rfl, rfl, rfl⟩
    have rendered : Default.scalarDef s context = .ok text := found
    rw [Default.scalarDef_eq] at rendered
    cases rendered
    exact isTerminated_scalarDef s "string"
  | table table spare =>
    rw [← table.overriding_siteOverrides]
    refine ⟨fun {s context text} found => ?_, rfl, rfl, rfl⟩
    cases found
    exact isTerminated_scalarDef s (table.target s)

namespace Rules.DeclaresTerminated

variable {rules : Rules} (declares : rules.DeclaresTerminated)
include declares

omit declares in
/-- What the fields of a record come to makes no difference to how its text ends. -/
theorem isTerminated_record {record : Record} {context : Context} {text : String}
    (name : IsUnbroken record.name) (interfaces : ∀ name ∈ record.interfaces, IsUnbroken name)
    (found : Default.record record context = .ok text) : Text.IsTerminated text := by
  rw [Default.record_eq_map, map_eq_ok_iff] at found
  obtain ⟨members, -, rfl⟩ := found
  exact Declaration.isTerminated_render ⟨name, interfaces⟩

/-- A definition is declared by a terminated text. -/
theorem isTerminated_declare {moduleName : String} {schema : Schema} {definition : Definition}
    {text : String} (name : IsUnbroken definition.name)
    (interfaces : ∀ name ∈ definition.interfaces, IsUnbroken name)
    (found : Generator.declare (rules.context moduleName schema) definition = .ok text) :
    Text.IsTerminated text := by
  cases definition with
  | scalar s => exact declares.scalarDef found
  | enumeration e =>
    change rules.enumeration e _ = _ at found
    rw [declares.enumeration] at found
    cases found
    exact Declaration.isTerminated_render name
  | object r =>
    change rules.object r _ = _ at found
    rw [declares.object] at found
    exact isTerminated_record name interfaces found
  | interface r =>
    change rules.interface r _ = _ at found
    rw [declares.interface] at found
    exact isTerminated_record name interfaces found

/-- A module is made of terminated texts. -/
theorem isTerminated_content {moduleName : String} {schema : Schema} {generated : Generated}
    (unbroken : schema.HasUnbrokenNames)
    (succeeds : Generator.generate ⟨moduleName, rules⟩ schema = .ok generated) :
    Text.IsTerminated generated.content := by
  obtain ⟨rendered, rfl⟩ := Generator.generate_eq_ok_iff_textOf.mp succeeds
  refine Text.IsTerminated.join (List.forall_mem_map.mpr fun definition visible => ?_)
  obtain ⟨name, interfaces⟩ := unbroken definition (List.mem_of_mem_filter visible)
  exact declares.isTerminated_declare name interfaces (rendered definition visible)

end Rules.DeclaresTerminated

/-! ### The main result -/

/-- Where no line feed stands in the name of a type or of an implemented interface, and the
overrides leave declarations alone, a generated module is empty or ends with a carriage
return and a line feed, and a carriage return stands before every line feed in it. -/
theorem returns_before_line_feeds (schema : Schema) (moduleName : Option String)
    (overrides : Overrides) (generated : Generated) (unbroken : schema.HasUnbrokenNames)
    (leaves : overrides.LeavesDeclarations)
    (succeeds : generateTypes schema ⟨moduleName, overrides⟩ = .ok generated) :
    (generated.content = "" ∨ ∃ start, generated.content = start ++ "\r\n") ∧
    ∀ before after, generated.content.toList = before ++ '\n' :: after →
      ∃ start, before = start ++ ['\r'] := by
  have terminated : Text.IsTerminated generated.content :=
    leaves.declaresTerminated.isTerminated_content unbroken succeeds
  exact ⟨terminated.eq_empty_or_ends, fun _ _ => terminated.before_lineFeed⟩

def brokenSchema : Schema :=
  .ofList [.scalar ⟨"Date"⟩, .enumeration ⟨"Hue", ["RED\nDARK", "\r\n"]⟩,
    .object ⟨"Event", .ofList [⟨"at\nonce", .named "Date"⟩, ⟨"hue", .named "Hue"⟩], ["Node"]⟩]

def commentedOverrides : Overrides where
  scalar := some fun _ _ => .ok ""
  field := some fun field context =>
    (Default.field field context).map (· ++ " // \r\n\n// " ++ field.name)

/-- Line feeds in names of values and fields, and in the text of a rule, are line ends too.
-/
theorem returns_before_broken_texts :
    (∃ generated, generateTypes brokenSchema ⟨none, commentedOverrides⟩ = .ok generated ∧
      ∀ before after, generated.content.toList = before ++ '\n' :: after →
        ∃ start, before = start ++ ['\r']) ∧
    ∃ generated, generateTypes brokenSchema ⟨none, ScalarTable.overrides [("Date", "A |\nB")]⟩ =
        .ok generated ∧
      (generated.content = "" ∨ ∃ start, generated.content = start ++ "\r\n") := by
  constructor
  · obtain ⟨generated, succeeds⟩ :
        ∃ g, generateTypes brokenSchema ⟨none, commentedOverrides⟩ = .ok g := ⟨_, rfl⟩
    exact ⟨generated, succeeds, (returns_before_line_feeds brokenSchema none commentedOverrides
      generated (by decide) (.uses _ _ _) succeeds).2⟩
  · obtain ⟨generated, succeeds⟩ : ∃ g, generateTypes brokenSchema
        ⟨none, ScalarTable.overrides [("Date", "A |\nB")]⟩ = .ok g := ⟨_, rfl⟩
    exact ⟨generated, succeeds, (returns_before_line_feeds brokenSchema none _ generated
      (by decide) (.table [("Date", "A |\nB")] 64) succeeds).1⟩

end SchemaTypings
