import SchemaTypings.Proofs.Generation.TableRules

/-!
# Chains of rules

A rule may ask for what the effective rules make of another element, whose rule may ask
for one more. A generator follows such a chain for a number of links. Where every chain
ends within them, more links to spare make no difference, and this is what all chains of
rules that ask for no other rule do within three links, the default rules and those of
tables among them. A rule that asks for its own element fails, however many links there are.
-/

namespace SchemaTypings

open Traversal

namespace Rules

variable {rules : Rules} {moduleName : String} {schema : Schema} {parent : Option String}
  {element : Element}

/-! ### What is beyond a number of links -/

variable (rules moduleName schema) in
/-- What the rules make of an element, where elements come to what `beyond` says once a
chain has `depth` links. -/
def answerOver (beyond : Option String → Element → Answer) :
    (depth : Nat) → Option String → Element → Answer
  | 0, parent, element => beyond parent element
  | depth + 1, parent, element =>
    rules.apply element ⟨moduleName, schema, parent, answerOver beyond depth⟩

/-- The rules below a number of links answer what the first of them are given. -/
theorem answer_add (depth more : Nat) :
    rules.answer moduleName schema (depth + more) =
      rules.answerOver moduleName schema (rules.answer moduleName schema more) depth := by
  induction depth with
  | zero =>
    rw [Nat.zero_add]
    rfl
  | succ depth ih =>
    funext parent element
    rw [Nat.add_right_comm, answer, answerOver, ih]

variable (rules moduleName schema parent element) in
/-- No chain of rules that begins with an element below a parent has more links. -/
def EndsWithin (depth : Nat) : Prop :=
  ∀ beyond beyond', rules.answerOver moduleName schema beyond depth parent element =
    rules.answerOver moduleName schema beyond' depth parent element

/-- More links make no difference to a chain that ends. -/
theorem EndsWithin.answer_add {depth : Nat}
    (ends : rules.EndsWithin moduleName schema parent element depth) (more : Nat) :
    rules.answer moduleName schema (depth + more) parent element =
      rules.answer moduleName schema depth parent element := by
  rw [Rules.answer_add depth more, ← Nat.add_zero depth, Rules.answer_add depth 0]
  exact ends _ _

/-- How many links there are to spare is not for the rules to see. -/
theorem answer_sparing (overrides : Overrides) (spare depth : Nat) :
    (overriding (overrides.sparing spare)).answer moduleName schema depth =
      (overriding overrides).answer moduleName schema depth := by
  induction depth with
  | zero => rfl
  | succ depth ih =>
    funext parent element
    rw [answer, answer, ih]
    cases element <;> rfl

/-- A rule for fields that asks for the very field never comes to an end. -/
theorem answer_field_of_asks_again
    (again : ∀ field context, rules.field field context = context.render (.field field))
    (field : Field) (depth : Nat) :
    rules.answer moduleName schema depth parent (.field field) = .error .endlessRules := by
  induction depth with
  | zero => rfl
  | succ depth ih => exact (again field _).trans ih

end Rules

/-! ### Rules that ask for no other rule -/

namespace SiteOverrides

variable (overrides : SiteOverrides)

/-- What an element comes to below a parent. -/
def elementText (site : Site) : Element → Answer
  | .scalar s => overrides.scalarText site s
  | .scalarDef s => overrides.definitionText site (.scalar s)
  | .enumeration e => overrides.definitionText site (.enumeration e)
  | .field f => overrides.fieldText site f
  | .object r => overrides.recordText overrides.object (site.within r.name) r
  | .interface r => overrides.recordText overrides.interface (site.within r.name) r

variable {overrides} {spare : Nat} {moduleName : String} {schema : Schema}
  {parent : Option String} {element : Element}

/-- Two links are enough for a field. -/
theorem answerOver_field (beyond : Option String → Element → Answer) (depth : Nat) (field : Field) :
    (overrides.rules spare).answerOver moduleName schema beyond (depth + 2) parent (.field field) =
      overrides.fieldText ⟨moduleName, schema, parent⟩ field :=
  rules_field fun scalar => rules_scalar scalar

/-- What is beyond three links plays no part. -/
theorem answerOver_eq (beyond : Option String → Element → Answer) :
    (overrides.rules spare).answerOver moduleName schema beyond 3 parent element =
      overrides.elementText ⟨moduleName, schema, parent⟩ element := by
  cases element with
  | scalar s => exact rules_scalar s
  | scalarDef s => exact rules_scalarDef s
  | enumeration e => exact rules_enumeration e
  | field f => exact answerOver_field beyond 1 f
  | object r => exact record_eq rfl (answerOver_field beyond 0)
  | interface r => exact record_eq rfl (answerOver_field beyond 0)

/-- Three links are enough for any element: a record, its fields, and their scalars. -/
theorem endsWithin : (overrides.rules spare).EndsWithin moduleName schema parent element 3 :=
  fun beyond beyond' => (answerOver_eq beyond).trans (answerOver_eq beyond').symm

end SiteOverrides

/-! ### Generating with more links -/

/-- Where the chains of all visible definitions end with some links to spare, a generator
that follows longer chains generates the same module or fails with the same error. -/
theorem generateTypes_sparing_add {schema : Schema} {moduleName : Option String}
    {overrides : Overrides} {spare : Nat}
    (ends : ∀ definition ∈ schema.visible, (Rules.overriding overrides).EndsWithin
      (moduleName.getD Generator.defaultModuleName) schema none definition.element (spare + 3))
    (more : Nat) :
    generateTypes schema ⟨moduleName, overrides.sparing (spare + more)⟩ =
      generateTypes schema ⟨moduleName, overrides.sparing spare⟩ := by
  let generator (spare : Nat) := Generator.ofOptions ⟨moduleName, overrides.sparing spare⟩
  have answer (spare : Nat) (definition : Definition) :
      (generator spare).renderDefinition schema definition =
        (Rules.overriding overrides).answer (moduleName.getD Generator.defaultModuleName) schema
          (spare + 3) none definition.element := by
    rw [← Rules.answer_sparing overrides spare]
    rfl
  have same : schema.visible.mapM ((generator (spare + more)).renderDefinition schema) =
      schema.visible.mapM ((generator spare).renderDefinition schema) := by
    refine mapM_congr fun definition visible => ?_
    rw [answer, answer, Nat.add_right_comm]
    exact (ends definition visible).answer_add more
  change (generator (spare + more)).generate schema = (generator spare).generate schema
  rw [Generator.generate_eq_map, Generator.generate_eq_map, same]
  rfl

/-- The rules of a table need no links to spare. -/
theorem ScalarTable.generateTypes_sparing (table : ScalarTable) (schema : Schema)
    (moduleName : Option String) (spare : Nat) :
    generateTypes schema ⟨moduleName, table.overrides.sparing spare⟩ =
      generateTypes schema ⟨moduleName, table.overrides.sparing 0⟩ := by
  have ends : ∀ definition ∈ schema.visible, (Rules.overriding table.overrides).EndsWithin
      (moduleName.getD Generator.defaultModuleName) schema none definition.element (0 + 3) := by
    intro definition _
    change (Rules.overriding (table.overrides.sparing table.overrides.spare)).EndsWithin _ _ _ _ _
    rw [← table.overriding_siteOverrides]
    exact SiteOverrides.endsWithin
  rw [← generateTypes_sparing_add ends spare, Nat.zero_add]

end SchemaTypings
