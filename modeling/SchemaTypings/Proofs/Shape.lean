import SchemaTypings.TypeRef

/-!
# Expressible type references

A declaration can express the references of the form `[NonNull] [List [NonNull]]
Named`. `TypeRef.IsExpressible` states the form, and `unwrap?_eq_some_iff` says
that a reference is taken apart exactly when it has it, and into what.
-/

namespace SchemaTypings.TypeRef

/-- An item of a list: `[NonNull] Named`. -/
inductive IsItem : TypeRef → Prop where
  | named (name : String) : IsItem (.named name)
  | nonNull (name : String) : IsItem (.nonNull (.named name))

/-- What an outer mark may stand on: `[List [NonNull]] Named`. -/
inductive IsPlain : TypeRef → Prop where
  | named (name : String) : IsPlain (.named name)
  | list {item : TypeRef} : IsItem item → IsPlain (.list item)

/-- The form a declaration can express: `[NonNull] [List [NonNull]] Named`. -/
inductive IsExpressible : TypeRef → Prop where
  | plain {ty : TypeRef} : IsPlain ty → IsExpressible ty
  | nonNull {inner : TypeRef} : IsPlain inner → IsExpressible (.nonNull inner)

def hasList (ty : TypeRef) : Bool := decide (0 < ty.listDepth)

/-- An item has its base name and no list. -/
theorem itemName?_eq_some_iff {ty : TypeRef} {name : String} :
    ty.itemName? = some name ↔ IsItem ty ∧ name = ty.baseName ∧ ty.listDepth = 0 := by
  constructor
  · intro found
    cases ty with
    | named n =>
      cases found
      exact ⟨.named _, rfl, rfl⟩
    | list item => cases found
    | nonNull inner =>
      cases inner with
      | named n =>
        cases found
        exact ⟨.nonNull _, rfl, rfl⟩
      | list _ => cases found
      | nonNull _ => cases found
  · rintro ⟨item, rfl, -⟩
    cases item <;> rfl

/-- What a mark may stand on is a name, or a list of one. -/
theorem nullable?_eq_some_iff {ty : TypeRef} {name : String} {isList : Bool} :
    ty.nullable? = some (name, isList) ↔
      IsPlain ty ∧ name = ty.baseName ∧ isList = ty.hasList := by
  constructor
  · intro found
    cases ty with
    | named n =>
      cases found
      exact ⟨.named _, rfl, rfl⟩
    | list item =>
      obtain ⟨n, isItem, eq⟩ := Option.map_eq_some_iff.mp found
      obtain ⟨form, rfl, -⟩ := itemName?_eq_some_iff.mp isItem
      cases eq
      exact ⟨.list form, rfl, by simp [hasList, listDepth]⟩
    | nonNull inner => cases found
  · rintro ⟨form, rfl, rfl⟩
    cases form with
    | named n => rfl
    | list item => cases item <;> rfl

/-- Taking a reference apart below a mark. -/
theorem nullable?_map_eq_some_iff (ty : TypeRef) (mark : Bool) {unwrapped : Unwrapped} :
    ty.nullable?.map (fun (name, isList) => (⟨name, mark, isList⟩ : Unwrapped))
        = some unwrapped ↔
      IsPlain ty ∧ unwrapped = ⟨ty.baseName, mark, ty.hasList⟩ := by
  rw [Option.map_eq_some_iff]
  constructor
  · rintro ⟨⟨name, isList⟩, found, rfl⟩
    obtain ⟨form, rfl, rfl⟩ := nullable?_eq_some_iff.mp found
    exact ⟨form, rfl⟩
  · rintro ⟨form, rfl⟩
    exact ⟨_, nullable?_eq_some_iff.mpr ⟨form, rfl, rfl⟩, rfl⟩

/-- A reference is taken apart exactly when a declaration can express it, and then
into its name, its outermost mark and the presence of a list. -/
theorem unwrap?_eq_some_iff {ty : TypeRef} {unwrapped : Unwrapped} :
    ty.unwrap? = some unwrapped ↔
      IsExpressible ty ∧ unwrapped = ⟨ty.baseName, ty.isNonNull, ty.hasList⟩ := by
  cases ty with
  | named n =>
    refine (nullable?_map_eq_some_iff (.named n) false).trans ⟨?_, ?_⟩
    · rintro ⟨form, eq⟩
      exact ⟨.plain form, eq⟩
    · rintro ⟨-, eq⟩
      exact ⟨.named n, eq⟩
  | list item =>
    refine (nullable?_map_eq_some_iff (.list item) false).trans ⟨?_, ?_⟩
    · rintro ⟨form, eq⟩
      exact ⟨.plain form, eq⟩
    · rintro ⟨form, eq⟩
      cases form with
      | plain form => exact ⟨form, eq⟩
  | nonNull inner =>
    refine (nullable?_map_eq_some_iff inner true).trans ⟨?_, ?_⟩
    · rintro ⟨form, eq⟩
      exact ⟨.nonNull form, eq⟩
    · rintro ⟨form, eq⟩
      cases form with
      | plain form => cases form
      | nonNull form => exact ⟨form, eq⟩

theorem unwrap?_of_isExpressible {ty : TypeRef} (form : IsExpressible ty) :
    ty.unwrap? = some ⟨ty.baseName, ty.isNonNull, ty.hasList⟩ :=
  unwrap?_eq_some_iff.mpr ⟨form, rfl⟩

/-- References that are not expressible are not taken apart. -/
theorem unwrap?_eq_none_iff {ty : TypeRef} : ty.unwrap? = none ↔ ¬ IsExpressible ty := by
  constructor
  · intro none form
    rw [unwrap?_of_isExpressible form] at none
    cases none
  · intro other
    refine Option.eq_none_iff_forall_ne_some.mpr fun unwrapped found => ?_
    exact other (unwrap?_eq_some_iff.mp found).1

end SchemaTypings.TypeRef
