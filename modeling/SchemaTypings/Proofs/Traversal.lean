import Mathlib.Data.List.Forall2

/-!
# Traversals that may fail

A traversal of a list takes its members in order and ends at the first one that
fails. `mapM_eq_ok_iff` and `mapM_eq_error_iff` say so without the order of
evaluation: a traversal succeeds when every member does, and otherwise it fails
as its first failing member does.
-/

namespace SchemaTypings

variable {α β ε : Type}

/-! ### Members with their surroundings -/

/-- A member of a list with what stands before and behind it is the head, or a member of
the tail. -/
theorem exists_split_cons_iff {y : α} {xs : List α} {p : List α → α → List α → Prop} :
    (∃ before x after, y :: xs = before ++ x :: after ∧ p before x after) ↔
      p [] y xs ∨ ∃ before x after, xs = before ++ x :: after ∧ p (y :: before) x after := by
  constructor
  · rintro ⟨before, x, after, split, holds⟩
    cases before with
    | nil =>
      cases split
      exact .inl holds
    | cons first others =>
      cases split
      exact .inr ⟨others, x, after, rfl, holds⟩
  · rintro (holds | ⟨before, x, after, rfl, holds⟩)
    · exact ⟨[], y, xs, rfl, holds⟩
    · exact ⟨y :: before, x, after, rfl, holds⟩

@[simp]
theorem not_exists_split_nil {p : List α → α → List α → Prop} :
    ¬ ∃ before x after, [] = before ++ x :: after ∧ p before x after := by
  rintro ⟨before, x, after, split, -⟩
  simp at split

/-! ### First members -/

/-- `x` is in `xs`, has the property, and no member before it has. -/
def FirstWith (p : α → Prop) (xs : List α) (x : α) : Prop :=
  p x ∧ ∃ before after, xs = before ++ x :: after ∧ ∀ y ∈ before, ¬ p y

namespace FirstWith

variable {p : α → Prop} {x y : α} {xs : List α}

@[simp]
theorem not_nil : ¬ FirstWith p [] x := by
  rintro ⟨-, before, after, split, -⟩
  simp at split

/-- The first member with a property is a member. -/
theorem mem (first : FirstWith p xs x) : x ∈ xs := by
  obtain ⟨-, before, after, rfl, -⟩ := first
  simp

/-- The first member of a list is its head or the first one of its tail. -/
theorem cons_iff : FirstWith p (y :: xs) x ↔ p y ∧ x = y ∨ ¬ p y ∧ FirstWith p xs x := by
  constructor
  · rintro ⟨holds, before, after, split, none⟩
    cases before with
    | nil =>
      cases split
      exact .inl ⟨holds, rfl⟩
    | cons first others =>
      cases split
      refine .inr ⟨none _ List.mem_cons_self, holds, others, after, rfl, ?_⟩
      exact fun z mem => none z (List.mem_cons_of_mem _ mem)
  · rintro (⟨holds, rfl⟩ | ⟨fails, holds, before, after, rfl, none⟩)
    · exact ⟨holds, [], xs, rfl, by simp⟩
    · refine ⟨holds, y :: before, after, rfl, ?_⟩
      exact List.forall_mem_cons.mpr ⟨fails, none⟩

/-- A list with such a member has a first one. -/
theorem exists_iff : (∃ x, FirstWith p xs x) ↔ ∃ x ∈ xs, p x := by
  induction xs with
  | nil => simp
  | cons y rest ih =>
    simp only [cons_iff, List.exists_mem_cons_iff, ← ih]
    by_cases holds : p y <;> simp [holds]

/-- Whether a member is the first one depends on the property of the members only. -/
theorem congr {q : α → Prop} (same : ∀ z ∈ xs, p z ↔ q z) :
    FirstWith p xs x ↔ FirstWith q xs x := by
  induction xs with
  | nil => simp
  | cons y rest ih =>
    obtain ⟨head, tail⟩ := List.forall_mem_cons.mp same
    rw [cons_iff, cons_iff, head, ih tail]

end FirstWith

/-! ### Traversals -/

namespace Traversal

variable {f : α → Except ε β} {x : α} {xs : List α}

/-- The member makes a traversal fail. -/
def Fails (f : α → Except ε β) (x : α) : Prop := ∃ e, f x = .error e

/-- A member that does not make a traversal fail comes to something. -/
theorem not_fails_iff : ¬ Fails f x ↔ ∃ y, f x = .ok y := by
  unfold Fails
  cases f x <;> simp

theorem bind_pure_eq_map (result : Except ε α) (g : α → β) :
    (do let a ← result; return g a) = result.map g := by
  cases result <;> rfl

/-- A computation in two steps succeeds if both do. -/
theorem bind_eq_ok_iff {result : Except ε α} {g : α → Except ε β} {b : β} :
    result >>= g = .ok b ↔ ∃ a, result = .ok a ∧ g a = .ok b := by
  cases result <;> simp [bind, Except.bind]

theorem mapError_eq_ok_iff {ε' : Type} {result : Except ε α} {g : ε → ε'} {a : α} :
    result.mapError g = .ok a ↔ result = .ok a := by
  cases result <;> simp [Except.mapError]

/-- A mapped result is a success of what was mapped. -/
theorem map_eq_ok_iff {result : Except ε α} {g : α → β} {b : β} :
    result.map g = .ok b ↔ ∃ a, result = .ok a ∧ b = g a := by
  cases result <;> simp [Except.map, eq_comm]

/-- A mapped result has the errors of what was mapped. -/
theorem map_eq_error_iff {result : Except ε α} {g : α → β} {e : ε} :
    result.map g = .error e ↔ result = .error e := by
  cases result <;> simp [Except.map]

/-- A traversal stops at a member that fails. -/
theorem mapM_cons_of_error {e : ε} (fails : f x = .error e) : (x :: xs).mapM f = .error e := by
  rw [List.mapM_cons, fails]
  rfl

theorem mapM_cons_of_ok {y : β} (succeeds : f x = .ok y) :
    (x :: xs).mapM f = (xs.mapM f).map (y :: ·) := by
  rw [List.mapM_cons, succeeds]
  cases xs.mapM f <;> rfl

/-- Traversals that agree on all members agree. -/
theorem mapM_congr {g : α → Except ε β} (same : ∀ x ∈ xs, f x = g x) : xs.mapM f = xs.mapM g := by
  induction xs with
  | nil => rfl
  | cons x rest ih =>
    obtain ⟨head, tail⟩ := List.forall_mem_cons.mp same
    rw [List.mapM_cons, List.mapM_cons, head, ih tail]

/-- Traversals agree that agree on every member that both come to. -/
theorem mapM_congr_of_split {g : α → Except ε β}
    (same : ∀ before x after, xs = before ++ x :: after → (∀ y ∈ before, ¬ Fails f y) →
      f x = g x) : xs.mapM f = xs.mapM g := by
  induction xs with
  | nil => rfl
  | cons x rest ih =>
    have head : f x = g x := same [] x rest rfl (by simp)
    cases found : f x with
    | error e => rw [mapM_cons_of_error found, mapM_cons_of_error (head ▸ found)]
    | ok y =>
      rw [mapM_cons_of_ok found, mapM_cons_of_ok (head ▸ found), ih]
      intro before z after split sound
      refine same (x :: before) z after (split ▸ rfl) ?_
      exact List.forall_mem_cons.mpr ⟨not_fails_iff.mpr ⟨y, found⟩, sound⟩

/-- A traversal fails with an error that one of its members fails with, if no member before
it fails with another one. -/
theorem mapM_eq_error_of_split {e : ε} {before after : List α} (fails : f x = .error e)
    (sound : ∀ y ∈ before, f y = .error e ∨ ∃ z, f y = .ok z) :
    (before ++ x :: after).mapM f = .error e := by
  induction before with
  | nil => exact mapM_cons_of_error fails
  | cons y rest ih =>
    obtain ⟨head, tail⟩ := List.forall_mem_cons.mp sound
    rw [List.cons_append]
    rcases head with found | ⟨z, found⟩
    · exact mapM_cons_of_error found
    · rw [mapM_cons_of_ok found, ih tail]
      rfl

/-- A traversal succeeds with the results of its members. -/
theorem mapM_eq_ok_iff {ys : List β} :
    xs.mapM f = .ok ys ↔ List.Forall₂ (fun x y => f x = .ok y) xs ys := by
  induction xs generalizing ys with
  | nil => cases ys <;> simp [pure, Except.pure]
  | cons x rest ih =>
    cases head : f x with
    | error e => cases ys <;> simp [mapM_cons_of_error head, head]
    | ok y =>
      rw [mapM_cons_of_ok head]
      cases ys with
      | nil => cases rest.mapM f <;> simp [Except.map]
      | cons z others =>
        rw [List.forall₂_cons, ← ih, head]
        cases rest.mapM f <;> simp [Except.map]

/-- A traversal fails as its first failing member does. -/
theorem mapM_eq_error_iff {e : ε} :
    xs.mapM f = .error e ↔ ∃ x, FirstWith (Fails f) xs x ∧ f x = .error e := by
  induction xs with
  | nil => simp [pure, Except.pure]
  | cons x rest ih =>
    simp only [FirstWith.cons_iff]
    cases head : f x with
    | error found =>
      have fails : Fails f x := ⟨found, head⟩
      rw [mapM_cons_of_error head]
      simp [fails, head]
    | ok value =>
      have sound : ¬ Fails f x := not_fails_iff.mpr ⟨value, head⟩
      rw [mapM_cons_of_ok head]
      simp only [sound, false_and, not_false_iff, true_and, false_or, ← ih]
      cases rest.mapM f <;> simp [Except.map]

/-- A traversal succeeds exactly when no member fails. -/
theorem mapM_succeeds_iff : (∃ ys, xs.mapM f = .ok ys) ↔ ∀ x ∈ xs, ¬ Fails f x := by
  induction xs with
  | nil => simp [pure, Except.pure]
  | cons x rest ih =>
    rw [List.forall_mem_cons, ← ih]
    cases head : f x with
    | error e =>
      have fails : Fails f x := ⟨e, head⟩
      simp [mapM_cons_of_error head, fails]
    | ok y =>
      have sound : ¬ Fails f x := not_fails_iff.mpr ⟨y, head⟩
      rw [mapM_cons_of_ok head]
      cases rest.mapM f <;> simp [Except.map, sound]

end Traversal

end SchemaTypings
