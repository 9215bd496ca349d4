import SchemaTypings.Text.Reader

/-!
# Results of readers

What a reader returns depends on the results of its parts only, never on the places
where they got stuck. Each combination of readers has one equation for its result, and
`Yields` follows through all of them what can be said of a value because it was read.
-/

namespace SchemaTypings.Text.Reader

variable {α β : Type} {text : List Char}

@[simp] theorem result_done {a : α} : (done a text).result = some (a, text) := rfl

@[simp] theorem result_rule {read : Reader α} : (rule read text).result = (read text).result := by
  unfold rule
  split
  · next h => rw [h]
  · rfl

@[simp] theorem result_andThen {first : Reader α} {next : α → Reader β} :
    (andThen first next text).result =
      (first text).result.bind fun (a, rest) => (next a rest).result := by
  unfold andThen
  split
  · next h => rw [h]; rfl
  · next h => rw [h]; rfl

@[simp] theorem result_bind {first : Reader α} {next : α → Reader β} :
    ((first >>= next) text).result =
      (first text).result.bind fun (a, rest) => (next a rest).result :=
  result_andThen

/-- Where the first reader succeeds, the second one goes on with what is left. -/
theorem result_bind_of_some {first : Reader α} {next : α → Reader β} {a : α} {rest : List Char}
    (found : (first text).result = some (a, rest)) :
    ((first >>= next) text).result = (next a rest).result := by
  rw [result_bind, found]
  rfl

/-- One reader after the other has a value exactly if the first one has one and leaves
what the second one reads. -/
theorem result_bind_eq_some_iff {first : Reader α} {next : α → Reader β} {b : β}
    {rest : List Char} :
    ((first >>= next) text).result = some (b, rest) ↔
      ∃ a middle, (first text).result = some (a, middle) ∧
        (next a middle).result = some (b, rest) := by
  rw [result_bind, Option.bind_eq_some_iff, Prod.exists]

@[simp] theorem result_orElse {first second : Reader α} :
    (orElse first second text).result = (first text).result.or (second text).result := by
  unfold orElse
  split
  · next h => rw [h]; rfl
  · next attempt h =>
    cases result : (first text).result with
    | none => exact absurd (congrArg (Attempt.mk _) result) (h _)
    | some found => rfl

@[simp] theorem result_optional {read : Reader α} :
    (optional read text).result =
      ((read text).result.map fun (a, rest) => (some a, rest)).or (some (none, text)) := by
  unfold optional
  cases h : (read text).result <;> simp [h]

/-- Repetition ends where the reader fails. -/
theorem result_many_of_none {read : Reader α} (failed : (read text).result = none) :
    (many read text).result = some ([], text) := by
  rw [many]
  split
  · rfl
  · next h => rw [h] at failed; cases failed

/-- Repetition goes on behind a value that took some of the text. -/
theorem result_many_of_some {read : Reader α} {a : α} {rest : List Char}
    (found : (read text).result = some (a, rest)) (shorter : rest.length < text.length) :
    (many read text).result =
      (many read rest).result.map fun (as, last) => (a :: as, last) := by
  rw [many]
  split
  · next h => rw [h] at found; cases found
  · next h =>
    rw [h] at found
    cases found
    rw [if_pos shorter]

/-- Repetition ends also where the reader takes no text. -/
theorem result_many_of_same {read : Reader α} {a : α} {rest : List Char}
    (found : (read text).result = some (a, rest)) (same : ¬ rest.length < text.length) :
    (many read text).result = some ([], text) := by
  rw [many]
  split
  · rfl
  · next h =>
    rw [h] at found
    cases found
    rw [if_neg same]

/-- One value comes first, and then as many as can be read. -/
theorem result_several_eq_some_iff {read : Reader α} {values : List α} {last : List Char} :
    (several read text).result = some (values, last) ↔
      ∃ a rest as, (read text).result = some (a, rest) ∧
        (many read rest).result = some (as, last) ∧ values = a :: as := by
  have behind (a : α) (rest : List Char) :
      (andThen (many read) (fun as => Reader.done (a :: as)) rest).result =
        (many read rest).result.map fun (as, last) => (a :: as, last) := by
    refine result_andThen.trans ?_
    cases (many read rest).result <;> rfl
  rw [several, result_andThen, Option.bind_eq_some_iff]
  constructor
  · rintro ⟨⟨a, rest⟩, found, later⟩
    obtain ⟨⟨as, last'⟩, later, eq⟩ := Option.map_eq_some_iff.mp ((behind a rest).symm.trans later)
    cases eq
    exact ⟨a, rest, as, found, later, rfl⟩
  · rintro ⟨a, rest, as, found, later, rfl⟩
    exact ⟨(a, rest), found, (behind a rest).trans (by rw [later]; rfl)⟩

/-! ### What can be read -/

/-- Whatever the reader returns has the property. -/
def Yields (read : Reader α) (holds : α → Prop) : Prop :=
  ∀ text value rest, (read text).result = some (value, rest) → holds value

namespace Yields

variable {read : Reader α} {holds : α → Prop} {holds' : β → Prop}

theorem trivial : Yields read fun _ => True := fun _ _ _ _ => True.intro

theorem done {a : α} (held : holds a) : Yields (done a) holds := by
  intro text value rest read
  cases read
  exact held

theorem andThen {next : α → Reader β} (first : Yields read holds)
    (second : ∀ a, holds a → Yields (next a) holds') : Yields (andThen read next) holds' := by
  intro text value rest found
  rw [result_andThen, Option.bind_eq_some_iff] at found
  obtain ⟨⟨a, middle⟩, firstFound, found⟩ := found
  exact second a (first _ _ _ firstFound) _ _ _ found

theorem bind {next : α → Reader β} (first : Yields read holds)
    (second : ∀ a, holds a → Yields (next a) holds') : Yields (read >>= next) holds' :=
  first.andThen second

/-- Nothing about the first value matters. -/
theorem seq {next : α → Reader β} (second : ∀ a, Yields (next a) holds') :
    Yields (read >>= next) holds' :=
  trivial.bind fun a _ => second a

theorem rule (yields : Yields read holds) : Yields (rule read) holds := by
  intro text value rest found
  rw [result_rule] at found
  exact yields _ _ _ found

theorem orElse {other : Reader α} (first : Yields read holds) (second : Yields other holds) :
    Yields (orElse read other) holds := by
  intro text value rest found
  rw [result_orElse, Option.or_eq_some_iff] at found
  rcases found with found | ⟨-, found⟩
  · exact first _ _ _ found
  · exact second _ _ _ found

/-- A choice yields what all its readers yield. -/
theorem firstOf {reads : List (Reader α)} (each : ∀ read ∈ reads, Yields read holds) :
    Yields (firstOf reads) holds := by
  fun_induction Reader.firstOf reads with
  | case1 =>
    intro text value rest found
    cases found
  | case2 read => exact each read List.mem_cons_self
  | case3 read others _ ih =>
    exact (each read List.mem_cons_self).orElse
      (ih fun other mem => each other (List.mem_cons_of_mem _ mem))

theorem optional (yields : Yields read holds) :
    Yields (optional read) fun found => ∀ a ∈ found, holds a :=
  (yields.andThen fun a held => .done (by rintro _ ⟨⟩; exact held)).orElse (.done (by simp))

/-- Repeated readers yield values all of which have the property. -/
theorem many (yields : Yields read holds) :
    Yields (many read) fun values => ∀ a ∈ values, holds a := by
  intro text values rest found
  fun_induction Reader.many read text generalizing values with
  | case1 text stuck failed =>
    cases found
    simp
  | case2 text stuck a middle first shorter others ih =>
    obtain ⟨⟨as, last⟩, later, eq⟩ := Option.map_eq_some_iff.mp found
    cases eq
    exact List.forall_mem_cons.mpr ⟨yields _ _ _ (by rw [first]), ih _ later⟩
  | case3 text stuck a middle first same =>
    cases found
    simp

theorem several (yields : Yields read holds) :
    Yields (several read) fun values => ∀ a ∈ values, holds a :=
  yields.andThen fun _ head => yields.many.andThen fun _ tail =>
    .done (List.forall_mem_cons.mpr ⟨head, tail⟩)

end Yields

end SchemaTypings.Text.Reader
