import SchemaTypings.Proofs.Text.Reading

/-!
# Reading goes forward

What a reader leaves of a text is the end of it. `Forward` says so of one reader, and each
combination of readers keeps it. So all that is read of a source is read at places of this
source, and `Within` follows through the combinations what can be said of a value because
of the place.
-/

namespace SchemaTypings.Text.Reader

variable {α β : Type} {text : List Char}

/-- The reader leaves the end of the text it was given. -/
def Forward (read : Reader α) : Prop :=
  ∀ text value rest, (read text).result = some (value, rest) → rest <:+ text

namespace Forward

variable {read : Reader α}

theorem done {a : α} : Forward (done a) := by
  rintro text value rest ⟨⟩
  exact List.suffix_rfl

/-- What two readers leave, one after the other, is the end of the text. -/
theorem andThen {next : α → Reader β} (first : Forward read) (second : ∀ a, Forward (next a)) :
    Forward (andThen read next) := by
  intro text value rest found
  rw [result_andThen, Option.bind_eq_some_iff] at found
  obtain ⟨⟨a, middle⟩, firstFound, found⟩ := found
  exact (second a _ _ _ found).trans (first _ _ _ firstFound)

theorem bind {next : α → Reader β} (first : Forward read) (second : ∀ a, Forward (next a)) :
    Forward (read >>= next) :=
  first.andThen second

theorem rule (forward : Forward read) : Forward (rule read) := by
  intro text value rest found
  rw [result_rule] at found
  exact forward _ _ _ found

theorem orElse {other : Reader α} (first : Forward read) (second : Forward other) :
    Forward (orElse read other) := by
  intro text value rest found
  rw [result_orElse, Option.or_eq_some_iff] at found
  rcases found with found | ⟨-, found⟩
  · exact first _ _ _ found
  · exact second _ _ _ found

/-- A choice holds what all its readers hold. -/
theorem firstOf {reads : List (Reader α)} (each : ∀ read ∈ reads, Forward read) :
    Forward (firstOf reads) := by
  fun_induction Reader.firstOf reads with
  | case1 =>
    rintro text value rest ⟨⟩
  | case2 read => exact each read List.mem_cons_self
  | case3 read others _ ih =>
    exact (each read List.mem_cons_self).orElse
      (ih fun other mem => each other (List.mem_cons_of_mem _ mem))

theorem optional (forward : Forward read) : Forward (optional read) :=
  (forward.andThen fun _ => done).orElse done

/-- However often a reader is repeated, what is left is the end of the text. -/
theorem many (forward : Forward read) : Forward (many read) := by
  intro text values rest found
  fun_induction Reader.many read text generalizing values with
  | case1 text stuck failed =>
    cases found
    exact List.suffix_rfl
  | case2 text stuck a middle first shorter others ih =>
    obtain ⟨⟨as, last⟩, later, eq⟩ := Option.map_eq_some_iff.mp found
    cases eq
    exact (ih _ later).trans (forward _ _ _ (by rw [first]))
  | case3 text stuck a middle first same =>
    cases found
    exact List.suffix_rfl

theorem several (forward : Forward read) : Forward (several read) :=
  forward.andThen fun _ => forward.many.andThen fun _ => done

end Forward

/-! ### What can be read at the places of a source -/

/-- Whatever the reader returns at a place of the source has the property, and what it
leaves begins at a place of the source. -/
def Within (source : List Char) (read : Reader α) (holds : α → Prop) : Prop :=
  ∀ text value rest, text <:+ source → (read text).result = some (value, rest) →
    holds value ∧ rest <:+ source

namespace Within

variable {source : List Char} {read : Reader α} {holds : α → Prop} {holds' : β → Prop}

/-- A reader that leaves the end of the text stays within the source. -/
theorem of_forward (forward : Forward read) : Within source read fun _ => True :=
  fun _ _ _ place found => ⟨trivial, (forward _ _ _ found).trans place⟩

theorem done {a : α} (held : holds a) : Within source (done a) holds := by
  rintro text value rest place ⟨⟩
  exact ⟨held, place⟩

theorem andThen {next : α → Reader β} (first : Within source read holds)
    (second : ∀ a, holds a → Within source (next a) holds') :
    Within source (andThen read next) holds' := by
  intro text value rest place found
  rw [result_andThen, Option.bind_eq_some_iff] at found
  obtain ⟨⟨a, middle⟩, firstFound, found⟩ := found
  obtain ⟨held, place'⟩ := first _ _ _ place firstFound
  exact second a held _ _ _ place' found

theorem bind {next : α → Reader β} (first : Within source read holds)
    (second : ∀ a, holds a → Within source (next a) holds') :
    Within source (read >>= next) holds' :=
  first.andThen second

/-- Nothing about the first value matters. -/
theorem seq {next : α → Reader β} (forward : Forward read)
    (second : ∀ a, Within source (next a) holds') : Within source (read >>= next) holds' :=
  (of_forward forward).bind fun a _ => second a

theorem rule (within : Within source read holds) : Within source (rule read) holds := by
  intro text value rest place found
  rw [result_rule] at found
  exact within _ _ _ place found

theorem orElse {other : Reader α} (first : Within source read holds)
    (second : Within source other holds) : Within source (orElse read other) holds := by
  intro text value rest place found
  rw [result_orElse, Option.or_eq_some_iff] at found
  rcases found with found | ⟨-, found⟩
  · exact first _ _ _ place found
  · exact second _ _ _ place found

theorem firstOf {reads : List (Reader α)} (each : ∀ read ∈ reads, Within source read holds) :
    Within source (firstOf reads) holds := by
  fun_induction Reader.firstOf reads with
  | case1 =>
    intro text value rest place found
    cases found
  | case2 read => exact each read List.mem_cons_self
  | case3 read others _ ih =>
    exact (each read List.mem_cons_self).orElse
      (ih fun other mem => each other (List.mem_cons_of_mem _ mem))

theorem optional (within : Within source read holds) :
    Within source (optional read) fun found => ∀ a ∈ found, holds a :=
  (within.andThen fun a held => .done (by rintro _ ⟨⟩; exact held)).orElse (.done (by simp))

theorem many (within : Within source read holds) :
    Within source (many read) fun values => ∀ a ∈ values, holds a := by
  intro text values rest place found
  fun_induction Reader.many read text generalizing values with
  | case1 text stuck failed =>
    cases found
    exact ⟨by simp, place⟩
  | case2 text stuck a middle first shorter others ih =>
    obtain ⟨⟨as, last⟩, later, eq⟩ := Option.map_eq_some_iff.mp found
    cases eq
    obtain ⟨held, place'⟩ := within _ _ _ place (by rw [first])
    obtain ⟨tail, place''⟩ := ih _ place' later
    exact ⟨List.forall_mem_cons.mpr ⟨held, tail⟩, place''⟩
  | case3 text stuck a middle first same =>
    cases found
    exact ⟨by simp, place⟩

theorem several (within : Within source read holds) :
    Within source (several read) fun values => ∀ a ∈ values, holds a :=
  within.andThen fun _ head => within.many.andThen fun _ tail =>
    .done (List.forall_mem_cons.mpr ⟨head, tail⟩)

end Within

end SchemaTypings.Text.Reader
