import SchemaTypings.Proofs.Loading.Joining.Tokens

/-!
# Readers on joined texts

`Carries` says that a reader takes from a joined text what it takes from the first text
alone, as long as what it leaves of the first text is not the beginning of something that it
could have taken. Each combination of readers keeps this. `Exact` says more of readers that
look at a token only: they also fail on the joined text if they fail on the first one.
-/

namespace SchemaTypings.Sdl

open Text Reader

/-! ### Places in joined texts -/

/-- Values that may hold places in a text. -/
class Moves (α : Type) where
  /-- The value, with `count` characters more behind each of its places. -/
  moved (count : Nat) : α → α

export Moves (moved)

section Instances

variable {α β : Type} [Moves α] [Moves β]

instance : Moves Unit := ⟨fun _ => id⟩

instance : Moves String := ⟨fun _ => id⟩

instance : Moves TypeRef := ⟨fun _ => id⟩

instance {α : Type} : Moves (Located α) := ⟨fun count a => ⟨a.value, a.left + count⟩⟩

instance : Moves (List α) := ⟨fun count => List.map (moved count)⟩

instance : Moves (Option α) := ⟨fun count => Option.map (moved count)⟩

instance : Moves (α × β) := ⟨fun count => Prod.map (moved count) (moved count)⟩

end Instances

/-! ### Joined texts -/

/-- The text begins with none of the words. -/
def Avoids (words : List String) (text : List Char) : Prop :=
  ∀ word ∈ words, ¬ word.toList <+: text

/-- Words that begin the parts of a document that may be missing. -/
def openers : List String := ["(", "@", "=", "\x7b", "&", "|", "implements"]

/-- What is left of the first text, joined to the text behind it. -/
def joined (behind text : List Char) : List Char := skipBlank (text ++ '\n' :: behind)

/-- The text stands at the beginning of a token and can be joined to the other one. -/
structure Joinable (behind text : List Char) : Prop where
  start : skipBlank text = text
  strings : KeepsStrings text behind
  clear : Avoids openers (skipBlank behind)

/-- Blanks are skipped alike, and all of the first text may go. -/
theorem skipFrom_joined (behind : List Char) (inComment : Bool) (text : List Char) :
    skipFrom inComment (text ++ '\n' :: behind) = joined behind (skipFrom inComment text) := by
  fun_induction skipFrom inComment text with
  | case1 inComment => cases inComment <;> rfl
  | case2 c rest ih => rw [← ih, List.cons_append, skipFrom]
  | case3 c rest blank ih => rw [← ih, List.cons_append, skipFrom, if_pos blank]
  | case4 rest blank ih => rw [← ih, List.cons_append, skipFrom, if_neg blank, if_pos rfl]
  | case5 c rest blank hash => rfl

/-- Nothing is left to be skipped where blanks were. -/
theorem skipBlank_skipFrom (inComment : Bool) (text : List Char) :
    skipBlank (skipFrom inComment text) = skipFrom inComment text := by
  fun_induction skipFrom inComment text with
  | case1 => rfl
  | case2 c rest ih => exact ih
  | case3 c rest _ ih => exact ih
  | case4 rest _ ih => exact ih
  | case5 c rest blank hash => rw [skipBlank, skipFrom, if_neg blank, if_neg hash]

/-- What begins with neither a blank nor a comment stands at the beginning of a token. -/
theorem skipBlank_cons_eq_iff {c : Char} {text : List Char} :
    skipBlank (c :: text) = c :: text ↔ ¬ isBlank c ∧ c ≠ '#' := by
  have shorter (inComment : Bool) : skipFrom inComment text ≠ c :: text := by
    intro eq
    have le := (skipFrom_suffix inComment text).length_le
    rw [eq, List.length_cons] at le
    omega
  rw [skipBlank, skipFrom]
  split
  · next blank => simp [shorter, blank]
  · split
    · next hash => exact iff_of_false (shorter true) fun visible => visible.2 hash
    · next blank hash => simp [blank, hash]

namespace Joinable

variable {behind text left : List Char}

/-- What is left of the first text is left in the joined one, unless it is nothing. -/
theorem joined_eq (joinable : Joinable behind text) (nonempty : text ≠ []) :
    joined behind text = text ++ '\n' :: behind := by
  cases text with
  | nil => exact absurd rfl nonempty
  | cons c text => exact skipBlank_cons_eq_iff.mpr (skipBlank_cons_eq_iff.mp joinable.start)

theorem length_joined (joinable : Joinable behind text) (nonempty : text ≠ []) :
    (joined behind text).length = text.length + (behind.length + 1) := by
  rw [joinable.joined_eq nonempty, List.length_append, List.length_cons]

/-- What is left behind a token can be joined, too. -/
theorem skipBlank (joinable : Joinable behind text) (keeps : KeepsStrings left behind) :
    Joinable behind (skipBlank left) :=
  ⟨skipBlank_skipFrom false left, keeps.imp_left ClosesBlocks.skipBlank, joinable.clear⟩

/-- Of two texts the one with less left is the shorter one also when they are joined. -/
theorem length_joined_lt {rest : List Char} (joinable : Joinable behind text)
    (joinable' : Joinable behind rest) (shorter : rest.length < text.length) :
    (joined behind rest).length < (joined behind text).length := by
  have nonempty : text ≠ [] := by
    rintro rfl
    exact absurd shorter (Nat.not_lt_zero _)
  rw [joinable.length_joined nonempty]
  by_cases empty : rest = []
  · subst empty
    have le := (skipFrom_suffix false behind).length_le
    change (Sdl.skipBlank behind).length < _
    rw [Sdl.skipBlank]
    omega
  · rw [joinable'.length_joined empty]
    omega

end Joinable

/-! ### What the joined text begins with -/

/-- What holds of the first text holds also of the joined one. -/
def Lasts (behind : List Char) (follows : List Char → Prop) : Prop :=
  ∀ text, Joinable behind text → follows text → follows (joined behind text)

/-- Words that may be missing are avoided in the joined text if they are in the first one.
-/
theorem lasts_avoids {behind : List Char} {words : List String} (known : words ⊆ openers) :
    Lasts behind (Avoids words) := by
  intro text joinable avoids word mem
  by_cases empty : text = []
  · subst empty
    exact joinable.clear word (known mem)
  · have single : '\n' ∉ word.toList := by
      have all : ∀ word ∈ openers, '\n' ∉ word.toList := by decide
      exact all word (known mem)
    rw [joinable.joined_eq empty, prefix_joined_iff single]
    exact avoids word mem

/-- A word that the first text begins with begins the joined one. -/
theorem lasts_begun {behind : List Char} {word : List Char} (nonempty : word ≠ []) :
    Lasts behind (word <+: ·) := by
  intro text joinable begins
  have some : text ≠ [] := by
    rintro rfl
    exact nonempty (List.prefix_nil.mp begins)
  rw [joinable.joined_eq some]
  exact begins.trans (List.prefix_append _ _)

/-! ### Readers that look at a token -/

/-- On every text but the empty one, the second reader does to the joined text what the
first one does to the first text, with all places moved. -/
def Exact {α : Type} [Moves α] (behind : List Char) (first second : Reader α) : Prop :=
  ∀ text, Joinable behind text → text ≠ [] →
    (second (joined behind text)).result =
      (first text).result.map (Prod.map (moved (behind.length + 1)) (joined behind)) ∧
    ∀ a rest, (first text).result = some (a, rest) → Joinable behind rest

namespace Exact

variable {α β : Type} [Moves α] [Moves β] {behind : List Char} {first second : Reader α}

/-- Tokens are exact if the function that takes them is. -/
theorem lexeme {take take' : List Char → Option (α × List Char)}
    (same : ∀ text, KeepsStrings text behind → take' (text ++ '\n' :: behind) =
      (take text).map (Prod.map (moved (behind.length + 1)) (· ++ '\n' :: behind)))
    (keeps : ∀ text a rest, KeepsStrings text behind → take text = some (a, rest) →
      KeepsStrings rest behind) : Exact behind (lexeme take) (lexeme take') := by
  intro text joinable nonempty
  constructor
  · simp only [Sdl.lexeme]
    rw [joinable.joined_eq nonempty, same text joinable.strings, Option.map_map, Option.map_map]
    refine congrArg (Option.map · (take text)) (funext fun (a, rest) => ?_)
    exact congrArg (Prod.mk _) (skipFrom_joined behind false rest)
  · intro a rest found
    obtain ⟨⟨b, left⟩, taken, eq⟩ := Option.map_eq_some_iff.mp found
    cases eq
    exact joinable.skipBlank (keeps _ _ _ joinable.strings taken)

theorem rule (exact : Exact behind first second) : Exact behind (rule first) (rule second) := by
  intro text joinable nonempty
  simp only [result_rule]
  exact exact text joinable nonempty

/-- A choice is exact if both readers are. -/
theorem orElse {first' second' : Reader α} (one : Exact behind first second)
    (two : Exact behind first' second') :
    Exact behind (orElse first first') (orElse second second') := by
  intro text joinable nonempty
  obtain ⟨same, left⟩ := one text joinable nonempty
  obtain ⟨same', left'⟩ := two text joinable nonempty
  simp only [result_orElse, same, same']
  constructor
  · rw [Option.map_or]
  · intro a rest found
    rcases Option.or_eq_some_iff.mp found with found | ⟨-, found⟩
    · exact left a rest found
    · exact left' a rest found

/-- A value is exact where it is moved. -/
theorem done {a a' : α} (same : a' = moved (behind.length + 1) a) :
    Exact behind (Reader.done a) (Reader.done a') := by
  rintro text joinable -
  refine ⟨same ▸ rfl, ?_⟩
  rintro _ _ ⟨⟩
  exact joinable

/-- One of several words, each of which stands for a value. -/
theorem firstOf {ι : Type} {choices : List ι} {read read' : ι → Reader α}
    (each : ∀ choice ∈ choices, Exact behind (read choice) (read' choice)) :
    Exact behind (firstOf (choices.map read)) (firstOf (choices.map read')) := by
  induction choices with
  | nil =>
    rintro text joinable nonempty
    exact ⟨rfl, fun _ _ found => nomatch found⟩
  | cons choice others ih =>
    have first := each choice List.mem_cons_self
    cases others with
    | nil => exact first
    | cons other others =>
      exact first.orElse (ih fun choice mem => each choice (List.mem_cons_of_mem _ mem))

/-- A value in the place of the one that is read. -/
theorem andThen_done {f f' : α → β}
    (exact : Exact behind first second)
    (same : ∀ a, f' (moved (behind.length + 1) a) = moved (behind.length + 1) (f a)) :
    Exact behind (andThen first fun a => Reader.done (f a))
      (andThen second fun a => Reader.done (f' a)) := by
  intro text joinable nonempty
  obtain ⟨result, left⟩ := exact text joinable nonempty
  simp only [result_andThen, result_done, result]
  cases found : (first text).result with
  | none => exact ⟨rfl, fun _ _ found => nomatch found⟩
  | some taken =>
    obtain ⟨a, rest⟩ := taken
    refine ⟨?_, ?_⟩
    · simp only [Option.map_some, Prod.map_apply, Option.bind_some, same]
    · rintro _ _ ⟨⟩
      exact left a rest found

/-- Counting what is left gives the same place, moved. -/
theorem remaining {next next' : Nat → Reader α}
    (exact : ∀ left, Exact behind (next left) (next' (left + (behind.length + 1)))) :
    Exact behind (remaining >>= next) (Reader.remaining >>= next') := by
  intro text joinable nonempty
  change (next' (joined behind text).length (joined behind text)).result = _ ∧ _
  rw [joinable.length_joined nonempty]
  exact exact text.length text joinable nonempty

end Exact

/-! ### Readers that can be carried over -/

/-- Whatever the first reader takes from the first text, and what it leaves `follows`, the
second one takes from the joined text, with all places moved, and leaves the same. -/
def Carries {α : Type} [Moves α] (behind : List Char) (follows : List Char → Prop)
    (first second : Reader α) : Prop :=
  ∀ text, Joinable behind text → ∀ a rest, (first text).result = some (a, rest) →
    Joinable behind rest ∧ (follows rest →
      (second (joined behind text)).result =
        some (moved (behind.length + 1) a, joined behind rest))

/-- Whenever the reader takes something, it began where `first` holds. -/
def Begins {α : Type} (read : Reader α) (first : List Char → Prop) : Prop :=
  ∀ text a rest, (read text).result = some (a, rest) → first text

/-- Whenever the reader leaves what `last` holds of, it began where `first` holds. -/
def Precedes {α : Type} (read : Reader α) (last first : List Char → Prop) : Prop :=
  ∀ text a rest, (read text).result = some (a, rest) → last rest → first text

section Beginnings

variable {α β : Type} {read other : Reader α} {next : α → Reader β}
  {last first : List Char → Prop}

/-- A token begins where the function that takes it can. -/
theorem Begins.lexeme {take : List Char → Option (α × List Char)}
    (begins : ∀ text a rest, take text = some (a, rest) → first text) :
    Begins (lexeme take) first := by
  intro text a rest found
  obtain ⟨⟨b, left⟩, taken, -⟩ := Option.map_eq_some_iff.mp found
  exact begins text b left taken

theorem Begins.rule (begins : Begins read first) : Begins (rule read) first := by
  intro text a rest found
  rw [result_rule] at found
  exact begins text a rest found

theorem Begins.andThen (begins : Begins read first) : Begins (andThen read next) first := by
  intro text b rest found
  rw [result_andThen, Option.bind_eq_some_iff] at found
  obtain ⟨⟨a, middle⟩, found, -⟩ := found
  exact begins text a middle found

/-- A sequence begins where its first reader does. -/
theorem Begins.bind (begins : Begins read first) : Begins (read >>= next) first :=
  begins.andThen

/-- A choice begins where either reader does. -/
theorem Begins.orElse (one : Begins read first) (two : Begins other first) :
    Begins (orElse read other) first := by
  intro text a rest found
  rw [result_orElse, Option.or_eq_some_iff] at found
  rcases found with found | ⟨-, found⟩
  · exact one text a rest found
  · exact two text a rest found

theorem Begins.mono {other : List Char → Prop} (begins : Begins read first)
    (weaker : ∀ text, first text → other text) : Begins read other :=
  fun text a rest found => weaker text (begins text a rest found)

/-- The reader fails where it cannot begin. -/
theorem Begins.rejects {other : List Char → Prop} (begins : Begins read first)
    (apart : ∀ text, other text → ¬ first text) (text : List Char) (holds : other text) :
    (read text).result = none := by
  by_contra some
  obtain ⟨⟨a, rest⟩, found⟩ := Option.ne_none_iff_exists'.mp some
  exact apart text holds (begins text a rest found)

/-- Where a reader always begins, it begins whatever it leaves. -/
theorem Begins.precedes (begins : Begins read first) : Precedes read last first :=
  fun text a rest found _ => begins text a rest found

theorem Begins.of_precedes (precedes : Precedes read (fun _ => True) first) : Begins read first :=
  fun text a rest found => precedes text a rest found True.intro

theorem Precedes.done {a : α} (weaker : ∀ text, last text → first text) :
    Precedes (done a) last first := by
  rintro text _ _ ⟨⟩ holds
  exact weaker text holds

theorem Precedes.andThen_done {f : α → β} (precedes : Precedes read last first) :
    Precedes (Reader.andThen read fun a => Reader.done (f a)) last first := by
  intro text b rest found holds
  rw [result_andThen, Option.bind_eq_some_iff] at found
  obtain ⟨⟨a, middle⟩, found, eq⟩ := found
  cases eq
  exact precedes text a _ found holds

theorem Begins.remaining {next : Nat → Reader β} (begins : ∀ left, Begins (next left) first) :
    Begins (Reader.remaining >>= next) first :=
  fun text b rest found => begins text.length text b rest found

theorem Begins.firstOf {ι : Type} {choices : List ι} {read : ι → Reader α}
    (begins : ∀ choice ∈ choices, Begins (read choice) first) :
    Begins (firstOf (choices.map read)) first := by
  induction choices with
  | nil =>
    intro text a rest found
    cases found
  | cons choice others ih =>
    have one := begins choice List.mem_cons_self
    cases others with
    | nil => exact one
    | cons other others =>
      exact one.orElse (ih fun choice mem => begins choice (List.mem_cons_of_mem _ mem))

/-- What may be missing does not hide what comes behind it. -/
theorem Precedes.orElse_done {a : α} (begins : Begins read first)
    (precedes : ∀ a, Precedes (next a) last first) :
    Precedes (Reader.orElse read (Reader.done a) >>= next) last first := by
  intro text b rest found holds
  rw [result_bind, result_orElse] at found
  cases taken : (read text).result with
  | some taken' => exact begins text taken'.1 taken'.2 taken
  | none =>
    rw [taken] at found
    exact precedes a text b rest found holds

/-- A sequence whose first part may be missing begins where this part can, or what follows
it. -/
theorem Precedes.optional {next : Option α → Reader β} (begins : Begins read first)
    (precedes : ∀ a, Precedes (next a) last first) :
    Precedes (optional read >>= next) last first :=
  Precedes.orElse_done begins.andThen precedes

/-- Repeated values begin where one of them can, or what follows them. -/
theorem Precedes.many (begins : Begins read first) (weaker : ∀ text, last text → first text) :
    Precedes (many read) last first := by
  intro text values rest found holds
  cases taken : (read text).result with
  | some taken' => exact begins text taken'.1 taken'.2 taken
  | none =>
    rw [result_many_of_none taken] at found
    cases found
    exact weaker text holds

end Beginnings

namespace Carries

variable {α β : Type} [Moves α] [Moves β] {behind : List Char} {first second : Reader α}
  {follows : List Char → Prop}

/-- A reader that is exact and takes something carries over. -/
theorem of_exact (exact : Exact behind first second) (empty : (first []).result = none) :
    Carries behind follows first second := by
  intro text joinable a rest found
  have nonempty : text ≠ [] := by
    rintro rfl
    rw [empty] at found
    cases found
  obtain ⟨same, left⟩ := exact text joinable nonempty
  refine ⟨left a rest found, fun _ => ?_⟩
  rw [same, found]
  rfl

/-- An exact reader is carried over wherever it leaves some text. -/
theorem of_exact_forward (exact : Exact behind first second) (forward : Forward first) :
    Carries behind (· ≠ []) first second := by
  intro text joinable a rest found
  by_cases empty : text = []
  · subst empty
    obtain rfl := List.suffix_nil.mp (forward _ _ _ found)
    exact ⟨joinable, fun some => absurd rfl some⟩
  · obtain ⟨same, left⟩ := exact text joinable empty
    refine ⟨left a rest found, fun _ => ?_⟩
    rw [same, found]
    rfl

/-- A reader carries over in front of less. -/
theorem mono {follows' : List Char → Prop} (carries : Carries behind follows first second)
    (weaker : ∀ text, follows' text → follows text) : Carries behind follows' first second := by
  intro text joinable a rest found
  obtain ⟨left, same⟩ := carries text joinable a rest found
  exact ⟨left, fun holds => same (weaker rest holds)⟩

theorem done {a a' : α} (same : a' = moved (behind.length + 1) a) :
    Carries behind follows (done a) (done a') := by
  rintro text joinable _ _ ⟨⟩
  exact ⟨joinable, fun _ => same ▸ rfl⟩

theorem rule (carries : Carries behind follows first second) :
    Carries behind follows (rule first) (rule second) := by
  intro text joinable a rest found
  rw [result_rule] at found
  simpa only [result_rule] using carries text joinable a rest found

/-- A sequence carries over if what follows the first reader can begin there. -/
theorem bind {next next' : α → Reader β} {middle : List Char → Prop}
    (one : Carries behind middle first second)
    (two : ∀ a, Carries behind follows (next a) (next' (moved (behind.length + 1) a)))
    (between : ∀ a, Precedes (next a) follows middle) :
    Carries behind follows (first >>= next) (second >>= next') := by
  intro text joinable b rest found
  rw [result_bind, Option.bind_eq_some_iff] at found
  obtain ⟨⟨a, left⟩, firstFound, found⟩ := found
  obtain ⟨joinable', same⟩ := one text joinable a left firstFound
  obtain ⟨joinable'', same'⟩ := two a left joinable' b rest found
  refine ⟨joinable'', fun holds => ?_⟩
  rw [result_bind_of_some (same (between a left b rest found holds))]
  exact same' holds

/-- Nothing matters of what follows the first part. -/
theorem seq {next next' : α → Reader β} (one : Carries behind (fun _ => True) first second)
    (two : ∀ a, Carries behind follows (next a) (next' (moved (behind.length + 1) a))) :
    Carries behind follows (first >>= next) (second >>= next') :=
  one.bind two fun _ _ _ _ _ _ => True.intro

theorem andThen {next next' : α → Reader β} {middle : List Char → Prop}
    (one : Carries behind middle first second)
    (two : ∀ a, Carries behind follows (next a) (next' (moved (behind.length + 1) a)))
    (between : ∀ a, Precedes (next a) follows middle) :
    Carries behind follows (andThen first next) (andThen second next') :=
  one.bind two between

theorem remaining {next next' : Nat → Reader α}
    (carries : ∀ left, Carries behind follows (next left) (next' (left + (behind.length + 1))))
    (empty : ∀ left, (next left []).result = none) :
    Carries behind follows (Reader.remaining >>= next) (Reader.remaining >>= next') := by
  intro text joinable a rest found
  have nonempty : text ≠ [] := by
    rintro rfl
    exact absurd (found.symm.trans (empty 0)) (Option.some_ne_none _)
  obtain ⟨left, same⟩ := carries text.length text joinable a rest found
  refine ⟨left, fun holds => ?_⟩
  change (next' (joined behind text).length (joined behind text)).result = _
  rw [joinable.length_joined nonempty]
  exact same holds

/-- The second alternative is taken from the joined text only if the first one fails there,
too. -/
theorem orElse {first' second' : Reader α} (one : Carries behind follows first second)
    (two : Carries behind follows first' second')
    (apart : ∀ text, Joinable behind text → (first text).result = none → ∀ a rest,
      (first' text).result = some (a, rest) → follows rest →
        (second (joined behind text)).result = none) :
    Carries behind follows (orElse first first') (orElse second second') := by
  intro text joinable a rest found
  rw [result_orElse, Option.or_eq_some_iff] at found
  rw [result_orElse]
  rcases found with found | ⟨failed, found⟩
  · obtain ⟨left, same⟩ := one text joinable a rest found
    refine ⟨left, fun holds => ?_⟩
    rw [same holds]
    rfl
  · obtain ⟨left, same⟩ := two text joinable a rest found
    refine ⟨left, fun holds => ?_⟩
    rw [apart text joinable failed a rest found holds]
    exact same holds

/-- An exact reader fails on the joined text where it fails on the first one. -/
theorem orElse_of_exact {first' second' : Reader α} (exact : Exact behind first second)
    (empty : (first []).result = none) (empty' : (first' []).result = none)
    (two : Carries behind follows first' second') :
    Carries behind follows (Reader.orElse first first') (Reader.orElse second second') := by
  refine (of_exact exact empty).orElse two fun text joinable failed a rest found _ => ?_
  have nonempty : text ≠ [] := by
    rintro rfl
    rw [empty'] at found
    cases found
  rw [(exact text joinable nonempty).1, failed]
  rfl

/-- Alternatives that begin differently do not get in each other's way. -/
theorem orElse_of_begins {first' second' : Reader α} {start start' : List Char → Prop}
    (one : Carries behind follows first second) (two : Carries behind follows first' second')
    (begins : Begins second start) (begins' : Begins first' start')
    (lasts : Lasts behind start') (apart : ∀ text, start' text → ¬ start text) :
    Carries behind follows (Reader.orElse first first') (Reader.orElse second second') :=
  one.orElse two fun text joinable _ a rest found _ =>
    begins.rejects apart _ (lasts text joinable (begins' text a rest found))

/-- Where nothing was taken from the first text, nothing is taken from the joined one. -/
theorem orElse_done {a a' : α} (carries : Carries behind follows first second)
    (rejects : ∀ text, follows text → (second text).result = none)
    (lasts : Lasts behind follows) (same : a' = moved (behind.length + 1) a) :
    Carries behind follows (Reader.orElse first (Reader.done a))
      (Reader.orElse second (Reader.done a')) := by
  refine carries.orElse (.done same) ?_
  rintro text joinable - _ _ ⟨⟩ holds
  exact rejects _ (lasts text joinable holds)

theorem orEmpty {first second : Reader (List α)} (carries : Carries behind follows first second)
    (rejects : ∀ text, follows text → (second text).result = none)
    (lasts : Lasts behind follows) :
    Carries behind follows (orEmpty first) (orEmpty second) :=
  carries.orElse_done rejects lasts rfl

/-- What may be missing, and is there, does not help what must stand behind it. -/
theorem orEmpty_bind_eq_none {γ : Type} {first second : Reader (List α)} {next : List α → Reader γ}
    (carries : Carries behind follows first second) {text rest : List Char} {as : List α}
    (joinable : Joinable behind text) (found : (first text).result = some (as, rest))
    (holds : follows rest) (stops : ∀ as, (next as (joined behind rest)).result = none) :
    ((Sdl.orEmpty second >>= next) (joined behind text)).result = none := by
  have same := (carries text joinable as rest found).2 holds
  have taken : (Sdl.orEmpty second (joined behind text)).result =
      some (moved (behind.length + 1) as, joined behind rest) := by
    rw [Sdl.orEmpty, result_orElse, same]
    rfl
  rw [result_bind_of_some taken]
  exact stops _

/-- What may be missing carries over if it is not found in the second text. -/
theorem optional (carries : Carries behind follows first second)
    (rejects : ∀ text, follows text → (second text).result = none)
    (lasts : Lasts behind follows) :
    Carries behind follows (optional first) (optional second) := by
  have found : Carries behind follows (Reader.andThen first fun a => Reader.done (some a))
      (Reader.andThen second fun a => Reader.done (some a)) :=
    carries.andThen (fun _ => .done rfl) fun _ => .done fun _ holds => holds
  refine found.orElse_done (fun text holds => ?_) lasts rfl
  rw [result_andThen, rejects text holds]
  rfl

/-- Repeated values carry over if none begins with the second text. -/
theorem many {inner : List Char → Prop} (each : Carries behind inner first second)
    (begins : Begins first inner) (weaker : ∀ text, follows text → inner text)
    (rejects : ∀ text, follows text → (second text).result = none)
    (lasts : Lasts behind follows) : Carries behind follows (many first) (many second) := by
  intro text joinable values rest found
  have stops (text : List Char) (joinable : Joinable behind text) (holds : follows text) :
      (Reader.many second (joined behind text)).result = some ([], joined behind text) :=
    result_many_of_none (rejects _ (lasts text joinable holds))
  fun_induction Reader.many first text generalizing values with
  | case1 text stuck failed =>
    cases found
    exact ⟨joinable, stops _ joinable⟩
  | case2 text stuck a middle taken shorter others ih =>
    obtain ⟨⟨as, last⟩, later, eq⟩ := Option.map_eq_some_iff.mp found
    cases eq
    obtain ⟨joinable', same⟩ := each text joinable a middle (by rw [taken])
    obtain ⟨joinable'', same'⟩ := ih joinable' _ later
    refine ⟨joinable'', fun holds => ?_⟩
    have further := same (Precedes.many begins weaker _ _ _ later holds)
    rw [result_many_of_some further (joinable.length_joined_lt joinable' shorter), same' holds]
    rfl
  | case3 text stuck a middle taken same =>
    cases found
    exact ⟨joinable, stops _ joinable⟩

/-- So do one value and more. -/
theorem several {inner : List Char → Prop} (each : Carries behind inner first second)
    (begins : Begins first inner) (weaker : ∀ text, follows text → inner text)
    (rejects : ∀ text, follows text → (second text).result = none)
    (lasts : Lasts behind follows) :
    Carries behind follows (several first) (several second) := by
  refine each.andThen (fun a => ?_) fun a => ?_
  · refine (each.many begins weaker rejects lasts).andThen (fun _ => .done rfl) fun _ => ?_
    exact .done fun _ holds => holds
  · exact (Precedes.many begins weaker).andThen_done

end Carries

end SchemaTypings.Sdl
