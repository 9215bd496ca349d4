import SchemaTypings.Proofs.Loading.Names
import SchemaTypings.Proofs.Loading.Progress

/-!
# Places of names

Every name in a document comes with the place where it was read. `Stand` says that the
names of a list stand in a text at their places and in their order. Each reader adds the
names of what it read to those before it, so the names of a document's types and fields
stand in its text.
-/

namespace SchemaTypings.Sdl

open Text Reader

/-! ### Names in a text -/

/-- On the way from the beginning of a text to its end `rest` the names stand at their
places, one after the other. Each is a whole name, which nothing behind it continues. -/
inductive Stand (rest : List Char) : List Char → List (Located String) → Prop where
  | nil {text : List Char} : rest <:+ text → Stand rest text []
  | cons {before after : List Char} {name : Located String} {names : List (Located String)} :
      IsName name.value → ¬ ContinuesName after →
      name.left = (name.value.toList ++ after).length → Stand rest after names →
      Stand rest (before ++ (name.value.toList ++ after)) (name :: names)

namespace Stand

variable {rest middle text : List Char} {names others : List (Located String)}

/-- Names that stand in the rest of a text stand in the text. -/
theorem of_suffix {after : List Char} (le : after <:+ text) (stand : Stand rest after names) :
    Stand rest text names := by
  obtain ⟨front, rfl⟩ := le
  cases stand with
  | nil le => exact .nil (le.trans (List.suffix_append _ _))
  | cons isName ends place stand =>
    rw [← List.append_assoc]
    exact .cons isName ends place stand

/-- What is left behind the names is the end of the text. -/
theorem suffix (stand : Stand rest text names) : rest <:+ text := by
  induction stand with
  | nil le => exact le
  | cons _ _ _ _ ih => exact (ih.trans (List.suffix_append _ _)).trans (List.suffix_append _ _)

/-- What stands on the way to some place stands on the way to the end. -/
theorem whole (stand : Stand rest text names) : Stand [] text names := by
  induction stand with
  | nil _ => exact .nil (List.nil_suffix)
  | cons isName ends place _ ih => exact .cons isName ends place ih

/-- Names on the way to the middle stand before those behind it. -/
theorem append (first : Stand middle text names) (second : Stand rest middle others) :
    Stand rest text (names ++ others) := by
  induction first with
  | nil le => exact second.of_suffix le
  | cons isName ends place _ ih => exact .cons isName ends place ih

/-- Some of the names stand where they stood. -/
theorem sublist (stand : Stand rest text names) (le : others.Sublist names) :
    Stand rest text others := by
  induction stand generalizing others with
  | nil whole =>
    rw [List.sublist_nil.mp le]
    exact .nil whole
  | cons isName ends place _ ih =>
    cases le with
    | cons _ le =>
      exact ((ih le).of_suffix (List.suffix_append _ _)).of_suffix (List.suffix_append _ _)
    | cons_cons _ le => exact .cons isName ends place (ih le)

/-- A name that stands in a text is a part of it. -/
theorem exists_split (stand : Stand rest text names) {name : Located String}
    (mem : name ∈ names) :
    ∃ before after, text = before ++ (name.value.toList ++ after) ∧
      name.left = (name.value.toList ++ after).length ∧ IsName name.value ∧
      ¬ ContinuesName after := by
  induction stand with
  | nil => cases mem
  | @cons before after first _ isName ends place _ ih =>
    cases mem with
    | head => exact ⟨before, after, rfl, place, isName, ends⟩
    | tail _ mem =>
      obtain ⟨front, back, rfl, facts⟩ := ih mem
      exact ⟨before ++ (first.value.toList ++ front), back, by simp, facts⟩

end Stand

/-! ### Readers and the names they read -/

/-- Behind the names that are `pending`, the reader leaves names that depend on its
value. -/
def Adds {α : Type} (read : Reader α) (pending : List (Located String))
    (names : α → List (Located String)) : Prop :=
  ∀ source text value rest, Stand text source pending →
    (read text).result = some (value, rest) → Stand rest source (names value)

namespace Adds

variable {α β : Type} {read first second : Reader α} {pending : List (Located String)}
  {names : α → List (Located String)} {places : β → List (Located String)}

/-- A reader that takes nothing adds nothing. -/
theorem done {a : α} (same : names a = pending) : Adds (done a) pending names := by
  rintro source text value rest stand ⟨⟩
  exact same.symm ▸ stand

/-- A reader that reads no names leaves those before it. -/
theorem of_forward (forward : Forward read) : Adds read pending fun _ => pending := by
  intro source text value rest stand found
  have further : Stand rest source (pending ++ []) := stand.append (.nil (forward _ _ _ found))
  rwa [List.append_nil] at further

/-- What is added does not depend on the names before. -/
theorem behind (adds : Adds read [] names) : Adds read pending fun a => pending ++ names a :=
  fun _ text value rest stand found =>
    stand.append (adds text text value rest (.nil List.suffix_rfl) found)

theorem andThen {next : α → Reader β} (one : Adds read pending names)
    (two : ∀ a, Adds (next a) (names a) places) : Adds (andThen read next) pending places := by
  intro source text value rest stand found
  rw [result_andThen, Option.bind_eq_some_iff] at found
  obtain ⟨⟨a, middle⟩, firstFound, found⟩ := found
  exact two a _ _ _ _ (one _ _ _ _ stand firstFound) found

/-- One reader adds its names behind those of the other. -/
theorem bind {next : α → Reader β} (one : Adds read pending names)
    (two : ∀ a, Adds (next a) (names a) places) : Adds (read >>= next) pending places :=
  one.andThen two

/-- The first reader reads no name that counts. -/
theorem seq {next : α → Reader β} (forward : Forward read)
    (two : ∀ a, Adds (next a) pending places) : Adds (read >>= next) pending places :=
  (of_forward forward).bind two

theorem rule (adds : Adds read pending names) : Adds (rule read) pending names := by
  intro source text value rest stand found
  rw [result_rule] at found
  exact adds _ _ _ _ stand found

theorem orElse (one : Adds first pending names) (two : Adds second pending names) :
    Adds (orElse first second) pending names := by
  intro source text value rest stand found
  rw [result_orElse, Option.or_eq_some_iff] at found
  rcases found with found | ⟨-, found⟩
  · exact one _ _ _ _ stand found
  · exact two _ _ _ _ stand found

theorem firstOf {reads : List (Reader α)} (each : ∀ read ∈ reads, Adds read pending names) :
    Adds (firstOf reads) pending names := by
  fun_induction Reader.firstOf reads with
  | case1 =>
    intro source text value rest stand found
    cases found
  | case2 read => exact each read List.mem_cons_self
  | case3 read others _ ih =>
    exact (each read List.mem_cons_self).orElse
      (ih fun other mem => each other (List.mem_cons_of_mem _ mem))

theorem optional {known : Option α → List (Located String)} (adds : Adds read pending (known ∘ some))
    (none : known none = pending) : Adds (optional read) pending known := by
  have found : Adds (Reader.andThen read fun a => Reader.done (some a)) pending known :=
    adds.andThen fun _ => done rfl
  exact found.orElse (done none)

/-- Repeated readers add the names of all values in order. -/
theorem many (adds : Adds read [] names) : Adds (many read) [] fun values => values.flatMap names := by
  intro source text values rest stand found
  fun_induction Reader.many read text generalizing source values with
  | case1 text stuck failed =>
    cases found
    exact stand
  | case2 text stuck a middle first shorter others ih =>
    obtain ⟨⟨as, last⟩, later, eq⟩ := Option.map_eq_some_iff.mp found
    cases eq
    have one := adds _ _ _ _ stand (by rw [first])
    exact one.append (ih _ _ (.nil List.suffix_rfl) later)
  | case3 text stuck a middle first same =>
    cases found
    exact stand

theorem several (adds : Adds read [] names) :
    Adds (several read) [] fun values => values.flatMap names :=
  adds.andThen fun _ => adds.many.behind.andThen fun _ => done rfl

end Adds

/-! ### Names that the grammar reads -/

/-- A name is added at its place. -/
theorem adds_name {pending : List (Located String)} :
    Adds name pending fun found => pending ++ [found] := by
  refine Adds.behind (.rule fun source text value rest stand found => ?_)
  obtain ⟨⟨found, left⟩, taken, eq⟩ := Option.map_eq_some_iff.mp found
  cases eq
  obtain ⟨⟨cs, behind⟩, isTaken, eq⟩ := Option.map_eq_some_iff.mp taken
  cases eq
  obtain ⟨split, ends⟩ := append_of_takeName isTaken
  have written : (String.ofList cs).toList ++ left = text := by rw [String.toList_ofList, split]
  have here := @Stand.cons (skipBlank left) [] left ⟨String.ofList cs, text.length⟩ []
    (isName_of_takeName isTaken) ends (by rw [written]) (.nil (skipFrom_suffix false left))
  rw [List.nil_append, written] at here
  exact here.of_suffix stand.suffix

theorem adds_field : Adds field [] fun member => [member.1.name] := by
  refine .rule (.seq forward_description fun _ => adds_name.bind fun name => ?_)
  exact .seq (forward_orEmpty forward_arguments) fun _ => .seq (forward_literal _) fun _ =>
    .seq forward_typeRef fun _ => .seq (forward_orEmpty forward_directives) fun _ => .done rfl

def memberPlaces (members : List (FieldDecl × List Number)) : List (Located String) :=
  members.flatMap fun member => [member.1.name]

theorem adds_fields : Adds fields [] memberPlaces :=
  .rule (.seq (forward_literal _) fun _ => adds_field.several.bind fun _ =>
    .seq (forward_literal _) fun _ => .done rfl)

section Bodies

variable {α : Type} {body : Reader α} {names : α → List (Located String)}

def bodyPlaces (names : α → List (Located String)) : Option α → List (Located String)
  | none => []
  | some a => names a

theorem adds_maybeDirectivesAnd (adds : Adds body [] names) :
    Adds (maybeDirectivesAnd body) [] fun rest => bodyPlaces names rest.2 :=
  .seq (forward_orEmpty forward_directives) fun _ =>
    (@Adds.optional _ body [] (bodyPlaces names) adds rfl).bind fun _ => .done rfl

theorem adds_directivesAnd (adds : Adds body [] names) :
    Adds (directivesAnd body) [] fun rest => bodyPlaces names rest.2 := by
  refine .orElse ?_ (.seq forward_directives fun _ => .done rfl)
  exact .seq (forward_orEmpty forward_directives) fun _ => adds.bind fun _ => .done rfl

end Bodies

/-- The names of a declaration and of its fields, in order. -/
def TypeDecl.places (declaration : TypeDecl) : List (Located String) :=
  declaration.name :: declaration.body.fields.map FieldDecl.name

/-- What follows the name of a declaration adds the names of its fields. -/
abbrev AddsFields (read : Reader Rest) : Prop :=
  Adds read [] fun rest => rest.1.fields.map FieldDecl.name

/-- A declaration adds its own name in front of those of its members. -/
theorem adds_declaration {keyword : String} {declared extended : Reader Rest}
    (adds : AddsFields declared) (adds' : AddsFields extended) :
    Adds (declaration keyword declared extended) [] fun found => found.1.places := by
  refine .rule (.orElse ?_ ?_)
  · have start : Adds (declaring keyword) [] fun name => [name] :=
      .seq forward_description fun _ => .seq (forward_literal _) fun _ => adds_name
    exact start.bind fun _ => adds.behind.bind fun _ => .done rfl
  · have start : Adds (extending keyword) [] fun name => [name] :=
      .seq forward_extend fun _ => .seq (forward_literal _) fun _ => adds_name
    exact start.bind fun _ => adds'.behind.bind fun _ => .done rfl

/-- A body without fields may be read by any reader. -/
theorem addsFields_of_eq_nil {α : Type} {read : Reader α} {rest : α → Rest}
    (forward : Forward read) (none : ∀ a, (rest a).1.fields = []) :
    AddsFields (do return rest (← read)) :=
  .seq forward fun a => .done (by simp [none a])

/-- Interfaces and then fields, however the fields are read. -/
theorem addsFields_record {make : List FieldDecl → List String → Body}
    {read : Reader (List Number × Option (List (FieldDecl × List Number)))}
    (own : ∀ fields interfaces, (make fields interfaces).fields = fields)
    (adds : Adds read [] fun rest => bodyPlaces memberPlaces rest.2) :
    AddsFields (do
      let implemented ← orEmpty interfaces
      return recordRest make implemented (← read)) := by
  refine .seq (forward_orEmpty forward_interfaces) fun implemented => adds.bind fun rest => .done ?_
  rw [recordRest, own]
  cases rest.2 with
  | none => rfl
  | some members =>
    show (members.map Prod.fst).map FieldDecl.name = memberPlaces members
    rw [List.map_map, List.map_eq_flatMap]
    rfl

/-- So does a type of any kind. -/
theorem adds_typeDeclaration : Adds typeDeclaration [] fun found => found.1.places := by
  have fields := adds_maybeDirectivesAnd adds_fields
  have fields' := adds_directivesAnd adds_fields
  refine .rule (.firstOf ?_)
  simp only [List.forall_mem_cons, List.not_mem_nil, false_implies, implies_true, and_true]
  refine ⟨?scalar, ?object, ?interface, ?union, ?enumeration, ?inputObject⟩
  case scalar =>
    apply adds_declaration
    · exact addsFields_of_eq_nil (forward_orEmpty forward_directives) fun _ => rfl
    · exact addsFields_of_eq_nil forward_directives fun _ => rfl
  case object =>
    apply adds_declaration
    · exact addsFields_record (fun _ _ => rfl) fields
    · refine .orElse (addsFields_record (fun _ _ => rfl) fields') ?_
      exact .seq forward_interfaces fun _ => .done rfl
  case interface =>
    apply adds_declaration
    · exact addsFields_record (fun _ _ => rfl) fields
    · exact addsFields_record (fun _ _ => rfl) fields'
  case union =>
    apply adds_declaration
    · exact addsFields_of_eq_nil (forward_maybeDirectivesAnd forward_unionMembers) fun _ => rfl
    · exact addsFields_of_eq_nil (forward_directivesAnd forward_unionMembers) fun _ => rfl
  case enumeration =>
    apply adds_declaration
    · exact addsFields_of_eq_nil (forward_maybeDirectivesAnd forward_enumValues) fun _ => rfl
    · exact addsFields_of_eq_nil (forward_directivesAnd forward_enumValues) fun _ => rfl
  case inputObject =>
    apply adds_declaration
    · exact addsFields_of_eq_nil (forward_maybeDirectivesAnd forward_inputFields) fun _ => rfl
    · exact addsFields_of_eq_nil (forward_directivesAnd forward_inputFields) fun _ => rfl

def Item.places : Item → List (Located String)
  | type declaration _ => declaration.places
  | _ => []

/-- And so does every part of a document. -/
theorem adds_item : Adds item [] Item.places := by
  refine .rule (.firstOf ?_)
  simp only [List.forall_mem_cons, List.not_mem_nil, false_implies, implies_true, and_true]
  refine ⟨(Adds.of_forward forward_schemaBlock).andThen fun _ => .done rfl,
    adds_typeDeclaration.andThen fun _ => .done rfl,
    (Adds.of_forward forward_directiveDeclaration).andThen fun _ => .done rfl⟩

theorem forward_endOfText : Forward endOfText := by
  refine .rule fun text value rest found => ?_
  cases text with
  | nil =>
    cases found
    exact List.suffix_rfl
  | cons c text => cases found

theorem forward_blank : Forward blank := by
  rintro text value rest ⟨⟩
  exact skipFrom_suffix false text

/-- The names of the types of a document and of their fields stand in its text, in order. -/
theorem stand_of_document {text rest : List Char} {items : Document}
    (read : (document text).result = some (items, rest)) :
    Stand rest text (items.types.flatMap TypeDecl.places) := by
  have adds : Adds document [] fun items => items.flatMap Item.places :=
    .rule (.seq forward_blank fun _ => adds_item.several.bind fun _ =>
      .seq forward_endOfText fun _ => .done rfl)
  have places (items : Document) :
      items.types.flatMap TypeDecl.places = items.flatMap Item.places := by
    induction items with
    | nil => rfl
    | cons item items ih =>
      cases item <;> simpa [Document.types, Item.places] using ih
  rw [places]
  exact adds _ _ _ _ (.nil List.suffix_rfl) read

end SchemaTypings.Sdl
