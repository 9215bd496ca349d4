import Mathlib.Data.Finset.Card
import Mathlib.Data.List.Induction
import Mathlib.Data.List.Nodup
import SchemaTypings.Schema

/-!
# Named lists and their histories

A name leads to the one member that has it. A schema lists its definitions, and a record
its fields, as a history of insertions left them: each name where it was first inserted,
with what was last inserted under it. An insertion gives back the member whose place it
takes, so nothing is lost unseen.
-/

namespace SchemaTypings

namespace NamedList

variable {α : Type} [Named α]

/-! ### What names lead to -/

section Lookups

variable {xs ys : NamedList α} {name : String} {a : α}

/-- A name leads to the one member that has it. -/
theorem find?_eq_some_iff : xs.find? name = some a ↔ a ∈ xs.toList ∧ Named.name a = name := by
  constructor
  · intro found
    exact ⟨List.mem_of_find?_eq_some found, by simpa using List.find?_some found⟩
  · rintro ⟨mem, rfl⟩
    cases found : xs.find? (Named.name a) with
    | none => exact absurd (List.mem_map_of_mem mem) (find?_eq_none_iff.mp found)
    | some b =>
      have same : Named.name b = Named.name a := by simpa using List.find?_some found
      rw [List.inj_on_of_nodup_map xs.distinct (List.mem_of_find?_eq_some found) mem same]

/-- Lists that have the same members of a name lead the name to the same member. -/
theorem find?_congr (same : ∀ a, Named.name a = name → (a ∈ xs.toList ↔ a ∈ ys.toList)) :
    xs.find? name = ys.find? name := by
  refine Option.ext fun a => ?_
  rw [find?_eq_some_iff, find?_eq_some_iff]
  exact and_congr_left (same a)

end Lookups

/-! ### One insertion -/

/-- Putting a member among others displaces the one of its name, whose place it takes. A
member of a new name goes behind the others and displaces none. -/
inductive Displaces (a : α) : List α → Option α → List α → Prop where
  | fresh {members : List α} : Named.name a ∉ members.map Named.name →
      Displaces a members none (members ++ [a])
  | taken {front back : List α} {b : α} : Named.name b = Named.name a →
      Displaces a (front ++ b :: back) (some b) (front ++ a :: back)

/-- A member takes the place of the one of its name. -/
theorem place_append_cons {a b : α} {front : List α} (same : Named.name b = Named.name a)
    (others : ∀ c ∈ front, Named.name c ≠ Named.name a) (back : List α) :
    place a (front ++ b :: back) = front ++ a :: back := by
  induction front with
  | nil => exact if_pos same
  | cons c front ih =>
    obtain ⟨other, others⟩ := List.forall_mem_cons.mp others
    rw [List.cons_append, place, if_neg other, ih others, List.cons_append]

/-- What is displaced is what is given back. -/
theorem displaces_exchange (xs : NamedList α) (a : α) :
    Displaces a xs.toList (xs.exchange a).1 (xs.exchange a).2.toList := by
  change Displaces a xs.toList (xs.find? (Named.name a)) (place a xs.toList)
  cases found : xs.find? (Named.name a) with
  | none =>
    have fresh := find?_eq_none_iff.mp found
    rw [place_of_not_mem fresh]
    exact .fresh fresh
  | some b =>
    obtain ⟨same, front, back, split, others⟩ := List.find?_eq_some_iff_append.mp found
    have same : Named.name b = Named.name a := by simpa using same
    rw [split, place_append_cons same (fun c mem => by simpa using others c mem)]
    exact .taken same

/-! ### Histories -/

def lastNamed (history : List α) (name : String) : Option α :=
  history.reverse.find? fun a => Named.name a == name

/-- The latest member is the last one of its name. -/
theorem lastNamed_concat (history : List α) (a : α) (name : String) :
    lastNamed (history ++ [a]) name =
      if Named.name a = name then some a else lastNamed history name := by
  by_cases same : Named.name a = name
  · simp [lastNamed, same]
  · simp [lastNamed, same]

theorem lastNamed_eq_none_iff {history : List α} {name : String} :
    lastNamed history name = none ↔ name ∉ history.map Named.name := by
  simp [lastNamed, List.find?_eq_none]

/-- A list holds what a history of insertions comes to. -/
structure Collects (history : List α) (xs : NamedList α) : Prop where
  /-- Names are visited in the order of first insertion, and none of them twice. -/
  names : xs.names = (history.map Named.name).eraseDups
  distinct : xs.names.Nodup
  /-- A name leads to the last member inserted with it. -/
  find? : ∀ name, xs.find? name = lastNamed history name
  /-- A member is the last one inserted with its name. -/
  members : ∀ a ∈ xs.toList, lastNamed history (Named.name a) = some a
  size : xs.size = (history.map Named.name).toFinset.card

/-- A name that was there adds nothing to the distinct names. -/
theorem eraseDups_concat (names : List String) (name : String) :
    (names ++ [name]).eraseDups =
      if name ∈ names then names.eraseDups else names.eraseDups ++ [name] := by
  rw [List.eraseDups_append]
  by_cases taken : name ∈ names
  · simp [List.removeAll, taken]
  · simp [List.removeAll, taken, List.eraseDups_cons]

/-- A history goes on from what it came to so far. -/
theorem ofList_append (history later : List α) :
    ofList (history ++ later) = later.foldl insert (ofList history) :=
  List.foldl_append

theorem ofList_concat (history : List α) (a : α) :
    ofList (history ++ [a]) = (ofList history).insert a :=
  ofList_append history [a]

/-- The names of a history are there in the order in which they came. -/
theorem names_ofList (history : List α) :
    (ofList history).names = (history.map Named.name).eraseDups := by
  induction history using List.reverseRecOn with
  | nil => rfl
  | append_singleton history a ih =>
    rw [ofList_concat, names_insert, ih, List.map_append, List.map_singleton, eraseDups_concat]
    simp only [List.mem_eraseDups]

/-- The last member of a name is found. -/
theorem find?_ofList (history : List α) (name : String) :
    (ofList history).find? name = lastNamed history name := by
  induction history using List.reverseRecOn with
  | nil => rfl
  | append_singleton history a ih => rw [ofList_concat, find?_insert, ih, lastNamed_concat]

/-- A history of insertions is collected. -/
theorem collects_ofList (history : List α) : Collects history (ofList history) where
  names := names_ofList history
  distinct := nodup_names _
  find? := find?_ofList history
  members := by
    intro a mem
    rw [← find?_ofList, find?_eq_some_iff]
    exact ⟨mem, rfl⟩
  size := by
    have same : (ofList history).names.toFinset = (history.map Named.name).toFinset := by
      ext name
      rw [List.mem_toFinset, List.mem_toFinset, names_ofList, List.mem_eraseDups]
    rw [← same, List.toFinset_card_of_nodup (nodup_names _), names, List.length_map, size]

/-! ### Keys -/

/-- Puts a member under a key; if the key is there, in its place. -/
def placeUnder (key : String) (a : α) : List (String × α) → List (String × α)
  | [] => [(key, a)]
  | entry :: rest => if entry.1 = key then (key, a) :: rest else entry :: placeUnder key a rest

/-- The members with their names as keys. -/
def entries (xs : NamedList α) : List (String × α) :=
  xs.toList.map fun a => (Named.name a, a)

/-- Inserting a member is putting it under its name. -/
theorem entries_insert (xs : NamedList α) (a : α) :
    (xs.insert a).entries = placeUnder (Named.name a) a xs.entries := by
  obtain ⟨members, distinct⟩ := xs
  simp only [entries, toList_insert]
  clear distinct
  induction members with
  | nil => rfl
  | cons b rest ih =>
    rw [place, List.map_cons, placeUnder]
    split
    · rfl
    · rw [List.map_cons, ih]

/-- Members that are put under their names are known by their names ever after. -/
theorem entries_ofList (history : List α) :
    (ofList history).entries =
      history.foldl (fun entries a => placeUnder (Named.name a) a entries) [] := by
  induction history using List.reverseRecOn with
  | nil => rfl
  | append_singleton history a ih =>
    rw [ofList_concat, entries_insert, ih, List.foldl_append]
    rfl

end NamedList

/-! ### Records -/

namespace Record

/-- What a record is given after its name. -/
inductive Part where
  | field (name : String) (type : TypeRef)
  | interface (name : String)
deriving DecidableEq, Repr

/-- The field that is given. -/
def Part.field? : Part → Option Field
  | field name type => some ⟨name, type⟩
  | interface _ => none

def add (record : Record) : Part → Record
  | .field name type => record.withField name type
  | .interface name => record.implementing name

/-- A record that is given these parts one after the other. -/
def build (name : String) (parts : List Part) : Record :=
  parts.foldl add (ofName name)

/-- The fields of a record are a history of their own, whatever comes between them. -/
theorem fields_build (name : String) (parts : List Part) :
    (build name parts).fields = .ofList (parts.filterMap Part.field?) := by
  induction parts using List.reverseRecOn with
  | nil => rfl
  | append_singleton parts part ih =>
    have last : build name (parts ++ [part]) = (build name parts).add part := by
      rw [build, List.foldl_append]
      rfl
    rw [last, List.filterMap_append]
    cases part with
    | field name type =>
      have given : [Part.field name type].filterMap Part.field? = [⟨name, type⟩] := rfl
      rw [given, NamedList.ofList_concat, ← ih]
      rfl
    | interface name =>
      have given : [Part.interface name].filterMap Part.field? = [] := rfl
      rw [given, List.append_nil, ← ih]
      rfl

end Record

/-! ### The main result -/

/-- A schema visits each name of its history once, in the order of first insertion, with
the definition that was last inserted under it, however the definitions were inserted. Had
they been put under their names as keys of their own, each key would still be the name of
its definition. Each insertion gives back the definition that it displaces, and none exactly
if the name is new. The fields that a record is given obey the same law. -/
theorem insertions_keep_order (history : List Definition) (name : String)
    (parts : List Record.Part) :
    let schema : Schema := .ofList history
    NamedList.Collects history schema ∧
    schema.entries =
      history.foldl (fun entries definition =>
        NamedList.placeUnder definition.name definition entries) [] ∧
    (∀ later : List Definition, later.foldl NamedList.insert schema = .ofList (history ++ later) ∧
      later.foldl (fun schema definition => (schema.exchange definition).2) schema =
        .ofList (history ++ later)) ∧
    (∀ next : Definition,
      NamedList.Displaces next schema.toList (schema.exchange next).1
        (schema.exchange next).2.toList ∧
      (schema.exchange next).1 = NamedList.lastNamed history next.name ∧
      ((schema.exchange next).1 = none ↔ next.name ∉ history.map Definition.name)) ∧
    NamedList.Collects (parts.filterMap Record.Part.field?) (Record.build name parts).fields := by
  intro schema
  have last (next : Definition) :
      (schema.exchange next).1 = NamedList.lastNamed history next.name :=
    NamedList.find?_ofList history next.name
  refine ⟨NamedList.collects_ofList history, NamedList.entries_ofList history, ?later, ?next,
    ?fields⟩
  case later =>
    intro later
    have inserted := (NamedList.ofList_append history later).symm
    exact ⟨inserted, inserted⟩
  case next =>
    intro next
    refine ⟨schema.displaces_exchange next, last next, ?_⟩
    rw [last]
    exact NamedList.lastNamed_eq_none_iff
  case fields =>
    rw [Record.fields_build]
    exact NamedList.collects_ofList _

end SchemaTypings
