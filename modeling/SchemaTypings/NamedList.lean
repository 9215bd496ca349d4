/-!
# Lists of named things

Schemas and field lists keep their members in the order in which they were first
added, with at most one member of each name. Adding a member under a name that
is taken replaces the old member where it stands.
-/

namespace SchemaTypings

/-- Things that carry the name they are looked up by. -/
class Named (α : Type) where
  name : α → String

/-- Members in the order of first insertion, no two of one name. -/
structure NamedList (α : Type) [Named α] where
  toList : List α
  distinct : (toList.map Named.name).Nodup

namespace NamedList

variable {α : Type} [Named α]

/-! ### Placing a member -/

/-- Puts `a` in the place of the member of its name, or at the end. -/
def place (a : α) : List α → List α
  | [] => [a]
  | b :: rest => if Named.name b = Named.name a then a :: rest else b :: place a rest

/-- Placing adds a name only if it is new, and then at the end. -/
theorem map_name_place (a : α) (xs : List α) :
    (place a xs).map Named.name
      = if Named.name a ∈ xs.map Named.name then xs.map Named.name
        else xs.map Named.name ++ [Named.name a] := by
  induction xs with
  | nil => simp [place]
  | cons b rest ih =>
    by_cases same : Named.name b = Named.name a
    · simp [place, same]
    · have other : ¬ Named.name a = Named.name b := fun h => same h.symm
      simp only [place, same, if_false, List.map_cons, ih, List.mem_cons, other, false_or]
      split <;> simp

/-- Putting a member in its place keeps the names distinct. -/
theorem nodup_place (a : α) {xs : List α} (distinct : (xs.map Named.name).Nodup) :
    ((place a xs).map Named.name).Nodup := by
  rw [map_name_place]
  split
  · exact distinct
  · next fresh =>
    refine List.nodup_append.mpr ⟨distinct, by simp, ?_⟩
    intro x mem y last
    rw [List.mem_singleton] at last
    intro eq
    exact fresh (last ▸ eq ▸ mem)

/-! ### Operations -/

def empty : NamedList α := ⟨[], by simp⟩

instance : Inhabited (NamedList α) := ⟨empty⟩

/-- Adds a member; one of the same name is replaced where it stands. -/
def insert (xs : NamedList α) (a : α) : NamedList α :=
  ⟨place a xs.toList, nodup_place a xs.distinct⟩

def find? (xs : NamedList α) (name : String) : Option α :=
  xs.toList.find? fun a => Named.name a == name

def contains (xs : NamedList α) (name : String) : Bool :=
  xs.toList.any fun a => Named.name a == name

/-- Adds a member and gives back the one it displaced. -/
def exchange (xs : NamedList α) (a : α) : Option α × NamedList α :=
  (xs.find? (Named.name a), xs.insert a)

/-- Members inserted one after the other. -/
def ofList (members : List α) : NamedList α :=
  members.foldl insert empty

def names (xs : NamedList α) : List String :=
  xs.toList.map Named.name

def size (xs : NamedList α) : Nat :=
  xs.toList.length

def isEmpty (xs : NamedList α) : Bool :=
  xs.toList.isEmpty

/-- Both hold the same members, in whatever order; members are compared by `same`. -/
def sameMembers (same : α → α → Bool) (xs ys : NamedList α) : Bool :=
  xs.size == ys.size && xs.toList.all fun a => (ys.find? (Named.name a)).any (same a)

/-! ### What insertion does to the view -/

@[simp]
theorem toList_empty : (empty : NamedList α).toList = [] := rfl

@[simp]
theorem toList_insert (xs : NamedList α) (a : α) : (xs.insert a).toList = place a xs.toList := rfl

/-- A new name goes behind the others, and a name that is taken stays in its place. -/
theorem names_insert (xs : NamedList α) (a : α) :
    (xs.insert a).names
      = if Named.name a ∈ xs.names then xs.names else xs.names ++ [Named.name a] :=
  map_name_place a xs.toList

/-- After an insertion the name of the new member leads to it, and every other name
leads to what it led to before. -/
theorem find?_insert (xs : NamedList α) (a : α) (name : String) :
    (xs.insert a).find? name = if Named.name a = name then some a else xs.find? name := by
  obtain ⟨members, distinct⟩ := xs
  simp only [find?, toList_insert]
  clear distinct
  induction members with
  | nil => by_cases h : Named.name a = name <;> simp [place, h]
  | cons b rest ih =>
    by_cases same : Named.name b = Named.name a
    · by_cases h : Named.name a = name <;> simp [place, same, h]
    · by_cases found : Named.name b = name
      · have other : ¬ Named.name a = name := fun h => same (found.trans h.symm)
        rw [place, if_neg same]
        simp [found, other]
      · rw [place, if_neg same]
        simp [found, ih]

/-- Lists are equal if they hold the same members in the same order. -/
@[ext]
theorem ext {xs ys : NamedList α} (same : xs.toList = ys.toList) : xs = ys := by
  cases xs
  cases ys
  cases same
  rfl

theorem nodup_names (xs : NamedList α) : xs.names.Nodup := xs.distinct

/-- A name is taken if a member has it. -/
theorem contains_iff {xs : NamedList α} {name : String} : xs.contains name ↔ name ∈ xs.names := by
  simp [contains, names]

/-- A name leads to no member exactly if it is not among the names. -/
theorem find?_eq_none_iff {xs : NamedList α} {name : String} :
    xs.find? name = none ↔ name ∉ xs.names := by
  simp [find?, names, List.find?_eq_none]

/-- Inserting under a new name appends. -/
theorem place_of_not_mem {a : α} {xs : List α} (fresh : Named.name a ∉ xs.map Named.name) :
    place a xs = xs ++ [a] := by
  induction xs with
  | nil => rfl
  | cons b rest ih =>
    rw [List.map_cons, List.mem_cons, not_or] at fresh
    rw [place, if_neg fun h => fresh.1 h.symm, ih fresh.2, List.cons_append]

/-- A member of a new name comes behind the others. -/
theorem toList_insert_of_not_mem {xs : NamedList α} {a : α} (fresh : Named.name a ∉ xs.names) :
    (xs.insert a).toList = xs.toList ++ [a] :=
  place_of_not_mem fresh

/-- Members of different names are inserted in order, behind those that are there. -/
theorem toList_foldl_insert {xs : NamedList α} {members : List α}
    (distinct : (xs.names ++ members.map Named.name).Nodup) :
    (members.foldl insert xs).toList = xs.toList ++ members := by
  induction members generalizing xs with
  | nil => simp
  | cons a rest ih =>
    have fresh : Named.name a ∉ xs.names := by
      rw [List.nodup_append] at distinct
      exact fun taken => distinct.2.2 _ taken _ List.mem_cons_self rfl
    have names : (xs.insert a).names = xs.names ++ [Named.name a] := by
      rw [names_insert, if_neg fresh]
    rw [List.foldl_cons, ih (by simpa [names] using distinct), toList_insert_of_not_mem fresh]
    simp

/-- Members of distinct names stay as they are. -/
theorem toList_ofList {members : List α} (distinct : (members.map Named.name).Nodup) :
    (ofList members).toList = members :=
  toList_foldl_insert distinct

end NamedList

end SchemaTypings
