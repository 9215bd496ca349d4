import SchemaTypings.Files.Tree
import SchemaTypings.Proofs.Traversal

/-!
# Changes of a file tree

A file tree changes by entries that are put into it. Making directories puts
directories where nothing was, and writing a text puts one file. Where they are put
depends on which locations hold a file and which a directory, and on what becomes of
writing there, but not on what the files hold.
-/

namespace SchemaTypings

open Traversal

namespace FileTree

variable {tree tree' : FileTree} {location other : Location} {path : String}

/-! ### Trees after changes -/

/-- Entries that are put into a tree, the last one first. -/
abbrev Changes := List (Location × Entry)

def after (tree : FileTree) (changes : Changes) : FileTree :=
  { tree with entries := changes ++ tree.entries }

/-- Later changes lie on top of earlier ones. -/
theorem after_after {changes later : Changes} :
    (tree.after changes).after later = tree.after (later ++ changes) := by
  simp [after]

theorem put_eq_after {entry : Entry} : tree.put location entry = tree.after [(location, entry)] :=
  rfl

/-- What a location holds after changes is what was put there last, or else what it held
before. -/
theorem find?_after {changes : Changes} (below : location ≠ []) :
    (tree.after changes).find? location = (changes.lookup location).or (tree.find? location) := by
  simp [find?, after, below, List.lookup_append]

/-- A location holds what was put there. -/
theorem find?_put {entry : Entry} (below : location ≠ []) :
    (tree.put location entry).find? location = some entry := by
  simp [put_eq_after, find?_after below]

/-- Every other location holds what it held. -/
theorem find?_put_of_ne {entry : Entry} (ne : other ≠ location) :
    (tree.put location entry).find? other = tree.find? other := by
  by_cases root : other = []
  · simp [find?, root]
  · have differs : (other == location) = false := by simpa using ne
    simp [put_eq_after, find?_after root, List.lookup_cons, differs]

/-- The root is a directory. -/
theorem ne_nil_of_find? (tree : FileTree) (other : tree.find? location ≠ some .directory) :
    location ≠ [] := by
  rintro rfl
  exact other rfl

/-! ### Files and directories -/

/-- Two trees have the same directories, and files at the same locations, and the same
becomes of writing in them. -/
structure SameShape (tree tree' : FileTree) : Prop where
  working : tree.working = tree'.working
  writing : tree.writing = tree'.writing
  isDirectory : ∀ location, tree.find? location = some .directory ↔
    tree'.find? location = some .directory
  isFree : ∀ location, tree.find? location = none ↔ tree'.find? location = none

namespace SameShape

theorem refl (tree : FileTree) : SameShape tree tree :=
  ⟨rfl, rfl, fun _ => Iff.rfl, fun _ => Iff.rfl⟩

/-- The same changes leave the same shape. -/
theorem after (same : SameShape tree tree') (changes : Changes) :
    SameShape (tree.after changes) (tree'.after changes) where
  working := same.working
  writing := same.writing
  isDirectory location := by
    by_cases root : location = []
    · simp [find?, root]
    · rw [find?_after root, find?_after root]
      cases changes.lookup location with
      | none => exact same.isDirectory location
      | some entry => rfl
  isFree location := by
    by_cases root : location = []
    · simp [find?, root]
    · rw [find?_after root, find?_after root]
      cases changes.lookup location with
      | none => exact same.isFree location
      | some entry => simp

/-- Another content of a file leaves the shape. -/
theorem put_file {content content' : ByteArray}
    (file : tree.find? location = some (.file content)) :
    SameShape tree (tree.put location (.file content')) := by
  have below : location ≠ [] := ne_nil_of_find? tree (by simp [file])
  refine ⟨rfl, rfl, fun other => ?_, fun other => ?_⟩ <;> by_cases here : other = location
  · simp [here, find?_put below, file]
  · rw [find?_put_of_ne here]
  · simp [here, find?_put below, file]
  · rw [find?_put_of_ne here]

/-- Trees of one shape agree on where directories are. -/
theorem requireDirectory_eq (same : SameShape tree tree') (location : Location) :
    tree.requireDirectory location = tree'.requireDirectory location := by
  have directory := same.isDirectory location
  have free := same.isFree location
  unfold requireDirectory
  cases here : tree.find? location with
  | none => rw [free.mp here]
  | some entry =>
    cases entry with
    | directory => rw [directory.mp here]
    | file content =>
      cases there : tree'.find? location with
      | none => simp [free.mpr there] at here
      | some entry =>
        cases entry with
        | directory => simp [directory.mpr there] at here
        | file content => rfl

/-- Paths lead to the same places in trees of one shape. -/
theorem walk_eq (same : SameShape tree tree') (components : List String) :
    ∀ location, tree.walk location components = tree'.walk location components := by
  induction components with
  | nil => exact fun _ => rfl
  | cons component rest ih =>
    intro location
    simp only [walk, same.requireDirectory_eq, ih]

theorem origin_eq (same : SameShape tree tree') (path : String) :
    tree.origin path = tree'.origin path := by
  simp only [origin, same.working]

theorem locate_eq (same : SameShape tree tree') (path : String) :
    tree.locate path = tree'.locate path := by
  simp only [locate, same.origin_eq, same.walk_eq]

/-- New entries are made at the same places in trees of one shape. -/
theorem locateNew_eq (same : SameShape tree tree') (path : String) (components : List String) :
    tree.locateNew path components = tree'.locateNew path components := by
  simp only [locateNew, same.origin_eq, same.walk_eq, same.requireDirectory_eq]

/-- The same paths name directories in trees of one shape. -/
theorem isDirectory_eq (same : SameShape tree tree') (path : String) :
    tree.isDirectory path = tree'.isDirectory path := by
  unfold FileTree.isDirectory entryAt?
  rw [same.locate_eq]
  cases tree'.locate path with
  | error error => rfl
  | ok location =>
    simp only
    have directory := same.isDirectory location
    grind

end SameShape

/-! ### Making directories -/

/-- The location at which one directory can be made. -/
def newDirectory (tree : FileTree) (path : String) : Except PathError Location := do
  let (directory, name) ←
    tree.locateNew path (withoutTrailing ((Path.components path.toList).map String.ofList))
  tree.requireFree (directory ++ [name])
  return directory ++ [name]

/-- Making a directory is one change, at the location where it can be made. -/
theorem createDirectory_eq_map (tree : FileTree) (path : String) :
    tree.createDirectory path =
      (tree.newDirectory path).map fun location => tree.after [(location, .directory)] := by
  simp only [createDirectory, newDirectory]
  cases tree.locateNew path _ with
  | error error => rfl
  | ok found =>
    dsimp only [bind, Except.bind]
    cases tree.requireFree (found.1 ++ [found.2]) <;> rfl

theorem find?_of_requireFree (free : tree.requireFree location = .ok ()) :
    tree.find? location = none := by
  unfold requireFree at free
  split at free
  · cases free
  · cases free
  · assumption

/-- A directory is made only where nothing is. -/
theorem find?_newDirectory (new : tree.newDirectory path = .ok location) :
    tree.find? location = none := by
  obtain ⟨found, -, new⟩ := bind_eq_ok_iff.mp new
  obtain ⟨⟨⟩, free, new⟩ := bind_eq_ok_iff.mp new
  cases new
  exact find?_of_requireFree free

theorem SameShape.requireFree_eq (same : SameShape tree tree') (location : Location) :
    tree.requireFree location = tree'.requireFree location := by
  have free := same.isFree location
  unfold requireFree
  rw [same.writing]
  grind

/-- Directories can be made at the same places in trees of one shape. -/
theorem SameShape.newDirectory_eq (same : SameShape tree tree') (path : String) :
    tree.newDirectory path = tree'.newDirectory path := by
  unfold newDirectory
  simp only [same.locateNew_eq, same.requireFree_eq]

/-- Directories that are put where nothing is. -/
def MakesDirectories (tree : FileTree) (changes : Changes) : Prop :=
  ∀ change ∈ changes, change.2 = .directory ∧ tree.find? change.1 = none

/-- One more directory, on top of others. -/
theorem MakesDirectories.cons {changes : Changes} (made : tree.MakesDirectories changes)
    (new : (tree.after changes).newDirectory path = .ok location) :
    tree.MakesDirectories ((location, .directory) :: changes) := by
  have free := find?_newDirectory new
  have below : location ≠ [] := ne_nil_of_find? (tree.after changes) (by simp [free])
  rw [find?_after below, Option.or_eq_none_iff] at free
  exact List.forall_mem_cons.mpr ⟨⟨rfl, free.2⟩, made⟩

/-- A location holds what it held before, or a directory where nothing was. -/
def Keeps (before after : FileTree) (location : Location) : Prop :=
  after.find? location = before.find? location ∨
    before.find? location = none ∧ after.find? location = some .directory

/-- The files are kept. -/
theorem Keeps.fileAt?_eq (keeps : tree.Keeps tree' location) :
    tree'.fileAt? location = tree.fileAt? location := by
  unfold fileAt?
  obtain same | ⟨free, made⟩ := keeps
  · rw [same]
  · rw [free, made]

/-- New directories leave all that was there. -/
theorem MakesDirectories.keeps {changes : Changes} (made : tree.MakesDirectories changes)
    (location : Location) : tree.Keeps (tree.after changes) location := by
  by_cases root : location = []
  · exact .inl (by simp [find?, root])
  · unfold Keeps
    rw [find?_after root]
    cases here : changes.lookup location with
    | none => exact .inl rfl
    | some entry =>
      obtain ⟨later, earlier, rfl, -⟩ := List.lookup_eq_some_iff.mp here
      obtain ⟨rfl, free⟩ := made (location, entry) (by simp)
      exact .inr ⟨free, rfl⟩

/-- Directories are made alike in trees of the same shape. -/
theorem SameShape.createInnermost (same : SameShape tree tree') (paths : List String) :
    ∃ made changes, tree.createInnermost paths = (made, tree.after changes) ∧
      tree'.createInnermost paths = (made, tree'.after changes) ∧
      tree.MakesDirectories changes := by
  have none : tree.MakesDirectories [] := by simp [MakesDirectories]
  induction paths with
  | nil => exact ⟨true, [], rfl, rfl, none⟩
  | cons path outer ih =>
    simp only [FileTree.createInnermost, createDirectory_eq_map, ← same.newDirectory_eq]
    cases new : tree.newDirectory path with
    | ok location =>
      exact ⟨true, [(location, .directory)], rfl, rfl, none.cons new⟩
    | error error =>
      cases error with
      | blocked =>
        rw [same.isDirectory_eq]
        exact ⟨tree'.isDirectory path, [], rfl, rfl, none⟩
      | missing =>
        -- the outer directories come first, and the trees are of one shape behind them
        obtain ⟨made, changes, here, there, makes⟩ := ih
        simp only [Except.map, here, there]
        cases made with
        | false => exact ⟨false, changes, rfl, rfl, makes⟩
        | true =>
          dsimp only
          rw [← (same.after changes).newDirectory_eq, ← (same.after changes).isDirectory_eq]
          cases new : (tree.after changes).newDirectory path with
          | error error => exact ⟨_, changes, rfl, rfl, makes⟩
          | ok location =>
            simp only [after_after]
            exact ⟨true, (location, .directory) :: changes, rfl, rfl, makes.cons new⟩

/-! ### Writing a text -/

/-- The location at which a text can be written. -/
def newFile (tree : FileTree) (path : String) : Except PathError Location := do
  let (directory, name) ← tree.locateNew path ((Path.components path.toList).map String.ofList)
  match tree.find? (directory ++ [name]) with
  | some .directory => .error .blocked
  | _ => return directory ++ [name]

/-- Writing a text is storing it, at the location where it can be written. -/
theorem writeText_eq (tree : FileTree) (path text : String) :
    tree.writeText path text = match tree.newFile path with
      | .error _ => (false, tree)
      | .ok location => tree.store location text.toUTF8 := by
  unfold writeText newFile
  cases tree.locateNew path _ with
  | error error => rfl
  | ok found =>
    dsimp only [bind, Except.bind]
    cases tree.find? (found.1 ++ [found.2]) with
    | none => rfl
    | some entry => cases entry <;> rfl

/-- Texts can be written at the same places in trees of one shape. -/
theorem SameShape.newFile_eq (same : SameShape tree tree') (path : String) :
    tree.newFile path = tree'.newFile path := by
  unfold newFile
  rw [same.locateNew_eq]
  refine bind_congr fun found => ?_
  have directory := same.isDirectory (found.1 ++ [found.2])
  grind

/-- A text is written into a directory, and never in place of one. -/
theorem locateNew_of_newFile (new : tree.newFile path = .ok location) :
    tree.find? location ≠ some .directory ∧ ∃ directory name, location = directory ++ [name] ∧
      tree.locateNew path ((Path.components path.toList).map String.ofList) =
        .ok (directory, name) := by
  obtain ⟨⟨directory, name⟩, found, new⟩ := bind_eq_ok_iff.mp new
  dsimp only at new
  split at new
  · cases new
  · cases new
    exact ⟨‹_›, directory, name, rfl, found⟩

/-- A path is followed in two parts, one after the other. -/
theorem walk_append (tree : FileTree) (components last : List String) (start : Location) :
    tree.walk start (components ++ last) =
      (tree.walk start components).bind fun stop => tree.walk stop last := by
  induction components generalizing start with
  | nil => rfl
  | cons component rest ih =>
    simp only [List.cons_append, walk, ih]
    cases tree.requireDirectory start with
    | error error => rfl
    | ok _ => cases follow start component <;> rfl

/-- A path under which something new is made leads there. -/
theorem locate_of_locateNew {directory : Location} {name : String}
    (found : tree.locateNew path ((Path.components path.toList).map String.ofList) =
      .ok (directory, name)) : tree.locate path = .ok (directory ++ [name]) := by
  unfold locate
  unfold locateNew at found
  split at found
  · cases found
  rename_i full
  split at found
  · cases found
  rename_i isText
  rw [if_neg full, if_neg isText]
  have some : (Path.components path.toList).map String.ofList ≠ [] := by
    simp [Path.components, List.splitOn_ne_nil]
  obtain ⟨front, last, split⟩ := (List.eq_nil_or_concat' _).resolve_left some
  rw [split] at found ⊢
  simp only [List.dropLast_concat, List.getLast?_concat, Option.getD_some] at found
  obtain ⟨_, walked, found⟩ := bind_eq_ok_iff.mp found
  obtain ⟨⟨⟩, passed, found⟩ := bind_eq_ok_iff.mp found
  obtain ⟨next, followed, found⟩ := bind_eq_ok_iff.mp found
  split at found
  · rename_i isNext
    cases found
    obtain rfl := eq_of_beq isNext
    simp only [walk_append, walked, Except.bind, walk]
    rw [passed, followed]
    rfl
  · cases found

theorem requireDirectory_eq_ok_iff :
    tree.requireDirectory location = .ok () ↔ tree.find? location = some .directory := by
  unfold requireDirectory
  grind

/-- A new entry is not in the way where directories are passed. -/
theorem walk_put {entry : Entry} (other : tree.find? location ≠ some .directory)
    {components : List String} {start stop : Location}
    (walked : tree.walk start components = .ok stop) :
    (tree.put location entry).walk start components = .ok stop := by
  induction components generalizing start with
  | nil => exact walked
  | cons component rest ih =>
    obtain ⟨⟨⟩, passed, walked⟩ := bind_eq_ok_iff.mp walked
    obtain ⟨next, followed, walked⟩ := bind_eq_ok_iff.mp walked
    have passes : (tree.put location entry).requireDirectory start = .ok () := by
      rw [requireDirectory_eq_ok_iff] at passed ⊢
      rwa [find?_put_of_ne (by grind)]
    unfold walk
    rw [passes, followed]
    exact ih walked

/-- The path of a text leads to where it was written. -/
theorem locate_put_newFile {entry : Entry} (new : tree.newFile path = .ok location) :
    (tree.put location entry).locate path = .ok location := by
  obtain ⟨other, directory, name, rfl, found⟩ := locateNew_of_newFile new
  have led := locate_of_locateNew found
  unfold locate at led ⊢
  split at led
  · cases led
  rename_i full
  split at led
  · cases led
  rename_i isText
  rw [if_neg full, if_neg isText]
  exact walk_put other led

end FileTree

end SchemaTypings
