import SchemaTypings.Files.Access
import SchemaTypings.Files.Path

/-!
# File trees

A file tree is what a file system holds: files and directories, each at a
location below the root, and the working directory from which relative paths are
taken. Paths are followed component by component; `.` stays, `..` goes up, and
every component but the last has to lead to a directory. Part of a tree is also what
becomes of writing in it, which may be refused or break off at any location.
-/

namespace SchemaTypings

/-- The names on the way from the root. -/
abbrev Location := List String

inductive Entry where
  | file (content : ByteArray)
  | directory

/-- What becomes of writing at a location. -/
inductive Writing where
  | done
  | refused
  /-- The file holds something else than it was to hold. -/
  | brokenOff (left : ByteArray)

/-- Files and directories by location, the working directory, and what becomes of writing. -/
structure FileTree where
  entries : List (Location × Entry)
  working : Location
  writing : Location → Writing := fun _ => .done

/-- Why a path leads nowhere: something on the way is missing, or it stands in the
way. -/
inductive PathError where
  | missing
  | blocked
deriving DecidableEq, Repr

namespace FileTree

/-! ### Locations -/

/-- What a location holds, if anything. The root is a directory. -/
def find? (tree : FileTree) (location : Location) : Option Entry :=
  if location.isEmpty then some .directory else tree.entries.lookup location

def put (tree : FileTree) (location : Location) (entry : Entry) : FileTree :=
  { tree with entries := (location, entry) :: tree.entries }

/-- Nothing if a location holds a directory, and otherwise what is wrong there. -/
def requireDirectory (tree : FileTree) (location : Location) : Except PathError Unit :=
  match tree.find? location with
  | some .directory => .ok ()
  | some (.file _) => .error .blocked
  | none => .error .missing

/-! ### Paths -/

def maxNameSize : Nat := 255

def maxPathSize : Nat := 4095

/-- A path that can be followed at all: not too long, and without the character
that ends paths for the system. -/
def isPathText (path : String) : Bool :=
  path.utf8ByteSize ≤ maxPathSize && !path.toList.contains '\x00'

/-- The location that one component leads to. -/
def follow (location : Location) (component : String) : Except PathError Location :=
  if component == "" || component == "." then .ok location
  else if component == ".." then .ok location.dropLast
  else if component.utf8ByteSize ≤ maxNameSize then .ok (location ++ [component])
  else .error .blocked

/-- The location that components lead to. It need not hold anything, but all
locations before it are directories. -/
def walk (tree : FileTree) : Location → List String → Except PathError Location
  | location, [] => .ok location
  | location, component :: rest => do
    tree.requireDirectory location
    let next ← follow location component
    walk tree next rest

/-- Where a path starts: at the root or in the working directory. -/
def origin (tree : FileTree) (path : String) : Location :=
  if Path.isAbsolute path then [] else tree.working

def locate (tree : FileTree) (path : String) : Except PathError Location :=
  if path.isEmpty then .error .missing
  else if !isPathText path then .error .blocked
  else tree.walk (tree.origin path) ((Path.components path.toList).map String.ofList)

/-- The directory and the name under which a path makes something new, given its
components. -/
def locateNew (tree : FileTree) (path : String) (components : List String) :
    Except PathError (Location × String) :=
  if path.isEmpty then .error .missing
  else if !isPathText path then .error .blocked
  else do
    let directory ← tree.walk (tree.origin path) components.dropLast
    tree.requireDirectory directory
    let name := components.getLast?.getD ""
    let next ← follow directory name
    if next == directory ++ [name] then return (directory, name) else .error .blocked

def entryAt? (tree : FileTree) (path : String) : Option Entry :=
  match tree.locate path with
  | .ok location => tree.find? location
  | .error _ => none

def isFile (tree : FileTree) (path : String) : Bool :=
  match tree.entryAt? path with
  | some (.file _) => true
  | _ => false

def isDirectory (tree : FileTree) (path : String) : Bool :=
  match tree.entryAt? path with
  | some .directory => true
  | _ => false

/-! ### Reading and writing -/

def readText (tree : FileTree) (path : String) : Option String :=
  match tree.entryAt? path with
  | some (.file content) => String.fromUTF8? content
  | _ => none

/-- Writes a file at a location. A write that fails may leave any content there. -/
def store (tree : FileTree) (location : Location) (content : ByteArray) : Bool × FileTree :=
  match tree.writing location with
  | .done => (true, tree.put location (.file content))
  | .refused => (false, tree)
  | .brokenOff left => (false, tree.put location (.file left))

/-- Writes a text to a file. Nothing changes where a directory has the name, or
where the directory for the file is missing. -/
def writeText (tree : FileTree) (path text : String) : Bool × FileTree :=
  match tree.locateNew path ((Path.components path.toList).map String.ofList) with
  | .error _ => (false, tree)
  | .ok (directory, name) =>
    let location := directory ++ [name]
    match tree.find? location with
    | some .directory => (false, tree)
    | _ => tree.store location text.toUTF8

/-- Components without the empty ones at the end. -/
def withoutTrailing (components : List String) : List String :=
  (components.reverse.dropWhile String.isEmpty).reverse

/-- Nothing if a directory can be made at a location, and otherwise what is wrong there. -/
def requireFree (tree : FileTree) (location : Location) : Except PathError Unit :=
  match tree.find? location, tree.writing location with
  | some _, _ => .error .blocked
  | none, .refused => .error .blocked
  | none, _ => .ok ()

def createDirectory (tree : FileTree) (path : String) : Except PathError FileTree := do
  let components := withoutTrailing ((Path.components path.toList).map String.ofList)
  let (directory, name) ← tree.locateNew path components
  tree.requireFree (directory ++ [name])
  return tree.put (directory ++ [name]) .directory

/-- A path and the directories it lies in, the innermost first. Every step makes
the path shorter, so `fuel` is the length of the path. -/
def enclosing : (fuel : Nat) → String → List String
  | 0, _ => []
  | fuel + 1, path => if path.isEmpty then [] else path :: enclosing fuel (Path.parent path)

/-- Makes the first of some directories, each of which lies in the next. An outer
one is made only if it is missing. -/
def createInnermost (tree : FileTree) : List String → Bool × FileTree
  | [] => (true, tree)
  | path :: outer =>
    match tree.createDirectory path with
    | .ok tree => (true, tree)
    | .error .blocked => (tree.isDirectory path, tree)
    | .error .missing =>
      match createInnermost tree outer with
      | (false, tree) => (false, tree)
      | (true, tree) =>
        match tree.createDirectory path with
        | .ok tree => (true, tree)
        | .error _ => (tree.isDirectory path, tree)

/-- Makes a directory and those it lies in, as far as they do not exist. -/
def createDirectories (tree : FileTree) (path : String) : Bool × FileTree :=
  tree.createInnermost (enclosing path.length path)

/-! ### Building and comparing -/

/-- The directories on the way to a location, the outermost first. -/
def wayTo : Location → List Location
  | [] => []
  | [_] => []
  | name :: rest => [name] :: (wayTo rest).map (name :: ·)

/-- A tree with a file at a location and the directories that lead to it. -/
def withFile (tree : FileTree) (location : Location) (content : ByteArray) : FileTree :=
  ((wayTo location).foldl (fun tree directory => tree.put directory .directory) tree).put location
    (.file content)

/-- A tree that holds no more than its working directory. -/
def bare (working : Location) : FileTree :=
  { entries := ((wayTo working) ++ [working]).map fun location => (location, .directory),
    working := working }

def fileAt? (tree : FileTree) (location : Location) : Option ByteArray :=
  match tree.find? location with
  | some (.file content) => some content
  | _ => none

/-- The files that are new in a tree, or hold something else than before. -/
def changedFiles (before after : FileTree) : List (Location × ByteArray) :=
  (after.entries.map Prod.fst).eraseDups.filterMap fun location =>
    match after.fileAt? location with
    | none => none
    | some content =>
      if before.fileAt? location == some content then none else some (location, content)

/-! ### Access -/

/-- File access to a tree, which changes with every write. -/
def access : FileAccess (StateM FileTree) where
  isFile path := do return (← get).isFile path
  readText path := do return (← get).readText path
  createDirectories path := modifyGet fun tree => tree.createDirectories path
  writeText path text := modifyGet fun tree => tree.writeText path text

end FileTree

end SchemaTypings
