/-!
# Paths

A path is a text whose components are separated by slashes. Paths are joined and
cut as texts: nothing is looked up, and nothing is brought to a normal form.
-/

namespace SchemaTypings.Path

def isAbsolute (path : String) : Bool :=
  ['/'].isPrefixOf path.toList

/-- The path `second`, taken from the directory `first`. An absolute path is not
taken from anywhere, and one slash stands between two parts. -/
def join (first second : String) : String :=
  if isAbsolute second || first.isEmpty then second
  else if first.toList.getLast? == some '/' then first ++ second
  else first ++ "/" ++ second

/-! ### The directory of a path -/

/-- A path read backwards, without the slashes and the components `.` it ends
with. The first character of a path is kept, be it the root or a leading `.`. -/
def trimBack : List Char → List Char
  | '/' :: rest => if rest.isEmpty then ['/'] else trimBack rest
  | '.' :: '/' :: rest => if rest.isEmpty then ['/'] else trimBack rest
  | path => path

/-- The directory that holds what a path names: the path without its last
component. The directory of a single component is the empty path, and so is that
of the root. -/
def parent (path : String) : String :=
  match trimBack path.toList.reverse with
  | ['/'] => ""
  | back => String.ofList (trimBack (back.dropWhile (· != '/'))).reverse

/-! ### Components -/

/-- The components of a path between its slashes. -/
def components (path : List Char) : List (List Char) := path.splitOn '/'

end SchemaTypings.Path
