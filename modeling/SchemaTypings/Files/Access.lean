/-!
# Access to files

The few things the commands do with files, for whatever holds the files: a value
of type `FileTree` or the file system of a machine.
-/

namespace SchemaTypings

/-- Operations on files. Each reports whether it succeeded and says no more. -/
structure FileAccess (m : Type → Type) where
  /-- Whether a path names a file. -/
  isFile : (path : String) → m Bool
  /-- The text of a file, unless it cannot be read or is no text. -/
  readText : (path : String) → m (Option String)
  /-- Makes a directory and those it lies in, as far as they do not exist. -/
  createDirectories : (path : String) → m Bool
  /-- Replaces the content of a file, or makes the file. -/
  writeText : (path text : String) → m Bool

end SchemaTypings
