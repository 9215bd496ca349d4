import SchemaTypings.Command.Run

/-!
# The program

Runs a command on the files of the machine.
-/

namespace SchemaTypings

def succeeds (action : IO Unit) : IO Bool := do
  try
    action
    return true
  catch _ => return false

/-- Whether there is a file that may not be read. Below a directory there is the directory
itself, and below a file there is nothing. -/
def isLockedFile (path : String) : IO Bool := do
  try
    let _ ← IO.FS.readBinFile (path ++ "/.")
    return false
  catch
    | .inappropriateType .. => return true
    | _ => return false

/-- File access to the machine. Whether a path names a file is found out by reading it, so
a device that can be read counts as one. -/
def machineFiles : FileAccess IO where
  isFile path := do
    try
      let _ ← IO.FS.readBinFile path
      return true
    catch
      | .permissionDenied .. => isLockedFile path
      | _ => return false
  readText path := do
    try
      return String.fromUTF8? (← IO.FS.readBinFile path)
    catch _ => return none
  createDirectories path := succeeds do
    if !path.isEmpty then IO.FS.createDirAll path
  writeText path text := succeeds (IO.FS.writeFile path text)

end SchemaTypings

/-- Runs the command that the arguments ask for. -/
def main (arguments : List String) : IO UInt32 := do
  let outcome ← SchemaTypings.Command.run SchemaTypings.machineFiles arguments
  let printed := outcome.print
  IO.print printed.stdout
  IO.eprint printed.stderr
  return outcome.status.toUInt32
