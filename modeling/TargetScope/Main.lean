import Std.Time
import TargetScope.Command.Run

/-!
# The program

The program takes the files, the working directory, the time and the environment from the system,
runs the command on them, and hands back what the command leaves behind.
-/

namespace TargetScope.Main

/-- The variable of the environment that names the mode for command lines that choose none. -/
def modeVariable : String := "TR_COMPAT_MODE"

/-- The number of characters that a text can have. -/
def longest : Nat := 9223372036854775807

/-- The number of scopes inside each other that an outline has room for. -/
def nesting : Nat := 993

/-- The number by which the system says that a directory is no file. -/
def directoryCode : UInt32 := 21

/-- The reason that the system gives for a failure to read a file.  A type that does not fit is
that of a directory in the place of a file, or of a file on the way to one. -/
def faultOf : IO.Error → FileFault
  | .noFileOrDirectory _ _ _ => .notFound
  | .inappropriateType _ code _ => if code = directoryCode then .isDirectory else .notDirectory
  | .permissionDenied _ _ details => .system details
  | .resourceExhausted _ _ details => .system details
  | .invalidArgument _ _ details => .system details
  | e => .system (toString e)

/-- Reads the file at a path. -/
def readFile (path : String) : IO (Except FileFault ByteArray) := do
  try
    return .ok (← IO.FS.readBinFile path)
  catch e =>
    return .error (faultOf e)

/-- Reads the files at some paths; at every other path the result finds nothing. -/
def readFiles (paths : List String) : IO FileSource := do
  let contents ← paths.mapM fun path => return (path, ← readFile path)
  return fun path => (contents.lookup path).getD (.error .notFound)

end TargetScope.Main

open TargetScope in
/-- Runs the command.  The event file has to be read before it is known which source file it
names, so the files are read in two rounds. -/
def main (args : List String) : IO UInt32 := do
  let first ← Main.readFiles (Command.wantedPaths (fun _ => .error .notFound) args)
  let files ← Main.readFiles (Command.wantedPaths first args)
  let surroundings : Command.Surroundings :=
    { files := files.upTo Main.longest
      directory := (← IO.currentDir).toString
      time := (← Std.Time.PlainDateTime.now).format "uuuu-MM-dd HH:mm:ss"
      defaultMode := ← IO.getEnv Main.modeVariable
      longest := Main.longest
      nesting := Main.nesting
      size_le := FileSource.size_le_of_upTo }
  let result := Command.run surroundings args
  match result with
  | .ok outcome =>
    IO.print outcome.output
    IO.eprint outcome.errors
  | .error e => IO.eprintln e.message
  return (Command.status result).toUInt32
