import TargetScope.Path
import TargetScope.Text.Line
import TargetScope.Text.Utf8

/-!
# Reading files

A source of files answers for each path with the bytes of the file there, or with the reason why
there are none to be had.
-/

namespace TargetScope

/-- The reasons why a file cannot be read as text. -/
inductive FileFault where
  /-- There is nothing at the path. -/
  | notFound
  /-- A directory is at the path. -/
  | isDirectory
  /-- The path goes through something that is no directory. -/
  | notDirectory
  /-- Any other reason that the system gives. -/
  | system (reason : String)
  /-- The bytes of the file are no text. -/
  | notUtf8 (fault : Text.Utf8Fault)
deriving DecidableEq, Repr

/-- The phrase for a reason. -/
def FileFault.reason : FileFault → String
  | notFound => "No such file or directory"
  | isDirectory => "Is a directory"
  | notDirectory => "Not a directory"
  | system reason => reason
  | notUtf8 fault =>
    "not valid utf-8 (byte 0x" ++ Text.hexByte fault.byte ++ " at offset " ++ toString fault.offset
      ++ ")"

/-- A source of files: for each path the bytes at that path. -/
abbrev FileSource := String → Except FileFault ByteArray

/-- Reads the file at a path as text.  Carriage returns, alone or before a line feed, become line
feeds. -/
def FileSource.readText (files : FileSource) (path : String) : Except FileFault String :=
  match files (Path.ofText path).text with
  | .error fault => .error fault
  | .ok bytes =>
    match Text.decodeUtf8 bytes with
    | .ok text => .ok (String.ofList (Text.normalizeNewlines text.toList))
    | .error fault => .error (.notUtf8 fault)

/-- The files of which the bytes are at most as many as given; the others are too large to be
read. -/
def FileSource.upTo (longest : Nat) (files : FileSource) : FileSource := fun path =>
  match files path with
  | .error fault => .error fault
  | .ok bytes => if bytes.size ≤ longest then .ok bytes else .error (.system "File too large")

theorem FileSource.size_le_of_upTo {longest : Nat} {files : FileSource} {path : String}
    {bytes : ByteArray} (h : files.upTo longest path = .ok bytes) : bytes.size ≤ longest := by
  rw [upTo] at h
  split at h
  · nomatch h
  · split at h
    · cases h
      assumption
    · nomatch h

/-! ## Files in memory -/

/-- A directory held in memory. -/
structure FileTree where
  /-- The files, by the names that lead to them from the directory. -/
  files : List (List String × ByteArray) := []
  /-- Directories, by the names that lead to them, beside those that hold a file. -/
  directories : List (List String) := []

namespace FileTree

/-- Some names lead to a directory: to the top, to a directory that is listed, or to one that holds
a file or a listed directory. -/
def isDirectory (t : FileTree) (names : List String) : Bool :=
  names.isEmpty || t.directories.any (names.isPrefixOf ·)
    || t.files.any fun f => names.isPrefixOf f.1 && names.length < f.1.length

/-- The bytes of the file to which some names lead. -/
def file? (t : FileTree) (names : List String) : Option ByteArray :=
  t.files.lookup names

/-- Follows names one after the other from a directory, given by the names that lead to it from the
top, or by `none` if it lies above the top; there, nothing is known but directories. -/
def follow (t : FileTree) : Option (List String) → List String → Except FileFault ByteArray
  | _, [] => .error .isDirectory
  | none, n :: rest => if n = ".." then t.follow none rest else .error .notFound
  | some seen, n :: rest =>
    if n = ".." then t.follow (if seen = [] then none else some seen.dropLast) rest
    else
      let names := seen ++ [n]
      match t.file? names with
      | some bytes => if rest = [] then .ok bytes else .error .notDirectory
      | none => if t.isDirectory names then t.follow (some names) rest else .error .notFound

/-- The files of a directory as seen from within it.  No absolute path leads into it. -/
def source (t : FileTree) : FileSource := fun path =>
  let p := Path.ofText path
  t.follow (if p.isAbsolute then none else some []) p.names

end FileTree

end TargetScope
