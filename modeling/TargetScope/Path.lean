/-!
# Paths

A path is a root and a row of names.  Empty names and single dots carry no meaning and are dropped
when a path is read; a double dot is kept, since where it leads depends on the files.  Exactly two
slashes at the front are a root of their own.
-/

namespace TargetScope

/-- A path. -/
structure Path where
  /-- The slashes at the front: none, one or two. -/
  root : String := ""
  /-- The names. -/
  names : List String := []
deriving DecidableEq, Repr

namespace Path

/-- Cuts a text at its slashes. -/
def splitSlashes : List Char → List (List Char)
  | [] => [[]]
  | c :: rest =>
    if c = '/' then [] :: splitSlashes rest
    else
      match splitSlashes rest with
      | [] => [[c]]
      | name :: names => (c :: name) :: names

/-- The root of a path that is written with the given number of slashes at its front. -/
def rootOf (slashes : Nat) : String :=
  if slashes = 0 then "" else if slashes = 2 then "//" else "/"

/-- Reads a path. -/
def ofText (text : String) : Path where
  root := rootOf (text.toList.takeWhile (· = '/')).length
  names := ((splitSlashes text.toList).map String.ofList).filter fun n => n ≠ "" && n ≠ "."

/-- The written form of a path; the path without root and names is a single dot. -/
def text (p : Path) : String :=
  if p.root = "" ∧ p.names = [] then "." else p.root ++ "/".intercalate p.names

/-- The path begins at a root. -/
def isAbsolute (p : Path) : Bool :=
  p.root ≠ ""

/-- The path without its last name. -/
def parent (p : Path) : Path :=
  { p with names := p.names.dropLast }

/-- The path `q` as seen from the path `p`. -/
def join (p q : Path) : Path :=
  if q.isAbsolute then q else { p with names := p.names ++ q.names }

/-- The names with every double dot taken back together with the name before it; at the front, where
no name is left, it is dropped. -/
def collapse (names : List String) : List String :=
  names.foldl (fun seen n => if n = ".." then seen.dropLast else seen ++ [n]) []

/-- The path that a text means in the given directory, with no dots in it. -/
def absolute (directory text : String) : String :=
  let p := join (ofText directory) (ofText text)
  { p with names := collapse p.names }.text

end Path

end TargetScope
