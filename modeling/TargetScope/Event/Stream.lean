import TargetScope.Event.Directive
import TargetScope.Text.Line

/-!
# Event streams

An event file holds the events of one compilation unit, one on a line, and before them, in any
order, at most one header for the name of the unit and one for its source file.
-/

namespace TargetScope

open Text

/-- The events of one compilation unit, with the values of the headers. -/
structure EventStream where
  /-- The name of the unit. -/
  unitName : Option String := none
  /-- The source file to which the positions refer. -/
  source : Option String := none
  /-- The events, in the order of their lines. -/
  events : List Event := []
deriving DecidableEq, Repr

namespace EventStream

/-- The value of a header, if the stream has it. -/
def header? (s : EventStream) : HeaderKey → Option String
  | .unit => s.unitName
  | .source => s.source

/-- The stream with a header set. -/
def setHeader (s : EventStream) (key : HeaderKey) (value : String) : EventStream :=
  match key with
  | .unit => { s with unitName := some value }
  | .source => { s with source := some value }

/-- Enters a header.  It has to stand before the first event and may be given once; the name of a
unit is a dotted name. -/
def addHeader (s : EventStream) (line column : Nat) (key : HeaderKey) (value : Word) :
    Except ReadError EventStream :=
  if s.events ≠ [] then faultAt line column (.misplacedHeader key)
  else if (s.header? key).isSome then faultAt line column (.duplicateHeader key)
  else if key = .unit ∧ isDottedName value.text.toList = false then
    faultAt line value.column (.invalidUnitName value.text)
  else .ok (s.setHeader key value.text)

/-- Enters a directive whose first word stands at the given line and column. -/
def add (s : EventStream) (line column : Nat) : Directive → Except ReadError EventStream
  | .header key value => s.addHeader line column key value
  | .event action => .ok { s with events := s.events ++ [⟨action, some ⟨line, column⟩⟩] }

/-- Reads one more line, given with its number.  A line without words says nothing. -/
def readLine (s : EventStream) (line : List Char × Nat) : Except ReadError EventStream :=
  match words line.1 with
  | [] => .ok s
  | head :: args =>
    match readDirective line.2 head args with
    | .ok d => s.add line.2 head.column d
    | .error e => .error e

/-- Reads some numbered lines, one after the other, up to the first that has a fault. -/
def readLines : EventStream → List (List Char × Nat) → Except ReadError EventStream
  | s, [] => .ok s
  | s, line :: rest =>
    match s.readLine line with
    | .ok s => s.readLines rest
    | .error e => .error e

/-- Reads an event file.  Its lines are numbered from one. -/
def read (text : String) : Except ReadError EventStream :=
  readLines {} ((lines text.toList).zipIdx 1)

end EventStream

end TargetScope
