import TargetScope.Event
import TargetScope.Event.SyntaxError
import TargetScope.Text.Identifier
import TargetScope.Text.Word

/-!
# Directives

Each line of an event file that holds a word is a directive: a header, or an event.  The last word
of a directive is its position in the source if it begins with an at sign.
-/

namespace TargetScope

open Text

/-- One directive of an event file. -/
inductive Directive where
  /-- A header with its value. -/
  | header (key : HeaderKey) (value : Word)
  /-- An event. -/
  | event (action : Action)
deriving DecidableEq, Repr

/-- The failure to read a line because of a fault in the word at the given column. -/
def faultAt {α : Type} (line column : Nat) (fault : SyntaxFault) : Except ReadError α :=
  .error (.malformed ⟨fault, line, column⟩)

/-! ## Positions -/

/-- The digits of a number: at least one, and all of them ASCII digits. -/
def isNumeral (digits : List Char) : Bool :=
  digits ≠ [] && digits.all Char.isDigit

/-- The number that digits denote. -/
def numeralValue (digits : List Char) : Nat :=
  Nat.ofDigitChars 10 digits 0

/-- The parts of a text before and after its first colon. -/
def splitColon? (text : List Char) : Option (List Char × List Char) :=
  match text.dropWhile (· ≠ ':') with
  | [] => none
  | _ :: rest => some (text.takeWhile (· ≠ ':'), rest)

/-- The word begins like a position. -/
def startsPosition (w : Word) : Bool :=
  w.text.toList.head? = some '@'

/-- Reads a position: an at sign, a line, a colon and a column, both at least one. -/
def readPosition (line : Nat) (w : Word) : Except ReadError Position :=
  match splitColon? (w.text.toList.drop 1) with
  | none => faultAt line w.column (.malformedPosition w.text)
  | some (l, c) =>
    if isNumeral l && isNumeral c then
      if maxDigits < l.length then .error (.numberTooLong l.length)
      else if maxDigits < c.length then .error (.numberTooLong c.length)
      else if numeralValue l = 0 ∨ numeralValue c = 0 then
        faultAt line w.column (.positionOutOfRange w.text)
      else .ok ⟨numeralValue l, numeralValue c⟩
    else faultAt line w.column (.malformedPosition w.text)

/-- Takes the position off the end of the words that follow the first word of a line. -/
def takePosition (line : Nat) (args : List Word) :
    Except ReadError (List Word × Option Position) :=
  match args.getLast? with
  | none => .ok (args, none)
  | some w =>
    if startsPosition w then
      match readPosition line w with
      | .ok p => .ok (args.dropLast, some p)
      | .error e => .error e
    else .ok (args, none)

/-! ## Directives -/

/-- Requires that no word is left, and gives the result `a` then. -/
def atEnd {α : Type} (line : Nat) (rest : List Word) (a : α) : Except ReadError α :=
  match rest with
  | [] => .ok a
  | w :: _ => faultAt line w.column (.trailingWord w.text)

/-- Reads the rest of a header. -/
def readHeader (line : Nat) (head : Word) (key : HeaderKey) : List Word → Except ReadError Directive
  | [] => faultAt line head.column (.missingValue key)
  | value :: rest => atEnd line rest (.header key value)

/-- Reads the rest of a directive that enters a scope. -/
def readEnter (line : Nat) (head : Word) (position : Option Position) :
    List Word → Except ReadError Directive
  | [] => faultAt line head.column .missingKind
  | kindWord :: rest =>
    match ScopeKind.ofKeyword? kindWord.text, rest with
    | none, _ => faultAt line kindWord.column (.unknownKind kindWord.text)
    | some kind, [] => .ok (.event (.enter kind none position))
    | some kind, label :: rest =>
      if isDottedName label.text.toList then
        atEnd line rest (.event (.enter kind (some label.text) position))
      else faultAt line label.column (.invalidLabel label.text)

/-- Reads the rest of a directive that mentions a name. -/
def readMention (line : Nat) (head : Word) (how : Mention) (position : Option Position) :
    List Word → Except ReadError Directive
  | [] => faultAt line head.column (.missingName head.text)
  | name :: rest =>
    if isIdentifier name.text.toList then
      atEnd line rest (.event (.mention name.text how position))
    else faultAt line name.column (.invalidName name.text)

/-- Reads a directive whose position has been taken off. -/
def readBody (line : Nat) (head : Word) (args : List Word) (position : Option Position) :
    Except ReadError Directive :=
  match HeaderKey.ofKeyword? head.text with
  | some key => readHeader line head key args
  | none =>
    if head.text = "enter" then readEnter line head position args
    else if head.text = "exit" then atEnd line args (.event .exit)
    else
      match Mention.ofKeyword? head.text with
      | some how => readMention line head how position args
      | none => faultAt line head.column (.unknownDirective head.text)

/-- Reads the directive of a line with the given number, from its first word and the words that
follow. -/
def readDirective (line : Nat) (head : Word) (args : List Word) : Except ReadError Directive :=
  match takePosition line args with
  | .ok (args, position) => readBody line head args position
  | .error e => .error e

end TargetScope
