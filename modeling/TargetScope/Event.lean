import TargetScope.Scope
import TargetScope.ScopeTree

/-!
# Events

A parser describes a compilation unit by a stream of events: it enters a scope, mentions a name in
the scope it is in, or leaves that scope.
-/

namespace TargetScope

/-- The ways in which a name can be mentioned. -/
inductive Mention where
  /-- As a parameter. -/
  | parameter
  /-- As the variable of an iteration. -/
  | iteration
  /-- As the target of a plain assignment. -/
  | assignment
  /-- In a declaration of its type. -/
  | typeDeclaration
  /-- In a declaration that it belongs to an enclosing function. -/
  | outerFunction
  /-- In a declaration that it belongs to the module. -/
  | outerModule
  /-- As the target of an augmented or inline assignment. -/
  | target (operator : Operator)
deriving DecidableEq, Repr

/-- What happens at an event. -/
inductive Action where
  /-- A scope is entered. -/
  | enter (kind : ScopeKind) (label : Option String) (position : Option Position)
  /-- A name is mentioned. -/
  | mention (name : String) (how : Mention) (position : Option Position)
  /-- The innermost open scope is left. -/
  | exit
deriving DecidableEq, Repr

/-- One event of a stream. -/
structure Event where
  /-- What happens. -/
  action : Action
  /-- The place in the event file where the event is written. -/
  origin : Option Position := none
deriving DecidableEq, Repr

/-! ## The written form of events -/

/-- The words for the kinds of scopes.  The first word of a kind is the one that is written. -/
def ScopeKind.keywords : List (String × ScopeKind) :=
  [("module", .moduleBody), ("class", .classBody), ("function", .functionBody),
    ("def", .functionBody), ("lambda", .closure), ("closure", .closure),
    ("comprehension", .comprehension), ("genexpr", .comprehension)]

/-- The words for the ways to mention a name. -/
def Mention.keywords : List (String × Mention) :=
  [("param", .parameter), ("iter", .iteration), ("bind", .assignment),
    ("declare", .typeDeclaration), ("nonlocal", .outerFunction), ("global", .outerModule),
    ("aug", .target .augmented), ("walrus", .target .inline)]

/-- The kind of scope for which a word stands. -/
def ScopeKind.ofKeyword? (word : String) : Option ScopeKind :=
  keywords.lookup word

/-- The way to mention a name for which a word stands. -/
def Mention.ofKeyword? (word : String) : Option Mention :=
  keywords.lookup word

/-- The word that is written for a kind of scope. -/
def ScopeKind.keyword : ScopeKind → String
  | moduleBody => "module"
  | classBody => "class"
  | functionBody => "function"
  | closure => "lambda"
  | comprehension => "comprehension"

/-- The word that is written for a way to mention a name. -/
def Mention.keyword : Mention → String
  | parameter => "param"
  | iteration => "iter"
  | assignment => "bind"
  | typeDeclaration => "declare"
  | outerFunction => "nonlocal"
  | outerModule => "global"
  | target .augmented => "aug"
  | target .inline => "walrus"

@[simp] theorem ScopeKind.ofKeyword?_keyword (k : ScopeKind) : ofKeyword? k.keyword = some k := by
  cases k <;> decide

@[simp] theorem Mention.ofKeyword?_keyword (m : Mention) : ofKeyword? m.keyword = some m := by
  rcases m with _ | _ | _ | _ | _ | _ | (_ | _) <;> decide

/-- The words of a position: none, or one that begins with an at sign. -/
def positionWords : Option Position → List String
  | none => []
  | some p => ["@" ++ p.text]

/-- The words of an event.  An empty label is left out, and the end of a scope has no position. -/
def Action.words : Action → List String
  | enter kind label position =>
    "enter" :: kind.keyword :: ((label.filter (· ≠ "")).toList ++ positionWords position)
  | mention name how position => how.keyword :: name :: positionWords position
  | exit => ["exit"]

/-- The line that is written for an event. -/
def Action.text (a : Action) : String :=
  " ".intercalate a.words

end TargetScope
