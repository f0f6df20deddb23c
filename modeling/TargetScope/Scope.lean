import TargetScope.Binding

/-!
# Scopes

A scope is a node of a scope tree.  Block scopes (modules, classes and functions) own names;
closures and comprehensions are transparent, their augmented and inline targets belong to a block
scope around them.
-/

namespace TargetScope

/-- The kinds of scopes. -/
inductive ScopeKind where
  /-- The body of a module. -/
  | moduleBody
  /-- The body of a class. -/
  | classBody
  /-- The body of a function. -/
  | functionBody
  /-- A closure expression. -/
  | closure
  /-- A comprehension or a generator expression. -/
  | comprehension
deriving DecidableEq, Repr

namespace ScopeKind

/-- The kinds of scopes that own names. -/
def isBlock : ScopeKind → Bool
  | moduleBody | classBody | functionBody => true
  | closure | comprehension => false

/-- The kinds of scopes whose targets belong to an enclosing block. -/
def isTransparent (k : ScopeKind) : Bool :=
  !k.isBlock

/-- The noun by which messages refer to a scope of the kind. -/
def noun : ScopeKind → String
  | moduleBody => "module"
  | classBody => "class"
  | functionBody => "function"
  | closure => "closure"
  | comprehension => "comprehension"

/-- The technical term for the kind. -/
def term : ScopeKind → String
  | moduleBody => "module"
  | classBody => "class"
  | functionBody => "function"
  | closure => "closure_expr"
  | comprehension => "comprehension_like"

end ScopeKind

/-- One scope of a tree. -/
structure Scope where
  /-- The place of the scope in its tree. -/
  index : Nat
  /-- The kind of the scope. -/
  kind : ScopeKind
  /-- The place of the enclosing scope. -/
  parent : Option Nat := none
  /-- The name of the unit, class or function whose body the scope is. -/
  label : Option String := none
  /-- The place in the source where the scope begins. -/
  position : Option Position := none
  /-- The places of the scopes directly inside, in the order they were entered. -/
  children : List Nat := []
  /-- The bindings, in the order in which their names were first met. -/
  bindings : List Binding := []
deriving DecidableEq, Repr

namespace Scope

/-- The phrase for a scope without a label: its noun with its position if it has one, else with its
place in the tree. -/
def describeUnlabelled (s : Scope) : String :=
  match s.position with
  | some p => s.kind.noun ++ " at " ++ p.text
  | none => s.kind.noun ++ " #" ++ toString s.index

/-- The phrase by which messages refer to a scope: its noun with its label, or the phrase for a
scope without a label if the label is missing or empty. -/
def describe (s : Scope) : String :=
  match s.label with
  | some label =>
    if label = "" then s.describeUnlabelled else s.kind.noun ++ " '" ++ label ++ "'"
  | none => s.describeUnlabelled

/-- The binding of a name in the scope. -/
def binding? (s : Scope) (name : String) : Option Binding :=
  s.bindings.find? fun b => b.name = name

/-- The scope with the binding `b` in place of the one of its name. -/
def put (s : Scope) (b : Binding) : Scope :=
  { s with bindings := b.putIn s.bindings }

@[simp] theorem binding?_put (s : Scope) (b : Binding) (name : String) :
    (s.put b).binding? name = if b.name = name then some b else s.binding? name :=
  Binding.find?_putIn b s.bindings name

@[simp] theorem index_put (s : Scope) (b : Binding) : (s.put b).index = s.index := rfl

@[simp] theorem kind_put (s : Scope) (b : Binding) : (s.put b).kind = s.kind := rfl

@[simp] theorem parent_put (s : Scope) (b : Binding) : (s.put b).parent = s.parent := rfl

@[simp] theorem children_put (s : Scope) (b : Binding) : (s.put b).children = s.children := rfl

@[simp] theorem describe_put (s : Scope) (b : Binding) : (s.put b).describe = s.describe := rfl

/-- The scope holds a parameter or an iteration variable of the name. -/
def blocks (s : Scope) (name : String) : Bool :=
  (s.binding? name).any Binding.isBlocking

end Scope

end TargetScope
