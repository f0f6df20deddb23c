import TargetScope.Scope

/-!
# Scope trees

The scopes of one compilation unit stand in one list; a scope refers to its parent and to its
children by their places in that list, and the root stands first.  Beside the scopes the tree
lists the use sites: the places where a name is the target of an augmented or an inline
assignment.
-/

namespace TargetScope

/-- The two kinds of assignment that need an existing name. -/
inductive Operator where
  /-- An augmented assignment. -/
  | augmented
  /-- An inline assignment. -/
  | inline
deriving DecidableEq, Repr

/-- The phrase by which messages refer to an operator. -/
def Operator.describe : Operator → String
  | augmented => "augmented assignment"
  | inline => "inline assignment"

/-- A place where a name is the target of an augmented or an inline assignment. -/
structure UseSite where
  /-- The place of the site among the use sites of its tree. -/
  index : Nat
  /-- The target. -/
  name : String
  /-- The place of the scope in which the site stands, as it was recorded; a tree that was put
  together by hand may name a scope it does not hold. -/
  scope : Int
  /-- The assignment. -/
  operator : Operator
  /-- The place in the source. -/
  position : Option Position := none
  /-- The program-order number of the site. -/
  order : Int
deriving DecidableEq, Repr

/-- The scopes and the use sites of one compilation unit. -/
structure ScopeTree where
  /-- The name of the unit. -/
  unitName : Option String := none
  /-- The file to which the positions refer. -/
  filename : Option String := none
  /-- The scopes, in the order they were entered. -/
  scopes : List Scope := []
  /-- The use sites, in the order they were met. -/
  sites : List UseSite := []
deriving DecidableEq, Repr

namespace ScopeTree

/-- The place of the root of every tree that has a scope. -/
def rootIndex : Nat := 0

/-- The number of scopes. -/
def size (t : ScopeTree) : Nat :=
  t.scopes.length

/-- The scope at a place. -/
def scope? (t : ScopeTree) (i : Nat) : Option Scope :=
  t.scopes[i]?

/-- The scope at a place that may lie on either side of the tree. -/
def scopeAt? (t : ScopeTree) (i : Int) : Option Scope :=
  if 0 ≤ i then t.scope? i.toNat else none

/-- The binding of a name in the scope at a place. -/
def binding? (t : ScopeTree) (i : Nat) (name : String) : Option Binding :=
  (t.scope? i).bind fun s => s.binding? name

/-- The phrase for the scope at a place; a place that holds no scope is shown by its number. -/
def describe (t : ScopeTree) (i : Nat) : String :=
  match t.scope? i with
  | some s => s.describe
  | none => "scope #" ++ toString i

/-! ## Building a tree -/

/-- The tree with one more scope, which is also the last child of its parent. -/
def addScope (t : ScopeTree) (kind : ScopeKind) (parent : Option Nat) (label : Option String)
    (position : Option Position) : ScopeTree :=
  let scopes := t.scopes ++ [{ index := t.size, kind, parent, label, position }]
  { t with
    scopes := match parent with
      | none => scopes
      | some p => scopes.modify p fun s => { s with children := s.children ++ [t.size] } }

/-- The tree with one more use site. -/
def addSite (t : ScopeTree) (name : String) (scope : Int) (operator : Operator)
    (position : Option Position) (order : Int) : ScopeTree :=
  { t with
    sites := t.sites ++ [{ index := t.sites.length, name, scope, operator, position, order }] }

/-- The tree with the binding `b` in the scope at the place `i`. -/
def put (t : ScopeTree) (i : Nat) (b : Binding) : ScopeTree :=
  { t with scopes := t.scopes.modify i fun s => s.put b }

/-- The tree with another parent entered in the scope at the place `i`; the lists of children stay
as they are. -/
def setParent (t : ScopeTree) (i : Nat) (parent : Option Nat) : ScopeTree :=
  { t with scopes := t.scopes.modify i fun s => { s with parent } }

@[simp] theorem size_put (t : ScopeTree) (i : Nat) (b : Binding) : (t.put i b).size = t.size := by
  simp [size, put]

@[simp] theorem sites_put (t : ScopeTree) (i : Nat) (b : Binding) :
    (t.put i b).sites = t.sites := rfl

/-- Putting a binding into one scope leaves the other scopes alone. -/
theorem scope?_put (t : ScopeTree) (i j : Nat) (b : Binding) :
    (t.put i b).scope? j = if i = j then (t.scope? j).map (Scope.put · b) else t.scope? j := by
  simp only [scope?, put, List.getElem?_modify]
  split <;> simp

/-- Putting a binding into a scope changes no other binding. -/
theorem binding?_put (t : ScopeTree) {i : Nat} (b : Binding) (j : Nat) (name : String)
    (h : i < t.size) :
    (t.put i b).binding? j name =
      if i = j ∧ b.name = name then some b else t.binding? j name := by
  by_cases hij : i = j
  · subst hij
    have hs : t.scope? i = some t.scopes[i] := List.getElem?_eq_getElem h
    simp [binding?, scope?_put, hs]
  · simp [binding?, scope?_put, hij]

@[simp] theorem size_addSite (t : ScopeTree) (name : String) (scope : Int) (operator : Operator)
    (position : Option Position) (order : Int) :
    (t.addSite name scope operator position order).size = t.size := rfl

@[simp] theorem scope?_addSite (t : ScopeTree) (name : String) (scope : Int) (operator : Operator)
    (position : Option Position) (order : Int) (i : Nat) :
    (t.addSite name scope operator position order).scope? i = t.scope? i := rfl

@[simp] theorem size_addScope (t : ScopeTree) (kind : ScopeKind) (parent : Option Nat)
    (label : Option String) (position : Option Position) :
    (t.addScope kind parent label position).size = t.size + 1 := by
  cases parent <;> simp [size, addScope]

@[simp] theorem scopeAt?_natCast (t : ScopeTree) (i : Nat) : t.scopeAt? i = t.scope? i := by
  simp [scopeAt?]

/-! ## Walking a tree -/

/-- The enclosing scope. -/
def parentOf (t : ScopeTree) (s : Scope) : Option Scope :=
  s.parent.bind t.scope?

/-- A scope and at most `fuel` scopes around it, innermost first. -/
def chainFrom (t : ScopeTree) : Nat → Scope → List Scope
  | 0, s => [s]
  | fuel + 1, s =>
    s :: match t.parentOf s with
      | none => []
      | some p => t.chainFrom fuel p

/-- A scope and the scopes around it, innermost first.  No chain of distinct scopes is longer than
the tree. -/
def chain (t : ScopeTree) (s : Scope) : List Scope :=
  t.chainFrom t.size s

/-- The scopes around a scope, innermost first. -/
def ancestors (t : ScopeTree) (s : Scope) : List Scope :=
  (t.chain s).tail

theorem chain_eq_cons (t : ScopeTree) (s : Scope) : t.chain s = s :: t.ancestors s := by
  simp only [ancestors, chain]
  cases t.size <;> rfl

/-- The innermost block scope at or around a scope. -/
def nearestBlock (t : ScopeTree) (s : Scope) : Option Scope :=
  (t.chain s).find? fun c => c.kind.isBlock

/-- A block scope is its own nearest block. -/
theorem nearestBlock_of_isBlock (t : ScopeTree) {s : Scope} (h : s.kind.isBlock = true) :
    t.nearestBlock s = some s := by
  simp [nearestBlock, chain_eq_cons, h]

/-- The nearest block is a block scope. -/
theorem isBlock_of_nearestBlock {t : ScopeTree} {s block : Scope}
    (h : t.nearestBlock s = some block) : block.kind.isBlock = true :=
  List.find?_some (p := fun c : Scope => c.kind.isBlock) h

/-- The transparent scopes from a scope outward to its nearest block scope. -/
def transparentPath (t : ScopeTree) (s : Scope) : List Scope :=
  (t.chain s).takeWhile fun c => c.kind.isTransparent

/-- The functions around a scope, innermost first. -/
def enclosingFunctions (t : ScopeTree) (s : Scope) : List Scope :=
  (t.ancestors s).filter fun c => c.kind = .functionBody

/-- The place `i` and the places of the scopes inside it, each scope before its children, down to
the depth `fuel`. -/
def descend (t : ScopeTree) : Nat → Nat → List Nat
  | 0, _ => []
  | fuel + 1, i =>
    match t.scope? i with
    | none => []
    | some s => i :: s.children.flatMap (t.descend fuel)

/-- The places of the scopes under the root, each scope before its children.  No tree is deeper
than it has scopes. -/
def preorder (t : ScopeTree) : List Nat :=
  t.descend t.size rootIndex

/-- The use sites directly in a scope, in the order they were met. -/
def sitesIn (t : ScopeTree) (s : Scope) : List UseSite :=
  t.sites.filter fun u => u.scope = s.index

/-- The use sites in program order; sites of one number keep their order. -/
def sitesInOrder (t : ScopeTree) : List UseSite :=
  t.sites.mergeSort fun u v => u.order ≤ v.order

/-- The use sites whose target is the given name. -/
def sitesNamed (t : ScopeTree) (name : String) : List UseSite :=
  t.sites.filter fun u => u.name = name

end ScopeTree

end TargetScope
