import TargetScope.ScopeTree

/-!
# The owners of outer declarations

A name that is declared to belong to the module is owned by the root.  A name that is declared to
belong to an enclosing function is owned as in the innermost enclosing function that has a binding
of it: by that function, or, if the name is itself declared outer there, by the owner it has there;
where it belongs to the module there, the declaration is promoted to one for the module.  If no
enclosing function has a binding, the innermost one becomes the owner, or the root if there is none,
and the look-up is deferred to the time when the program runs.

Scopes are visited outermost first.  A declaration that is needed before its turn, as it can be in a
tree put together by hand, is settled at that moment.
-/

namespace TargetScope

/-- An outer declaration whose owner has been found. -/
structure Settlement where
  /-- The scope that holds the declaration. -/
  scope : Nat
  /-- The name. -/
  name : String
  /-- The role of the declaration afterwards. -/
  role : BindingRole
  /-- The owner of the name. -/
  owner : Nat
  /-- The role before the declaration was promoted. -/
  promotedFrom : Option BindingRole := none
  /-- No enclosing function has a binding of the name. -/
  deferred : Bool := false
deriving DecidableEq, Repr

/-- A tree in which some outer declarations have been settled. -/
structure Settling where
  /-- The tree. -/
  tree : ScopeTree
  /-- The settlements, in the order in which they were made. -/
  settlements : List Settlement := []
deriving DecidableEq, Repr

namespace Settling

/-- The look-up of a name in a scope was deferred when its declaration there was settled. -/
def isDeferred (s : Settling) (scope : Nat) (name : String) : Bool :=
  s.settlements.any fun p => p.scope = scope && p.name = name && p.deferred

/-- Settles the declaration `b` of the scope `home` with the given owner. -/
def settle (s : Settling) (home : Nat) (b : Binding) (owner : Nat) (deferred : Bool) :
    Settling where
  tree := s.tree.put home { b with owner := some owner }
  settlements := s.settlements ++
    [{ scope := home, name := b.name, role := b.role, owner,
       promotedFrom := b.promotedFrom, deferred }]

/-- Settles the declaration `b` of the scope `home` as the declaration `outer` of the scope `source`
has been settled. -/
def inherit (s : Settling) (home : Nat) (b : Binding) (source : Nat) (outer : Binding) :
    Settling :=
  let b := if outer.role = .outerModule then
      { b with role := .outerModule, promotedFrom := some b.role }
    else b
  s.settle home b (outer.owner.getD ScopeTree.rootIndex) (s.isDeferred source b.name)

/-- The owner of a name for which none of the functions around its declaration has a binding. -/
def fallbackOwner : List Scope → Nat
  | [] => ScopeTree.rootIndex
  | f :: _ => f.index

/-- Settles the declaration `b` of the scope `home`, given the functions around it, innermost
first, that have not been searched for a binding yet, and the owner in case none has one. -/
def settleOuter : List Scope → (home : Nat) → (b : Binding) → (fallback : Nat) → Settling →
    Settling
  | [], home, b, fallback, s => s.settle home b fallback true
  | f :: around, home, b, fallback, s =>
    match s.tree.binding? f.index b.name with
    | none => settleOuter around home b fallback s
    | some outer =>
      if outer.isOuter then
        if outer.owner.isSome then s.inherit home b f.index outer
        else
          let s :=
            if outer.role = .outerModule then s.settle f.index outer ScopeTree.rootIndex false
            else settleOuter around f.index outer (fallbackOwner around) s
          match s.tree.binding? f.index b.name with
          | some outer => s.inherit home b f.index outer
          | none => s
      else s.settle home b f.index false

/-- Settles the declaration `b` of the scope `home`. -/
def settleDeclaration (s : Settling) (home : Scope) (b : Binding) : Settling :=
  if b.role = .outerModule then s.settle home.index b ScopeTree.rootIndex false
  else
    let around := s.tree.enclosingFunctions home
    settleOuter around home.index b (fallbackOwner around) s

/-- Settles the declaration of a name in the scope at the place `i`, if there is one that is not
settled yet. -/
def settleName (s : Settling) (i : Nat) (name : String) : Settling :=
  match s.tree.scope? i with
  | none => s
  | some home =>
    match home.binding? name with
    | some b => if b.isOuter && b.owner.isNone then s.settleDeclaration home b else s
    | none => s

/-- Settles the outer declarations of the scope at the place `i`, in the order of its bindings. -/
def settleScope (s : Settling) (i : Nat) : Settling :=
  match s.tree.scope? i with
  | none => s
  | some home => (home.bindings.map Binding.name).foldl (fun s name => s.settleName i name) s

end Settling

/-- Settles the outer declarations of a tree, scope by scope. -/
def ScopeTree.settleOuterDeclarations (t : ScopeTree) : Settling :=
  t.preorder.foldl Settling.settleScope { tree := t }

end TargetScope
