import TargetScope.InternalError
import TargetScope.Verdict

/-!
# Resolving use sites

The owner of a target is found from the scope in which its use site stands.

* In the body of a module or a class the target belongs to that scope; if the scope has no binding
  of the name, a plain one is created.
* In a function a plain binding or an outer declaration has to come before the site in program
  order.
* In a closure or a comprehension the search goes outward to the nearest block scope.  On the way no
  scope may have the name as a parameter or an iteration variable, and a class body at its end owns
  no such target.

A parameter or an iteration variable forbids the target in every scope.  An outer declaration is
owned where it was settled, so the outer declarations have to be settled before.
-/

namespace TargetScope

namespace ScopeTree

/-- The internal error of a site. -/
def breachAt (t : ScopeTree) (site : UseSite) (breach : Breach) : InternalError :=
  { breach, location := some { filename := t.filename, position := site.position } }

/-- The target of a site is owned as the binding `b` of the block scope `block` is; a binding that
is no outer declaration and has no owner yet gets the block itself. -/
def bindThrough (t : ScopeTree) (site : UseSite) (block : Scope) (b : Binding) :
    Except InternalError (Verdict × ScopeTree) :=
  match b.owner with
  | some owner => .ok (.bound owner, t)
  | none =>
    if b.isOuter then .error (t.breachAt site (.unsettled b.name block.describe))
    else .ok (.bound block.index, t.put block.index { b with owner := some block.index })

/-- Resolves a target in the body of a module or a class. -/
def resolveInBody (t : ScopeTree) (site : UseSite) (block : Scope) :
    Except InternalError (Verdict × ScopeTree) :=
  match block.binding? site.name with
  | none =>
    .ok (.bound block.index, t.put block.index
      { name := site.name, role := .plain, declaredAt := site.position,
        boundOrder := some site.order, owner := some block.index, implicit := true })
  | some b =>
    if b.isBlocking then .ok (.failed (.shadowedByBlock site block b), t)
    else t.bindThrough site block b

/-- Resolves a target in a function. -/
def resolveInFunction (t : ScopeTree) (site : UseSite) (f : Scope) :
    Except InternalError (Verdict × ScopeTree) :=
  match f.binding? site.name with
  | none => .ok (.failed (.missing site f), t)
  | some b =>
    if b.isBlocking then .ok (.failed (.shadowedByBlock site f b), t)
    else if b.isAnchor && b.boundOrder.any (· < site.order) then t.bindThrough site f b
    else .ok (.failed (.missing site f), t)

/-- The innermost scope on the way from `s` to its nearest block that has the name as a parameter or
an iteration variable, with that binding. -/
def blockerOnPath? (t : ScopeTree) (s : Scope) (name : String) : Option (Scope × Binding) :=
  (t.transparentPath s).findSome? fun c =>
    match c.binding? name with
    | some b => if b.isBlocking then some (c, b) else none
    | none => none

/-- What is broken when the way outward from the scope `s` ends before a block scope: the last scope
on it has no parent, or one that is not in the tree. -/
def deadEnd (t : ScopeTree) (s : Scope) : Breach :=
  let last := ((t.transparentPath s).getLast?).getD s
  match last.parent with
  | none => .noEnclosingBlock last.describe
  | some p => .scopeOutOfRange p

/-- Resolves a target in a closure or a comprehension. -/
def resolveThroughTransparent (t : ScopeTree) (site : UseSite) (s : Scope) :
    Except InternalError (Verdict × ScopeTree) :=
  match t.blockerOnPath? s site.name with
  | some (c, b) => .ok (.failed (.shadowedOnPath site c b), t)
  | none =>
    match t.nearestBlock s with
    | none => .error (t.breachAt site (t.deadEnd s))
    | some block =>
      match block.kind with
      | .classBody => .ok (.failed (.inClassBody site block), t)
      | .moduleBody => t.resolveInBody site block
      | _ => t.resolveInFunction site block

/-- Resolves a use site.  The result is the verdict, and the tree with what the resolution adds to
it; a site that cannot be resolved leaves the tree as it is. -/
def resolveSite (t : ScopeTree) (site : UseSite) : Except InternalError (Verdict × ScopeTree) :=
  match t.scopeAt? site.scope with
  | none => .error (t.breachAt site (.scopeOutOfRange site.scope))
  | some s =>
    match s.kind with
    | .moduleBody | .classBody => t.resolveInBody site s
    | .functionBody => t.resolveInFunction site s
    | .closure | .comprehension => t.resolveThroughTransparent site s

end ScopeTree

/-- The state after some use sites have been resolved. -/
structure Resolution where
  /-- The tree with all that was added to it. -/
  tree : ScopeTree
  /-- The verdicts, in the order in which they were reached. -/
  verdicts : Verdicts := []
  /-- The internal error at which the resolution stopped. -/
  stopped : Option InternalError := none
deriving DecidableEq, Repr

namespace ScopeTree

/-- Resolves some use sites, one after the other, up to the first that cannot be resolved or that is
owned by a scope outside the tree. -/
def resolveSites : ScopeTree → List UseSite → Resolution
  | t, [] => { tree := t }
  | t, site :: rest =>
    match t.resolveSite site with
    | .error e => { tree := t, stopped := some e }
    | .ok (verdict, t) =>
      match verdict with
      | .failed _ =>
        let r := t.resolveSites rest
        { r with verdicts := (site.index, verdict) :: r.verdicts }
      | .bound owner =>
        if owner < t.size then
          let r := t.resolveSites rest
          { r with verdicts := (site.index, verdict) :: r.verdicts }
        else
          { tree := t, verdicts := [(site.index, verdict)],
            stopped := some (t.breachAt site (.ownerOutOfRange owner)) }

/-- Resolves the use sites of a tree in program order. -/
def resolve (t : ScopeTree) : Resolution :=
  t.resolveSites t.sitesInOrder

end ScopeTree

end TargetScope
