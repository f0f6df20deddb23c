import TargetScope.ScopeTree

/-!
# Verdicts

The verdict on a use site: the scope that owns the target, or the reason why the target is not
allowed.
-/

namespace TargetScope

/-- The kinds of failures. -/
inductive FailureKind where
  /-- No binding of the target precedes the site. -/
  | targetName
  /-- The target is a parameter or an iteration variable. -/
  | shadowedBinding
  /-- The target would belong to the body of a class. -/
  | classScope
deriving DecidableEq, Repr

/-- The name of a kind of failure. -/
def FailureKind.text : FailureKind → String
  | targetName => "TargetNameError"
  | shadowedBinding => "ShadowedBindingTarget"
  | classScope => "ClassScopeUnsupported"

/-- The reasons for failures. -/
inductive FailureReason where
  /-- The function in which the target stands has no binding of it that comes before the site. -/
  | missingBinding
  /-- The target is a parameter or an iteration variable of the block scope. -/
  | blockScopeShadow
  /-- The target is a parameter or an iteration variable of a transparent scope on the way to the
  block scope. -/
  | transparentScopeShadow
  /-- The way outward ends at the body of a class. -/
  | classBody
deriving DecidableEq, Repr

/-- Why a target is not allowed. -/
structure Failure where
  /-- The kind of the failure. -/
  kind : FailureKind
  /-- The reason. -/
  reason : FailureReason
  /-- The use site. -/
  site : UseSite
  /-- The scope where the search for an owner stopped. -/
  scope : Nat
  /-- The role that forbids the target. -/
  blocking : Option BindingRole := none
  /-- The scope that owns the target where a missing binding is tolerated. -/
  fallback : Option Nat := none
deriving DecidableEq, Repr

namespace Failure

/-- The function `f` has no binding of the target that comes before the site. -/
def missing (site : UseSite) (f : Scope) : Failure where
  kind := .targetName
  reason := .missingBinding
  site
  scope := f.index
  fallback := some f.index

/-- The target is a parameter or an iteration variable of the block scope `block`. -/
def shadowedByBlock (site : UseSite) (block : Scope) (b : Binding) : Failure where
  kind := .shadowedBinding
  reason := .blockScopeShadow
  site
  scope := block.index
  blocking := some b.role

/-- The target is a parameter or an iteration variable of the transparent scope `s`. -/
def shadowedOnPath (site : UseSite) (s : Scope) (b : Binding) : Failure where
  kind := .shadowedBinding
  reason := .transparentScopeShadow
  site
  scope := s.index
  blocking := some b.role

/-- The way outward ends at the body of the class `c`. -/
def inClassBody (site : UseSite) (c : Scope) : Failure where
  kind := .classScope
  reason := .classBody
  site
  scope := c.index

end Failure

/-- The verdict on a use site. -/
inductive Verdict where
  /-- The target is owned by the scope at the given place. -/
  | bound (scope : Nat)
  /-- The target is not allowed. -/
  | failed (failure : Failure)
deriving DecidableEq, Repr

/-- Verdicts on use sites, each with the place of its site, in the order in which they were
reached. -/
abbrev Verdicts := List (Nat × Verdict)

end TargetScope
