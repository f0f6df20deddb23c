import TargetScope.Position

/-!
# Bindings

A scope holds at most one binding for each name.  The role of a binding says how the name is used
in that scope, and thereby whether the name may be the target of an augmented or an inline
assignment there.
-/

namespace TargetScope

/-- What a name is in the scope that holds it. -/
inductive BindingRole where
  /-- An assignment or a declaration of a type. -/
  | plain
  /-- Declared to belong to an enclosing function. -/
  | outerFunction
  /-- Declared to belong to the module. -/
  | outerModule
  /-- A parameter. -/
  | parameter
  /-- The variable of an iteration. -/
  | iteration
  /-- So far only the target of augmented or inline assignments. -/
  | targetOnly
deriving DecidableEq, Repr

namespace BindingRole

/-- The written name of a role. -/
def text : BindingRole → String
  | plain => "PLAIN_BINDING"
  | outerFunction => "OUTER_FUNCTION_DECLARED"
  | outerModule => "OUTER_MODULE_DECLARED"
  | parameter => "PARAMETER"
  | iteration => "ITERATION_VAR"
  | targetOnly => "TARGET_ONLY"

/-- The roles that forbid every augmented or inline assignment to the name. -/
def isBlocking (r : BindingRole) : Bool :=
  r = parameter || r = iteration

/-- The roles that give the name away to an enclosing scope. -/
def isOuter (r : BindingRole) : Bool :=
  r = outerFunction || r = outerModule

/-- The roles to which a later target in the same function can be attached. -/
def isAnchor (r : BindingRole) : Bool :=
  r = plain || r.isOuter

end BindingRole

/-- The binding of one name in one scope. -/
structure Binding where
  /-- The name. -/
  name : String
  /-- Its role in the scope. -/
  role : BindingRole
  /-- The place in the source that gave the name its role. -/
  declaredAt : Option Position := none
  /-- The program-order number of the event that gave the name its role; a name that is only a
  target has none. -/
  boundOrder : Option Int := none
  /-- The scope that owns the name, once it is known. -/
  owner : Option Nat := none
  /-- The role before the binding was found to belong to the module. -/
  promotedFrom : Option BindingRole := none
  /-- The binding was created by a target in a module or class body that held no such name. -/
  implicit : Bool := false
deriving DecidableEq, Repr

namespace Binding

/-- The binding forbids augmented and inline assignments to its name. -/
def isBlocking (b : Binding) : Bool :=
  b.role.isBlocking

/-- A later target can be attached to the binding. -/
def isAnchor (b : Binding) : Bool :=
  b.role.isAnchor

/-- The binding gives its name away to an enclosing scope. -/
def isOuter (b : Binding) : Bool :=
  b.role.isOuter

/-- The bindings with `b` in the place of the binding of its name, or at the end if the name is
new. -/
def putIn (b : Binding) : List Binding → List Binding
  | [] => [b]
  | c :: rest => if c.name = b.name then b :: rest else c :: b.putIn rest

/-- After `b` has been put in, its own name leads to `b`, and every other name to where it led
before. -/
theorem find?_putIn (b : Binding) (bs : List Binding) (name : String) :
    (b.putIn bs).find? (fun c => c.name = name) =
      if b.name = name then some b else bs.find? fun c => c.name = name := by
  induction bs with
  | nil => by_cases hn : b.name = name <;> simp [putIn, hn]
  | cons c rest ih =>
    simp only [putIn]
    split
    · next hc => by_cases hn : b.name = name <;> simp [hc, hn]
    · next hc =>
      by_cases hcn : c.name = name
      · have hn : ¬b.name = name := fun h => hc (hcn.trans h.symm)
        simp [hcn, hn]
      · simp [hcn, ih]

/-- The names keep their places, and a new one comes last. -/
theorem map_name_putIn (b : Binding) (bs : List Binding) :
    (b.putIn bs).map name =
      if b.name ∈ bs.map name then bs.map name else bs.map name ++ [b.name] := by
  induction bs with
  | nil => simp [putIn]
  | cons c rest ih =>
    by_cases hc : c.name = b.name
    · simp [putIn, hc]
    · have hc' : b.name ≠ c.name := fun h => hc h.symm
      simp only [putIn, hc, if_false, List.map_cons, ih, List.mem_cons, hc', false_or]
      split <;> simp

end Binding

end TargetScope
