import Mathlib.Data.List.DropRight
import TargetScope.OuterDeclaration
import TargetScope.Proofs.Classification

/-!
# The lexical owner of an outer declaration

Outer declarations are settled one after the other, each as the nearest one around it that has
been settled before.  This file gives the owner at once, from the roles that the functions around
a declaration give to its name (`Ownership.lexical`): declarations to an enclosing function are
links that are skipped, and the first function with any other role decides.  If there is none, the
look-up is deferred to the function behind the last link.

Settling one declaration follows one link (`Settling.settleOuter_eq`), provided that everything
around it has been settled as it should (`Settling.Prepared`).  What the whole pass puts into a
tree is `ScopeTree.settledTree`.
-/

namespace TargetScope

/-! ## The reference -/

/-- What an outer declaration comes to. -/
structure Ownership where
  /-- The role of the declaration afterwards. -/
  role : BindingRole
  /-- The owner of the name. -/
  owner : Nat
  /-- The role before the declaration was promoted. -/
  promotedFrom : Option BindingRole := none
  /-- No enclosing function has the name other than by a link. -/
  deferred : Bool := false
deriving DecidableEq, Repr

namespace Ownership

/-- The ownership of a name that is declared to belong to the module. -/
def ofModule : Ownership where
  role := .outerModule
  owner := ScopeTree.rootIndex

/-- The ownership of a name whose look-up is deferred to the first of the given functions, or to the
root if there is none. -/
def deferredTo (functions : List (Nat × Option BindingRole)) : Ownership where
  role := .outerFunction
  owner := (functions.head?.map Prod.fst).getD ScopeTree.rootIndex
  deferred := true

/-- The ownership of a name that is declared to belong to an enclosing function, from the places
of the functions around the declaration, innermost first, each with the role of the name there if
it has one.

The innermost function where the name has a role and is no link itself decides: if the name
belongs to the module there, then so does this one; else that function owns it.  If there is no
such function, then the look-up is deferred to the innermost of those functions beyond which the
name has no role at all. -/
def lexical (around : List (Nat × Option BindingRole)) : Ownership :=
  match around.find? fun f => f.2.any (· ≠ .outerFunction) with
  | some (_, some .outerModule) =>
    { role := .outerModule, owner := ScopeTree.rootIndex, promotedFrom := some .outerFunction }
  | some (place, _) => { role := .outerFunction, owner := place }
  | none => deferredTo (around.rtakeWhile fun f => f.2.isNone)

/-- The ownership of a name that is declared outer with the given role. -/
def ofRole (role : BindingRole) (around : List (Nat × Option BindingRole)) : Ownership :=
  if role = .outerModule then ofModule else lexical around

end Ownership

namespace ScopeTree

/-- The functions around a scope, innermost first, each with the role of the name there. -/
def functionsAround (t : ScopeTree) (s : Scope) (name : String) :
    List (Nat × Option BindingRole) :=
  (t.enclosingFunctions s).map fun f => (f.index, (f.binding? name).map Binding.role)

/-- The ownership of the declaration `b` of the scope `s`. -/
def ownership (t : ScopeTree) (s : Scope) (b : Binding) : Ownership :=
  Ownership.ofRole b.role (t.functionsAround s b.name)

/-- The settlement of the declaration `b` of the scope `s`. -/
def settlementOf (t : ScopeTree) (s : Scope) (b : Binding) : Settlement where
  scope := s.index
  name := b.name
  role := (t.ownership s b).role
  owner := (t.ownership s b).owner
  promotedFrom := (t.ownership s b).promotedFrom
  deferred := (t.ownership s b).deferred

/-- The settlements of the outer declarations of the scope `s`, in the order of its bindings. -/
def settlementsIn (t : ScopeTree) (s : Scope) : List Settlement :=
  (s.bindings.filter Binding.isOuter).map (t.settlementOf s)

/-- The binding `b` of the scope `s` when all is settled. -/
def settledBinding (t : ScopeTree) (s : Scope) (b : Binding) : Binding :=
  if b.isOuter then
    { b with
      role := (t.ownership s b).role
      owner := some (t.ownership s b).owner
      promotedFrom := (t.ownership s b).promotedFrom }
  else b

/-- The scope `s` when all is settled. -/
def settledScope (t : ScopeTree) (s : Scope) : Scope :=
  { s with bindings := s.bindings.map (t.settledBinding s) }

/-- The tree when all is settled. -/
def settledTree (t : ScopeTree) : ScopeTree :=
  { t with scopes := t.scopes.map t.settledScope }

@[simp] lemma name_settledBinding (t : ScopeTree) (s : Scope) (b : Binding) :
    (t.settledBinding s b).name = b.name := by
  rw [settledBinding]
  split <;> rfl

/-- Settling leaves every other binding alone. -/
lemma settledBinding_of_not_isOuter {t : ScopeTree} {s : Scope} {b : Binding}
    (hb : b.isOuter = false) : t.settledBinding s b = b := by
  rw [settledBinding, hb, if_neg (by decide)]

lemma binding?_settledScope (t : ScopeTree) (s : Scope) (name : String) :
    (t.settledScope s).binding? name = (s.binding? name).map (t.settledBinding s) := by
  rw [Scope.binding?, settledScope, List.find?_map, Scope.binding?]
  congr 2
  funext b
  simp

lemma bare_settledTree (t : ScopeTree) : t.settledTree.bare = t.bare := by
  rw [bare, settledTree, bare, List.map_map]
  rfl

lemma binding?_settledTree {t : ScopeTree} {i : Nat} {s : Scope} (hs : t.scope? i = some s)
    (name : String) :
    t.settledTree.binding? i name = (s.binding? name).map (t.settledBinding s) := by
  have hi : t.settledTree.scope? i = some (t.settledScope s) := by
    rw [scope?, settledTree, List.getElem?_map]
    exact congrArg (Option.map t.settledScope) hs
  rw [binding?_of_scope? hi, binding?_settledScope]

end ScopeTree

/-! ## The reference, link by link -/

namespace Ownership

variable {around rest : List (Nat × Option BindingRole)} {place : Nat} {role : BindingRole}

lemma rtakeWhile_cons {α : Type} (p : α → Bool) (x : α) (l : List α) :
    (x :: l).rtakeWhile p = if (x :: l).all p then x :: l else l.rtakeWhile p := by
  simp only [List.rtakeWhile, List.reverse_cons, List.takeWhile_append, List.length_reverse]
  split
  · next hlen =>
    have hl : l.reverse.takeWhile p = l.reverse :=
      (List.takeWhile_prefix p).eq_of_length (by simpa using hlen)
    have hall : l.all p = true := by
      simpa [List.takeWhile_eq_self_iff] using hl
    by_cases hx : p x <;> simp [hx, hall, hl]
  · next hlen =>
    have hall : l.all p = false := by
      rw [Bool.eq_false_iff]
      intro hall
      refine hlen ?_
      rw [List.takeWhile_eq_self_iff.2 (by simpa using hall), List.length_reverse]
    simp [hall]

/-- A link is skipped. -/
lemma lexical_cons_outerFunction :
    lexical ((place, some .outerFunction) :: rest) = lexical rest := by
  rw [lexical, rtakeWhile_cons, lexical]
  simp

/-- A function without the name is passed over, unless the look-up is deferred to it. -/
lemma lexical_cons_none (h : (rest.all fun f => f.2.isNone) = false) :
    lexical ((place, none) :: rest) = lexical rest := by
  rw [lexical, rtakeWhile_cons, List.all_cons, h, lexical]
  simp

lemma lexical_cons_outerModule :
    lexical ((place, some .outerModule) :: rest) =
      { role := .outerModule, owner := ScopeTree.rootIndex,
        promotedFrom := some .outerFunction } := by
  simp [lexical]

lemma lexical_cons_of_not_isOuter (h : role.isOuter = false) :
    lexical ((place, some role) :: rest) = { role := .outerFunction, owner := place } := by
  cases role <;> first | exact absurd h (by decide) | simp [lexical]

/-- Where no function around has the name, the look-up is deferred to the innermost one. -/
lemma lexical_of_isNone (h : ∀ f ∈ around, f.2 = none) : lexical around = deferredTo around := by
  have hfind : around.find? (fun f => f.2.any (· ≠ .outerFunction)) = none :=
    List.find?_eq_none.2 fun f hf => by simp [h f hf]
  have htake : around.rtakeWhile (fun f => f.2.isNone) = around :=
    List.rtakeWhile_eq_self_iff.2 fun f hf => by simp [h f hf]
  rw [lexical, hfind, htake]

/-- A declaration to an enclosing function is promoted or stays what it is. -/
lemma lexical_cases (around : List (Nat × Option BindingRole)) :
    (lexical around).role = .outerModule ∧
        (lexical around).promotedFrom = some .outerFunction ∨
      (lexical around).role = .outerFunction ∧ (lexical around).promotedFrom = none := by
  rw [lexical]
  split
  · exact Or.inl ⟨rfl, rfl⟩
  · exact Or.inr ⟨rfl, rfl⟩
  · exact Or.inr ⟨rfl, rfl⟩

/-- What belongs to the module is owned by the root. -/
lemma owner_of_role_ofRole {around : List (Nat × Option BindingRole)} {role : BindingRole}
    (h : (ofRole role around).role = .outerModule) :
    (ofRole role around).owner = ScopeTree.rootIndex := by
  rw [ofRole] at h ⊢
  split
  · rfl
  · next hr =>
    rw [if_neg hr, lexical] at h
    rw [lexical]
    split at h
    · rfl
    · simp at h
    · simp [deferredTo] at h

/-- The owner is the root or one of the functions around. -/
lemma owner_ofRole_cases (role : BindingRole) (around : List (Nat × Option BindingRole)) :
    (ofRole role around).owner = ScopeTree.rootIndex ∨
      ∃ f ∈ around, (ofRole role around).owner = f.1 := by
  rw [ofRole]
  split
  · exact Or.inl rfl
  · rw [lexical]
    split
    · exact Or.inl rfl
    · next place r hfind => exact Or.inr ⟨_, List.mem_of_find?_eq_some hfind, rfl⟩
    · rw [deferredTo]
      cases hhead : (around.rtakeWhile fun f => f.2.isNone).head? with
      | none => exact Or.inl rfl
      | some f =>
        refine Or.inr ⟨f, ?_, rfl⟩
        exact (List.rtakeWhile_suffix _ _).subset (List.mem_of_head? hhead)

lemma isOuter_role_ofRole (role : BindingRole) (around : List (Nat × Option BindingRole)) :
    (ofRole role around).role.isOuter = true := by
  rw [ofRole]
  split
  · rfl
  · rcases lexical_cases around with ⟨h, -⟩ | ⟨h, -⟩ <;> rw [h] <;> rfl

end Ownership

/-! ## Settling one declaration -/

namespace Settling

variable {s : Settling} {name : String}

/-- Settles the declaration `b` of the scope at the place `home` with the given ownership. -/
def settleAs (s : Settling) (home : Nat) (b : Binding) (o : Ownership) : Settling :=
  s.settle home { b with role := o.role, promotedFrom := o.promotedFrom } o.owner o.deferred

/-- The functions around a declaration of the name are as they should be when the declaration is
to be settled: the name has the binding that it had, and where this is an outer declaration, it
has been settled with its ownership. -/
def Prepared (s : Settling) (name : String) : List (Nat × Option BindingRole) → Prop
  | [] => True
  | (place, none) :: rest => s.tree.binding? place name = none ∧ Prepared s name rest
  | (place, some role) :: rest =>
    (∃ c, s.tree.binding? place name = some c ∧
      if role.isOuter then
        c.role = (Ownership.ofRole role rest).role ∧
          c.owner = some (Ownership.ofRole role rest).owner ∧
          s.isDeferred place name = (Ownership.ofRole role rest).deferred
      else c.role = role) ∧ Prepared s name rest

/-- Settling as an outer declaration further out has been settled. -/
lemma inherit_eq {home place : Nat} {b c : Binding} {role : BindingRole}
    {rest : List (Nat × Option BindingRole)} (hb : b.role = .outerFunction)
    (hp : b.promotedFrom = none) (hr : role.isOuter = true)
    (hrole : c.role = (Ownership.ofRole role rest).role)
    (howner : c.owner = some (Ownership.ofRole role rest).owner)
    (hdef : s.isDeferred place b.name = (Ownership.ofRole role rest).deferred) :
    s.inherit home b place c =
      s.settleAs home b (Ownership.lexical ((place, some role) :: rest)) := by
  cases role with
  | outerModule =>
    have hrole : c.role = .outerModule := hrole
    have howner : c.owner = some ScopeTree.rootIndex := howner
    have hdef : s.isDeferred place b.name = false := hdef
    rw [Ownership.lexical_cons_outerModule]
    simp [inherit, settleAs, hrole, howner, hdef, hb]
  | outerFunction =>
    have hlink : Ownership.ofRole .outerFunction rest = Ownership.lexical rest := rfl
    rw [hlink] at hrole howner hdef
    rw [Ownership.lexical_cons_outerFunction]
    rcases Ownership.lexical_cases rest with ⟨hr, hpf⟩ | ⟨hr, hpf⟩
    · simp [inherit, settleAs, hrole, howner, hdef, hb, hr, hpf]
    · have hsame : { b with role := .outerFunction, promotedFrom := none } = b := by
        rw [← hb, ← hp]
      simp [inherit, settleAs, hrole, howner, hdef, hr, hpf, hsame]
  | _ => exact absurd hr (by decide)

/-- The walk outward finds the lexical owner. -/
lemma settleOuter_eq {home fallback : Nat} {b : Binding} {around : List Scope}
    {functions : List (Nat × Option BindingRole)} (hb : b.role = .outerFunction)
    (hp : b.promotedFrom = none) (hplaces : functions.map Prod.fst = around.map Scope.index)
    (hs : s.Prepared b.name functions) :
    settleOuter around home b fallback s = s.settleAs home b
      (if functions.all fun f => f.2.isNone then
        { role := .outerFunction, owner := fallback, deferred := true }
      else Ownership.lexical functions) := by
  -- one scope of the walk is one function of the reference
  induction around generalizing functions with
  | nil =>
    obtain rfl : functions = [] := List.map_eq_nil_iff.1 hplaces
    have hsame : { b with role := .outerFunction, promotedFrom := none } = b := by rw [← hb, ← hp]
    simp [settleOuter, settleAs, hsame]
  | cons f around ih =>
    obtain ⟨⟨place, role⟩, rest, rfl, hf, hrest⟩ := List.map_eq_cons_iff.1 hplaces
    obtain rfl : place = f.index := hf
    cases role with
    | none =>
      obtain ⟨hnone, hs⟩ := hs
      rw [settleOuter, hnone]
      simp only
      rw [ih hrest hs, List.all_cons, Option.isNone_none, Bool.true_and]
      by_cases hall : rest.all fun f => f.2.isNone
      · rw [if_pos hall, if_pos hall]
      · rw [if_neg hall, if_neg hall, Ownership.lexical_cons_none (Bool.eq_false_iff.2 hall)]
    | some role =>
      obtain ⟨⟨c, hc, hset⟩, -⟩ := hs
      rw [settleOuter, hc, List.all_cons, Option.isNone_some, Bool.false_and]
      simp only [Bool.false_eq_true, if_false]
      by_cases hr : role.isOuter = true
      · -- a link: it has been settled, so the walk ends here and not further out
        rw [if_pos hr] at hset
        obtain ⟨hrole, howner, hdef⟩ := hset
        have hco : c.isOuter = true := by
          rw [Binding.isOuter, hrole, Ownership.isOuter_role_ofRole]
        rw [if_pos hco, howner, Option.isSome_some, if_pos rfl,
          inherit_eq hb hp hr hrole howner hdef]
      · rw [if_neg hr] at hset
        have hco : ¬c.isOuter = true := by rwa [Binding.isOuter, hset]
        have hsame : { b with role := .outerFunction, promotedFrom := none } = b := by
          rw [← hb, ← hp]
        rw [if_neg hco, Ownership.lexical_cons_of_not_isOuter (Bool.eq_false_iff.2 hr)]
        simp [settleAs, hsame]

end Settling

end TargetScope
