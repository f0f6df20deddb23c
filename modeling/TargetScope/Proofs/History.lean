import Mathlib.Data.List.Find
import TargetScope.Proofs.Arena
import TargetScope.TreeBuilder

/-!
# Histories

The history of a stream of events is the list of its mentions, each with its number in the stream
and with the scopes that are open around it.  It is read off the events alone: a cursor keeps the
open scopes and counts scopes and events, and no mention has an effect on it.

What a name is in a scope follows from the history by rules on first and last mentions
(`History.decisive?`):

* the first mention in that scope as a parameter or an iteration variable decides;
* else the last declaration there as an outer name;
* else the first assignment or declaration of a type there;
* else, for a function, the first target that reaches it and is not obstructed on its way: no
  scope that it passes has had the name as a parameter or an iteration variable before.

The lemmas at the end say how the decision changes with one more mention
(`History.binding?_concat_declared` and its companions); they have the form of the steps by which
a builder keeps its bindings.
-/

namespace TargetScope

/-- A mention of a name in a stream. -/
structure Occurrence where
  /-- The name. -/
  name : String
  /-- The way in which it is mentioned. -/
  how : Mention
  /-- The place in the source. -/
  position : Option Position
  /-- The number of the event in its stream. -/
  order : Int
  /-- The scope in which the name is mentioned. -/
  scope : Frame
  /-- The scopes around that one, innermost first. -/
  around : List Frame
deriving DecidableEq, Repr

/-! ## From events to a history -/

/-- What has to be known of the events so far in order to place the next one. -/
structure Cursor where
  /-- The open scopes, innermost first. -/
  path : List Frame := []
  /-- The number of scopes that have been entered. -/
  entered : Nat := 0
  /-- The number of events. -/
  clock : Int := 0
deriving DecidableEq, Repr

namespace Cursor

/-- The cursor behind an event. -/
def after (c : Cursor) (e : Event) : Cursor :=
  match e.action with
  | .enter kind _ _ =>
    { path := ⟨c.entered, kind⟩ :: c.path, entered := c.entered + 1, clock := c.clock + 1 }
  | .mention _ _ _ => { c with clock := c.clock + 1 }
  | .exit => { c with path := c.path.tail, clock := c.clock + 1 }

/-- The mention at an event, if the event mentions a name in an open scope. -/
def occurrence? (c : Cursor) (e : Event) : Option Occurrence :=
  match e.action, c.path with
  | .mention name how position, scope :: around =>
    some { name, how, position, order := c.clock + 1, scope, around }
  | _, _ => none

end Cursor

/-- The mentions of a stream in their order. -/
abbrev History := List Occurrence

/-- The mentions in some events behind a cursor. -/
def historyFrom : Cursor → List Event → History
  | _, [] => []
  | c, e :: rest => (c.occurrence? e).toList ++ historyFrom (c.after e) rest

/-- The mentions in a stream of events. -/
def history (events : List Event) : History :=
  historyFrom {} events

namespace Cursor

/-- The cursor behind some events. -/
def afterAll (c : Cursor) (events : List Event) : Cursor :=
  events.foldl after c

@[simp] lemma clock_after (c : Cursor) (e : Event) : (c.after e).clock = c.clock + 1 := by
  rw [after]
  split <;> rfl

lemma clock_afterAll (c : Cursor) (events : List Event) :
    (c.afterAll events).clock = c.clock + events.length := by
  induction events generalizing c with
  | nil => simp [afterAll]
  | cons e rest ih =>
    show ((c.after e).afterAll rest).clock = _
    rw [ih, clock_after, List.length_cons]
    omega

end Cursor

/-- The mentions in some events are numbered behind the cursor, up to the clock at the end. -/
lemma order_of_mem_historyFrom {c : Cursor} {events : List Event} {o : Occurrence}
    (ho : o ∈ historyFrom c events) : c.clock < o.order ∧ o.order ≤ c.clock + events.length := by
  induction events generalizing c with
  | nil => exact absurd ho List.not_mem_nil
  | cons e rest ih =>
    rw [List.length_cons]
    rw [historyFrom, List.mem_append, Option.mem_toList] at ho
    rcases ho with ho | ho
    · rw [Cursor.occurrence?] at ho
      split at ho
      · obtain rfl := Option.some.inj ho
        show c.clock < c.clock + 1 ∧ c.clock + 1 ≤ _
        omega
      · exact absurd ho (by simp)
    · have hrest := ih ho
      rw [Cursor.clock_after] at hrest
      omega

lemma historyFrom_append (c : Cursor) (events rest : List Event) :
    historyFrom c (events ++ rest) =
      historyFrom c events ++ historyFrom (c.afterAll events) rest := by
  induction events generalizing c with
  | nil => rfl
  | cons e events ih =>
    rw [List.cons_append, historyFrom, ih, historyFrom, List.append_assoc]
    rfl

/-! ## What a mention tells about its name -/

lemma BindingRole.isBlocking_of_isOuter {r : BindingRole} (h : r.isOuter = true) :
    r.isBlocking = false := by
  revert h
  cases r <;> decide

lemma BindingRole.ne_targetOnly_of_isBlocking {r : BindingRole} (h : r.isBlocking = true) :
    r ≠ .targetOnly := by
  rintro rfl
  exact absurd h (by decide)

lemma BindingRole.ne_targetOnly_of_isOuter {r : BindingRole} (h : r.isOuter = true) :
    r ≠ .targetOnly := by
  rintro rfl
  exact absurd h (by decide)

/-- The role that a mention gives to a name that has none. -/
def Mention.role : Mention → BindingRole
  | parameter => .parameter
  | iteration => .iteration
  | assignment | typeDeclaration => .plain
  | outerFunction => .outerFunction
  | outerModule => .outerModule
  | target _ => .targetOnly

/-- The operator of a mention as a target. -/
def Mention.operator? : Mention → Option Operator
  | target operator => some operator
  | _ => none

lemma Mention.eq_target_of_role {m : Mention} (h : m.role = .targetOnly) :
    ∃ operator, m = .target operator := by
  cases m with
  | target operator => exact ⟨operator, rfl⟩
  | _ => exact absurd h (by decide)

namespace Occurrence

/-- The role that the mention gives to its name if the name has none. -/
def role (o : Occurrence) : BindingRole :=
  o.how.role

/-- The mention is one of the given name, directly in the scope at the place `i`. -/
def isAt (o : Occurrence) (i : Nat) (name : String) : Bool :=
  o.scope.index = i && o.name = name

/-- The scope of the mention and the scopes around it, innermost first. -/
def path (o : Occurrence) : List Frame :=
  o.scope :: o.around

/-- The transparent scopes from the one of the mention outward to the nearest block scope. -/
def transparentPath (o : Occurrence) : List Frame :=
  o.path.takeWhile fun f => f.kind.isTransparent

/-- The innermost block scope at or around the mention.  The root is a block scope, so there always
is one. -/
def block (o : Occurrence) : Frame :=
  (o.path.find? fun f => f.kind.isBlock).getD ⟨ScopeTree.rootIndex, .moduleBody⟩

/-- The binding of a name whose role is decided by the mention.  A name that is only a target has no
number. -/
def binding (o : Occurrence) : Binding where
  name := o.name
  role := o.role
  declaredAt := o.position
  boundOrder := if o.role = .targetOnly then none else some o.order

/-- The use site of a mention as a target. -/
def site (o : Occurrence) (operator : Operator) (index : Nat) : UseSite where
  index := index
  name := o.name
  scope := o.scope.index
  operator := operator
  position := o.position
  order := o.order

end Occurrence

/-! ## What a history tells about a name -/

namespace History

/-- The first mention of the name in the scope at the place `i` as a parameter or an iteration
variable. -/
def blocker? (h : History) (i : Nat) (name : String) : Option Occurrence :=
  h.find? fun o => o.isAt i name && o.role.isBlocking

/-- The last declaration of the name in the scope at the place `i` as an outer name. -/
def outer? (h : History) (i : Nat) (name : String) : Option Occurrence :=
  h.reverse.find? fun o => o.isAt i name && o.role.isOuter

/-- The first assignment to the name, or declaration of its type, in the scope at the place `i`. -/
def plain? (h : History) (i : Nat) (name : String) : Option Occurrence :=
  h.find? fun o => o.isAt i name && o.role = .plain

/-- Before the mention `o`, one of the transparent scopes from it outward has had its name as a
parameter or an iteration variable. -/
def obstructs (h : History) (o : Occurrence) : Bool :=
  h.any fun p => p.order < o.order && p.role.isBlocking &&
    o.transparentPath.any fun f => p.isAt f.index o.name

/-- The first target of the name that reaches the function at the place `i` unobstructed. -/
def bareTarget? (h : History) (i : Nat) (name : String) : Option Occurrence :=
  h.find? fun o => o.role = .targetOnly && o.name = name && o.block = ⟨i, .functionBody⟩ &&
    !obstructs h o

/-- The mention that decides what the name is in the scope at the place `i`. -/
def decisive? (h : History) (i : Nat) (name : String) : Option Occurrence :=
  (h.blocker? i name).or ((h.outer? i name).or ((h.plain? i name).or (h.bareTarget? i name)))

/-- The binding of the name in the scope at the place `i`. -/
def binding? (h : History) (i : Nat) (name : String) : Option Binding :=
  (h.decisive? i name).map Occurrence.binding

/-- The mentions as targets, each with its operator. -/
def targets (h : History) : List (Occurrence × Operator) :=
  h.filterMap fun o => o.how.operator?.map fun operator => (o, operator)

/-- The use sites, numbered in their order. -/
def sites (h : History) : List UseSite :=
  h.targets.mapIdx fun index target => target.1.site target.2 index

variable {h : History} {i : Nat} {name : String} {o p : Occurrence}

/-! ### The mentions that are found -/

lemma of_blocker? (ho : h.blocker? i name = some o) :
    o ∈ h ∧ o.scope.index = i ∧ o.name = name ∧ o.role.isBlocking = true := by
  have hp := List.find?_some ho
  simp only [Occurrence.isAt, Bool.and_eq_true, decide_eq_true_eq] at hp
  exact ⟨List.mem_of_find?_eq_some ho, hp.1.1, hp.1.2, hp.2⟩

lemma of_outer? (ho : h.outer? i name = some o) :
    o ∈ h ∧ o.scope.index = i ∧ o.name = name ∧ o.role.isOuter = true := by
  have hp := List.find?_some ho
  simp only [Occurrence.isAt, Bool.and_eq_true, decide_eq_true_eq] at hp
  exact ⟨List.mem_reverse.1 (List.mem_of_find?_eq_some ho), hp.1.1, hp.1.2, hp.2⟩

lemma of_plain? (ho : h.plain? i name = some o) :
    o ∈ h ∧ o.scope.index = i ∧ o.name = name ∧ o.role = .plain := by
  have hp := List.find?_some ho
  simp only [Occurrence.isAt, Bool.and_eq_true, decide_eq_true_eq] at hp
  exact ⟨List.mem_of_find?_eq_some ho, hp.1.1, hp.1.2, hp.2⟩

lemma of_bareTarget? (ho : h.bareTarget? i name = some o) :
    o ∈ h ∧ o.block = ⟨i, .functionBody⟩ ∧ o.name = name ∧ o.role = .targetOnly := by
  have hp := List.find?_some ho
  simp only [Bool.and_eq_true, decide_eq_true_eq] at hp
  exact ⟨List.mem_of_find?_eq_some ho, hp.1.2, hp.1.1.2, hp.1.1.1⟩

lemma of_decisive? (ho : h.decisive? i name = some o) : o ∈ h ∧ o.name = name := by
  rw [decisive?, Option.or_eq_some_iff, Option.or_eq_some_iff, Option.or_eq_some_iff] at ho
  rcases ho with ho | ⟨-, ho | ⟨-, ho | ⟨-, ho⟩⟩⟩
  · exact ⟨(of_blocker? ho).1, (of_blocker? ho).2.2.1⟩
  · exact ⟨(of_outer? ho).1, (of_outer? ho).2.2.1⟩
  · exact ⟨(of_plain? ho).1, (of_plain? ho).2.2.1⟩
  · exact ⟨(of_bareTarget? ho).1, (of_bareTarget? ho).2.2.1⟩

lemma name_of_binding? {b : Binding} (hb : h.binding? i name = some b) : b.name = name := by
  obtain ⟨o, ho, rfl⟩ := Option.map_eq_some_iff.1 hb
  exact (of_decisive? ho).2

/-- Only a mention as a parameter or an iteration variable decides for such a role. -/
lemma isBlocking_of_decisive? (ho : h.decisive? i name = some o) :
    o.role.isBlocking = (h.blocker? i name).isSome := by
  rw [decisive?, Option.or_eq_some_iff, Option.or_eq_some_iff, Option.or_eq_some_iff] at ho
  rcases ho with ho | ⟨hb, ho | ⟨-, ho | ⟨-, ho⟩⟩⟩
  · rw [ho, (of_blocker? ho).2.2.2, Option.isSome_some]
  · rw [hb, BindingRole.isBlocking_of_isOuter (of_outer? ho).2.2.2, Option.isSome_none]
  · rw [hb, (of_plain? ho).2.2.2]
    decide
  · rw [hb, (of_bareTarget? ho).2.2.2]
    decide

@[simp] lemma any_isBlocking_binding? (h : History) (i : Nat) (name : String) :
    (h.binding? i name).any Binding.isBlocking = (h.blocker? i name).isSome := by
  cases ho : h.decisive? i name with
  | some o =>
    simp only [binding?, ho, Option.map_some, Option.any_some]
    exact isBlocking_of_decisive? ho
  | none =>
    have hb : h.blocker? i name = none := by
      rw [decisive?, Option.or_eq_none_iff] at ho
      exact ho.1
    simp [binding?, ho, hb]

/-! ### The order of targets -/

/-- The targets are in program order. -/
lemma pairwise_targets (ho : h.Pairwise fun o p => o.order < p.order) :
    h.targets.Pairwise fun x y => x.1.order < y.1.order := by
  rw [targets, List.pairwise_filterMap]
  refine ho.imp ?_
  intro o p hop x hx y hy
  obtain ⟨_, -, rfl⟩ := Option.map_eq_some_iff.1 hx
  obtain ⟨_, -, rfl⟩ := Option.map_eq_some_iff.1 hy
  exact hop

/-- The use sites are in program order. -/
lemma pairwise_sites (ho : h.Pairwise fun o p => o.order < p.order) :
    h.sites.Pairwise fun u v => u.order < v.order := by
  have htargets := pairwise_targets ho
  rw [List.pairwise_iff_getElem] at htargets ⊢
  intro i j hi hj hij
  rw [sites, List.length_mapIdx] at hi hj
  simp only [sites, List.getElem_mapIdx]
  exact htargets i j hi hj hij

/-! ### One more mention -/

lemma blocker?_concat (h : History) (o : Occurrence) (i : Nat) (name : String) :
    blocker? (h ++ [o]) i name = (h.blocker? i name).or
      (if o.isAt i name && o.role.isBlocking then some o else none) := by
  rw [blocker?, List.find?_append, List.find?_singleton, blocker?]

lemma outer?_concat (h : History) (o : Occurrence) (i : Nat) (name : String) :
    outer? (h ++ [o]) i name =
      (if o.isAt i name && o.role.isOuter then some o else none).or (h.outer? i name) := by
  rw [outer?, List.reverse_append, List.reverse_singleton, List.singleton_append, List.find?_cons,
    outer?]
  split <;> simp [*]

lemma plain?_concat (h : History) (o : Occurrence) (i : Nat) (name : String) :
    plain? (h ++ [o]) i name = (h.plain? i name).or
      (if o.isAt i name && o.role = .plain then some o else none) := by
  rw [plain?, List.find?_append, List.find?_singleton, plain?]

/-- A mention obstructs no earlier one, nor itself. -/
lemma obstructs_concat (hp : p.order ≤ o.order) : obstructs (h ++ [o]) p = h.obstructs p := by
  have ho : ¬o.order < p.order := by omega
  simp [obstructs, ho]

lemma bareTarget?_concat (hlt : ∀ p ∈ h, p.order ≤ o.order) (i : Nat) (name : String) :
    bareTarget? (h ++ [o]) i name = (h.bareTarget? i name).or
      (if o.role = .targetOnly && o.name = name && o.block = ⟨i, .functionBody⟩ && !h.obstructs o
        then some o else none) := by
  rw [bareTarget?, List.find?_append, List.find?_singleton, obstructs_concat (Int.le_refl _),
    bareTarget?]
  congr 1
  apply List.find?_congr
  intro p hp
  rw [obstructs_concat (hlt p hp)]

lemma sites_concat_target {operator : Operator} (ho : o.how = .target operator) :
    sites (h ++ [o]) = h.sites ++ [o.site operator h.sites.length] := by
  simp [sites, targets, ho, Mention.operator?]

lemma sites_concat_of_operator?_eq_none (ho : o.how.operator? = none) :
    sites (h ++ [o]) = h.sites := by
  simp [sites, targets, ho]

/-! ### The binding after one more mention

These are the steps of a builder: what a mention makes of the binding before. -/

/-- A mention that is no target has no effect on other scopes and other names. -/
lemma binding?_concat_of_not_isAt (hlt : ∀ p ∈ h, p.order ≤ o.order) (hr : o.role ≠ .targetOnly)
    (hat : o.isAt i name = false) : binding? (h ++ [o]) i name = h.binding? i name := by
  rw [binding?, decisive?, blocker?_concat, outer?_concat, plain?_concat, bareTarget?_concat hlt]
  simp [hat, hr, binding?, decisive?]

/-- A declaration with a role: what was blocking stays, all else is replaced. -/
lemma binding?_concat_declared (hr : o.role.isBlocking = true ∨ o.role.isOuter = true) :
    binding? (h ++ [o]) o.scope.index o.name = some (TreeBuilder.declaredBinding o.name o.role
      o.position o.order (h.binding? o.scope.index o.name)) := by
  have hat : o.isAt o.scope.index o.name = true := by simp [Occurrence.isAt]
  have hnt : o.role ≠ .targetOnly :=
    hr.elim BindingRole.ne_targetOnly_of_isBlocking BindingRole.ne_targetOnly_of_isOuter
  cases hb : h.blocker? o.scope.index o.name with
  | some b =>
    have hbl : b.binding.isBlocking = true := (of_blocker? hb).2.2.2
    simp [binding?, decisive?, blocker?_concat, hb, TreeBuilder.declaredBinding, hbl]
  | none =>
    have hnew : decisive? (h ++ [o]) o.scope.index o.name = some o := by
      rcases hr with hr | hr
      · simp [decisive?, blocker?_concat, hb, hat, hr]
      · have hbl := BindingRole.isBlocking_of_isOuter hr
        simp [decisive?, blocker?_concat, outer?_concat, hb, hat, hr, hbl]
    cases hd : h.decisive? o.scope.index o.name with
    | none => simp [binding?, hnew, hd, TreeBuilder.declaredBinding, Occurrence.binding, hnt]
    | some d =>
      have hdn := (of_decisive? hd).2
      have hdb : d.binding.isBlocking = false := by
        have := isBlocking_of_decisive? hd
        rwa [hb, Option.isSome_none] at this
      simp only [binding?, hnew, hd, Option.map_some, TreeBuilder.declaredBinding, hdb]
      simp [Occurrence.binding, hnt, hdn]

/-- An assignment or a declaration of a type: it matters where there was nothing but targets. -/
lemma binding?_concat_plain (hr : o.role = .plain) :
    binding? (h ++ [o]) o.scope.index o.name = some (TreeBuilder.plainBinding o.name o.position
      o.order (h.binding? o.scope.index o.name)) := by
  have hat : o.isAt o.scope.index o.name = true := by simp [Occurrence.isAt]
  have hbl : o.role.isBlocking = false := by rw [hr]; decide
  have hou : o.role.isOuter = false := by rw [hr]; decide
  have hold : ∀ d : Occurrence, d.role ≠ .targetOnly →
      TreeBuilder.plainBinding o.name o.position o.order (some d.binding) = d.binding := by
    intro d hd
    rw [TreeBuilder.plainBinding, if_neg (show d.binding.role ≠ .targetOnly from hd)]
  -- the cases are those of the mention that has decided so far
  cases hb : h.blocker? o.scope.index o.name with
  | some b =>
    have hnt := BindingRole.ne_targetOnly_of_isBlocking (of_blocker? hb).2.2.2
    simp [binding?, decisive?, blocker?_concat, hb, hold b hnt]
  | none =>
    cases hu : h.outer? o.scope.index o.name with
    | some u =>
      have hnt := BindingRole.ne_targetOnly_of_isOuter (of_outer? hu).2.2.2
      simp [binding?, decisive?, blocker?_concat, outer?_concat, hb, hu, hbl, hou, hold u hnt]
    | none =>
      cases hp : h.plain? o.scope.index o.name with
      | some p =>
        have hnt : p.role ≠ .targetOnly := by
          rw [(of_plain? hp).2.2.2]
          decide
        simp [binding?, decisive?, blocker?_concat, outer?_concat, plain?_concat, hb, hu, hp, hbl,
          hou, hold p hnt]
      | none =>
        have hnew : decisive? (h ++ [o]) o.scope.index o.name = some o := by
          rw [decisive?, blocker?_concat, outer?_concat, plain?_concat]
          simp only [hb, hu, hp, hat, hr, Bool.and_self, decide_true]
          rfl
        have hdec : h.decisive? o.scope.index o.name = h.bareTarget? o.scope.index o.name := by
          simp [decisive?, hb, hu, hp]
        cases hd : h.bareTarget? o.scope.index o.name with
        | none =>
          simp [binding?, hnew, hdec, hd, TreeBuilder.plainBinding, Occurrence.binding, hr]
        | some d =>
          have hd' := of_bareTarget? hd
          simp [binding?, hnew, hdec, hd, TreeBuilder.plainBinding, Occurrence.binding, hr,
            hd'.2.2.1, hd'.2.2.2]

/-- A target: it matters only where there was nothing, in the function that it reaches. -/
lemma binding?_concat_target (hlt : ∀ p ∈ h, p.order ≤ o.order) (hr : o.role = .targetOnly)
    (i : Nat) (name : String) :
    binding? (h ++ [o]) i name = (h.binding? i name).or
      (if o.name = name ∧ o.block = ⟨i, .functionBody⟩ ∧ h.obstructs o = false
        then some o.binding else none) := by
  have hbl : o.role.isBlocking = false := by rw [hr]; decide
  have hou : o.role.isOuter = false := by rw [hr]; decide
  have hnew : decisive? (h ++ [o]) i name = (h.decisive? i name).or
      (if o.name = name ∧ o.block = ⟨i, .functionBody⟩ ∧ h.obstructs o = false
        then some o else none) := by
    rw [decisive?, blocker?_concat, outer?_concat, plain?_concat, bareTarget?_concat hlt, decisive?]
    rw [hbl, hou, hr]
    simp [Option.or_assoc, and_assoc]
  rw [binding?, hnew, Option.map_or, binding?]
  congr 1
  split <;> rfl

end History

end TargetScope
