import TargetScope.Proofs.Law
import TargetScope.Proofs.Reporting

/-!
# Operations on a tree

Between its construction and an analysis, a tree may go through any operations: sites are resolved
one at a time, outer declarations are settled, and whole analyses are made.  None of this shows in
a later analysis.

A tree of events with some notes either is still unsettled, or it is the settled tree with notes
(`ScopeTree.Reached`).  Notes create no outer declaration and change no role in a function, so that
the settled tree of a tree with notes is the settled tree with notes
(`ScopeTree.Extends.settledTree`) and one operation leads from one such tree to another
(`ScopeTree.Reached.perform`).  From all of them the analysis comes to the verdicts of the history
(`ScopeTree.Reached.analyze_eq`).
-/

namespace TargetScope

/-! ## Operations -/

/-- What can be done with a tree. -/
inductive Operation where
  /-- One use site is resolved. -/
  | resolve (site : UseSite)
  /-- The outer declarations are settled. -/
  | settle
  /-- The tree is analysed. -/
  | analyze (mode : Mode)
deriving DecidableEq, Repr

namespace ScopeTree

/-- The tree after an operation.  A resolution that is stopped leaves the tree as it is. -/
def perform (t : ScopeTree) : Operation → ScopeTree
  | .resolve site =>
    match t.resolveSite site with
    | .ok (_, t) => t
    | .error _ => t
  | .settle => t.settleOuterDeclarations.tree
  | .analyze mode => (t.analyze mode).1

/-- The tree after some operations, one after the other. -/
def performAll (t : ScopeTree) (operations : List Operation) : ScopeTree :=
  operations.foldl perform t

end ScopeTree

/-! ## Settling a tree with notes -/

/-- Notes change no role in a function. -/
lemma Filled.map_role {scope : Frame} {x y : Option Binding} (h : Filled scope x y)
    (hk : scope.kind = .functionBody) : y.map Binding.role = x.map Binding.role := by
  cases h with
  | refl => rfl
  | owned => rfl
  | created hn => exact absurd hk hn

namespace ScopeTree

variable {t t' u : ScopeTree} {h : History} {i : Nat} {s s' : Scope} {site : UseSite} {v : Verdict}

namespace Extends

/-- Notes do not change what the functions around a scope know of a name. -/
lemma functionsAround_eq (hext : t.Extends t') (ht : t.Arena) (hs : t.scope? i = some s)
    (hs' : t'.scope? i = some s') (name : String) :
    t'.functionsAround s' name = t.functionsAround s name := by
  -- the induction goes outward, from a scope to its parent at an earlier place
  induction i using Nat.strongRecOn generalizing s s' with
  | ind i ih =>
    have ht' := ht.of_bare_eq hext.bare_eq
    obtain ⟨c, hc, hb⟩ := exists_scope?_of_bare_eq hext.bare_eq hs
    obtain rfl := Option.some.inj (hc.symm.trans hs')
    have hp : c.parent = s.parent := Scope.parent_eq_of_bare_eq hb
    rw [ht'.functionsAround_eq hs', ht.functionsAround_eq hs, parentOf, parentOf, hp]
    cases hsp : s.parent with
    | none => rfl
    | some p =>
      have hpi : p < i := ht.parent_lt hs hsp
      simp only [Option.bind_some]
      cases hq : t.scope? p with
      | none => rw [scope?_eq_none_of_bare_eq hext.bare_eq hq]
      | some q =>
        obtain ⟨q', hq', hqb⟩ := exists_scope?_of_bare_eq hext.bare_eq hq
        have hk : q'.kind = q.kind := Scope.kind_eq_of_bare_eq hqb
        have hi : q'.index = q.index := Scope.index_eq_of_bare_eq hqb
        have hrest := ih p hpi hq hq'
        rw [hq']
        simp only [hk, hi, hrest]
        split
        · next hf =>
          have hfill := hext.filled hq name
          rw [binding?_of_scope? hq, binding?_of_scope? hq'] at hfill
          rw [hfill.map_role hf]
        · rfl

lemma ownership_eq (hext : t.Extends t') (ht : t.Arena) (hs : t.scope? i = some s)
    (hs' : t'.scope? i = some s') (b : Binding) : t'.ownership s' b = t.ownership s b := by
  rw [ownership, ownership, hext.functionsAround_eq ht hs hs']

/-- Settling and noting do not get in each other's way. -/
lemma filled_settledBinding (hext : t.Extends t') (ht : t.Arena) (hs : t.scope? i = some s)
    (hs' : t'.scope? i = some s') {x y : Option Binding} (hf : Filled s.frame x y) :
    Filled s.frame (x.map (t.settledBinding s)) (y.map (t'.settledBinding s')) := by
  cases hf with
  | refl =>
    have heq : t'.settledBinding s' = t.settledBinding s := by
      funext b
      rw [settledBinding, settledBinding, hext.ownership_eq ht hs hs']
    rw [heq]
    exact .refl _
  | owned hb ho =>
    next b =>
    have hb' : ({ b with owner := some s.frame.index } : Binding).isOuter = false := hb
    simp only [Option.map_some, settledBinding_of_not_isOuter hb,
      settledBinding_of_not_isOuter hb']
    exact .owned hb ho
  | created hk hr ho =>
    next b =>
    have hb : b.isOuter = false := by
      rw [Binding.isOuter, hr]
      rfl
    simp only [Option.map_none, Option.map_some, settledBinding_of_not_isOuter hb]
    exact .created hk hr ho

/-- The settled tree of a tree with notes is the settled tree with notes. -/
lemma settledTree (hext : t.Extends t') (ht : t.Arena) :
    t.settledTree.Extends t'.settledTree where
  bare_eq := by rw [bare_settledTree, bare_settledTree, hext.bare_eq]
  sites_eq := hext.sites_eq
  filled := by
    intro i c hc name
    obtain ⟨s, hs, rfl⟩ : ∃ s, t.scope? i = some s ∧ t.settledScope s = c := by
      rw [scope?, ScopeTree.settledTree, List.getElem?_map] at hc
      exact Option.map_eq_some_iff.1 hc
    obtain ⟨s', hs', -⟩ := exists_scope?_of_bare_eq hext.bare_eq hs
    rw [binding?_settledTree hs, binding?_settledTree hs']
    have hf := hext.filled hs name
    rw [binding?_of_scope? hs, binding?_of_scope? hs'] at hf
    exact hext.filled_settledBinding ht hs hs' hf

/-- Notes settle no outer declaration. -/
lemma unsettled (hext : t.Extends t') (hu : t.Unsettled) (hn : t'.DistinctNames) :
    t'.Unsettled where
  arena := hu.arena.of_bare_eq hext.bare_eq
  names := hn
  preorder_eq := by
    rw [preorder_eq_of_bare_eq hext.bare_eq, hu.preorder_eq, size_eq_of_bare_eq hext.bare_eq]
  size_pos := by
    rw [size_eq_of_bare_eq hext.bare_eq]
    exact hu.size_pos
  declared := by
    intro i s' b hs' hb ho
    obtain ⟨s, hs, -⟩ := exists_scope?_of_bare_eq hext.bare_eq.symm hs'
    have hf := hext.filled hs b.name
    rw [binding?_of_scope? hs', hn.binding?_of_mem hs' hb, binding?_of_scope? hs] at hf
    generalize hx : s.binding? b.name = x at hf
    cases hf with
    | refl => exact hu.declared hs (List.mem_of_find?_eq_some hx) ho
    | owned hno => exact absurd (hno.symm.trans ho) (by decide)
    | created _ hr => simp [Binding.isOuter, hr, BindingRole.isOuter] at ho

end Extends

lemma DistinctNames.note (ht : t.DistinctNames) (site : UseSite) (path : List Frame)
    (v : Verdict) : (t.note site path v).DistinctNames := by
  cases v with
  | failed f => exact ht
  | bound owner =>
    simp only [ScopeTree.note]
    split
    · exact ht
    · split
      · exact ht
      · exact ht.put _ _

/-! ## What operations lead to -/

/-- The tree `u` can come from the tree `t` by operations: it is the tree, or the settled tree, with
notes. -/
inductive Reached (t u : ScopeTree) : Prop
  /-- The outer declarations are still to be settled. -/
  | unsettled (hext : t.Extends u) (hn : u.DistinctNames)
  /-- The outer declarations have been settled. -/
  | settled (hext : t.settledTree.Extends u)

namespace Reached

lemma bare_eq (hr : t.Reached u) : u.bare = t.bare := by
  cases hr with
  | unsettled hext => exact hext.bare_eq
  | settled hext => rw [hext.bare_eq, bare_settledTree]

/-- The pass over the outer declarations settles all of them, or it finds nothing left to do. -/
lemma settleOuterDeclarations_cases (hr : t.Reached u) (ht : t.Unsettled) :
    (u.Unsettled ∧ t.Extends u ∧ u.settleOuterDeclarations =
        { tree := u.settledTree, settlements := u.scopes.flatMap u.settlementsIn }) ∨
      (t.settledTree.Extends u ∧ u.settleOuterDeclarations = { tree := u }) := by
  cases hr with
  | unsettled hext hn =>
    have hu := hext.unsettled ht hn
    exact Or.inl ⟨hu, hext, hu.settleOuterDeclarations_eq⟩
  | settled hext =>
    refine Or.inr ⟨hext, settleOuterDeclarations_of_settled ?_⟩
    obtain ⟨-, -, hsettled⟩ := settled_settleOuterDeclarations ht.arena
    rw [ht.settleOuterDeclarations_eq] at hsettled
    intro i hi name
    rw [preorder_eq_of_bare_eq (hext.bare_eq.trans (bare_settledTree t))] at hi
    exact hext.settled (hsettled i hi name)

/-- The pass over the outer declarations makes the settled tree, with notes. -/
lemma settleOuterDeclarations_eq (hr : t.Reached u) (ht : t.Unsettled) :
    ∃ u' settlements, u.settleOuterDeclarations = { tree := u', settlements } ∧
      t.settledTree.Extends u' ∧ ∀ p ∈ settlements, p.owner < u.size := by
  rcases hr.settleOuterDeclarations_cases ht with ⟨hu, hext, heq⟩ | ⟨hext, heq⟩
  · exact ⟨_, _, heq, hext.settledTree ht.arena, fun p hp => (hu.lt_size_of_mem_settlements hp).2⟩
  · exact ⟨u, [], heq, hext, by simp⟩

/-- A resolution, whether it is stopped or not, leads to another such tree. -/
lemma resolveSite (hr : t.Reached u) (ht : t.Unsettled) (site : UseSite) :
    t.Reached (u.perform (.resolve site)) := by
  have hu : u.Arena := ht.arena.of_bare_eq hr.bare_eq
  rw [perform]
  split
  · next v u' hres =>
    obtain ⟨hv, rfl⟩ := (resolveSite_eq_ok hu).1 hres
    have hnote := extends_note hu hv
    cases hr with
    | unsettled hext hn => exact .unsettled (hext.trans hnote) (hn.note _ _ _)
    | settled hext => exact .settled (hext.trans hnote)
  · exact hr

/-- The analysis of every tree that operations lead to. -/
lemma analyze_eq (hr : t.Reached u) (hc : t.Classified h) (mode : Mode) :
    ∃ u' settlements, t.settledTree.Extends u' ∧
      u.analyze mode = (u', .ok (u'.analysisOf settlements h.verdicts
        (.ofVerdicts mode t t.filename (h.verdicts.on h.sites)))) := by
  obtain ⟨u₁, settlements, hs, hext, howner⟩ := hr.settleOuterDeclarations_eq hc.unsettled
  obtain ⟨u', r, hext', hreport, heq⟩ := hc.analyze_of_extends hs hext howner mode
  have hbare : u'.bare = t.bare := hext'.bare_eq.trans (bare_settledTree t)
  have hfile : u'.filename = t.filename := show u'.bare.filename = t.bare.filename by rw [hbare]
  have hr' : r = .ofVerdicts mode t t.filename (h.verdicts.on h.sites) := by
    have := report_eq (congrArg Prod.snd hreport)
    rw [hreport, hc.sitesInOrder_eq hext'.sites_eq, Report.ofVerdicts_eq_of_bare_eq hbare,
      hfile] at this
    exact congrArg Prod.fst this
  exact ⟨u', settlements, hext', hr' ▸ heq⟩

/-- One operation. -/
lemma perform (hr : t.Reached u) (hc : t.Classified h) (operation : Operation) :
    t.Reached (u.perform operation) := by
  cases operation with
  | resolve site => exact hr.resolveSite hc.unsettled site
  | settle =>
    obtain ⟨u', settlements, hs, hext, -⟩ := hr.settleOuterDeclarations_eq hc.unsettled
    rw [ScopeTree.perform, hs]
    exact .settled hext
  | analyze mode =>
    obtain ⟨u', settlements, hext, heq⟩ := hr.analyze_eq hc mode
    rw [ScopeTree.perform, heq]
    exact .settled hext

/-- Some operations. -/
lemma performAll (hr : t.Reached u) (hc : t.Classified h) (operations : List Operation) :
    t.Reached (u.performAll operations) := by
  induction operations generalizing u with
  | nil => exact hr
  | cons operation rest ih => exact ih (hr.perform hc operation)

end Reached

/-- A classified tree is reached from itself. -/
lemma Classified.reached (hc : t.Classified h) : t.Reached t :=
  .unsettled (.refl t) hc.names

/-- Operations on the tree of a stream of events do not show in a later analysis: after any of them,
stopped ones included, it comes to the same verdicts, the same owners and the same diagnostics as
an analysis of the untouched tree. -/
theorem analyze_performAll {unitName filename : Option String} {events : List Event}
    (he : ofEvents unitName filename events = .ok t) (operations : List Operation) (mode : Mode) :
    ∃ a a', (t.analyze mode).2 = .ok a ∧ ((t.performAll operations).analyze mode).2 = .ok a' ∧
      a'.verdicts = a.verdicts ∧ a'.owners = a.owners ∧ a'.diagnostics = a.diagnostics ∧
      a'.siteDiagnostics = a.siteDiagnostics := by
  have hc := classified_ofEvents he
  obtain ⟨u, settlements, -, hfresh⟩ := hc.reached.analyze_eq hc mode
  obtain ⟨u', settlements', -, hused⟩ := (hc.reached.performAll hc operations).analyze_eq hc mode
  exact ⟨_, _, congrArg Prod.snd hfresh, congrArg Prod.snd hused, rfl, rfl, rfl, rfl⟩

/-- A module with a function `f`, in it a function `g` with a target of `f`, and a target of the
module. -/
def sharedTarget : List Event :=
  [.enter .moduleBody none none,
    .enter .functionBody (some "f") none, .mention "x" .assignment none,
    .enter .functionBody (some "g") none, .mention "x" .outerFunction none,
    .mention "x" (.target .augmented) none, .exit, .exit,
    .mention "y" (.target .inline) none, .exit].map fun action => { action }

/-- The target in `g` cannot be resolved before the declaration there is settled. -/
theorem analyze_performAll_sharedTarget :
    ∃ t site₀ site₁, ofEvents none none sharedTarget = .ok t ∧ t.sites = [site₀, site₁] ∧
      (t.resolveSite site₀).toOption = none ∧
      ∃ a a', (t.analyze .warn).2 = .ok a ∧
        ((t.performAll [.resolve site₁, .resolve site₀, .settle, .resolve site₀, .analyze .strict,
          .resolve site₁]).analyze .warn).2 = .ok a' ∧
        a'.verdicts = a.verdicts ∧ a'.owners = a.owners ∧ a'.diagnostics = a.diagnostics := by
  have he : ofEvents none none sharedTarget = .ok _ := rfl
  refine ⟨_, _, _, he, rfl, by decide +kernel, ?_⟩
  obtain ⟨a, a', ha, ha', hv, ho, hd, -⟩ := analyze_performAll he _ .warn
  exact ⟨a, a', ha, ha', hv, ho, hd⟩

end ScopeTree

end TargetScope
