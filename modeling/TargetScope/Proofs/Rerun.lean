import TargetScope.Analysis
import TargetScope.Proofs.Extension

/-!
# Analysing a tree twice

An analysis changes its tree: it settles outer declarations, enters owners and creates bindings.
A second analysis of the tree finds nothing left to do.

* The pass over the outer declarations visits every scope under the root, and a declaration that
  has an owner keeps one (`Settling.Continues`).  So afterwards all of them have owners, also when
  notes are added, and the pass over such a tree is the identity
  (`ScopeTree.settleOuterDeclarations_of_settled`).
* The resolutions are done in an extension of the tree in which they were done before, so that
  `ScopeTree.resolveSites_eq` applies.

The tree may have been put together by hand: `ScopeTree.Grown` asks only that parents exist when
their children are added.
-/

namespace TargetScope

namespace ScopeTree

variable {t t' : ScopeTree} {i : Nat} {name : String}

/-- The trees that can be put together scope by scope, with any bindings and any use sites. -/
inductive Grown : ScopeTree → Prop
  | empty (unitName filename : Option String) : Grown { unitName, filename }
  | addScope {t : ScopeTree} (ht : Grown t) (kind : ScopeKind) {parent : Option Nat}
    (label : Option String) (position : Option Position) (hp : ∀ p ∈ parent, p < t.size) :
    Grown (t.addScope kind parent label position)
  | put {t : ScopeTree} (ht : Grown t) (i : Nat) (b : Binding) : Grown (t.put i b)
  | addSite {t : ScopeTree} (ht : Grown t) (name : String) (scope : Int) (operator : Operator)
    (position : Option Position) (order : Int) :
    Grown (t.addSite name scope operator position order)

lemma Grown.arena (ht : t.Grown) : t.Arena := by
  induction ht with
  | empty => exact ⟨fun hs => by simp [scope?] at hs, fun hs => by simp [scope?] at hs⟩
  | addScope _ _ _ _ hp ih => exact ih.addScope hp
  | put _ i b ih => exact ih.put i b
  | addSite _ _ _ _ _ _ ih => exact ih.of_bare_eq rfl

/-- If the name is declared outer in the scope at the place, its owner is known. -/
def Settled (t : ScopeTree) (i : Nat) (name : String) : Prop :=
  ∀ b, t.binding? i name = some b → b.isOuter = true → b.owner.isSome = true

/-- Notes leave nothing unsettled. -/
lemma Extends.settled (h : t.Extends t') (hs : t.Settled i name) : t'.Settled i name := by
  intro b hb ho
  cases hscope : t.scope? i with
  | none =>
    have hnone := scope?_eq_none_of_bare_eq h.bare_eq hscope
    simp [binding?, hnone] at hb
  | some s =>
    have hf := h.filled hscope name
    rw [hb] at hf
    generalize hx : t.binding? i name = x at hf
    cases hf with
    | refl => exact hs b hx ho
    | owned => rfl
    | created _ _ howner => rw [howner, Option.isSome_some]

end ScopeTree

/-! ## The pass leaves nothing unsettled -/

namespace Settling

variable {s s' s'' : Settling} {home i owner : Nat} {b : Binding} {name : String} {deferred : Bool}

/-- The second state of the pass is reached from the first: the scopes and the use sites are the
same, and what was settled still is. -/
structure Continues (s s' : Settling) : Prop where
  bare_eq : s'.tree.bare = s.tree.bare
  sites_eq : s'.tree.sites = s.tree.sites
  settled : ∀ (i : Nat) (name : String), s.tree.Settled i name → s'.tree.Settled i name

namespace Continues

lemma refl (s : Settling) : s.Continues s :=
  ⟨rfl, rfl, fun _ _ h => h⟩

lemma trans (h : s.Continues s') (h' : s'.Continues s'') : s.Continues s'' where
  bare_eq := h'.bare_eq.trans h.bare_eq
  sites_eq := h'.sites_eq.trans h.sites_eq
  settled := fun i name hs => h'.settled i name (h.settled i name hs)

lemma size_eq (h : s.Continues s') : s'.tree.size = s.tree.size :=
  ScopeTree.size_eq_of_bare_eq h.bare_eq

end Continues

/-- The second state is reached from the first, and the name has an owner in the scope `home`
there. -/
def Reaches (s s' : Settling) (home : Nat) (name : String) : Prop :=
  s.Continues s' ∧ ∃ c, s'.tree.binding? home name = some c ∧ c.owner.isSome = true

lemma reaches_settle (hh : home < s.tree.size) (b : Binding) (owner : Nat) (deferred : Bool) :
    s.Reaches (s.settle home b owner deferred) home b.name := by
  have hput : ∀ (i : Nat) (name : String),
      (s.settle home b owner deferred).tree.binding? i name =
        if home = i ∧ b.name = name then some { b with owner := some owner }
        else s.tree.binding? i name :=
    fun i name => ScopeTree.binding?_put s.tree _ i name hh
  refine ⟨⟨ScopeTree.bare_put _ _ _, ScopeTree.sites_put _ _ _, ?_⟩, ?_⟩
  · intro i name hs c hc ho
    rw [hput] at hc
    split at hc
    · obtain rfl := Option.some.inj hc
      rfl
    · exact hs c hc ho
  · exact ⟨{ b with owner := some owner }, by rw [hput, if_pos ⟨rfl, rfl⟩], rfl⟩

lemma reaches_inherit (hh : home < s.tree.size) (b : Binding) (source : Nat) (outer : Binding) :
    s.Reaches (s.inherit home b source outer) home b.name := by
  rw [inherit]
  split
  · exact reaches_settle hh { b with role := .outerModule, promotedFrom := some b.role } _ _
  · exact reaches_settle hh b _ _

lemma reaches_settleOuter (around : List Scope) (hh : home < s.tree.size) (b : Binding)
    (fallback : Nat) : s.Reaches (settleOuter around home b fallback s) home b.name := by
  -- both the declaration and, before it, an outer one that is needed are settled by the same walk
  induction around generalizing home b fallback s with
  | nil => exact reaches_settle hh b fallback true
  | cons f around ih =>
    rw [settleOuter]
    split
    · exact ih hh b fallback
    · next outer hout =>
      obtain ⟨scope, hscope, hfind⟩ := Option.bind_eq_some_iff.1 hout
      have hf : f.index < s.tree.size := ScopeTree.lt_size_of_scope? hscope
      have hname : outer.name = b.name := by simpa using List.find?_some hfind
      split
      · split
        · exact reaches_inherit hh b f.index outer
        · -- the outer declaration is settled first, and has its binding afterwards
          have hfirst : s.Reaches
              (if outer.role = .outerModule then s.settle f.index outer ScopeTree.rootIndex false
                else settleOuter around f.index outer (fallbackOwner around) s) f.index b.name := by
            rw [← hname]
            split
            · exact reaches_settle hf outer _ _
            · exact ih hf outer _
          obtain ⟨hcont, c, hc, -⟩ := hfirst
          simp only [hc]
          obtain ⟨hlast, hown⟩ := reaches_inherit (hcont.size_eq ▸ hh) b f.index c
          exact ⟨hcont.trans hlast, hown⟩
      · exact reaches_settle hh b f.index false

lemma reaches_settleDeclaration {home : Scope} (hh : home.index < s.tree.size) (b : Binding) :
    s.Reaches (s.settleDeclaration home b) home.index b.name := by
  rw [settleDeclaration]
  split
  · exact reaches_settle hh b _ _
  · exact reaches_settleOuter _ hh b _

/-- After its turn, a name is settled. -/
lemma settled_settleName (ht : s.tree.Arena) (i : Nat) (name : String) :
    s.Continues (s.settleName i name) ∧ (s.settleName i name).tree.Settled i name := by
  have hdone : (∀ c, s.tree.binding? i name = some c → c.isOuter = true → c.owner.isSome = true) →
      s.Continues s ∧ s.tree.Settled i name := fun h => ⟨.refl s, h⟩
  rw [settleName]
  split
  · next hs => exact hdone fun c hc => by simp [ScopeTree.binding?, hs] at hc
  · next home hs =>
    rw [ScopeTree.binding?_of_scope? hs] at hdone
    split
    · next b hb =>
      split
      · have hname : b.name = name := by simpa using List.find?_some hb
        obtain ⟨hcont, c, hc, howner⟩ :=
          reaches_settleDeclaration (ht.index_eq hs ▸ ScopeTree.lt_size_of_scope? hs) b
        rw [ht.index_eq hs, hname] at hc
        refine ⟨hcont, ?_⟩
        intro c' hc' _
        obtain rfl := Option.some.inj (hc.symm.trans hc')
        exact howner
      · next hn =>
        refine hdone fun c hc ho => ?_
        obtain rfl := Option.some.inj (hb.symm.trans hc)
        simpa [ho, Option.isSome_iff_ne_none] using hn
    · next hb => exact hdone fun c hc => by simp [hb] at hc

lemma settled_foldl_settleName (ht : s.tree.Arena) (i : Nat) (names : List String) :
    s.Continues (names.foldl (fun s name => s.settleName i name) s) ∧
      ∀ name ∈ names, (names.foldl (fun s name => s.settleName i name) s).tree.Settled i name := by
  induction names generalizing s with
  | nil => exact ⟨.refl s, fun _ h => absurd h List.not_mem_nil⟩
  | cons name names ih =>
    obtain ⟨hstep, hname⟩ := settled_settleName ht i name
    obtain ⟨hrest, hnames⟩ := ih (ht.of_bare_eq hstep.bare_eq)
    refine ⟨hstep.trans hrest, ?_⟩
    intro other ho
    rcases List.mem_cons.1 ho with rfl | ho
    · exact hrest.settled i other hname
    · exact hnames other ho

/-- After its turn, a scope is settled. -/
lemma settled_settleScope (ht : s.tree.Arena) (i : Nat) :
    s.Continues (s.settleScope i) ∧ ∀ name, (s.settleScope i).tree.Settled i name := by
  rw [settleScope]
  split
  · next hs => exact ⟨.refl s, fun name c hc => by simp [ScopeTree.binding?, hs] at hc⟩
  · next home hs =>
    obtain ⟨hcont, hnames⟩ := settled_foldl_settleName ht i (home.bindings.map Binding.name)
    refine ⟨hcont, ?_⟩
    intro name
    by_cases hn : name ∈ home.bindings.map Binding.name
    · exact hnames name hn
    · -- a name that the scope does not hold is settled from the beginning
      refine hcont.settled i name fun c hc _ => absurd ?_ hn
      rw [ScopeTree.binding?_of_scope? hs] at hc
      have hname : c.name = name := by simpa using List.find?_some hc
      exact hname ▸ List.mem_map_of_mem (List.mem_of_find?_eq_some hc)

lemma settled_foldl_settleScope (ht : s.tree.Arena) (places : List Nat) :
    s.Continues (places.foldl settleScope s) ∧
      ∀ i ∈ places, ∀ name, (places.foldl settleScope s).tree.Settled i name := by
  induction places generalizing s with
  | nil => exact ⟨.refl s, fun _ h => absurd h List.not_mem_nil⟩
  | cons i places ih =>
    obtain ⟨hstep, hi⟩ := settled_settleScope ht i
    obtain ⟨hrest, hplaces⟩ := ih (ht.of_bare_eq hstep.bare_eq)
    refine ⟨hstep.trans hrest, ?_⟩
    intro j hj name
    rcases List.mem_cons.1 hj with rfl | hj
    · exact hrest.settled j name (hi name)
    · exact hplaces j hj name

/-! ## The pass over a settled tree -/

lemma settleName_of_settled (h : s.tree.Settled i name) : s.settleName i name = s := by
  rw [settleName]
  split
  · rfl
  · next home hs =>
    split
    · next b hb =>
      rw [← ScopeTree.binding?_of_scope? hs] at hb
      split
      · next hc =>
        rw [Bool.and_eq_true, Option.isNone_iff_eq_none] at hc
        have := h b hb hc.1
        simp [hc.2] at this
      · rfl
    · rfl

lemma settleScope_of_settled (h : ∀ name, s.tree.Settled i name) : s.settleScope i = s := by
  rw [settleScope]
  split
  · rfl
  · next home _ =>
    induction home.bindings.map Binding.name with
    | nil => rfl
    | cons name names ih => rw [List.foldl_cons, settleName_of_settled (h name), ih]

lemma foldl_settleScope_of_settled {places : List Nat}
    (h : ∀ i ∈ places, ∀ name, s.tree.Settled i name) : places.foldl settleScope s = s := by
  induction places with
  | nil => rfl
  | cons i places ih =>
    rw [List.foldl_cons, settleScope_of_settled (h i List.mem_cons_self)]
    exact ih fun j hj => h j (List.mem_cons_of_mem _ hj)

end Settling

namespace ScopeTree

variable {t t' : ScopeTree}

/-- The pass over the outer declarations settles all of them. -/
lemma settled_settleOuterDeclarations (ht : t.Arena) :
    t.settleOuterDeclarations.tree.bare = t.bare ∧
      t.settleOuterDeclarations.tree.sites = t.sites ∧
      ∀ i ∈ t.preorder, ∀ name, t.settleOuterDeclarations.tree.Settled i name := by
  have hs : ({ tree := t } : Settling).tree.Arena := ht
  obtain ⟨hcont, hall⟩ := Settling.settled_foldl_settleScope hs t.preorder
  exact ⟨hcont.bare_eq, hcont.sites_eq, hall⟩

lemma settleOuterDeclarations_of_settled (h : ∀ i ∈ t.preorder, ∀ name, t.Settled i name) :
    t.settleOuterDeclarations = { tree := t } :=
  Settling.foldl_settleScope_of_settled h

end ScopeTree

/-! ## The stages of an analysis -/

/-- Whether a site lacks its verdict does not depend on the mode. -/
lemma Report.snd_addSites (mode mode' : Mode) (t : ScopeTree) (filename : Option String)
    (verdicts : Verdicts) (r r' : Report) (sites : List UseSite) :
    (addSites mode t filename verdicts r sites).2 =
      (addSites mode' t filename verdicts r' sites).2 := by
  induction sites generalizing r r' with
  | nil => rfl
  | cons site rest ih =>
    rw [addSites, addSites]
    split
    · rfl
    · exact ih _ _

namespace ScopeTree

variable {t t₁ t₂ : ScopeTree} {mode : Mode} {settlements : List Settlement} {verdicts : Verdicts}
  {r : Report} {a : Analysis}

/-- Sites that were met in program order are listed as they were met. -/
lemma sitesInOrder_of_pairwise (h : t.sites.Pairwise fun u v => u.order ≤ v.order) :
    t.sitesInOrder = t.sites :=
  List.mergeSort_of_pairwise (h.imp decide_eq_true)

/-- The analysis in which all stages do what they should. -/
def analysisOf (t : ScopeTree) (settlements : List Settlement) (verdicts : Verdicts) (r : Report) :
    Analysis where
  tree := some t
  settlements := settlements
  verdicts := verdicts
  owners := r.owners
  siteDiagnostics := r.siteDiagnostics
  diagnostics := r.diagnostics
  entries := analysisEntries t settlements verdicts r.diagnostics

/-- An analysis has a result if no stage is stopped. -/
lemma analyze_eq (mode : Mode) (hs : t.settleOuterDeclarations = { tree := t₁, settlements })
    (howner : ∀ s ∈ settlements, s.owner < t.size)
    (hr : t₁.resolve = { tree := t₂, verdicts })
    (hreport : t₂.report mode none verdicts = (r, none)) :
    t.analyze mode = (t₂, .ok (t₂.analysisOf settlements verdicts r)) := by
  have hfind : settlements.find? (fun s => t.size ≤ s.owner) = none :=
    List.find?_eq_none.2 fun s h => by simpa using howner s h
  simp only [analyze, hs, hfind, hr, hreport, analysisOf]

/-- Where an analysis has a result, no stage was stopped. -/
lemma of_analyze_eq_ok (h : (t.analyze mode).2 = .ok a) :
    (∀ s ∈ t.settleOuterDeclarations.settlements, s.owner < t.size) ∧
      t.settleOuterDeclarations.tree.resolve.stopped = none ∧
      (t.settleOuterDeclarations.tree.resolve.tree.report mode none
        t.settleOuterDeclarations.tree.resolve.verdicts).2 = none := by
  rw [analyze] at h
  simp only at h
  split at h
  · simp at h
  · next hfind =>
    split at h
    · simp at h
    · next hstop =>
      split at h
      · simp at h
      · next hreport =>
        refine ⟨?_, hstop, by rw [hreport]⟩
        intro s hs
        simpa using List.find?_eq_none.1 hfind s hs

/-- An analysis of an analysed tree changes nothing.  Whatever the modes of the two are, the
second has a result, leaves the tree as the first left it, settles no declaration and comes to the
same verdicts; in the same mode it also makes the same report. -/
theorem analyze_analyze (ht : t.Grown) (h : (t.analyze mode).2 = .ok a) (mode' : Mode) :
    ∃ a', (t.analyze mode).1.analyze mode' = ((t.analyze mode).1, .ok a') ∧
      a.tree = some (t.analyze mode).1 ∧ a'.tree = a.tree ∧ a'.settlements = [] ∧
      a'.verdicts = a.verdicts ∧
      (mode' = mode → a'.diagnostics = a.diagnostics ∧ a'.owners = a.owners ∧
        a'.siteDiagnostics = a.siteDiagnostics) := by
  obtain ⟨howner, hstop, hreport⟩ := of_analyze_eq_ok h
  obtain ⟨hbare, hsites, hsettled⟩ := settled_settleOuterDeclarations ht.arena
  generalize hst : t.settleOuterDeclarations = settled at howner hstop hreport hbare hsites hsettled
  obtain ⟨t₁, settlements⟩ := settled
  simp only at howner hstop hreport hbare hsites hsettled
  have ht₁ : t₁.Arena := ht.arena.of_bare_eq hbare
  -- the resolutions of the first analysis, and the same in the tree that they leave
  let verdict := fun site => (t₁.verdict? site).getD (.bound rootIndex)
  have hverdict : ∀ site ∈ t₁.sitesInOrder, t₁.Resolves site (verdict site) := by
    intro site hsite
    obtain ⟨v, hv⟩ := resolves_of_stopped_eq_none ht₁ hstop site hsite
    have hv' : verdict site = v := by simp only [verdict, hv.1, Option.getD_some]
    rw [hv']
    exact hv
  obtain ⟨t₂, hext, hresolve, hagain⟩ := resolveSites_eq ht₁ hverdict
  have horder : t₂.sitesInOrder = t₁.sitesInOrder := by
    rw [sitesInOrder, hext.sites_eq, sitesInOrder]
  have hresolve' : t₂.resolve = { tree := t₂, verdicts := t₁.resolve.verdicts } := by
    rw [resolve, horder, hagain t₂ (.refl t₂), resolve, hresolve]
  rw [← resolve] at hresolve
  -- the pass finds all settled
  have hpre : t₂.preorder = t.preorder := preorder_eq_of_bare_eq (hext.bare_eq.trans hbare)
  have hsettle : t₂.settleOuterDeclarations = { tree := t₂ } := by
    refine settleOuterDeclarations_of_settled fun i hi name => ?_
    exact hext.settled (hsettled i (hpre ▸ hi) name)
  -- the reports are about the same tree
  rw [hresolve] at hreport
  have hreport' : (t₂.report mode' none t₁.resolve.verdicts).2 = none := by
    rw [← hreport, hresolve]
    exact Report.snd_addSites mode' mode t₂ _ _ {} {} _
  have hfirst := analyze_eq mode hst howner hresolve (Prod.ext rfl hreport)
  have hsecond := analyze_eq mode' hsettle (by simp) hresolve' (Prod.ext rfl hreport')
  rw [hfirst] at h ⊢
  obtain rfl := Except.ok.inj h
  refine ⟨_, hsecond, rfl, rfl, rfl, by rw [hresolve]; rfl, ?_⟩
  rintro rfl
  rw [hresolve]
  exact ⟨rfl, rfl, rfl⟩

/-- A function in a module.  No stream of events leads to this tree: an assignment has an owner, and
this is another scope. -/
def handmade : ScopeTree :=
  let t := ({} : ScopeTree).addScope .moduleBody none (some "m") none
  let t := t.addScope .functionBody (some 0) (some "f") none
  let t := t.put 1 { name := "x", role := .outerFunction, boundOrder := some 1 }
  let t := t.put 1 { name := "y", role := .plain, boundOrder := some 2, owner := some 0 }
  let t := t.addSite "x" 1 .augmented none 3
  let t := t.addSite "y" 1 .inline none 4
  t.addSite "z" 0 .inline none 5

/-- The second analysis of the tree settles nothing and finds the binding that the first created. -/
theorem analyze_analyze_handmade :
    ∃ a', (handmade.analyze .strict).1.analyze .legacy =
        ((handmade.analyze .strict).1, .ok a') ∧
      a'.settlements = [] ∧ a'.verdicts = [(0, .bound 0), (1, .bound 0), (2, .bound 0)] := by
  have hgrown : handmade.Grown := by
    refine .addSite (.addSite (.addSite (.put (.put (.addScope (.addScope (.empty _ _) _ _ _ ?_)
      _ _ _ ?_) _ _) _ _) _ _ _ _ _) _ _ _ _ _) _ _ _ _ _
    · simp
    · simp
  have horder : handmade.sites.mergeSort (fun u v => u.order ≤ v.order) = handmade.sites :=
    List.mergeSort_of_pairwise (by decide +kernel)
  have hs : handmade.settleOuterDeclarations =
      { tree := handmade.settleOuterDeclarations.tree
        settlements := [⟨1, "x", .outerFunction, 0, none, true⟩] } := by decide +kernel
  have hr : handmade.settleOuterDeclarations.tree.resolve =
      { tree := (handmade.settleOuterDeclarations.tree.resolveSites handmade.sites).tree
        verdicts := [(0, .bound 0), (1, .bound 0), (2, .bound 0)] } := by
    have hsites : handmade.settleOuterDeclarations.tree.sites = handmade.sites := by
      decide +kernel
    rw [resolve, sitesInOrder, hsites, horder]
    decide +kernel
  have hreport : ((handmade.settleOuterDeclarations.tree.resolveSites handmade.sites).tree.report
      .strict none [(0, .bound 0), (1, .bound 0), (2, .bound 0)]).2 = none := by
    have hsites : (handmade.settleOuterDeclarations.tree.resolveSites handmade.sites).tree.sites =
        handmade.sites := by decide +kernel
    rw [report, sitesInOrder, hsites, horder]
    decide +kernel
  have ha := congrArg Prod.snd
    (analyze_eq .strict hs (by decide) hr (Prod.ext rfl hreport))
  obtain ⟨a', heq, -, -, hset, hv, -⟩ := analyze_analyze hgrown ha .legacy
  exact ⟨a', heq, hset, hv⟩

end ScopeTree

end TargetScope
