import TargetScope.Proofs.Law

/-!
# Every stream of events has an analysis

An analysis of events never ends in an internal error, whatever the events are.  Either they
describe no scope tree, and the analysis consists of one diagnostic, or they do, and then every
stage meets its expectations; in particular every scope that the analysis refers to is in the tree
(`Analysis.WellScoped`).
-/

namespace TargetScope

/-- The scopes that a verdict names are among the first `size` ones. -/
def Verdict.Within (size : Nat) : Verdict → Prop
  | bound owner => owner < size
  | failed f => f.scope < size ∧ ∀ owner ∈ f.fallback, owner < size

/-- All places in an analysis of the tree `t` are places of scopes of the tree, and every use site
has its verdict. -/
structure Analysis.WellScoped (a : Analysis) (t : ScopeTree) : Prop where
  /-- The scopes refer to each other. -/
  scopes : ∀ {i : Nat} {s : Scope}, t.scope? i = some s →
    s.index = i ∧ (∀ p ∈ s.parent, p < t.size) ∧ ∀ c ∈ s.children, c < t.size
  /-- The use sites stand in scopes. -/
  sites : ∀ site ∈ t.sites, ∃ s, t.scopeAt? site.scope = some s
  /-- The use sites have verdicts. -/
  verdicts : ∀ site ∈ t.sites, ∃ v, a.verdicts.lookup site.index = some v ∧ v.Within t.size
  /-- The settlements name scopes and their owners. -/
  settlements : ∀ p ∈ a.settlements, p.scope < t.size ∧ p.owner < t.size
  /-- The owners of targets are scopes. -/
  owners : ∀ p ∈ a.owners, p.2 < t.size

/-- What an analysis has to say about its progress refers to no scope. -/
lemma Analysis.WellScoped.announce {a : Analysis} {t : ScopeTree} (h : a.WellScoped t)
    (entries : List Log.Entry) : (a.announce entries).WellScoped t :=
  ⟨h.scopes, h.sites, h.verdicts, h.settlements, h.owners⟩

namespace ScopeTree

variable {t t' : ScopeTree} {h : History} {o : Occurrence} {mode : Mode}

/-- The verdicts of a history name scopes of the tree. -/
lemma Classified.within_verdict (hc : t.Classified h) (ho : o ∈ h) (site : UseSite) :
    (h.verdict o site).Within t.size := by
  obtain ⟨s, hs, -⟩ := hc.exists_block ho
  have hblock : o.block.index < t.size := lt_size_of_scope? hs
  refine h.verdict_elim o site ?onPath ?inClass ?inBlock ?missing ?bound
  case onPath => exact fun f _ p hp => ⟨hc.index_lt (History.of_blocker? hp).1, by simp⟩
  case inClass => exact ⟨hblock, by simp⟩
  case inBlock => exact fun p _ => ⟨hblock, by simp⟩
  case missing => exact fun _ _ _ => ⟨hblock, by simpa using hblock⟩
  case bound => exact fun _ _ _ => hc.owner_lt ho

lemma Classified.within_of_mem_verdicts (hc : t.Classified h) {p : Nat × Verdict}
    (hp : p ∈ h.verdicts) : p.2.Within t.size := by
  obtain ⟨k, hk, rfl⟩ := List.mem_mapIdx.1 hp
  exact hc.within_verdict (History.mem_of_mem_targets (List.getElem_mem hk)) _

end ScopeTree

/-- The owners in a report are named by the verdicts. -/
lemma Report.owners_addSites_lt {size : Nat} (mode : Mode) (t : ScopeTree)
    (filename : Option String) {verdicts : Verdicts} {r : Report} {sites : List UseSite}
    (hv : ∀ p ∈ verdicts, p.2.Within size) (hr : ∀ p ∈ r.owners, p.2 < size) :
    ∀ p ∈ (addSites mode t filename verdicts r sites).1.owners, p.2 < size := by
  induction sites generalizing r with
  | nil => exact hr
  | cons site rest ih =>
    rw [addSites]
    split
    · exact hr
    · next v hlookup =>
      obtain ⟨before, after, rfl, -⟩ := List.lookup_eq_some_iff.1 hlookup
      have hwithin : v.Within size := hv (site.index, v) (by simp)
      refine ih ?_
      intro p hp
      cases v with
      | bound owner =>
        rcases List.mem_append.1 hp with hp | hp
        · exact hr p hp
        · obtain rfl := List.mem_singleton.1 hp
          exact hwithin
      | failed f =>
        simp only [add] at hp
        split at hp
        · next owner _ hfall =>
          rcases List.mem_append.1 hp with hp | hp
          · exact hr p hp
          · obtain rfl := List.mem_singleton.1 hp
            exact hwithin.2 owner hfall
        · exact hr p hp

namespace ScopeTree

variable {t t' : ScopeTree} {h : History} {mode : Mode} {r : Report}

/-- The analysis of a classified tree is well-scoped. -/
lemma Classified.wellScoped (hc : t.Classified h) (hext : t.settledTree.Extends t')
    (hr : t'.report mode none h.verdicts = (r, none)) :
    (t'.analysisOf (t.scopes.flatMap t.settlementsIn) h.verdicts r).WellScoped t' := by
  have hbare : t'.bare = t.bare := hext.bare_eq.trans (bare_settledTree t)
  have hsize : t'.size = t.size := size_eq_of_bare_eq hbare
  have harena : t'.Arena := hc.arena.of_bare_eq hbare
  have hsites : t'.sites = h.sites := hext.sites_eq.trans hc.sites_eq
  refine ⟨?_, ?_, ?_, ?_, ?_⟩
  · intro i s hs
    obtain ⟨s₀, hs₀, hb⟩ := exists_scope?_of_bare_eq hbare.symm hs
    refine ⟨harena.index_eq hs, ?_, ?_⟩
    · intro p hp
      have := harena.parent_lt hs hp
      have := lt_size_of_scope? hs
      omega
    · rw [hsize, ← Scope.children_eq_of_bare_eq hb]
      exact hc.children_lt hs₀
  · intro site hs
    rw [hsites] at hs
    obtain ⟨k, hk, rfl⟩ := List.mem_mapIdx.1 hs
    have hlt := hc.index_lt (History.mem_of_mem_targets (List.getElem_mem hk))
    rw [← hsize] at hlt
    simpa [Occurrence.site] using exists_scope?_of_lt hlt
  · intro site hs
    rw [hsites] at hs
    obtain ⟨v, hv⟩ := Option.isSome_iff_exists.1 (History.isSome_lookup_verdicts hs)
    refine ⟨v, hv, ?_⟩
    obtain ⟨before, after, heq, -⟩ := List.lookup_eq_some_iff.1 hv
    rw [hsize]
    exact hc.within_of_mem_verdicts (p := (site.index, v)) (by simp [heq])
  · intro p hp
    rw [hsize]
    exact hc.unsettled.lt_size_of_mem_settlements hp
  · have hown := congrArg (fun x => x.1.owners) hr
    show ∀ p ∈ r.owners, p.2 < t'.size
    rw [← hown, hsize]
    exact Report.owners_addSites_lt mode t' _ (fun p hp => hc.within_of_mem_verdicts hp)
      (fun p hp => absurd hp List.not_mem_nil)

end ScopeTree

/-- Whatever the events are, their analysis has a result.  If they describe a tree, then the
analysis has the tree that the analysis of this tree leaves: it has the same scopes, and all parts
of the analysis refer to them.  If they describe none, then the analysis has none, and consists of
exactly one diagnostic, which is an error. -/
theorem analyzeEvents_eq_ok (mode : Mode) (events : List Event)
    (unitName filename : Option String) :
    ∃ a, analyzeEvents mode events unitName filename = .ok a ∧
      match ScopeTree.ofEvents unitName filename events with
      | .ok t => a.tree = some (t.analyze mode).1 ∧ (t.analyze mode).1.bare = t.bare ∧
          a.WellScoped (t.analyze mode).1
      | .error e => a.tree = none ∧ a.diagnostics = [e.diagnostic unitName filename] ∧
          (e.diagnostic unitName filename).severity = .error := by
  rw [analyzeEvents]
  cases he : ScopeTree.ofEvents unitName filename events with
  | error e =>
    exact ⟨_, rfl, rfl, rfl, rfl⟩
  | ok t =>
    have hc := ScopeTree.classified_ofEvents he
    obtain ⟨t', r, hext, hr, heq⟩ := hc.analyze_eq mode
    simp only [heq]
    exact ⟨_, rfl, rfl, hext.bare_eq.trans (ScopeTree.bare_settledTree t),
      (hc.wellScoped hext hr).announce _⟩

end TargetScope
