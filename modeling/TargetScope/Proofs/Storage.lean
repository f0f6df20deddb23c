import TargetScope.Proofs.Creation
import TargetScope.Proofs.Texts

/-!
# Where the targets of a block are kept

A target that is owned by its own block scope, and not through an outer declaration there, can rely
on a binding of its name in that block once the analysis is over.  There are three ways to such an
owner, and each has its own reason:

* the target is bound to a binding that was there, which stays;
* it is bound in a module or a class body without the name, so that it asks for a binding, and some
  site creates one (`ScopeTree.Classified.asksFor_of_verdict`);
* it has no binding before it in a function, and the mode tolerates that.  Then nothing on its way
  blocks the name after the whole stream, so nothing did when the target was met, and at the latest
  the target itself has given the function a binding (`History.exists_decisive?`).
-/

namespace TargetScope

namespace Binding.Becomes

variable {b c : Binding}

/-- No binding begins or ceases to forbid its name. -/
lemma isBlocking_eq (h : b.Becomes c) : c.isBlocking = b.isBlocking := by
  rcases h.role_cases with ⟨hr, -⟩ | ⟨hb, hr, -⟩
  · rw [isBlocking, hr, isBlocking]
  · rw [isBlocking, hr, isBlocking, hb]
    decide

/-- No binding begins or ceases to be an outer declaration. -/
lemma isOuter_eq (h : b.Becomes c) : c.isOuter = b.isOuter := by
  rcases h.role_cases with ⟨hr, -⟩ | ⟨hb, hr, -⟩
  · rw [isOuter, hr, isOuter]
  · rw [isOuter, hr, isOuter, hb]
    decide

end Binding.Becomes

/-! ## What a verdict can be -/

lemma Mention.eq_target_of_operator? {m : Mention} {operator : Operator}
    (h : m.operator? = some operator) : m = .target operator := by
  cases m with
  | target operator' => exact congrArg target (Option.some.inj h)
  | _ => exact absurd h (by simp [operator?])

namespace History

variable {h : History} {i : Nat} {name : String} {o d : Occurrence} {site : UseSite}

/-- A use site is that of a target, and its verdict is the one on that target. -/
lemma exists_of_mem_sites (hs : site ∈ h.sites) :
    ∃ o operator k, o ∈ h ∧ o.how = .target operator ∧ site = o.site operator k ∧
      h.verdicts.lookup site.index = some (h.verdict o site) := by
  obtain ⟨⟨o, operator⟩, hx, hsame⟩ := mem_sites_iff.1 hs
  obtain ⟨o', ho, hop⟩ := List.mem_filterMap.1 (List.mem_of_getElem? hx)
  obtain ⟨operator', hhow, heq⟩ := Option.map_eq_some_iff.1 hop
  obtain ⟨rfl, rfl⟩ := Prod.mk.inj heq
  refine ⟨o', operator', site.index, ho, Mention.eq_target_of_operator? hhow, hsame.symm, ?_⟩
  rw [lookup_verdicts, hx, Option.map_some]
  exact congrArg (fun u => some (h.verdict o' u)) hsame

/-- No transparent scope on the way of the mention to its block ever has the name as a parameter or
an iteration variable. -/
def IsFree (h : History) (o : Occurrence) : Prop :=
  (o.transparentPath.findSome? fun f => h.blocker? f.index o.name) = none

/-- A verdict is a failure that no mode tolerates, or the way of the target is free and its block
does not forbid the name; then it names a missing binding in a function, or binds the target. -/
lemma verdict_cases (h : History) (o : Occurrence) (site : UseSite) :
    (∃ f, h.verdict o site = .failed f ∧ f.kind ≠ .targetName ∧ f.fallback = none) ∨
      h.IsFree o ∧ h.blocker? o.block.index o.name = none ∧
        (o.block.kind = .functionBody ∧
            h.verdict o site = .failed
              { kind := .targetName, reason := .missingBinding, site, scope := o.block.index,
                fallback := some o.block.index } ∨
          (o.block.kind = .functionBody →
              (h.establishing? o.block.index o.name).any (·.order < o.order) = true) ∧
            h.verdict o site = .bound (h.owner o)) := by
  refine h.verdict_elim o site ?onPath ?inClass ?inBlock ?missing ?bound
  case onPath => exact fun f _ p _ => .inl ⟨_, rfl, by simp, rfl⟩
  case inClass => exact .inl ⟨_, rfl, by simp, rfl⟩
  case inBlock => exact fun p _ => .inl ⟨_, rfl, by simp, rfl⟩
  case missing => exact fun hfree hblock hk => .inr ⟨hfree, hblock, .inl ⟨hk, rfl⟩⟩
  case bound => exact fun hfree hblock hbefore => .inr ⟨hfree, hblock, .inr ⟨hbefore, rfl⟩⟩

lemma outer?_eq_none_of_decisive? (hblock : h.blocker? i name = none)
    (hd : ∀ d, h.decisive? i name = some d → d.role.isOuter = false) : h.outer? i name = none := by
  cases hu : h.outer? i name with
  | none => rfl
  | some d =>
    have hdec : h.decisive? i name = some d := by
      rw [decisive?, hblock, hu, Option.none_or, Option.some_or]
    exact absurd (of_outer? hu).2.2.2 (by simp [hd d hdec])

/-- A way that is free after the whole stream was free before. -/
lemma IsFree.obstructs_eq (hfree : h.IsFree o) : h.obstructs o = false := by
  refine obstructs_eq_false_iff.2 fun f hf p hp _ => ?_
  exact blocker?_eq_none_iff.1 (List.findSome?_eq_none_iff.1 hfree f hf) p hp

/-- A target whose way to a function is free gives the function a binding of its name, if nothing
else does. -/
lemma exists_decisive? (ho : o ∈ h) (hr : o.role = .targetOnly)
    (hk : o.block.kind = .functionBody) (hfree : h.IsFree o) :
    ∃ d, h.decisive? o.block.index o.name = some d := by
  rw [← Option.isSome_iff_exists, decisive?]
  have hbare : (h.bareTarget? o.block.index o.name).isSome = true := by
    rw [bareTarget?, List.find?_isSome]
    have hblock : o.block = ⟨o.block.index, .functionBody⟩ := by rw [← hk]
    refine ⟨o, ho, ?_⟩
    rw [hfree.obstructs_eq, ← hblock]
    simp [hr]
  simp [Option.isSome_or, hbare]

end History

namespace ScopeTree

variable {t : ScopeTree} {h : History} {i : Nat} {s : Scope} {name : String} {o d : Occurrence}
  {operator : Operator} {k w : Nat}

/-- The target is bound by an outer declaration of its name in the block scope. -/
def IsThrough (v : Verdict) (block : Scope) (name : String) : Prop :=
  (∃ w, v = .bound w) ∧ ∃ b, block.binding? name = some b ∧ b.isOuter = true

namespace Classified

/-- A binding that was there before an analysis is there after it. -/
lemma exists_becomes_analyze (hc : t.Classified h) (mode : Mode)
    (hd : h.decisive? i name = some d) :
    ∃ b, (t.analyze mode).1.binding? i name = some b ∧ d.binding.Becomes b := by
  have hkeeps := hc.unsettled.keeps_settledTree.trans (.of_extends (hc.extends_analyze mode))
  exact hkeeps.binding (by rw [hc.binding?_eq, History.binding?, hd, Option.map_some])

/-- Where the name is missing in its block, a target that is bound asks for it. -/
lemma asksFor_of_verdict (hc : t.Classified h) (ho : o ∈ h)
    (hv : h.verdict o (o.site operator k) = .bound o.block.index) :
    t.settledTree.asksFor o.block.index (o.site operator k) = true := by
  rw [asksFor, hc.verdict?_settledTree ho, hv, hc.path_site ho (bare_settledTree t),
    hc.find?_isBlock_path ho]
  simp

/-- A target that is bound in a block without its name has a binding there after the analysis. -/
lemma exists_created_of_verdict (hc : t.Classified h) (mode : Mode) (ho : o ∈ h)
    (hsite : o.site operator k ∈ h.sites) (hd : h.decisive? o.block.index o.name = none)
    (hv : h.verdict o (o.site operator k) = .bound o.block.index) :
    ∃ site : UseSite, (t.analyze mode).1.binding? o.block.index o.name =
      some (site.creation o.block.index) := by
  obtain ⟨s, hs, -⟩ := hc.exists_block ho
  obtain ⟨s', hs', -⟩ := exists_scope?_of_bare_eq (bare_settledTree t) hs
  have hmissing : t.settledTree.binding? o.block.index o.name = none := by
    rw [binding?_settledTree hs, hc.binding?_eq_of_scope? hs, History.binding?, hd]
    rfl
  rw [hc.analyze_fst_eq,
    binding?_resolveSites hc.arena_settledTree hc.exists_resolves hs' hmissing]
  have hsome : (h.sites.find? fun u =>
      u.name = o.name && t.settledTree.asksFor o.block.index u).isSome = true := by
    rw [List.find?_isSome]
    refine ⟨_, hsite, ?_⟩
    rw [hc.asksFor_of_verdict ho hv]
    simp [Occurrence.site]
  obtain ⟨first, hfirst⟩ := Option.isSome_iff_exists.1 hsome
  exact ⟨first, by rw [hfirst, Option.map_some]⟩

/-- A target that is owned, but not through an outer declaration, is owned by its block and has a
binding there. -/
lemma stored_of_owner? (hc : t.Classified h) {mode : Mode} (ho : o ∈ h)
    (hr : o.role = .targetOnly) (hsite : o.site operator k ∈ h.sites)
    (hs : (t.analyze mode).1.scope? o.block.index = some s)
    (hw : (h.verdict o (o.site operator k)).owner? mode = some w)
    (hthrough : ¬IsThrough (h.verdict o (o.site operator k)) s o.name) :
    w = o.block.index ∧ ∃ b, s.binding? o.name = some b ∧ b.isBlocking = false := by
  -- a binding that was there forbids nothing, since the block does not forbid the name
  have hkept : ∀ d, h.blocker? o.block.index o.name = none →
      h.decisive? o.block.index o.name = some d →
      ∃ b, s.binding? o.name = some b ∧ b.isBlocking = false ∧ b.isOuter = d.role.isOuter := by
    intro d hblock hd
    obtain ⟨b, hb, hbec⟩ := hc.exists_becomes_analyze mode hd
    refine ⟨b, (binding?_of_scope? hs _).symm.trans hb, ?_, hbec.isOuter_eq⟩
    have hdb := History.isBlocking_of_decisive? hd
    rw [hblock, Option.isSome_none] at hdb
    exact hbec.isBlocking_eq.trans hdb
  rcases h.verdict_cases o (o.site operator k) with ⟨f, hv, -, hf⟩ | ⟨hfree, hblock, hv | hv⟩
  · rw [hv, owner?_failed_of_fallback hf] at hw
    exact absurd hw (by simp)
  · obtain ⟨hk, hv⟩ := hv
    obtain ⟨d, hd⟩ := History.exists_decisive? ho hr hk hfree
    obtain ⟨b, hb, hbl, -⟩ := hkept d hblock hd
    refine ⟨?_, b, hb, hbl⟩
    rw [hv, Verdict.owner?] at hw
    split at hw
    · exact (Option.some.inj hw).symm
    · exact absurd hw (by simp)
  · obtain ⟨hreach, hv⟩ := hv
    rw [hv] at hw hthrough
    obtain rfl : h.owner o = w := Option.some.inj hw
    have hown : h.owner o = o.block.index := by
      have houter : h.outer? o.block.index o.name = none := by
        refine History.outer?_eq_none_of_decisive? hblock fun d hd => ?_
        obtain ⟨b, hb, -, hbo⟩ := hkept d hblock hd
        rw [← hbo, Bool.eq_false_iff]
        exact fun hbo => hthrough ⟨⟨_, rfl⟩, b, hb, hbo⟩
      rw [History.owner, houter]
    refine ⟨hown, ?_⟩
    cases hd : h.decisive? o.block.index o.name with
    | some d =>
      obtain ⟨b, hb, hbl, -⟩ := hkept d hblock hd
      exact ⟨b, hb, hbl⟩
    | none =>
      rw [hown] at hv
      obtain ⟨site, hcreated⟩ := hc.exists_created_of_verdict mode ho hsite hd hv
      exact ⟨_, (binding?_of_scope? hs _).symm.trans hcreated, rfl⟩

end Classified

end ScopeTree

/-- A target that is owned locally has a binding in its block.  Let a stream describe a tree, and
let its analysis, in any mode, give a target an owner other than through an outer declaration in the
nearest block scope: by a binding there, by creating one, or because a missing binding is tolerated.
Then that block is the owner, and in the end it has a binding of the name that is neither a
parameter nor an iteration variable. -/
theorem analyzeEvents_stores_owned {unitName filename : Option String} {events : List Event}
    {t : ScopeTree} (he : ScopeTree.ofEvents unitName filename events = .ok t) (mode : Mode) :
    ∃ a u, analyzeEvents mode events unitName filename = .ok a ∧ a.tree = some u ∧
      ∀ site ∈ u.sites, ∃ s block v, u.scopeAt? site.scope = some s ∧
        u.nearestBlock s = some block ∧ a.verdicts.lookup site.index = some v ∧
          ∀ w, a.owners.lookup site.index = some w → ¬ScopeTree.IsThrough v block site.name →
            w = block.index ∧ ∃ b, block.binding? site.name = some b ∧ b.isBlocking = false := by
  have hc := ScopeTree.classified_ofEvents he
  obtain ⟨a, ha, hfollows⟩ := exists_analyzeEvents he mode
  obtain ⟨a', ha', htree, -⟩ := analyzeEvents_of_eq_ok mode he
  obtain rfl : a = a' := Except.ok.inj (ha.symm.trans ha')
  have hext := hc.extends_analyze mode
  refine ⟨a, _, ha, htree, ?_⟩
  intro site hsite
  rw [hext.sites_eq, show t.settledTree.sites = t.sites from rfl, hc.sites_eq] at hsite
  obtain ⟨o, operator, k, ho, hhow, rfl, hv⟩ := History.exists_of_mem_sites hsite
  have hr : o.role = .targetOnly := by rw [Occurrence.role, hhow, Mention.role]
  obtain ⟨s, block, hs, hblock, hbs, hframe, -⟩ :=
    hc.exists_nearestBlock ho (hext.bare_eq.trans (ScopeTree.bare_settledTree t))
  have hindex : block.index = o.block.index := congrArg Frame.index hframe
  refine ⟨s, block, _, (ScopeTree.scopeAt?_natCast _ _).trans hs, hblock,
    hfollows.verdicts_eq ▸ hv, ?_⟩
  intro w hw hthrough
  rw [hfollows.lookup_owners, hv, Option.bind_some] at hw
  rw [hindex]
  exact hc.stored_of_owner? ho hr hsite hbs hw hthrough

/-- The first target of `x` in `g` comes before the declaration there.  Where that is tolerated, it
is owned by `g`, whose binding of `x` is the declaration. -/
theorem analyzeEvents_stores_owned_mixedTargets :
    ∃ a u s block b, analyzeEvents .legacy ScopeTree.mixedTargets none none = .ok a ∧
      a.tree = some u ∧ u.scopeAt? 2 = some s ∧ u.nearestBlock s = some block ∧
        a.owners.lookup 0 = some block.index ∧ block.binding? "x" = some b ∧
          b.isBlocking = false := by
  have he : ScopeTree.ofEvents none none ScopeTree.mixedTargets = .ok _ := rfl
  obtain ⟨a, u, ha, htree, hstored⟩ := analyzeEvents_stores_owned he .legacy
  obtain ⟨a', ha', hfollows⟩ := exists_analyzeEvents he .legacy
  obtain rfl : a = a' := Except.ok.inj (ha.symm.trans ha')
  obtain ⟨u', hu', -, hsites⟩ := hfollows.tree
  obtain rfl : u = u' := Option.some.inj (htree.symm.trans hu')
  have hsite : u.sites[0]? =
      some { index := 0, name := "x", scope := 2, operator := .augmented, order := 5 } := by
    rw [hsites]
    rfl
  obtain ⟨s, block, v, hs, hblock, hv, howned⟩ := hstored _ (List.mem_of_getElem? hsite)
  have howner : a.owners.lookup 0 = some 2 := by
    rw [hfollows.lookup_owners]
    decide +kernel
  have hmissing : (a.verdicts.lookup 0).map Verdict.isMissing = some true := by
    rw [hfollows.verdicts_eq]
    decide +kernel
  rw [hv, Option.map_some, Option.some.injEq] at hmissing
  have hthrough : ¬ScopeTree.IsThrough v block "x" := by
    rintro ⟨⟨w, rfl⟩, -⟩
    exact absurd hmissing (by simp [Verdict.isMissing, Verdict.failure?])
  obtain ⟨hindex, b, hb, hbl⟩ := howned 2 howner hthrough
  exact ⟨a, u, s, block, b, ha, htree, hs, hblock, hindex ▸ howner, hb, hbl⟩

end TargetScope
