import Mathlib.Data.List.Forall2
import TargetScope.Proofs.Codes
import TargetScope.Proofs.Rerun

/-!
# Reports in different modes

A report is read off the verdicts site by site.  Where every site has a verdict, its parts can be
given at once: the diagnostics are those of the failures, in their order, and the owners those of
the verdicts (`ScopeTree.report_eq`).  From the tree only the names and places of scopes go into
it, and no bindings (`Report.ofVerdicts_eq_of_bare_eq`).

The mode has a say only here.  Since the failures that it can tolerate are those of a missing
binding, and these have the function in which the search stopped as a fallback, two analyses of
one tree differ in the severity of such failures and in the owners that these have
(`ScopeTree.analyze_restaged`).
-/

namespace TargetScope

/-! ## The parts of a report -/

namespace Verdict

/-- The owner of a target in a mode: without a preceding binding it has one where that is
tolerated. -/
def owner? (mode : Mode) : Verdict → Option Nat
  | .bound owner => some owner
  | .failed f => if f.severity mode = .warning then f.fallback else none

/-- The failure, if the target is not allowed. -/
def failure? : Verdict → Option Failure
  | .bound _ => none
  | .failed f => some f

/-- The target has no preceding binding. -/
def isMissing (v : Verdict) : Bool :=
  v.failure?.any fun f => f.reason = .missingBinding

end Verdict

/-- The verdicts on some sites, in the order of the sites. -/
def Verdicts.on (verdicts : Verdicts) (sites : List UseSite) : Verdicts :=
  sites.filterMap fun site => (verdicts.lookup site.index).map fun v => (site.index, v)

/-- The target of the site at the place has no preceding binding. -/
def Verdicts.isMissing (verdicts : Verdicts) (i : Nat) : Bool :=
  (verdicts.lookup i).any Verdict.isMissing

namespace Report

variable {mode : Mode} {t t' : ScopeTree} {filename : Option String} {verdicts : Verdicts}
  {r : Report} {sites : List UseSite}

/-- The report on some verdicts. -/
def ofVerdicts (mode : Mode) (t : ScopeTree) (filename : Option String) (verdicts : Verdicts) :
    Report where
  diagnostics := verdicts.filterMap fun v =>
    v.2.failure?.map fun f => f.diagnose mode t filename
  owners := verdicts.filterMap fun v => (v.2.owner? mode).map fun owner => (v.1, owner)
  siteDiagnostics := verdicts.filterMap fun v =>
    v.2.failure?.map fun f => (v.1, f.diagnose mode t filename)

/-- The parts of two reports, one behind the other. -/
def append (r r' : Report) : Report where
  diagnostics := r.diagnostics ++ r'.diagnostics
  owners := r.owners ++ r'.owners
  siteDiagnostics := r.siteDiagnostics ++ r'.siteDiagnostics

lemma add_eq_append (r : Report) (mode : Mode) (t : ScopeTree) (filename : Option String)
    (site : UseSite) (v : Verdict) :
    r.add mode t filename site v = r.append (ofVerdicts mode t filename [(site.index, v)]) := by
  cases v with
  | bound owner => simp [add, append, ofVerdicts, Verdict.failure?, Verdict.owner?]
  | failed f =>
    have hsev : (f.diagnose mode t filename).severity = f.severity mode := rfl
    simp only [add, append, ofVerdicts, List.filterMap_cons, List.filterMap_nil, Verdict.failure?,
      Verdict.owner?, hsev, Option.map_some]
    cases f.severity mode <;> cases f.fallback <;> simp

lemma append_assoc (r r' r'' : Report) : (r.append r').append r'' = r.append (r'.append r'') := by
  simp [append]

lemma ofVerdicts_cons (v : Nat × Verdict) (verdicts : Verdicts) :
    ofVerdicts mode t filename (v :: verdicts) =
      (ofVerdicts mode t filename [v]).append (ofVerdicts mode t filename verdicts) := by
  simp only [ofVerdicts, append, ← List.filterMap_append, List.singleton_append]

lemma addSites_eq (h : (addSites mode t filename verdicts r sites).2 = none) :
    (addSites mode t filename verdicts r sites).1 =
      r.append (ofVerdicts mode t filename (verdicts.on sites)) := by
  induction sites generalizing r with
  | nil => simp [addSites, Verdicts.on, ofVerdicts, append]
  | cons site rest ih =>
    rw [addSites] at h ⊢
    cases hv : verdicts.lookup site.index with
    | none => simp [hv] at h
    | some v =>
      have hon : verdicts.on (site :: rest) = (site.index, v) :: verdicts.on rest := by
        simp [Verdicts.on, hv]
      rw [hv] at h
      rw [hon, ofVerdicts_cons, ← append_assoc, ← add_eq_append]
      exact ih h

end Report

namespace ScopeTree

variable {t t' : ScopeTree}

lemma describe_eq_of_bare_eq (h : t'.bare = t.bare) (i : Nat) : t'.describe i = t.describe i := by
  rw [describe, describe]
  cases hs : t.scope? i with
  | none => rw [scope?_eq_none_of_bare_eq h hs]
  | some s =>
    obtain ⟨s', hs', hb⟩ := exists_scope?_of_bare_eq h hs
    have hd : s'.bare.describe = s.bare.describe := congrArg Scope.describe hb
    rw [hs']
    exact hd

/-- Where every site has a verdict, the report is the one on the verdicts. -/
lemma report_eq {mode : Mode} {filename : Option String} {verdicts : Verdicts}
    (h : (t.report mode filename verdicts).2 = none) :
    t.report mode filename verdicts =
      (Report.ofVerdicts mode t (filename.or t.filename) (verdicts.on t.sitesInOrder), none) :=
  Prod.ext (Report.addSites_eq h) h

end ScopeTree

section Bare

variable {t t' : ScopeTree}

/-- No binding goes into a diagnostic. -/
lemma Failure.diagnose_eq_of_bare_eq (h : t'.bare = t.bare) (f : Failure) (mode : Mode)
    (filename : Option String) : f.diagnose mode t' filename = f.diagnose mode t filename := by
  have hd : t'.describe = t.describe := funext (ScopeTree.describe_eq_of_bare_eq h)
  have hu : t'.unitName = t.unitName := show t'.bare.unitName = t.bare.unitName by rw [h]
  simp only [diagnose, message, detail, hd, hu]

/-- No binding goes into a report. -/
lemma Report.ofVerdicts_eq_of_bare_eq (h : t'.bare = t.bare) (mode : Mode)
    (filename : Option String) (verdicts : Verdicts) :
    ofVerdicts mode t' filename verdicts = ofVerdicts mode t filename verdicts := by
  simp only [ofVerdicts, fun f => Failure.diagnose_eq_of_bare_eq h f mode filename]

end Bare

/-! ## The failures of a resolution -/

/-- The kind of a failure and its fallback in a tree are as its reason asks: a missing binding, and
nothing else, is a failure of the target's name, and its fallback is the function where the search
stopped. -/
structure Failure.Accords (f : Failure) (t : ScopeTree) : Prop where
  kind_iff : f.kind = .targetName ↔ f.reason = .missingBinding
  fallback_eq : f.reason = .missingBinding → f.fallback = some f.scope
  isFunction : f.reason = .missingBinding →
    ∃ s ∈ t.scopes, s.index = f.scope ∧ s.kind = .functionBody

lemma Failure.Accords.of_bare_eq {f : Failure} {t t' : ScopeTree} (hf : f.Accords t)
    (h : t'.bare = t.bare) : f.Accords t' where
  kind_iff := hf.kind_iff
  fallback_eq := hf.fallback_eq
  isFunction := by
    intro hr
    obtain ⟨s, hs, hi, hk⟩ := hf.isFunction hr
    obtain ⟨i, hs⟩ := ScopeTree.mem_scopes_iff.1 hs
    obtain ⟨s', hs', hb⟩ := ScopeTree.exists_scope?_of_bare_eq h hs
    exact ⟨s', ScopeTree.mem_scopes_iff.2 ⟨i, hs'⟩, (Scope.index_eq_of_bare_eq hb).trans hi,
      (Scope.kind_eq_of_bare_eq hb).trans hk⟩

namespace ScopeTree

variable {t t' : ScopeTree} {site : UseSite} {s block : Scope} {v : Verdict}

/-- What a resolution in the tree `t` comes to: the verdict `v`, which accords with the tree if it
is a failure, and the tree `t'`, which differs in bindings alone. -/
structure Yields (t : ScopeTree) (v : Verdict) (t' : ScopeTree) : Prop where
  bare_eq : t'.bare = t.bare
  sites_eq : t'.sites = t.sites
  accords : ∀ f, v = .failed f → f.Accords t

lemma yields_bound (t : ScopeTree) (owner : Nat) : t.Yields (.bound owner) t :=
  ⟨rfl, rfl, by simp⟩

lemma yields_put (t : ScopeTree) (owner i : Nat) (b : Binding) :
    t.Yields (.bound owner) (t.put i b) :=
  ⟨bare_put t i b, sites_put t i b, by simp⟩

/-- A failure with another reason than a missing binding. -/
lemma yields_failed {f : Failure} (hk : f.kind ≠ .targetName) (hr : f.reason ≠ .missingBinding) :
    t.Yields (.failed f) t := by
  refine ⟨rfl, rfl, ?_⟩
  rintro _ ⟨rfl⟩
  exact ⟨⟨fun h => absurd h hk, fun h => absurd h hr⟩, fun h => absurd h hr, fun h => absurd h hr⟩

lemma yields_missing (site : UseSite) (hs : s ∈ t.scopes) (hk : s.kind = .functionBody) :
    t.Yields (.failed (.missing site s)) t := by
  refine ⟨rfl, rfl, ?_⟩
  rintro _ ⟨rfl⟩
  exact ⟨⟨fun _ => rfl, fun _ => rfl⟩, fun _ => rfl, fun _ => ⟨s, hs, rfl, hk⟩⟩

lemma yields_bindThrough {b : Binding} (h : t.bindThrough site block b = .ok (v, t')) :
    t.Yields v t' := by
  rw [bindThrough] at h
  split at h
  · obtain ⟨rfl, rfl⟩ := h
    exact yields_bound t _
  · split at h
    · simp at h
    · obtain ⟨rfl, rfl⟩ := h
      exact yields_put t _ _ _

lemma yields_resolveInBody (h : t.resolveInBody site block = .ok (v, t')) : t.Yields v t' := by
  rw [resolveInBody] at h
  split at h
  · obtain ⟨rfl, rfl⟩ := h
    exact yields_put t _ _ _
  · split at h
    · obtain ⟨rfl, rfl⟩ := h
      exact yields_failed (by simp [Failure.shadowedByBlock]) (by simp [Failure.shadowedByBlock])
    · exact yields_bindThrough h

lemma yields_resolveInFunction (hs : s ∈ t.scopes) (hk : s.kind = .functionBody)
    (h : t.resolveInFunction site s = .ok (v, t')) : t.Yields v t' := by
  rw [resolveInFunction] at h
  split at h
  · obtain ⟨rfl, rfl⟩ := h
    exact yields_missing site hs hk
  · split at h
    · obtain ⟨rfl, rfl⟩ := h
      exact yields_failed (by simp [Failure.shadowedByBlock]) (by simp [Failure.shadowedByBlock])
    · split at h
      · exact yields_bindThrough h
      · obtain ⟨rfl, rfl⟩ := h
        exact yields_missing site hs hk

/-- The scopes around a scope of the tree stand in the tree. -/
lemma mem_scopes_of_mem_chain (hs : s ∈ t.scopes) {c : Scope} (hc : c ∈ t.chain s) :
    c ∈ t.scopes := by
  rw [chain] at hc
  generalize t.size = fuel at hc
  induction fuel generalizing s with
  | zero => exact List.mem_singleton.1 hc ▸ hs
  | succ fuel ih =>
    rcases List.mem_cons.1 hc with rfl | hc
    · exact hs
    · cases hp : t.parentOf s with
      | none => simp [hp] at hc
      | some p =>
        obtain ⟨i, -, hi⟩ := Option.bind_eq_some_iff.1 hp
        rw [hp] at hc
        exact ih (mem_scopes_iff.2 ⟨i, hi⟩) hc

lemma yields_resolveThroughTransparent (hs : s ∈ t.scopes)
    (h : t.resolveThroughTransparent site s = .ok (v, t')) : t.Yields v t' := by
  rw [resolveThroughTransparent] at h
  split at h
  · obtain ⟨rfl, rfl⟩ := h
    exact yields_failed (by simp [Failure.shadowedOnPath]) (by simp [Failure.shadowedOnPath])
  · split at h
    · simp at h
    · next block hblock =>
      have hmem := mem_scopes_of_mem_chain hs (List.mem_of_find?_eq_some hblock)
      have hisb := isBlock_of_nearestBlock hblock
      cases hk : block.kind with
      | classBody =>
        rw [hk] at h
        obtain ⟨rfl, rfl⟩ := h
        exact yields_failed (by simp [Failure.inClassBody]) (by simp [Failure.inClassBody])
      | moduleBody =>
        rw [hk] at h
        exact yields_resolveInBody h
      | functionBody =>
        rw [hk] at h
        exact yields_resolveInFunction hmem hk h
      | closure | comprehension =>
        rw [hk] at hisb
        exact absurd hisb (by decide)

/-- Every resolution of a site, in whatever tree. -/
lemma yields_resolveSite (h : t.resolveSite site = .ok (v, t')) : t.Yields v t' := by
  rw [resolveSite] at h
  split at h
  · simp at h
  · next s hs =>
    have hmem : s ∈ t.scopes := mem_scopes_iff.2 ⟨_, (path_of_scopeAt? hs).1⟩
    cases hk : s.kind with
    | moduleBody | classBody =>
      rw [hk] at h
      exact yields_resolveInBody h
    | functionBody =>
      rw [hk] at h
      exact yields_resolveInFunction hmem hk h
    | closure | comprehension =>
      rw [hk] at h
      exact yields_resolveThroughTransparent hmem h

/-- Every sequence of resolutions: the verdicts are on its sites, and their failures accord with the
tree. -/
lemma yields_resolveSites (t : ScopeTree) (sites : List UseSite) :
    (t.resolveSites sites).tree.bare = t.bare ∧ (t.resolveSites sites).tree.sites = t.sites ∧
      ∀ p ∈ (t.resolveSites sites).verdicts, (∃ site ∈ sites, site.index = p.1) ∧
        ∀ f, p.2 = .failed f → f.Accords t := by
  induction sites generalizing t with
  | nil => exact ⟨rfl, rfl, fun _ hp => absurd hp List.not_mem_nil⟩
  | cons site rest ih =>
    rw [resolveSites]
    cases hr : t.resolveSite site with
    | error e => exact ⟨rfl, rfl, fun _ hp => absurd hp List.not_mem_nil⟩
    | ok r =>
      obtain ⟨v, u⟩ := r
      have hy := yields_resolveSite hr
      obtain ⟨hbare, hsites, hrest⟩ := ih u
      -- the first verdict, and the verdicts of the rest seen from the tree at the beginning
      have hcons : ∀ p ∈ (site.index, v) :: (u.resolveSites rest).verdicts,
          (∃ site' ∈ site :: rest, site'.index = p.1) ∧ ∀ f, p.2 = .failed f → f.Accords t := by
        intro p hp
        rcases List.mem_cons.1 hp with rfl | hp
        · exact ⟨⟨site, List.mem_cons_self, rfl⟩, hy.accords⟩
        · obtain ⟨⟨site', hs', hi⟩, hacc⟩ := hrest p hp
          exact ⟨⟨site', List.mem_cons_of_mem _ hs', hi⟩,
            fun f hf => (hacc f hf).of_bare_eq hy.bare_eq.symm⟩
      have hall := And.intro (hbare.trans hy.bare_eq) (And.intro (hsites.trans hy.sites_eq) hcons)
      cases v with
      | failed f => exact hall
      | bound owner =>
        simp only
        split
        · exact hall
        · refine ⟨hy.bare_eq, hy.sites_eq, ?_⟩
          intro p hp
          obtain rfl := List.mem_singleton.1 hp
          exact hcons _ List.mem_cons_self

end ScopeTree

/-! ## Two modes -/

/-- The severity in a mode of a diagnostic of the given category. -/
def Severity.ofCategory (category : Option String) (mode : Mode) : Severity :=
  if category = some FailureKind.targetName.text ∧ mode ≠ .strict then .warning else .error

/-- Two diagnostics are about one thing, received in the modes `mode` and `mode'`: they differ at
most in the severity, which each has by its mode, and in the wording of the message. -/
structure Diagnostic.Restaged (mode mode' : Mode) (d d' : Diagnostic) : Prop where
  code_eq : d'.code = d.code
  category_eq : d'.category = d.category
  name_eq : d'.name = d.name
  line_eq : d'.line = d.line
  column_eq : d'.column = d.column
  unitName_eq : d'.unitName = d.unitName
  filename_eq : d'.filename = d.filename
  severity_eq : d.severity = .ofCategory d.category mode
  severity_eq' : d'.severity = .ofCategory d.category mode'

lemma Failure.severity_eq_ofCategory (f : Failure) (mode : Mode) :
    f.severity mode = .ofCategory (some f.kind.text) mode := by
  have hk : some f.kind.text = some FailureKind.targetName.text ↔ f.kind = .targetName := by
    cases f.kind <;> decide
  simp only [severity, Severity.ofCategory, hk]

lemma Failure.restaged_diagnose (f : Failure) (mode mode' : Mode) (t : ScopeTree)
    (filename : Option String) :
    Diagnostic.Restaged mode mode' (f.diagnose mode t filename) (f.diagnose mode' t filename) where
  code_eq := by rw [code_diagnose, code_diagnose]
  category_eq := rfl
  name_eq := rfl
  line_eq := rfl
  column_eq := rfl
  unitName_eq := rfl
  filename_eq := rfl
  severity_eq := f.severity_eq_ofCategory mode
  severity_eq' := f.severity_eq_ofCategory mode'

namespace Verdict

variable {mode mode' : Mode} {v : Verdict}

/-- The modes that tolerate a missing binding agree on the owners. -/
lemma owner?_eq (h : mode ≠ .strict) (h' : mode' ≠ .strict) (v : Verdict) :
    v.owner? mode' = v.owner? mode := by
  cases v with
  | bound => rfl
  | failed f => simp [owner?, Failure.severity, h, h']

/-- The strict mode takes the owners away from the targets without a preceding binding. -/
lemma owner?_strict {t : ScopeTree} (hv : ∀ f, v = .failed f → f.Accords t) (mode : Mode) :
    v.owner? .strict = (v.owner? mode).filter fun _ => !v.isMissing := by
  cases v with
  | bound => rfl
  | failed f =>
    have hacc := hv f rfl
    by_cases hr : f.reason = .missingBinding
    · simp [owner?, Failure.severity, isMissing, failure?, hr]
    · have hk : f.kind ≠ .targetName := fun hk => hr (hacc.kind_iff.1 hk)
      simp [owner?, Failure.severity, hk]

/-- A target without a preceding binding falls back to the function where the search stopped. -/
lemma owner?_of_missing {t : ScopeTree} {f : Failure} (hf : f.Accords t)
    (hr : f.reason = .missingBinding) (h : mode ≠ .strict) :
    (failed f).owner? mode = some f.scope := by
  simp [owner?, Failure.severity, hf.kind_iff.2 hr, h, hf.fallback_eq hr]

end Verdict

namespace Verdicts

variable {verdicts : Verdicts} {sites : List UseSite} {p : Nat × Verdict}

lemma lookup_of_mem_on (hp : p ∈ verdicts.on sites) : verdicts.lookup p.1 = some p.2 := by
  obtain ⟨site, -, hs⟩ := List.mem_filterMap.1 hp
  obtain ⟨v, hv, rfl⟩ := Option.map_eq_some_iff.1 hs
  exact hv

lemma mem_of_lookup {i : Nat} {v : Verdict} (h : verdicts.lookup i = some v) :
    (i, v) ∈ verdicts := by
  obtain ⟨pre, post, rfl, -⟩ := List.lookup_eq_some_iff.1 h
  simp

end Verdicts

namespace Report

variable {mode mode' : Mode} {t : ScopeTree} {filename : Option String} {verdicts : Verdicts}
  {sites : List UseSite}

lemma restaged_diagnostics (mode mode' : Mode) (t : ScopeTree) (filename : Option String)
    (verdicts : Verdicts) :
    List.Forall₂ (Diagnostic.Restaged mode mode') (ofVerdicts mode t filename verdicts).diagnostics
      (ofVerdicts mode' t filename verdicts).diagnostics := by
  simp only [ofVerdicts]
  induction verdicts with
  | nil => exact .nil
  | cons p verdicts ih =>
    rw [List.filterMap_cons, List.filterMap_cons]
    cases p.2.failure? with
    | none => exact ih
    | some f => exact .cons (f.restaged_diagnose mode mode' t filename) ih

lemma owners_eq (h : mode ≠ .strict) (h' : mode' ≠ .strict) (t : ScopeTree)
    (filename : Option String) (verdicts : Verdicts) :
    (ofVerdicts mode' t filename verdicts).owners =
      (ofVerdicts mode t filename verdicts).owners := by
  simp only [ofVerdicts, Verdict.owner?_eq h h']

lemma owners_strict (hv : ∀ p ∈ verdicts, ∀ f, p.2 = .failed f → f.Accords t) (mode : Mode)
    (filename : Option String) :
    (ofVerdicts .strict t filename (verdicts.on sites)).owners =
      (ofVerdicts mode t filename (verdicts.on sites)).owners.filter fun o =>
        !verdicts.isMissing o.1 := by
  simp only [ofVerdicts, List.filter_filterMap]
  apply List.filterMap_congr
  intro p hp
  have hlookup := Verdicts.lookup_of_mem_on hp
  have hmissing : verdicts.isMissing p.1 = p.2.isMissing := by
    rw [Verdicts.isMissing, hlookup, Option.any_some]
  rw [Verdict.owner?_strict (hv _ (Verdicts.mem_of_lookup hlookup)) mode]
  cases p.2.owner? mode with
  | none => rfl
  | some owner => cases hm : p.2.isMissing <;> simp [Option.filter_some, hmissing, hm]

/-- The owner of the target of a site is that of the verdict on it. -/
lemma lookup_owners {i owner : Nat} {v : Verdict} (hv : verdicts.lookup i = some v)
    (hi : ∃ site ∈ sites, site.index = i) (ho : v.owner? mode = some owner) (t : ScopeTree)
    (filename : Option String) :
    (ofVerdicts mode t filename (verdicts.on sites)).owners.lookup i = some owner := by
  simp only [ofVerdicts, Verdicts.on, List.filterMap_filterMap]
  induction sites with
  | nil => simp at hi
  | cons site rest ih =>
    rw [List.filterMap_cons]
    by_cases hsite : site.index = i
    · simp [hsite, hv, ho]
    · obtain ⟨u, hu, hui⟩ := hi
      have hrest := ih ⟨u, by
        rcases List.mem_cons.1 hu with rfl | hu
        · exact absurd hui hsite
        · exact hu, hui⟩
      split
      · exact hrest
      · next o heq =>
        -- the entry of another site is passed over
        obtain ⟨w, hw, hwo⟩ := Option.bind_eq_some_iff.1 heq
        obtain ⟨_, -, rfl⟩ := Option.map_eq_some_iff.1 hw
        obtain ⟨_, -, rfl⟩ := Option.map_eq_some_iff.1 hwo
        have hne : (i == site.index) = false := by simpa using Ne.symm hsite
        rw [List.lookup_cons, hne]
        exact hrest

end Report

namespace ScopeTree

variable {t : ScopeTree} {mode : Mode} {a : Analysis}

/-- Two analyses of a tree in different modes.  If the one has a result, then so has the other, with
the same tree, settlements and verdicts.  The diagnostics are the same one by one, but for severity
and wording: those about the name of a target are warnings if and only if the mode is not strict,
and all others are errors.  The owners are the same in all modes that are not strict, where a target
without a preceding binding is owned by the function in which the search stopped; the strict mode
has the owners of all other sites. -/
theorem analyze_restaged (h : (t.analyze mode).2 = .ok a) (mode' : Mode) :
    ∃ a', t.analyze mode' = ((t.analyze mode).1, .ok a') ∧
      a.tree = some (t.analyze mode).1 ∧ a'.tree = a.tree ∧ a'.settlements = a.settlements ∧
      a'.verdicts = a.verdicts ∧
      List.Forall₂ (Diagnostic.Restaged mode mode') a.diagnostics a'.diagnostics ∧
      (mode ≠ .strict → mode' ≠ .strict → a'.owners = a.owners) ∧
      (mode' = .strict →
        a'.owners = a.owners.filter fun o => !a.verdicts.isMissing o.1) ∧
      (mode ≠ .strict → ∀ i f, a.verdicts.lookup i = some (.failed f) →
        f.reason = .missingBinding → a.owners.lookup i = some f.scope ∧
          ∃ s ∈ (t.analyze mode).1.scopes, s.index = f.scope ∧ s.kind = .functionBody) := by
  obtain ⟨howner, hstop, hreport⟩ := of_analyze_eq_ok h
  generalize hst : t.settleOuterDeclarations = settled at howner hstop hreport
  obtain ⟨t₁, settlements⟩ := settled
  simp only at howner hstop hreport
  obtain ⟨hbare, hsites, hyields⟩ := yields_resolveSites t₁ t₁.sitesInOrder
  rw [← resolve] at hbare hsites hyields
  -- the same resolution in both modes
  have hresolve : t₁.resolve = { tree := t₁.resolve.tree, verdicts := t₁.resolve.verdicts } := by
    rw [← hstop]
  generalize t₁.resolve.tree = t₂ at hbare hsites hresolve hreport
  generalize t₁.resolve.verdicts = verdicts at hyields hresolve hreport
  have hreport' : (t₂.report mode' none verdicts).2 = none := by
    rw [← hreport]
    exact Report.snd_addSites mode' mode t₂ _ _ {} {} _
  have hfirst := analyze_eq mode hst howner hresolve (report_eq hreport)
  have hsecond := analyze_eq mode' hst howner hresolve (report_eq hreport')
  rw [hfirst] at h ⊢
  obtain rfl := Except.ok.inj h
  have hacc : ∀ p ∈ verdicts, ∀ f, p.2 = .failed f → f.Accords t₂ :=
    fun p hp f hf => ((hyields p hp).2 f hf).of_bare_eq hbare
  refine ⟨_, hsecond, rfl, rfl, rfl, rfl, ?_, ?_, ?_, ?_⟩
  · exact Report.restaged_diagnostics mode mode' t₂ _ _
  · exact fun hm hm' => Report.owners_eq hm hm' t₂ t₂.filename (verdicts.on t₂.sitesInOrder)
  · rintro rfl
    exact Report.owners_strict hacc mode t₂.filename
  · intro hm i f hf hr
    have hmem := Verdicts.mem_of_lookup hf
    have horder : t₂.sitesInOrder = t₁.sitesInOrder := by rw [sitesInOrder, hsites, sitesInOrder]
    have hf' := hacc _ hmem f rfl
    refine ⟨?_, hf'.isFunction hr⟩
    exact Report.lookup_owners hf (horder ▸ (hyields _ hmem).1)
      (Verdict.owner?_of_missing hf' hr hm) t₂ t₂.filename

/-- A module with a function: of the three targets, the first has no preceding binding, the second
is a parameter, and the third stands in the module. -/
def stagedTargets : ScopeTree :=
  let t := ({} : ScopeTree).addScope .moduleBody none (some "m") none
  let t := t.addScope .functionBody (some 0) (some "f") none
  let t := t.put 1 { name := "x", role := .parameter, boundOrder := some 1 }
  let t := t.addSite "y" 1 .augmented none 2
  let t := t.addSite "x" 1 .inline none 3
  t.addSite "z" 0 .inline none 4

/-- The strict mode takes its owner from the first target. -/
theorem analyze_restaged_stagedTargets :
    ∃ a a', (stagedTargets.analyze .legacy).2 = .ok a ∧ (stagedTargets.analyze .strict).2 = .ok a' ∧
      a.owners = [(0, 1), (2, 0)] ∧ a'.owners = [(2, 0)] := by
  have horder : ∀ u : ScopeTree, u.sites = stagedTargets.sites →
      u.sitesInOrder = stagedTargets.sites := by
    intro u hu
    rw [sitesInOrder_of_pairwise (by rw [hu]; decide +kernel), hu]
  have hs : stagedTargets.settleOuterDeclarations = { tree := stagedTargets } := by decide +kernel
  have hr : stagedTargets.resolve =
      { tree := (stagedTargets.resolveSites stagedTargets.sites).tree
        verdicts := (stagedTargets.resolveSites stagedTargets.sites).verdicts } := by
    rw [resolve, horder _ rfl]
    decide +kernel
  have hsites : (stagedTargets.resolveSites stagedTargets.sites).tree.sites =
      stagedTargets.sites := by decide +kernel
  have hreport : ((stagedTargets.resolveSites stagedTargets.sites).tree.report .legacy none
      (stagedTargets.resolveSites stagedTargets.sites).verdicts).2 = none := by
    rw [report, horder _ hsites]
    decide +kernel
  have ha := congrArg Prod.snd (analyze_eq .legacy hs (by simp) hr (report_eq hreport))
  rw [horder _ hsites] at ha
  obtain ⟨a', heq, -, -, -, -, -, -, hstrict, -⟩ := analyze_restaged ha .strict
  refine ⟨_, a', ha, congrArg Prod.snd heq, ?_, ?_⟩
  · decide +kernel
  · rw [hstrict rfl]
    decide +kernel

end ScopeTree

end TargetScope
