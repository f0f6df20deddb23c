import TargetScope.Proofs.Operations

/-!
# What an analysis says about one site and about one name

An analysis keeps its verdicts, its owners and its diagnostics in lists in which each entry carries
the number of a use site.  The sites of a stream are numbered in their order, so each number occurs
at most once, and what the analysis says about the site of a number is a function of the verdict on
it (`ScopeTree.Reached.analyze_lookup`): the entries of the other sites do not matter.

In the same way the settlements of one name are read off the history, scope by scope
(`ScopeTree.Classified.settlements_named`), without those of other names.
-/

namespace TargetScope

/-! ## Lists of numbered entries -/

section Numbered

variable {α β : Type} {l : List (Nat × α)}

/-- In a numbered list the entry of a number is the one at that place. -/
lemma lookup_mapIdx (l : List α) (f : Nat → α → β) (k : Nat) :
    (l.mapIdx fun i x => (i, f i x)).lookup k = l[k]?.map (f k) := by
  induction l using List.reverseRecOn generalizing k with
  | nil => rfl
  | append_singleton l x ih =>
    rw [List.mapIdx_concat, List.lookup_append, ih]
    rcases Nat.lt_trichotomy k l.length with hk | rfl | hk
    · rw [List.getElem?_append_left hk, List.getElem?_eq_getElem hk]
      rfl
    · simp
    · have hne : (k == l.length) = false := by
        rw [beq_eq_false_iff_ne]
        omega
      rw [List.getElem?_eq_none (by omega), List.getElem?_eq_none (by simp; omega)]
      simp [List.lookup_cons, hne]

/-- Where no number occurs twice, a choice of entries and of their parts does not mix numbers. -/
lemma lookup_filterMap (hl : (l.map Prod.fst).Nodup) (f : α → Option β) (k : Nat) :
    (l.filterMap fun p => (f p.2).map fun y => (p.1, y)).lookup k = (l.lookup k).bind f := by
  induction l with
  | nil => rfl
  | cons p l ih =>
    obtain ⟨i, x⟩ := p
    rw [List.map_cons, List.nodup_cons] at hl
    obtain ⟨hi, hl⟩ := hl
    rw [List.filterMap_cons, List.lookup_cons]
    by_cases hk : k = i
    · subst hk
      -- a later entry of the number, which there is not, would show if this one is left out
      have hnone : l.lookup k = none := by
        rw [List.lookup_eq_none_iff]
        intro q hq
        rw [bne_iff_ne]
        rintro rfl
        exact hi (List.mem_map.2 ⟨q, hq, rfl⟩)
      cases hf : f x with
      | none => simp [hf, ih hl, hnone]
      | some y => simp [hf]
    · have hki : (k == i) = false := by simpa using hk
      cases f x with
      | none => simp [ih hl, hki]
      | some y => simp [List.lookup_cons, ih hl, hki]

end Numbered

/-! ## The verdicts of a history -/

namespace History

variable {h : History} {k : Nat} {site : UseSite}

lemma lookup_verdicts (h : History) (k : Nat) :
    h.verdicts.lookup k = h.targets[k]?.map fun x => h.verdict x.1 (x.1.site x.2 k) :=
  lookup_mapIdx h.targets (fun k x => h.verdict x.1 (x.1.site x.2 k)) k

/-- A site of a history is that of the target with its number. -/
lemma mem_sites_iff : site ∈ h.sites ↔
    ∃ x, h.targets[site.index]? = some x ∧ x.1.site x.2 site.index = site := by
  rw [sites, List.mem_mapIdx]
  constructor
  · rintro ⟨k, hk, rfl⟩
    exact ⟨_, List.getElem?_eq_getElem hk, rfl⟩
  · rintro ⟨x, hx, hsite⟩
    obtain ⟨hk, rfl⟩ := List.getElem?_eq_some_iff.1 hx
    exact ⟨site.index, hk, hsite⟩

/-- The verdicts are in the order of the sites. -/
lemma verdicts_on_sites (h : History) : h.verdicts.on h.sites = h.verdicts := by
  have hsites : h.sites.map (fun site => (h.verdicts.lookup site.index).map fun v =>
      (site.index, v)) = h.verdicts.map some := by
    apply List.ext_getElem (by simp [sites, verdicts])
    intro k hk _
    rw [List.length_map, sites, List.length_mapIdx] at hk
    simp only [List.getElem_map, sites, List.getElem_mapIdx]
    rw [show (h.targets[k].1.site h.targets[k].2 k).index = k from rfl, lookup_verdicts,
      List.getElem?_eq_getElem hk]
    simp [verdicts]
  calc h.verdicts.on h.sites
    _ = (h.sites.map fun site => (h.verdicts.lookup site.index).map fun v =>
        (site.index, v)).filterMap id := by rw [List.filterMap_map]; rfl
    _ = h.verdicts := by rw [hsites, List.filterMap_map]; simp

lemma nodup_verdicts (h : History) : (h.verdicts.map Prod.fst).Nodup := by
  have hrange : h.verdicts.map Prod.fst = List.range h.targets.length := by
    apply List.ext_getElem (by simp [verdicts])
    intro k _ _
    simp [verdicts]
  rw [hrange]
  exact List.nodup_range

end History

/-! ## The settlements of a history -/

namespace History

/-- What becomes of the declaration `d` of a name as an outer name. -/
def settlementOf (h : History) (d : Occurrence) : Settlement where
  scope := d.scope.index
  name := d.name
  role := (Ownership.ofRole d.role (h.rolesAround d.around d.name)).role
  owner := (Ownership.ofRole d.role (h.rolesAround d.around d.name)).owner
  promotedFrom := (Ownership.ofRole d.role (h.rolesAround d.around d.name)).promotedFrom
  deferred := (Ownership.ofRole d.role (h.rolesAround d.around d.name)).deferred

/-- The settlement of the name in the scope at the place `i`, if an outer declaration decides what
it is there. -/
def settlementAt? (h : History) (i : Nat) (name : String) : Option Settlement :=
  ((h.decisive? i name).filter fun d => d.role.isOuter).map h.settlementOf

variable {h : History} {i : Nat} {name : String} {d : Occurrence}

/-- Only a declaration as an outer name decides for such a role. -/
lemma outer?_of_decisive? (hd : h.decisive? i name = some d) (hr : d.role.isOuter = true) :
    h.outer? i name = some d := by
  rw [decisive?, Option.or_eq_some_iff, Option.or_eq_some_iff, Option.or_eq_some_iff] at hd
  rcases hd with hd | ⟨-, hd | ⟨-, hd | ⟨-, hd⟩⟩⟩
  · have hb := (of_blocker? hd).2.2.2
    rw [BindingRole.isBlocking_of_isOuter hr] at hb
    exact absurd hb (by decide)
  · exact hd
  · rw [(of_plain? hd).2.2.2] at hr
    exact absurd hr (by decide)
  · rw [(of_bareTarget? hd).2.2.2] at hr
    exact absurd hr (by decide)

end History

namespace ScopeTree

variable {t : ScopeTree} {h : History} {i : Nat} {s : Scope}

lemma filter_name_eq_toList {bindings : List Binding} (hn : (bindings.map Binding.name).Nodup)
    (name : String) : bindings.filter (fun b => b.name = name) =
      (bindings.find? fun b => b.name = name).toList := by
  induction bindings with
  | nil => rfl
  | cons b bindings ih =>
    rw [List.map_cons, List.nodup_cons] at hn
    by_cases hb : b.name = name
    · have hrest : bindings.filter (fun c => c.name = name) = [] := by
        rw [List.filter_eq_nil_iff]
        intro c hc hcn
        refine hn.1 ?_
        rw [hb, ← of_decide_eq_true hcn]
        exact List.mem_map_of_mem hc
      simp [hb, hrest]
    · simp [hb, ih hn.2]

namespace Classified

/-- The settlement of a name in a scope. -/
lemma settlementAt?_eq (hc : t.Classified h) (hs : t.scope? i = some s) (name : String) :
    h.settlementAt? i name = ((s.binding? name).filter Binding.isOuter).map (t.settlementOf s) := by
  rw [hc.binding?_eq_of_scope? hs, History.binding?, History.settlementAt?]
  cases hd : h.decisive? i name with
  | none => rfl
  | some d =>
    have hob : d.binding.isOuter = d.role.isOuter := rfl
    cases hr : d.role.isOuter with
    | false => simp [Option.filter, hr, hob]
    | true =>
      -- the declaration stands in the scope itself, so the scopes around it are known
      obtain ⟨hmem, hi, hname, -⟩ := History.of_outer? (History.outer?_of_decisive? hd hr)
      have hpath := hc.path_eq d hmem
      rw [hi, hc.arena.frames_eq_cons hs] at hpath
      have haround : d.around = t.frames s.parent := (List.cons.inj hpath).2
      have hown : t.ownership s d.binding =
          Ownership.ofRole d.role (h.rolesAround d.around d.name) := by
        rw [ownership, hc.functionsAround_eq_rolesAround hs, haround]
        rfl
      simp only [Option.filter, hr, hob, if_true, Option.map_some, Option.some.injEq]
      rw [History.settlementOf, settlementOf, hown, hi, hc.arena.index_eq hs]
      rfl

/-- The settlements of one name are those of the history, in the order of the scopes. -/
lemma settlements_named (hc : t.Classified h) (name : String) :
    (t.scopes.flatMap t.settlementsIn).filter (fun p => p.name = name) =
      (List.range t.size).filterMap fun i => h.settlementAt? i name := by
  have hrange : List.range t.size = t.scopes.map Scope.index := by
    apply List.ext_getElem (by simp [size])
    intro i hi _
    rw [List.getElem_range, List.getElem_map]
    exact (hc.arena.index_eq (List.getElem?_eq_getElem _)).symm
  have hscope : ∀ s ∈ t.scopes, (t.settlementsIn s).filter (fun p => p.name = name) =
      (h.settlementAt? s.index name).toList := by
    intro s hmem
    obtain ⟨i, hs⟩ := mem_scopes_iff.1 hmem
    have hname : (fun p : Settlement => decide (p.name = name)) ∘ t.settlementOf s =
        fun b => decide (b.name = name) := rfl
    rw [hc.arena.index_eq hs, hc.settlementAt?_eq hs, settlementsIn, List.filter_map, hname,
      List.filter_comm, filter_name_eq_toList (hc.names i s hs), ← Option.toList_filter,
      ← Option.toList_map]
    rfl
  rw [List.filter_flatMap, hrange, List.filterMap_map, List.filterMap_eq_flatMap_toList]
  apply List.flatMap_congr
  exact hscope

end Classified

end ScopeTree

/-! ## The analysis of a stream -/

namespace ScopeTree

variable {t u : ScopeTree} {h : History}

/-- What the analysis of a tree that operations lead to says about the site of a number. -/
lemma Reached.analyze_lookup (hr : t.Reached u) (hc : t.Classified h) (mode : Mode) :
    ∃ a, (u.analyze mode).2 = .ok a ∧ a.verdicts = h.verdicts ∧
      (∀ k, a.owners.lookup k = (h.verdicts.lookup k).bind (Verdict.owner? mode)) ∧
      ∀ k, a.siteDiagnostics.lookup k = (h.verdicts.lookup k).bind fun v =>
        v.failure?.map fun f => f.diagnose mode t t.filename := by
  obtain ⟨u', settlements, -, heq⟩ := hr.analyze_eq hc mode
  rw [h.verdicts_on_sites] at heq
  refine ⟨_, congrArg Prod.snd heq, rfl, ?_, ?_⟩
  · intro k
    rw [← lookup_filterMap h.nodup_verdicts]
    rfl
  · intro k
    rw [← lookup_filterMap h.nodup_verdicts]
    simp [analysisOf, Report.ofVerdicts, Function.comp_def]

end ScopeTree

/-- What the analysis `a` of the tree `t` says is what the history `h` says. -/
structure Analysis.Follows (a : Analysis) (t : ScopeTree) (h : History) (mode : Mode) : Prop where
  tree : ∃ u, a.tree = some u ∧ u.bare = t.bare ∧ u.sites = h.sites
  verdicts_eq : a.verdicts = h.verdicts
  lookup_owners : ∀ k, a.owners.lookup k = (h.verdicts.lookup k).bind (Verdict.owner? mode)
  lookup_siteDiagnostics : ∀ k, a.siteDiagnostics.lookup k = (h.verdicts.lookup k).bind fun v =>
    v.failure?.map fun f => f.diagnose mode t t.filename
  settlements_named : ∀ name, a.settlements.filter (fun p => p.name = name) =
    (List.range t.size).filterMap fun i => h.settlementAt? i name

/-- The analysis of events that describe a tree. -/
lemma exists_analyzeEvents {unitName filename : Option String} {events : List Event}
    {t : ScopeTree} (he : ScopeTree.ofEvents unitName filename events = .ok t) (mode : Mode) :
    ∃ a, analyzeEvents mode events unitName filename = .ok a ∧
      a.Follows t (history events) mode := by
  have hc := ScopeTree.classified_ofEvents he
  obtain ⟨a, ha, hverdicts, howners, hdiagnostics⟩ := hc.reached.analyze_lookup hc mode
  obtain ⟨u, r, hext, -, heq⟩ := hc.analyze_eq mode
  rw [heq] at ha
  obtain rfl := Except.ok.inj ha
  simp only [analyzeEvents, he, heq]
  refine ⟨_, rfl, ?_, hverdicts, howners, hdiagnostics, ?_⟩
  · exact ⟨u, rfl, hext.bare_eq.trans (ScopeTree.bare_settledTree t),
      hext.sites_eq.trans hc.sites_eq⟩
  · exact hc.settlements_named

/-- The diagnostics of events that describe a tree are those of the failures of their history. -/
lemma diagnostics_analyzeEvents {unitName filename : Option String} {events : List Event}
    {t : ScopeTree} {mode : Mode} {a : Analysis}
    (he : ScopeTree.ofEvents unitName filename events = .ok t)
    (ha : analyzeEvents mode events unitName filename = .ok a) :
    a.diagnostics = (history events).verdicts.filterMap fun v =>
      v.2.failure?.map fun f => f.diagnose mode t t.filename := by
  have hc := ScopeTree.classified_ofEvents he
  obtain ⟨u, settlements, -, heq⟩ := hc.reached.analyze_eq hc mode
  rw [History.verdicts_on_sites] at heq
  simp only [analyzeEvents, he, heq] at ha
  obtain rfl := Except.ok.inj ha
  rfl

end TargetScope
