import TargetScope.Proofs.Renumbering

/-!
# Histories that are mirrored in shorter ones

What the law of resolution says about a mention depends on few other mentions: those in the scopes
around it, and the targets that have those scopes as their blocks (`History.Covers`).  If a
selection of the mentions keeps all of these, then the law comes to the same in the selection.

A shorter history mirrors a longer one if it is, renumbered, what such a selection leaves of it
(`History.Mirrors`).  Then the two agree on every mention that is kept and on every declaration that
is covered, and so do the analyses of two streams with these histories (`History.Mirrors.agree`):
the sites of the shorter one are, one by one, those that are kept of the longer one.
-/

namespace TargetScope

namespace History

variable {h : History} {keep : Occurrence → Bool} {i : Nat} {name : String} {o : Occurrence}

/-! ## What a name in a scope depends on -/

/-- The selection keeps all mentions on which it depends what the name is in the scope at the place
`i`. -/
structure Covers (h : History) (keep : Occurrence → Bool) (i : Nat) (name : String) : Prop where
  /-- The mentions in the scope itself. -/
  isAt : ∀ p ∈ h, p.isAt i name = true → keep p = true
  /-- The targets of the name that may reach the scope, and what may be in their way. -/
  target : ∀ p ∈ h, p.name = name → p.block = ⟨i, .functionBody⟩ → keep p = true ∧
    ∀ f ∈ p.transparentPath, ∀ q ∈ h, q.isAt f.index name = true → keep q = true

/-- What is looked for is found in a selection that keeps it. -/
lemma find?_filter_of_imp {α : Type} {l : List α} {keep p : α → Bool}
    (hp : ∀ x ∈ l, p x = true → keep x = true) : (l.filter keep).find? p = l.find? p := by
  rw [List.find?_filter]
  apply List.find?_congr
  intro x hx
  rw [Bool.eq_iff_iff, decide_eq_true_eq]
  constructor
  · rintro ⟨-, hpx⟩
    exact hpx
  · intro hpx
    exact ⟨hp x hx hpx, hpx⟩

namespace Covers

lemma blocker?_eq (hc : h.Covers keep i name) :
    blocker? (h.filter keep) i name = h.blocker? i name := by
  refine find?_filter_of_imp ?_
  intro o ho hp
  rw [Bool.and_eq_true] at hp
  exact hc.isAt o ho hp.1

lemma outer?_eq (hc : h.Covers keep i name) :
    outer? (h.filter keep) i name = h.outer? i name := by
  rw [outer?, ← List.filter_reverse]
  refine find?_filter_of_imp ?_
  intro o ho hp
  rw [Bool.and_eq_true] at hp
  exact hc.isAt o (List.mem_reverse.1 ho) hp.1

lemma plain?_eq (hc : h.Covers keep i name) :
    plain? (h.filter keep) i name = h.plain? i name := by
  refine find?_filter_of_imp ?_
  intro o ho hp
  rw [Bool.and_eq_true] at hp
  exact hc.isAt o ho hp.1

/-- What is in the way of a target is in the way of it in the selection. -/
lemma obstructs_eq (hq : ∀ f ∈ o.transparentPath, ∀ q ∈ h, q.isAt f.index o.name = true →
    keep q = true) : obstructs (h.filter keep) o = h.obstructs o := by
  rw [Bool.eq_iff_iff, obstructs, obstructs, List.any_eq_true, List.any_eq_true]
  constructor
  · rintro ⟨p, hp, hop⟩
    exact ⟨p, List.mem_of_mem_filter hp, hop⟩
  · rintro ⟨p, hp, hop⟩
    refine ⟨p, List.mem_filter.2 ⟨hp, ?_⟩, hop⟩
    rw [Bool.and_eq_true, List.any_eq_true] at hop
    obtain ⟨-, f, hf, hat⟩ := hop
    exact hq f hf p hp hat

lemma bareTarget?_eq (hc : h.Covers keep i name) :
    bareTarget? (h.filter keep) i name = h.bareTarget? i name := by
  -- whether a target is obstructed matters only if it is one of the name that may reach the scope
  have hsame : ∀ o ∈ h.filter keep,
      (decide (o.role = .targetOnly) && decide (o.name = name) &&
          decide (o.block = ⟨i, .functionBody⟩) && !obstructs (h.filter keep) o) =
        (decide (o.role = .targetOnly) && decide (o.name = name) &&
          decide (o.block = ⟨i, .functionBody⟩) && !h.obstructs o) := by
    intro o ho
    by_cases hon : o.name = name ∧ o.block = ⟨i, .functionBody⟩
    · obtain ⟨rfl, hblock⟩ := hon
      rw [obstructs_eq (hc.target o (List.mem_of_mem_filter ho) rfl hblock).2]
    · have hfalse : (decide (o.name = name) && decide (o.block = ⟨i, .functionBody⟩)) = false := by
        simpa using hon
      rw [Bool.and_assoc (decide (o.role = .targetOnly)), hfalse]
      simp
  rw [bareTarget?, List.find?_congr hsame]
  refine find?_filter_of_imp ?_
  intro o ho hp
  simp only [Bool.and_eq_true, decide_eq_true_eq] at hp
  exact (hc.target o ho hp.1.1.2 hp.1.2).1

lemma decisive?_eq (hc : h.Covers keep i name) :
    decisive? (h.filter keep) i name = h.decisive? i name := by
  rw [decisive?, hc.blocker?_eq, hc.outer?_eq, hc.plain?_eq, hc.bareTarget?_eq, decisive?]

end Covers

/-- The roles of a name in some functions, if these are covered. -/
lemma rolesAround_filter {around : List Frame} (hc : ∀ f ∈ around, h.Covers keep f.index name) :
    rolesAround (h.filter keep) around name = h.rolesAround around name := by
  apply List.map_congr_left
  intro f hf
  rw [(hc f (List.mem_of_mem_filter hf)).decisive?_eq]

/-- The verdict on a target, if the scopes around it are covered. -/
lemma verdict_filter (hc : ∀ f ∈ o.path, h.Covers keep f.index o.name) (hb : o.block ∈ o.path)
    (site : UseSite) : verdict (h.filter keep) o site = h.verdict o site := by
  have hblock := hc o.block hb
  have hpath : o.transparentPath.findSome? (fun f => blocker? (h.filter keep) f.index o.name) =
      o.transparentPath.findSome? fun f => h.blocker? f.index o.name := by
    apply ScopeTree.findSome?_congr
    intro f hf
    exact (hc f (List.takeWhile_subset _ hf)).blocker?_eq
  have haround : functionsAround (h.filter keep) o = h.functionsAround o := by
    rw [functionsAround_eq_rolesAround, functionsAround_eq_rolesAround]
    refine rolesAround_filter ?_
    intro f hf
    exact hc f ((List.dropWhile_subset _) (List.mem_of_mem_tail hf))
  rw [verdict, verdict, hpath, establishing?, establishing?, hblock.blocker?_eq, hblock.outer?_eq,
    hblock.plain?_eq, owner, owner, hblock.outer?_eq, haround]

/-! ## Mirrors -/

/-- The history `h'` mirrors the history `h`: it is, renumbered, what the selection leaves of `h`,
and the selection covers the scopes around every mention that it keeps. -/
structure Mirrors (h' h : History) (r : Renumbering) (keep : Occurrence → Bool) : Prop where
  filter_eq : h.filter keep = h'.map (·.moved r)
  covers : ∀ o ∈ h, keep o = true → ∀ f ∈ o.path, h.Covers keep f.index o.name

namespace Mirrors

variable {h' : History} {r : Renumbering}

lemma mem_of_mem (hm : h'.Mirrors h r keep) {o : Occurrence} (ho : o ∈ h') :
    o.moved r ∈ h ∧ keep (o.moved r) = true := by
  rw [← List.mem_filter, hm.filter_eq]
  exact List.mem_map_of_mem ho

/-- The verdicts on a mention and on its mirror image. -/
lemma verdict_eq (hm : h'.Mirrors h r keep) {o : Occurrence} (ho : o ∈ h')
    (hb : (o.moved r).block ∈ (o.moved r).path) (site site' : UseSite) :
    h.verdict (o.moved r) site = (h'.verdict o site').moved r.place site := by
  obtain ⟨hmem, hkeep⟩ := hm.mem_of_mem ho
  rw [← verdict_filter (hm.covers _ hmem hkeep) hb, hm.filter_eq, verdict_moved]

/-- The settlements of a name in a scope and in its mirror image. -/
lemma settlementAt?_eq (hm : h'.Mirrors h r keep) (hc : h.Covers keep (r.place i) name) :
    h.settlementAt? (r.place i) name = (h'.settlementAt? i name).map (·.moved r.place) := by
  rw [← settlementAt?_moved, ← hm.filter_eq, settlementAt?, settlementAt?, hc.decisive?_eq]
  cases hd : h.decisive? (r.place i) name with
  | none => rfl
  | some d =>
    cases hr : d.role.isOuter with
    | false => simp [Option.filter, hr]
    | true =>
      -- the declaration itself is kept, so the scopes around it are covered
      obtain ⟨hmem, hi, hname, -⟩ := of_outer? (outer?_of_decisive? hd hr)
      have hkeep : keep d = true := hc.isAt d hmem (by simp [Occurrence.isAt, hi, hname])
      have haround : rolesAround (h.filter keep) d.around d.name = h.rolesAround d.around d.name :=
        rolesAround_filter fun f hf => hm.covers d hmem hkeep f (List.mem_cons_of_mem _ hf)
      simp only [Option.filter, hr, if_true, Option.map_some, settlementOf, haround]

end Mirrors

end History

/-! ## Analyses of mirrored streams -/

/-- What the analysis `a` says about the site `u` is what the analysis `a'` says about the site
`u'`, at the new places. -/
structure Analysis.AgreesOn (a a' : Analysis) (place : Nat → Nat) (u u' : UseSite) : Prop where
  name_eq : u.name = u'.name
  operator_eq : u.operator = u'.operator
  position_eq : u.position = u'.position
  /-- The sites stand in scopes that correspond to each other. -/
  scope_eq : ∃ i : Nat, u'.scope = i ∧ u.scope = place i
  /-- The targets are bound to scopes that correspond to each other, or the sites fail for the same
  reason, with the same blocking role, and at scopes that correspond to each other. -/
  verdict_eq : ∃ v, a'.verdicts.lookup u'.index = some v ∧
    a.verdicts.lookup u.index = some (v.moved place u)
  /-- A failure at the one site is a failure of that site. -/
  site_eq : ∀ f, a'.verdicts.lookup u'.index = some (.failed f) → f.site = u'
  /-- The owners correspond to each other. -/
  owner_eq : a.owners.lookup u.index = (a'.owners.lookup u'.index).map place

section Numbered

variable {α α' β β' : Type} {keep : α → Bool} {g : α' → α} {q : β → Bool} {R : β → β' → Prop}

/-- If a selection of a list is the image of another list, then the entries that it selects of the
one, numbered as they are, correspond to those of the other one. -/
lemma forall₂_mapIdx {l : List α} {l' : List α'} {f : Nat → α → β} {f' : Nat → α' → β'}
    (hl : l.filter keep = l'.map g) (hq : ∀ k, ∀ x ∈ l, q (f k x) = keep x)
    (hR : ∀ k k' x, l[k]? = some (g x) → l'[k']? = some x → R (f k (g x)) (f' k' x)) :
    List.Forall₂ R ((l.mapIdx f).filter q) (l'.mapIdx f') := by
  -- the numbers of the rest are those behind the first entry, so the numbering is generalised
  induction l generalizing l' f f' with
  | nil =>
    obtain rfl : l' = [] := List.map_eq_nil_iff.1 hl.symm
    exact .nil
  | cons x l ih =>
    rw [List.mapIdx_cons, List.filter_cons, hq 0 x List.mem_cons_self]
    have hq' : ∀ k, ∀ y ∈ l, q (f (k + 1) y) = keep y := fun k y hy =>
      hq (k + 1) y (List.mem_cons_of_mem _ hy)
    cases hx : keep x with
    | true =>
      rw [List.filter_cons_of_pos hx] at hl
      obtain ⟨x', rest, rfl, rfl, hrest⟩ := List.map_eq_cons_iff.1 hl.symm
      rw [List.mapIdx_cons]
      refine .cons (hR 0 0 x' rfl rfl) (ih hrest.symm hq' ?_)
      intro k k' y hy hy'
      exact hR (k + 1) (k' + 1) y hy hy'
    | false =>
      rw [List.filter_cons_of_neg (by simp [hx])] at hl
      refine ih hl hq' ?_
      intro k k' y hy hy'
      exact hR (k + 1) k' y hy hy'

end Numbered

namespace History

variable {h h' : History} {r : Renumbering} {keep : Occurrence → Bool}

lemma targets_filter (h : History) (keep : Occurrence → Bool) :
    targets (h.filter keep) = h.targets.filter fun x => keep x.1 := by
  rw [targets, List.filterMap_filter, targets, List.filter_filterMap]
  apply List.filterMap_congr
  intro o _
  cases o.how.operator? with
  | none => simp
  | some operator => simp [Option.filter]

lemma targets_moved (h : History) (r : Renumbering) :
    targets (h.map (·.moved r)) = h.targets.map fun x => (x.1.moved r, x.2) := by
  rw [targets, List.filterMap_map, targets, List.map_filterMap]
  apply List.filterMap_congr
  intro o _
  simp [Function.comp_def]

/-- A failure of a site names the site. -/
lemma site_of_verdict {o : Occurrence} {site : UseSite} {f : Failure}
    (hv : h.verdict o site = .failed f) : f.site = site := by
  revert hv
  refine h.verdict_elim o site ?onPath ?inClass ?inBlock ?missing ?bound
  case bound => simp
  all_goals
    intros
    obtain rfl := Verdict.failed.inj ‹_›
    rfl

/-- The sites of a mirror are, one by one, those that the selection keeps, and what the analyses say
about them is the same. -/
lemma Mirrors.agree (hm : h'.Mirrors h r keep) {t t' : ScopeTree} (hc : t.Classified h)
    {mode : Mode} {a a' : Analysis} (ha : a.Follows t h mode) (ha' : a'.Follows t' h' mode)
    {q : UseSite → Bool} (hq : ∀ o ∈ h, ∀ operator k, q (o.site operator k) = keep o) :
    List.Forall₂ (a.AgreesOn a' r.place) (h.sites.filter q) h'.sites := by
  have htargets : h.targets.filter (fun x => keep x.1) =
      h'.targets.map fun x => (x.1.moved r, x.2) := by
    rw [← targets_filter, hm.filter_eq, targets_moved]
  refine forall₂_mapIdx htargets ?_ ?_
  · intro k x hx
    exact hq x.1 (mem_of_mem_targets hx) x.2 k
  · intro k k' x hx hx'
    have hmem := mem_of_mem_targets (List.mem_of_getElem? hx')
    have hv' : a'.verdicts.lookup k' = some (h'.verdict x.1 (x.1.site x.2 k')) := by
      rw [ha'.verdicts_eq, lookup_verdicts, hx', Option.map_some]
    have hv : a.verdicts.lookup k = some ((h'.verdict x.1 (x.1.site x.2 k')).moved r.place
        ((x.1.moved r).site x.2 k)) := by
      have hblock := List.mem_of_find?_eq_some (hc.find?_isBlock_path (hm.mem_of_mem hmem).1)
      rw [ha.verdicts_eq, lookup_verdicts, hx, Option.map_some, ← hm.verdict_eq hmem hblock]
    refine ⟨rfl, rfl, rfl, ⟨x.1.scope.index, rfl, rfl⟩, ⟨_, hv', hv⟩, ?_, ?_⟩
    · intro f hf
      exact site_of_verdict (Option.some.inj (hv'.symm.trans hf))
    · show a.owners.lookup k = (a'.owners.lookup k').map r.place
      rw [ha.lookup_owners, ← ha.verdicts_eq, hv, ha'.lookup_owners, ← ha'.verdicts_eq, hv',
        Option.bind_some, Option.bind_some, Verdict.owner?_moved]

end History

end TargetScope
