import TargetScope.Proofs.Rerun
import TargetScope.Proofs.Settlement

/-!
# The law of resolution

For a stream of events, the verdicts of an analysis are a function of the history of the stream
alone.  Let a target of a name stand in some scope, and let the block be the innermost block scope
at or around it (`History.verdict`):

* if a transparent scope on the way from the target to the block has the name as a parameter or an
  iteration variable, at any time, the innermost such scope forbids the target;
* else, if the block is the body of a class and the target does not stand directly in it, the
  target is not supported;
* else, if the block has the name as a parameter or an iteration variable, at any time, the block
  forbids the target;
* else, if the block is a function, the last declaration of the name there as an outer name, or if
  there is none the first assignment or declaration of its type, has to come before the target;
* else the target is bound: to the lexical owner of the name if it is declared outer in the block,
  and to the block if it is not.

The law does not mention the tree, the pass over the outer declarations, or the bindings that are
created while targets are resolved.
-/

namespace TargetScope

namespace History

/-! ## The law -/

/-- The mention that establishes the name in the scope at the place `i` for the targets behind it:
the last declaration as an outer name, or else the first assignment or declaration of its type. -/
def establishing? (h : History) (i : Nat) (name : String) : Option Occurrence :=
  (h.outer? i name).or (h.plain? i name)

/-- The functions around the block of a mention, innermost first, each with the role of the name
there. -/
def functionsAround (h : History) (o : Occurrence) : List (Nat × Option BindingRole) :=
  ((o.path.dropWhile fun f => f.kind.isTransparent).tail.filter fun f =>
    f.kind = .functionBody).map fun f => (f.index, (h.decisive? f.index o.name).map Occurrence.role)

/-- The functions among the scopes around a scope, in the order of these, each with the role of the
name there. -/
def rolesAround (h : History) (around : List Frame) (name : String) :
    List (Nat × Option BindingRole) :=
  (around.filter fun f => f.kind = .functionBody).map fun f =>
    (f.index, (h.decisive? f.index name).map Occurrence.role)

lemma functionsAround_eq_rolesAround (h : History) (o : Occurrence) :
    h.functionsAround o =
      h.rolesAround (o.path.dropWhile fun f => f.kind.isTransparent).tail o.name := rfl

/-- The scope that owns the name of a mention in the block of the mention. -/
def owner (h : History) (o : Occurrence) : Nat :=
  match h.outer? o.block.index o.name with
  | some d => (Ownership.ofRole d.role (h.functionsAround o)).owner
  | none => o.block.index

/-- The verdict on the target of the mention `o`, whose use site is `site`. -/
def verdict (h : History) (o : Occurrence) (site : UseSite) : Verdict :=
  match o.transparentPath.findSome? fun f => h.blocker? f.index o.name with
  | some p =>
    .failed { kind := .shadowedBinding, reason := .transparentScopeShadow, site,
              scope := p.scope.index, blocking := some p.role }
  | none =>
    if o.block.kind = .classBody ∧ o.scope ≠ o.block then
      .failed { kind := .classScope, reason := .classBody, site, scope := o.block.index }
    else
      match h.blocker? o.block.index o.name with
      | some p =>
        .failed { kind := .shadowedBinding, reason := .blockScopeShadow, site,
                  scope := o.block.index, blocking := some p.role }
      | none =>
        if o.block.kind = .functionBody ∧
            (h.establishing? o.block.index o.name).any (·.order < o.order) = false then
          .failed { kind := .targetName, reason := .missingBinding, site, scope := o.block.index,
                    fallback := some o.block.index }
        else .bound (h.owner o)

/-- The verdicts on the targets, each with the number of its use site. -/
def verdicts (h : History) : Verdicts :=
  h.targets.mapIdx fun index target =>
    (index, h.verdict target.1 (target.1.site target.2 index))

variable {h : History} {i : Nat} {name : String} {o d : Occurrence}

/-- What holds of each failure the law can come to, and of the owner of the name when it comes to
none, holds of the verdict. -/
@[elab_as_elim]
lemma verdict_elim {motive : Verdict → Prop} (h : History) (o : Occurrence) (site : UseSite)
    (onPath : ∀ f ∈ o.transparentPath, ∀ p, h.blocker? f.index o.name = some p →
      motive (.failed { kind := .shadowedBinding, reason := .transparentScopeShadow, site,
                        scope := p.scope.index, blocking := some p.role }))
    (inClass : motive (.failed { kind := .classScope, reason := .classBody, site,
                                 scope := o.block.index }))
    (inBlock : ∀ p, h.blocker? o.block.index o.name = some p →
      motive (.failed { kind := .shadowedBinding, reason := .blockScopeShadow, site,
                        scope := o.block.index, blocking := some p.role }))
    (missing : (o.transparentPath.findSome? fun f => h.blocker? f.index o.name) = none →
      h.blocker? o.block.index o.name = none → o.block.kind = .functionBody →
      motive (.failed { kind := .targetName, reason := .missingBinding, site,
                        scope := o.block.index, fallback := some o.block.index }))
    (bound : (o.transparentPath.findSome? fun f => h.blocker? f.index o.name) = none →
      h.blocker? o.block.index o.name = none →
      (o.block.kind = .functionBody →
        (h.establishing? o.block.index o.name).any (·.order < o.order) = true) →
      motive (.bound (h.owner o))) :
    motive (h.verdict o site) := by
  rw [verdict]
  split
  · next p hp =>
    obtain ⟨f, hf, hp⟩ := List.exists_of_findSome?_eq_some hp
    exact onPath f hf p hp
  · next hfree =>
    split
    · exact inClass
    · split
      · next p hp => exact inBlock p hp
      · next hblock =>
        split
        · next hmissing => exact missing hfree hblock hmissing.1
        · next hmissing =>
          refine bound hfree hblock fun hk => ?_
          rw [← Bool.not_eq_false]
          exact fun hany => hmissing ⟨hk, hany⟩

/-- The law binds a target to the owner of its name. -/
lemma eq_owner_of_verdict {site : UseSite} (hv : h.verdict o site = .bound i) : i = h.owner o := by
  revert hv
  refine verdict_elim h o site ?onPath ?inClass ?inBlock ?missing ?bound
  case bound => exact fun _ _ _ hv => (Verdict.bound.inj hv).symm
  all_goals simp

/-- The role by which a name is forbidden in a scope is that of its first mention with such a
role. -/
lemma filter_isBlocking_binding? (h : History) (i : Nat) (name : String) :
    ((h.binding? i name).map Binding.role).filter BindingRole.isBlocking =
      (h.blocker? i name).map Occurrence.role := by
  cases hb : h.blocker? i name with
  | some p =>
    have hd : h.decisive? i name = some p := by rw [decisive?, hb, Option.some_or]
    have hr : p.role.isBlocking = true := (of_blocker? hb).2.2.2
    simp [binding?, hd, Occurrence.binding, Option.filter, hr]
  | none =>
    have hany := h.any_isBlocking_binding? i name
    rw [hb, Option.isSome_none] at hany
    cases hbind : h.binding? i name with
    | none => rfl
    | some b =>
      rw [hbind, Option.any_some] at hany
      have hr : b.role.isBlocking = false := hany
      simp [Option.filter, hr]

end History

namespace ScopeTree

variable {t t' : ScopeTree} {h : History} {o : Occurrence} {s : Scope} {i k : Nat}
  {operator : Operator} {name : String}

/-- Settling makes no role blocking, and none that was blocking anything else. -/
lemma isBlocking_settledBinding (t : ScopeTree) (s : Scope) (b : Binding) :
    (t.settledBinding s b).role.isBlocking = b.role.isBlocking ∧
      (b.role.isBlocking = true → (t.settledBinding s b).role = b.role) := by
  rw [settledBinding]
  split
  · next ho =>
    have hb := BindingRole.isBlocking_of_isOuter ho
    have hset := BindingRole.isBlocking_of_isOuter
      (Ownership.isOuter_role_ofRole b.role (t.functionsAround s b.name))
    exact ⟨hset.trans hb.symm, fun hbl => absurd (hbl.symm.trans hb) (by decide)⟩
  · exact ⟨rfl, fun _ => rfl⟩

section Mention

variable {d : Occurrence}

/-- A declaration reaches the targets behind it, also when it is settled. -/
lemma reaches_settledBinding_of_isOuter (hd : d.role.isOuter = true) :
    (t.settledBinding s d.binding).reaches (o.site operator k) = decide (d.order < o.order) := by
  have hset : t.settledBinding s d.binding = { d.binding with
      role := (t.ownership s d.binding).role
      owner := some (t.ownership s d.binding).owner
      promotedFrom := (t.ownership s d.binding).promotedFrom } := if_pos hd
  have hr : (t.ownership s d.binding).role.isOuter = true := Ownership.isOuter_role_ofRole _ _
  have horder : d.binding.boundOrder = some d.order :=
    if_neg (BindingRole.ne_targetOnly_of_isOuter hd)
  rw [hset, Binding.reaches, Binding.isAnchor, BindingRole.isAnchor, hr, horder, Bool.or_true,
    Bool.true_and, Option.any_some]
  rfl

lemma isBlocking_settledBinding_of_isOuter (hd : d.role.isOuter = true) :
    (t.settledBinding s d.binding).isBlocking = false :=
  (isBlocking_settledBinding t s d.binding).1.trans (BindingRole.isBlocking_of_isOuter hd)

lemma owner_settledBinding_of_isOuter (hd : d.role.isOuter = true) :
    (t.settledBinding s d.binding).owner = some (t.ownership s d.binding).owner := by
  rw [settledBinding, if_pos (show d.binding.isOuter = true from hd)]

lemma reaches_binding_of_plain (hd : d.role = .plain) :
    d.binding.reaches (o.site operator k) = decide (d.order < o.order) := by
  have hanchor : d.binding.isAnchor = true := by
    rw [Binding.isAnchor, show d.binding.role = d.role from rfl, hd]
    decide
  have horder : d.binding.boundOrder = some d.order := if_neg (by rw [hd]; decide)
  rw [Binding.reaches, hanchor, horder, Bool.true_and, Option.any_some]
  rfl

end Mention

namespace Classified

lemma binding?_eq_of_scope? (hc : t.Classified h) (hs : t.scope? i = some s) (name : String) :
    s.binding? name = h.binding? i name := by
  rw [← binding?_of_scope? hs, hc.binding?_eq]

/-- What forbids a name in a scope of the settled tree. -/
lemma filter_isBlocking_settledTree (hc : t.Classified h) (hi : i < t.size) (name : String) :
    ((t.settledTree.binding? i name).map Binding.role).filter BindingRole.isBlocking =
      (h.blocker? i name).map Occurrence.role := by
  obtain ⟨s, hs⟩ := exists_scope?_of_lt hi
  rw [← h.filter_isBlocking_binding?, binding?_settledTree hs, hc.binding?_eq_of_scope? hs]
  cases h.binding? i name with
  | none => rfl
  | some b =>
    obtain ⟨hbl, hrole⟩ := isBlocking_settledBinding t s b
    simp only [Option.map_some, Option.filter, hbl]
    split
    · next hb => rw [hrole hb]
    · rfl

/-- The way outward from a mention. -/
lemma path_site (hc : t.Classified h) (ho : o ∈ h) (hbare : t'.bare = t.bare) :
    (o.site operator k).path t' = o.path := by
  have hpos : (0 : Int) ≤ (o.scope.index : Int) := Int.natCast_nonneg _
  rw [hc.path_eq o ho, ← frames_eq_of_bare_eq hbare]
  simp [UseSite.path, Occurrence.site]

/-- The scope of a mention is in the tree. -/
lemma index_lt (hc : t.Classified h) (ho : o ∈ h) : o.scope.index < t.size :=
  o.index_lt_of_path_eq (hc.path_eq o ho)

/-- The way outward from a mention ends in a block scope. -/
lemma find?_isBlock_path (hc : t.Classified h) (ho : o ∈ h) :
    o.path.find? (fun f => f.kind.isBlock) = some o.block := by
  have hroot := hc.rooted.root_mem_frames hc.arena (hc.index_lt ho)
  rw [← hc.path_eq o ho] at hroot
  rw [Occurrence.block]
  cases hfind : o.path.find? fun f => f.kind.isBlock with
  | some f => rfl
  | none => exact absurd rfl (List.find?_eq_none.1 hfind _ hroot)

/-- The block of a mention is a scope of the tree. -/
lemma exists_block (hc : t.Classified h) (ho : o ∈ h) :
    ∃ s, t.scope? o.block.index = some s ∧ s.frame = o.block := by
  have hmem := List.mem_of_find?_eq_some (hc.find?_isBlock_path ho)
  rw [hc.path_eq o ho] at hmem
  exact hc.arena.exists_scope?_of_mem_frames hmem

/-- The functions around a scope, read off the history. -/
lemma functionsAround_eq_rolesAround (hc : t.Classified h) (hs : t.scope? i = some s)
    (name : String) : t.functionsAround s name = h.rolesAround (t.frames s.parent) name := by
  have hframes : t.frames s.parent = ((t.chain s).map Scope.frame).tail := by
    rw [← frames_of_scope? hs, hc.arena.frames_eq_cons hs, List.tail_cons]
  rw [History.rolesAround, hframes, ← map_frame_enclosingFunctions, List.map_map, functionsAround]
  apply List.map_congr_left
  intro c hcm
  have hmem : c ∈ t.chain s := by
    rw [t.chain_eq_cons s]
    exact List.mem_cons_of_mem _ (List.mem_of_mem_filter hcm)
  have hci := (hc.arena.scope?_of_mem_chain hs hmem).1
  rw [hc.binding?_eq_of_scope? hci, History.binding?, Option.map_map]
  rfl

/-- The functions around the block of a mention, read off the history. -/
lemma functionsAround_eq (hc : t.Classified h) (ho : o ∈ h)
    (hs : t.scope? o.block.index = some s) : t.functionsAround s o.name = h.functionsAround o := by
  -- behind the transparent scopes, the way of the mention is the chain of its block
  have hdrop : o.path.dropWhile (fun f => f.kind.isTransparent) =
      t.frames (some o.block.index) := by
    have hfind : (t.frames (some o.scope.index)).find? (fun f => !f.kind.isTransparent) =
        some o.block := by
      rw [← hc.path_eq o ho, ← hc.find?_isBlock_path ho]
      simp [ScopeKind.isTransparent]
    rw [hc.path_eq o ho, hc.arena.dropWhile_frames, hfind, Option.map_some]
  rw [hc.functionsAround_eq_rolesAround hs, h.functionsAround_eq_rolesAround, hdrop,
    hc.arena.frames_eq_cons hs, List.tail_cons]

/-- The ownership of a name that is declared outer in the block of a mention. -/
lemma ownership_binding (hc : t.Classified h) (ho : o ∈ h) (hs : t.scope? o.block.index = some s)
    {d : Occurrence} (hd : h.outer? o.block.index o.name = some d) :
    t.ownership s d.binding = Ownership.ofRole d.role (h.functionsAround o) := by
  rw [← hc.functionsAround_eq ho hs, ← (History.of_outer? hd).2.2.1]
  rfl

/-- The verdict in the block of a mention, if nothing forbids the name there. -/
lemma verdictAt_settledTree (hc : t.Classified h) (ho : o ∈ h)
    (hb : h.blocker? o.block.index o.name = none) :
    (o.site operator k).verdictAt o.block (t.settledTree.binding? o.block.index o.name) =
      some (if o.block.kind = .functionBody ∧
          (h.establishing? o.block.index o.name).any (·.order < o.order) = false then
        .failed { kind := .targetName, reason := .missingBinding, site := o.site operator k,
                  scope := o.block.index, fallback := some o.block.index }
        else .bound (h.owner o)) := by
  obtain ⟨s, hs, -⟩ := hc.exists_block ho
  rw [binding?_settledTree hs, hc.binding?_eq_of_scope? hs, History.binding?, History.decisive?, hb,
    Option.none_or]
  -- the cases are those of the decisive mention, of which only the first two establish the name
  cases hout : h.outer? o.block.index o.name with
  | some d =>
    have hrole : d.role.isOuter = true := (History.of_outer? hout).2.2.2
    rw [Option.some_or, Option.map_some, Option.map_some]
    refine UseSite.verdictAt_of_owner (isBlocking_settledBinding_of_isOuter hrole) ?_ ?_ ?_
    · rw [reaches_settledBinding_of_isOuter hrole, History.establishing?, hout, Option.some_or,
        Option.any_some]
    · rw [owner_settledBinding_of_isOuter hrole, Option.getD_some, hc.ownership_binding ho hs hout,
        History.owner, hout]
    · exact Or.inl (by rw [owner_settledBinding_of_isOuter hrole, Option.isSome_some])
  | none =>
    have hown : h.owner o = o.block.index := by rw [History.owner, hout]
    have hest : h.establishing? o.block.index o.name = h.plain? o.block.index o.name := by
      rw [History.establishing?, hout, Option.none_or]
    rw [Option.none_or, hest, hown]
    cases hplain : h.plain? o.block.index o.name with
    | some d =>
      have hrole : d.role = .plain := (History.of_plain? hplain).2.2.2
      have hno : d.binding.isOuter = false := congrArg BindingRole.isOuter hrole
      rw [Option.some_or, Option.map_some, Option.map_some, settledBinding_of_not_isOuter hno]
      refine UseSite.verdictAt_of_owner ?_ ?_ rfl (Or.inr hno)
      · exact congrArg BindingRole.isBlocking hrole
      · rw [reaches_binding_of_plain hrole, Option.any_some]
    | none =>
      rw [Option.none_or]
      cases hbare : h.bareTarget? o.block.index o.name with
      | some d =>
        have hrole : d.role = .targetOnly := (History.of_bareTarget? hbare).2.2.2
        have hno : d.binding.isOuter = false := congrArg BindingRole.isOuter hrole
        rw [Option.map_some, Option.map_some, settledBinding_of_not_isOuter hno]
        refine UseSite.verdictAt_of_owner ?_ ?_ rfl (Or.inr hno)
        · exact congrArg BindingRole.isBlocking hrole
        · simp [Binding.reaches, Occurrence.binding, hrole]
      | none =>
        simp only [Option.map_none, Option.any_none, UseSite.verdictAt, and_true]
        split <;> rfl

/-- The verdict in the block of a mention, if the name is forbidden there. -/
lemma verdictAt_of_blocker? (hc : t.Classified h) (ho : o ∈ h) {p : Occurrence}
    (hb : h.blocker? o.block.index o.name = some p) :
    (o.site operator k).verdictAt o.block (t.settledTree.binding? o.block.index o.name) =
      some (.failed { kind := .shadowedBinding, reason := .blockScopeShadow,
                      site := o.site operator k, scope := o.block.index,
                      blocking := some p.role }) := by
  obtain ⟨s, hs, -⟩ := hc.exists_block ho
  have hf := hc.filter_isBlocking_settledTree (lt_size_of_scope? hs) o.name
  rw [hb, Option.map_some] at hf
  obtain ⟨hrole, hbl⟩ := Option.filter_eq_some_iff.1 hf
  obtain ⟨b, hbind, hbr⟩ := Option.map_eq_some_iff.1 hrole
  have hbb : b.isBlocking = true := by rw [Binding.isBlocking, hbr, hbl]
  rw [hbind, UseSite.verdictAt, if_pos hbb, hbr]

/-- The verdict on a site in the settled tree is that of the history. -/
lemma verdict?_settledTree (hc : t.Classified h) (ho : o ∈ h) :
    t.settledTree.verdict? (o.site operator k) = some (h.verdict o (o.site operator k)) := by
  -- the search on the way finds the scope of the first blocking mention
  have hsearch : UseSite.blockerOn? (o.path.takeWhile fun f => f.kind.isTransparent)
        (fun j => t.settledTree.binding? j o.name) =
      (o.transparentPath.findSome? fun f => h.blocker? f.index o.name).map fun p =>
        (p.scope.index, p.role) := by
    rw [List.map_findSome?]
    apply findSome?_congr
    intro f hf
    have hmem : f ∈ t.frames (some o.scope.index) :=
      hc.path_eq o ho ▸ List.takeWhile_subset _ hf
    rw [hc.filter_isBlocking_settledTree (hc.arena.index_le_of_mem_frames hmem).2, Option.map_map,
      Function.comp_apply]
    cases hb : h.blocker? f.index o.name with
    | none => rfl
    | some p => simp [(History.of_blocker? hb).2.1]
  rw [ScopeTree.verdict?, hc.path_site ho (bare_settledTree t), UseSite.verdict?, History.verdict]
  rw [show (o.site operator k).name = o.name from rfl, hsearch, hc.find?_isBlock_path ho]
  cases o.transparentPath.findSome? fun f => h.blocker? f.index o.name with
  | some p => rfl
  | none =>
    have hhead : o.path.head? = some o.scope := rfl
    simp only [Option.map_none, hhead, Ne, Option.some.injEq]
    by_cases hclass : o.block.kind = .classBody ∧ ¬o.scope = o.block
    · rw [if_pos hclass, if_pos hclass]
    · rw [if_neg hclass, if_neg hclass]
      cases hb : h.blocker? o.block.index o.name with
      | some p => rw [hc.verdictAt_of_blocker? ho hb]
      | none => rw [hc.verdictAt_settledTree ho hb]

/-- The owner of a name is in the tree. -/
lemma owner_lt (hc : t.Classified h) (ho : o ∈ h) : h.owner o < t.size := by
  obtain ⟨s, hs, -⟩ := hc.exists_block ho
  rw [History.owner]
  split
  · next d hd =>
    rw [← hc.ownership_binding ho hs hd]
    exact hc.unsettled.owner_ownership_lt hs d.binding
  · exact lt_size_of_scope? hs

lemma resolves_settledTree (hc : t.Classified h) (ho : o ∈ h) :
    t.settledTree.Resolves (o.site operator k) (h.verdict o (o.site operator k)) := by
  refine ⟨hc.verdict?_settledTree ho, ?_⟩
  intro owner hv
  rw [size_eq_of_bare_eq (bare_settledTree t), History.eq_owner_of_verdict hv]
  exact hc.owner_lt ho

end Classified

end ScopeTree

/-! ## All sites of a stream -/

namespace History

variable {h : History}

lemma mem_of_mem_targets {x : Occurrence × Operator} (hx : x ∈ h.targets) : x.1 ∈ h := by
  obtain ⟨o, ho, hox⟩ := List.mem_filterMap.1 hx
  obtain ⟨_, -, rfl⟩ := Option.map_eq_some_iff.1 hox
  exact ho

lemma isSome_lookup_verdicts {site : UseSite} (hs : site ∈ h.sites) :
    (h.verdicts.lookup site.index).isSome = true := by
  obtain ⟨k, hk, rfl⟩ := List.mem_mapIdx.1 hs
  rw [List.lookup_isSome_iff]
  refine ⟨_, List.mem_mapIdx.2 ⟨k, hk, rfl⟩, ?_⟩
  simp [Occurrence.site]

end History

/-- A report on sites that all have verdicts is complete. -/
lemma Report.snd_addSites_eq_none (mode : Mode) (t : ScopeTree) (filename : Option String)
    {verdicts : Verdicts} (r : Report) {sites : List UseSite}
    (h : ∀ site ∈ sites, (verdicts.lookup site.index).isSome = true) :
    (addSites mode t filename verdicts r sites).2 = none := by
  induction sites generalizing r with
  | nil => rfl
  | cons site rest ih =>
    obtain ⟨v, hv⟩ := Option.isSome_iff_exists.1 (h site List.mem_cons_self)
    rw [addSites, hv]
    exact ih _ fun u hu => h u (List.mem_cons_of_mem _ hu)

namespace ScopeTree

variable {t : ScopeTree} {h : History}

lemma Classified.sitesInOrder_eq (hc : t.Classified h) {t' : ScopeTree} (hs : t'.sites = t.sites) :
    t'.sitesInOrder = h.sites := by
  rw [← hc.sites_eq, ← hs]
  refine sitesInOrder_of_pairwise ?_
  rw [hs, hc.sites_eq]
  exact (History.pairwise_sites hc.ordered).imp Int.le_of_lt

/-- The resolutions of a settled tree, with any notes, come to the verdicts of the history. -/
lemma Classified.resolve_eq (hc : t.Classified h) {t₁ : ScopeTree}
    (hext : t.settledTree.Extends t₁) :
    ∃ t', t₁.Extends t' ∧ t₁.resolve = { tree := t', verdicts := h.verdicts } := by
  -- a site alone does not say which mention it belongs to, so its verdict is read off the tree
  let verdict := fun site => (t.settledTree.verdict? site).getD (.bound rootIndex)
  have harena : t.settledTree.Arena := hc.arena.of_bare_eq (bare_settledTree t)
  have hsite : ∀ k, ∀ x ∈ h.targets,
      verdict (x.1.site x.2 k) = h.verdict x.1 (x.1.site x.2 k) := by
    intro k x hx
    simp only [verdict, hc.verdict?_settledTree (History.mem_of_mem_targets hx), Option.getD_some]
  have hall : ∀ site ∈ h.sites, t₁.Resolves site (verdict site) := by
    intro site hs
    obtain ⟨k, hk, rfl⟩ := List.mem_mapIdx.1 hs
    have hx := List.getElem_mem hk
    rw [hsite k _ hx]
    exact hext.resolves harena (hc.resolves_settledTree (History.mem_of_mem_targets hx))
  obtain ⟨t', hext', heq, -⟩ := resolveSites_eq (harena.of_bare_eq hext.bare_eq) hall
  refine ⟨t', hext', ?_⟩
  have hverdicts : h.sites.map (fun site => (site.index, verdict site)) = h.verdicts := by
    apply List.ext_getElem (by simp [History.sites, History.verdicts])
    intro k hk _
    rw [List.length_map, History.sites, List.length_mapIdx] at hk
    simp only [History.sites, History.verdicts, List.getElem_map, List.getElem_mapIdx]
    rw [hsite k _ (List.getElem_mem hk)]
    rfl
  rw [resolve, hc.sitesInOrder_eq hext.sites_eq, heq, hverdicts]

/-- The analysis of a tree that the pass over the outer declarations turns into the settled one,
with any notes. -/
lemma Classified.analyze_of_extends (hc : t.Classified h) {u t₁ : ScopeTree}
    {settlements : List Settlement} (hs : u.settleOuterDeclarations = { tree := t₁, settlements })
    (hext : t.settledTree.Extends t₁) (howner : ∀ p ∈ settlements, p.owner < u.size)
    (mode : Mode) :
    ∃ t' r, t.settledTree.Extends t' ∧ t'.report mode none h.verdicts = (r, none) ∧
      u.analyze mode = (t', .ok (t'.analysisOf settlements h.verdicts r)) := by
  obtain ⟨t', hext', hres⟩ := hc.resolve_eq hext
  have hall := hext.trans hext'
  have hreport : (t'.report mode none h.verdicts).2 = none := by
    refine Report.snd_addSites_eq_none _ _ _ _ ?_
    intro site hsite
    rw [hc.sitesInOrder_eq hall.sites_eq] at hsite
    exact History.isSome_lookup_verdicts hsite
  refine ⟨t', _, hall, Prod.ext rfl hreport, ?_⟩
  exact ScopeTree.analyze_eq mode hs howner hres (Prod.ext rfl hreport)

/-- The analysis of a classified tree. -/
lemma Classified.analyze_eq (hc : t.Classified h) (mode : Mode) :
    ∃ t' r, t.settledTree.Extends t' ∧ t'.report mode none h.verdicts = (r, none) ∧
      t.analyze mode =
        (t', .ok (t'.analysisOf (t.scopes.flatMap t.settlementsIn) h.verdicts r)) :=
  hc.analyze_of_extends hc.settleOuterDeclarations_eq (.refl _)
    (fun _ hp => (hc.unsettled.lt_size_of_mem_settlements hp).2) mode

/-- The law of resolution.  For every stream that describes a tree, the use sites of the tree are
the targets of the stream, and in every mode the analysis comes for each of them to the verdict
that the history of the stream gives. -/
theorem verdicts_analyze {unitName filename : Option String} {events : List Event}
    (he : ofEvents unitName filename events = .ok t) (mode : Mode) :
    t.sites = (history events).sites ∧
      ∃ a, (t.analyze mode).2 = .ok a ∧ a.verdicts = (history events).verdicts := by
  have hc := classified_ofEvents he
  obtain ⟨t', r, -, -, heq⟩ := hc.analyze_eq mode
  exact ⟨hc.sites_eq, _, congrArg Prod.snd heq, rfl⟩

/-- A module with a function `f`, in it a function `g`, in that a closure, and with a class. -/
def mixedTargets : List Event :=
  [.enter .moduleBody none none,
    .enter .functionBody (some "f") none, .mention "x" .assignment none,
    .enter .functionBody (some "g") none, .mention "x" (.target .augmented) none,
    .mention "x" .outerFunction none, .mention "x" (.target .augmented) none,
    .enter .closure none none, .mention "y" (.target .inline) none,
    .mention "y" .parameter none, .exit,
    .exit, .exit,
    .enter .classBody none none, .enter .comprehension none none,
    .mention "x" (.target .inline) none, .exit, .mention "x" (.target .augmented) none, .exit,
    .exit].map fun action => { action }

/-- The first target of `x` in `g` comes before the declaration there, and the second behind it; the
parameter `y` forbids the target before it; and the class owns only what stands directly in it. -/
theorem verdicts_mixedTargets :
    ∃ t a, ofEvents none none mixedTargets = .ok t ∧ (t.analyze .strict).2 = .ok a ∧
      a.verdicts.map (fun v => match v.2 with
        | .bound owner => (none, owner)
        | .failed f => (some f.reason, f.scope)) =
      [(some .missingBinding, 2), (none, 1), (some .transparentScopeShadow, 3),
        (some .classBody, 4), (none, 4)] := by
  obtain ⟨t, he⟩ : ∃ t, ofEvents none none mixedTargets = .ok t := ⟨_, rfl⟩
  obtain ⟨-, a, ha, hv⟩ := verdicts_analyze he .strict
  refine ⟨t, a, he, ha, ?_⟩
  rw [hv]
  decide +kernel

end ScopeTree

end TargetScope
