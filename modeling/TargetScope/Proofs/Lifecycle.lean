import TargetScope.Proofs.Outcomes

/-!
# The life of a binding

Settling, resolving and analysing a tree write to its bindings.  Whatever the operations are, and in
whatever order they come:

* a binding stays where it is and keeps its name, its place in the source, its number and its
  origin; an owner that has been entered stays, and the role changes at most once, from a
  declaration for an enclosing function to one for the module (`Binding.Becomes`);
* a binding that is new is a plain one, created by a target (`ScopeTree.StemsFrom`);
* the owners that are entered are those that the roles allow (`ScopeTree.OwnersAllowed`), so that no
  transparent scope ever owns anything, and a target is owned by a block scope around it.

All of this holds after one settling and after one resolution if it holds before, and every
operation consists of these (`ScopeTree.performAll_induction`).
-/

namespace TargetScope

/-! ## What becomes of a binding -/

/-- The binding `b` can become the binding `c`. -/
structure Binding.Becomes (b c : Binding) : Prop where
  name_eq : c.name = b.name
  declaredAt_eq : c.declaredAt = b.declaredAt
  boundOrder_eq : c.boundOrder = b.boundOrder
  implicit_eq : c.implicit = b.implicit
  /-- An owner stays. -/
  owner_eq : ∀ w, b.owner = some w → c.owner = some w
  /-- The role stays, or a declaration for an enclosing function is promoted. -/
  role_cases : c.role = b.role ∧ c.promotedFrom = b.promotedFrom ∨
    b.role = .outerFunction ∧ c.role = .outerModule ∧ c.promotedFrom = some .outerFunction

namespace Binding.Becomes

variable {b c d : Binding}

lemma refl (b : Binding) : b.Becomes b where
  name_eq := rfl
  declaredAt_eq := rfl
  boundOrder_eq := rfl
  implicit_eq := rfl
  owner_eq := fun _ h => h
  role_cases := Or.inl ⟨rfl, rfl⟩

lemma trans (h : b.Becomes c) (h' : c.Becomes d) : b.Becomes d where
  name_eq := h'.name_eq.trans h.name_eq
  declaredAt_eq := h'.declaredAt_eq.trans h.declaredAt_eq
  boundOrder_eq := h'.boundOrder_eq.trans h.boundOrder_eq
  implicit_eq := h'.implicit_eq.trans h.implicit_eq
  owner_eq := fun w hw => h'.owner_eq w (h.owner_eq w hw)
  role_cases := by
    rcases h.role_cases with ⟨hr, hp⟩ | ⟨hb, hr, hp⟩
    · rcases h'.role_cases with ⟨hr', hp'⟩ | ⟨hc, hr', hp'⟩
      · exact Or.inl ⟨hr'.trans hr, hp'.trans hp⟩
      · exact Or.inr ⟨hr ▸ hc, hr', hp'⟩
    · -- a declaration for the module is not promoted again
      rcases h'.role_cases with ⟨hr', hp'⟩ | ⟨hc, -, -⟩
      · exact Or.inr ⟨hb, hr'.trans hr, hp'.trans hp⟩
      · rw [hr] at hc
        exact absurd hc (by decide)

/-- An owner is entered where there was none. -/
lemma setOwner (h : b.owner = none) (w : Nat) : b.Becomes { b with owner := some w } where
  name_eq := rfl
  declaredAt_eq := rfl
  boundOrder_eq := rfl
  implicit_eq := rfl
  owner_eq := by
    intro w' hw
    rw [h] at hw
    exact absurd hw (by simp)
  role_cases := Or.inl ⟨rfl, rfl⟩

end Binding.Becomes

namespace ScopeTree

variable {t t' u u' v : ScopeTree} {h : History} {i : Nat} {s : Scope} {b c : Binding}
  {name : String} {site : UseSite} {w : Nat}

/-- The tree `u` keeps what is in the tree `t`: the scopes, the use sites, and each binding, which
may have become another one. -/
structure Keeps (t u : ScopeTree) : Prop where
  bare_eq : u.bare = t.bare
  sites_eq : u.sites = t.sites
  binding : ∀ {i : Nat} {name : String} {b : Binding}, t.binding? i name = some b →
    ∃ c, u.binding? i name = some c ∧ b.Becomes c

namespace Keeps

lemma refl (t : ScopeTree) : t.Keeps t where
  bare_eq := rfl
  sites_eq := rfl
  binding := fun hb => ⟨_, hb, .refl _⟩

lemma trans (h : t.Keeps u) (h' : u.Keeps v) : t.Keeps v where
  bare_eq := h'.bare_eq.trans h.bare_eq
  sites_eq := h'.sites_eq.trans h.sites_eq
  binding := by
    intro i name b hb
    obtain ⟨c, hc, hbc⟩ := h.binding hb
    obtain ⟨d, hd, hcd⟩ := h'.binding hc
    exact ⟨d, hd, hbc.trans hcd⟩

/-- Notes keep what is there. -/
lemma of_extends (ht : t.Extends u) : t.Keeps u where
  bare_eq := ht.bare_eq
  sites_eq := ht.sites_eq
  binding := by
    intro i name b hb
    obtain ⟨s, hs, -⟩ := Option.bind_eq_some_iff.1 hb
    have hf := ht.filled hs name
    rw [hb] at hf
    generalize u.binding? i name = y at hf
    cases hf with
    | refl => exact ⟨b, rfl, .refl b⟩
    | owned _ ho => exact ⟨_, rfl, .setOwner ho _⟩

end Keeps

/-- Each binding of the tree `u` stems from one of the tree `t`, or it is a plain one that a target
has created. -/
def StemsFrom (u t : ScopeTree) : Prop :=
  ∀ ⦃i : Nat⦄ ⦃name : String⦄ ⦃c : Binding⦄, u.binding? i name = some c →
    (∃ b, t.binding? i name = some b ∧ b.Becomes c) ∨
      t.binding? i name = none ∧ c.role = .plain ∧ c.implicit = true ∧ c.promotedFrom = none

/-! ## Which owners are allowed -/

/-- The scope at the place `w` is allowed to own the binding `b` of the scope `s`. -/
def Allows (t : ScopeTree) (s : Scope) (b : Binding) (w : Nat) : Prop :=
  match b.role with
  | .outerModule => w = rootIndex
  | .outerFunction => w = rootIndex ∨ w ∈ (t.enclosingFunctions s).map Scope.index
  | _ => w = s.index ∧ s.kind.isBlock = true

/-- The owners in a tree are those that the roles of their bindings allow. -/
def OwnersAllowed (t : ScopeTree) : Prop :=
  ∀ ⦃i : Nat⦄ ⦃s : Scope⦄ ⦃name : String⦄ ⦃b : Binding⦄ ⦃w : Nat⦄, t.scope? i = some s →
    t.binding? i name = some b → b.owner = some w → t.Allows s b w

/-- The scope at the place `w` is allowed to own the target of a site: it is a block scope, the one
of the site or one around it, and the body of a class only if the site stands directly in it. -/
def AllowsTarget (t : ScopeTree) (site : UseSite) (w : Nat) : Prop :=
  ∃ s, t.scopeAt? site.scope = some s ∧ ∃ c ∈ t.chain s,
    c.index = w ∧ c.kind.isBlock = true ∧ (c.kind = .classBody → w = s.index)

lemma allows_of_not_isOuter (hb : b.isOuter = false) :
    t.Allows s b w ↔ w = s.index ∧ s.kind.isBlock = true := by
  rw [Allows]
  cases hr : b.role with
  | outerFunction | outerModule =>
    rw [Binding.isOuter, hr] at hb
    exact absurd hb (by decide)
  | _ => rfl

/-- What is allowed does not depend on the bindings of the tree. -/
lemma Allows.of_bare_eq {s' : Scope} (h : t.Allows s b w) (hbare : t'.bare = t.bare)
    (hs : s'.bare = s.bare) : t'.Allows s' b w := by
  have hk : s'.kind = s.kind := Scope.kind_eq_of_bare_eq hs
  have hi : s'.index = s.index := Scope.index_eq_of_bare_eq hs
  rw [Allows] at h ⊢
  rw [map_index_enclosingFunctions_eq hbare hs, hk, hi]
  exact h

/-- The ownership of an outer declaration is allowed. -/
lemma allows_settledBinding (hb : b.isOuter = true) (hw : (t.settledBinding s b).owner = some w) :
    t.Allows s (t.settledBinding s b) w := by
  have hset : t.settledBinding s b = { b with
      role := (t.ownership s b).role
      owner := some (t.ownership s b).owner
      promotedFrom := (t.ownership s b).promotedFrom } := if_pos hb
  rw [hset] at hw ⊢
  obtain rfl := Option.some.inj hw
  have hout := Ownership.isOuter_role_ofRole b.role (t.functionsAround s b.name)
  rw [Allows]
  simp only [ownership]
  cases hrole : (Ownership.ofRole b.role (t.functionsAround s b.name)).role with
  | outerModule => exact Ownership.owner_of_role_ofRole hrole
  | outerFunction =>
    rcases Ownership.owner_ofRole_cases b.role (t.functionsAround s b.name) with
      hroot | ⟨f, hf, hown⟩
    · exact Or.inl hroot
    · obtain ⟨g, hg, rfl⟩ := List.mem_map.1 hf
      exact Or.inr (hown ▸ List.mem_map_of_mem hg)
  | parameter | iteration | plain | targetOnly =>
    rw [hrole] at hout
    exact absurd hout (by decide)

/-! ## One operation -/

/-- What one resolution writes: nothing, or the owner of a binding that is no outer declaration, in
a block scope of the tree. -/
lemma note_cases (ht : t.Arena) {v : Verdict} (hv : t.verdict? site = some v) :
    t.note site (site.path t) v = t ∨
      ∃ s, t.scope? s.index = some s ∧ s.kind.isBlock = true ∧
        (∀ b, t.binding? s.index site.name = some b → b.owner = none ∧ b.isOuter = false) ∧
        t.note site (site.path t) v =
          t.put s.index (site.noteAt s.frame (t.binding? s.index site.name)) := by
  cases v with
  | failed f => exact Or.inl rfl
  | bound owner =>
    obtain ⟨block, hblock, hat⟩ := verdictAt_of_verdict? hv
    obtain ⟨s, hs, rfl⟩ := Extends.mem_path ht (List.mem_of_find?_eq_some hblock)
    rw [note, hblock]
    simp only
    split
    · exact Or.inl rfl
    · next hown =>
      refine Or.inr ⟨s, hs, by simpa using List.find?_some hblock, ?_, rfl⟩
      intro b hb
      have ho : b.owner = none := by
        rw [Scope.index_frame, hb] at hown
        simpa [isOwned] using hown
      rw [Scope.index_frame, hb] at hat
      exact ⟨ho, UseSite.isOuter_of_verdictAt hat ho⟩

/-- What a resolution writes stems from what was there, or it is new. -/
lemma StemsFrom.note (hu : u.StemsFrom t) (hkeeps : t.Keeps u) (ha : u.Arena) {v : Verdict}
    (hv : u.verdict? site = some v) : (u.note site (site.path u) v).StemsFrom t := by
  rcases note_cases ha hv with heq | ⟨s, hs, -, hopen, heq⟩
  · rw [heq]
    exact hu
  · intro i name c hc
    rw [heq, binding?_put _ _ _ _ (lt_size_of_scope? hs), name_noteAt rfl] at hc
    split at hc
    · next hin =>
      obtain ⟨rfl, rfl⟩ := hin
      obtain rfl := Option.some.inj hc
      cases hb : u.binding? s.index site.name with
      | none =>
        refine Or.inr ⟨?_, rfl, rfl, rfl⟩
        rw [Option.eq_none_iff_forall_ne_some]
        intro b hbt
        obtain ⟨c, hc, -⟩ := hkeeps.binding hbt
        rw [hb] at hc
        exact absurd hc (by simp)
      | some b =>
        have hnote : b.Becomes (site.noteAt s.frame (some b)) := .setOwner (hopen b hb).1 _
        rcases hu hb with ⟨b₀, hb₀, hbec⟩ | ⟨hnone, hnew⟩
        · exact Or.inl ⟨b₀, hb₀, hbec.trans hnote⟩
        · exact Or.inr ⟨hnone, hnew⟩
    · exact hu hc

/-- The owner that a resolution enters is allowed: it is the block scope of the binding. -/
lemma OwnersAllowed.note (hu : u.OwnersAllowed) (ha : u.Arena) {v : Verdict}
    (hv : u.verdict? site = some v) : (u.note site (site.path u) v).OwnersAllowed := by
  rcases note_cases ha hv with heq | ⟨s, hs, hk, hopen, heq⟩
  · rw [heq]
    exact hu
  · intro i s' name b w hs' hb hw
    rw [heq] at hs' hb ⊢
    have hbare := bare_put u s.index (site.noteAt s.frame (u.binding? s.index site.name))
    obtain ⟨s₀, hs₀, hsb⟩ := exists_scope?_of_bare_eq hbare.symm hs'
    refine Allows.of_bare_eq (t := u) (s := s₀) ?_ hbare hsb.symm
    rw [binding?_put _ _ _ _ (lt_size_of_scope? hs)] at hb
    split at hb
    · next hin =>
      obtain ⟨rfl, -⟩ := hin
      obtain rfl : s = s₀ := Option.some.inj (hs.symm.trans hs₀)
      obtain rfl := Option.some.inj hb
      cases hbu : u.binding? s.index site.name with
      | none =>
        rw [hbu] at hw
        obtain rfl := Option.some.inj hw
        exact ⟨rfl, hk⟩
      | some b₀ =>
        rw [hbu] at hw
        obtain rfl := Option.some.inj hw
        exact (allows_of_not_isOuter (hopen b₀ hbu).2).2 ⟨rfl, hk⟩
    · exact hu hs₀ hb hw

/-- A declaration that is settled gets its owner, and it is promoted or keeps its role. -/
lemma Unsettled.becomes_settledBinding (hu : t.Unsettled) (hs : t.scope? i = some s)
    (hb : b ∈ s.bindings) : b.Becomes (t.settledBinding s b) := by
  rw [settledBinding]
  split
  · next ho =>
    obtain ⟨hown, hpf⟩ := hu.declared hs hb ho
    refine ⟨rfl, rfl, rfl, rfl, ?_, ?_⟩
    · intro w hw
      rw [hown] at hw
      exact absurd hw (by simp)
    · simp only [ownership, Ownership.ofRole]
      split
      · next hr =>
        rw [hr, hpf]
        exact Or.inl ⟨rfl, rfl⟩
      · next hr =>
        have hr' : b.role = .outerFunction := by
          simpa [Binding.isOuter, BindingRole.isOuter, hr] using ho
        rcases Ownership.lexical_cases (t.functionsAround s b.name) with
          ⟨hrole, hfrom⟩ | ⟨hrole, hfrom⟩
        · exact Or.inr ⟨hr', hrole, hfrom⟩
        · exact Or.inl ⟨hrole.trans hr'.symm, hfrom.trans hpf.symm⟩
  · exact .refl b

/-- The bindings of the settled tree, one by one. -/
lemma Unsettled.exists_of_binding?_settledTree (hu : t.Unsettled)
    (hc : t.settledTree.binding? i name = some c) :
    ∃ s b, t.scope? i = some s ∧ t.binding? i name = some b ∧ t.settledBinding s b = c ∧
      b.Becomes c := by
  obtain ⟨s', hs', -⟩ := Option.bind_eq_some_iff.1 hc
  obtain ⟨s, hs, -⟩ := exists_scope?_of_bare_eq (bare_settledTree t).symm hs'
  rw [binding?_settledTree hs] at hc
  obtain ⟨b, hb, rfl⟩ := Option.map_eq_some_iff.1 hc
  exact ⟨s, b, hs, (binding?_of_scope? hs name).trans hb, rfl,
    hu.becomes_settledBinding hs (List.mem_of_find?_eq_some hb)⟩

lemma Unsettled.keeps_settledTree (hu : t.Unsettled) : t.Keeps t.settledTree where
  bare_eq := bare_settledTree t
  sites_eq := rfl
  binding := by
    intro i name b hb
    obtain ⟨s, hs, hbs⟩ := Option.bind_eq_some_iff.1 hb
    refine ⟨t.settledBinding s b, ?_, hu.becomes_settledBinding hs (List.mem_of_find?_eq_some hbs)⟩
    rw [binding?_settledTree hs, hbs, Option.map_some]

lemma StemsFrom.settledTree (hstem : u.StemsFrom t) (hu : u.Unsettled) :
    u.settledTree.StemsFrom t := by
  intro i name c hc
  obtain ⟨s, b, hs, hb, rfl, hbec⟩ := hu.exists_of_binding?_settledTree hc
  rcases hstem hb with ⟨b₀, hb₀, hbec₀⟩ | ⟨hnone, hrole, himp, hfrom⟩
  · exact Or.inl ⟨b₀, hb₀, hbec₀.trans hbec⟩
  · -- what a target has created is not declared outer
    have ho : b.isOuter = false := by
      rw [Binding.isOuter, hrole]
      rfl
    rw [settledBinding_of_not_isOuter ho]
    exact Or.inr ⟨hnone, hrole, himp, hfrom⟩

lemma OwnersAllowed.settledTree (ho : u.OwnersAllowed) (hu : u.Unsettled) :
    u.settledTree.OwnersAllowed := by
  intro i s' name c w hs' hc hw
  obtain ⟨s, b, hs, hb, rfl, -⟩ := hu.exists_of_binding?_settledTree hc
  obtain ⟨s₀, hs₀, hsb⟩ := exists_scope?_of_bare_eq (bare_settledTree u) hs
  obtain rfl := Option.some.inj (hs₀.symm.trans hs')
  refine Allows.of_bare_eq ?_ (bare_settledTree u) hsb
  cases hout : b.isOuter with
  | true => exact allows_settledBinding hout hw
  | false =>
    rw [settledBinding_of_not_isOuter hout] at hw ⊢
    exact ho hs hb hw

/-! ## All operations -/

/-- What holds after one settling and after one resolution, if it holds before, holds after every
operation. -/
lemma performAll_induction {P : ScopeTree → Prop}
    (hsettle : ∀ u, P u → P u.settleOuterDeclarations.tree)
    (hresolve : ∀ u site v u', P u → u.resolveSite site = .ok (v, u') → P u')
    (hu : P u) (operations : List Operation) : P (u.performAll operations) := by
  have hsites : ∀ (sites : List UseSite) u, P u → P (u.resolveSites sites).tree := by
    intro sites
    induction sites with
    | nil => exact fun u hu => hu
    | cons site rest ih =>
      intro u hu
      rw [resolveSites]
      split
      · exact hu
      · next v u' hr =>
        have hu' := hresolve u site v u' hu hr
        split
        · exact ih u' hu'
        · split
          · exact ih u' hu'
          · exact hu'
  induction operations generalizing u with
  | nil => exact hu
  | cons operation rest ih =>
    refine ih ?_
    cases operation with
    | resolve site =>
      rw [perform]
      split
      · next v u' hr => exact hresolve u site v u' hu hr
      · exact hu
    | settle => exact hsettle u hu
    | analyze mode =>
      -- the tree of an analysis is the one behind the last stage that was begun
      rw [perform, analyze]
      simp only
      split
      · exact hsettle u hu
      · split
        · exact hsites _ _ (hsettle u hu)
        · split
          · exact hsites _ _ (hsettle u hu)
          · exact hsites _ _ (hsettle u hu)

/-- Operations have led from the tree `t` to the tree `u`, and what is said of the life of a binding
holds. -/
structure Develops (t u : ScopeTree) : Prop where
  reached : t.Reached u
  keeps : t.Keeps u
  stems : u.StemsFrom t
  owners : u.OwnersAllowed

namespace Develops

lemma resolve (hd : t.Develops u) (ht : t.Unsettled) {v : Verdict}
    (hr : u.resolveSite site = .ok (v, u')) : t.Develops u' ∧ u.Keeps u' := by
  have hu : u.Arena := ht.arena.of_bare_eq hd.reached.bare_eq
  have hreached := hd.reached.resolveSite ht site
  rw [perform, hr] at hreached
  obtain ⟨hv, rfl⟩ := (resolveSite_eq_ok hu).1 hr
  have hkeeps := Keeps.of_extends (extends_note hu hv)
  exact ⟨⟨hreached, hd.keeps.trans hkeeps, hd.stems.note hd.keeps hu hv, hd.owners.note hu hv⟩,
    hkeeps⟩

lemma settle (hd : t.Develops u) (hc : t.Classified h) :
    t.Develops u.settleOuterDeclarations.tree ∧ u.Keeps u.settleOuterDeclarations.tree := by
  have hreached := hd.reached.perform hc .settle
  rw [perform] at hreached
  rcases hd.reached.settleOuterDeclarations_cases hc.unsettled with ⟨hu, -, heq⟩ | ⟨-, heq⟩
  · rw [heq] at hreached ⊢
    have hkeeps := hu.keeps_settledTree
    exact ⟨⟨hreached, hd.keeps.trans hkeeps, hd.stems.settledTree hu, hd.owners.settledTree hu⟩,
      hkeeps⟩
  · rw [heq]
    exact ⟨hd, .refl u⟩

/-- Operations keep what is there. -/
lemma performAll (hd : t.Develops u) (hc : t.Classified h) (operations : List Operation) :
    t.Develops (u.performAll operations) ∧ u.Keeps (u.performAll operations) := by
  -- the invariant speaks of both trees: the one of the stream and the one before the operations
  have hboth : t.Develops u ∧ u.Keeps u := ⟨hd, .refl u⟩
  refine performAll_induction (P := fun v => t.Develops v ∧ u.Keeps v) ?_ ?_ hboth operations
  · rintro v ⟨hv, hkeeps⟩
    obtain ⟨hv', hkeeps'⟩ := hv.settle hc
    exact ⟨hv', hkeeps.trans hkeeps'⟩
  · rintro v site w v' ⟨hv, hkeeps⟩ hr
    obtain ⟨hv', hkeeps'⟩ := hv.resolve hc.unsettled hr
    exact ⟨hv', hkeeps.trans hkeeps'⟩

end Develops

/-- A classified tree has no owners yet. -/
lemma Classified.develops (hc : t.Classified h) : t.Develops t where
  reached := hc.reached
  keeps := .refl t
  stems := fun _ _ _ hb => Or.inl ⟨_, hb, .refl _⟩
  owners := by
    intro i s name b w hs hb hw
    rw [hc.binding?_eq] at hb
    obtain ⟨o, -, rfl⟩ := Option.map_eq_some_iff.1 hb
    exact absurd hw (by simp [Occurrence.binding])

/-! ## The owners of targets -/

/-- A failure without a fallback leaves the target without an owner. -/
lemma owner?_failed_of_fallback {f : Failure} {mode : Mode} (h : f.fallback = none) :
    Verdict.owner? mode (.failed f) = none := by
  rw [Verdict.owner?, h, ite_self]

lemma owner_cases_of_verdictAt {block : Frame} {x : Option Binding} {v : Verdict} {mode : Mode}
    (hv : site.verdictAt block x = some v) (hw : v.owner? mode = some w) :
    w = block.index ∨ ∃ b, x = some b ∧ b.owner = some w := by
  -- a missing binding has the block as its fallback
  have hmissing : Verdict.owner? mode (.failed
      { kind := .targetName, reason := .missingBinding, site, scope := block.index,
        fallback := some block.index }) = some w → w = block.index := by
    intro h
    rw [Verdict.owner?] at h
    split at h
    · exact (Option.some.inj h).symm
    · exact absurd h (by simp)
  cases x with
  | none =>
    rw [UseSite.verdictAt] at hv
    split at hv <;> obtain rfl := Option.some.inj hv
    · exact Or.inl (hmissing hw)
    · exact Or.inl (Option.some.inj hw).symm
  | some b =>
    rw [UseSite.verdictAt] at hv
    split at hv
    · obtain rfl := Option.some.inj hv
      rw [owner?_failed_of_fallback rfl] at hw
      exact absurd hw (by simp)
    · split at hv
      · obtain rfl := Option.some.inj hv
        exact Or.inl (hmissing hw)
      · split at hv
        · next owner ho =>
          obtain rfl := Option.some.inj hv
          exact Or.inr ⟨b, rfl, ho.trans hw⟩
        · split at hv
          · simp at hv
          · obtain rfl := Option.some.inj hv
            exact Or.inl (Option.some.inj hw).symm

/-- A target that has an owner is owned by the block scope at the end of its way, or as its binding
there is. -/
lemma exists_block_of_owner? {v : Verdict} {mode : Mode} (hv : t.verdict? site = some v)
    (hw : v.owner? mode = some w) :
    ∃ s block, t.scopeAt? site.scope = some s ∧ block ∈ t.chain s ∧ block.kind.isBlock = true ∧
      (block.kind = .classBody → block.frame = s.frame) ∧
      (w = block.index ∨
        ∃ b, t.binding? block.index site.name = some b ∧ b.owner = some w) := by
  obtain ⟨s, hs⟩ : ∃ s, t.scopeAt? site.scope = some s := by
    rw [← Option.isSome_iff_exists, Option.isSome_iff_ne_none]
    intro hnone
    rw [verdict?, path_of_scopeAt?_eq_none hnone] at hv
    exact absurd hv (by simp [UseSite.verdict?, UseSite.blockerOn?])
  have hhead : ((t.chain s).map Scope.frame).head? = some s.frame := by
    rw [t.chain_eq_cons s, List.map_cons, List.head?_cons]
  rw [verdict?, (path_of_scopeAt? hs).2, UseSite.verdict?, hhead] at hv
  split at hv
  · -- a scope on the way forbids the target
    obtain rfl := Option.some.inj hv
    rw [owner?_failed_of_fallback rfl] at hw
    exact absurd hw (by simp)
  · split at hv
    · simp at hv
    · next block hblock =>
      obtain ⟨c, hc, rfl⟩ := List.mem_map.1 (List.mem_of_find?_eq_some hblock)
      split at hv
      · obtain rfl := Option.some.inj hv
        rw [owner?_failed_of_fallback rfl] at hw
        exact absurd hw (by simp)
      · next hclass =>
        refine ⟨s, c, hs, hc, by simpa using List.find?_some hblock, ?_, ?_⟩
        · intro hk
          by_contra hne
          exact hclass ⟨hk, fun h => hne (Option.some.inj h).symm⟩
        · exact owner_cases_of_verdictAt hv hw

/-- An owner that is allowed for a target. -/
lemma allowsTarget_of_verdict? (ht : t.Arena) (hroot : t.Rooted) (hown : t.OwnersAllowed)
    {v : Verdict} {mode : Mode} (hv : t.verdict? site = some v) (hw : v.owner? mode = some w) :
    t.AllowsTarget site w := by
  obtain ⟨s, block, hs, hc, hk, hclass, hcases⟩ := exists_block_of_owner? hv hw
  have hi := (path_of_scopeAt? hs).1
  have hself : w = block.index → t.AllowsTarget site w := by
    rintro rfl
    exact ⟨s, hs, block, hc, rfl, hk, fun hkc => congrArg Frame.index (hclass hkc)⟩
  have hmodule : w = rootIndex → t.AllowsTarget site w := by
    rintro rfl
    have hmem := hroot.root_mem_frames ht (lt_size_of_scope? hi)
    rw [frames_of_scope? hi] at hmem
    obtain ⟨c, hc, hf⟩ := List.mem_map.1 hmem
    have hkc : c.kind = .moduleBody := congrArg Frame.kind hf
    exact ⟨s, hs, c, hc, congrArg Frame.index hf, by rw [hkc]; rfl,
      fun h => absurd (hkc.symm.trans h) (by decide)⟩
  rcases hcases with hw | ⟨b, hb, hbw⟩
  · exact hself hw
  · have hallows := hown (ht.scope?_of_mem_chain hi hc).1 hb hbw
    cases hr : b.role with
    | outerModule =>
      rw [Allows, hr] at hallows
      exact hmodule hallows
    | outerFunction =>
      rw [Allows, hr] at hallows
      rcases hallows with hw | hw
      · exact hmodule hw
      · -- a function around the block is around the site too
        obtain ⟨f, hf, rfl⟩ := List.mem_map.1 hw
        obtain ⟨hfa, hfk⟩ := List.mem_filter.1 hf
        have hfk : f.kind = .functionBody := by simpa using hfk
        have hfc : f ∈ t.chain block := by
          rw [t.chain_eq_cons block]
          exact List.mem_cons_of_mem _ hfa
        exact ⟨s, hs, f, ht.mem_chain_trans hi hc hfc, rfl, by rw [hfk]; rfl,
          fun h => absurd (hfk.symm.trans h) (by decide)⟩
    | parameter | iteration | plain | targetOnly =>
      have hb : b.isOuter = false := by
        rw [Binding.isOuter, hr]
        rfl
      exact hself ((allows_of_not_isOuter hb).1 hallows).1

/-- Which owners are allowed for a target does not depend on bindings. -/
lemma AllowsTarget.of_bare_eq (h : t.AllowsTarget site w) (hbare : t'.bare = t.bare) :
    t'.AllowsTarget site w := by
  obtain ⟨s, hs, c, hc, hcw, hck, hclass⟩ := h
  obtain ⟨hi, -⟩ := path_of_scopeAt? hs
  obtain ⟨s', hs', hsb⟩ := exists_scope?_of_bare_eq hbare hi
  have hmem : c.bare ∈ (t'.chain s').map Scope.bare := by
    rw [map_bare_chain_eq hbare hsb]
    exact List.mem_map_of_mem hc
  obtain ⟨c', hc', hcb⟩ := List.mem_map.1 hmem
  have hat : t'.scopeAt? site.scope = some s' := by
    rw [scopeAt?] at hs ⊢
    split at hs
    · next hpos => rw [if_pos hpos, hs']
    · exact absurd hs (by simp)
  have hk : c'.kind = c.kind := Scope.kind_eq_of_bare_eq hcb
  refine ⟨s', hat, c', hc', (Scope.index_eq_of_bare_eq hcb).trans hcw, ?_, ?_⟩
  · rw [hk, hck]
  · rw [hk, Scope.index_eq_of_bare_eq hsb]
    exact hclass

/-! ## The life of a binding -/

/-- What holds of a tree `u` to which operations have led from the tree `t`. -/
structure Regular (t u : ScopeTree) : Prop where
  /-- A binding is marked as promoted if and only if its role was another one at the beginning. -/
  promotedFrom_iff : ∀ {i : Nat} {name : String} {c : Binding}, u.binding? i name = some c →
    (c.promotedFrom.isSome = true ↔ ∃ b, t.binding? i name = some b ∧ b.role ≠ c.role)
  /-- Every owner is one that the role of the binding allows. -/
  owners : u.OwnersAllowed
  /-- Every owner is a block scope. -/
  isBlock : ∀ {i : Nat} {name : String} {b : Binding} {w : Nat}, u.binding? i name = some b →
    b.owner = some w → ∃ c, u.scope? w = some c ∧ c.kind.isBlock = true
  /-- A target that is resolved is bound to a scope that is allowed for it. -/
  resolved : ∀ {site : UseSite} {w : Nat} {u' : ScopeTree},
    u.resolveSite site = .ok (.bound w, u') → u.AllowsTarget site w
  /-- So are the targets of an analysis, in every mode. -/
  analyzed : ∀ mode : Mode, ∃ a, (u.analyze mode).2 = .ok a ∧
    ∀ site ∈ u.sites, ∀ w, a.owners.lookup site.index = some w → u.AllowsTarget site w

namespace Develops

/-- The mark of a promotion. -/
lemma promotedFrom_iff (hd : t.Develops u) (hc : t.Classified h)
    (hb : u.binding? i name = some c) :
    c.promotedFrom.isSome = true ↔ ∃ b, t.binding? i name = some b ∧ b.role ≠ c.role := by
  rcases hd.stems hb with ⟨b, hbt, hbec⟩ | ⟨hnone, -, -, hfrom⟩
  · -- no binding of a classified tree has the mark
    have hno : b.promotedFrom = none := by
      rw [hc.binding?_eq] at hbt
      obtain ⟨o, -, rfl⟩ := Option.map_eq_some_iff.1 hbt
      rfl
    rw [hbt]
    rcases hbec.role_cases with ⟨hrole, hfrom⟩ | ⟨hrole, hrole', hfrom⟩
    · rw [hfrom, hno]
      constructor
      · simp
      · rintro ⟨b', hb', hne⟩
        obtain rfl := Option.some.inj hb'
        exact absurd hrole.symm hne
    · rw [hfrom]
      constructor
      · intro _
        refine ⟨b, rfl, ?_⟩
        rw [hrole, hrole']
        decide
      · exact fun _ => rfl
  · rw [hfrom, hnone]
    constructor
    · simp
    · rintro ⟨b, hb, -⟩
      exact absurd hb (by simp)

/-- An owner is a block scope. -/
lemma exists_isBlock (hd : t.Develops u) (hc : t.Classified h) (hb : u.binding? i name = some b)
    (hw : b.owner = some w) : ∃ c, u.scope? w = some c ∧ c.kind.isBlock = true := by
  have hbare := hd.reached.bare_eq
  have hu : u.Arena := hc.arena.of_bare_eq hbare
  have hroot : ∃ c, u.scope? rootIndex = some c ∧ c.kind.isBlock = true := by
    obtain ⟨c, hcr⟩ := exists_scope?_of_lt (t := u) (i := rootIndex) (by
      rw [size_eq_of_bare_eq hbare]
      exact hc.size_pos)
    exact ⟨c, hcr, by rw [((hc.rooted.of_bare_eq hbare).kind_root hcr).1]; rfl⟩
  obtain ⟨s, hs, -⟩ := Option.bind_eq_some_iff.1 hb
  have hallows := hd.owners hs hb hw
  rw [Allows] at hallows
  split at hallows
  · exact hallows ▸ hroot
  · rcases hallows with rfl | hmem
    · exact hroot
    · obtain ⟨f, hf, rfl⟩ := List.mem_map.1 hmem
      obtain ⟨hfa, hfk⟩ := List.mem_filter.1 hf
      have hfc : f ∈ u.chain s := by
        rw [u.chain_eq_cons s]
        exact List.mem_cons_of_mem _ hfa
      have hfk : f.kind = .functionBody := by simpa using hfk
      exact ⟨f, (hu.scope?_of_mem_chain hs hfc).1, by rw [hfk]; rfl⟩
  · obtain ⟨rfl, hk⟩ := hallows
    rw [hu.index_eq hs]
    exact ⟨s, hs, hk⟩

/-- The owners that an analysis reports. -/
lemma allowsTarget_of_mem_sites (hd : t.Develops u) (hc : t.Classified h) {mode : Mode}
    (hsite : site ∈ u.sites)
    (hw : (h.verdicts.lookup site.index).bind (Verdict.owner? mode) = some w) :
    u.AllowsTarget site w := by
  rw [hd.keeps.sites_eq, hc.sites_eq] at hsite
  obtain ⟨x, hx, hxs⟩ := History.mem_sites_iff.1 hsite
  rw [History.lookup_verdicts, hx, Option.map_some, Option.bind_some, hxs] at hw
  -- the verdict is that of the settled tree, whose owners are allowed
  have hv : t.settledTree.verdict? (x.1.site x.2 site.index) = some _ :=
    hc.verdict?_settledTree (History.mem_of_mem_targets (List.mem_of_getElem? hx))
  rw [hxs] at hv
  have hset := (hc.develops.settle hc).1.owners
  rw [hc.settleOuterDeclarations_eq] at hset
  have hbare := bare_settledTree t
  refine (allowsTarget_of_verdict? (hc.arena.of_bare_eq hbare) (hc.rooted.of_bare_eq hbare) hset hv
    hw).of_bare_eq ?_
  rw [hbare, hd.reached.bare_eq]

lemma regular (hd : t.Develops u) (hc : t.Classified h) : t.Regular u where
  promotedFrom_iff := hd.promotedFrom_iff hc
  owners := hd.owners
  isBlock := hd.exists_isBlock hc
  resolved := by
    intro site w u' hr
    have hbare := hd.reached.bare_eq
    have hu : u.Arena := hc.arena.of_bare_eq hbare
    obtain ⟨hv, -⟩ := (resolveSite_eq_ok hu).1 hr
    have howner : Verdict.owner? .strict (.bound w) = some w := rfl
    exact allowsTarget_of_verdict? hu (hc.rooted.of_bare_eq hbare) hd.owners hv howner
  analyzed := by
    intro mode
    obtain ⟨a, ha, -, howners, -⟩ := hd.reached.analyze_lookup hc mode
    refine ⟨a, ha, ?_⟩
    intro site hsite w hw
    rw [howners] at hw
    exact hd.allowsTarget_of_mem_sites hc hsite hw

end Develops

/-- The life of the bindings of a stream of events, through any operations on its tree, stopped ones
included.  From any point on, nothing is removed or renamed, an owner that has been entered stays,
and the role changes at most by a promotion; and at any point, the marks and the owners are as
they should be. -/
theorem keeps_performAll {unitName filename : Option String} {events : List Event}
    (he : ofEvents unitName filename events = .ok t) (before after : List Operation) :
    (t.performAll before).Keeps (t.performAll (before ++ after)) ∧
      t.Regular (t.performAll before) := by
  have hc := classified_ofEvents he
  obtain ⟨hd, -⟩ := hc.develops.performAll hc before
  refine ⟨?_, hd.regular hc⟩
  rw [performAll, performAll, List.foldl_append]
  exact (hd.performAll hc after).2

/-- Once it has been settled, the declaration of `x` in the function `g` belongs to the module for
good. -/
theorem keeps_performAll_nestedDeclarations :
    ∃ t c, ofEvents none none nestedDeclarations = .ok t ∧
      (t.performAll [.settle]).binding? 2 "x" = some c ∧ c.promotedFrom.isSome = true ∧
      ∀ after, ∃ d, (t.performAll ([.settle] ++ after)).binding? 2 "x" = some d ∧
        d.role = .outerModule ∧ d.owner = some 0 := by
  let b : Binding := { name := "x", role := .outerFunction, boundOrder := some 5 }
  let c : Binding :=
    { b with role := .outerModule, owner := some 0, promotedFrom := some .outerFunction }
  obtain ⟨t, he, hb, hc⟩ : ∃ t, ofEvents none none nestedDeclarations = .ok t ∧
      t.binding? 2 "x" = some b ∧ (t.performAll [.settle]).binding? 2 "x" = some c :=
    ⟨_, rfl, by decide +kernel, by decide +kernel⟩
  refine ⟨t, c, he, hc, ?_, ?_⟩
  · have hregular := (keeps_performAll he [.settle] []).2
    exact (hregular.promotedFrom_iff hc).2 ⟨b, hb, by decide⟩
  · intro after
    obtain ⟨d, hd, hbec⟩ := (keeps_performAll he [.settle] after).1.binding hc
    refine ⟨d, hd, ?_, hbec.owner_eq 0 rfl⟩
    rcases hbec.role_cases with ⟨hrole, -⟩ | ⟨-, hrole, -⟩
    · exact hrole
    · exact hrole

end ScopeTree

end TargetScope
