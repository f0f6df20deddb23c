import TargetScope.Proofs.Resolving

/-!
# Trees with more notes

A note enters an owner where none was entered, or, outside functions, it creates a plain binding
with its owner (`Filled`).  No verdict depends on whether a note is there: where it is missing,
the target is bound to the block scope that the note would name.  So a site has the same verdict
in every tree that is equal to a given one but for notes (`ScopeTree.Extends.verdict?_eq`).

A resolution whose note is there writes nothing (`ScopeTree.Extends.note_eq`).  By induction on
the sites, a sequence of resolutions gives to each site the verdict that it has in the tree at the
beginning, and the same sequence once more, in the tree at the end or in any extension of it,
changes nothing (`ScopeTree.resolveSites_eq`).
-/

namespace TargetScope

/-! ## Notes in one binding -/

/-- What notes can make of the binding of a name in a scope. -/
inductive Filled (scope : Frame) : Option Binding → Option Binding → Prop
  /-- Nothing is noted. -/
  | refl (b : Option Binding) : Filled scope b b
  /-- The scope itself is noted as the owner. -/
  | owned {b : Binding} (hb : b.isOuter = false) (ho : b.owner = none) :
    Filled scope (some b) (some { b with owner := some scope.index })
  /-- A binding is created. -/
  | created {b : Binding} (hk : scope.kind ≠ .functionBody) (hr : b.role = .plain)
    (ho : b.owner = some scope.index) : Filled scope none (some b)

/-- An outer declaration without an owner has no verdict, or one that binds nothing. -/
lemma UseSite.isOuter_of_verdictAt {site : UseSite} {scope : Frame} {b : Binding} {owner : Nat}
    (hv : site.verdictAt scope (some b) = some (.bound owner)) (ho : b.owner = none) :
    b.isOuter = false := by
  rw [Bool.eq_false_iff]
  intro hb
  simp only [UseSite.verdictAt, ho, hb, if_true] at hv
  split at hv
  · simp at hv
  · split at hv <;> simp at hv

namespace Filled

variable {scope : Frame} {x y z : Option Binding} {site : UseSite}

lemma trans (hxy : Filled scope x y) (hyz : Filled scope y z) : Filled scope x z := by
  cases hxy with
  | refl => exact hyz
  | owned hb ho =>
    cases hyz with
    | refl => exact owned hb ho
    | owned _ ho' => exact absurd ho' (by simp)
  | created hk hr ho =>
    cases hyz with
    | refl => exact created hk hr ho
    | owned _ ho' =>
      rw [ho] at ho'
      exact absurd ho' (by simp)

/-- No parameter or iteration variable appears or disappears. -/
lemma filter_isBlocking (h : Filled scope x y) :
    (y.map Binding.role).filter BindingRole.isBlocking =
      (x.map Binding.role).filter BindingRole.isBlocking := by
  cases h with
  | refl => rfl
  | owned => rfl
  | created _ hr _ =>
    simp only [Option.map_some, hr]
    rfl

/-- The verdict does not depend on notes. -/
lemma verdictAt_eq (h : Filled scope x y) : site.verdictAt scope y = site.verdictAt scope x := by
  cases h with
  | refl => rfl
  | owned hb ho =>
    next b =>
    have hsame : ∀ c : Binding, c = { b with owner := some scope.index } →
        c.isBlocking = b.isBlocking ∧ c.reaches site = b.reaches site := by
      rintro c rfl
      exact ⟨rfl, rfl⟩
    obtain ⟨hbl, hreach⟩ := hsame _ rfl
    simp only [UseSite.verdictAt, hbl, hreach, ho, hb, Bool.false_eq_true, if_false]
  | created hk hr ho =>
    next b =>
    have hbl : b.isBlocking = false := by
      rw [Binding.isBlocking, hr]
      decide
    simp only [UseSite.verdictAt, hbl, hk, ho, Bool.false_eq_true, false_and, if_false]

lemma isOwned (h : Filled scope x y) (hx : ScopeTree.isOwned x = true) :
    ScopeTree.isOwned y = true := by
  cases h with
  | refl => exact hx
  | owned => rfl
  | created _ _ ho => simp [ScopeTree.isOwned, ho]

/-- A note fills in what is open. -/
lemma noteAt {owner : Nat} (hv : site.verdictAt scope x = some (.bound owner))
    (hx : ScopeTree.isOwned x = false) : Filled scope x (some (site.noteAt scope x)) := by
  cases x with
  | none =>
    refine created ?_ rfl rfl
    intro hk
    simp [UseSite.verdictAt, hk] at hv
  | some b =>
    have ho : b.owner = none := by simpa [ScopeTree.isOwned] using hx
    exact owned (UseSite.isOuter_of_verdictAt hv ho) ho

end Filled

namespace ScopeTree

variable {t t' t'' : ScopeTree} {site : UseSite} {i : Nat} {s : Scope} {v : Verdict} {b : Binding}

/-! ## Notes in a tree -/

/-- The second tree is the first with more notes. -/
structure Extends (t t' : ScopeTree) : Prop where
  bare_eq : t'.bare = t.bare
  sites_eq : t'.sites = t.sites
  filled : ∀ {i : Nat} {s : Scope}, t.scope? i = some s → ∀ name : String,
    Filled s.frame (t.binding? i name) (t'.binding? i name)

namespace Extends

lemma refl (t : ScopeTree) : t.Extends t where
  bare_eq := rfl
  sites_eq := rfl
  filled := fun _ _ => .refl _

lemma trans (h : t.Extends t') (h' : t'.Extends t'') : t.Extends t'' where
  bare_eq := h'.bare_eq.trans h.bare_eq
  sites_eq := h'.sites_eq.trans h.sites_eq
  filled := by
    intro i s hs name
    obtain ⟨s', hs', hb⟩ := exists_scope?_of_bare_eq h.bare_eq hs
    have hf := h'.filled hs' name
    rw [← s'.frame_bare, hb, s.frame_bare] at hf
    exact (h.filled hs name).trans hf

lemma put (hs : t.scope? i = some s) (hf : Filled s.frame (t.binding? i b.name) (some b)) :
    t.Extends (t.put i b) where
  bare_eq := bare_put t i b
  sites_eq := sites_put t i b
  filled := by
    intro j s' hs' name
    rw [binding?_put _ _ _ _ (lt_size_of_scope? hs)]
    split
    · next hij =>
      obtain ⟨rfl, rfl⟩ := hij
      obtain rfl : s = s' := Option.some.inj (hs.symm.trans hs')
      exact hf
    · exact .refl _

lemma path_eq (h : t.Extends t') (site : UseSite) : site.path t' = site.path t := by
  rw [UseSite.path, UseSite.path, frames_eq_of_bare_eq h.bare_eq]

lemma mem_path (ht : t.Arena) {f : Frame} (hf : f ∈ site.path t) :
    ∃ s, t.scope? f.index = some s ∧ s.frame = f := by
  rw [UseSite.path] at hf
  split at hf
  · exact ht.exists_scope?_of_mem_frames hf
  · exact absurd hf List.not_mem_nil

/-- The binding on the way of a site outward, in the tree with more notes. -/
lemma filled_of_mem_path (h : t.Extends t') (ht : t.Arena) {f : Frame} (hf : f ∈ site.path t)
    (name : String) : Filled f (t.binding? f.index name) (t'.binding? f.index name) := by
  obtain ⟨s, hs, rfl⟩ := mem_path ht hf
  exact h.filled hs name

/-- A site has the same verdict in every tree with more notes. -/
lemma verdict?_eq (h : t.Extends t') (ht : t.Arena) (site : UseSite) :
    t'.verdict? site = t.verdict? site := by
  have hpath : UseSite.blockerOn? ((site.path t).takeWhile fun f => f.kind.isTransparent)
        (fun j => t'.binding? j site.name) =
      UseSite.blockerOn? ((site.path t).takeWhile fun f => f.kind.isTransparent)
        (fun j => t.binding? j site.name) := by
    apply findSome?_congr
    intro f hf
    rw [(h.filled_of_mem_path ht (List.takeWhile_subset _ hf) site.name).filter_isBlocking]
  rw [verdict?, UseSite.verdict?, h.path_eq, hpath, verdict?, UseSite.verdict?]
  cases hfind : (site.path t).find? fun f => f.kind.isBlock with
  | none => rfl
  | some block =>
    have hblock := h.filled_of_mem_path ht (List.mem_of_find?_eq_some hfind) site.name
    simp only [hblock.verdictAt_eq]

end Extends

/-- A target is bound by the block scope at the end of its way. -/
lemma verdictAt_of_verdict? {owner : Nat} (hv : t.verdict? site = some (.bound owner)) :
    ∃ block, (site.path t).find? (fun f => f.kind.isBlock) = some block ∧
      site.verdictAt block (t.binding? block.index site.name) = some (.bound owner) := by
  rw [verdict?, UseSite.verdict?] at hv
  split at hv
  · simp at hv
  · split at hv
    · simp at hv
    · next block hblock =>
      split at hv
      · simp at hv
      · exact ⟨block, hblock, hv⟩

lemma name_noteAt {block : Frame} {name : String} (hn : site.name = name) :
    (site.noteAt block (t.binding? i name)).name = name := by
  cases hb : t.binding? i name with
  | none => exact hn
  | some b =>
    obtain ⟨s, -, hs⟩ := Option.bind_eq_some_iff.1 hb
    have hb : b.name = name := by simpa using List.find?_some hs
    exact hb

/-- The note of a resolution extends the tree. -/
lemma extends_note (ht : t.Arena) (hv : t.verdict? site = some v) :
    t.Extends (t.note site (site.path t) v) := by
  cases v with
  | failed f => exact .refl t
  | bound owner =>
    obtain ⟨block, hblock, hat⟩ := verdictAt_of_verdict? hv
    rw [note, hblock]
    simp only
    split
    · exact .refl t
    · next hown =>
      obtain ⟨s, hs, rfl⟩ := Extends.mem_path ht (List.mem_of_find?_eq_some hblock)
      refine .put hs ?_
      rw [name_noteAt rfl]
      exact .noteAt hat (Bool.eq_false_iff.2 hown)

/-- A resolution whose note is there writes nothing. -/
lemma Extends.note_eq (ht : t.Arena) (hv : t.verdict? site = some v)
    (h : (t.note site (site.path t) v).Extends t') : t'.note site (site.path t') v = t' := by
  have hpath : site.path t' = site.path t :=
    ((extends_note ht hv).trans h).path_eq site
  cases v with
  | failed f => rfl
  | bound owner =>
    obtain ⟨block, hblock, hat⟩ := verdictAt_of_verdict? hv
    obtain ⟨s, hs, hf⟩ := mem_path ht (List.mem_of_find?_eq_some hblock)
    -- the note is there, so it stays in every extension
    have hown : isOwned ((t.note site (site.path t) (.bound owner)).binding? block.index
        site.name) = true := by
      rw [note, hblock]
      simp only
      split
      · next hown => exact hown
      · rw [binding?_put _ _ _ _ (lt_size_of_scope? hs), if_pos ⟨rfl, name_noteAt rfl⟩]
        cases t.binding? block.index site.name <;> rfl
    obtain ⟨s', hs', -⟩ := exists_scope?_of_bare_eq (extends_note ht hv).bare_eq hs
    have hown' := (h.filled hs' site.name).isOwned hown
    rw [hpath, note, hblock]
    simp only [hown', if_true]

/-! ## Sequences of resolutions -/

/-- The verdict on a site that binds it to a scope of the tree, if it binds it. -/
def Resolves (t : ScopeTree) (site : UseSite) (v : Verdict) : Prop :=
  t.verdict? site = some v ∧ ∀ owner, v = .bound owner → owner < t.size

lemma Extends.resolves (h : t.Extends t') (ht : t.Arena) (hv : t.Resolves site v) :
    t'.Resolves site v := by
  rw [Resolves, h.verdict?_eq ht, size_eq_of_bare_eq h.bare_eq]
  exact hv

lemma resolveSite_eq_ok (ht : t.Arena) :
    t.resolveSite site = .ok (v, t') ↔
      t.verdict? site = some v ∧ t' = t.note site (site.path t) v := by
  have h := toOption_resolveSite ht site
  cases hr : t.resolveSite site with
  | error e =>
    rw [hr] at h
    cases hv : t.verdict? site with
    | none => simp
    | some v => simp [hv, Except.toOption] at h
  | ok r =>
    obtain ⟨v', u⟩ := r
    rw [hr] at h
    cases hv : t.verdict? site with
    | none => simp [hv, Except.toOption] at h
    | some w =>
      simp only [hv, Except.toOption, Option.map_some, Option.some.injEq, Prod.mk.injEq] at h
      obtain ⟨rfl, rfl⟩ := h
      simp only [Except.ok.injEq, Prod.mk.injEq, Option.some.injEq]
      constructor
      · rintro ⟨rfl, rfl⟩
        exact ⟨rfl, rfl⟩
      · rintro ⟨rfl, rfl⟩
        exact ⟨rfl, rfl⟩

/-- One site that can be resolved. -/
lemma resolveSites_cons (ht : t.Arena) (hv : t.Resolves site v) (rest : List UseSite) :
    t.resolveSites (site :: rest) =
      { (t.note site (site.path t) v).resolveSites rest with
        verdicts := (site.index, v) ::
          ((t.note site (site.path t) v).resolveSites rest).verdicts } := by
  rw [resolveSites, (resolveSite_eq_ok ht).2 ⟨hv.1, rfl⟩]
  cases v with
  | failed f => rfl
  | bound owner =>
    have hsize : owner < (t.note site (site.path t) (.bound owner)).size := by
      rw [size_eq_of_bare_eq (extends_note ht hv.1).bare_eq]
      exact hv.2 owner rfl
    simp only [if_pos hsize]

/-- Where nothing stops a sequence of resolutions, all sites can be resolved in the tree at its
beginning. -/
lemma resolves_of_stopped_eq_none (ht : t.Arena) {sites : List UseSite}
    (h : (t.resolveSites sites).stopped = none) :
    ∀ site ∈ sites, ∃ v, t.Resolves site v := by
  induction sites generalizing t with
  | nil => exact fun _ hs => absurd hs List.not_mem_nil
  | cons site rest ih =>
    obtain ⟨v, hv⟩ : ∃ v, t.Resolves site v := by
      rw [resolveSites] at h
      split at h
      · simp at h
      · next v t' hr =>
        obtain ⟨hv, rfl⟩ := (resolveSite_eq_ok ht).1 hr
        refine ⟨v, hv, ?_⟩
        rintro owner rfl
        simp only at h
        split at h
        · next hlt => rwa [size_eq_of_bare_eq (extends_note ht hv).bare_eq] at hlt
        · simp at h
    have hext := extends_note ht hv.1
    have ht' := ht.of_bare_eq hext.bare_eq
    rw [resolveSites_cons ht hv] at h
    intro u hu
    rcases List.mem_cons.1 hu with rfl | hu
    · exact ⟨v, hv⟩
    · obtain ⟨w, hw⟩ := ih ht' h u hu
      refine ⟨w, ?_⟩
      rw [Resolves, ← hext.verdict?_eq ht, ← size_eq_of_bare_eq hext.bare_eq]
      exact hw

/-- A sequence of resolutions gives to each site the verdict that it has in the tree at the
beginning.  The same sequence once more, in any extension of the tree at the end, gives the same
verdicts and changes nothing. -/
lemma resolveSites_eq (ht : t.Arena) {sites : List UseSite} {verdict : UseSite → Verdict}
    (hv : ∀ site ∈ sites, t.Resolves site (verdict site)) :
    ∃ t', t.Extends t' ∧
      t.resolveSites sites =
        { tree := t', verdicts := sites.map fun site => (site.index, verdict site) } ∧
      ∀ t'', t'.Extends t'' → t''.resolveSites sites =
        { tree := t'', verdicts := sites.map fun site => (site.index, verdict site) } := by
  -- the tree at the beginning changes with each note, the verdicts in it do not
  induction sites generalizing t with
  | nil => exact ⟨t, .refl t, rfl, fun _ _ => rfl⟩
  | cons site rest ih =>
    have hsite := hv site List.mem_cons_self
    have hext := extends_note ht hsite.1
    have ht' := ht.of_bare_eq hext.bare_eq
    obtain ⟨t', hrest, heq, hagain⟩ := ih ht' fun u hu =>
      hext.resolves ht (hv u (List.mem_cons_of_mem _ hu))
    refine ⟨t', hext.trans hrest, ?_, ?_⟩
    · rw [resolveSites_cons ht hsite, heq, List.map_cons]
    · intro t'' h
      have hall := (hext.trans hrest).trans h
      rw [resolveSites_cons (ht.of_bare_eq hall.bare_eq) (hall.resolves ht hsite),
        (hrest.trans h).note_eq ht hsite.1, hagain t'' h, List.map_cons]

end ScopeTree

end TargetScope
