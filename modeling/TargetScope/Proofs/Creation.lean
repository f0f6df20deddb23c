import Mathlib.Data.List.Forall2
import TargetScope.Proofs.ClosedForm
import TargetScope.Proofs.Lifecycle

/-!
# The bindings that an analysis creates

A resolution creates a binding deep inside of its search, and whether it does so depends on what the
resolutions before it have created.  What is there in the end does not depend on that: it is a
function of the tree before the analysis (`ScopeTree.NeededIn`).

Two facts are carried along a sequence of resolutions.  The list of the bindings of a scope begins
with those that were there, each of them as it has become (`Binding.Extended`).  And a name that was
missing has in the end the binding that the first site has created which asks for it
(`ScopeTree.binding?_resolveSites`); the sites that ask for it are the same in each tree of the
sequence, since their verdicts are (`ScopeTree.Extends.asksFor_eq`).
-/

namespace TargetScope

/-- The binding that a target creates in the block scope at the place `i`. -/
def UseSite.creation (site : UseSite) (i : Nat) : Binding where
  name := site.name
  role := .plain
  declaredAt := site.position
  boundOrder := some site.order
  owner := some i
  implicit := true

/-! ## The list of the bindings of a scope -/

namespace Binding

variable {b : Binding} {bs cs ds : List Binding}

lemma forall₂_becomes_trans (h : List.Forall₂ Becomes bs cs) (h' : List.Forall₂ Becomes cs ds) :
    List.Forall₂ Becomes bs ds := by
  induction h generalizing ds with
  | nil => exact h'
  | cons hb _ ih =>
    obtain ⟨d, rest, hd, hrest, rfl⟩ := List.forall₂_cons_left_iff.1 h'
    exact .cons (hb.trans hd) (ih hrest)

/-- The bindings `cs` are those of `bs`, as they have become, and behind them new ones. -/
def Extended (bs cs : List Binding) : Prop :=
  ∃ kept created, cs = kept ++ created ∧ List.Forall₂ Becomes bs kept

namespace Extended

lemma of_forall₂ (h : List.Forall₂ Becomes bs cs) : Extended bs cs :=
  ⟨cs, [], (List.append_nil cs).symm, h⟩

lemma refl (bs : List Binding) : Extended bs bs :=
  of_forall₂ (List.forall₂_same.2 fun b _ => .refl b)

lemma trans (h : Extended bs cs) (h' : Extended cs ds) : Extended bs ds := by
  obtain ⟨kept, created, rfl, hkept⟩ := h
  obtain ⟨kept', created', rfl, hkept'⟩ := h'
  -- what was new before is kept like the rest
  have htake := List.forall₂_take kept.length hkept'
  rw [List.take_left] at htake
  refine ⟨kept'.take kept.length, kept'.drop kept.length ++ created', ?_,
    forall₂_becomes_trans hkept htake⟩
  rw [← List.append_assoc, List.take_append_drop]

/-- What is put in takes the place of a binding that can become it, or it comes last. -/
lemma putIn (h : ∀ c, bs.find? (fun c => c.name = b.name) = some c → c.Becomes b) :
    Extended bs (b.putIn bs) := by
  induction bs with
  | nil => exact ⟨[], [b], rfl, .nil⟩
  | cons c rest ih =>
    rw [Binding.putIn]
    split
    · next hc =>
      refine of_forall₂ (.cons (h c ?_) (List.forall₂_same.2 fun b _ => .refl b))
      exact List.find?_cons_of_pos (decide_eq_true hc)
    · next hc =>
      obtain ⟨kept, created, heq, hkept⟩ := ih fun d hd => h d (by
        rwa [List.find?_cons_of_neg (by simpa using hc)])
      exact ⟨c :: kept, created, by rw [heq, List.cons_append], .cons (.refl c) hkept⟩

end Extended

end Binding

namespace ScopeTree

variable {t t' u : ScopeTree} {h : History} {i : Nat} {s : Scope} {name : String}
  {site : UseSite} {v : Verdict}

/-- In every scope, the bindings of the tree `u` are those of the tree `t` with new ones behind
them. -/
def Enlarges (u t : ScopeTree) : Prop :=
  ∀ ⦃i : Nat⦄ ⦃s : Scope⦄, t.scope? i = some s →
    ∃ s', u.scope? i = some s' ∧ Binding.Extended s.bindings s'.bindings

namespace Enlarges

lemma refl (t : ScopeTree) : t.Enlarges t :=
  fun _ s hs => ⟨s, hs, .refl _⟩

lemma trans (h : t'.Enlarges t) (h' : u.Enlarges t') : u.Enlarges t := by
  intro i s hs
  obtain ⟨s', hs', hext⟩ := h hs
  obtain ⟨s'', hs'', hext'⟩ := h' hs'
  exact ⟨s'', hs'', hext.trans hext'⟩

end Enlarges

/-- A resolution enlarges the tree. -/
lemma enlarges_note (ht : t.Arena) (hv : t.verdict? site = some v) :
    (t.note site (site.path t) v).Enlarges t := by
  rcases note_cases ht hv with heq | ⟨s, hs, -, hopen, heq⟩
  · rw [heq]
    exact .refl t
  · rw [heq]
    intro i s' hs'
    rw [scope?_put, hs', Option.map_some]
    split
    · next hi =>
      subst hi
      obtain rfl : s = s' := Option.some.inj (hs.symm.trans hs')
      refine ⟨_, rfl, Binding.Extended.putIn fun c hc => ?_⟩
      -- the note on a binding that is there is its owner
      rw [name_noteAt rfl] at hc
      have hbind : t.binding? s.index site.name = some c := (binding?_of_scope? hs _).trans hc
      rw [hbind]
      exact .setOwner (hopen c hbind).1 _
    · exact ⟨s', rfl, .refl _⟩

lemma scope?_settledTree (hs : t.scope? i = some s) :
    t.settledTree.scope? i = some (t.settledScope s) := by
  rw [scope?, settledTree, List.getElem?_map]
  exact congrArg (Option.map t.settledScope) hs

lemma DistinctNames.settledTree (hn : t.DistinctNames) : t.settledTree.DistinctNames := by
  intro i s' hs'
  obtain ⟨s, hs, -⟩ := exists_scope?_of_bare_eq (bare_settledTree t).symm hs'
  have hnames : (t.settledScope s).bindings.map Binding.name = s.bindings.map Binding.name := by
    rw [settledScope, List.map_map]
    exact List.map_congr_left fun b _ => name_settledBinding t s b
  rw [scope?_settledTree hs] at hs'
  obtain rfl := Option.some.inj hs'
  rw [hnames]
  exact hn i s hs

/-- Settling enlarges the tree; it adds nothing. -/
lemma Unsettled.enlarges_settledTree (hu : t.Unsettled) : t.settledTree.Enlarges t := by
  intro i s hs
  refine ⟨t.settledScope s, ?_, .of_forall₂ ?_⟩
  · exact scope?_settledTree hs
  · rw [settledScope, List.forall₂_map_right_iff]
    exact List.forall₂_same.2 fun b hb => hu.becomes_settledBinding hs hb

/-! ## Sequences of resolutions -/

section Sequence

variable {sites : List UseSite}

/-- The sites behind the first one of a sequence can be resolved behind it. -/
lemma resolves_note (ht : t.Arena) (hv : t.verdict? site = some v)
    (hsites : ∀ site ∈ sites, ∃ v, t.Resolves site v) :
    ∀ u ∈ sites, ∃ w, (t.note site (site.path t) v).Resolves u w := by
  intro u hu
  obtain ⟨w, hw⟩ := hsites u hu
  exact ⟨w, (extends_note ht hv).resolves ht hw⟩

/-- What one resolution does to a tree, and another one to the tree behind it, a sequence of them
does. -/
lemma resolveSites_induction {P : ScopeTree → ScopeTree → Prop} (hrefl : ∀ t, P t t)
    (hstep : ∀ {t u : ScopeTree} {site : UseSite} {v : Verdict}, t.Arena →
      t.verdict? site = some v → P (t.note site (site.path t) v) u → P t u)
    (ht : t.Arena) (hsites : ∀ site ∈ sites, ∃ v, t.Resolves site v) :
    P t (t.resolveSites sites).tree := by
  induction sites generalizing t with
  | nil => exact hrefl t
  | cons site rest ih =>
    obtain ⟨v, hv⟩ := hsites site List.mem_cons_self
    have hext := extends_note ht hv.1
    rw [resolveSites_cons ht hv]
    exact hstep ht hv.1 (ih (ht.of_bare_eq hext.bare_eq)
      (resolves_note ht hv.1 fun u hu => hsites u (List.mem_cons_of_mem _ hu)))

lemma enlarges_resolveSites (ht : t.Arena) (hsites : ∀ site ∈ sites, ∃ v, t.Resolves site v) :
    (t.resolveSites sites).tree.Enlarges t :=
  resolveSites_induction (P := fun t u => u.Enlarges t) .refl
    (fun ht hv h => (enlarges_note ht hv).trans h) ht hsites

lemma extends_resolveSites (ht : t.Arena) (hsites : ∀ site ∈ sites, ∃ v, t.Resolves site v) :
    t.Extends (t.resolveSites sites).tree :=
  resolveSites_induction .refl (fun ht hv h => (extends_note ht hv).trans h) ht hsites

end Sequence

/-! ## Names that are missing -/

/-- The target belongs to the block scope at the place `i` and is bound to that scope itself. -/
def asksFor (t : ScopeTree) (i : Nat) (site : UseSite) : Bool :=
  ((site.path t).find? fun f => f.kind.isBlock).any (·.index = i) &&
    t.verdict? site = some (.bound i)

/-- Other notes do not matter to what a site asks for. -/
lemma Extends.asksFor_eq (h : t.Extends u) (ht : t.Arena) (i : Nat) (site : UseSite) :
    u.asksFor i site = t.asksFor i site := by
  rw [asksFor, h.path_eq, h.verdict?_eq ht, asksFor]

/-- Where the name is missing, a resolution creates its binding if the site asks for it. -/
lemma binding?_note (ht : t.Arena) (hv : t.verdict? site = some v)
    (hnone : t.binding? i name = none) :
    (t.note site (site.path t) v).binding? i name =
      if site.name = name ∧ t.asksFor i site = true then some (site.creation i) else none := by
  cases v with
  | failed f =>
    rw [note, hnone, if_neg]
    rintro ⟨-, hask⟩
    simp [asksFor, hv] at hask
  | bound owner =>
    obtain ⟨block, hblock, hat⟩ := verdictAt_of_verdict? hv
    obtain ⟨s, hs, -⟩ := Extends.mem_path ht (List.mem_of_find?_eq_some hblock)
    have hsize := lt_size_of_scope? hs
    rw [note, hblock]
    simp only
    by_cases hin : block.index = i ∧ site.name = name
    · obtain ⟨rfl, rfl⟩ := hin
      rw [hnone] at hat
      have howner : owner = block.index := by
        rw [UseSite.verdictAt] at hat
        split at hat
        · simp at hat
        · exact (Verdict.bound.inj (Option.some.inj hat)).symm
      have hask : t.asksFor block.index site = true := by simp [asksFor, hblock, hv, howner]
      have hopen : ¬isOwned (t.binding? block.index site.name) = true := by simp [hnone, isOwned]
      rw [if_neg hopen, hnone, binding?_put _ _ _ _ hsize, if_pos ⟨rfl, rfl⟩, if_pos ⟨rfl, hask⟩]
      rfl
    · have hask : ¬(site.name = name ∧ t.asksFor i site = true) := by
        rintro ⟨hn, hask⟩
        rw [asksFor, hblock, Bool.and_eq_true, Option.any_some, decide_eq_true_eq] at hask
        exact hin ⟨hask.1, hn⟩
      rw [if_neg hask]
      split
      · exact hnone
      · rw [binding?_put _ _ _ _ hsize, name_noteAt rfl, if_neg hin, hnone]

/-- Where the name is missing, a sequence of resolutions creates the binding of the first site that
asks for it, if any does. -/
lemma binding?_resolveSites (ht : t.Arena) {sites : List UseSite}
    (hsites : ∀ site ∈ sites, ∃ v, t.Resolves site v) (hs : t.scope? i = some s)
    (hnone : t.binding? i name = none) :
    (t.resolveSites sites).tree.binding? i name =
      (sites.find? fun u => u.name = name && t.asksFor i u).map fun u => u.creation i := by
  induction sites generalizing t s with
  | nil => exact hnone
  | cons site rest ih =>
    obtain ⟨v, hv⟩ := hsites site List.mem_cons_self
    have hext := extends_note ht hv.1
    have ht' := ht.of_bare_eq hext.bare_eq
    have hrest := resolves_note ht hv.1 fun u hu => hsites u (List.mem_cons_of_mem _ hu)
    obtain ⟨s', hs', -⟩ := exists_scope?_of_bare_eq hext.bare_eq hs
    have hnote := binding?_note ht hv.1 hnone
    rw [resolveSites_cons ht hv]
    show ((t.note site (site.path t) v).resolveSites rest).tree.binding? i name = _
    by_cases hask : site.name = name ∧ t.asksFor i site = true
    · -- a binding that has been created has its owner, so nothing is noted to it any more
      rw [if_pos hask] at hnote
      have hfilled := (extends_resolveSites ht' hrest).filled hs' name
      rw [hnote] at hfilled
      rw [List.find?_cons_of_pos (by simp [hask]), Option.map_some]
      generalize ((t.note site (site.path t) v).resolveSites rest).tree.binding? i name = x at *
      cases hfilled with
      | refl => rfl
      | owned _ ho => exact absurd ho (by simp [UseSite.creation])
    · rw [if_neg hask] at hnote
      rw [List.find?_cons_of_neg (by simpa using hask), ih ht' hrest hs' hnote]
      simp only [hext.asksFor_eq ht]

/-! ## What the tree before the analysis says -/

/-- The target of the site is the name, and it stands directly in the scope `s`; or `s` is a module,
and the target reaches it through transparent scopes none of which has the name as a parameter or an
iteration variable. -/
def NeededIn (t : ScopeTree) (s : Scope) (name : String) (site : UseSite) : Prop :=
  site.name = name ∧
    (t.scopeAt? site.scope = some s ∨
      s.kind = .moduleBody ∧ ∃ c, t.scopeAt? site.scope = some c ∧ t.nearestBlock c = some s ∧
        ∀ d ∈ t.transparentPath c, d.blocks name = false)

lemma blockerOnPath?_eq_none_iff :
    t.blockerOnPath? s name = none ↔ ∀ d ∈ t.transparentPath s, d.blocks name = false := by
  rw [blockerOnPath?, List.findSome?_eq_none_iff]
  refine forall₂_congr fun d _ => ?_
  rw [Scope.blocks]
  cases d.binding? name with
  | none => simp
  | some b => cases hb : b.isBlocking <;> simp [hb]

namespace Classified

variable {c : Scope}

/-- Settling makes no scope on the way outward from a scope block the name, or stop blocking it. -/
lemma blockerOn?_settledTree (hc : t.Classified h) (hs : t.scope? i = some s) (name : String) :
    UseSite.blockerOn? (((t.chain s).map Scope.frame).takeWhile fun f => f.kind.isTransparent)
        (fun j => t.settledTree.binding? j name) =
      (t.blockerOnPath? s name).map fun p => (p.1.index, p.2.role) := by
  rw [map_blockerOnPath? hc.arena hs]
  apply findSome?_congr
  intro f hf
  have hmem : f ∈ t.frames (some i) := by
    rw [frames_of_scope? hs]
    exact List.takeWhile_subset _ hf
  simp only [hc.filter_isBlocking_settledTree (hc.arena.index_le_of_mem_frames hmem).2,
    hc.binding?_eq, h.filter_isBlocking_binding?]

/-- Where the name is missing in the block of a site, the verdict in the settled tree binds the site
to that block if the way to it is free. -/
lemma verdict?_settledTree_of_none (hc : t.Classified h) (hcs : t.scopeAt? site.scope = some c)
    (hblock : t.nearestBlock c = some s) (hs : t.scope? i = some s)
    (hnone : s.binding? site.name = none) :
    t.settledTree.verdict? site = some (.bound i) ↔
      (∀ d ∈ t.transparentPath c, d.blocks site.name = false) ∧
        (s.kind = .moduleBody ∨ s.kind = .classBody ∧ c = s) := by
  obtain ⟨hci, hpath⟩ := path_of_scopeAt? hcs
  have hi := hc.arena.index_eq hs
  have hsettled : site.path t.settledTree = (t.chain c).map Scope.frame := by
    rw [← hpath, UseSite.path, UseSite.path, frames_eq_of_bare_eq (bare_settledTree t)]
  have hfind : ((t.chain c).map Scope.frame).find? (fun f => f.kind.isBlock) = some s.frame := by
    rw [← map_frame_nearestBlock, hblock, Option.map_some]
  have hhead : ((t.chain c).map Scope.frame).head? = some c.frame := by
    rw [t.chain_eq_cons c, List.map_cons, List.head?_cons]
  have hmissing : t.settledTree.binding? i site.name = none := by
    rw [binding?_settledTree hs, hnone, Option.map_none]
  rw [ScopeTree.verdict?, hsettled, UseSite.verdict?, hc.blockerOn?_settledTree hci, hfind, hhead,
    ← blockerOnPath?_eq_none_iff]
  cases t.blockerOnPath? c site.name with
  | some p => simp
  | none =>
    simp only [Option.map_none, hmissing, UseSite.verdictAt, Scope.kind_frame, Scope.index_frame,
      hi, ne_eq, Option.some.injEq, hc.arena.frame_eq_iff hci hs, true_and]
    have hkind := isBlock_of_nearestBlock hblock
    cases hk : s.kind with
    | moduleBody => simp
    | classBody => by_cases hcs' : c = s <;> simp [hcs']
    | functionBody => simp
    | closure | comprehension =>
      rw [hk] at hkind
      exact absurd hkind (by decide)

/-- The sites that ask for a missing name in the settled tree are those that need it. -/
lemma asksFor_settledTree_iff (hc : t.Classified h) (hs : t.scope? i = some s)
    (hnone : s.binding? site.name = none) :
    t.settledTree.asksFor i site = true ↔
      (s.kind = .moduleBody ∨ s.kind = .classBody) ∧ t.NeededIn s site.name site := by
  have hi := hc.arena.index_eq hs
  rw [asksFor, UseSite.path, frames_eq_of_bare_eq (bare_settledTree t), ← UseSite.path,
    Bool.and_eq_true, decide_eq_true_eq]
  cases hcs : t.scopeAt? site.scope with
  | none => simp [path_of_scopeAt?_eq_none hcs, NeededIn, hcs]
  | some c =>
    obtain ⟨hci, hpath⟩ := path_of_scopeAt? hcs
    have hblock : (((site.path t).find? fun f => f.kind.isBlock).any (·.index = i)) = true ↔
        t.nearestBlock c = some s := by
      rw [hpath, ← map_frame_nearestBlock]
      cases hnb : t.nearestBlock c with
      | none => simp
      | some block =>
        have hbs := (hc.arena.scope?_of_mem_chain hci (List.mem_of_find?_eq_some hnb)).1
        show decide (block.index = i) = true ↔ some block = some s
        rw [decide_eq_true_eq, Option.some.injEq]
        constructor
        · rintro rfl
          exact Option.some.inj (hbs.symm.trans hs)
        · rintro rfl
          exact hi
    rw [hblock]
    constructor
    · rintro ⟨hnb, hverdict⟩
      obtain ⟨hfree, hkind⟩ := (hc.verdict?_settledTree_of_none hcs hnb hs hnone).1 hverdict
      rcases hkind with hk | ⟨hk, rfl⟩
      · exact ⟨Or.inl hk, rfl, Or.inr ⟨hk, c, hcs, hnb, hfree⟩⟩
      · exact ⟨Or.inr hk, rfl, Or.inl hcs⟩
    · rintro ⟨hkind, -, hdirect | ⟨hk, c', hcs', hnb, hfree⟩⟩
      · obtain rfl : c = s := Option.some.inj (hcs.symm.trans hdirect)
        have hisBlock : c.kind.isBlock = true := by rcases hkind with hk | hk <;> rw [hk] <;> rfl
        have hnb := t.nearestBlock_of_isBlock hisBlock
        refine ⟨hnb, (hc.verdict?_settledTree_of_none hcs hnb hs hnone).2 ⟨?_, ?_⟩⟩
        · simp [transparentPath, t.chain_eq_cons c, ScopeKind.isTransparent, hisBlock]
        · exact hkind.imp_right fun hk => ⟨hk, rfl⟩
      · obtain rfl : c = c' := Option.some.inj (hcs.symm.trans hcs')
        exact ⟨hnb, (hc.verdict?_settledTree_of_none hcs hnb hs hnone).2 ⟨hfree, Or.inl hk⟩⟩

/-- The tree after an analysis is the settled tree with its sites resolved. -/
lemma analyze_fst_eq (hc : t.Classified h) (mode : Mode) :
    (t.analyze mode).1 = (t.settledTree.resolveSites h.sites).tree := by
  obtain ⟨t', -, hres⟩ := hc.resolve_eq (.refl _)
  obtain ⟨_, _, -, -, heq⟩ := hc.analyze_eq mode
  obtain ⟨howner, -, hreport⟩ := of_analyze_eq_ok (congrArg Prod.snd heq)
  rw [hc.settleOuterDeclarations_eq, hres] at hreport
  rw [hc.settleOuterDeclarations_eq] at howner
  rw [ScopeTree.analyze_eq mode hc.settleOuterDeclarations_eq howner hres (Prod.ext rfl hreport),
    ← hc.sitesInOrder_eq (show t.settledTree.sites = t.sites from rfl), ← resolve, hres]

lemma exists_resolves (hc : t.Classified h) :
    ∀ site ∈ h.sites, ∃ v, t.settledTree.Resolves site v := by
  intro site hsite
  obtain ⟨k, hk, rfl⟩ := List.mem_mapIdx.1 hsite
  exact ⟨_, hc.resolves_settledTree (History.mem_of_mem_targets (List.getElem_mem hk))⟩

lemma arena_settledTree (hc : t.Classified h) : t.settledTree.Arena :=
  hc.arena.of_bare_eq (bare_settledTree t)

lemma extends_analyze (hc : t.Classified h) (mode : Mode) :
    t.settledTree.Extends (t.analyze mode).1 := by
  obtain ⟨_, _, hext, -, heq⟩ := hc.analyze_eq mode
  rwa [heq]

/-- An analysis enlarges the tree. -/
lemma enlarges_analyze (hc : t.Classified h) (mode : Mode) : (t.analyze mode).1.Enlarges t := by
  rw [hc.analyze_fst_eq]
  exact hc.unsettled.enlarges_settledTree.trans
    (enlarges_resolveSites hc.arena_settledTree hc.exists_resolves)

/-- Operations keep the names of a scope distinct. -/
lemma distinctNames_performAll (hc : t.Classified h) (operations : List Operation) :
    (t.performAll operations).DistinctNames := by
  have hboth : t.Develops t ∧ t.DistinctNames := ⟨hc.develops, hc.names⟩
  refine (performAll_induction (P := fun u => t.Develops u ∧ u.DistinctNames) ?_ ?_ hboth
    operations).2
  · rintro u ⟨hd, hn⟩
    refine ⟨(hd.settle hc).1, ?_⟩
    rcases hd.reached.settleOuterDeclarations_cases hc.unsettled with ⟨-, -, heq⟩ | ⟨-, heq⟩
    · rw [heq]
      exact hn.settledTree
    · rw [heq]
      exact hn
  · rintro u site v u' ⟨hd, hn⟩ hr
    refine ⟨(hd.resolve hc.unsettled hr).1, ?_⟩
    obtain ⟨-, rfl⟩ := (resolveSite_eq_ok (hc.arena.of_bare_eq hd.reached.bare_eq)).1 hr
    exact hn.note _ _ _

lemma distinctNames_analyze (hc : t.Classified h) (mode : Mode) :
    (t.analyze mode).1.DistinctNames :=
  hc.distinctNames_performAll [.analyze mode]

/-- The binding that an analysis creates for a name that was missing. -/
lemma binding?_analyze_of_none (hc : t.Classified h) (mode : Mode) (hs : t.scope? i = some s)
    (hnone : s.binding? name = none) {c : Binding} :
    (t.analyze mode).1.binding? i name = some c ↔
      (s.kind = .moduleBody ∨ s.kind = .classBody) ∧
        ∃ site, IsFirst UseSite.order (t.NeededIn s name) t.sites site ∧ c = site.creation i := by
  obtain ⟨s', hs', -⟩ := exists_scope?_of_bare_eq (bare_settledTree t) hs
  have hmissing : t.settledTree.binding? i name = none := by
    rw [binding?_settledTree hs, hnone, Option.map_none]
  have hiff : ∀ u, u.name = name ∧ t.settledTree.asksFor i u = true ↔
      (s.kind = .moduleBody ∨ s.kind = .classBody) ∧ t.NeededIn s name u := by
    intro u
    by_cases hn : u.name = name
    · subst hn
      rw [hc.asksFor_settledTree_iff hs hnone]
      tauto
    · exact iff_of_false (fun h => hn h.1) fun h => hn h.2.1
  have hfind : ∀ u, h.sites.find? (fun u => u.name = name && t.settledTree.asksFor i u) = some u ↔
      IsFirst UseSite.order
        (fun u => (s.kind = .moduleBody ∨ s.kind = .classBody) ∧ t.NeededIn s name u)
        h.sites u := by
    intro u
    rw [← isFirst_congr fun v _ => hiff v, isFirst_iff_find? (History.pairwise_sites hc.ordered)]
    simp only [Bool.decide_and, Bool.decide_eq_true]
  rw [hc.analyze_fst_eq, binding?_resolveSites hc.arena_settledTree hc.exists_resolves hs' hmissing,
    Option.map_eq_some_iff, hc.sites_eq]
  simp only [hfind]
  constructor
  · rintro ⟨u, hu, rfl⟩
    have hk := hu.2.1.1
    exact ⟨hk, u, (isFirst_congr fun v _ => and_iff_right hk).1 hu, rfl⟩
  · rintro ⟨hk, u, hu, rfl⟩
    exact ⟨u, (isFirst_congr fun v _ => and_iff_right hk).2 hu, rfl⟩

/-- The bindings that are new in a scope are those of the names that were missing. -/
lemma mem_created_iff (hc : t.Classified h) (mode : Mode) {s' : Scope}
    (hs' : (t.analyze mode).1.scope? i = some s') {kept created : List Binding}
    (hbindings : s'.bindings = kept ++ created)
    (hkept : List.Forall₂ Binding.Becomes s.bindings kept) {c : Binding} :
    c ∈ created ↔ s.binding? c.name = none ∧ (t.analyze mode).1.binding? i c.name = some c := by
  have hnames : kept.map Binding.name = s.bindings.map Binding.name := by
    have heq := hkept.imp fun b c hbc => hbc.name_eq.symm
    rw [← List.forall₂_map_right_iff, ← List.forall₂_map_left_iff, List.forall₂_eq_eq_eq] at heq
    exact heq.symm
  have hnd := hc.distinctNames_analyze mode i s' hs'
  rw [hbindings, List.map_append, List.nodup_append] at hnd
  have hmissing : s.binding? c.name = none ↔ c.name ∉ kept.map Binding.name := by
    rw [hnames, Scope.binding?, List.find?_eq_none]
    simp
  rw [hmissing, binding?_of_scope? hs']
  constructor
  · intro hcm
    refine ⟨fun hk => hnd.2.2 _ hk _ (List.mem_map_of_mem hcm) rfl, ?_⟩
    exact (hc.distinctNames_analyze mode).binding?_of_mem hs'
      (hbindings ▸ List.mem_append_right _ hcm)
  · rintro ⟨hk, hfind⟩
    have hmem : c ∈ s'.bindings := List.mem_of_find?_eq_some hfind
    rw [hbindings, List.mem_append] at hmem
    exact hmem.resolve_left fun hck => hk (List.mem_map_of_mem hck)

end Classified

/-- An analysis creates the bindings that are needed, and nothing else.  For every stream that
describes a tree, and in every mode, it leaves the scopes and the use sites as they are, and the
bindings of a scope too, but for owners, promotions and the roles of promoted declarations.  Behind
them stand new ones in a module or a class body, one for each name that was missing and that some
site needs there: a plain binding, marked as implicit and owned by the scope, with the position and
the number of the first such site. -/
theorem analyze_creates_needed {unitName filename : Option String} {events : List Event}
    (he : ofEvents unitName filename events = .ok t) (mode : Mode) :
    ∃ a u, t.analyze mode = (u, .ok a) ∧ a.tree = some u ∧ u.bare = t.bare ∧ u.sites = t.sites ∧
      ∀ i s, t.scope? i = some s →
        ∃ s' kept created, u.scope? i = some s' ∧ s'.bindings = kept ++ created ∧
          List.Forall₂ Binding.Becomes s.bindings kept ∧
          (s'.bindings.map Binding.name).Nodup ∧
          (∀ name, (∃ c ∈ created, c.name = name) ↔
            (s.kind = .moduleBody ∨ s.kind = .classBody) ∧ s.binding? name = none ∧
              ∃ site ∈ t.sites, t.NeededIn s name site) ∧
          ∀ c ∈ created, ∃ site, IsFirst UseSite.order (t.NeededIn s c.name) t.sites site ∧
            c = site.creation i := by
  have hc := classified_ofEvents he
  have hext := hc.extends_analyze mode
  have hordered : t.sites.Pairwise fun u v => u.order < v.order := by
    rw [hc.sites_eq]
    exact History.pairwise_sites hc.ordered
  obtain ⟨u, r, -, -, heq⟩ := hc.analyze_eq mode
  have hu : (t.analyze mode).1 = u := congrArg Prod.fst heq
  rw [hu] at hext
  refine ⟨_, u, heq, rfl, hext.bare_eq.trans (bare_settledTree t), hext.sites_eq, ?_⟩
  intro i s hs
  obtain ⟨s', hs', kept, created, hbindings, hkept⟩ := hc.enlarges_analyze mode hs
  have hcreated := fun c => hc.mem_created_iff (c := c) mode hs' hbindings hkept
  refine ⟨s', kept, created, hu ▸ hs', hbindings, hkept, hc.distinctNames_analyze mode i s' hs', ?_,
    ?_⟩
  · intro name
    constructor
    · rintro ⟨c, hcm, rfl⟩
      obtain ⟨hnone, hbind⟩ := (hcreated c).1 hcm
      obtain ⟨hk, site, hsite, -⟩ := (hc.binding?_analyze_of_none mode hs hnone).1 hbind
      exact ⟨hk, hnone, site, hsite.1, hsite.2.1⟩
    · rintro ⟨hk, hnone, site, hsite, hneeded⟩
      obtain ⟨first, hfirst⟩ := exists_isFirst hordered hsite hneeded
      have hbind := (hc.binding?_analyze_of_none mode hs hnone).2 ⟨hk, first, hfirst, rfl⟩
      have hname : (first.creation i).name = name := hfirst.2.1.1
      exact ⟨first.creation i, (hcreated _).2 (hname ▸ ⟨hnone, hbind⟩), hname⟩
  · intro c hcm
    obtain ⟨hnone, hbind⟩ := (hcreated c).1 hcm
    exact ((hc.binding?_analyze_of_none mode hs hnone).1 hbind).2

/-- The class gets a binding of `x` for the target that stands directly in it. -/
theorem analyze_creates_mixedTargets :
    ∃ t a u s, ofEvents none none mixedTargets = .ok t ∧ t.analyze .strict = (u, .ok a) ∧
      t.binding? 4 "x" = none ∧ u.scope? 4 = some s ∧
      ∃ c ∈ s.bindings, c.name = "x" ∧ c.role = .plain ∧ c.implicit = true ∧ c.owner = some 4 := by
  have he : ofEvents none none mixedTargets = .ok _ := rfl
  obtain ⟨a, u, ha, -, -, -, hscopes⟩ := analyze_creates_needed he .strict
  obtain ⟨s, kept, created, hs, hbindings, -, -, hnames, hfirst⟩ := hscopes 4 _ rfl
  obtain ⟨c, hcm, hn⟩ := (hnames "x").2 ⟨Or.inr rfl, rfl, _, List.mem_of_getElem? (i := 4) rfl, rfl,
    Or.inl rfl⟩
  obtain ⟨site, -, rfl⟩ := hfirst c hcm
  exact ⟨_, a, u, s, he, ha, rfl, hs, _, hbindings ▸ List.mem_append_right _ hcm, hn, rfl, rfl, rfl⟩

end ScopeTree

end TargetScope
