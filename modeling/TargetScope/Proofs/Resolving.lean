import TargetScope.Proofs.Classification
import TargetScope.Resolution

/-!
# What a resolution reads and writes

The resolution of a use site reads the way outward from the site and the bindings of the target on
that way; it writes at most one binding, that of the target in the block scope at the end of the
way.  This file separates the two: the verdict is a function of what is read (`UseSite.verdict?`),
and a resolution consists of the verdict and of one note in the tree
(`ScopeTree.toOption_resolveSite`).

The verdict does not depend on whether other notes are there, so that the order of the resolutions
does not matter to it.
-/

namespace TargetScope

/-! ## The verdict -/

/-- A target at the site can be attached to the binding if it stands in a function. -/
def Binding.reaches (b : Binding) (site : UseSite) : Bool :=
  b.isAnchor && b.boundOrder.any (· < site.order)

namespace UseSite

/-- The verdict on a target that belongs to the block scope `block`, from the binding of its name
there.  There is none if the binding is an outer declaration that is not settled. -/
def verdictAt (site : UseSite) (block : Frame) : Option Binding → Option Verdict
  | none =>
    if block.kind = .functionBody then
      some (.failed { kind := .targetName, reason := .missingBinding, site, scope := block.index,
                      fallback := some block.index })
    else some (.bound block.index)
  | some b =>
    if b.isBlocking then
      some (.failed { kind := .shadowedBinding, reason := .blockScopeShadow, site,
                      scope := block.index, blocking := some b.role })
    else if block.kind = .functionBody ∧ b.reaches site = false then
      some (.failed { kind := .targetName, reason := .missingBinding, site, scope := block.index,
                      fallback := some block.index })
    else
      match b.owner with
      | some owner => some (.bound owner)
      | none => if b.isOuter then none else some (.bound block.index)

/-- A binding that is settled and does not forbid the target binds it to its owner, or, where it
has none, to the block. -/
lemma verdictAt_of_owner {site : UseSite} {block : Frame} {b : Binding} {reached : Bool}
    {owner : Nat} (hb : b.isBlocking = false) (hr : b.reaches site = reached)
    (ho : b.owner.getD block.index = owner) (hs : b.owner.isSome = true ∨ b.isOuter = false) :
    site.verdictAt block (some b) =
      some (if block.kind = .functionBody ∧ reached = false then
        .failed { kind := .targetName, reason := .missingBinding, site, scope := block.index,
                  fallback := some block.index }
        else .bound owner) := by
  subst hr
  simp only [verdictAt, hb, Bool.false_eq_true, if_false]
  split
  · rfl
  · cases hown : b.owner with
    | some w =>
      rw [hown, Option.getD_some] at ho
      rw [ho]
    | none =>
      rw [hown, Option.getD_none] at ho
      have hout : b.isOuter = false := by simpa [hown] using hs
      simp only [hout, Bool.false_eq_true, if_false, ho]

/-- The innermost scope of a way outward where the target is a parameter or an iteration variable,
with that role. -/
def blockerOn? (path : List Frame) (binding? : Nat → Option Binding) :
    Option (Nat × BindingRole) :=
  path.findSome? fun f =>
    (((binding? f.index).map Binding.role).filter BindingRole.isBlocking).map fun role =>
      (f.index, role)

/-- The verdict on a target, from the way outward and from the bindings of its name there. -/
def verdict? (site : UseSite) (path : List Frame) (binding? : Nat → Option Binding) :
    Option Verdict :=
  match blockerOn? (path.takeWhile fun f => f.kind.isTransparent) binding? with
  | some (scope, role) =>
    some (.failed { kind := .shadowedBinding, reason := .transparentScopeShadow, site, scope,
                    blocking := some role })
  | none =>
    match path.find? fun f => f.kind.isBlock with
    | none => none
    | some block =>
      if block.kind = .classBody ∧ path.head? ≠ some block then
        some (.failed { kind := .classScope, reason := .classBody, site, scope := block.index })
      else site.verdictAt block (binding? block.index)

/-- The binding of the target in the block scope `block` with the owner entered. -/
def noteAt (site : UseSite) (block : Frame) : Option Binding → Binding
  | none =>
    { name := site.name, role := .plain, declaredAt := site.position,
      boundOrder := some site.order, owner := some block.index, implicit := true }
  | some b => { b with owner := some block.index }

/-- The scope of the site and the scopes around it, innermost first. -/
def path (site : UseSite) (t : ScopeTree) : List Frame :=
  if 0 ≤ site.scope then t.frames (some site.scope.toNat) else []

end UseSite

namespace ScopeTree

variable {t t' t'' : ScopeTree} {site : UseSite} {i : Nat} {s : Scope} {v : Verdict}

/-- The verdict on the target of a site of the tree. -/
def verdict? (t : ScopeTree) (site : UseSite) : Option Verdict :=
  site.verdict? (site.path t) fun j => t.binding? j site.name

/-- The binding has an owner. -/
def isOwned (b : Option Binding) : Bool :=
  b.any fun b => b.owner.isSome

/-- The tree with what a target of the given verdict adds to it. -/
def note (t : ScopeTree) (site : UseSite) (path : List Frame) : Verdict → ScopeTree
  | .failed _ => t
  | .bound _ =>
    match path.find? fun f => f.kind.isBlock with
    | none => t
    | some block =>
      if isOwned (t.binding? block.index site.name) then t
      else t.put block.index (site.noteAt block (t.binding? block.index site.name))

/-! ### The block scope at the end of the way -/

section Block

variable {block : Scope}

lemma toOption_bindThrough {b : Binding} (hblock : t.scope? i = some block) (ht : t.Arena)
    (hb : block.binding? site.name = some b) (hk : b.isBlocking = false)
    (hr : block.kind = .functionBody → b.reaches site = true)
    (path : List Frame) (hpath : path.find? (fun f => f.kind.isBlock) = some block.frame) :
    (t.bindThrough site block b).toOption =
      (site.verdictAt block.frame (block.binding? site.name)).map fun v =>
        (v, t.note site path v) := by
  have hbind : t.binding? block.index site.name = some b := by
    rw [ht.index_eq hblock, binding?_of_scope? hblock, hb]
  have hf : ¬(block.kind = .functionBody ∧ b.reaches site = false) := by
    rintro ⟨hkind, hn⟩
    rw [hr hkind] at hn
    exact absurd hn (by decide)
  simp only [hb, UseSite.verdictAt, hk, Bool.false_eq_true, if_false, Scope.kind_frame, hf,
    bindThrough]
  cases ho : b.owner with
  | some owner => simp [note, hpath, hbind, isOwned, ho, Except.toOption]
  | none =>
    by_cases hout : b.isOuter = true
    · simp [hout, Except.toOption]
    · simp [hout, note, hpath, hbind, isOwned, ho, Except.toOption, UseSite.noteAt]

lemma toOption_resolveInBody (hblock : t.scope? i = some block) (ht : t.Arena)
    (hk : block.kind ≠ .functionBody) (path : List Frame)
    (hpath : path.find? (fun f => f.kind.isBlock) = some block.frame) :
    (t.resolveInBody site block).toOption =
      (site.verdictAt block.frame (block.binding? site.name)).map fun v =>
        (v, t.note site path v) := by
  rw [resolveInBody]
  cases hb : block.binding? site.name with
  | none =>
    have hbind : t.binding? block.index site.name = none := by
      rw [ht.index_eq hblock, binding?_of_scope? hblock, hb]
    simp [UseSite.verdictAt, hk, note, hpath, hbind, isOwned, UseSite.noteAt, Except.toOption]
  | some b =>
    by_cases hbl : b.isBlocking = true
    · simp [UseSite.verdictAt, hbl, note, Except.toOption, Failure.shadowedByBlock]
    · have := toOption_bindThrough hblock ht hb (Bool.eq_false_iff.2 hbl)
        (fun hf => absurd hf hk) path hpath
      rw [hb] at this
      simpa [hbl] using this

lemma toOption_resolveInFunction (hblock : t.scope? i = some block) (ht : t.Arena)
    (hk : block.kind = .functionBody) (path : List Frame)
    (hpath : path.find? (fun f => f.kind.isBlock) = some block.frame) :
    (t.resolveInFunction site block).toOption =
      (site.verdictAt block.frame (block.binding? site.name)).map fun v =>
        (v, t.note site path v) := by
  rw [resolveInFunction]
  cases hb : block.binding? site.name with
  | none => simp [UseSite.verdictAt, hk, note, Except.toOption, Failure.missing]
  | some b =>
    by_cases hbl : b.isBlocking = true
    · simp [UseSite.verdictAt, hbl, note, Except.toOption, Failure.shadowedByBlock]
    · simp only [hbl, Bool.false_eq_true, if_false]
      cases hr : b.reaches site with
      | true =>
        have := toOption_bindThrough hblock ht hb (Bool.eq_false_iff.2 hbl) (fun _ => hr) path hpath
        rw [hb] at this
        rw [← this]
        exact congrArg Except.toOption (if_pos hr)
      | false =>
        have hif : ¬(b.isAnchor && b.boundOrder.any (· < site.order)) = true := by
          rw [show (b.isAnchor && b.boundOrder.any (· < site.order)) = false from hr]
          decide
        rw [if_neg hif]
        simp [UseSite.verdictAt, hbl, hk, hr, note, Except.toOption, Failure.missing]

end Block

/-! ### The whole way -/

lemma path_of_scopeAt?_eq_none (h : t.scopeAt? site.scope = none) : site.path t = [] := by
  rw [UseSite.path]
  split
  · next hpos =>
    rw [scopeAt?, if_pos hpos] at h
    simp [frames, h]
  · rfl

/-- The way outward from a site follows the chain of its scope. -/
lemma path_of_scopeAt? (h : t.scopeAt? site.scope = some s) :
    t.scope? site.scope.toNat = some s ∧ site.path t = (t.chain s).map Scope.frame := by
  rw [scopeAt?] at h
  split at h
  · next hpos => exact ⟨h, by rw [UseSite.path, if_pos hpos, frames_of_scope? h]⟩
  · exact absurd h (by simp)

lemma findSome?_congr {α β : Type} {f g : α → Option β} {l : List α} (h : ∀ x ∈ l, f x = g x) :
    l.findSome? f = l.findSome? g := by
  induction l with
  | nil => rfl
  | cons x l ih =>
    rw [List.findSome?_cons, List.findSome?_cons, h x List.mem_cons_self,
      ih fun y hy => h y (List.mem_cons_of_mem _ hy)]

/-- The search for a blocking binding, in frames. -/
lemma map_blockerOnPath? (ht : t.Arena) (hs : t.scope? i = some s) (name : String) :
    (t.blockerOnPath? s name).map (fun p => (p.1.index, p.2.role)) =
      UseSite.blockerOn? (((t.chain s).map Scope.frame).takeWhile fun f => f.kind.isTransparent)
        fun j => t.binding? j name := by
  rw [← map_frame_transparentPath, UseSite.blockerOn?, List.findSome?_map, blockerOnPath?,
    List.map_findSome?]
  apply findSome?_congr
  intro c hc
  have hmem := (ht.scope?_of_mem_chain hs (List.takeWhile_subset _ hc)).1
  simp only [Function.comp_apply, Scope.index_frame, binding?_of_scope? hmem]
  cases c.binding? name with
  | none => rfl
  | some b =>
    simp only [Option.map_some, Option.filter, show b.role.isBlocking = b.isBlocking from rfl]
    cases b.isBlocking <;> rfl

lemma toOption_resolveThroughTransparent (ht : t.Arena) (hs : t.scope? i = some s)
    (hk : s.kind.isBlock = false) :
    (t.resolveThroughTransparent site s).toOption =
      (site.verdict? ((t.chain s).map Scope.frame) fun j => t.binding? j site.name).map fun v =>
        (v, t.note site ((t.chain s).map Scope.frame) v) := by
  have hhead : ((t.chain s).map Scope.frame).head? = some s.frame := by
    rw [t.chain_eq_cons s, List.map_cons, List.head?_cons]
  rw [resolveThroughTransparent, UseSite.verdict?, ← map_blockerOnPath? ht hs,
    ← map_frame_nearestBlock, hhead]
  cases hbp : t.blockerOnPath? s site.name with
  | some p => simp [Except.toOption, Failure.shadowedOnPath, note]
  | none =>
    cases hnb : t.nearestBlock s with
    | none => rfl
    | some block =>
      have hmem := (ht.scope?_of_mem_chain hs (List.mem_of_find?_eq_some hnb)).1
      have hfind : ((t.chain s).map Scope.frame).find? (fun f => f.kind.isBlock) =
          some block.frame := by
        rw [← map_frame_nearestBlock, hnb, Option.map_some]
      have hisb := isBlock_of_nearestBlock hnb
      -- a transparent scope is not the block at its end, so a class body is refused
      have hne : s.frame ≠ block.frame := by
        intro heq
        have hkind : s.kind = block.kind := congrArg Frame.kind heq
        rw [← hkind, hk] at hisb
        exact absurd hisb (by decide)
      simp only [Option.map_none, Option.map_some, Scope.kind_frame, Scope.index_frame,
        binding?_of_scope? hmem]
      cases hkb : block.kind with
      | classBody => simp [hne, Except.toOption, Failure.inClassBody, note]
      | moduleBody =>
        simp only [reduceCtorEq, false_and, if_false]
        exact toOption_resolveInBody hmem ht (by rw [hkb]; decide) _ hfind
      | functionBody =>
        simp only [reduceCtorEq, false_and, if_false]
        exact toOption_resolveInFunction hmem ht hkb _ hfind
      | closure | comprehension =>
        rw [hkb] at hisb
        exact absurd hisb (by decide)

/-- A block scope ends its own way. -/
lemma verdict?_of_isBlock (ht : t.Arena) (hs : t.scope? i = some s) (hk : s.kind.isBlock = true) :
    site.verdict? ((t.chain s).map Scope.frame) (fun j => t.binding? j site.name) =
        site.verdictAt s.frame (s.binding? site.name) ∧
      ((t.chain s).map Scope.frame).find? (fun f => f.kind.isBlock) = some s.frame := by
  have hfind : (s.frame :: (t.ancestors s).map Scope.frame).find? (fun f => f.kind.isBlock) =
      some s.frame := List.find?_cons_of_pos (by exact hk)
  have htake : (s.frame :: (t.ancestors s).map Scope.frame).takeWhile
      (fun f => f.kind.isTransparent) = [] :=
    List.takeWhile_cons_of_neg (by simp [ScopeKind.isTransparent, hk])
  rw [t.chain_eq_cons s, List.map_cons, UseSite.verdict?, htake, hfind, List.head?_cons]
  simp [UseSite.blockerOn?, ht.index_eq hs, binding?_of_scope? hs]

/-- A resolution consists of a verdict, which depends only on the way outward and on the bindings of
the target on it, and of a note in the tree. -/
lemma toOption_resolveSite (ht : t.Arena) (site : UseSite) :
    (t.resolveSite site).toOption =
      (t.verdict? site).map fun v => (v, t.note site (site.path t) v) := by
  rw [resolveSite, verdict?]
  cases hs : t.scopeAt? site.scope with
  | none =>
    rw [path_of_scopeAt?_eq_none hs]
    rfl
  | some s =>
    obtain ⟨hi, hpath⟩ := path_of_scopeAt? hs
    rw [hpath]
    simp only
    cases hk : s.kind with
    | moduleBody | classBody =>
      obtain ⟨hv, hfind⟩ := verdict?_of_isBlock ht hi (by rw [hk]; rfl)
      rw [hv]
      exact toOption_resolveInBody hi ht (by rw [hk]; decide) _ hfind
    | functionBody =>
      obtain ⟨hv, hfind⟩ := verdict?_of_isBlock ht hi (by rw [hk]; rfl)
      rw [hv]
      exact toOption_resolveInFunction hi ht hk _ hfind
    | closure | comprehension =>
      exact toOption_resolveThroughTransparent ht hi (by rw [hk]; rfl)

end ScopeTree

end TargetScope
