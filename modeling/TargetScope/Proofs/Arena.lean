import Mathlib.Data.List.Basic
import Mathlib.Data.List.Chain
import TargetScope.ScopeTree

/-!
# Trees as arenas

A scope tree is a list of scopes that refer to each other by their places.  Most of what is read
off a tree (the chain of scopes around a scope, the nearest block, the order of a walk) does not
depend on the bindings and the use sites, so that it stays the same while these are put in.  This
file sets up the two projections in which such facts are stated:

* `ScopeTree.bare`, the tree without its bindings and use sites; whatever walks the tree commutes
  with it;
* `ScopeTree.frames`, the places and kinds of the scopes from a place outward.

The walks have a bound on their number of steps, so that they end on every list of scopes.  In an
arena, where each scope knows its own place and parents come first, the bound is never reached,
and the walks satisfy the equations by which one would define them (`frames_eq_cons`).
-/

namespace TargetScope

/-! ## Trees without bindings -/

/-- The scope without its bindings. -/
def Scope.bare (s : Scope) : Scope :=
  { s with bindings := [] }

@[simp] lemma Scope.index_bare (s : Scope) : s.bare.index = s.index := rfl

@[simp] lemma Scope.kind_bare (s : Scope) : s.bare.kind = s.kind := rfl

@[simp] lemma Scope.parent_bare (s : Scope) : s.bare.parent = s.parent := rfl

@[simp] lemma Scope.children_bare (s : Scope) : s.bare.children = s.children := rfl

@[simp] lemma Scope.bare_put (s : Scope) (b : Binding) : (s.put b).bare = s.bare := rfl

section Bare

variable {s s' : Scope}

lemma Scope.index_eq_of_bare_eq (h : s'.bare = s.bare) : s'.index = s.index := by
  rw [← s'.index_bare, h, s.index_bare]

lemma Scope.kind_eq_of_bare_eq (h : s'.bare = s.bare) : s'.kind = s.kind := by
  rw [← s'.kind_bare, h, s.kind_bare]

lemma Scope.parent_eq_of_bare_eq (h : s'.bare = s.bare) : s'.parent = s.parent := by
  rw [← s'.parent_bare, h, s.parent_bare]

lemma Scope.children_eq_of_bare_eq (h : s'.bare = s.bare) : s'.children = s.children := by
  rw [← s'.children_bare, h, s.children_bare]

end Bare

namespace ScopeTree

variable {t t' : ScopeTree}

/-- A change of one entry that a function does not see. -/
lemma map_modify_of_eq {α β : Type} {f : α → β} {g : α → α} (h : ∀ x, f (g x) = f x)
    (l : List α) (i : Nat) : (l.modify i g).map f = l.map f := by
  ext j : 1
  rw [List.getElem?_map, List.getElem?_map, List.getElem?_modify]
  cases l[j]? with
  | none => rfl
  | some x => by_cases hij : i = j <;> simp [hij, h]

/-- The tree without its bindings and its use sites. -/
def bare (t : ScopeTree) : ScopeTree :=
  { t with scopes := t.scopes.map Scope.bare, sites := [] }

@[simp] lemma size_bare (t : ScopeTree) : t.bare.size = t.size := by
  simp [size, bare]

lemma scope?_bare (t : ScopeTree) (i : Nat) : t.bare.scope? i = (t.scope? i).map Scope.bare := by
  simp [scope?, bare]

@[simp] lemma bare_put (t : ScopeTree) (i : Nat) (b : Binding) : (t.put i b).bare = t.bare := by
  have h : (t.scopes.modify i fun s => s.put b).map Scope.bare = t.scopes.map Scope.bare :=
    map_modify_of_eq (fun s => s.bare_put b) t.scopes i
  simp only [bare, put, h]

@[simp] lemma bare_addSite (t : ScopeTree) (name : String) (scope : Int) (operator : Operator)
    (position : Option Position) (order : Int) :
    (t.addSite name scope operator position order).bare = t.bare := rfl

/-- Two trees that are equal up to bindings have scopes at the same places, equal up to bindings. -/
lemma exists_scope?_of_bare_eq (h : t'.bare = t.bare) {i : Nat} {s : Scope}
    (hs : t.scope? i = some s) : ∃ s', t'.scope? i = some s' ∧ s'.bare = s.bare := by
  have hi := congrArg (fun u : ScopeTree => u.scope? i) h
  simpa [scope?_bare, hs] using hi

lemma scope?_eq_none_of_bare_eq (h : t'.bare = t.bare) {i : Nat} (hs : t.scope? i = none) :
    t'.scope? i = none := by
  have hi := congrArg (fun u : ScopeTree => u.scope? i) h
  simpa [scope?_bare, hs] using hi

lemma size_eq_of_bare_eq (h : t'.bare = t.bare) : t'.size = t.size := by
  rw [← size_bare t', h, size_bare]

lemma parentOf_bare (t : ScopeTree) (s : Scope) :
    t.bare.parentOf s.bare = (t.parentOf s).map Scope.bare := by
  cases hp : s.parent <;> simp [parentOf, hp, scope?_bare]

lemma chainFrom_bare (t : ScopeTree) (fuel : Nat) (s : Scope) :
    t.bare.chainFrom fuel s.bare = (t.chainFrom fuel s).map Scope.bare := by
  induction fuel generalizing s with
  | zero => rfl
  | succ fuel ih =>
    simp only [chainFrom, parentOf_bare, List.map_cons]
    cases t.parentOf s with
    | none => rfl
    | some p => simp [ih]

lemma chain_bare (t : ScopeTree) (s : Scope) :
    t.bare.chain s.bare = (t.chain s).map Scope.bare := by
  rw [chain, size_bare, chainFrom_bare, chain]

/-- The chain of a scope is the same in two trees that are equal up to bindings. -/
lemma map_bare_chain_eq (h : t'.bare = t.bare) {s s' : Scope} (hs : s'.bare = s.bare) :
    (t'.chain s').map Scope.bare = (t.chain s).map Scope.bare := by
  rw [← chain_bare, ← chain_bare, h, hs]

lemma descend_bare (t : ScopeTree) (fuel i : Nat) : t.bare.descend fuel i = t.descend fuel i := by
  induction fuel generalizing i with
  | zero => rfl
  | succ fuel ih =>
    simp only [descend, scope?_bare]
    cases t.scope? i with
    | none => rfl
    | some s =>
      have hf : t.bare.descend fuel = t.descend fuel := funext ih
      simp [hf]

lemma preorder_bare (t : ScopeTree) : t.bare.preorder = t.preorder := by
  rw [preorder, descend_bare, size_bare, preorder]

lemma preorder_eq_of_bare_eq (h : t'.bare = t.bare) : t'.preorder = t.preorder := by
  rw [← preorder_bare t', h, preorder_bare]

/-! ## Arenas -/

/-- Each scope knows its own place, and a parent comes before its children. -/
structure Arena (t : ScopeTree) : Prop where
  index_eq : ∀ {i : Nat} {s : Scope}, t.scope? i = some s → s.index = i
  parent_lt : ∀ {i p : Nat} {s : Scope}, t.scope? i = some s → s.parent = some p → p < i

namespace Arena

lemma of_bare_eq (ht : t.Arena) (h : t'.bare = t.bare) : t'.Arena where
  index_eq := by
    intro i s hs
    obtain ⟨s₀, hs₀, hb⟩ := exists_scope?_of_bare_eq h.symm hs
    rw [← Scope.index_eq_of_bare_eq hb, ht.index_eq hs₀]
  parent_lt := by
    intro i p s hs hp
    obtain ⟨s₀, hs₀, hb⟩ := exists_scope?_of_bare_eq h.symm hs
    exact ht.parent_lt hs₀ ((Scope.parent_eq_of_bare_eq hb).trans hp)

lemma put (ht : t.Arena) (i : Nat) (b : Binding) : (t.put i b).Arena :=
  ht.of_bare_eq (bare_put t i b)

end Arena

/-- The scopes after one more has been added: the new one stands last, and its parent lists it as a
child. -/
lemma scope?_addScope (t : ScopeTree) (kind : ScopeKind) (parent : Option Nat)
    (label : Option String) (position : Option Position) (h : ∀ p ∈ parent, p < t.size) (i : Nat) :
    (t.addScope kind parent label position).scope? i =
      if i = t.size then some { index := t.size, kind, parent, label, position }
      else (t.scope? i).map fun s =>
        if parent = some i then { s with children := s.children ++ [t.size] } else s := by
  have hlast : (t.scopes ++ [{ index := t.size, kind, parent, label, position }])[i]? =
      if i = t.size then some { index := t.size, kind, parent, label, position }
      else t.scopes[i]? := by
    rcases Nat.lt_trichotomy i t.size with hi | hi | hi
    · rw [if_neg (by omega), List.getElem?_append_left hi]
    · subst hi
      rw [if_pos rfl]
      exact List.getElem?_concat_length
    · rw [if_neg (by omega), List.getElem?_append_right (by simp only [size] at hi; omega),
        List.getElem?_eq_none (by simp only [size] at hi; simp; omega),
        List.getElem?_eq_none (by simp only [size] at hi; omega)]
  cases parent with
  | none => simpa [addScope, scope?] using hlast
  | some p =>
    have hp : p < t.size := h p rfl
    simp only [addScope, scope?, List.getElem?_modify, hlast]
    by_cases hi : i = t.size
    · simp [hi, show p ≠ t.size by omega]
    · by_cases hpi : p = i <;> simp [hi, hpi]

lemma Arena.addScope (ht : t.Arena) {kind : ScopeKind} {parent : Option Nat}
    {label : Option String} {position : Option Position} (h : ∀ p ∈ parent, p < t.size) :
    (t.addScope kind parent label position).Arena where
  index_eq := by
    intro i s hs
    rw [scope?_addScope t kind parent label position h] at hs
    split at hs
    · next hi => cases hs; exact hi.symm
    · obtain ⟨s₀, hs₀, rfl⟩ := Option.map_eq_some_iff.1 hs
      have hi := ht.index_eq hs₀
      split <;> exact hi
  parent_lt := by
    intro i p s hs hp
    rw [scope?_addScope t kind parent label position h] at hs
    split at hs
    · next hi =>
      cases hs
      exact hi ▸ h p hp
    · obtain ⟨s₀, hs₀, rfl⟩ := Option.map_eq_some_iff.1 hs
      split at hp <;> exact ht.parent_lt hs₀ hp

lemma size_eq_length (t : ScopeTree) : t.size = t.scopes.length := rfl

lemma lt_size_of_scope? {i : Nat} {s : Scope} (hs : t.scope? i = some s) : i < t.size :=
  (List.getElem?_eq_some_iff.1 hs).1

lemma exists_scope?_of_lt {i : Nat} (h : i < t.size) : ∃ s, t.scope? i = some s :=
  ⟨t.scopes[i], List.getElem?_eq_getElem h⟩

lemma mem_scopes_iff {s : Scope} : s ∈ t.scopes ↔ ∃ i, t.scope? i = some s :=
  List.mem_iff_getElem?

/-- The scope at the root is a module, and every other scope has a parent. -/
structure Rooted (t : ScopeTree) : Prop where
  kind_root : ∀ {s : Scope}, t.scope? rootIndex = some s → s.kind = .moduleBody ∧ s.parent = none
  parent_isSome : ∀ {i : Nat} {s : Scope}, t.scope? i = some s → i ≠ rootIndex →
    s.parent.isSome = true

namespace Rooted

lemma of_bare_eq (hr : t.Rooted) (h : t'.bare = t.bare) : t'.Rooted where
  kind_root := by
    intro s hs
    obtain ⟨s₀, hs₀, hb⟩ := exists_scope?_of_bare_eq h.symm hs
    rw [← Scope.kind_eq_of_bare_eq hb, ← Scope.parent_eq_of_bare_eq hb]
    exact hr.kind_root hs₀
  parent_isSome := by
    intro i s hs hi
    obtain ⟨s₀, hs₀, hb⟩ := exists_scope?_of_bare_eq h.symm hs
    rw [← Scope.parent_eq_of_bare_eq hb]
    exact hr.parent_isSome hs₀ hi

/-- A new scope is a module as the root, or has a parent. -/
lemma addScope (hr : t.Rooted) {kind : ScopeKind} {parent : Option Nat} {label : Option String}
    {position : Option Position} (h : ∀ p ∈ parent, p < t.size)
    (hnew : parent.isSome = true ∧ 0 < t.size ∨ parent = none ∧ t.size = 0 ∧ kind = .moduleBody) :
    (t.addScope kind parent label position).Rooted where
  kind_root := by
    intro s hs
    rw [scope?_addScope t kind parent label position h] at hs
    split at hs
    · next hi =>
      cases hs
      rcases hnew with ⟨-, hpos⟩ | ⟨hp, -, hk⟩
      · simp only [rootIndex] at hi
        omega
      · exact ⟨hk, hp⟩
    · obtain ⟨s₀, hs₀, rfl⟩ := Option.map_eq_some_iff.1 hs
      have hk := hr.kind_root hs₀
      split <;> exact hk
  parent_isSome := by
    intro i s hs hi
    rw [scope?_addScope t kind parent label position h] at hs
    split at hs
    · next hsize =>
      cases hs
      rcases hnew with ⟨hp, -⟩ | ⟨-, hsz, -⟩
      · exact hp
      · exact absurd (hsize.trans hsz) hi
    · obtain ⟨s₀, hs₀, rfl⟩ := Option.map_eq_some_iff.1 hs
      have hp := hr.parent_isSome hs₀ hi
      split <;> exact hp

end Rooted

/-! ## The chain of a scope in an arena -/

namespace Arena

/-- No chain is longer than the place where it begins. -/
lemma chainFrom_eq (ht : t.Arena) {i : Nat} {s : Scope} (hs : t.scope? i = some s) {fuel : Nat}
    (hf : i ≤ fuel) : t.chainFrom fuel s = t.chainFrom i s := by
  -- one step of the walk leads to an earlier place
  induction i using Nat.strongRecOn generalizing s fuel with
  | ind i ih =>
    cases hp : t.parentOf s with
    | none =>
      cases fuel <;> cases i <;> simp [chainFrom, hp]
    | some q =>
      obtain ⟨p, hsp, hq⟩ := Option.bind_eq_some_iff.1 hp
      have hpi : p < i := ht.parent_lt hs hsp
      obtain ⟨i, rfl⟩ : ∃ j, i = j + 1 := ⟨i - 1, by omega⟩
      obtain ⟨fuel, rfl⟩ : ∃ f, fuel = f + 1 := ⟨fuel - 1, by omega⟩
      simp only [chainFrom, hp]
      rw [ih p hpi hq (by omega : p ≤ fuel), ih p hpi hq (by omega : p ≤ i)]

/-- The chain of a scope continues with the chain of its parent. -/
lemma chain_eq_cons (ht : t.Arena) {i : Nat} {s : Scope} (hs : t.scope? i = some s) :
    t.chain s = s :: match t.parentOf s with
      | none => []
      | some p => t.chain p := by
  have hi := lt_size_of_scope? hs
  obtain ⟨n, hn⟩ : ∃ n, t.size = n + 1 := ⟨t.size - 1, by omega⟩
  rw [chain, hn]
  simp only [chainFrom, List.cons.injEq, true_and]
  cases hp : t.parentOf s with
  | none => rfl
  | some q =>
    obtain ⟨p, hsp, hq⟩ := Option.bind_eq_some_iff.1 hp
    have hpi : p < i := ht.parent_lt hs hsp
    show t.chainFrom n q = t.chainFrom t.size q
    rw [ht.chainFrom_eq hq (by omega : p ≤ n), ht.chainFrom_eq hq (by omega : p ≤ t.size)]

/-- The scopes of a chain stand in the tree, at or before the place where the chain begins. -/
lemma scope?_of_mem_chain (ht : t.Arena) {i : Nat} {s c : Scope} (hs : t.scope? i = some s)
    (hc : c ∈ t.chain s) : t.scope? c.index = some c ∧ c.index ≤ i := by
  induction i using Nat.strongRecOn generalizing s with
  | ind i ih =>
    rw [ht.chain_eq_cons hs] at hc
    rcases List.mem_cons.1 hc with rfl | hc
    · rw [ht.index_eq hs]
      exact ⟨hs, Nat.le_refl i⟩
    · cases hp : t.parentOf s with
      | none => simp [hp] at hc
      | some q =>
        simp only [hp] at hc
        obtain ⟨p, hsp, hq⟩ := Option.bind_eq_some_iff.1 hp
        have hpi : p < i := ht.parent_lt hs hsp
        obtain ⟨h₁, h₂⟩ := ih p hpi hq hc
        exact ⟨h₁, by omega⟩

/-- The chain of a scope contains the chains of the scopes on it. -/
lemma mem_chain_trans (ht : t.Arena) {i : Nat} {s c d : Scope} (hs : t.scope? i = some s)
    (hc : c ∈ t.chain s) (hd : d ∈ t.chain c) : d ∈ t.chain s := by
  induction i using Nat.strongRecOn generalizing s with
  | ind i ih =>
    rw [ht.chain_eq_cons hs] at hc ⊢
    rcases List.mem_cons.1 hc with rfl | hc
    · rwa [← ht.chain_eq_cons hs]
    · cases hp : t.parentOf s with
      | none => simp [hp] at hc
      | some q =>
        simp only [hp] at hc ⊢
        obtain ⟨p, hsp, hq⟩ := Option.bind_eq_some_iff.1 hp
        exact List.mem_cons_of_mem _ (ih p (ht.parent_lt hs hsp) hq hc)

end Arena

/-! ## Frames -/

end ScopeTree

/-- The place and the kind of a scope. -/
structure Frame where
  /-- The place of the scope in its tree. -/
  index : Nat
  /-- The kind of the scope. -/
  kind : ScopeKind
deriving DecidableEq, Repr

/-- The place and the kind of a scope. -/
def Scope.frame (s : Scope) : Frame :=
  ⟨s.index, s.kind⟩

@[simp] lemma Scope.index_frame (s : Scope) : s.frame.index = s.index := rfl

@[simp] lemma Scope.kind_frame (s : Scope) : s.frame.kind = s.kind := rfl

@[simp] lemma Scope.frame_bare (s : Scope) : s.bare.frame = s.frame := rfl

namespace ScopeTree

variable {t t' : ScopeTree}

/-- The frames of the scope at a place and of the scopes around it, innermost first. -/
def frames (t : ScopeTree) (i : Option Nat) : List Frame :=
  match i.bind t.scope? with
  | none => []
  | some s => (t.chain s).map Scope.frame

@[simp] lemma frames_none (t : ScopeTree) : t.frames none = [] := rfl

lemma frames_of_scope? {i : Nat} {s : Scope} (hs : t.scope? i = some s) :
    t.frames (some i) = (t.chain s).map Scope.frame := by
  simp [frames, hs]

lemma frames_of_size_le {i : Nat} (h : t.size ≤ i) : t.frames (some i) = [] := by
  have hs : t.scope? i = none := List.getElem?_eq_none h
  simp [frames, hs]

lemma frames_eq_of_bare_eq (h : t'.bare = t.bare) (i : Option Nat) : t'.frames i = t.frames i := by
  cases i with
  | none => rfl
  | some i =>
    cases hs : t.scope? i with
    | none => simp [frames, hs, scope?_eq_none_of_bare_eq h hs]
    | some s =>
      obtain ⟨s', hs', hb⟩ := exists_scope?_of_bare_eq h hs
      have hc := congrArg (List.map Scope.frame) (map_bare_chain_eq h hb)
      simpa [frames_of_scope? hs, frames_of_scope? hs', Function.comp_def] using hc

namespace Arena

/-- The frames from a place outward are that of the scope there and those from its parent. -/
lemma frames_eq_cons (ht : t.Arena) {i : Nat} {s : Scope} (hs : t.scope? i = some s) :
    t.frames (some i) = s.frame :: t.frames s.parent := by
  rw [frames_of_scope? hs, ht.chain_eq_cons hs, List.map_cons]
  cases hp : s.parent with
  | none => simp [parentOf, hp]
  | some p => cases hq : t.scope? p <;> simp [parentOf, frames, hp, hq]

/-- The frames of a place are those of any other arena that agrees on places, kinds and parents. -/
lemma frames_congr (ht : t.Arena) (ht' : t'.Arena)
    (h : ∀ {i : Nat} {s : Scope}, t.scope? i = some s →
      ∃ s', t'.scope? i = some s' ∧ s'.frame = s.frame ∧ s'.parent = s.parent)
    {i : Nat} (hi : i < t.size) : t'.frames (some i) = t.frames (some i) := by
  induction i using Nat.strongRecOn with
  | ind i ih =>
    obtain ⟨s, hs⟩ := exists_scope?_of_lt hi
    obtain ⟨s', hs', hf, hp⟩ := h hs
    rw [ht.frames_eq_cons hs, ht'.frames_eq_cons hs', hf, hp]
    cases hq : s.parent with
    | none => rfl
    | some p =>
      have hpi := ht.parent_lt hs hq
      rw [ih p hpi (by omega)]

/-- A new scope does not change the frames of the others. -/
lemma frames_addScope_of_lt (ht : t.Arena) {kind : ScopeKind} {parent : Option Nat}
    {label : Option String} {position : Option Position} (h : ∀ p ∈ parent, p < t.size) {i : Nat}
    (hi : i < t.size) :
    (t.addScope kind parent label position).frames (some i) = t.frames (some i) := by
  refine ht.frames_congr (ht.addScope h) ?_ hi
  intro j s hs
  have hj := lt_size_of_scope? hs
  rw [scope?_addScope t kind parent label position h, if_neg (by omega), hs]
  refine ⟨_, rfl, ?_, ?_⟩ <;> (split <;> rfl)

/-- The frames of a new scope are its own and those of its parent. -/
lemma frames_addScope_size (ht : t.Arena) {kind : ScopeKind} {parent : Option Nat}
    {label : Option String} {position : Option Position} (h : ∀ p ∈ parent, p < t.size) :
    (t.addScope kind parent label position).frames (some t.size) =
      ⟨t.size, kind⟩ :: t.frames parent := by
  have hs : (t.addScope kind parent label position).scope? t.size =
      some { index := t.size, kind, parent, label, position } := by
    rw [scope?_addScope t kind parent label position h, if_pos rfl]
  rw [(ht.addScope h).frames_eq_cons hs]
  cases parent with
  | none => rfl
  | some p => rw [ht.frames_addScope_of_lt h (h p rfl)]; rfl

/-- What is left of the way outward behind its first scopes is again a way outward: it begins at the
first scope that is not dropped. -/
lemma dropWhile_frames (ht : t.Arena) (p : Frame → Bool) (i : Option Nat) :
    (t.frames i).dropWhile p = t.frames (((t.frames i).find? fun f => !p f).map Frame.index) := by
  cases i with
  | none => rfl
  | some i =>
    induction i using Nat.strongRecOn with
    | ind i ih =>
      cases hs : t.scope? i with
      | none => simp [frames, hs]
      | some s =>
        have hi : s.frame.index = i := ht.index_eq hs
        rw [ht.frames_eq_cons hs]
        cases hp : p s.frame with
        | false =>
          rw [List.dropWhile_cons_of_neg (by simp [hp]), List.find?_cons_of_pos (by simp [hp]),
            Option.map_some, hi, ht.frames_eq_cons hs]
        | true =>
          rw [List.dropWhile_cons_of_pos hp, List.find?_cons_of_neg (by simp [hp])]
          cases hq : s.parent with
          | none => rfl
          | some q => exact ih q (ht.parent_lt hs hq)

/-- A frame of a chain is that of a scope of the tree. -/
lemma exists_scope?_of_mem_frames (ht : t.Arena) {i : Option Nat} {f : Frame}
    (hf : f ∈ t.frames i) : ∃ s, t.scope? f.index = some s ∧ s.frame = f := by
  cases i with
  | none => simp at hf
  | some i =>
    cases hs : t.scope? i with
    | none => simp [frames, hs] at hf
    | some s =>
      rw [frames_of_scope? hs] at hf
      obtain ⟨c, hc, rfl⟩ := List.mem_map.1 hf
      exact ⟨c, (ht.scope?_of_mem_chain hs hc).1, rfl⟩

/-- The frames of a chain are in the tree, at or before the place where the chain begins. -/
lemma index_le_of_mem_frames (ht : t.Arena) {i : Nat} {f : Frame} (hf : f ∈ t.frames (some i)) :
    f.index ≤ i ∧ f.index < t.size := by
  cases hs : t.scope? i with
  | none => simp [frames, hs] at hf
  | some s =>
    rw [frames_of_scope? hs] at hf
    obtain ⟨c, hc, rfl⟩ := List.mem_map.1 hf
    obtain ⟨h₁, h₂⟩ := ht.scope?_of_mem_chain hs hc
    exact ⟨h₂, lt_size_of_scope? h₁⟩

end Arena

/-- The places of a scope and of the scopes around it, innermost first. -/
def places (t : ScopeTree) (i : Option Nat) : List Nat :=
  (t.frames i).map Frame.index

@[simp] lemma places_none (t : ScopeTree) : t.places none = [] := rfl

namespace Arena

lemma places_eq_cons (ht : t.Arena) {i : Nat} {s : Scope} (hs : t.scope? i = some s) :
    t.places (some i) = i :: t.places s.parent := by
  simp [places, ht.frames_eq_cons hs, ht.index_eq hs]

/-- The way outward is known from the place where it begins. -/
lemma frames_head?_places (ht : t.Arena) (i : Option Nat) :
    t.frames (t.places i).head? = t.frames i := by
  cases i with
  | none => rfl
  | some i =>
    cases hs : t.scope? i with
    | none => simp [places, frames, hs]
    | some s => rw [ht.places_eq_cons hs, List.head?_cons]

lemma lt_size_of_mem_places (ht : t.Arena) {i : Option Nat} {j : Nat} (hj : j ∈ t.places i) :
    j < t.size := by
  obtain ⟨f, hf, rfl⟩ := List.mem_map.1 hj
  cases i with
  | none => simp at hf
  | some i => exact (ht.index_le_of_mem_frames hf).2

lemma le_of_mem_places (ht : t.Arena) {i j : Nat} (hj : j ∈ t.places (some i)) : j ≤ i := by
  obtain ⟨f, hf, rfl⟩ := List.mem_map.1 hj
  exact (ht.index_le_of_mem_frames hf).1

/-- Each place on the way outward is followed by that of its parent. -/
lemma isChain_places (ht : t.Arena) (i : Option Nat) :
    (t.places i).IsChain fun c p => ∃ s, t.scope? c = some s ∧ s.parent = some p := by
  cases i with
  | none => exact List.isChain_nil
  | some i =>
    induction i using Nat.strongRecOn with
    | ind i ih =>
      cases hs : t.scope? i with
      | none => simp [places, frames, hs]
      | some s =>
        rw [ht.places_eq_cons hs]
        cases hp : s.parent with
        | none => exact List.isChain_singleton i
        | some p =>
          refine (ih p (ht.parent_lt hs hp)).cons ?_
          intro q hq
          cases hsp : t.scope? p with
          | none => simp [places, frames, hsp] at hq
          | some sp =>
            rw [ht.places_eq_cons hsp, List.head?_cons, Option.mem_some_iff] at hq
            exact ⟨s, hs, hq ▸ hp⟩

/-- The parent of a scope on the way outward is on that way too. -/
lemma parent_mem_places (ht : t.Arena) {p i j : Nat} {s : Scope} (hj : j ∈ t.places (some p))
    (hs : t.scope? j = some s) (hi : s.parent = some i) : i ∈ t.places (some p) := by
  induction p using Nat.strongRecOn with
  | ind p ih =>
    cases hp : t.scope? p with
    | none => simp [places, frames, hp] at hj
    | some sp =>
      rw [ht.places_eq_cons hp] at hj ⊢
      rcases List.mem_cons.1 hj with rfl | hj
      · obtain rfl : sp = s := Option.some.inj (hp.symm.trans hs)
        have hip := ht.parent_lt hs hi
        obtain ⟨si, hsi⟩ := exists_scope?_of_lt (t := t) (i := i)
          (by have := lt_size_of_scope? hs; omega)
        rw [hi, ht.places_eq_cons hsi]
        simp
      · cases hq : sp.parent with
        | none => simp [hq] at hj
        | some q =>
          rw [hq] at hj
          exact List.mem_cons_of_mem _ (ih q (ht.parent_lt hp hq) hj)

/-- A scope on the way outward, other than the one where the way begins, is entered from one of
its children. -/
lemma exists_child_of_mem_places (ht : t.Arena) {p i : Nat} (hi : i ∈ t.places (some p))
    (hne : i ≠ p) :
    ∃ j s, j ∈ t.places (some p) ∧ t.scope? j = some s ∧ s.parent = some i := by
  induction p using Nat.strongRecOn with
  | ind p ih =>
    cases hp : t.scope? p with
    | none => simp [places, frames, hp] at hi
    | some sp =>
      rw [ht.places_eq_cons hp] at hi ⊢
      rcases List.mem_cons.1 hi with rfl | hi
      · exact absurd rfl hne
      · cases hq : sp.parent with
        | none => simp [hq] at hi
        | some q =>
          rw [hq] at hi
          by_cases hiq : i = q
          · subst hiq
            exact ⟨p, sp, by simp, hp, hq⟩
          · obtain ⟨j, s, hj, hs, hsp⟩ := ih q (ht.parent_lt hp hq) hi hiq
            exact ⟨j, s, List.mem_cons_of_mem _ hj, hs, hsp⟩

end Arena

/-- The way outward ends at the root. -/
lemma Rooted.root_mem_frames (hr : t.Rooted) (ht : t.Arena) {i : Nat} (hi : i < t.size) :
    ⟨rootIndex, .moduleBody⟩ ∈ t.frames (some i) := by
  induction i using Nat.strongRecOn with
  | ind i ih =>
    obtain ⟨s, hs⟩ := exists_scope?_of_lt hi
    rw [ht.frames_eq_cons hs]
    by_cases h0 : i = rootIndex
    · subst h0
      have hf : s.frame = ⟨rootIndex, .moduleBody⟩ := by
        rw [Scope.frame, ht.index_eq hs, (hr.kind_root hs).1]
      simp [hf]
    · obtain ⟨p, hp⟩ := Option.isSome_iff_exists.1 (hr.parent_isSome hs h0)
      have hpi := ht.parent_lt hs hp
      rw [hp]
      exact List.mem_cons_of_mem _ (ih p hpi (by omega))

/-- The last place on the way outward is that of the root. -/
lemma Rooted.getLast?_places (hr : t.Rooted) (ht : t.Arena) {i : Nat} (hi : i < t.size) :
    (t.places (some i)).getLast? = some rootIndex := by
  induction i using Nat.strongRecOn with
  | ind i ih =>
    obtain ⟨s, hs⟩ := exists_scope?_of_lt hi
    rw [ht.places_eq_cons hs]
    by_cases h0 : i = rootIndex
    · subst h0
      rw [(hr.kind_root hs).2]
      rfl
    · obtain ⟨p, hp⟩ := Option.isSome_iff_exists.1 (hr.parent_isSome hs h0)
      have hpi := ht.parent_lt hs hp
      rw [hp, List.getLast?_cons, ih p hpi (by omega), Option.getD_some]

lemma Rooted.root_mem_places (hr : t.Rooted) (ht : t.Arena) {i : Nat} (hi : i < t.size) :
    rootIndex ∈ t.places (some i) :=
  List.mem_map.2 ⟨_, hr.root_mem_frames ht hi, rfl⟩

/-! ### What is found on a chain, in frames -/

lemma map_frame_nearestBlock (t : ScopeTree) (s : Scope) :
    (t.nearestBlock s).map Scope.frame =
      ((t.chain s).map Scope.frame).find? fun f => f.kind.isBlock := by
  rw [List.find?_map]
  rfl

lemma map_frame_transparentPath (t : ScopeTree) (s : Scope) :
    (t.transparentPath s).map Scope.frame =
      ((t.chain s).map Scope.frame).takeWhile fun f => f.kind.isTransparent := by
  rw [List.takeWhile_map]
  rfl

lemma map_frame_enclosingFunctions (t : ScopeTree) (s : Scope) :
    (t.enclosingFunctions s).map Scope.frame =
      ((t.chain s).map Scope.frame).tail.filter fun f => f.kind = .functionBody := by
  rw [← List.map_tail, List.filter_map]
  rfl

/-- The functions around a scope stand at the same places in two trees that are equal up to
bindings. -/
lemma map_index_enclosingFunctions_eq (h : t'.bare = t.bare) {s s' : Scope}
    (hs : s'.bare = s.bare) :
    (t'.enclosingFunctions s').map Scope.index = (t.enclosingFunctions s).map Scope.index := by
  have hchain : (t'.chain s').map Scope.frame = (t.chain s).map Scope.frame := by
    have hbare := congrArg (List.map Scope.frame) (map_bare_chain_eq h hs)
    simpa [Function.comp_def] using hbare
  have hframes : (t'.enclosingFunctions s').map Scope.frame =
      (t.enclosingFunctions s).map Scope.frame := by
    rw [map_frame_enclosingFunctions, map_frame_enclosingFunctions, hchain]
  have hindex := congrArg (List.map Frame.index) hframes
  rwa [List.map_map, List.map_map] at hindex

end ScopeTree

end TargetScope
