import TargetScope.Proofs.Arena

/-!
# The order of a walk

A walk that visits each scope before its children, and the children in their order, meets the
scopes of a tree in the order of their places, provided that scopes are only ever added to a scope
that is still open.  The reason is that each scope then covers a stretch of places: it begins with
the scope itself, and the stretches of its children fill the rest, one directly behind the other.

`ScopeTree.Nested` states this for a function that gives the end of each stretch; it is kept when
a scope is added behind open scopes (`Nested.addScope`), and it makes the walk run through all
places in order (`Nested.preorder_eq_range`).
-/

namespace TargetScope

/-- The stretches of the places `cs` fill the places from `a` up to `b`, one directly behind the
other, if the stretch of `c` ends before `stop c`. -/
def Tiles (stop : Nat → Nat) : Nat → List Nat → Nat → Prop
  | a, [], b => a = b
  | a, c :: cs, b => c = a ∧ c < stop c ∧ Tiles stop (stop c) cs b

/-- The places of the stretch that begins with `i`. -/
def stretch (stop : Nat → Nat) (i : Nat) : List Nat :=
  List.range' i (stop i - i)

namespace Tiles

variable {stop stop' : Nat → Nat} {a b : Nat} {cs : List Nat}

lemma le (h : Tiles stop a cs b) : a ≤ b := by
  induction cs generalizing a with
  | nil => exact Nat.le_of_eq h
  | cons c cs ih =>
    obtain ⟨rfl, hc, h⟩ := h
    have := ih h
    omega

lemma bounds_of_mem (h : Tiles stop a cs b) {c : Nat} (hc : c ∈ cs) :
    a ≤ c ∧ c < stop c ∧ stop c ≤ b := by
  induction cs generalizing a with
  | nil => simp at hc
  | cons d cs ih =>
    obtain ⟨rfl, hd, h⟩ := h
    rcases List.mem_cons.1 hc with rfl | hc
    · exact ⟨Nat.le_refl c, hd, h.le⟩
    · obtain ⟨h₁, h₂, h₃⟩ := ih h hc
      exact ⟨by omega, h₂, h₃⟩

/-- The stretches hold the places from the beginning to the end, in their order. -/
lemma flatMap_stretch (h : Tiles stop a cs b) :
    cs.flatMap (stretch stop) = List.range' a (b - a) := by
  induction cs generalizing a with
  | nil =>
    have h : a = b := h
    simp [h]
  | cons c cs ih =>
    obtain ⟨rfl, hc, h⟩ := h
    have hle := h.le
    have hsplit : b - c = (stop c - c) + (b - stop c) := by omega
    have hadd : stop c = c + 1 * (stop c - c) := by omega
    rw [List.flatMap_cons, ih h, stretch, hsplit, ← List.range'_append, ← hadd]

lemma congr (h : Tiles stop a cs b) (heq : ∀ c ∈ cs, stop' c = stop c) : Tiles stop' a cs b := by
  induction cs generalizing a with
  | nil => exact h
  | cons c cs ih =>
    obtain ⟨rfl, hc, h⟩ := h
    have hs := heq c (by simp)
    exact ⟨rfl, by omega, by rw [hs]; exact ih h fun d hd => heq d (by simp [hd])⟩

/-- The stretches begin one behind the other. -/
lemma pairwise_lt (h : Tiles stop a cs b) : cs.Pairwise (· < ·) := by
  induction cs generalizing a with
  | nil => exact List.Pairwise.nil
  | cons c cs ih =>
    obtain ⟨rfl, hc, h⟩ := h
    refine List.Pairwise.cons ?_ (ih h)
    intro d hd
    have := (h.bounds_of_mem hd).1
    omega

/-- A stretch that reaches the end is the last one. -/
lemma getLast?_eq (h : Tiles stop a cs b) {d : Nat} (hd : d ∈ cs) (hdb : stop d = b) :
    cs.getLast? = some d := by
  induction cs generalizing a with
  | nil => simp at hd
  | cons c cs ih =>
    obtain ⟨rfl, hc, h⟩ := h
    rcases List.mem_cons.1 hd with rfl | hd
    · cases cs with
      | nil => rfl
      | cons e es =>
        -- a further stretch would begin and end at the end
        exfalso
        obtain ⟨rfl, he, h⟩ := h
        have := h.le
        omega
    · rw [List.getLast?_cons, ih h hd, Option.getD_some]

/-- One more stretch at the end. -/
lemma concat (h : Tiles stop a cs b) (hb : b < stop b) : Tiles stop a (cs ++ [b]) (stop b) := by
  induction cs generalizing a with
  | nil => obtain rfl := h; exact ⟨rfl, hb, rfl⟩
  | cons c cs ih =>
    obtain ⟨rfl, hc, h⟩ := h
    exact ⟨rfl, hc, ih h⟩

/-- If one of the stretches reaches the end, then it is the last, and it may become longer. -/
lemma extend {b' d : Nat} (h : Tiles stop a cs b) (hd : d ∈ cs) (hdb : stop d = b)
    (hd' : stop' d = b') (hb : b ≤ b') (heq : ∀ c ∈ cs, stop c ≠ b → stop' c = stop c) :
    Tiles stop' a cs b' := by
  induction cs generalizing a with
  | nil => simp at hd
  | cons c cs ih =>
    obtain ⟨rfl, hc, h⟩ := h
    by_cases hcd : c = d
    · subst hcd
      have hcs : cs = [] := by
        cases cs with
        | nil => rfl
        | cons e es =>
          obtain ⟨rfl, he, h⟩ := h
          have := h.le
          omega
      subst hcs
      exact ⟨rfl, by omega, hd'⟩
    · have hds : d ∈ cs := by simpa [Ne.symm hcd] using hd
      obtain ⟨h₁, h₂, -⟩ := h.bounds_of_mem hds
      have hs := heq c (by simp) (by omega)
      exact ⟨rfl, by omega, by rw [hs]; exact ih h hds fun e he => heq e (by simp [he])⟩

end Tiles

namespace ScopeTree

variable {t : ScopeTree} {stop : Nat → Nat}

/-- The children of a scope are the scopes of which it is the parent, and each scope covers the
stretch of places up to `stop`, which the stretches of its children fill behind it. -/
structure Nested (t : ScopeTree) (stop : Nat → Nat) : Prop where
  mem_children_iff : ∀ {i : Nat} {s : Scope}, t.scope? i = some s → ∀ c : Nat,
    c ∈ s.children ↔ ∃ sc, t.scope? c = some sc ∧ sc.parent = some i
  tiles : ∀ {i : Nat} {s : Scope}, t.scope? i = some s → Tiles stop (i + 1) s.children (stop i)
  stop_le : ∀ {i : Nat}, i < t.size → stop i ≤ t.size

namespace Nested

lemma of_bare_eq {t' : ScopeTree} (hn : t.Nested stop) (h : t'.bare = t.bare) :
    t'.Nested stop where
  mem_children_iff := by
    intro i s hs c
    obtain ⟨s₀, hs₀, hb⟩ := exists_scope?_of_bare_eq h.symm hs
    have hc := hn.mem_children_iff hs₀ c
    rw [Scope.children_eq_of_bare_eq hb] at hc
    rw [hc]
    constructor
    · rintro ⟨sc, hsc, hp⟩
      obtain ⟨sc', hsc', hb'⟩ := exists_scope?_of_bare_eq h hsc
      exact ⟨sc', hsc', (Scope.parent_eq_of_bare_eq hb').trans hp⟩
    · rintro ⟨sc, hsc, hp⟩
      obtain ⟨sc', hsc', hb'⟩ := exists_scope?_of_bare_eq h.symm hsc
      exact ⟨sc', hsc', (Scope.parent_eq_of_bare_eq hb').trans hp⟩
  tiles := by
    intro i s hs
    obtain ⟨s₀, hs₀, hb⟩ := exists_scope?_of_bare_eq h.symm hs
    have ht := hn.tiles hs₀
    rwa [Scope.children_eq_of_bare_eq hb] at ht
  stop_le := by
    intro i hi
    rw [size_eq_of_bare_eq h] at hi ⊢
    exact hn.stop_le hi

lemma lt_stop (hn : t.Nested stop) {i : Nat} (hi : i < t.size) : i < stop i := by
  obtain ⟨s, hs⟩ := exists_scope?_of_lt hi
  have := (hn.tiles hs).le
  omega

/-- A stretch holds the place with which it begins, and then the stretches of the children. -/
lemma stretch_eq_cons (hn : t.Nested stop) {i : Nat} {s : Scope} (hs : t.scope? i = some s) :
    stretch stop i = i :: s.children.flatMap (stretch stop) := by
  have htiles := hn.tiles hs
  have hle := htiles.le
  have hhead : stop i - i = (stop i - (i + 1)) + 1 := by omega
  rw [htiles.flatMap_stretch, stretch, hhead, List.range'_succ]

/-- The walk from a place runs through the stretch of the place. -/
lemma descend_eq_stretch (hn : t.Nested stop) {fuel i : Nat} (hi : i < t.size)
    (hf : stop i - i ≤ fuel) : t.descend fuel i = stretch stop i := by
  induction fuel generalizing i with
  | zero =>
    have := hn.lt_stop hi
    omega
  | succ fuel ih =>
    obtain ⟨s, hs⟩ := exists_scope?_of_lt hi
    have hchildren : ∀ c ∈ s.children, t.descend fuel c = stretch stop c := by
      intro c hc
      obtain ⟨sc, hsc, -⟩ := (hn.mem_children_iff hs c).1 hc
      obtain ⟨hbegin, -, hend⟩ := (hn.tiles hs).bounds_of_mem hc
      exact ih (lt_size_of_scope? hsc) (by omega)
    rw [hn.stretch_eq_cons hs, ← List.flatMap_congr hchildren]
    simp only [descend, hs]

/-- If the root covers the whole tree, then the walk meets the scopes in the order of their
places. -/
lemma preorder_eq_range (hn : t.Nested stop) (hroot : 0 < t.size → stop rootIndex = t.size) :
    t.preorder = List.range t.size := by
  rcases Nat.eq_zero_or_pos t.size with h0 | h0
  · simp [preorder, descend, h0]
  · have hst := hroot h0
    have hi : rootIndex < t.size := h0
    have hr : rootIndex = 0 := rfl
    rw [preorder, hn.descend_eq_stretch hi (by omega), stretch, hst, List.range_eq_range', hr,
      Nat.sub_zero]

/-- The end of each stretch after a scope has been added behind the open scopes `places`. -/
def stopAfter (stop : Nat → Nat) (size : Nat) (places : List Nat) (i : Nat) : Nat :=
  if i = size ∨ i ∈ places then size + 1 else stop i

section AddScope

variable {kind : ScopeKind} {parent : Option Nat} {label : Option String}
  {position : Option Position}

/-- The list of children keeps up with the parents when a scope is added. -/
lemma mem_children_addScope (hn : t.Nested stop) (ht : t.Arena) (h : ∀ p ∈ parent, p < t.size)
    {i : Nat} {s : Scope} (hs : (t.addScope kind parent label position).scope? i = some s)
    (c : Nat) :
    c ∈ s.children ↔
      ∃ sc, (t.addScope kind parent label position).scope? c = some sc ∧ sc.parent = some i := by
  rw [scope?_addScope t kind parent label position h] at hs
  split at hs
  · next hi =>
    cases hs
    simp only [List.not_mem_nil, false_iff, not_exists, not_and]
    intro sc hsc hp
    have h₁ := (ht.addScope h).parent_lt hsc hp
    have h₂ := lt_size_of_scope? hsc
    rw [size_addScope] at h₂
    omega
  · next hi =>
    obtain ⟨s₀, hs₀, rfl⟩ := Option.map_eq_some_iff.1 hs
    have hc := hn.mem_children_iff hs₀ c
    rw [scope?_addScope t kind parent label position h]
    by_cases hcn : c = t.size
    · subst hcn
      have hno : t.size ∉ s₀.children := by
        rw [hc]
        rintro ⟨sc, hsc, -⟩
        exact absurd (lt_size_of_scope? hsc) (Nat.lt_irrefl _)
      by_cases hpi : parent = some i <;> simp [hpi, hno]
    · have hsame : (∃ sc, t.scope? c = some sc ∧ sc.parent = some i) ↔
          ∃ sc, (t.scope? c).map (fun s => if parent = some c then
            { s with children := s.children ++ [t.size] } else s) = some sc ∧
            sc.parent = some i := by
        cases t.scope? c with
        | none => simp
        | some sc => by_cases hpc : parent = some c <;> simp [hpc]
      rw [if_neg hcn, ← hsame, ← hc]
      by_cases hpi : parent = some i <;> simp [hpi, hcn]

/-- The stretches of the children of an old scope, after a scope has been added. -/
lemma tiles_addScope (hn : t.Nested stop) (ht : t.Arena)
    (hopen : ∀ i ∈ t.places parent, stop i = t.size) {i : Nat} {s : Scope}
    (hs : t.scope? i = some s) :
    Tiles (stopAfter stop t.size (t.places parent)) (i + 1)
      (if parent = some i then s.children ++ [t.size] else s.children)
      (stopAfter stop t.size (t.places parent) i) := by
  have hi := lt_size_of_scope? hs
  have htiles := hn.tiles hs
  have hclosed : ∀ c ∈ s.children, c ∉ t.places parent →
      stopAfter stop t.size (t.places parent) c = stop c := by
    intro c hc hcp
    obtain ⟨sc, hsc, -⟩ := (hn.mem_children_iff hs c).1 hc
    have := lt_size_of_scope? hsc
    rw [stopAfter, if_neg (by rintro (h | h); exacts [by omega, hcp h])]
  have hnew : stopAfter stop t.size (t.places parent) t.size = t.size + 1 := if_pos (Or.inl rfl)
  by_cases hip : i ∈ t.places parent
  · have hstop := hopen i hip
    rw [hstop] at htiles
    rw [show stopAfter stop t.size (t.places parent) i = t.size + 1 from if_pos (Or.inr hip)]
    obtain ⟨p, rfl⟩ : ∃ p, parent = some p := by
      cases parent with
      | none => simp at hip
      | some p => exact ⟨p, rfl⟩
    by_cases hpi : p = i
    · -- the new scope is a child of this one: its stretch comes last
      subst hpi
      rw [if_pos rfl, ← hnew]
      refine (htiles.congr fun c hc => hclosed c hc ?_).concat (by omega)
      intro hcp
      obtain ⟨sc, hsc, hp⟩ := (hn.mem_children_iff hs c).1 hc
      have h₁ := ht.parent_lt hsc hp
      have h₂ := ht.le_of_mem_places hcp
      omega
    · -- the new scope stands inside a child: the stretch of that child becomes longer
      rw [if_neg (by simpa using hpi)]
      obtain ⟨j, sj, hj, hsj, hsp⟩ := ht.exists_child_of_mem_places hip (Ne.symm hpi)
      have hjc := (hn.mem_children_iff hs j).2 ⟨sj, hsj, hsp⟩
      refine htiles.extend hjc (hopen j hj) (if_pos (Or.inr hj)) (Nat.le_succ _) ?_
      intro c hc hcs
      exact hclosed c hc fun hcp => hcs (hopen c hcp)
  · have hpi : parent ≠ some i := by
      rintro rfl
      rw [ht.places_eq_cons hs] at hip
      simp at hip
    rw [if_neg hpi, show stopAfter stop t.size (t.places parent) i = stop i from
      if_neg (by rintro (h | h); exacts [by omega, hip h])]
    refine htiles.congr fun c hc => hclosed c hc fun hcp => hip ?_
    obtain ⟨sc, hsc, hp⟩ := (hn.mem_children_iff hs c).1 hc
    obtain ⟨p, rfl⟩ : ∃ p, parent = some p := by
      cases parent with
      | none => simp at hcp
      | some p => exact ⟨p, rfl⟩
    exact ht.parent_mem_places hcp hsc hp

/-- A scope may be added behind open scopes: those whose stretches reach the end of the tree. -/
lemma addScope (hn : t.Nested stop) (ht : t.Arena) (h : ∀ p ∈ parent, p < t.size)
    (hopen : ∀ i ∈ t.places parent, stop i = t.size) :
    (t.addScope kind parent label position).Nested (stopAfter stop t.size (t.places parent)) where
  mem_children_iff := fun hs c => hn.mem_children_addScope ht h hs c
  tiles := by
    intro i s hs
    rw [scope?_addScope t kind parent label position h] at hs
    split at hs
    · next hi =>
      cases hs
      rw [hi]
      exact (if_pos (Or.inl rfl)).symm
    · next hi =>
      obtain ⟨s₀, hs₀, rfl⟩ := Option.map_eq_some_iff.1 hs
      have htiles := hn.tiles_addScope ht hopen hs₀
      by_cases hpi : parent = some i
      · rwa [if_pos hpi] at htiles ⊢
      · rwa [if_neg hpi] at htiles ⊢
  stop_le := by
    intro i hi
    rw [size_addScope] at hi ⊢
    rw [stopAfter]
    split
    · exact Nat.le_refl _
    · next hip =>
      have := hn.stop_le (i := i) (by omega)
      omega

end AddScope

end Nested

end ScopeTree

end TargetScope
