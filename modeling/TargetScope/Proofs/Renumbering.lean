import Mathlib.Logic.Function.Basic
import TargetScope.Proofs.Outcomes

/-!
# Renumbered histories

The places of scopes and the numbers of events are names only.  If the places of a history are
replaced by others, one by one, with the root staying where it is, and the numbers of its events by
others in the same order, then the law of resolution comes to the same verdicts with the places
replaced (`History.verdict_moved`), and so do the ownerships of the outer declarations
(`History.settlementAt?_moved`).
-/

namespace TargetScope

/-- New places for scopes and new numbers for events. -/
structure Renumbering where
  /-- The new place of a scope. -/
  place : Nat → Nat
  /-- The new number of an event. -/
  order : Int → Int
  place_injective : Function.Injective place
  place_root : place ScopeTree.rootIndex = ScopeTree.rootIndex
  order_lt : ∀ {i j : Int}, i < j → order i < order j

lemma Renumbering.order_lt_iff (r : Renumbering) {i j : Int} :
    r.order i < r.order j ↔ i < j := by
  constructor
  · intro h
    by_contra hij
    rcases Int.lt_or_eq_of_le (Int.not_lt.1 hij) with hji | rfl
    · have hlt := r.order_lt hji
      omega
    · omega
  · exact r.order_lt

/-! ## What is renumbered -/

/-- The frame at its new place. -/
def Frame.moved (f : Frame) (place : Nat → Nat) : Frame :=
  { f with index := place f.index }

@[simp] lemma Frame.index_moved (f : Frame) (place : Nat → Nat) :
    (f.moved place).index = place f.index := rfl

@[simp] lemma Frame.kind_moved (f : Frame) (place : Nat → Nat) : (f.moved place).kind = f.kind :=
  rfl

/-- The mention with its new number and in the new places. -/
def Occurrence.moved (o : Occurrence) (r : Renumbering) : Occurrence :=
  { o with
    order := r.order o.order
    scope := o.scope.moved r.place
    around := o.around.map fun f => f.moved r.place }

/-- The failure of another site, at the new places. -/
def Failure.moved (f : Failure) (place : Nat → Nat) (site : UseSite) : Failure :=
  { f with site, scope := place f.scope, fallback := f.fallback.map place }

/-- The verdict on another site, at the new places. -/
def Verdict.moved (v : Verdict) (place : Nat → Nat) (site : UseSite) : Verdict :=
  match v with
  | bound owner => .bound (place owner)
  | failed f => .failed (f.moved place site)

/-- The settlement at the new places. -/
def Settlement.moved (p : Settlement) (place : Nat → Nat) : Settlement :=
  { p with scope := place p.scope, owner := place p.owner }

/-- The ownership at the new places. -/
def Ownership.moved (o : Ownership) (place : Nat → Nat) : Ownership :=
  { o with owner := place o.owner }

/-- The owner of a target moves with its verdict. -/
lemma Verdict.owner?_moved (v : Verdict) (mode : Mode) (place : Nat → Nat) (site : UseSite) :
    (v.moved place site).owner? mode = (v.owner? mode).map place := by
  cases v with
  | bound owner => rfl
  | failed f =>
    have hs : (f.moved place site).severity mode = f.severity mode := rfl
    simp only [Verdict.moved, Verdict.owner?, hs]
    split <;> rfl

/-! ## Ownerships -/

namespace Ownership

variable {place : Nat → Nat} {around : List (Nat × Option BindingRole)}

lemma rtakeWhile_map {α β : Type} (f : α → β) (p : β → Bool) (l : List α) :
    (l.map f).rtakeWhile p = (l.rtakeWhile (p ∘ f)).map f := by
  rw [List.rtakeWhile, ← List.map_reverse, List.takeWhile_map, ← List.map_reverse, List.rtakeWhile]

/-- The lexical owner moves with the functions around. -/
lemma lexical_moved (hroot : place ScopeTree.rootIndex = ScopeTree.rootIndex)
    (around : List (Nat × Option BindingRole)) :
    lexical (around.map fun f => (place f.1, f.2)) = (lexical around).moved place := by
  rw [lexical, List.find?_map, lexical]
  simp only [Function.comp_def]
  cases hfind : around.find? fun f => f.2.any (· ≠ .outerFunction) with
  | none =>
    have hhead : ∀ l : List (Nat × Option BindingRole),
        deferredTo (l.map fun f => (place f.1, f.2)) = (deferredTo l).moved place := by
      intro l
      cases l with
      | nil => simp [deferredTo, Ownership.moved, hroot]
      | cons f l => rfl
    simp only [Option.map_none, rtakeWhile_map, Function.comp_def]
    exact hhead _
  | some f =>
    obtain ⟨i, role⟩ := f
    cases role with
    | none => rfl
    | some role => cases role <;> simp [Ownership.moved, hroot]

lemma ofRole_moved (hroot : place ScopeTree.rootIndex = ScopeTree.rootIndex) (role : BindingRole)
    (around : List (Nat × Option BindingRole)) :
    ofRole role (around.map fun f => (place f.1, f.2)) = (ofRole role around).moved place := by
  rw [ofRole, ofRole, lexical_moved hroot]
  split
  · simp [ofModule, Ownership.moved, hroot]
  · rfl

end Ownership

/-! ## Mentions -/

namespace Occurrence

variable {r : Renumbering} {o p : Occurrence}

@[simp] lemma name_moved (o : Occurrence) (r : Renumbering) : (o.moved r).name = o.name := rfl

@[simp] lemma role_moved (o : Occurrence) (r : Renumbering) : (o.moved r).role = o.role := rfl

@[simp] lemma how_moved (o : Occurrence) (r : Renumbering) : (o.moved r).how = o.how := rfl

@[simp] lemma scope_moved (o : Occurrence) (r : Renumbering) :
    (o.moved r).scope = o.scope.moved r.place := rfl

lemma path_moved (o : Occurrence) (r : Renumbering) :
    (o.moved r).path = o.path.map fun f => f.moved r.place := rfl

lemma isAt_moved (o : Occurrence) (r : Renumbering) (i : Nat) (name : String) :
    (o.moved r).isAt (r.place i) name = o.isAt i name := by
  have hplace : r.place o.scope.index = r.place i ↔ o.scope.index = i := r.place_injective.eq_iff
  show (decide (r.place o.scope.index = r.place i) && decide (o.name = name)) = _
  rw [decide_eq_decide.2 hplace]
  rfl

lemma order_moved_lt_iff : (o.moved r).order < (p.moved r).order ↔ o.order < p.order :=
  r.order_lt_iff

lemma transparentPath_moved (o : Occurrence) (r : Renumbering) :
    (o.moved r).transparentPath = o.transparentPath.map fun f => f.moved r.place := by
  rw [transparentPath, path_moved, List.takeWhile_map]
  rfl

lemma block_moved (o : Occurrence) (r : Renumbering) :
    (o.moved r).block = o.block.moved r.place := by
  have hfind : (o.moved r).path.find? (fun f => f.kind.isBlock) =
      (o.path.find? fun f => f.kind.isBlock).map fun f => f.moved r.place := by
    rw [path_moved, List.find?_map]
    rfl
  rw [block, hfind, block]
  cases o.path.find? fun f => f.kind.isBlock with
  | none => simp [Frame.moved, r.place_root]
  | some f => rfl

lemma moved_eq_iff {f g : Frame} : f.moved r.place = g.moved r.place ↔ f = g := by
  obtain ⟨i, kind⟩ := f
  obtain ⟨j, kind'⟩ := g
  simp [Frame.moved, r.place_injective.eq_iff]

end Occurrence

/-! ## Histories -/

namespace History

variable {h : History} {r : Renumbering} {o : Occurrence} {i : Nat} {name : String}

lemma blocker?_moved (h : History) (r : Renumbering) (i : Nat) (name : String) :
    blocker? (h.map (·.moved r)) (r.place i) name = (h.blocker? i name).map (·.moved r) := by
  rw [blocker?, List.find?_map, blocker?]
  congr 2
  funext o
  exact congrArg (fun b => b && o.role.isBlocking) (o.isAt_moved r i name)

lemma outer?_moved (h : History) (r : Renumbering) (i : Nat) (name : String) :
    outer? (h.map (·.moved r)) (r.place i) name = (h.outer? i name).map (·.moved r) := by
  rw [outer?, ← List.map_reverse, List.find?_map, outer?]
  congr 2
  funext o
  exact congrArg (fun b => b && o.role.isOuter) (o.isAt_moved r i name)

lemma plain?_moved (h : History) (r : Renumbering) (i : Nat) (name : String) :
    plain? (h.map (·.moved r)) (r.place i) name = (h.plain? i name).map (·.moved r) := by
  rw [plain?, List.find?_map, plain?]
  congr 2
  funext o
  exact congrArg (fun b => b && decide (o.role = .plain)) (o.isAt_moved r i name)

lemma obstructs_moved (h : History) (r : Renumbering) (o : Occurrence) :
    obstructs (h.map (·.moved r)) (o.moved r) = h.obstructs o := by
  rw [obstructs, List.any_map, obstructs]
  congr 1
  funext p
  simp only [Function.comp_apply, Occurrence.role_moved, Occurrence.name_moved,
    Occurrence.order_moved_lt_iff, Occurrence.transparentPath_moved, List.any_map]
  congr 2
  funext f
  exact p.isAt_moved r f.index o.name

lemma bareTarget?_moved (h : History) (r : Renumbering) (i : Nat) (name : String) :
    bareTarget? (h.map (·.moved r)) (r.place i) name = (h.bareTarget? i name).map (·.moved r) := by
  rw [bareTarget?, List.find?_map, bareTarget?]
  congr 2
  funext o
  have hblock : (o.moved r).block = ⟨r.place i, .functionBody⟩ ↔ o.block = ⟨i, .functionBody⟩ := by
    rw [o.block_moved r]
    exact Occurrence.moved_eq_iff (g := ⟨i, .functionBody⟩)
  show (decide (o.role = .targetOnly) && decide (o.name = name) &&
    decide ((o.moved r).block = ⟨r.place i, .functionBody⟩) &&
      !obstructs (h.map (·.moved r)) (o.moved r)) = _
  rw [obstructs_moved, decide_eq_decide.2 hblock]

lemma decisive?_moved (h : History) (r : Renumbering) (i : Nat) (name : String) :
    decisive? (h.map (·.moved r)) (r.place i) name = (h.decisive? i name).map (·.moved r) := by
  rw [decisive?, blocker?_moved, outer?_moved, plain?_moved, bareTarget?_moved, decisive?,
    Option.map_or, Option.map_or, Option.map_or]

lemma rolesAround_moved (h : History) (r : Renumbering) (around : List Frame) (name : String) :
    rolesAround (h.map (·.moved r)) (around.map fun f => f.moved r.place) name =
      (h.rolesAround around name).map fun f => (r.place f.1, f.2) := by
  rw [rolesAround, List.filter_map, List.map_map, rolesAround, List.map_map]
  apply List.map_congr_left
  intro f _
  have hrole : (decisive? (h.map (·.moved r)) (f.moved r.place).index name).map Occurrence.role =
      (h.decisive? f.index name).map Occurrence.role := by
    rw [Frame.index_moved, decisive?_moved, Option.map_map]
    rfl
  simp only [Function.comp_apply, hrole]
  rfl

/-- The settlement of a declaration moves with it. -/
lemma settlementOf_moved (h : History) (r : Renumbering) (d : Occurrence) :
    settlementOf (h.map (·.moved r)) (d.moved r) = (h.settlementOf d).moved r.place := by
  have hown : Ownership.ofRole (d.moved r).role
      (rolesAround (h.map (·.moved r)) (d.moved r).around (d.moved r).name) =
        (Ownership.ofRole d.role (h.rolesAround d.around d.name)).moved r.place := by
    rw [← Ownership.ofRole_moved r.place_root, ← rolesAround_moved]
    rfl
  rw [settlementOf, hown]
  rfl

lemma settlementAt?_moved (h : History) (r : Renumbering) (i : Nat) (name : String) :
    settlementAt? (h.map (·.moved r)) (r.place i) name =
      (h.settlementAt? i name).map (·.moved r.place) := by
  rw [settlementAt?, decisive?_moved, Option.filter_map, Option.map_map, settlementAt?,
    Option.map_map]
  congr 1
  funext d
  exact h.settlementOf_moved r d

lemma functionsAround_moved (h : History) (r : Renumbering) (o : Occurrence) :
    functionsAround (h.map (·.moved r)) (o.moved r) =
      (h.functionsAround o).map fun f => (r.place f.1, f.2) := by
  rw [functionsAround_eq_rolesAround, functionsAround_eq_rolesAround, ← rolesAround_moved,
    Occurrence.path_moved, List.dropWhile_map, List.map_tail]
  rfl

lemma owner_moved (h : History) (r : Renumbering) (o : Occurrence) :
    owner (h.map (·.moved r)) (o.moved r) = r.place (h.owner o) := by
  have hblock : (o.moved r).block.index = r.place o.block.index := by
    rw [o.block_moved r, Frame.index_moved]
  rw [owner, hblock, Occurrence.name_moved, outer?_moved, owner]
  cases h.outer? o.block.index o.name with
  | none => rfl
  | some d =>
    rw [Option.map_some, functionsAround_moved]
    simp only [Occurrence.role_moved, Ownership.ofRole_moved r.place_root]
    rfl

/-- The law of resolution does not see the places and the numbers: the verdict moves with the
mention. -/
lemma verdict_moved (h : History) (r : Renumbering) (o : Occurrence) (site site' : UseSite) :
    verdict (h.map (·.moved r)) (o.moved r) site = (h.verdict o site').moved r.place site := by
  have hblock := o.block_moved r
  have hindex : (o.moved r).block.index = r.place o.block.index := by
    rw [hblock, Frame.index_moved]
  have hkind : (o.moved r).block.kind = o.block.kind := by rw [hblock, Frame.kind_moved]
  have hscope : (o.moved r).scope ≠ (o.moved r).block ↔ o.scope ≠ o.block := by
    rw [hblock, Occurrence.scope_moved, Ne, Occurrence.moved_eq_iff]
  have hpath : (o.moved r).transparentPath.findSome? (fun f =>
        blocker? (h.map (·.moved r)) f.index o.name) =
      (o.transparentPath.findSome? fun f => h.blocker? f.index o.name).map (·.moved r) := by
    rw [o.transparentPath_moved, List.findSome?_map, List.map_findSome?]
    congr 1
    funext f
    exact h.blocker?_moved r f.index o.name
  have hestablished : ((establishing? (h.map (·.moved r)) (o.moved r).block.index o.name).any
      fun p => p.order < (o.moved r).order) =
        (h.establishing? o.block.index o.name).any fun p => p.order < o.order := by
    rw [establishing?, hindex, outer?_moved, plain?_moved, ← Option.map_or, Option.any_map,
      establishing?]
    congr 1
    funext p
    simp [Occurrence.order_moved_lt_iff]
  rw [verdict, verdict, Occurrence.name_moved, hpath, hestablished, hkind, owner_moved, hindex,
    blocker?_moved]
  simp only [hscope]
  cases o.transparentPath.findSome? fun f => h.blocker? f.index o.name with
  | some p => rfl
  | none =>
    simp only [Option.map_none]
    split
    · rfl
    · cases h.blocker? o.block.index o.name with
      | some p => rfl
      | none =>
        simp only [Option.map_none]
        split <;> rfl

end History

end TargetScope
