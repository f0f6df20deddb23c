import TargetScope.Proofs.Classification

/-!
# Where a stream of events goes wrong

While a scope is open, every event has its place.  So an event can be out of place only where no
scope is open, and there all are, but for the entry of a module at the very beginning
(`Action.Misplaced`).  Which scopes are open is known from the actions alone: their number is the
depth of the actions so far.

A builder takes the events as long as they are in place, and its number of open scopes is then the
depth (`TreeBuilder.Agrees.act`); it refuses the first one that is not, with the fault that belongs
to it (`TreeBuilder.act_eq_error`).  So a batch of events fails at its first misplaced event, or
else only with what is still wrong after its last one (`TreeBuilder.feed_cases`).
-/

namespace TargetScope

/-! ## The depth of a stream -/

namespace Action

variable {a : Action} {actions : List Action}

/-- How an action changes the number of open scopes. -/
def delta : Action → Int
  | enter _ _ _ => 1
  | mention _ _ _ => 0
  | exit => -1

/-- The action enters a module. -/
def entersModule : Action → Bool
  | enter kind _ _ => kind = .moduleBody
  | mention _ _ _ => false
  | exit => false

/-- The number of scopes that are entered and not left. -/
def depth (actions : List Action) : Int :=
  actions.foldl (fun n a => n + a.delta) 0

@[simp] lemma depth_nil : depth [] = 0 := rfl

@[simp] lemma depth_concat (actions : List Action) (a : Action) :
    depth (actions ++ [a]) = depth actions + a.delta := by
  simp [depth]

lemma foldl_delta (n : Int) (actions : List Action) :
    actions.foldl (fun n a => n + a.delta) n = n + depth actions := by
  induction actions generalizing n with
  | nil => simp
  | cons a actions ih =>
    rw [depth, List.foldl_cons, List.foldl_cons, ih, ih (0 + a.delta)]
    omega

lemma depth_cons (a : Action) (actions : List Action) :
    depth (a :: actions) = a.delta + depth actions := by
  rw [depth, List.foldl_cons, foldl_delta]
  omega

lemma depth_append (actions rest : List Action) :
    depth (actions ++ rest) = depth actions + depth rest := by
  rw [depth, List.foldl_append, ← depth, foldl_delta]

/-- The action arrives behind some others where no scope is open, and it does not enter a module at
the very beginning. -/
def Misplaced (a : Action) (before : List Action) : Prop :=
  depth before = 0 ∧ ¬(before = [] ∧ a.entersModule = true)

/-- No action is out of place. -/
def WellPlaced (actions : List Action) : Prop :=
  ∀ before a after, actions = before ++ a :: after → ¬a.Misplaced before

lemma wellPlaced_nil : WellPlaced [] := by
  intro before a after h
  exact absurd h.symm (by simp)

lemma WellPlaced.concat (h : WellPlaced actions) (ha : ¬a.Misplaced actions) :
    WellPlaced (actions ++ [a]) := by
  intro before c after heq
  rcases List.eq_nil_or_concat after with rfl | ⟨rest, d, rfl⟩
  · obtain ⟨rfl, hac⟩ := List.append_inj' heq rfl
    obtain rfl := (List.cons.inj hac).1
    exact ha
  · have heq' : actions ++ [a] = (before ++ c :: rest) ++ [d] := by simpa using heq
    exact h before c rest (List.append_inj' heq' rfl).1

end Action

/-- The fault of an action that is out of place behind some others. -/
def StructureFault.misplaced (before : List Action) : Action → StructureFault
  | .enter kind _ _ => if before = [] then .rootNotModule kind else .secondRoot
  | .mention name _ _ => .mentionOutside name
  | .exit => .unmatchedExit

/-- The codes of the faults of misplaced actions. -/
def StructureFault.misplacedCodes : List String :=
  ["DRV-0020", "DRV-0021", "DRV-0022", "DRV-0025"]

/-- The codes of what is wrong only behind the last event. -/
def StructureFault.unfinishedCodes : List String :=
  ["DRV-0023", "DRV-0024"]

lemma StructureFault.notMem_unfinishedCodes {f : StructureFault} (h : f.code ∈ misplacedCodes) :
    f.code ∉ unfinishedCodes := by
  cases f <;> simp_all [code, misplacedCodes, unfinishedCodes]

/-! ## Builders that agree with the actions so far -/

namespace TreeBuilder

variable {b b' : TreeBuilder} {e : Event} {a : Action} {actions : List Action}

/-- The builder has taken the actions: it knows its open scopes, their number is the depth, and it
has a scope if there was an action at all. -/
structure Agrees (b : TreeBuilder) (actions : List Action) : Prop where
  length_eq : (b.openScopes.length : Int) = Action.depth actions
  open_lt : ∀ i ∈ b.openScopes, i < b.tree.size
  size_eq_zero_iff : b.tree.size = 0 ↔ actions = []

lemma agrees_start (unitName filename : Option String) : (start unitName filename).Agrees [] where
  length_eq := rfl
  open_lt := fun _ hi => absurd hi List.not_mem_nil
  size_eq_zero_iff := ⟨fun _ => rfl, fun _ => rfl⟩

namespace Agrees

lemma tick (hb : b.Agrees actions) : b.tick.Agrees actions :=
  ⟨hb.length_eq, hb.open_lt, hb.size_eq_zero_iff⟩

lemma openScopes_eq_nil_iff (hb : b.Agrees actions) :
    b.openScopes = [] ↔ Action.depth actions = 0 := by
  rw [← hb.length_eq, ← List.length_eq_zero_iff]
  omega

lemma scopes_eq_nil_iff (hb : b.Agrees actions) : b.tree.scopes = [] ↔ actions = [] := by
  rw [← hb.size_eq_zero_iff, ← List.length_eq_zero_iff]
  rfl

lemma size_ne_zero (hb : b.Agrees actions) (ho : b.openScopes ≠ []) : b.tree.size ≠ 0 := by
  obtain ⟨i, hi⟩ := List.exists_mem_of_ne_nil _ ho
  have := hb.open_lt i hi
  omega

/-- Where no scope is open, only a module at the beginning is in place. -/
lemma entersModule_of_not_misplaced (hb : b.Agrees actions) (hm : ¬a.Misplaced actions)
    (ho : b.openScopes = []) : actions = [] ∧ a.entersModule = true := by
  by_contra hn
  exact hm ⟨hb.openScopes_eq_nil_iff.1 ho, hn⟩

/-- A new scope stands last and is open. -/
lemma addScope (hb : b.Agrees actions) (ha : a.delta = 1) (kind : ScopeKind) (parent : Option Nat)
    (label : Option String) (position : Option Position) :
    Agrees { b with tree := b.tree.addScope kind parent label position
                    openScopes := b.tree.size :: b.openScopes } (actions ++ [a]) where
  length_eq := by
    rw [Action.depth_concat, ← hb.length_eq, ha, List.length_cons]
    rfl
  open_lt := by
    intro i hi
    rw [ScopeTree.size_addScope]
    rcases List.mem_cons.1 hi with rfl | hi
    · exact Nat.lt_succ_self _
    · exact Nat.lt_succ_of_lt (hb.open_lt i hi)
  size_eq_zero_iff := by simp

/-- While a scope is open, a tree of the same size can take the place of the tree. -/
lemma of_size_eq (hb : b.Agrees actions) (ha : a.delta = 0) (ho : b.openScopes ≠ [])
    {t : ScopeTree} (ht : t.size = b.tree.size) :
    Agrees { b with tree := t } (actions ++ [a]) where
  length_eq := by rw [Action.depth_concat, ← hb.length_eq, ha, Int.add_zero]
  open_lt := by
    intro i hi
    rw [ht]
    exact hb.open_lt i hi
  size_eq_zero_iff := by simp [ht, hb.size_ne_zero ho]

/-- The innermost scope can be left. -/
lemma tail (hb : b.Agrees actions) (ha : a.delta = -1) {i : Nat} {outer : List Nat}
    (ho : b.openScopes = i :: outer) : Agrees { b with openScopes := outer } (actions ++ [a]) where
  length_eq := by
    have hlen := hb.length_eq
    rw [ho, List.length_cons] at hlen
    show (outer.length : Int) = _
    rw [Action.depth_concat, ← hlen, ha]
    omega
  open_lt := fun j hj => hb.open_lt j (ho ▸ List.mem_cons_of_mem _ hj)
  size_eq_zero_iff := by
    have := hb.size_ne_zero (by simp [ho])
    simp [this]

end Agrees

/-- An event that is out of place is refused, with its fault and its origin. -/
lemma act_eq_error (hb : b.Agrees actions) (hm : e.action.Misplaced actions) :
    b.act e = .error ⟨.misplaced actions e.action, e.origin⟩ := by
  have ho : b.openScopes = [] := hb.openScopes_eq_nil_iff.2 hm.1
  cases ha : e.action with
  | enter kind label position =>
    rw [act_enter ha]
    simp only [ho, StructureFault.misplaced, ne_eq, hb.scopes_eq_nil_iff]
    by_cases hnil : actions = []
    · have hk : kind ≠ .moduleBody := by
        rintro rfl
        exact hm.2 ⟨hnil, by rw [ha]; rfl⟩
      simp [hnil, hk]
    · simp [hnil]
  | mention name how position => simp [act_mention ha, current?, ho, StructureFault.misplaced]
  | exit => simp [act_exit ha, ho, StructureFault.misplaced]

/-- An event that is in place is taken. -/
lemma Agrees.act (hb : b.Agrees actions) (hm : ¬e.action.Misplaced actions) :
    ∃ b', b.act e = .ok b' ∧ b'.Agrees (actions ++ [e.action]) := by
  have hroot := hb.entersModule_of_not_misplaced hm
  cases ha : e.action with
  | enter kind label position =>
    cases ho : b.openScopes with
    | nil =>
      obtain ⟨hnil, hk⟩ := hroot ho
      obtain rfl : kind = .moduleBody := by simpa [ha, Action.entersModule] using hk
      refine ⟨_, ?_, hb.addScope rfl .moduleBody none
        ((label.filter (· ≠ "")).or b.tree.unitName) position⟩
      simp [act_enter ha, ho, hb.scopes_eq_nil_iff.2 hnil]
    | cons p outer =>
      refine ⟨_, ?_, hb.addScope rfl kind (some p) label position⟩
      simp [act_enter ha, ho]
  | mention name how position =>
    cases ho : b.openScopes with
    | nil => exact absurd (hroot ho).2 (by simp [ha, Action.entersModule])
    | cons i outer =>
      obtain ⟨s, hs⟩ := ScopeTree.exists_scope?_of_lt (hb.open_lt i (by simp [ho]))
      have hcur : b.current? = some s := by simp [current?, ho, hs]
      have hsize : (addMention b.tree s name how position b.clock).size = b.tree.size :=
        ScopeTree.size_eq_of_bare_eq (bare_addMention b.tree s name position b.clock how)
      exact ⟨_, by simp [act_mention ha, hcur], hb.of_size_eq rfl (by simp [ho]) hsize⟩
  | exit =>
    cases ho : b.openScopes with
    | nil => exact absurd (hroot ho).2 (by simp [ha, Action.entersModule])
    | cons i outer => exact ⟨_, by simp [act_exit ha, ho], hb.tail rfl ho⟩

/-- A batch of events behind some actions fails at its first misplaced event, or it is taken as a
whole, and only what is still wrong after its last event remains. -/
lemma feed_cases (hb : b.Agrees actions) (hw : Action.WellPlaced actions) (events : List Event) :
    (∃ before e after, events = before ++ e :: after ∧
      Action.WellPlaced (actions ++ before.map Event.action) ∧
      e.action.Misplaced (actions ++ before.map Event.action) ∧
      (b.feed events).2 =
        some ⟨.misplaced (actions ++ before.map Event.action) e.action, e.origin⟩) ∨
    (Action.WellPlaced (actions ++ events.map Event.action) ∧
      ∃ b' : TreeBuilder, b'.Agrees (actions ++ events.map Event.action) ∧
        (b.feed events).2 = b'.unfinished?) := by
  induction events generalizing b actions with
  | nil => exact Or.inr ⟨by simpa using hw, b, by simpa using hb, rfl⟩
  | cons e rest ih =>
    rw [feed_cons]
    by_cases hm : e.action.Misplaced actions
    · refine Or.inl ⟨[], e, rest, rfl, by simpa using hw, by simpa using hm, ?_⟩
      simp [act_eq_error hb.tick hm]
    · obtain ⟨b₁, hact, hb₁⟩ := hb.tick.act hm
      have happ : ∀ es : List Event, actions ++ (e :: es).map Event.action =
          actions ++ [e.action] ++ es.map Event.action := by simp
      simp only [hact]
      rcases ih hb₁ (hw.concat hm) with ⟨before, e', after, rfl, hwp, hmp, herr⟩ | ⟨hwp, hlast⟩
      · exact Or.inl ⟨e :: before, e', after, rfl, by rwa [happ], by rwa [happ], by rwa [happ]⟩
      · exact Or.inr ⟨by rwa [happ], by rwa [happ]⟩

/-- Nothing is wrong after the last action if and only if no scope is open and there is one. -/
lemma Agrees.unfinished?_eq_none_iff (hb : b.Agrees actions) :
    b.unfinished? = none ↔ Action.depth actions = 0 ∧ actions ≠ [] := by
  rw [unfinished?, ← hb.openScopes_eq_nil_iff, ne_eq, ← hb.scopes_eq_nil_iff, current?]
  cases ho : b.openScopes with
  | nil => simp
  | cons i outer =>
    obtain ⟨s, hs⟩ := ScopeTree.exists_scope?_of_lt (hb.open_lt i (by simp [ho]))
    simp [hs]

lemma code_of_unfinished? {error : StructureError} (h : b.unfinished? = some error) :
    error.fault.code ∈ StructureFault.unfinishedCodes := by
  rw [unfinished?] at h
  split at h
  · obtain rfl := Option.some.inj h
    simp [StructureFault.code, StructureFault.unfinishedCodes]
  · split at h
    · obtain rfl := Option.some.inj h
      simp [StructureFault.code, StructureFault.unfinishedCodes]
    · simp at h

end TreeBuilder

/-- A stream that is refused with the code of a misplaced event is refused at its first misplaced
event. -/
lemma ScopeTree.ofEvents_eq_error {unitName filename : Option String} {events : List Event}
    {error : StructureError} (h : ofEvents unitName filename events = .error error)
    (hcode : error.fault.code ∈ StructureFault.misplacedCodes) :
    ∃ before e after, events = before ++ e :: after ∧
      Action.WellPlaced (before.map Event.action) ∧
      e.action.Misplaced (before.map Event.action) ∧
      error = ⟨.misplaced (before.map Event.action) e.action, e.origin⟩ := by
  have hfeed : ((TreeBuilder.start unitName filename).feed events).2 = some error := by
    rw [ofEvents] at h
    split at h
    · simp at h
    · next heq =>
      rw [heq]
      exact congrArg some (Except.error.inj h)
  rcases TreeBuilder.feed_cases (TreeBuilder.agrees_start unitName filename) Action.wellPlaced_nil
    events with ⟨before, e, after, rfl, hw, hm, herr⟩ | ⟨-, b', -, hlast⟩
  · rw [herr] at hfeed
    exact ⟨before, e, after, rfl, hw, hm, (Option.some.inj hfeed).symm⟩
  · rw [hlast] at hfeed
    exact absurd (TreeBuilder.code_of_unfinished? hfeed)
      (StructureFault.notMem_unfinishedCodes hcode)

/-- A stream describes a tree if and only if none of its events is out of place, all scopes that it
enters are left, and there is one. -/
lemma ScopeTree.exists_ofEvents_iff {unitName filename : Option String} {events : List Event} :
    (∃ t, ofEvents unitName filename events = .ok t) ↔
      Action.WellPlaced (events.map Event.action) ∧ Action.depth (events.map Event.action) = 0 ∧
        events ≠ [] := by
  have hok : (∃ t, ofEvents unitName filename events = .ok t) ↔
      ((TreeBuilder.start unitName filename).feed events).2 = none := by
    rw [ofEvents]
    obtain ⟨b, fault⟩ := (TreeBuilder.start unitName filename).feed events
    cases fault <;> simp
  rw [hok]
  rcases TreeBuilder.feed_cases (TreeBuilder.agrees_start unitName filename) Action.wellPlaced_nil
    events with ⟨before, e, after, rfl, -, hm, herr⟩ | ⟨hw, b, hb, hlast⟩
  · rw [herr]
    constructor
    · intro h
      exact absurd h (by simp)
    · rintro ⟨hw, -, -⟩
      exact absurd hm (hw _ _ (after.map Event.action) (by simp))
  · rw [List.nil_append] at hw hb
    have hnil : events.map Event.action = [] ↔ events = [] := List.map_eq_nil_iff
    rw [hlast, hb.unfinished?_eq_none_iff, ne_eq, hnil]
    exact ⟨fun h => ⟨hw, h⟩, fun h => h.2⟩

end TargetScope
