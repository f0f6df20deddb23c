import Mathlib.Tactic.Lemma
import TargetScope.TreeBuilder

/-!
# Handling one event

What a handler does to its builder before it fails is not taken back.  But no handler does anything
before it fails: each looks at the builder first, and finds there whatever can be wrong.  So an
event is handled as a whole or not at all (`TreeBuilder.handle_on`), and it comes either to a
builder or to a fault (`TreeBuilder.act`).
-/

namespace TargetScope

namespace TreeBuilder

variable {b b' : TreeBuilder} {e : Event} {kind : ScopeKind} {label : Option String} {name : String}
  {how : Mention} {position origin : Option Position} {error : StructureError}
  {r : Except StructureError TreeBuilder}

/-! ## The handlers -/

/-- All is done, or nothing: the outcome and the builder afterwards, where the builder becomes
another one or there is a fault. -/
def allOrNothing (b : TreeBuilder) :
    Except StructureError TreeBuilder → Except StructureError Unit × TreeBuilder
  | .ok b' => (.ok (), b')
  | .error error => (.error error, b)

/-- An entry is handled as a whole or not at all. -/
lemma enter_on : (enter kind label position origin).on b = b.allOrNothing
    (match b.openScopes with
    | [] =>
      if b.tree.scopes ≠ [] then .error ⟨.secondRoot, origin⟩
      else if kind ≠ .moduleBody then .error ⟨.rootNotModule kind, origin⟩
      else
        let label := (label.filter (· ≠ "")).or b.tree.unitName
        .ok { b with
          tree := b.tree.addScope .moduleBody none label position
          openScopes := [b.tree.size] }
    | parent :: _ =>
      .ok { b with
        tree := b.tree.addScope kind (some parent) label position
        openScopes := b.tree.size :: b.openScopes }) := by
  obtain ⟨t, _ | ⟨parent, outer⟩, clock⟩ := b
  · by_cases hs : t.scopes = []
    · by_cases hk : kind = .moduleBody <;> simp [enter, openScope, hs, hk, allOrNothing]
    · simp [enter, hs, allOrNothing]
  · rfl

/-- So is an exit. -/
lemma exit_on : (exit origin).on b = b.allOrNothing
    (match b.openScopes with
    | [] => .error ⟨.unmatchedExit, origin⟩
    | _ :: outer => .ok { b with openScopes := outer }) := by
  obtain ⟨t, _ | ⟨i, outer⟩, clock⟩ := b <;> rfl

/-- So is a mention. -/
lemma mention_on : (mention name how position origin).on b = b.allOrNothing
    (match b.current? with
    | none => .error ⟨.mentionOutside name, origin⟩
    | some s => .ok { b with tree := addMention b.tree s name how position b.clock }) := by
  cases hs : b.current? <;> simp [mention, hs, allOrNothing]

/-! ## Events -/

/-- The builder after an event that has been counted, or the fault for which the event is
refused. -/
def act (b : TreeBuilder) (e : Event) : Except StructureError TreeBuilder :=
  match (handle e).on b with
  | (.ok _, b') => .ok b'
  | (.error error, _) => .error error

lemma act_of_handle_on (h : (handle e).on b = b.allOrNothing r) : b.act e = r := by
  rw [act, h]
  cases r <;> rfl

lemma act_enter (ha : e.action = .enter kind label position) : b.act e =
    match b.openScopes with
    | [] =>
      if b.tree.scopes ≠ [] then .error ⟨.secondRoot, e.origin⟩
      else if kind ≠ .moduleBody then .error ⟨.rootNotModule kind, e.origin⟩
      else
        let label := (label.filter (· ≠ "")).or b.tree.unitName
        .ok { b with
          tree := b.tree.addScope .moduleBody none label position
          openScopes := [b.tree.size] }
    | parent :: _ =>
      .ok { b with
        tree := b.tree.addScope kind (some parent) label position
        openScopes := b.tree.size :: b.openScopes } := by
  apply act_of_handle_on
  rw [handle, ha]
  exact enter_on

lemma act_exit (ha : e.action = .exit) : b.act e =
    match b.openScopes with
    | [] => .error ⟨.unmatchedExit, e.origin⟩
    | _ :: outer => .ok { b with openScopes := outer } := by
  apply act_of_handle_on
  rw [handle, ha]
  exact exit_on

lemma act_mention (ha : e.action = .mention name how position) : b.act e =
    match b.current? with
    | none => .error ⟨.mentionOutside name, e.origin⟩
    | some s => .ok { b with tree := addMention b.tree s name how position b.clock } := by
  apply act_of_handle_on
  rw [handle, ha]
  exact mention_on

/-- An event is handled as a whole or not at all. -/
lemma handle_on : (handle e).on b = b.allOrNothing (b.act e) := by
  cases ha : e.action with
  | enter kind label position =>
    rw [act_enter ha, handle, ha]
    exact enter_on
  | exit =>
    rw [act_exit ha, handle, ha]
    exact exit_on
  | mention name how position =>
    rw [act_mention ha, handle, ha]
    exact mention_on

/-- An event that comes in is counted first. -/
lemma take_on : (take e).on b = b.tick.allOrNothing (b.tick.act e) :=
  handle_on

lemma take_eq_ok_iff : (take e).on b = (.ok (), b') ↔ b.tick.act e = .ok b' := by
  rw [take_on]
  cases b.tick.act e <;> simp [allOrNothing]

/-- An event that is refused is counted, and nothing else happens. -/
lemma take_eq_error_iff :
    (take e).on b = (.error error, b') ↔ b.tick.act e = .error error ∧ b' = b.tick := by
  rw [take_on]
  cases b.tick.act e <;> simp [allOrNothing, eq_comm]

/-- A batch goes on behind an event that is taken, and ends with one that is refused, which is only
counted. -/
lemma feed_cons (b : TreeBuilder) (e : Event) (rest : List Event) :
    b.feed (e :: rest) =
      match b.tick.act e with
      | .ok b' => b'.feed rest
      | .error error => (b.tick, some error) := by
  rw [feed, take_on]
  cases b.tick.act e <;> rfl

/-! ## Events that are taken -/

/-- What an accepted entry does. -/
lemma enter_eq_ok (ha : e.action = .enter kind label position) (he : b.act e = .ok b') :
    (b.openScopes = [] → b.tree.size = 0 ∧ kind = .moduleBody) ∧
      ∃ label', b' = { b with
        tree := b.tree.addScope kind b.openScopes.head? label' position
        openScopes := b.tree.size :: b.openScopes } := by
  rw [act_enter ha] at he
  split at he
  · next ho =>
    split at he
    · simp at he
    · next hs =>
      split at he
      · simp at he
      · next hk =>
        have hs : b.tree.scopes = [] := Classical.not_not.1 hs
        have hk : kind = .moduleBody := Classical.not_not.1 hk
        subst hk
        refine ⟨fun _ => ⟨by simp [ScopeTree.size, hs], rfl⟩,
          (label.filter (· ≠ "")).or b.tree.unitName, ?_⟩
        rw [ho]
        exact (Except.ok.inj he).symm
  · next p outer ho =>
    refine ⟨fun hnil => by simp [hnil] at ho, label, (Except.ok.inj he).symm.trans ?_⟩
    simp only [ho, List.head?_cons]

/-- What an accepted exit does. -/
lemma exit_eq_ok (ha : e.action = .exit) (he : b.act e = .ok b') :
    ∃ i outer, b.openScopes = i :: outer ∧ b' = { b with openScopes := outer } := by
  rw [act_exit ha] at he
  split at he
  · simp at he
  · next i outer ho => exact ⟨i, outer, ho, (Except.ok.inj he).symm⟩

/-- What an accepted mention does. -/
lemma mention_eq_ok (ha : e.action = .mention name how position) (he : b.act e = .ok b') :
    ∃ s, b.current? = some s ∧
      b' = { b with tree := addMention b.tree s name how position b.clock } := by
  rw [act_mention ha] at he
  split at he
  · simp at he
  · next s hs => exact ⟨s, hs, (Except.ok.inj he).symm⟩

end TreeBuilder

end TargetScope
