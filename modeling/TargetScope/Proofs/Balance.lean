import Mathlib.Data.List.Infix
import TargetScope.Proofs.Nesting

/-!
# Scopes that are entered and left

A stream of events enters scopes of some kinds (`Action.kinds`), and these are the scopes of its
tree, in their order (`ScopeTree.kinds_ofEvents`).  So the place of a scope is the number of scopes
that have been entered before it.

A part of a stream is balanced if it leaves all scopes that it enters, and no others
(`Action.Balanced`).  Along such a part the scopes that were open stay open, and the others that are
open have been entered in it; both hold of the scopes around a mention too
(`Cursor.Nested.afterAll`).
-/

namespace TargetScope

/-! ## What a stream enters -/

namespace Action

variable {actions before after : List Action}

/-- The kind of the scope that is entered. -/
def kind? : Action → Option ScopeKind
  | enter kind _ _ => some kind
  | mention _ _ _ => none
  | exit => none

/-- The kinds of the scopes that are entered, in their order. -/
def kinds (actions : List Action) : List ScopeKind :=
  actions.filterMap kind?

/-- The number of scopes that are entered. -/
def entered (actions : List Action) : Nat :=
  (kinds actions).length

/-- All scopes that are entered are left again, and no other scope is left. -/
def Balanced (actions : List Action) : Prop :=
  depth actions = 0 ∧ ∀ before after, actions = before ++ after → 0 ≤ depth before

instance (actions : List Action) : Decidable (Balanced actions) :=
  decidable_of_iff (depth actions = 0 ∧ ∀ before ∈ actions.inits, 0 ≤ depth before) <| by
    refine and_congr_right' ⟨?_, ?_⟩
    · rintro h before after rfl
      exact h before ((List.mem_inits _ _).2 (List.prefix_append before after))
    · intro h before hbefore
      obtain ⟨after, hafter⟩ := (List.mem_inits _ _).1 hbefore
      exact h before after hafter.symm

lemma kinds_append (actions rest : List Action) :
    kinds (actions ++ rest) = kinds actions ++ kinds rest :=
  List.filterMap_append

lemma entered_append (actions rest : List Action) :
    entered (actions ++ rest) = entered actions + entered rest := by
  rw [entered, kinds_append, List.length_append, entered, entered]

lemma entered_cons (a : Action) (actions : List Action) :
    entered (a :: actions) = entered actions + if a.delta = 1 then 1 else 0 := by
  cases a <;> rfl

/-- Only a scope that was entered is open. -/
lemma depth_le_entered (actions : List Action) : depth actions ≤ entered actions := by
  induction actions with
  | nil => simp [entered]
  | cons a actions ih =>
    rw [depth_cons, entered_cons]
    cases a with
    | enter kind label position => simp [delta]; omega
    | mention name how position => simp [delta]; omega
    | exit => simp [delta]; omega

namespace WellPlaced

lemma of_append (h : WellPlaced (before ++ after)) : WellPlaced before := by
  rintro p a rest rfl
  exact h p a (rest ++ after) (by simp)

/-- No scope is left that is not open. -/
lemma depth_nonneg (h : WellPlaced actions) : 0 ≤ depth actions := by
  induction actions using List.reverseRecOn with
  | nil => simp
  | append_singleton before a ih =>
    have hbefore := ih h.of_append
    rw [depth_concat]
    cases a with
    | enter kind label position =>
      show 0 ≤ depth before + 1
      omega
    | mention name how position => exact Int.add_nonneg hbefore (Int.le_refl 0)
    | exit =>
      have hne : depth before ≠ 0 := by
        intro h0
        exact h before .exit [] rfl ⟨h0, by simp [entersModule]⟩
      show 0 ≤ depth before + -1
      omega

end WellPlaced

end Action

/-! ## Cursors in open scopes -/

namespace Cursor

variable {c : Cursor} {outer : List Frame} {n : Nat} {d : Int}

lemma entered_after (c : Cursor) (e : Event) :
    (c.after e).entered = c.entered + if e.action.delta = 1 then 1 else 0 := by
  rw [after]
  split <;> simp [*, Action.delta]

lemma entered_afterAll (c : Cursor) (events : List Event) :
    (c.afterAll events).entered = c.entered + Action.entered (events.map Event.action) := by
  induction events generalizing c with
  | nil => rfl
  | cons e rest ih =>
    show ((c.after e).afterAll rest).entered = _
    rw [ih, entered_after, List.map_cons, Action.entered_cons]
    omega

/-- A mention is in the scopes that are open. -/
lemma path_of_mem_occurrence? {e : Event} {o : Occurrence} (ho : o ∈ (c.occurrence? e).toList) :
    o.path = c.path := by
  rw [Option.mem_toList, occurrence?] at ho
  split at ho
  · next hpath =>
    obtain rfl := Option.some.inj ho
    exact hpath.symm
  · exact absurd ho (by simp)

/-- Inside of the scopes `outer`, `d` scopes are open, all of them entered at the place `n` or
behind it. -/
structure Nested (c : Cursor) (outer : List Frame) (n : Nat) (d : Int) : Prop where
  path_eq : ∃ inner, c.path = inner ++ outer ∧ (inner.length : Int) = d ∧
    ∀ f ∈ inner, n ≤ f.index ∧ f.index < c.entered
  le_entered : n ≤ c.entered

namespace Nested

lemma after (hc : c.Nested outer n d) {e : Event} (hd : 0 ≤ d + e.action.delta) :
    (c.after e).Nested outer n (d + e.action.delta) := by
  obtain ⟨⟨inner, hpath, hlen, hinner⟩, hn⟩ := hc
  rw [Cursor.after]
  cases ha : e.action with
  | enter kind label position =>
    refine ⟨⟨⟨c.entered, kind⟩ :: inner, by simp [hpath], by simp [Action.delta, hlen], ?_⟩, by
      simp only; omega⟩
    intro f hf
    rcases List.mem_cons.1 hf with rfl | hf
    · exact ⟨hn, Nat.lt_succ_self _⟩
    · exact ⟨(hinner f hf).1, Nat.lt_succ_of_lt (hinner f hf).2⟩
  | mention name how position =>
    exact ⟨⟨inner, hpath, by simpa [Action.delta] using hlen, hinner⟩, hn⟩
  | exit =>
    rw [ha] at hd
    -- the innermost scope is not one of `outer`
    cases inner with
    | nil =>
      simp only [Action.delta, List.length_nil] at hd hlen
      omega
    | cons f inner =>
      refine ⟨⟨inner, by simp [hpath], ?_, fun g hg => hinner g (List.mem_cons_of_mem _ hg)⟩, hn⟩
      rw [List.length_cons] at hlen
      simp only [Action.delta]
      omega

/-- Along events that leave none of the scopes `outer`. -/
lemma afterAll (hc : c.Nested outer n d) {events : List Event}
    (hd : ∀ before after, events.map Event.action = before ++ after → 0 ≤ d + Action.depth before) :
    (c.afterAll events).Nested outer n (d + Action.depth (events.map Event.action)) ∧
      ∀ o ∈ historyFrom c events, ∃ inner, o.path = inner ++ outer ∧
        ∀ f ∈ inner, n ≤ f.index ∧ f.index < (c.afterAll events).entered := by
  induction events generalizing c d with
  | nil => exact ⟨by simpa [Cursor.afterAll] using hc, fun o ho => absurd ho List.not_mem_nil⟩
  | cons e rest ih =>
    have hfirst : 0 ≤ d + e.action.delta := by
      simpa [Action.depth] using hd [e.action] (rest.map Event.action) rfl
    have hrest : ∀ before after, rest.map Event.action = before ++ after →
        0 ≤ d + e.action.delta + Action.depth before := by
      intro before after heq
      have := hd (e.action :: before) after (by simp [heq])
      rw [Action.depth_cons] at this
      omega
    obtain ⟨hlast, hmentions⟩ := ih (hc.after hfirst) hrest
    refine ⟨?_, ?_⟩
    · rw [List.map_cons, Action.depth_cons, ← Int.add_assoc]
      exact hlast
    · intro o ho
      rw [historyFrom, List.mem_append] at ho
      rcases ho with ho | ho
      · obtain ⟨inner, hpath, -, hinner⟩ := hc.path_eq
        refine ⟨inner, by rw [path_of_mem_occurrence? ho, hpath], ?_⟩
        intro f hf
        have hlt := (hinner f hf).2
        rw [entered_afterAll]
        exact ⟨(hinner f hf).1, by omega⟩
      · exact hmentions o ho

end Nested

end Cursor

/-! ## The scopes that a stream enters -/

namespace ScopeTree

variable {t t' : ScopeTree}

/-- The kinds of the scopes, in the order of their places. -/
def kinds (t : ScopeTree) : List ScopeKind :=
  t.scopes.map Scope.kind

lemma getElem?_kinds (t : ScopeTree) (i : Nat) : t.kinds[i]? = (t.scope? i).map Scope.kind :=
  List.getElem?_map

lemma kinds_eq_of_bare_eq (h : t'.bare = t.bare) : t'.kinds = t.kinds := by
  have hkinds := congrArg kinds h
  simpa [kinds, bare, Function.comp_def, Scope.bare] using hkinds

lemma kinds_addScope (t : ScopeTree) (kind : ScopeKind) (parent : Option Nat)
    (label : Option String) (position : Option Position) :
    (t.addScope kind parent label position).kinds = t.kinds ++ [kind] := by
  cases parent with
  | none => simp [kinds, addScope]
  | some p =>
    have hmodify := fun l => map_modify_of_eq
      (f := Scope.kind) (g := fun s => { s with children := s.children ++ [t.size] })
      (fun _ => rfl) l p
    rw [kinds, addScope, hmodify, List.map_append, List.map_singleton, kinds]

end ScopeTree

namespace TreeBuilder

variable {b b' : TreeBuilder}

lemma kinds_act {e : Event} (he : b.act e = .ok b') :
    b'.tree.kinds = b.tree.kinds ++ Action.kinds [e.action] := by
  cases ha : e.action with
  | enter kind label position =>
    obtain ⟨-, label', rfl⟩ := enter_eq_ok ha he
    exact ScopeTree.kinds_addScope _ _ _ _ _
  | mention name how position =>
    obtain ⟨s, -, rfl⟩ := mention_eq_ok ha he
    exact (ScopeTree.kinds_eq_of_bare_eq (bare_addMention _ _ _ _ _ _)).trans
      (List.append_nil _).symm
  | exit =>
    obtain ⟨i, outer, -, rfl⟩ := exit_eq_ok ha he
    exact (List.append_nil _).symm

lemma kinds_feed {events : List Event} (he : b.feed events = (b', none)) :
    b'.tree.kinds = b.tree.kinds ++ Action.kinds (events.map Event.action) := by
  induction events generalizing b with
  | nil =>
    rw [feed, Prod.mk.injEq] at he
    rw [← he.1]
    exact (List.append_nil _).symm
  | cons e rest ih =>
    rw [feed_cons] at he
    cases hact : b.tick.act e with
    | error fault => simp [hact] at he
    | ok b₁ =>
      simp only [hact] at he
      rw [ih he, kinds_act hact, List.append_assoc, ← Action.kinds_append]
      rfl

end TreeBuilder

namespace ScopeTree

variable {unitName filename : Option String} {events : List Event} {t : ScopeTree}

/-- The scopes of a tree are those that its stream enters. -/
lemma kinds_ofEvents (he : ofEvents unitName filename events = .ok t) :
    t.kinds = Action.kinds (events.map Event.action) := by
  rw [ofEvents] at he
  split at he
  · next b hfeed =>
    obtain rfl := Except.ok.inj he
    exact TreeBuilder.kinds_feed hfeed
  · exact absurd he (by simp)

lemma size_ofEvents (he : ofEvents unitName filename events = .ok t) :
    t.size = Action.entered (events.map Event.action) := by
  rw [Action.entered, ← kinds_ofEvents he, kinds, List.length_map, size]

end ScopeTree

end TargetScope
