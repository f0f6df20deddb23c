import TargetScope.Proofs.Balance
import TargetScope.Proofs.Law

/-!
# Classification in closed form

A builder keeps a binding for each scope and name, and changes it with every mention.  What it
arrives at is told here without its steps, by the mentions that stand in the stream and by the
scopes of the tree (`ScopeTree.AmountsTo`): first mentions decide for parameters, iteration
variables and plain bindings, last ones for outer declarations, and a name that is only a target has
its binding from the first target that reaches the function while nothing on the way blocks the
name.

The rules on a history (`History.decisive?`) are searches in a list.  Since the mentions are in
program order, a search from the front finds the mention with the least number, and one from the
back that with the greatest (`isFirst_iff_find?`, `isLast_iff_find?`).
-/

namespace TargetScope

/-! ## First and last members -/

section FirstAndLast

variable {α : Type} {order : α → Int} {p q : α → Prop} {l : List α} {x : α}

/-- Among the members of the list with the property, `x` has the least number. -/
def IsFirst (order : α → Int) (p : α → Prop) (l : List α) (x : α) : Prop :=
  x ∈ l ∧ p x ∧ ∀ y ∈ l, p y → order x ≤ order y

/-- Among the members of the list with the property, `x` has the greatest number. -/
def IsLast (order : α → Int) (p : α → Prop) (l : List α) (x : α) : Prop :=
  x ∈ l ∧ p x ∧ ∀ y ∈ l, p y → order y ≤ order x

lemma isFirst_congr (h : ∀ y ∈ l, (p y ↔ q y)) : IsFirst order p l x ↔ IsFirst order q l x := by
  refine and_congr_right fun hx => and_congr (h x hx) ?_
  exact forall₂_congr fun y hy => by rw [h y hy]

/-- A search from the front of an increasing list finds the first member with the property. -/
lemma isFirst_iff_find? [DecidablePred p] (hl : l.Pairwise fun y z => order y < order z) :
    IsFirst order p l x ↔ l.find? (fun y => p y) = some x := by
  rw [List.find?_eq_some_iff_append]
  constructor
  · rintro ⟨hx, hpx, hmin⟩
    obtain ⟨before, after, rfl⟩ := List.append_of_mem hx
    refine ⟨decide_eq_true hpx, before, after, rfl, ?_⟩
    intro y hy
    have hyx : order y < order x :=
      (List.pairwise_append.1 hl).2.2 y hy x List.mem_cons_self
    have hpy : ¬p y := fun hpy =>
      Int.not_le.2 hyx (hmin y (List.mem_append_left _ hy) hpy)
    simp [hpy]
  · rintro ⟨hpx, before, after, rfl, hbefore⟩
    refine ⟨by simp, of_decide_eq_true hpx, ?_⟩
    intro y hy hpy
    rcases List.mem_append.1 hy with hy | hy
    · simpa [hpy] using hbefore y hy
    · rcases List.mem_cons.1 hy with rfl | hy
      · exact Int.le_refl _
      · have hafter := (List.pairwise_cons.1 (List.pairwise_append.1 hl).2.1).1
        exact Int.le_of_lt (hafter y hy)

lemma exists_isFirst (hl : l.Pairwise fun y z => order y < order z) (hx : x ∈ l) (hpx : p x) :
    ∃ y, IsFirst order p l y := by
  classical
  obtain ⟨y, hy⟩ := Option.isSome_iff_exists.1
    (List.find?_isSome.2 ⟨x, hx, decide_eq_true hpx⟩ : (l.find? fun y => p y).isSome = true)
  exact ⟨y, (isFirst_iff_find? hl).2 hy⟩

/-- A search from the back of an increasing list finds the last member with the property. -/
lemma isLast_iff_find? [DecidablePred p] (hl : l.Pairwise fun y z => order y < order z) :
    IsLast order p l x ↔ l.reverse.find? (fun y => p y) = some x := by
  -- backwards, and with the numbers negated, the list is increasing again
  have hrev : l.reverse.Pairwise fun y z => -order y < -order z :=
    List.pairwise_reverse.2 (hl.imp Int.neg_lt_neg)
  rw [← isFirst_iff_find? hrev, IsFirst, IsLast]
  simp only [List.mem_reverse, Int.neg_le_neg_iff]

end FirstAndLast

/-! ## Mentions and events -/

section Mentions

variable {c : Cursor} {events before after : List Event} {e : Event} {o : Occurrence}
  {name : String} {how : Mention} {position : Option Position}

lemma Cursor.occurrence?_eq_some_iff :
    c.occurrence? e = some o ↔
      e.action = .mention o.name o.how o.position ∧ o.order = c.clock + 1 ∧ o.path = c.path := by
  rw [Cursor.occurrence?]
  split
  · next name how position scope around ha hp =>
    rw [ha, hp]
    cases o
    simp only [Option.some.injEq, Occurrence.mk.injEq, Action.mention.injEq, Occurrence.path,
      List.cons.injEq]
    tauto
  · next hne =>
    refine iff_of_false (by simp) ?_
    rintro ⟨ha, -, hp⟩
    exact hne o.name o.how o.position o.scope o.around ha hp.symm

/-- The history consists of the mentions among the events, each with its number and with the scopes
that are open then. -/
lemma mem_history_iff :
    o ∈ history events ↔ ∃ before e after, events = before ++ e :: after ∧
      e.action = .mention o.name o.how o.position ∧ o.order = before.length + 1 ∧
        o.path = (Cursor.afterAll {} before).path := by
  have hmem : ∀ c : Cursor, o ∈ historyFrom c events ↔ ∃ before e after,
      events = before ++ e :: after ∧ (c.afterAll before).occurrence? e = some o := by
    induction events with
    | nil => simp [historyFrom]
    | cons e rest ih =>
      intro c
      rw [historyFrom, List.mem_append, Option.mem_toList, ih]
      constructor
      · rintro (ho | ⟨before, e', after, rfl, ho⟩)
        · exact ⟨[], e, rest, rfl, ho⟩
        · exact ⟨e :: before, e', after, rfl, ho⟩
      · rintro ⟨before, e', after, heq, ho⟩
        cases before with
        | nil =>
          obtain ⟨rfl, rfl⟩ := List.cons.inj heq
          exact Or.inl ho
        | cons d before =>
          obtain ⟨rfl, rfl⟩ := List.cons.inj heq
          exact Or.inr ⟨before, e', after, rfl, ho⟩
  rw [history, hmem]
  refine exists₃_congr fun before e after => and_congr_right' ?_
  rw [Cursor.occurrence?_eq_some_iff, Cursor.clock_afterAll, Int.zero_add]

/-- Every mention in a stream that describes a tree is in the history. -/
lemma exists_mem_history {unitName filename : Option String} {t : ScopeTree}
    (he : ScopeTree.ofEvents unitName filename events = .ok t) (h : events = before ++ e :: after)
    (ha : e.action = .mention name how position) :
    ∃ o ∈ history events, o.name = name ∧ o.how = how ∧ o.position = position ∧
      o.order = before.length + 1 ∧ o.path = (Cursor.afterAll {} before).path := by
  obtain ⟨hw, -, -⟩ := ScopeTree.exists_ofEvents_iff.1 ⟨t, he⟩
  have hsplit : events.map Event.action =
      before.map Event.action ++ e.action :: after.map Event.action := by simp [h]
  -- a scope is open there, since the mention would be misplaced else
  have hdepth : Action.depth (before.map Event.action) ≠ 0 := fun h0 =>
    hw _ _ _ hsplit ⟨h0, by simp [ha, Action.entersModule]⟩
  have hnonneg : ∀ front rest, before.map Event.action = front ++ rest →
      0 ≤ 0 + Action.depth front := by
    intro front rest hfront
    rw [Int.zero_add]
    have hfrontw : Action.WellPlaced (front ++ (rest ++ e.action :: after.map Event.action)) := by
      rwa [← List.append_assoc, ← hfront, ← hsplit]
    exact hfrontw.of_append.depth_nonneg
  have hnested : Cursor.Nested {} [] 0 0 := ⟨⟨[], rfl, rfl, by simp⟩, Nat.le_refl 0⟩
  obtain ⟨inner, hpath, hlength, -⟩ := (hnested.afterAll hnonneg).1.path_eq
  cases hp : (Cursor.afterAll {} before).path with
  | nil =>
    rw [hp, List.append_nil] at hpath
    rw [← hpath, List.length_nil] at hlength
    omega
  | cons scope around =>
    refine ⟨{ name, how, position, order := before.length + 1, scope, around }, ?_, rfl, rfl, rfl,
      rfl, rfl⟩
    exact mem_history_iff.2 ⟨before, e, after, h, ha, rfl, hp.symm⟩

end Mentions

/-! ## The rules -/

/-- The mention is one of the name, directly in the scope at the place `i`, and gives it one of the
roles. -/
def Occurrence.Gives (o : Occurrence) (i : Nat) (name : String) (roles : BindingRole → Bool) :
    Prop :=
  o.scope.index = i ∧ o.name = name ∧ roles o.role = true

instance (o : Occurrence) (i : Nat) (name : String) (roles : BindingRole → Bool) :
    Decidable (o.Gives i name roles) :=
  inferInstanceAs (Decidable (_ ∧ _ ∧ _))

namespace ScopeTree

/-- The mention is a target of the name, it stands in the block scope `s` or in a scope that is
separated from `s` by transparent scopes only, and no mention before it has given the name a
blocking role in one of the transparent scopes from there to `s`. -/
def ReachesBlock (t : ScopeTree) (h : History) (s : Scope) (name : String) (o : Occurrence) :
    Prop :=
  (∃ operator, o.how = .target operator) ∧ o.name = name ∧
    ∃ c, t.scope? o.scope.index = some c ∧ t.nearestBlock c = some s ∧
      ∀ d ∈ t.transparentPath c, ∀ p ∈ h, p.order < o.order →
        ¬p.Gives d.index name BindingRole.isBlocking

/-- What the mentions of a name amount to in the scope `s` of a tree: its binding there, or none. -/
inductive AmountsTo (t : ScopeTree) (h : History) (s : Scope) (name : String) :
    Option Binding → Prop
  /-- The first mention as a parameter or an iteration variable decides. -/
  | blocking {o : Occurrence}
    (ho : IsFirst Occurrence.order (·.Gives s.index name BindingRole.isBlocking) h o) :
    AmountsTo t h s name
      (some { name, role := o.role, declaredAt := o.position, boundOrder := some o.order })
  /-- Else the last declaration as an outer name decides. -/
  | outer {o : Occurrence}
    (hblocking : ∀ p ∈ h, ¬p.Gives s.index name BindingRole.isBlocking)
    (ho : IsLast Occurrence.order (·.Gives s.index name BindingRole.isOuter) h o) :
    AmountsTo t h s name
      (some { name, role := o.role, declaredAt := o.position, boundOrder := some o.order })
  /-- Else the first assignment or declaration of a type decides. -/
  | plain {o : Occurrence}
    (hblocking : ∀ p ∈ h, ¬p.Gives s.index name BindingRole.isBlocking)
    (houter : ∀ p ∈ h, ¬p.Gives s.index name BindingRole.isOuter)
    (ho : IsFirst Occurrence.order (·.Gives s.index name (· = .plain)) h o) :
    AmountsTo t h s name
      (some { name, role := .plain, declaredAt := o.position, boundOrder := some o.order })
  /-- Else, in a function, the first target decides that reaches it; the name has no number then. -/
  | target {o : Occurrence}
    (hblocking : ∀ p ∈ h, ¬p.Gives s.index name BindingRole.isBlocking)
    (houter : ∀ p ∈ h, ¬p.Gives s.index name BindingRole.isOuter)
    (hplain : ∀ p ∈ h, ¬p.Gives s.index name (· = .plain))
    (hk : s.kind = .functionBody)
    (ho : IsFirst Occurrence.order (t.ReachesBlock h s name) h o) :
    AmountsTo t h s name (some { name, role := .targetOnly, declaredAt := o.position })
  /-- Else the scope has no binding of the name. -/
  | absent
    (hblocking : ∀ p ∈ h, ¬p.Gives s.index name BindingRole.isBlocking)
    (houter : ∀ p ∈ h, ¬p.Gives s.index name BindingRole.isOuter)
    (hplain : ∀ p ∈ h, ¬p.Gives s.index name (· = .plain))
    (htarget : s.kind = .functionBody → ∀ p ∈ h, ¬t.ReachesBlock h s name p) :
    AmountsTo t h s name none

end ScopeTree

/-! ## The rules and the searches in a history -/

section Searches

variable {h : History} {i : Nat} {name : String} {roles : BindingRole → Bool} {o : Occurrence}

lemma Occurrence.decide_gives :
    decide (o.Gives i name roles) = (o.isAt i name && roles o.role) := by
  rw [Bool.eq_iff_iff, decide_eq_true_eq, Gives, isAt]
  simp [and_assoc]

lemma find?_isAt_eq_none_iff {l : List Occurrence} :
    l.find? (fun p => p.isAt i name && roles p.role) = none ↔ ∀ p ∈ l, ¬p.Gives i name roles := by
  simp only [List.find?_eq_none, ← Occurrence.decide_gives, decide_eq_true_eq]

namespace History

lemma blocker?_eq_none_iff :
    h.blocker? i name = none ↔ ∀ p ∈ h, ¬p.Gives i name BindingRole.isBlocking :=
  find?_isAt_eq_none_iff

lemma outer?_eq_none_iff :
    h.outer? i name = none ↔ ∀ p ∈ h, ¬p.Gives i name BindingRole.isOuter := by
  rw [outer?, find?_isAt_eq_none_iff]
  simp only [List.mem_reverse]

/-- A mention is not obstructed if no mention before it blocks the name on its way. -/
lemma obstructs_eq_false_iff : h.obstructs o = false ↔ ∀ f ∈ o.transparentPath, ∀ p ∈ h,
    p.order < o.order → ¬p.Gives f.index o.name BindingRole.isBlocking := by
  rw [Bool.eq_false_iff, obstructs, Ne, List.any_eq_true]
  constructor
  · rintro hnone f hf p hp hlt ⟨hi, hn, hbl⟩
    refine hnone ⟨p, hp, ?_⟩
    rw [Bool.and_eq_true, Bool.and_eq_true, decide_eq_true_eq, List.any_eq_true]
    exact ⟨⟨hlt, hbl⟩, f, hf, by simp [Occurrence.isAt, hi, hn]⟩
  · rintro hnone ⟨p, hp, hobs⟩
    rw [Bool.and_eq_true, Bool.and_eq_true, decide_eq_true_eq, List.any_eq_true] at hobs
    obtain ⟨⟨hlt, hbl⟩, f, hf, hat⟩ := hobs
    rw [Occurrence.isAt, Bool.and_eq_true, decide_eq_true_eq, decide_eq_true_eq] at hat
    exact hnone f hf p hp hlt ⟨hat.1, hat.2, hbl⟩

lemma plain?_eq_none_iff : h.plain? i name = none ↔ ∀ p ∈ h, ¬p.Gives i name (· = .plain) :=
  @find?_isAt_eq_none_iff i name (· = .plain) h

variable (ho : h.Pairwise fun o p => o.order < p.order)

include ho

lemma blocker?_eq_some_iff : h.blocker? i name = some o ↔
    IsFirst Occurrence.order (·.Gives i name BindingRole.isBlocking) h o := by
  simp only [isFirst_iff_find? ho, Occurrence.decide_gives, blocker?]

lemma outer?_eq_some_iff : h.outer? i name = some o ↔
    IsLast Occurrence.order (·.Gives i name BindingRole.isOuter) h o := by
  simp only [isLast_iff_find? ho, Occurrence.decide_gives, outer?]

lemma plain?_eq_some_iff : h.plain? i name = some o ↔
    IsFirst Occurrence.order (·.Gives i name (· = .plain)) h o := by
  simp only [isFirst_iff_find? ho, Occurrence.decide_gives, plain?]

end History

end Searches

lemma History.binding_of_bareTarget? {h : History} {i : Nat} {name : String} {o : Occurrence}
    (ho : h.bareTarget? i name = some o) :
    o.binding = { name, role := .targetOnly, declaredAt := o.position } := by
  obtain ⟨-, -, rfl, hr⟩ := of_bareTarget? ho
  rw [Occurrence.binding, hr, if_pos rfl]

lemma Occurrence.Gives.binding_eq {o : Occurrence} {i : Nat} {name : String}
    {roles : BindingRole → Bool} (ho : o.Gives i name roles) (hr : roles .targetOnly = false) :
    o.binding =
      { name, role := o.role, declaredAt := o.position, boundOrder := some o.order } := by
  obtain ⟨-, rfl, hroles⟩ := ho
  have hne : o.role ≠ .targetOnly := fun heq => by simp [heq, hr] at hroles
  rw [Occurrence.binding, if_neg hne]

namespace ScopeTree

variable {t : ScopeTree} {h : History} {i : Nat} {s : Scope} {name : String} {o : Occurrence}

/-- No two scopes of a tree have the same frame. -/
lemma Arena.frame_eq_iff (ht : t.Arena) {j : Nat} {s' : Scope} (hs : t.scope? i = some s)
    (hs' : t.scope? j = some s') : s.frame = s'.frame ↔ s = s' := by
  refine ⟨fun heq => ?_, congrArg Scope.frame⟩
  have hindex : s.index = s'.index := congrArg Frame.index heq
  rw [ht.index_eq hs, ht.index_eq hs'] at hindex
  rw [hindex, hs'] at hs
  exact (Option.some.inj hs).symm

namespace Classified

/-- The scopes on the way of a mention outward to its block, in any tree that is equal to that of
the stream up to bindings. -/
lemma exists_nearestBlock (hc : t.Classified h) (ho : o ∈ h) {u : ScopeTree}
    (hbare : u.bare = t.bare) :
    ∃ c block, u.scope? o.scope.index = some c ∧ u.nearestBlock c = some block ∧
      u.scope? o.block.index = some block ∧ block.frame = o.block ∧
      (u.transparentPath c).map Scope.frame = o.transparentPath := by
  obtain ⟨c, hcs⟩ : ∃ c, u.scope? o.scope.index = some c :=
    exists_scope?_of_lt ((size_eq_of_bare_eq hbare).symm ▸ hc.index_lt ho)
  have hpath : o.path = (u.chain c).map Scope.frame := by
    rw [hc.path_eq o ho, ← frames_eq_of_bare_eq hbare, frames_of_scope? hcs]
  have hfind := hc.find?_isBlock_path ho
  rw [hpath, ← map_frame_nearestBlock, Option.map_eq_some_iff] at hfind
  obtain ⟨block, hblock, hframe⟩ := hfind
  have hmem := ((hc.arena.of_bare_eq hbare).scope?_of_mem_chain hcs
    (List.mem_of_find?_eq_some hblock)).1
  refine ⟨c, block, hcs, hblock, ?_, hframe, ?_⟩
  · rwa [← hframe]
  · rw [map_frame_transparentPath, ← hpath]
    rfl

lemma reachesBlock_iff (hc : t.Classified h) (ho : o ∈ h) (hs : t.scope? i = some s)
    (hk : s.kind = .functionBody) :
    t.ReachesBlock h s name o ↔ (o.role = .targetOnly && o.name = name &&
      o.block = ⟨i, .functionBody⟩ && !h.obstructs o) = true := by
  obtain ⟨c, block, hcs, hblock, hbs, hframe, hpath⟩ := hc.exists_nearestBlock ho rfl
  have hi : s.frame = ⟨i, .functionBody⟩ := by rw [Scope.frame, hc.arena.index_eq hs, hk]
  have htarget : (∃ operator, o.how = .target operator) ↔ o.role = .targetOnly := by
    refine ⟨?_, Mention.eq_target_of_role⟩
    rintro ⟨operator, hhow⟩
    rw [Occurrence.role, hhow, Mention.role]
  have hsame : block = s ↔ o.block = ⟨i, .functionBody⟩ := by
    rw [← hframe, ← hi, hc.arena.frame_eq_iff hbs hs]
  have hopen : (∀ d ∈ t.transparentPath c, ∀ p ∈ h, p.order < o.order →
      ¬p.Gives d.index o.name BindingRole.isBlocking) ↔ h.obstructs o = false := by
    rw [History.obstructs_eq_false_iff, ← hpath, List.forall_mem_map]
    rfl
  simp only [Bool.and_eq_true, decide_eq_true_eq, Bool.not_eq_true', ReachesBlock, htarget, hcs,
    Option.some.injEq, exists_eq_left', hblock, hsame, and_assoc]
  refine and_congr_right fun _ => and_congr_right fun hn => and_congr_right fun _ => ?_
  rw [← hn, hopen]

/-- The first target that reaches a function unobstructed. -/
lemma bareTarget?_eq_some_iff (hc : t.Classified h) (hs : t.scope? i = some s)
    (hk : s.kind = .functionBody) :
    h.bareTarget? i name = some o ↔ IsFirst Occurrence.order (t.ReachesBlock h s name) h o := by
  rw [isFirst_congr fun p hp => hc.reachesBlock_iff hp hs hk, isFirst_iff_find? hc.ordered,
    History.bareTarget?]
  simp only [Bool.decide_eq_true]

lemma bareTarget?_eq_none_iff (hc : t.Classified h) (hs : t.scope? i = some s) :
    h.bareTarget? i name = none ↔
      (s.kind = .functionBody → ∀ p ∈ h, ¬t.ReachesBlock h s name p) := by
  rw [History.bareTarget?, List.find?_eq_none]
  constructor
  · intro hnone hk p hp
    rw [hc.reachesBlock_iff hp hs hk]
    exact hnone p hp
  · intro hnone p hp hreach
    have hblock : p.block = ⟨i, .functionBody⟩ := by
      simp only [Bool.and_eq_true, decide_eq_true_eq] at hreach
      exact hreach.1.2
    obtain ⟨block, hbs, hframe⟩ := hc.exists_block hp
    obtain rfl : block = s := by
      rw [hblock, hs] at hbs
      exact (Option.some.inj hbs).symm
    have hk : block.kind = .functionBody := by rw [← block.kind_frame, hframe, hblock]
    exact hnone hk p hp ((hc.reachesBlock_iff hp hs hk).2 hreach)

/-- Only a function has a binding of a name that is only a target. -/
lemma kind_of_bareTarget? (hc : t.Classified h) (hs : t.scope? i = some s)
    (ho : h.bareTarget? i name = some o) : s.kind = .functionBody := by
  have hof := History.of_bareTarget? ho
  obtain ⟨block, hbs, hframe⟩ := hc.exists_block hof.1
  rw [hof.2.1, hs] at hbs
  rw [Option.some.inj hbs, ← block.kind_frame, hframe, hof.2.1]

/-- A scope has the binding that the mentions of its name amount to. -/
lemma amountsTo_binding? (hc : t.Classified h) (hs : t.scope? i = some s) (name : String) :
    t.AmountsTo h s name (h.binding? i name) := by
  obtain rfl := hc.arena.index_eq hs
  rw [History.binding?, History.decisive?]
  cases hb : h.blocker? s.index name with
  | some o =>
    have ho := (History.blocker?_eq_some_iff hc.ordered).1 hb
    rw [Option.some_or, Option.map_some, ho.2.1.binding_eq rfl]
    exact .blocking ho
  | none =>
    have hblocking := History.blocker?_eq_none_iff.1 hb
    cases hu : h.outer? s.index name with
    | some o =>
      have ho := (History.outer?_eq_some_iff hc.ordered).1 hu
      rw [Option.none_or, Option.some_or, Option.map_some, ho.2.1.binding_eq rfl]
      exact .outer hblocking ho
    | none =>
      have houter := History.outer?_eq_none_iff.1 hu
      cases hp : h.plain? s.index name with
      | some o =>
        have ho := (History.plain?_eq_some_iff hc.ordered).1 hp
        have hr : o.role = .plain := (History.of_plain? hp).2.2.2
        rw [Option.none_or, Option.none_or, Option.some_or, Option.map_some,
          ho.2.1.binding_eq rfl, hr]
        exact .plain hblocking houter ho
      | none =>
        have hplain := History.plain?_eq_none_iff.1 hp
        rw [Option.none_or, Option.none_or, Option.none_or]
        cases hbare : h.bareTarget? s.index name with
        | some o =>
          have hk := hc.kind_of_bareTarget? hs hbare
          rw [Option.map_some, History.binding_of_bareTarget? hbare]
          exact .target hblocking houter hplain hk ((hc.bareTarget?_eq_some_iff hs hk).1 hbare)
        | none =>
          exact .absent hblocking houter hplain ((hc.bareTarget?_eq_none_iff hs).1 hbare)

/-- The mentions of a name amount to nothing else. -/
lemma binding?_of_amountsTo (hc : t.Classified h) (hs : t.scope? i = some s) {x : Option Binding}
    (hx : t.AmountsTo h s name x) : h.binding? i name = x := by
  obtain rfl := hc.arena.index_eq hs
  rw [History.binding?, History.decisive?]
  cases hx with
  | blocking ho =>
    rw [(History.blocker?_eq_some_iff hc.ordered).2 ho, Option.some_or, Option.map_some,
      ho.2.1.binding_eq rfl]
  | outer hblocking ho =>
    rw [History.blocker?_eq_none_iff.2 hblocking, (History.outer?_eq_some_iff hc.ordered).2 ho,
      Option.none_or, Option.some_or, Option.map_some, ho.2.1.binding_eq rfl]
  | @plain o hblocking houter ho =>
    have hr : o.role = .plain := of_decide_eq_true ho.2.1.2.2
    rw [History.blocker?_eq_none_iff.2 hblocking, History.outer?_eq_none_iff.2 houter,
      (History.plain?_eq_some_iff hc.ordered).2 ho, Option.none_or, Option.none_or,
      Option.some_or, Option.map_some, ho.2.1.binding_eq rfl, hr]
  | target hblocking houter hplain hk ho =>
    have hbare := (hc.bareTarget?_eq_some_iff hs hk).2 ho
    rw [History.blocker?_eq_none_iff.2 hblocking, History.outer?_eq_none_iff.2 houter,
      History.plain?_eq_none_iff.2 hplain, hbare, Option.none_or, Option.none_or, Option.none_or,
      Option.map_some, History.binding_of_bareTarget? hbare]
  | absent hblocking houter hplain htarget =>
    rw [History.blocker?_eq_none_iff.2 hblocking, History.outer?_eq_none_iff.2 houter,
      History.plain?_eq_none_iff.2 hplain, (hc.bareTarget?_eq_none_iff hs).2 htarget,
      Option.none_or, Option.none_or, Option.none_or, Option.map_none]

end Classified

/-- Classification in closed form.  Let a stream describe a tree.  Every mention in the stream
stands in a scope of the tree, below the scopes that are open around it, and there are no other
mentions.  In every scope, each name has the binding that its mentions amount to, and no other; and
there is one binding for a name at most.  No binding has an owner or has been promoted, and none is
implicit. -/
theorem binding?_eq_iff_amountsTo {unitName filename : Option String} {events : List Event}
    (he : ofEvents unitName filename events = .ok t) :
    (∀ before e after name how position, events = before ++ e :: after →
      e.action = .mention name how position →
      ∃ o ∈ history events, o.name = name ∧ o.how = how ∧ o.position = position ∧
        o.order = before.length + 1 ∧
        ∃ c, t.scope? o.scope.index = some c ∧
          (t.chain c).map Scope.frame = (Cursor.afterAll {} before).path) ∧
    (∀ o ∈ history events, ∃ before e after, events = before ++ e :: after ∧
      e.action = .mention o.name o.how o.position ∧ o.order = before.length + 1) ∧
    ∀ i s, t.scope? i = some s →
      (∀ name x, s.binding? name = x ↔ t.AmountsTo (history events) s name x) ∧
      ∀ b ∈ s.bindings, s.binding? b.name = some b ∧
        b.owner = none ∧ b.promotedFrom = none ∧ b.implicit = false := by
  have hc := classified_ofEvents he
  refine ⟨?_, ?_, fun i s hs => ⟨?_, ?_⟩⟩
  · intro before e after name how position hsplit ha
    obtain ⟨o, ho, hn, hhow, hp, horder, hpath⟩ := exists_mem_history he hsplit ha
    obtain ⟨c, hcs⟩ := exists_scope?_of_lt (hc.index_lt ho)
    refine ⟨o, ho, hn, hhow, hp, horder, c, hcs, ?_⟩
    rw [← frames_of_scope? hcs, ← hc.path_eq o ho, hpath]
  · intro o ho
    obtain ⟨before, e, after, hsplit, ha, horder, -⟩ := mem_history_iff.1 ho
    exact ⟨before, e, after, hsplit, ha, horder⟩
  · intro name x
    rw [hc.binding?_eq_of_scope? hs]
    constructor
    · rintro rfl
      exact hc.amountsTo_binding? hs name
    · exact hc.binding?_of_amountsTo hs
  · intro b hb
    have hfind := hc.names.binding?_of_mem hs hb
    have hbinding := hc.binding?_eq_of_scope? hs b.name
    rw [hfind] at hbinding
    obtain ⟨o, -, rfl⟩ := Option.map_eq_some_iff.1 hbinding.symm
    exact ⟨hfind, rfl, rfl, rfl⟩

/-- In `g`, the declaration of `x` decides and not the target before it, and `y` is only a target,
since it becomes a parameter of the closure behind that target. -/
theorem amountsTo_mixedTargets :
    ∃ t s, ofEvents none none mixedTargets = .ok t ∧ t.scope? 2 = some s ∧
      t.AmountsTo (history mixedTargets) s "x"
        (some { name := "x", role := .outerFunction, boundOrder := some 6 }) ∧
      t.AmountsTo (history mixedTargets) s "y" (some { name := "y", role := .targetOnly }) := by
  have he : ofEvents none none mixedTargets = .ok _ := rfl
  obtain ⟨hscope, -⟩ := (binding?_eq_iff_amountsTo he).2.2 2 _ rfl
  exact ⟨_, _, he, rfl, (hscope "x" _).1 rfl, (hscope "y" _).1 rfl⟩

end ScopeTree

end TargetScope
