import TargetScope.Proofs.Balance

/-!
# Which streams describe a tree, and what is wrong with the others

A stream of events describes a tree if it begins with the entry of a module and its actions are
balanced like brackets, of which the outermost pair is closed by the last action
(`Action.WellFormed`).  Every other stream has exactly one violation (`Violation`): its first event
that is out of place, or the innermost scope that is never left, or that there is no event at all.
The main result is `ScopeTree.ofEvents_accepts_or_names_violation`.

A scope is open as long as no action behind its entry leaves it (`Action.StaysIn`), and it stands
among the open scopes as deep as the actions behind its entry go
(`TreeBuilder.Heads.getElem?_openScopes`).  So the innermost open scope is the last one with a
balanced rest behind its entry, and it is still what its entry made it.
-/

namespace TargetScope

namespace Action

variable {a : Action} {actions before after inner : List Action}

/-! ## Counting -/

/-- The number of actions that leave a scope. -/
def left (actions : List Action) : Nat :=
  actions.countP (· = .exit)

/-- The depth is what is entered and not left. -/
lemma depth_eq_entered_sub_left (actions : List Action) :
    depth actions = entered actions - left actions := by
  induction actions with
  | nil => rfl
  | cons a actions ih =>
    rw [depth_cons, entered_cons, ih, left, left, List.countP_cons]
    cases a <;> simp [delta] <;> omega

/-- The stream begins with the entry of a module, more scopes have been entered than left everywhere
between its first and its last action, and all are left in the end. -/
structure WellFormed (actions : List Action) : Prop where
  /-- The first action enters a module. -/
  first : ∃ a rest, actions = a :: rest ∧ a.entersModule = true
  /-- A scope is open everywhere in between. -/
  between : ∀ before after, actions = before ++ after → before ≠ [] → after ≠ [] →
    left before < entered before
  /-- All scopes are left. -/
  closed : left actions = entered actions

/-- No action is out of place and all scopes are left: that is the same. -/
lemma wellFormed_iff :
    WellFormed actions ↔ WellPlaced actions ∧ depth actions = 0 ∧ actions ≠ [] := by
  have hdepth := depth_eq_entered_sub_left
  constructor
  · intro h
    obtain ⟨a, rest, hcons, ha⟩ := h.first
    refine ⟨?_, by rw [hdepth, h.closed]; omega, by simp [hcons]⟩
    intro before c after hsplit hc
    cases before with
    | nil =>
      -- the first action is the entry of a module
      obtain ⟨rfl, -⟩ := List.cons.inj (hcons.symm.trans hsplit)
      exact hc.2 ⟨rfl, ha⟩
    | cons d before =>
      have hlt := h.between (d :: before) (c :: after) hsplit (by simp) (by simp)
      have hzero := hc.1
      rw [hdepth] at hzero
      omega
  · rintro ⟨hw, hzero, hne⟩
    obtain ⟨a, rest, rfl⟩ := List.exists_cons_of_ne_nil hne
    refine ⟨⟨a, rest, rfl, ?_⟩, ?_, ?_⟩
    · have ha : ¬a.Misplaced [] := hw [] a rest rfl
      simpa [Misplaced] using ha
    · intro before after hsplit hbefore hafter
      obtain ⟨c, after, rfl⟩ := List.exists_cons_of_ne_nil hafter
      -- otherwise the action behind `before` would be out of place
      have hc : depth before ≠ 0 := fun h0 => hw before c after hsplit ⟨h0, by simp [hbefore]⟩
      rw [hsplit] at hw
      have hpos := hw.of_append.depth_nonneg
      rw [hdepth] at hc hpos
      omega
    · rw [hdepth] at hzero
      omega

/-! ## Open scopes -/

/-- No scope is left along the actions but those that are entered by them. -/
def StaysIn (actions : List Action) : Prop :=
  ∀ before after, actions = before ++ after → 0 ≤ depth before

lemma staysIn_nil : StaysIn [] := by
  intro before after h
  obtain ⟨rfl, -⟩ := List.append_eq_nil_iff.1 h.symm
  rfl

lemma StaysIn.depth_nonneg (h : StaysIn actions) : 0 ≤ depth actions :=
  h actions [] (by simp)

/-- A split of a list with one more action behind its last cuts off that action, or comes from a
split of the list. -/
lemma concat_eq_append_cons {c : Action} (h : actions ++ [a] = before ++ c :: inner) :
    (actions = before ∧ a = c ∧ inner = []) ∨
      ∃ inner', inner = inner' ++ [a] ∧ actions = before ++ c :: inner' := by
  rcases List.eq_nil_or_concat inner with rfl | ⟨inner', d, rfl⟩
  · obtain ⟨hbefore, hd⟩ := List.append_inj' h rfl
    exact Or.inl ⟨hbefore, (List.cons.inj hd).1, rfl⟩
  · have h' : actions ++ [a] = (before ++ c :: inner') ++ [d] := by simpa using h
    obtain ⟨hbefore, hd⟩ := List.append_inj' h' rfl
    obtain rfl := (List.cons.inj hd).1
    exact Or.inr ⟨inner', by simp, hbefore⟩

lemma staysIn_concat_iff :
    StaysIn (actions ++ [a]) ↔ StaysIn actions ∧ 0 ≤ depth (actions ++ [a]) := by
  constructor
  · intro h
    exact ⟨fun before after hsplit => h before (after ++ [a]) (by simp [hsplit]), h.depth_nonneg⟩
  · rintro ⟨h, hall⟩ before after hsplit
    cases after with
    | nil => simpa [hsplit] using hall
    | cons c after =>
      rcases concat_eq_append_cons hsplit with ⟨rfl, -, -⟩ | ⟨after', -, hsplit'⟩
      · exact h.depth_nonneg
      · exact h before (c :: after') hsplit'

/-- For every depth up to that of a stream, there is an entry behind which the stream is that deep
inside of the scope. -/
lemma exists_entry_of_lt_depth {d : Int} (hd : 0 ≤ d) (hlt : d < depth actions) :
    ∃ before kind label position inner, actions = before ++ enter kind label position :: inner ∧
      StaysIn inner ∧ depth inner = d := by
  induction actions using List.reverseRecOn generalizing d with
  | nil => exact absurd hlt (by simpa using hd)
  | append_singleton actions a ih =>
    rw [depth_concat] at hlt
    -- an entry of the shorter stream, with the new action behind the others
    have hback : 0 ≤ d - a.delta → ∃ before kind label position inner,
        actions ++ [a] = before ++ enter kind label position :: inner ∧
          StaysIn inner ∧ depth inner = d := by
      intro hd'
      obtain ⟨before, kind, label, position, inner, rfl, hstays, hdepth⟩ :=
        ih hd' (by omega)
      have hdepth' : depth (inner ++ [a]) = d := by
        rw [depth_concat, hdepth]
        omega
      exact ⟨before, kind, label, position, inner ++ [a], by simp,
        staysIn_concat_iff.2 ⟨hstays, by omega⟩, hdepth'⟩
    cases a with
    | enter kind label position =>
      rcases Int.lt_or_le 0 d with hpos | hzero
      · exact hback (by simp only [delta]; omega)
      · exact ⟨actions, kind, label, position, [], rfl, staysIn_nil, by simp; omega⟩
    | mention name how position => exact hback (by simpa [delta] using hd)
    | exit => exact hback (by simp only [delta]; omega)

end Action

/-! ## What is open in a builder -/

/-- The scope without what happens in it, and without its surroundings. -/
def Scope.heading (s : Scope) : Scope :=
  { s with parent := none, children := [], bindings := [] }

@[simp] lemma Scope.heading_bare (s : Scope) : s.bare.heading = s.heading := rfl

lemma Scope.describe_heading (s : Scope) : s.heading.describe = s.describe := rfl

/-- The heading of the scope that is entered behind some actions.  Without a label of its own, the
root takes the name of the unit. -/
def Scope.entered (unitName : Option String) (before : List Action) (kind : ScopeKind)
    (label : Option String) (position : Option Position) : Scope where
  index := Action.entered before
  kind
  label := if before = [] then (label.filter (· ≠ "")).or unitName else label
  position

namespace TreeBuilder

variable {b b' : TreeBuilder} {e : Event} {unitName : Option String} {actions : List Action}

/-- The scopes of the builder are those that the actions have entered, and the open ones are those
that have not been left. -/
structure Heads (b : TreeBuilder) (unitName : Option String) (actions : List Action) : Prop where
  unitName_eq : b.tree.unitName = unitName
  size_eq : b.tree.size = Action.entered actions
  heading_eq : ∀ {before kind label position inner},
    actions = before ++ .enter kind label position :: inner →
      (b.tree.scope? (Action.entered before)).map Scope.heading =
        some (.entered unitName before kind label position)
  getElem?_openScopes : ∀ {before kind label position inner},
    actions = before ++ .enter kind label position :: inner → Action.StaysIn inner →
      b.openScopes[(Action.depth inner).toNat]? = some (Action.entered before)

lemma heads_start (unitName filename : Option String) :
    (start unitName filename).Heads unitName [] where
  unitName_eq := rfl
  size_eq := rfl
  heading_eq := fun h => absurd h (by simp)
  getElem?_openScopes := fun h => absurd h (by simp)

namespace Heads

lemma tick (h : b.Heads unitName actions) : b.tick.Heads unitName actions :=
  ⟨h.unitName_eq, h.size_eq, h.heading_eq, h.getElem?_openScopes⟩

/-- A scope that is entered is open, and all others are where they were. -/
lemma addScope (h : b.Heads unitName actions) {kind : ScopeKind} {label label' : Option String}
    {parent : Option Nat} {position : Option Position} (hp : ∀ p ∈ parent, p < b.tree.size)
    (hlabel : label' = (Scope.entered unitName actions kind label position).label) :
    Heads { b with tree := b.tree.addScope kind parent label' position
                   openScopes := b.tree.size :: b.openScopes }
      unitName (actions ++ [.enter kind label position]) where
  unitName_eq := by cases parent <;> exact h.unitName_eq
  size_eq := by
    rw [ScopeTree.size_addScope, h.size_eq, Action.entered_append]
    rfl
  heading_eq := by
    intro before kind' lab pos inner hsplit
    rw [ScopeTree.scope?_addScope _ _ _ _ _ hp]
    rcases Action.concat_eq_append_cons hsplit with ⟨rfl, hc, -⟩ | ⟨inner', -, hactions⟩
    · cases hc
      rw [if_pos h.size_eq.symm, hlabel, h.size_eq]
      rfl
    · have hlt : Action.entered before ≠ b.tree.size := by
        rw [h.size_eq, hactions, Action.entered_append, Action.entered_cons]
        simp [Action.delta]
      rw [if_neg hlt, Option.map_map, ← h.heading_eq hactions]
      congr 1
      funext s
      simp only [Function.comp_apply]
      split <;> rfl
  getElem?_openScopes := by
    intro before kind' lab pos inner hsplit hstays
    rcases Action.concat_eq_append_cons hsplit with ⟨rfl, hc, rfl⟩ | ⟨inner', rfl, hactions⟩
    · simp [h.size_eq]
    · have hstays' := (Action.staysIn_concat_iff.1 hstays).1
      have hnext : (Action.depth (inner' ++ [Action.enter kind label position])).toNat =
          (Action.depth inner').toNat + 1 := by
        have := hstays'.depth_nonneg
        rw [Action.depth_concat, Action.delta]
        omega
      rw [hnext, List.getElem?_cons_succ]
      exact h.getElem?_openScopes hactions hstays'

/-- A mention changes neither the headings nor what is open. -/
lemma of_bare_eq (h : b.Heads unitName actions) {a : Action} (ha : a.delta = 0) {t : ScopeTree}
    (ht : t.bare = b.tree.bare) : Heads { b with tree := t } unitName (actions ++ [a]) where
  unitName_eq := (congrArg ScopeTree.unitName ht).trans h.unitName_eq
  size_eq := by
    rw [ScopeTree.size_eq_of_bare_eq ht, h.size_eq, Action.entered_append, Action.entered_cons, ha]
    rfl
  heading_eq := by
    intro before kind label position inner hsplit
    rcases Action.concat_eq_append_cons hsplit with ⟨rfl, rfl, -⟩ | ⟨inner', -, hactions⟩
    · exact absurd ha (by simp [Action.delta])
    · have hbare := congrArg (fun u : ScopeTree => (u.scope? (Action.entered before)).map
        Scope.heading) ht
      simp only [ScopeTree.scope?_bare, Option.map_map, Function.comp_def, Scope.heading_bare]
        at hbare
      exact hbare.trans (h.heading_eq hactions)
  getElem?_openScopes := by
    intro before kind label position inner hsplit hstays
    rcases Action.concat_eq_append_cons hsplit with ⟨rfl, rfl, -⟩ | ⟨inner', rfl, hactions⟩
    · exact absurd ha (by simp [Action.delta])
    · rw [Action.depth_concat, ha, Int.add_zero]
      exact h.getElem?_openScopes hactions (Action.staysIn_concat_iff.1 hstays).1

/-- Leaving the innermost scope brings all others up by one. -/
lemma tail (h : b.Heads unitName actions) {i : Nat} {outer : List Nat}
    (ho : b.openScopes = i :: outer) :
    Heads { b with openScopes := outer } unitName (actions ++ [.exit]) where
  unitName_eq := h.unitName_eq
  size_eq := by
    rw [h.size_eq, Action.entered_append]
    rfl
  heading_eq := by
    intro before kind label position inner hsplit
    rcases Action.concat_eq_append_cons hsplit with ⟨-, hc, -⟩ | ⟨inner', -, hactions⟩
    · exact absurd hc (by simp)
    · exact h.heading_eq hactions
  getElem?_openScopes := by
    intro before kind label position inner hsplit hstays
    rcases Action.concat_eq_append_cons hsplit with ⟨-, hc, -⟩ | ⟨inner', rfl, hactions⟩
    · exact absurd hc (by simp)
    · obtain ⟨hstays', hdepth⟩ := Action.staysIn_concat_iff.1 hstays
      have hopen := h.getElem?_openScopes hactions hstays'
      have hnext : (Action.depth inner').toNat =
          (Action.depth (inner' ++ [Action.exit])).toNat + 1 := by
        rw [Action.depth_concat, Action.delta] at hdepth ⊢
        omega
      rwa [ho, hnext, List.getElem?_cons_succ] at hopen

/-- One event that is taken. -/
lemma act (h : b.Heads unitName actions) (hb : b.Agrees actions) (hact : b.act e = .ok b') :
    b'.Heads unitName (actions ++ [e.action]) := by
  cases ha : e.action with
  | enter kind label position =>
    rw [act_enter ha] at hact
    split at hact
    · next ho =>
      split at hact
      · simp at hact
      · next hs =>
        split at hact
        · simp at hact
        · next hk =>
          obtain rfl := Except.ok.inj hact
          obtain rfl : kind = .moduleBody := not_not.1 hk
          have hnil : actions = [] := hb.scopes_eq_nil_iff.1 (not_not.1 hs)
          have hlabel : (label.filter (· ≠ "")).or b.tree.unitName =
              (Scope.entered unitName actions .moduleBody label position).label := by
            simp [Scope.entered, hnil, h.unitName_eq]
          have hparent : ∀ p ∈ (none : Option Nat), p < b.tree.size := by simp
          simpa [ho] using h.addScope hparent hlabel
    · next p outer ho =>
      obtain rfl := Except.ok.inj hact
      have hne : actions ≠ [] := by
        intro hnil
        exact hb.size_ne_zero (by simp [ho]) (hb.size_eq_zero_iff.2 hnil)
      have hp : ∀ q ∈ some p, q < b.tree.size := by
        intro q hq
        exact hb.open_lt q (by rw [ho, ← Option.some.inj hq]; exact List.mem_cons_self)
      exact h.addScope hp (by simp [Scope.entered, hne])
  | mention name how position =>
    obtain ⟨s, -, rfl⟩ := mention_eq_ok ha hact
    exact h.of_bare_eq rfl (bare_addMention _ _ _ _ _ _)
  | exit =>
    obtain ⟨i, outer, ho, rfl⟩ := exit_eq_ok ha hact
    exact h.tail ho

end Heads

/-- Events that are all in place are taken one after the other. -/
lemma exists_feed_append (hb : b.Agrees actions) (hh : b.Heads unitName actions)
    {events : List Event} (hw : Action.WellPlaced (actions ++ events.map Event.action)) :
    ∃ b' : TreeBuilder, b'.Agrees (actions ++ events.map Event.action) ∧
      b'.Heads unitName (actions ++ events.map Event.action) ∧
      ∀ rest, b.feed (events ++ rest) = b'.feed rest := by
  induction events generalizing b actions with
  | nil => exact ⟨b, by simpa using hb, by simpa using hh, fun rest => rfl⟩
  | cons e events ih =>
    have happ : actions ++ (e :: events).map Event.action =
        actions ++ [e.action] ++ events.map Event.action := by simp
    have hm : ¬e.action.Misplaced actions := hw actions e.action (events.map Event.action) rfl
    obtain ⟨b₁, hact, hb₁⟩ := hb.tick.act hm
    have hh₁ := hh.tick.act hb.tick hact
    rw [happ] at hw ⊢
    obtain ⟨b', hb', hh', hfeed⟩ := ih hb₁ hh₁ hw
    refine ⟨b', hb', hh', fun rest => ?_⟩
    rw [List.cons_append, feed_cons, hact]
    exact hfeed rest

/-- The innermost open scope is what its entry made it. -/
lemma Heads.unfinished?_eq (h : b.Heads unitName actions) {before : List Action}
    {kind : ScopeKind} {label : Option String} {position : Option Position} {inner : List Action}
    (hsplit : actions = before ++ .enter kind label position :: inner)
    (hinner : Action.Balanced inner) :
    b.unfinished? =
      some ⟨.unclosed (Scope.entered unitName before kind label position).describe, position⟩ := by
  have hopen := h.getElem?_openScopes hsplit hinner.2
  rw [hinner.1, Int.toNat_zero, ← List.head?_eq_getElem?] at hopen
  obtain ⟨s, hs, hheading⟩ := Option.map_eq_some_iff.1 (h.heading_eq hsplit)
  have hcur : b.current? = some s := by rw [current?, hopen, Option.bind_some, hs]
  have hposition : s.position = position := congrArg Scope.position hheading
  rw [← hheading, s.describe_heading, ← hposition]
  simp only [unfinished?, hcur]

end TreeBuilder

/-! ## Violations -/

/-- What is wrong with a stream of events of a unit, and the place to which it is reported. -/
inductive Violation (unitName : Option String) : List Event → StructureError → Prop
  /-- An event is out of place, and none before it is. -/
  | misplaced {before : List Event} {e : Event} {after : List Event}
      (earlier : Action.WellPlaced (before.map Event.action))
      (this : e.action.Misplaced (before.map Event.action)) :
      Violation unitName (before ++ e :: after)
        ⟨.misplaced (before.map Event.action) e.action, e.origin⟩
  /-- All events are in place, and the last scope that is still open after them is this one. -/
  | unclosed {events : List Event} {before : List Action} {kind : ScopeKind}
      {label : Option String} {position : Option Position} {inner : List Action}
      (all : Action.WellPlaced (events.map Event.action))
      (entry : events.map Event.action = before ++ .enter kind label position :: inner)
      (rest : Action.Balanced inner) :
      Violation unitName events
        ⟨.unclosed (Scope.entered unitName before kind label position).describe, position⟩
  /-- There is no event. -/
  | noScopes : Violation unitName [] ⟨.noScopes, none⟩

namespace ScopeTree

variable {unitName filename : Option String} {events : List Event} {error : StructureError}

/-- A stream that is not well-formed has a violation. -/
lemma exists_violation (unitName : Option String)
    (h : ¬Action.WellFormed (events.map Event.action)) :
    ∃ error, Violation unitName events error := by
  rw [Action.wellFormed_iff] at h
  by_cases hw : Action.WellPlaced (events.map Event.action)
  · by_cases hne : events = []
    · subst hne
      exact ⟨_, .noScopes⟩
    · have hpos : 0 < Action.depth (events.map Event.action) := by
        have := hw.depth_nonneg
        by_contra hle
        exact h ⟨hw, by omega, by simpa using hne⟩
      obtain ⟨before, kind, label, position, inner, hsplit, hstays, hdepth⟩ :=
        Action.exists_entry_of_lt_depth (Int.le_refl 0) hpos
      exact ⟨_, .unclosed hw hsplit ⟨hdepth, hstays⟩⟩
  · rcases TreeBuilder.feed_cases (TreeBuilder.agrees_start unitName none) Action.wellPlaced_nil
      events with ⟨before, e, after, rfl, hbefore, he, -⟩ | ⟨hall, -⟩
    · exact ⟨_, .misplaced hbefore he⟩
    · exact absurd hall hw

/-- A stream is refused with its violation. -/
lemma ofEvents_eq_error_of_violation (h : Violation unitName events error) :
    ofEvents unitName filename events = .error error := by
  have hb := TreeBuilder.agrees_start unitName filename
  have hh := TreeBuilder.heads_start unitName filename
  have hfeed : ((TreeBuilder.start unitName filename).feed events).2 = some error := by
    cases h with
    | misplaced earlier this =>
      obtain ⟨b, hb', -, hfeed⟩ := TreeBuilder.exists_feed_append hb hh (by simpa using earlier)
      rw [hfeed, TreeBuilder.feed_cons, TreeBuilder.act_eq_error hb'.tick (by simpa using this)]
      rfl
    | unclosed all entry rest =>
      obtain ⟨b, -, hh', hfeed⟩ := TreeBuilder.exists_feed_append hb hh (by simpa using all)
      have hlast := hfeed []
      rw [List.append_nil] at hlast
      rw [hlast]
      exact hh'.unfinished?_eq (by simpa using entry) rest
    | noScopes => rfl
  rw [ofEvents]
  split
  · next heq => simp [heq] at hfeed
  · next heq =>
    rw [heq] at hfeed
    exact congrArg Except.error (Option.some.inj hfeed)

/-- A stream of events describes a tree if and only if it is well-formed.  Every other stream is
refused, and exactly with its violation: with the fault and the origin of the first event that is
out of place, else with the innermost scope that is still open and its position, else because there
is no event. -/
theorem ofEvents_accepts_or_names_violation (unitName filename : Option String)
    (events : List Event) :
    ((∃ t, ofEvents unitName filename events = .ok t) ↔
        Action.WellFormed (events.map Event.action)) ∧
      ∀ error, ofEvents unitName filename events = .error error ↔
        Violation unitName events error := by
  have haccept : (∃ t, ofEvents unitName filename events = .ok t) ↔
      Action.WellFormed (events.map Event.action) := by
    rw [exists_ofEvents_iff, Action.wellFormed_iff, ne_eq, ne_eq, List.map_eq_nil_iff]
  refine ⟨haccept, fun error => ⟨fun herror => ?_, ofEvents_eq_error_of_violation⟩⟩
  have hbad : ¬Action.WellFormed (events.map Event.action) := by
    rw [← haccept]
    rintro ⟨t, ht⟩
    simp [herror] at ht
  obtain ⟨error', hviolation⟩ := exists_violation unitName hbad
  have herror' : ofEvents unitName filename events = .error error' :=
    ofEvents_eq_error_of_violation hviolation
  rw [herror] at herror'
  rwa [Except.error.inj herror']

end ScopeTree

end TargetScope
