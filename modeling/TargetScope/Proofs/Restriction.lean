import TargetScope.Proofs.Mirror

/-!
# Names do not interfere

A stream of events may mention many names.  If all mentions but those of one name are left out, the
scopes stay the same (`TreeBuilder.Alike.feed`), and the numbers of the events that are left get
smaller, while their order stays (`historyFrom_restrictTo`).  So the history of the shorter stream
mirrors the one of the longer stream, and an analysis says the same about the name in both
(`analyzeEvents_restrictTo`).
-/

namespace TargetScope

/-! ## Leaving out other names -/

/-- The event mentions no other name than the given one. -/
def Event.concerns (e : Event) (name : String) : Bool :=
  match e.action with
  | .mention other _ _ => other = name
  | .enter _ _ _ => true
  | .exit => true

/-- The events without the mentions of other names. -/
def restrictTo (name : String) (events : List Event) : List Event :=
  events.filter fun e => e.concerns name

lemma restrictTo_cons (name : String) (e : Event) (events : List Event) :
    restrictTo name (e :: events) =
      if e.concerns name = true then e :: restrictTo name events else restrictTo name events :=
  List.filter_cons

/-! ## The tree of the shorter stream -/

namespace ScopeTree

variable {t t' : ScopeTree}

lemma bare_addScope (t : ScopeTree) (kind : ScopeKind) (parent : Option Nat)
    (label : Option String) (position : Option Position) :
    (t.addScope kind parent label position).bare = t.bare.addScope kind parent label position := by
  cases parent with
  | none => simp [addScope, bare, size, Scope.bare]
  | some p =>
    have hmap : ∀ l : List Scope,
        (l.modify p fun s => { s with children := s.children ++ [t.size] }).map Scope.bare =
          (l.map Scope.bare).modify p fun s => { s with children := s.children ++ [t.size] } := by
      intro l
      apply List.ext_getElem?
      intro i
      simp only [List.getElem?_map, List.getElem?_modify]
      cases l[i]? with
      | none => rfl
      | some s => by_cases hip : p = i <;> simp [hip, Scope.bare]
    simp only [addScope, bare, hmap, List.map_append, List.map_singleton]
    simp [size, Scope.bare]

/-- Two trees that are equal up to bindings stay so when both get the same scope. -/
lemma bare_addScope_eq (h : t'.bare = t.bare) (kind : ScopeKind) (parent : Option Nat)
    (label : Option String) (position : Option Position) :
    (t'.addScope kind parent label position).bare =
      (t.addScope kind parent label position).bare := by
  rw [bare_addScope, h, bare_addScope]

end ScopeTree

namespace TreeBuilder

variable {b b' b₁ : TreeBuilder} {e : Event} {name : String}

/-- The builders have the same scopes, and the same ones of them are open. -/
structure Alike (b b' : TreeBuilder) : Prop where
  bare_eq : b'.tree.bare = b.tree.bare
  open_eq : b'.openScopes = b.openScopes

namespace Alike

lemma scopes_eq_nil_iff (h : b.Alike b') : b'.tree.scopes = [] ↔ b.tree.scopes = [] := by
  rw [← List.length_eq_zero_iff, ← List.length_eq_zero_iff, ← ScopeTree.size_eq_length,
    ← ScopeTree.size_eq_length, ScopeTree.size_eq_of_bare_eq h.bare_eq]

lemma isSome_current? (h : b.Alike b') : b'.current?.isSome = b.current?.isSome := by
  rw [current?, current?, h.open_eq]
  cases b.openScopes.head? with
  | none => rfl
  | some i =>
    simp only [Option.bind_some]
    cases hs : b.tree.scope? i with
    | none => rw [ScopeTree.scope?_eq_none_of_bare_eq h.bare_eq hs]
    | some s =>
      obtain ⟨s', hs', -⟩ := ScopeTree.exists_scope?_of_bare_eq h.bare_eq hs
      rw [hs']
      rfl

lemma isNone_unfinished? (h : b.Alike b') : b'.unfinished?.isNone = b.unfinished?.isNone := by
  have hcur := h.isSome_current?
  have hscopes := h.scopes_eq_nil_iff
  rw [unfinished?, unfinished?]
  cases hc : b.current? with
  | some s =>
    rw [hc] at hcur
    obtain ⟨s', hs'⟩ := Option.isSome_iff_exists.1 hcur
    rw [hs']
    rfl
  | none =>
    rw [hc, Option.isSome_none, Option.isSome_eq_false_iff, Option.isNone_iff_eq_none] at hcur
    rw [hcur]
    simp only [hscopes]

/-- One event for both. -/
lemma act (h : b.Alike b') (he : b.act e = .ok b₁) : ∃ b₁', b'.act e = .ok b₁' ∧ b₁.Alike b₁' := by
  have hunit : b'.tree.unitName = b.tree.unitName :=
    show b'.tree.bare.unitName = b.tree.bare.unitName by rw [h.bare_eq]
  have hsize := ScopeTree.size_eq_of_bare_eq h.bare_eq
  cases ha : e.action with
  | enter kind label position =>
    rw [act_enter ha] at he ⊢
    simp only [h.open_eq, hunit, hsize, ne_eq, h.scopes_eq_nil_iff] at he ⊢
    split at he
    · split at he
      · exact absurd he (by simp)
      · next hs =>
        split at he
        · exact absurd he (by simp)
        · next hk =>
          obtain rfl := Except.ok.inj he
          rw [if_neg hs, if_neg hk]
          exact ⟨_, rfl, ScopeTree.bare_addScope_eq h.bare_eq _ _ _ _, rfl⟩
    · obtain rfl := Except.ok.inj he
      exact ⟨_, rfl, ScopeTree.bare_addScope_eq h.bare_eq _ _ _ _, rfl⟩
  | exit =>
    obtain ⟨i, outer, ho, rfl⟩ := exit_eq_ok ha he
    rw [act_exit ha, h.open_eq, ho]
    exact ⟨_, rfl, h.bare_eq, rfl⟩
  | mention name how position =>
    obtain ⟨s, hs, rfl⟩ := mention_eq_ok ha he
    have hcur := h.isSome_current?
    rw [hs] at hcur
    obtain ⟨s', hs'⟩ := Option.isSome_iff_exists.1 hcur
    rw [act_mention ha, hs']
    refine ⟨_, rfl, ?_, h.open_eq⟩
    rw [bare_addMention, bare_addMention, h.bare_eq]

/-- A mention that only the one gets. -/
lemma skip (h : b.Alike b') (he : b.act e = .ok b₁) (hn : e.concerns name = false) :
    b₁.Alike b' := by
  rw [Event.concerns] at hn
  cases ha : e.action with
  | enter kind label position => simp [ha] at hn
  | exit => simp [ha] at hn
  | mention other how position =>
    obtain ⟨s, -, rfl⟩ := mention_eq_ok ha he
    refine ⟨?_, h.open_eq⟩
    rw [bare_addMention, h.bare_eq]

lemma tick (h : b.Alike b') : b.tick.Alike b'.tick :=
  ⟨h.bare_eq, h.open_eq⟩

/-- A batch of events, and what is left of it. -/
lemma feed (h : b.Alike b') {events : List Event} (he : b.feed events = (b₁, none)) :
    ∃ b₁', b'.feed (restrictTo name events) = (b₁', none) ∧ b₁.Alike b₁' := by
  induction events generalizing b b' with
  | nil =>
    rw [TreeBuilder.feed, Prod.mk.injEq] at he
    obtain ⟨rfl, hu⟩ := he
    have hnone := h.isNone_unfinished?
    rw [hu, Option.isNone_none, Option.isNone_iff_eq_none] at hnone
    exact ⟨b', Prod.ext rfl hnone, h⟩
  | cons e rest ih =>
    rw [TreeBuilder.feed_cons] at he
    cases hact : b.tick.act e with
    | error fault => simp [hact] at he
    | ok b₂ =>
      simp only [hact] at he
      cases hn : e.concerns name with
      | true =>
        obtain ⟨b₂', hact', h₂⟩ := h.tick.act hact
        rw [restrictTo_cons, if_pos hn, TreeBuilder.feed_cons]
        simp only [hact']
        exact ih h₂ he
      | false =>
        rw [restrictTo_cons, if_neg (by simp [hn])]
        have h₂ : b₂.Alike b' := (Alike.mk h.bare_eq h.open_eq : b.tick.Alike b').skip hact hn
        exact ih h₂ he

end Alike

end TreeBuilder

/-- The events that concern one name describe the same scopes. -/
lemma ScopeTree.ofEvents_restrictTo {unitName filename : Option String} {events : List Event}
    {t : ScopeTree} (he : ofEvents unitName filename events = .ok t) (name : String) :
    ∃ t', ofEvents unitName filename (restrictTo name events) = .ok t' ∧ t'.bare = t.bare := by
  rw [ofEvents] at he
  split at he
  · next b hfeed =>
    obtain rfl := Except.ok.inj he
    obtain ⟨b', hfeed', h⟩ := TreeBuilder.Alike.feed
      (⟨rfl, rfl⟩ : (TreeBuilder.start unitName filename).Alike (.start unitName filename)) hfeed
    rw [ofEvents, hfeed']
    exact ⟨b'.tree, rfl, h.bare_eq⟩
  · exact absurd he (by simp)

/-! ## The history of the shorter stream -/

namespace Cursor

variable {c c' : Cursor} {e : Event} {name : String}

/-- The clock has no effect on the scopes that are open. -/
lemma path_after (hpath : c'.path = c.path) (hentered : c'.entered = c.entered) (e : Event) :
    (c'.after e).path = (c.after e).path ∧ (c'.after e).entered = (c.after e).entered := by
  rw [after, after]
  split <;> simp [hpath, hentered]

/-- An event that concerns the name is the same mention for both cursors, but for the number. -/
lemma filter_occurrence? (hpath : c'.path = c.path) {r : Renumbering} (hplace : r.place = id)
    (horder : r.order (c'.clock + 1) = c.clock + 1) (he : e.concerns name = true) :
    (c.occurrence? e).toList.filter (fun o => o.name = name) =
      (c'.occurrence? e).toList.map (·.moved r) := by
  rw [Event.concerns] at he
  rw [occurrence?, occurrence?, hpath]
  cases ha : e.action with
  | enter kind label position => rfl
  | exit => rfl
  | mention other how position =>
    rw [ha] at he
    obtain rfl : other = name := by simpa using he
    cases c.path with
    | nil => rfl
    | cons scope around =>
      have hframe : ∀ f : Frame, f.moved id = f := fun _ => rfl
      simp [Occurrence.moved, hplace, horder, hframe]

/-- An event that does not concern the name leaves the open scopes and adds no mention of it. -/
lemma after_of_not_concerns (he : e.concerns name = false) (c : Cursor) :
    (c.after e).path = c.path ∧ (c.after e).entered = c.entered ∧
      (c.occurrence? e).toList.filter (fun o => o.name = name) = [] := by
  rw [Event.concerns] at he
  cases ha : e.action with
  | enter kind label position => simp [ha] at he
  | exit => simp [ha] at he
  | mention other how position =>
    rw [ha] at he
    have hne : ¬other = name := by simpa using he
    refine ⟨by simp [after, ha], by simp [after, ha], ?_⟩
    rw [occurrence?, ha]
    cases c.path with
    | nil => rfl
    | cons scope around => simp [hne]

end Cursor

/-- All numbers get larger by `shift`. -/
def Renumbering.shift (shift : Int) : Renumbering where
  place := id
  order := fun n => n + shift
  place_injective := Function.injective_id
  place_root := rfl
  order_lt := by
    intro m n hmn
    omega

/-- The numbers up to `k` get larger by `shift`, and those behind it are as they were. -/
def Renumbering.shiftUpTo (r : Renumbering) (k shift : Int) (hk : k + shift < r.order k) :
    Renumbering where
  place := r.place
  order := fun n => if n ≤ k then n + shift else r.order n
  place_injective := r.place_injective
  place_root := r.place_root
  order_lt := by
    intro m n hmn
    by_cases hn : n ≤ k
    · rw [if_pos (by omega), if_pos hn]
      omega
    · rw [if_neg hn]
      by_cases hm : m ≤ k
      · have hkn : r.order k < r.order n := r.order_lt (by omega)
        rw [if_pos hm]
        omega
      · rw [if_neg hm]
        exact r.order_lt hmn

lemma Occurrence.moved_eq_of_order {o : Occurrence} {r r' : Renumbering} (hp : r'.place = r.place)
    (ho : r'.order o.order = r.order o.order) : o.moved r' = o.moved r := by
  rw [Occurrence.moved, Occurrence.moved, hp, ho]

/-- The mentions of one name are the mentions in the stream without the other names, with the
numbers that they have in the longer stream. -/
lemma historyFrom_restrictTo (name : String) (events : List Event) {c c' : Cursor}
    (hpath : c'.path = c.path) (hentered : c'.entered = c.entered) :
    ∃ r : Renumbering, r.place = id ∧
      (∀ n ≤ c'.clock, r.order n = n + (c.clock - c'.clock)) ∧
      (historyFrom c events).filter (fun o => o.name = name) =
        (historyFrom c' (restrictTo name events)).map (·.moved r) := by
  -- an event that is left out adds one to the difference of the clocks
  induction events generalizing c c' with
  | nil => exact ⟨.shift (c.clock - c'.clock), rfl, fun n _ => rfl, rfl⟩
  | cons e rest ih =>
    rw [restrictTo_cons, historyFrom, List.filter_append]
    cases he : e.concerns name with
    | true =>
      obtain ⟨hpath', hentered'⟩ := Cursor.path_after hpath hentered e
      obtain ⟨r, hplace, horder, hrest⟩ := ih hpath' hentered'
      simp only [Cursor.clock_after] at horder
      refine ⟨r, hplace, ?_, ?_⟩
      · intro n hn
        rw [horder n (by omega)]
        omega
      · have hfirst : r.order (c'.clock + 1) = c.clock + 1 := by
          rw [horder _ (by omega)]
          omega
        rw [if_pos rfl, historyFrom, List.map_append, hrest,
          Cursor.filter_occurrence? hpath hplace hfirst he]
    | false =>
      obtain ⟨hpath', hentered', hnone⟩ := c.after_of_not_concerns he
      obtain ⟨r, hplace, horder, hrest⟩ :=
        ih (hpath.trans hpath'.symm) (hentered.trans hentered'.symm)
      rw [Cursor.clock_after] at horder
      have hlast : c'.clock + (c.clock - c'.clock) < r.order c'.clock := by
        rw [horder _ (by omega)]
        omega
      refine ⟨r.shiftUpTo c'.clock (c.clock - c'.clock) hlast, hplace, ?_, ?_⟩
      · intro n hn
        exact if_pos hn
      · -- the mentions that are left have larger numbers
        rw [hnone, List.nil_append, hrest, if_neg (by decide)]
        apply List.map_congr_left
        intro o ho
        obtain ⟨hlt, -⟩ := order_of_mem_historyFrom ho
        refine Occurrence.moved_eq_of_order rfl ?_
        exact (if_neg (by omega)).symm

/-- Every mention depends only on mentions of its name. -/
lemma History.covers_name (h : History) (name : String) (i : Nat) :
    h.Covers (fun o => o.name = name) i name where
  isAt := by
    intro p _ hp
    rw [Occurrence.isAt, Bool.and_eq_true] at hp
    exact hp.2
  target := by
    intro p _ hp _
    refine ⟨decide_eq_true hp, ?_⟩
    intro f _ q _ hq
    rw [Occurrence.isAt, Bool.and_eq_true] at hq
    exact hq.2

/-- The history of one name mirrors the history of all. -/
lemma exists_mirrors_restrictTo (name : String) (events : List Event) :
    ∃ r : Renumbering, r.place = id ∧
      (history (restrictTo name events)).Mirrors (history events) r fun o => o.name = name := by
  obtain ⟨r, hplace, -, hfilter⟩ := historyFrom_restrictTo (c := {}) name events rfl rfl
  refine ⟨r, hplace, hfilter, ?_⟩
  intro o _ ho f _
  obtain rfl : o.name = name := of_decide_eq_true ho
  exact (history events).covers_name o.name f.index

/-! ## What is said about one name -/

/-- The diagnostic for a failure does not tell which of two sites in the same place it is about. -/
lemma Failure.diagnose_moved {f : Failure} {u : UseSite} (hname : u.name = f.site.name)
    (hoperator : u.operator = f.site.operator) (hposition : u.position = f.site.position)
    (hscope : u.scope = f.site.scope) (mode : Mode) (t : ScopeTree) (filename : Option String) :
    (f.moved id u).diagnose mode t filename = f.diagnose mode t filename := by
  obtain ⟨kind, reason, ⟨_, _, _, _, _, _⟩, scope, blocking, fallback⟩ := f
  obtain ⟨_, _, _, _, _, _⟩ := u
  simp only at hname hoperator hposition hscope
  subst hname hoperator hposition hscope
  rfl

/-- Sites that agree have the same diagnostic if the scopes are the same. -/
lemma Analysis.AgreesOn.diagnosticOf?_eq {a a' : Analysis} {u u' : UseSite} {t t' : ScopeTree}
    {h h' : History} {mode : Mode} (hagree : a.AgreesOn a' id u u') (ha : a.Follows t h mode)
    (ha' : a'.Follows t' h' mode) (hbare : t'.bare = t.bare) :
    a.diagnosticOf? u = a'.diagnosticOf? u' := by
  obtain ⟨v, hv', hv⟩ := hagree.verdict_eq
  have hfile : t'.filename = t.filename := show t'.bare.filename = t.bare.filename by rw [hbare]
  rw [diagnosticOf?, diagnosticOf?, ha.lookup_siteDiagnostics, ha'.lookup_siteDiagnostics,
    ← ha.verdicts_eq, ← ha'.verdicts_eq, hv, hv', Option.bind_some, Option.bind_some, hfile]
  cases v with
  | bound owner => simp only [Verdict.moved, Verdict.failure?, Option.map_none]
  | failed f =>
    obtain rfl := hagree.site_eq f hv'
    obtain ⟨i, hi, hi'⟩ := hagree.scope_eq
    have hdiag := f.diagnose_moved hagree.name_eq hagree.operator_eq hagree.position_eq
      (hi'.trans hi.symm) mode t t.filename
    simp only [Verdict.moved, Verdict.failure?, Option.map_some, hdiag,
      Failure.diagnose_eq_of_bare_eq hbare]

/-- Names do not interfere.  If the mentions of all names but one are left out of a stream that
describes a tree, then what is left describes the same scopes.  The sites of the name are, one by
one, the sites of the shorter stream: with the same verdict, the same owner and the same diagnostic
in every mode; and the settlements of the name are the same. -/
theorem analyzeEvents_restrictTo {unitName filename : Option String} {events : List Event}
    {t : ScopeTree} (he : ScopeTree.ofEvents unitName filename events = .ok t) (name : String)
    (mode : Mode) :
    ∃ a a' u u', analyzeEvents mode events unitName filename = .ok a ∧
      analyzeEvents mode (restrictTo name events) unitName filename = .ok a' ∧
      a.tree = some u ∧ a'.tree = some u' ∧ u'.bare = u.bare ∧
      List.Forall₂ (fun s s' => a.AgreesOn a' id s s' ∧ a.diagnosticOf? s = a'.diagnosticOf? s')
        (a.sitesNamed name) a'.sites ∧
      a'.settlements.filter (fun p => p.name = name) =
        a.settlements.filter fun p => p.name = name := by
  obtain ⟨t', he', hbare⟩ := ScopeTree.ofEvents_restrictTo he name
  obtain ⟨a, ha, hfollows⟩ := exists_analyzeEvents he mode
  obtain ⟨a', ha', hfollows'⟩ := exists_analyzeEvents he' mode
  obtain ⟨u, hu, hub, hsites⟩ := hfollows.tree
  obtain ⟨u', hu', hub', hsites'⟩ := hfollows'.tree
  obtain ⟨r, hplace, hm⟩ := exists_mirrors_restrictTo name events
  refine ⟨a, a', u, u', ha, ha', hu, hu', by rw [hub', hbare, hub], ?_, ?_⟩
  · have hagree := hm.agree (ScopeTree.classified_ofEvents he) hfollows hfollows'
      (q := fun s => s.name = name) fun _ _ _ _ => rfl
    rw [hplace] at hagree
    have hall : a.sites = (history events).sites := by
      rw [Analysis.sites, hu]
      exact hsites
    have hleft : a'.sites = (history (restrictTo name events)).sites := by
      rw [Analysis.sites, hu']
      exact hsites'
    rw [Analysis.sitesNamed, hall, hleft]
    refine hagree.imp ?_
    intro s s' hs
    exact ⟨hs, hs.diagnosticOf?_eq hfollows hfollows' hbare⟩
  · have hsame : ∀ p : Settlement, p.moved id = p := fun _ => rfl
    rw [hfollows'.settlements_named, hfollows.settlements_named,
      ScopeTree.size_eq_of_bare_eq hbare]
    apply List.filterMap_congr
    intro i _
    have hi : r.place i = i := by rw [hplace, id]
    have hset := hm.settlementAt?_eq ((history events).covers_name name (r.place i))
    rw [hi, hplace] at hset
    simpa [hsame] using hset.symm

/-- Without the target of `y` and the parameter `y`, the targets of `x` get the same diagnostics. -/
theorem analyzeEvents_restrictTo_mixedTargets :
    ∃ t a a', ScopeTree.ofEvents none none ScopeTree.mixedTargets = .ok t ∧
      (restrictTo "x" ScopeTree.mixedTargets).length + 2 = ScopeTree.mixedTargets.length ∧
      analyzeEvents .warn ScopeTree.mixedTargets none none = .ok a ∧
      analyzeEvents .warn (restrictTo "x" ScopeTree.mixedTargets) none none = .ok a' ∧
      List.Forall₂ (fun s s' => a.diagnosticOf? s = a'.diagnosticOf? s') (a.sitesNamed "x")
        a'.sites := by
  obtain ⟨t, he⟩ : ∃ t, ScopeTree.ofEvents none none ScopeTree.mixedTargets = .ok t := ⟨_, rfl⟩
  obtain ⟨a, a', -, -, ha, ha', -, -, -, hagree, -⟩ := analyzeEvents_restrictTo he "x" .warn
  refine ⟨t, a, a', he, by decide, ha, ha', hagree.imp ?_⟩
  rintro s s' ⟨-, hdiag⟩
  exact hdiag

end TargetScope
