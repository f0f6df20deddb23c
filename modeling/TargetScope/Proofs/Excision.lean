import Mathlib.Order.Monotone.Basic
import TargetScope.Proofs.Balance
import TargetScope.Proofs.Mirror

/-!
# Block scopes do not influence the code around them

A block scope with everything in it can be cut out of a stream of events.  What is left still
describes a tree (`ScopeTree.exists_ofEvents_excise`): its scopes are those outside of the block
scope, of which the ones behind it have moved up to fill the gap (`skipPlace`).

No target in the block scope has a block outside of it.  So what is left covers every mention that
is left, the history of the shorter stream mirrors the one of the longer stream
(`History.Excises.mirrors`), and an analysis says the same about all that is outside
(`analyzeEvents_excise`).  For transparent scopes this would be wrong: a target in one of them can
make its name known in the function around.
-/

namespace TargetScope

/-! ## The places around a gap -/

/-- The place that a scope has if `m` scopes are entered before the one at the place `n`. -/
def skipPlace (n m i : Nat) : Nat :=
  if i < n then i else i + m

lemma skipPlace_of_lt {n m i : Nat} (h : i < n) : skipPlace n m i = i :=
  if_pos h

lemma skipPlace_of_le {n m i : Nat} (h : n ≤ i) : skipPlace n m i = i + m :=
  if_neg (by omega)

lemma skipPlace_lt_or_le (n m i : Nat) : skipPlace n m i < n ∨ n + m ≤ skipPlace n m i := by
  rw [skipPlace]
  split <;> omega

lemma strictMono_skipPlace (n m : Nat) : StrictMono (skipPlace n m) := by
  intro i j hij
  rw [skipPlace, skipPlace]
  split <;> split <;> omega

/-- The places `n` to `n + m`, where there is nothing, can be skipped. -/
lemma filterMap_range_skipPlace {α : Type} {f : Nat → Option α} {n m : Nat}
    (hf : ∀ i, n ≤ i → i < n + m → f i = none) (k : Nat) :
    (List.range (n + m + k)).filterMap f =
      (List.range (n + k)).filterMap fun i => f (skipPlace n m i) := by
  have hbefore : (List.range n).filterMap (fun i => f (skipPlace n m i)) =
      (List.range n).filterMap f := by
    apply List.filterMap_congr
    intro i hi
    rw [skipPlace_of_lt (List.mem_range.1 hi)]
  have hgap : (List.range m).filterMap (fun i => f (n + i)) = [] := by
    rw [List.filterMap_eq_nil_iff]
    intro i hi
    have hlt := List.mem_range.1 hi
    exact hf (n + i) (by omega) (by omega)
  have hbehind : (List.range k).filterMap (fun i => f (skipPlace n m (n + i))) =
      (List.range k).filterMap fun i => f (n + m + i) := by
    apply List.filterMap_congr
    intro i _
    rw [skipPlace_of_le (by omega)]
    congr 1
    omega
  rw [List.range_add, List.range_add, List.range_add, List.filterMap_append,
    List.filterMap_append, List.filterMap_append, List.filterMap_map, List.filterMap_map,
    List.filterMap_map]
  simp only [Function.comp_def, hbefore, hgap, hbehind, List.append_nil]

/-- The renumbering for a gap of `m` scopes before the place `n`, and of `d` events behind the
number `k`. -/
def Renumbering.skip (n m : Nat) (hn : 0 < n) (k : Int) (d : Nat) : Renumbering where
  place := skipPlace n m
  order := fun j => if j ≤ k then j else j + d
  place_injective := (strictMono_skipPlace n m).injective
  place_root := skipPlace_of_lt hn
  order_lt := by
    intro i j hij
    split <;> split <;> omega

namespace Cursor

variable {c c' : Cursor} {n m d : Nat} {k : Int}

/-- The cursor `c` is where `c'` is, but it has passed a gap of `m` scopes, the first of them at the
place `n`, and of `d` events, the first of them behind the number `k`. -/
structure Ahead (c c' : Cursor) (n m : Nat) (k : Int) (d : Nat) : Prop where
  path_eq : c.path = c'.path.map fun f => f.moved (skipPlace n m)
  entered_eq : c.entered = c'.entered + m
  le_entered : n ≤ c'.entered
  clock_eq : c.clock = c'.clock + d
  le_clock : k ≤ c'.clock

namespace Ahead

lemma after (h : c.Ahead c' n m k d) (e : Event) : (c.after e).Ahead (c'.after e) n m k d := by
  have hclock : c.clock + 1 = c'.clock + 1 + d := by
    rw [h.clock_eq]
    omega
  have hk : k ≤ c'.clock + 1 := Int.le_trans h.le_clock (by omega)
  rw [Cursor.after, Cursor.after]
  cases e.action with
  | enter kind label position =>
    refine ⟨?_, ?_, Nat.le_succ_of_le h.le_entered, hclock, hk⟩
    · have hframe : (⟨c'.entered, kind⟩ : Frame).moved (skipPlace n m) = ⟨c.entered, kind⟩ := by
        rw [Frame.moved, skipPlace_of_le h.le_entered, h.entered_eq]
      simp only [List.map_cons, hframe, h.path_eq]
    · simp only [h.entered_eq]
      omega
  | mention name how position => exact ⟨h.path_eq, h.entered_eq, h.le_entered, hclock, hk⟩
  | exit =>
    refine ⟨?_, h.entered_eq, h.le_entered, hclock, hk⟩
    simp only [h.path_eq, List.map_tail]

/-- An event is the same mention for both, but for the places and the number. -/
lemma occurrence? (h : c.Ahead c' n m k d) (hn : 0 < n) (e : Event) :
    (c.occurrence? e).toList =
      (c'.occurrence? e).toList.map fun o => o.moved (.skip n m hn k d) := by
  have horder : c.clock + 1 = (Renumbering.skip n m hn k d).order (c'.clock + 1) := by
    have hle := h.le_clock
    have hgt : ¬c'.clock + 1 ≤ k := by omega
    rw [h.clock_eq]
    simp only [Renumbering.skip, if_neg hgt]
    omega
  rw [Cursor.occurrence?, Cursor.occurrence?, h.path_eq, horder]
  cases e.action with
  | enter kind label position => rfl
  | exit => rfl
  | mention name how position => cases c'.path <;> rfl

end Ahead

end Cursor

/-- The mentions behind a gap are those without it, with the places and the numbers that they have
behind the gap. -/
lemma historyFrom_skip {c c' : Cursor} {n m d : Nat} {k : Int} (h : c.Ahead c' n m k d)
    (hn : 0 < n) (events : List Event) :
    historyFrom c events =
      (historyFrom c' events).map fun o => o.moved (.skip n m hn k d) := by
  induction events generalizing c c' with
  | nil => rfl
  | cons e rest ih =>
    rw [historyFrom, historyFrom, List.map_append, h.occurrence? hn, ih (h.after e)]

/-- The scopes before a gap stay where they are. -/
lemma map_moved_skipPlace {n m : Nat} {path : List Frame} (hpath : ∀ f ∈ path, f.index < n) :
    path.map (fun f => f.moved (skipPlace n m)) = path := by
  have hframe : ∀ f ∈ path, f.moved (skipPlace n m) = id f := by
    intro f hf
    rw [Frame.moved, skipPlace_of_lt (hpath f hf), id]
  rw [List.map_congr_left hframe, List.map_id]

/-- The mentions before a gap are not renumbered. -/
lemma Occurrence.moved_skip {o : Occurrence} {n m d : Nat} {k : Int} (hn : 0 < n)
    (hpath : ∀ f ∈ o.path, f.index < n) (horder : o.order ≤ k) :
    o.moved (.skip n m hn k d) = o := by
  have hframes := map_moved_skipPlace (m := m) hpath
  obtain ⟨name, how, position, order, scope, around⟩ := o
  obtain ⟨hscope, haround⟩ := List.cons.inj hframes
  simp only [Occurrence.moved, Renumbering.skip, if_pos horder, hscope, haround]

/-! ## The history without a block scope -/

namespace Occurrence

variable {o : Occurrence} {inner outer : List Frame} {f : Frame}

/-- None of the scopes at or around the mention is at one of the `m` places from `n` on. -/
def isOutside (o : Occurrence) (n m : Nat) : Bool :=
  o.path.all fun f => f.index < n || n + m ≤ f.index

lemma isOutside_iff {n m : Nat} :
    o.isOutside n m = true ↔ ∀ f ∈ o.path, f.index < n ∨ n + m ≤ f.index := by
  simp [isOutside]

lemma scope_mem_of_path_eq (hpath : o.path = inner ++ outer) (hf : f ∈ inner) :
    o.scope ∈ inner := by
  cases inner with
  | nil => exact absurd hf List.not_mem_nil
  | cons g inner =>
    rw [path, List.cons_append, List.cons.injEq] at hpath
    rw [hpath.1]
    exact List.mem_cons_self

/-- The block of a mention does not lie outside of a block scope around the mention. -/
lemma block_mem_of_path_eq (hpath : o.path = inner ++ outer) (hf : f ∈ inner)
    (hb : f.kind.isBlock = true) : o.block ∈ inner := by
  cases hfind : inner.find? fun g => g.kind.isBlock with
  | none => exact absurd hb (List.find?_eq_none.1 hfind f hf)
  | some g =>
    rw [block, hpath, List.find?_append, hfind]
    exact List.mem_of_find?_eq_some hfind

end Occurrence

namespace History

variable {h h' : History} {r : Renumbering} {n m i : Nat}

/-- The history `h'` is, renumbered, what is left of the history `h` without the mentions in a block
scope, where that scope and those in it are at the `m` places from `n` on. -/
structure Excises (h' h : History) (r : Renumbering) (n m : Nat) : Prop where
  filter_eq : h.filter (fun o => o.isOutside n m) = h'.map (·.moved r)
  /-- Around a mention that is left out, the block scope comes first among the scopes that are
  left. -/
  enclosed : ∀ o ∈ h, o.isOutside n m = false → ∃ inner outer, o.path = inner ++ outer ∧
    (∀ f ∈ inner, n ≤ f.index ∧ f.index < n + m) ∧
      ∃ f ∈ inner, f.index = n ∧ f.kind.isBlock = true

/-- A settlement is that of a mention in its scope. -/
lemma exists_of_settlementAt? {name : String} {p : Settlement}
    (hp : h.settlementAt? i name = some p) : ∃ o ∈ h, o.scope.index = i ∧ p.scope = i := by
  obtain ⟨d, hd, rfl⟩ := Option.map_eq_some_iff.1 hp
  rw [Option.filter_eq_some_iff] at hd
  obtain ⟨hmem, hi, -⟩ := of_outer? (outer?_of_decisive? hd.1 hd.2)
  exact ⟨d, hmem, hi, hi⟩

namespace Excises

/-- A history with the mentions before, in and behind the block scope. -/
lemma of_append {before inside behind behind' : History} (hr : r.place = skipPlace n m)
    (hm : 0 < m) (hbefore : ∀ o ∈ before, (∀ f ∈ o.path, f.index < n) ∧ o.moved r = o)
    (hinside : ∀ o ∈ inside, ∃ inner outer, o.path = inner ++ outer ∧
      (∀ f ∈ inner, n ≤ f.index ∧ f.index < n + m) ∧
        ∃ f ∈ inner, f.index = n ∧ f.kind.isBlock = true)
    (hbehind : behind = behind'.map (·.moved r)) :
    Excises (before ++ behind') (before ++ inside ++ behind) r n m := by
  have hout₁ : ∀ o ∈ before, o.isOutside n m = true := by
    intro o ho
    rw [Occurrence.isOutside_iff]
    exact fun f hf => Or.inl ((hbefore o ho).1 f hf)
  have hout₂ : ∀ o ∈ inside, ¬o.isOutside n m = true := by
    intro o ho hout
    obtain ⟨inner, outer, hpath, -, f, hf, hfn, -⟩ := hinside o ho
    have := Occurrence.isOutside_iff.1 hout f (by simp [hpath, hf])
    omega
  have hout₃ : ∀ o ∈ behind, o.isOutside n m = true := by
    intro o ho
    rw [hbehind] at ho
    obtain ⟨o, -, rfl⟩ := List.mem_map.1 ho
    rw [Occurrence.isOutside_iff, Occurrence.path_moved]
    intro f hf
    obtain ⟨f, -, rfl⟩ := List.mem_map.1 hf
    rw [Frame.index_moved, hr]
    exact skipPlace_lt_or_le n m f.index
  refine ⟨?_, ?_⟩
  · have hsame : before.map (·.moved r) = before := by
      rw [List.map_congr_left fun o ho => (hbefore o ho).2, List.map_id']
    rw [List.filter_append, List.filter_append, List.filter_eq_self.2 hout₁,
      List.filter_eq_nil_iff.2 hout₂, List.filter_eq_self.2 hout₃, List.append_nil,
      List.map_append, hsame, hbehind]
  · intro o ho hout
    rw [List.mem_append, List.mem_append] at ho
    rcases ho with (ho | ho) | ho
    · exact absurd (hout₁ o ho) (by simp [hout])
    · exact hinside o ho
    · exact absurd (hout₃ o ho) (by simp [hout])

/-- A mention is left if its scope is. -/
lemma isOutside_of_scope (he : h'.Excises h r n m) (hi : i < n ∨ n + m ≤ i) {o : Occurrence}
    (ho : o ∈ h) (hscope : o.scope.index = i) : o.isOutside n m = true := by
  by_contra hout
  obtain ⟨inner, outer, hpath, hinner, f, hf, -⟩ := he.enclosed o ho (by simpa using hout)
  have := hinner _ (Occurrence.scope_mem_of_path_eq hpath hf)
  omega

/-- A mention is left if its block is. -/
lemma isOutside_of_block (he : h'.Excises h r n m) (hi : i < n ∨ n + m ≤ i) {o : Occurrence}
    (ho : o ∈ h) (hblock : o.block.index = i) : o.isOutside n m = true := by
  by_contra hout
  obtain ⟨inner, outer, hpath, hinner, f, hf, -, hb⟩ := he.enclosed o ho (by simpa using hout)
  have := hinner _ (Occurrence.block_mem_of_path_eq hpath hf hb)
  omega

/-- What a name is in a scope that is left depends only on mentions that are left. -/
lemma covers (he : h'.Excises h r n m) (hi : i < n ∨ n + m ≤ i) (name : String) :
    h.Covers (fun o => o.isOutside n m) i name where
  isAt := by
    intro o ho hat
    rw [Occurrence.isAt, Bool.and_eq_true, decide_eq_true_eq] at hat
    exact he.isOutside_of_scope hi ho hat.1
  target := by
    intro o ho _ hblock
    have hout := he.isOutside_of_block hi ho (by rw [hblock])
    refine ⟨hout, ?_⟩
    intro f hf q hq hat
    rw [Occurrence.isAt, Bool.and_eq_true, decide_eq_true_eq] at hat
    exact he.isOutside_of_scope (Occurrence.isOutside_iff.1 hout f (List.takeWhile_subset _ hf))
      hq hat.1

lemma mirrors (he : h'.Excises h r n m) : h'.Mirrors h r fun o => o.isOutside n m where
  filter_eq := he.filter_eq
  covers := by
    intro o _ hout f hf
    exact he.covers (Occurrence.isOutside_iff.1 hout f hf) o.name

/-- The mentions that are left are those that are not in the block scope. -/
lemma isOutside_eq (he : h'.Excises h r n m) (hm : 0 < m) {o : Occurrence} (ho : o ∈ h) :
    o.isOutside n m = decide (n ∉ o.path.map Frame.index) := by
  cases hout : o.isOutside n m with
  | false =>
    obtain ⟨inner, outer, hpath, -, f, hf, rfl, -⟩ := he.enclosed o ho hout
    have hmem : f.index ∈ o.path.map Frame.index := by
      rw [hpath]
      exact List.mem_map_of_mem (List.mem_append_left _ hf)
    simpa using hmem
  | true =>
    refine (decide_eq_true ?_).symm
    rintro hmem
    obtain ⟨f, hf, hfn⟩ := List.mem_map.1 hmem
    have := Occurrence.isOutside_iff.1 hout f hf
    omega

/-- The settlements that are left are those of the declarations outside of the block scope. -/
lemma settlements_eq (he : h'.Excises h r n m) (hr : r.place = skipPlace n m) (hm : 0 < m)
    {t : ScopeTree} (hc : t.Classified h) (name : String) (k : Nat) :
    ((List.range (n + m + k)).filterMap fun i => h.settlementAt? i name).filter
        (fun p => n ∉ t.places (some p.scope)) =
      ((List.range (n + k)).filterMap fun i => h'.settlementAt? i name).map
        (·.moved (skipPlace n m)) := by
  have hfilter : ∀ i p, h.settlementAt? i name = some p → ∃ o ∈ h, o.scope.index = i ∧
      o.isOutside n m = decide (n ∉ t.places (some p.scope)) := by
    intro i p hp
    obtain ⟨o, ho, hi, hscope⟩ := exists_of_settlementAt? hp
    refine ⟨o, ho, hi, ?_⟩
    rw [he.isOutside_eq hm ho, hc.path_eq o ho, hi, hscope]
    rfl
  rw [List.filter_filterMap, filterMap_range_skipPlace, List.map_filterMap]
  · apply List.filterMap_congr
    intro i _
    have hi := skipPlace_lt_or_le n m i
    rw [← hr] at hi ⊢
    have hset := he.mirrors.settlementAt?_eq (he.covers hi name)
    rw [← hset]
    cases hp : h.settlementAt? (r.place i) name with
    | none => rfl
    | some p =>
      obtain ⟨o, ho, hscope, hout⟩ := hfilter _ p hp
      rw [he.isOutside_of_scope hi ho hscope] at hout
      rw [Option.filter_some, if_pos hout.symm]
  · intro i hni him
    rw [Option.filter_eq_none_iff]
    intro p hp
    obtain ⟨o, ho, hscope, hout⟩ := hfilter i p hp
    rw [← hout, Occurrence.isOutside_iff]
    intro hall
    have := hall o.scope List.mem_cons_self
    omega

/-- The settlements of the longer stream outside of the block scope are those of the shorter
one. -/
lemma settlements_named (he : h'.Excises h r n m) (hr : r.place = skipPlace n m) (hm : 0 < m)
    {t t' : ScopeTree} (hc : t.Classified h) {a a' : Analysis} {mode : Mode}
    (ha : a.Follows t h mode) (ha' : a'.Follows t' h' mode) {k : Nat}
    (hsize : t.size = n + m + k) (hsize' : t'.size = n + k) (name : String) :
    (a.settlements.filter fun p => p.name = name ∧ n ∉ t.places (some p.scope)) =
      (a'.settlements.filter fun p => p.name = name).map (·.moved (skipPlace n m)) := by
  have hset := he.settlements_eq hr hm hc name k
  rw [← hsize, ← hsize', ← ha.settlements_named, ← ha'.settlements_named,
    List.filter_filter] at hset
  simp only [Bool.decide_and, Bool.and_comm] at hset ⊢
  exact hset

end Excises

end History

/-! ## Streams without a block scope -/

/-- Without a part that leaves the depth as it is, all actions are still in place. -/
lemma Action.WellPlaced.excise {before mid after : List Action}
    (h : WellPlaced (before ++ mid ++ after)) (hmid : depth mid = 0) (hne : before ≠ []) :
    WellPlaced (before ++ after) := by
  -- an action behind the gap has the same depth before it
  have hbehind : ∀ p a rest, after = p ++ a :: rest → ¬a.Misplaced (before ++ p) := by
    rintro p a rest rfl ⟨hdepth, -⟩
    refine h (before ++ mid ++ p) a rest (by simp) ⟨?_, ?_⟩
    · rw [depth_append, depth_append, hmid]
      rw [depth_append] at hdepth
      omega
    · rintro ⟨hnil, -⟩
      exact hne (by simp_all)
  intro p a rest heq
  rcases List.append_eq_append_iff.1 heq with ⟨q, rfl, hq⟩ | ⟨q, rfl, hq⟩
  · exact hbehind q a rest hq
  · cases q with
    | nil =>
      have hfirst := hbehind [] a rest hq.symm
      rwa [List.append_nil, List.append_nil] at hfirst
    | cons b q =>
      obtain ⟨rfl, rfl⟩ := List.cons.inj hq
      exact h p a (q ++ mid ++ after) (by simp)

section Excision

variable {pre body post : List Event} {enter exit : Event} {kind : ScopeKind}
  {label : Option String} {position : Option Position}

/-- The scopes around a mention, and those that are open at the end, have been entered. -/
lemma Cursor.lt_entered_afterAll (hw : Action.WellPlaced (pre.map Event.action)) :
    (∀ f ∈ (afterAll {} pre).path, f.index < (afterAll {} pre).entered) ∧
      ∀ o ∈ history pre, ∀ f ∈ o.path, f.index < (afterAll {} pre).entered := by
  have hstart : ({} : Cursor).Nested [] 0 0 := ⟨⟨[], rfl, rfl, by simp⟩, Nat.le_refl 0⟩
  have hprefix : ∀ before after, pre.map Event.action = before ++ after →
      0 ≤ 0 + Action.depth before := by
    intro before after heq
    rw [heq] at hw
    rw [Int.zero_add]
    exact hw.of_append.depth_nonneg
  obtain ⟨hlast, hmentions⟩ := hstart.afterAll hprefix
  refine ⟨?_, ?_⟩
  · obtain ⟨inner, hpath, -, hinner⟩ := hlast.path_eq
    rw [hpath, List.append_nil]
    exact fun f hf => (hinner f hf).2
  · intro o ho f hf
    obtain ⟨inner, hpath, hinner⟩ := hmentions o ho
    rw [hpath, List.append_nil] at hf
    exact (hinner f hf).2

/-- In a block scope that is entered and not left, no event leaves another scope. -/
lemma Cursor.afterAll_block (c : Cursor) (henter : enter.action = .enter kind label position)
    (hbody : Action.Balanced (body.map Event.action)) :
    (c.afterAll (enter :: body)).path = ⟨c.entered, kind⟩ :: c.path ∧
      ∀ o ∈ historyFrom c (enter :: body), ∃ inner, o.path = inner ++ c.path ∧
        (∀ f ∈ inner, c.entered ≤ f.index ∧
          f.index < c.entered + (Action.entered (body.map Event.action) + 1)) ∧
            ⟨c.entered, kind⟩ ∈ inner := by
  obtain ⟨hdepth, hprefix⟩ := hbody
  have hpath : (c.after enter).path = ⟨c.entered, kind⟩ :: c.path := by simp [after, henter]
  have hentered : (c.after enter).entered = c.entered + 1 := by simp [after, henter]
  have hocc : c.occurrence? enter = none := by simp [occurrence?, henter]
  have hstart : (c.after enter).Nested (⟨c.entered, kind⟩ :: c.path) (c.entered + 1) 0 :=
    ⟨⟨[], hpath, rfl, by simp⟩, by omega⟩
  have hstay : ∀ before after, body.map Event.action = before ++ after →
      0 ≤ 0 + Action.depth before := by simpa using hprefix
  obtain ⟨hlast, hmentions⟩ := hstart.afterAll hstay
  refine ⟨?_, ?_⟩
  · obtain ⟨inner, hinner, hlen, -⟩ := hlast.path_eq
    rw [hdepth, Int.add_zero, Int.natCast_eq_zero, List.length_eq_zero_iff] at hlen
    rw [hlen, List.nil_append] at hinner
    exact hinner
  · intro o ho
    rw [historyFrom, hocc, Option.toList_none, List.nil_append] at ho
    obtain ⟨inner, ho, hinner⟩ := hmentions o ho
    rw [entered_afterAll, hentered] at hinner
    refine ⟨inner ++ [⟨c.entered, kind⟩], by simp [ho], ?_, by simp⟩
    intro f hf
    rcases List.mem_append.1 hf with hf | hf
    · have := hinner f hf
      omega
    · obtain rfl := List.mem_singleton.1 hf
      simp only
      omega

/-- Behind a block scope, the cursor is ahead of the one before it. -/
lemma Cursor.ahead_of_block {c : Cursor} (hopen : ∀ f ∈ c.path, f.index < c.entered)
    (henter : enter.action = .enter kind label position)
    (hbody : Action.Balanced (body.map Event.action)) (hexit : exit.action = .exit) :
    ((c.afterAll (enter :: body)).after exit).Ahead c c.entered
      (Action.entered (body.map Event.action) + 1) c.clock (body.length + 2) where
  path_eq := by
    rw [map_moved_skipPlace hopen, after, hexit]
    show (c.afterAll (enter :: body)).path.tail = c.path
    rw [(c.afterAll_block henter hbody).1, List.tail_cons]
  entered_eq := by
    rw [entered_after, entered_afterAll, hexit, List.map_cons, Action.entered_cons, henter]
    simp [Action.delta]
  le_entered := Nat.le_refl _
  clock_eq := by
    rw [clock_after, clock_afterAll, List.length_cons]
    omega
  le_clock := Int.le_refl _

lemma history_append_block (hexit : exit.action = .exit) :
    history (pre ++ enter :: body ++ exit :: post) =
      history pre ++ historyFrom (Cursor.afterAll {} pre) (enter :: body) ++
        historyFrom (((Cursor.afterAll {} pre).afterAll (enter :: body)).after exit) post := by
  have hlast : Cursor.afterAll {} (pre ++ enter :: body) =
      (Cursor.afterAll {} pre).afterAll (enter :: body) := List.foldl_append
  have hnone : ((Cursor.afterAll {} pre).afterAll (enter :: body)).occurrence? exit = none := by
    simp [Cursor.occurrence?, hexit]
  rw [history, historyFrom_append, historyFrom_append, hlast, historyFrom.eq_def _ (exit :: post)]
  simp only [hnone, Option.toList_none, List.nil_append]
  rfl

variable (post) in
/-- What is left of a history when a block scope is cut out of its stream. -/
lemma exists_excises (hw : Action.WellPlaced (pre.map Event.action))
    (hin : 0 < Action.depth (pre.map Event.action))
    (henter : enter.action = .enter kind label position) (hkind : kind.isBlock = true)
    (hbody : Action.Balanced (body.map Event.action)) (hexit : exit.action = .exit) :
    ∃ r : Renumbering, r.place = skipPlace (Action.entered (pre.map Event.action))
        (Action.entered (body.map Event.action) + 1) ∧
      (history (pre ++ post)).Excises (history (pre ++ enter :: body ++ exit :: post)) r
        (Action.entered (pre.map Event.action)) (Action.entered (body.map Event.action) + 1) := by
  obtain ⟨hopen, hbefore⟩ := Cursor.lt_entered_afterAll hw
  have hahead := Cursor.ahead_of_block hopen henter hbody hexit
  obtain ⟨-, hblock⟩ := (Cursor.afterAll {} pre).afterAll_block henter hbody
  have hentered : (Cursor.afterAll {} pre).entered = Action.entered (pre.map Event.action) := by
    rw [Cursor.entered_afterAll, Nat.zero_add]
  have hn : 0 < (Cursor.afterAll {} pre).entered := by
    have := Action.depth_le_entered (pre.map Event.action)
    omega
  rw [history_append_block hexit, history, historyFrom_append, ← hentered]
  refine ⟨_, rfl, .of_append rfl (Nat.succ_pos _) ?_ ?_ (historyFrom_skip hahead hn post)⟩
  · intro o ho
    have horder := (order_of_mem_historyFrom ho).2
    rw [← Cursor.clock_afterAll] at horder
    exact ⟨hbefore o ho, o.moved_skip hn (hbefore o ho) horder⟩
  · intro o ho
    obtain ⟨inner, hpath, hinner, hmem⟩ := hblock o ho
    exact ⟨inner, _, hpath, hinner, _, hmem, rfl, hkind⟩

/-- Without a block scope, what is left still describes a tree. -/
lemma ScopeTree.exists_ofEvents_excise {unitName filename : Option String} {t : ScopeTree}
    (he : ofEvents unitName filename (pre ++ enter :: body ++ exit :: post) = .ok t)
    (hin : 0 < Action.depth (pre.map Event.action))
    (henter : enter.action = .enter kind label position)
    (hbody : Action.Balanced (body.map Event.action)) (hexit : exit.action = .exit) :
    ∃ t', ofEvents unitName filename (pre ++ post) = .ok t' := by
  obtain ⟨hw, hdepth, -⟩ := exists_ofEvents_iff.1 ⟨t, he⟩
  have hnil : pre.map Event.action ≠ [] := by
    intro hnil
    rw [hnil] at hin
    exact absurd hin (by decide)
  have hmid : Action.depth ((enter :: body ++ [exit]).map Event.action) = 0 := by
    rw [List.map_append, Action.depth_append, List.map_cons, Action.depth_cons, hbody.1, henter,
      List.map_singleton, hexit]
    rfl
  have hevents : (pre ++ enter :: body ++ exit :: post).map Event.action =
      pre.map Event.action ++ (enter :: body ++ [exit]).map Event.action ++
        post.map Event.action := by simp
  rw [hevents] at hw hdepth
  rw [Action.depth_append, Action.depth_append, hmid] at hdepth
  refine exists_ofEvents_iff.2 ⟨?_, ?_, ?_⟩
  · rw [List.map_append]
    exact hw.excise hmid hnil
  · rw [List.map_append, Action.depth_append]
    omega
  · simp_all

/-- The scopes before, in and behind a block scope are all there are. -/
lemma ScopeTree.size_of_block {unitName filename : Option String} {t : ScopeTree}
    (he : ofEvents unitName filename (pre ++ enter :: body ++ exit :: post) = .ok t)
    (henter : enter.action = .enter kind label position) (hexit : exit.action = .exit) :
    t.size = Action.entered (pre.map Event.action) +
      (Action.entered (body.map Event.action) + 1) + Action.entered (post.map Event.action) := by
  rw [size_ofEvents he, List.map_append, List.map_append, List.map_cons, List.map_cons, henter,
    hexit, Action.entered_append, Action.entered_append, Action.entered_cons,
    Action.entered_cons]
  simp [Action.delta]

/-- The scope that is entered behind `pre` has the place behind the scopes that `pre` enters. -/
lemma ScopeTree.kind_entered {unitName filename : Option String} {t : ScopeTree}
    (he : ofEvents unitName filename (pre ++ enter :: body ++ exit :: post) = .ok t)
    (henter : enter.action = .enter kind label position) :
    (t.scope? (Action.entered (pre.map Event.action))).map Scope.kind = some kind := by
  have hkinds : t.kinds = Action.kinds (pre.map Event.action) ++ kind ::
      Action.kinds ((body ++ exit :: post).map Event.action) := by
    rw [kinds_ofEvents he, List.append_assoc, List.map_append, Action.kinds_append,
      List.cons_append, List.map_cons, henter]
    rfl
  rw [← getElem?_kinds, hkinds, Action.entered, List.getElem?_append_right (Nat.le_refl _),
    Nat.sub_self]
  rfl

/-- A block scope does not influence the code around it.  If an accepted stream enters a function,
a class or a module inside of another scope, then the stream without that scope and all in it is
accepted too.  In every mode, the sites outside of the scope are, one by one, the sites of the
shorter stream, with the same verdicts and the same owners, and the settlements outside of it are
those of the shorter stream; where a place in the shorter one is behind the gap, it has to be moved
by the number of scopes that are missing. -/
theorem analyzeEvents_excise {unitName filename : Option String} {t : ScopeTree}
    (he : ScopeTree.ofEvents unitName filename (pre ++ enter :: body ++ exit :: post) = .ok t)
    (hin : 0 < Action.depth (pre.map Event.action))
    (henter : enter.action = .enter kind label position) (hkind : kind.isBlock = true)
    (hbody : Action.Balanced (body.map Event.action)) (hexit : exit.action = .exit)
    (mode : Mode) :
    let n := Action.entered (pre.map Event.action)
    let m := Action.entered (body.map Event.action) + 1
    ∃ a a' u u',
      analyzeEvents mode (pre ++ enter :: body ++ exit :: post) unitName filename = .ok a ∧
      analyzeEvents mode (pre ++ post) unitName filename = .ok a' ∧
      a.tree = some u ∧ a'.tree = some u' ∧ (u.scope? n).map Scope.kind = some kind ∧
      List.Forall₂ (a.AgreesOn a' (skipPlace n m))
        (a.sites.filter fun s => n ∉ u.places (some s.scope.toNat)) a'.sites ∧
      ∀ name, (a.settlements.filter fun p => p.name = name ∧ n ∉ u.places (some p.scope)) =
        (a'.settlements.filter fun p => p.name = name).map (·.moved (skipPlace n m)) := by
  obtain ⟨t', he'⟩ := ScopeTree.exists_ofEvents_excise he hin henter hbody hexit
  obtain ⟨a, ha, hfollows⟩ := exists_analyzeEvents he mode
  obtain ⟨a', ha', hfollows'⟩ := exists_analyzeEvents he' mode
  obtain ⟨u, hu, hub, hsites⟩ := hfollows.tree
  obtain ⟨u', hu', -, hsites'⟩ := hfollows'.tree
  have hc := ScopeTree.classified_ofEvents he
  have hw : Action.WellPlaced (pre.map Event.action) := by
    obtain ⟨hall, -⟩ := ScopeTree.exists_ofEvents_iff.1 ⟨t, he⟩
    rw [List.append_assoc, List.map_append] at hall
    exact hall.of_append
  obtain ⟨r, hr, hcut⟩ := exists_excises post hw hin henter hkind hbody hexit
  have hplaces : ∀ i, u.places i = t.places i := by
    intro i
    rw [ScopeTree.places, ScopeTree.frames_eq_of_bare_eq hub, ScopeTree.places]
  refine ⟨a, a', u, u', ha, ha', hu, hu', ?_, ?_, ?_⟩
  · rw [← ScopeTree.getElem?_kinds, ScopeTree.kinds_eq_of_bare_eq hub, ScopeTree.getElem?_kinds,
      ScopeTree.kind_entered he henter]
  · have hagree := hcut.mirrors.agree hc hfollows hfollows'
      (q := fun s => Action.entered (pre.map Event.action) ∉ t.places (some s.scope.toNat)) ?_
    · rw [hr] at hagree
      simp only [Analysis.sites, hu, hu', hplaces]
      rw [hsites, hsites']
      exact hagree
    · intro o ho operator k
      rw [hcut.isOutside_eq (Nat.succ_pos _) ho, hc.path_eq o ho]
      rfl
  · intro name
    have hsize' : t'.size = Action.entered (pre.map Event.action) +
        Action.entered (post.map Event.action) := by
      rw [ScopeTree.size_ofEvents he', List.map_append, Action.entered_append]
    simp only [hplaces]
    exact hcut.settlements_named hr (Nat.succ_pos _) hc hfollows hfollows'
      (ScopeTree.size_of_block he henter hexit) hsize' name

/-- Without the function `g` and the closure in it, the class behind them is at the place 2, and its
targets get the same verdicts and owners as before. -/
theorem analyzeEvents_excise_mixedTargets :
    ∃ a a' u, analyzeEvents .strict ScopeTree.mixedTargets none none = .ok a ∧
      analyzeEvents .strict (ScopeTree.mixedTargets.take 3 ++ ScopeTree.mixedTargets.drop 12) none
        none = .ok a' ∧ a.tree = some u ∧
      (u.scope? 2).map Scope.kind = some .functionBody ∧
      List.Forall₂ (a.AgreesOn a' (skipPlace 2 2))
        (a.sites.filter fun s => 2 ∉ u.places (some s.scope.toNat)) a'.sites := by
  let g : Event := { action := .enter .functionBody (some "g") none }
  let inner := (ScopeTree.mixedTargets.drop 4).take 7
  obtain ⟨t, he⟩ : ∃ t, ScopeTree.ofEvents none none (ScopeTree.mixedTargets.take 3 ++ g :: inner ++
      { action := .exit } :: ScopeTree.mixedTargets.drop 12) = .ok t := ⟨_, rfl⟩
  obtain ⟨a, a', u, -, ha, ha', hu, -, hkind, hsites, -⟩ :=
    analyzeEvents_excise he (by decide) rfl rfl (by decide) rfl .strict
  exact ⟨a, a', u, ha, ha', hu, hkind, hsites⟩

end Excision

end TargetScope
