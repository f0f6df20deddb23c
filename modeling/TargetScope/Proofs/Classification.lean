import TargetScope.Proofs.Handling
import TargetScope.Proofs.History
import TargetScope.Proofs.Preorder

/-!
# What a builder builds

A builder is sound (`TreeBuilder.Sound`) if its tree is an arena under a module, its open scopes
are the chain of the innermost one, and the stretches of the open scopes reach the end of the
tree.  It follows a history (`TreeBuilder.Follows`) if its bindings and its use sites are those of
the history.

Each accepted event keeps both, and moves the cursor of the builder as it moves the cursor of a
history (`TreeBuilder.follows_act`).  So the tree of a stream of events is known from the history
of the stream (`ScopeTree.classified_ofEvents`).
-/

namespace TargetScope

namespace ScopeTree

variable {t : ScopeTree}

/-- No scope has two bindings of one name. -/
def DistinctNames (t : ScopeTree) : Prop :=
  ∀ (i : Nat) (s : Scope), t.scope? i = some s → (s.bindings.map Binding.name).Nodup

namespace DistinctNames

lemma put (ht : t.DistinctNames) (i : Nat) (b : Binding) : (t.put i b).DistinctNames := by
  intro j s hs
  rw [scope?_put] at hs
  split at hs
  · obtain ⟨s₀, hs₀, rfl⟩ := Option.map_eq_some_iff.1 hs
    have hnd := ht _ _ hs₀
    show ((b.putIn s₀.bindings).map Binding.name).Nodup
    rw [Binding.map_name_putIn]
    split
    · exact hnd
    · next hb => exact List.nodup_append.2 ⟨hnd, by simp, by
        rintro n hn m hm rfl
        exact hb (List.mem_singleton.1 hm ▸ hn)⟩
  · exact ht _ _ hs

lemma addScope (ht : t.DistinctNames) {kind : ScopeKind} {parent : Option Nat}
    {label : Option String} {position : Option Position} (h : ∀ p ∈ parent, p < t.size) :
    (t.addScope kind parent label position).DistinctNames := by
  intro i s hs
  rw [scope?_addScope t kind parent label position h] at hs
  split at hs
  · cases hs
    simp
  · obtain ⟨s₀, hs₀, rfl⟩ := Option.map_eq_some_iff.1 hs
    have hnd := ht _ _ hs₀
    split <;> exact hnd

end DistinctNames

lemma binding?_of_scope? {i : Nat} {s : Scope} (hs : t.scope? i = some s) (name : String) :
    t.binding? i name = s.binding? name := by
  simp [binding?, hs]

lemma binding?_addScope (t : ScopeTree) {kind : ScopeKind} {parent : Option Nat}
    {label : Option String} {position : Option Position} (h : ∀ p ∈ parent, p < t.size) (i : Nat)
    (name : String) :
    (t.addScope kind parent label position).binding? i name = t.binding? i name := by
  rw [binding?, scope?_addScope t kind parent label position h, binding?]
  split
  · next hi =>
    have hn : t.scope? i = none := List.getElem?_eq_none (Nat.le_of_eq hi.symm)
    rw [hn]
    rfl
  · cases t.scope? i with
    | none => rfl
    | some s => by_cases hp : parent = some i <;> simp [hp, Scope.binding?]

end ScopeTree

/-- A mention whose way outward is that of its place stands in the tree, since elsewhere there is
none. -/
lemma Occurrence.index_lt_of_path_eq {t : ScopeTree} (o : Occurrence)
    (hp : o.path = t.frames (some o.scope.index)) : o.scope.index < t.size := by
  by_contra hlt
  rw [ScopeTree.frames_of_size_le (Nat.le_of_not_lt hlt)] at hp
  exact absurd hp (List.cons_ne_nil _ _)

namespace TreeBuilder

variable {b b' : TreeBuilder} {e : Event} {h : History}

/-! ## Sound builders -/

/-- What holds of every builder between two events. -/
structure Sound (b : TreeBuilder) : Prop where
  arena : b.tree.Arena
  rooted : b.tree.Rooted
  names : b.tree.DistinctNames
  open_eq : b.openScopes = b.tree.places b.openScopes.head?
  nested : ∃ stop, b.tree.Nested stop ∧ (∀ i ∈ b.openScopes, stop i = b.tree.size) ∧
    (0 < b.tree.size → stop ScopeTree.rootIndex = b.tree.size)

lemma sound_start (unitName filename : Option String) : (start unitName filename).Sound where
  arena := ⟨fun hs => by simp [start, ScopeTree.scope?] at hs,
    fun hs => by simp [start, ScopeTree.scope?] at hs⟩
  rooted := ⟨fun hs => by simp [start, ScopeTree.scope?] at hs,
    fun hs => by simp [start, ScopeTree.scope?] at hs⟩
  names := fun i s hs => by simp [start, ScopeTree.scope?] at hs
  open_eq := rfl
  nested := ⟨id, ⟨fun hs => by simp [start, ScopeTree.scope?] at hs,
    fun hs => by simp [start, ScopeTree.scope?] at hs,
    fun hi => by simp [start, ScopeTree.size] at hi⟩,
    fun _ hi => by simp [start] at hi, fun hi => by simp [start, ScopeTree.size] at hi⟩

namespace Sound

/-- The innermost open scope is in the tree. -/
lemma exists_current (hb : b.Sound) {i : Nat} {outer : List Nat}
    (ho : b.openScopes = i :: outer) :
    ∃ s, b.tree.scope? i = some s ∧ b.current? = some s ∧ outer = b.tree.places s.parent := by
  have heq := hb.open_eq
  rw [ho, List.head?_cons] at heq
  have hi : i < b.tree.size := hb.arena.lt_size_of_mem_places (heq ▸ List.mem_cons_self)
  obtain ⟨s, hs⟩ := ScopeTree.exists_scope?_of_lt hi
  rw [hb.arena.places_eq_cons hs, List.cons.injEq] at heq
  exact ⟨s, hs, by simp [current?, ho, hs], heq.2⟩

lemma of_bare_eq (hb : b.Sound) (ht : b'.tree.bare = b.tree.bare)
    (ho : b'.openScopes = b.openScopes) (hn : b'.tree.DistinctNames) : b'.Sound where
  arena := hb.arena.of_bare_eq ht
  rooted := hb.rooted.of_bare_eq ht
  names := hn
  open_eq := by
    rw [ho, ScopeTree.places, ScopeTree.frames_eq_of_bare_eq ht]
    exact hb.open_eq
  nested := by
    obtain ⟨stop, hn, hopen, hroot⟩ := hb.nested
    rw [ho, ScopeTree.size_eq_of_bare_eq ht]
    exact ⟨stop, hn.of_bare_eq ht, hopen, hroot⟩

lemma tick (hb : b.Sound) : b.tick.Sound :=
  hb.of_bare_eq rfl rfl hb.names

/-- A scope is entered in the innermost open scope, or as the root. -/
lemma addScope (hb : b.Sound) {kind : ScopeKind} {label : Option String}
    {position : Option Position} {clock : Int}
    (hnew : b.openScopes = [] → b.tree.size = 0 ∧ kind = .moduleBody) :
    Sound { tree := b.tree.addScope kind b.openScopes.head? label position
            openScopes := b.tree.size :: b.openScopes, clock } := by
  have hp : ∀ p ∈ b.openScopes.head?, p < b.tree.size := by
    intro p hp
    rw [Option.mem_def] at hp
    refine hb.arena.lt_size_of_mem_places (i := some p) ?_
    rw [← hp, ← hb.open_eq]
    exact List.mem_of_head? hp
  have hplaces : (b.tree.addScope kind b.openScopes.head? label position).places
      (some b.tree.size) = b.tree.size :: b.openScopes := by
    rw [ScopeTree.places, hb.arena.frames_addScope_size hp, List.map_cons]
    exact congrArg _ hb.open_eq.symm
  refine ⟨hb.arena.addScope hp, hb.rooted.addScope hp ?_, hb.names.addScope hp, hplaces.symm, ?_⟩
  · cases ho : b.openScopes with
    | nil => exact Or.inr ⟨rfl, hnew ho⟩
    | cons p outer =>
      have := hp p (by simp [ho])
      exact Or.inl ⟨rfl, by omega⟩
  · obtain ⟨stop, hn, hopen, hroot⟩ := hb.nested
    refine ⟨_, hn.addScope hb.arena hp fun i hi => hopen i (hb.open_eq ▸ hi), ?_, ?_⟩
    · intro i hi
      rw [← hb.open_eq, ScopeTree.size_addScope]
      exact if_pos (by simpa using hi)
    · intro _
      rw [← hb.open_eq, ScopeTree.size_addScope]
      refine if_pos ?_
      cases ho : b.openScopes with
      | nil => exact Or.inl (hnew ho).1.symm
      | cons p outer =>
        -- the root is open as long as any scope is
        refine Or.inr ?_
        rw [← ho, hb.open_eq, ho, List.head?_cons]
        exact hb.rooted.root_mem_places hb.arena (hp p (by simp [ho]))

/-- Leaving the innermost open scope leaves the chain of the scope around it. -/
lemma exit (hb : b.Sound) {i : Nat} {outer : List Nat} (ho : b.openScopes = i :: outer) :
    Sound { b with openScopes := outer } := by
  obtain ⟨s, hs, -, hout⟩ := hb.exists_current ho
  refine ⟨hb.arena, hb.rooted, hb.names, ?_, ?_⟩
  · show outer = b.tree.places outer.head?
    rw [hout]
    exact congrArg (List.map Frame.index) (hb.arena.frames_head?_places s.parent).symm
  · obtain ⟨stop, hn, hopen, hroot⟩ := hb.nested
    exact ⟨stop, hn, fun j hj => hopen j (ho ▸ List.mem_cons_of_mem _ hj), hroot⟩

end Sound

/-! ## Mentions -/

section Mention

variable (t : ScopeTree) (s : Scope) (name : String) (position : Option Position) (order : Int)

/-- A mention that is no target puts one binding into its scope. -/
lemma addMention_of_isBlocking_or_isOuter {how : Mention}
    (hr : how.role.isBlocking = true ∨ how.role.isOuter = true) :
    addMention t s name how position order = t.put s.index
      (declaredBinding name how.role position order (s.binding? name)) := by
  cases how with
  | parameter | iteration | outerFunction | outerModule => rfl
  | assignment | typeDeclaration | target operator =>
    exact absurd hr (by simp [Mention.role, BindingRole.isBlocking, BindingRole.isOuter])

lemma addMention_of_plain {how : Mention} (hr : how.role = .plain) :
    addMention t s name how position order = t.put s.index
      (plainBinding name position order (s.binding? name)) := by
  cases how with
  | assignment | typeDeclaration => rfl
  | parameter | iteration | outerFunction | outerModule | target operator =>
    exact absurd hr (by simp [Mention.role])

lemma bare_addTarget (operator : Operator) :
    (addTarget t s name operator position order).bare = t.bare := by
  rw [addTarget]
  split
  · split
    · rw [ScopeTree.bare_put, ScopeTree.bare_addSite]
    · rfl
  · rfl

lemma bare_addMention (how : Mention) :
    (addMention t s name how position order).bare = t.bare := by
  cases how with
  | target operator => exact bare_addTarget t s name position order operator
  | _ => exact ScopeTree.bare_put t _ _

lemma distinctNames_addMention {t : ScopeTree} (ht : t.DistinctNames) (how : Mention) :
    (addMention t s name how position order).DistinctNames := by
  cases how with
  | target operator =>
    show (addTarget t s name operator position order).DistinctNames
    have hsite : (t.addSite name s.index operator position order).DistinctNames := ht
    rw [addTarget]
    split
    · split
      · exact hsite.put _ _
      · exact hsite
    · exact hsite
  | _ => exact ht.put _ _

lemma sites_addTarget (operator : Operator) :
    (addTarget t s name operator position order).sites =
      (t.addSite name s.index operator position order).sites := by
  rw [addTarget]
  split
  · split <;> rfl
  · rfl

end Mention

/-! ## Builders that follow a history -/

/-- The builder has the bindings and the use sites of the history, whose mentions stand in its
tree. -/
structure Follows (b : TreeBuilder) (h : History) : Prop where
  binding?_eq : ∀ (i : Nat) (name : String), b.tree.binding? i name = h.binding? i name
  sites_eq : b.tree.sites = h.sites
  path_eq : ∀ o ∈ h, o.path = b.tree.frames (some o.scope.index)
  order_le : ∀ o ∈ h, o.order ≤ b.clock
  ordered : h.Pairwise fun o p => o.order < p.order

/-- The cursor of a builder. -/
def cursor (b : TreeBuilder) : Cursor where
  path := b.tree.frames b.openScopes.head?
  entered := b.tree.size
  clock := b.clock

lemma follows_start (unitName filename : Option String) :
    (start unitName filename).Follows [] where
  binding?_eq := fun _ _ => rfl
  sites_eq := rfl
  path_eq := fun _ ho => absurd ho List.not_mem_nil
  order_le := fun _ ho => absurd ho List.not_mem_nil
  ordered := List.Pairwise.nil

namespace Follows

/-- The place of a mention is in the tree. -/
lemma index_lt (hf : b.Follows h) {o : Occurrence} (ho : o ∈ h) :
    o.scope.index < b.tree.size :=
  o.index_lt_of_path_eq (hf.path_eq o ho)

/-- An event that is no mention has no effect on the history. -/
lemma addScope (hf : b.Follows h) (hb : b.Sound) {kind : ScopeKind} {parent : Option Nat}
    {label : Option String} {position : Option Position} (hp : ∀ p ∈ parent, p < b.tree.size)
    {openScopes : List Nat} {clock : Int} (hc : b.clock ≤ clock) :
    Follows { tree := b.tree.addScope kind parent label position, openScopes, clock } h where
  binding?_eq := by
    intro i name
    rw [ScopeTree.binding?_addScope _ hp]
    exact hf.binding?_eq i name
  sites_eq := by
    cases parent <;> exact hf.sites_eq
  path_eq := by
    intro o ho
    rw [hb.arena.frames_addScope_of_lt hp (hf.index_lt ho)]
    exact hf.path_eq o ho
  order_le := fun o ho => Int.le_trans (hf.order_le o ho) hc
  ordered := hf.ordered

end Follows

section Target

variable {t : ScopeTree} {s : Scope} {i : Nat} {o : Occurrence}

/-- The transparent scopes on the way of a mention outward block its name if and only if the mention
is obstructed by the history. -/
lemma any_blocks_transparentPath (ht : t.Arena) (hs : t.scope? i = some s)
    (hpath : o.path = t.frames (some i))
    (hbind : ∀ (j : Nat) (name : String), t.binding? j name = h.binding? j name)
    (hlt : ∀ p ∈ h, p.order < o.order) :
    ((t.transparentPath s).any fun c => c.blocks o.name) = h.obstructs o := by
  have hblocks : ∀ c ∈ t.transparentPath s,
      c.blocks o.name = (h.blocker? c.frame.index o.name).isSome := by
    intro c hc
    have hmem := (ht.scope?_of_mem_chain hs (List.takeWhile_subset _ hc)).1
    rw [Scope.blocks, ← t.binding?_of_scope? hmem, hbind, History.any_isBlocking_binding?]
    rfl
  have hframes : o.transparentPath = (t.transparentPath s).map Scope.frame := by
    rw [ScopeTree.map_frame_transparentPath, ← ScopeTree.frames_of_scope? hs, ← hpath]
    rfl
  rw [Bool.eq_iff_iff, List.any_eq_true, History.obstructs, List.any_eq_true, hframes]
  constructor
  · rintro ⟨c, hc, hb⟩
    rw [hblocks c hc, History.blocker?, List.find?_isSome] at hb
    obtain ⟨p, hp, hpb⟩ := hb
    rw [Bool.and_eq_true] at hpb
    refine ⟨p, hp, ?_⟩
    rw [Bool.and_eq_true, Bool.and_eq_true, List.any_map, List.any_eq_true]
    exact ⟨⟨decide_eq_true (hlt p hp), hpb.2⟩, c, hc, hpb.1⟩
  · rintro ⟨p, hp, hpb⟩
    rw [Bool.and_eq_true, Bool.and_eq_true, List.any_map, List.any_eq_true] at hpb
    obtain ⟨⟨-, hbl⟩, c, hc, hat⟩ := hpb
    refine ⟨c, hc, ?_⟩
    rw [hblocks c hc, History.blocker?, List.find?_isSome]
    exact ⟨p, hp, by rw [Bool.and_eq_true]; exact ⟨hat, hbl⟩⟩

/-- What a target does, in the words of a history. -/
lemma addTarget_eq (ht : t.Arena) (hs : t.scope? i = some s) (hpath : o.path = t.frames (some i))
    (hbind : ∀ (j : Nat) (name : String), t.binding? j name = h.binding? j name)
    (hlt : ∀ p ∈ h, p.order < o.order) {operator : Operator} (ho : o.how = .target operator) :
    addTarget t s o.name operator o.position o.order =
      if o.block.kind = .functionBody ∧ (t.binding? o.block.index o.name).isNone ∧
          !h.obstructs o then
        (t.addSite o.name s.index operator o.position o.order).put o.block.index o.binding
      else t.addSite o.name s.index operator o.position o.order := by
  -- the way outward is walked in the tree that has the new use site already
  let t' := t.addSite o.name s.index operator o.position o.order
  have hbare : t'.bare = t.bare := ScopeTree.bare_addSite t _ _ _ _ _
  have ht' : t'.Arena := ht.of_bare_eq hbare
  have hs' : t'.scope? i = some s := hs
  have hpath' : o.path = t'.frames (some i) := by
    rw [ScopeTree.frames_eq_of_bare_eq hbare, hpath]
  have hobs := any_blocks_transparentPath ht' hs' hpath' hbind hlt
  have hfind : (t'.nearestBlock s).map Scope.frame = o.path.find? fun f => f.kind.isBlock := by
    rw [ScopeTree.map_frame_nearestBlock, ← ScopeTree.frames_of_scope? hs', ← hpath']
  have hnew : ({ name := o.name, role := .targetOnly, declaredAt := o.position } : Binding) =
      o.binding := by
    simp [Occurrence.binding, Occurrence.role, ho, Mention.role]
  cases hblock : t'.nearestBlock s with
  | none =>
    have hroot : o.block = ⟨ScopeTree.rootIndex, .moduleBody⟩ := by
      rw [Occurrence.block, ← hfind, hblock]
      rfl
    rw [addTarget, hblock, hroot, if_neg (by simp)]
  | some block =>
    have hframe : o.block = block.frame := by
      rw [Occurrence.block, ← hfind, hblock]
      rfl
    have hmem := (ht'.scope?_of_mem_chain hs' (List.mem_of_find?_eq_some hblock)).1
    have hbb : block.binding? o.name = t.binding? block.index o.name :=
      (t'.binding?_of_scope? hmem o.name).symm
    rw [addTarget, hblock, hframe]
    simp only
    rw [hbb, hnew]
    show (if block.kind = .functionBody ∧ (t.binding? block.index o.name).isNone ∧
      !((t'.transparentPath s).any fun c => c.blocks o.name) then _ else _) = _
    rw [hobs]
    rfl

/-- The bindings after a target, in the words of a history. -/
lemma binding?_addTarget (ht : t.Arena) (hr : t.Rooted) (hs : t.scope? i = some s)
    (hpath : o.path = t.frames (some i))
    (hbind : ∀ (j : Nat) (name : String), t.binding? j name = h.binding? j name)
    (hlt : ∀ p ∈ h, p.order < o.order) {operator : Operator} (ho : o.how = .target operator)
    (j : Nat) (name : String) :
    (addTarget t s o.name operator o.position o.order).binding? j name =
      (t.binding? j name).or
        (if o.name = name ∧ o.block = ⟨j, .functionBody⟩ ∧ h.obstructs o = false
          then some o.binding else none) := by
  have hlast : o.block.index < t.size := by
    cases hfind : o.path.find? fun f => f.kind.isBlock with
    | none =>
      rw [Occurrence.block, hfind]
      exact ht.lt_size_of_mem_places
        (hr.root_mem_places ht (ScopeTree.lt_size_of_scope? hs))
    | some f =>
      rw [Occurrence.block, hfind]
      exact (ht.index_le_of_mem_frames (hpath ▸ List.mem_of_find?_eq_some hfind)).2
  rw [addTarget_eq ht hs hpath hbind hlt ho]
  split
  · next hc =>
    obtain ⟨hk, hnone, hobs⟩ := hc
    rw [Option.isNone_iff_eq_none] at hnone
    rw [ScopeTree.binding?_put _ _ _ _ (by exact hlast), show o.binding.name = o.name from rfl]
    by_cases hjn : o.block.index = j ∧ o.name = name
    · obtain ⟨rfl, rfl⟩ := hjn
      have hf : o.block = ⟨o.block.index, .functionBody⟩ := by rw [← hk]
      rw [hnone, if_pos ⟨rfl, rfl⟩, if_pos ⟨rfl, hf, by simpa using hobs⟩, Option.none_or]
    · rw [if_neg hjn, if_neg, Option.or_none]
      · rfl
      · rintro ⟨hn, hf, -⟩
        exact hjn ⟨congrArg Frame.index hf, hn⟩
  · next hc =>
    by_cases hjn : o.name = name ∧ o.block = ⟨j, .functionBody⟩ ∧ h.obstructs o = false
    · obtain ⟨rfl, hf, hobs⟩ := hjn
      have hsome : t.binding? j o.name ≠ none := by
        intro hnone
        exact hc ⟨by rw [hf], by simp [hf, hnone], by simp [hobs]⟩
      obtain ⟨c, hcb⟩ := Option.ne_none_iff_exists'.1 hsome
      rw [hcb, Option.some_or]
      exact hcb
    · rw [if_neg hjn, Option.or_none]
      rfl

/-- A mention that is no target puts the binding of the longer history into its scope. -/
lemma binding?_put_of_concat (hbind : ∀ (j : Nat) (name : String), t.binding? j name =
    h.binding? j name) (hle : ∀ p ∈ h, p.order ≤ o.order) (hr : o.role ≠ .targetOnly)
    (hi : o.scope.index < t.size) {c : Binding}
    (hc : History.binding? (h ++ [o]) o.scope.index o.name = some c) (j : Nat) (name : String) :
    (t.put o.scope.index c).binding? j name = History.binding? (h ++ [o]) j name := by
  rw [ScopeTree.binding?_put _ _ _ _ hi, History.name_of_binding? hc]
  by_cases hjn : o.scope.index = j ∧ o.name = name
  · obtain ⟨rfl, rfl⟩ := hjn
    rw [if_pos ⟨rfl, rfl⟩, hc]
  · have hat : o.isAt j name = false := by
      rw [Bool.eq_false_iff]
      intro hat
      simp only [Occurrence.isAt, Bool.and_eq_true, decide_eq_true_eq] at hat
      exact hjn hat
    rw [if_neg hjn, hbind, History.binding?_concat_of_not_isAt hle hr hat]

end Target

/-- A mention adds one entry to the history that a builder follows. -/
lemma Follows.addMention (hf : b.Follows h) (hb : b.Sound) {i : Nat} {s : Scope}
    (hs : b.tree.scope? i = some s) {o : Occurrence} (hscope : o.scope = s.frame)
    (hpath : o.path = b.tree.frames (some i)) (hclock : b.clock < o.order) :
    Follows { b with
      tree := TreeBuilder.addMention b.tree s o.name o.how o.position o.order
      clock := o.order } (h ++ [o]) := by
  have hi : o.scope.index = s.index := congrArg Frame.index hscope
  have hsi : s.index = i := hb.arena.index_eq hs
  have hlt : ∀ p ∈ h, p.order < o.order := fun p hp => Int.lt_of_le_of_lt (hf.order_le p hp) hclock
  have hle : ∀ p ∈ h, p.order ≤ o.order := fun p hp => Int.le_of_lt (hlt p hp)
  have hbare := bare_addMention b.tree s o.name o.position o.order o.how
  have hit : o.scope.index < b.tree.size := by
    rw [hi, hsi]
    exact ScopeTree.lt_size_of_scope? hs
  have hsb : s.binding? o.name = h.binding? o.scope.index o.name := by
    rw [← hf.binding?_eq, hi, hsi, ScopeTree.binding?_of_scope? hs]
  refine ⟨?_, ?_, ?_, ?_, ?_⟩
  · intro j name
    show (TreeBuilder.addMention b.tree s o.name o.how o.position o.order).binding? j name = _
    cases hr : o.role with
    | parameter | iteration | outerFunction | outerModule =>
      have hr' : o.role.isBlocking = true ∨ o.role.isOuter = true := by
        rw [hr]
        decide
      rw [addMention_of_isBlocking_or_isOuter _ _ _ _ _ hr', hsb, ← hi]
      exact binding?_put_of_concat hf.binding?_eq hle (by simp [hr]) hit
        (History.binding?_concat_declared hr') j name
    | plain =>
      rw [addMention_of_plain _ _ _ _ _ hr, hsb, ← hi]
      exact binding?_put_of_concat hf.binding?_eq hle (by simp [hr]) hit
        (History.binding?_concat_plain hr) j name
    | targetOnly =>
      obtain ⟨operator, ho⟩ := Mention.eq_target_of_role hr
      rw [ho, History.binding?_concat_target hle hr, ← hf.binding?_eq]
      exact binding?_addTarget hb.arena hb.rooted hs hpath hf.binding?_eq hlt ho j name
  · show (TreeBuilder.addMention b.tree s o.name o.how o.position o.order).sites = _
    cases ho : o.how with
    | target operator =>
      rw [History.sites_concat_target ho, ← hf.sites_eq]
      refine (sites_addTarget _ _ _ _ _ _).trans ?_
      rw [ScopeTree.addSite, Occurrence.site, hi]
    | _ =>
      rw [History.sites_concat_of_operator?_eq_none (by rw [ho]; rfl), ← hf.sites_eq]
      rfl
  · intro p hp
    show p.path = (TreeBuilder.addMention b.tree s o.name o.how o.position o.order).frames _
    rw [ScopeTree.frames_eq_of_bare_eq hbare]
    rcases List.mem_append.1 hp with hp | hp
    · exact hf.path_eq p hp
    · obtain rfl := List.mem_singleton.1 hp
      rw [hi, hsi, hpath]
  · intro p hp
    rcases List.mem_append.1 hp with hp | hp
    · exact hle p hp
    · exact Int.le_of_eq (congrArg Occurrence.order (List.mem_singleton.1 hp))
  · refine List.pairwise_append.2 ⟨hf.ordered, List.pairwise_singleton _ _, ?_⟩
    intro p hp q hq
    obtain rfl := List.mem_singleton.1 hq
    exact hlt p hp

/-! ## Events and batches of events -/

/-- One accepted event. -/
lemma follows_act (hf : b.Follows h) (hb : b.Sound) (he : b.tick.act e = .ok b') :
    b'.Sound ∧ b'.cursor = b.cursor.after e ∧
      b'.Follows (h ++ (b.cursor.occurrence? e).toList) := by
  have hclock : b.clock ≤ b.clock + 1 := by omega
  cases ha : e.action with
  | enter kind label position =>
    obtain ⟨hnew, label', rfl⟩ := enter_eq_ok ha he
    have hp : ∀ p ∈ b.openScopes.head?, p < b.tree.size := by
      intro p hp
      refine hb.arena.lt_size_of_mem_places (i := some p) ?_
      rw [← Option.mem_def.1 hp, ← hb.open_eq]
      exact List.mem_of_head? hp
    have hocc : b.cursor.occurrence? e = none := by simp [Cursor.occurrence?, ha]
    refine ⟨hb.tick.addScope hnew, ?_, ?_⟩
    · have hframes : (b.tree.addScope kind b.openScopes.head? label' position).frames
          (some b.tree.size) = ⟨b.tree.size, kind⟩ :: b.tree.frames b.openScopes.head? :=
        hb.arena.frames_addScope_size hp
      simp only [cursor, Cursor.after, ha, Cursor.mk.injEq]
      exact ⟨hframes, ScopeTree.size_addScope _ _ _ _ _, rfl⟩
    · rw [hocc, Option.toList_none, List.append_nil]
      exact hf.addScope hb hp hclock
  | exit =>
    obtain ⟨i, outer, ho, rfl⟩ := exit_eq_ok ha he
    have hocc : b.cursor.occurrence? e = none := by simp [Cursor.occurrence?, ha]
    obtain ⟨s, hs, -, hout⟩ := hb.exists_current ho
    have hpath : b.cursor.path = s.frame :: b.tree.frames s.parent := by
      rw [cursor, show b.openScopes = i :: outer from ho]
      exact hb.arena.frames_eq_cons hs
    refine ⟨hb.tick.exit ho, ?_, ?_⟩
    · have hrest : b.tree.frames outer.head? = b.tree.frames s.parent := by
        rw [hout, hb.arena.frames_head?_places]
      simp only [Cursor.after, ha, hpath, List.tail_cons]
      exact congrArg (fun path => Cursor.mk path b.tree.size (b.clock + 1)) hrest
    · rw [hocc, Option.toList_none, List.append_nil]
      exact ⟨hf.binding?_eq, hf.sites_eq, hf.path_eq,
        fun o ho => Int.le_trans (hf.order_le o ho) hclock, hf.ordered⟩
  | mention name how position =>
    obtain ⟨s, hcur, rfl⟩ := mention_eq_ok ha he
    obtain ⟨i, hi, hs⟩ := Option.bind_eq_some_iff.1 hcur
    have hpath : b.tree.frames (some i) = s.frame :: b.tree.frames s.parent :=
      hb.arena.frames_eq_cons hs
    have hcp : b.cursor.path = s.frame :: b.tree.frames s.parent := by
      rw [cursor, show b.openScopes.head? = some i from hi]
      exact hpath
    let o : Occurrence :=
      { name, how, position, order := b.clock + 1, scope := s.frame,
        around := b.tree.frames s.parent }
    have hocc : b.cursor.occurrence? e = some o := by
      simp only [Cursor.occurrence?, ha, hcp]
      rfl
    have hbare := bare_addMention b.tree s name position (b.clock + 1) how
    refine ⟨hb.of_bare_eq hbare rfl (distinctNames_addMention s name position (b.clock + 1)
      hb.names how), ?_, ?_⟩
    · simp only [cursor, Cursor.after, ha, Cursor.mk.injEq]
      exact ⟨ScopeTree.frames_eq_of_bare_eq hbare _, ScopeTree.size_eq_of_bare_eq hbare, rfl⟩
    · rw [hocc]
      exact hf.addMention hb hs (o := o) rfl hpath.symm (by show b.clock < b.clock + 1; omega)

/-- A batch of events, all of them accepted. -/
lemma follows_feed (hf : b.Follows h) (hb : b.Sound) {events : List Event}
    (he : b.feed events = (b', none)) :
    b'.Sound ∧ b'.Follows (h ++ historyFrom b.cursor events) ∧ b'.unfinished? = none := by
  induction events generalizing b h with
  | nil =>
    rw [feed, Prod.mk.injEq] at he
    obtain ⟨rfl, hu⟩ := he
    exact ⟨hb, by simpa [historyFrom] using hf, hu⟩
  | cons e rest ih =>
    rw [feed_cons] at he
    cases hact : b.tick.act e with
    | error fault => simp [hact] at he
    | ok b₁ =>
      simp only [hact] at he
      obtain ⟨hb₁, hc, hf₁⟩ := follows_act hf hb hact
      have := ih hf₁ hb₁ he
      rwa [hc, List.append_assoc] at this

end TreeBuilder

/-! ## The tree of a stream of events -/

namespace ScopeTree

variable {unitName filename : Option String} {events : List Event} {t : ScopeTree}

/-- What holds of the tree of a stream of events. -/
structure Classified (t : ScopeTree) (h : History) : Prop where
  arena : t.Arena
  rooted : t.Rooted
  names : t.DistinctNames
  children_lt : ∀ {i : Nat} {s : Scope}, t.scope? i = some s → ∀ c ∈ s.children, c < t.size
  preorder_eq : t.preorder = List.range t.size
  size_pos : 0 < t.size
  binding?_eq : ∀ (i : Nat) (name : String), t.binding? i name = h.binding? i name
  sites_eq : t.sites = h.sites
  path_eq : ∀ o ∈ h, o.path = t.frames (some o.scope.index)
  ordered : h.Pairwise fun o p => o.order < p.order

/-- The tree of a sound builder, once it has a scope. -/
lemma classified_of_follows {b : TreeBuilder} {h : History} (hb : b.Sound) (hf : b.Follows h)
    (hne : b.tree.scopes ≠ []) : b.tree.Classified h where
  arena := hb.arena
  rooted := hb.rooted
  names := hb.names
  children_lt := by
    obtain ⟨stop, hn, -⟩ := hb.nested
    intro i s hs c hc
    obtain ⟨sc, hsc, -⟩ := (hn.mem_children_iff hs c).1 hc
    exact lt_size_of_scope? hsc
  preorder_eq := by
    obtain ⟨stop, hn, -, hroot⟩ := hb.nested
    exact hn.preorder_eq_range hroot
  size_pos := List.length_pos_iff.2 hne
  binding?_eq := hf.binding?_eq
  sites_eq := hf.sites_eq
  path_eq := hf.path_eq
  ordered := hf.ordered

/-- A tree that events describe is that of a builder which has taken them, and has a scope. -/
lemma exists_builder_of_ofEvents (he : ofEvents unitName filename events = .ok t) :
    ∃ b : TreeBuilder, b.tree = t ∧ b.Sound ∧ b.Follows (history events) ∧ t.scopes ≠ [] := by
  rw [ofEvents] at he
  split at he
  · next b hfeed =>
    obtain rfl := Except.ok.inj he
    obtain ⟨hb, hf, hu⟩ := TreeBuilder.follows_feed
      (TreeBuilder.follows_start unitName filename) (TreeBuilder.sound_start unitName filename)
      hfeed
    refine ⟨b, rfl, hb, hf, fun hnil => ?_⟩
    -- without a scope the builder would not be finished
    rw [TreeBuilder.unfinished?] at hu
    split at hu
    · simp at hu
    · simp [hnil] at hu
  · simp at he

lemma classified_ofEvents (he : ofEvents unitName filename events = .ok t) :
    t.Classified (history events) := by
  obtain ⟨b, rfl, hb, hf, hne⟩ := exists_builder_of_ofEvents he
  exact classified_of_follows hb hf hne

end ScopeTree

end TargetScope
