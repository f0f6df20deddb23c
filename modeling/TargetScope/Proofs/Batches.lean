import TargetScope.Proofs.Settlement

/-!
# Builders that are fed in batches

A builder may be given its events in any number of batches, and it goes on after an event that it
has refused.  Whatever the events are, its tree is in order between any two of them
(`TreeBuilder.InOrder`):

* scopes, their parents and their children refer to each other by places, in which parents come
  first and children stand in the order of their entry, so that the walk from the root meets the
  places in their order (`ScopeTree.InOrder`);
* the open scopes lead from the innermost one to the root, and each of them is the last child of
  the next, so that a scope is only ever entered at the right edge of the tree;
* use sites and bindings have the numbers of events that have been counted.

An accepted event keeps the builder sound and adds to the history that it follows; a refused one is
only counted (`TreeBuilder.Consistent.act`, `TreeBuilder.Consistent.tick`).  So both hold after any
batches (`TreeBuilder.Consistent.feedAll`), and the order is read off them.
-/

namespace TargetScope

/-! ## What is in order -/

/-- The scopes of a tree refer to each other by their places, in the order in which they were
entered. -/
structure ScopeTree.InOrder (t : ScopeTree) : Prop where
  /-- Each scope knows its own place. -/
  index_eq : ∀ {i : Nat} {s : Scope}, t.scope? i = some s → s.index = i
  /-- The first scope is a module without a parent. -/
  root : ∀ {s : Scope}, t.scope? rootIndex = some s → s.kind = .moduleBody ∧ s.parent = none
  /-- Every other scope has a parent, which was entered before. -/
  parent_lt : ∀ {i : Nat} {s : Scope}, t.scope? i = some s → i ≠ rootIndex →
    ∃ p, s.parent = some p ∧ p < i
  /-- The children are listed in the order of their places. -/
  pairwise_children : ∀ {i : Nat} {s : Scope}, t.scope? i = some s → s.children.Pairwise (· < ·)
  /-- The children of a scope are the scopes whose parent it is. -/
  mem_children_iff : ∀ {i : Nat} {s : Scope}, t.scope? i = some s → ∀ c : Nat,
    c ∈ s.children ↔ ∃ sc, t.scope? c = some sc ∧ sc.parent = some i
  /-- The walk from the root meets each place once, in their order. -/
  preorder_eq : t.preorder = List.range t.size

namespace TreeBuilder

/-- A builder is in order: its tree is, its open scopes are the right edge of the tree, and all its
numbers are those of events that it has counted. -/
structure InOrder (b : TreeBuilder) : Prop where
  tree : b.tree.InOrder
  /-- Each open scope is the last child of the next one, which is its parent. -/
  isChain_open : b.openScopes.IsChain fun c p =>
    ∃ sc sp, b.tree.scope? c = some sc ∧ b.tree.scope? p = some sp ∧ sc.parent = some p ∧
      sp.children.getLast? = some c
  /-- The outermost open scope is the root. -/
  outermost : ∀ i, b.openScopes.getLast? = some i →
    i = ScopeTree.rootIndex ∧ ∃ s, b.tree.scope? i = some s
  /-- Each use site knows its own place. -/
  index_site : ∀ {k : Nat} {site : UseSite}, b.tree.sites[k]? = some site → site.index = k
  /-- Each use site stands in a scope of the tree. -/
  scope_site : ∀ site ∈ b.tree.sites, 0 ≤ site.scope ∧ site.scope < b.tree.size
  /-- The use sites are listed in program order. -/
  pairwise_sites : b.tree.sites.Pairwise fun u v => u.order < v.order
  /-- No use site is numbered ahead of the events. -/
  order_le : ∀ site ∈ b.tree.sites, site.order ≤ b.clock
  /-- No binding is numbered ahead of the events. -/
  boundOrder_le : ∀ s ∈ b.tree.scopes, ∀ c ∈ s.bindings, ∀ k ∈ c.boundOrder, k ≤ b.clock

/-- The builder after some batches of events, whatever was wrong with each of them.  Since a batch
may be cut short anywhere, these are all the builders between two events. -/
def feedAll (b : TreeBuilder) (batches : List (List Event)) : TreeBuilder :=
  batches.foldl (fun b events => (b.feed events).1) b

/-! ## Batches -/

variable {b b' : TreeBuilder} {e : Event} {h : History}

/-- The builder is sound and follows some history. -/
def Consistent (b : TreeBuilder) : Prop :=
  b.Sound ∧ ∃ h, b.Follows h

namespace Consistent

lemma start (unitName filename : Option String) : (start unitName filename).Consistent :=
  ⟨sound_start unitName filename, [], follows_start unitName filename⟩

/-- A refused event is only counted. -/
lemma tick (hb : b.Consistent) : b.tick.Consistent := by
  obtain ⟨hs, h, hf⟩ := hb
  refine ⟨hs.tick, h, hf.binding?_eq, hf.sites_eq, hf.path_eq, ?_, hf.ordered⟩
  intro o ho
  have := hf.order_le o ho
  show o.order ≤ b.clock + 1
  omega

/-- An accepted event. -/
lemma act (hb : b.Consistent) (he : b.tick.act e = .ok b') : b'.Consistent := by
  obtain ⟨hs, h, hf⟩ := hb
  obtain ⟨hs', -, hf'⟩ := follows_act hf hs he
  exact ⟨hs', _, hf'⟩

/-- A batch of events, up to the first that is refused. -/
lemma feed (hb : b.Consistent) (events : List Event) : (b.feed events).1.Consistent := by
  induction events generalizing b with
  | nil => exact hb
  | cons e rest ih =>
    rw [TreeBuilder.feed_cons]
    cases hact : b.tick.act e with
    | ok b₁ => exact ih (hb.act hact)
    | error fault => exact hb.tick

/-- Any number of batches. -/
lemma feedAll (hb : b.Consistent) (batches : List (List Event)) :
    (b.feedAll batches).Consistent := by
  induction batches generalizing b with
  | nil => exact hb
  | cons events rest ih => exact ih (hb.feed events)

end Consistent

/-! ## From soundness to order -/

lemma Sound.tree_inOrder (hb : b.Sound) : b.tree.InOrder := by
  obtain ⟨stop, hn, -, hroot⟩ := hb.nested
  constructor
  · intro i s hs
    exact hb.arena.index_eq hs
  · intro s hs
    exact hb.rooted.kind_root hs
  · intro i s hs hi
    obtain ⟨p, hp⟩ := Option.isSome_iff_exists.1 (hb.rooted.parent_isSome hs hi)
    exact ⟨p, hp, hb.arena.parent_lt hs hp⟩
  · intro i s hs
    exact (hn.tiles hs).pairwise_lt
  · intro i s hs c
    exact hn.mem_children_iff hs c
  · exact hn.preorder_eq_range hroot

/-- The stretches of all open scopes reach the end of the tree, so each ends with the next. -/
lemma Sound.isChain_open (hb : b.Sound) :
    b.openScopes.IsChain fun c p =>
      ∃ sc sp, b.tree.scope? c = some sc ∧ b.tree.scope? p = some sp ∧ sc.parent = some p ∧
        sp.children.getLast? = some c := by
  obtain ⟨stop, hn, hopen, -⟩ := hb.nested
  have hchain := hb.arena.isChain_places b.openScopes.head?
  rw [← hb.open_eq] at hchain
  refine hchain.imp_of_mem_imp ?_
  intro c p hc hp hcp
  obtain ⟨sc, hsc, hparent⟩ := hcp
  rw [hb.open_eq] at hp
  obtain ⟨sp, hsp⟩ := ScopeTree.exists_scope?_of_lt (hb.arena.lt_size_of_mem_places hp)
  rw [← hb.open_eq] at hp
  have htiles := hn.tiles hsp
  rw [hopen p hp] at htiles
  have hmem : c ∈ sp.children := (hn.mem_children_iff hsp c).2 ⟨sc, hsc, hparent⟩
  exact ⟨sc, sp, hsc, hsp, hparent, htiles.getLast?_eq hmem (hopen c hc)⟩

lemma Sound.outermost (hb : b.Sound) (i : Nat) (hi : b.openScopes.getLast? = some i) :
    i = ScopeTree.rootIndex ∧ ∃ s, b.tree.scope? i = some s := by
  cases ho : b.openScopes with
  | nil => simp [ho] at hi
  | cons c outer =>
    obtain ⟨s, hs, -, -⟩ := hb.exists_current ho
    have hc : c < b.tree.size := ScopeTree.lt_size_of_scope? hs
    rw [hb.open_eq, ho, List.head?_cons, hb.rooted.getLast?_places hb.arena hc] at hi
    obtain rfl := Option.some.inj hi
    have hroot : ScopeTree.rootIndex < b.tree.size := by
      show 0 < b.tree.size
      omega
    exact ⟨rfl, ScopeTree.exists_scope?_of_lt hroot⟩

/-! ## From the history to numbers -/

namespace Follows

/-- A use site comes from a mention, and stands where that stands in the list of targets. -/
lemma exists_target_of_getElem? (hf : b.Follows h) {k : Nat} {site : UseSite}
    (hk : b.tree.sites[k]? = some site) :
    ∃ x, h.targets[k]? = some x ∧ site = x.1.site x.2 k := by
  rw [hf.sites_eq, History.sites, List.getElem?_mapIdx] at hk
  obtain ⟨x, hx, rfl⟩ := Option.map_eq_some_iff.1 hk
  exact ⟨x, hx, rfl⟩

lemma exists_mention_of_mem_sites (hf : b.Follows h) {site : UseSite}
    (hs : site ∈ b.tree.sites) :
    ∃ o ∈ h, site.scope = o.scope.index ∧ site.order = o.order := by
  obtain ⟨k, hk⟩ := List.mem_iff_getElem?.1 hs
  obtain ⟨x, hx, rfl⟩ := hf.exists_target_of_getElem? hk
  obtain ⟨o, ho, hox⟩ := List.mem_filterMap.1 (List.mem_of_getElem? hx)
  obtain ⟨_, -, rfl⟩ := Option.map_eq_some_iff.1 hox
  exact ⟨o, ho, rfl, rfl⟩

/-- A binding has the number of the mention that decides it. -/
lemma boundOrder_le (hf : b.Follows h) (hb : b.Sound) {s : Scope} (hs : s ∈ b.tree.scopes)
    {c : Binding} (hc : c ∈ s.bindings) {k : Int} (hk : k ∈ c.boundOrder) : k ≤ b.clock := by
  obtain ⟨i, hi⟩ := ScopeTree.mem_scopes_iff.1 hs
  have hfind : s.binding? c.name = some c := Binding.find?_of_mem (hb.names i s hi) hc
  rw [← ScopeTree.binding?_of_scope? hi, hf.binding?_eq, History.binding?] at hfind
  obtain ⟨o, ho, rfl⟩ := Option.map_eq_some_iff.1 hfind
  have hle := hf.order_le o (History.of_decisive? ho).1
  rw [Occurrence.binding, Option.mem_def] at hk
  simp only at hk
  split at hk
  · simp at hk
  · obtain rfl := Option.some.inj hk
    exact hle

end Follows

lemma Consistent.inOrder (hb : b.Consistent) : b.InOrder := by
  obtain ⟨hs, h, hf⟩ := hb
  refine ⟨hs.tree_inOrder, hs.isChain_open, hs.outermost, ?_, ?_, ?_, ?_, ?_⟩
  · intro k site hk
    obtain ⟨x, -, rfl⟩ := hf.exists_target_of_getElem? hk
    rfl
  · intro site hsite
    obtain ⟨o, ho, hscope, -⟩ := hf.exists_mention_of_mem_sites hsite
    have := hf.index_lt ho
    rw [hscope]
    constructor
    · exact Int.natCast_nonneg _
    · exact Int.ofNat_lt.2 this
  · rw [hf.sites_eq]
    exact History.pairwise_sites hf.ordered
  · intro site hsite
    obtain ⟨o, ho, -, horder⟩ := hf.exists_mention_of_mem_sites hsite
    rw [horder]
    exact hf.order_le o ho
  · intro s hscope c hc k hk
    exact hf.boundOrder_le hs hscope hc hk

/-- Whatever events a builder is given, in whatever batches, and whichever of them it refuses, it is
in order afterwards. -/
theorem inOrder_feedAll (unitName filename : Option String) (batches : List (List Event)) :
    ((start unitName filename).feedAll batches).InOrder :=
  ((Consistent.start unitName filename).feedAll batches).inOrder

end TreeBuilder

end TargetScope
