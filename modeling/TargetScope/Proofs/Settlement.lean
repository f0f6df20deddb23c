import TargetScope.Proofs.Ownership

/-!
# The pass over the outer declarations

The pass visits the scopes of an unsettled tree in the order of their places, and the bindings of
each in their order.  Its state in the middle of a scope (`ScopeTree.settlingAt`) is known from
what has been visited: the bindings there are as `ScopeTree.settledBinding` says, all others as
they were, and the settlements are those of `ScopeTree.settlementOf`.

The functions around a scope come before it, so they are prepared when its declarations are
settled (`ScopeTree.prepared_functionsAround`).  One step visits one more binding
(`ScopeTree.settleName_settlingAt`), one round one more scope
(`ScopeTree.settleScope_settledUpTo`), and the whole pass all of them
(`ScopeTree.Unsettled.settleOuterDeclarations_eq`).
-/

namespace TargetScope

/-! ## The bindings of an unsettled tree -/

/-- Where names are distinct, a binding is the one that its name leads to. -/
lemma Binding.find?_of_mem {b : Binding} {bs : List Binding} (hnd : (bs.map Binding.name).Nodup)
    (hb : b ∈ bs) : bs.find? (fun c => c.name = b.name) = some b := by
  induction bs with
  | nil => exact absurd hb List.not_mem_nil
  | cons c rest ih =>
    rw [List.map_cons, List.nodup_cons] at hnd
    rcases List.mem_cons.1 hb with rfl | hb
    · simp
    · have hne : c.name ≠ b.name := fun heq => hnd.1 (heq ▸ List.mem_map_of_mem hb)
      rw [List.find?_cons_of_neg (by simpa using hne)]
      exact ih hnd.2 hb

/-- What is put in takes the place of the binding of its name. -/
lemma Binding.putIn_append_cons {b c : Binding} {pre post : List Binding}
    (hpre : ∀ d ∈ pre, d.name ≠ b.name) (hc : c.name = b.name) :
    b.putIn (pre ++ c :: post) = pre ++ b :: post := by
  induction pre with
  | nil => simp [putIn, hc]
  | cons d pre ih =>
    rw [List.cons_append, putIn, if_neg (hpre d List.mem_cons_self),
      ih fun e he => hpre e (List.mem_cons_of_mem _ he), List.cons_append]

namespace ScopeTree

variable {t : ScopeTree} {h : History} {i : Nat} {s home : Scope} {b : Binding} {name : String}

lemma DistinctNames.binding?_of_mem (ht : t.DistinctNames) (hs : t.scope? i = some s)
    (hb : b ∈ s.bindings) : s.binding? b.name = some b :=
  Binding.find?_of_mem (ht i s hs) hb

/-- What the pass asks of a tree: it has a root, its places are in pre-order, its names are
distinct, and no outer declaration has been settled. -/
structure Unsettled (t : ScopeTree) : Prop where
  arena : t.Arena
  names : t.DistinctNames
  preorder_eq : t.preorder = List.range t.size
  size_pos : 0 < t.size
  declared : ∀ {i : Nat} {s : Scope} {b : Binding}, t.scope? i = some s → b ∈ s.bindings →
    b.isOuter = true → b.owner = none ∧ b.promotedFrom = none

lemma Classified.unsettled (hc : t.Classified h) : t.Unsettled where
  arena := hc.arena
  names := hc.names
  preorder_eq := hc.preorder_eq
  size_pos := hc.size_pos
  declared := by
    intro i s b hs hb _
    have hbind := hc.binding?_eq i b.name
    rw [binding?_of_scope? hs, hc.names.binding?_of_mem hs hb] at hbind
    obtain ⟨o, -, rfl⟩ := Option.map_eq_some_iff.1 hbind.symm
    exact ⟨rfl, rfl⟩

/-- The functions around a scope are its parent, if that is a function, and the functions around
that. -/
lemma Arena.functionsAround_eq (ht : t.Arena) (hs : t.scope? i = some s) (name : String) :
    t.functionsAround s name =
      match t.parentOf s with
      | none => []
      | some p =>
        if p.kind = .functionBody then
          (p.index, (p.binding? name).map Binding.role) :: t.functionsAround p name
        else t.functionsAround p name := by
  rw [functionsAround, enclosingFunctions, ancestors, ht.chain_eq_cons hs, List.tail_cons]
  cases hp : t.parentOf s with
  | none => rfl
  | some p =>
    simp only [functionsAround, enclosingFunctions, t.chain_eq_cons p, List.filter_cons]
    split <;> simp_all

/-! ## The pass in the middle -/

/-- The pass when it has settled the scopes `before` and the bindings `pre` of the scope `home`; the
bindings `post` of that scope and the scopes `after` are still to be visited. -/
def settlingAt (t : ScopeTree) (before : List Scope) (home : Scope) (after : List Scope)
    (pre post : List Binding) : Settling where
  tree :=
    { t with
      scopes := before.map t.settledScope ++
        { home with bindings := pre.map (t.settledBinding home) ++ post } :: after }
  settlements :=
    before.flatMap t.settlementsIn ++ (pre.filter Binding.isOuter).map (t.settlementOf home)

section Step

variable {before after : List Scope} {pre post : List Binding}

lemma bare_settlingAt (pre post : List Binding) (ht : t.scopes = before ++ home :: after) :
    (t.settlingAt before home after pre post).tree.bare = t.bare := by
  have hb : (before.map t.settledScope).map Scope.bare = before.map Scope.bare := by
    rw [List.map_map]
    rfl
  simp only [bare, settlingAt, ht, List.map_append, List.map_cons, hb]
  rfl

lemma scope?_settlingAt_home :
    (t.settlingAt before home after pre post).tree.scope? before.length =
      some { home with bindings := pre.map (t.settledBinding home) ++ post } := by
  simp [scope?, settlingAt]

/-- Behind the pass, the bindings are settled. -/
lemma binding?_settlingAt_of_lt (pre post : List Binding)
    (ht : t.scopes = before ++ home :: after) (hi : i < before.length)
    (hs : t.scope? i = some s) (name : String) :
    (t.settlingAt before home after pre post).tree.binding? i name =
      (s.binding? name).map (t.settledBinding s) := by
  have hs' : before[i]? = some s := by
    rw [scope?, ht, List.getElem?_append_left hi] at hs
    exact hs
  have hsc : (t.settlingAt before home after pre post).tree.scope? i = some (t.settledScope s) := by
    rw [scope?, settlingAt, List.getElem?_append_left (by simpa using hi), List.getElem?_map, hs',
      Option.map_some]
  rw [binding?_of_scope? hsc, binding?_settledScope]

/-- Behind the pass, the look-ups are known that were deferred. -/
lemma isDeferred_settlingAt_of_lt (hu : t.Unsettled) (ht : t.scopes = before ++ home :: after)
    (hi : i < before.length) (hs : t.scope? i = some s) (hb : b ∈ s.bindings)
    (ho : b.isOuter = true) :
    (t.settlingAt before home after pre post).isDeferred i b.name = (t.ownership s b).deferred := by
  have hmem : s ∈ before := by
    rw [scope?, ht, List.getElem?_append_left hi] at hs
    exact List.mem_of_getElem? hs
  have hhome : t.scope? before.length = some home := by simp [scope?, ht]
  have hindex : home.index = before.length := hu.arena.index_eq hhome
  rw [Bool.eq_iff_iff, Settling.isDeferred, List.any_eq_true]
  constructor
  · rintro ⟨p, hp, hpd⟩
    simp only [Bool.and_eq_true, decide_eq_true_eq] at hpd
    obtain ⟨⟨hpi, hpn⟩, hpd⟩ := hpd
    rcases List.mem_append.1 hp with hp | hp
    · obtain ⟨s', hs', hp⟩ := List.mem_flatMap.1 hp
      obtain ⟨b', hb', rfl⟩ := List.mem_map.1 hp
      obtain ⟨j, hj⟩ : ∃ j, t.scope? j = some s' :=
        mem_scopes_iff.1 (ht ▸ List.mem_append_left _ hs')
      -- one place holds one scope, and one name in it is one binding
      obtain rfl : j = i := (hu.arena.index_eq hj).symm.trans hpi
      obtain rfl : s' = s := Option.some.inj (hj.symm.trans hs)
      have hb'' := hu.names.binding?_of_mem hs (List.mem_of_mem_filter hb')
      rw [show b'.name = b.name from hpn, hu.names.binding?_of_mem hs hb] at hb''
      obtain rfl := Option.some.inj hb''
      exact hpd
    · obtain ⟨b', -, rfl⟩ := List.mem_map.1 hp
      have : home.index = i := hpi
      omega
  · intro hd
    refine ⟨t.settlementOf s b, List.mem_append_left _ (List.mem_flatMap.2 ⟨s, hmem, ?_⟩), ?_⟩
    · exact List.mem_map_of_mem (List.mem_filter.2 ⟨hb, ho⟩)
    · simp [settlementOf, hd, hu.arena.index_eq hs]

/-- When the pass arrives at a scope, the functions around it are prepared. -/
lemma prepared_functionsAround (pre post : List Binding) (hu : t.Unsettled)
    (ht : t.scopes = before ++ home :: after)
    (hi : i ≤ before.length) (hs : t.scope? i = some s) (name : String) :
    (t.settlingAt before home after pre post).Prepared name (t.functionsAround s name) := by
  -- the induction goes outward, from a scope to its parent at an earlier place
  induction i using Nat.strongRecOn generalizing s with
  | ind i ih =>
    rw [hu.arena.functionsAround_eq hs]
    cases hp : t.parentOf s with
    | none => trivial
    | some p =>
      obtain ⟨q, hsq, hq⟩ := Option.bind_eq_some_iff.1 hp
      have hqi : q < i := hu.arena.parent_lt hs hsq
      have hrest := ih q hqi (by omega) hq
      have hpi : p.index = q := hu.arena.index_eq hq
      have hbind := binding?_settlingAt_of_lt pre post ht
        (by omega : q < before.length) hq name
      simp only
      split
      · cases hb : p.binding? name with
        | none =>
          rw [hb] at hbind
          exact ⟨hpi ▸ hbind, hrest⟩
        | some b =>
          have hmem : b ∈ p.bindings := List.mem_of_find?_eq_some hb
          obtain rfl : b.name = name := by simpa using List.find?_some hb
          rw [hb] at hbind
          refine ⟨⟨t.settledBinding p b, hpi ▸ hbind, ?_⟩, hrest⟩
          split
          · next ho =>
            have ho : b.isOuter = true := ho
            refine ⟨?_, ?_, ?_⟩
            · rw [settledBinding, if_pos ho]
              rfl
            · rw [settledBinding, if_pos ho]
              rfl
            · rw [hpi]
              exact isDeferred_settlingAt_of_lt hu ht (by omega) hq hmem ho
          · next ho =>
            have ho : ¬b.isOuter = true := ho
            rw [settledBinding, if_neg ho]
      · exact hrest

/-! ## One step -/

/-- A declaration is settled with its ownership. -/
lemma settleDeclaration_settlingAt (hu : t.Unsettled) (ht : t.scopes = before ++ home :: after)
    (hb : b ∈ home.bindings) (ho : b.isOuter = true) (home' : Scope)
    (hbare : home'.bare = home.bare) :
    (t.settlingAt before home after pre post).settleDeclaration home' b =
      (t.settlingAt before home after pre post).settleAs home.index b (t.ownership home b) := by
  have hhome : t.scope? before.length = some home := by simp [scope?, ht]
  have hp : b.promotedFrom = none := (hu.declared hhome hb ho).2
  rw [Settling.settleDeclaration, Scope.index_eq_of_bare_eq hbare]
  split
  · next hr =>
    have hsame : { b with role := .outerModule, promotedFrom := none } = b := by rw [← hr, ← hp]
    have hown : t.ownership home b = Ownership.ofModule := by
      rw [ownership, Ownership.ofRole, if_pos hr]
    rw [Settling.settleAs, hown]
    exact congrArg (fun c => Settling.settle _ home.index c ScopeTree.rootIndex false) hsame.symm
  · next hr =>
    have hr' : b.role = .outerFunction := by
      simpa [Binding.isOuter, BindingRole.isOuter, hr] using ho
    have hown : t.ownership home b = Ownership.lexical (t.functionsAround home b.name) := by
      rw [ownership, Ownership.ofRole, if_neg hr]
    have hplaces : (t.functionsAround home b.name).map Prod.fst =
        ((t.settlingAt before home after pre post).tree.enclosingFunctions home').map
          Scope.index := by
      rw [map_index_enclosingFunctions_eq (bare_settlingAt pre post ht) hbare, functionsAround,
        List.map_map]
      rfl
    have hfall : Settling.fallbackOwner
        ((t.settlingAt before home after pre post).tree.enclosingFunctions home') =
          (Ownership.deferredTo (t.functionsAround home b.name)).owner := by
      rw [Ownership.deferredTo, ← List.head?_map, hplaces]
      cases (t.settlingAt before home after pre post).tree.enclosingFunctions home' <;> rfl
    have hprep := prepared_functionsAround pre post hu ht (Nat.le_refl _) hhome b.name
    simp only
    rw [Settling.settleOuter_eq hr' hp hplaces hprep, hown, hfall]
    split
    · next hall =>
      rw [Ownership.lexical_of_isNone (by simpa using hall)]
      rfl
    · rfl

lemma modify_append_cons {α : Type} (l r : List α) (x : α) (f : α → α) :
    (l ++ x :: r).modify l.length f = l ++ f x :: r := by
  induction l with
  | nil => rfl
  | cons y l ih => simpa using ih

/-- The settled binding takes the place of the binding that is next. -/
lemma put_settlingAt (hpre : ∀ d ∈ pre, d.name ≠ b.name) :
    (t.settlingAt before home after pre (b :: post)).tree.put before.length
        (t.settledBinding home b) =
      (t.settlingAt before home after (pre ++ [b]) post).tree := by
  have hput : (t.settledBinding home b).putIn (pre.map (t.settledBinding home) ++ b :: post) =
      pre.map (t.settledBinding home) ++ t.settledBinding home b :: post := by
    refine Binding.putIn_append_cons ?_ (by simp)
    intro d hd
    obtain ⟨c, hc, rfl⟩ := List.mem_map.1 hd
    simpa using hpre c hc
  have hlen : before.length = (before.map t.settledScope).length := by simp
  simp only [settlingAt, put]
  rw [hlen, modify_append_cons, Scope.put]
  simp only
  rw [hput]
  simp

/-- The step from one binding to the next. -/
lemma settleName_settlingAt (hu : t.Unsettled) (ht : t.scopes = before ++ home :: after)
    (hb : home.bindings = pre ++ b :: post) :
    (t.settlingAt before home after pre (b :: post)).settleName before.length b.name =
      t.settlingAt before home after (pre ++ [b]) post := by
  have hhome : t.scope? before.length = some home := by simp [scope?, ht]
  have hindex : home.index = before.length := hu.arena.index_eq hhome
  have hmem : b ∈ home.bindings := by simp [hb]
  have hpre : ∀ d ∈ pre, d.name ≠ b.name := by
    have hnd := hu.names _ _ hhome
    rw [hb, List.map_append, List.map_cons, List.nodup_append] at hnd
    intro d hd
    exact hnd.2.2 d.name (List.mem_map_of_mem hd) b.name (by simp)
  -- the scope as it stands in the tree when its bindings `pre` have been visited
  let home' := { home with bindings := pre.map (t.settledBinding home) ++ b :: post }
  have hfind : home'.binding? b.name = some b := by
    rw [Scope.binding?, List.find?_append, List.find?_eq_none.2 (by simpa using hpre),
      Option.none_or, List.find?_cons_of_pos (by simp)]
  rw [Settling.settleName, scope?_settlingAt_home]
  simp only
  rw [hfind]
  simp only
  by_cases ho : b.isOuter = true
  · have hopen : (b.isOuter && b.owner.isNone) = true := by
      rw [ho, (hu.declared hhome hmem ho).1]
      rfl
    rw [if_pos hopen]
    have hset : { b with
        role := (t.ownership home b).role
        owner := some (t.ownership home b).owner
        promotedFrom := (t.ownership home b).promotedFrom } = t.settledBinding home b := by
      rw [settledBinding, if_pos ho]
    rw [settleDeclaration_settlingAt hu ht hmem ho home' rfl, Settling.settleAs, Settling.settle,
      hset, hindex, put_settlingAt hpre]
    simp [settlingAt, ho, settlementOf, hindex]
  · simp [settlingAt, ho, settledBinding]

/-! ## Whole scopes -/

/-- The pass between two scopes: it has settled the scopes `before`, and the scopes `after` are
still to be visited. -/
def settledUpTo (t : ScopeTree) (before after : List Scope) : Settling where
  tree := { t with scopes := before.map t.settledScope ++ after }
  settlements := before.flatMap t.settlementsIn

/-- The rest of a scope. -/
lemma foldl_settleName_settlingAt (hu : t.Unsettled) (ht : t.scopes = before ++ home :: after)
    (hb : home.bindings = pre ++ post) :
    (post.map Binding.name).foldl (fun s name => s.settleName before.length name)
        (t.settlingAt before home after pre post) =
      t.settlingAt before home after home.bindings [] := by
  induction post generalizing pre with
  | nil => rw [hb, List.append_nil, List.map_nil, List.foldl_nil]
  | cons b post ih =>
    rw [List.map_cons, List.foldl_cons, settleName_settlingAt hu ht hb]
    exact ih (by rw [hb, List.append_assoc, List.singleton_append])

/-- The step from one scope to the next. -/
lemma settleScope_settledUpTo (hu : t.Unsettled) (ht : t.scopes = before ++ home :: after) :
    (t.settledUpTo before (home :: after)).settleScope before.length =
      t.settledUpTo (before ++ [home]) after := by
  have hstart : t.settledUpTo before (home :: after) =
      t.settlingAt before home after [] home.bindings := by
    simp [settledUpTo, settlingAt]
  have hend : t.settlingAt before home after home.bindings [] =
      t.settledUpTo (before ++ [home]) after := by
    simp [settledUpTo, settlingAt, settledScope, settlementsIn]
  rw [hstart, Settling.settleScope, scope?_settlingAt_home]
  simp only [List.map_nil, List.nil_append]
  rw [foldl_settleName_settlingAt hu ht rfl, hend]

/-- The rest of the tree. -/
lemma foldl_settleScope_settledUpTo (hu : t.Unsettled) (ht : t.scopes = before ++ after) :
    (List.range' before.length after.length).foldl Settling.settleScope
        (t.settledUpTo before after) = t.settledUpTo t.scopes [] := by
  induction after generalizing before with
  | nil => rw [ht, List.append_nil, List.length_nil, List.range'_zero, List.foldl_nil]
  | cons home after ih =>
    rw [List.length_cons, List.range'_succ, List.foldl_cons, settleScope_settledUpTo hu ht]
    have hrest := @ih (before ++ [home]) (by simp [ht])
    rwa [List.length_append, List.length_singleton] at hrest

end Step

/-- The pass settles every declaration with its ownership, and changes nothing else. -/
lemma Unsettled.settleOuterDeclarations_eq (hu : t.Unsettled) :
    t.settleOuterDeclarations =
      { tree := t.settledTree, settlements := t.scopes.flatMap t.settlementsIn } := by
  have hrun := foldl_settleScope_settledUpTo hu (List.nil_append t.scopes).symm
  rw [List.length_nil, ← List.range_eq_range', ← size_eq_length, ← hu.preorder_eq] at hrun
  have hstart : t.settledUpTo [] t.scopes = { tree := t } := rfl
  rw [hstart] at hrun
  rw [settleOuterDeclarations, hrun, settledUpTo, List.append_nil, settledTree]

lemma Classified.settleOuterDeclarations_eq (hc : t.Classified h) :
    t.settleOuterDeclarations =
      { tree := t.settledTree, settlements := t.scopes.flatMap t.settlementsIn } :=
  hc.unsettled.settleOuterDeclarations_eq

/-- The owner of a declaration is in the tree. -/
lemma Unsettled.owner_ownership_lt (hu : t.Unsettled) (hs : t.scope? i = some s) (b : Binding) :
    (t.ownership s b).owner < t.size := by
  rcases Ownership.owner_ofRole_cases b.role (t.functionsAround s b.name) with hroot | ⟨f, hf, hown⟩
  · rw [ownership, hroot]
    exact hu.size_pos
  · obtain ⟨c, hcm, rfl⟩ := List.mem_map.1 hf
    have hmem : c ∈ t.chain s := by
      rw [t.chain_eq_cons s]
      exact List.mem_cons_of_mem _ (List.mem_of_mem_filter hcm)
    rw [ownership, hown]
    exact lt_size_of_scope? (hu.arena.scope?_of_mem_chain hs hmem).1

/-- The settlements are about scopes of the tree. -/
lemma Unsettled.lt_size_of_mem_settlements (hu : t.Unsettled) {p : Settlement}
    (hp : p ∈ t.scopes.flatMap t.settlementsIn) : p.scope < t.size ∧ p.owner < t.size := by
  obtain ⟨s, hs, hp⟩ := List.mem_flatMap.1 hp
  obtain ⟨b, -, rfl⟩ := List.mem_map.1 hp
  obtain ⟨i, hi⟩ := mem_scopes_iff.1 hs
  refine ⟨?_, hu.owner_ownership_lt hi b⟩
  show s.index < t.size
  rw [hu.arena.index_eq hi]
  exact lt_size_of_scope? hi

/-- A settlement says what the binding has become. -/
lemma Classified.binding?_of_mem_settlements (hc : t.Classified h) {p : Settlement}
    (hp : p ∈ t.scopes.flatMap t.settlementsIn) :
    ∃ b, t.settledTree.binding? p.scope p.name = some b ∧
      b.role = p.role ∧ b.owner = some p.owner ∧ b.promotedFrom = p.promotedFrom := by
  obtain ⟨s, hs, hp⟩ := List.mem_flatMap.1 hp
  obtain ⟨b, hb, rfl⟩ := List.mem_map.1 hp
  obtain ⟨hb, ho⟩ := List.mem_filter.1 hb
  obtain ⟨i, hi⟩ := mem_scopes_iff.1 hs
  refine ⟨t.settledBinding s b, ?_, ?_⟩
  · show t.settledTree.binding? s.index b.name = some (t.settledBinding s b)
    rw [hc.arena.index_eq hi, binding?_settledTree hi, hc.names.binding?_of_mem hi hb,
      Option.map_some]
  · rw [settledBinding, if_pos ho]
    exact ⟨rfl, rfl, rfl⟩

/-- Settling the outer declarations of events gives to each its lexical owner.  There is one
settlement for each declaration, scope by scope in the order of the bindings; the bindings
afterwards are the ones that the settlements tell of, and everything else stays as it was. -/
theorem settleOuterDeclarations_ofEvents {unitName filename : Option String} {events : List Event}
    (he : ofEvents unitName filename events = .ok t) :
    t.settleOuterDeclarations.settlements = t.scopes.flatMap t.settlementsIn ∧
      t.settleOuterDeclarations.tree = t.settledTree ∧
      ∀ p ∈ t.settleOuterDeclarations.settlements,
        ∃ b, t.settleOuterDeclarations.tree.binding? p.scope p.name = some b ∧
          b.role = p.role ∧ b.owner = some p.owner ∧ b.promotedFrom = p.promotedFrom := by
  have hc := classified_ofEvents he
  rw [hc.settleOuterDeclarations_eq]
  exact ⟨rfl, rfl, fun p hp => hc.binding?_of_mem_settlements hp⟩

/-- A function `f` with `x` of the module, in it a function `g`, a class and in the class a function
`h`; both inner functions declare `x` and `y` to belong to a function around them. -/
def nestedDeclarations : List Event :=
  [.enter .moduleBody none none,
    .enter .functionBody (some "f") none, .mention "x" .outerModule none,
    .enter .functionBody (some "g") none, .mention "x" .outerFunction none,
    .mention "y" .outerFunction none,
    .enter .classBody none none, .mention "y" .assignment none,
    .enter .functionBody (some "h") none, .mention "y" .outerFunction none,
    .mention "x" .outerFunction none,
    .exit, .exit, .exit, .exit, .exit].map fun action => { action }

/-- Both links of `x` end at the module, and both of `y` behind the last one, at `f`. -/
theorem settlements_nestedDeclarations :
    ∃ t, ofEvents none none nestedDeclarations = .ok t ∧
      t.settleOuterDeclarations.settlements =
        [⟨1, "x", .outerModule, 0, none, false⟩,
          ⟨2, "x", .outerModule, 0, some .outerFunction, false⟩,
          ⟨2, "y", .outerFunction, 1, none, true⟩,
          ⟨4, "y", .outerFunction, 1, none, true⟩,
          ⟨4, "x", .outerModule, 0, some .outerFunction, false⟩] := by
  have he : ofEvents none none nestedDeclarations = .ok _ := rfl
  refine ⟨_, he, ?_⟩
  rw [(settleOuterDeclarations_ofEvents he).1]
  decide +kernel

end ScopeTree

end TargetScope
