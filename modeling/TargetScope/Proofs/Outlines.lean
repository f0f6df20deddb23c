import Mathlib.Data.List.Nodup
import TargetScope.Outline
import TargetScope.Proofs.Batches
import TargetScope.Proofs.Creation

/-!
# Outlines are complete

The outline of a tree consists of one block of lines for each scope, in the order of the places: a
header, and below it a line for each binding of the scope and for each use site that stands directly
in it (`Outline.Shows`, `Outline.Complete`).  What stands in a line is told by what the line is
about: the phrase for a scope, its number and its place (`Outline.IsHeader`), or the name, the role
and the owner of a binding (`Outline.IsRecord`), or the operator, the name and the owner of a target
(`Outline.IsUse`).

The lines are made by a recursion along the lists of children, which goes as deep as scopes stand
around a scope.  The recursion writes the blocks of the stretch of places that a scope covers, if
and only if there is room for the depth of each of them (`Outline.scopeLines_eq_some_iff`).  Neither
the order nor the depth depends on the bindings: the outline is complete after any operations on the
tree.  The main result is `Outline.complete_scopeLines`.
-/

namespace TargetScope

namespace Outline

/-! ## What stands in a line -/

/-- The text is the phrase for the scope: the word for its kind, with its label; without a label,
with its place in the source, and where this is not known either, with its number. -/
inductive IsPhrase (s : Scope) : String → Prop
  | labelled {label : String} (h : s.label = some label) (hne : label ≠ "") :
      IsPhrase s (s.kind.noun ++ " '" ++ label ++ "'")
  | placed {p : Position} (hlabel : s.label.getD "" = "") (h : s.position = some p) :
      IsPhrase s (s.kind.noun ++ " at " ++ p.text)
  | numbered (hlabel : s.label.getD "" = "") (h : s.position = none) :
      IsPhrase s (s.kind.noun ++ " #" ++ toString s.index)

/-- The text is the note about something, or empty where there is nothing to note. -/
inductive IsNote {α : Type} (spells : α → String → Prop) : Option α → String → Prop
  | nothing : IsNote spells none ""
  | noted {x : α} {text : String} (h : spells x text) : IsNote spells (some x) text

/-- The text notes a place in the source. -/
def NotesPlace : Option Position → String → Prop :=
  IsNote fun p text => text = " @" ++ p.text

/-- The text notes an owner: behind an arrow stands the phrase for it. -/
def NotesOwner (t : ScopeTree) : Option Nat → String → Prop :=
  IsNote fun i text => ∃ s phrase, t.scope? i = some s ∧ IsPhrase s phrase ∧
    text = " -> " ++ phrase

/-- The line of a scope: its phrase, its number and its place. -/
inductive IsHeader (s : Scope) : String → Prop
  | intro {phrase place : String} (hphrase : IsPhrase s phrase)
      (hplace : NotesPlace s.position place) :
      IsHeader s (phrase ++ " #" ++ toString s.index ++ place)

/-- The line of a binding: its name and its role, where the name was declared, the owner, the role
that the binding had before, and whether it stands for a declaration that is missing. -/
inductive IsRecord (t : ScopeTree) (b : Binding) : String → Prop
  | intro {place owner promotion : String} (hplace : NotesPlace b.declaredAt place)
      (howner : NotesOwner t b.owner owner)
      (hpromotion : IsNote (fun role text => text = " (promoted from " ++ role.text ++ ")")
        b.promotedFrom promotion) :
      IsRecord t b (b.name ++ ": " ++ b.role.text ++ place ++ owner ++ promotion ++
        if b.implicit then " (implicit)" else "")

/-- The sign is that of the operator. -/
inductive IsSign : Operator → String → Prop
  | augmented : IsSign .augmented "+="
  | inline : IsSign .inline ":="

/-- The line of a use site: its operator, its name and its place, the owner of the target, and the
severity and the code of its diagnostic. -/
inductive IsUse (t : ScopeTree) (notes : Annotations) (site : UseSite) : String → Prop
  | intro {sign place owner diagnostic : String} (hsign : IsSign site.operator sign)
      (hplace : NotesPlace site.position place)
      (howner : NotesOwner t (notes.owners.lookup site.index) owner)
      (hdiagnostic : IsNote
        (fun d text => text = " [" ++ d.severity.text ++ ": " ++ d.code.getD "None" ++ "]")
        (notes.diagnostics.lookup site.index) diagnostic) :
      IsUse t notes site (sign ++ " " ++ site.name ++ place ++ owner ++ diagnostic)

/-! ## What an outline shows -/

/-- The blanks before the lines of a scope: two for each scope around it. -/
def margin (t : ScopeTree) (s : Scope) : String :=
  String.ofList (List.replicate (2 * (t.ancestors s).length) ' ')

/-- A group of lines behind a margin: its title and its members, or nothing if it has no members. -/
def group (margin title : String) (members : List String) : List String :=
  if members = [] then []
  else (margin ++ "  " ++ title) :: members.map (margin ++ "    " ++ ·)

/-- The lines show the scope: the first one is its header; then there is one line for each of its
bindings, in the order of the names, and one for each use site that stands in the scope, in program
order. -/
def Shows (t : ScopeTree) (notes : Annotations) (s : Scope) (ls : List String) : Prop :=
  ∃ (header : String) (bindings : List Binding) (sites : List UseSite)
      (records uses : List String),
    IsHeader s header ∧
    bindings.Perm s.bindings ∧ bindings.Pairwise (fun b c => b.name < c.name) ∧
    List.Forall₂ (IsRecord t) bindings records ∧
    sites = t.sites.filter (fun site => site.scope = (s.index : Int)) ∧
    sites.Pairwise (fun u v => u.order < v.order) ∧
    List.Forall₂ (IsUse t notes) sites uses ∧
    ls = (margin t s ++ header) ::
      (group (margin t s) "bindings:" records ++ group (margin t s) "uses:" uses)

/-- The lines show the whole tree: each scope once, in the order of the places, and with the scopes
all bindings and all use sites. -/
structure Complete (t : ScopeTree) (notes : Annotations) (ls : List String) : Prop where
  /-- One block for each scope. -/
  blocks : ∃ block : Scope → List String, ls = t.scopes.flatMap block ∧
    ∀ s ∈ t.scopes, Shows t notes s (block s)
  /-- The scopes stand in the order of their places. -/
  index_eq : ∀ {i : Nat} {s : Scope}, t.scope? i = some s → s.index = i
  /-- Each use site stands in one of the scopes. -/
  exists_scope : ∀ site ∈ t.sites, ∃ s ∈ t.scopes, site.scope = s.index
  /-- The lines of the scopes, the bindings and the use sites, and those of the titles. -/
  length_eq : ls.length =
    t.scopes.length + (t.scopes.flatMap Scope.bindings).length + t.sites.length +
      t.scopes.countP (fun s => s.bindings ≠ []) +
      t.scopes.countP (fun s => t.sites.any fun site => site.scope = s.index)

/-! ## The lines of one scope -/

section Line

variable {t : ScopeTree} {notes : Annotations}

lemma isPhrase_describe (s : Scope) : IsPhrase s s.describe := by
  rw [Scope.describe, Scope.describeUnlabelled]
  cases hlabel : s.label with
  | none =>
    have hempty : s.label.getD "" = "" := by rw [hlabel, Option.getD_none]
    cases hposition : s.position with
    | none => exact .numbered hempty hposition
    | some p => exact .placed hempty hposition
  | some label =>
    by_cases hne : label = ""
    · have hempty : s.label.getD "" = "" := by rw [hlabel, Option.getD_some, hne]
      simp only [if_pos hne]
      cases hposition : s.position with
      | none => exact .numbered hempty hposition
      | some p => exact .placed hempty hposition
    · simp only [if_neg hne]
      exact .labelled hlabel hne

lemma notesPlace_placeNote (position : Option Position) :
    NotesPlace position (placeNote position) := by
  cases position with
  | none => exact .nothing
  | some p => exact .noted rfl

/-- The note about an owner that is a scope of the tree. -/
lemma notesOwner_ownerNote {owner : Option Nat} (h : ∀ w ∈ owner, w < t.size) :
    NotesOwner t owner (ownerNote t owner) := by
  cases owner with
  | none => exact .nothing
  | some w =>
    obtain ⟨s, hs⟩ := ScopeTree.exists_scope?_of_lt (h w rfl)
    have hdescribe : t.describe w = s.describe := by
      rw [ScopeTree.describe, hs]
    exact .noted ⟨s, s.describe, hs, isPhrase_describe s, congrArg (" -> " ++ ·) hdescribe⟩

lemma isHeader_scopeLine (s : Scope) : IsHeader s (scopeLine s) :=
  .intro (isPhrase_describe s) (notesPlace_placeNote s.position)

lemma isRecord_bindingLine {b : Binding} (h : ∀ w ∈ b.owner, w < t.size) :
    IsRecord t b (bindingLine t b) := by
  refine .intro (notesPlace_placeNote _) (notesOwner_ownerNote h) ?_
  cases b.promotedFrom with
  | none => exact .nothing
  | some role => exact .noted rfl

lemma isSign_operatorSign (operator : Operator) : IsSign operator (operatorSign operator) := by
  cases operator with
  | augmented => exact .augmented
  | inline => exact .inline

lemma isUse_siteLine {site : UseSite} (h : ∀ w ∈ notes.owners.lookup site.index, w < t.size) :
    IsUse t notes site (siteLine t notes site) := by
  refine .intro (isSign_operatorSign _) (notesPlace_placeNote _) (notesOwner_ownerNote h) ?_
  cases notes.diagnostics.lookup site.index with
  | none => exact .nothing
  | some d => exact .noted rfl

end Line

section Block

variable {t : ScopeTree} {notes : Annotations} {s : Scope}

/-- All owners that the outline of a tree with the given notes names are scopes of the tree. -/
structure OwnersWithin (t : ScopeTree) (notes : Annotations) : Prop where
  /-- The owners of the bindings. -/
  bindings : ∀ s ∈ t.scopes, ∀ b ∈ s.bindings, ∀ w ∈ b.owner, w < t.size
  /-- The owners of the targets. -/
  sites : ∀ site ∈ t.sites, ∀ w ∈ notes.owners.lookup site.index, w < t.size

lemma indentation_eq (depth : Nat) :
    indentation depth = String.ofList (List.replicate (2 * depth) ' ') := by
  rw [← String.toList_inj, indentation, String.toList_join, String.toList_ofList]
  induction depth with
  | zero => rfl
  | succ depth ih =>
    rw [List.replicate_succ, List.flatMap_cons, ih, Nat.mul_succ, Nat.add_comm,
      List.replicate_add]
    rfl

/-- The block of a scope, behind its margin. -/
def blockOf (t : ScopeTree) (notes : Annotations) (s : Scope) : List String :=
  (ownLines t notes s).map (indentation (t.ancestors s).length ++ ·)

lemma map_titled (margin title : String) (members : List String) :
    ((titled title members).map (step ++ ·)).map (margin ++ ·) = group margin title members := by
  have hstep (m : String) : margin ++ (step ++ (step ++ m)) = margin ++ "    " ++ m := by
    have htwo : step ++ step = "    " := by decide
    simp only [← htwo, String.append_assoc]
  cases members with
  | nil => rfl
  | cons m rest =>
    simp only [titled, group, List.map_cons, List.map_map, reduceCtorEq, if_false,
      Function.comp_def, hstep]
    simp only [step, String.append_assoc]

/-- The bindings in the order of their names. -/
lemma pairwise_sortedBindings (h : (s.bindings.map Binding.name).Nodup) :
    (sortedBindings s).Pairwise fun b c => b.name < c.name := by
  have hle : (sortedBindings s).Pairwise fun b c => b.name ≤ c.name := by
    refine (List.pairwise_mergeSort ?_ ?_ s.bindings).imp of_decide_eq_true
    · intro a b c hab hbc
      exact decide_eq_true (String.le_trans (of_decide_eq_true hab) (of_decide_eq_true hbc))
    · intro a b
      simpa using String.le_total a.name b.name
  have hne : (sortedBindings s).Pairwise fun b c => b.name ≠ c.name := by
    rw [← List.pairwise_map]
    exact ((List.mergeSort_perm s.bindings _).map Binding.name).nodup_iff.2 h
  refine (hle.and hne).imp fun hbc => ?_
  rw [← String.not_le]
  exact fun hcb => hbc.2 (String.le_antisymm hbc.1 hcb)

/-- Bindings that stand in the order of their names are shown as they stand. -/
lemma sortedBindings_eq_self (h : s.bindings.Pairwise fun b c => b.name ≤ c.name) :
    sortedBindings s = s.bindings :=
  List.mergeSort_of_pairwise (h.imp decide_eq_true)

/-- The block of a scope shows it. -/
lemma shows_blockOf (howners : OwnersWithin t notes) (hs : s ∈ t.scopes)
    (hnames : (s.bindings.map Binding.name).Nodup)
    (hordered : t.sites.Pairwise fun u v => u.order < v.order) :
    Shows t notes s (blockOf t notes s) := by
  have hperm : (sortedBindings s).Perm s.bindings := List.mergeSort_perm _ _
  have hrecords : List.Forall₂ (IsRecord t) (sortedBindings s)
      ((sortedBindings s).map (bindingLine t)) := by
    refine List.forall₂_map_right_iff.2 (List.forall₂_same.2 fun b hb => ?_)
    exact isRecord_bindingLine (howners.bindings s hs b (hperm.mem_iff.1 hb))
  have huses : List.Forall₂ (IsUse t notes) (t.sitesIn s)
      ((t.sitesIn s).map (siteLine t notes)) := by
    refine List.forall₂_map_right_iff.2 (List.forall₂_same.2 fun site hsite => ?_)
    exact isUse_siteLine (howners.sites site (List.mem_of_mem_filter hsite))
  refine ⟨_, _, _, _, _, isHeader_scopeLine s, hperm, pairwise_sortedBindings hnames, hrecords,
    rfl, hordered.filter _, huses, ?_⟩
  rw [blockOf, ownLines, List.map_cons, List.map_append, List.map_append, map_titled, map_titled,
    indentation_eq]
  rfl

end Block

/-! ## The lines of all scopes -/

/-- A choice that can be made for each member, under a condition and in one way, can be made for a
list if the condition holds of all members. -/
lemma mapM_eq_some_iff_of_forall {α β : Type} {cs : List α} {g : α → Option β} {P : α → Prop}
    {f : α → β} (h : ∀ c ∈ cs, ∀ l, g c = some l ↔ P c ∧ f c = l) {ls : List β} :
    cs.mapM g = some ls ↔ (∀ c ∈ cs, P c) ∧ cs.map f = ls := by
  induction cs generalizing ls with
  | nil => simp [eq_comm]
  | cons c cs ih =>
    have hc := h c List.mem_cons_self
    have hcs (ls : List β) : cs.mapM g = some ls ↔ (∀ c ∈ cs, P c) ∧ cs.map f = ls :=
      ih fun d hd => h d (List.mem_cons_of_mem _ hd)
    rw [List.mapM_cons]
    simp only [Option.bind_eq_bind, Option.bind_eq_some_iff, hc, hcs, Option.pure_def,
      Option.some.injEq, List.forall_mem_cons, List.map_cons]
    constructor
    · rintro ⟨_, ⟨hP, rfl⟩, _, ⟨hPs, rfl⟩, rfl⟩
      exact ⟨⟨hP, hPs⟩, rfl⟩
    · rintro ⟨⟨hP, hPs⟩, rfl⟩
      exact ⟨_, ⟨hP, rfl⟩, _, ⟨hPs, rfl⟩, rfl⟩

section Tree

variable {t : ScopeTree} {notes : Annotations} {s : Scope} {i room : Nat} {stop : Nat → Nat}

/-- Around a child there is one scope more than around its parent. -/
lemma length_ancestors_child (ht : t.Arena) {c : Nat} {child : Scope} (hs : t.scope? i = some s)
    (hc : t.scope? c = some child) (hp : child.parent = some i) :
    (t.ancestors child).length = (t.ancestors s).length + 1 := by
  have hparent : t.parentOf child = some s := by
    rw [ScopeTree.parentOf, hp, Option.bind_some, hs]
  have hchain := ht.chain_eq_cons hc
  rw [t.chain_eq_cons child, hparent] at hchain
  have htail : t.ancestors child = t.chain s := (List.cons.inj hchain).2
  rw [htail, t.chain_eq_cons s, List.length_cons]

/-- Fewer scopes stand around the one at the place `i` than given. -/
def Shallow (t : ScopeTree) (limit i : Nat) : Prop :=
  ∀ s, t.scope? i = some s → (t.ancestors s).length < limit

/-- The blocks of the scopes at some places. -/
def blocksAt (t : ScopeTree) (notes : Annotations) (places : List Nat) : List String :=
  places.flatMap fun i => (t.scope? i).elim [] (blockOf t notes)

/-- The lines from a scope on are the blocks of its stretch, and there are lines if and only if
there is room for each scope of the stretch. -/
lemma scopeLines_eq_some_iff (ht : t.Arena) (hn : t.Nested stop) (hs : t.scope? i = some s)
    {ls : List String} :
    scopeLines t notes room (t.ancestors s).length s = some ls ↔
      (∀ j ∈ stretch stop i, Shallow t ((t.ancestors s).length + room) j) ∧
      blocksAt t notes (stretch stop i) = ls := by
  induction room generalizing i s ls with
  | zero =>
    have hself : i ∈ stretch stop i := hn.stretch_eq_cons hs ▸ List.mem_cons_self
    exact iff_of_false (by simp [scopeLines]) fun h => absurd (h.1 i hself s hs) (Nat.lt_irrefl _)
  | succ room ih =>
    have hself : Shallow t ((t.ancestors s).length + (room + 1)) i := by
      intro s' hs'
      obtain rfl := Option.some.inj (hs.symm.trans hs')
      omega
    -- inside a child there is room for one scope less, and one scope more stands around it
    have hchildren (inner : List (List String)) :
        (s.children.mapM fun c => (t.scope? c).elim (some []) fun child =>
          scopeLines t notes room ((t.ancestors s).length + 1) child) = some inner ↔
        (∀ c ∈ s.children, ∀ j ∈ stretch stop c,
          Shallow t ((t.ancestors s).length + (room + 1)) j) ∧
        s.children.map (fun c => blocksAt t notes (stretch stop c)) = inner := by
      refine mapM_eq_some_iff_of_forall fun c hc l => ?_
      obtain ⟨child, hchild, hp⟩ := (hn.mem_children_iff hs c).1 hc
      have hdepth := length_ancestors_child ht hs hchild hp
      rw [hchild, Option.elim_some, ← hdepth, ih hchild, hdepth, Nat.add_assoc, Nat.add_comm 1 room]
    have hblocks : blocksAt t notes (stretch stop i) = blockOf t notes s ++
        (s.children.map fun c => blocksAt t notes (stretch stop c)).flatten := by
      rw [hn.stretch_eq_cons hs, blocksAt, List.flatMap_cons, hs, List.flatMap_assoc,
        List.flatMap_def]
      rfl
    rw [hblocks, hn.stretch_eq_cons hs, List.forall_mem_cons, List.forall_mem_flatMap]
    constructor
    · intro hlines
      obtain ⟨inner, hinner, hls⟩ := Option.bind_eq_some_iff.1 hlines
      obtain ⟨hroom, rfl⟩ := (hchildren inner).1 hinner
      exact ⟨⟨hself, hroom⟩, Option.some.inj hls⟩
    · rintro ⟨⟨-, hroom⟩, rfl⟩
      exact Option.bind_eq_some_iff.2 ⟨_, (hchildren _).2 ⟨hroom, rfl⟩, rfl⟩

/-- Going through the places of a list is going through the list. -/
lemma flatMap_range_length {α β : Type} (l : List α) (f : α → List β) :
    ((List.range l.length).flatMap fun j => (l[j]?).elim [] f) = l.flatMap f := by
  have hmap : (List.range l.length).map (fun j => l[j]?) = l.map some := by
    refine List.ext_getElem (by simp) fun j _ _ => ?_
    simp
  calc (List.range l.length).flatMap (fun j => (l[j]?).elim [] f)
      = ((List.range l.length).map fun j => l[j]?).flatMap (fun x => x.elim [] f) := by
        rw [List.flatMap_map]
    _ = l.flatMap f := by
        rw [hmap, List.flatMap_map]
        rfl

/-- The lines of the root are the blocks of all scopes, in the order of their places, if there is
room for each scope. -/
lemma scopeLines_root (notes : Annotations) (ht : t.Arena) (hn : t.Nested stop)
    (hstop : stop ScopeTree.rootIndex = t.size) (hroot : t.scope? ScopeTree.rootIndex = some s)
    (hparent : s.parent = none) (room : Nat) :
    scopeLines t notes room 0 s =
      if ∀ s' ∈ t.scopes, (t.ancestors s').length < room then
        some (t.scopes.flatMap (blockOf t notes))
      else none := by
  have hdepth : (t.ancestors s).length = 0 := by
    have hchain := ht.chain_eq_cons hroot
    rw [t.chain_eq_cons s, ScopeTree.parentOf, hparent] at hchain
    rw [(List.cons.inj hchain).2]
    rfl
  have hstretch : stretch stop ScopeTree.rootIndex = List.range t.scopes.length := by
    rw [stretch, hstop, List.range_eq_range']
    rfl
  have hroom : (∀ j ∈ List.range t.scopes.length, Shallow t room j) ↔
      ∀ s' ∈ t.scopes, (t.ancestors s').length < room := by
    constructor
    · intro h s' hs'
      obtain ⟨j, hj⟩ := ScopeTree.mem_scopes_iff.1 hs'
      exact h j (List.mem_range.2 (ScopeTree.lt_size_of_scope? hj)) s' hj
    · exact fun h j _ s' hj => h s' (ScopeTree.mem_scopes_iff.2 ⟨j, hj⟩)
  refine Option.ext fun ls => ?_
  have hlines : scopeLines t notes room (t.ancestors s).length s = some ls ↔ _ :=
    scopeLines_eq_some_iff ht hn hroot
  rw [hdepth, Nat.zero_add, hstretch, hroom] at hlines
  have hblocks : blocksAt t notes (List.range t.scopes.length) =
      t.scopes.flatMap (blockOf t notes) := flatMap_range_length t.scopes _
  rw [hlines, hblocks]
  simp only [Option.ite_none_right_eq_some, Option.some.injEq]

end Tree

/-! ## The number of lines -/

section Length

variable {t : ScopeTree} {notes : Annotations} {s : Scope} {ls : List String}
  {scopes : List Scope} {block : Scope → List String}

lemma length_group (margin title : String) (members : List String) :
    (group margin title members).length = members.length + if members ≠ [] then 1 else 0 := by
  cases members <;> simp [group]

/-- The lines of one scope. -/
lemma Shows.length_eq (h : Shows t notes s ls) :
    ls.length = 1 + s.bindings.length +
      (t.sites.filter fun site => site.scope = (s.index : Int)).length +
      (if s.bindings ≠ [] then 1 else 0) +
      if t.sites.any fun site => site.scope = s.index then 1 else 0 := by
  obtain ⟨header, bindings, sites, records, uses, -, hperm, -, hrecords, rfl, -, huses, rfl⟩ := h
  have hbindings : records.length = s.bindings.length :=
    hrecords.length_eq.symm.trans hperm.length_eq
  have hsites := huses.length_eq
  have hnil : records = [] ↔ s.bindings = [] := by
    rw [← List.length_eq_zero_iff, hbindings, List.length_eq_zero_iff]
  have hnone : uses = [] ↔ (t.sites.filter fun site => site.scope = (s.index : Int)) = [] := by
    rw [← List.length_eq_zero_iff, ← hsites, List.length_eq_zero_iff]
  simp only [List.length_cons, List.length_append, length_group, ne_eq, hnil, hnone, hbindings,
    ← hsites, List.filter_eq_nil_iff, List.any_eq_true, not_forall, not_not, exists_prop]
  omega

/-- The lines of some scopes. -/
lemma length_flatMap_of_shows (h : ∀ s ∈ scopes, Shows t notes s (block s)) :
    (scopes.flatMap block).length =
      scopes.length + (scopes.flatMap Scope.bindings).length +
        (scopes.flatMap fun s => t.sites.filter fun site => site.scope = (s.index : Int)).length +
        scopes.countP (fun s => s.bindings ≠ []) +
        scopes.countP (fun s => t.sites.any fun site => site.scope = s.index) := by
  induction scopes with
  | nil => rfl
  | cons s rest ih =>
    have hs := (h s List.mem_cons_self).length_eq
    have hrest := ih fun s hs => h s (List.mem_cons_of_mem _ hs)
    simp only [List.flatMap_cons, List.length_append, List.length_cons, List.countP_cons, hs, hrest,
      decide_eq_true_eq]
    omega

lemma length_flatMap_filter_cons (site : UseSite) (sites : List UseSite) :
    (scopes.flatMap fun s => (site :: sites).filter fun u => u.scope = (s.index : Int)).length =
      scopes.countP (fun s => site.scope = (s.index : Int)) +
        (scopes.flatMap fun s => sites.filter fun u => u.scope = (s.index : Int)).length := by
  induction scopes with
  | nil => rfl
  | cons s rest ih =>
    rw [List.flatMap_cons, List.length_append, ih, List.countP_cons, List.flatMap_cons,
      List.length_append, List.filter_cons]
    split
    · rw [List.length_cons]
      omega
    · omega

/-- Each use site is counted with one scope. -/
lemma length_flatMap_filter (hnodup : (scopes.map Scope.index).Nodup) {sites : List UseSite}
    (hmem : ∀ site ∈ sites, ∃ s ∈ scopes, site.scope = (s.index : Int)) :
    (scopes.flatMap fun s => sites.filter fun site => site.scope = (s.index : Int)).length =
      sites.length := by
  induction sites with
  | nil => simp
  | cons site rest ih =>
    obtain ⟨s, hs, hscope⟩ := hmem site List.mem_cons_self
    have hone : scopes.countP (fun s => site.scope = (s.index : Int)) = 1 := by
      have hcount := List.count_eq_one_of_mem hnodup (List.mem_map_of_mem hs)
      rw [List.count_eq_countP, List.countP_map] at hcount
      rw [← hcount, hscope]
      refine List.countP_congr fun s' _ => ?_
      rw [decide_eq_true_eq, Function.comp_apply, beq_iff_eq, Int.natCast_inj]
      exact eq_comm
    rw [length_flatMap_filter_cons, hone, ih fun u hu => hmem u (List.mem_cons_of_mem _ hu),
      List.length_cons, Nat.add_comm]

end Length

/-! ## The outline of a tree -/

section Whole

variable {t u : ScopeTree} {h : History} {root : Scope} {notes : Annotations}

/-- The blocks of all scopes show the whole tree. -/
lemma complete_flatMap_blockOf (hu : u.Arena) (hnames : u.DistinctNames)
    (howners : OwnersWithin u notes) (hordered : u.sites.Pairwise fun v w => v.order < w.order)
    (hscope : ∀ site ∈ u.sites, ∃ s ∈ u.scopes, site.scope = (s.index : Int)) :
    Complete u notes (u.scopes.flatMap (blockOf u notes)) := by
  have hshows : ∀ s ∈ u.scopes, Shows u notes s (blockOf u notes s) := by
    intro s hs
    obtain ⟨i, hi⟩ := ScopeTree.mem_scopes_iff.1 hs
    exact shows_blockOf howners hs (hnames i s hi) hordered
  have hnodup : (u.scopes.map Scope.index).Nodup := by
    have hindex : u.scopes.map Scope.index = List.range u.scopes.length := by
      refine List.ext_getElem (by simp) fun i hi _ => ?_
      rw [List.length_map] at hi
      rw [List.getElem_map, List.getElem_range, hu.index_eq (List.getElem?_eq_getElem hi)]
    rw [hindex]
    exact List.nodup_range
  refine ⟨⟨_, rfl, hshows⟩, hu.index_eq, hscope, ?_⟩
  rw [length_flatMap_of_shows hshows, length_flatMap_filter hnodup hscope]

/-- Each use site of a builder stands in one of its scopes. -/
lemma exists_scope_of_mem_sites {b : TreeBuilder} (hb : b.InOrder) (hbare : u.bare = b.tree.bare)
    (hu : u.Arena) {site : UseSite} (hsite : site ∈ b.tree.sites) :
    ∃ s ∈ u.scopes, site.scope = (s.index : Int) := by
  obtain ⟨hnonneg, hlt⟩ := hb.scope_site site hsite
  obtain ⟨s, hs⟩ := ScopeTree.exists_scope?_of_lt (t := u) (i := site.scope.toNat) (by
    rw [ScopeTree.size_eq_of_bare_eq hbare]
    omega)
  refine ⟨s, ScopeTree.mem_scopes_iff.2 ⟨_, hs⟩, ?_⟩
  rw [hu.index_eq hs, Int.toNat_of_nonneg hnonneg]

/-- The lines of the root are those of the whole tree, if there is room for each scope.  This holds
of the tree of a builder, whatever has been done with its bindings. -/
lemma exists_root {b : TreeBuilder} (hb : b.Sound) (hsize : 0 < b.tree.size)
    (hbare : u.bare = b.tree.bare) (notes : Annotations) :
    ∃ root, u.scope? ScopeTree.rootIndex = some root ∧ ∀ room,
      scopeLines u notes room 0 root =
          (if ∀ s ∈ u.scopes, (u.ancestors s).length < room then
            some (u.scopes.flatMap (blockOf u notes))
          else none) ∧
        text u notes room = (scopeLines u notes room 0 root).map "\n".intercalate := by
  obtain ⟨stop, hn, -, hstop⟩ := hb.nested
  have hsizes : u.size = b.tree.size := ScopeTree.size_eq_of_bare_eq hbare
  obtain ⟨root, hroot⟩ : ∃ root, u.scope? ScopeTree.rootIndex = some root :=
    ScopeTree.exists_scope?_of_lt (hsizes ▸ hsize)
  have hparent := ((hb.rooted.of_bare_eq hbare).kind_root hroot).2
  refine ⟨root, hroot, fun room => ⟨?_, by rw [text, treeLines, hroot]⟩⟩
  exact scopeLines_root notes (hb.arena.of_bare_eq hbare) (hn.of_bare_eq hbare)
    ((hstop hsize).trans hsizes.symm) hroot hparent room

/-- The lines of the root where there is room for each scope, if the bindings stand in the order of
their names in all scopes. -/
lemma eq_of_scopeLines_eq {b : TreeBuilder} (hb : b.Sound) (hbare : u.bare = b.tree.bare)
    {room : Nat} {ls : List String} (hroot : u.scope? ScopeTree.rootIndex = some root)
    (hlines : scopeLines u notes room 0 root =
      if ∀ s ∈ u.scopes, (u.ancestors s).length < room then some ls else none)
    (hroom : ∀ s ∈ u.scopes, (u.ancestors s).length < room)
    (hsorted : ∀ s ∈ u.scopes, s.bindings.Pairwise fun b c => b.name ≤ c.name) :
    ls = u.scopes.flatMap fun s =>
      (scopeLine s ::
        (titled "bindings:" (s.bindings.map (bindingLine u)) ++
          titled "uses:" ((u.sitesIn s).map (siteLine u notes))).map (step ++ ·)).map
        (indentation (u.ancestors s).length ++ ·) := by
  have hsize : 0 < b.tree.size :=
    ScopeTree.size_eq_of_bare_eq hbare ▸ Nat.zero_lt_of_lt (ScopeTree.lt_size_of_scope? hroot)
  obtain ⟨root', hroot', hall⟩ := exists_root hb hsize hbare notes
  obtain rfl := Option.some.inj (hroot.symm.trans hroot')
  rw [(hall room).1, if_pos hroom, if_pos hroom] at hlines
  rw [← Option.some.inj hlines]
  refine List.flatMap_congr fun s hs => ?_
  rw [blockOf, ownLines, sortedBindings_eq_self (hsorted s hs)]

/-- A tree that events describe has no outline if and only if a scope stands too deep in it. -/
lemma text_eq_none_iff {unitName filename : Option String} {events : List Event}
    (he : ScopeTree.ofEvents unitName filename events = .ok t) (hbare : u.bare = t.bare)
    (notes : Annotations) (room : Nat) :
    text u notes room = none ↔ ∃ s ∈ u.scopes, room ≤ (u.ancestors s).length := by
  obtain ⟨b, rfl, hb, -, hne⟩ := ScopeTree.exists_builder_of_ofEvents he
  obtain ⟨root, -, hlines⟩ := exists_root hb (List.length_pos_iff.2 hne) hbare notes
  obtain ⟨hlines, htext⟩ := hlines room
  rw [htext, hlines, Option.map_eq_none_iff]
  simp only [ite_eq_right_iff, reduceCtorEq, imp_false, not_forall, Nat.not_lt, exists_prop]

end Whole

/-! ## The owners in the lines -/

section Owners

variable {t u : ScopeTree} {h : History}

/-- The owner of a binding is a scope of the tree. -/
lemma lt_size_of_mem_bindings (hc : t.Classified h) (hd : t.Develops u) (hnames : u.DistinctNames)
    {s : Scope} (hs : s ∈ u.scopes) {b : Binding} (hb : b ∈ s.bindings) {w : Nat}
    (hw : b.owner = some w) : w < u.size := by
  obtain ⟨i, hi⟩ := ScopeTree.mem_scopes_iff.1 hs
  have hbinding : u.binding? i b.name = some b :=
    (ScopeTree.binding?_of_scope? hi _).trans (hnames.binding?_of_mem hi hb)
  obtain ⟨c, hscope, -⟩ := hd.exists_isBlock hc hbinding hw
  exact ScopeTree.lt_size_of_scope? hscope

/-- The owner that an analysis has for a target is a scope of the tree. -/
lemma lt_size_of_lookup_owners (hc : t.Classified h) (hd : t.Develops u) {mode : Mode}
    {a : Analysis} (ha : (u.analyze mode).2 = .ok a) {site : UseSite} (hsite : site ∈ t.sites)
    {w : Nat} (hw : a.owners.lookup site.index = some w) : w < t.size := by
  obtain ⟨a', ha', howners⟩ := (hd.regular hc).analyzed mode
  obtain rfl := Except.ok.inj (ha.symm.trans ha')
  have hbare := hd.reached.bare_eq
  rw [← hd.keeps.sites_eq] at hsite
  obtain ⟨s, hs, c, hmem, rfl, -⟩ := howners site hsite w hw
  rw [← ScopeTree.size_eq_of_bare_eq hbare]
  exact ScopeTree.lt_size_of_scope? ((hc.arena.of_bare_eq hbare).scope?_of_mem_chain
    (ScopeTree.path_of_scopeAt? hs).1 hmem).1

/-- What can be noted in an outline of the tree: nothing, or what any of its analyses has found,
whatever has been done with the tree before. -/
inductive NotesOf (t : ScopeTree) : Annotations → Prop
  | nothing : NotesOf t {}
  | analysis {earlier : List Operation} {mode : Mode} {a : Analysis}
      (h : ((t.performAll earlier).analyze mode).2 = .ok a) : NotesOf t a.annotations

/-- The owners in the outline are scopes of the tree, after any operations. -/
lemma NotesOf.ownersWithin {notes : Annotations} (hnotes : NotesOf t notes) (hc : t.Classified h)
    (operations : List Operation) : OwnersWithin (t.performAll operations) notes := by
  have hdevelops operations := (hc.develops.performAll hc operations).1
  have hd := hdevelops operations
  refine ⟨fun s hs b hb w hw =>
    lt_size_of_mem_bindings hc hd (hc.distinctNames_performAll operations) hs hb hw, ?_⟩
  rw [hd.keeps.sites_eq, ScopeTree.size_eq_of_bare_eq hd.reached.bare_eq]
  intro site hsite w hw
  cases hnotes with
  | nothing => exact absurd hw (by simp)
  | analysis ha => exact lt_size_of_lookup_owners hc (hdevelops _) ha hsite hw

end Owners

/-- The outline of a tree is complete and in order.

A builder has been given its events in any batches, and its tree has a scope; then any operations
have been made on the tree, stopped ones included.  With or without the notes of any analysis, there
are lines that show the whole tree, and these are the lines of the root and make up the text of the
tree, if there is room for the depth of each scope.  Otherwise the tree has no outline. -/
theorem complete_scopeLines {unitName filename : Option String} {batches : List (List Event)}
    {t : ScopeTree} (ht : ((TreeBuilder.start unitName filename).feedAll batches).tree = t)
    (hne : t.scopes ≠ []) (operations : List Operation) {notes : Annotations}
    (hnotes : NotesOf t notes) :
    ∃ u root ls, t.performAll operations = u ∧ u.scope? ScopeTree.rootIndex = some root ∧
      Complete u notes ls ∧
      ∀ room, scopeLines u notes room 0 root =
          (if ∀ s ∈ u.scopes, (u.ancestors s).length < room then some ls else none) ∧
        text u notes room = (scopeLines u notes room 0 root).map "\n".intercalate := by
  subst ht
  have hb := (TreeBuilder.Consistent.start unitName filename).feedAll batches
  have hin := hb.inOrder
  obtain ⟨hsound, h, hf⟩ := hb
  have hc := ScopeTree.classified_of_follows hsound hf hne
  have hd := (hc.develops.performAll hc operations).1
  have hbare := hd.reached.bare_eq
  have hu := hc.arena.of_bare_eq hbare
  obtain ⟨root, hroot, hlines⟩ := exists_root hsound hc.size_pos hbare notes
  refine ⟨_, root, _, rfl, hroot, complete_flatMap_blockOf hu
    (hc.distinctNames_performAll operations) (hnotes.ownersWithin hc operations) ?_ ?_, hlines⟩
  · rw [hd.keeps.sites_eq]
    exact hin.pairwise_sites
  · rw [hd.keeps.sites_eq]
    exact fun site hsite => exists_scope_of_mem_sites hin hbare hu hsite

/-- The outline of a module with two nested functions, at first and when the declaration of `x` has
been settled and the target `y` has been resolved.  There are three scopes inside each other, and
with room for two there is no outline. -/
theorem complete_scopeLines_sharedTarget :
    ∃ t u, ((TreeBuilder.start none none).feedAll [ScopeTree.sharedTarget]).tree = t ∧
      t.scopes ≠ [] ∧ t.performAll [.settle, .resolve ⟨1, "y", 0, .inline, none, 9⟩] = u ∧
      Complete t {}
        ["module #0 #0",
          "  uses:",
          "    := y",
          "  function 'f' #1",
          "    bindings:",
          "      x: PLAIN_BINDING",
          "    function 'g' #2",
          "      bindings:",
          "        x: OUTER_FUNCTION_DECLARED",
          "      uses:",
          "        += x"] ∧
      Complete u {}
        ["module #0 #0",
          "  bindings:",
          "    y: PLAIN_BINDING -> module #0 (implicit)",
          "  uses:",
          "    := y",
          "  function 'f' #1",
          "    bindings:",
          "      x: PLAIN_BINDING",
          "    function 'g' #2",
          "      bindings:",
          "        x: OUTER_FUNCTION_DECLARED -> function 'f'",
          "      uses:",
          "        += x"] ∧
      text u {} 2 = none := by
  have hsound := ((TreeBuilder.Consistent.start none none).feedAll [ScopeTree.sharedTarget]).1
  have hne : ((TreeBuilder.start none none).feedAll [ScopeTree.sharedTarget]).tree.scopes ≠ [] := by
    decide +kernel
  obtain ⟨_, root, ls, rfl, hroot, hbefore, hlines⟩ := complete_scopeLines rfl hne [] .nothing
  obtain ⟨_, root', ls', rfl, hroot', hafter, hlines'⟩ := complete_scopeLines rfl hne
    [.settle, .resolve ⟨1, "y", 0, .inline, none, 9⟩] .nothing
  refine ⟨_, _, rfl, hne, rfl, ?_, ?_, ?_⟩
  · rw [eq_of_scopeLines_eq hsound rfl hroot (hlines 3).1 (by decide +kernel)
      (by decide +kernel)] at hbefore
    exact hbefore
  · rw [eq_of_scopeLines_eq hsound (by decide +kernel) hroot' (hlines' 3).1 (by decide +kernel)
      (by decide +kernel)] at hafter
    exact hafter
  · rw [(hlines' 2).2, (hlines' 2).1, if_neg (by decide +kernel)]
    rfl

end Outline

end TargetScope
