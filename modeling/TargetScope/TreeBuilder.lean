import TargetScope.Event

/-!
# From events to a scope tree

A builder takes the events of a compilation unit one after the other.  It numbers them, enters
scopes and use sites into a tree, and keeps for each scope and name the binding that the mentions so
far amount to:

* a parameter or an iteration variable stays what it is, whatever mentions follow;
* a declaration as an outer name replaces every other binding;
* a plain assignment or a declaration of a type makes a plain binding where there was none, or only
  a target;
* a target leaves a use site, and, where the nearest block scope is a function without a binding of
  the name, a binding that is only a target, unless a transparent scope in between blocks the name.

An event that fits nowhere is refused, and the builder that remains can be given further events.  So
a stream can come in several batches.
-/

namespace TargetScope

/-- The reasons why events describe no scope tree. -/
inductive StructureFault where
  /-- A scope is left while none is open. -/
  | unmatchedExit
  /-- A name is mentioned while no scope is open. -/
  | mentionOutside (name : String)
  /-- A second root is entered. -/
  | secondRoot
  /-- A scope is still open after the last event. -/
  | unclosed (scope : String)
  /-- There is no scope at all. -/
  | noScopes
  /-- The root is no module. -/
  | rootNotModule (kind : ScopeKind)
deriving DecidableEq, Repr

namespace StructureFault

/-- The code of a fault. -/
def code : StructureFault → String
  | unmatchedExit => "DRV-0020"
  | mentionOutside _ => "DRV-0021"
  | secondRoot => "DRV-0022"
  | unclosed _ => "DRV-0023"
  | noScopes => "DRV-0024"
  | rootNotModule _ => "DRV-0025"

/-- The message of a fault without its code. -/
def detail : StructureFault → String
  | unmatchedExit => "'exit' without a matching 'enter'"
  | mentionOutside name => "binding event for '" ++ name ++ "' outside any scope"
  | secondRoot => "event stream has more than one root scope"
  | unclosed scope => scope ++ " is never closed"
  | noScopes => "event stream contains no scopes"
  | rootNotModule kind => "root scope must be a module, got " ++ kind.term

/-- The message of a fault: its code in brackets, and what is wrong. -/
def message (f : StructureFault) : String :=
  "[" ++ f.code ++ "] " ++ f.detail

end StructureFault

/-- A fault of the structure, and the place to which it is reported. -/
structure StructureError where
  /-- What is wrong. -/
  fault : StructureFault
  /-- The origin of the event at fault, or the position of the scope that is still open. -/
  origin : Option Position := none
deriving DecidableEq, Repr

/-- A scope tree under construction. -/
structure TreeBuilder where
  /-- The tree so far. -/
  tree : ScopeTree := {}
  /-- The places of the open scopes, innermost first. -/
  openScopes : List Nat := []
  /-- The number of events so far; it is the program-order number of the last one. -/
  clock : Int := 0
deriving DecidableEq, Repr

namespace TreeBuilder

/-- The builder for a unit, before its first event. -/
def start (unitName filename : Option String) : TreeBuilder :=
  { tree := { unitName, filename } }

/-- Counts an event. -/
def tick (b : TreeBuilder) : TreeBuilder :=
  { b with clock := b.clock + 1 }

/-- The scope in which the next event takes place. -/
def current? (b : TreeBuilder) : Option Scope :=
  b.openScopes.head?.bind b.tree.scope?

/-! ## Mentions -/

/-- The binding after a plain assignment or a declaration of a type, from the binding before, if
there was one. -/
def plainBinding (name : String) (position : Option Position) (order : Int) :
    Option Binding → Binding
  | none => { name, role := .plain, declaredAt := position, boundOrder := some order }
  | some b =>
    if b.role = .targetOnly then
      { b with role := .plain, declaredAt := position, boundOrder := some order }
    else b

/-- The binding after a declaration that gives the name a role, from the binding before, if there
was one. -/
def declaredBinding (name : String) (role : BindingRole) (position : Option Position)
    (order : Int) : Option Binding → Binding
  | none => { name, role, declaredAt := position, boundOrder := some order }
  | some b =>
    if b.isBlocking then b
    else { b with role, declaredAt := position, owner := none, boundOrder := some order }

/-- The tree after a target in the scope `s`: it has one more use site, and perhaps a binding that
is only a target in the nearest block. -/
def addTarget (t : ScopeTree) (s : Scope) (name : String) (operator : Operator)
    (position : Option Position) (order : Int) : ScopeTree :=
  let t := t.addSite name s.index operator position order
  match t.nearestBlock s with
  | some block =>
    if block.kind = .functionBody ∧ (block.binding? name).isNone
        ∧ !(t.transparentPath s).any fun c => c.blocks name then
      t.put block.index { name, role := .targetOnly, declaredAt := position }
    else t
  | none => t

/-- The tree after a mention of a name in the scope `s`. -/
def addMention (t : ScopeTree) (s : Scope) (name : String) (how : Mention)
    (position : Option Position) (order : Int) : ScopeTree :=
  let before := s.binding? name
  let declare role := t.put s.index (declaredBinding name role position order before)
  match how with
  | .parameter => declare .parameter
  | .iteration => declare .iteration
  | .outerFunction => declare .outerFunction
  | .outerModule => declare .outerModule
  | .assignment | .typeDeclaration => t.put s.index (plainBinding name position order before)
  | .target operator => addTarget t s name operator position order

/-! ## Events -/

/-- What is done to a builder when an event comes in.  It can fail; the builder then stays as it is
at this point, with whatever has been done to it before. -/
abbrev Handler := ExceptT StructureError (StateM TreeBuilder) Unit

/-- The outcome for a builder, and the builder afterwards. -/
def Handler.on (h : Handler) (b : TreeBuilder) : Except StructureError Unit × TreeBuilder :=
  (h.run.run b).run

@[simp] theorem Handler.on_get_bind (f : TreeBuilder → Handler) (b : TreeBuilder) :
    Handler.on (get >>= f) b = (f b).on b := rfl

@[simp] theorem Handler.on_modify (f : TreeBuilder → TreeBuilder) (b : TreeBuilder) :
    Handler.on (modify f) b = (.ok (), f b) := rfl

@[simp] theorem Handler.on_modify_bind (f : TreeBuilder → TreeBuilder) (h : Unit → Handler)
    (b : TreeBuilder) : Handler.on (modify f >>= h) b = (h ()).on (f b) := rfl

@[simp] theorem Handler.on_throw (error : StructureError) (b : TreeBuilder) :
    Handler.on (throw error) b = (.error error, b) := rfl

@[simp] theorem Handler.on_throw_bind (error : StructureError) (h : Unit → Handler)
    (b : TreeBuilder) : Handler.on (throw error >>= h) b = (.error error, b) := rfl

/-- Adds a scope to the tree and opens it. -/
def openScope (kind : ScopeKind) (parent : Option Nat) (label : Option String)
    (position : Option Position) : Handler := do
  let index := (← get).tree.size
  modify fun b => { b with tree := b.tree.addScope kind parent label position }
  modify fun b => { b with openScopes := index :: b.openScopes }

/-- Enters a scope.  The root has to be a module and to come first; without a label of its own it
takes the name of the unit. -/
def enter (kind : ScopeKind) (label : Option String) (position origin : Option Position) :
    Handler := do
  let b ← get
  match b.openScopes with
  | [] =>
    if b.tree.scopes ≠ [] then
      throw ⟨.secondRoot, origin⟩
    if kind ≠ .moduleBody then
      throw ⟨.rootNotModule kind, origin⟩
    openScope .moduleBody none ((label.filter (· ≠ "")).or b.tree.unitName) position
  | parent :: _ => openScope kind (some parent) label position

/-- Leaves the innermost open scope. -/
def exit (origin : Option Position) : Handler := do
  match (← get).openScopes with
  | [] => throw ⟨.unmatchedExit, origin⟩
  | _ :: outer => modify fun b => { b with openScopes := outer }

/-- Mentions a name in the innermost open scope. -/
def mention (name : String) (how : Mention) (position origin : Option Position) : Handler := do
  match (← get).current? with
  | none => throw ⟨.mentionOutside name, origin⟩
  | some s => modify fun b => { b with tree := addMention b.tree s name how position b.clock }

/-- Handles an event that has been counted. -/
def handle (e : Event) : Handler :=
  match e.action with
  | .enter kind label position => enter kind label position e.origin
  | .mention name how position => mention name how position e.origin
  | .exit => exit e.origin

/-- Counts an event and handles it. -/
def take (e : Event) : Handler := do
  modify tick
  handle e

/-- What is still wrong after the last event: a scope that is open, or no scope at all. -/
def unfinished? (b : TreeBuilder) : Option StructureError :=
  match b.current? with
  | some s => some ⟨.unclosed s.describe, s.position⟩
  | none => if b.tree.scopes = [] then some ⟨.noScopes, none⟩ else none

/-- Takes a batch of events.  The result is the builder afterwards, and what was wrong: the fault of
the first event that was refused, after which no further event is taken, or else what is still wrong
after the last. -/
def feed : TreeBuilder → List Event → TreeBuilder × Option StructureError
  | b, [] => (b, b.unfinished?)
  | b, e :: rest =>
    match (take e).on b with
    | (.ok _, b) => b.feed rest
    | (.error error, b) => (b, some error)

end TreeBuilder

/-- The scope tree that events describe. -/
def ScopeTree.ofEvents (unitName filename : Option String) (events : List Event) :
    Except StructureError ScopeTree :=
  match (TreeBuilder.start unitName filename).feed events with
  | (b, none) => .ok b.tree
  | (_, some fault) => .error fault

end TargetScope
