import TargetScope.Proofs.Nesting

/-!
# Streams that are fed in pieces

A builder stays usable whatever it is fed.  No handler changes the builder before it fails, so that
an event that is refused leaves the tree and the open scopes as the events before it have made them,
and is only counted; what is wrong behind the last event of a batch is only looked at.  So a stream
may be cut anywhere and its pieces fed one after the other, as long as no event of the first piece
is refused: builder and outcome are in the end those of the whole stream
(`TreeBuilder.feed_in_pieces`).

Where a batch has gone wrong tells from the code of the outcome, since the faults for which events
are refused have no code in common with those that are found behind the last event.
-/

namespace TargetScope

namespace TreeBuilder

variable {b b₁ b₂ : TreeBuilder} {e : Event} {before events : List Event} {error : StructureError}

/-- The builder becomes the second one by the events, none of which it refuses. -/
inductive Takes : TreeBuilder → List Event → TreeBuilder → Prop
  | nil (b : TreeBuilder) : Takes b [] b
  | cons {b b₁ b₂ : TreeBuilder} {e : Event} {rest : List Event}
      (first : (take e).on b = (.ok (), b₁)) (others : Takes b₁ rest b₂) : Takes b (e :: rest) b₂

/-- The batch has a result, or there is only something wrong with it that is found behind its last
event. -/
def Completes (b : TreeBuilder) (events : List Event) : Prop :=
  ∀ error ∈ (b.feed events).2, error.fault.code ∈ StructureFault.unfinishedCodes

/-- An event is refused because it is out of place, and not for what may be wrong behind the last
event. -/
lemma code_of_act (h : b.act e = .error error) :
    error.fault.code ∈ StructureFault.misplacedCodes := by
  cases ha : e.action with
  | enter kind label position =>
    rw [act_enter ha] at h
    split at h
    · split at h
      · obtain rfl := Except.error.inj h
        simp [StructureFault.code, StructureFault.misplacedCodes]
      · split at h
        · obtain rfl := Except.error.inj h
          simp [StructureFault.code, StructureFault.misplacedCodes]
        · simp at h
    · simp at h
  | mention name how position =>
    rw [act_mention ha] at h
    split at h
    · obtain rfl := Except.error.inj h
      simp [StructureFault.code, StructureFault.misplacedCodes]
    · simp at h
  | exit =>
    rw [act_exit ha] at h
    split at h
    · obtain rfl := Except.error.inj h
      simp [StructureFault.code, StructureFault.misplacedCodes]
    · simp at h

/-! ## Behind events that are taken -/

namespace Takes

/-- Behind events that are taken, a batch goes on from the builder that they leave. -/
lemma feed_append (h : b.Takes before b₁) (events : List Event) :
    b.feed (before ++ events) = b₁.feed events := by
  induction h with
  | nil b => rfl
  | cons first _ ih =>
    rw [List.cons_append, feed, first]
    exact ih

/-- Nothing is wrong with events that are taken but what is found behind the last of them. -/
lemma feed_eq (h : b.Takes events b₁) : b.feed events = (b₁, b₁.unfinished?) := by
  simpa [feed] using h.feed_append []

lemma completes (h : b.Takes events b₁) : b.Completes events := by
  intro error herror
  rw [h.feed_eq] at herror
  exact code_of_unfinished? herror

/-- A refused event is counted, and nothing else happens. -/
lemma feed_refused (h : b.Takes before b₁) (he : (take e).on b₁ = (.error error, b₂))
    (after : List Event) :
    b₂ = { b₁ with clock := b₁.clock + 1 } ∧
      b.feed (before ++ e :: after) = (b₂, some error) := by
  refine ⟨(take_eq_error_iff.1 he).2, ?_⟩
  rw [h.feed_append, feed, he]

end Takes

/-- The events of a batch are all taken, or those before one that is refused. -/
lemma takes_or_refuses (b : TreeBuilder) (events : List Event) :
    (∃ b₁, b.Takes events b₁) ∨
      ∃ before e after b₁ b₂ error, events = before ++ e :: after ∧ b.Takes before b₁ ∧
        (take e).on b₁ = (.error error, b₂) := by
  induction events generalizing b with
  | nil => exact Or.inl ⟨b, .nil b⟩
  | cons e rest ih =>
    rcases hfirst : (take e).on b with ⟨error | _, b₁⟩
    · exact Or.inr ⟨[], e, rest, b, b₁, error, rfl, .nil b, hfirst⟩
    · rcases ih b₁ with ⟨b₂, h⟩ | ⟨before, e', after, b₂, b₃, error, rfl, h, herror⟩
      · exact Or.inl ⟨b₂, .cons hfirst h⟩
      · exact Or.inr ⟨e :: before, e', after, b₂, b₃, error, rfl, .cons hfirst h, herror⟩

/-- No event is refused if and only if the batch is taken as a whole. -/
lemma completes_iff : b.Completes events ↔ b.Takes events (b.feed events).1 := by
  refine ⟨fun h => ?_, Takes.completes⟩
  rcases takes_or_refuses b events with ⟨b₁, htakes⟩ |
    ⟨before, e, after, b₁, b₂, error, rfl, htakes, herror⟩
  · rwa [htakes.feed_eq]
  · have hcode := h error (by rw [(htakes.feed_refused herror after).2]; rfl)
    exact absurd hcode
      (StructureFault.notMem_unfinishedCodes (code_of_act (take_eq_error_iff.1 herror).1))

/-- A stream may be fed in pieces.

Whatever state a builder is in:

* if it takes some events, and the handler of the next one fails, then this handler has left the
  tree and the open scopes as they were, and a batch that begins so ends there: the refused event
  has only been counted;
* looking for what is wrong behind the last event of a batch changes nothing;
* a batch has a result or fails with `DRV-0023` or `DRV-0024` if and only if all its events are
  taken, and the builder is then just what they have made of it;
* behind such a batch, every further one ends with the builder and the outcome with which the two
  would have ended as one. -/
theorem feed_in_pieces (b : TreeBuilder) :
    (∀ before e after b₁ b₂ error, b.Takes before b₁ → (take e).on b₁ = (.error error, b₂) →
      b₂ = { b₁ with clock := b₁.clock + 1 } ∧
        b.feed (before ++ e :: after) = (b₂, some error)) ∧
    (∀ events b₁, b.Takes events b₁ → b.feed events = (b₁, b₁.unfinished?)) ∧
    (∀ events, b.Completes events ↔ b.Takes events (b.feed events).1) ∧
    ∀ events more, b.Completes events →
      (b.feed events).1.feed more = b.feed (events ++ more) := by
  refine ⟨fun before e after b₁ b₂ error h he => h.feed_refused he after,
    fun events b₁ h => h.feed_eq, fun _ => completes_iff, fun events more h => ?_⟩
  exact ((completes_iff.1 h).feed_append more).symm

/-- The entry of a module, and of a function in it with a parameter. -/
def openFunction : List Event :=
  [⟨.enter .moduleBody (some "m") none, some ⟨1, 1⟩⟩,
    ⟨.enter .functionBody (some "f") (some ⟨1, 1⟩), some ⟨2, 1⟩⟩,
    ⟨.mention "n" .parameter none, some ⟨3, 1⟩⟩]

/-- The two exits that are missing. -/
def twoExits : List Event :=
  [⟨.exit, some ⟨4, 1⟩⟩, ⟨.exit, some ⟨5, 1⟩⟩]

/-- The stream is cut inside the function, and goes on with one exit too many. -/
theorem feed_in_pieces_openFunction :
    (start none none).Completes openFunction ∧
    ∃ b₁ b₂ : TreeBuilder, ((start none none).feed openFunction).1 = b₁ ∧
      (start none none).Takes openFunction b₁ ∧ b₁.Takes twoExits b₂ ∧
      b₁.feed (twoExits ++ [⟨.exit, some ⟨6, 1⟩⟩]) =
        ({ b₂ with clock := 6 }, some ⟨.unmatchedExit, some ⟨6, 1⟩⟩) ∧
      (start none none).feed (openFunction ++ (twoExits ++ [⟨.exit, some ⟨6, 1⟩⟩])) =
        ({ b₂ with clock := 6 }, some ⟨.unmatchedExit, some ⟨6, 1⟩⟩) := by
  obtain ⟨-, -, hcompletes, hpieces⟩ := feed_in_pieces (start none none)
  obtain ⟨hrefused, -⟩ := feed_in_pieces ((start none none).feed openFunction).1
  have hfirst : (start none none).Completes openFunction := by
    intro error herror
    obtain rfl : ⟨.unclosed "function 'f'", some ⟨1, 1⟩⟩ = error := Option.some.inj herror
    decide
  have hexits : ((start none none).feed openFunction).1.Takes twoExits _ :=
    .cons rfl (.cons rfl (.nil _))
  have hlast := (hrefused twoExits ⟨.exit, some ⟨6, 1⟩⟩ [] _ _ _ hexits rfl).2
  refine ⟨hfirst, _, _, rfl, (hcompletes _).1 hfirst, hexits, hlast, ?_⟩
  rw [← hpieces openFunction _ hfirst]
  exact hlast

end TreeBuilder

end TargetScope
