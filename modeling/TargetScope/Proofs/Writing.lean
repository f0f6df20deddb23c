import Mathlib.Data.List.Induction
import TargetScope.Proofs.Spacing

/-!
# Written events are read again

An event stream is written as the rows of its headers and of its events.  A text with these rows is
read as the same headers and the same actions (`EventStream.exists_read_of_rows`), if everything in
the stream can be written (`Content.Writable`): names are identifiers, labels are dotted names,
positions count from one with no more digits than a number may have, and the source is one word that
does not look like a position.  Everything that was read can be written, but for the source after it
has been changed (`EventStream.writable_of_read`).

So reading undoes writing, and what has been read once remains the same when it is written and read
again (`EventStream.read_written`).
-/

namespace TargetScope

open Text

/-! ## Numbers -/

section Numbers

variable {n : Int} {l : List Char}

/-- The written form of a number that is at least one. -/
lemma toList_toString (hn : 1 ≤ n) : (toString n).toList = Nat.toDigits 10 n.toNat := by
  obtain ⟨k, rfl⟩ := Int.eq_ofNat_of_zero_le (by omega : 0 ≤ n)
  rw [Int.toNat_natCast, ← String.toList_ofList (l := Nat.toDigits 10 k),
    ← Nat.toString_eq_ofList_toDigits]
  rfl

lemma isNumeral_toDigits (k : Nat) : isNumeral (Nat.toDigits 10 k) = true := by
  simp only [isNumeral, Bool.and_eq_true, decide_eq_true_eq, List.all_eq_true]
  exact ⟨Nat.toDigits_ne_nil, fun c hc => Nat.isDigit_of_mem_toDigits (by decide) (by decide) hc⟩

lemma numeralValue_toDigits (k : Nat) : numeralValue (Nat.toDigits 10 k) = k :=
  Nat.ofDigitChars_ten_toDigits

/-- A number is written with no more digits than it was read from. -/
lemma length_toDigits_numeralValue_le (hl : isNumeral l = true) :
    (Nat.toDigits 10 (numeralValue l)).length ≤ l.length := by
  simp only [isNumeral, Bool.and_eq_true, decide_eq_true_eq, List.all_eq_true] at hl
  obtain ⟨hne, hdigits⟩ := hl
  -- the value is below the power of ten: by induction from the last digit on
  rw [Nat.length_toDigits_le_iff (by decide) (List.length_pos_of_ne_nil hne)]
  clear hne
  induction l using List.reverseRecOn with
  | nil => simp [numeralValue]
  | append_singleton l c ih =>
    have hc : c.toNat - '0'.toNat ≤ 9 := by
      have hdigit := hdigits c (by simp)
      simp only [Char.isDigit, Bool.and_eq_true, decide_eq_true_eq] at hdigit
      have hle : c.toNat ≤ 57 := hdigit.2
      have hzero : '0'.toNat = 48 := rfl
      omega
    have hlt := ih fun d hd => hdigits d (by simp [hd])
    rw [numeralValue] at hlt ⊢
    rw [Nat.ofDigitChars_append, Nat.ofDigitChars_cons, Nat.ofDigitChars_nil, List.length_append,
      List.length_singleton, Nat.pow_succ]
    omega

end Numbers

/-! ## What can be written -/

/-- Line and column are at least one and have no more digits than a number may have. -/
structure Position.Writable (p : Position) : Prop extends p.IsShort where
  /-- The line counts from one. -/
  one_le_line : 1 ≤ p.line
  /-- The column counts from one. -/
  one_le_column : 1 ≤ p.column

instance (p : Position) : Decidable p.Writable :=
  decidable_of_iff (p.IsShort ∧ 1 ≤ p.line ∧ 1 ≤ p.column)
    ⟨fun ⟨h₁, h₂, h₃⟩ => ⟨h₁, h₂, h₃⟩, fun ⟨h₁, h₂, h₃⟩ => ⟨h₁, h₂, h₃⟩⟩

/-- A label is a dotted name, a name is an identifier, and a position can be written. -/
def Action.Writable : Action → Prop
  | enter _ label position =>
    (∀ l ∈ label, isDottedName l.toList = true) ∧ ∀ p ∈ position, p.Writable
  | mention name _ position => isIdentifier name.toList = true ∧ ∀ p ∈ position, p.Writable
  | exit => True

instance : DecidablePred Action.Writable
  | .enter _ label position => inferInstanceAs (Decidable
      ((∀ l ∈ label, isDottedName l.toList = true) ∧ ∀ p ∈ position, p.Writable))
  | .mention name _ position => inferInstanceAs (Decidable
      (isIdentifier name.toList = true ∧ ∀ p ∈ position, p.Writable))
  | .exit => inferInstanceAs (Decidable True)

namespace Content

/-- The unit is a dotted name, the source is an ordinary word, and an action can be written. -/
def Writable : Content → Prop
  | header .unit value => isDottedName value.toList = true
  | header .source value => IsOrdinary value
  | event action => action.Writable

/-- The position of an event that has one. -/
def position? : Content → Option Position
  | event (.enter _ _ position) => position
  | event (.mention _ _ position) => position
  | event .exit => none
  | header _ _ => none

/-- The words that are written, but for the position. -/
def phrase : Content → List String
  | header key value => [key.keyword, value]
  | event (.enter kind label _) => "enter" :: kind.keyword :: (label.filter (· ≠ "")).toList
  | event (.mention name how _) => [how.keyword, name]
  | event .exit => ["exit"]

/-- The words that are written. -/
def words (content : Content) : List String :=
  content.phrase ++ positionWords content.position?

lemma words_event (action : Action) : (event action).words = action.words := by
  cases action <;> simp [words, phrase, position?, Action.words, positionWords]

/-- The first content may stand before the second: no header stands behind an event, and none is
given twice. -/
def Precedes : Content → Content → Prop
  | _, event _ => True
  | event _, header _ _ => False
  | header key _, header key' _ => key ≠ key'

variable {content : Content} {p : Position}

lemma Writable.position (h : content.Writable) (hp : p ∈ content.position?) : p.Writable := by
  cases content with
  | header key value => simp [position?] at hp
  | event action =>
    cases action with
    | enter kind label position => exact h.2 p hp
    | mention name how position => exact h.2 p hp
    | exit => simp [position?] at hp

end Content

/-! ### Written words -/

lemma isOrdinary_headerKeyword (key : HeaderKey) : IsOrdinary key.keyword :=
  isOrdinary_of_isDottedName (by cases key <;> decide)

lemma isOrdinary_scopeKeyword (kind : ScopeKind) : IsOrdinary kind.keyword :=
  isOrdinary_of_isDottedName (by cases kind <;> decide)

lemma isOrdinary_mentionKeyword (how : Mention) : IsOrdinary how.keyword :=
  isOrdinary_of_isDottedName (by rcases how with _ | _ | _ | _ | _ | _ | (_ | _) <;> decide)

section Words

variable {content : Content} {p : Position} {label : Option String} {word : String}

/-- A label that can be written is not left out. -/
lemma filter_label (h : ∀ l ∈ label, isDottedName l.toList = true) :
    label.filter (· ≠ "") = label := by
  cases label with
  | none => rfl
  | some l =>
    have hl : l ≠ "" := by
      rintro rfl
      exact absurd (h "" rfl) (by decide)
    simp [hl]

/-- The words before the position are ordinary. -/
lemma Content.Writable.isOrdinary (h : content.Writable) (hw : word ∈ content.phrase) :
    IsOrdinary word := by
  cases content with
  | header key value =>
    rcases List.mem_pair.1 hw with rfl | rfl
    · exact isOrdinary_headerKeyword key
    · cases key with
      | unit => exact isOrdinary_of_isDottedName h
      | source => exact h
  | event action =>
    cases action with
    | enter kind label position =>
      simp only [phrase, filter_label h.1, List.mem_cons, Option.mem_toList] at hw
      rcases hw with rfl | rfl | hw
      · exact isOrdinary_of_isDottedName (by decide)
      · exact isOrdinary_scopeKeyword kind
      · exact isOrdinary_of_isDottedName (h.1 word hw)
    | mention name how position =>
      rcases List.mem_pair.1 hw with rfl | rfl
      · exact isOrdinary_mentionKeyword how
      · exact isOrdinary_of_isDottedName (isDottedName_of_isIdentifier h.1)
    | exit =>
      obtain rfl := List.mem_singleton.1 hw
      exact isOrdinary_of_isDottedName (by decide)

/-- The word for a position that can be written. -/
lemma Position.Writable.toList_word (hp : p.Writable) :
    ("@" ++ p.text).toList =
      '@' :: Nat.toDigits 10 p.line.toNat ++ ':' :: Nat.toDigits 10 p.column.toNat := by
  simp only [Position.text, String.toList_append, toList_toString hp.one_le_line,
    toList_toString hp.one_le_column, List.append_assoc]
  rfl

/-- A digit is no separator. -/
lemma not_separator_of_isDigit {c : Char} (h : c.isDigit = true) :
    isBlank c = false ∧ c ≠ '#' ∧ c ≠ '@' := by
  have hapart : Apart [(0x30, 0x39)] separators := by decide
  rw [Char.isDigit, Bool.and_eq_true, decide_eq_true_eq, decide_eq_true_eq] at h
  exact not_separator (hapart.inRanges_eq_false (inRanges_iff.2 ⟨_, List.mem_singleton_self _, h⟩))

lemma Position.Writable.isPlain (hp : p.Writable) : IsPlain ("@" ++ p.text) := by
  have hchar : ∀ c ∈ ("@" ++ p.text).toList, isBlank c = false ∧ c ≠ '#' := by
    intro c hc
    have hdigit : ∀ {k : Nat}, c ∈ Nat.toDigits 10 k → isBlank c = false ∧ c ≠ '#' := fun h =>
      have hnot := not_separator_of_isDigit (Nat.isDigit_of_mem_toDigits (by decide) (by decide) h)
      ⟨hnot.1, hnot.2.1⟩
    rw [hp.toList_word, List.mem_append, List.mem_cons, List.mem_cons] at hc
    rcases hc with (rfl | hc) | rfl | hc
    · decide
    · exact hdigit hc
    · decide
    · exact hdigit hc
  refine ⟨?_, fun c hc => (hchar c hc).1, fun hc => (hchar _ hc).2 rfl⟩
  rw [hp.toList_word]
  simp

/-- The word spells the position. -/
lemma Position.Writable.spelledBy (hp : p.Writable) : p.SpelledBy ("@" ++ p.text) := by
  have hline := hp.one_le_line
  have hcolumn := hp.one_le_column
  refine ⟨_, _, hp.toList_word, isNumeral_toDigits _, isNumeral_toDigits _, ?_, ?_, ?_⟩
  · rw [numeralValue_toDigits]
    omega
  · rw [numeralValue_toDigits]
    omega
  · rw [numeralValue_toDigits, numeralValue_toDigits, Int.toNat_of_nonneg (by omega),
      Int.toNat_of_nonneg (by omega)]

/-- Neither number in the word is too long. -/
lemma Position.Writable.not_hasLongNumber (hp : p.Writable) {w : Word} {digits : Nat}
    (hw : w.text = "@" ++ p.text) : ¬w.HasLongNumber digits := by
  rintro ⟨l, c, htext, hl, -, hlong⟩
  rw [hw, hp.toList_word] at htext
  obtain ⟨rfl, rfl⟩ := numerals_unique (isNumeral_toDigits _) hl htext
  have hnat {n : Int} (hn : 1 ≤ n) : n.natAbs = n.toNat := by omega
  have hline := hp.line_short
  have hcolumn := hp.column_short
  rw [hnat hp.one_le_line, Nat.toString_eq_ofList_toDigits, String.length_ofList] at hline
  rw [hnat hp.one_le_column, Nat.toString_eq_ofList_toDigits, String.length_ofList] at hcolumn
  omega

namespace Content.Writable

/-- All words are plain. -/
lemma isPlain (h : content.Writable) (hw : word ∈ content.words) : IsPlain word := by
  rcases List.mem_append.1 hw with hw | hw
  · exact (h.isOrdinary hw).toIsPlain
  · cases hp : content.position? with
    | none => simp [hp, positionWords] at hw
    | some p =>
      obtain rfl : word = "@" ++ p.text := by simpa [hp, positionWords] using hw
      exact (h.position hp).isPlain

lemma phrase_spelled (h : content.Writable) :
    Phrase content.position? content.phrase content := by
  cases content with
  | header key value =>
    cases key with
    | unit => exact .unit h
    | source => exact .source
  | event action =>
    cases action with
    | enter kind label position =>
      simp only [phrase, filter_label h.1]
      cases label with
      | none => exact .enter (ScopeKind.ofKeyword?_keyword kind)
      | some l => exact .enterLabelled (ScopeKind.ofKeyword?_keyword kind) (h.1 l rfl)
    | mention name how position => exact .mention (Mention.ofKeyword?_keyword how) h.1
    | exit => exact .exit

/-- The words spell what is written. -/
lemma spelledBy (h : content.Writable) : content.SpelledBy content.words := by
  have hphrase := h.phrase_spelled
  rw [words]
  cases hp : content.position? with
  | none =>
    rw [hp] at hphrase
    rw [positionWords, List.append_nil]
    refine .unplaced (fun w hw => ?_) hphrase
    exact (h.isOrdinary (List.mem_of_mem_tail (List.mem_of_getLast? hw))).unplaced
  | some p =>
    rw [hp] at hphrase
    exact .placed (h.position hp).spelledBy hphrase

/-- The last word is no position with a number that is too long. -/
lemma not_hasLongNumber (h : content.Writable) {w : Word} {digits : Nat}
    (hw : w.text ∈ content.words.tail.getLast?) : ¬w.HasLongNumber digits := by
  intro hlong
  have hat := startsPosition_of_hasLongNumber hlong
  rw [startsPosition, decide_eq_true_eq] at hat
  rcases List.mem_append.1 (List.mem_of_mem_tail (List.mem_of_getLast? hw)) with hw | hw
  · exact (h.isOrdinary hw).unplaced hat
  · cases hp : content.position? with
    | none => simp [hp, positionWords] at hw
    | some p =>
      have htext : w.text = "@" ++ p.text := by simpa [hp, positionWords] using hw
      exact (h.position hp).not_hasLongNumber htext hlong

end Content.Writable

/-! ### Written lines -/

/-- The words of the content with single spaces between them, behind some spaces. -/
def Content.IsLine (content : Content) (line : List Char) : Prop :=
  ∃ indent : List Char, (∀ c ∈ indent, c = ' ') ∧ line = indent ++ spaced content.words

/-- The written form of an action. -/
lemma Content.isLine_event {action : Action} (indent : List Char)
    (hindent : ∀ c ∈ indent, c = ' ') : (event action).IsLine (indent ++ action.text.toList) :=
  ⟨indent, hindent, by rw [words_event]; rfl⟩

namespace Content.IsLine

variable {line : List Char}

lemma row_eq (h : content.IsLine line) (hc : content.Writable) : row line = content.words := by
  obtain ⟨indent, hindent, rfl⟩ := h
  refine row_indented (fun c hc => ?_) fun w hw => hc.isPlain hw
  rw [hindent c hc]
  decide

lemma ne_nil (h : content.IsLine line) (hc : content.Writable) : line ≠ [] := by
  rintro rfl
  have hrow : row [] = [] := by simp [row, words_eq, beforeComment]
  exact hc.spelledBy.ne_nil ((h.row_eq hc).symm.trans hrow)

lemma isLineBreak_eq_false (h : content.IsLine line) (hc : content.Writable) {c : Char}
    (hmem : c ∈ line) : isLineBreak c = false := by
  obtain ⟨indent, hindent, rfl⟩ := h
  rcases List.mem_append.1 hmem with hmem | hmem
  · rw [hindent c hmem]
    decide
  · exact isLineBreak_of_mem_spaced (fun w hw => hc.isPlain hw) hmem

end Content.IsLine

/-! ### What was read can be written -/

lemma Position.writable_of_spelledBy {w : Word} (h : p.SpelledBy w.text)
    (hlong : ∀ digits, ¬w.HasLongNumber digits) : p.Writable := by
  obtain ⟨l, c, htext, hl, hc, hlpos, hcpos, rfl⟩ := h
  have hllen : l.length ≤ maxDigits := by
    by_contra hgt
    exact hlong _ ⟨l, c, htext, hl, hc, Or.inl ⟨Nat.not_le.1 hgt, rfl⟩⟩
  have hclen : c.length ≤ maxDigits := by
    by_contra hgt
    exact hlong _ ⟨l, c, htext, hl, hc, Or.inr ⟨hllen, Nat.not_le.1 hgt, rfl⟩⟩
  -- leading zeros are not written, so that a number never gets longer
  have hshort : ∀ {d : List Char}, isNumeral d = true → 1 ≤ numeralValue d →
      d.length ≤ maxDigits → (toString (numeralValue d : Int).natAbs).length ≤ maxDigits := by
    intro d hd hpos hlen
    rw [Int.natAbs_natCast, Nat.toString_eq_ofList_toDigits, String.length_ofList]
    exact (length_toDigits_numeralValue_le hd).trans hlen
  exact ⟨⟨hshort hl hlpos hllen, hshort hc hcpos hclen⟩, Int.ofNat_le.2 hlpos, Int.ofNat_le.2 hcpos⟩

lemma Content.Phrase.writable {position : Option Position} {r : List String}
    (h : Phrase position r content) (hp : ∀ p ∈ position, p.Writable)
    (hsource : ∀ value, content ≠ .header .source value) : content.Writable := by
  cases h with
  | enter => exact ⟨by simp, hp⟩
  | enterLabelled _ hlabel => exact ⟨by simpa using hlabel, hp⟩
  | exit => trivial
  | mention _ hname => exact ⟨hname, hp⟩
  | unit hlabel => exact hlabel
  | source => exact absurd rfl (hsource _)

/-- What a row says can be written, unless it is a source. -/
lemma Content.SpelledBy.writable {r : List String} (h : content.SpelledBy r)
    (hlong : ∀ w : Word, w.text ∈ r.tail.getLast? → ∀ digits, ¬w.HasLongNumber digits)
    (hsource : ∀ value, content ≠ .header .source value) : content.Writable := by
  cases h with
  | unplaced _ hphrase => exact hphrase.writable (by simp) hsource
  | @placed row word p _ hword hphrase =>
    refine hphrase.writable (fun p' hp' => ?_) hsource
    obtain rfl : p = p' := by simpa using hp'
    obtain ⟨first, rest, rfl⟩ := hphrase.exists_cons
    exact Position.writable_of_spelledBy (w := ⟨word, 0⟩) hword (hlong ⟨word, 0⟩ (by simp))

end Words

/-! ## Event streams -/

namespace EventStream

variable {s s' : EventStream} {text : String}

/-- What a stream says, in the order in which it is written. -/
def contents (s : EventStream) : List Content :=
  (s.unitName.map (.header .unit)).toList ++ (s.source.map (.header .source)).toList ++
    s.events.map fun e => .event e.action

lemma header_mem_contents {key : HeaderKey} {value : String} :
    Content.header key value ∈ s.contents ↔ s.header? key = some value := by
  cases key <;> simp [contents, header?]

lemma event_mem_contents {action : Action} :
    Content.event action ∈ s.contents ↔ ∃ e ∈ s.events, e.action = action := by
  simp [contents]

lemma pairwise_contents (s : EventStream) : s.contents.Pairwise Content.Precedes := by
  have hevents : ∀ c : Content, ∀ c' ∈ s.events.map fun e => Content.event e.action,
      c.Precedes c' := by
    intro c c' hc'
    obtain ⟨e, -, rfl⟩ := List.mem_map.1 hc'
    cases c <;> trivial
  have hheaders : ((s.unitName.map (Content.header .unit)).toList ++
      (s.source.map (Content.header .source)).toList).Pairwise Content.Precedes := by
    cases s.unitName <;> cases s.source <;> simp [Content.Precedes]
  rw [contents, List.pairwise_append]
  exact ⟨hheaders, List.pairwise_of_forall_mem_list fun c _ c' hc' => hevents c c' hc',
    fun c _ => hevents c⟩

/-- The rows of what a stream says are well-written. -/
lemma wellWritten_contents (hs : ∀ c ∈ s.contents, c.Writable) :
    WellWritten (s.contents.map Content.words) := by
  -- the words of a content spell nothing else, so that all is said about the contents themselves
  have hpairs : ∀ {R : List String → List String → Prop},
      (∀ c ∈ s.contents, ∀ c' ∈ s.contents, c.Precedes c' → R c.words c'.words) →
      (s.contents.map Content.words).Pairwise R := fun h =>
    List.pairwise_map.2 <| s.pairwise_contents.imp_of_mem fun hc hc' => h _ hc _ hc'
  refine ⟨?_, hpairs ?_, hpairs ?_⟩
  · intro r hr
    obtain ⟨c, hc, rfl⟩ := List.mem_map.1 hr
    exact ⟨c, (hs c hc).spelledBy⟩
  · intro c hc c' hc' hprec action key value h h'
    rw [(hs c hc).spelledBy.iff_eq] at h
    rw [(hs c' hc').spelledBy.iff_eq] at h'
    rw [← h, ← h'] at hprec
    exact hprec
  · intro c hc c' hc' hprec key value value' h h'
    rw [(hs c hc).spelledBy.iff_eq] at h
    rw [(hs c' hc').spelledBy.iff_eq] at h'
    rw [← h, ← h'] at hprec
    exact hprec rfl

/-- The rows of what a stream says that are rows of events. -/
lemma filter_rows_contents (hs : ∀ c ∈ s.contents, c.Writable) :
    (s.contents.map Content.words).filter isEventRow =
      s.events.map fun e => (Content.event e.action).words := by
  have hheaders : ∀ r ∈ ((s.unitName.map (Content.header .unit)).toList ++
      (s.source.map (Content.header .source)).toList).map Content.words, ¬isEventRow r = true := by
    intro r hr
    obtain ⟨c, hc, rfl⟩ := List.mem_map.1 hr
    have hspell := (hs c (List.mem_append_left _ hc)).spelledBy
    obtain ⟨key, value, rfl⟩ : ∃ key value, c = .header key value := by
      rcases List.mem_append.1 hc with hc | hc
      · obtain ⟨value, -, rfl⟩ := Option.map_eq_some_iff.1 (Option.mem_toList.1 hc)
        exact ⟨_, _, rfl⟩
      · obtain ⟨value, -, rfl⟩ := Option.map_eq_some_iff.1 (Option.mem_toList.1 hc)
        exact ⟨_, _, rfl⟩
    simp [hspell.isEventRow_header]
  have hevents : ∀ r ∈ s.events.map fun e => (Content.event e.action).words,
      isEventRow r = true := by
    intro r hr
    obtain ⟨e, he, rfl⟩ := List.mem_map.1 hr
    exact (hs _ (event_mem_contents.2 ⟨e, he, rfl⟩)).spelledBy.isEventRow_event
  rw [contents, List.map_append, List.filter_append, List.filter_eq_nil_iff.2 hheaders,
    List.map_map, List.nil_append]
  exact List.filter_eq_self.2 hevents

/-- A transcript of the rows of a stream has the same headers and actions. -/
lemma Transcribes.eq_of_rows {ls : List (List Char × Nat)} (hs' : s'.Transcribes ls)
    (hs : ∀ c ∈ s.contents, c.Writable) (hrows : rows ls = s.contents.map Content.words) :
    s'.unitName = s.unitName ∧ s'.source = s.source ∧
      s'.events.map Event.action = s.events.map Event.action := by
  have hheader : ∀ key, s'.header? key = s.header? key := by
    intro key
    ext value
    rw [hs'.header?_eq_some_iff, hrows, ← header_mem_contents]
    constructor
    · rintro ⟨r, hr, hspell⟩
      obtain ⟨c, hc, rfl⟩ := List.mem_map.1 hr
      rw [(hs c hc).spelledBy.iff_eq] at hspell
      exact hspell ▸ hc
    · intro hc
      exact ⟨_, List.mem_map_of_mem hc, (hs _ hc).spelledBy⟩
  refine ⟨hheader .unit, hheader .source, ?_⟩
  have hactions := hs'.actions
  rw [hrows, filter_rows_contents hs] at hactions
  refine Content.rightUnique_event_spelledBy.forall₂ hactions ?_
  rw [List.forall₂_map_left_iff, List.forall₂_map_right_iff, List.forall₂_same]
  exact fun e he => (hs _ (event_mem_contents.2 ⟨e, he, rfl⟩)).spelledBy

/-- A text with a line for each content, in which the same words stand, is read as the same headers
and actions. -/
lemma exists_read_of_rows (hs : ∀ c ∈ s.contents, c.Writable)
    (hlines : (lines text.toList).map row = s.contents.map Content.words) :
    ∃ s', read text = .ok s' ∧ s'.unitName = s.unitName ∧ s'.source = s.source ∧
      s'.events.map Event.action = s.events.map Event.action := by
  have hrows : rows (numberedLines text) = s.contents.map Content.words := by
    rw [rows_numberedLines, hlines, List.filter_eq_self]
    intro r hr
    obtain ⟨c, hc, rfl⟩ := List.mem_map.1 hr
    exact decide_eq_true (hs c hc).spelledBy.ne_nil
  have hlong : ∀ line ∈ numberedLines text, ∀ digits, ¬HasLongNumber line.1 digits := by
    refine noLongNumber_of_rows fun r hr w hw digits => ?_
    rw [hrows] at hr
    obtain ⟨c, hc, rfl⟩ := List.mem_map.1 hr
    exact (hs c hc).not_hasLongNumber hw
  obtain ⟨s', hread⟩ := (exists_read_iff text).2 ⟨hrows ▸ wellWritten_contents hs, hlong⟩
  exact ⟨s', hread, (transcribes_of_read hread).eq_of_rows hs hrows⟩

/-- Written lines with line feeds between them, or at the end of each, are read as the headers and
actions that were written. -/
lemma exists_read_of_isLine {ls : List (List Char)} (hs : ∀ c ∈ s.contents, c.Writable)
    (hls : List.Forall₂ Content.IsLine s.contents ls)
    (htext : text.toList = ['\n'].intercalate ls ∨ text.toList = ls.flatMap (· ++ ['\n'])) :
    ∃ s', read text = .ok s' ∧ s'.unitName = s.unitName ∧ s'.source = s.source ∧
      s'.events.map Event.action = s.events.map Event.action := by
  have hne : ∀ l ∈ ls, l ≠ [] := by
    intro l hl
    obtain ⟨c, hc, hline⟩ := exists_mem_of_forall₂ hls hl
    exact hline.ne_nil (hs c hc)
  have hbreak : ∀ l ∈ ls, ∀ c ∈ l, isLineBreak c = false := by
    intro l hl d hd
    obtain ⟨c, hc, hline⟩ := exists_mem_of_forall₂ hls hl
    exact hline.isLineBreak_eq_false (hs c hc) hd
  -- no line is empty or holds a break, so that the text is cut where it was put together
  have hlines : lines text.toList = ls := by
    rcases htext with htext | htext
    · rw [htext, lines_intercalate hne hbreak]
    · rw [htext, lines_flatMap hbreak]
  have hmap : ls.map row = s.contents.map Content.words := by
    rw [eq_comm, ← List.forall₂_eq_eq_eq, List.forall₂_map_left_iff, List.forall₂_map_right_iff]
    exact ((List.forall₂_and_left _ _).2 ⟨hs, hls⟩).imp fun c l h => (h.2.row_eq h.1).symm
  exact exists_read_of_rows hs (hlines ▸ hmap)

/-- Everything that was read can be written, but for the source. -/
lemma writable_of_read (h : read text = .ok s) {c : Content} (hc : c ∈ s.contents)
    (hsource : ∀ value, c ≠ .header .source value) : c.Writable := by
  obtain ⟨-, hlong⟩ := (exists_read_iff text).1 ⟨s, h⟩
  have hs := transcribes_of_read h
  have hspelled : ∃ line ∈ numberedLines text, c.SpelledBy (row line.1) := by
    cases c with
    | header key value => exact (hs.header key value).1 (header_mem_contents.1 hc)
    | event action =>
      obtain ⟨e, he, rfl⟩ := event_mem_contents.1 hc
      exact hs.exists_line he
  obtain ⟨line, hline, hspell⟩ := hspelled
  exact hspell.writable (fun w hw digits hdigits =>
    hlong line hline digits (hasLongNumber_iff_row.2 ⟨w, hw, hdigits⟩)) hsource

/-- The positions that are read are short. -/
lemma isShort_of_read (h : read text = .ok s) {e : Event} (he : e ∈ s.events) {p : Position}
    (hp : p ∈ (Content.event e.action).position?) : p.IsShort :=
  ((writable_of_read h (event_mem_contents.2 ⟨e, he, rfl⟩) (by simp)).position hp).toIsShort

/-- Written actions, one on a line, are read as the same actions. -/
lemma exists_read_of_writable {events : List Event} (h : ∀ e ∈ events, e.action.Writable) :
    ∃ s, read ("\n".intercalate (events.map fun e => e.action.text)) = .ok s ∧
      s.unitName = none ∧ s.source = none ∧
      s.events.map Event.action = events.map Event.action := by
  have hcontents : ∀ c ∈ contents { events := events }, c.Writable := by
    intro c hc
    obtain ⟨e, he, rfl⟩ := List.mem_map.1 hc
    exact h e he
  have hlines : List.Forall₂ Content.IsLine (contents { events := events })
      ((events.map fun e => e.action.text).map String.toList) := by
    have heq : contents { events := events } = events.map fun e => .event e.action := rfl
    rw [heq, List.map_map, List.forall₂_map_left_iff, List.forall₂_map_right_iff,
      List.forall₂_same]
    exact fun e _ => Content.isLine_event [] (by simp)
  exact exists_read_of_isLine hcontents hlines (Or.inl String.toList_intercalate)

/-- Reading undoes writing.

Actions that can be written, one on a line with line feeds between the lines, are read as the same
actions.  All actions that are read from any text can be written, so that they remain the same when
they are written and read again. -/
theorem read_written :
    (∀ events : List Event, (∀ e ∈ events, e.action.Writable) →
      ∃ s, read ("\n".intercalate (events.map fun e => e.action.text)) = .ok s ∧
        s.unitName = none ∧ s.source = none ∧
        s.events.map Event.action = events.map Event.action) ∧
    ∀ text s, read text = .ok s →
      (∀ e ∈ s.events, e.action.Writable) ∧
      ∃ s', read ("\n".intercalate (s.events.map fun e => e.action.text)) = .ok s' ∧
        s'.unitName = none ∧ s'.source = none ∧
        s'.events.map Event.action = s.events.map Event.action := by
  refine ⟨fun events h => exists_read_of_writable h, fun text s h => ?_⟩
  have hevents : ∀ e ∈ s.events, e.action.Writable := fun e he =>
    writable_of_read h (event_mem_contents.2 ⟨e, he, rfl⟩) (by simp)
  exact ⟨hevents, exists_read_of_writable hevents⟩

/-- A small function. -/
def smallFunction : List Event :=
  [⟨.enter .functionBody (some "f") (some ⟨2, 5⟩), none⟩, ⟨.mention "x" .assignment none, none⟩,
    ⟨.exit, none⟩]

/-- Its events are written and read. -/
theorem read_written_smallFunction :
    (∀ e ∈ smallFunction, e.action.Writable) ∧
      ∃ s, read "enter function f @2:5\nbind x\nexit" = .ok s ∧
        s.events.map Event.action = smallFunction.map Event.action := by
  have hwritable : ∀ e ∈ smallFunction, e.action.Writable := by decide +kernel
  have htext : "\n".intercalate (smallFunction.map fun e => e.action.text) =
      "enter function f @2:5\nbind x\nexit" := by decide +kernel
  obtain ⟨s, hs, -, -, hactions⟩ := read_written.1 smallFunction hwritable
  exact ⟨hwritable, s, htext ▸ hs, hactions⟩

end EventStream

end TargetScope
