import Mathlib.Data.List.Forall2
import TargetScope.Proofs.Grammar

/-!
# Which files can be read

A file can be read if and only if each of its lines is empty or says something, the headers stand
before the first event and none of them is given twice (`WellWritten`), and no number has too many
digits (`EventStream.exists_read_iff`).  What is read is then a transcript of the lines
(`EventStream.Transcribes`): one event for each line that says one, and the values of the headers.

The lines are taken one after the other: what one of them does to a transcript is in
`EventStream.Transcribes.readLine` and `EventStream.Transcribes.exists_readLine_iff`, and a whole
file is in `EventStream.read_accepts_grammar`.
-/

namespace TargetScope

open Text

/-- Every entry of the second of two lists that correspond belongs to one of the first. -/
lemma exists_mem_of_forall₂ {α β : Type} {R : α → β → Prop} {as : List α} {bs : List β}
    (h : List.Forall₂ R as bs) {b : β} (hb : b ∈ bs) : ∃ a ∈ as, R a b := by
  obtain ⟨i, hi, rfl⟩ := List.getElem_of_mem hb
  have hi' := h.length_eq ▸ hi
  exact ⟨as[i], List.getElem_mem hi', h.get hi' hi⟩

/-! ## Rows of a file -/

/-- The rows of some numbered lines; a line without words has none. -/
def Text.rows (ls : List (List Char × Nat)) : List (List String) :=
  (ls.map fun line => row line.1).filter (· ≠ [])

section Rows

variable {r : List String} {line : List Char × Nat} {ls : List (List Char × Nat)}

lemma mem_rows : r ∈ rows ls ↔ r ≠ [] ∧ ∃ line ∈ ls, row line.1 = r := by
  simp [rows, and_comm]

lemma rows_concat_of_nil (h : row line.1 = []) : rows (ls ++ [line]) = rows ls := by
  simp [rows, h]

lemma rows_concat_of_ne_nil (h : row line.1 ≠ []) :
    rows (ls ++ [line]) = rows ls ++ [row line.1] := by
  simp [rows, h]

lemma rows_append (ls rest : List (List Char × Nat)) :
    rows (ls ++ rest) = rows ls ++ rows rest := by
  simp [rows]

lemma row_eq_nil_iff {l : List Char} : row l = [] ↔ words l = [] :=
  List.map_eq_nil_iff

end Rows

/-! ## Well-written files -/

/-- The rows of a file say something each, and the headers stand where they may. -/
structure WellWritten (rows : List (List String)) : Prop where
  /-- Each row says something. -/
  spelled : ∀ row ∈ rows, ∃ content : Content, content.SpelledBy row
  /-- No header stands behind an event. -/
  headersFirst : rows.Pairwise fun earlier later => ∀ action key value,
    (Content.event action).SpelledBy earlier → ¬(Content.header key value).SpelledBy later
  /-- No header is given twice. -/
  headersOnce : rows.Pairwise fun earlier later => ∀ key value value',
    (Content.header key value).SpelledBy earlier → ¬(Content.header key value').SpelledBy later

/-- The content may stand behind some rows: it is an event, or a header that is not given yet, and
there is no event so far. -/
def Content.Follows (rows : List (List String)) : Content → Prop
  | header key _ => (∀ row ∈ rows, ∀ action, ¬(event action).SpelledBy row) ∧
      ∀ row ∈ rows, ∀ value, ¬(header key value).SpelledBy row
  | event _ => True

section WellWritten

variable {rows : List (List String)} {row : List String} {content : Content}

lemma wellWritten_nil : WellWritten [] :=
  ⟨by simp, .nil, .nil⟩

lemma wellWritten_concat_iff :
    WellWritten (rows ++ [row]) ↔
      WellWritten rows ∧ ∃ content : Content, content.SpelledBy row ∧ content.Follows rows := by
  have hpairs : ∀ R : List String → List String → Prop,
      (rows ++ [row]).Pairwise R ↔ rows.Pairwise R ∧ ∀ earlier ∈ rows, R earlier row := by
    intro R
    simp [List.pairwise_append]
  constructor
  · rintro ⟨hspelled, hfirst, honce⟩
    obtain ⟨hfirst, hrow⟩ := (hpairs _).1 hfirst
    obtain ⟨honce, hrow'⟩ := (hpairs _).1 honce
    obtain ⟨content, hcontent⟩ := hspelled row (by simp)
    refine ⟨⟨fun earlier h => hspelled earlier (by simp [h]), hfirst, honce⟩, content, hcontent, ?_⟩
    cases content with
    | header key value =>
      exact ⟨fun earlier h action he => hrow earlier h action key value he hcontent,
        fun earlier h value' he => hrow' earlier h key value' value he hcontent⟩
    | event action => trivial
  · -- the new row says nothing but `content`, which is what `hfollows` is about
    rintro ⟨⟨hspelled, hfirst, honce⟩, content, hcontent, hfollows⟩
    refine ⟨?_, (hpairs _).2 ⟨hfirst, ?_⟩, (hpairs _).2 ⟨honce, ?_⟩⟩
    · intro r hr
      rcases List.mem_append.1 hr with hr | hr
      · exact hspelled r hr
      · exact ⟨content, List.mem_singleton.1 hr ▸ hcontent⟩
    · intro earlier h action key value he hheader
      obtain rfl := hcontent.unique hheader
      exact hfollows.1 earlier h action he
    · intro earlier h key value value' he hheader
      obtain rfl := hcontent.unique hheader
      exact hfollows.2 earlier h value he

lemma WellWritten.of_append {rest : List (List String)} (h : WellWritten (rows ++ rest)) :
    WellWritten rows :=
  ⟨fun r hr => h.spelled r (List.mem_append_left _ hr), (List.pairwise_append.1 h.headersFirst).1,
    (List.pairwise_append.1 h.headersOnce).1⟩

end WellWritten

/-! ## Reading a file -/

/-- The row is that of an event, judged by its first word alone. -/
def Text.isEventRow (row : List String) : Bool :=
  row.head?.any fun word => (HeaderKey.ofKeyword? word).isNone

namespace Content.SpelledBy

variable {row : List String} {key : HeaderKey} {value : String} {action : Action}

lemma isEventRow_header (h : (header key value).SpelledBy row) : isEventRow row = false := by
  cases h with
  | unplaced _ hphrase => cases hphrase <;> rfl
  | placed _ hphrase => cases hphrase <;> rfl

lemma isEventRow_phrase {position : Option Position}
    (h : Phrase position row (.event action)) (rest : List String) :
    isEventRow (row ++ rest) = true := by
  cases h with
  | enter | enterLabelled | exit => rfl
  | mention hhow => simp [isEventRow, (Mention.ne_of_ofKeyword? hhow).1]

lemma isEventRow_event (h : (event action).SpelledBy row) : isEventRow row = true := by
  cases h with
  | unplaced _ hphrase => simpa using isEventRow_phrase hphrase []
  | placed _ hphrase => exact isEventRow_phrase hphrase _

end Content.SpelledBy

/-- A row holds at most one action. -/
lemma Content.rightUnique_event_spelledBy :
    Relator.RightUnique fun row action => (event action).SpelledBy row :=
  fun _ _ _ h h' => event.inj (h.unique h')

namespace EventStream

variable {s s' : EventStream} {line : List Char × Nat} {ls rest : List (List Char × Nat)}
  {content : Content} {origin : Position}

/-- How a stream grows by what a line says whose first word stands at the given place. -/
def Takes (s : EventStream) (origin : Position) : Content → EventStream → Prop
  | .header key value, s' => s.events = [] ∧ s.header? key = none ∧ s' = s.setHeader key value
  | .event action, s' => s' = { s with events := s.events ++ [⟨action, some origin⟩] }

lemma add_eq_ok_iff {n column : Nat} {d : Directive} :
    s.add n column d = .ok s' ↔ d.content.Admissible ∧ s.Takes ⟨n, column⟩ d.content s' := by
  cases d with
  | event action => simp [add, Directive.content, Content.Admissible, Takes, eq_comm]
  | header key value =>
    rw [add, addHeader, Directive.content, Takes]
    split
    · next hevents => simp [faultAt, hevents]
    · next hevents =>
      split
      · next hsome =>
        have hnone : s.header? key ≠ none := by
          intro h
          simp [h] at hsome
        simp [faultAt, hnone]
      · next hsome =>
        have hnone : s.header? key = none := by simpa using hsome
        have hnil : s.events = [] := not_not.1 hevents
        cases key <;> cases hdotted : isDottedName value.text.toList <;>
          simp [faultAt, Content.Admissible, hnone, hnil, hdotted, eq_comm]

lemma hasLongNumber_iff {head : Word} {args : List Word} {l : List Char}
    (hw : words l = head :: args) :
    (∃ digits, HasLongNumber l digits) ↔ EndsInLongNumber args := by
  simp only [HasLongNumber, hw, List.cons.injEq, EndsInLongNumber]
  constructor
  · rintro ⟨digits, _, _, w, ⟨rfl, rfl⟩, hlast, hlong⟩
    exact ⟨w, digits, hlast, hlong⟩
  · rintro ⟨w, digits, hlast, hlong⟩
    exact ⟨digits, head, args, w, ⟨rfl, rfl⟩, hlast, hlong⟩

/-- Reading one line. -/
lemma readLine_eq_ok_iff :
    s.readLine line = .ok s' ↔
      (words line.1 = [] ∧ s' = s) ∨
        ∃ head args content, words line.1 = head :: args ∧
          (∀ digits, ¬HasLongNumber line.1 digits) ∧
          content.SpelledBy (row line.1) ∧ s.Takes ⟨line.2, head.column⟩ content s' := by
  rw [readLine]
  cases hw : words line.1 with
  | nil => simp [eq_comm]
  | cons head args =>
    have hrow : row line.1 = head.text :: args.map Word.text := by rw [row, hw, List.map_cons]
    have hlong := hasLongNumber_iff hw
    simp only [hrow]
    constructor
    · intro h
      split at h
      · next d hd =>
        obtain ⟨hadm, htakes⟩ := add_eq_ok_iff.1 h
        obtain ⟨hspell, hends⟩ := spelledBy_of_readDirective hd hadm
        refine Or.inr ⟨head, args, d.content, rfl, ?_, hspell, htakes⟩
        exact fun digits hdigits => hends (hlong.1 ⟨digits, hdigits⟩)
      · simp at h
    · rintro (⟨h, -⟩ | ⟨_, _, content, heq, hdigits, hspell, htakes⟩)
      · simp at h
      · obtain ⟨rfl, rfl⟩ := List.cons.inj heq
        obtain ⟨d, hd, rfl, hadm⟩ := hspell.exists_readDirective line.2 fun hends => by
          obtain ⟨digits, h⟩ := hlong.2 hends
          exact hdigits digits h
        rw [hd]
        exact add_eq_ok_iff.2 ⟨hadm, htakes⟩

/-- The stream is what the numbered lines say. -/
structure Transcribes (s : EventStream) (ls : List (List Char × Nat)) : Prop where
  /-- Each event is that of one line, and stands in its first word. -/
  events : List.Forall₂
    (fun line e => (Content.event e.action).SpelledBy (row line.1) ∧
      ∃ head ∈ (words line.1).head?, e.origin = some ⟨line.2, head.column⟩)
    (ls.filter fun line => isEventRow (row line.1)) s.events
  /-- Each header has the value that a line gives to it. -/
  header : ∀ key value, s.header? key = some value ↔
    ∃ line ∈ ls, (Content.header key value).SpelledBy (row line.1)

lemma header?_setHeader (s : EventStream) (key key' : HeaderKey) (value : String) :
    (s.setHeader key value).header? key' = if key' = key then some value else s.header? key' := by
  cases key <;> cases key' <;> rfl

lemma events_setHeader (s : EventStream) (key : HeaderKey) (value : String) :
    (s.setHeader key value).events = s.events := by
  cases key <;> rfl

namespace Transcribes

lemma nil : Transcribes {} [] where
  events := .nil
  header := by
    intro key value
    cases key <;> simp [header?]

/-- What the headers become with one more line. -/
lemma header_concat (hs : s.Transcribes ls) (key : HeaderKey) (value : String) :
    (∃ l ∈ ls ++ [line], (Content.header key value).SpelledBy (row l.1)) ↔
      s.header? key = some value ∨ (Content.header key value).SpelledBy (row line.1) := by
  rw [hs.header]
  simp only [List.mem_append, List.mem_singleton, or_and_right, exists_or, exists_eq_left]

/-- A line without words. -/
lemma blank (hs : s.Transcribes ls) (hw : words line.1 = []) : s.Transcribes (ls ++ [line]) where
  events := by
    have hrow : isEventRow (row line.1) = false := by rw [row, hw]; rfl
    rw [List.filter_append, List.filter_singleton, hrow]
    simpa using hs.events
  header := by
    intro key value
    have hrow : ¬(Content.header key value).SpelledBy (row line.1) := fun h =>
      h.ne_nil (by rw [row, hw]; rfl)
    rw [hs.header_concat, or_iff_left hrow]

/-- A line that says something. -/
lemma takes (hs : s.Transcribes ls) {head : Word} (hhead : head ∈ (words line.1).head?)
    (hspell : content.SpelledBy (row line.1)) (ht : s.Takes ⟨line.2, head.column⟩ content s') :
    s'.Transcribes (ls ++ [line]) := by
  cases content with
  | header key value =>
    obtain ⟨-, hnone, rfl⟩ := ht
    constructor
    · rw [List.filter_append, List.filter_singleton, hspell.isEventRow_header, events_setHeader]
      simpa using hs.events
    · intro key' value'
      rw [hs.header_concat, header?_setHeader, hspell.iff_eq, Content.header.injEq]
      by_cases hkey : key' = key
      · simp [hkey, hnone, eq_comm]
      · simp [hkey]
  | event action =>
    obtain rfl := ht
    constructor
    · rw [List.filter_append, List.filter_singleton, hspell.isEventRow_event]
      exact List.rel_append hs.events (.cons ⟨hspell, head, hhead, rfl⟩ .nil)
    · intro key value
      rw [hs.header_concat, hspell.iff_eq]
      cases key <;> simp [header?]

/-- One line. -/
lemma readLine (hs : s.Transcribes ls) (h : s.readLine line = .ok s') :
    s'.Transcribes (ls ++ [line]) := by
  rcases readLine_eq_ok_iff.1 h with ⟨hw, rfl⟩ | ⟨head, args, content, hw, -, hspell, htakes⟩
  · exact hs.blank hw
  · exact hs.takes (by simp [hw]) hspell htakes

/-- Some lines. -/
lemma readLines (hs : s.Transcribes ls) (h : s.readLines rest = .ok s') :
    s'.Transcribes (ls ++ rest) := by
  induction rest generalizing s ls with
  | nil =>
    obtain rfl := Except.ok.inj h
    simpa using hs
  | cons line rest ih =>
    rw [EventStream.readLines] at h
    split at h
    · next s₁ hline => simpa using ih (hs.readLine hline) h
    · simp at h

/-! ### Which lines are read -/

/-- Each event is that of a line. -/
lemma exists_line (hs : s.Transcribes ls) {e : Event} (he : e ∈ s.events) :
    ∃ line ∈ ls, (Content.event e.action).SpelledBy (row line.1) := by
  obtain ⟨line, hline, hspell, -⟩ := exists_mem_of_forall₂ hs.events he
  exact ⟨line, List.mem_of_mem_filter hline, hspell⟩

/-- There are no events so far if and only if no row is that of an event. -/
lemma events_eq_nil_iff (hs : s.Transcribes ls) :
    s.events = [] ↔ ∀ r ∈ rows ls, ∀ action, ¬(Content.event action).SpelledBy r := by
  constructor
  · intro hnil r hr action hspell
    obtain ⟨-, line, hline, rfl⟩ := mem_rows.1 hr
    have hevents := hs.events
    rw [hnil, List.forall₂_nil_right_iff, List.filter_eq_nil_iff] at hevents
    exact hevents line hline hspell.isEventRow_event
  · intro hrows
    rw [List.eq_nil_iff_forall_not_mem]
    intro e he
    obtain ⟨line, hline, hspell⟩ := hs.exists_line he
    exact hrows _ (mem_rows.2 ⟨hspell.ne_nil, line, hline, rfl⟩) e.action hspell

/-- A header has the value that a row gives to it. -/
lemma header?_eq_some_iff (hs : s.Transcribes ls) (key : HeaderKey) (value : String) :
    s.header? key = some value ↔ ∃ r ∈ rows ls, (Content.header key value).SpelledBy r := by
  rw [hs.header]
  constructor
  · rintro ⟨line, hline, hspell⟩
    exact ⟨_, mem_rows.2 ⟨hspell.ne_nil, line, hline, rfl⟩, hspell⟩
  · rintro ⟨r, hr, hspell⟩
    obtain ⟨-, line, hline, rfl⟩ := mem_rows.1 hr
    exact ⟨line, hline, hspell⟩

lemma header?_eq_none_iff (hs : s.Transcribes ls) (key : HeaderKey) :
    s.header? key = none ↔ ∀ r ∈ rows ls, ∀ value, ¬(Content.header key value).SpelledBy r := by
  rw [Option.eq_none_iff_forall_ne_some]
  simp only [ne_eq, hs.header?_eq_some_iff, not_exists, not_and]
  exact ⟨fun h r hr value => h value r hr, fun h value r hr => h r hr value⟩

/-- What a line says can be taken if and only if it may stand behind the lines so far. -/
lemma exists_takes_iff (hs : s.Transcribes ls) :
    (∃ s', s.Takes origin content s') ↔ content.Follows (rows ls) := by
  cases content with
  | event action => simp [Takes, Content.Follows]
  | header key value =>
    simp only [Takes, Content.Follows, exists_and_left, hs.events_eq_nil_iff,
      hs.header?_eq_none_iff, exists_eq, and_true]

/-- One line can be read if and only if the file is still well-written with it, and no number is too
long. -/
lemma exists_readLine_iff (hs : s.Transcribes ls) (hw : WellWritten (rows ls)) :
    (∃ s', s.readLine line = .ok s') ↔
      WellWritten (rows (ls ++ [line])) ∧ ∀ digits, ¬HasLongNumber line.1 digits := by
  simp only [readLine_eq_ok_iff]
  cases hwords : words line.1 with
  | nil =>
    have hrow : row line.1 = [] := row_eq_nil_iff.2 hwords
    simp [rows_concat_of_nil hrow, hw, HasLongNumber, hwords]
  | cons head args =>
    have hrow : row line.1 ≠ [] := by simp [row_eq_nil_iff, hwords]
    rw [rows_concat_of_ne_nil hrow, wellWritten_concat_iff]
    constructor
    · rintro ⟨s', ⟨h, -⟩ | ⟨_, _, content, -, hlong, hspell, htakes⟩⟩
      · simp at h
      · exact ⟨⟨hw, content, hspell, hs.exists_takes_iff.1 ⟨s', htakes⟩⟩, hlong⟩
    · rintro ⟨⟨-, content, hspell, hfollows⟩, hlong⟩
      obtain ⟨s', htakes⟩ := hs.exists_takes_iff.2 hfollows
      exact ⟨s', Or.inr ⟨head, args, content, rfl, hlong, hspell, htakes⟩⟩

/-- Some lines can be read if and only if the file is well-written with them, and no number is too
long. -/
lemma exists_readLines_iff (hs : s.Transcribes ls) (hw : WellWritten (rows ls)) :
    (∃ s', s.readLines rest = .ok s') ↔
      WellWritten (rows (ls ++ rest)) ∧ ∀ line ∈ rest, ∀ digits, ¬HasLongNumber line.1 digits := by
  induction rest generalizing s ls with
  | nil => simp [EventStream.readLines, hw]
  | cons line rest ih =>
    rw [EventStream.readLines]
    have hline : (∃ s', s.readLine line = .ok s') ↔ WellWritten (rows (ls ++ [line])) ∧
        ∀ digits, ¬HasLongNumber line.1 digits := hs.exists_readLine_iff hw
    have happ : ls ++ line :: rest = ls ++ [line] ++ rest := by simp
    rw [happ]
    cases hread : s.readLine line with
    | ok s₁ =>
      obtain ⟨hw₁, hlong⟩ := hline.1 ⟨s₁, hread⟩
      simpa [hlong] using ih (hs.readLine hread) hw₁
    | error e =>
      -- already the lines up to this one are not well-written, or it has a number that is too long
      have hstop : ¬∃ s', s.readLine line = .ok s' := by simp [hread]
      rw [hline] at hstop
      simp only [reduceCtorEq, exists_false, false_iff]
      rintro ⟨hall, hlong⟩
      rw [rows_append] at hall
      exact hstop ⟨hall.of_append, hlong line (by simp)⟩

end Transcribes

/-! ## Whole files -/

/-- Whether a number is too long is seen in the row. -/
lemma hasLongNumber_iff_row {l : List Char} {digits : Nat} :
    HasLongNumber l digits ↔
      ∃ w : Word, w.text ∈ (row l).tail.getLast? ∧ w.HasLongNumber digits := by
  cases hw : words l with
  | nil => simp [HasLongNumber, row, hw]
  | cons head args =>
    simp only [HasLongNumber, row, hw, List.cons.injEq, List.map_cons, List.tail_cons,
      List.getLast?_map, Option.mem_def, Option.map_eq_some_iff]
    constructor
    · rintro ⟨_, _, w, ⟨rfl, rfl⟩, hlast, hlong⟩
      exact ⟨w, ⟨w, hlast, rfl⟩, hlong⟩
    · rintro ⟨w', ⟨w, hlast, htext⟩, hlong⟩
      refine ⟨head, args, w, ⟨rfl, rfl⟩, hlast, ?_⟩
      rw [Word.HasLongNumber, htext]
      exact hlong

/-- If no row of some lines ends in a number that is too long, no line does. -/
lemma noLongNumber_of_rows
    (h : ∀ r ∈ rows ls, ∀ w : Word, w.text ∈ r.tail.getLast? → ∀ digits, ¬w.HasLongNumber digits) :
    ∀ line ∈ ls, ∀ digits, ¬HasLongNumber line.1 digits := by
  intro line hline digits hlong
  obtain ⟨w, hlast, hdigits⟩ := hasLongNumber_iff_row.1 hlong
  have hne : row line.1 ≠ [] := by
    intro hnil
    simp [hnil] at hlast
  exact h _ (mem_rows.2 ⟨hne, line, hline, rfl⟩) w hlast digits hdigits

/-- Which files can be read. -/
lemma exists_read_iff (text : String) :
    (∃ s, read text = .ok s) ↔ WellWritten (rows (numberedLines text)) ∧
      ∀ line ∈ numberedLines text, ∀ digits, ¬HasLongNumber line.1 digits :=
  Transcribes.nil.exists_readLines_iff wellWritten_nil

/-- What is read from a file is the transcript of its lines. -/
lemma transcribes_of_read {text : String} (h : read text = .ok s) :
    s.Transcribes (numberedLines text) :=
  Transcribes.nil.readLines h

/-! ### Layout -/

/-- The actions are those of the rows. -/
lemma Transcribes.actions (hs : s.Transcribes ls) :
    List.Forall₂ (fun r action => (Content.event action).SpelledBy r)
      ((rows ls).filter isEventRow) (s.events.map Event.action) := by
  have hfilter : (rows ls).filter isEventRow =
      (ls.filter fun line => isEventRow (row line.1)).map fun line => row line.1 := by
    rw [rows, List.filter_filter, List.filter_map]
    congr 2
    funext line
    cases hrow : row line.1 <;> simp [hrow, isEventRow]
  rw [hfilter, List.forall₂_map_left_iff, List.forall₂_map_right_iff]
  exact hs.events.imp fun _ _ h => h.1

/-- Two streams that transcribe the same rows say the same. -/
lemma Transcribes.content_eq {ls' : List (List Char × Nat)} (hs : s.Transcribes ls)
    (hs' : s'.Transcribes ls') (hrows : rows ls' = rows ls) :
    s'.unitName = s.unitName ∧ s'.source = s.source ∧
      s'.events.map Event.action = s.events.map Event.action := by
  have hheader : ∀ key, s'.header? key = s.header? key := by
    intro key
    ext value
    rw [hs'.header?_eq_some_iff, hs.header?_eq_some_iff, hrows]
  have hactions := hs'.actions
  rw [hrows] at hactions
  exact ⟨hheader .unit, hheader .source,
    Content.rightUnique_event_spelledBy.forall₂ hactions hs.actions⟩

/-- Which texts can be read, and what is read.

A text can be read if and only if its rows are well-written and no line of it ends in a number with
too many digits.  Then the result is the transcript of its lines.  The layout does not matter: a
text with the same rows is read as the same headers and actions. -/
theorem read_accepts_grammar (text : String) :
    ((∃ s, read text = .ok s) ↔
        WellWritten (rows (numberedLines text)) ∧
          ∀ line ∈ numberedLines text, ∀ digits, ¬HasLongNumber line.1 digits) ∧
      (∀ s, read text = .ok s → s.Transcribes (numberedLines text)) ∧
      ∀ s text', read text = .ok s → rows (numberedLines text') = rows (numberedLines text) →
        ∃ s', read text' = .ok s' ∧ s'.unitName = s.unitName ∧ s'.source = s.source ∧
          s'.events.map Event.action = s.events.map Event.action := by
  refine ⟨exists_read_iff text, fun s h => transcribes_of_read h, fun s text' h hrows => ?_⟩
  obtain ⟨hw, hlong⟩ := (exists_read_iff text).1 ⟨s, h⟩
  have hlong' : ∀ line ∈ numberedLines text', ∀ digits, ¬HasLongNumber line.1 digits := by
    refine noLongNumber_of_rows fun r hr w hlast digits hdigits => ?_
    rw [hrows] at hr
    obtain ⟨-, line, hline, rfl⟩ := mem_rows.1 hr
    exact hlong line hline digits (hasLongNumber_iff_row.2 ⟨w, hlast, hdigits⟩)
  obtain ⟨s', h'⟩ := (exists_read_iff text').2 ⟨hrows ▸ hw, hlong'⟩
  exact ⟨s', h', (transcribes_of_read h).content_eq (transcribes_of_read h') hrows⟩

end EventStream

end TargetScope
