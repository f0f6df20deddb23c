import Mathlib.Data.List.TakeWhile
import TargetScope.Event.Stream

/-!
# What is read from an event file

An event file is read line by line.  If it can be read at all, its events are those of its lines,
each by itself and in their order (`EventStream.events_read`), so that every event has its line
(`EventStream.exists_line_of_read`).

Besides the faults of its words, which all are reported at their place, there is one way to fail:
the last word of a line is a position with a number of too many digits, and all lines before it can
be read (`EventStream.read_eq_numberTooLong_iff`).
-/

namespace TargetScope

open Text

/-- The lines of a text, numbered from one. -/
def Text.numberedLines (text : String) : List (List Char × Nat) :=
  (lines text.toList).zipIdx 1

/-! ## The events of a file -/

/-- The event on a numbered line, if the line can be read and holds one. -/
def Event.onLine? (line : List Char × Nat) : Option Event :=
  match words line.1 with
  | [] => none
  | head :: args =>
    match readDirective line.2 head args with
    | .ok (.event action) => some ⟨action, some ⟨line.2, head.column⟩⟩
    | .ok (.header _ _) => none
    | .error _ => none

/-- The event on a line stands in its first word. -/
lemma Event.of_onLine? {line : List Char × Nat} {e : Event} (h : onLine? line = some e) :
    ∃ head args, words line.1 = head :: args ∧
      readDirective line.2 head args = .ok (.event e.action) ∧
      e.origin = some ⟨line.2, head.column⟩ := by
  rw [onLine?] at h
  split at h
  · simp at h
  · next head args hw =>
    split at h
    · next action hd =>
      obtain rfl := Option.some.inj h
      exact ⟨head, args, hw, hd, rfl⟩
    · simp at h
    · simp at h

namespace EventStream

variable {s s' : EventStream} {line : List Char × Nat} {rest : List (List Char × Nat)}
  {text : String} {e : ReadError} {digits : Nat}

lemma events_addHeader {n column : Nat} {key : HeaderKey} {value : Word}
    (h : s.addHeader n column key value = .ok s') : s'.events = s.events := by
  rw [addHeader] at h
  split at h
  · simp [faultAt] at h
  · split at h
    · simp [faultAt] at h
    · split at h
      · simp [faultAt] at h
      · obtain rfl := Except.ok.inj h
        cases key <;> rfl

lemma events_readLine (h : s.readLine line = .ok s') :
    s'.events = s.events ++ (Event.onLine? line).toList := by
  rw [readLine] at h
  rw [Event.onLine?]
  cases hw : words line.1 with
  | nil =>
    rw [hw] at h
    obtain rfl := Except.ok.inj h
    simp
  | cons head args =>
    simp only [hw] at h ⊢
    cases hd : readDirective line.2 head args with
    | error e => simp [hd] at h
    | ok d =>
      rw [hd] at h
      cases d with
      | header key value => simpa using events_addHeader h
      | event action =>
        obtain rfl := Except.ok.inj h
        rfl

lemma events_readLines (h : s.readLines rest = .ok s') :
    s'.events = s.events ++ rest.filterMap Event.onLine? := by
  induction rest generalizing s with
  | nil =>
    obtain rfl := Except.ok.inj h
    simp
  | cons line rest ih =>
    rw [readLines] at h
    split at h
    · next s₁ hs =>
      rw [ih h, events_readLine hs, List.filterMap_cons, List.append_assoc]
      cases Event.onLine? line <;> rfl
    · simp at h

/-- The events of a file are those of its lines. -/
lemma events_read (h : read text = .ok s) :
    s.events = (numberedLines text).filterMap Event.onLine? := by
  simpa [numberedLines] using events_readLines h

/-- Every event of a file has its line. -/
lemma exists_line_of_read (h : read text = .ok s) {before after : List Event} {event : Event}
    (he : s.events = before ++ event :: after) :
    ∃ pre line post, numberedLines text = pre ++ line :: post ∧
      pre.filterMap Event.onLine? = before ∧ Event.onLine? line = some event := by
  rw [events_read h, List.filterMap_eq_append_iff] at he
  obtain ⟨pre, rest, hlines, hbefore, hrest⟩ := he
  obtain ⟨skipped, line, post, rfl, hskipped, hevent, -⟩ := List.filterMap_eq_cons_iff.1 hrest
  refine ⟨pre ++ skipped, line, post, by rw [hlines, List.append_assoc], ?_, hevent⟩
  rw [List.filterMap_append, hbefore, List.filterMap_eq_nil_iff.2 hskipped, List.append_nil]

end EventStream

/-! ## Numbers that are too long -/

/-- The word is a position in which the first number with too many digits has the given number of
them. -/
def Text.Word.HasLongNumber (w : Word) (digits : Nat) : Prop :=
  ∃ l c : List Char, w.text.toList = '@' :: l ++ ':' :: c ∧
    isNumeral l = true ∧ isNumeral c = true ∧
    (maxDigits < l.length ∧ digits = l.length ∨
      l.length ≤ maxDigits ∧ maxDigits < c.length ∧ digits = c.length)

/-- The last word of the line, and not the first, is a position with such a number. -/
def Text.HasLongNumber (line : List Char) (digits : Nat) : Prop :=
  ∃ head args w, words line = head :: args ∧ args.getLast? = some w ∧ w.HasLongNumber digits

/-- Some line of the text has such a number, and the lines before it can be read. -/
def Text.ReachesLongNumber (text : String) (digits : Nat) : Prop :=
  ∃ before line after s, numberedLines text = before ++ line :: after ∧
    EventStream.readLines {} before = .ok s ∧ HasLongNumber line.1 digits

section Long

variable {line digits : Nat} {w head : Word} {args : List Word} {position : Option Position}

lemma splitColon?_eq_some_iff {text l c : List Char} :
    splitColon? text = some (l, c) ↔ text = l ++ ':' :: c ∧ ':' ∉ l := by
  rw [splitColon?]
  constructor
  · intro h
    split at h
    · simp at h
    · next d rest hdrop =>
      obtain ⟨rfl, rfl⟩ := Prod.mk.inj (Option.some.inj h)
      have hd : d = ':' := by
        have hhead := List.head?_dropWhile_not (fun x : Char => decide (x ≠ ':')) text
        rw [hdrop] at hhead
        simpa using hhead
      subst hd
      refine ⟨?_, ?_⟩
      · rw [← hdrop, List.takeWhile_append_dropWhile]
      · intro hmem
        simpa using List.mem_takeWhile_imp hmem
  · rintro ⟨rfl, hl⟩
    have hpos : ∀ x ∈ l, decide (x ≠ ':') = true := by
      intro x hx
      simp only [decide_eq_true_eq]
      rintro rfl
      exact hl hx
    rw [List.dropWhile_append_of_pos hpos, List.takeWhile_append_of_pos hpos]
    simp

/-- There is no colon in a number. -/
lemma colon_notMem_of_isNumeral {l : List Char} (h : isNumeral l = true) : ':' ∉ l := by
  intro hmem
  rw [isNumeral, Bool.and_eq_true, List.all_eq_true] at h
  exact absurd (h.2 _ hmem) (by decide)

lemma readPosition_eq_numberTooLong_iff (line : Nat) (hw : startsPosition w = true) :
    readPosition line w = .error (.numberTooLong digits) ↔ w.HasLongNumber digits := by
  obtain ⟨text, hat⟩ : ∃ text, w.text.toList = '@' :: text := by
    rw [startsPosition, decide_eq_true_eq] at hw
    exact List.head?_eq_some_iff.1 hw
  rw [readPosition, Word.HasLongNumber, hat, List.drop_one, List.tail_cons]
  constructor
  · intro h
    split at h
    · simp [faultAt] at h
    · next l c hsplit =>
      obtain ⟨rfl, -⟩ := splitColon?_eq_some_iff.1 hsplit
      split at h
      · next hnum =>
        rw [Bool.and_eq_true] at hnum
        refine ⟨l, c, rfl, hnum.1, hnum.2, ?_⟩
        split at h
        · next hl =>
          simp only [Except.error.injEq, ReadError.numberTooLong.injEq] at h
          exact Or.inl ⟨hl, h.symm⟩
        · next hl =>
          split at h
          · next hc =>
            simp only [Except.error.injEq, ReadError.numberTooLong.injEq] at h
            exact Or.inr ⟨Nat.le_of_not_lt hl, hc, h.symm⟩
          · split at h <;> simp [faultAt] at h
      · simp [faultAt] at h
  · rintro ⟨l, c, htext, hl, hc, hlong⟩
    obtain rfl : text = l ++ ':' :: c := (List.cons.inj htext).2
    rw [splitColon?_eq_some_iff.2 ⟨rfl, colon_notMem_of_isNumeral hl⟩]
    simp only [hl, hc, Bool.and_self, if_true]
    rcases hlong with ⟨hlong, rfl⟩ | ⟨hle, hlong, rfl⟩
    · rw [if_pos hlong]
    · rw [if_neg (Nat.not_lt.2 hle), if_pos hlong]

lemma takePosition_eq_numberTooLong_iff (line : Nat) :
    takePosition line args = .error (.numberTooLong digits) ↔
      ∃ w, args.getLast? = some w ∧ w.HasLongNumber digits := by
  rw [takePosition]
  cases hlast : args.getLast? with
  | none => simp
  | some w =>
    simp only [Option.some.injEq, exists_eq_left']
    split
    · next hw =>
      rw [← readPosition_eq_numberTooLong_iff line hw]
      cases readPosition line w <;> simp
    · next hw =>
      -- a word with such a number begins like a position
      refine ⟨fun h => absurd h (by simp), ?_⟩
      rintro ⟨l, c, htext, -⟩
      exact absurd (by simp [startsPosition, htext]) hw

/-! ### No other part of a line fails like this -/

lemma atEnd_ne_numberTooLong {α : Type} (rest : List Word) (a : α) :
    atEnd line rest a ≠ .error (.numberTooLong digits) := by
  cases rest <;> simp [atEnd, faultAt]

lemma readBody_ne_numberTooLong :
    readBody line head args position ≠ .error (.numberTooLong digits) := by
  rw [readBody]
  split
  · next key _ =>
    cases args with
    | nil => simp [readHeader, faultAt]
    | cons value rest => exact atEnd_ne_numberTooLong rest _
  · split
    · rw [readEnter.eq_def]
      split
      · simp [faultAt]
      · split
        · simp [faultAt]
        · simp
        · split
          · exact atEnd_ne_numberTooLong _ _
          · simp [faultAt]
    · split
      · exact atEnd_ne_numberTooLong _ _
      · split
        · rw [readMention.eq_def]
          split
          · simp [faultAt]
          · split
            · exact atEnd_ne_numberTooLong _ _
            · simp [faultAt]
        · simp [faultAt]

lemma readDirective_eq_numberTooLong_iff :
    readDirective line head args = .error (.numberTooLong digits) ↔
      ∃ w, args.getLast? = some w ∧ w.HasLongNumber digits := by
  rw [← takePosition_eq_numberTooLong_iff line, readDirective]
  split
  · next ht => simp [ht, readBody_ne_numberTooLong]
  · next ht => rw [ht]; simp

end Long

namespace EventStream

variable {s s' : EventStream} {line : List Char × Nat} {rest : List (List Char × Nat)}
  {text : String} {e : ReadError} {digits : Nat}

lemma add_ne_numberTooLong {n column : Nat} (d : Directive) :
    s.add n column d ≠ .error (.numberTooLong digits) := by
  cases d with
  | header key value =>
    rw [add, addHeader]
    split
    · simp [faultAt]
    · split
      · simp [faultAt]
      · split <;> simp [faultAt]
  | event action => simp [add]

lemma readLine_eq_numberTooLong_iff :
    s.readLine line = .error (.numberTooLong digits) ↔ HasLongNumber line.1 digits := by
  rw [readLine, HasLongNumber]
  cases hw : words line.1 with
  | nil => simp
  | cons head args =>
    simp only
    constructor
    · intro h
      cases hd : readDirective line.2 head args with
      | ok d =>
        rw [hd] at h
        exact absurd h (add_ne_numberTooLong d)
      | error e =>
        obtain rfl : e = .numberTooLong digits := by simpa [hd] using h
        obtain ⟨w, hlast, hlong⟩ := readDirective_eq_numberTooLong_iff.1 hd
        exact ⟨head, args, w, rfl, hlast, hlong⟩
    · rintro ⟨head', args', w, heq, hlast, hlong⟩
      obtain ⟨rfl, rfl⟩ := List.cons.inj heq
      rw [readDirective_eq_numberTooLong_iff.2 ⟨w, hlast, hlong⟩]

/-- A sequence of lines fails as the first line that fails. -/
lemma readLines_eq_error_iff :
    s.readLines rest = .error e ↔ ∃ before line after s', rest = before ++ line :: after ∧
      s.readLines before = .ok s' ∧ s'.readLine line = .error e := by
  induction rest generalizing s with
  | nil => simp [readLines]
  | cons line rest ih =>
    rw [readLines]
    cases hs : s.readLine line with
    | error e' =>
      simp only
      constructor
      · rintro ⟨rfl⟩
        exact ⟨[], line, rest, s, rfl, rfl, hs⟩
      · rintro ⟨before, line', after, s', heq, hbefore, hline⟩
        cases before with
        | nil =>
          obtain ⟨rfl, -⟩ := List.cons.inj heq
          obtain rfl := Except.ok.inj hbefore
          exact hs.symm.trans hline
        | cons first before =>
          obtain ⟨rfl, -⟩ := List.cons.inj heq
          simp [readLines, hs] at hbefore
    | ok s₁ =>
      simp only
      rw [ih]
      constructor
      · rintro ⟨before, line', after, s', rfl, hbefore, hline⟩
        refine ⟨line :: before, line', after, s', rfl, ?_, hline⟩
        simpa [readLines, hs] using hbefore
      · rintro ⟨before, line', after, s', heq, hbefore, hline⟩
        cases before with
        | nil =>
          obtain ⟨rfl, -⟩ := List.cons.inj heq
          obtain rfl := Except.ok.inj hbefore
          simp [hs] at hline
        | cons first before =>
          obtain ⟨rfl, rfl⟩ := List.cons.inj heq
          refine ⟨before, line', after, s', rfl, ?_, hline⟩
          simpa [readLines, hs] using hbefore

/-- The one failure that is no fault of a word. -/
lemma read_eq_numberTooLong_iff :
    read text = .error (.numberTooLong digits) ↔ ReachesLongNumber text digits := by
  simp only [read, readLines_eq_error_iff, readLine_eq_numberTooLong_iff, ReachesLongNumber,
    numberedLines]

end EventStream

end TargetScope
