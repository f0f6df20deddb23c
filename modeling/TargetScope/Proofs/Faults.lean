import TargetScope.Proofs.Grammar
import TargetScope.Proofs.Places

/-!
# Where the fault of an event file is found

A fault is found in a word of a line, and reported with the number of the line and the column of
this word (`EventStream.isIn_readLine`); there is one lemma for each function that reads a part of
a line, and one predicate that they all speak of (`ReadError.IsIn`).

The faulty line is the first that cannot be read behind the lines before it, so what follows it
does not matter.  The main result is `EventStream.read_locates_fault`.
-/

namespace TargetScope

open Text

/-- The word in which a fault is found: that which is wrong, or that behind which something is
missing, or the first of a header that is out of place. -/
def SyntaxFault.word : SyntaxFault → String
  | unknownDirective word | unknownKind word | malformedPosition word | positionOutOfRange word
  | trailingWord word | invalidLabel word | invalidName word | invalidUnitName word => word
  | missingKind => "enter"
  | missingName directive => directive
  | missingValue key | misplacedHeader key | duplicateHeader key => key.keyword

/-- The failure is a fault that is found in one of the words, on the line of the given number; or
it is no fault of a word. -/
def ReadError.IsIn (line : Nat) (ws : List Word) : ReadError → Prop
  | malformed e => e.line = line ∧ ∃ w ∈ ws, w.column = e.column ∧ w.text = e.fault.word
  | numberTooLong _ => True

section Line

variable {α : Type} {line : Nat} {ws ws' args : List Word} {w head : Word} {e : ReadError}
  {fault : SyntaxFault} {position : Option Position}

lemma ReadError.IsIn.mono (h : e.IsIn line ws) (hsub : ws ⊆ ws') : e.IsIn line ws' := by
  cases e with
  | malformed e =>
    obtain ⟨hline, w, hw, hcolumn, hword⟩ := h
    exact ⟨hline, w, hsub hw, hcolumn, hword⟩
  | numberTooLong digits => trivial

/-- A fault that is reported at the column of a word. -/
lemma isIn_faultAt (h : (faultAt line w.column fault : Except ReadError α) = .error e)
    (hw : w ∈ ws) (hword : w.text = fault.word) : e.IsIn line ws := by
  obtain rfl := Except.error.inj h
  exact ⟨rfl, w, hw, rfl, hword⟩

/-! ## One lemma for each function -/

lemma isIn_readPosition (h : readPosition line w = .error e) : e.IsIn line [w] := by
  have hw : w ∈ [w] := List.mem_singleton_self w
  rw [readPosition] at h
  split at h
  · exact isIn_faultAt h hw rfl
  · split at h
    · split at h
      · obtain rfl := Except.error.inj h
        trivial
      · split at h
        · obtain rfl := Except.error.inj h
          trivial
        · split at h
          · exact isIn_faultAt h hw rfl
          · simp at h
    · exact isIn_faultAt h hw rfl

lemma isIn_takePosition (h : takePosition line args = .error e) : e.IsIn line args := by
  rw [takePosition] at h
  split at h
  · simp at h
  · next w hlast =>
    split at h
    · split at h
      · simp at h
      · next e' hread =>
        obtain rfl := Except.error.inj h
        refine (isIn_readPosition hread).mono ?_
        simpa using List.mem_of_getLast? hlast
    · simp at h

/-- The words without the position are some of them. -/
lemma subset_of_takePosition {body : List Word}
    (h : takePosition line args = .ok (body, position)) : body ⊆ args := by
  rcases takePosition_eq_ok_iff.1 h with ⟨-, rfl, -⟩ | ⟨w, p, -, rfl, -⟩
  · exact List.Subset.refl _
  · exact List.subset_append_left _ _

lemma isIn_atEnd {a : α} (h : atEnd line ws a = .error e) : e.IsIn line ws := by
  cases ws with
  | nil => simp [atEnd] at h
  | cons w rest => exact isIn_faultAt h List.mem_cons_self rfl

lemma isIn_readHeader {key : HeaderKey} (hkey : head.text = key.keyword)
    (h : readHeader line head key args = .error e) : e.IsIn line (head :: args) := by
  cases args with
  | nil => exact isIn_faultAt h List.mem_cons_self hkey
  | cons value rest => exact (isIn_atEnd h).mono (by simp)

lemma isIn_readEnter (hhead : head.text = "enter")
    (h : readEnter line head position args = .error e) : e.IsIn line (head :: args) := by
  cases args with
  | nil => exact isIn_faultAt h List.mem_cons_self hhead
  | cons kind rest =>
    cases hkind : ScopeKind.ofKeyword? kind.text with
    | none =>
      simp only [readEnter, hkind] at h
      exact isIn_faultAt h (by simp) rfl
    | some k =>
      cases rest with
      | nil => simp [readEnter, hkind] at h
      | cons label rest =>
        simp only [readEnter, hkind] at h
        split at h
        · exact (isIn_atEnd h).mono fun w hw => by simp [hw]
        · exact isIn_faultAt h (by simp) rfl

lemma isIn_readMention {how : Mention} (h : readMention line head how position args = .error e) :
    e.IsIn line (head :: args) := by
  cases args with
  | nil => exact isIn_faultAt h List.mem_cons_self rfl
  | cons name rest =>
    rw [readMention] at h
    split at h
    · exact (isIn_atEnd h).mono (by simp)
    · exact isIn_faultAt h (by simp) rfl

lemma isIn_readBody (h : readBody line head args position = .error e) :
    e.IsIn line (head :: args) := by
  rw [readBody] at h
  split at h
  · next key hkey => exact isIn_readHeader (HeaderKey.ofKeyword?_eq_some hkey) h
  · split at h
    · next hhead => exact isIn_readEnter hhead h
    · split at h
      · exact (isIn_atEnd h).mono (by simp)
      · split at h
        · exact isIn_readMention h
        · exact isIn_faultAt h List.mem_cons_self rfl

lemma isIn_readDirective (h : readDirective line head args = .error e) :
    e.IsIn line (head :: args) := by
  rw [readDirective] at h
  split at h
  · next body position htake =>
    exact (isIn_readBody h).mono (List.cons_subset_cons head (subset_of_takePosition htake))
  · next e' htake =>
    obtain rfl := Except.error.inj h
    exact (isIn_takePosition htake).mono (List.subset_cons_self head args)

/-- The words of a header are among those of its line. -/
lemma header_of_readDirective {key : HeaderKey} {value : Word}
    (h : readDirective line head args = .ok (.header key value)) :
    head.text = key.keyword ∧ value ∈ args := by
  rw [readDirective] at h
  split at h
  · next body position htake =>
    rw [readBody] at h
    split at h
    · next key' hkey =>
      obtain ⟨value', rfl, heq⟩ := readHeader_eq_ok_iff.1 h
      obtain ⟨rfl, rfl⟩ := Directive.header.inj heq
      exact ⟨HeaderKey.ofKeyword?_eq_some hkey,
        subset_of_takePosition htake List.mem_cons_self⟩
    · -- no other directive is a header
      split at h
      · rcases readEnter_eq_ok_iff.1 h with ⟨w, kind, -, -, heq⟩ | ⟨w, label, kind, -, -, -, heq⟩
        · simp at heq
        · simp at heq
      · split at h
        · simp [atEnd_eq_ok_iff] at h
        · split at h
          · obtain ⟨name, -, -, heq⟩ := readMention_eq_ok_iff.1 h
            simp at heq
          · simp [faultAt] at h
  · simp at h

end Line

namespace EventStream

variable {s : EventStream} {line : List Char × Nat} {e : ReadError}

lemma isIn_addHeader {n : Nat} {head value : Word} {key : HeaderKey} {ws : List Word}
    (hkey : head.text = key.keyword) (hhead : head ∈ ws) (hvalue : value ∈ ws)
    (h : s.addHeader n head.column key value = .error e) : e.IsIn n ws := by
  rw [addHeader] at h
  split at h
  · exact isIn_faultAt h hhead hkey
  · split at h
    · exact isIn_faultAt h hhead hkey
    · split at h
      · exact isIn_faultAt h hvalue rfl
      · simp at h

/-- The fault of a line is found in one of its words. -/
lemma isIn_readLine (h : s.readLine line = .error e) : e.IsIn line.2 (words line.1) := by
  rw [readLine] at h
  split at h
  · simp at h
  · next head args hwords =>
    rw [hwords]
    split at h
    · next d hread =>
      cases d with
      | header key value =>
        obtain ⟨hkey, hvalue⟩ := header_of_readDirective hread
        exact isIn_addHeader hkey List.mem_cons_self (List.mem_cons_of_mem _ hvalue) h
      | event action => simp [add] at h
    · next e' hread =>
      obtain rfl := Except.error.inj h
      exact isIn_readDirective hread

/-- The line that fails is the first that cannot be read behind those before it, and what follows it
does not matter. -/
lemma read_eq_error_iff {text : String} :
    read text = .error e ↔ ∃ before line after s, lines text.toList = before ++ line :: after ∧
      readLines {} (before.zipIdx 1) = .ok s ∧ s.readLine (line, before.length + 1) = .error e := by
  rw [read, readLines_eq_error_iff]
  constructor
  · rintro ⟨_, _, _, s, hlines, hbefore, hline⟩
    obtain ⟨before, rest, heq, rfl, hrest⟩ := List.zipIdx_eq_append_iff.1 hlines
    obtain ⟨line, after, rfl, rfl, rfl⟩ := List.zipIdx_eq_cons_iff.1 hrest.symm
    exact ⟨before, line, after, s, heq, hbefore, by rwa [Nat.add_comm]⟩
  · rintro ⟨before, line, after, s, heq, hbefore, hline⟩
    refine ⟨before.zipIdx 1, (line, before.length + 1), after.zipIdx (before.length + 2), s, ?_,
      hbefore, hline⟩
    rw [heq, List.zipIdx_append, List.zipIdx_cons, Nat.add_comm 1]

/-- Where a fault is found.

The line number of a fault is that of a line of the text, and the column that of a word of this
line: the word of which the fault speaks.  If the text is cut in front of the line, then the first
part can be read.  If it is cut behind the line, then the first part has the same fault at the same
place, whatever follows it on further lines. -/
theorem read_locates_fault {text : String} {e : SyntaxError}
    (h : read text = .error (.malformed e)) :
    1 ≤ e.line ∧ e.line ≤ (lines text.toList).length ∧
    ∃ before line after : String, text = before ++ line ++ after ∧
      (lines text.toList)[e.line - 1]? = some line.toList ∧
      lines before.toList = (lines text.toList).take (e.line - 1) ∧
      (∃ w ∈ words line.toList, w.column = e.column ∧ w.text = e.fault.word ∧
        w.StandsIn line.toList) ∧
      (∃ s, read before = .ok s) ∧
      ∀ rest : String, Stops rest.toList →
        read (before ++ line ++ rest) = .error (.malformed e) := by
  obtain ⟨before, line, after, s, heq, hbefore, hline⟩ := read_eq_error_iff.1 h
  obtain ⟨hnumber, w, hw, hcolumn, hword⟩ := isIn_readLine hline
  have hget : (lines text.toList)[before.length]? = some line := by simp [heq]
  have htake : (lines text.toList).take before.length = before := by simp [heq]
  obtain ⟨front, back, htext, hfront, hends, hstops⟩ := exists_cut hget
  rw [htake] at hfront
  have hstands : w.StandsIn line := Word.standsIn_of_mem_words hw
  have hunbroken : ∀ c ∈ line, isLineBreak c = false := fun c hc =>
    isLineBreak_of_mem_lines (List.mem_of_getElem? hget) hc
  have hpred : e.line - 1 = before.length := by
    rw [hnumber, Nat.add_sub_cancel]
  refine ⟨by omega, ?_, String.ofList front, String.ofList line, String.ofList back, ?_, ?_, ?_,
    ⟨w, by simpa using hw, hcolumn, hword, by simpa using hstands⟩, ⟨s, ?_⟩, fun rest hrest => ?_⟩
  · rw [hnumber, heq, List.length_append, List.length_cons]
    omega
  · rw [← String.toList_inj]
    simpa using htext
  · rw [hpred, hget, String.toList_ofList]
  · rw [hpred, htake, String.toList_ofList, hfront]
  · rw [read, String.toList_ofList, hfront, hbefore]
  · obtain ⟨more, hmore⟩ := exists_lines_of_cut hends hstands.ne_nil hunbroken hrest
    refine read_eq_error_iff.2 ⟨before, line, more, s, ?_, hbefore, hline⟩
    simpa [hfront] using hmore

/-- A text whose third line has two faults, and is followed by one more. -/
def threeFaults : String :=
  "unit app\r\nenter module m\r\n  bind 1x y @1:1 # here\nleave\n"

/-- The first of them is reported, and also if the text ends behind it. -/
theorem read_locates_fault_threeFaults :
    read threeFaults = .error (.malformed ⟨.invalidName "1x", 3, 8⟩) ∧
    ∃ before line after : String, threeFaults = before ++ line ++ after ∧
      line = "  bind 1x y @1:1 # here" ∧ (∃ w ∈ words line.toList, w.column = 8 ∧ w.text = "1x") ∧
      (∃ s, read before = .ok s) ∧
      read (before ++ line ++ "\n") = .error (.malformed ⟨.invalidName "1x", 3, 8⟩) := by
  have hread : read threeFaults = .error (.malformed ⟨.invalidName "1x", 3, 8⟩) := by
    decide +kernel
  obtain ⟨-, -, before, line, after, htext, hline, -, ⟨w, hw, hcolumn, hword, -⟩, hbefore, hcut⟩ :=
    read_locates_fault hread
  have hthird : (lines threeFaults.toList)[2]? = some "  bind 1x y @1:1 # here".toList := by
    decide +kernel
  have heq : line = "  bind 1x y @1:1 # here" := by
    rw [← String.toList_inj]
    exact Option.some.inj (hline.symm.trans hthird)
  exact ⟨hread, before, line, after, htext, heq, ⟨w, hw, hcolumn, hword⟩, hbefore,
    hcut "\n" (by simp [Stops]; decide)⟩

end EventStream

end TargetScope
