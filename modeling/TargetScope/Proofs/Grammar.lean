import Mathlib.Tactic.Simproc.ExistsAndEq
import TargetScope.Proofs.Reading

/-!
# The grammar of event files

What a line of an event file says depends only on the texts of its words (`Text.row`): they spell a
header or an event (`Content.SpelledBy`), with a position at the end if the last word, other than
the first, begins with an at sign.  The grammar is unambiguous (`Content.SpelledBy.unique`).

What is read off a line is what its row says (`spelledBy_of_readDirective`), and what a row says can
be read, if no number has too many digits (`Content.SpelledBy.exists_readDirective`).
-/

namespace TargetScope

open Text

/-- The texts of the words of a line. -/
def Text.row (line : List Char) : List String :=
  (words line).map Word.text

/-- What a line of an event file can say. -/
inductive Content where
  /-- A header has a value. -/
  | header (key : HeaderKey) (value : String)
  /-- Something happens. -/
  | event (action : Action)
deriving DecidableEq, Repr

/-- The word spells the position: an at sign, and the line and the column with a colon between them,
each in ASCII digits and at least one. -/
def Position.SpelledBy (p : Position) (word : String) : Prop :=
  ∃ l c : List Char, word.toList = '@' :: l ++ ':' :: c ∧
    isNumeral l = true ∧ isNumeral c = true ∧ 1 ≤ numeralValue l ∧ 1 ≤ numeralValue c ∧
    p = ⟨numeralValue l, numeralValue c⟩

/-- The two numbers of a position can be told apart. -/
lemma numerals_unique {l c l' c' : List Char} (hl : isNumeral l = true) (hl' : isNumeral l' = true)
    (h : '@' :: l ++ ':' :: c = '@' :: l' ++ ':' :: c') : l = l' ∧ c = c' := by
  have hparts : l ++ ':' :: c = l' ++ ':' :: c' := (List.cons.inj h).2
  have hsplit := splitColon?_eq_some_iff.2 ⟨hparts, colon_notMem_of_isNumeral hl'⟩
  rw [splitColon?_eq_some_iff.2 ⟨rfl, colon_notMem_of_isNumeral hl⟩] at hsplit
  exact Prod.mk.inj (Option.some.inj hsplit)

namespace Position.SpelledBy

variable {p p' : Position} {word : String}

lemma head?_eq (h : p.SpelledBy word) : word.toList.head? = some '@' := by
  obtain ⟨l, c, htext, -⟩ := h
  rw [htext]
  rfl

/-- A word spells at most one position. -/
lemma unique (h : p.SpelledBy word) (h' : p'.SpelledBy word) : p = p' := by
  obtain ⟨l, c, htext, hl, -, -, -, rfl⟩ := h
  obtain ⟨l', c', htext', hl', -, -, -, rfl⟩ := h'
  obtain ⟨rfl, rfl⟩ := numerals_unique hl hl' (htext.symm.trans htext')
  rfl

end Position.SpelledBy

namespace Content

/-- The rows that say something about the given position. -/
inductive Phrase (position : Option Position) : List String → Content → Prop
  /-- A scope is entered that has no label. -/
  | enter {word : String} {kind : ScopeKind} (hkind : ScopeKind.ofKeyword? word = some kind) :
      Phrase position ["enter", word] (.event (.enter kind none position))
  /-- A scope is entered that has a label. -/
  | enterLabelled {word label : String} {kind : ScopeKind}
      (hkind : ScopeKind.ofKeyword? word = some kind)
      (hlabel : isDottedName label.toList = true) :
      Phrase position ["enter", word, label] (.event (.enter kind (some label) position))
  /-- The innermost scope is left; where that is does not matter. -/
  | exit : Phrase position ["exit"] (.event .exit)
  /-- A name is mentioned. -/
  | mention {word name : String} {how : Mention} (hhow : Mention.ofKeyword? word = some how)
      (hname : isIdentifier name.toList = true) :
      Phrase position [word, name] (.event (.mention name how position))
  /-- The name of the unit. -/
  | unit {label : String} (hlabel : isDottedName label.toList = true) :
      Phrase position ["unit", label] (.header .unit label)
  /-- The source file. -/
  | source {word : String} : Phrase position ["source", word] (.header .source word)

/-- The rows that say something: a phrase with a position behind it, or a phrase alone, the last
word of which must not look like a position unless it is the first. -/
inductive SpelledBy : Content → List String → Prop
  | unplaced {row : List String} {content : Content}
      (hlast : ∀ word ∈ row.tail.getLast?, word.toList.head? ≠ some '@')
      (hphrase : Phrase none row content) : SpelledBy content row
  | placed {row : List String} {word : String} {p : Position} {content : Content}
      (hword : p.SpelledBy word) (hphrase : Phrase (some p) row content) :
      SpelledBy content (row ++ [word])

variable {position : Option Position} {row : List String} {content content' : Content}
  {p : Position} {word : String}

/-! ### The grammar is unambiguous -/

lemma Phrase.unique (h : Phrase position row content) (h' : Phrase position row content') :
    content = content' := by
  have henter : Mention.ofKeyword? "enter" = none := by decide
  have hunit : Mention.ofKeyword? "unit" = none := by decide
  have hsource : Mention.ofKeyword? "source" = none := by decide
  generalize hrow : row = row' at h'
  cases h <;> cases h' <;> simp_all

lemma Phrase.exists_cons (h : Phrase position row content) : ∃ word rest, row = word :: rest := by
  cases h <;> exact ⟨_, _, rfl⟩

/-- A row cannot be a phrase alone and have a position at its end. -/
lemma Phrase.not_unplaced_concat (h : Phrase position row content) (hword : p.SpelledBy word) :
    ¬∀ w ∈ (row ++ [word]).tail.getLast?, w.toList.head? ≠ some '@' := by
  obtain ⟨first, rest, rfl⟩ := h.exists_cons
  intro hlast
  exact hlast word (by simp) hword.head?_eq

/-- A row says at most one thing. -/
lemma SpelledBy.unique (h : content.SpelledBy row) (h' : content'.SpelledBy row) :
    content = content' := by
  cases h with
  | unplaced hlast hphrase =>
    cases h' with
    | unplaced _ hphrase' => exact hphrase.unique hphrase'
    | placed hword hphrase' => exact absurd hlast (hphrase'.not_unplaced_concat hword)
  | @placed row word p _ hword hphrase =>
    generalize hrow : row ++ [word] = full at h'
    cases h' with
    | unplaced hlast _ => exact absurd (hrow ▸ hlast) (hphrase.not_unplaced_concat hword)
    | placed hword' hphrase' =>
      obtain ⟨rfl, hw⟩ := List.append_inj' hrow rfl
      obtain rfl := (List.cons.inj hw).1
      rw [hword.unique hword'] at hphrase
      exact hphrase.unique hphrase'

lemma SpelledBy.iff_eq (h : content.SpelledBy row) :
    content'.SpelledBy row ↔ content' = content :=
  ⟨fun h' => h'.unique h, fun heq => heq ▸ h⟩

lemma SpelledBy.ne_nil (h : content.SpelledBy row) : row ≠ [] := by
  cases h with
  | unplaced _ hphrase =>
    obtain ⟨word, rest, rfl⟩ := hphrase.exists_cons
    simp
  | placed _ _ => simp

end Content

/-! ## Reading one line -/

/-- What a directive says. -/
def Directive.content : Directive → Content
  | header key value => .header key value.text
  | event action => .event action

/-- The value of a header is what such a value can be. -/
def Content.Admissible : Content → Prop
  | header .unit value => isDottedName value.toList = true
  | header .source _ => True
  | event _ => True

section Line

variable {line : Nat} {w head : Word} {args body : List Word} {position : Option Position}
  {p : Position} {content : Content} {d : Directive}

lemma readPosition_eq_ok_iff (hw : startsPosition w = true) :
    readPosition line w = .ok p ↔ p.SpelledBy w.text ∧ ∀ digits, ¬w.HasLongNumber digits := by
  have hlong : ∀ digits, readPosition line w = .error (.numberTooLong digits) ↔
      w.HasLongNumber digits := fun _ => readPosition_eq_numberTooLong_iff line hw
  obtain ⟨text, hat⟩ : ∃ text, w.text.toList = '@' :: text := by
    rw [startsPosition, decide_eq_true_eq] at hw
    exact List.head?_eq_some_iff.1 hw
  simp only [← hlong]
  rw [readPosition, Position.SpelledBy, hat, List.drop_one, List.tail_cons]
  constructor
  · intro h
    split at h
    · simp [faultAt] at h
    · next l c hsplit =>
      obtain ⟨rfl, -⟩ := splitColon?_eq_some_iff.1 hsplit
      split at h
      · next hnum =>
        rw [Bool.and_eq_true] at hnum
        split at h
        · simp at h
        · split at h
          · simp at h
          · split at h
            · simp [faultAt] at h
            · next hl hc hzero =>
              obtain rfl := Except.ok.inj h
              refine ⟨⟨l, c, rfl, hnum.1, hnum.2, by omega, by omega, rfl⟩, ?_⟩
              simp [hnum, hl, hc, hzero]
      · simp [faultAt] at h
  · rintro ⟨⟨l, c, htext, hl, hc, hlpos, hcpos, rfl⟩, hdigits⟩
    obtain rfl : text = l ++ ':' :: c := (List.cons.inj htext).2
    rw [splitColon?_eq_some_iff.2 ⟨rfl, colon_notMem_of_isNumeral hl⟩] at hdigits ⊢
    simp only [hl, hc, Bool.and_self, if_true] at hdigits ⊢
    split at hdigits
    · exact absurd rfl (hdigits _)
    · next hllen =>
      split at hdigits
      · exact absurd rfl (hdigits _)
      · next hclen => rw [if_neg hllen, if_neg hclen, if_neg (by omega)]

lemma takePosition_eq_ok_iff :
    takePosition line args = .ok (body, position) ↔
      (position = none ∧ args = body ∧ ∀ w ∈ args.getLast?, startsPosition w = false) ∨
        ∃ w p, position = some p ∧ args = body ++ [w] ∧ p.SpelledBy w.text ∧
          ∀ digits, ¬w.HasLongNumber digits := by
  rw [takePosition]
  cases hlast : args.getLast? with
  | none =>
    obtain rfl := List.getLast?_eq_none_iff.1 hlast
    simp only [Except.ok.injEq, Prod.mk.injEq]
    constructor
    · rintro ⟨rfl, rfl⟩
      exact Or.inl ⟨rfl, rfl, by simp⟩
    · rintro (⟨rfl, rfl, -⟩ | ⟨w, p, -, hargs, -⟩)
      · exact ⟨rfl, rfl⟩
      · simp at hargs
  | some w =>
    obtain ⟨init, rfl⟩ := List.getLast?_eq_some_iff.1 hlast
    have hbody : ∀ w', init ++ [w] = body ++ [w'] ↔ init = body ∧ w = w' := by
      simp
    cases hw : startsPosition w with
    | false =>
      -- a word that spells a position begins like one
      have hspell : ∀ p : Position, ¬p.SpelledBy w.text := by
        intro p hp
        simp [startsPosition, hp.head?_eq] at hw
      simp only [hw, Bool.false_eq_true, if_false, Except.ok.injEq, Prod.mk.injEq, hbody]
      constructor
      · rintro ⟨rfl, rfl⟩
        exact Or.inl ⟨rfl, rfl, by simpa using hw⟩
      · rintro (⟨rfl, rfl, -⟩ | ⟨w', p, -, ⟨-, rfl⟩, hp, -⟩)
        · exact ⟨rfl, rfl⟩
        · exact absurd hp (hspell p)
    | true =>
      have hread : ∀ p, readPosition line w = .ok p ↔
          p.SpelledBy w.text ∧ ∀ digits, ¬w.HasLongNumber digits := fun _ =>
        readPosition_eq_ok_iff hw
      simp only [hw, if_true, List.dropLast_concat, hbody]
      constructor
      · intro h
        split at h
        · next p hp =>
          obtain ⟨rfl, rfl⟩ := Prod.mk.inj (Except.ok.inj h)
          obtain ⟨hspell, hlong⟩ := (hread p).1 hp
          exact Or.inr ⟨w, p, rfl, ⟨rfl, rfl⟩, hspell, hlong⟩
        · simp at h
      · rintro (⟨-, -, hno⟩ | ⟨w', p, rfl, ⟨rfl, rfl⟩, hspell, hlong⟩)
        · simp [hw] at hno
        · rw [(hread p).2 ⟨hspell, hlong⟩]

/-! ### One lemma for each function -/

lemma atEnd_eq_ok_iff {α : Type} {rest : List Word} {a b : α} :
    atEnd line rest a = .ok b ↔ rest = [] ∧ b = a := by
  cases rest with
  | nil => simp [atEnd, eq_comm]
  | cons w rest => simp [atEnd, faultAt]

lemma readHeader_eq_ok_iff {key : HeaderKey} :
    readHeader line head key args = .ok d ↔ ∃ value, args = [value] ∧ d = .header key value := by
  cases args with
  | nil => simp [readHeader, faultAt]
  | cons value rest => simp [readHeader, atEnd_eq_ok_iff]

lemma readEnter_eq_ok_iff :
    readEnter line head position args = .ok d ↔
      (∃ w kind, args = [w] ∧ ScopeKind.ofKeyword? w.text = some kind ∧
          d = .event (.enter kind none position)) ∨
        ∃ w label kind, args = [w, label] ∧ ScopeKind.ofKeyword? w.text = some kind ∧
          isDottedName label.text.toList = true ∧
          d = .event (.enter kind (some label.text) position) := by
  cases args with
  | nil => simp [readEnter, faultAt]
  | cons w rest =>
    cases hkind : ScopeKind.ofKeyword? w.text with
    | none => simp [readEnter, faultAt, hkind]
    | some kind =>
      cases rest with
      | nil => simp [readEnter, hkind, @eq_comm _ d]
      | cons label rest =>
        simp only [readEnter, hkind]
        split
        · next hlabel => simp [atEnd_eq_ok_iff, hkind, hlabel]
        · next hlabel => simp [faultAt, hlabel]

lemma readMention_eq_ok_iff {how : Mention} :
    readMention line head how position args = .ok d ↔
      ∃ name, args = [name] ∧ isIdentifier name.text.toList = true ∧
        d = .event (.mention name.text how position) := by
  cases args with
  | nil => simp [readMention, faultAt]
  | cons name rest =>
    rw [readMention]
    split
    · next hname => simp [atEnd_eq_ok_iff, hname]
    · next hname => simp [faultAt, hname]

lemma HeaderKey.ofKeyword?_eq_some {key : HeaderKey} {word : String}
    (h : HeaderKey.ofKeyword? word = some key) : word = key.keyword := by
  rw [HeaderKey.ofKeyword?] at h
  split at h
  · obtain rfl := Option.some.inj h
    assumption
  · split at h
    · obtain rfl := Option.some.inj h
      assumption
    · simp at h

/-- The words for mentions begin no other directive. -/
lemma Mention.ne_of_ofKeyword? {how : Mention} {word : String}
    (h : Mention.ofKeyword? word = some how) :
    HeaderKey.ofKeyword? word = none ∧ word ≠ "enter" ∧ word ≠ "exit" := by
  have hnone : ∀ other : String, Mention.ofKeyword? other = none → word ≠ other := by
    rintro other hother rfl
    simp [hother] at h
  refine ⟨?_, hnone _ (by decide), hnone _ (by decide)⟩
  rw [HeaderKey.ofKeyword?, if_neg (hnone _ (by decide)), if_neg (hnone _ (by decide))]

/-! ### All parts of a line -/

/-- What is read off the words without the position is what they say. -/
lemma phrase_of_readBody (h : readBody line head body position = .ok d)
    (hadm : d.content.Admissible) :
    Content.Phrase position (head.text :: body.map Word.text) d.content := by
  rw [readBody] at h
  split at h
  · next key hkey =>
    obtain ⟨value, rfl, rfl⟩ := readHeader_eq_ok_iff.1 h
    rw [HeaderKey.ofKeyword?_eq_some hkey]
    cases key with
    | unit => exact .unit hadm
    | source => exact .source
  · split at h
    · next hhead =>
      rw [hhead]
      rcases readEnter_eq_ok_iff.1 h with ⟨w, kind, rfl, hkind, rfl⟩ |
        ⟨w, label, kind, rfl, hkind, hlabel, rfl⟩
      · exact .enter hkind
      · exact .enterLabelled hkind hlabel
    · split at h
      · next hhead =>
        obtain ⟨rfl, rfl⟩ := atEnd_eq_ok_iff.1 h
        rw [hhead]
        exact .exit
      · split at h
        · next how hhow =>
          obtain ⟨name, rfl, hname, rfl⟩ := readMention_eq_ok_iff.1 h
          exact .mention hhow hname
        · simp [faultAt] at h

/-- What the words say can be read off them. -/
lemma Content.Phrase.exists_readBody
    (h : Content.Phrase position (head.text :: body.map Word.text) content) :
    ∃ d, readBody line head body position = .ok d ∧ d.content = content ∧
      content.Admissible := by
  generalize hrow : head.text :: body.map Word.text = row at h
  cases h with
  | @enter word kind hkind =>
    simp only [List.cons.injEq, List.map_eq_cons_iff, List.map_eq_nil_iff] at hrow
    obtain ⟨hhead, w, rest, rfl, rfl, rfl⟩ := hrow
    refine ⟨.event (.enter kind none position), ?_, rfl, trivial⟩
    simp [readBody, hhead, HeaderKey.ofKeyword?, readEnter_eq_ok_iff, hkind]
  | @enterLabelled word label kind hkind hlabel =>
    simp only [List.cons.injEq, List.map_eq_cons_iff, List.map_eq_nil_iff] at hrow
    obtain ⟨hhead, w, rest, rfl, rfl, l, rest, rfl, rfl, rfl⟩ := hrow
    refine ⟨.event (.enter kind (some l.text) position), ?_, rfl, trivial⟩
    simp [readBody, hhead, HeaderKey.ofKeyword?, readEnter_eq_ok_iff, hkind, hlabel]
  | exit =>
    simp only [List.cons.injEq, List.map_eq_nil_iff] at hrow
    obtain ⟨hhead, rfl⟩ := hrow
    refine ⟨.event .exit, ?_, rfl, trivial⟩
    simp [readBody, hhead, HeaderKey.ofKeyword?, atEnd]
  | @mention word name how hhow hname =>
    simp only [List.cons.injEq, List.map_eq_cons_iff, List.map_eq_nil_iff] at hrow
    obtain ⟨rfl, w, rest, rfl, rfl, rfl⟩ := hrow
    obtain ⟨hkey, henter, hexit⟩ := Mention.ne_of_ofKeyword? hhow
    refine ⟨.event (.mention w.text how position), ?_, rfl, trivial⟩
    simp [readBody, hkey, henter, hexit, hhow, readMention_eq_ok_iff, hname]
  | unit hlabel =>
    simp only [List.cons.injEq, List.map_eq_cons_iff, List.map_eq_nil_iff] at hrow
    obtain ⟨hhead, w, rest, rfl, rfl, rfl⟩ := hrow
    refine ⟨.header .unit w, ?_, rfl, hlabel⟩
    simp [readBody, hhead, HeaderKey.ofKeyword?, readHeader_eq_ok_iff]
  | source =>
    simp only [List.cons.injEq, List.map_eq_cons_iff, List.map_eq_nil_iff] at hrow
    obtain ⟨hhead, w, rest, rfl, rfl, rfl⟩ := hrow
    refine ⟨.header .source w, ?_, rfl, trivial⟩
    simp [readBody, hhead, HeaderKey.ofKeyword?, readHeader_eq_ok_iff]

/-- The last word is a position with a number of too many digits. -/
def EndsInLongNumber (args : List Word) : Prop :=
  ∃ w digits, args.getLast? = some w ∧ w.HasLongNumber digits

lemma startsPosition_of_hasLongNumber {digits : Nat} (h : w.HasLongNumber digits) :
    startsPosition w = true := by
  obtain ⟨l, c, htext, -⟩ := h
  simp [startsPosition, htext]

/-- The words after the first end without a position if the row does. -/
lemma unplaced_iff :
    (∀ word ∈ (head.text :: args.map Word.text).tail.getLast?, word.toList.head? ≠ some '@') ↔
      ∀ w ∈ args.getLast?, startsPosition w = false := by
  simp [List.getLast?_map, startsPosition]

/-- What is read off a line is what its row says. -/
lemma spelledBy_of_readDirective (h : readDirective line head args = .ok d)
    (hadm : d.content.Admissible) :
    d.content.SpelledBy (head.text :: args.map Word.text) ∧ ¬EndsInLongNumber args := by
  rw [readDirective] at h
  split at h
  · next body position htake =>
    have hphrase := phrase_of_readBody h hadm
    rcases takePosition_eq_ok_iff.1 htake with ⟨rfl, rfl, hlast⟩ |
      ⟨w, p, rfl, rfl, hspell, hlong⟩
    · refine ⟨.unplaced (unplaced_iff.2 hlast) hphrase, ?_⟩
      rintro ⟨w, digits, hw, hdigits⟩
      exact absurd (startsPosition_of_hasLongNumber hdigits) (by simp [hlast w hw])
    · refine ⟨?_, ?_⟩
      · rw [List.map_append, ← List.cons_append]
        exact .placed hspell hphrase
      · rintro ⟨w', digits, hw', hdigits⟩
        simp only [List.getLast?_concat, Option.some.injEq] at hw'
        exact hlong digits (hw' ▸ hdigits)
  · simp at h

/-- What a row says can be read. -/
lemma Content.SpelledBy.exists_readDirective (line : Nat)
    (h : content.SpelledBy (head.text :: args.map Word.text)) (hlong : ¬EndsInLongNumber args) :
    ∃ d, readDirective line head args = .ok d ∧ d.content = content ∧ content.Admissible := by
  generalize hrow : head.text :: args.map Word.text = row at h
  cases h with
  | unplaced hlast hphrase =>
    subst hrow
    have htake : takePosition line args = .ok (args, none) :=
      takePosition_eq_ok_iff.2 (Or.inl ⟨rfl, rfl, unplaced_iff.1 hlast⟩)
    simpa only [readDirective, htake] using hphrase.exists_readBody
  | @placed row word p _ hspell hphrase =>
    obtain ⟨first, rest, rfl⟩ := hphrase.exists_cons
    obtain ⟨rfl, hargs⟩ := List.cons.inj hrow
    obtain ⟨body, last, rfl, rfl, hword⟩ := List.map_eq_append_iff.1 hargs
    obtain ⟨w, others, rfl, rfl, hnil⟩ := List.map_eq_cons_iff.1 hword
    obtain rfl := List.map_eq_nil_iff.1 hnil
    have htake : takePosition line (body ++ [w]) = .ok (body, some p) :=
      takePosition_eq_ok_iff.2 <| Or.inr ⟨w, p, rfl, rfl, hspell,
        fun digits hdigits => hlong ⟨w, digits, by simp, hdigits⟩⟩
    simpa only [readDirective, htake] using hphrase.exists_readBody

end Line

end TargetScope
