import TargetScope.Command.Run
import TargetScope.Proofs.Writing

/-!
# The event file that a command writes

The task `events` writes the stream that it has loaded, with indented lines.  The reader takes this
text for the same stream if it can take the source for one word, that is, if the source holds no
blank and no number sign and does not begin with an at sign
(`Command.exists_read_output_of_events`).

The source need not be such a word.  A relative source is loaded as seen from the directory of the
event file, and the name of a directory may hold any character; there is no way to quote it
(`Command.output_not_read_of_blankDirectory`).
-/

namespace TargetScope

open Text

/-! ## Loaded streams -/

namespace Path

lemma ne_empty_of_mem_names {text n : String} (hn : n ∈ (ofText text).names) : n ≠ "" := by
  simp only [ofText, List.mem_filter, Bool.and_eq_true, decide_eq_true_eq] at hn
  exact hn.2.1

/-- No path is written as an empty text. -/
lemma text_ne_empty {p : Path} (hp : ∀ n ∈ p.names, n ≠ "") : p.text ≠ "" := by
  rw [text]
  split
  · decide
  · next hsome =>
    intro hempty
    rw [String.append_eq_empty_iff] at hempty
    obtain ⟨hroot, hjoined⟩ := hempty
    -- without a root there is a name, and the first name is not empty
    obtain ⟨n, names, hnames⟩ := List.exists_cons_of_ne_nil fun hnil => hsome ⟨hroot, hnil⟩
    have hn : n ≠ "" := hp n (by simp [hnames])
    rw [hnames, ← String.toList_eq_nil_iff, String.toList_intercalate] at hjoined
    cases names with
    | nil => exact hn (by simpa using hjoined)
    | cons n' names => simp at hjoined

end Path

/-- The source of a loaded stream has a character. -/
lemma sourceFrom_ne_empty (path source : String) : sourceFrom path source ≠ "" := by
  rw [sourceFrom]
  split
  · next habs =>
    rintro rfl
    exact absurd habs (by decide)
  · refine Path.text_ne_empty fun n hn => ?_
    rw [Path.join, if_neg ‹_›] at hn
    rcases List.mem_append.1 hn with hn | hn
    · exact Path.ne_empty_of_mem_names (List.dropLast_subset _ hn)
    · exact Path.ne_empty_of_mem_names hn

namespace EventStream

variable {files : FileSource} {path : String} {s stream : EventStream}

/-- A stream that is loaded was read, and its source is seen from where the event file is. -/
lemma load_eq_ok_iff :
    load files path = .ok stream ↔ ∃ text s, files.readText path = .ok text ∧
      read text = .ok s ∧ stream = { s with source := s.source.map (sourceFrom path) } := by
  rw [load]
  cases files.readText path with
  | error fault => simp
  | ok text => cases hread : read text with
    | error e => simp [hread]
    | ok s => simp [hread, eq_comm]

/-- What a loaded stream says can be written, if its source can. -/
lemma writable_of_load (h : load files path = .ok stream)
    (hsource : ∀ source ∈ stream.source, IsOrdinary source) {c : Content}
    (hc : c ∈ stream.contents) : c.Writable := by
  obtain ⟨text, s, -, hread, rfl⟩ := load_eq_ok_iff.1 h
  cases c with
  | header key value =>
    have hvalue := header_mem_contents.1 hc
    cases key with
    | unit =>
      have hmem : Content.header .unit value ∈ s.contents := header_mem_contents.2 hvalue
      exact writable_of_read hread hmem (by simp)
    | source => exact hsource value hvalue
  | event action =>
    obtain ⟨e, he, heq⟩ := event_mem_contents.1 hc
    exact writable_of_read hread (event_mem_contents.2 ⟨e, he, heq⟩) (by simp)

lemma source_ne_empty_of_load (h : load files path = .ok stream) {source : String}
    (hsource : source ∈ stream.source) : source ≠ "" := by
  obtain ⟨text, s, -, -, rfl⟩ := load_eq_ok_iff.1 h
  obtain ⟨word, -, rfl⟩ := Option.map_eq_some_iff.1 hsource
  exact sourceFrom_ne_empty path word

end EventStream

/-! ## Written streams -/

namespace Command

variable {events : List Event} {stream : EventStream}

lemma toList_unlines (ls : List String) :
    (unlines ls).toList = (ls.map String.toList).flatMap (· ++ ['\n']) := by
  rw [unlines, String.toList_join, List.flatMap_map, List.flatMap_map]
  simp

lemma eq_space_of_mem_indentation {depth : Nat} {c : Char}
    (hc : c ∈ (Outline.indentation depth).toList) : c = ' ' := by
  rw [Outline.indentation, String.toList_join, List.mem_flatMap] at hc
  obtain ⟨step, hstep, hc⟩ := hc
  rw [List.eq_of_mem_replicate hstep] at hc
  simpa [Outline.step] using hc

/-- Each line of some events is that of one of them, at whatever depth it stands. -/
lemma isLine_eventLines (depth : Nat) (events : List Event) :
    List.Forall₂ Content.IsLine (events.map fun e => .event e.action)
      ((eventLines depth events).map String.toList) := by
  induction events generalizing depth with
  | nil => exact .nil
  | cons e events ih =>
    have hline : ∀ depth : Nat, (Content.event e.action).IsLine
        (Outline.indentation depth ++ e.action.text).toList := by
      intro depth
      rw [String.toList_append]
      exact Content.isLine_event _ fun c hc => eq_space_of_mem_indentation hc
    cases haction : e.action with
    | enter kind label position =>
      simp only [eventLines, haction, List.map_cons]
      exact .cons (haction ▸ hline depth) (ih (depth + 1))
    | mention name how position =>
      simp only [eventLines, haction, List.map_cons]
      exact .cons (haction ▸ hline depth) (ih depth)
    | exit =>
      simp only [eventLines, haction, List.map_cons]
      exact .cons (haction ▸ hline (depth - 1)) (ih (depth - 1))

lemma isLine_header (key : HeaderKey) (value : Option String) :
    List.Forall₂ Content.IsLine (value.map (.header key)).toList
      ((value.map fun value => key.keyword ++ " " ++ value).toList.map String.toList) := by
  cases value with
  | none => exact .nil
  | some value =>
    refine .cons ⟨[], by simp, ?_⟩ .nil
    simp [Content.words, Content.phrase, Content.position?, positionWords]

/-- Each line of a stream is that of what it says. -/
lemma isLine_streamLines (stream : EventStream) :
    List.Forall₂ Content.IsLine stream.contents ((streamLines stream).map String.toList) := by
  rw [EventStream.contents, streamLines, List.map_append, List.map_append]
  exact List.rel_append (List.rel_append (isLine_header .unit _) (isLine_header .source _))
    (isLine_eventLines 0 _)

/-- What the task writes if it ends with 0. -/
lemma exists_load_of_writeEvents {s : Surroundings} {i : Invocation} {outcome : Outcome}
    (h : writeEvents s i = .ok outcome) (hexit : outcome.exitCode = 0) :
    ∃ stream, EventStream.load s.files i.entry = .ok stream ∧
      outcome.output = unlines (streamLines stream) := by
  rw [writeEvents] at h
  split at h
  · next stream hload =>
    obtain rfl := Except.ok.inj h
    exact ⟨stream, hload, rfl⟩
  · obtain rfl := Except.ok.inj h
    simp at hexit
  · obtain rfl := Except.ok.inj h
    simp at hexit
  · simp at h

/-- What a run writes whose task is to write the events, if it ends with 0. -/
lemma exists_load_of_run {s : Surroundings} {args : List String} {i : Invocation}
    {outcome : Outcome} (hargs : readArguments args = .perform i) (htask : i.task = .events)
    (hrun : run s args = .ok outcome) (hexit : outcome.exitCode = 0) :
    ∃ stream, EventStream.load s.files i.entry = .ok stream ∧
      outcome.output = unlines (streamLines stream) := by
  rw [run, hargs] at hrun
  simp only [perform, htask] at hrun
  split at hrun
  · obtain rfl := Except.ok.inj hrun
    simp at hexit
  · exact exists_load_of_writeEvents hrun hexit

/-- When the written events are read again.

A run whose task is to write the events, and that ends with 0, has loaded a stream.  If the source
of this stream, where it has one, holds no blank and no number sign and does not begin with an at
sign, then the output can be read, with the same unit, the same source and the same actions. -/
theorem exists_read_output_of_events {s : Surroundings} {args : List String} {i : Invocation}
    {outcome : Outcome} (hargs : readArguments args = .perform i) (htask : i.task = .events)
    (hrun : run s args = .ok outcome) (hexit : outcome.exitCode = 0) :
    ∃ stream, EventStream.load s.files i.entry = .ok stream ∧
      ((∀ source ∈ stream.source, (∀ c ∈ source.toList, isBlank c = false ∧ c ≠ '#') ∧
          source.toList.head? ≠ some '@') →
        ∃ s', EventStream.read outcome.output = .ok s' ∧ s'.unitName = stream.unitName ∧
          s'.source = stream.source ∧
          s'.events.map Event.action = stream.events.map Event.action) := by
  obtain ⟨stream, hload, houtput⟩ := exists_load_of_run hargs htask hrun hexit
  refine ⟨stream, hload, fun hsource => ?_⟩
  have hordinary : ∀ source ∈ stream.source, IsOrdinary source := by
    intro source hmem
    obtain ⟨hplain, hat⟩ := hsource source hmem
    have hne := EventStream.source_ne_empty_of_load hload hmem
    exact ⟨⟨by simpa using hne, fun c hc => (hplain c hc).1, fun hc => (hplain _ hc).2 rfl⟩, hat⟩
  rw [houtput]
  exact EventStream.exists_read_of_isLine
    (fun c hc => EventStream.writable_of_load hload hordinary hc) (isLine_streamLines stream)
    (Or.inr (toList_unlines _))

/-- Surroundings with one file. -/
def withFile (names : List String) (text : String) : Surroundings where
  files := (FileTree.source { files := [(names, text.toUTF8)] }).upTo 9223372036854775807
  directory := "/work"
  time := ""
  longest := 9223372036854775807
  nesting := 900
  size_le := FileSource.size_le_of_upTo

/-- The events of a small unit, whose source is in the same directory. -/
def besideSource : String :=
  "unit app\nsource main.py\nenter module m\nbind x @1:1\nexit\n"

/-- What is written for them in a directory. -/
def listedIn (directory : String) : Outcome where
  exitCode := 0
  output := "unit app\nsource " ++ directory ++ "/main.py\nenter module m\n  bind x @1:1\nexit\n"

/-- The name of the directory is one word. -/
theorem exists_read_output_of_events_package :
    readArguments ["events", "pkg/unit.events"] = .perform ⟨.events, "pkg/unit.events", {}⟩ ∧
    run (withFile ["pkg", "unit.events"] besideSource) ["events", "pkg/unit.events"] =
      .ok (listedIn "pkg") ∧
    (listedIn "pkg").exitCode = 0 ∧
    ∃ stream s', EventStream.load (withFile ["pkg", "unit.events"] besideSource).files
        "pkg/unit.events" = .ok stream ∧ stream.source = some "pkg/main.py" ∧
      EventStream.read (listedIn "pkg").output = .ok s' ∧ s'.unitName = stream.unitName ∧
      s'.source = stream.source ∧
      s'.events.map Event.action = stream.events.map Event.action := by
  have hargs : readArguments ["events", "pkg/unit.events"] =
      .perform ⟨.events, "pkg/unit.events", {}⟩ := by decide +kernel
  have hrun : run (withFile ["pkg", "unit.events"] besideSource) ["events", "pkg/unit.events"] =
      .ok (listedIn "pkg") := by decide +kernel
  obtain ⟨stream, hload, hread⟩ := exists_read_output_of_events hargs rfl hrun rfl
  have hsource : stream.source = some "pkg/main.py" := by
    have hloaded : (EventStream.load (withFile ["pkg", "unit.events"] besideSource).files
        "pkg/unit.events").toOption.bind EventStream.source = some "pkg/main.py" := by
      decide +kernel
    rwa [hload] at hloaded
  have hword : ∀ source ∈ stream.source, (∀ c ∈ source.toList, isBlank c = false ∧ c ≠ '#') ∧
      source.toList.head? ≠ some '@' := by
    have hall : ("pkg/main.py".toList.all fun c => !isBlank c && c != '#') = true := by decide
    rintro source hmem
    obtain rfl : source = "pkg/main.py" := Option.some.inj (hmem.symm.trans hsource)
    exact ⟨fun c hc => by simpa using List.all_eq_true.1 hall c hc, by decide⟩
  obtain ⟨s', hs', hunit, hsource', hactions⟩ := hread hword
  exact ⟨hargs, hrun, rfl, stream, s', hload, hsource, hs', hunit, hsource', hactions⟩

/-- The name of the directory holds a blank: the run ends with 0, but no stream can be read from
what it has written. -/
theorem output_not_read_of_blankDirectory :
    readArguments ["events", "my dir/unit.events"] = .perform ⟨.events, "my dir/unit.events", {}⟩ ∧
    run (withFile ["my dir", "unit.events"] besideSource) ["events", "my dir/unit.events"] =
      .ok (listedIn "my dir") ∧
    (listedIn "my dir").exitCode = 0 ∧
    ∀ s', EventStream.read (listedIn "my dir").output ≠ .ok s' := by
  refine ⟨by decide +kernel, by decide +kernel, rfl, fun s' hs' => ?_⟩
  have hnone : (EventStream.read (listedIn "my dir").output).toOption = none := by decide +kernel
  rw [hs'] at hnone
  exact Option.some_ne_none _ hnone

end Command

end TargetScope
