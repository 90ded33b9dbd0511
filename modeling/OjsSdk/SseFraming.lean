import OjsSdk.Subscribe

namespace OjsSdk

open StdText

/-- An event as a server writes it, with the lines that it leaves out. -/
structure WrittenEvent where
  id : Option String
  eventType : Option String
  data : String

namespace WrittenEvent

def dataLines (e : WrittenEvent) : List (List Char) := e.data.toList.splitOn '\n'

def headLines (e : WrittenEvent) : List (List Char) :=
  (e.id.map (fun id => "id: ".toList ++ id.toList)).toList ++
    (e.eventType.map (fun eventType => "event: ".toList ++ eventType.toList)).toList

def lines (e : WrittenEvent) : List (List Char) :=
  e.headLines ++ e.dataLines.map ("data: ".toList ++ ·) ++ [[]]

def frame (e : WrittenEvent) : List Char := e.lines.flatMap (· ++ ['\n'])

def toEvent (e : WrittenEvent) : SseEvent where
  id := e.id.getD ""
  eventType := e.eventType.getD "message"
  data := e.data

end WrittenEvent

/-- A text on one line that does not start with whitespace. -/
def PlainText (s : String) : Prop := '\n' ∉ s.toList ∧ trimStart s.toList = s.toList

structure WrittenEvent.Standard (e : WrittenEvent) : Prop where
  id : ∀ s ∈ e.id, PlainText s
  eventType : ∀ s ∈ e.eventType, PlainText s
  data : e.data ≠ ""

/-- The data does not start with a newline, and none of its lines with whitespace. A type
is not written as an empty one. -/
structure WrittenEvent.Survives (e : WrittenEvent) : Prop where
  newline : e.data.toList.head? ≠ some '\n'
  trimmed : ∀ line ∈ e.dataLines, trimStart line = line
  eventType : e.eventType ≠ some ""

namespace SseFields

theorem handleLine_data (f : SseFields) (s : List Char) :
    f.handleLine ("data: ".toList ++ s) =
      ({ f with eventData := pushData f.eventData (trimStart s) }, none) := rfl

/-- The data that the parser makes of data lines. -/
def gathered (data : List Char) (lines : List (List Char)) : List Char :=
  lines.foldl (fun data line => pushData data (trimStart line)) data

theorem events_dataLines (f : SseFields) (lines rest : List (List Char)) :
    f.events (lines.map ("data: ".toList ++ ·) ++ rest) =
      { f with eventData := gathered f.eventData lines }.events rest := by
  induction lines generalizing f with
  | nil => rfl
  | cons line lines ih =>
    show (f.handleLine ("data: ".toList ++ line)).2.toList ++
      (f.handleLine ("data: ".toList ++ line)).1.events (lines.map _ ++ rest) = _
    rw [handleLine_data]
    exact ih _

theorem events_headLines (f : SseFields) (e : WrittenEvent) (rest : List (List Char)) :
    f.events (e.headLines ++ rest) =
      { f with
        eventId := (e.id.map (fun s : String => trimStart s.toList)).getD f.eventId
        eventType := (e.eventType.map (fun s : String => trimStart s.toList)).getD f.eventType }.events
        rest := by
  rcases e with ⟨_ | id, _ | eventType, data⟩ <;> rfl

theorem gathered_of_ne_nil {data : List Char} (pending : data ≠ []) (lines : List (List Char)) :
    gathered data lines = data ++ lines.flatMap (fun line => '\n' :: trimStart line) := by
  induction lines generalizing data with
  | nil => simp [gathered]
  | cons line lines ih =>
    have push : pushData data (trimStart line) = data ++ '\n' :: trimStart line := by
      simp [pushData, pending]
    have next : gathered data (line :: lines) =
        gathered (data ++ '\n' :: trimStart line) lines := by
      rw [← push]
      rfl
    rw [next, ih (by simp)]
    simp

theorem gathered_cons (line : List Char) (lines : List (List Char)) :
    gathered [] (line :: lines) = gathered (trimStart line) lines := rfl

/-- The lines of a text, after the first. -/
def laterLines (lines : List (List Char)) : List Char := lines.flatMap (fun line => '\n' :: line)

theorem trimmed_length_le (lines : List (List Char)) :
    (lines.flatMap (fun line => '\n' :: trimStart line)).length ≤ (laterLines lines).length := by
  induction lines with
  | nil => simp [laterLines]
  | cons line lines ih =>
    have short := trimStart_length_le line
    simp only [laterLines, List.flatMap_cons, List.cons_append, List.length_cons,
      List.length_append] at ih ⊢
    omega

theorem trimmed_of_length {lines : List (List Char)}
    (same : (lines.flatMap (fun line => '\n' :: trimStart line)).length =
      (laterLines lines).length) : ∀ line ∈ lines, trimStart line = line := by
  induction lines with
  | nil => simp
  | cons line lines ih =>
    have short := trimStart_length_le line
    have rest := trimmed_length_le lines
    simp only [laterLines, List.flatMap_cons, List.cons_append, List.length_cons,
      List.length_append] at ih rest same
    intro l mem
    rcases List.mem_cons.mp mem with rfl | mem
    · exact trimStart_eq_of_length l (by omega)
    · exact ih (by omega) l mem

/-- Data that starts with an empty line is gathered without it. -/
theorem gathered_nil_length_lt {lines : List (List Char)} (some : lines ≠ []) :
    (gathered [] lines).length < (laterLines lines).length := by
  induction lines with
  | nil => exact absurd rfl some
  | cons line lines ih =>
    have short := trimStart_length_le line
    have rest := trimmed_length_le lines
    have whole : (laterLines (line :: lines)).length =
        line.length + 1 + (laterLines lines).length := by
      simp only [laterLines, List.flatMap_cons, List.cons_append, List.length_cons,
        List.length_append]
      omega
    rw [gathered_cons]
    by_cases shown : trimStart line = []
    · rw [shown]
      cases lines with
      | nil => simp [gathered, laterLines]
      | cons next lines =>
        have := ih (by simp)
        omega
    · rw [gathered_of_ne_nil shown, List.length_append]
      omega

theorem gathered_eq_iff {line : List Char} {lines : List (List Char)}
    (some : line ++ laterLines lines ≠ []) :
    gathered [] (line :: lines) = line ++ laterLines lines ↔
      line ≠ [] ∧ ∀ l ∈ line :: lines, trimStart l = l := by
  have short := trimStart_length_le line
  have rest := trimmed_length_le lines
  rw [gathered_cons]
  by_cases shown : trimStart line = []
  · have differ : gathered [] lines ≠ line ++ laterLines lines := by
      intro h
      cases lines with
      | nil => exact some h.symm
      | cons next lines =>
        have lt := gathered_nil_length_lt (List.cons_ne_nil next lines)
        rw [h, List.length_append] at lt
        omega
    rw [shown]
    refine iff_of_false differ ?_
    rintro ⟨notEmpty, trimmed⟩
    have := trimmed line (by simp)
    exact notEmpty (this.symm.trans shown)
  · rw [gathered_of_ne_nil shown]
    constructor
    · intro h
      have length := congrArg List.length h
      rw [List.length_append, List.length_append] at length
      have first := trimStart_eq_of_length line (by omega)
      have later : ∀ l ∈ lines, trimStart l = l := trimmed_of_length (by omega)
      refine ⟨by rwa [first] at shown, ?_⟩
      simpa [first] using later
    · rintro ⟨_, trimmed⟩
      rw [trimmed line (by simp)]
      congr 1
      exact List.flatMap_congr (fun l mem => by rw [trimmed l (by simp [mem])])

end SseFields

namespace WrittenEvent

variable {e : WrittenEvent}

theorem dataLines_single (e : WrittenEvent) : ∀ line ∈ e.dataLines, '\n' ∉ line := by
  intro line mem
  obtain ⟨single, last, _⟩ := LineSplit.cut_spec '\n' e.data.toList
  rw [dataLines, LineSplit.splitOn_eq_cut] at mem
  rcases List.mem_append.mp mem with mem | mem
  · exact single line mem
  · rwa [List.mem_singleton.mp mem]

theorem join_dataLines (e : WrittenEvent) : ∃ line lines, e.dataLines = line :: lines ∧
    e.data.toList = line ++ SseFields.laterLines lines := by
  have joined : ['\n'].intercalate e.dataLines = e.data.toList := List.intercalate_splitOn '\n'
  cases h : e.dataLines with
  | nil => exact absurd h (List.splitOn_ne_nil '\n' e.data.toList)
  | cons line lines =>
    refine ⟨line, lines, rfl, ?_⟩
    rw [← joined, h]
    have each : ∀ (line : List Char) (lines : List (List Char)),
        ['\n'].intercalate (line :: lines) = line ++ SseFields.laterLines lines := by
      intro line lines
      induction lines generalizing line with
      | nil => simp [SseFields.laterLines]
      | cons next lines ih =>
        rw [List.intercalate_cons_cons, ih]
        simp [SseFields.laterLines]
    exact each line lines

/-- The parser gathers the data that was written, exactly when it does not start with a
newline and no line of it with whitespace. -/
theorem gathered_dataLines_eq_iff (standard : e.Standard) :
    SseFields.gathered [] e.dataLines = e.data.toList ↔
      e.data.toList.head? ≠ some '\n' ∧ ∀ line ∈ e.dataLines, trimStart line = line := by
  obtain ⟨line, lines, split, joined⟩ := e.join_dataLines
  have single : '\n' ∉ line := e.dataLines_single line (by simp [split])
  have nonempty : line ++ SseFields.laterLines lines ≠ [] := by
    rw [← joined]
    exact fun h => standard.data (String.toList_eq_nil_iff.mp h)
  have first : (line ++ SseFields.laterLines lines).head? ≠ some '\n' ↔ line ≠ [] := by
    cases line with
    | cons c line =>
      have : c ≠ '\n' := fun h => single (by simp [h])
      simp [this]
    | nil =>
      cases lines with
      | nil => exact absurd rfl nonempty
      | cons next lines => simp [SseFields.laterLines]
  rw [joined, split, SseFields.gathered_eq_iff nonempty, first]

/-- What the parser has read of an event when its frame ends. An id may be left over from
before it. -/
def read (e : WrittenEvent) (id : List Char) : SseFields where
  eventType := (e.eventType.map String.toList).getD []
  eventId := (e.id.map String.toList).getD id
  eventData := SseFields.gathered [] e.dataLines

/-- A frame completes one event, or none if its data has come to nothing. -/
theorem events_lines (standard : e.Standard) (id : List Char) (rest : List (List Char)) :
    { SseFields.empty with eventId := id }.events (e.lines ++ rest) =
      if (e.read id).eventData.isEmpty then
        { SseFields.empty with eventId := (e.read id).eventId }.events rest
      else (e.read id).toEvent :: SseFields.empty.events rest := by
  have plainId : (e.id.map (fun s : String => trimStart s.toList)) = e.id.map String.toList :=
    Option.map_congr (fun s mem => (standard.id s mem).2)
  have plainType : (e.eventType.map (fun s : String => trimStart s.toList)) =
      e.eventType.map String.toList :=
    Option.map_congr (fun s mem => (standard.eventType s mem).2)
  rw [lines, List.append_assoc, List.append_assoc, SseFields.events_headLines,
    SseFields.events_dataLines, plainId, plainType]
  show (SseFields.handleLine (e.read id) []).2.toList ++
    (SseFields.handleLine (e.read id) []).1.events rest = _
  by_cases nothing : (e.read id).eventData.isEmpty
  · simp [SseFields.handleLine, SseFields.empty, List.isEmpty_iff.mp nothing]
  · simp [SseFields.handleLine, nothing]

theorem read_toEvent_eq_iff (standard : e.Standard) :
    (e.read []).toEvent = e.toEvent ↔ e.Survives := by
  have data := gathered_dataLines_eq_iff standard
  have id : (e.read []).toEvent.id = e.toEvent.id := by
    cases h : e.id <;> simp [read, SseFields.toEvent, toEvent, h]
  have eventType : (e.read []).toEvent.eventType = e.toEvent.eventType ↔ e.eventType ≠ some "" := by
    cases h : e.eventType with
    | none => simp [read, SseFields.toEvent, toEvent, h]
    | some s =>
      by_cases none : s = ""
      · simp [read, SseFields.toEvent, toEvent, h, none]
      · have : s.toList ≠ [] := fun h => none (String.toList_eq_nil_iff.mp h)
        simp [read, SseFields.toEvent, toEvent, h, none, this]
  have text : (e.read []).toEvent.data = e.toEvent.data ↔
      SseFields.gathered [] e.dataLines = e.data.toList := by
    rw [← String.toList_inj]
    simp [read, SseFields.toEvent, toEvent]
  constructor
  · intro same
    obtain ⟨newline, trimmed⟩ := data.mp (text.mp (congrArg SseEvent.data same))
    exact ⟨newline, trimmed, eventType.mp (congrArg SseEvent.eventType same)⟩
  · rintro ⟨newline, trimmed, named⟩
    rw [SseEvent.mk.injEq]
    exact ⟨id, eventType.mpr named, text.mpr (data.mpr ⟨newline, trimmed⟩)⟩

theorem length_events_le {events : List WrittenEvent} (standard : ∀ e ∈ events, e.Standard)
    (id : List Char) :
    ({ SseFields.empty with eventId := id }.events (events.flatMap lines)).length ≤
      events.length := by
  induction events generalizing id with
  | nil => simp [SseFields.events]
  | cons e events ih =>
    have later := ih (fun e mem => standard e (List.mem_cons_of_mem _ mem))
    rw [List.flatMap_cons, events_lines (standard e (by simp))]
    split
    · have := later (e.read id).eventId
      rw [List.length_cons]
      omega
    · have := later []
      rw [List.length_cons, List.length_cons]
      exact Nat.succ_le_succ this

/-- From the start, all events come out as they were written if and only if each survives: one
that comes to nothing leaves an event too few, whatever comes after it. -/
theorem events_frames_iff {events : List WrittenEvent} (standard : ∀ e ∈ events, e.Standard) :
    SseFields.empty.events (events.flatMap lines) = events.map toEvent ↔
      ∀ e ∈ events, e.Survives := by
  induction events with
  | nil => simp [SseFields.events]
  | cons e events ih =>
    have head := standard e (by simp)
    have tail : ∀ e ∈ events, e.Standard := fun e mem => standard e (List.mem_cons_of_mem _ mem)
    have run := events_lines head [] (events.flatMap lines)
    rw [List.flatMap_cons, List.map_cons, List.forall_mem_cons, ← ih tail, ← read_toEvent_eq_iff head]
    change SseFields.empty.events (e.lines ++ events.flatMap lines) = _ at run
    rw [run]
    by_cases nothing : (e.read []).eventData.isEmpty
    · have short := length_events_le tail (e.read []).eventId
      rw [if_pos nothing]
      refine iff_of_false (fun same => ?_) (fun same => ?_)
      · rw [same, List.length_cons, List.length_map] at short
        omega
      · have data : (e.read []).toEvent.data = e.data := congrArg SseEvent.data same.1
        rw [SseFields.toEvent, List.isEmpty_iff.mp nothing] at data
        exact head.data data.symm
    · rw [if_neg nothing, List.cons.injEq]

end WrittenEvent

/-- The task sends a list of framed events as it was written, in whatever chunks the text has
come, if and only if every one of them survives. -/
theorem framed_events_iff (events : List WrittenEvent) (standard : ∀ e ∈ events, e.Standard)
    (items : List (Except String (List UInt8)))
    (written : decoded items = events.flatMap WrittenEvent.frame) :
    (streamTask (fun _ => true) items).sent = events.map WrittenEvent.toEvent ↔
      ∀ e ∈ events, e.Survives := by
  have single : ∀ line ∈ events.flatMap WrittenEvent.lines, '\n' ∉ line := by
    intro line mem
    obtain ⟨e, memE, mem⟩ := List.mem_flatMap.mp mem
    simp only [WrittenEvent.lines, WrittenEvent.headLines, List.mem_append, Option.mem_toList,
      Option.map_eq_some_iff, List.mem_map, List.mem_singleton] at mem
    rcases mem with ((⟨s, some, rfl⟩ | ⟨s, some, rfl⟩) | ⟨data, inData, rfl⟩) | rfl
    · have := ((standard e memE).id s some).1
      simp [this]
    · have := ((standard e memE).eventType s some).1
      simp [this]
    · have := e.dataLines_single data inData
      simp [this]
    · simp
  have text : decoded items =
      (events.flatMap WrittenEvent.lines).flatMap (· ++ ['\n']) := by
    rw [written, List.flatMap_assoc]
    rfl
  rw [streamTask_sent, heard_always, text, LineSplit.cut_flatMap single]
  exact WrittenEvent.events_frames_iff standard

def asciiBytes (text : String) : List UInt8 := text.toList.map (fun c => UInt8.ofNat c.toNat)

def completedEvents : List WrittenEvent :=
  [{ id := some "7", eventType := some "job.completed", data := "1\n\n2" },
    { id := none, eventType := none, data := "3" }]

/-- An id and a type of one event are not seen in the next, and an empty line of data is kept. -/
theorem framed_events_completed :
    (streamTask (fun _ => true)
        [.ok (asciiBytes "id: 7\nevent: job.comp"), .ok (asciiBytes "leted\ndata: 1\ndata: \nda"),
          .ok (asciiBytes "ta: 2\n\ndata: 3\n\n")]).sent =
      [{ id := "7", eventType := "job.completed", data := "1\n\n2" },
        { id := "", eventType := "message", data := "3" }] := by
  have standard : ∀ e ∈ completedEvents, e.Standard := by
    intro e mem
    simp only [completedEvents, List.mem_cons, List.not_mem_nil, or_false] at mem
    rcases mem with rfl | rfl
    · refine ⟨?_, ?_, by decide⟩
      · rintro s ⟨⟩
        exact ⟨by decide, by decide⟩
      · rintro s ⟨⟩
        exact ⟨by decide, by decide⟩
    · exact ⟨by simp, by simp, by decide⟩
  have survives : ∀ e ∈ completedEvents, e.Survives := by
    intro e mem
    simp only [completedEvents, List.mem_cons, List.not_mem_nil, or_false] at mem
    rcases mem with rfl | rfl
    · exact ⟨by decide, by decide, by decide⟩
    · exact ⟨by decide, by decide, by decide⟩
  exact (framed_events_iff completedEvents standard _ (by decide)).mpr survives

/-- The space with which data begins is lost. -/
theorem framed_space_lost :
    ¬ ∀ (events : List WrittenEvent), (∀ e ∈ events, e.Standard) →
      ∀ items : List (Except String (List UInt8)),
        decoded items = events.flatMap WrittenEvent.frame →
          (streamTask (fun _ => true) items).sent = events.map WrittenEvent.toEvent := by
  intro all
  have standard : ∀ e ∈ [({ id := none, eventType := none, data := " x" } : WrittenEvent)],
      e.Standard := by
    intro e mem
    rw [List.mem_singleton.mp mem]
    exact ⟨by simp, by simp, by decide⟩
  have same := all _ standard [.ok (asciiBytes "data:  x\n\n")] (by decide)
  rw [streamTask_sent, heard_always] at same
  have data := congrArg (List.map (fun e : SseEvent => e.data.toList)) same
  exact absurd data (by decide)

end OjsSdk
