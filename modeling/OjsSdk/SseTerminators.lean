import OjsSdk.SseFraming
import OjsSdk.SseReading
import OjsSdk.Utf8Lines

namespace OjsSdk

open StdText

variable {f : SseFields} {line val : List Char} {lines : List (List Char)}

theorem head?_of_stripPrefix {p : Char} {pattern : List Char}
    (stripped : stripPrefix (p :: pattern) line = some val) : line.head? = some p := by
  cases line with
  | nil => cases stripped
  | cons c rest =>
    rw [stripPrefix] at stripped
    split at stripped
    · next same => rw [same, List.head?_cons]
    · cases stripped

theorem showsData_of_head? {c : Char} (head : line.head? = some c) (other : c ≠ 'd') :
    showsData line = false := by
  cases data : stripPrefix "data:".toList line with
  | none => rw [showsData, data]
  | some val =>
    have first := head?_of_stripPrefix data
    rw [head] at first
    exact absurd (Option.some.inj first) other

namespace SseFields

/-- A line that is not empty completes no event, and leaves data pending if data was pending or
the line shows some. -/
theorem handleLine_shown (f : SseFields) (shown : line.isEmpty = false) :
    (f.handleLine line).2 = none ∧
      ((f.handleLine line).1.eventData = [] ↔ f.eventData = [] ∧ showsData line = false) := by
  unfold handleLine
  rw [shown]
  simp only [Bool.false_eq_true, ↓reduceIte]
  cases event : stripPrefix "event:".toList line with
  | some val =>
    have none := showsData_of_head? (head?_of_stripPrefix event) (by decide)
    simp [none]
  | none =>
    cases id : stripPrefix "id:".toList line with
    | some val =>
      have none := showsData_of_head? (head?_of_stripPrefix id) (by decide)
      simp [none]
    | none =>
      cases data : stripPrefix "data:".toList line with
      | some val =>
        rw [showsData, data]
        simp [pushData_eq_nil_iff]
      | none =>
        rw [showsData, data]
        simp

theorem events_of_shown (f : SseFields) (shown : ∀ line ∈ lines, line.isEmpty = false) :
    f.events lines = [] := by
  induction lines generalizing f with
  | nil => rfl
  | cons line lines ih =>
    have none := (f.handleLine_shown (shown line (by simp))).1
    rw [events, none, ih _ (fun l mem => shown l (List.mem_cons_of_mem line mem))]
    rfl

end SseFields

/-- An empty line comes after a line of data that is more than whitespace. -/
def CompletesEvent (lines : List (List Char)) : Prop :=
  ∃ before after, lines = before ++ [] :: after ∧ ∃ line ∈ before, showsData line = true

theorem completesEvent_cons : CompletesEvent (line :: lines) ↔
    (showsData line = true ∧ [] ∈ lines) ∨ CompletesEvent lines := by
  constructor
  · rintro ⟨before, after, split, shown, mem, data⟩
    cases before with
    | nil => cases mem
    | cons first before =>
      obtain ⟨rfl, rfl⟩ := List.cons.inj split
      rcases List.mem_cons.mp mem with rfl | mem
      · exact .inl ⟨data, by simp⟩
      · exact .inr ⟨before, after, rfl, shown, mem, data⟩
  · rintro (⟨data, blank⟩ | ⟨before, after, rfl, shown, mem, data⟩)
    · obtain ⟨before, after, rfl⟩ := List.append_of_mem blank
      exact ⟨line :: before, after, rfl, line, by simp, data⟩
    · exact ⟨line :: before, after, rfl, shown, List.mem_cons_of_mem line mem, data⟩

namespace SseFields

/-- No event is completed: no empty line comes while data is pending, be it from before. -/
theorem events_eq_nil_iff (f : SseFields) (lines : List (List Char)) :
    f.events lines = [] ↔ ¬((f.eventData ≠ [] ∧ [] ∈ lines) ∨ CompletesEvent lines) := by
  induction lines generalizing f with
  | nil =>
    have never : ¬CompletesEvent [] := by
      rintro ⟨before, after, split, _⟩
      simp at split
    simp [events, never]
  | cons line lines ih =>
    rw [completesEvent_cons]
    by_cases blank : line = []
    · subst blank
      have silent : showsData [] = false := rfl
      by_cases none : f.eventData = []
      · rw [events_blank_of_none none, ih]
        simp [none, silent]
      · rw [events_blank_of_some none]
        simp [none]
    · have shown : line.isEmpty = false := by simpa using blank
      obtain ⟨quiet, pending⟩ := f.handleLine_shown shown
      rw [events, quiet, Option.toList_none, List.nil_append, ih, nil_mem_cons_iff shown,
        Ne, pending]
      cases showsData line with
      | true =>
        by_cases closed : [] ∈ lines
        · simp [closed]
        · simp [closed]
      | false => simp

end SseFields

/-- The stream with CR LF for each LF, in the same chunks. -/
def withCrlf (items : List (Except String (List UInt8))) : List (Except String (List UInt8)) :=
  items.map (fun item => item.map (LineSplit.marked 13 10))

theorem decoded_withCrlf (items : List (Except String (List UInt8))) :
    decoded (withCrlf items) = LineSplit.marked '\r' '\n' (decoded items) := by
  induction items with
  | nil => rfl
  | cons item items ih =>
    cases item with
    | error e => rfl
    | ok chunk =>
      have chunks : withCrlf (.ok chunk :: items) =
          .ok (LineSplit.marked 13 10 chunk) :: withCrlf items := rfl
      rw [chunks, decoded, decoded, LineSplit.marked_append, ih, toList_fromUtf8Lossy,
        toList_fromUtf8Lossy, decode_marked]

/-- With CR LF at the ends of its lines, in whatever chunks, a stream has no empty line and
completes no event. -/
theorem crlf_unchanged_iff (items items' : List (Except String (List UInt8)))
    (replaced : decoded items' = LineSplit.marked '\r' '\n' (decoded items)) :
    (streamTask (fun _ => true) items').sent = (streamTask (fun _ => true) items).sent ↔
      ¬CompletesEvent (LineSplit.cut '\n' (decoded items)).1 := by
  have silent : (streamTask (fun _ => true) items').sent = [] := by
    rw [streamTask_sent, heard_always, replaced, LineSplit.cut_marked (by decide)]
    apply SseFields.events_of_shown
    intro line mem
    obtain ⟨text, _, rfl⟩ := List.mem_map.mp mem
    simp
  rw [silent, streamTask_sent, heard_always, eq_comm, SseFields.events_eq_nil_iff]
  simp [SseFields.empty]

/-- A comment that keeps the connection open completes no event. -/
theorem comment_unchanged :
    (streamTask (fun _ => true) (withCrlf [.ok (asciiBytes ": ping\n\n")])).sent =
      (streamTask (fun _ => true) [.ok (asciiBytes ": ping\n\n")]).sent := by
  refine (crlf_unchanged_iff _ _ (decoded_withCrlf _)).mpr ?_
  rintro ⟨before, after, split, line, mem, data⟩
  have silent : ∀ line ∈ (LineSplit.cut '\n' (decoded [.ok (asciiBytes ": ping\n\n")])).1,
      showsData line = false := by decide
  rw [split] at silent
  rw [silent line (List.mem_append_left _ mem)] at data
  cases data

/-- The event is lost. -/
theorem crlf_event_lost :
    ¬∀ items : List (Except String (List UInt8)), '\r' ∉ decoded items →
      (streamTask (fun _ => true) (withCrlf items)).sent =
        (streamTask (fun _ => true) items).sent := by
  intro all
  have same := all [.ok (asciiBytes "data: x\n\n")] (by decide)
  rw [streamTask_sent, heard_always, streamTask_sent, heard_always] at same
  exact absurd (congrArg List.length same) (by decide)

end OjsSdk
