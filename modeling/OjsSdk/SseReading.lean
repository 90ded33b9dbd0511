import OjsSdk.Subscribe
import OjsSdk.Utf8Chunks
import Mathlib.Data.List.Forall2

namespace OjsSdk

open StdText

/-- A text as it is read from chunks: each of some characters outside ASCII is read as two
replacements at least. -/
inductive ReadAs : List Char → List Char → Prop
  | nil : ReadAs [] []
  | whole (c : Char) {text read : List Char} : ReadAs text read → ReadAs (c :: text) (c :: read)
  | torn {c : Char} {k : Nat} {text read : List Char} : 0x80 ≤ c.toNat → 2 ≤ k → ReadAs text read →
      ReadAs (c :: text) (List.replicate k replacement ++ read)

namespace ReadAs

variable {text read : List Char}

theorem length_le (h : ReadAs text read) : text.length ≤ read.length := by
  induction h with
  | nil => exact Nat.le_refl _
  | whole c h ih => exact Nat.succ_le_succ ih
  | torn _ two h ih =>
    rw [List.length_cons, List.length_append, List.length_replicate]
    omega

theorem eq_or_longer (h : ReadAs text read) :
    read = text ∨ (replacement ∈ read ∧ text.length < read.length) := by
  induction h with
  | nil => exact .inl rfl
  | whole c h ih =>
    rcases ih with rfl | ⟨mem, longer⟩
    · exact .inl rfl
    · exact .inr ⟨List.mem_cons_of_mem c mem, Nat.succ_lt_succ longer⟩
  | @torn c k text read _ two h ih =>
    have length := h.length_le
    refine .inr ⟨List.mem_append_left _ (List.mem_replicate.mpr ⟨by omega, rfl⟩), ?_⟩
    rw [List.length_cons, List.length_append, List.length_replicate]
    omega

theorem eq_nil_iff (h : ReadAs text read) : read = [] ↔ text = [] := by
  cases h with
  | nil => simp
  | whole => simp
  | torn _ two => simp; omega

/-- A prefix in ASCII is a prefix of what is read, and nothing else is read as one. -/
theorem stripPrefix (pattern : List Char) (ascii : pattern.all (·.toNat < 0x80) = true)
    (h : ReadAs text read) :
    (StdText.stripPrefix pattern text = none ∧ StdText.stripPrefix pattern read = none) ∨
      ∃ text' read', ReadAs text' read' ∧ text = pattern ++ text' ∧ read = pattern ++ read' := by
  induction pattern generalizing text read with
  | nil => exact .inr ⟨text, read, h, rfl, rfl⟩
  | cons p pattern ih =>
    rw [List.all_cons, Bool.and_eq_true, decide_eq_true_eq] at ascii
    cases h with
    | nil => exact .inl ⟨rfl, rfl⟩
    | @whole c text read h =>
      by_cases same : p = c
      · subst same
        rcases ih ascii.2 h with
          ⟨none, none'⟩ | ⟨text', read', h', rfl, rfl⟩
        · exact .inl ⟨by simp [StdText.stripPrefix, none], by simp [StdText.stripPrefix, none']⟩
        · exact .inr ⟨text', read', h', rfl, rfl⟩
      · exact .inl ⟨by simp [StdText.stripPrefix, same], by simp [StdText.stripPrefix, same]⟩
    | @torn c k text read high two h =>
      have low := ascii.1
      have char : p ≠ c := by
        rintro rfl
        omega
      have other : p ≠ replacement := by
        rintro rfl
        exact absurd low (by decide)
      obtain ⟨k, rfl⟩ := Nat.exists_eq_add_of_le' two
      exact .inl ⟨by simp [StdText.stripPrefix, char],
        by simp [StdText.stripPrefix, other, List.replicate_succ]⟩

/-- The replacements are not whitespace, so that trimming leaves them. -/
theorem trimStart (h : ReadAs text read) :
    (read = text ∧ StdText.trimStart read = StdText.trimStart text) ∨
      (read ≠ text ∧ replacement ∈ StdText.trimStart read ∧
        (StdText.trimStart text).length < (StdText.trimStart read).length) := by
  induction h with
  | nil => exact .inl ⟨rfl, rfl⟩
  | @whole c text read h ih =>
    by_cases blank : isWhitespace c
    · have trim : ∀ rest, StdText.trimStart (c :: rest) = StdText.trimStart rest := by
        intro rest
        simp [StdText.trimStart, blank]
      rw [trim, trim]
      rcases ih with ⟨rfl, same⟩ | ⟨differ, rest⟩
      · exact .inl ⟨rfl, rfl⟩
      · exact .inr ⟨by simpa using differ, rest⟩
    · have trim : ∀ rest, StdText.trimStart (c :: rest) = c :: rest := by
        intro rest
        simp [StdText.trimStart, blank]
      rw [trim, trim]
      rcases h.eq_or_longer with rfl | ⟨mem, longer⟩
      · exact .inl ⟨rfl, rfl⟩
      · refine .inr ⟨?_, List.mem_cons_of_mem c mem, Nat.succ_lt_succ longer⟩
        intro same
        rw [(List.cons.inj same).2] at longer
        exact Nat.lt_irrefl _ longer
  | @torn c k text read high two h ih =>
    obtain ⟨k, rfl⟩ := Nat.exists_eq_add_of_le' two
    have trim : StdText.trimStart (List.replicate (k + 2) replacement ++ read) =
        List.replicate (k + 2) replacement ++ read := by
      have visible : isWhitespace replacement = false := by decide
      simp [StdText.trimStart, List.replicate_succ, visible]
    have short := trimStart_length_le (c :: text)
    have length := h.length_le
    have more : (c :: text).length < (List.replicate (k + 2) replacement ++ read).length := by
      rw [List.length_cons, List.length_append, List.length_replicate]
      omega
    rw [trim]
    refine .inr ⟨?_, by simp [List.replicate_succ], by omega⟩
    intro same
    rw [same] at more
    exact Nat.lt_irrefl _ more

theorem trimStart_eq_iff (h : ReadAs text read) :
    StdText.trimStart read = StdText.trimStart text ↔ read = text := by
  rcases h.trimStart with ⟨same, trimmed⟩ | ⟨differ, _, longer⟩
  · exact iff_of_true trimmed same
  · refine iff_of_false (fun same => ?_) differ
    rw [same] at longer
    exact Nat.lt_irrefl _ longer

end ReadAs

def isField (name : String) (line : List Char) : Bool :=
  (stripPrefix name.toList line).isSome

/-- A line of data that is more than whitespace. -/
def showsData (line : List Char) : Bool :=
  match stripPrefix "data:".toList line with
  | some val => !(trimStart val).isEmpty
  | none => false

/-- Whether data is pending after a line. -/
def pendingAfter (pending : Bool) (line : List Char) : Bool :=
  !line.isEmpty && (pending || showsData line)

/-- An event takes the current type, if these are the lines that follow. -/
def typeUsed : Bool → List (List Char) → Bool
  | _, [] => false
  | pending, line :: lines =>
    if line.isEmpty then pending
    else !isField "event:" line && typeUsed (pendingAfter pending line) lines

/-- An event takes the current id, if these are the lines that follow. -/
def idUsed : Bool → List (List Char) → Bool
  | _, [] => false
  | pending, line :: lines =>
    if line.isEmpty then pending || idUsed false lines
    else !isField "id:" line && idUsed (pendingAfter pending line) lines

/-- The value of a line goes into an event: it is data before an empty line, or a type or an
id that no other line replaces before the event. -/
def reachesEvent (pending : Bool) (line : List Char) (later : List (List Char)) : Bool :=
  (isField "data:" line && later.contains []) ||
    (isField "event:" line && typeUsed pending later) ||
    (isField "id:" line && idUsed pending later)

/-- The lines that reach an event are read as they are. -/
def Kept : Bool → List (List Char) → List (List Char) → Prop
  | pending, line :: lines, read :: reads =>
    (reachesEvent pending line lines = true → read = line) ∧
      Kept (pendingAfter pending line) lines reads
  | _, _, _ => True

/-- A line and what it is read as, by what the parser makes of it. -/
inductive LinePair : List Char → List Char → Prop
  | blank : LinePair [] []
  | event {val read : List Char} : ReadAs val read →
      LinePair ("event:".toList ++ val) ("event:".toList ++ read)
  | id {val read : List Char} : ReadAs val read →
      LinePair ("id:".toList ++ val) ("id:".toList ++ read)
  | data {val read : List Char} : ReadAs val read →
      LinePair ("data:".toList ++ val) ("data:".toList ++ read)
  | other {line read : List Char} : line.isEmpty = false → isField "event:" line = false →
      isField "id:" line = false → isField "data:" line = false →
        (∀ f : SseFields, f.handleLine line = (f, none)) →
        (∀ f : SseFields, f.handleLine read = (f, none)) → LinePair line read

theorem SseFields.handleLine_other (f : SseFields) {line : List Char} (some : line ≠ [])
    (event : stripPrefix "event:".toList line = none) (id : stripPrefix "id:".toList line = none)
    (data : stripPrefix "data:".toList line = none) : f.handleLine line = (f, none) := by
  have shown : line.isEmpty = false := by simpa using some
  simp only [handleLine, shown, event, id, data, Bool.false_eq_true, ↓reduceIte]

theorem linePair_of_readAs {line read : List Char} (h : ReadAs line read) : LinePair line read := by
  by_cases blank : line = []
  · have blank' := h.eq_nil_iff.mpr blank
    rw [blank, blank']
    exact .blank
  have blank' : read ≠ [] := fun none => blank (h.eq_nil_iff.mp none)
  rcases h.stripPrefix "event:".toList rfl with
    ⟨event, event'⟩ | ⟨val, val', hval, rfl, rfl⟩
  · rcases h.stripPrefix "id:".toList rfl with
      ⟨id, id'⟩ | ⟨val, val', hval, rfl, rfl⟩
    · rcases h.stripPrefix "data:".toList rfl with
        ⟨data, data'⟩ | ⟨val, val', hval, rfl, rfl⟩
      · exact .other (by simpa using blank) (by rw [isField, event]; rfl) (by rw [isField, id]; rfl)
          (by rw [isField, data]; rfl) (fun f => f.handleLine_other blank event id data)
          (fun f => f.handleLine_other blank' event' id' data')
      · exact .data hval
    · exact .id hval
  · exact .event hval

/-- The fields of two runs: where they differ, the second has read the longer text. -/
structure FieldsReadAs (f g : SseFields) : Prop where
  data : g.eventData = f.eventData ∨ f.eventData.length < g.eventData.length
  eventType : g.eventType = f.eventType ∨
    (replacement ∈ g.eventType ∧ f.eventType.length < g.eventType.length)

namespace SseFields

variable {f g : SseFields}

theorem toEvent_eq_iff (same : FieldsReadAs f g) :
    g.toEvent = f.toEvent ↔ g.eventData = f.eventData ∧ g.eventType = f.eventType ∧
      g.eventId = f.eventId := by
  constructor
  · intro event
    have id : g.eventId = f.eventId := by
      simpa [toEvent, String.ofList_inj] using congrArg SseEvent.id event
    have data : g.eventData = f.eventData := by
      simpa [toEvent, String.ofList_inj] using congrArg SseEvent.data event
    refine ⟨data, ?_, id⟩
    rcases same.eventType with named | ⟨mem, longer⟩
    · exact named
    · have shown := congrArg SseEvent.eventType event
      have some : g.eventType ≠ [] := List.ne_nil_of_mem mem
      by_cases none : f.eventType = []
      · have message : String.ofList g.eventType = "message" := by
          simpa [toEvent, some, none] using shown
        have text := congrArg String.toList message
        rw [String.toList_ofList] at text
        rw [text] at mem
        exact absurd mem (by decide)
      · simpa [toEvent, some, none, String.ofList_inj] using shown
  · rintro ⟨data, eventType, id⟩
    simp [toEvent, data, eventType, id]

theorem pushData_eq_or_longer {data data' chunk chunk' : List Char}
    (hdata : data' = data ∨ data.length < data'.length)
    (hchunk : chunk' = chunk ∨ chunk.length < chunk'.length) :
    (data' = data ∧ chunk' = chunk ∧ pushData data' chunk' = pushData data chunk) ∨
      (¬(data' = data ∧ chunk' = chunk) ∧
        (pushData data chunk).length < (pushData data' chunk').length) := by
  rcases hdata with rfl | more
  · rcases hchunk with rfl | more
    · exact .inl ⟨rfl, rfl, rfl⟩
    · refine .inr ⟨fun same => ?_, ?_⟩
      · rw [same.2] at more
        exact Nat.lt_irrefl _ more
      · by_cases none : data' = []
        · simpa [pushData, none] using more
        · simpa [pushData, none] using more
  · refine .inr ⟨fun same => ?_, ?_⟩
    · rw [same.1] at more
      exact Nat.lt_irrefl _ more
    · have length : chunk.length ≤ chunk'.length := by
        rcases hchunk with rfl | more <;> omega
      have some : data' ≠ [] := List.ne_nil_of_length_pos (by omega)
      unfold pushData
      by_cases none : data = []
      · simp [none, some]
        omega
      · simp [none, some]
        omega

variable {line read : List Char} {lines reads : List (List Char)}

theorem pushData_eq_nil_iff {data chunk : List Char} :
    pushData data chunk = [] ↔ data = [] ∧ chunk = [] := by
  by_cases none : data = [] <;> simp [pushData, none]

theorem isEmpty_pushData (data chunk : List Char) :
    (pushData data chunk).isEmpty = (data.isEmpty && chunk.isEmpty) := by
  cases data <;> rfl

theorem events_blank_of_none (none : f.eventData = []) (lines : List (List Char)) :
    f.events ([] :: lines) = { f with eventType := [] }.events lines := by
  simp [events, handleLine, none]

theorem events_blank_of_some (some : f.eventData ≠ []) (lines : List (List Char)) :
    f.events ([] :: lines) = f.toEvent :: empty.events lines := by
  simp [events, handleLine, some]

theorem events_other {line : List Char} (skip : ∀ f : SseFields, f.handleLine line = (f, none))
    (lines : List (List Char)) : f.events (line :: lines) = f.events lines := by
  rw [events, skip]
  rfl

/-- A run that reads longer data has at least as many events. -/
theorem length_events_le_of_readAs (h : List.Forall₂ ReadAs lines reads)
    (data : f.eventData ≠ [] → g.eventData ≠ []) :
    (f.events lines).length ≤ (g.events reads).length := by
  induction h generalizing f g with
  | nil => exact Nat.le_refl _
  | cons head tail ih =>
    cases linePair_of_readAs head with
    | blank =>
      by_cases some : f.eventData = []
      · rw [events_blank_of_none some]
        by_cases some' : g.eventData = []
        · rw [events_blank_of_none some']
          exact ih data
        · rw [events_blank_of_some some', List.length_cons]
          exact Nat.le_succ_of_le (ih (fun h => absurd some h))
      · rw [events_blank_of_some some, events_blank_of_some (data some)]
        exact Nat.succ_le_succ (ih (fun h => h))
    | event hval => exact ih (f := { f with eventType := _ }) (g := { g with eventType := _ }) data
    | id hval => exact ih (f := { f with eventId := _ }) (g := { g with eventId := _ }) data
    | @data val read hval =>
      have chunk : trimStart val ≠ [] → trimStart read ≠ [] := by
        intro some
        rcases hval.trimStart with ⟨_, same⟩ | ⟨_, mem, _⟩
        · rwa [same]
        · exact List.ne_nil_of_mem mem
      refine ih (f := { f with eventData := pushData f.eventData (trimStart val) })
        (g := { g with eventData := pushData g.eventData (trimStart read) }) (fun some none => ?_)
      obtain ⟨noData, noChunk⟩ := pushData_eq_nil_iff.mp none
      refine some (pushData_eq_nil_iff.mpr ⟨?_, ?_⟩)
      · exact Classical.not_not.mp (fun some => data some noData)
      · exact Classical.not_not.mp (fun some => chunk some noChunk)
    | other _ _ _ _ skip skip' =>
      rw [events_other skip, events_other skip']
      exact ih data

theorem nil_mem_cons_iff (some : line.isEmpty = false) : [] ∈ line :: lines ↔ [] ∈ lines := by
  have other : [] ≠ line := by
    rintro rfl
    simp at some
  simp [other]

theorem kept_cons (pending : Bool) :
    Kept pending (line :: lines) (read :: reads) ↔
      (reachesEvent pending line lines = true → read = line) ∧
        Kept (pendingAfter pending line) lines reads := Iff.rfl

section

variable (pending : Bool) (val : List Char) (lines : List (List Char))

theorem pendingAfter_of_not_data (some : line.isEmpty = false) (none : showsData line = false) :
    pendingAfter pending line = pending := by
  simp [pendingAfter, some, none]

theorem typeUsed_cons (some : line.isEmpty = false) (other : isField "event:" line = false) :
    typeUsed pending (line :: lines) = typeUsed (pendingAfter pending line) lines := by
  simp [typeUsed, some, other]

theorem idUsed_cons (some : line.isEmpty = false) (other : isField "id:" line = false) :
    idUsed pending (line :: lines) = idUsed (pendingAfter pending line) lines := by
  simp [idUsed, some, other]

theorem pendingAfter_data : pendingAfter pending ("data:".toList ++ val) =
    (pending || !(trimStart val).isEmpty) := rfl

theorem reachesEvent_event :
    reachesEvent pending ("event:".toList ++ val) lines = typeUsed pending lines := by
  show ((false && _) || (true && _) || (false && _)) = _
  simp

theorem reachesEvent_id :
    reachesEvent pending ("id:".toList ++ val) lines = idUsed pending lines := by
  show ((false && _) || (false && _) || (true && _)) = _
  simp

theorem reachesEvent_data :
    reachesEvent pending ("data:".toList ++ val) lines = lines.contains [] := by
  show ((true && _) || (false && _) || (false && _)) = _
  simp

end

/-- Two runs agree on all that reaches an event: the pending fields that do, and the lines
that do. -/
structure Agree (f g : SseFields) (lines reads : List (List Char)) : Prop where
  data : [] ∈ lines → g.eventData = f.eventData
  eventType : typeUsed (!f.eventData.isEmpty) lines = true → g.eventType = f.eventType
  eventId : idUsed (!f.eventData.isEmpty) lines = true → g.eventId = f.eventId
  kept : Kept (!f.eventData.isEmpty) lines reads

section

variable {val val' : List Char}

theorem agree_nil : Agree f g [] [] where
  data mem := absurd mem (by simp)
  eventType used := absurd used Bool.false_ne_true
  eventId used := absurd used Bool.false_ne_true
  kept := trivial

theorem agree_empty_iff : Agree empty empty lines reads ↔ Kept false lines reads :=
  ⟨fun agree => agree.kept, fun kept => ⟨fun _ => rfl, fun _ => rfl, fun _ => rfl, kept⟩⟩

theorem kept_blank (pending : Bool) :
    Kept pending ([] :: lines) ([] :: reads) ↔ Kept false lines reads := by
  rw [kept_cons]
  simp [pendingAfter]

theorem agree_blank_of_none (none : f.eventData = []) (none' : g.eventData = []) :
    Agree f g ([] :: lines) ([] :: reads) ↔
      Agree { f with eventType := [] } { g with eventType := [] } lines reads := by
  constructor
  · intro agree
    have kept := (kept_blank _).mp agree.kept
    refine ⟨fun _ => none'.trans none.symm, fun _ => rfl, fun used => agree.eventId ?_, ?_⟩
    · simpa [none, idUsed] using used
    · simpa [none] using kept
  · intro agree
    refine ⟨fun _ => none'.trans none.symm, fun used => ?_, fun used => agree.eventId ?_, ?_⟩
    · simp [none, typeUsed] at used
    · simpa [none, idUsed] using used
    · exact (kept_blank _).mpr (by simpa [none] using agree.kept)

theorem agree_blank_of_some (some : f.eventData ≠ []) :
    Agree f g ([] :: lines) ([] :: reads) ↔
      (g.eventData = f.eventData ∧ g.eventType = f.eventType ∧ g.eventId = f.eventId) ∧
        Agree empty empty lines reads := by
  constructor
  · intro agree
    have kept := (kept_blank _).mp agree.kept
    refine ⟨⟨agree.data (by simp), agree.eventType ?_, agree.eventId ?_⟩, ?_⟩
    · simp [some, typeUsed]
    · simp [some, idUsed]
    · exact agree_empty_iff.mpr kept
  · rintro ⟨⟨data, eventType, id⟩, agree⟩
    exact ⟨fun _ => data, fun _ => eventType, fun _ => id, (kept_blank _).mpr agree.kept⟩

theorem agree_event (hval : ReadAs val val') :
    Agree f g (("event:".toList ++ val) :: lines) (("event:".toList ++ val') :: reads) ↔
      Agree { f with eventType := trimStart val } { g with eventType := trimStart val' }
        lines reads := by
  have blank : [] ∈ ("event:".toList ++ val) :: lines ↔ [] ∈ lines := nil_mem_cons_iff rfl
  constructor
  · intro agree
    obtain ⟨same, kept⟩ := (kept_cons _).mp agree.kept
    rw [reachesEvent_event, List.append_cancel_left_eq] at same
    rw [pendingAfter_of_not_data _ rfl rfl] at kept
    refine ⟨fun mem => agree.data (blank.mpr mem), fun used => ?_, fun used => agree.eventId ?_, kept⟩
    · exact hval.trimStart_eq_iff.mpr (same used)
    · rwa [idUsed_cons _ _ rfl rfl, pendingAfter_of_not_data _ rfl rfl]
  · intro agree
    refine ⟨fun mem => agree.data (blank.mp mem), fun used => ?_, fun used => agree.eventId ?_, ?_⟩
    · exact absurd used Bool.false_ne_true
    · rwa [idUsed_cons _ _ rfl rfl, pendingAfter_of_not_data _ rfl rfl] at used
    · rw [kept_cons, reachesEvent_event, List.append_cancel_left_eq,
        pendingAfter_of_not_data _ rfl rfl]
      exact ⟨fun used => hval.trimStart_eq_iff.mp (agree.eventType used), agree.kept⟩

theorem agree_id (hval : ReadAs val val') :
    Agree f g (("id:".toList ++ val) :: lines) (("id:".toList ++ val') :: reads) ↔
      Agree { f with eventId := trimStart val } { g with eventId := trimStart val' }
        lines reads := by
  have blank : [] ∈ ("id:".toList ++ val) :: lines ↔ [] ∈ lines := nil_mem_cons_iff rfl
  constructor
  · intro agree
    obtain ⟨same, kept⟩ := (kept_cons _).mp agree.kept
    rw [reachesEvent_id, List.append_cancel_left_eq] at same
    rw [pendingAfter_of_not_data _ rfl rfl] at kept
    refine ⟨fun mem => agree.data (blank.mpr mem), fun used => agree.eventType ?_, fun used => ?_, kept⟩
    · rwa [typeUsed_cons _ _ rfl rfl, pendingAfter_of_not_data _ rfl rfl]
    · exact hval.trimStart_eq_iff.mpr (same used)
  · intro agree
    refine ⟨fun mem => agree.data (blank.mp mem), fun used => agree.eventType ?_, fun used => ?_, ?_⟩
    · rwa [typeUsed_cons _ _ rfl rfl, pendingAfter_of_not_data _ rfl rfl] at used
    · exact absurd used Bool.false_ne_true
    · rw [kept_cons, reachesEvent_id, List.append_cancel_left_eq,
        pendingAfter_of_not_data _ rfl rfl]
      exact ⟨fun used => hval.trimStart_eq_iff.mp (agree.eventId used), agree.kept⟩

theorem pushData_eq_iff (hval : ReadAs val val')
    (data : g.eventData = f.eventData ∨ f.eventData.length < g.eventData.length) :
    (pushData g.eventData (trimStart val') = pushData f.eventData (trimStart val) ↔
      g.eventData = f.eventData ∧ val' = val) ∧
    (pushData g.eventData (trimStart val') = pushData f.eventData (trimStart val) ∨
      (pushData f.eventData (trimStart val)).length <
        (pushData g.eventData (trimStart val')).length) := by
  have chunk : trimStart val' = trimStart val ∨
      (trimStart val).length < (trimStart val').length := by
    rcases hval.trimStart with ⟨_, trimmed⟩ | ⟨_, _, longer⟩
    · exact .inl trimmed
    · exact .inr longer
  rw [← hval.trimStart_eq_iff]
  rcases pushData_eq_or_longer data chunk with ⟨data, chunk, all⟩ | ⟨differ, longer⟩
  · exact ⟨iff_of_true all ⟨data, chunk⟩, .inl all⟩
  · refine ⟨iff_of_false (fun all => ?_) differ, .inr longer⟩
    rw [all] at longer
    exact Nat.lt_irrefl _ longer

theorem agree_data (hval : ReadAs val val')
    (data : g.eventData = f.eventData ∨ f.eventData.length < g.eventData.length) :
    Agree f g (("data:".toList ++ val) :: lines) (("data:".toList ++ val') :: reads) ↔
      Agree { f with eventData := pushData f.eventData (trimStart val) }
        { g with eventData := pushData g.eventData (trimStart val') } lines reads := by
  have equal := (pushData_eq_iff hval data).1
  have pending : (!(pushData f.eventData (trimStart val)).isEmpty) =
      pendingAfter (!f.eventData.isEmpty) ("data:".toList ++ val) := by
    rw [pendingAfter_data, isEmpty_pushData, Bool.not_and]
  have blank : [] ∈ ("data:".toList ++ val) :: lines ↔ [] ∈ lines := nil_mem_cons_iff rfl
  constructor
  · intro agree
    obtain ⟨same, kept⟩ := (kept_cons _).mp agree.kept
    rw [reachesEvent_data, List.append_cancel_left_eq, List.contains_iff_mem] at same
    refine ⟨fun mem => ?_, fun used => agree.eventType ?_, fun used => agree.eventId ?_, ?_⟩
    · exact equal.mpr ⟨agree.data (blank.mpr mem), same mem⟩
    · rwa [typeUsed_cons _ _ rfl rfl, ← pending]
    · rwa [idUsed_cons _ _ rfl rfl, ← pending]
    · rwa [← pending] at kept
  · intro agree
    refine ⟨fun mem => ?_, fun used => agree.eventType ?_, fun used => agree.eventId ?_, ?_⟩
    · exact (equal.mp (agree.data (blank.mp mem))).1
    · rwa [typeUsed_cons _ _ rfl rfl, ← pending] at used
    · rwa [idUsed_cons _ _ rfl rfl, ← pending] at used
    · rw [kept_cons, reachesEvent_data, List.append_cancel_left_eq, List.contains_iff_mem,
        ← pending]
      exact ⟨fun mem => (equal.mp (agree.data mem)).2, agree.kept⟩

theorem agree_other (some : line.isEmpty = false) (event : isField "event:" line = false)
    (id : isField "id:" line = false) (data : isField "data:" line = false) :
    Agree f g (line :: lines) (read :: reads) ↔ Agree f g lines reads := by
  have none : showsData line = false := by
    rw [isField, Option.isSome_eq_false_iff, Option.isNone_iff_eq_none] at data
    rw [showsData, data]
  have reaches : ∀ pending, reachesEvent pending line lines = false := by
    intro pending
    simp [reachesEvent, event, id, data]
  constructor
  · intro agree
    obtain ⟨_, kept⟩ := (kept_cons _).mp agree.kept
    rw [pendingAfter_of_not_data _ some none] at kept
    refine ⟨fun mem => agree.data ((nil_mem_cons_iff some).mpr mem), fun used => agree.eventType ?_,
      fun used => agree.eventId ?_, kept⟩
    · rwa [typeUsed_cons _ _ some event, pendingAfter_of_not_data _ some none]
    · rwa [idUsed_cons _ _ some id, pendingAfter_of_not_data _ some none]
  · intro agree
    refine ⟨fun mem => agree.data ((nil_mem_cons_iff some).mp mem), fun used => agree.eventType ?_,
      fun used => agree.eventId ?_, ?_⟩
    · rwa [typeUsed_cons _ _ some event, pendingAfter_of_not_data _ some none] at used
    · rwa [idUsed_cons _ _ some id, pendingAfter_of_not_data _ some none] at used
    · rw [kept_cons, pendingAfter_of_not_data _ some none, reaches]
      exact ⟨fun used => absurd used Bool.false_ne_true, agree.kept⟩

end

/-- Two runs have the same events exactly when they agree on all that reaches one. -/
theorem events_eq_iff (h : List.Forall₂ ReadAs lines reads) (same : FieldsReadAs f g) :
    g.events reads = f.events lines ↔ Agree f g lines reads := by
  induction h generalizing f g with
  | nil => exact iff_of_true rfl agree_nil
  | cons head tail ih =>
    cases linePair_of_readAs head with
    | blank =>
      by_cases some : f.eventData = []
      · rw [events_blank_of_none some]
        by_cases some' : g.eventData = []
        · rw [events_blank_of_none some', agree_blank_of_none some some']
          exact ih ⟨.inl (some'.trans some.symm), .inl rfl⟩
        · -- Only the second run has an event here, and it has no fewer from here on.
          have more := length_events_le_of_readAs (f := { f with eventType := [] }) (g := empty) tail
            (fun h => absurd some h)
          rw [events_blank_of_some some']
          refine iff_of_false (fun same => ?_) (fun agree => ?_)
          · have := congrArg List.length same
            rw [List.length_cons] at this
            omega
          · exact some' ((agree.data (by simp)).trans some)
      · have some' : g.eventData ≠ [] := by
          rcases same.data with data | longer
          · rwa [data]
          · exact List.ne_nil_of_length_pos (by omega)
        rw [events_blank_of_some some, events_blank_of_some some', List.cons.injEq,
          toEvent_eq_iff same, agree_blank_of_some some, ih ⟨.inl rfl, .inl rfl⟩]
    | event hval =>
      rw [agree_event hval]
      refine ih ⟨same.data, ?_⟩
      rcases hval.trimStart with ⟨_, trimmed⟩ | ⟨_, longer⟩
      · exact .inl trimmed
      · exact .inr longer
    | id hval =>
      rw [agree_id hval]
      exact ih ⟨same.data, same.eventType⟩
    | data hval =>
      rw [agree_data hval same.data]
      exact ih ⟨(pushData_eq_iff hval same.data).2, same.eventType⟩
    | other some event id data skip skip' =>
      rw [events_other skip, events_other skip', agree_other some event id data]
      exact ih same

end SseFields

end OjsSdk
