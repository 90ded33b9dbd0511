import OjsSdk.BoundedChannel
import OjsSdk.Subscribe
import OjsSdk.ClientPaths

namespace OjsSdk

open BoundedChannel StdText

structure SubscribeOptions where
  url : String
  channel : String
  auth : Option String

/-- The request that opens an event stream. -/
structure StreamRequest where
  url : String
  headers : List (String × String)
  deriving DecidableEq, Repr

/-- What becomes of that request: an error of the HTTP client, or a status and a body. -/
inductive StreamReply
  | failed (error : String)
  | answered (status : Nat) (stream : List (Except String (List UInt8)))

def channelCapacity : Nat := 64

/-- The line before the first newline of the buffer, and what follows it. -/
def takeLine : List Char → Option (List Char × List Char)
  | [] => none
  | c :: buffer =>
    if c = '\n' then some ([], buffer)
    else (takeLine buffer).map (fun (line, rest) => (c :: line, rest))

/-- Where the spawned task is: it waits for a chunk, or it is in the loop over lines. -/
structure TaskState where
  stream : List (Except String (List UInt8))
  fields : SseFields
  buffer : List Char
  inLines : Bool
  waits : inLines = false → '\n' ∉ buffer

theorem takeLine_eq_none {buffer : List Char} (h : takeLine buffer = none) : '\n' ∉ buffer := by
  induction buffer with
  | nil => simp
  | cons c buffer ih =>
    rw [takeLine] at h
    split at h
    · cases h
    · next other =>
      have later := ih (by simpa using h)
      simp [later, Ne.symm other]

theorem takeLine_eq_some {buffer line rest : List Char} (h : takeLine buffer = some (line, rest)) :
    '\n' ∉ line ∧ buffer = line ++ '\n' :: rest := by
  induction buffer generalizing line with
  | nil => cases h
  | cons c buffer ih =>
    rw [takeLine] at h
    split at h
    · next same =>
      cases h
      exact ⟨by simp, by simp [same]⟩
    · next other =>
      obtain ⟨⟨first, later⟩, found, same⟩ := Option.map_eq_some_iff.mp h
      cases same
      obtain ⟨single, whole⟩ := ih found
      refine ⟨?_, by simp [whole]⟩
      simp [single, Ne.symm other]

namespace TaskState

def start (stream : List (Except String (List UInt8))) : TaskState where
  stream := stream
  fields := .empty
  buffer := []
  inLines := false
  waits := fun _ => List.not_mem_nil

/-- The next step of the task. It returns at the end of the stream and at an error. -/
def next (t : TaskState) : Move TaskState SseEvent :=
  match t.inLines with
  | false =>
    match t.stream with
    | [] | .error _ :: _ => .done
    | .ok chunk :: stream =>
      .quiet
        { stream
          fields := t.fields
          buffer := t.buffer ++ (fromUtf8Lossy chunk).toList
          inLines := true
          waits := fun h => by cases h }
  | true =>
    match h : takeLine t.buffer with
    | none => .quiet { t with inLines := false, waits := fun _ => takeLine_eq_none h }
    | some (line, rest) =>
      let (fields, event) := t.fields.handleLine line
      let later : TaskState :=
        { stream := t.stream
          fields
          buffer := rest
          inLines := true
          waits := fun h => by cases h }
      match event with
      | none => .quiet later
      | some event => .emit event later

/-- The events of the text that has not been handled yet. -/
def events (t : TaskState) : List SseEvent :=
  t.fields.events (LineSplit.cut '\n' (t.buffer ++ decoded t.stream)).1

def chunkLength : Except String (List UInt8) → Nat
  | .error _ => 1
  | .ok chunk => (fromUtf8Lossy chunk).toList.length + 1

def rank (t : TaskState) : Nat :=
  2 * (t.buffer.length + (t.stream.map chunkLength).sum) + t.inLines.toNat

end TaskState

/-- The system of the task, its channel and its receiver. -/
abbrev Subscription := System TaskState SseEvent channelCapacity

namespace Subscription

def start (stream : List (Except String (List UInt8))) : Subscription :=
  System.start channelCapacity (.start stream)

def step : Subscription → ChannelAction → Option Subscription := System.step TaskState.next

end Subscription

section

variable (urlEncode : String → String)

def streamRequest (opts : SubscribeOptions) : StreamRequest where
  url := String.ofList (opts.url.toList.reverse.dropWhile (fun c => c = '/')).reverse ++
    "/ojs/v1/events/stream?channel=" ++ urlEncode opts.channel
  headers := [("Accept", "text/event-stream"), ("Cache-Control", "no-cache")] ++
    match opts.auth with
    | some token => [("Authorization", "Bearer " ++ token)]
    | none => []

/-- `subscribe`. The reply to the request and the text of a status are parameters. -/
def subscribe (statusText : Nat → String) (reply : StreamRequest → StreamReply)
    (opts : SubscribeOptions) : Except String Subscription :=
  match reply (streamRequest urlEncode opts) with
  | .failed e => .error e
  | .answered status stream =>
    if 200 ≤ status ∧ status < 300 then .ok (.start stream)
    else .error ("SSE connection failed: " ++ statusText status)

def subscribeJob (statusText : Nat → String) (reply : StreamRequest → StreamReply)
    (url jobId : String) (auth : Option String) : Except String Subscription :=
  subscribe urlEncode statusText reply { url, channel := "job:" ++ jobId, auth }

def subscribeQueue (statusText : Nat → String) (reply : StreamRequest → StreamReply)
    (url queue : String) (auth : Option String) : Except String Subscription :=
  subscribe urlEncode statusText reply { url, channel := "queue:" ++ queue, auth }

end

namespace TaskState

variable {t u : TaskState}

/-- Everything that a step of the task can be. -/
theorem next_cases (t : TaskState) :
    (t.inLines = false ∧ decoded t.stream = [] ∧ t.next = .done) ∨
    (∃ chunk stream u, t.inLines = false ∧ t.stream = .ok chunk :: stream ∧ t.next = .quiet u ∧
      u.stream = stream ∧ u.fields = t.fields ∧ u.inLines = true ∧
      u.buffer = t.buffer ++ (fromUtf8Lossy chunk).toList) ∨
    (∃ u, t.inLines = true ∧ t.next = .quiet u ∧ u.stream = t.stream ∧ u.fields = t.fields ∧
      u.inLines = false ∧ u.buffer = t.buffer) ∨
    (∃ line u, t.inLines = true ∧ '\n' ∉ line ∧ t.buffer = line ++ '\n' :: u.buffer ∧
      u.stream = t.stream ∧ u.inLines = true ∧ u.fields = (t.fields.handleLine line).1 ∧
      ((t.fields.handleLine line).2 = none ∧ t.next = .quiet u ∨
        ∃ event, (t.fields.handleLine line).2 = some event ∧ t.next = .emit event u)) := by
  obtain ⟨stream, fields, buffer, inLines, waits⟩ := t
  cases inLines with
  | false =>
    match stream with
    | [] => exact .inl ⟨rfl, rfl, rfl⟩
    | .error _ :: _ => exact .inl ⟨rfl, rfl, rfl⟩
    | .ok chunk :: stream =>
      exact .inr (.inl ⟨chunk, stream, _, rfl, rfl, rfl, rfl, rfl, rfl, rfl⟩)
  | true =>
    refine .inr (.inr ?_)
    unfold next
    dsimp only
    split
    · exact .inl ⟨_, rfl, rfl, rfl, rfl, rfl, rfl⟩
    · next line rest found =>
      obtain ⟨single, whole⟩ := takeLine_eq_some found
      let later : TaskState :=
        { stream, fields := (fields.handleLine line).1, buffer := rest, inLines := true
          waits := fun h => by cases h }
      refine .inr ⟨line, later, rfl, single, whole, rfl, rfl, rfl, ?_⟩
      cases (fields.handleLine line).2 with
      | none => exact .inl ⟨rfl, by simp [later]⟩
      | some event => exact .inr ⟨event, rfl, by simp [later]⟩

theorem rank_next (h : t.next = .quiet u ∨ ∃ event, t.next = .emit event u) :
    rank u < rank t := by
  rcases t.next_cases with ⟨_, _, done⟩ |
    ⟨chunk, stream, v, outside, ready, moves, stream', _, inside, buffer⟩ |
    ⟨v, inside, moves, stream', _, outside, buffer⟩ |
    ⟨line, v, inside, _, whole, stream', inside', _, moves⟩
  · simp [done] at h
  · obtain rfl : v = u := by simpa [moves] using h
    simp only [rank, outside, ready, stream', inside, buffer, List.length_append, List.map_cons,
      List.sum_cons, chunkLength, Bool.toNat_false, Bool.toNat_true]
    omega
  · obtain rfl : v = u := by simpa [moves] using h
    simp [rank, inside, outside, stream', buffer]
  · obtain rfl : v = u := by
      rcases moves with ⟨_, moves⟩ | ⟨_, _, moves⟩ <;> simpa [moves] using h
    simp only [rank, inside, inside', whole, stream', List.length_append, List.length_cons]
    omega

theorem events_line {line : List Char} (single : '\n' ∉ line)
    (whole : t.buffer = line ++ '\n' :: u.buffer) (stream : u.stream = t.stream)
    (fields : u.fields = (t.fields.handleLine line).1) :
    t.events = (t.fields.handleLine line).2.toList ++ u.events := by
  rw [events, events, whole, stream, fields, List.append_assoc, List.cons_append,
    LineSplit.cut_line single]
  rfl

theorem events_quiet (h : t.next = .quiet u) : t.events = u.events := by
  rcases t.next_cases with ⟨_, _, done⟩ |
    ⟨chunk, stream, v, _, ready, moves, stream', fields, _, buffer⟩ |
    ⟨v, _, moves, stream', fields, _, buffer⟩ |
    ⟨line, v, _, single, whole, stream', _, fields, ⟨silent, moves⟩ | ⟨a, _, moves⟩⟩
  · simp [done] at h
  · obtain rfl : v = u := by simpa [moves] using h
    rw [events, events, ready, stream', fields, buffer, decoded, List.append_assoc]
  · obtain rfl : v = u := by simpa [moves] using h
    rw [events, events, stream', fields, buffer]
  · obtain rfl : v = u := by simpa [moves] using h
    simpa [silent] using events_line single whole stream' fields
  · simp [moves] at h

theorem events_emit {event : SseEvent} (h : t.next = .emit event u) :
    t.events = event :: u.events := by
  rcases t.next_cases with ⟨_, _, done⟩ | ⟨_, _, v, _, _, moves, _⟩ | ⟨v, _, moves, _⟩ |
    ⟨line, v, _, single, whole, stream', _, fields, ⟨_, moves⟩ | ⟨a, completes, moves⟩⟩
  · simp [done] at h
  · simp [moves] at h
  · simp [moves] at h
  · simp [moves] at h
  · obtain ⟨rfl, rfl⟩ : a = event ∧ v = u := by simpa [moves] using h
    simpa [completes] using events_line single whole stream' fields

theorem events_done (h : t.next = .done) : t.events = [] := by
  rcases t.next_cases with ⟨outside, ended, _⟩ | ⟨_, _, v, _, _, moves, _⟩ | ⟨v, _, moves, _⟩ |
    ⟨_, v, _, _, _, _, _, _, ⟨_, moves⟩ | ⟨_, _, moves⟩⟩
  · rw [events, ended, List.append_nil, LineSplit.cut_open (t.waits outside)]
    rfl
  · simp [moves] at h
  · simp [moves] at h
  · simp [moves] at h
  · simp [moves] at h

theorem produces : Produces next events rank where
  quiet := fun _ _ h => ⟨events_quiet h, rank_next (.inl h)⟩
  emit := fun _ a _ h => ⟨events_emit h, rank_next (.inr ⟨a, h⟩)⟩
  done := fun _ h => events_done h

end TaskState

/-- The events of a whole body. -/
def bodyEvents (stream : List (Except String (List UInt8))) : List SseEvent :=
  SseFields.empty.events (LineSplit.cut '\n' (decoded stream)).1

namespace Subscription

variable {stream : List (Except String (List UInt8))} {s : Subscription}
  {past : List (Subscription × ChannelAction)}

/-- Under every schedule the receiver gets the events of the text in their order, and all of
them once it has been told the end; what it has not got yet is in the channel, in the same
order, or still to come. A receiver that was dropped gets nothing more, and the task goes no
further than the next event. -/
theorem received_in_order (run : StepSystem.Run step (start stream) past s) :
    s.received <+: bodyEvents stream ∧ (s.closed = true → s.received = bodyEvents stream) ∧
      (s.channel.receiver = true →
        s.received ++ s.channel.queue ++ s.stage.coming TaskState.events = bodyEvents stream) ∧
      ∀ e, (e, ChannelAction.drop) ∈ past → s.received = e.received ∧ s.channel.queue = [] ∧
        (s.stage = .returned ∨
          s.stage.coming TaskState.events = e.stage.coming TaskState.events) := by
  have kept : System.Kept TaskState.events (bodyEvents stream) s :=
    System.kept_of_run TaskState.produces run
  refine ⟨kept.gone, kept.closed, kept.listening, ?_⟩
  intro e he
  have dropped := System.dropped_of_run TaskState.produces run he
  exact ⟨dropped.received, s.channel.unread dropped.gone, dropped.coming⟩

/-- The text "data: hi" and an empty line, in two chunks. -/
def greeting : List (Except String (List UInt8)) :=
  [.ok [100, 97, 116, 97, 58, 32, 104], .ok [105, 10, 10]]

def greetingSchedule : List ChannelAction :=
  List.replicate 6 .produce ++ [.receive, .produce, .produce, .receive]

theorem greeting_received : ∃ past s,
    StepSystem.exec step [] (start greeting) greetingSchedule = some (past, s) ∧
      s.closed = true ∧ s.received = bodyEvents greeting ∧
      s.received = [⟨"", "message", "hi"⟩] := by
  have ran : StepSystem.exec step [] (start greeting) greetingSchedule = some (_, _) := rfl
  have ordered := received_in_order (StepSystem.Run.start.exec ran)
  exact ⟨_, _, ran, rfl, ordered.2.1 rfl, rfl⟩

end Subscription

end OjsSdk
