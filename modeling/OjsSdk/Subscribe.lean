import OjsSdk.LineSplit
import OjsSdk.StdText

namespace OjsSdk

open StdText

structure SseEvent where
  id : String
  eventType : String
  data : String
  deriving DecidableEq, Repr

/-- The accumulators of the stream task. -/
structure SseFields where
  eventType : List Char
  eventId : List Char
  eventData : List Char
  deriving DecidableEq, Repr

namespace SseFields

def empty : SseFields where
  eventType := []
  eventId := []
  eventData := []

def toEvent (f : SseFields) : SseEvent where
  id := String.ofList f.eventId
  eventType := if f.eventType.isEmpty then "message" else String.ofList f.eventType
  data := String.ofList f.eventData

def pushData (data chunk : List Char) : List Char :=
  if data.isEmpty then chunk else data ++ '\n' :: chunk

/-- The body of the loop over lines, with the event that it has to send. -/
def handleLine (f : SseFields) (line : List Char) : SseFields × Option SseEvent :=
  if line.isEmpty then
    if !f.eventData.isEmpty then (empty, some f.toEvent)
    else ({ f with eventType := [] }, none)
  else
    match stripPrefix "event:".toList line with
    | some val => ({ f with eventType := trimStart val }, none)
    | none =>
      match stripPrefix "id:".toList line with
      | some val => ({ f with eventId := trimStart val }, none)
      | none =>
        match stripPrefix "data:".toList line with
        | some val => ({ f with eventData := pushData f.eventData (trimStart val) }, none)
        | none => (f, none)

end SseFields

/-- The task that `subscribe` spawns. It has ended when its receiver is gone or the stream
has failed. -/
structure StreamTask where
  fields : SseFields
  buffer : List Char
  sent : List SseEvent
  ended : Bool

namespace StreamTask

def start : StreamTask where
  fields := .empty
  buffer := []
  sent := []
  ended := false

/-- One line. `listening n` says whether the receiver is still there for the `n`-th event. -/
def onLine (listening : Nat → Bool) (t : StreamTask) (line : List Char) : StreamTask :=
  if t.ended then t
  else
    let (fields, event) := t.fields.handleLine line
    match event with
    | none => { t with fields }
    | some event =>
      if listening t.sent.length then { t with fields, sent := t.sent ++ [event] }
      else { t with fields, ended := true }

/-- One item of the byte stream. -/
def onItem (listening : Nat → Bool) (t : StreamTask) : Except String (List UInt8) → StreamTask
  | .error _ => { t with ended := true }
  | .ok chunk =>
    if t.ended then t
    else
      let (lines, rest) := LineSplit.cut '\n' (t.buffer ++ (fromUtf8Lossy chunk).toList)
      lines.foldl (onLine listening) { t with buffer := rest }

end StreamTask

def streamTask (listening : Nat → Bool) (items : List (Except String (List UInt8))) : StreamTask :=
  items.foldl (StreamTask.onItem listening) .start

/-- The text that the task reads: each chunk is decoded on its own, up to an error. -/
def decoded : List (Except String (List UInt8)) → List Char
  | [] => []
  | .error _ :: _ => []
  | .ok chunk :: items => (fromUtf8Lossy chunk).toList ++ decoded items

/-- The events that lines complete, after what has been read before them. -/
def SseFields.events : SseFields → List (List Char) → List SseEvent
  | _, [] => []
  | f, line :: lines => (f.handleLine line).2.toList ++ (f.handleLine line).1.events lines

/-- The events that reach a receiver, up to the first one for which it is gone. -/
def heard (listening : Nat → Bool) : Nat → List SseEvent → List SseEvent
  | _, [] => []
  | n, event :: events =>
    if listening n then event :: heard listening (n + 1) events else []

theorem heard_always (n : Nat) (events : List SseEvent) :
    heard (fun _ => true) n events = events := by
  induction events generalizing n with
  | nil => rfl
  | cons event events ih => simp [heard, ih]

namespace StreamTask

variable {listening : Nat → Bool} {t : StreamTask}

theorem foldl_onLine_ended (ended : t.ended = true) (lines : List (List Char)) :
    lines.foldl (onLine listening) t = t := by
  induction lines with
  | nil => rfl
  | cons line lines ih =>
    have same : t.onLine listening line = t := by simp [onLine, ended]
    rw [List.foldl_cons, same, ih]

theorem foldl_onItem_ended (ended : t.ended = true) (items : List (Except String (List UInt8))) :
    (items.foldl (onItem listening) t).sent = t.sent := by
  induction items generalizing t with
  | nil => rfl
  | cons item items ih =>
    rw [List.foldl_cons]
    cases item with
    | error e =>
      rw [ih (by rfl)]
      rfl
    | ok chunk =>
      have same : t.onItem listening (.ok chunk) = t := by simp [onItem, ended]
      rw [same, ih ended]

theorem foldl_onLine_sent (going : t.ended = false) (lines : List (List Char)) :
    (lines.foldl (onLine listening) t).sent =
      t.sent ++ heard listening t.sent.length (t.fields.events lines) := by
  induction lines generalizing t with
  | nil => simp [SseFields.events, heard]
  | cons line lines ih =>
    rw [List.foldl_cons, SseFields.events]
    cases event : (t.fields.handleLine line).2 with
    | none =>
      have next : t.onLine listening line = { t with fields := (t.fields.handleLine line).1 } := by
        simp [onLine, going, event]
      have rest := ih (t := { t with fields := (t.fields.handleLine line).1 }) going
      rw [next, rest]
      rfl
    | some e =>
      by_cases there : listening t.sent.length
      · have next : t.onLine listening line =
            { t with fields := (t.fields.handleLine line).1, sent := t.sent ++ [e] } := by
          simp [onLine, going, event, there]
        have rest := ih
          (t := { t with fields := (t.fields.handleLine line).1, sent := t.sent ++ [e] }) going
        rw [next, rest]
        simp [heard, there]
      · have next : t.onLine listening line =
            { t with fields := (t.fields.handleLine line).1, ended := true } := by
          simp [onLine, going, event, there]
        rw [next, foldl_onLine_ended rfl]
        simp [heard, there]

theorem foldl_onLine_buffer (buffer : List Char) (lines : List (List Char)) (t : StreamTask) :
    lines.foldl (onLine listening) { t with buffer } =
      { lines.foldl (onLine listening) t with buffer } := by
  induction lines generalizing t with
  | nil => rfl
  | cons line lines ih =>
    have one : onLine listening { t with buffer } line = { t.onLine listening line with buffer } := by
      unfold onLine
      by_cases ended : t.ended
      · simp [ended]
      · cases event : (t.fields.handleLine line).2 with
        | none => simp [ended, event]
        | some e => by_cases there : listening t.sent.length <;> simp [ended, event, there]
    rw [List.foldl_cons, one, ih]
    rfl

/-- How the text comes in chunks does not matter: the task handles the lines of the whole. -/
theorem foldl_onItem_sent (items : List (Except String (List UInt8))) {t : StreamTask}
    (unfinished : '\n' ∉ t.buffer) :
    (items.foldl (onItem listening) t).sent =
      ((LineSplit.cut '\n' (t.buffer ++ decoded items)).1.foldl (onLine listening) t).sent := by
  induction items generalizing t with
  | nil =>
    rw [decoded, List.append_nil, LineSplit.cut_open unfinished]
    rfl
  | cons item items ih =>
    rw [List.foldl_cons]
    cases going : t.ended with
    | true =>
      rw [foldl_onLine_ended going, foldl_onItem_ended (by cases item <;> simp [onItem, going])]
      cases item <;> simp [onItem, going]
    | false =>
      cases item with
      | error e =>
        rw [foldl_onItem_ended rfl, decoded, List.append_nil, LineSplit.cut_open unfinished]
        rfl
      | ok chunk =>
        have cut := LineSplit.cut_append '\n' (t.buffer ++ (fromUtf8Lossy chunk).toList)
          (decoded items)
        have last := (LineSplit.cut_spec '\n' (t.buffer ++ (fromUtf8Lossy chunk).toList)).2.1
        have next : t.onItem listening (.ok chunk) =
            { (LineSplit.cut '\n' (t.buffer ++ (fromUtf8Lossy chunk).toList)).1.foldl
                (onLine listening) t with
              buffer := (LineSplit.cut '\n' (t.buffer ++ (fromUtf8Lossy chunk).toList)).2 } := by
          simp only [onItem]
          rw [if_neg (by simp [going])]
          exact foldl_onLine_buffer _ _ t
        rw [next, ih last, decoded, ← List.append_assoc, cut, List.foldl_append,
          foldl_onLine_buffer]

end StreamTask

/-- What the task sends depends on the text alone, and a receiver that goes away cuts it short. -/
theorem streamTask_sent (listening : Nat → Bool) (items : List (Except String (List UInt8))) :
    (streamTask listening items).sent =
      heard listening 0 (SseFields.empty.events (LineSplit.cut '\n' (decoded items)).1) := by
  unfold streamTask
  rw [StreamTask.foldl_onItem_sent items (by simp [StreamTask.start]),
    StreamTask.foldl_onLine_sent rfl]
  rfl

end OjsSdk
