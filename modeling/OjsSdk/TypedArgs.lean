import OjsSdk.Job
import Mathlib.Logic.Function.Basic

namespace OjsSdk

/-- `normalize_args`: the wire form of a job's arguments is an array. -/
def normalizeArgs : Value → Value
  | .array items => .array items
  | .object fields => .array [.object fields]
  | other => .array [other]

/-- A `Deserialize` implementation, used through `serde_json::from_value`. -/
abbrev Decoder (T : Type) := Value → Except String T

def Job.arg {T : Type} (job : Job) (decode : Decoder T) (key : String) : Except OjsError T := do
  let fields ← match job.args with
    | .array [item] =>
      match item.asObject with
      | some fields => pure fields
      | none => throw (.handler "args[0] is not an object")
    | .object fields => pure fields
    | _ => throw (.handler "args is not an object or single-element array")
  let value ← match lookupField fields key with
    | some value => pure value
    | none => throw (.handler ("missing argument: " ++ key))
  match decode value with
  | .ok t => pure t
  | .error e => throw (.handler ("failed to deserialize arg '" ++ key ++ "': " ++ e))

/-- The value `Job::args_as` gives to the decoder: a one-element array is unwrapped. -/
def Job.argsAsInput (job : Job) : Value :=
  match job.args with
  | .array [item] => item
  | other => other

def Job.argsAs {T : Type} (job : Job) (decode : Decoder T) : Except OjsError T :=
  match decode job.argsAsInput with
  | .ok t => .ok t
  | .error e => .error (.handler ("failed to deserialize args: " ++ e))

/-- `JobContext`, without the transport handle. -/
structure JobContext where
  job : Job
  attempt : UInt32
  queue : String
  workflowId : Option String
  parentResults : Option (List (String × Value))
  workerId : String

abbrev HandlerResult := Except OjsError Value

abbrev HandlerFn := JobContext → HandlerResult

/-- The handlers of a worker, by job type. -/
abbrev Handlers := String → Option HandlerFn

def register (handlers : Handlers) (jobType : String) (handler : HandlerFn) : Handlers :=
  Function.update handlers jobType (some handler)

/-- The value the closure built by `Worker::register_typed` gives to the decoder. -/
def typedInput (job : Job) : Value := job.args

def typedHandler {T : Type} (decode : Decoder T) (handler : JobContext → T → HandlerResult) :
    HandlerFn := fun ctx =>
  match decode (typedInput ctx.job) with
  | .ok args => handler ctx args
  | .error e => .error (.handler ("failed to deserialize job args: " ++ e))

def registerTyped {T : Type} (handlers : Handlers) (jobType : String) (decode : Decoder T)
    (handler : JobContext → T → HandlerResult) : Handlers :=
  register handlers jobType (typedHandler decode handler)

@[simp] theorem register_self (handlers : Handlers) (jobType : String) (handler : HandlerFn) :
    register handlers jobType handler jobType = some handler := by
  simp [register]

theorem argsAsInput_singleton {job : Job} {item : Value} (h : job.args = .array [item]) :
    job.argsAsInput = item := by
  simp [Job.argsAsInput, h]

theorem argsAsInput_of_not_singleton {job : Job} (h : ¬∃ item, job.args = .array [item]) :
    job.argsAsInput = job.args := by
  unfold Job.argsAsInput
  split
  next item hargs => exact absurd ⟨item, hargs⟩ h
  next => rfl

/-- The two decoders of a job's arguments read the same value exactly when there
is nothing to unwrap. -/
theorem typedInput_eq_argsAsInput_iff (job : Job) :
    typedInput job = job.argsAsInput ↔ ¬∃ item, job.args = .array [item] := by
  constructor
  · rintro same ⟨item, hargs⟩
    rw [argsAsInput_singleton hargs, typedInput, hargs] at same
    exact Value.array_singleton_ne item same
  · intro h
    exact (argsAsInput_of_not_singleton h).symm

/-- A typed handler reaches its callback with `t`, whatever the callback does,
exactly when the decoder turns the raw arguments into `t`. -/
theorem typedHandler_calls_iff {T : Type} (decode : Decoder T) (ctx : JobContext) (t : T) :
    (∀ handler : JobContext → T → HandlerResult,
        typedHandler decode handler ctx = handler ctx t) ↔
      decode (typedInput ctx.job) = .ok t := by
  constructor
  · intro calls
    cases hd : decode (typedInput ctx.job) with
    | error e =>
      have reached := calls (fun _ _ => .ok .null)
      simp [typedHandler, hd] at reached
    | ok args =>
      by_contra other
      have ne : args ≠ t := fun he => other (he ▸ rfl)
      classical
      have reached := calls (fun _ a => if a = t then .ok .null else .error .workerShutdown)
      simp [typedHandler, hd, ne] at reached
  · intro hd handler
    simp [typedHandler, hd]

/-- What an enqueued object reaches a typed handler as. The wire form of the object
is `[v]`, and the handler decodes `[v]` itself while `Job::args_as` decodes `v`:
the two agree on a job exactly when there is nothing to unwrap. -/
theorem registerTyped_receives_enqueued_iff (T : Type) (decode : Decoder T) (handlers : Handlers)
    (ctx : JobContext) (fields : List (String × Value)) (t : T) (job : Job)
    (accepted : decode (.object fields) = .ok t)
    (enqueued : ctx.job.args = normalizeArgs (.object fields)) :
    ((∀ handler : JobContext → T → HandlerResult,
        ∃ installed, registerTyped handlers ctx.job.jobType decode handler ctx.job.jobType =
          some installed ∧ installed ctx = handler ctx t) ↔
      decode (.array [.object fields]) = decode (.object fields)) ∧
      (typedInput job = job.argsAsInput ↔ ¬∃ item, job.args = .array [item]) := by
  refine ⟨?_, typedInput_eq_argsAsInput_iff job⟩
  have raw : typedInput ctx.job = .array [.object fields] := enqueued
  rw [accepted, ← raw, ← typedHandler_calls_iff]
  constructor
  · intro calls handler
    obtain ⟨installed, hi, hc⟩ := calls handler
    rw [registerTyped, register_self] at hi
    cases Option.some.inj hi
    exact hc
  · intro calls handler
    exact ⟨_, register_self _ _ _, calls handler⟩

/-- The arguments of the typed handler shown in the README. -/
structure EmailArgs where
  recipient : String
  subject : String
  deriving DecidableEq, Repr

def requireString (name : String) : Option Value → Except String String
  | some (.string s) => .ok s
  | some _ => .error "invalid type, expected a string"
  | none => .error ("missing field " ++ name)

/-- The derived `Deserialize` of `EmailArgs`. -/
def EmailArgs.decode : Decoder EmailArgs := fun v => do
  match structFields ["to", "subject"] v with
  | some field =>
    let recipient ← requireString "to" (field "to")
    let subject ← requireString "subject" (field "subject")
    pure ⟨recipient, subject⟩
  | none => throw "invalid type, expected struct EmailArgs"

def emailObject : List (String × Value) :=
  [("subject", .string "Hello"), ("to", .string "user@example.com")]

def emailContext : JobContext where
  job := Job.ofWire "job-1" "email.send" (normalizeArgs (.object emailObject))
  attempt := 1
  queue := "default"
  workflowId := none
  parentResults := none
  workerId := "worker-1"

/-- The README handler never sees its arguments: the decoder is given the
one-element array and fails on it. -/
theorem registerTyped_email_not_received :
    ¬∀ (T : Type) (decode : Decoder T) (handlers : Handlers) (ctx : JobContext)
        (fields : List (String × Value)) (t : T),
        decode (.object fields) = .ok t →
        ctx.job.args = normalizeArgs (.object fields) →
        ∀ handler : JobContext → T → HandlerResult,
          ∃ installed, registerTyped handlers ctx.job.jobType decode handler ctx.job.jobType =
            some installed ∧ installed ctx = handler ctx t := by
  intro received
  obtain ⟨installed, hi, hc⟩ := received EmailArgs EmailArgs.decode (fun _ => none) emailContext
    emailObject ⟨"user@example.com", "Hello"⟩ rfl rfl (fun _ _ => .ok .null)
  rw [registerTyped, register_self] at hi
  cases Option.some.inj hi
  have failed : typedHandler EmailArgs.decode (fun _ _ => .ok .null) emailContext =
      .error (.handler
        "failed to deserialize job args: invalid type, expected a string") := rfl
  rw [failed] at hc
  cases hc

/-- A decoder that accepts any value is one for which the wrapping does not matter. -/
theorem registerTyped_any_received :
    ∃ installed, registerTyped (fun _ => none) "email.send" (fun _ => .ok ())
      (fun _ _ => .ok .null) "email.send" = some installed ∧ installed emailContext = .ok .null :=
  (registerTyped_receives_enqueued_iff Unit (fun _ => .ok ()) (fun _ => none) emailContext
    emailObject () emailContext.job rfl rfl).1.mpr rfl (fun _ _ => .ok .null)

end OjsSdk
