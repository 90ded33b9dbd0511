import OjsSdk.Job
import OjsSdk.Serde

namespace OjsSdk

open Serde

/-- `2.0`. -/
def defaultBackoffCoefficient : BitVec 64 := 0x4000000000000000

/-- An `f64` through `serde_json`, and a timestamp through chrono. -/
structure Scalars where
  f64 : Wire (BitVec 64)
  timestamp : Wire DateTime
  f64_default : f64.decode (f64.encode defaultBackoffCoefficient) = some defaultBackoffCoefficient

def JobState.wireName : JobState → String
  | .pending => "pending"
  | .scheduled => "scheduled"
  | .available => "available"
  | .active => "active"
  | .completed => "completed"
  | .retryable => "retryable"
  | .cancelled => "cancelled"
  | .discarded => "discarded"

def JobState.wire : Wire JobState :=
  .unitEnum [.pending, .scheduled, .available, .active, .completed, .retryable, .cancelled,
    .discarded] wireName

def OnExhaustion.wireName : OnExhaustion → String
  | .discard => "discard"
  | .deadLetter => "dead_letter"

def OnExhaustion.wire : Wire OnExhaustion :=
  .unitEnum [.discard, .deadLetter] wireName

def UniqueDimension.wireName : UniqueDimension → String
  | .type => "type"
  | .queue => "queue"
  | .args => "args"
  | .metadata => "meta"

def UniqueDimension.wire : Wire UniqueDimension :=
  .unitEnum [.type, .queue, .args, .metadata] wireName

def ConflictStrategy.wireName : ConflictStrategy → String
  | .reject => "reject"
  | .replace => "replace"
  | .replaceExceptSchedule => "replace_except_schedule"
  | .ignore => "ignore"

def ConflictStrategy.wire : Wire ConflictStrategy :=
  .unitEnum [.reject, .replace, .replaceExceptSchedule, .ignore] wireName

def UniquePolicy.wire : Wire UniquePolicy :=
  Record.struct
    (.field "keys" (UniqueDimension.wire.list.defaulted [.type]) <|
      .field "args_keys" Wire.string.list.optional <|
      .field "meta_keys" Wire.string.list.optional <|
      .field "period" Wire.string.optional <|
      .field "states"
        (JobState.wire.list.defaulted [.available, .active, .scheduled, .retryable, .pending]) <|
      .field "on_conflict" (ConflictStrategy.wire.defaulted .reject) .empty)
    (fun (keys, argsKeys, metaKeys, period, states, onConflict, ()) =>
      { keys, argsKeys, metaKeys, period, states, onConflict })
    (fun p => (p.keys, p.argsKeys, p.metaKeys, p.period, p.states, p.onConflict, ()))
    (by simp) (fun _ => rfl)

def JobError.wire : Wire JobError :=
  Record.struct
    (.field "type" Wire.string.required <|
      .field "message" Wire.string.required <|
      .field "backtrace" Wire.string.list.optional .empty)
    (fun (errorType, message, backtrace, ()) => { errorType, message, backtrace })
    (fun e => (e.errorType, e.message, e.backtrace, ()))
    (by simp) (fun _ => rfl)

def RetryPolicy.wire (sc : Scalars) : Wire RetryPolicy :=
  Record.struct
    (.field "max_attempts" (Wire.u32.defaulted 3) <|
      .field "initial_interval" (Wire.string.defaulted "PT1S") <|
      .field "backoff_coefficient" (sc.f64.defaulted defaultBackoffCoefficient sc.f64_default) <|
      .field "max_interval" (Wire.string.defaulted "PT5M") <|
      .field "jitter" (Wire.bool.defaulted true) <|
      .field "non_retryable_errors" (Wire.string.list.defaulted []) <|
      .field "on_exhaustion" (OnExhaustion.wire.defaulted .discard) .empty)
    (fun (maxAttempts, initialInterval, backoffCoefficient, maxInterval, jitter,
        nonRetryableErrors, onExhaustion, ()) =>
      { maxAttempts, initialInterval, backoffCoefficient, maxInterval, jitter,
        nonRetryableErrors, onExhaustion })
    (fun p => (p.maxAttempts, p.initialInterval, p.backoffCoefficient, p.maxInterval, p.jitter,
      p.nonRetryableErrors, p.onExhaustion, ()))
    (by simp) (fun _ => rfl)

def Job.wire (sc : Scalars) : Wire Job :=
  Record.struct
    (.field "specversion" (Wire.string.defaulted "1.0") <|
      .field "id" Wire.string.required <|
      .field "type" Wire.string.required <|
      .field "queue" (Wire.string.defaulted "default") <|
      .field "args" (Wire.value.defaulted (.array [])) <|
      .field "meta" Wire.map.optional <|
      .field "priority" (Wire.i32.defaulted 0) <|
      .field "timeout" Wire.u64.optional <|
      .field "scheduled_at" sc.timestamp.optional <|
      .field "expires_at" sc.timestamp.optional <|
      .field "retry" (RetryPolicy.wire sc).optional <|
      .field "unique" UniquePolicy.wire.optional <|
      .field "schema" Wire.string.optional <|
      .field "state" JobState.wire.optional <|
      .field "attempt" (Wire.u32.defaulted 0) <|
      .field "max_attempts" Wire.u32.optional <|
      .field "created_at" sc.timestamp.optional <|
      .field "enqueued_at" sc.timestamp.optional <|
      .field "started_at" sc.timestamp.optional <|
      .field "completed_at" sc.timestamp.optional <|
      .field "error" JobError.wire.optional <|
      .field "result" Wire.value.optional <|
      .field "tags" Wire.string.skipEmpty <|
      .field "timeout_ms" Wire.u64.optional .empty)
    (fun (specversion, id, jobType, queue, args, metadata, priority, timeout, scheduledAt,
        expiresAt, retry, unique, schema, state, attempt, maxAttempts, createdAt, enqueuedAt,
        startedAt, completedAt, error, result, tags, timeoutMs, ()) =>
      { specversion, id, jobType, queue, args, metadata, priority, timeout, scheduledAt,
        expiresAt, retry, unique, schema, state, attempt, maxAttempts, createdAt, enqueuedAt,
        startedAt, completedAt, error, result, tags, timeoutMs })
    (fun j => (j.specversion, j.id, j.jobType, j.queue, j.args, j.metadata, j.priority, j.timeout,
      j.scheduledAt, j.expiresAt, j.retry, j.unique, j.schema, j.state, j.attempt, j.maxAttempts,
      j.createdAt, j.enqueuedAt, j.startedAt, j.completedAt, j.error, j.result, j.tags,
      j.timeoutMs, ()))
    (by simp) (fun _ => rfl)

inductive WorkflowState
  | pending
  | running
  | completed
  | failed
  | cancelled
  deriving DecidableEq, Repr

def WorkflowState.wireName : WorkflowState → String
  | .pending => "pending"
  | .running => "running"
  | .completed => "completed"
  | .failed => "failed"
  | .cancelled => "cancelled"

def WorkflowState.wire : Wire WorkflowState :=
  .unitEnum [.pending, .running, .completed, .failed, .cancelled] wireName

structure WorkflowStepStatus where
  id : String
  jobType : String
  state : String
  jobId : Option String
  dependsOn : List String
  startedAt : Option DateTime
  completedAt : Option DateTime
  result : Option Value
  deriving Repr

def WorkflowStepStatus.wire (sc : Scalars) : Wire WorkflowStepStatus :=
  Record.struct
    (.field "id" Wire.string.required <|
      .field "type" Wire.string.required <|
      .field "state" Wire.string.required <|
      .field "job_id" Wire.string.optional <|
      .field "depends_on" (Wire.string.list.defaulted []) <|
      .field "started_at" sc.timestamp.optional <|
      .field "completed_at" sc.timestamp.optional <|
      .field "result" Wire.value.optional .empty)
    (fun (id, jobType, state, jobId, dependsOn, startedAt, completedAt, result, ()) =>
      { id, jobType, state, jobId, dependsOn, startedAt, completedAt, result })
    (fun s => (s.id, s.jobType, s.state, s.jobId, s.dependsOn, s.startedAt, s.completedAt,
      s.result, ()))
    (by simp) (fun _ => rfl)

structure Workflow where
  id : String
  name : Option String
  state : WorkflowState
  createdAt : Option DateTime
  steps : List WorkflowStepStatus
  cancelledAt : Option DateTime
  stepsCancelled : Option UInt32
  stepsAlreadyComplete : Option UInt32
  deriving Repr

def Workflow.wire (sc : Scalars) : Wire Workflow :=
  Record.struct
    (.field "id" Wire.string.required <|
      .field "name" Wire.string.optional <|
      .field "state" WorkflowState.wire.required <|
      .field "created_at" sc.timestamp.optional <|
      .field "steps" ((WorkflowStepStatus.wire sc).list.defaulted []) <|
      .field "cancelled_at" sc.timestamp.optional <|
      .field "steps_cancelled" Wire.u32.optional <|
      .field "steps_already_complete" Wire.u32.optional .empty)
    (fun (id, name, state, createdAt, steps, cancelledAt, stepsCancelled, stepsAlreadyComplete,
        ()) =>
      { id, name, state, createdAt, steps, cancelledAt, stepsCancelled, stepsAlreadyComplete })
    (fun w => (w.id, w.name, w.state, w.createdAt, w.steps, w.cancelledAt, w.stepsCancelled,
      w.stepsAlreadyComplete, ()))
    (by simp) (fun _ => rfl)

inductive OverlapPolicy
  | skip
  | allow
  | cancelPrevious
  | enqueue
  deriving DecidableEq, Repr

def OverlapPolicy.wireName : OverlapPolicy → String
  | .skip => "skip"
  | .allow => "allow"
  | .cancelPrevious => "cancel_previous"
  | .enqueue => "enqueue"

def OverlapPolicy.wire : Wire OverlapPolicy :=
  .unitEnum [.skip, .allow, .cancelPrevious, .enqueue] wireName

/-- A cron job. `metadata` is the source's `meta`. -/
structure CronJob where
  name : String
  cron : String
  timezone : String
  jobType : String
  args : Value
  metadata : Option (List (String × Value))
  options : Option Value
  overlapPolicy : OverlapPolicy
  enabled : Bool
  description : Option String
  status : Option String
  lastRunAt : Option DateTime
  nextRunAt : Option DateTime
  runCount : Option UInt64
  createdAt : Option DateTime
  deriving Repr

def CronJob.wire (sc : Scalars) : Wire CronJob :=
  Record.struct
    (.field "name" Wire.string.required <|
      .field "cron" Wire.string.required <|
      .field "timezone" (Wire.string.defaulted "UTC") <|
      .field "type" Wire.string.required <|
      .field "args" (Wire.value.defaulted .null) <|
      .field "meta" Wire.map.optional <|
      .field "options" Wire.value.optional <|
      .field "overlap_policy" (OverlapPolicy.wire.defaulted .skip) <|
      .field "enabled" (Wire.bool.defaulted true) <|
      .field "description" Wire.string.optional <|
      .field "status" Wire.string.optional <|
      .field "last_run_at" sc.timestamp.optional <|
      .field "next_run_at" sc.timestamp.optional <|
      .field "run_count" Wire.u64.optional <|
      .field "created_at" sc.timestamp.optional .empty)
    (fun (name, cron, timezone, jobType, args, metadata, options, overlapPolicy, enabled,
        description, status, lastRunAt, nextRunAt, runCount, createdAt, ()) =>
      { name, cron, timezone, jobType, args, metadata, options, overlapPolicy, enabled,
        description, status, lastRunAt, nextRunAt, runCount, createdAt })
    (fun c => (c.name, c.cron, c.timezone, c.jobType, c.args, c.metadata, c.options,
      c.overlapPolicy, c.enabled, c.description, c.status, c.lastRunAt, c.nextRunAt, c.runCount,
      c.createdAt, ()))
    (by simp) (fun _ => rfl)

structure Event where
  specversion : String
  id : String
  eventType : String
  source : String
  time : DateTime
  subject : Option String
  datacontenttype : Option String
  data : Option (List (String × Value))
  deriving Repr

def Event.wire (sc : Scalars) : Wire Event :=
  Record.struct
    (.field "specversion" (Wire.string.defaulted "1.0") <|
      .field "id" Wire.string.required <|
      .field "type" Wire.string.required <|
      .field "source" Wire.string.required <|
      .field "time" sc.timestamp.required <|
      .field "subject" Wire.string.optional <|
      .field "datacontenttype" Wire.string.optional <|
      .field "data" Wire.map.optional .empty)
    (fun (specversion, id, eventType, source, time, subject, datacontenttype, data, ()) =>
      { specversion, id, eventType, source, time, subject, datacontenttype, data })
    (fun e => (e.specversion, e.id, e.eventType, e.source, e.time, e.subject, e.datacontenttype,
      e.data, ()))
    (by simp) (fun _ => rfl)

/-- A job that is given no more than what a job needs takes every other field's default. -/
theorem Job.wire_decode_ofWire (sc : Scalars) (id jobType : String) (args : Value) :
    (Job.wire sc).decode (.object [("args", args), ("id", .string id), ("type", .string jobType)]) =
      some (Job.ofWire id jobType args) :=
  rfl

/-- What the server answers with is stable: a value that decodes decodes to the same again once
it has been encoded. -/
theorem wire_types_stable (sc : Scalars) :
    (∀ v job, (Job.wire sc).decode v = some job →
      (Job.wire sc).decode ((Job.wire sc).encode job) = some job) ∧
    (∀ v workflow, (Workflow.wire sc).decode v = some workflow →
      (Workflow.wire sc).decode ((Workflow.wire sc).encode workflow) = some workflow) ∧
    (∀ v cronJob, (CronJob.wire sc).decode v = some cronJob →
      (CronJob.wire sc).decode ((CronJob.wire sc).encode cronJob) = some cronJob) ∧
    (∀ v event, (Event.wire sc).decode v = some event →
      (Event.wire sc).decode ((Event.wire sc).encode event) = some event) :=
  ⟨(Job.wire sc).stable, (Workflow.wire sc).stable, (CronJob.wire sc).stable,
    (Event.wire sc).stable⟩

/-- New year's day of 2025 is the only timestamp. -/
def newYear : Scalars where
  f64 :=
    { decode := fun
        | .number (.float bits) => some bits
        | _ => none
      encode := fun bits => .number (.float bits)
      stable := fun _ _ _ => rfl
      not_null := fun _ _ _ null => by cases null }
  timestamp :=
    { decode := fun
        | .string "2025-01-01T00:00:00Z" => some ⟨1735689600000000000⟩
        | _ => none
      encode := fun _ => .string "2025-01-01T00:00:00Z"
      stable := fun v t decoded => by
        split at decoded
        next => exact decoded
        next => cases decoded
      not_null := fun _ _ _ null => by cases null }
  f64_default := rfl

def retriedValue : Value :=
  .object [("created_at", .string "2025-01-01T00:00:00Z"), ("id", .string "job-1"),
    ("meta", .null),
    ("retry", .object [("backoff_coefficient", .number (.float 0x3ff8000000000000))]),
    ("shard", .string "eu"), ("type", .string "email.send")]

def retriedJob : Job :=
  { Job.ofWire "job-1" "email.send" (.array []) with
    retry := some
      { maxAttempts := 3, initialInterval := "PT1S", backoffCoefficient := 0x3ff8000000000000
        maxInterval := "PT5M", jitter := true, nonRetryableErrors := []
        onExhaustion := .discard }
    createdAt := some ⟨1735689600000000000⟩ }

theorem retriedJob_stable :
    (Job.wire newYear).decode ((Job.wire newYear).encode retriedJob) = some retriedJob :=
  (wire_types_stable newYear).1 retriedValue retriedJob rfl

end OjsSdk
