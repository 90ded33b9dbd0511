import OjsSdk.Client
import OjsSdk.SerdeKeeps
import OjsSdk.WireTypes

namespace OjsSdk

open Serde

/-- A `u32` that the model keeps as a number. -/
def count32 : Wire Nat where
  decode
    | .number (.posInt n) => if n.toNat < 2 ^ 32 then some n.toNat else none
    | _ => none
  encode n := .number (.posInt (UInt64.ofNat n))
  stable v n decoded := by
    split at decoded
    next m =>
      split at decoded
      next small =>
        cases decoded
        rw [UInt64.ofNat_toNat, if_pos small]
      next => cases decoded
    next => cases decoded
  not_null _ _ _ null := by cases null

/-- The bodies of requests derive `Serialize` only. How they decode is how a server with the same
attributes reads them. -/
def EnqueueOptionsWire.wire (sc : Scalars) : Wire EnqueueOptionsWire :=
  Record.struct
    (.field "queue" Wire.string.optional <|
      .field "priority" Wire.i32.optional <|
      .field "timeout_ms" Wire.u64.optional <|
      .field "delay_until" sc.timestamp.optional <|
      .field "expires_at" sc.timestamp.optional <|
      .field "retry" (RetryPolicy.wire sc).optional <|
      .field "unique" UniquePolicy.wire.optional <|
      .field "tags" Wire.string.list.optional <|
      .field "visibility_timeout_ms" Wire.u64.optional .empty)
    (fun (queue, priority, timeoutMs, delayUntil, expiresAt, retry, unique, tags,
        visibilityTimeoutMs, ()) =>
      { queue, priority, timeoutMs, delayUntil, expiresAt, retry, unique, tags,
        visibilityTimeoutMs })
    (fun o => (o.queue, o.priority, o.timeoutMs, o.delayUntil, o.expiresAt, o.retry, o.unique,
      o.tags, o.visibilityTimeoutMs, ()))
    (by simp) (fun _ => rfl)

def EnqueueRequest.wire (sc : Scalars) : Wire EnqueueRequest :=
  Record.struct
    (.field "type" Wire.string.required <|
      .field "args" Wire.value.required <|
      .field "meta" Wire.map.optional <|
      .field "schema" Wire.string.optional <|
      .field "options" (EnqueueOptionsWire.wire sc).optional .empty)
    (fun (jobType, args, metadata, schema, options, ()) =>
      { jobType, args, metadata, schema, options })
    (fun r => (r.jobType, r.args, r.metadata, r.schema, r.options, ()))
    (by simp) (fun _ => rfl)

def BatchEnqueueRequest.wire (sc : Scalars) : Wire BatchEnqueueRequest :=
  Record.struct (.field "jobs" (EnqueueRequest.wire sc).list.required .empty)
    (fun (jobs, ()) => { jobs }) (fun r => (r.jobs, ())) (by simp) (fun _ => rfl)

def WorkflowStepWire.wire (sc : Scalars) : Wire WorkflowStepWire :=
  Record.struct
    (.field "id" Wire.string.required <|
      .field "type" Wire.string.required <|
      .field "args" Wire.value.required <|
      .field "depends_on" Wire.string.skipEmpty <|
      .field "options" (EnqueueOptionsWire.wire sc).optional .empty)
    (fun (id, jobType, args, dependsOn, options, ()) => { id, jobType, args, dependsOn, options })
    (fun s => (s.id, s.jobType, s.args, s.dependsOn, s.options, ()))
    (by simp) (fun _ => rfl)

def WorkflowRequest.wire (sc : Scalars) : Wire WorkflowRequest :=
  Record.struct
    (.field "name" Wire.string.optional <|
      .field "steps" (WorkflowStepWire.wire sc).list.required <|
      .field "options" (EnqueueOptionsWire.wire sc).optional .empty)
    (fun (name, steps, options, ()) => { name, steps, options })
    (fun r => (r.name, r.steps, r.options, ()))
    (by simp) (fun _ => rfl)

/-- The request that registers a cron job. `metadata` is the source's `meta`. -/
structure CronJobRequest where
  name : String
  cron : String
  timezone : String
  jobType : String
  args : Option Value
  metadata : Option (List (String × Value))
  options : Option Value
  overlapPolicy : OverlapPolicy
  enabled : Bool
  description : Option String

def CronJobRequest.wire : Wire CronJobRequest :=
  Record.struct
    (.field "name" Wire.string.required <|
      .field "cron" Wire.string.required <|
      .field "timezone" Wire.string.required <|
      .field "type" Wire.string.required <|
      .field "args" Wire.value.optional <|
      .field "meta" Wire.map.optional <|
      .field "options" Wire.value.optional <|
      .field "overlap_policy" OverlapPolicy.wire.required <|
      .field "enabled" Wire.bool.required <|
      .field "description" Wire.string.optional .empty)
    (fun (name, cron, timezone, jobType, args, metadata, options, overlapPolicy, enabled,
        description, ()) =>
      { name, cron, timezone, jobType, args, metadata, options, overlapPolicy, enabled,
        description })
    (fun r => (r.name, r.cron, r.timezone, r.jobType, r.args, r.metadata, r.options,
      r.overlapPolicy, r.enabled, r.description, ()))
    (by simp) (fun _ => rfl)

structure RegisterSchemaRequest where
  uri : String
  schemaType : String
  version : String
  schema : Value

def RegisterSchemaRequest.wire : Wire RegisterSchemaRequest :=
  Record.struct
    (.field "uri" Wire.string.required <|
      .field "type" Wire.string.required <|
      .field "version" Wire.string.required <|
      .field "schema" Wire.value.required .empty)
    (fun (uri, schemaType, version, schema, ()) => { uri, schemaType, version, schema })
    (fun r => (r.uri, r.schemaType, r.version, r.schema, ()))
    (by simp) (fun _ => rfl)

def FetchRequest.wire : Wire FetchRequest :=
  Record.struct
    (.field "queues" Wire.string.list.required <|
      .field "count" count32.optional <|
      .field "worker_id" Wire.string.optional <|
      .field "visibility_timeout_ms" Wire.u64.optional .empty)
    (fun (queues, count, workerId, visibilityTimeoutMs, ()) =>
      { queues, count, workerId, visibilityTimeoutMs })
    (fun r => (r.queues, r.count, r.workerId, r.visibilityTimeoutMs, ()))
    (by simp) (fun _ => rfl)

def AckRequest.wire : Wire AckRequest :=
  Record.struct
    (.field "job_id" Wire.string.required <| .field "result" Wire.value.optional .empty)
    (fun (jobId, result, ()) => { jobId, result })
    (fun r => (r.jobId, r.result, ()))
    (by simp) (fun _ => rfl)

def NackError.wire : Wire NackError :=
  Record.struct
    (.field "code" Wire.string.required <|
      .field "message" Wire.string.required <|
      .field "retryable" Wire.bool.optional <|
      .field "details" Wire.map.optional .empty)
    (fun (code, message, retryable, details, ()) => { code, message, retryable, details })
    (fun e => (e.code, e.message, e.retryable, e.details, ()))
    (by simp) (fun _ => rfl)

def NackRequest.wire : Wire NackRequest :=
  Record.struct
    (.field "job_id" Wire.string.required <| .field "error" NackError.wire.required .empty)
    (fun (jobId, error, ()) => { jobId, error })
    (fun r => (r.jobId, r.error, ()))
    (by simp) (fun _ => rfl)

def HeartbeatRequest.wire : Wire HeartbeatRequest :=
  Record.struct
    (.field "worker_id" Wire.string.required <|
      .field "active_jobs" Wire.string.list.optional <|
      .field "visibility_timeout_ms" Wire.u64.optional .empty)
    (fun (workerId, activeJobs, visibilityTimeoutMs, ()) =>
      { workerId, activeJobs, visibilityTimeoutMs })
    (fun r => (r.workerId, r.activeJobs, r.visibilityTimeoutMs, ()))
    (by simp) (fun _ => rfl)

section

variable {sc : Scalars}

/-- A time that chrono reads back. -/
structure Scalars.KeepsTime (sc : Scalars) (t : DateTime) : Prop where
  kept : sc.timestamp.Keeps t
  solid : sc.timestamp.encode t ≠ .null

theorem optional_time_keeps {o : Option DateTime} (times : ∀ t ∈ o, sc.KeepsTime t) :
    sc.timestamp.optional.Keeps o :=
  Wire.optional_keeps_iff.mpr (fun t given => ⟨(times t given).kept, (times t given).solid⟩)

theorem strings_keep (items : List String) : Wire.string.list.Keeps items :=
  Wire.list_keeps_iff.mpr (fun s _ => Wire.string_keeps s)

theorem text_keeps (o : Option String) : Wire.string.optional.Keeps o :=
  Wire.optional_keeps (fun _ null => by cases null) (fun s _ => Wire.string_keeps s)

theorem millis_keep (o : Option UInt64) : Wire.u64.optional.Keeps o :=
  Wire.optional_keeps (fun _ null => by cases null) (fun n _ => Wire.u64_keeps n)

theorem entries_keep (o : Option (List (String × Value))) : Wire.map.optional.Keeps o :=
  Wire.optional_keeps (fun _ null => by cases null) (fun fields _ => Wire.map_keeps fields)

theorem value_keeps {o : Option Value} (given : o ≠ some .null) : Wire.value.optional.Keeps o :=
  Wire.optional_keeps_iff.mpr (fun _ mem => ⟨rfl, fun null => given (mem.trans (congrArg _ null))⟩)

theorem lists_keep (o : Option (List String)) : Wire.string.list.optional.Keeps o :=
  Wire.optional_keeps (fun _ null => by cases null) (fun items _ => strings_keep items)

theorem jobState_keeps (s : JobState) : JobState.wire.Keeps s := by
  cases s <;> rfl

theorem uniqueDimension_keeps (d : UniqueDimension) : UniqueDimension.wire.Keeps d := by
  cases d <;> rfl

theorem conflictStrategy_keeps (s : ConflictStrategy) : ConflictStrategy.wire.Keeps s := by
  cases s <;> rfl

theorem onExhaustion_keeps (e : OnExhaustion) : OnExhaustion.wire.Keeps e := by
  cases e <;> rfl

theorem overlapPolicy_keeps (p : OverlapPolicy) : OverlapPolicy.wire.Keeps p := by
  cases p <;> rfl

theorem UniquePolicy.wire_keeps (p : UniquePolicy) : UniquePolicy.wire.Keeps p := by
  have dimensions : UniqueDimension.wire.list.Keeps p.keys :=
    Wire.list_keeps_iff.mpr (fun d _ => uniqueDimension_keeps d)
  have states : JobState.wire.list.Keeps p.states :=
    Wire.list_keeps_iff.mpr (fun s _ => jobState_keeps s)
  refine Record.struct_keeps rfl ?_
  exact .field (Wire.defaulted_keeps dimensions) <| .field (lists_keep _) <|
    .field (lists_keep _) <| .field (text_keeps _) <| .field (Wire.defaulted_keeps states) <|
    .field (Wire.defaulted_keeps (conflictStrategy_keeps _)) Record.empty_keeps

theorem RetryPolicy.wire_keeps {p : RetryPolicy} (finite : sc.f64.Keeps p.backoffCoefficient) :
    (RetryPolicy.wire sc).Keeps p := by
  have numbers := Wire.u32_keeps p.maxAttempts
  have errors := strings_keep p.nonRetryableErrors
  have ends := onExhaustion_keeps p.onExhaustion
  refine Record.struct_keeps rfl ?_
  exact .field (Wire.defaulted_keeps numbers) <| .field (Wire.defaulted_keeps rfl) <|
    .field (Wire.defaulted_keeps finite) <| .field (Wire.defaulted_keeps rfl) <|
    .field (Wire.defaulted_keeps rfl) <| .field (Wire.defaulted_keeps errors) <|
    .field (Wire.defaulted_keeps ends) Record.empty_keeps

/-- Options whose times and coefficient are read back. -/
structure EnqueueOptionsWire.Exact (sc : Scalars) (o : EnqueueOptionsWire) : Prop where
  delayUntil : ∀ t ∈ o.delayUntil, sc.KeepsTime t
  expiresAt : ∀ t ∈ o.expiresAt, sc.KeepsTime t
  retry : ∀ p ∈ o.retry, sc.f64.Keeps p.backoffCoefficient

theorem EnqueueOptionsWire.wire_keeps {o : EnqueueOptionsWire} (exact : o.Exact sc) :
    (EnqueueOptionsWire.wire sc).Keeps o := by
  have priority : Wire.i32.optional.Keeps o.priority := by
    refine Wire.optional_keeps (fun n null => ?_) (fun n _ => Wire.i32_keeps n)
    unfold Wire.i32 at null
    simp only at null
    split at null <;> cases null
  have retry : (RetryPolicy.wire sc).optional.Keeps o.retry :=
    Wire.optional_keeps (fun _ null => by cases null)
      (fun p given => RetryPolicy.wire_keeps (exact.retry p given))
  have unique : UniquePolicy.wire.optional.Keeps o.unique :=
    Wire.optional_keeps (fun _ null => by cases null) (fun p _ => p.wire_keeps)
  refine Record.struct_keeps rfl ?_
  exact .field (text_keeps _) <| .field priority <| .field (millis_keep _) <|
    .field (optional_time_keeps exact.delayUntil) <|
    .field (optional_time_keeps exact.expiresAt) <| .field retry <| .field unique <|
    .field (lists_keep _) <| .field (millis_keep _) Record.empty_keeps

theorem options_keep {o : Option EnqueueOptionsWire} (exact : ∀ given ∈ o, given.Exact sc) :
    (EnqueueOptionsWire.wire sc).optional.Keeps o :=
  Wire.optional_keeps (fun _ null => by cases null)
    (fun given mem => EnqueueOptionsWire.wire_keeps (exact given mem))

theorem EnqueueRequest.wire_keeps {r : EnqueueRequest} (exact : ∀ o ∈ r.options, o.Exact sc) :
    (EnqueueRequest.wire sc).Keeps r := by
  refine Record.struct_keeps rfl ?_
  exact .field (Wire.required_keeps rfl) <| .field (Wire.required_keeps rfl) <|
    .field (entries_keep _) <| .field (text_keeps _) <|
    .field (options_keep exact) Record.empty_keeps

theorem BatchEnqueueRequest.wire_keeps {r : BatchEnqueueRequest}
    (exact : ∀ job ∈ r.jobs, ∀ o ∈ job.options, o.Exact sc) :
    (BatchEnqueueRequest.wire sc).Keeps r := by
  have jobs : (EnqueueRequest.wire sc).list.Keeps r.jobs :=
    Wire.list_keeps_iff.mpr (fun job mem => EnqueueRequest.wire_keeps (exact job mem))
  refine Record.struct_keeps rfl ?_
  exact .field (Wire.required_keeps jobs) Record.empty_keeps

theorem WorkflowStepWire.wire_keeps {s : WorkflowStepWire} (exact : ∀ o ∈ s.options, o.Exact sc) :
    (WorkflowStepWire.wire sc).Keeps s := by
  have dependsOn : Wire.string.skipEmpty.Keeps s.dependsOn :=
    Wire.skipEmpty_keeps_iff.mpr (fun id _ => Wire.string_keeps id)
  refine Record.struct_keeps rfl ?_
  exact .field (Wire.required_keeps rfl) <| .field (Wire.required_keeps rfl) <|
    .field (Wire.required_keeps rfl) <| .field dependsOn <|
    .field (options_keep exact) Record.empty_keeps

theorem WorkflowRequest.wire_keeps {r : WorkflowRequest}
    (steps : ∀ s ∈ r.steps, ∀ o ∈ s.options, o.Exact sc) (exact : ∀ o ∈ r.options, o.Exact sc) :
    (WorkflowRequest.wire sc).Keeps r := by
  have list : (WorkflowStepWire.wire sc).list.Keeps r.steps :=
    Wire.list_keeps_iff.mpr (fun s mem => WorkflowStepWire.wire_keeps (steps s mem))
  refine Record.struct_keeps rfl ?_
  exact .field (text_keeps _) <| .field (Wire.required_keeps list) <|
    .field (options_keep exact) Record.empty_keeps

theorem CronJobRequest.wire_keeps {r : CronJobRequest} (args : r.args ≠ some .null)
    (options : r.options ≠ some .null) : CronJobRequest.wire.Keeps r := by
  have overlap := overlapPolicy_keeps r.overlapPolicy
  refine Record.struct_keeps rfl ?_
  exact .field (Wire.required_keeps rfl) <| .field (Wire.required_keeps rfl) <|
    .field (Wire.required_keeps rfl) <| .field (Wire.required_keeps rfl) <|
    .field (value_keeps args) <| .field (entries_keep _) <| .field (value_keeps options) <|
    .field (Wire.required_keeps overlap) <| .field (Wire.required_keeps rfl) <|
    .field (text_keeps _) Record.empty_keeps

theorem RegisterSchemaRequest.wire_keeps (r : RegisterSchemaRequest) :
    RegisterSchemaRequest.wire.Keeps r := by
  refine Record.struct_keeps rfl ?_
  exact .field (Wire.required_keeps rfl) <| .field (Wire.required_keeps rfl) <|
    .field (Wire.required_keeps rfl) <| .field (Wire.required_keeps rfl) Record.empty_keeps

theorem FetchRequest.wire_keeps {r : FetchRequest} (count : ∀ n ∈ r.count, n < 2 ^ 32) :
    FetchRequest.wire.Keeps r := by
  have queues := strings_keep r.queues
  have number : count32.optional.Keeps r.count := by
    refine Wire.optional_keeps (fun _ null => by cases null) (fun n given => ?_)
    have small := count n given
    have size : (UInt64.ofNat n).toNat = n := by
      rw [UInt64.toNat_ofNat']
      omega
    show (if (UInt64.ofNat n).toNat < 2 ^ 32 then some (UInt64.ofNat n).toNat else none) = some n
    rw [size, if_pos small]
  refine Record.struct_keeps rfl ?_
  exact .field (Wire.required_keeps queues) <| .field number <| .field (text_keeps _) <|
    .field (millis_keep _) Record.empty_keeps

theorem AckRequest.wire_keeps {r : AckRequest} (result : r.result ≠ some .null) :
    AckRequest.wire.Keeps r := by
  refine Record.struct_keeps rfl ?_
  exact .field (Wire.required_keeps rfl) <| .field (value_keeps result) Record.empty_keeps

theorem NackRequest.wire_keeps (r : NackRequest) : NackRequest.wire.Keeps r := by
  have retryable : Wire.bool.optional.Keeps r.error.retryable :=
    Wire.optional_keeps (fun _ null => by cases null) (fun b _ => Wire.bool_keeps b)
  have error : NackError.wire.Keeps r.error := by
    refine Record.struct_keeps rfl ?_
    exact .field (Wire.required_keeps rfl) <| .field (Wire.required_keeps rfl) <|
      .field retryable <| .field (entries_keep _) Record.empty_keeps
  refine Record.struct_keeps rfl ?_
  exact .field (Wire.required_keeps rfl) <| .field (Wire.required_keeps error) Record.empty_keeps

theorem HeartbeatRequest.wire_keeps (r : HeartbeatRequest) : HeartbeatRequest.wire.Keeps r := by
  refine Record.struct_keeps rfl ?_
  exact .field (Wire.required_keeps rfl) <| .field (lists_keep _) <| .field (millis_keep _)
    Record.empty_keeps

end

end OjsSdk
