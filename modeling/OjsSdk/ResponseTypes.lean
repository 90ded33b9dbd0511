import OjsSdk.SerdeKeeps
import OjsSdk.WireTypes

namespace OjsSdk

open Serde

/-- The other `f64` fields have `0.0` as their default. -/
structure StatScalars extends Scalars where
  f64_zero : f64.decode (f64.encode 0) = some 0

def wireU8 : Wire UInt8 where
  decode
    | .number (.posInt n) => if n.toNat < 2 ^ 8 then some (UInt8.ofNat n.toNat) else none
    | _ => none
  encode n := .number (.posInt n.toUInt64)
  stable _ n _ := by
    have small : n.toNat < 2 ^ 8 := n.toNat_lt
    simp only [UInt8.toNat_toUInt64, small, ↓reduceIte, UInt8.ofNat_toNat]
  not_null _ _ _ null := by cases null

structure Queue where
  name : String
  status : Option String
  createdAt : Option DateTime

def Queue.wire (sc : Scalars) : Wire Queue :=
  Record.struct
    (.field "name" Wire.string.required <|
      .field "status" Wire.string.optional <|
      .field "created_at" sc.timestamp.optional .empty)
    (fun (name, status, createdAt, ()) => { name, status, createdAt })
    (fun q => (q.name, q.status, q.createdAt, ()))
    (by simp) (fun _ => rfl)

structure QueueStatsMetrics where
  available : UInt64
  active : UInt64
  scheduled : UInt64
  retryable : UInt64
  discarded : UInt64
  completedLastHour : UInt64
  failedLastHour : UInt64
  avgDurationMs : BitVec 64
  avgWaitMs : BitVec 64
  throughputPerSecond : BitVec 64

def QueueStatsMetrics.wire (sc : StatScalars) : Wire QueueStatsMetrics :=
  Record.struct
    (.field "available" (Wire.u64.defaulted 0) <|
      .field "active" (Wire.u64.defaulted 0) <|
      .field "scheduled" (Wire.u64.defaulted 0) <|
      .field "retryable" (Wire.u64.defaulted 0) <|
      .field "discarded" (Wire.u64.defaulted 0) <|
      .field "completed_last_hour" (Wire.u64.defaulted 0) <|
      .field "failed_last_hour" (Wire.u64.defaulted 0) <|
      .field "avg_duration_ms" (sc.f64.defaulted 0 sc.f64_zero) <|
      .field "avg_wait_ms" (sc.f64.defaulted 0 sc.f64_zero) <|
      .field "throughput_per_second" (sc.f64.defaulted 0 sc.f64_zero) .empty)
    (fun (available, active, scheduled, retryable, discarded, completedLastHour, failedLastHour,
        avgDurationMs, avgWaitMs, throughputPerSecond, ()) =>
      { available, active, scheduled, retryable, discarded, completedLastHour, failedLastHour,
        avgDurationMs, avgWaitMs, throughputPerSecond })
    (fun s => (s.available, s.active, s.scheduled, s.retryable, s.discarded, s.completedLastHour,
      s.failedLastHour, s.avgDurationMs, s.avgWaitMs, s.throughputPerSecond, ()))
    (by simp) (fun _ => rfl)

structure QueueStats where
  queue : String
  status : String
  stats : QueueStatsMetrics
  computedAt : DateTime

def QueueStats.wire (sc : StatScalars) : Wire QueueStats :=
  Record.struct
    (.field "queue" Wire.string.required <|
      .field "status" Wire.string.required <|
      .field "stats" (QueueStatsMetrics.wire sc).required <|
      .field "computed_at" sc.timestamp.required .empty)
    (fun (queue, status, stats, computedAt, ()) => { queue, status, stats, computedAt })
    (fun s => (s.queue, s.status, s.stats, s.computedAt, ()))
    (by simp) (fun _ => rfl)

structure Pagination where
  total : UInt64
  limit : UInt64
  offset : UInt64
  hasMore : Bool

def Pagination.wire : Wire Pagination :=
  Record.struct
    (.field "total" Wire.u64.required <|
      .field "limit" Wire.u64.required <|
      .field "offset" Wire.u64.required <|
      .field "has_more" Wire.bool.required .empty)
    (fun (total, limit, offset, hasMore, ()) => { total, limit, offset, hasMore })
    (fun p => (p.total, p.limit, p.offset, p.hasMore, ()))
    (by simp) (fun _ => rfl)

structure DeadLetterResponse where
  jobs : List Job
  pagination : Option Pagination

def DeadLetterResponse.wire (sc : Scalars) : Wire DeadLetterResponse :=
  Record.struct
    (.field "jobs" (Job.wire sc).list.required <|
      .field "pagination" Pagination.wire.optional .empty)
    (fun (jobs, pagination, ()) => { jobs, pagination })
    (fun r => (r.jobs, r.pagination, ()))
    (by simp) (fun _ => rfl)

structure BatchEnqueueResponse where
  jobs : List Job
  count : UInt64

def BatchEnqueueResponse.wire (sc : Scalars) : Wire BatchEnqueueResponse :=
  Record.struct
    (.field "jobs" (Job.wire sc).list.required <| .field "count" Wire.u64.required .empty)
    (fun (jobs, count, ()) => { jobs, count })
    (fun r => (r.jobs, r.count, ()))
    (by simp) (fun _ => rfl)

/-- A response that wraps a single value: `EnqueueResponse`, `FetchResponse`, `QueuesResponse`,
`CronJobsResponse` and `SchemasResponse`. -/
def wrapped {α : Type} (name : String) (w : Wire α) : Wire α :=
  Record.struct (.field name w.required .empty) (fun (a, ()) => a) (fun a => (a, ()))
    (by simp) (fun _ => rfl)

structure HealthStatus where
  status : String
  version : Option String
  uptimeSeconds : Option UInt64

def HealthStatus.wire : Wire HealthStatus :=
  Record.struct
    (.field "status" Wire.string.required <|
      .field "version" Wire.string.optional <|
      .field "uptime_seconds" Wire.u64.optional .empty)
    (fun (status, version, uptimeSeconds, ()) => { status, version, uptimeSeconds })
    (fun h => (h.status, h.version, h.uptimeSeconds, ()))
    (by simp) (fun _ => rfl)

structure ManifestImplementation where
  name : String
  version : String
  language : String
  homepage : Option String

def ManifestImplementation.wire : Wire ManifestImplementation :=
  Record.struct
    (.field "name" Wire.string.required <|
      .field "version" Wire.string.required <|
      .field "language" Wire.string.required <|
      .field "homepage" Wire.string.optional .empty)
    (fun (name, version, language, homepage, ()) => { name, version, language, homepage })
    (fun i => (i.name, i.version, i.language, i.homepage, ()))
    (by simp) (fun _ => rfl)

structure ManifestCapabilities where
  batchEnqueue : Bool
  cronJobs : Bool
  deadLetter : Bool
  delayedJobs : Bool
  jobTtl : Bool
  priorityQueues : Bool
  rateLimiting : Bool
  schemaValidation : Bool
  uniqueJobs : Bool
  workflows : Bool
  pauseResume : Bool

def ManifestCapabilities.wire : Wire ManifestCapabilities :=
  Record.struct
    (.field "batch_enqueue" (Wire.bool.defaulted false) <|
      .field "cron_jobs" (Wire.bool.defaulted false) <|
      .field "dead_letter" (Wire.bool.defaulted false) <|
      .field "delayed_jobs" (Wire.bool.defaulted false) <|
      .field "job_ttl" (Wire.bool.defaulted false) <|
      .field "priority_queues" (Wire.bool.defaulted false) <|
      .field "rate_limiting" (Wire.bool.defaulted false) <|
      .field "schema_validation" (Wire.bool.defaulted false) <|
      .field "unique_jobs" (Wire.bool.defaulted false) <|
      .field "workflows" (Wire.bool.defaulted false) <|
      .field "pause_resume" (Wire.bool.defaulted false) .empty)
    (fun (batchEnqueue, cronJobs, deadLetter, delayedJobs, jobTtl, priorityQueues, rateLimiting,
        schemaValidation, uniqueJobs, workflows, pauseResume, ()) =>
      { batchEnqueue, cronJobs, deadLetter, delayedJobs, jobTtl, priorityQueues, rateLimiting,
        schemaValidation, uniqueJobs, workflows, pauseResume })
    (fun c => (c.batchEnqueue, c.cronJobs, c.deadLetter, c.delayedJobs, c.jobTtl,
      c.priorityQueues, c.rateLimiting, c.schemaValidation, c.uniqueJobs, c.workflows,
      c.pauseResume, ()))
    (by simp) (fun _ => rfl)

def ManifestCapabilities.default : ManifestCapabilities where
  batchEnqueue := false
  cronJobs := false
  deadLetter := false
  delayedJobs := false
  jobTtl := false
  priorityQueues := false
  rateLimiting := false
  schemaValidation := false
  uniqueJobs := false
  workflows := false
  pauseResume := false

/-- All of the fields are flags. -/
theorem ManifestCapabilities.wire_keeps (c : ManifestCapabilities) : wire.Keeps c := by
  have flag : ∀ b : Bool, (Wire.bool.defaulted false).Keeps b :=
    fun b => Wire.defaulted_keeps (Wire.bool_keeps b)
  refine Record.struct_keeps rfl ?_
  exact .field (flag _) <| .field (flag _) <| .field (flag _) <| .field (flag _) <|
    .field (flag _) <| .field (flag _) <| .field (flag _) <| .field (flag _) <|
    .field (flag _) <| .field (flag _) <| .field (flag _) Record.empty_keeps

structure ManifestEndpoints where
  baseUrl : Option String
  manifest : Option String
  health : Option String

def ManifestEndpoints.wire : Wire ManifestEndpoints :=
  Record.struct
    (.field "base_url" Wire.string.optional <|
      .field "manifest" Wire.string.optional <|
      .field "health" Wire.string.optional .empty)
    (fun (baseUrl, manifest, health, ()) => { baseUrl, manifest, health })
    (fun e => (e.baseUrl, e.manifest, e.health, ()))
    (by simp) (fun _ => rfl)

structure Manifest where
  ojsVersion : String
  implementation : ManifestImplementation
  conformanceLevel : UInt8
  conformanceTier : Option String
  protocols : List String
  backend : String
  capabilities : ManifestCapabilities
  extensions : Option (List String)
  endpoints : Option ManifestEndpoints

def Manifest.wire : Wire Manifest :=
  Record.struct
    (.field "ojs_version" Wire.string.required <|
      .field "implementation" ManifestImplementation.wire.required <|
      .field "conformance_level" wireU8.required <|
      .field "conformance_tier" Wire.string.optional <|
      .field "protocols" Wire.string.list.required <|
      .field "backend" Wire.string.required <|
      .field "capabilities" (ManifestCapabilities.wire.defaulted .default
        (ManifestCapabilities.wire_keeps _)) <|
      .field "extensions" Wire.string.list.optional <|
      .field "endpoints" ManifestEndpoints.wire.optional .empty)
    (fun (ojsVersion, implementation, conformanceLevel, conformanceTier, protocols, backend,
        capabilities, extensions, endpoints, ()) =>
      { ojsVersion, implementation, conformanceLevel, conformanceTier, protocols, backend,
        capabilities, extensions, endpoints })
    (fun m => (m.ojsVersion, m.implementation, m.conformanceLevel, m.conformanceTier, m.protocols,
      m.backend, m.capabilities, m.extensions, m.endpoints, ()))
    (by simp) (fun _ => rfl)

structure Schema where
  uri : String
  schemaType : String
  version : String
  createdAt : String

def Schema.wire : Wire Schema :=
  Record.struct
    (.field "uri" Wire.string.required <|
      .field "type" Wire.string.required <|
      .field "version" Wire.string.required <|
      .field "created_at" Wire.string.required .empty)
    (fun (uri, schemaType, version, createdAt, ()) => { uri, schemaType, version, createdAt })
    (fun s => (s.uri, s.schemaType, s.version, s.createdAt, ()))
    (by simp) (fun _ => rfl)

structure SchemaDetail where
  uri : String
  schemaType : String
  version : String
  createdAt : String
  schema : Value

def SchemaDetail.wire : Wire SchemaDetail :=
  Record.struct
    (.field "uri" Wire.string.required <|
      .field "type" Wire.string.required <|
      .field "version" Wire.string.required <|
      .field "created_at" Wire.string.required <|
      .field "schema" Wire.value.required .empty)
    (fun (uri, schemaType, version, createdAt, schema, ()) =>
      { uri, schemaType, version, createdAt, schema })
    (fun s => (s.uri, s.schemaType, s.version, s.createdAt, s.schema, ()))
    (by simp) (fun _ => rfl)

def HeartbeatResponse.wire (sc : Scalars) : Wire HeartbeatResponse :=
  Record.struct
    (.field "state" Wire.string.required <|
      .field "jobs_extended" Wire.string.list.optional <|
      .field "server_time" sc.timestamp.optional .empty)
    (fun (state, jobsExtended, serverTime, ()) => { state, jobsExtended, serverTime })
    (fun r => (r.state, r.jobsExtended, r.serverTime, ()))
    (by simp) (fun _ => rfl)

end OjsSdk
