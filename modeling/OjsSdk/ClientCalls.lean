import OjsSdk.Operations
import OjsSdk.ResponseTypes

namespace OjsSdk

open Serde

/-- How the body of a response becomes what a call returns. The helpers whose names end in
`no_response` ignore it. -/
inductive Reading (R : Type)
  | ignored (r : R)
  | decoded (decode : Value → Option R)

namespace Reading

variable {R : Type}

/-- The end of a call whose request has succeeded. The text of a serde error is a parameter. -/
def receive (errorText : Value → String) : Reading R → Option Value → Except OjsError R
  | ignored r, _ => .ok r
  | decoded decode, body =>
    deserializeResponse
      (fun v =>
        match decode v with
        | some r => .ok r
        | none => .error (errorText v))
      body

end Reading

namespace Operation

/-- What a call of the operation returns. -/
def Reply : Operation → Type
  | identified .getJob _ | identified .cancelJob _ | identified .retryDeadLetterJob _ | enqueue _ =>
    Job
  | identified .getWorkflow _ | identified .cancelWorkflow _ | createWorkflow _ => Workflow
  | identified .getQueueStats _ => QueueStats
  | identified .getSchema _ | registerSchema _ => SchemaDetail
  | identified .discardDeadLetterJob _ | identified .pauseQueue _ | identified .resumeQueue _
  | identified .unregisterCronJob _ | identified .deleteSchema _ | ack _ | nack _ => Unit
  | enqueueBatch _ | fetch _ => List Job
  | listQueues => List Queue
  | listDeadLetterJobs .. => List Job × Option Pagination
  | listCronJobs => List CronJob
  | registerCronJob _ => CronJob
  | listSchemas => List Schema
  | health => HealthStatus
  | manifest => Manifest
  | heartbeat _ => HeartbeatResponse

def reading (sc : StatScalars) : (op : Operation) → Reading op.Reply
  | identified .getJob _ | identified .cancelJob _ | identified .retryDeadLetterJob _ =>
    .decoded (Job.wire sc.toScalars).decode
  | identified .getWorkflow _ | identified .cancelWorkflow _ | createWorkflow _ =>
    .decoded (Workflow.wire sc.toScalars).decode
  | identified .getQueueStats _ => .decoded (QueueStats.wire sc).decode
  | identified .getSchema _ | registerSchema _ => .decoded SchemaDetail.wire.decode
  | identified .discardDeadLetterJob _ | identified .pauseQueue _ | identified .resumeQueue _
  | identified .unregisterCronJob _ | identified .deleteSchema _ | ack _ | nack _ => .ignored ()
  | enqueue _ => .decoded (wrapped "job" (Job.wire sc.toScalars)).decode
  | enqueueBatch _ =>
    .decoded (fun v => ((BatchEnqueueResponse.wire sc.toScalars).decode v).map (·.jobs))
  | fetch _ => .decoded (wrapped "jobs" (Job.wire sc.toScalars).list).decode
  | listQueues => .decoded (wrapped "queues" (Queue.wire sc.toScalars).list).decode
  | listDeadLetterJobs .. =>
    .decoded (fun v =>
      ((DeadLetterResponse.wire sc.toScalars).decode v).map (fun r => (r.jobs, r.pagination)))
  | listCronJobs => .decoded (wrapped "cron_jobs" (CronJob.wire sc.toScalars).list).decode
  | registerCronJob _ => .decoded (CronJob.wire sc.toScalars).decode
  | listSchemas => .decoded (wrapped "schemas" Schema.wire.list).decode
  | health => .decoded HealthStatus.wire.decode
  | manifest => .decoded Manifest.wire.decode
  | heartbeat _ => .decoded (HeartbeatResponse.wire sc.toScalars).decode

/-- A call over the HTTP transport, which may also panic. -/
def run (urlEncode : String → String) (sc : StatScalars) (errorText : Value → String)
    (t : HttpTransport) (json : SerdeJson) (overflowChecks : Bool) (env : Nat → Attempt)
    (op : Operation) : Except Panic (Except OjsError op.Reply) :=
  match (op.exchange urlEncode sc.toScalars t json overflowChecks env).result with
  | .error panic => .error panic
  | .ok (.error e) => .ok (.error e)
  | .ok (.ok body) => .ok ((op.reading sc).receive errorText body)

end Operation

section

variable {json : SerdeJson} {status : Nat} {headers : HeaderMap} {bytes : List UInt8}
  {body : Option Value}

end

namespace Reading

variable {R : Type} {json : SerdeJson} {r : R}

end Reading

namespace HttpTransport

variable {t : HttpTransport} {json : SerdeJson} {method : Method} {url : String}
  {body : Option Value} {env : Nat → Attempt}

end HttpTransport

namespace Operation

variable {urlEncode : String → String} {sc : StatScalars} {errorText : Value → String}
  {t : HttpTransport} {json : SerdeJson} {overflowChecks : Bool} {env : Nat → Attempt}
  {op : Operation}

/-- The body of the operation can be written, and is read back. -/
def Written (urlEncode : String → String) (sc : Scalars) (json : SerdeJson) (op : Operation) :
    Prop :=
  ∀ v ∈ (op.call urlEncode sc).body, ∃ bytes, json.toVec v = .ok bytes ∧ json.fromSlice bytes = .ok v

theorem Written.lossless (written : op.Written urlEncode sc.toScalars json) :
    ∀ v ∈ (op.call urlEncode sc.toScalars).body, ∀ bytes, json.toVec v = .ok bytes →
      json.fromSlice bytes = .ok v := by
  intro v given bytes accepted
  obtain ⟨bytes', accepted', read⟩ := written v given
  rw [accepted] at accepted'
  cases accepted'
  exact read

theorem Written.built (written : op.Written urlEncode sc.toScalars json) (url : String) :
    ∃ req, HttpTransport.buildRequest json (op.call urlEncode sc.toScalars).method url
      (op.call urlEncode sc.toScalars).body = .ok req := by
  rcases (op.call_carried : (op.call urlEncode sc.toScalars).method = .post ∨ _) with post | none
  · rw [post]
    cases body : (op.call urlEncode sc.toScalars).body with
    | none => exact ⟨_, rfl⟩
    | some v =>
      obtain ⟨bytes, accepted, -⟩ := written v body
      simp only [HttpTransport.buildRequest, accepted]
      exact ⟨_, rfl⟩
  · rw [none]
    cases (op.call urlEncode sc.toScalars).method <;> exact ⟨_, rfl⟩

end Operation

end OjsSdk
