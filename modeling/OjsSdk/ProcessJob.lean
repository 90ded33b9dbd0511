import OjsSdk.Worker

namespace OjsSdk

/-- What a run of `process_job` has to report to the server. -/
inductive Outcome
  | noHandler
  | returned (result : HandlerResult)

inductive Settlement
  | ack (req : AckRequest)
  | nack (req : NackRequest)

def Settlement.path : Settlement → String
  | .ack _ => "/workers/ack"
  | .nack _ => "/workers/nack"

def Settlement.jobId : Settlement → String
  | .ack req => req.jobId
  | .nack req => req.jobId

def Settlement.retryable : Settlement → Option Bool
  | .ack _ => none
  | .nack req => req.error.retryable

def ackJob (jobId : String) (result : Value) : Settlement :=
  .ack { jobId, result := if result.isNull then none else some result }

def nackJob (jobId code message : String) (retryable : Bool) : Settlement :=
  .nack { jobId, error := { code, message, retryable := some retryable, details := none } }

/-- The code, message and retryable flag that `process_job` reports for an error. -/
def nackDetails : OjsError → String × String × Bool
  | .nonRetryable message => ("handler_error", message, false)
  | .handler message => ("handler_error", message, true)
  | other => ("handler_error", other.toText, true)

def settlement (job : Job) : Outcome → Settlement
  | .noHandler =>
    nackJob job.id "handler_error" ("no handler registered for job type: " ++ job.jobType) false
  | .returned (.ok result) => ackJob job.id result
  | .returned (.error e) =>
    let (code, message, retryable) := nackDetails e
    nackJob job.id code message retryable

def processContext (workerId : String) (job : Job) : JobContext where
  job
  attempt := max job.attempt 1
  queue := job.queue
  workflowId :=
    ((job.metadata.bind (fun fields => lookupField fields "workflow_id")).bind Value.asStr)
  parentResults := none
  workerId

/-- An outcome that must not be retried: no handler, or a non-retryable error. -/
def Outcome.Final : Outcome → Prop
  | .noHandler => True
  | .returned (.error (.nonRetryable _)) => True
  | _ => False

theorem settlement_jobId (job : Job) (o : Outcome) : (settlement job o).jobId = job.id := by
  rcases o with _ | _ | _ <;> rfl

theorem settlement_path_ack_iff (job : Job) (o : Outcome) :
    (settlement job o).path = "/workers/ack" ↔ ∃ result, o = .returned (.ok result) := by
  rcases o with _ | _ | _ <;> simp [settlement, ackJob, nackJob, Settlement.path]

theorem settlement_path_nack_iff (job : Job) (o : Outcome) :
    (settlement job o).path = "/workers/nack" ↔ ¬∃ result, o = .returned (.ok result) := by
  rcases o with _ | _ | _ <;> simp [settlement, ackJob, nackJob, Settlement.path]

theorem settlement_retryable_iff (job : Job) (o : Outcome) :
    (settlement job o).retryable = some false ↔ o.Final := by
  rcases o with _ | e | _
  · simp [settlement, nackJob, Settlement.retryable, Outcome.Final]
  · cases e <;> simp [settlement, nackDetails, nackJob, Settlement.retryable, Outcome.Final]
  · simp [settlement, ackJob, Settlement.retryable, Outcome.Final]

/-- What the report of a job with this outcome has to be. -/
structure Settles (job : Job) (o : Outcome) (call : Settlement) : Prop where
  job : call.jobId = job.id
  ack : call.path = "/workers/ack" ↔ ∃ result, o = .returned (.ok result)
  nack : call.path = "/workers/nack" ↔ ¬∃ result, o = .returned (.ok result)
  final : call.retryable = some false ↔ o.Final

theorem settles_settlement (job : Job) (o : Outcome) : Settles job o (settlement job o) :=
  ⟨settlement_jobId job o, settlement_path_ack_iff job o, settlement_path_nack_iff job o,
    settlement_retryable_iff job o⟩

end OjsSdk
