import OjsSdk.Errors

namespace OjsSdk

/-- `chrono::DateTime<Utc>`, in nanoseconds since the Unix epoch. -/
structure DateTime where
  nanos : Int
  deriving DecidableEq, Repr

inductive JobState
  | pending
  | scheduled
  | available
  | active
  | completed
  | retryable
  | cancelled
  | discarded
  deriving DecidableEq, Repr

inductive OnExhaustion
  | discard
  | deadLetter
  deriving DecidableEq, Repr

/-- Retry policy of a failed job. The `f64` coefficient is kept as its bits. -/
structure RetryPolicy where
  maxAttempts : UInt32
  initialInterval : String
  backoffCoefficient : BitVec 64
  maxInterval : String
  jitter : Bool
  nonRetryableErrors : List String
  onExhaustion : OnExhaustion
  deriving DecidableEq, Repr

inductive UniqueDimension
  | type
  | queue
  | args
  | metadata
  deriving DecidableEq, Repr

inductive ConflictStrategy
  | reject
  | replace
  | replaceExceptSchedule
  | ignore
  deriving DecidableEq, Repr

structure UniquePolicy where
  keys : List UniqueDimension
  argsKeys : Option (List String)
  metaKeys : Option (List String)
  period : Option String
  states : List JobState
  onConflict : ConflictStrategy
  deriving DecidableEq, Repr

/-- A job envelope. `metadata` is the source's `meta`. -/
structure Job where
  specversion : String
  id : String
  jobType : String
  queue : String
  args : Value
  metadata : Option (List (String × Value))
  priority : Int32
  timeout : Option UInt64
  scheduledAt : Option DateTime
  expiresAt : Option DateTime
  retry : Option RetryPolicy
  unique : Option UniquePolicy
  schema : Option String
  state : Option JobState
  attempt : UInt32
  maxAttempts : Option UInt32
  createdAt : Option DateTime
  enqueuedAt : Option DateTime
  startedAt : Option DateTime
  completedAt : Option DateTime
  error : Option JobError
  result : Option Value
  tags : List String
  timeoutMs : Option UInt64
  deriving Repr

/-- The job that a fetch response decodes to when it gives only an id, a type
and arguments: every other field takes its serde default. -/
def Job.ofWire (id jobType : String) (args : Value) : Job where
  specversion := "1.0"
  id
  jobType
  queue := "default"
  args
  metadata := none
  priority := 0
  timeout := none
  scheduledAt := none
  expiresAt := none
  retry := none
  unique := none
  schema := none
  state := none
  attempt := 0
  maxAttempts := none
  createdAt := none
  enqueuedAt := none
  startedAt := none
  completedAt := none
  error := none
  result := none
  tags := []
  timeoutMs := none

structure FetchRequest where
  queues : List String
  count : Option Nat
  workerId : Option String
  visibilityTimeoutMs : Option UInt64
  deriving DecidableEq, Repr

structure AckRequest where
  jobId : String
  result : Option Value
  deriving Repr

structure NackError where
  code : String
  message : String
  retryable : Option Bool
  details : Option (List (String × Value))
  deriving Repr

structure NackRequest where
  jobId : String
  error : NackError
  deriving Repr

structure HeartbeatRequest where
  workerId : String
  activeJobs : Option (List String)
  visibilityTimeoutMs : Option UInt64
  deriving DecidableEq, Repr

structure HeartbeatResponse where
  state : String
  jobsExtended : Option (List String)
  serverTime : Option DateTime
  deriving DecidableEq, Repr

end OjsSdk
