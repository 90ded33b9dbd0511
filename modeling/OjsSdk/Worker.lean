import OjsSdk.TypedArgs
import Mathlib.Data.Finset.Dedup
import Mathlib.Data.Finset.Basic

namespace OjsSdk

inductive WorkerState
  | running
  | quiet
  | terminate
  deriving DecidableEq, Repr

namespace WorkerState

def asU8 : WorkerState → Nat
  | .running => 0
  | .quiet => 1
  | .terminate => 2

def fromU8 : Nat → WorkerState
  | 0 => .running
  | 1 => .quiet
  | _ => .terminate

def asStr : WorkerState → String
  | .running => "running"
  | .quiet => "quiet"
  | .terminate => "terminate"

/-- The lifecycle order running < quiet < terminate. -/
instance : PartialOrder WorkerState :=
  PartialOrder.lift asU8 (by intro a b; cases a <;> cases b <;> simp [asU8])

/-- What is stored in the atomic is what `Worker::state` reads back. -/
theorem fromU8_asU8 (s : WorkerState) : fromU8 s.asU8 = s := by
  cases s <;> rfl

theorem le_iff {a b : WorkerState} : a ≤ b ↔ a.asU8 ≤ b.asU8 := Iff.rfl

theorem le_terminate (s : WorkerState) : s ≤ .terminate := by
  cases s <;> decide +revert

end WorkerState

/-- The part of a `Worker` that `start` uses. The handler map is kept as the set
of job types that have a handler. -/
structure Worker where
  workerId : String
  queues : List String
  concurrency : Nat
  heartbeatInterval : Duration
  handlers : Finset String
  state : WorkerState
  activeCount : Int
  activeJobs : Finset String

/-- The settings of a `WorkerBuilder` that reach `start`. -/
structure WorkerBuilder where
  url : Option String
  queues : List String
  concurrency : Nat
  heartbeatInterval : Duration

namespace WorkerBuilder

def new : WorkerBuilder where
  url := none
  queues := ["default"]
  concurrency := 10
  heartbeatInterval := Duration.fromSecs 5 (by decide)

/-- `WorkerBuilder::build`, with the generated worker id as a parameter. -/
def build (b : WorkerBuilder) (workerId : String) : Except OjsError Worker :=
  match b.url with
  | none => .error (.builder "url is required")
  | some _ => .ok
    { workerId
      queues := b.queues
      concurrency := b.concurrency
      heartbeatInterval := b.heartbeatInterval
      handlers := ∅
      state := .running
      activeCount := 0
      activeJobs := ∅ }

end WorkerBuilder

def Worker.register (w : Worker) (jobType : String) : Worker :=
  { w with handlers := insert jobType w.handlers }

/-- A worker on which `start` has not been called yet. -/
structure Worker.Fresh (w : Worker) : Prop where
  running : w.state = .running
  uncounted : w.activeCount = 0
  untracked : w.activeJobs = ∅

theorem WorkerBuilder.build_fresh {b : WorkerBuilder} {workerId : String} {w : Worker}
    (h : b.build workerId = .ok w) : w.Fresh := by
  unfold WorkerBuilder.build at h
  split at h
  next => cases h
  next => cases h; exact ⟨rfl, rfl, rfl⟩

theorem Worker.Fresh.register {w : Worker} (h : w.Fresh) (jobType : String) :
    (w.register jobType).Fresh :=
  ⟨h.running, h.uncounted, h.untracked⟩

/-- The body of the request sent by `Worker::fetch_jobs`. -/
def Worker.fetchRequest (w : Worker) (count : Nat) : FetchRequest where
  queues := w.queues
  count := some count
  workerId := some w.workerId
  visibilityTimeoutMs := none

/-- The body of a heartbeat for the given jobs. -/
def Worker.heartbeatRequest (w : Worker) (jobs : List String) : HeartbeatRequest where
  workerId := w.workerId
  activeJobs := some jobs
  visibilityTimeoutMs := none

end OjsSdk
