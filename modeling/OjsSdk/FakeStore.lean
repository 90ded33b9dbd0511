import OjsSdk.Json
import OjsSdk.StdText
import Mathlib.Logic.Function.Basic

namespace OjsSdk

/-- A job recorded in fake mode. `metadata` is the source's `meta`. -/
structure FakeJob where
  id : String
  jobType : String
  queue : String
  args : List Value
  metadata : List (String × Value)
  state : String
  attempt : UInt32
  createdAt : String

/-- What an assertion asks of a job. `metadata` is the source's `meta`. -/
structure MatchCriteria where
  args : Option (List Value)
  queue : Option String
  metadata : Option (List (String × Value))
  count : Option Nat

def MatchCriteria.default : MatchCriteria where
  args := none
  queue := none
  metadata := none
  count := none

/-- A handler, in the world that it is called in. -/
abbrev FakeHandler (W : Type) := FakeJob → W → Except String Unit

/-- `FakeStoreInner`. -/
structure FakeStore (W : Type) where
  enqueued : List FakeJob
  performed : List FakeJob
  handlers : String → Option (FakeHandler W)
  nextId : UInt64

def fakeId (n : UInt64) : String := "fake-" ++ StdText.zeroPadded 6 n.toNat

def filterJobs (jobs : List FakeJob) (jobType : String) (criteria : Option MatchCriteria) :
    List FakeJob :=
  jobs.filter (fun j =>
    if j.jobType ≠ jobType then false
    else
      match criteria.bind MatchCriteria.queue with
      | some q => if j.queue ≠ q then false else true
      | none => true)

namespace FakeStore

variable {W : Type}

def new : FakeStore W where
  enqueued := []
  performed := []
  handlers _ := none
  nextId := 0

/-- `None` is the panic of a counter that overflows, where the build checks for it. -/
def recordEnqueue (overflowChecks : Bool) (jobType : String) (args : List Value)
    (queue : Option String) (metadata : Option (List (String × Value))) (now : String)
    (s : FakeStore W) : Option (FakeJob × FakeStore W) :=
  if overflowChecks = true ∧ s.nextId.toNat + 1 = 2 ^ 64 then none
  else
    let nextId := s.nextId + 1
    let job : FakeJob :=
      { id := fakeId nextId
        jobType
        queue := queue.getD "default"
        args
        metadata := metadata.getD []
        state := "available"
        attempt := 0
        createdAt := now }
    some (job, { s with enqueued := s.enqueued ++ [job], nextId })

def registerHandler (jobType : String) (handler : FakeHandler W) (s : FakeStore W) :
    FakeStore W :=
  { s with handlers := Function.update s.handlers jobType (some handler) }

/-- The text of a failed assertion, or nothing. `debug` is the `{:?}` text of a string. -/
def assertEnqueued (debug : String → String) (jobType : String) (criteria : Option MatchCriteria)
    (s : FakeStore W) : Except String Unit :=
  let found := filterJobs s.enqueued jobType criteria
  match criteria.bind MatchCriteria.count with
  | some expected =>
    if found.length = expected then .ok ()
    else .error ("Expected " ++ toString expected ++ " enqueued job(s) of type '" ++ jobType ++
      "', found " ++ toString found.length)
  | none =>
    if found.isEmpty then
      .error ("Expected at least one enqueued job of type '" ++ jobType ++
        "', found none. Enqueued types: [" ++
        ", ".intercalate (s.enqueued.map (fun j => debug j.jobType)) ++ "]")
    else .ok ()

def clearAll (s : FakeStore W) : FakeStore W :=
  { s with enqueued := [], performed := [] }

/-- What a drain makes of an available job. -/
def perform (handlers : String → Option (FakeHandler W)) (w : W) (job : FakeJob) : FakeJob :=
  let job := { job with state := "active", attempt := job.attempt + 1 }
  match handlers job.jobType with
  | some handler =>
    match handler job w with
    | .ok _ => { job with state := "completed" }
    | .error _ => { job with state := "discarded" }
  | none => { job with state := "completed" }

/-- The loop of `drain` over the jobs that are left. The world at job `i` is `env i`. -/
def drainLoop (handlers : String → Option (FakeHandler W)) (env : Nat → W) :
    List FakeJob → List FakeJob → List FakeJob → Nat → List FakeJob × List FakeJob × Nat
  | seen, [], performed, processed => (seen, performed, processed)
  | seen, job :: rest, performed, processed =>
    if job.state ≠ "available" then drainLoop handlers env (seen ++ [job]) rest performed processed
    else
      let job := perform handlers (env seen.length) job
      drainLoop handlers env (seen ++ [job]) rest (performed ++ [job]) (processed + 1)

def drain (env : Nat → W) (s : FakeStore W) : Nat × FakeStore W :=
  let (enqueued, performed, processed) := drainLoop s.handlers env [] s.enqueued s.performed 0
  (processed, { s with enqueued, performed })

end FakeStore

end OjsSdk
