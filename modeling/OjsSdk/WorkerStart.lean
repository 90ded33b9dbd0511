import OjsSdk.WorkerTask

namespace OjsSdk

/-- The four waits of the fetch loop, each a `select!` of a sleep of one poll
interval and the shutdown signal. -/
inductive WaitSite
  | quiet
  | capacity
  | empty
  | error
  deriving DecidableEq, Repr

/-- The stages of the spawn loop for one job: acquire a permit, count the job,
insert its id, spawn its task. -/
inductive SpawnStage
  | acquire
  | count
  | track
  | spawn
  deriving DecidableEq, Repr

inductive MainPc
  | checkShutdown
  | storeTerminate
  | checkState
  | wait (site : WaitSite)
  | loadActive
  | fetch (count : Nat)
  | fetching (count : Nat)
  | spawning (stage : SpawnStage) (job : Job) (rest : List Job)
  | reaping
  | graceCheck
  | graceDeadline
  | graceWait
  | stopping (drained : Bool)
  | returned (drained : Bool)
  | unwound

namespace MainPc

/-- Jobs that were fetched and have no task yet. -/
def pending : MainPc → List Job
  | .spawning _ job rest => job :: rest
  | _ => []

/-- The permit that the spawn loop holds between `acquire_owned` and `spawn`. -/
def permits : MainPc → Nat
  | .spawning .acquire _ _ => 0
  | .spawning _ _ _ => 1
  | _ => 0

def counted : MainPc → Nat
  | .spawning .track _ _ => 1
  | .spawning .spawn _ _ => 1
  | _ => 0

/-- The main loop has broken out of its fetch loop. -/
def leftLoop : MainPc → Bool
  | .graceCheck | .graceDeadline | .graceWait | .stopping _ | .returned _ => true
  | _ => false

def isOver : MainPc → Bool
  | .returned _ | .unwound => true
  | _ => false

/-- `start` left the shutdown loop because `active_count` was 0. -/
def drained : MainPc → Bool
  | .stopping d | .returned d => d
  | _ => false

end MainPc

inductive HeartbeatPc
  | starting
  | selecting
  | posting (req : HeartbeatRequest)
  | exited
  deriving DecidableEq, Repr

inductive MainEvent
  | advance
  | elapsed
  | notified
  | response (result : Except OjsError (List Job))
  | panicked
  | reaped (i : Nat)
  | deadline (passed : Bool)

inductive HeartbeatEvent
  | start
  | tick (jobs : List String)
  | response (result : Except OjsError HeartbeatResponse)
  | panicked
  | notified
  | aborted

/-- One step of a run: of the body of `start`, of the `i`-th job task, of the
heartbeat task, of the signal task, or a concurrent `register`. -/
inductive Action
  | main (e : MainEvent)
  | task (i : Nat) (e : TaskEvent)
  | heartbeat (e : HeartbeatEvent)
  | signal
  | register (jobType : String)

/-- What the parties of one `Worker::start` share, and where each of them is.
`fetchCalls` and `fetched` record the calls of `fetch_jobs` and the jobs of the
decoded responses. -/
structure State where
  state : WorkerState
  activeCount : Int
  activeJobs : Finset String
  handlers : Finset String
  permits : Nat
  shutdown : Bool
  signalled : Bool
  abortHeartbeat : Bool
  main : MainPc
  heartbeat : HeartbeatPc
  tasks : List Task
  fetchCalls : List FetchRequest
  fetched : List Job

/-- `tokio::sync::Semaphore::MAX_PERMITS`, beyond which `Semaphore::new` panics. -/
def maxPermits : Nat := 2 ^ 61 - 1

/-- The state once `Worker::start` has spawned its signal and heartbeat tasks. -/
def start (w : Worker) : Option State :=
  if w.concurrency ≤ maxPermits then
    some
      { state := w.state
        activeCount := w.activeCount
        activeJobs := w.activeJobs
        handlers := w.handlers
        permits := w.concurrency
        shutdown := false
        signalled := false
        abortHeartbeat := false
        main := .checkShutdown
        heartbeat := .starting
        tasks := []
        fetchCalls := []
        fetched := [] }
  else none

def asUsize (n : Int) : Nat := (n % 2 ^ 64).toNat

/-- After the spawn of a job: the next job of the batch, or the reaping of ended tasks. -/
def nextJob : List Job → MainPc
  | [] => .reaping
  | job :: rest => .spawning .acquire job rest

def WaitSite.resume : WaitSite → MainPc
  | .error => .reaping
  | _ => .checkShutdown

def directive (state : String) : Effect :=
  if state = "quiet" then .store .quiet
  else if state = "terminate" then .store .terminate
  else .skip

namespace State

def perform (s : State) : Effect → State
  | .skip => s
  | .store state => { s with state }
  | .acquirePermit => { s with permits := s.permits - 1 }
  | .releasePermit => { s with permits := s.permits + 1 }
  | .countIn => { s with activeCount := s.activeCount + 1 }
  | .countOut => { s with activeCount := s.activeCount - 1 }
  | .track id => { s with activeJobs := insert id s.activeJobs }
  | .untrack id => { s with activeJobs := s.activeJobs.erase id }
  | .callFetch req => { s with fetchCalls := s.fetchCalls ++ [req] }
  | .receive jobs => { s with fetched := s.fetched ++ jobs }
  | .spawn job => { s with tasks := s.tasks ++ [.spawned job] }
  | .reap i t => { s with tasks := s.tasks.set i { t with reaped := true } }
  -- `heartbeat_handle.abort()` and `shutdown_tx.send(true)`: no await between them.
  | .stop => { s with abortHeartbeat := true, shutdown := true }

/-- A join of the join set that finds the `i`-th task ended. -/
def joinable (s : State) (i : Nat) : Option Task :=
  (s.tasks[i]?).filter (fun t => t.isOver && !t.reaped)

/-- The body of `Worker::start`, one shared access at a time. -/
def mainStep (w : Worker) (s : State) (e : MainEvent) : Option (MainPc × Effect) :=
  match s.main, e with
  | .checkShutdown, .advance =>
    some (if s.shutdown then .storeTerminate else .checkState, .skip)
  | .storeTerminate, .advance => some (.graceCheck, .store .terminate)
  | .checkState, .advance =>
    some (match s.state with
      | .terminate => .graceCheck
      | .quiet => .wait .quiet
      | .running => .loadActive, .skip)
  | .wait site, .elapsed => some (site.resume, .skip)
  | .wait _, .notified => if s.shutdown then some (.graceCheck, .skip) else none
  | .loadActive, .advance =>
    let capacity := w.concurrency - asUsize s.activeCount
    some (if capacity = 0 then .wait .capacity else .fetch (min capacity 10), .skip)
  | .fetch count, .advance => some (.fetching count, .callFetch (w.fetchRequest count))
  | .fetching _, .response (.ok jobs) =>
    some (match jobs with
      | [] => .wait .empty
      | job :: rest => .spawning .acquire job rest, .receive jobs)
  | .fetching _, .response (.error _) => some (.wait .error, .skip)
  | .fetching _, .panicked => some (.unwound, .skip)
  | .spawning .acquire job rest, .advance =>
    if 0 < s.permits then some (.spawning .count job rest, .acquirePermit) else none
  | .spawning .count job rest, .advance => some (.spawning .track job rest, .countIn)
  | .spawning .track job rest, .advance => some (.spawning .spawn job rest, .track job.id)
  | .spawning .spawn job rest, .advance => some (nextJob rest, .spawn job)
  | .reaping, .reaped i => (s.joinable i).map (fun t => (.reaping, .reap i t))
  | .reaping, .advance => some (.checkShutdown, .skip)
  | .graceCheck, .advance =>
    some (if s.activeCount = 0 then .stopping true else .graceDeadline, .skip)
  | .graceDeadline, .deadline passed =>
    some (if passed then .stopping false else .graceWait, .skip)
  | .graceWait, .reaped i => (s.joinable i).map (fun t => (.graceCheck, .reap i t))
  -- `join_next()` on a join set that holds no task is ready at once.
  | .graceWait, .advance =>
    if s.tasks.all (fun t => t.reaped) then some (.graceCheck, .skip) else none
  | .graceWait, .elapsed => some (.graceCheck, .skip)
  | .stopping drained, .advance => some (.returned drained, .stop)
  | _, _ => none

/-- The heartbeat task. A zero interval makes `tokio::time::interval` panic. -/
def heartbeatStep (w : Worker) (s : State) (e : HeartbeatEvent) : Option (HeartbeatPc × Effect) :=
  match s.heartbeat, e with
  | .starting, .start =>
    some (if w.heartbeatInterval.nanos = 0 then .exited else .selecting, .skip)
  | .selecting, .tick jobs =>
    if jobs.Nodup ∧ jobs.toFinset = s.activeJobs then
      some (.posting (w.heartbeatRequest jobs), .skip)
    else none
  | .posting _, .response (.ok resp) => some (.selecting, directive resp.state)
  | .posting _, .response (.error _) => some (.selecting, .skip)
  | .posting _, .panicked => some (.exited, .skip)
  | .selecting, .notified => if s.shutdown then some (.exited, .skip) else none
  | .exited, _ => none
  | _, .aborted => if s.abortHeartbeat then some (.exited, .skip) else none
  | _, _ => none

/-- One step of a run of `Worker::start`. -/
def step (w : Worker) (s : State) : Action → Option State
  | .main e => (s.mainStep w e).map (fun (pc, eff) => { s.perform eff with main := pc })
  | .task i e =>
    (s.tasks[i]?).bind (fun t =>
      (t.step w.workerId s.handlers s.main.isOver e).map (fun (u, eff) =>
        { s.perform eff with tasks := s.tasks.set i u }))
  | .heartbeat e =>
    (s.heartbeatStep w e).map (fun (pc, eff) => { s.perform eff with heartbeat := pc })
  | .signal => if s.signalled then none else some { s with shutdown := true, signalled := true }
  | .register jobType => some { s with handlers := insert jobType s.handlers }

end State

end OjsSdk
