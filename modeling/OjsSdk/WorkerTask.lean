import OjsSdk.ProcessJob

namespace OjsSdk

/-- Where a spawned job task is: inside `process_job` (`lookup`, `handling`,
`settling`), in the cleanup after it, or ended in one of three ways. -/
inductive TaskPc
  | lookup
  | handling
  | settling
  | decrement
  | untrack
  | release
  | ended
  | panicked
  | aborted
  deriving DecidableEq, Repr

namespace TaskPc

def executing : TaskPc → Bool
  | .lookup | .handling | .settling => true
  | _ => false

def isOver : TaskPc → Bool
  | .ended | .panicked | .aborted => true
  | _ => false

def finished : TaskPc → Bool
  | .decrement | .untrack | .release | .ended => true
  | _ => false

/-- Positions at which the task can be suspended, so that an abort takes effect. -/
def suspended : TaskPc → Bool
  | .lookup | .handling | .settling | .untrack => true
  | _ => false

end TaskPc

/-- A job task. `permit` is the captured semaphore permit and `counted` says that
its decrement of `active_count` is still to come. The other fields after `pc` are
a record of what happened. -/
structure Task where
  job : Job
  pc : TaskPc := .lookup
  permit : Bool := true
  counted : Bool := true
  context : Option JobContext := none
  outcome : Option Outcome := none
  calls : List Settlement := []
  returnedCalls : Nat := 0
  reaped : Bool := false

def Task.spawned (job : Job) : Task := { job }

inductive TaskEvent
  | lookup
  | handlerReturned (result : HandlerResult)
  | callReturned (result : Except OjsError Unit)
  | panicked
  | cleanup
  | aborted

/-- What a step does to the state that the parties of a worker share. -/
inductive Effect
  | skip
  | store (state : WorkerState)
  | acquirePermit
  | releasePermit
  | countIn
  | countOut
  | track (id : String)
  | untrack (id : String)
  | callFetch (req : FetchRequest)
  | receive (jobs : List Job)
  | spawn (job : Job)
  | reap (i : Nat) (t : Task)
  | stop

namespace Task

def executing (t : Task) : Bool := t.pc.executing

def isOver (t : Task) : Bool := t.pc.isOver

def alive (t : Task) : Bool := !t.pc.isOver

def handling (t : Task) : Bool := t.pc == .handling

/-- `process_job` issues its settlement call. The call is started in the same
poll in which the outcome is known. -/
def settle (t : Task) (o : Outcome) : Task :=
  { t with
    pc := .settling
    outcome := some o
    calls := t.calls ++ [settlement t.job o] }

/-- One step of a job task: `process_job`, then the cleanup block. `stopped` says
that `start` is over, so that its join set has been dropped. -/
def step (workerId : String) (handlers : Finset String) (stopped : Bool) (t : Task)
    (e : TaskEvent) : Option (Task × Effect) :=
  match t.pc, e with
  | .lookup, .lookup =>
    if t.job.jobType ∈ handlers then
      some ({ t with pc := .handling, context := some (processContext workerId t.job) }, .skip)
    else some (t.settle .noHandler, .skip)
  | .handling, .handlerReturned result => some (t.settle (.returned result), .skip)
  | .handling, .panicked => some ({ t with pc := .panicked, permit := false }, .releasePermit)
  | .settling, .panicked => some ({ t with pc := .panicked, permit := false }, .releasePermit)
  | .settling, .callReturned _ =>
    some ({ t with pc := .decrement, returnedCalls := t.returnedCalls + 1 }, .skip)
  | .decrement, .cleanup => some ({ t with pc := .untrack, counted := false }, .countOut)
  | .untrack, .cleanup => some ({ t with pc := .release }, .untrack t.job.id)
  | .release, .cleanup => some ({ t with pc := .ended, permit := false }, .releasePermit)
  | pc, .aborted =>
    if stopped && pc.suspended then
      some ({ t with pc := .aborted, permit := false }, .releasePermit)
    else none
  | _, _ => none

/-- The steps of a job task, by what happens in the source. -/
inductive Move (workerId : String) (handlers : Finset String) (stopped : Bool) (t : Task) :
    TaskEvent → Task → Effect → Prop
  | found : t.pc = .lookup → t.job.jobType ∈ handlers →
      Move workerId handlers stopped t .lookup
        { t with pc := .handling, context := some (processContext workerId t.job) } .skip
  | missing : t.pc = .lookup → t.job.jobType ∉ handlers →
      Move workerId handlers stopped t .lookup (t.settle .noHandler) .skip
  | handled (result) : t.pc = .handling →
      Move workerId handlers stopped t (.handlerReturned result) (t.settle (.returned result)) .skip
  | unwound : t.pc = .handling ∨ t.pc = .settling →
      Move workerId handlers stopped t .panicked { t with pc := .panicked, permit := false }
        .releasePermit
  | settled (result) : t.pc = .settling →
      Move workerId handlers stopped t (.callReturned result)
        { t with pc := .decrement, returnedCalls := t.returnedCalls + 1 } .skip
  | counted : t.pc = .decrement →
      Move workerId handlers stopped t .cleanup { t with pc := .untrack, counted := false } .countOut
  | untracked : t.pc = .untrack →
      Move workerId handlers stopped t .cleanup { t with pc := .release } (.untrack t.job.id)
  | released : t.pc = .release →
      Move workerId handlers stopped t .cleanup { t with pc := .ended, permit := false }
        .releasePermit
  | aborted : stopped = true → t.pc.suspended = true →
      Move workerId handlers stopped t .aborted { t with pc := .aborted, permit := false }
        .releasePermit

variable {workerId : String} {handlers : Finset String} {stopped : Bool} {t u : Task}
  {e : TaskEvent} {eff : Effect}

theorem move_of_step (h : t.step workerId handlers stopped e = some (u, eff)) :
    Move workerId handlers stopped t e u eff := by
  unfold step at h
  split at h
  next hpc =>
    split at h
    next hm => cases h; exact .found hpc hm
    next hm => cases h; exact .missing hpc hm
  next result hpc => cases h; exact .handled result hpc
  next hpc => cases h; exact .unwound (.inl hpc)
  next hpc => cases h; exact .unwound (.inr hpc)
  next result hpc => cases h; exact .settled result hpc
  next hpc => cases h; exact .counted hpc
  next hpc => cases h; exact .untracked hpc
  next hpc => cases h; exact .released hpc
  next =>
    split at h
    next hs =>
      cases h
      have both := Bool.and_eq_true_iff.mp hs
      exact .aborted both.1 both.2
    next => cases h
  next => cases h

theorem Move.job_eq (h : Move workerId handlers stopped t e u eff) : u.job = t.job := by
  cases h <;> rfl

theorem Move.executing (h : Move workerId handlers stopped t e u eff)
    (hu : u.executing = true) : t.executing = true := by
  cases h <;> simp_all [Task.executing, TaskPc.executing]

/-- How the record of a job task and its captured permit agree with its position. -/
structure Consistent (t : Task) : Prop where
  permit : t.permit = t.alive
  counted : t.executing = true ∨ t.pc = .decrement ∨ t.pc = .panicked → t.counted = true
  uncounted : t.pc = .untrack ∨ t.pc = .release ∨ t.pc = .ended → t.counted = false
  calls : t.calls = (t.outcome.map (settlement t.job)).toList
  open_ : t.pc = .lookup ∨ t.pc = .handling → t.outcome = none
  reported : t.pc = .settling ∨ t.pc.finished = true → t.outcome.isSome = true
  returned : t.pc.finished = true → t.returnedCalls = t.calls.length
  discharged : t.counted = false → t.outcome.isSome = true ∧ t.returnedCalls = t.calls.length
  waiting : t.executing = true → t.returnedCalls = 0

theorem consistent_spawned (job : Job) : Consistent (spawned job) := by
  constructor <;> simp [spawned, alive, TaskPc.isOver, TaskPc.finished, executing, TaskPc.executing]

namespace Consistent

theorem running (hc : Consistent t) (runs : t.executing = true) :
    t.permit = true ∧ t.counted = true ∧ t.returnedCalls = 0 := by
  refine ⟨?_, hc.counted (.inl runs), hc.waiting runs⟩
  rw [hc.permit]
  cases hpc : t.pc with
  | ended | panicked | aborted => simp [executing, hpc, TaskPc.executing] at runs
  | _ => simp [alive, hpc, TaskPc.isOver]

/-- The first settlement call is started. -/
theorem settle (hc : Consistent t) (runs : t.executing = true) (undecided : t.outcome = none)
    (o : Outcome) : Consistent (t.settle o) := by
  obtain ⟨permit, counted, uncalled⟩ := hc.running runs
  have calls : t.calls = [] := by
    rw [hc.calls, undecided]
    rfl
  exact {
    permit := permit
    counted := fun _ => counted
    uncounted := by simp [Task.settle]
    calls := by simp [Task.settle, calls]
    open_ := by simp [Task.settle]
    reported := fun _ => rfl
    returned := by simp [Task.settle, TaskPc.finished]
    discharged := by simp [Task.settle, counted]
    waiting := fun _ => uncalled }

/-- The steps of the cleanup. -/
theorem cleanup (hc : Consistent t) (finished : t.pc.finished = true) {pc : TaskPc}
    {permit counted : Bool} (later : pc = .untrack ∨ pc = .release ∨ pc = .ended)
    (held : permit = !pc.isOver) (uncounted : counted = false) :
    Consistent { t with pc, permit, counted } := by
  have outcome := hc.reported (.inr finished)
  have returned := hc.returned finished
  exact {
    permit := held
    counted := by rcases later with rfl | rfl | rfl <;> simp [executing, TaskPc.executing]
    uncounted := fun _ => uncounted
    calls := hc.calls
    open_ := by rcases later with rfl | rfl | rfl <;> simp
    reported := fun _ => outcome
    returned := fun _ => returned
    discharged := fun _ => ⟨outcome, returned⟩
    waiting := by rcases later with rfl | rfl | rfl <;> simp [executing, TaskPc.executing] }

/-- The task ends in the middle and lets its permit go. -/
theorem cutOff (hc : Consistent t) {pc : TaskPc}
    (ends : pc = .aborted ∨ (pc = .panicked ∧ t.counted = true)) :
    Consistent { t with pc, permit := false } := by
  have dead : pc.isOver = true ∧ pc.executing = false ∧ pc.finished = false := by
    rcases ends with rfl | ⟨rfl, -⟩ <;> exact ⟨rfl, rfl, rfl⟩
  obtain ⟨gone, idle, unfinished⟩ := dead
  exact {
    permit := by simp [alive, gone]
    counted := by rcases ends with rfl | ⟨rfl, counted⟩ <;> simp_all [executing]
    uncounted := by rcases ends with rfl | ⟨rfl, -⟩ <;> simp
    calls := hc.calls
    open_ := by rcases ends with rfl | ⟨rfl, -⟩ <;> simp
    reported := by rcases ends with rfl | ⟨rfl, -⟩ <;> simp [TaskPc.finished]
    returned := by simp [unfinished]
    discharged := hc.discharged
    waiting := by simp [executing, idle] }

theorem move (hc : Consistent t) (h : Move workerId handlers stopped t e u eff) :
    Consistent u := by
  cases h with
  | found hpc hm =>
    have runs : t.executing = true := by simp [executing, hpc, TaskPc.executing]
    obtain ⟨permit, counted, uncalled⟩ := hc.running runs
    exact {
      permit := permit
      counted := fun _ => counted
      uncounted := by simp
      calls := hc.calls
      open_ := fun _ => hc.open_ (.inl hpc)
      reported := by simp [TaskPc.finished]
      returned := by simp [TaskPc.finished]
      discharged := hc.discharged
      waiting := fun _ => uncalled }
  | missing hpc hm =>
    have runs : t.executing = true := by simp [executing, hpc, TaskPc.executing]
    exact hc.settle runs (hc.open_ (.inl hpc)) .noHandler
  | handled result hpc =>
    have runs : t.executing = true := by simp [executing, hpc, TaskPc.executing]
    exact hc.settle runs (hc.open_ (.inr hpc)) (.returned result)
  | unwound hpc =>
    have runs : t.executing = true := by
      rcases hpc with hpc | hpc <;> simp [executing, hpc, TaskPc.executing]
    exact hc.cutOff (.inr ⟨rfl, hc.counted (.inl runs)⟩)
  | settled result hpc =>
    have runs : t.executing = true := by simp [executing, hpc, TaskPc.executing]
    obtain ⟨permit, counted, uncalled⟩ := hc.running runs
    obtain ⟨o, decided⟩ := Option.isSome_iff_exists.mp (hc.reported (.inl hpc))
    have one : t.calls.length = 1 := by
      rw [hc.calls, decided]
      rfl
    exact {
      permit := permit
      counted := fun _ => counted
      uncounted := by simp
      calls := hc.calls
      open_ := by simp
      reported := by simp [decided]
      returned := by simp [uncalled, one]
      discharged := by simp [counted]
      waiting := by simp [executing, TaskPc.executing] }
  | counted hpc =>
    have finished : t.pc.finished = true := by simp [hpc, TaskPc.finished]
    have permit : t.permit = true := by simp [hc.permit, alive, hpc, TaskPc.isOver]
    exact hc.cleanup finished (.inl rfl) permit rfl
  | untracked hpc =>
    have finished : t.pc.finished = true := by simp [hpc, TaskPc.finished]
    have permit : t.permit = true := by simp [hc.permit, alive, hpc, TaskPc.isOver]
    exact hc.cleanup finished (.inr (.inl rfl)) permit (hc.uncounted (.inl hpc))
  | released hpc =>
    have finished : t.pc.finished = true := by simp [hpc, TaskPc.finished]
    exact hc.cleanup finished (.inr (.inr rfl)) rfl (hc.uncounted (.inr (.inl hpc)))
  | aborted hs hpc => exact hc.cutOff (.inl rfl)

end Consistent

end Task

end OjsSdk
