import OjsSdk.StepSystem
import OjsSdk.Population
import OjsSdk.WorkerMoves

namespace OjsSdk

open StepSystem

/-- `past` and `s` are a run of `Worker::start` on `w`, up to some point. -/
def Ran (w : Worker) (past : List (State × Action)) (s : State) : Prop :=
  ∃ init, start w = some init ∧ Run (State.step w) init past s

/-- The state in which `start` enters its fetch loop. -/
structure Initial (w : Worker) (init : State) : Prop where
  concurrency : w.concurrency ≤ maxPermits
  state : init.state = w.state
  activeCount : init.activeCount = w.activeCount
  activeJobs : init.activeJobs = w.activeJobs
  permits : init.permits = w.concurrency
  shutdown : init.shutdown = false
  abortHeartbeat : init.abortHeartbeat = false
  main : init.main = .checkShutdown
  heartbeat : init.heartbeat = .starting
  tasks : init.tasks = []
  fetched : init.fetched = []

theorem initial_of_start {w : Worker} {init : State} (h : start w = some init) :
    Initial w init := by
  unfold start at h
  split at h
  next hc => cases h; constructor <;> first | exact hc | rfl
  next => cases h

variable {w : Worker} {s s' : State} {a : Action} {past : List (State × Action)}

theorem Ran.invariant {P : State → Prop} (base : ∀ init, start w = some init → P init)
    (keep : ∀ past s a s', Ran w past s → P s → State.Move w s a s' → P s')
    (ran : Ran w past s) : P s := by
  obtain ⟨init, hi, run⟩ := ran
  exact run.invariant (base init hi) (fun past s a s' earlier hp hs =>
    keep past s a s' ⟨init, hi, earlier⟩ hp (State.move_of_step hs))

namespace State

theorem joinable_eq_some {i : Nat} {t : Task} (h : s.joinable i = some t) :
    s.tasks[i]? = some t ∧ t.isOver = true ∧ t.reaped = false := by
  obtain ⟨ht, hp⟩ := Option.filter_eq_some_iff.mp h
  have both := Bool.and_eq_true_iff.mp hp
  exact ⟨ht, both.1, by simpa using both.2⟩

theorem directive_cases (state : String) :
    (state = "quiet" ∧ directive state = .store .quiet) ∨
      (state = "terminate" ∧ directive state = .store .terminate) ∨
      (state ≠ "quiet" ∧ state ≠ "terminate" ∧ directive state = .skip) := by
  unfold directive
  split
  next hq => exact .inl ⟨hq, rfl⟩
  next hq =>
    split
    next ht => exact .inr (.inl ⟨ht, rfl⟩)
    next ht => exact .inr (.inr ⟨hq, ht, rfl⟩)

theorem perform_directive (s : State) (state : String) :
    ∃ stored, s.perform (directive state) = { s with state := stored } := by
  rcases directive_cases state with ⟨_, h⟩ | ⟨_, h⟩ | ⟨_, _, h⟩ <;> rw [h] <;> exact ⟨_, rfl⟩

theorem countP_reap {i : Nat} {t : Task} {p : Task → Bool} (hj : s.joinable i = some t)
    (same : p { t with reaped := true } = p t) :
    (s.tasks.set i { t with reaped := true }).countP p = s.tasks.countP p :=
  Population.countP_set_of_eq (joinable_eq_some hj).1 same

theorem HeartbeatMove.frame {e : HeartbeatEvent} {pc : HeartbeatPc} {eff : Effect}
    (h : HeartbeatMove w s e pc eff) : ∃ stored, s.perform eff = { s with state := stored } := by
  cases h with
  | answered req resp hb => exact s.perform_directive resp.state
  | _ => exact ⟨s.state, rfl⟩

/-- What a step does to the job tasks: nothing, the spawn of a new task, one step
of one task, or the reaping of an ended one. -/
theorem Move.tasks (h : Move w s a s') :
    s'.tasks = s.tasks ∨
    (∃ job rest, a = .main .advance ∧ s.main = .spawning .spawn job rest ∧
      s'.tasks = s.tasks ++ [.spawned job]) ∨
    (∃ i e t u eff, a = .task i e ∧ s.tasks[i]? = some t ∧
      Task.Move w.workerId s.handlers s.main.isOver t e u eff ∧ s'.tasks = s.tasks.set i u) ∨
    (∃ i t, s.tasks[i]? = some t ∧ t.isOver = true ∧
      s'.tasks = s.tasks.set i { t with reaped := true }) := by
  cases h with
  | main hm =>
    cases hm with
    | spawned job rest hm => exact .inr (.inl ⟨job, rest, rfl, hm, rfl⟩)
    | reaped i t hm hj =>
      obtain ⟨ht, ho, _⟩ := joinable_eq_some hj
      exact .inr (.inr (.inr ⟨i, t, ht, ho, rfl⟩))
    | graceReaped i t hm hj =>
      obtain ⟨ht, ho, _⟩ := joinable_eq_some hj
      exact .inr (.inr (.inr ⟨i, t, ht, ho, rfl⟩))
    | _ => exact .inl rfl
  | task ht hm => exact .inr (.inr (.inl ⟨_, _, _, _, _, rfl, ht, hm, rfl⟩))
  | @heartbeat e pc eff hb =>
    obtain ⟨_, he⟩ := hb.frame
    have kept : (s.perform eff).tasks = s.tasks := by rw [he]
    exact .inl kept
  | signal => exact .inl rfl
  | register => exact .inl rfl

/-- What holds of every job task holds of them after a step if it holds of a spawned
task and lasts over the steps of a task and its reaping. -/
theorem Move.forall_tasks {P : Task → Prop} (h : Move w s a s') (before : ∀ t ∈ s.tasks, P t)
    (spawned : ∀ job, P (.spawned job))
    (moved : ∀ i e t u eff, a = .task i e → t ∈ s.tasks →
      Task.Move w.workerId s.handlers s.main.isOver t e u eff → P u)
    (reaped : ∀ t ∈ s.tasks, P t → P { t with reaped := true }) : ∀ t ∈ s'.tasks, P t := by
  rcases h.tasks with h | ⟨job, rest, _, _, h⟩ | ⟨i, e, t, u, eff, ha, ht, hm, h⟩ | ⟨i, t, ht, _, h⟩
  · rw [h]; exact before
  · rw [h]
    intro t ht
    rcases List.mem_append.mp ht with old | new
    · exact before t old
    · rw [List.mem_singleton.mp new]; exact spawned job
  · rw [h]
    exact Population.forall_set before (moved i e t u eff ha (List.mem_of_getElem? ht) hm)
  · rw [h]
    have old := List.mem_of_getElem? ht
    exact Population.forall_set before (reaped t old (before t old))

end State

section

variable {workerId : String} {handlers : Finset String} {stopped : Bool} {t u : Task}
  {e : TaskEvent} {eff : Effect}

theorem Task.Move.frame (s : State) (h : Task.Move workerId handlers stopped t e u eff) :
    ∃ permits activeCount activeJobs, s.perform eff = { s with permits, activeCount, activeJobs } := by
  cases h <;> exact ⟨_, _, _, rfl⟩

theorem Task.Move.main_eq (s : State) (h : Task.Move workerId handlers stopped t e u eff) :
    (s.perform eff).main = s.main := by
  obtain ⟨_, _, _, he⟩ := h.frame s
  rw [he]

end

/-- The job whose task the main loop spawns in this step. -/
def Action.spawned (s : State) : Action → Option Job
  | .main .advance =>
    match s.main with
    | .spawning .spawn job _ => some job
    | _ => none
  | _ => none

/-- A job task that is in process after a step was so before it, unless the step
has just spawned it. -/
theorem State.Move.executing_cases (h : State.Move w s a s') {t : Task} (ht : t ∈ s'.tasks)
    (executing : t.executing = true) :
    (∃ u ∈ s.tasks, u.executing = true ∧ u.job = t.job) ∨ a.spawned s = some t.job := by
  rcases h.tasks with h | ⟨job, rest, rfl, hm, h⟩ | ⟨i, e, u, v, eff, _, hu, hm, h⟩ |
    ⟨i, u, hu, _, h⟩
  · exact .inl ⟨t, h ▸ ht, executing, rfl⟩
  · rw [h] at ht
    rcases List.mem_append.mp ht with old | new
    · exact .inl ⟨t, old, executing, rfl⟩
    · rw [List.mem_singleton.mp new]
      exact .inr (by simp [Action.spawned, hm, Task.spawned])
  · rw [h] at ht
    rcases List.mem_or_eq_of_mem_set ht with old | rfl
    · exact .inl ⟨t, old, executing, rfl⟩
    · exact .inl ⟨u, List.mem_of_getElem? hu, hm.executing executing, hm.job_eq.symm⟩
  · rw [h] at ht
    rcases List.mem_or_eq_of_mem_set ht with old | rfl
    · exact .inl ⟨t, old, executing, rfl⟩
    · exact .inl ⟨u, List.mem_of_getElem? hu, executing, rfl⟩

theorem State.Move.spawned (h : State.Move w s a s') {job : Job}
    (spawned : a.spawned s = some job) :
    Task.spawned job ∈ s'.tasks ∧ s'.activeJobs = s.activeJobs ∧ s'.heartbeat = s.heartbeat ∧
      s'.main.isOver = false := by
  cases h with
  | main hm =>
    cases hm with
    | spawned job' rest hm =>
      obtain rfl : job' = job := by simpa [Action.spawned, hm] using spawned
      exact ⟨List.mem_append_right _ (by simp), rfl, rfl, by cases rest <;> rfl⟩
    | _ => simp_all [Action.spawned]
  | _ => cases spawned

theorem Task.Consistent.reap {t : Task} (h : t.Consistent) :
    ({ t with reaped := true } : Task).Consistent :=
  ⟨h.permit, h.counted, h.uncounted, h.calls, h.open_, h.reported, h.returned, h.discharged,
    h.waiting⟩

theorem Ran.consistent (ran : Ran w past s) : ∀ t ∈ s.tasks, t.Consistent := by
  revert ran
  apply Ran.invariant
  · intro init hi t ht
    rw [(initial_of_start hi).tasks] at ht
    cases ht
  · intro past s a s' _ all move
    apply move.forall_tasks all Task.consistent_spawned
    · intro i e t u eff _ ht hm
      exact (all t ht).move hm
    · exact fun t _ hc => hc.reap

/-- Performing a list of actions from the start of a worker is a run of it. -/
theorem ran_of_exec {init : State} {actions : List Action} (hi : start w = some init)
    (h : exec (State.step w) [] init actions = some (past, s)) : Ran w past s :=
  ⟨init, hi, Run.start.exec h⟩

def emailWorker (concurrency : Nat) : Worker where
  workerId := "worker-1"
  queues := ["default"]
  concurrency
  heartbeatInterval := WorkerBuilder.new.heartbeatInterval
  handlers := {"email.send"}
  state := .running
  activeCount := 0
  activeJobs := ∅

theorem emailWorker_fresh (concurrency : Nat) : (emailWorker concurrency).Fresh :=
  ⟨rfl, rfl, rfl⟩

def emailJob (id : String) : Job :=
  Job.ofWire id "email.send" (normalizeArgs (.object emailObject))

def fetchSteps (jobs : List Job) : List Action :=
  [.main .advance, .main .advance, .main .advance, .main .advance, .main (.response (.ok jobs))]

def spawnSteps : List Action :=
  [.main .advance, .main .advance, .main .advance, .main .advance]

/-- The steps of the job task `i` from its first poll to its end, with an
accepted report. -/
def completeSteps (i : Nat) : List Action :=
  [.task i .lookup, .task i (.handlerReturned (.ok .null)), .task i (.callReturned (.ok ())),
    .task i .cleanup, .task i .cleanup, .task i .cleanup]

end OjsSdk
