import OjsSdk.WorkerPermits
import OjsSdk.WorkerStops

namespace OjsSdk

open StepSystem

variable {w : Worker} {s s' : State} {a : Action} {past : List (State × Action)}

/-- The steps that a job task still takes at most. -/
def TaskPc.remaining : TaskPc → Nat
  | .lookup => 6
  | .handling => 5
  | .settling => 4
  | .decrement => 3
  | .untrack => 2
  | .release => 1
  | .ended | .panicked | .aborted => 0

/-- With the step that reaps it. -/
def Task.remaining (t : Task) : Nat := t.pc.remaining + if t.reaped then 0 else 1

/-- The steps of the main loop after the shutdown signal, without those of the next fetch response
and without further rounds of the grace period. A job that waits for its task takes eleven, those
of its task included. -/
def MainPc.remaining : MainPc → Nat
  | .checkState => 11
  | .loadActive => 10
  | .fetch _ => 9
  | .fetching _ => 8
  | .wait _ => 7
  | .spawning .acquire _ rest => 6 + 11 * (rest.length + 1)
  | .spawning .count _ rest => 5 + 11 * (rest.length + 1)
  | .spawning .track _ rest => 4 + 11 * (rest.length + 1)
  | .spawning .spawn _ rest => 3 + 11 * (rest.length + 1)
  | .reaping => 6
  | .checkShutdown => 5
  | .storeTerminate | .graceWait => 4
  | .graceCheck => 3
  | .graceDeadline => 2
  | .stopping _ => 1
  | .returned _ | .unwound => 0

def State.remaining (s : State) : Nat := s.main.remaining + (s.tasks.map Task.remaining).sum

/-- A step of `start` itself or of a job task. -/
def Action.cost : Action → Nat
  | .main _ | .task _ _ => 1
  | _ => 0

/-- What a step brings in: the jobs of a fetch response, or one more round of the grace period. -/
def Action.credit : Action → Nat
  | .main (.response (.ok jobs)) => 11 * jobs.length
  | .main (.deadline false) => 3
  | _ => 0

theorem nextJob_remaining (rest : List Job) : (nextJob rest).remaining = 6 + 11 * rest.length := by
  cases rest <;> rfl

theorem WaitSite.resume_remaining_le (site : WaitSite) : site.resume.remaining ≤ 6 := by
  cases site <;> simp [WaitSite.resume, MainPc.remaining]

theorem State.remaining_reap {i : Nat} {t : Task} (hj : s.joinable i = some t) :
    ((s.tasks.set i { t with reaped := true }).map Task.remaining).sum + 1 =
      (s.tasks.map Task.remaining).sum := by
  obtain ⟨ht, _, fresh⟩ := State.joinable_eq_some hj
  have moved := Population.sum_map_set { t with reaped := true } Task.remaining ht
  simp only [Task.remaining, fresh] at moved ⊢
  simp at moved ⊢
  omega

theorem Task.Move.remaining {workerId : String} {handlers : Finset String} {stopped : Bool}
    {t u : Task} {e : TaskEvent} {eff : Effect}
    (h : Task.Move workerId handlers stopped t e u eff) : u.remaining + 1 ≤ t.remaining := by
  have reaped : u.reaped = t.reaped := by cases h <;> rfl
  have fewer : u.pc.remaining + 1 ≤ t.pc.remaining := by
    cases h with
    | unwound hpc =>
      rcases hpc with hpc | hpc <;> simp [TaskPc.remaining, hpc]
    | aborted _ hpc =>
      cases here : t.pc <;> simp_all [TaskPc.remaining, TaskPc.suspended]
    | found hpc | missing hpc | handled _ hpc | settled _ hpc | counted hpc | untracked hpc
    | released hpc => simp [TaskPc.remaining, Task.settle, hpc]
  unfold Task.remaining
  rw [reaped]
  omega

theorem State.MainMove.remaining {e : MainEvent} {pc : MainPc} {eff : Effect}
    (h : State.MainMove w s e pc eff) (signalled : s.shutdown = true) :
    pc.remaining + ((s.perform eff).tasks.map Task.remaining).sum + 1 ≤
      s.remaining + (Action.main e).credit := by
  unfold State.remaining
  cases h with
  | sawNoShutdown hm silent =>
    rw [signalled] at silent
    cases silent
  | received count job rest hm =>
    rw [hm]
    show 6 + 11 * (rest.length + 1) + _ + 1 ≤ 8 + _ + 11 * (rest.length + 1)
    simp only [State.perform]
    omega
  | spawned job rest hm =>
    have grown : ((s.tasks ++ [Task.spawned job]).map Task.remaining).sum =
        (s.tasks.map Task.remaining).sum + 7 := by
      rw [List.map_append, List.sum_append]
      rfl
    rw [hm, nextJob_remaining]
    show 6 + 11 * rest.length + ((s.tasks ++ [Task.spawned job]).map Task.remaining).sum + 1 ≤
      3 + 11 * (rest.length + 1) + _ + 0
    omega
  | slept site hm =>
    have le := site.resume_remaining_le
    rw [hm]
    show site.resume.remaining + (s.tasks.map Task.remaining).sum + 1 ≤ 7 + _ + 0
    omega
  | reaped i t hm hj =>
    have fewer := State.remaining_reap hj
    rw [hm]
    show 6 + ((s.tasks.set i { t with reaped := true }).map Task.remaining).sum + 1 ≤ 6 + _ + 0
    omega
  | graceReaped i t hm hj =>
    have fewer := State.remaining_reap hj
    rw [hm]
    show 3 + ((s.tasks.set i { t with reaped := true }).map Task.remaining).sum + 1 ≤ 4 + _ + 0
    omega
  | sawShutdown hm | storedTerminate hm | sawTerminate hm | sawQuiet hm | sawRunning hm
  | notified _ hm | full hm | spare hm | called _ hm | receivedNone _ hm | fetchFailed _ _ hm
  | fetchPanicked _ hm | acquired _ _ hm | countedIn _ _ hm | tracked _ _ hm | allReaped hm
  | drained hm | stillActive hm | expired hm | inTime hm | graceEmpty hm | graceSlept hm
  | stopped _ hm =>
    simp only [State.perform, MainPc.remaining, Action.credit, hm]
    omega

theorem State.Move.remaining (h : State.Move w s a s') (signalled : s.shutdown = true) :
    s'.remaining + a.cost ≤ s.remaining + a.credit := by
  cases h with
  | main hm => exact hm.remaining signalled
  | @task i e t u eff ht hm =>
    have moved := Population.sum_map_set u Task.remaining ht
    have fewer := hm.remaining
    have main := hm.main_eq s
    unfold State.remaining
    rw [main]
    show s.main.remaining + ((s.tasks.set i u).map Task.remaining).sum + 1 ≤
      s.main.remaining + _ + 0
    omega
  | @heartbeat e pc eff hb =>
    obtain ⟨_, he⟩ := hb.frame
    rw [he]
    exact Nat.le_refl _
  | signal => exact Nat.le_refl _
  | register => exact Nat.le_refl _

theorem Task.advances {t : Task} (alive : t.alive = true) (workerId : String)
    (handlers : Finset String) (stopped : Bool) :
    ∃ e, (t.step workerId handlers stopped e).isSome = true := by
  cases here : t.pc with
  | lookup =>
    refine ⟨.lookup, ?_⟩
    by_cases known : t.job.jobType ∈ handlers <;> simp [step, here, known]
  | handling => exact ⟨.handlerReturned (.ok .null), by simp [step, here]⟩
  | settling => exact ⟨.callReturned (.ok ()), by simp [step, here]⟩
  | decrement | untrack | release => exact ⟨.cleanup, by simp [step, here]⟩
  | ended | panicked | aborted => simp [Task.alive, TaskPc.isOver, here] at alive

/-- Only a worker that runs jobs fetches, and spawns. -/
theorem Ran.concurrency_pos (ran : Ran w past s) :
    (∃ count, s.main = .fetch count ∨ s.main = .fetching count) ∨ s.main.pending ≠ [] →
      0 < w.concurrency := by
  revert ran
  apply Ran.invariant
  · intro init hi
    simp [(initial_of_start hi).main, MainPc.pending]
  · intro past s a s' _ before move
    cases move with
    | main hm =>
      cases hm with
      | spare hm room => exact fun _ => by omega
      | called count hm => exact fun _ => before (.inl ⟨count, .inl hm⟩)
      | received count job rest hm => exact fun _ => before (.inl ⟨count, .inr hm⟩)
      | acquired job rest hm | countedIn job rest hm | tracked job rest hm | spawned job rest hm =>
        exact fun _ => before (.inr (by simp [hm, MainPc.pending]))
      | slept site hm => cases site <;> simp [WaitSite.resume, MainPc.pending]
      | _ => simp [MainPc.pending]
    | @task i e t u eff ht hm =>
      have main := hm.main_eq s
      simp only [main]
      exact before
    | @heartbeat e pc eff hb =>
      obtain ⟨_, he⟩ := hb.frame
      simpa only [he] using before
    | signal => exact before
    | register => exact before

/-- The spawn loop waits for a permit, and a job task that has one can move. -/
structure State.AwaitsHolder (w : Worker) (s : State) : Prop where
  waits : ∃ job rest, s.main = .spawning .acquire job rest
  none_free : s.permits = 0
  holder : ∃ (i : Nat) (t : Task) (e : TaskEvent), s.tasks[i]? = some t ∧ t.permit = true ∧
    (s.step w (.task i e)).isSome = true

theorem Ran.awaitsHolder (ran : Ran w past s) {job : Job} {rest : List Job}
    (waits : s.main = .spawning .acquire job rest) (none_free : s.permits = 0) :
    s.AwaitsHolder w := by
  have positive := ran.concurrency_pos (.inr (by simp [waits, MainPc.pending]))
  have total := ran.allPermits
  have spawner : s.main.permits = 0 := by rw [waits]; rfl
  unfold State.allPermits at total
  rw [none_free, spawner] at total
  obtain ⟨t, mem, holds⟩ := List.countP_pos_iff.mp (by omega : 0 < s.tasks.countP Task.permit)
  have alive : t.alive = true := by rw [← (ran.consistent t mem).permit, holds]
  obtain ⟨i, here⟩ := List.mem_iff_getElem?.mp mem
  obtain ⟨e, moves⟩ := Task.advances alive w.workerId s.handlers s.main.isOver
  exact ⟨⟨job, rest, waits⟩, none_free, i, t, e, here, holds, by simpa [State.step, here] using moves⟩

theorem Ran.advances (ran : Ran w past s) (running : s.main.isOver = false) :
    (∃ e, (s.step w (.main e)).isSome = true) ∨ s.AwaitsHolder w := by
  have takes : ∀ e, (s.mainStep w e).isSome = true → ∃ e, (s.step w (.main e)).isSome = true :=
    fun e moves => ⟨e, by simpa [State.step] using moves⟩
  cases here : s.main with
  | checkShutdown | storeTerminate | checkState | loadActive | fetch _ | reaping | graceCheck
  | stopping _ => exact .inl (takes .advance (by simp [State.mainStep, here]))
  | wait _ | graceWait => exact .inl (takes .elapsed (by simp [State.mainStep, here]))
  | graceDeadline => exact .inl (takes (.deadline true) (by simp [State.mainStep, here]))
  | fetching count => exact .inl (takes (.response (.ok [])) (by simp [State.mainStep, here]))
  | spawning stage job rest =>
    cases stage with
    | acquire =>
      by_cases free : 0 < s.permits
      · exact .inl (takes .advance (by simp [State.mainStep, here, free]))
      · exact .inr (ran.awaitsHolder here (by omega))
    | count | track | spawn => exact .inl (takes .advance (by simp [State.mainStep, here]))
  | returned _ | unwound => simp [here, MainPc.isOver] at running

def Action.isResponse : Action → Nat
  | .main (.response _) => 1
  | _ => 0

/-- The fetch responses that the main loop still takes after the shutdown signal. -/
def State.dueResponses (s : State) : Nat :=
  match s.main with
  | .checkState | .loadActive | .fetch _ | .fetching _ => 1
  | _ => 0

theorem State.Move.dueResponses (h : State.Move w s a s') (signalled : s.shutdown = true) :
    s'.dueResponses + a.isResponse ≤ s.dueResponses + 0 := by
  cases h with
  | main hm =>
    unfold State.dueResponses
    cases hm with
    | sawNoShutdown hm silent =>
      rw [signalled] at silent
      cases silent
    | spawned job rest hm => cases rest <;> simp [nextJob, Action.isResponse]
    | slept site hm => cases site <;> simp [WaitSite.resume, Action.isResponse]
    | _ => simp_all [Action.isResponse]
  | @task i e t u eff ht hm =>
    have main := hm.main_eq s
    unfold State.dueResponses
    simp only [main]
    exact Nat.le_refl _
  | @heartbeat e pc eff hb =>
    obtain ⟨_, he⟩ := hb.frame
    rw [he]
    exact Nat.le_refl _
  | signal => exact Nat.le_refl _
  | register => exact Nat.le_refl _

theorem State.dueResponses_le (s : State) : s.dueResponses ≤ 1 := by
  unfold dueResponses
  split <;> omega

theorem Task.remaining_le (t : Task) : t.remaining ≤ 7 := by
  unfold Task.remaining
  cases t.pc <;> simp only [TaskPc.remaining] <;> split <;> omega

theorem MainPc.remaining_le (pc : MainPc) : pc.remaining ≤ 11 + 11 * pc.pending.length := by
  cases pc with
  | spawning stage job rest =>
    cases stage <;> simp only [MainPc.remaining, MainPc.pending, List.length_cons] <;> omega
  | _ => simp [MainPc.remaining, MainPc.pending]

theorem State.remaining_le (s : State) :
    s.remaining ≤ 11 + 11 * s.main.pending.length + 7 * s.tasks.length := by
  have main := s.main.remaining_le
  have tasks : (s.tasks.map Task.remaining).sum ≤ 7 * s.tasks.length := by
    induction s.tasks with
    | nil => exact Nat.le_refl 0
    | cons t tasks ih =>
      have most := t.remaining_le
      simp only [List.map_cons, List.sum_cons, List.length_cons]
      omega
  unfold State.remaining
  omega

/-- The shutdown ends. Whatever is scheduled after the shutdown signal, and whatever the server, the
handlers and the clock do, `start` and the job tasks take a bounded number of steps, those apart
that the jobs of a fetch response and the rounds of the grace period before its end bring in. One
fetch response is still taken at most. And until `start` has ended it has a step to take itself, or
it waits for a permit that a job task with a step to take has. -/
theorem shutdown_ends (w : Worker) (past : List (State × Action)) (s : State) (ran : Ran w past s)
    (signalled : s.shutdown = true) (actions : List Action) (past' : List (State × Action))
    (t : State) (scheduled : exec (State.step w) past s actions = some (past', t)) :
    (actions.map Action.cost).sum ≤ 11 + 11 * s.main.pending.length + 7 * s.tasks.length +
        (actions.map Action.credit).sum ∧
      (actions.map Action.isResponse).sum ≤ 1 ∧
      (t.main.isOver = false →
        (∃ e, (t.step w (.main e)).isSome = true) ∨ t.AwaitsHolder w) := by
  have keep : ∀ s a t, s.shutdown = true → State.step w s a = some t → t.shutdown = true :=
    fun s a t sent moves => (State.move_of_step moves).shutdown sent
  obtain ⟨-, steps⟩ := exec_budget keep
    (fun s a t sent moves => (State.move_of_step moves).remaining sent) signalled scheduled
  obtain ⟨-, responses⟩ := exec_budget keep
    (fun s a t sent moves => (State.move_of_step moves).dueResponses sent) signalled scheduled
  have most := s.remaining_le
  have due := s.dueResponses_le
  have nothing : (actions.map (fun _ => 0)).sum = 0 := by simp
  obtain ⟨init, hi, run⟩ := ran
  have later : Ran w past' t := ⟨init, hi, run.exec scheduled⟩
  exact ⟨by omega, by omega, later.advances⟩

/-- The signal arrives while a job is handled. -/
theorem drain_ends :
    ∃ past s, Ran (emailWorker 1) past s ∧ s.shutdown = true ∧ s.main.isOver = false ∧
      ∀ actions past' t, exec (State.step (emailWorker 1)) past s actions = some (past', t) →
        (actions.map Action.cost).sum ≤ 18 + (actions.map Action.credit).sum := by
  have ran := ran_of_exec (w := emailWorker 1) rfl
    (rfl : exec _ _ _ (fetchSteps [emailJob "job-1"] ++ spawnSteps ++ [.task 0 .lookup, .signal]) =
      some (_, _))
  refine ⟨_, _, ran, rfl, rfl, ?_⟩
  intro actions past' t scheduled
  exact (shutdown_ends (emailWorker 1) _ _ ran rfl actions past' t scheduled).1

end OjsSdk
