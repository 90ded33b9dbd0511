import OjsSdk.WorkerRun

namespace OjsSdk

open StepSystem

variable {w : Worker} {s s' : State} {a : Action} {past : List (State × Action)}

/-- Permits that are free, held by the spawn loop, or captured by job tasks. -/
def State.allPermits (s : State) : Nat :=
  s.permits + s.main.permits + s.tasks.countP Task.permit

def State.aliveTasks (s : State) : Nat := s.tasks.countP Task.alive

def State.heldPermits (s : State) : Nat := s.tasks.countP (fun t => t.alive && t.permit)

def State.runningHandlers (s : State) : Nat := s.tasks.countP Task.handling

/-- A job task gives its permit back in the step that ends it, and in no other. -/
theorem Task.Move.permits (s : State) {workerId : String} {handlers : Finset String} {stopped : Bool}
    {t u : Task} {e : TaskEvent} {eff : Effect} (hc : t.Consistent)
    (h : Task.Move workerId handlers stopped t e u eff) :
    (s.perform eff).permits + u.permit.toNat = s.permits + t.permit.toNat := by
  have held := hc.permit
  cases h with
  | unwound hpc =>
    have : t.permit = true := by
      rcases hpc with hpc | hpc <;> simp [held, Task.alive, TaskPc.isOver, hpc]
    simp [State.perform, this]
  | released hpc =>
    have : t.permit = true := by simp [held, Task.alive, TaskPc.isOver, hpc]
    simp [State.perform, this]
  | aborted hs hpc =>
    have : t.permit = true := by
      rw [held]
      cases hp : t.pc <;> simp_all [Task.alive, TaskPc.isOver, TaskPc.suspended]
    simp [State.perform, this]
  | _ => rfl

@[simp] theorem nextJob_permits (rest : List Job) : (nextJob rest).permits = 0 := by
  cases rest <;> rfl

@[simp] theorem WaitSite.resume_permits (site : WaitSite) : site.resume.permits = 0 := by
  cases site <;> rfl

/-- The main loop moves one permit from the semaphore to the spawn loop, and from
there into the task. -/
theorem State.MainMove.permits {e : MainEvent} {pc : MainPc} {eff : Effect}
    (h : State.MainMove w s e pc eff) :
    (s.perform eff).permits + pc.permits + (s.perform eff).tasks.countP Task.permit =
      s.allPermits := by
  unfold State.allPermits
  cases h with
  | acquired job rest hm hp => simp [State.perform, hm, MainPc.permits]; omega
  | spawned job rest hm =>
    have held : s.main.permits = 1 := by rw [hm]; rfl
    simp [State.perform, held, List.countP_append, Task.spawned]
    omega
  | reaped i t hm hj =>
    have same := State.countP_reap (p := Task.permit) hj rfl
    simp [State.perform, hm, MainPc.permits, same]
  | graceReaped i t hm hj =>
    have same := State.countP_reap (p := Task.permit) hj rfl
    simp [State.perform, hm, MainPc.permits, same]
  | slept site hm =>
    have none_held : s.main.permits = 0 := by rw [hm]; rfl
    simp [State.perform, none_held]
  | _ => simp_all [State.perform, MainPc.permits]

theorem State.Move.permits (consistent : ∀ t ∈ s.tasks, t.Consistent) (h : State.Move w s a s') :
    s'.allPermits = s.allPermits := by
  cases h with
  | main hm => exact hm.permits
  | @task i e t u eff ht hm =>
    have moved := hm.permits s (consistent t (List.mem_of_getElem? ht))
    have counted := Population.countP_set u Task.permit ht
    have main := hm.main_eq s
    simp only [State.allPermits, main]
    omega
  | @heartbeat e pc eff hb =>
    obtain ⟨_, he⟩ := hb.frame
    simp only [State.allPermits, he]
  | signal => rfl
  | register => rfl

theorem Ran.allPermits (ran : Ran w past s) : s.allPermits = w.concurrency := by
  revert ran
  apply Ran.invariant
  · intro init hi
    have init_eq := initial_of_start hi
    simp [State.allPermits, init_eq.permits, init_eq.main, init_eq.tasks, MainPc.permits]
  · intro past s a s' earlier total move
    rw [move.permits earlier.consistent, total]

theorem Ran.permits_of_alive (ran : Ran w past s) :
    s.tasks.countP Task.permit = s.aliveTasks ∧ s.heldPermits = s.aliveTasks := by
  constructor
  · exact List.countP_congr (fun t ht => by rw [(ran.consistent t ht).permit])
  · exact List.countP_congr (fun t ht => by rw [(ran.consistent t ht).permit, Bool.and_self])

theorem State.runningHandlers_le (s : State) : s.runningHandlers ≤ s.aliveTasks := by
  apply List.countP_mono_left
  intro t _ running
  have at_handler : t.pc = .handling := by simpa [Task.handling] using running
  simp [Task.alive, at_handler, TaskPc.isOver]

/-- At most `concurrency` job tasks are alive, so at most that many handlers run,
and the permits that are free, with the main loop, or with live tasks add up to
the concurrency, whatever the server answers and however the steps interleave. -/
theorem concurrency_bound (w : Worker) (past : List (State × Action)) (s : State)
    (ran : Ran w past s) :
    s.permits + s.main.permits + s.heldPermits = w.concurrency ∧
      s.aliveTasks ≤ w.concurrency ∧ s.runningHandlers ≤ w.concurrency := by
  obtain ⟨held, live⟩ := ran.permits_of_alive
  have total := ran.allPermits
  rw [State.allPermits, held] at total
  have handlers := s.runningHandlers_le
  exact ⟨by omega, by omega, by omega⟩

/-- A response of two jobs for one slot: the second job waits for the permit. -/
theorem concurrency_bound_oversized :
    ∃ past s, Ran (emailWorker 1) past s ∧
      s.main = .spawning .acquire (emailJob "job-2") [] ∧ s.aliveTasks = 1 ∧
      s.permits + s.main.permits + s.heldPermits = 1 ∧ s.aliveTasks ≤ 1 ∧ s.runningHandlers ≤ 1 := by
  have ran := ran_of_exec (w := emailWorker 1) rfl
    (rfl : exec _ _ _ (fetchSteps [emailJob "job-1", emailJob "job-2"] ++ spawnSteps) =
      some (_, _))
  exact ⟨_, _, ran, rfl, rfl, concurrency_bound (emailWorker 1) _ _ ran⟩

end OjsSdk
