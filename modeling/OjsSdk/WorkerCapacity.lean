import OjsSdk.WorkerAccounting

namespace OjsSdk

open StepSystem

variable {w : Worker} {s s' : State} {a : Action} {past : List (State × Action)}

/-- Slots that the main loop has asked jobs for, or has received jobs for, and
that are not counted in yet. -/
def MainPc.reserved : MainPc → Nat
  | .fetch count | .fetching count => count
  | .spawning .acquire _ rest | .spawning .count _ rest => rest.length + 1
  | .spawning .track _ rest | .spawning .spawn _ rest => rest.length
  | _ => 0

def MainPc.requested : MainPc → Option Nat
  | .fetching count => some count
  | _ => none

def Action.received : Action → Option (List Job)
  | .main (.response (.ok jobs)) => some jobs
  | _ => none

/-- A fetch response has no more jobs than were asked for. -/
def WithinRequest (s : State) (a : Action) : Prop :=
  ∀ count ∈ s.main.requested, ∀ jobs ∈ a.received, jobs.length ≤ count

instance : Decidable (WithinRequest s a) := inferInstanceAs (Decidable (∀ _ ∈ _, _))

@[simp] theorem nextJob_reserved (rest : List Job) : (nextJob rest).reserved = rest.length := by
  cases rest <;> rfl

@[simp] theorem WaitSite.resume_reserved (site : WaitSite) : site.resume.reserved = 0 := by
  cases site <;> rfl

theorem MainPc.pending_le (pc : MainPc) : pc.pending.length ≤ pc.reserved + pc.counted := by
  cases pc with
  | spawning stage job rest => cases stage <;> simp [pending, reserved, counted]
  | _ => simp [pending]

theorem asUsize_natCast {n : Nat} (h : n ≤ maxPermits) : asUsize n = n := by
  unfold asUsize maxPermits at *
  omega

theorem State.MainMove.within {e : MainEvent} {pc : MainPc} {eff : Effect}
    (h : State.MainMove w s e pc eff) (limit : w.concurrency ≤ maxPermits)
    (exact_count : s.activeCount = s.countedIn) (server : WithinRequest s (.main e))
    (before : s.countedIn + s.main.reserved ≤ w.concurrency) :
    pc.counted + (s.perform eff).tasks.countP Task.counted + pc.reserved ≤ w.concurrency := by
  unfold State.countedIn at exact_count before
  cases h with
  | spare hm spare =>
    have read := asUsize_natCast (show s.countedIn ≤ maxPermits by unfold State.countedIn; omega)
    rw [State.countedIn, ← exact_count] at read
    simp only [State.perform, MainPc.counted, MainPc.reserved, hm] at *
    omega
  | received count job rest hm =>
    have short := server count (by simp [hm, MainPc.requested]) _ rfl
    simp only [State.perform, MainPc.counted, MainPc.reserved, hm, List.length_cons] at *
    omega
  | countedIn job rest hm =>
    simp only [State.perform, MainPc.counted, MainPc.reserved, hm] at *
    omega
  | spawned job rest hm =>
    have here : s.main.counted = 1 ∧ s.main.reserved = rest.length := by rw [hm]; exact ⟨rfl, rfl⟩
    simp [State.perform, List.countP_append, Task.spawned]
    omega
  | reaped i t hm hj =>
    have same := State.countP_reap (p := Task.counted) hj rfl
    simp only [State.perform, MainPc.counted, MainPc.reserved, hm, same] at *
    omega
  | graceReaped i t hm hj =>
    have same := State.countP_reap (p := Task.counted) hj rfl
    simp only [State.perform, MainPc.counted, MainPc.reserved, hm, same] at *
    omega
  | slept site hm =>
    simp only [State.perform, WaitSite.resume_counted, WaitSite.resume_reserved] at *
    omega
  | _ => simp_all only [State.perform, MainPc.counted, MainPc.reserved] <;> omega

theorem Task.Move.counted_le {workerId : String} {handlers : Finset String} {stopped : Bool}
    {t u : Task} {e : TaskEvent} {eff : Effect}
    (h : Task.Move workerId handlers stopped t e u eff) : u.counted.toNat ≤ t.counted.toNat := by
  cases h <;> simp [Task.settle]

theorem State.Move.within (h : State.Move w s a s') (limit : w.concurrency ≤ maxPermits)
    (exact_count : s.activeCount = s.countedIn) (server : WithinRequest s a)
    (before : s.countedIn + s.main.reserved ≤ w.concurrency) :
    s'.countedIn + s'.main.reserved ≤ w.concurrency := by
  cases h with
  | main hm => exact hm.within limit exact_count server before
  | @task i e t u eff ht hm =>
    obtain ⟨_, _, _, he⟩ := hm.frame s
    have counted := Population.countP_set u Task.counted ht
    have less := hm.counted_le
    simp only [State.countedIn, he] at *
    omega
  | @heartbeat e pc eff hb =>
    obtain ⟨_, he⟩ := hb.frame
    simpa only [State.countedIn, he] using before
  | signal => exact before
  | register => exact before

/-- On a fresh worker, the jobs counted in and the slots reserved for more never
exceed the concurrency. -/
theorem Ran.within (fresh : w.Fresh) (ran : Ran w past s)
    (server : ∀ e ∈ past, WithinRequest e.1 e.2) :
    s.countedIn + s.main.reserved ≤ w.concurrency := by
  obtain ⟨init, hi, run⟩ := ran
  have init_eq := initial_of_start hi
  apply Run.keeps (P := fun s => s.countedIn + s.main.reserved ≤ w.concurrency) ?_ ?_ run server
  · simp [State.countedIn, init_eq.main, init_eq.tasks, MainPc.counted, MainPc.reserved]
  · intro past s a s' earlier before within hs
    have total := Ran.activeCount ⟨init, hi, earlier⟩
    rw [fresh.uncounted, Int.zero_add] at total
    exact (State.move_of_step hs).within init_eq.concurrency total within before

/-- If no fetch response has more jobs than were asked for, the fetched jobs
without a task and the job tasks in process number at most the concurrency. -/
theorem pending_add_executing_le (w : Worker) (past : List (State × Action)) (s : State)
    (fresh : w.Fresh) (ran : Ran w past s) (server : ∀ e ∈ past, WithinRequest e.1 e.2) :
    s.main.pending.length + s.tasks.countP Task.executing ≤ w.concurrency := by
  have within := ran.within fresh server
  have pending := s.main.pending_le
  have executing : s.tasks.countP Task.executing ≤ s.tasks.countP Task.counted := by
    apply List.countP_mono_left
    intro t ht running
    exact (ran.consistent t ht).counted (.inl running)
  unfold State.countedIn at within
  omega

/-- Two jobs are in process and a third one has been fetched for the last slot. -/
theorem pending_add_executing_full :
    ∃ past s, Ran (emailWorker 3) past s ∧ s.main.pending = [emailJob "job-3"] ∧
      s.tasks.map Task.executing = [true, true] ∧
      s.main.pending.length + s.tasks.countP Task.executing ≤ 3 := by
  have ran := ran_of_exec (w := emailWorker 3) rfl
    (rfl : exec _ _ _ (fetchSteps [emailJob "job-1", emailJob "job-2"] ++ spawnSteps ++
      spawnSteps ++ [.main .advance] ++ fetchSteps [emailJob "job-3"]) = some (_, _))
  exact ⟨_, _, ran, rfl, rfl,
    pending_add_executing_le (emailWorker 3) _ _ (emailWorker_fresh 3) ran (by decide)⟩

end OjsSdk
