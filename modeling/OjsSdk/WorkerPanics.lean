import OjsSdk.WorkerTracking

namespace OjsSdk

open StepSystem

variable {w : Worker} {s s' : State} {a : Action} {past : List (State × Action)}

/-- The accounting of active jobs is right: the counter is the number of jobs
counted in whose task is neither over nor past its decrement, and once all job
tasks are over both records are empty. -/
def State.Accounted (s : State) : Prop :=
  s.activeCount = s.liveCounted ∧
    (s.main.counted = 0 → (∀ t ∈ s.tasks, t.isOver = true) →
      s.activeCount = 0 ∧ s.activeJobs = ∅)

theorem Task.isOver_cases {t : Task} (h : t.isOver = true) :
    t.pc = .ended ∨ t.pc = .panicked ∨ t.pc = .aborted := by
  cases hp : t.pc <;> simp_all [Task.isOver, TaskPc.isOver]

theorem MainPc.counted_of_tracked {pc : MainPc} {id : String} (h : pc.tracked = some id) :
    pc.counted = 1 := by
  unfold MainPc.tracked at h
  split at h
  next => rfl
  next => cases h

/-- While `start` is running, a job task that is over has come to its end or has panicked. -/
theorem Ran.ended_of_over (ran : Ran w past s) (running : s.main.isOver = false)
    (no_panic : ∀ t ∈ s.tasks, t.pc ≠ .panicked) {t : Task} (ht : t ∈ s.tasks)
    (hover : t.isOver = true) : t.pc = .ended := by
  rcases Task.isOver_cases hover with hp | hp | hp
  · exact hp
  · exact absurd hp (no_panic t ht)
  · exact absurd (ran.aborted_over t ht hp) (by simp [running])

theorem Ran.counted_eq_live (ran : Ran w past s)
    (ended : ∀ t ∈ s.tasks, t.isOver = true → t.pc = .ended) :
    s.tasks.countP Task.counted = s.tasks.countP (fun t => t.counted && t.alive) := by
  apply List.countP_congr
  intro t ht
  cases hover : t.isOver with
  | true =>
    have hp := ended t ht hover
    simp [(ran.consistent t ht).uncounted (.inr (.inr hp))]
  | false => simp [Task.alive, show t.pc.isOver = false from hover]

/-- While `start` is running, the accounting is right exactly when no job task has
panicked: a panic skips the decrement and the removal of the id. -/
theorem Ran.accounted_iff (fresh : w.Fresh) (ran : Ran w past s) (running : s.main.isOver = false) :
    s.Accounted ↔ ∀ t ∈ s.tasks, t.pc ≠ .panicked := by
  have total := ran.activeCount
  rw [fresh.uncounted] at total
  constructor
  · rintro ⟨exact_count, _⟩ t ht hp
    have counted := (ran.consistent t ht).counted (.inr (.inr hp))
    have missed : s.tasks.countP (fun t => t.counted && t.alive) < s.tasks.countP Task.counted :=
      Population.countP_and_lt ht counted (by simp [Task.alive, TaskPc.isOver, hp])
    simp only [State.countedIn, State.liveCounted] at total exact_count
    omega
  · intro no_panic
    have ended : ∀ t ∈ s.tasks, t.isOver = true → t.pc = .ended :=
      fun t ht => ran.ended_of_over running no_panic ht
    have all_live := ran.counted_eq_live ended
    refine ⟨by simp only [State.countedIn, State.liveCounted] at *; omega, ?_⟩
    intro none_counted all_over
    have uncounted : s.tasks.countP Task.counted = 0 := by
      apply List.countP_eq_zero.mpr
      intro t ht
      simp [(ran.consistent t ht).uncounted (.inr (.inr (ended t ht (all_over t ht))))]
    refine ⟨by simp only [State.countedIn] at total; omega, ?_⟩
    apply Finset.eq_empty_of_forall_notMem
    intro id hid
    rcases ran.listed fresh id hid with ⟨t, ht, _, _, unended⟩ | next
    · exact unended (ended t ht (all_over t ht))
    · have := MainPc.counted_of_tracked next
      omega

theorem Task.Move.panicked {workerId : String} {handlers : Finset String} {stopped : Bool}
    {t u : Task} {e : TaskEvent} {eff : Effect}
    (h : Task.Move workerId handlers stopped t e u eff) (hp : u.pc = .panicked) : e = .panicked := by
  cases h <;> simp_all [Task.settle]

theorem State.Move.panicked (h : State.Move w s a s') (calm : ∀ i, a ≠ .task i .panicked)
    (before : ∀ t ∈ s.tasks, t.pc ≠ .panicked) : ∀ t ∈ s'.tasks, t.pc ≠ .panicked := by
  apply h.forall_tasks before
  · intro job hp
    cases hp
  · intro i e t u eff ha _ hm hp
    exact calm i (hm.panicked hp ▸ ha)
  · exact fun t _ kept => kept

theorem State.Move.leaves_panicked {i : Nat} (h : State.Move w s (.task i .panicked) s') :
    (∃ t ∈ s'.tasks, t.pc = .panicked) ∧ s'.main = s.main := by
  cases h with
  | @task _ _ t u eff ht hm =>
    cases hm with
    | unwound hpc => exact ⟨⟨_, Population.mem_set _ ht, rfl⟩, rfl⟩

/-- Along a run on a fresh worker the accounting of active jobs is right in every
state in which `start` is running exactly when no job task panics meanwhile. -/
theorem accounting_iff (w : Worker) (past : List (State × Action)) (s : State) (fresh : w.Fresh)
    (ran : Ran w past s) :
    (∀ t ∈ visited past s, t.main.isOver = false → t.Accounted) ↔
      ∀ e ∈ past, e.1.main.isOver = false → ∀ i, e.2 ≠ .task i .panicked := by
  obtain ⟨init, hi, run⟩ := ran
  have along : (∀ t ∈ visited past s, t.main.isOver = false → t.Accounted) ↔
      ∀ t ∈ visited past s, t.main.isOver = false → ∀ u ∈ t.tasks, u.pc ≠ .panicked := by
    refine forall₂_congr fun t ht => forall_congr' fun running => ?_
    obtain ⟨earlier, hr⟩ := run.of_visited t ht
    exact Ran.accounted_iff fresh ⟨init, hi, hr⟩ running
  rw [along]
  refine Run.all_visited_iff (I := fun _ => True)
    (C := fun s a => s.main.isOver = false → ∀ i, a ≠ .task i .panicked)
    (fun _ _ _ => trivial) ?_ ?_ ?_ run
  · intro _ u hu
    rw [(initial_of_start hi).tasks] at hu
    cases hu
  · intro s a t _ before calm hs running
    have move := State.move_of_step hs
    have earlier := move.running running
    exact move.panicked (calm earlier) (before earlier)
  · intro s a t _ bad hs after
    simp only [not_forall, not_not] at bad
    obtain ⟨running, i, rfl⟩ := bad
    obtain ⟨⟨u, hu, hp⟩, hm⟩ := (State.move_of_step hs).leaves_panicked
    exact after (by rw [hm]; exact running) u hu hp

/-- One job of a worker with one slot is processed while `start` is running. -/
theorem accounting_completed :
    ∃ past s, Ran (emailWorker 1) past s ∧ s.tasks.map Task.pc = [.ended] ∧
      (∀ t ∈ visited past s, t.main.isOver = false → t.Accounted) := by
  have ran := ran_of_exec (w := emailWorker 1) rfl
    (rfl : exec _ _ _ (fetchSteps [emailJob "job-1"] ++ spawnSteps ++ completeSteps 0) =
      some (_, _))
  refine ⟨_, _, ran, rfl, ?_⟩
  apply (accounting_iff (emailWorker 1) _ _ (emailWorker_fresh 1) ran).mpr
  simp

/-- A handler that panics: no job task is left, the counter stays 1 and the id
stays listed, so the only slot is lost. -/
theorem accounting_panicked :
    ¬ ∀ w past s, w.Fresh → Ran w past s → s.main.isOver = false → s.Accounted := by
  intro all
  have ran := ran_of_exec (w := emailWorker 1) rfl
    (rfl : exec _ _ _ (fetchSteps [emailJob "job-1"] ++ spawnSteps ++
      [.task 0 .lookup, .task 0 .panicked]) = some (_, _))
  have right := (all _ _ _ (emailWorker_fresh 1) ran rfl).1
  cases right

end OjsSdk
