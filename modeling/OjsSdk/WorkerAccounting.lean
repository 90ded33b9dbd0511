import OjsSdk.WorkerRun

namespace OjsSdk

open StepSystem

variable {w : Worker} {s s' : State} {a : Action} {past : List (State × Action)}

/-- Jobs whose increment of `active_count` has not been undone. -/
def State.countedIn (s : State) : Nat := s.main.counted + s.tasks.countP Task.counted

/-- Jobs that were counted in and whose task has neither ended nor reached its own
decrement. -/
def State.liveCounted (s : State) : Nat :=
  s.main.counted + s.tasks.countP (fun t => t.counted && t.alive)

@[simp] theorem nextJob_counted (rest : List Job) : (nextJob rest).counted = 0 := by
  cases rest <;> rfl

@[simp] theorem WaitSite.resume_counted (site : WaitSite) : site.resume.counted = 0 := by
  cases site <;> rfl

theorem Task.Move.counted_eq (s : State) {workerId : String} {handlers : Finset String}
    {stopped : Bool} {t u : Task} {e : TaskEvent} {eff : Effect} (hc : t.Consistent)
    (h : Task.Move workerId handlers stopped t e u eff) :
    (s.perform eff).activeCount + t.counted.toNat = s.activeCount + u.counted.toNat := by
  cases h with
  | counted hpc =>
    have : t.counted = true := hc.counted (.inr (.inl hpc))
    simp [State.perform, this]
  | _ => rfl

theorem State.MainMove.counted_eq {e : MainEvent} {pc : MainPc} {eff : Effect}
    (h : State.MainMove w s e pc eff) :
    (s.perform eff).activeCount + s.countedIn =
      s.activeCount + (pc.counted + (s.perform eff).tasks.countP Task.counted) := by
  unfold State.countedIn
  cases h with
  | countedIn job rest hm =>
    simp only [State.perform, hm, MainPc.counted]
    omega
  | spawned job rest hm =>
    have here : s.main.counted = 1 := by rw [hm]; rfl
    simp [State.perform, here, List.countP_append, Task.spawned]
    omega
  | reaped i t hm hj =>
    have same := State.countP_reap (p := Task.counted) hj rfl
    simp [State.perform, hm, MainPc.counted, same]
  | graceReaped i t hm hj =>
    have same := State.countP_reap (p := Task.counted) hj rfl
    simp [State.perform, hm, MainPc.counted, same]
  | slept site hm =>
    have none_here : s.main.counted = 0 := by rw [hm]; rfl
    simp [State.perform, none_here]
  | _ => simp_all [State.perform, MainPc.counted]

theorem State.Move.counted_eq (consistent : ∀ t ∈ s.tasks, t.Consistent)
    (h : State.Move w s a s') :
    s'.activeCount + s.countedIn = s.activeCount + s'.countedIn := by
  cases h with
  | main hm => exact hm.counted_eq
  | @task i e t u eff ht hm =>
    have moved := hm.counted_eq s (consistent t (List.mem_of_getElem? ht))
    have counted := Population.countP_set u Task.counted ht
    have main := hm.main_eq s
    simp only [State.countedIn, main]
    omega
  | @heartbeat e pc eff hb =>
    obtain ⟨_, he⟩ := hb.frame
    simp only [State.countedIn, he]
  | signal => rfl
  | register => rfl

/-- The counter is what it was at the start plus the jobs that are counted in. A
panicked task stays counted in for good. -/
theorem Ran.activeCount (ran : Ran w past s) : s.activeCount = w.activeCount + s.countedIn := by
  revert ran
  apply Ran.invariant
  · intro init hi
    have init_eq := initial_of_start hi
    simp [State.countedIn, init_eq.activeCount, init_eq.main, init_eq.tasks, MainPc.counted]
  · intro past s a s' earlier total move
    have moved := move.counted_eq earlier.consistent
    omega

theorem State.Move.isOver (h : State.Move w s a s') (hover : s.main.isOver = true) :
    s'.main.isOver = true := by
  cases h with
  | main hm => cases hm <;> simp_all [MainPc.isOver]
  | @task i e t u eff ht hm =>
    have main := hm.main_eq s
    simpa only [main] using hover
  | @heartbeat e pc eff hb =>
    obtain ⟨_, he⟩ := hb.frame
    simpa only [he] using hover
  | signal => exact hover
  | register => exact hover

theorem State.Move.running (h : State.Move w s a s') (running : s'.main.isOver = false) :
    s.main.isOver = false := by
  by_contra hover
  have after := h.isOver (by simpa using hover)
  simp [running] at after

/-- Only a call of `start` that is over aborts its job tasks. -/
theorem Ran.aborted_over (ran : Ran w past s) :
    ∀ t ∈ s.tasks, t.pc = .aborted → s.main.isOver = true := by
  revert ran
  apply Ran.invariant
  · intro init hi t ht
    rw [(initial_of_start hi).tasks] at ht
    cases ht
  · intro past s a s' _ before move
    apply move.forall_tasks (P := fun t => t.pc = .aborted → s'.main.isOver = true)
    · exact fun t ht ha => move.isOver (before t ht ha)
    · intro job ha
      cases ha
    · intro i e t u eff _ ht hm ha
      cases hm with
      | aborted stopped _ => exact move.isOver stopped
      | _ => simp_all [Task.settle]
    · exact fun t _ kept => kept

end OjsSdk
