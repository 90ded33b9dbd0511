import OjsSdk.WorkerAccounting

namespace OjsSdk

open StepSystem

variable {w : Worker} {s s' : State} {a : Action} {past : List (State × Action)}

/-- The id that the spawn loop has inserted for a job without a task yet. -/
def MainPc.tracked : MainPc → Option String
  | .spawning .spawn job _ => some job.id
  | _ => none

/-- A task with this id that has not removed it from `active_jobs` yet. -/
def Lists (tasks : List Task) (id : String) : Prop :=
  ∃ t ∈ tasks, t.job.id = id ∧ t.pc ≠ .release ∧ t.pc ≠ .ended

@[simp] theorem nextJob_tracked (rest : List Job) : (nextJob rest).tracked = none := by
  cases rest <;> rfl

@[simp] theorem WaitSite.resume_tracked (site : WaitSite) : site.resume.tracked = none := by
  cases site <;> rfl

theorem Lists.set {tasks : List Task} {id : String} {i : Nat} {t u : Task}
    (listed : Lists tasks id) (ht : tasks[i]? = some t) (same : u.job = t.job)
    (kept : t.job.id = id → t.pc ≠ .release → t.pc ≠ .ended → u.pc ≠ .release ∧ u.pc ≠ .ended) :
    Lists (tasks.set i u) id := by
  obtain ⟨t', ht', hid, hr, he⟩ := listed
  rcases Population.mem_set_or_eq u ht ht' with other | rfl
  · exact ⟨t', other, hid, hr, he⟩
  · exact ⟨u, Population.mem_set u ht, by rw [same, hid], kept hid hr he⟩

theorem Lists.reap {tasks : List Task} {id : String} {i : Nat} {t : Task}
    (listed : Lists tasks id) (ht : tasks[i]? = some t) :
    Lists (tasks.set i { t with reaped := true }) id :=
  listed.set ht rfl (fun _ hr he => ⟨hr, he⟩)

theorem State.MainMove.listed {e : MainEvent} {pc : MainPc} {eff : Effect}
    (h : State.MainMove w s e pc eff)
    (before : ∀ id ∈ s.activeJobs, Lists s.tasks id ∨ s.main.tracked = some id) :
    ∀ id ∈ (s.perform eff).activeJobs,
      Lists (s.perform eff).tasks id ∨ pc.tracked = some id := by
  intro id hid
  cases h with
  | tracked job rest hm =>
    rcases Finset.mem_insert.mp hid with rfl | old
    · exact .inr rfl
    · rw [hm] at before
      exact (before id old).imp_right (fun h => by cases h)
  | spawned job rest hm =>
    left
    rcases before id hid with ⟨t, ht, unremoved⟩ | next
    · exact ⟨t, List.mem_append_left _ ht, unremoved⟩
    · rw [hm] at next
      have same : job.id = id := Option.some.inj next
      exact ⟨.spawned job, List.mem_append_right _ (by simp), same, by simp [Task.spawned],
        by simp [Task.spawned]⟩
  | reaped i t hm hj =>
    rw [hm] at before
    exact (before id hid).imp (fun h => h.reap (State.joinable_eq_some hj).1) (fun h => by cases h)
  | graceReaped i t hm hj =>
    rw [hm] at before
    exact (before id hid).imp (fun h => h.reap (State.joinable_eq_some hj).1) (fun h => by cases h)
  | _ =>
    have here := before id hid
    simp_all [MainPc.tracked, State.perform]

theorem Task.Move.listed {workerId : String} {handlers : Finset String} {stopped : Bool} {i : Nat}
    {t u : Task} {e : TaskEvent} {eff : Effect} {id : String}
    (h : Task.Move workerId handlers stopped t e u eff) (ht : s.tasks[i]? = some t)
    (listed : Lists s.tasks id) (hid : id ∈ (s.perform eff).activeJobs) :
    Lists (s.tasks.set i u) id := by
  apply listed.set ht h.job_eq
  intro same hr he
  cases h with
  | untracked hpc => exact absurd same.symm (Finset.ne_of_mem_erase hid)
  | released hpc => exact absurd hpc hr
  | _ => simp_all [Task.settle]

/-- Nothing is in `active_jobs` without a job that accounts for it. -/
theorem Ran.listed (fresh : w.Fresh) (ran : Ran w past s) :
    ∀ id ∈ s.activeJobs, Lists s.tasks id ∨ s.main.tracked = some id := by
  revert ran
  apply Ran.invariant
  · intro init hi id hid
    rw [(initial_of_start hi).activeJobs, fresh.untracked] at hid
    exact absurd hid (Finset.notMem_empty id)
  · intro past s a s' _ before move
    cases move with
    | main hm => exact hm.listed before
    | @task i e t u eff ht hm =>
      intro id hid
      have main := hm.main_eq s
      have old : id ∈ s.activeJobs := by
        cases hm <;> first | exact hid | exact Finset.mem_of_mem_erase hid
      simp only [main]
      exact (before id old).imp_left (fun listed => hm.listed ht listed hid)
    | @heartbeat e pc eff hb =>
      obtain ⟨_, he⟩ := hb.frame
      simpa only [he] using before
    | signal => exact before
    | register => exact before

end OjsSdk
