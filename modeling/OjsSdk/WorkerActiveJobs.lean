import OjsSdk.WorkerSettlement
import OjsSdk.WorkerTracking

namespace OjsSdk

open StepSystem

variable {w : Worker} {s s' : State} {a : Action} {past : List (State × Action)}

/-- The next heartbeat lists every job whose task is inside `process_job`. -/
def State.Covered (s : State) : Prop :=
  ∀ t ∈ s.tasks, t.executing = true → t.job.id ∈ s.activeJobs

def Action.removed (s : State) : Action → Option String
  | .task i .cleanup =>
    (s.tasks[i]?).bind (fun t => if t.pc = .untrack then some t.job.id else none)
  | _ => none

/-- The step does not remove the id of a job that is in process in another task,
nor spawn a task whose id has been removed since the spawn loop inserted it. -/
def KeepsCovered (s : State) (a : Action) : Prop :=
  (∀ id ∈ a.removed s, ∀ u ∈ s.tasks, u.executing = true → u.job.id ≠ id) ∧
    (∀ job ∈ a.spawned s, job.id ∈ s.activeJobs)

instance : Decidable (KeepsCovered s a) := inferInstanceAs (Decidable (_ ∧ _))

theorem State.Move.activeJobs_cases (h : State.Move w s a s') :
    (∃ id, a.removed s = some id ∧ s'.activeJobs = s.activeJobs.erase id) ∨
      (a.removed s = none ∧ s.activeJobs ⊆ s'.activeJobs) := by
  cases h with
  | main hm =>
    right
    cases hm with
    | tracked => exact ⟨rfl, Finset.subset_insert _ _⟩
    | _ => exact ⟨rfl, Finset.Subset.refl _⟩
  | @task i e t u eff ht hm =>
    cases hm with
    | untracked hpc => exact .inl ⟨t.job.id, by simp [Action.removed, ht, hpc], rfl⟩
    | counted hpc =>
      exact .inr ⟨by simp [Action.removed, ht, hpc], Finset.Subset.refl _⟩
    | released hpc =>
      exact .inr ⟨by simp [Action.removed, ht, hpc], Finset.Subset.refl _⟩
    | _ => exact .inr ⟨rfl, Finset.Subset.refl _⟩
  | @heartbeat e pc eff hb =>
    obtain ⟨_, he⟩ := hb.frame
    rw [he]
    exact .inr ⟨rfl, Finset.Subset.refl _⟩
  | signal => exact .inr ⟨rfl, Finset.Subset.refl _⟩
  | register => exact .inr ⟨rfl, Finset.Subset.refl _⟩

theorem State.Move.executing_of_removed (h : State.Move w s a s') {id : String}
    (removed : a.removed s = some id) {u : Task} (hu : u ∈ s.tasks)
    (executing : u.executing = true) : u ∈ s'.tasks := by
  cases h with
  | @task i e t v eff ht hm =>
    cases hm with
    | untracked hpc =>
      rcases Population.mem_set_or_eq { t with pc := .release } ht hu with other | rfl
      · exact other
      · simp [Task.executing, hpc, TaskPc.executing] at executing
    | _ => simp_all [Action.removed]
  | _ => cases removed

theorem State.Move.covered (h : State.Move w s a s') (before : s.Covered)
    (keeps : KeepsCovered s a) : s'.Covered := by
  intro t ht executing
  rcases h.executing_cases ht executing with ⟨u, hu, running, same⟩ | spawned
  · have listed := before u hu running
    rw [same] at listed
    rcases h.activeJobs_cases with ⟨id, removed, erased⟩ | ⟨_, grown⟩
    · have other := keeps.1 id removed u hu running
      rw [same] at other
      rw [erased]
      exact Finset.mem_erase.mpr ⟨other, listed⟩
    · exact grown listed
  · rw [(h.spawned spawned).2.1]
    exact keeps.2 t.job spawned

theorem State.Move.not_covered (h : State.Move w s a s') (bad : ¬KeepsCovered s a) :
    ¬s'.Covered := by
  intro after
  apply bad
  constructor
  · intro id removed u hu executing same
    have listed := after u (h.executing_of_removed removed hu executing) executing
    rcases h.activeJobs_cases with ⟨id', removed', erased⟩ | ⟨not_removed, _⟩
    · rw [removed] at removed'
      cases removed'
      rw [erased, same] at listed
      exact absurd rfl (Finset.ne_of_mem_erase listed)
    · rw [removed] at not_removed
      cases not_removed
  · intro job spawned
    obtain ⟨new, kept, _⟩ := h.spawned spawned
    rw [← kept]
    exact after (.spawned job) new rfl

/-- Every job whose task has not removed its id yet is listed, and so is the job
that the spawn loop is about to spawn. -/
structure State.Listing (s : State) : Prop where
  tasks : ∀ t ∈ s.tasks, t.pc ≠ .release → t.pc ≠ .ended → t.job.id ∈ s.activeJobs
  next : ∀ id, s.main.tracked = some id → id ∈ s.activeJobs

theorem State.Move.fetched (h : State.Move w s a s') : ∃ more, s'.fetched = s.fetched ++ more := by
  cases h with
  | main hm =>
    cases hm with
    | receivedNone => exact ⟨[], rfl⟩
    | received count job rest => exact ⟨job :: rest, rfl⟩
    | _ => exact ⟨[], (List.append_nil _).symm⟩
  | @task i e t u eff ht hm =>
    obtain ⟨_, _, _, he⟩ := hm.frame s
    exact ⟨[], by simp only [he, List.append_nil]⟩
  | @heartbeat e pc eff hb =>
    obtain ⟨_, he⟩ := hb.frame
    exact ⟨[], by simp only [he, List.append_nil]⟩
  | signal => exact ⟨[], (List.append_nil _).symm⟩
  | register => exact ⟨[], (List.append_nil _).symm⟩

theorem State.MainMove.listing {e : MainEvent} {pc : MainPc} {eff : Effect}
    (h : State.MainMove w s e pc eff) (before : s.Listing) :
    ({ s.perform eff with main := pc } : State).Listing := by
  obtain ⟨tasks, next⟩ := before
  cases h with
  | tracked job rest hm =>
    refine ⟨fun t ht hr he => Finset.mem_insert_of_mem (tasks t ht hr he), fun id hid => ?_⟩
    cases hid
    exact Finset.mem_insert_self _ _
  | spawned job rest hm =>
    refine ⟨fun t ht hr he => ?_, by simp⟩
    rcases List.mem_append.mp ht with old | new
    · exact tasks t old hr he
    · rw [List.mem_singleton.mp new]
      exact next job.id (by rw [hm]; rfl)
  | reaped i t hm hj =>
    refine ⟨Population.forall_set tasks ?_, by simp [MainPc.tracked]⟩
    exact tasks t (List.mem_of_getElem? (State.joinable_eq_some hj).1)
  | graceReaped i t hm hj =>
    refine ⟨Population.forall_set tasks ?_, by simp [MainPc.tracked]⟩
    exact tasks t (List.mem_of_getElem? (State.joinable_eq_some hj).1)
  | slept site hm => exact ⟨tasks, by simp⟩
  | _ => exact ⟨tasks, by simp [MainPc.tracked]⟩

theorem MainPc.pending_of_tracked {pc : MainPc} {id : String} (h : pc.tracked = some id) :
    ∃ job ∈ pc.pending, job.id = id := by
  unfold MainPc.tracked at h
  split at h
  next job rest => exact ⟨job, .head _, Option.some.inj h⟩
  next => cases h

/-- A task that removes its id leaves the others listed, as no two jobs share one. -/
theorem State.Listing.untracked {i : Nat} {t u : Task} (before : s.Listing)
    (ht : s.tasks[i]? = some t) (own : s.fetched = s.tasks.map Task.job ++ s.main.pending)
    (distinct : (s.fetched.map Job.id).Nodup) (released : u.pc = .release) :
    ({ s with activeJobs := s.activeJobs.erase t.job.id, tasks := s.tasks.set i u } :
      State).Listing := by
  rw [own, List.map_append, List.map_map] at distinct
  obtain ⟨apart, _, disjoint⟩ := List.nodup_append.mp distinct
  constructor
  · intro m hm hr he
    obtain ⟨j, hj⟩ := List.mem_iff_getElem?.mp hm
    obtain ⟨bound, _⟩ := List.getElem?_eq_some_iff.mp ht
    by_cases same : i = j
    · subst same
      rw [List.getElem?_set_self bound] at hj
      cases hj
      exact absurd released hr
    · rw [List.getElem?_set_ne same] at hj
      refine Finset.mem_erase.mpr ⟨fun equal => same ?_, ?_⟩
      · exact Population.index_eq_of_nodup apart ht hj equal.symm
      · exact before.tasks m (List.mem_of_getElem? hj) hr he
  · intro id hid
    obtain ⟨job, pending, rfl⟩ := MainPc.pending_of_tracked hid
    refine Finset.mem_erase.mpr ⟨fun equal => ?_, before.next job.id hid⟩
    have listed : t.job.id ∈ s.tasks.map (Job.id ∘ Task.job) :=
      List.mem_map_of_mem (List.mem_of_getElem? ht)
    exact disjoint _ listed _ (List.mem_map_of_mem pending) equal.symm

theorem Task.Move.listing {workerId : String} {handlers : Finset String} {stopped : Bool} {i : Nat}
    {t u : Task} {e : TaskEvent} {eff : Effect} (h : Task.Move workerId handlers stopped t e u eff)
    (ht : s.tasks[i]? = some t) (own : s.fetched = s.tasks.map Task.job ++ s.main.pending)
    (distinct : (s.fetched.map Job.id).Nodup) (before : s.Listing) :
    ({ s.perform eff with tasks := s.tasks.set i u } : State).Listing := by
  have mine := before.tasks t (List.mem_of_getElem? ht)
  cases h with
  | untracked hpc => exact before.untracked ht own distinct rfl
  | released hpc => exact ⟨Population.forall_set before.tasks (by simp), before.next⟩
  | aborted _ hs =>
    refine ⟨Population.forall_set before.tasks (fun _ _ => mine ?_ ?_), before.next⟩
    · intro hpc
      simp [hpc, TaskPc.suspended] at hs
    · intro hpc
      simp [hpc, TaskPc.suspended] at hs
  | unwound hpc =>
    refine ⟨Population.forall_set before.tasks (fun _ _ => mine ?_ ?_), before.next⟩
    · rcases hpc with hpc | hpc <;> simp [hpc]
    · rcases hpc with hpc | hpc <;> simp [hpc]
  | _ =>
    refine ⟨Population.forall_set before.tasks (fun _ _ => mine ?_ ?_), before.next⟩
    · simp [*]
    · simp [*]

/-- As long as no job id has been delivered twice, every job is listed from before its
spawn until its own task removes it. -/
theorem Ran.listing (ran : Ran w past s) : (s.fetched.map Job.id).Nodup → s.Listing := by
  revert ran
  apply Ran.invariant
  · intro init hi _
    have init_eq := initial_of_start hi
    exact ⟨by simp [init_eq.tasks], by simp [init_eq.main, MainPc.tracked]⟩
  · intro past s a s' earlier before move distinct
    have shorter : (s.fetched.map Job.id).Nodup := by
      obtain ⟨more, hf⟩ := move.fetched
      rw [hf, List.map_append] at distinct
      exact (List.nodup_append.mp distinct).1
    have listing := before shorter
    cases move with
    | main hm => exact hm.listing listing
    | task ht hm => exact hm.listing ht earlier.fetched shorter listing
    | @heartbeat e pc eff hb =>
      obtain ⟨_, he⟩ := hb.frame
      rw [he]
      exact ⟨listing.tasks, listing.next⟩
    | signal => exact ⟨listing.tasks, listing.next⟩
    | register => exact ⟨listing.tasks, listing.next⟩

/-- Without redelivery the heartbeats cover every running job. -/
theorem Ran.covered_of_distinct (ran : Ran w past s) (distinct : (s.fetched.map Job.id).Nodup) :
    s.Covered := by
  intro t ht executing
  apply (ran.listing distinct).tasks t ht
  · intro hpc
    simp [Task.executing, hpc, TaskPc.executing] at executing
  · intro hpc
    simp [Task.executing, hpc, TaskPc.executing] at executing

/-- Along a run, every job in process is listed in every state exactly when no
cleanup removes the id of another job in process and every task is spawned
with its id listed. -/
theorem covered_iff (w : Worker) (past : List (State × Action)) (s : State)
    (ran : Ran w past s) :
    (∀ t ∈ visited past s, t.Covered) ↔ ∀ e ∈ past, KeepsCovered e.1 e.2 := by
  obtain ⟨init, hi, run⟩ := ran
  refine Run.all_visited_iff (I := fun _ => True) (C := KeepsCovered)
    (fun _ _ _ => trivial) ?_ ?_ ?_ run
  · intro t ht
    rw [(initial_of_start hi).tasks] at ht
    cases ht
  · exact fun _ _ _ _ before keeps hs => (State.move_of_step hs).covered before keeps
  · exact fun _ _ _ _ bad hs => (State.move_of_step hs).not_covered bad

/-- Two jobs are in process at once, and both are listed. -/
theorem covered_distinct :
    ∃ past s, Ran (emailWorker 2) past s ∧ s.tasks.map Task.executing = [true, true] ∧
      ∀ t ∈ visited past s, t.Covered := by
  have ran := ran_of_exec (w := emailWorker 2) rfl
    (rfl : exec _ _ _ (fetchSteps [emailJob "job-1", emailJob "job-2"] ++ spawnSteps ++
      spawnSteps) = some (_, _))
  refine ⟨_, _, ran, rfl, (covered_iff (emailWorker 2) _ _ ran).mpr ?_⟩
  decide

/-- A job is delivered twice. When its first task is done, the second one is still
in process and the next heartbeat does not list it. -/
theorem covered_redelivered :
    ¬ ∀ w past s, w.Fresh → Ran w past s → s.Covered := by
  intro all
  have ran := ran_of_exec (w := emailWorker 2) rfl
    (rfl : exec _ _ _ (fetchSteps [emailJob "job-1", emailJob "job-1"] ++ spawnSteps ++
      spawnSteps ++ completeSteps 0) = some (_, _))
  have listed := all _ _ _ (emailWorker_fresh 2) ran _ (.tail _ (.head _)) rfl
  exact absurd listed (by decide)

end OjsSdk
