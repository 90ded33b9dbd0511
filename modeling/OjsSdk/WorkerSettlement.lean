import OjsSdk.WorkerAccounting

namespace OjsSdk

open StepSystem

variable {w : Worker} {s s' : State} {a : Action} {past : List (State × Action)}

@[simp] theorem nextJob_pending (rest : List Job) : (nextJob rest).pending = rest := by
  cases rest <;> rfl

@[simp] theorem WaitSite.resume_pending (site : WaitSite) : site.resume.pending = [] := by
  cases site <;> rfl

theorem State.MainMove.fetched {e : MainEvent} {pc : MainPc} {eff : Effect}
    (h : State.MainMove w s e pc eff)
    (before : s.fetched = s.tasks.map Task.job ++ s.main.pending) :
    (s.perform eff).fetched = (s.perform eff).tasks.map Task.job ++ pc.pending := by
  cases h with
  | receivedNone count hm => simp_all [State.perform, MainPc.pending]
  | received count job rest hm => simp_all [State.perform, MainPc.pending]
  | spawned job rest hm =>
    have here : s.main.pending = job :: rest := by rw [hm]; rfl
    simp [State.perform, before, here, Task.spawned]
  | reaped i t hm hj =>
    obtain ⟨ht, _, _⟩ := State.joinable_eq_some hj
    have same := Population.map_set_of_eq ht (rfl : Task.job { t with reaped := true } = Task.job t)
    simp_all [State.perform, MainPc.pending]
  | graceReaped i t hm hj =>
    obtain ⟨ht, _, _⟩ := State.joinable_eq_some hj
    have same := Population.map_set_of_eq ht (rfl : Task.job { t with reaped := true } = Task.job t)
    simp_all [State.perform, MainPc.pending]
  | slept site hm =>
    have here : s.main.pending = [] := by rw [hm]; rfl
    simp [State.perform, before, here]
  | _ => simp_all [State.perform, MainPc.pending]

/-- The jobs of all decoded responses are those that have a task, in order, and
then those that the spawn loop still holds. -/
theorem Ran.fetched (ran : Ran w past s) :
    s.fetched = s.tasks.map Task.job ++ s.main.pending := by
  revert ran
  apply Ran.invariant
  · intro init hi
    have init_eq := initial_of_start hi
    simp [init_eq.fetched, init_eq.tasks, init_eq.main, MainPc.pending]
  · intro past s a s' _ before move
    cases move with
    | main hm => exact hm.fetched before
    | @task i e t u eff ht hm =>
      have main := hm.main_eq s
      have kept : (s.perform eff).fetched = s.fetched := by cases hm <;> rfl
      simp only [main, kept, Population.map_set_of_eq ht hm.job_eq, before]
    | @heartbeat e pc eff hb =>
      obtain ⟨_, he⟩ := hb.frame
      simpa only [he] using before
    | signal => exact before
    | register => exact before

def State.Reported (s : State) (i : Nat) (o : Outcome) : Prop :=
  ∃ t, s.tasks[i]? = some t ∧ t.outcome = some o

/-- A job task learns its outcome in this step: its wrapped handler returns, or
the lookup finds no handler. -/
def Learns (s : State) (a : Action) (i : Nat) (o : Outcome) : Prop :=
  (∃ result, a = .task i (.handlerReturned result) ∧ o = .returned result) ∨
    (∃ t, s.tasks[i]? = some t ∧ t.job.jobType ∉ s.handlers ∧ a = .task i .lookup ∧
      o = .noHandler)

theorem State.Move.learns {i : Nat} {o : Outcome} (h : State.Move w s a s')
    (learns : Learns s a i o) : s'.Reported i o := by
  rcases learns with ⟨result, rfl, rfl⟩ | ⟨t, ht, hno, rfl, rfl⟩
  · cases h with
    | @task _ _ t u eff ht hm =>
      obtain ⟨hi, _⟩ := List.getElem?_eq_some_iff.mp ht
      cases hm with
      | handled _ hpc => exact ⟨_, List.getElem?_set_self hi, rfl⟩
  · cases h with
    | @task _ _ t' u eff ht' hm =>
      obtain ⟨hi, _⟩ := List.getElem?_eq_some_iff.mp ht
      rw [ht] at ht'
      cases ht'
      cases hm with
      | found hpc hyes => exact absurd hyes hno
      | missing hpc _ => exact ⟨_, List.getElem?_set_self hi, rfl⟩

theorem Task.Move.outcome {workerId : String} {handlers : Finset String} {stopped : Bool}
    {t u : Task} {e : TaskEvent} {eff : Effect} {o : Outcome} (hc : t.Consistent)
    (h : Task.Move workerId handlers stopped t e u eff) (ho : t.outcome = some o) :
    u.outcome = some o := by
  have known : t.outcome ≠ none := by simp [ho]
  cases h with
  | missing hpc _ => exact absurd (hc.open_ (.inl hpc)) known
  | handled _ hpc => exact absurd (hc.open_ (.inr hpc)) known
  | _ => exact ho

theorem State.Move.reported {i : Nat} {o : Outcome} (consistent : ∀ t ∈ s.tasks, t.Consistent)
    (h : State.Move w s a s') (before : s.Reported i o) : s'.Reported i o := by
  obtain ⟨t, ht, ho⟩ := before
  obtain ⟨hi, _⟩ := List.getElem?_eq_some_iff.mp ht
  rcases h.tasks with h | ⟨job, rest, _, _, h⟩ | ⟨j, e, t', u, eff, _, ht', hm, h⟩ |
    ⟨j, t', ht', _, h⟩
  · exact ⟨t, by rw [h]; exact ht, ho⟩
  · exact ⟨t, by rw [h, List.getElem?_append_left hi]; exact ht, ho⟩
  · by_cases same : j = i
    · subst same
      rw [ht] at ht'
      cases ht'
      exact ⟨u, by rw [h, List.getElem?_set_self hi], hm.outcome (consistent t (List.mem_of_getElem? ht)) ho⟩
    · exact ⟨t, by rw [h, List.getElem?_set_ne same]; exact ht, ho⟩
  · by_cases same : j = i
    · subst same
      rw [ht] at ht'
      cases ht'
      exact ⟨{ t with reaped := true }, by rw [h, List.getElem?_set_self hi], ho⟩
    · exact ⟨t, by rw [h, List.getElem?_set_ne same]; exact ht, ho⟩

theorem Ran.reported (ran : Ran w past s) {e : State × Action} (he : e ∈ past) {i : Nat}
    {o : Outcome} (learns : Learns e.1 e.2 i o) : s.Reported i o := by
  obtain ⟨init, hi, run⟩ := ran
  apply Run.lasting (Q := fun s => s.Reported i o) ?_ ?_ run he
  · intro _ t _ hs
    exact (State.move_of_step hs).learns learns
  · intro past s a t earlier before hs
    have consistent := Ran.consistent ⟨init, hi, earlier⟩
    exact (State.move_of_step hs).reported consistent before

/-- Once `start` left the shutdown loop on an empty counter, no job task is counted. -/
theorem Ran.drained_uncounted (fresh : w.Fresh) (ran : Ran w past s) :
    s.main.drained = true → ∀ t ∈ s.tasks, t.counted = false := by
  revert ran
  apply Ran.invariant
  · intro init hi
    simp [(initial_of_start hi).main, MainPc.drained]
  · intro past s a s' earlier before move
    have total := earlier.activeCount
    rw [fresh.uncounted] at total
    cases move with
    | main hm =>
      cases hm with
      | drained _ hc =>
        intro _ t ht
        have none_counted : s.tasks.countP Task.counted = 0 := by
          simp only [State.countedIn] at total
          omega
        simpa using List.countP_eq_zero.mp none_counted t ht
      | stopped d hm =>
        rw [hm] at before
        exact before
      | spawned job rest _ => cases rest <;> simp [nextJob, MainPc.drained]
      | slept site _ => cases site <;> simp [WaitSite.resume, MainPc.drained]
      | _ => simp [MainPc.drained]
    | @task i e t u eff ht hm =>
      have main := hm.main_eq s
      simp only [main]
      intro hd
      apply Population.forall_set (before hd)
      have uncounted := before hd t (List.mem_of_getElem? ht)
      cases hm <;> first | exact uncounted | rfl
    | @heartbeat e pc eff hb =>
      obtain ⟨_, he⟩ := hb.frame
      simpa only [he] using before
    | signal => exact before
    | register => exact before

/-- Settlement and drained shutdown. The fetched jobs are those with a task, one
each and in order, and those still in the spawn loop. A task that learned its
outcome has issued one call, the settlement of that outcome. After a drain no
job task executes and the settlement of every fetched job has returned. -/
theorem settlement_and_drain (w : Worker) (past : List (State × Action)) (s : State)
    (fresh : w.Fresh) (ran : Ran w past s) :
    s.fetched = s.tasks.map Task.job ++ s.main.pending ∧
      (∀ e ∈ past, ∀ i o, Learns e.1 e.2 i o →
        ∃ t call, s.tasks[i]? = some t ∧ t.calls = [call] ∧ Settles t.job o call) ∧
      (∀ t ∈ s.tasks, t.calls.length ≤ 1) ∧
      (s.main.drained = true → s.main.pending = [] ∧
        ∀ t ∈ s.tasks, t.executing = false ∧ t.calls.length = 1 ∧ t.returnedCalls = 1) := by
  have consistent := ran.consistent
  refine ⟨ran.fetched, ?_, ?_, ?_⟩
  · intro e he i o learns
    obtain ⟨t, ht, ho⟩ := ran.reported he learns
    have calls := (consistent t (List.mem_of_getElem? ht)).calls
    rw [ho] at calls
    exact ⟨t, settlement t.job o, ht, calls, settles_settlement t.job o⟩
  · intro t ht
    rw [(consistent t ht).calls]
    cases t.outcome <;> simp
  · intro hd
    constructor
    · cases hm : s.main <;> simp_all [MainPc.drained, MainPc.pending]
    · intro t ht
      have hc := consistent t ht
      have uncounted := ran.drained_uncounted fresh hd t ht
      obtain ⟨known, returned⟩ := hc.discharged uncounted
      obtain ⟨o, ho⟩ := Option.isSome_iff_exists.mp known
      have one : t.calls.length = 1 := by rw [hc.calls, ho]; rfl
      refine ⟨?_, one, by rw [returned, one]⟩
      by_contra executing
      have counted := hc.counted (.inl (by simpa using executing))
      simp [uncounted] at counted

def shutdownSteps : List Action :=
  [.main .advance, .signal, .main .advance, .main .advance]

/-- A job is processed, and the shutdown finds the counter at 0. -/
theorem settlement_and_drain_completed :
    ∃ past s, Ran (emailWorker 1) past s ∧ s.main = .returned true ∧
      s.fetched = [emailJob "job-1"] ∧
      ∀ t ∈ s.tasks, t.executing = false ∧ t.calls.length = 1 ∧ t.returnedCalls = 1 := by
  have ran := ran_of_exec (w := emailWorker 1) rfl
    (rfl : exec _ _ _ (fetchSteps [emailJob "job-1"] ++ spawnSteps ++ completeSteps 0 ++
      shutdownSteps ++ [.main .advance, .main .advance]) = some (_, _))
  have settled := settlement_and_drain (emailWorker 1) _ _ (emailWorker_fresh 1) ran
  exact ⟨_, _, ran, rfl, rfl, (settled.2.2.2 rfl).2⟩

/-- A job without a handler, whose task is aborted before its first poll because
the grace deadline has passed: no settlement is ever issued for it. -/
theorem settlement_abandoned :
    ¬ ∀ w past s, w.Fresh → Ran w past s → s.main.isOver = true →
      ∀ t ∈ s.tasks, t.isOver = true → t.job.jobType ∉ s.handlers → t.calls.length = 1 := by
  intro all
  let job := Job.ofWire "job-1" "sms.send" (normalizeArgs (.object emailObject))
  have ran := ran_of_exec (w := emailWorker 1) rfl
    (rfl : exec _ _ _ (fetchSteps [job] ++ spawnSteps ++ shutdownSteps ++ [.main .advance,
      .main (.deadline true), .main .advance, .task 0 .aborted]) = some (_, _))
  have settled := all _ _ _ (emailWorker_fresh 1) ran rfl _ (List.mem_singleton.mpr rfl) rfl
    (by decide)
  cases settled

end OjsSdk
