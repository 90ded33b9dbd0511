import OjsSdk.Operations
import OjsSdk.WorkerSettlement

namespace OjsSdk

open StepSystem

def Settlement.operation : Settlement → Operation
  | .ack req => .ack req
  | .nack req => .nack req

/-- The body of the request sent by `JobContext::heartbeat`. -/
def JobContext.heartbeat (ctx : JobContext) : HeartbeatRequest where
  workerId := ctx.workerId
  activeJobs := some [ctx.job.id]
  visibilityTimeoutMs := none

/-- The calls that are started when a run is in this state, or that a handler may start. -/
inductive State.Called (s : State) : Operation → Prop
  | fetch {req} : req ∈ s.fetchCalls → State.Called s (.fetch req)
  | heartbeat {req} : s.heartbeat = .posting req → State.Called s (.heartbeat req)
  | progress {t ctx} : t ∈ s.tasks → t.context = some ctx →
      State.Called s (.heartbeat ctx.heartbeat)
  | settlement {t call} : t ∈ s.tasks → call ∈ t.calls → State.Called s call.operation

/-- What justifies a call: capacity that a state of the run had to spare, the jobs that were active
in one, a fetched job whose handler was called, or the outcome of a task for a fetched job, whose
only settlement it is. -/
inductive Meant (w : Worker) (past : List (State × Action)) (s : State) : Operation → Prop
  | fetch {u} : u ∈ visited past s → u.main = .loadActive →
      asUsize u.activeCount < w.concurrency →
      Meant w past s (.fetch (w.fetchRequest (min (w.concurrency - asUsize u.activeCount) 10)))
  | heartbeat {u jobs} : u ∈ visited past s → jobs.Nodup → jobs.toFinset = u.activeJobs →
      Meant w past s (.heartbeat (w.heartbeatRequest jobs))
  | progress {t} : t ∈ s.tasks → t.job ∈ s.fetched → t.context.isSome = true →
      Meant w past s
        (.heartbeat
          { workerId := w.workerId, activeJobs := some [t.job.id], visibilityTimeoutMs := none })
  | settlement {t o} : t ∈ s.tasks → t.job ∈ s.fetched → t.outcome = some o →
      t.calls = [OjsSdk.settlement t.job o] →
      Meant w past s (OjsSdk.settlement t.job o).operation

variable {w : Worker} {past : List (State × Action)} {s s' : State} {a : Action}

/-- A fetch request that was called, or whose call comes next. -/
def State.Fetches (w : Worker) (s : State) (req : FetchRequest) : Prop :=
  req ∈ s.fetchCalls ∨ ∃ count, s.main = .fetch count ∧ req = w.fetchRequest count

theorem Task.Move.fetchCalls {workerId : String} {handlers : Finset String} {stopped : Bool}
    {t u : Task} {e : TaskEvent} {eff : Effect} (s : State)
    (h : Task.Move workerId handlers stopped t e u eff) :
    (s.perform eff).fetchCalls = s.fetchCalls := by
  obtain ⟨_, _, _, he⟩ := h.frame s
  rw [he]

theorem Task.Move.heartbeat {workerId : String} {handlers : Finset String} {stopped : Bool}
    {t u : Task} {e : TaskEvent} {eff : Effect} (s : State)
    (h : Task.Move workerId handlers stopped t e u eff) :
    (s.perform eff).heartbeat = s.heartbeat := by
  obtain ⟨_, _, _, he⟩ := h.frame s
  rw [he]

theorem nextJob_ne_fetch (rest : List Job) (count : Nat) : nextJob rest ≠ .fetch count := by
  cases rest <;> simp [nextJob]

theorem WaitSite.resume_ne_fetch (site : WaitSite) (count : Nat) : site.resume ≠ .fetch count := by
  cases site <;> simp [WaitSite.resume]

theorem State.MainMove.fetches {e : MainEvent} {pc : MainPc} {eff : Effect} {req : FetchRequest}
    (h : State.MainMove w s e pc eff)
    (later : State.Fetches w { s.perform eff with main := pc } req) :
    State.Fetches w s req ∨ (s.main = .loadActive ∧ asUsize s.activeCount < w.concurrency ∧
      req = w.fetchRequest (min (w.concurrency - asUsize s.activeCount) 10)) := by
  cases h with
  | spare hm room =>
    rcases later with old | ⟨count, here, whole⟩
    · exact .inl (.inl old)
    · cases here
      exact .inr ⟨hm, room, whole⟩
  | called count hm =>
    rcases later with recorded | ⟨count', here, -⟩
    · rcases List.mem_append.mp recorded with old | new
      · exact .inl (.inl old)
      · exact .inl (.inr ⟨count, hm, List.mem_singleton.mp new⟩)
    · cases here
  | spawned job rest hm =>
    rcases later with old | ⟨count, here, -⟩
    · exact .inl (.inl old)
    · exact absurd here (nextJob_ne_fetch rest count)
  | slept site hm =>
    rcases later with old | ⟨count, here, -⟩
    · exact .inl (.inl old)
    · exact absurd here (site.resume_ne_fetch count)
  | _ =>
    rcases later with old | ⟨count, here, -⟩
    · exact .inl (.inl old)
    · cases here

theorem State.Move.fetches {req : FetchRequest} (h : State.Move w s a s')
    (later : State.Fetches w s' req) :
    State.Fetches w s req ∨ (s.main = .loadActive ∧ asUsize s.activeCount < w.concurrency ∧
      req = w.fetchRequest (min (w.concurrency - asUsize s.activeCount) 10)) := by
  cases h with
  | main hm => exact hm.fetches later
  | @task i e t u eff ht hm =>
    have calls := hm.fetchCalls s
    have main := hm.main_eq s
    unfold State.Fetches at later
    simp only [calls, main] at later
    exact .inl later
  | @heartbeat e pc eff hb =>
    obtain ⟨_, he⟩ := hb.frame
    unfold State.Fetches at later
    simp only [he] at later
    exact .inl later
  | signal => exact .inl later
  | register => exact .inl later

/-- Every fetch asks for what a state of the run had to spare, ten jobs at most. -/
theorem Ran.fetches (ran : Ran w past s) {req : FetchRequest} (called : req ∈ s.fetchCalls) :
    ∃ u ∈ visited past s, u.main = .loadActive ∧ asUsize u.activeCount < w.concurrency ∧
      req = w.fetchRequest (min (w.concurrency - asUsize u.activeCount) 10) := by
  obtain ⟨init, hi, run⟩ := ran
  refine run.arisen (State.Fetches w) (fun u req => u.main = .loadActive ∧
    asUsize u.activeCount < w.concurrency ∧
      req = w.fetchRequest (min (w.concurrency - asUsize u.activeCount) 10)) ?_ ?_ (.inl called)
  · intro req here
    have begun := initial_of_start hi
    rcases here with recorded | ⟨count, main, -⟩
    · unfold start at hi
      split at hi
      · cases hi
        cases recorded
      · cases hi
    · rw [begun.main] at main
      cases main
  · intro s a t req hs later
    exact (State.move_of_step hs).fetches later

theorem State.Move.posting {req : HeartbeatRequest} (h : State.Move w s a s')
    (later : s'.heartbeat = .posting req) :
    s.heartbeat = .posting req ∨ ∃ jobs : List String, jobs.Nodup ∧
      jobs.toFinset = s.activeJobs ∧ req = w.heartbeatRequest jobs := by
  cases h with
  | @main e pc eff hm => cases hm <;> exact .inl later
  | @task i e t u eff ht hm =>
    have same := hm.heartbeat s
    exact .inl (same.symm.trans later)
  | heartbeat hb =>
    cases hb with
    | ticked jobs _ distinct active =>
      cases later
      exact .inr ⟨jobs, distinct, active, rfl⟩
    | _ => cases later
  | signal => exact .inl later
  | register => exact .inl later

/-- Every heartbeat lists the jobs that a state of the run had active, each once. -/
theorem Ran.posting (ran : Ran w past s) {req : HeartbeatRequest}
    (posting : s.heartbeat = .posting req) :
    ∃ u ∈ visited past s, ∃ jobs : List String, jobs.Nodup ∧ jobs.toFinset = u.activeJobs ∧
      req = w.heartbeatRequest jobs := by
  obtain ⟨init, hi, run⟩ := ran
  refine run.arisen (fun s req => s.heartbeat = .posting req) (fun u req => ∃ jobs : List String,
    jobs.Nodup ∧ jobs.toFinset = u.activeJobs ∧ req = w.heartbeatRequest jobs) ?_ ?_ posting
  · intro req here
    rw [(initial_of_start hi).heartbeat] at here
    cases here
  · intro s a t req hs later
    exact (State.move_of_step hs).posting later

/-- The context of a task is the one of its job. -/
theorem Ran.contexts (ran : Ran w past s) :
    ∀ t ∈ s.tasks, ∀ ctx ∈ t.context, ctx = processContext w.workerId t.job := by
  revert ran
  apply Ran.invariant
  · intro init hi t ht
    rw [(initial_of_start hi).tasks] at ht
    cases ht
  · intro past s a s' _ all move
    apply move.forall_tasks all
    · intro job ctx absent
      cases absent
    · intro i e t u eff _ ht hm ctx given
      rw [hm.job_eq]
      cases hm with
      | found _ _ => exact (Option.some.inj given).symm
      | _ => exact all t ht ctx given
    · exact fun t _ same => same

theorem Ran.fetched_job (ran : Ran w past s) {t : Task} (mem : t ∈ s.tasks) : t.job ∈ s.fetched := by
  rw [ran.fetched]
  exact List.mem_append_left _ (List.mem_map_of_mem mem)

theorem Ran.settlements (ran : Ran w past s) {t : Task} {call : Settlement} (mem : t ∈ s.tasks)
    (called : call ∈ t.calls) :
    ∃ o, t.job ∈ s.fetched ∧ t.outcome = some o ∧ t.calls = [settlement t.job o] ∧
      call = settlement t.job o := by
  have calls := (ran.consistent t mem).calls
  cases outcome : t.outcome with
  | none =>
    rw [calls, outcome] at called
    cases called
  | some o =>
    rw [outcome] at calls
    have only : t.calls = [settlement t.job o] := calls
    rw [only] at called
    exact ⟨o, ran.fetched_job mem, rfl, only, List.mem_singleton.mp called⟩

theorem Ran.meant (ran : Ran w past s) {op : Operation} (called : s.Called op) :
    Meant w past s op := by
  cases called with
  | fetch recorded =>
    obtain ⟨u, hu, main, room, rfl⟩ := ran.fetches recorded
    exact .fetch hu main room
  | heartbeat posting =>
    obtain ⟨u, hu, jobs, distinct, active, rfl⟩ := ran.posting posting
    exact .heartbeat hu distinct active
  | @progress t ctx mem given =>
    obtain rfl := ran.contexts t mem ctx given
    exact .progress mem (ran.fetched_job mem) (by rw [given]; rfl)
  | settlement mem recorded =>
    obtain ⟨o, fetched, outcome, only, rfl⟩ := ran.settlements mem recorded
    exact .settlement mem fetched outcome only

theorem settlement_readable (sc : Scalars) (job : Job) (o : Outcome) :
    (settlement job o).operation.Readable sc := by
  cases o with
  | noHandler => trivial
  | returned result =>
    cases result with
    | error e => trivial
    | ok value =>
      show (if value.isNull then none else some value) ≠ some .null
      cases value <;> simp [Value.isNull]

theorem Meant.readable {op : Operation} (sc : Scalars) (meant : Meant w past s op) :
    op.Readable sc := by
  cases meant with
  | @fetch u _ _ _ =>
    intro n given
    have count : min (w.concurrency - asUsize u.activeCount) 10 = n := Option.some.inj given
    omega
  | heartbeat | progress => trivial
  | @settlement t o _ _ _ _ => exact settlement_readable sc t.job o

end OjsSdk
