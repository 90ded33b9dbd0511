import OjsSdk.FakeStoreRun

namespace OjsSdk

open StepSystem

inductive StoreReply
  | unit
  | job (job : FakeJob)
  | jobs (jobs : List FakeJob)

mutual

/-- A call of a handler on its clone of the store, `drain` apart. -/
inductive StoreCall (W : Type)
  | recordEnqueue (jobType : String) (args : List Value) (queue : Option String)
      (metadata : Option (List (String × Value))) (now : String)
  | registerHandler (jobType : String) (handler : FakeJob → W → HandlerProgram W)
  | assertEnqueued (jobType : String) (criteria : Option MatchCriteria)
  | refuteEnqueued (jobType : String)
  | assertPerformed (jobType : String)
  | assertCompleted (jobType : String)
  | allEnqueued
  | clearAll

/-- What a handler does: it returns, or it calls the store and goes on with the reply. -/
inductive HandlerProgram (W : Type)
  | ret (result : Except String Unit)
  | call (storeCall : StoreCall W) (next : StoreReply → HandlerProgram W)
  | drain (next : Nat → HandlerProgram W)

end

/-- What a handler answers that calls nothing. -/
def HandlerProgram.answer {W : Type} : HandlerProgram W → Except String Unit
  | ret result => result
  | _ => .error ""

/-- `FakeStoreInner`, with handlers that may have a clone of the store. -/
structure SharedStore (W : Type) where
  enqueued : List FakeJob
  performed : List FakeJob
  handlers : String → Option (FakeJob → W → HandlerProgram W)
  nextId : UInt64

variable {W : Type}

def SharedStore.toFake (s : SharedStore W) : FakeStore W where
  enqueued := s.enqueued
  performed := s.performed
  handlers jobType := (s.handlers jobType).map (fun handler job w => (handler job w).answer)
  nextId := s.nextId

/-- What a call does once it has locked the store. `None` is a panic. -/
def SharedStore.perform (overflowChecks : Bool) (s : SharedStore W) :
    StoreCall W → Option (StoreReply × SharedStore W)
  | .recordEnqueue jobType args queue metadata now =>
    (s.toFake.recordEnqueue overflowChecks jobType args queue metadata now).map
      (fun (job, fake) => (.job job, { s with enqueued := fake.enqueued, nextId := fake.nextId }))
  | .registerHandler jobType handler =>
    some (.unit, { s with handlers := Function.update s.handlers jobType (some handler) })
  | .assertEnqueued jobType criteria =>
    -- The text of the panic is not used.
    match s.toFake.assertEnqueued id jobType criteria with
    | .ok _ => some (.unit, s)
    | .error _ => none
  | .refuteEnqueued jobType =>
    if s.enqueued.any (fun j => j.jobType == jobType) then none else some (.unit, s)
  | .assertPerformed jobType =>
    if s.performed.any (fun j => j.jobType == jobType) then some (.unit, s) else none
  | .assertCompleted jobType =>
    if s.performed.any (fun j => j.jobType == jobType && j.state == "completed") then
      some (.unit, s)
    else none
  | .allEnqueued => some (.jobs s.enqueued, s)
  | .clearAll => some (.unit, { s with enqueued := [], performed := [] })

/-- A drain whose handler at job `i` has called `drain` again. -/
structure OuterDrain (W : Type) where
  i : Nat
  processed : Nat
  limit : Nat
  next : Nat → HandlerProgram W

inductive DrainPc (W : Type)
  | entering
  | atJob (i : Nat)
  | handling (i : Nat) (program : HandlerProgram W)
  | done

/-- The thread that drains. `locked` is the mutex of the store, which only this thread locks,
and `limit` the number of jobs that the loop goes through. -/
structure DrainState (W : Type) where
  store : SharedStore W
  locked : Bool
  pc : DrainPc W
  processed : Nat
  limit : Nat
  outer : List (OuterDrain W)

namespace DrainState

def start (store : SharedStore W) : DrainState W where
  store
  locked := false
  pc := .entering
  processed := 0
  limit := 0
  outer := []

/-- The rest of a turn of the loop, from the new state of the job on. -/
def finishJob (s : DrainState W) (i : Nat) (job : FakeJob) (state : String) : DrainState W :=
  let job := { job with state }
  { s with
    store := { s.store with
      enqueued := s.store.enqueued.set i job
      performed := s.store.performed ++ [job] }
    pc := .atJob (i + 1)
    processed := s.processed + 1 }

/-- One step. Whatever locks the store waits while the mutex is locked: it is not re-entrant.
The guard that `drain` takes on entering lives to the end of the function. -/
def step (overflowChecks : Bool) (env : Nat → W) (s : DrainState W) (_ : Unit) :
    Option (DrainState W) :=
  match s.pc with
  | .entering =>
    if s.locked then none
    else
      some { s with
        locked := true
        pc := .atJob 0
        processed := 0
        limit := s.store.enqueued.length }
  | .atJob i =>
    if i < s.limit then do
      let job ← s.store.enqueued[i]?
      if job.state ≠ "available" then some { s with pc := .atJob (i + 1) }
      else
        let job := { job with state := "active", attempt := job.attempt + 1 }
        match s.store.handlers job.jobType with
        | some handler =>
          some { s with
            store := { s.store with enqueued := s.store.enqueued.set i job }
            pc := .handling i (handler job (env i)) }
        | none => some (s.finishJob i job "completed")
    else
      match s.outer with
      | [] => some { s with locked := false, pc := .done }
      | caller :: outer =>
        some { s with
          locked := false
          pc := .handling caller.i (caller.next s.processed)
          processed := caller.processed
          limit := caller.limit
          outer }
  | .handling i (.ret result) => do
    let job ← s.store.enqueued[i]?
    match result with
    | .ok _ => some (s.finishJob i job "completed")
    | .error _ => some (s.finishJob i job "discarded")
  | .handling i (.call storeCall next) =>
    if s.locked then none
    else
      (s.store.perform overflowChecks storeCall).map
        (fun (reply, store) => { s with store, pc := .handling i (next reply) })
  | .handling i (.drain next) =>
    some { s with
      pc := .entering
      outer := { i, processed := s.processed, limit := s.limit, next } :: s.outer }
  | .done => none

/-- The thread waits for the mutex that it has locked itself. -/
def SelfDeadlocked (s : DrainState W) : Prop :=
  s.locked = true ∧
    (s.pc = .entering ∨ ∃ i storeCall next, s.pc = .handling i (.call storeCall next))

theorem SelfDeadlocked.stuck {overflowChecks : Bool} {env : Nat → W} {s : DrainState W}
    (waits : s.SelfDeadlocked) (a : Unit) : step overflowChecks env s a = none := by
  obtain ⟨locked, entering | ⟨i, storeCall, next, calling⟩⟩ := waits
  · simp [step, entering, locked]
  · simp [step, calling, locked]

theorem SelfDeadlocked.not_done {s : DrainState W} (waits : s.SelfDeadlocked) : s.pc ≠ .done := by
  intro done
  obtain ⟨-, entering | ⟨i, storeCall, next, calling⟩⟩ := waits
  · rw [done] at entering
    cases entering
  · rw [done] at calling
    cases calling

theorem stuck_of_done {overflowChecks : Bool} {env : Nat → W} {s : DrainState W}
    (done : s.pc = .done) (a : Unit) : step overflowChecks env s a = none := by
  simp [step, done]

end DrainState

/-- A job as its handler is given it. -/
def FakeJob.begun (job : FakeJob) : FakeJob :=
  { job with state := "active", attempt := job.attempt + 1 }

/-- The handler of an available job, if there is one, calls nothing of the store. -/
def QuietAt (handlers : String → Option (FakeJob → W → HandlerProgram W)) (env : Nat → W) (i : Nat)
    (job : FakeJob) : Prop :=
  isAvailable job = true → ∀ handler, handlers job.jobType = some handler →
    ∃ result, handler job.begun (env i) = .ret result

namespace DrainState

variable {overflowChecks : Bool} {env : Nat → W} {store : SharedStore W}
  {init : DrainState W} {past : List (DrainState W × Unit)}
  {seen rest performed : List FakeJob} {processed : Nat} {job : FakeJob}

/-- Before the turn of the first job of `rest`. -/
def loopState (store : SharedStore W) (seen rest performed : List FakeJob) (processed : Nat) :
    DrainState W where
  store := { store with enqueued := seen ++ rest, performed }
  locked := true
  pc := .atJob seen.length
  processed
  limit := seen.length + rest.length
  outer := []

/-- While the handler of a job runs. -/
def handlingState (store : SharedStore W) (seen : List FakeJob) (job : FakeJob)
    (rest performed : List FakeJob) (processed : Nat) (program : HandlerProgram W) : DrainState W :=
  { loopState store seen (job.begun :: rest) performed processed with
    pc := .handling seen.length program }

theorem step_skips (other : isAvailable job = false) :
    step overflowChecks env (loopState store seen (job :: rest) performed processed) () =
      some (loopState store (seen ++ [job]) rest performed processed) := by
  have state : job.state ≠ "available" := by simpa [isAvailable] using other
  simp [step, loopState, state]
  omega

theorem step_unhandled (available : isAvailable job = true)
    (none : store.handlers job.jobType = none) :
    step overflowChecks env (loopState store seen (job :: rest) performed processed) () =
      some (loopState store (seen ++ [{ job.begun with state := "completed" }]) rest
        (performed ++ [{ job.begun with state := "completed" }]) (processed + 1)) := by
  have state : job.state = "available" := by simpa [isAvailable] using available
  simp [step, loopState, state, none, finishJob, FakeJob.begun]
  omega

theorem step_handles (available : isAvailable job = true)
    {handler : FakeJob → W → HandlerProgram W} (found : store.handlers job.jobType = some handler) :
    step overflowChecks env (loopState store seen (job :: rest) performed processed) () =
      some (handlingState store seen job rest performed processed
        (handler job.begun (env seen.length))) := by
  have state : job.state = "available" := by simpa [isAvailable] using available
  simp [step, loopState, handlingState, state, found, FakeJob.begun]

theorem step_returns (result : Except String Unit) :
    step overflowChecks env
        (handlingState store seen job rest performed processed (.ret result)) () =
      some (loopState store
        (seen ++ [{ job.begun with
          state := if result.isOk then "completed" else "discarded" }]) rest
        (performed ++ [{ job.begun with
          state := if result.isOk then "completed" else "discarded" }]) (processed + 1)) := by
  cases result with
  | error e =>
    simp [step, loopState, handlingState, finishJob, FakeJob.begun, Except.isOk, Except.toBool]
    omega
  | ok u =>
    simp [step, loopState, handlingState, finishJob, FakeJob.begun, Except.isOk, Except.toBool]
    omega

theorem step_leaves (seen performed : List FakeJob) (processed : Nat) :
    step overflowChecks env (loopState store seen [] performed processed) () =
      some { loopState store seen [] performed processed with locked := false, pc := .done } := by
  simp [step, loopState]

/-- A quiet job takes the loop to the next job, as it takes the loop of `drain`. -/
theorem quiet_turn (quiet : QuietAt store.handlers env seen.length job)
    (run : Run (step overflowChecks env) init past
      (loopState store seen (job :: rest) performed processed)) :
    ∃ past', Run (step overflowChecks env) init past'
      (let turn := FakeStore.drainLoop store.toFake.handlers env seen [job] performed processed
       loopState store turn.1 rest turn.2.1 turn.2.2) := by
  cases available : isAvailable job with
  | false =>
    have state : job.state ≠ "available" := by simpa [isAvailable] using available
    refine ⟨_, run.next ((step_skips available).trans ?_)⟩
    simp [FakeStore.drainLoop, state]
  | true =>
    have state : job.state = "available" := by simpa [isAvailable] using available
    cases found : store.handlers job.jobType with
    | none =>
      refine ⟨_, run.next ((step_unhandled available found).trans ?_)⟩
      simp [FakeStore.drainLoop, state, FakeStore.perform, SharedStore.toFake, found,
        FakeJob.begun]
    | some handler =>
      obtain ⟨result, returns⟩ := quiet available handler found
      have handling := run.next (step_handles available found)
      rw [returns] at handling
      refine ⟨_, handling.next ((step_returns result).trans ?_)⟩
      have answers : (handler { job with state := "active", attempt := job.attempt + 1 }
          (env seen.length)).answer = result := by
        rw [show { job with state := "active", attempt := job.attempt + 1 } = job.begun from rfl,
          returns, HandlerProgram.answer]
      cases result with
      | error e =>
        simp [FakeStore.drainLoop, state, FakeStore.perform, SharedStore.toFake, found,
          FakeJob.begun, answers, Except.isOk, Except.toBool]
      | ok u =>
        simp [FakeStore.drainLoop, state, FakeStore.perform, SharedStore.toFake, found,
          FakeJob.begun, answers, Except.isOk, Except.toBool]

/-- Quiet jobs, one turn after the other. -/
theorem quiet_turns (before : List FakeJob)
    (quiet : ∀ k job, before[k]? = some job → QuietAt store.handlers env (seen.length + k) job)
    (run : Run (step overflowChecks env) init past
      (loopState store seen (before ++ rest) performed processed)) :
    ∃ past', Run (step overflowChecks env) init past'
      (let turns := FakeStore.drainLoop store.toFake.handlers env seen before performed processed
       loopState store turns.1 rest turns.2.1 turns.2.2) := by
  induction before generalizing seen performed processed past with
  | nil => exact ⟨past, run⟩
  | cons job before ih =>
    obtain ⟨past', turned⟩ := quiet_turn (quiet 0 job rfl) run
    rw [drainLoop_cons]
    refine ih (fun k later found => ?_) turned
    rw [drainLoop_length, List.length_singleton, Nat.add_assoc, Nat.add_comm 1 k]
    exact quiet (k + 1) later found

theorem enters (overflowChecks : Bool) (env : Nat → W) (store : SharedStore W) :
    Run (step overflowChecks env) (start store) [(start store, ())]
      (loopState store [] store.enqueued store.performed 0) := by
  refine Run.start.next ?_
  simp [step, start, loopState]

/-- Where no handler calls the store, the thread does what `drain` does, and unlocks. -/
theorem quiet_drain (overflowChecks : Bool)
    (quiet : ∀ i job, store.enqueued[i]? = some job → QuietAt store.handlers env i job) :
    ∃ past s, Run (step overflowChecks env) (start store) past s ∧ s.pc = .done ∧
      s.locked = false ∧ (s.processed, s.store.toFake) = store.toFake.drain env := by
  have entered : Run (step overflowChecks env) (start store) [(start store, ())]
      (loopState store [] (store.enqueued ++ []) store.performed 0) := by
    rw [List.append_nil]
    exact enters overflowChecks env store
  have quiet : ∀ k job, store.enqueued[k]? = some job →
      QuietAt store.handlers env (([] : List FakeJob).length + k) job := by
    intro k job found
    rw [List.length_nil, Nat.zero_add]
    exact quiet k job found
  obtain ⟨past, run⟩ := quiet_turns store.enqueued quiet entered
  have leaves := run.next (a := ()) (step_leaves _ _ _)
  refine ⟨_, _, leaves, rfl, rfl, ?_⟩
  simp [loopState, FakeStore.drain, SharedStore.toFake]

/-- The loop gets to a job that only quiet jobs come before. -/
theorem reaches_turn (overflowChecks : Bool) {i : Nat} (found : store.enqueued[i]? = some job)
    (quiet : ∀ k < i, ∀ earlier, store.enqueued[k]? = some earlier →
      QuietAt store.handlers env k earlier) :
    ∃ past seen rest performed processed, seen.length = i ∧
      Run (step overflowChecks env) (start store) past
        (loopState store seen (job :: rest) performed processed) := by
  obtain ⟨inside, here⟩ := List.getElem?_eq_some_iff.mp found
  have parts : store.enqueued = store.enqueued.take i ++ job :: store.enqueued.drop (i + 1) := by
    rw [← here, ← List.drop_eq_getElem_cons, List.take_append_drop]
  have entered := enters overflowChecks env store
  rw [parts] at entered
  have quiet : ∀ k earlier, (store.enqueued.take i)[k]? = some earlier →
      QuietAt store.handlers env (([] : List FakeJob).length + k) earlier := by
    intro k earlier taken
    rw [List.getElem?_take] at taken
    split at taken
    case isTrue before =>
      rw [List.length_nil, Nat.zero_add]
      exact quiet k before earlier taken
    case isFalse => cases taken
  obtain ⟨past, run⟩ := quiet_turns (store.enqueued.take i) quiet entered
  refine ⟨past, _, _, _, _, ?_, run⟩
  rw [drainLoop_length, List.length_nil, Nat.zero_add, List.length_take]
  omega

/-- A handler that calls the store waits for the thread that runs it. -/
theorem calling_deadlocks {handler : FakeJob → W → HandlerProgram W}
    (available : isAvailable job = true) (found : store.handlers job.jobType = some handler)
    (calls : ∀ result, handler job.begun (env seen.length) ≠ .ret result)
    (run : Run (step overflowChecks env) init past
      (loopState store seen (job :: rest) performed processed)) :
    ∃ past' s, Run (step overflowChecks env) init past' s ∧ s.SelfDeadlocked := by
  have handling := run.next (step_handles available found)
  cases program : handler job.begun (env seen.length) with
  | ret result => exact absurd program (calls result)
  | call storeCall next =>
    refine ⟨_, _, handling, rfl, Or.inr ⟨seen.length, storeCall, next, ?_⟩⟩
    simp [handlingState, program]
  | drain next =>
    rw [program] at handling
    exact ⟨_, _, handling.next (a := ()) rfl, rfl, Or.inl rfl⟩

end DrainState

/-- `drain` reaches its end, and never waits for itself, exactly when no handler of an
available job calls the store. -/
theorem drain_reaches_end_iff {W : Type} (overflowChecks : Bool) (env : Nat → W)
    (store : SharedStore W) :
    ((∃ past s, Run (DrainState.step overflowChecks env) (.start store) past s ∧ s.pc = .done) ∧
        ∀ past s, Run (DrainState.step overflowChecks env) (.start store) past s →
          ¬s.SelfDeadlocked) ↔
      ∀ i job, store.enqueued[i]? = some job → QuietAt store.handlers env i job := by
  constructor
  · rintro ⟨-, free⟩
    intro i
    -- All jobs before `i` are quiet, so the loop gets to `i`.
    induction i using Nat.strong_induction_on with
    | _ i earlier =>
      intro job found available handler registered
      by_contra calls
      obtain ⟨past, seen, rest, performed, processed, rfl, run⟩ :=
        DrainState.reaches_turn overflowChecks found earlier
      obtain ⟨past', s, deadlocks, waits⟩ := DrainState.calling_deadlocks available registered
        (fun result returns => calls ⟨result, returns⟩) run
      exact free past' s deadlocks waits
  · intro quiet
    obtain ⟨past, s, run, done, -⟩ := DrainState.quiet_drain overflowChecks quiet
    refine ⟨⟨past, s, run, done⟩, fun past' s' run' waits => ?_⟩
    obtain rfl := run.stuck_unique run' (DrainState.stuck_of_done done) waits.stuck
    exact waits.not_done done

/-- A job that enqueues a follow-up job. -/
def followUpStore : SharedStore Unit where
  enqueued := [{
    id := "fake-000001"
    jobType := "order.placed"
    queue := "default"
    args := []
    metadata := []
    state := "available"
    attempt := 0
    createdAt := "2026-01-01T00:00:00+00:00" }]
  performed := []
  handlers jobType :=
    if jobType = "order.placed" then
      some (fun job _ => .call
        (.recordEnqueue "email.send" job.args none none "2026-01-01T00:00:01+00:00")
        (fun _ => .ret (.ok ())))
    else none
  nextId := 1

theorem followUp_deadlocks :
    (∃ past s, Run (DrainState.step false (fun _ => ())) (.start followUpStore) past s ∧
        s.SelfDeadlocked) ∧
      ¬∃ past s, Run (DrainState.step false (fun _ => ())) (.start followUpStore) past s ∧
        s.pc = .done := by
  have entered := DrainState.enters false (fun _ => ()) followUpStore
  obtain ⟨past, s, run, waits⟩ : ∃ past s,
      Run (DrainState.step false (fun _ => ())) (.start followUpStore) past s ∧
        s.SelfDeadlocked := by
    refine DrainState.calling_deadlocks (by rfl) (by rfl) (fun result returns => ?_) entered
    cases returns
  refine ⟨⟨past, s, run, waits⟩, ?_⟩
  rintro ⟨past', s', run', done⟩
  obtain rfl := run.stuck_unique run' waits.stuck (DrainState.stuck_of_done done)
  exact waits.not_done done

end OjsSdk
