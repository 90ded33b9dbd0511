import OjsSdk.FakeStoreMatching
import OjsSdk.FakeStoreRun

namespace OjsSdk

open StepSystem

variable {W : Type}

namespace FakeStore

def refuteEnqueued (jobType : String) (s : FakeStore W) : Except String Unit :=
  let found := s.enqueued.filter (fun j => j.jobType == jobType)
  if found.isEmpty then .ok ()
  else .error ("Expected no enqueued jobs of type '" ++ jobType ++ "', but found " ++
    toString found.length)

def assertPerformed (jobType : String) (s : FakeStore W) : Except String Unit :=
  if s.performed.any (fun j => j.jobType == jobType) then .ok ()
  else .error ("Expected at least one performed job of type '" ++ jobType ++ "', found none")

def assertCompleted (jobType : String) (s : FakeStore W) : Except String Unit :=
  if s.performed.any (fun j => j.jobType == jobType && j.state == "completed") then .ok ()
  else .error ("Expected a completed job of type '" ++ jobType ++ "', found none")

def allEnqueued (s : FakeStore W) : List FakeJob := s.enqueued

end FakeStore

namespace FakeCall

/-- The counter of the store, after calls of which the latest comes first. -/
def counted : List (FakeCall W) → UInt64
  | [] => 0
  | .recordEnqueue .. :: earlier => counted earlier + 1
  | _ :: earlier => counted earlier

/-- The jobs recorded since the store was last cleared, as they were recorded. -/
def recorded : List (FakeCall W) → List FakeJob
  | [] | .clearAll :: _ => []
  | .recordEnqueue jobType args queue metadata now :: earlier =>
    recorded earlier ++
      [{ id := fakeId (counted earlier + 1)
         jobType
         queue := queue.getD "default"
         args
         metadata := metadata.getD []
         state := "available"
         attempt := 0
         createdAt := now }]
  | _ :: earlier => recorded earlier

/-- How many of them have been there at a drain. -/
def settled : List (FakeCall W) → Nat
  | [] | .clearAll :: _ => 0
  | .drain _ :: earlier => (recorded earlier).length
  | _ :: earlier => settled earlier

@[simp] theorem recorded_drain (env : Nat → W) (earlier : List (FakeCall W)) :
    recorded (.drain env :: earlier) = recorded earlier := rfl

@[simp] theorem settled_drain (env : Nat → W) (earlier : List (FakeCall W)) :
    settled (.drain env :: earlier) = (recorded earlier).length := rfl

/-- The handler that was registered last for a type. -/
def handlerFor (jobType : String) : List (FakeCall W) → Option (FakeHandler W)
  | [] => none
  | .registerHandler registered handler :: earlier =>
    if registered = jobType then some handler else handlerFor jobType earlier
  | _ :: earlier => handlerFor jobType earlier

/-- The job that a drain finds at a position, with the handler of its type. -/
def foundBy (env : Nat → W) (earlier : List (FakeCall W)) (i : Nat) (job : FakeJob) : Drained W :=
  ⟨job, handlerFor job.jobType earlier, env i⟩

/-- After these calls nothing has been cleared. -/
def NotCleared (calls : List (FakeCall W)) : Prop := ∀ call ∈ calls, call ≠ .clearAll

/-- A drain after which nothing was cleared has found the job for the first time, at `i`. -/
def FirstDrained (calls : List (FakeCall W)) (d : Drained W) : Prop :=
  ∃ later env earlier i job, calls = later ++ .drain env :: earlier ∧ NotCleared later ∧
    settled earlier ≤ i ∧ (recorded earlier)[i]? = some job ∧ d = foundBy env earlier i job

theorem FirstDrained.nil (d : Drained W) : ¬FirstDrained [] d := by
  rintro ⟨later, env, earlier, i, job, whole, _⟩
  simp at whole

/-- What a call adds to the jobs that have been drained. -/
theorem firstDrained_cons {call : FakeCall W} {calls : List (FakeCall W)} {d : Drained W} :
    FirstDrained (call :: calls) d ↔ (call ≠ .clearAll ∧ FirstDrained calls d) ∨
      ∃ env i job, call = .drain env ∧ settled calls ≤ i ∧ (recorded calls)[i]? = some job ∧
        d = foundBy env calls i job := by
  constructor
  · rintro ⟨later, env, earlier, i, job, whole, kept, unsettled, found, same⟩
    cases later with
    | nil =>
      obtain ⟨rfl, rfl⟩ := List.cons.inj whole
      exact .inr ⟨env, i, job, rfl, unsettled, found, same⟩
    | cons last later =>
      obtain ⟨rfl, rfl⟩ := List.cons.inj whole
      have rest : NotCleared later := fun c hc => kept c (List.mem_cons_of_mem _ hc)
      exact .inl ⟨kept _ (by simp), later, env, earlier, i, job, rfl, rest, unsettled, found, same⟩
  · rintro (⟨other, later, env, earlier, i, job, rfl, kept, unsettled, found, same⟩ |
      ⟨env, i, job, rfl, unsettled, found, same⟩)
    · refine ⟨call :: later, env, earlier, i, job, rfl, ?_, unsettled, found, same⟩
      exact List.forall_mem_cons.mpr ⟨other, kept⟩
    · exact ⟨[], env, calls, i, job, rfl, by simp [NotCleared], unsettled, found, same⟩

end FakeCall

open FakeCall

namespace FakeRun

/-- The calls of a run, the latest first. -/
def calls (past : List (FakeRun W × FakeCall W)) : List (FakeCall W) := past.map Prod.snd

/-- The store is what its calls make of it. -/
structure Reflects (calls : List (FakeCall W)) (r : FakeRun W) : Prop where
  counter : r.store.nextId = counted calls
  handlers : ∀ jobType, r.store.handlers jobType = handlerFor jobType calls
  enqueued : r.store.enqueued =
    r.drained.map Drained.record ++ (recorded calls).drop (settled calls)
  performed : r.store.performed = r.drained.map Drained.record
  jobs : r.drained.map Drained.job = (recorded calls).take (settled calls)
  drained : ∀ d, d ∈ r.drained ↔ FirstDrained calls d
  bound : settled calls ≤ (recorded calls).length

variable {overflowChecks : Bool} {r r' : FakeRun W} {history : List (FakeCall W)}

theorem reflects_start : Reflects [] (start : FakeRun W) where
  counter := rfl
  handlers _ := rfl
  enqueued := rfl
  performed := rfl
  jobs := rfl
  drained d := iff_of_false List.not_mem_nil (FirstDrained.nil d)
  bound := Nat.le_refl 0

theorem recorded_fresh {calls : List (FakeCall W)} {job : FakeJob} (mem : job ∈ recorded calls) :
    isAvailable job = true ∧ job.attempt = 0 := by
  induction calls with
  | nil => cases mem
  | cons call earlier ih =>
    cases call with
    | clearAll => cases mem
    | registerHandler _ _ => exact ih mem
    | drain _ => exact ih mem
    | recordEnqueue _ _ _ _ _ =>
      rcases List.mem_append.mp mem with old | new
      · exact ih old
      · rw [List.mem_singleton.mp new]
        exact ⟨rfl, rfl⟩

theorem Reflects.recordEnqueue (reflects : Reflects history r) {jobType : String}
    {args : List Value} {queue : Option String} {metadata : Option (List (String × Value))}
    {now : String}
    (h : step overflowChecks r (.recordEnqueue jobType args queue metadata now) = some r') :
    Reflects (.recordEnqueue jobType args queue metadata now :: history) r' := by
  obtain ⟨⟨job, store⟩, made, rfl⟩ := Option.map_eq_some_iff.mp h
  unfold FakeStore.recordEnqueue at made
  split at made
  · cases made
  · cases made
    refine ⟨?_, reflects.handlers, ?_, reflects.performed, ?_, ?_, ?_⟩
    · simp [counted, reflects.counter]
    · simp only [recorded, settled]
      rw [List.drop_append_of_le_length reflects.bound, ← List.append_assoc, ← reflects.enqueued,
        reflects.counter]
    · simp only [recorded, settled]
      rw [List.take_append_of_le_length reflects.bound, reflects.jobs]
    · intro d
      rw [firstDrained_cons, reflects.drained]
      simp
    · simp only [recorded, settled, List.length_append]
      exact Nat.le_add_right_of_le reflects.bound

theorem Reflects.registerHandler (reflects : Reflects history r) (jobType : String)
    (handler : FakeHandler W) : Reflects (.registerHandler jobType handler :: history)
      { r with store := r.store.registerHandler jobType handler } where
  counter := reflects.counter
  handlers other := by
    show Function.update r.store.handlers jobType (some handler) other = _
    by_cases same : jobType = other
    · subst same
      simp [handlerFor]
    · rw [Function.update_of_ne (Ne.symm same), reflects.handlers, handlerFor, if_neg same]
  enqueued := reflects.enqueued
  performed := reflects.performed
  jobs := reflects.jobs
  drained d := by
    rw [firstDrained_cons, reflects.drained]
    simp
  bound := reflects.bound

theorem Reflects.clearAll (reflects : Reflects history r) :
    Reflects (.clearAll :: history) { r with store := r.store.clearAll, drained := [] } where
  counter := reflects.counter
  handlers := reflects.handlers
  enqueued := rfl
  performed := rfl
  jobs := rfl
  drained d := by
    rw [firstDrained_cons]
    simp
  bound := Nat.le_refl 0

/-- The jobs that a drain finds are those that no drain has found before. -/
theorem Reflects.drainedFrom_eq (reflects : Reflects history r) (env : Nat → W) :
    drainedFrom r.store.handlers env 0 r.store.enqueued =
      (((recorded history).drop (settled history)).zipIdx (settled history)).map
        (fun j => foundBy env history j.2 j.1) := by
  have processed : ∀ job ∈ r.drained.map Drained.record, isAvailable job = false := by
    intro job mem
    obtain ⟨d, _, rfl⟩ := List.mem_map.mp mem
    exact d.record_processed.1
  have length : (r.drained.map Drained.record).length = settled history := by
    have jobs := congrArg List.length reflects.jobs
    rwa [List.length_map, List.length_take_of_le reflects.bound, ← List.length_map] at jobs
  have fresh : ∀ j ∈ ((recorded history).drop (settled history)).zipIdx (settled history),
      isAvailable j.1 = true :=
    fun j mem => (recorded_fresh (List.mem_of_mem_drop (List.fst_mem_of_mem_zipIdx mem))).1
  rw [reflects.enqueued, drainedFrom_append, (drain_processed _ env 0 processed).1,
    List.nil_append, length, Nat.zero_add, drainedFrom, List.filter_eq_self.mpr fresh]
  refine List.map_congr_left (fun j _ => ?_)
  rw [foundBy, reflects.handlers]

theorem Reflects.drain (reflects : Reflects history r) (env : Nat → W) :
    Reflects (.drain env :: history) { r with
      store := (r.store.drain env).2
      drained := r.drained ++ drainedFrom r.store.handlers env 0 r.store.enqueued } := by
  have done : ∀ job ∈ r.store.performed, isAvailable job = false := by
    rw [reflects.performed]
    intro job mem
    obtain ⟨d, _, rfl⟩ := List.mem_map.mp mem
    exact d.record_processed.1
  obtain ⟨performed, all⟩ := drain_store env (reflects.performed ▸ reflects.enqueued) done
    (fun job mem => recorded_fresh (List.mem_of_mem_drop mem))
  have records : (r.store.drain env).2.performed =
      (r.drained ++ drainedFrom r.store.handlers env 0 r.store.enqueued).map Drained.record := by
    rw [performed, reflects.performed, List.map_append]
  refine ⟨reflects.counter, reflects.handlers, ?_, records, ?_, ?_, Nat.le_refl _⟩
  · rw [all, records, settled_drain, recorded_drain, List.drop_length, List.append_nil]
  · rw [List.map_append, reflects.jobs, reflects.drainedFrom_eq, List.map_map, settled_drain,
      recorded_drain, List.take_length]
    have firsts : (Drained.job ∘ fun j : FakeJob × Nat => foundBy env history j.2 j.1) = Prod.fst :=
      rfl
    rw [firsts, List.zipIdx_map_fst, List.take_append_drop]
  · intro d
    rw [List.mem_append, firstDrained_cons, reflects.drained, reflects.drainedFrom_eq]
    refine or_congr (by simp) ?_
    constructor
    · intro mem
      obtain ⟨⟨job, i⟩, inside, rfl⟩ := List.mem_map.mp mem
      obtain ⟨le, found⟩ := List.mk_mem_zipIdx_iff_le_and_getElem?_sub.mp inside
      rw [List.getElem?_drop, Nat.add_sub_cancel' le] at found
      exact ⟨env, i, job, rfl, le, found, rfl⟩
    · rintro ⟨env', i, job, same, le, found, rfl⟩
      cases same
      refine List.mem_map.mpr ⟨(job, i), List.mk_mem_zipIdx_iff_le_and_getElem?_sub.mpr ⟨le, ?_⟩, rfl⟩
      rw [List.getElem?_drop, Nat.add_sub_cancel' le, found]

theorem reflects_of_run {past : List (FakeRun W × FakeCall W)}
    (run : Run (step overflowChecks) start past r) : Reflects (calls past) r := by
  induction run with
  | start => exact reflects_start
  | @next past r call r' run h ih =>
    cases call with
    | recordEnqueue jobType args queue metadata now => exact ih.recordEnqueue h
    | registerHandler jobType handler =>
      cases h
      exact ih.registerHandler jobType handler
    | drain env =>
      cases h
      exact ih.drain env
    | clearAll =>
      cases h
      exact ih.clearAll

/-- As many jobs as an assertion asks for. -/
def Enough (c : MatchCriteria) (found : Nat) : Prop :=
  match c.count with
  | some expected => found = expected
  | none => 1 ≤ found

/-- The assertions tell what has been called since the store was last cleared: which jobs were
recorded, which of them a drain has found, and what the handler that was then registered for the
type made of them at their first drain. -/
structure AssertionsReflect (debug : String → String) (calls : List (FakeCall W))
    (s : FakeStore W) (jobType : String) : Prop where
  enqueued : ∀ c : MatchCriteria, s.assertEnqueued debug jobType (some c) = .ok () ↔
    Enough c ((recorded calls).countP (c.placed jobType))
  anywhere : s.assertEnqueued debug jobType none = .ok () ↔
    ∃ job ∈ recorded calls, job.jobType = jobType
  refuted : s.refuteEnqueued jobType = .ok () ↔ ∀ job ∈ recorded calls, job.jobType ≠ jobType
  performed : s.assertPerformed jobType = .ok () ↔
    ∃ d, FirstDrained calls d ∧ d.job.jobType = jobType
  completed : s.assertCompleted jobType = .ok () ↔
    ∃ d, FirstDrained calls d ∧ d.job.jobType = jobType ∧ d.fails = false
  ids : s.allEnqueued.map FakeJob.id = (recorded calls).map FakeJob.id

/-- What a drain makes of a job does not change what the assertions look for. -/
theorem countP_enqueued (reflects : Reflects history r) {q : FakeJob → Bool}
    (same : ∀ d : Drained W, q d.record = q d.job) :
    r.store.enqueued.countP q = (recorded history).countP q := by
  have before : ((r.drained.map Drained.record).countP q) =
      (r.drained.map Drained.job).countP q := by
    rw [List.countP_map, List.countP_map]
    exact List.countP_congr (fun d _ => by simp [same d])
  rw [reflects.enqueued, List.countP_append, before, reflects.jobs, ← List.countP_append,
    List.take_append_drop]

theorem assertions_of_reflects (debug : String → String) (reflects : Reflects history r)
    (jobType : String) : AssertionsReflect debug history r.store jobType where
  enqueued c := by
    have found := assertEnqueued_eq_ok_iff debug r.store jobType c
    have same : ∀ d : Drained W, c.placed jobType d.record = c.placed jobType d.job :=
      fun d => rfl
    rw [countP_enqueued reflects same] at found
    exact found
  anywhere := by
    have count := countP_enqueued reflects (q := fun j => j.jobType == jobType) (fun d => rfl)
    have found : r.store.assertEnqueued debug jobType none = .ok () ↔
        0 < r.store.enqueued.countP (fun j => j.jobType == jobType) := by
      simp [FakeStore.assertEnqueued, filterJobs, List.countP_pos_iff]
    rw [found, count, List.countP_pos_iff]
    simp
  refuted := by
    have count := countP_enqueued reflects (q := fun j => j.jobType == jobType) (fun d => rfl)
    have none : r.store.refuteEnqueued jobType = .ok () ↔
        r.store.enqueued.countP (fun j => j.jobType == jobType) = 0 := by
      simp [FakeStore.refuteEnqueued, List.countP_eq_zero]
    rw [none, count, List.countP_eq_zero]
    simp
  performed := by
    have held : r.store.assertPerformed jobType = .ok () ↔
        r.store.performed.any (fun j => j.jobType == jobType) = true := by
      simp [FakeStore.assertPerformed]
    rw [held, reflects.performed, List.any_map, List.any_eq_true]
    simp [← reflects.drained, Drained.record]
  completed := by
    have held : r.store.assertCompleted jobType = .ok () ↔ r.store.performed.any
        (fun j => j.jobType == jobType && j.state == "completed") = true := by
      simp [FakeStore.assertCompleted]
    have state : ∀ d : Drained W, d.record.state = "completed" ↔ d.fails = false := by
      intro d
      cases fails : d.fails <;> simp [Drained.record, fails]
    rw [held, reflects.performed, List.any_map, List.any_eq_true]
    simp only [← reflects.drained, Function.comp_apply, Bool.and_eq_true, beq_iff_eq, state]
    rfl
  ids := by
    have before : (r.drained.map Drained.record).map FakeJob.id =
        (r.drained.map Drained.job).map FakeJob.id := by
      rw [List.map_map, List.map_map]
      rfl
    rw [FakeStore.allEnqueued, reflects.enqueued, List.map_append, before, reflects.jobs,
      ← List.map_append, List.take_append_drop]

/-- After any calls the assertions about a type say what the calls have been. -/
theorem assertions_reflect_calls (debug : String → String) (jobType : String)
    {past : List (FakeRun W × FakeCall W)} (run : Run (step overflowChecks) start past r) :
    AssertionsReflect debug (calls past) r.store jobType :=
  assertions_of_reflects debug (reflects_of_run run) jobType

/-- A job that its first drain finds without a handler, and one that is refused later. -/
def lateHandlerCalls : List (FakeCall Unit) :=
  [.recordEnqueue "email.send" [] none none "2025-01-01T00:00:00+00:00", .drain (fun _ => ()),
    .registerHandler "email.send" (fun _ _ => .error "forced failure"),
    .recordEnqueue "email.send" [] none none "2025-01-01T00:00:01+00:00", .drain (fun _ => ())]

theorem lateHandler_completed : ∃ past r,
    exec (step false) [] start lateHandlerCalls = some (past, r) ∧
      r.store.performed.map FakeJob.state = ["completed", "discarded"] ∧
      ∃ d, FirstDrained (calls past) d ∧ d.job.jobType = "email.send" ∧ d.fails = false := by
  have ran : exec (step false) [] start lateHandlerCalls = some (_, _) := rfl
  have reflect := assertions_reflect_calls id "email.send" (Run.start.exec ran)
  exact ⟨_, _, ran, rfl, reflect.completed.mp rfl⟩

end FakeRun

end OjsSdk
