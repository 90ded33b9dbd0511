import OjsSdk.FakeStore
import OjsSdk.StepSystem
import Mathlib.Data.List.Infix
import Mathlib.Data.List.Nodup

namespace OjsSdk

open StepSystem

variable {W : Type}

inductive FakeCall (W : Type)
  | recordEnqueue (jobType : String) (args : List Value) (queue : Option String)
      (metadata : Option (List (String × Value))) (now : String)
  | registerHandler (jobType : String) (handler : FakeHandler W)
  | drain (env : Nat → W)
  | clearAll

/-- A job as a drain finds it, with the handler of its type and the world it runs in. -/
structure Drained (W : Type) where
  job : FakeJob
  handler : Option (FakeHandler W)
  world : W

/-- The handler refuses the job, at its first attempt. -/
def Drained.fails (d : Drained W) : Bool :=
  match d.handler with
  | some handler => !(handler { d.job with state := "active", attempt := 1 } d.world).isOk
  | none => false

/-- What is to be kept of the job. -/
def Drained.record (d : Drained W) : FakeJob :=
  { d.job with state := bif d.fails then "discarded" else "completed", attempt := 1 }

def isAvailable (job : FakeJob) : Bool := job.state == "available"

/-- The available jobs of a store, from position `i` on. -/
def drainedFrom (handlers : String → Option (FakeHandler W)) (env : Nat → W) (i : Nat)
    (jobs : List FakeJob) : List (Drained W) :=
  ((jobs.zipIdx i).filter (fun j => isAvailable j.1)).map
    (fun j => ⟨j.1, handlers j.1.jobType, env j.2⟩)

/-- A store with its history: the ids it has given out, and what it has drained since it was
last cleared. -/
structure FakeRun (W : Type) where
  store : FakeStore W
  issued : List String
  drained : List (Drained W)

namespace FakeRun

def start : FakeRun W where
  store := .new
  issued := []
  drained := []

def step (overflowChecks : Bool) (r : FakeRun W) : FakeCall W → Option (FakeRun W)
  | .recordEnqueue jobType args queue metadata now =>
    (r.store.recordEnqueue overflowChecks jobType args queue metadata now).map
      (fun recorded => { r with store := recorded.2, issued := r.issued ++ [recorded.1.id] })
  | .registerHandler jobType handler =>
    some { r with store := r.store.registerHandler jobType handler }
  | .drain env =>
    some { r with
      store := (r.store.drain env).2
      drained := r.drained ++ drainedFrom r.store.handlers env 0 r.store.enqueued }
  | .clearAll => some { r with store := r.store.clearAll, drained := [] }

/-- What holds of a store between two calls. -/
structure Sound (r : FakeRun W) : Prop where
  ids : r.issued.Nodup
  jobs : ∃ cleared, r.issued = cleared ++ r.store.enqueued.map FakeJob.id
  notActive : ∀ job ∈ r.store.enqueued, job.state ≠ "active"
  processed : ∃ waiting, r.store.enqueued = r.store.performed ++ waiting ∧
    (∀ job ∈ r.store.performed, isAvailable job = false) ∧
    ∀ job ∈ waiting, isAvailable job = true ∧ job.attempt = 0
  performed : r.store.performed = r.drained.map Drained.record
  drains : ∀ env, (r.store.drain env).1 = r.store.enqueued.countP isAvailable

end FakeRun

/-- The jobs from position `i` on, after the loop of a drain. -/
def afterDrain (handlers : String → Option (FakeHandler W)) (env : Nat → W) (i : Nat)
    (jobs : List FakeJob) : List FakeJob :=
  (jobs.zipIdx i).map
    (fun j => if isAvailable j.1 then FakeStore.perform handlers (env j.2) j.1 else j.1)

theorem drainLoop_eq (handlers : String → Option (FakeHandler W)) (env : Nat → W)
    (seen rest performed : List FakeJob) (processed : Nat) :
    FakeStore.drainLoop handlers env seen rest performed processed =
      (seen ++ afterDrain handlers env seen.length rest,
        performed ++ (drainedFrom handlers env seen.length rest).map
          (fun d => FakeStore.perform handlers d.world d.job),
        processed + rest.countP isAvailable) := by
  induction rest generalizing seen performed processed with
  | nil => simp [FakeStore.drainLoop, drainedFrom, afterDrain]
  | cons job rest ih =>
    unfold FakeStore.drainLoop
    by_cases available : job.state = "available"
    · have here : isAvailable job = true := by simp [isAvailable, available]
      simp [available, ih, drainedFrom, afterDrain, List.zipIdx_cons, here]
      omega
    · have here : isAvailable job = false := by simp [isAvailable, available]
      simp [available, ih, drainedFrom, afterDrain, List.zipIdx_cons, here]

theorem drainLoop_cons (handlers : String → Option (FakeHandler W)) (env : Nat → W)
    (seen rest performed : List FakeJob) (processed : Nat) (job : FakeJob) :
    FakeStore.drainLoop handlers env seen (job :: rest) performed processed =
      (let turn := FakeStore.drainLoop handlers env seen [job] performed processed
       FakeStore.drainLoop handlers env turn.1 rest turn.2.1 turn.2.2) := by
  by_cases available : job.state = "available"
  · simp [FakeStore.drainLoop, available]
  · simp [FakeStore.drainLoop, available]

theorem drainLoop_length (handlers : String → Option (FakeHandler W)) (env : Nat → W)
    (seen jobs performed : List FakeJob) (processed : Nat) :
    (FakeStore.drainLoop handlers env seen jobs performed processed).1.length =
      seen.length + jobs.length := by
  simp [drainLoop_eq, afterDrain]

theorem perform_eq_record {handlers : String → Option (FakeHandler W)} {job : FakeJob} (w : W)
    (first : job.attempt = 0) :
    FakeStore.perform handlers w job = Drained.record ⟨job, handlers job.jobType, w⟩ := by
  have one : (0 : UInt32) + 1 = 1 := rfl
  simp only [FakeStore.perform, Drained.record, Drained.fails, first, one]
  cases handlers job.jobType with
  | none => rfl
  | some handler =>
    simp only
    cases handler { job with state := "active", attempt := 1 } w <;> rfl

theorem Drained.record_processed (d : Drained W) :
    isAvailable d.record = false ∧ d.record.state ≠ "active" := by
  simp only [Drained.record, isAvailable]
  cases d.fails with
  | true => simp
  | false => simp

namespace FakeRun

/-- The ids that a store gives out, as its counter has it. -/
def idsUpTo (k : Nat) : List String := (List.range k).map (fun i => fakeId (UInt64.ofNat (i + 1)))

theorem idsUpTo_succ (k : Nat) :
    idsUpTo (k + 1) = idsUpTo k ++ [fakeId (UInt64.ofNat (k + 1))] := by
  rw [idsUpTo, List.range_succ, List.map_append]
  rfl

theorem fakeId_injective {a b : UInt64} (h : fakeId a = fakeId b) : a = b :=
  UInt64.toNat_inj.mp (StdText.zeroPadded_injective ((String.append_right_inj _).mp h))

theorem idsUpTo_nodup {k : Nat} (few : k ≤ 2 ^ 64) : (idsUpTo k).Nodup := by
  refine List.Nodup.map_on (fun i hi j hj same => ?_) List.nodup_range
  have lt_i := List.mem_range.mp hi
  have lt_j := List.mem_range.mp hj
  have counters := congrArg UInt64.toNat (fakeId_injective same)
  rw [UInt64.toNat_ofNat', UInt64.toNat_ofNat'] at counters
  omega

theorem recordEnqueue_eq_some {overflowChecks : Bool} {jobType : String} {args : List Value}
    {queue : Option String} {metadata : Option (List (String × Value))} {now : String}
    {job : FakeJob} {s s' : FakeStore W}
    (recorded : s.recordEnqueue overflowChecks jobType args queue metadata now = some (job, s')) :
    job.id = fakeId (s.nextId + 1) ∧ job.state = "available" ∧ job.attempt = 0 ∧
      s' = { s with enqueued := s.enqueued ++ [job], nextId := s.nextId + 1 } ∧
      ¬(overflowChecks = true ∧ s.nextId.toNat + 1 = 2 ^ 64) := by
  unfold FakeStore.recordEnqueue at recorded
  split at recorded
  next => cases recorded
  next fits =>
    cases recorded
    exact ⟨rfl, rfl, rfl, rfl, fits⟩

/-- The invariant that the calls keep. -/
structure Kept (overflowChecks : Bool) (r : FakeRun W) : Prop where
  issued : r.issued = idsUpTo r.issued.length
  counter : r.store.nextId = UInt64.ofNat r.issued.length
  below : overflowChecks = true → r.issued.length < 2 ^ 64
  jobs : ∃ cleared, r.issued = cleared ++ r.store.enqueued.map FakeJob.id
  notActive : ∀ job ∈ r.store.enqueued, job.state ≠ "active"
  processed : ∃ waiting, r.store.enqueued = r.store.performed ++ waiting ∧
    (∀ job ∈ r.store.performed, isAvailable job = false) ∧
    ∀ job ∈ waiting, isAvailable job = true ∧ job.attempt = 0
  performed : r.store.performed = r.drained.map Drained.record

variable {overflowChecks : Bool} {r : FakeRun W}

theorem kept_start (overflowChecks : Bool) : Kept overflowChecks (start : FakeRun W) where
  issued := rfl
  counter := rfl
  below _ := Nat.two_pow_pos 64
  jobs := ⟨[], rfl⟩
  notActive _ member := by cases member
  processed := by
    refine ⟨[], rfl, ?_, ?_⟩
    · intro job member
      cases member
    · intro job member
      cases member
  performed := rfl

theorem Kept.recordEnqueue (kept : Kept overflowChecks r) {jobType : String} {args : List Value}
    {queue : Option String} {metadata : Option (List (String × Value))} {now : String}
    {job : FakeJob} {store : FakeStore W}
    (recorded : r.store.recordEnqueue overflowChecks jobType args queue metadata now =
      some (job, store)) :
    Kept overflowChecks { r with store, issued := r.issued ++ [job.id] } := by
  obtain ⟨id, available, first, rfl, fits⟩ := recordEnqueue_eq_some recorded
  have next : r.store.nextId + 1 = UInt64.ofNat (r.issued.length + 1) := by
    rw [kept.counter, UInt64.ofNat_add]
    rfl
  obtain ⟨cleared, jobs⟩ := kept.jobs
  obtain ⟨waiting, enqueued, done, fresh⟩ := kept.processed
  refine ⟨?_, ?_, ?_, ⟨cleared, ?_⟩, ?_, ⟨waiting ++ [job], ?_, done, ?_⟩, kept.performed⟩
  · rw [List.length_append, List.length_singleton, idsUpTo_succ, ← kept.issued, id, next]
  · rw [List.length_append, List.length_singleton, next]
  · intro checks
    have below := kept.below checks
    have counter := congrArg UInt64.toNat kept.counter
    rw [UInt64.toNat_ofNat'] at counter
    rw [List.length_append, List.length_singleton]
    have unequal : r.store.nextId.toNat + 1 ≠ 2 ^ 64 := fun last => fits ⟨checks, last⟩
    omega
  · rw [jobs, List.map_append, List.append_assoc]
    rfl
  · intro other member
    rcases List.mem_append.mp member with earlier | last
    · exact kept.notActive other earlier
    · obtain rfl := List.mem_singleton.mp last
      simp [available]
  · rw [enqueued, List.append_assoc]
  · intro other member
    rcases List.mem_append.mp member with earlier | last
    · exact fresh other earlier
    · obtain rfl := List.mem_singleton.mp last
      exact ⟨by simp [isAvailable, available], first⟩

theorem drainedFrom_append (handlers : String → Option (FakeHandler W)) (env : Nat → W) (i : Nat)
    (jobs more : List FakeJob) : drainedFrom handlers env i (jobs ++ more) =
      drainedFrom handlers env i jobs ++ drainedFrom handlers env (i + jobs.length) more := by
  rw [drainedFrom, List.zipIdx_append, List.filter_append, List.map_append, Nat.add_comm]
  rfl

/-- A drain leaves alone what has been processed, and performs the rest. -/
theorem drain_processed (handlers : String → Option (FakeHandler W)) (env : Nat → W) (i : Nat)
    {done : List FakeJob} (old : ∀ job ∈ done, isAvailable job = false) :
    drainedFrom handlers env i done = [] ∧ afterDrain handlers env i done = done := by
  induction done generalizing i with
  | nil => exact ⟨rfl, rfl⟩
  | cons job done ih =>
    obtain ⟨here, later⟩ := List.forall_mem_cons.mp old
    obtain ⟨none, same⟩ := ih (i + 1) later
    rw [drainedFrom] at none
    rw [afterDrain] at same
    simp [drainedFrom, afterDrain, List.zipIdx_cons, here, none, same]

theorem drain_waiting (handlers : String → Option (FakeHandler W)) (env : Nat → W) (i : Nat)
    {waiting : List FakeJob} (fresh : ∀ job ∈ waiting, isAvailable job = true ∧ job.attempt = 0) :
    (drainedFrom handlers env i waiting).map
        (fun d => FakeStore.perform handlers d.world d.job) =
        (drainedFrom handlers env i waiting).map Drained.record ∧
      afterDrain handlers env i waiting =
        (drainedFrom handlers env i waiting).map Drained.record := by
  have inside : ∀ j ∈ waiting.zipIdx i, isAvailable j.1 = true ∧ j.1.attempt = 0 :=
    fun j member => fresh j.1 (List.fst_mem_of_mem_zipIdx member)
  have all : drainedFrom handlers env i waiting =
      (waiting.zipIdx i).map (fun j => ⟨j.1, handlers j.1.jobType, env j.2⟩) := by
    rw [drainedFrom, List.filter_eq_self.mpr (fun j member => (inside j member).1)]
  rw [all, List.map_map, List.map_map, afterDrain]
  refine ⟨List.map_congr_left (fun j member => ?_), List.map_congr_left (fun j member => ?_)⟩
  · exact perform_eq_record (env j.2) (inside j member).2
  · rw [if_pos (inside j member).1]
    exact perform_eq_record (env j.2) (inside j member).2

theorem afterDrain_append (handlers : String → Option (FakeHandler W)) (env : Nat → W) (i : Nat)
    (jobs more : List FakeJob) : afterDrain handlers env i (jobs ++ more) =
      afterDrain handlers env i jobs ++ afterDrain handlers env (i + jobs.length) more := by
  rw [afterDrain, List.zipIdx_append, List.map_append, Nat.add_comm]
  rfl

theorem perform_id (handlers : String → Option (FakeHandler W)) (w : W) (job : FakeJob) :
    (FakeStore.perform handlers w job).id = job.id := by
  simp only [FakeStore.perform]
  split
  next handler _ =>
    split
    next => rfl
    next => rfl
  next => rfl

theorem afterDrain_ids (handlers : String → Option (FakeHandler W)) (env : Nat → W) (i : Nat)
    (jobs : List FakeJob) :
    (afterDrain handlers env i jobs).map FakeJob.id = jobs.map FakeJob.id := by
  have kept : ∀ j ∈ jobs.zipIdx i, (FakeJob.id ∘ fun j : FakeJob × Nat =>
      if isAvailable j.1 then FakeStore.perform handlers (env j.2) j.1 else j.1) j =
        (FakeJob.id ∘ Prod.fst) j := by
    intro j _
    simp only [Function.comp_apply]
    split
    next => exact perform_id handlers (env j.2) j.1
    next => rfl
  rw [afterDrain, List.map_map, List.map_congr_left kept, ← List.map_map, List.zipIdx_map_fst]

/-- After a drain everything has been processed. -/
theorem drain_store {s : FakeStore W} {waiting : List FakeJob} (env : Nat → W)
    (enqueued : s.enqueued = s.performed ++ waiting)
    (done : ∀ job ∈ s.performed, isAvailable job = false)
    (fresh : ∀ job ∈ waiting, isAvailable job = true ∧ job.attempt = 0) :
    (s.drain env).2.performed =
        s.performed ++ (drainedFrom s.handlers env 0 s.enqueued).map Drained.record ∧
      (s.drain env).2.enqueued = (s.drain env).2.performed := by
  obtain ⟨none, kept⟩ := drain_processed s.handlers env 0 done
  obtain ⟨performed, changed⟩ := drain_waiting s.handlers env (0 + s.performed.length) fresh
  have drained : drainedFrom s.handlers env 0 s.enqueued =
      drainedFrom s.handlers env (0 + s.performed.length) waiting := by
    rw [enqueued, drainedFrom_append, none, List.nil_append]
  have left : afterDrain s.handlers env 0 s.enqueued =
      s.performed ++ (drainedFrom s.handlers env 0 s.enqueued).map Drained.record := by
    rw [drained, ← changed, enqueued, afterDrain_append, kept]
  have result := drainLoop_eq s.handlers env [] s.enqueued s.performed 0
  rw [List.length_nil, List.nil_append, left, drained, performed, ← drained] at result
  simp only [FakeStore.drain, result, and_self]

theorem drain_enqueued (s : FakeStore W) (env : Nat → W) :
    (s.drain env).2.enqueued = afterDrain s.handlers env 0 s.enqueued := by
  have result := drainLoop_eq s.handlers env [] s.enqueued s.performed 0
  simp only [FakeStore.drain, result, List.nil_append, List.length_nil]

theorem drain_count (s : FakeStore W) (env : Nat → W) :
    (s.drain env).1 = s.enqueued.countP isAvailable := by
  have result := drainLoop_eq s.handlers env [] s.enqueued s.performed 0
  simp only [FakeStore.drain, result, Nat.zero_add]

theorem Kept.drain (kept : Kept overflowChecks r) (env : Nat → W) :
    Kept overflowChecks { r with
      store := (r.store.drain env).2
      drained := r.drained ++ drainedFrom r.store.handlers env 0 r.store.enqueued } := by
  obtain ⟨waiting, enqueued, done, fresh⟩ := kept.processed
  obtain ⟨cleared, jobs⟩ := kept.jobs
  obtain ⟨performed, all⟩ := drain_store env enqueued done fresh
  have records : (r.store.drain env).2.performed =
      (r.drained ++ drainedFrom r.store.handlers env 0 r.store.enqueued).map Drained.record := by
    rw [performed, List.map_append, ← kept.performed]
  have states : ∀ job ∈ (r.store.drain env).2.performed,
      isAvailable job = false ∧ job.state ≠ "active" := by
    intro job member
    rw [records] at member
    obtain ⟨d, _, rfl⟩ := List.mem_map.mp member
    exact d.record_processed
  exact
    { issued := kept.issued
      counter := kept.counter
      below := kept.below
      jobs := ⟨cleared, by rw [drain_enqueued, afterDrain_ids, jobs]⟩
      notActive := fun job member => (states job (all ▸ member)).2
      processed := ⟨[], by rw [all, List.append_nil], fun job member => (states job member).1,
        fun _ member => absurd member List.not_mem_nil⟩
      performed := records }

theorem Kept.clearAll (kept : Kept overflowChecks r) :
    Kept overflowChecks { r with store := r.store.clearAll, drained := [] } where
  issued := kept.issued
  counter := kept.counter
  below := kept.below
  jobs := ⟨r.issued, (List.append_nil _).symm⟩
  notActive _ member := absurd member List.not_mem_nil
  processed := ⟨[], rfl, fun _ member => absurd member List.not_mem_nil,
    fun _ member => absurd member List.not_mem_nil⟩
  performed := rfl

theorem Kept.step (kept : Kept overflowChecks r) {call : FakeCall W} {r' : FakeRun W}
    (h : step overflowChecks r call = some r') : Kept overflowChecks r' := by
  cases call with
  | recordEnqueue jobType args queue metadata now =>
    obtain ⟨⟨job, store⟩, recorded, rfl⟩ := Option.map_eq_some_iff.mp h
    exact kept.recordEnqueue recorded
  | registerHandler jobType handler =>
    cases h
    exact { kept with }
  | drain env =>
    cases h
    exact kept.drain env
  | clearAll =>
    cases h
    exact kept.clearAll

theorem Kept.sound (kept : Kept overflowChecks r)
    (few : overflowChecks = true ∨ r.issued.length ≤ 2 ^ 64) : r.Sound where
  ids := by
    rw [kept.issued]
    refine idsUpTo_nodup ?_
    rcases few with checks | few
    · exact Nat.le_of_lt (kept.below checks)
    · exact few
  jobs := kept.jobs
  notActive := kept.notActive
  processed := kept.processed
  performed := kept.performed
  drains := drain_count r.store

/-- Between any two calls a fake store is sound, until its counter has gone round once. -/
theorem fake_store_sound {past : List (FakeRun W × FakeCall W)}
    (run : Run (step overflowChecks) start past r)
    (few : overflowChecks = true ∨ r.issued.length ≤ 2 ^ 64) : r.Sound :=
  (run.invariant (kept_start overflowChecks) (fun _ _ _ _ _ kept h => kept.step h)).sound few

/-- One job that is refused, one that nobody handles. -/
def mixedCalls : List (FakeCall Unit) :=
  [.registerHandler "test.fail" (fun _ _ => .error "forced failure"),
    .recordEnqueue "test.fail" [] none none "2025-01-01T00:00:00+00:00",
    .recordEnqueue "email.send" [] none none "2025-01-01T00:00:01+00:00",
    .drain (fun _ => ())]

theorem mixedCalls_sound :
    ∃ past r, exec (step false) [] start mixedCalls = some (past, r) ∧ r.Sound ∧
      r.store.performed.map FakeJob.state = ["discarded", "completed"] := by
  have ran : exec (step false) [] start mixedCalls = some (_, _) := rfl
  have few : 2 ≤ 2 ^ 64 := by omega
  exact ⟨_, _, ran, fake_store_sound (Run.start.exec ran) (.inr few), rfl⟩

theorem not_nodup_idsUpTo {k : Nat} (many : 2 ^ 64 < k) : ¬(idsUpTo k).Nodup := by
  intro nodup
  have counter : UInt64.ofNat (0 + 1) = UInt64.ofNat (2 ^ 64 + 1) := by
    refine UInt64.toNat_inj.mp ?_
    rw [UInt64.toNat_ofNat', UInt64.toNat_ofNat']
    omega
  have first : 0 ∈ List.range k := List.mem_range.mpr (by omega)
  have last : 2 ^ 64 ∈ List.range k := List.mem_range.mpr many
  have same := List.inj_on_of_nodup_map nodup first last (congrArg fakeId counter)
  omega

theorem exists_run_issued (k : Nat) :
    ∃ past r, Run (step false) (start : FakeRun Unit) past r ∧ r.issued.length = k := by
  induction k with
  | zero => exact ⟨[], start, .start, rfl⟩
  | succ k ih =>
    obtain ⟨past, r, run, length⟩ := ih
    obtain ⟨job, store, recorded⟩ : ∃ job store,
        r.store.recordEnqueue false "email.send" [] none none "" = some (job, store) :=
      ⟨_, _, if_neg (by simp)⟩
    have next : step false r (.recordEnqueue "email.send" [] none none "") =
        some { r with store, issued := r.issued ++ [job.id] } := by
      rw [step, recorded]
      rfl
    exact ⟨_, _, run.next next, by rw [List.length_append, length, List.length_singleton]⟩

/-- Where overflow is not checked, the ids start over. -/
theorem ids_start_over :
    ¬∀ (overflowChecks : Bool) (past : List (FakeRun Unit × FakeCall Unit)) (r : FakeRun Unit),
      Run (step overflowChecks) start past r → r.Sound := by
  intro claim
  obtain ⟨past, r, run, length⟩ := exists_run_issued (2 ^ 64 + 1)
  have kept : Kept false r :=
    run.invariant (kept_start false) (fun _ _ _ _ _ kept h => kept.step h)
  have nodup := (claim false past r run).ids
  rw [kept.issued, length] at nodup
  exact not_nodup_idsUpTo (Nat.lt_succ_self _) nodup

end FakeRun

end OjsSdk
