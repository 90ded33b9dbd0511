import OjsSdk.LambdaRetries
import OjsSdk.Population
import OjsSdk.StepSystem
import Mathlib.Data.List.Basic
import Mathlib.Order.Monotone.Basic

namespace OjsSdk

open StepSystem

variable {W : Type}

inductive LambdaRequest
  | sqs (event : SqsEvent)
  | push (request : PushDeliveryRequest)
  | rawPush (body : String)
  | direct (event : JobEvent)

inductive LambdaResponse
  | batch (result : Except ServerlessError SqsBatchResponse)
  | pushed (response : PushDeliveryResponse)
  | rawPushed (result : Except ServerlessError PushDeliveryResponse)
  | direct (response : DirectResponse)

/-- The entry points, called on a handler that nobody else uses. The world in which record `i` of
a batch is processed is `env i`. -/
def LambdaHandler.answer (l : LambdaHandler W) (json : LambdaJson) (errorText : String → String)
    (env : Nat → W) : LambdaRequest → LambdaResponse
  | .sqs event => .batch (l.handleSqs json env event)
  | .push request => .pushed (l.handleHttp (env 0) request)
  | .rawPush body => .rawPushed (l.handleHttpRaw json errorText (env 0) body)
  | .direct event => .direct (l.handleDirect (env 0) event)

/-- What is left to do of an invocation when the job at hand has been processed. -/
inductive Continuation
  | batch (record : SqsMessage) (rest : List SqsMessage) (failures : List BatchItemFailure)
  | push
  | rawPush
  | direct (jobId : String)

/-- Where an invocation stands: it waits for the lock on the table, or it has dropped the lock and
runs what it found. -/
inductive InvocationStage (W : Type)
  | locking (job : JobEvent) (next : Continuation)
  | calling (handler : ServerlessHandler W) (job : JobEvent) (next : Continuation)
  | finished (response : LambdaResponse)

section

variable (json : LambdaJson) (errorText : String → String)

/-- The loop of a batch, as far as the next job. -/
def nextRecord : List SqsMessage → List BatchItemFailure → InvocationStage W
  | [], failures => .finished (.batch (.ok { batchItemFailures := failures }))
  | record :: rest, failures =>
    match json.jobEvent record.body with
    | none => nextRecord rest (failures ++ [{ itemIdentifier := record.messageId }])
    | some job => .locking job (.batch record rest failures)

def pushResponse : Except ServerlessError Unit → PushDeliveryResponse
  | .ok () => { status := "completed", result := none, error := none }
  | .error e =>
    { status := "failed"
      result := none
      error := some
        { code := "handler_error", message := e.toText, retryable := !e.isNonRetryable } }

def directResponse (jobId : String) : Except ServerlessError Unit → DirectResponse
  | .ok () => { status := "completed", jobId, error := none }
  | .error e => { status := "failed", jobId, error := some e.toText }

def failuresAfter (record : SqsMessage) (failures : List BatchItemFailure) :
    Except ServerlessError Unit → List BatchItemFailure
  | .ok () => failures
  | .error _ => failures ++ [{ itemIdentifier := record.messageId }]

namespace Continuation

/-- Goes on with the result of the job. -/
def resume (result : Except ServerlessError Unit) : Continuation → InvocationStage W
  | batch record rest failures => nextRecord json rest (failuresAfter record failures result)
  | push => .finished (.pushed (pushResponse result))
  | rawPush => .finished (.rawPushed (.ok (pushResponse result)))
  | direct jobId => .finished (.direct (directResponse jobId result))

end Continuation

def firstStage : LambdaRequest → InvocationStage W
  | .sqs event => nextRecord json event.records []
  | .push request => .locking request.job .push
  | .rawPush body =>
    match json.pushDelivery body with
    | none => .finished (.rawPushed (.error (.deserialization (errorText body))))
    | some request => .locking request.job .rawPush
  | .direct event => .locking event (.direct event.id)

end

/-- An invocation, with the number of registrations before it began and before it last held the
lock, and the worlds in which its handlers were called. -/
structure Invocation (W : Type) where
  request : LambdaRequest
  stage : InvocationStage W
  since : Nat
  last : Nat
  worlds : List W

structure SharedLambda (W : Type) where
  handler : LambdaHandler W
  registered : List (String × ServerlessHandler W)
  invocations : List (Invocation W)

inductive SharedAction (W : Type)
  | registerAsync (jobType : String) (handler : ServerlessHandler W)
  | invoke (request : LambdaRequest)
  | lock (i : Nat)
  | complete (i : Nat) (w : W)

namespace SharedLambda

def start (handler : LambdaHandler W) : SharedLambda W where
  handler
  registered := []
  invocations := []

/-- The table after the first registrations. -/
def tableAt (base : LambdaHandler W) (registered : List (String × ServerlessHandler W))
    (version : Nat) : LambdaHandler W :=
  (registered.take version).foldl (fun l entry => l.register entry.1 entry.2) base

section

variable (json : LambdaJson) (errorText : String → String)

/-- The lookup of a job's handler, under the read lock. -/
def lookUp (l : LambdaHandler W) (job : JobEvent) (next : Continuation) : InvocationStage W :=
  match l.handlers job.jobType with
  | none => next.resume json (.error (.noHandler job.jobType))
  | some handler => .calling handler job next

def step (s : SharedLambda W) : SharedAction W → Option (SharedLambda W)
  | .registerAsync jobType handler =>
    some { s with
      handler := s.handler.register jobType handler
      registered := s.registered ++ [(jobType, handler)] }
  | .invoke request =>
    some { s with
      invocations := s.invocations ++
        [{ request, stage := firstStage json errorText request
           since := s.registered.length, last := s.registered.length, worlds := [] }] }
  | .lock i =>
    match s.invocations[i]? with
    | some { request, stage := .locking job next, since, last := _, worlds } =>
      some { s with
        invocations := s.invocations.set i
          { request, stage := lookUp json s.handler job next, since
            last := s.registered.length, worlds } }
    | _ => none
  | .complete i w =>
    match s.invocations[i]? with
    | some { request, stage := .calling handler job next, since, last, worlds } =>
      some { s with
        invocations := s.invocations.set i
          { request
            stage := next.resume json (handler { ojsUrl := s.handler.ojsUrl } job w)
            since, last, worlds := worlds ++ [w] } }
    | _ => none

end

end SharedLambda

/-- Processes each job by the handler that comes with the world. -/
def LambdaHandler.lateBound : LambdaHandler (LambdaHandler W × W) where
  handlers _ := some (fun _ job surroundings => surroundings.1.processJob surroundings.2 job)
  ojsUrl := none

section

variable {json : LambdaJson} {errorText : String → String} {base : LambdaHandler W}
  {registered : List (String × ServerlessHandler W)} {env : Nat → LambdaHandler W × W} {n : Nat}

theorem LambdaHandler.handleHttp_eq (l : LambdaHandler W) (w : W) (request : PushDeliveryRequest) :
    l.handleHttp w request = pushResponse (l.processJob w request.job) := by
  unfold handleHttp
  cases l.processJob w request.job <;> rfl

theorem LambdaHandler.handleDirect_eq (l : LambdaHandler W) (w : W) (event : JobEvent) :
    l.handleDirect w event = directResponse event.id (l.processJob w event) := by
  unfold handleDirect
  cases l.processJob w event <;> rfl

/-- One turn of the loop, at a record that can be read. -/
theorem LambdaHandler.sqsLoop_cons (l : LambdaHandler W) {env : Nat → W} {record : SqsMessage}
    {job : JobEvent} (decoded : json.jobEvent record.body = some job)
    (rest : List SqsMessage) (failures : List BatchItemFailure) :
    l.sqsLoop json env n (record :: rest) failures = l.sqsLoop json env (n + 1) rest
      (failuresAfter record failures (l.processJob (env n) job)) := by
  simp only [sqsLoop, decoded]
  cases l.processJob (env n) job <;> rfl

/-- The response that is due when job `n` ends with this result. -/
def Continuation.finish (json : LambdaJson) (env : Nat → LambdaHandler W × W) (n : Nat)
    (result : Except ServerlessError Unit) : Continuation → LambdaResponse
  | batch record rest failures =>
    .batch (.ok
      { batchItemFailures :=
          LambdaHandler.lateBound.sqsLoop json env (n + 1) rest
            (failuresAfter record failures result) })
  | push => .pushed (pushResponse result)
  | rawPush => .rawPushed (.ok (pushResponse result))
  | direct jobId => .direct (directResponse jobId result)

/-- The response that is due at a stage before job `n`. -/
def InvocationStage.due (json : LambdaJson) (env : Nat → LambdaHandler W × W) (n : Nat) :
    InvocationStage W → LambdaResponse
  | locking job next | calling _ job next =>
    next.finish json env n ((env n).1.processJob (env n).2 job)
  | finished response => response

theorem nextRecord_due (json : LambdaJson) (n : Nat) (records : List SqsMessage)
    (failures : List BatchItemFailure) : ∃ m, n ≤ m ∧ ∀ env : Nat → LambdaHandler W × W,
      .batch (.ok
        { batchItemFailures := LambdaHandler.lateBound.sqsLoop json env n records failures }) =
      (nextRecord json records failures).due json env m := by
  induction records generalizing n failures with
  | nil => exact ⟨n, Nat.le_refl n, fun _ => rfl⟩
  | cons record rest ih =>
    cases decoded : json.jobEvent record.body with
    | none =>
      obtain ⟨m, le, later⟩ := ih (n + 1) (failures ++ [{ itemIdentifier := record.messageId }])
      refine ⟨m, by omega, fun env => ?_⟩
      simp only [LambdaHandler.sqsLoop, nextRecord, decoded]
      exact later env
    | some job =>
      refine ⟨n, Nat.le_refl n, fun env => ?_⟩
      rw [LambdaHandler.sqsLoop_cons _ decoded]
      simp only [nextRecord, decoded]
      rfl

theorem Continuation.resume_due (json : LambdaJson) (n : Nat) (next : Continuation)
    (result : Except ServerlessError Unit) : ∃ m, n < m ∧ ∀ env : Nat → LambdaHandler W × W,
      next.finish json env n result = (next.resume json result).due json env m := by
  cases next with
  | batch record rest failures =>
    exact nextRecord_due json (n + 1) rest (failuresAfter record failures result)
  | _ => exact ⟨n + 1, Nat.lt_succ_self n, fun _ => rfl⟩

theorem firstStage_due (json : LambdaJson) (errorText : String → String) (request : LambdaRequest) :
    ∃ m, ∀ env : Nat → LambdaHandler W × W,
      LambdaHandler.lateBound.answer json errorText env request =
        (firstStage json errorText request).due json env m := by
  cases request with
  | sqs event =>
    obtain ⟨m, -, due⟩ := nextRecord_due (W := W) json 0 event.records []
    exact ⟨m, due⟩
  | push request =>
    refine ⟨0, fun env => ?_⟩
    rw [LambdaHandler.answer, LambdaHandler.handleHttp_eq]
    rfl
  | rawPush body =>
    refine ⟨0, fun env => ?_⟩
    cases decoded : json.pushDelivery body with
    | none =>
      simp only [LambdaHandler.answer, LambdaHandler.handleHttpRaw, firstStage, decoded]
      rfl
    | some request =>
      simp only [LambdaHandler.answer, LambdaHandler.handleHttpRaw, firstStage, decoded,
        LambdaHandler.handleHttp_eq]
      rfl
  | direct event =>
    refine ⟨0, fun env => ?_⟩
    rw [LambdaHandler.answer, LambdaHandler.handleDirect_eq]
    rfl

theorem nextRecord_ne_calling {handler : ServerlessHandler W} {job : JobEvent} {next : Continuation}
    (records : List SqsMessage) (failures : List BatchItemFailure) :
    nextRecord json records failures ≠ .calling handler job next := by
  induction records generalizing failures with
  | nil => exact fun same => by cases same
  | cons record rest ih =>
    unfold nextRecord
    split
    · exact ih _
    · exact fun same => by cases same

theorem Continuation.resume_ne_calling {handler : ServerlessHandler W} {job : JobEvent}
    {other : Continuation} (next : Continuation) (result : Except ServerlessError Unit) :
    next.resume json result ≠ .calling handler job other := by
  cases next with
  | batch record rest failures => exact nextRecord_ne_calling _ _
  | _ => exact fun same => by cases same

theorem firstStage_ne_calling {handler : ServerlessHandler W} {job : JobEvent}
    {next : Continuation} (request : LambdaRequest) :
    firstStage json errorText request ≠ .calling handler job next := by
  intro same
  cases request with
  | sqs event => exact nextRecord_ne_calling _ _ same
  | rawPush body =>
    simp only [firstStage] at same
    split at same <;> cases same
  | push request => cases same
  | direct event => cases same

end

namespace SharedLambda

section

variable {base : LambdaHandler W} {registered : List (String × ServerlessHandler W)}

theorem tableAt_concat {version : Nat} (le : version ≤ registered.length)
    (entry : String × ServerlessHandler W) :
    tableAt base (registered ++ [entry]) version = tableAt base registered version := by
  unfold tableAt
  rw [List.take_append_of_le_length le]

theorem tableAt_length_concat (entry : String × ServerlessHandler W) :
    tableAt base (registered ++ [entry]) (registered ++ [entry]).length =
      (tableAt base registered registered.length).register entry.1 entry.2 := by
  unfold tableAt
  rw [List.take_length, List.take_length, List.foldl_append]
  rfl

theorem ojsUrl_foldl (l : LambdaHandler W) (entries : List (String × ServerlessHandler W)) :
    (entries.foldl (fun l entry => l.register entry.1 entry.2) l).ojsUrl = l.ojsUrl := by
  induction entries generalizing l with
  | nil => rfl
  | cons entry entries ih => exact ih _

theorem handlers_foldl_isSome {l : LambdaHandler W} {jobType : String}
    (entries : List (String × ServerlessHandler W))
    (known : (l.handlers jobType).isSome ∨ jobType ∈ entries.map Prod.fst) :
    ((entries.foldl (fun l entry => l.register entry.1 entry.2) l).handlers jobType).isSome := by
  induction entries generalizing l with
  | nil => simpa using known
  | cons entry entries ih =>
    refine ih ?_
    by_cases same : jobType = entry.1
    · left
      simp [LambdaHandler.register, same]
    · rw [List.map_cons, List.mem_cons, or_iff_right same] at known
      simpa [LambdaHandler.register, same] using known

/-- What has been registered is not forgotten, only replaced. -/
theorem handlers_tableAt_isSome {jobType : String} {version later : Nat} (le : version ≤ later)
    (known : (base.handlers jobType).isSome ∨
      jobType ∈ (registered.take version).map Prod.fst) :
    ((tableAt base registered later).handlers jobType).isSome :=
  handlers_foldl_isSome _ <| known.imp_right fun mem =>
    ((List.take_prefix_take_left le).sublist.map Prod.fst).subset mem

end

/-- The jobs before job `n` have been processed by these versions of the table. The handlers were
called for the jobs at these positions. -/
structure Explained (json : LambdaJson) (errorText : String → String) (base : LambdaHandler W)
    (registered : List (String × ServerlessHandler W)) (inv : Invocation W) (n : Nat)
    (versions : Nat → Nat) (positions : List Nat) : Prop where
  monotone : Monotone versions
  since : inv.since ≤ versions 0
  last : ∀ k, n ≤ k → versions k = inv.last
  known : inv.last ≤ registered.length
  found : ∀ handler job next, inv.stage = .calling handler job next →
    (tableAt base registered inv.last).handlers job.jobType = some handler
  ordered : positions.Pairwise (· < ·)
  below : ∀ k ∈ positions, k < n
  counted : positions.length = inv.worlds.length
  due : ∀ env, (∀ k < n, (env k).1 = tableAt base registered (versions k)) →
    positions.map (fun k => (env k).2) = inv.worlds →
    LambdaHandler.lateBound.answer json errorText env inv.request = inv.stage.due json env n

section

variable {json : LambdaJson} {errorText : String → String} {base : LambdaHandler W}
  {registered : List (String × ServerlessHandler W)} {inv : Invocation W} {n : Nat}
  {versions : Nat → Nat} {positions : List Nat}

theorem Explained.le_last (explained : Explained json errorText base registered inv n versions
    positions) (k : Nat) : versions k ≤ inv.last := by
  have far := explained.last (max n k) (Nat.le_max_left n k)
  have le := explained.monotone (Nat.le_max_right n k)
  omega

theorem Explained.concat (entry : String × ServerlessHandler W)
    (explained : Explained json errorText base registered inv n versions positions) :
    Explained json errorText base (registered ++ [entry]) inv n versions positions where
  monotone := explained.monotone
  since := explained.since
  last := explained.last
  known := by
    have known := explained.known
    simp only [List.length_append, List.length_singleton]
    omega
  found := by
    intro handler job next calling
    rw [tableAt_concat explained.known]
    exact explained.found handler job next calling
  ordered := explained.ordered
  below := explained.below
  counted := explained.counted
  due := by
    intro env tables
    refine explained.due env (fun k lt => ?_)
    have le : versions k ≤ registered.length := Nat.le_trans (explained.le_last k) explained.known
    rw [tables k lt, tableAt_concat le]

/-- From job `n` on another version of the table is used. -/
def switchAt (n : Nat) (versions : Nat → Nat) (version k : Nat) : Nat :=
  if k < n then versions k else version

theorem switchAt_monotone {version : Nat} (monotone : Monotone versions)
    (below : ∀ k, versions k ≤ version) : Monotone (switchAt n versions version) := by
  intro k l le
  have step := monotone le
  have small := below k
  unfold switchAt
  split <;> split <;> omega

/-- The job at hand is processed by a version of the table that is not older than the last one. Its
result depends on the worlds that the run records. -/
theorem Explained.advance {job : JobEvent} {next : Continuation} {version : Nat}
    {later : List Nat} {worlds : List W} {result : Except ServerlessError Unit}
    (explained : Explained json errorText base registered inv n versions positions)
    (owed : ∀ env, inv.stage.due json env n =
      next.finish json env n ((env n).1.processJob (env n).2 job))
    (newer : inv.last ≤ version) (within : version ≤ registered.length)
    (ordered : later.Pairwise (· < ·)) (reached : ∀ k ∈ later, k ≤ n)
    (counted : later.length = worlds.length)
    (determined : ∀ world : Nat → W, later.map world = worlds → positions.map world = inv.worlds ∧
      (tableAt base registered version).processJob (world n) job = result) :
    ∃ m versions', Explained json errorText base registered
      { inv with stage := next.resume json result, last := version, worlds } m versions' later := by
  obtain ⟨m, less, resumed⟩ := next.resume_due json n result
  have below : ∀ k, versions k ≤ version := fun k => Nat.le_trans (explained.le_last k) newer
  refine ⟨m, switchAt n versions version, switchAt_monotone explained.monotone below, ?_, ?_,
    within, ?_, ordered, fun k mem => Nat.lt_of_le_of_lt (reached k mem) less, counted, ?_⟩
  · have since := explained.since
    have first := below 0
    show inv.since ≤ switchAt n versions version 0
    unfold switchAt
    split <;> omega
  · intro k le
    have beyond : ¬k < n := by omega
    exact if_neg beyond
  · intro handler job' next' calling
    exact absurd calling (Continuation.resume_ne_calling next _)
  · intro env tables recorded
    have before : ∀ k < n, (env k).1 = tableAt base registered (versions k) := by
      intro k lt
      have here := tables k (Nat.lt_trans lt less)
      rwa [switchAt, if_pos lt] at here
    have here : (env n).1 = tableAt base registered version := by
      have here := tables n less
      rwa [switchAt, if_neg (Nat.lt_irrefl n)] at here
    obtain ⟨old, same⟩ := determined (fun k => (env k).2) recorded
    show LambdaHandler.lateBound.answer json errorText env inv.request = _
    rw [explained.due env before old, owed, here, same]
    exact resumed env

/-- A lookup that finds a handler only remembers it. -/
theorem Explained.remember {job : JobEvent} {next : Continuation} {version : Nat}
    {handler : ServerlessHandler W}
    (explained : Explained json errorText base registered inv n versions positions)
    (locking : inv.stage = .locking job next)
    (found : (tableAt base registered version).handlers job.jobType = some handler)
    (newer : inv.last ≤ version) (within : version ≤ registered.length) :
    Explained json errorText base registered
      { inv with stage := .calling handler job next, last := version } n
      (switchAt n versions version) positions := by
  have below : ∀ k, versions k ≤ version := fun k => Nat.le_trans (explained.le_last k) newer
  refine ⟨switchAt_monotone explained.monotone below, ?_, ?_, within, ?_, explained.ordered,
    explained.below, explained.counted, ?_⟩
  · have since := explained.since
    have first := below 0
    show inv.since ≤ switchAt n versions version 0
    unfold switchAt
    split <;> omega
  · intro k le
    have beyond : ¬k < n := by omega
    exact if_neg beyond
  · intro handler' job' next' calling
    cases calling
    exact found
  · intro env tables recorded
    have before : ∀ k < n, (env k).1 = tableAt base registered (versions k) := by
      intro k lt
      have here := tables k lt
      rwa [switchAt, if_pos lt] at here
    have due := explained.due env before recorded
    rw [locking] at due
    exact due

theorem exists_explained_first (request : LambdaRequest) :
    ∃ n versions positions, Explained json errorText base registered
      { request
        stage := firstStage json errorText request
        since := registered.length
        last := registered.length
        worlds := [] } n versions positions := by
  obtain ⟨m, due⟩ := firstStage_due (W := W) json errorText request
  refine ⟨m, fun _ => registered.length, [], monotone_const, Nat.le_refl _, fun _ _ => rfl,
    Nat.le_refl _, ?_, List.Pairwise.nil, by simp, rfl, fun env _ _ => due env⟩
  intro handler job next calling
  exact absurd calling (firstStage_ne_calling request)

structure Sound (json : LambdaJson) (errorText : String → String) (base : LambdaHandler W)
    (s : SharedLambda W) : Prop where
  table : s.handler = tableAt base s.registered s.registered.length
  explained : ∀ inv ∈ s.invocations, ∃ n versions positions,
    Explained json errorText base s.registered inv n versions positions

theorem Sound.step {s s' : SharedLambda W} {a : SharedAction W}
    (sound : s.Sound json errorText base) (h : step json errorText s a = some s') :
    s'.Sound json errorText base := by
  cases a with
  | registerAsync jobType handler =>
    cases h
    refine ⟨?_, ?_⟩
    · rw [tableAt_length_concat, ← sound.table]
    · intro inv member
      obtain ⟨n, versions, positions, explained⟩ := sound.explained inv member
      exact ⟨n, versions, positions, explained.concat _⟩
  | invoke request =>
    cases h
    refine ⟨sound.table, ?_⟩
    intro inv member
    rcases List.mem_append.mp member with old | new
    · exact sound.explained inv old
    · obtain rfl := List.mem_singleton.mp new
      exact exists_explained_first request
  | lock i =>
    simp only [SharedLambda.step] at h
    split at h
    next request job next since last worlds found =>
      cases h
      refine ⟨sound.table, Population.forall_set sound.explained ?_⟩
      obtain ⟨n, versions, positions, explained⟩ :=
        sound.explained _ (List.mem_of_getElem? found)
      have here := sound.table
      cases handler : s.handler.handlers job.jobType with
      | none =>
        have missing : ∀ w, (tableAt base s.registered s.registered.length).processJob w job =
            .error (.noHandler job.jobType) := by
          intro w
          rw [← here, LambdaHandler.processJob, handler]
        rw [lookUp, handler]
        obtain ⟨m, versions', advanced⟩ := explained.advance (fun _ => rfl) explained.known
          (Nat.le_refl _) explained.ordered (fun k mem => Nat.le_of_lt (explained.below k mem))
          explained.counted (fun world same => ⟨same, missing (world n)⟩)
        exact ⟨m, versions', positions, advanced⟩
      | some handler' =>
        rw [lookUp, handler]
        rw [here] at handler
        exact ⟨n, _, positions, explained.remember rfl handler explained.known (Nat.le_refl _)⟩
    next => cases h
  | complete i w =>
    simp only [SharedLambda.step] at h
    split at h
    next request handler job next since last worlds found =>
      cases h
      refine ⟨sound.table, Population.forall_set sound.explained ?_⟩
      obtain ⟨n, versions, positions, explained⟩ :=
        sound.explained _ (List.mem_of_getElem? found)
      have known := explained.found handler job next rfl
      have url : (tableAt base s.registered last).ojsUrl = s.handler.ojsUrl := by
        rw [sound.table]
        exact (ojsUrl_foldl base _).trans (ojsUrl_foldl base _).symm
      have result : (tableAt base s.registered last).processJob w job =
          handler { ojsUrl := s.handler.ojsUrl } job w := by
        rw [LambdaHandler.processJob, known, url]
      have ordered : (positions ++ [n]).Pairwise (· < ·) :=
        List.pairwise_append.mpr ⟨explained.ordered, List.pairwise_singleton _ n,
          fun k mem _ last => List.mem_singleton.mp last ▸ explained.below k mem⟩
      have reached : ∀ k ∈ positions ++ [n], k ≤ n := fun k mem =>
        (List.mem_append.mp mem).elim (fun old => Nat.le_of_lt (explained.below k old))
          (fun last => Nat.le_of_eq (List.mem_singleton.mp last))
      have counted : (positions ++ [n]).length = (worlds ++ [w]).length := by
        rw [List.length_append, List.length_append, explained.counted]
        rfl
      -- The world that is recorded last is that of the job at hand.
      have determined : ∀ world : Nat → W, (positions ++ [n]).map world = worlds ++ [w] →
          positions.map world = worlds ∧ (tableAt base s.registered last).processJob (world n) job =
            handler { ojsUrl := s.handler.ojsUrl } job w := by
        intro world same
        rw [List.map_append] at same
        obtain ⟨old, new⟩ := List.append_inj' same rfl
        have here : world n = w := List.singleton_inj.mp new
        rw [here]
        exact ⟨old, result⟩
      obtain ⟨m, versions', advanced⟩ := explained.advance (fun _ => rfl) (Nat.le_refl _)
        explained.known ordered reached counted determined
      exact ⟨m, versions', _, advanced⟩
    next => cases h

/-- However invocations and registrations overlap, a finished invocation answers as it would have
alone: with each of its jobs processed by the table as it was at one moment of the invocation, in
order, in the worlds of the run, and no job type missing that was registered before it. -/
theorem answered_alone {past : List (SharedLambda W × SharedAction W)}
    {s : SharedLambda W} (run : Run (step json errorText) (start base) past s)
    (member : inv ∈ s.invocations) {response : LambdaResponse}
    (finished : inv.stage = .finished response) :
    ∃ (versions : Nat → Nat) (positions : List Nat), Monotone versions ∧
      (∀ k, inv.since ≤ versions k ∧ versions k ≤ inv.last) ∧
      (∀ k jobType, (base.handlers jobType).isSome ∨
          jobType ∈ (s.registered.take inv.since).map Prod.fst →
        ((tableAt base s.registered (versions k)).handlers jobType).isSome) ∧
      positions.Pairwise (· < ·) ∧ positions.length = inv.worlds.length ∧
      ∀ worlds : Nat → W, positions.map worlds = inv.worlds →
        response = LambdaHandler.lateBound.answer json errorText
          (fun k => (tableAt base s.registered (versions k), worlds k)) inv.request := by
  have empty : (start base).Sound json errorText base :=
    ⟨rfl, fun inv member => (List.not_mem_nil member).elim⟩
  have sound : s.Sound json errorText base :=
    run.invariant empty (fun _ _ _ _ _ sound h => sound.step h)
  obtain ⟨n, versions, positions, explained⟩ := sound.explained inv member
  have since : ∀ k, inv.since ≤ versions k := fun k =>
    Nat.le_trans explained.since (explained.monotone (Nat.zero_le k))
  refine ⟨versions, positions, explained.monotone, fun k => ⟨since k, explained.le_last k⟩,
    fun k jobType known => handlers_tableAt_isSome (since k) known, explained.ordered,
    explained.counted, fun worlds recorded => ?_⟩
  rw [explained.due _ (fun _ _ => rfl) recorded, finished]
  rfl

end

end SharedLambda

def twoMails : LambdaRequest :=
  .sqs
    { records :=
        [{ messageId := "m-1", body := mailBody }, { messageId := "m-2", body := mailBody }] }

/-- The handler of the mails is registered while their batch is processed. -/
def lateMail : List (SharedAction Unit) :=
  [.invoke twoMails, .lock 0, .registerAsync "email.send" (fun _ _ _ => .ok ()), .lock 0,
    .complete 0 ()]

theorem lateMail_answered : ∃ past s, ∃ inv : Invocation Unit,
    Run (SharedLambda.step mailJson id) (.start .new) past s ∧ inv ∈ s.invocations ∧
      inv.stage = .finished (.batch (.ok { batchItemFailures := [{ itemIdentifier := "m-1" }] })) ∧
      inv.worlds = [()] ∧
      ∃ (versions : Nat → Nat) (positions : List Nat), Monotone versions ∧
        (∀ k, inv.since ≤ versions k ∧ versions k ≤ inv.last) ∧
        positions.length = 1 ∧
        ∀ worlds : Nat → Unit, positions.map worlds = [()] →
          .batch (.ok { batchItemFailures := [{ itemIdentifier := "m-1" }] }) =
            LambdaHandler.lateBound.answer mailJson id
              (fun k => (SharedLambda.tableAt .new s.registered (versions k), worlds k))
              inv.request := by
  have ran : exec (SharedLambda.step mailJson id) [] (.start .new) lateMail = some (_, _) := rfl
  have run := Run.start.exec ran
  obtain ⟨versions, positions, monotone, bounds, -, -, count, answer⟩ :=
    SharedLambda.answered_alone run (List.mem_singleton.mpr rfl) rfl
  exact ⟨_, _, _, run, List.mem_singleton.mpr rfl, rfl, rfl, versions, positions, monotone, bounds,
    count, answer⟩

end OjsSdk
