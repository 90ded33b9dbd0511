import OjsSdk.EnqueuePaths

namespace OjsSdk

variable {debug : String → String} {chrono : Chrono} {clocks : Nat → Clock} {Reply : Type}

/-- The operations of the client that enqueue jobs. -/
inductive EnqueueCall
  | send (b : EnqueueBuilder)
  | batch (requests : List JobRequest)
  | workflow (d : WorkflowDefinition)

inductive EnqueueBody
  | job (request : EnqueueRequest)
  | batch (request : BatchEnqueueRequest)
  | workflow (request : WorkflowRequest)

def ClientCall.mapBody {Body Body' : Type} (f : Body → Body') (c : ClientCall Body Reply) :
    ClientCall Body' Reply where
  posted := c.posted.map (fun (path, body) => (path, f body))
  result := c.result

def EnqueueCall.run (debug : String → String) (chrono : Chrono) (clocks : Nat → Clock)
    (transport : Transport EnqueueBody) (decode : Decoder Reply) :
    EnqueueCall → ClientCall EnqueueBody Reply
  | .send b =>
    (b.send debug chrono (clocks 0) (fun path body => transport path (.job body)) decode).mapBody .job
  | .batch requests =>
    (enqueueBatch chrono clocks (fun path body => transport path (.batch body)) decode
      requests).mapBody .batch
  | .workflow d =>
    (createWorkflow chrono clocks (fun path body => transport path (.workflow body)) decode
      d).mapBody .workflow

def EnqueueRequest.queue (r : EnqueueRequest) : Option String :=
  r.options.bind EnqueueOptionsWire.queue

def WorkflowStepWire.queue (w : WorkflowStepWire) : Option String :=
  w.options.bind EnqueueOptionsWire.queue

def EnqueueBody.jobTypes : EnqueueBody → List String
  | .job r => [r.jobType]
  | .batch r => r.jobs.map EnqueueRequest.jobType
  | .workflow r => r.steps.map WorkflowStepWire.jobType

/-- The queues that the options in a body name. -/
def EnqueueBody.queues : EnqueueBody → List String
  | .job r => r.queue.toList
  | .batch r => r.jobs.filterMap EnqueueRequest.queue
  | .workflow r =>
    r.steps.filterMap WorkflowStepWire.queue ++ (r.options.bind EnqueueOptionsWire.queue).toList

/-- The two validations accept all these names. -/
structure NamesValid (debug : String → String) (jobTypes queues : List String) : Prop where
  jobTypes : ∀ t ∈ jobTypes, validateJobType debug t = .ok ()
  queues : ∀ q ∈ queues, validateQueueName debug q = .ok ()

/-- What is handed to the transport carries valid names only, and a call that hands over
nothing returns a builder error. -/
def ClientCall.Guarded (debug : String → String) (c : ClientCall EnqueueBody Reply) : Prop :=
  match c.posted with
  | some (_, body) => NamesValid debug body.jobTypes body.queues
  | none => ∃ message, c.result = .error (.error (.builder message))

/-- Only `EnqueueBuilder::send` runs the validations. -/
def EnqueueCall.validates : EnqueueCall → Bool
  | .send _ => true
  | _ => false

def EnqueueCall.jobTypes : EnqueueCall → List String
  | .send b => [b.jobType]
  | .batch requests => requests.map JobRequest.jobType
  | .workflow d => d.emitted.map Step.jobType

/-- The queues that a call is about: all those of a single send, and elsewhere the last
one of each list of options. -/
def EnqueueCall.queues : EnqueueCall → List String
  | .send b => b.options.filterMap EnqueueOption.queueName
  | .batch requests => requests.filterMap (fun r => lastQueue r.options)
  | .workflow d => d.emitted.filterMap (fun step => lastQueue step.options) ++
      (lastQueue d.options).toList

def EnqueueCall.DelaysFit (chrono : Chrono) (clocks : Nat → Clock) : EnqueueCall → Prop
  | .send b => OjsSdk.DelaysFit chrono (clocks 0) b.options
  | .batch requests =>
    ∀ i r, requests[i]? = some r → OjsSdk.DelaysFit chrono (clocks i) r.options
  | .workflow d => d.DelaysFit chrono clocks

theorem builder_of_guard {failed : Prop} [Decidable failed] {message : String}
    {rest : Except OjsError Unit} {e : OjsError}
    (later : rest = .error e → ∃ message, e = .builder message)
    (h : (if failed then .error (.builder message) else rest) = .error e) :
    ∃ message, e = .builder message := by
  split at h
  next =>
    cases h
    exact ⟨message, rfl⟩
  next => exact later h

theorem validateJobType_error {t : String} {e : OjsError} (h : validateJobType debug t = .error e) :
    ∃ message, e = .builder message := by
  unfold validateJobType at h
  refine builder_of_guard (fun h => ?_) h
  refine builder_of_guard (fun h => ?_) h
  refine builder_of_guard (fun h => ?_) h
  cases h

theorem checkQueueBytes_error {queue : String} {bytes : List UInt8} {e : OjsError}
    (h : checkQueueBytes debug queue bytes = .error e) : ∃ message, e = .builder message := by
  induction bytes with
  | nil => cases h
  | cons b rest ih =>
    simp only [checkQueueBytes] at h
    refine builder_of_guard (fun h => ?_) h
    exact builder_of_guard ih h

theorem validateQueueName_error {q : String} {e : OjsError}
    (h : validateQueueName debug q = .error e) : ∃ message, e = .builder message := by
  simp only [validateQueueName] at h
  refine builder_of_guard (fun h => ?_) h
  refine builder_of_guard (fun h => ?_) h
  refine builder_of_guard (fun h => ?_) h
  exact builder_of_guard checkQueueBytes_error h

/-- `send` goes on exactly when the job type and every queue option are valid. -/
theorem EnqueueBuilder.validate_eq_ok_iff (b : EnqueueBuilder) :
    b.validate debug = .ok () ↔
      NamesValid debug [b.jobType] (b.options.filterMap EnqueueOption.queueName) := by
  have queues : forM b.options (checkQueueOption debug) = .ok () ↔
      ∀ q ∈ b.options.filterMap EnqueueOption.queueName, validateQueueName debug q = .ok () := by
    rw [Fallible.forM_eq_ok_iff, List.forall_mem_filterMap]
    refine forall₂_congr fun opt _ => ?_
    cases opt <;> simp [EnqueueOption.queueName, checkQueueOption]
  unfold validate
  cases ht : validateJobType debug b.jobType with
  | error e =>
    refine iff_of_false (by simp [bind, Except.bind]) (fun valid => ?_)
    have accepted := valid.jobTypes b.jobType (by simp)
    rw [ht] at accepted
    cases accepted
  | ok u =>
    refine queues.trans ⟨fun valid => ⟨?_, valid⟩, NamesValid.queues⟩
    intro t hmem
    obtain rfl : t = b.jobType := by simpa using hmem
    exact ht

theorem EnqueueBuilder.validate_error {b : EnqueueBuilder} {e : OjsError}
    (h : b.validate debug = .error e) : ∃ message, e = .builder message := by
  unfold validate at h
  cases ht : validateJobType debug b.jobType with
  | error e' =>
    simp only [ht, bind, Except.bind] at h
    cases h
    exact validateJobType_error ht
  | ok u =>
    simp only [ht, bind, Except.bind] at h
    obtain ⟨opt, _, ho⟩ := Fallible.exists_of_forM_eq_error h
    cases opt with
    | queue q => exact validateQueueName_error ho
    | _ => cases ho

theorem guarded_mapBody_posted {Body : Type} (f : Body → EnqueueBody) (transport : Transport Body)
    (decode : Decoder Reply) (path : String) (body : Body) :
    ((transportPost transport decode path body).mapBody f).Guarded debug ↔
      NamesValid debug (f body).jobTypes (f body).queues := Iff.rfl

theorem not_guarded_panicked {Body : Type} (f : Body → EnqueueBody) (panic : ChronoPanic) :
    ¬((.stopped (.panicked panic) : ClientCall Body Reply).mapBody f).Guarded debug := by
  rintro ⟨message, h⟩
  cases h

theorem send_guarded_iff (b : EnqueueBuilder) (clock : Clock)
    (transport : Transport EnqueueRequest) (decode : Decoder Reply) :
    ((b.send debug chrono clock transport decode).mapBody .job).Guarded debug ↔
      (NamesValid debug [b.jobType] (b.options.filterMap EnqueueOption.queueName) →
        DelaysFit chrono clock b.options) := by
  unfold EnqueueBuilder.send
  cases hv : b.validate debug with
  | error e =>
    have invalid : ¬NamesValid debug [b.jobType] (b.options.filterMap EnqueueOption.queueName) := by
      rw [← b.validate_eq_ok_iff, hv]
      simp
    obtain ⟨message, rfl⟩ := EnqueueBuilder.validate_error hv
    exact iff_of_true ⟨message, rfl⟩ (fun valid => absurd valid invalid)
  | ok u =>
    have valid := b.validate_eq_ok_iff.mp hv
    rw [← exists_resolveOptions_eq_ok_iff]
    cases hr : b.request chrono clock with
    | error panic =>
      refine iff_of_false (not_guarded_panicked _ panic) (fun fits => ?_)
      obtain ⟨options, ho⟩ := fits valid
      have built : b.request chrono clock = .ok ⟨b.jobType, normalizeArgs b.args,
          b.metadata.or (extractMeta b.options), b.schema, options⟩ :=
        EnqueueBuilder.request_eq_ok_iff.mpr ⟨rfl, rfl, rfl, rfl, ho⟩
      rw [hr] at built
      cases built
    | ok request =>
      obtain ⟨jobType, _, _, _, options⟩ := EnqueueBuilder.request_eq_ok_iff.mp hr
      refine iff_of_true ?_ (fun _ => ⟨_, options⟩)
      refine (guarded_mapBody_posted _ _ _ _ _).mpr ⟨?_, ?_⟩
      · simpa only [EnqueueBody.jobTypes, jobType] using valid.jobTypes
      · intro q hq
        have last : request.queue = lastQueue b.options := queue_resolveOptions options
        have asked : lastQueue b.options = some q := by
          rw [← last]
          simpa [EnqueueBody.queues] using hq
        exact valid.queues q (List.mem_of_getLast? asked)

theorem JobRequest.exists_request_iff (r : JobRequest) (clock : Clock) :
    (∃ job, r.request chrono clock = .ok job) ↔ DelaysFit chrono clock r.options := by
  rw [← exists_resolveOptions_eq_ok_iff]
  unfold request
  cases resolveOptions chrono clock r.options <;> simp [bind, Except.bind, pure, Except.pure]

theorem exists_batchRequests_iff (requests : List JobRequest) :
    (∃ jobs, batchRequests chrono clocks requests = .ok jobs) ↔
      ∀ i r, requests[i]? = some r → DelaysFit chrono (clocks i) r.options := by
  unfold batchRequests
  rw [Fallible.exists_mapM_eq_ok_iff]
  constructor
  · intro all i r hr
    exact (r.exists_request_iff (clocks i)).mp
      (all (r, i) (List.mk_mem_zipIdx_iff_getElem?.mpr hr))
  · intro fits e he
    exact (e.1.exists_request_iff (clocks e.2)).mpr
      (fits e.2 e.1 (List.mem_zipIdx_iff_getElem?.mp he))

theorem filterMap_eq_of_map_eq {α β γ : Type} {f : α → Option γ} {g : β → Option γ} {xs : List α}
    {ys : List β} (h : xs.map f = ys.map g) : xs.filterMap f = ys.filterMap g := by
  have same : (xs.map f).filterMap id = (ys.map g).filterMap id := by rw [h]
  simpa only [List.filterMap_map, Function.id_comp] using same

theorem batchRequests_names {requests : List JobRequest} {jobs : List EnqueueRequest}
    (h : batchRequests chrono clocks requests = .ok jobs) :
    jobs.map EnqueueRequest.jobType = requests.map JobRequest.jobType ∧
      jobs.filterMap EnqueueRequest.queue = requests.filterMap (fun r => lastQueue r.options) := by
  constructor
  · exact Fallible.map_of_mapM_zipIdx h (fun r i job hj => (JobRequest.request_eq_ok hj).1)
  · apply filterMap_eq_of_map_eq
    refine Fallible.map_of_mapM_zipIdx h (fun r i job hj => ?_)
    exact queue_resolveOptions (JobRequest.request_eq_ok hj).2.2.2

theorem toWire_names {d : WorkflowDefinition} {request : WorkflowRequest}
    (h : d.toWire chrono clocks = .ok request) :
    request.steps.map WorkflowStepWire.jobType = d.emitted.map Step.jobType ∧
      request.steps.filterMap WorkflowStepWire.queue =
        d.emitted.filterMap (fun step => lastQueue step.options) ∧
      request.options.bind EnqueueOptionsWire.queue = lastQueue d.options := by
  obtain ⟨_, hs, ho⟩ := WorkflowDefinition.toWire_eq_ok_iff.mp h
  refine ⟨?_, ?_, queue_resolveOptions ho⟩
  · rw [← d.planned_steps, List.map_map]
    refine Fallible.map_of_mapM_zipIdx hs (fun p k wire hw => ?_)
    exact (PlannedStep.toWire_eq_ok_iff.mp hw).2.1
  · rw [← d.planned_steps, List.filterMap_map]
    apply filterMap_eq_of_map_eq
    refine Fallible.map_of_mapM_zipIdx hs (fun p k wire hw => ?_)
    exact queue_resolveOptions (PlannedStep.toWire_eq_ok_iff.mp hw).2.2.2.2

theorem batch_guarded_iff (requests : List JobRequest) (transport : Transport BatchEnqueueRequest)
    (decode : Decoder Reply) :
    ((enqueueBatch chrono clocks transport decode requests).mapBody .batch).Guarded debug ↔
      NamesValid debug (requests.map JobRequest.jobType)
          (requests.filterMap (fun r => lastQueue r.options)) ∧
        ∀ i r, requests[i]? = some r → DelaysFit chrono (clocks i) r.options := by
  rw [← exists_batchRequests_iff]
  unfold enqueueBatch
  cases hb : batchRequests chrono clocks requests with
  | error panic => exact iff_of_false (not_guarded_panicked _ panic) (by simp)
  | ok jobs =>
    obtain ⟨types, queues⟩ := batchRequests_names hb
    rw [← types, ← queues]
    exact (guarded_mapBody_posted _ _ _ _ _).trans (by simp [EnqueueBody.jobTypes, EnqueueBody.queues])

theorem workflow_guarded_iff (d : WorkflowDefinition) (transport : Transport WorkflowRequest)
    (decode : Decoder Reply) :
    ((createWorkflow chrono clocks transport decode d).mapBody .workflow).Guarded debug ↔
      NamesValid debug (d.emitted.map Step.jobType)
          (d.emitted.filterMap (fun step => lastQueue step.options) ++
            (lastQueue d.options).toList) ∧
        d.DelaysFit chrono clocks := by
  rw [WorkflowDefinition.delaysFit_iff_planned, ← WorkflowDefinition.exists_toWire_eq_ok_iff]
  unfold createWorkflow
  cases hb : d.toWire chrono clocks with
  | error panic => exact iff_of_false (not_guarded_panicked _ panic) (by simp)
  | ok request =>
    obtain ⟨types, queues, default⟩ := toWire_names hb
    rw [← types, ← queues, ← default]
    exact (guarded_mapBody_posted _ _ _ _ _).trans (by simp [EnqueueBody.jobTypes, EnqueueBody.queues])

/-- An enqueue operation is guarded exactly when no delay of a call with valid names
overflows and, where the operation runs no validation, the names are valid. -/
theorem enqueue_guarded_iff (debug : String → String) (chrono : Chrono) (clocks : Nat → Clock)
    (Reply : Type) (transport : Transport EnqueueBody) (decode : Decoder Reply)
    (call : EnqueueCall) :
    (call.run debug chrono clocks transport decode).Guarded debug ↔
      (NamesValid debug call.jobTypes call.queues → call.DelaysFit chrono clocks) ∧
        (call.validates = false → NamesValid debug call.jobTypes call.queues) := by
  have unchecked (valid fits : Prop) :
      (valid ∧ fits) ↔ (valid → fits) ∧ (false = false → valid) := by tauto
  cases call with
  | send b => exact (send_guarded_iff b _ _ _).trans (by simp [EnqueueCall.validates,
      EnqueueCall.jobTypes, EnqueueCall.queues, EnqueueCall.DelaysFit])
  | batch requests => exact (batch_guarded_iff requests _ _).trans (unchecked _ _)
  | workflow d => exact (workflow_guarded_iff d _ _).trans (unchecked _ _)

/-- A batch hands over a job without a type. -/
theorem batch_posts_empty_type :
    ¬ ∀ (debug : String → String) (chrono : Chrono) (clocks : Nat → Clock) (Reply : Type)
        (transport : Transport EnqueueBody) (decode : Decoder Reply) (call : EnqueueCall),
      (call.run debug chrono clocks transport decode).Guarded debug := by
  intro all
  have guarded := all id Chrono.utc (fun _ _ => ⟨0⟩) Unit (fun _ _ => .ok none) (fun _ => .ok ())
    (.batch [{ jobType := "", args := .null, metadata := none, options := [] }])
  have accepted : validateJobType id "" = .ok () := guarded.jobTypes "" (by simp [EnqueueBody.jobTypes])
  cases accepted

end OjsSdk
