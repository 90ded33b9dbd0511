import OjsSdk.EncryptionLayers
import OjsSdk.ProcessJob
import OjsSdk.RequestBodies
import OjsSdk.StepSystem

namespace OjsSdk

open Serde StepSystem

/-- A job that is read back from its JSON. -/
structure Job.Exact (sc : Scalars) (job : Job) : Prop where
  scheduledAt : ∀ t ∈ job.scheduledAt, sc.KeepsTime t
  expiresAt : ∀ t ∈ job.expiresAt, sc.KeepsTime t
  createdAt : ∀ t ∈ job.createdAt, sc.KeepsTime t
  enqueuedAt : ∀ t ∈ job.enqueuedAt, sc.KeepsTime t
  startedAt : ∀ t ∈ job.startedAt, sc.KeepsTime t
  completedAt : ∀ t ∈ job.completedAt, sc.KeepsTime t
  retry : ∀ p ∈ job.retry, sc.f64.Keeps p.backoffCoefficient
  result : job.result ≠ some .null

theorem Job.wire_keeps {sc : Scalars} {job : Job} (exact : job.Exact sc) :
    (Job.wire sc).Keeps job := by
  have numbers (o : Option UInt32) : Wire.u32.optional.Keeps o :=
    Wire.optional_keeps (fun _ null => by cases null) (fun n _ => Wire.u32_keeps n)
  have retry : (RetryPolicy.wire sc).optional.Keeps job.retry :=
    Wire.optional_keeps (fun _ null => by cases null)
      (fun p given => RetryPolicy.wire_keeps (exact.retry p given))
  have unique : UniquePolicy.wire.optional.Keeps job.unique :=
    Wire.optional_keeps (fun _ null => by cases null) (fun p _ => p.wire_keeps)
  have state : JobState.wire.optional.Keeps job.state :=
    Wire.optional_keeps (fun _ null => by cases null) (fun s _ => jobState_keeps s)
  have error : JobError.wire.optional.Keeps job.error := by
    refine Wire.optional_keeps (fun _ null => by cases null) (fun e _ => ?_)
    refine Record.struct_keeps rfl ?_
    exact .field (Wire.required_keeps rfl) <| .field (Wire.required_keeps rfl) <|
      .field (lists_keep _) Record.empty_keeps
  have tags : Wire.string.skipEmpty.Keeps job.tags :=
    Wire.skipEmpty_keeps_iff.mpr (fun s _ => Wire.string_keeps s)
  have priority := Wire.i32_keeps job.priority
  have attempt := Wire.u32_keeps job.attempt
  refine Record.struct_keeps rfl ?_
  exact .field (Wire.defaulted_keeps rfl) <| .field (Wire.required_keeps rfl) <|
    .field (Wire.required_keeps rfl) <| .field (Wire.defaulted_keeps rfl) <|
    .field (Wire.defaulted_keeps rfl) <| .field (entries_keep _) <|
    .field (Wire.defaulted_keeps priority) <| .field (millis_keep _) <|
    .field (optional_time_keeps exact.scheduledAt) <|
    .field (optional_time_keeps exact.expiresAt) <| .field retry <| .field unique <|
    .field (text_keeps _) <| .field state <| .field (Wire.defaulted_keeps attempt) <|
    .field (numbers _) <| .field (optional_time_keeps exact.createdAt) <|
    .field (optional_time_keeps exact.enqueuedAt) <|
    .field (optional_time_keeps exact.startedAt) <|
    .field (optional_time_keeps exact.completedAt) <| .field error <|
    .field (value_keeps exact.result) <| .field tags <| .field (millis_keep _) Record.empty_keeps

/-- The request that enqueues a job which has been encrypted:
`client.enqueue(job.job_type, job.args)` with the metadata of the job. -/
def sealedBuilder (sealed : Job) : EnqueueBuilder where
  jobType := sealed.jobType
  args := sealed.args
  options := []
  metadata := sealed.metadata
  schema := none

def sealedRequest (sealed : Job) : EnqueueRequest where
  jobType := sealed.jobType
  args := normalizeArgs sealed.args
  metadata := sealed.metadata
  schema := none
  options := none

theorem request_sealedBuilder (chrono : Chrono) (clock : Clock) {sealed : Job} {m : MetaMap}
    (given : sealed.metadata = some m) :
    (sealedBuilder sealed).request chrono clock = .ok (sealedRequest sealed) := by
  simp [EnqueueBuilder.request, sealedBuilder, sealedRequest, resolveOptions, given, bind,
    Except.bind, pure, Except.pure]

/-- What a worker has been handed, and what it has made of it. -/
structure Opening where
  original : Job
  base : Job
  opened : Option (Except CodecFault JobContext)

/-- The keys of both sides, the bodies that have been posted, each with the job before its
encryption, and what has become of them at workers. -/
structure EncryptedWorld where
  producer : StaticKeyProvider
  worker : StaticKeyProvider
  posted : List (Job × Value)
  openings : List Opening

inductive KeyAction
  | deployProducer (keys : StaticKeyProvider)
  | deployWorker (keys : StaticKeyProvider)
  | addWorkerKey (keyId : String) (key : List UInt8)
  | enqueue (nonce : List.Vector UInt8 nonceSize) (job : Job)
  | deliver (i : Nat) (base : Job)

/-- The job a server makes of a request: its other fields are up to the server. -/
def acceptJob (sc : Scalars) (body : Value) (base : Job) : Option Job :=
  ((EnqueueRequest.wire sc).decode body).map (fun r =>
    { base with jobType := r.jobType, args := r.args, metadata := r.metadata })

section

variable (sc : Scalars) (backend : CodecBackend) (workerId : String)

/-- What the middleware hands on of a job that has been posted and fetched. -/
def openDelivered (keys : KeyProvider) (body : Value) (base : Job) :
    Option (Except CodecFault JobContext) := do
  let accepted ← acceptJob sc body base
  let fetched ← (Job.wire sc).decode ((Job.wire sc).encode accepted)
  return EncryptionMiddleware.decryptContext backend keys (processContext workerId fetched)

namespace EncryptedWorld

def start (producer worker : StaticKeyProvider) : EncryptedWorld where
  producer
  worker
  posted := []
  openings := []

def step (w : EncryptedWorld) : KeyAction → Option EncryptedWorld
  | .deployProducer keys => some { w with producer := keys }
  | .deployWorker keys => some { w with worker := keys }
  | .addWorkerKey keyId key => some { w with worker := w.worker.addKey keyId key }
  | .enqueue nonce job =>
    match encryptJob backend nonce w.producer.toKeyProvider job with
    | .ok sealed =>
      some { w with
        posted := w.posted ++ [(job, (EnqueueRequest.wire sc).encode (sealedRequest sealed))] }
    | .error _ => none
  | .deliver i base =>
    w.posted[i]?.map fun (original, body) =>
      { w with
        openings := w.openings ++
          [{ original, base
             opened := openDelivered sc backend workerId w.worker.toKeyProvider body base }] }

/-- Keys are rotated in order: a worker never loses a key it has, and a producer encrypts under a
key that the worker has already. -/
def InOrder (w : EncryptedWorld) : KeyAction → Prop
  | .deployProducer _ => True
  | .deployWorker keys => ∀ keyId key, w.worker.toKeyProvider.getKey keyId = some key →
    keys.toKeyProvider.getKey keyId = some key
  | .addWorkerKey keyId key => ∀ old, w.worker.toKeyProvider.getKey keyId = some old → old = key
  | .enqueue _ job => EncryptionMiddleware.Unmarked job.metadata ∧
    ∀ key, w.producer.toKeyProvider.getKey w.producer.current = some key →
      w.worker.toKeyProvider.getKey w.producer.current = some key
  | .deliver _ base => base.Exact sc

end EncryptedWorld

end

/-- The job as the handler is to see it. -/
def Opening.restored (o : Opening) : Job :=
  { o.base with
    jobType := o.original.jobType
    args := o.original.args
    metadata := some (o.original.metadata.getD []) }

section

variable {sc : Scalars} {backend : CodecBackend} {workerId : String}
  {key : List.Vector UInt8 keySize} {nonce : List.Vector UInt8 nonceSize}
  {keys later : KeyProvider} {job sealed base : Job}

theorem StaticKeyProvider.getKey_addKey (p : StaticKeyProvider) (id : String) (key : List UInt8)
    (keyId : String) : (p.addKey id key).toKeyProvider.getKey keyId =
      if keyId = id then some key else p.toKeyProvider.getKey keyId := by
  unfold addKey toKeyProvider
  simp only
  by_cases same : keyId = id
  · simp [same]
  · have other : ¬id = keyId := fun h => same h.symm
    rw [if_neg same, List.find?_cons_of_neg (by simpa using other), List.find?_filter]
    congr 2
    funext entry
    by_cases here : entry.1 = keyId <;> simp [here, same]

/-- The workflow that a context names is not touched by an encryption. -/
theorem workflowId_sealedMeta (keyId : String) (metadata : Option MetaMap) :
    lookupField (sealedMeta keyId metadata) "workflow_id" =
      lookupField (metadata.getD []) "workflow_id" := by
  have encodings : "workflow_id" ≠ metaCodecEncodings := by decide
  have id : "workflow_id" ≠ metaCodecKeyId := by decide
  unfold sealedMeta
  rw [MetaMap.lookupField_insert_of_ne id, MetaMap.lookupField_insert_of_ne encodings]

/-- A job that has been encrypted, posted, accepted and fetched opens as it was. -/
theorem openDelivered_encryptJob (lossless : backend.Lossless) (json : backend.ReadsBack job.args)
    (unmarked : EncryptionMiddleware.Unmarked job.metadata)
    (known : keys.getKey keys.currentKeyId = some key.toList)
    (kept : later.getKey keys.currentKeyId = some key.toList)
    (encrypted : encryptJob backend nonce keys job = .ok sealed) (exact : base.Exact sc) :
    openDelivered sc backend workerId later ((EnqueueRequest.wire sc).encode (sealedRequest sealed))
        base =
      some (.ok (processContext workerId (Opening.restored ⟨job, base, none⟩))) := by
  obtain ⟨plaintext, data, written, cipher, rfl⟩ := (encryptJob_eq_ok_iff known).mp encrypted
  let plain : Job := { base with
    jobType := job.jobType, args := job.args, metadata := job.metadata }
  let accepted : Job := { plain with
    args := .array [.string (backend.base64Encode data)]
    metadata := some (sealedMeta keys.currentKeyId plain.metadata) }
  have again : encryptJob backend nonce keys plain = .ok accepted :=
    (encryptJob_eq_ok_iff known).mpr ⟨plaintext, data, written, cipher, rfl⟩
  have options : ∀ o ∈ (none : Option EnqueueOptionsWire), o.Exact sc := by
    intro o absent
    cases absent
  have posted : ∀ r : EnqueueRequest, r.options = none →
      (EnqueueRequest.wire sc).decode ((EnqueueRequest.wire sc).encode r) = some r := by
    intro r none
    exact EnqueueRequest.wire_keeps (none ▸ options)
  have fetched : (Job.wire sc).decode ((Job.wire sc).encode accepted) = some accepted :=
    Job.wire_keeps ⟨exact.scheduledAt, exact.expiresAt, exact.createdAt, exact.enqueuedAt,
      exact.startedAt, exact.completedAt, exact.retry, exact.result⟩
  have readable : backend.ReadsBack plain.args := json
  have opened : EncryptionMiddleware.decryptContext backend later
      (processContext workerId accepted) = _ :=
    EncryptionMiddleware.decryptContext_encryptJob lossless readable known kept again rfl
  have context : processContext workerId (Opening.restored ⟨job, base, none⟩) =
      { processContext workerId accepted with
        job := { plain with metadata := some (job.metadata.getD []) } } := by
    have workflow := workflowId_sealedMeta keys.currentKeyId job.metadata
    simp only [processContext, Opening.restored, Option.bind_some, accepted, plain, workflow]
  rw [EncryptionMiddleware.removeMarkers_of_unmarked unmarked] at opened
  unfold openDelivered acceptJob
  rw [posted _ rfl, context, ← opened]
  show ((Job.wire sc).decode ((Job.wire sc).encode accepted)).bind _ = _
  rw [fetched]
  rfl

/-- A posted body opens under the keys of a worker. -/
def Openable (sc : Scalars) (backend : CodecBackend) (later : KeyProvider) (original : Job)
    (body : Value) : Prop :=
  EncryptionMiddleware.Unmarked original.metadata ∧
    ∃ (keys : KeyProvider) (key : List.Vector UInt8 keySize) (nonce : List.Vector UInt8 nonceSize)
      (sealed : Job), keys.getKey keys.currentKeyId = some key.toList ∧
      later.getKey keys.currentKeyId = some key.toList ∧
      encryptJob backend nonce keys original = .ok sealed ∧
      body = (EnqueueRequest.wire sc).encode (sealedRequest sealed)

theorem Openable.mono {original : Job} {body : Value} {earlier : KeyProvider}
    (more : ∀ keyId key, earlier.getKey keyId = some key → later.getKey keyId = some key)
    (openable : Openable sc backend earlier original body) :
    Openable sc backend later original body := by
  obtain ⟨unmarked, keys, key, nonce, sealed, known, kept, encrypted, same⟩ := openable
  exact ⟨unmarked, keys, key, nonce, sealed, known, more _ _ kept, encrypted, same⟩

namespace EncryptedWorld

structure Sound (sc : Scalars) (backend : CodecBackend) (workerId : String) (w : EncryptedWorld) :
    Prop where
  posted : ∀ p ∈ w.posted, Openable sc backend w.worker.toKeyProvider p.1 p.2
  openings : ∀ o ∈ w.openings, o.opened = some (.ok (processContext workerId o.restored))

theorem Sound.step {w w' : EncryptedWorld} {a : KeyAction} (lossless : backend.Lossless)
    (json : ∀ v, backend.ReadsBack v) (sound : w.Sound sc backend workerId)
    (inOrder : w.InOrder sc a) (h : w.step sc backend workerId a = some w') :
    w'.Sound sc backend workerId := by
  cases a with
  | deployProducer keys =>
    cases h
    exact ⟨sound.posted, sound.openings⟩
  | deployWorker keys =>
    cases h
    exact ⟨fun p mem => (sound.posted p mem).mono inOrder, sound.openings⟩
  | addWorkerKey keyId key =>
    cases h
    refine ⟨fun p mem => (sound.posted p mem).mono (fun id old had => ?_), sound.openings⟩
    rw [StaticKeyProvider.getKey_addKey]
    by_cases same : id = keyId
    · subst same
      rw [if_pos rfl, inOrder old had]
    · rw [if_neg same, had]
  | enqueue nonce job =>
    obtain ⟨unmarked, known⟩ := inOrder
    simp only [EncryptedWorld.step] at h
    split at h
    next sealed encrypted =>
      cases h
      obtain ⟨key, current⟩ := exists_key_of_encryptJob encrypted
      refine ⟨fun p mem => ?_, sound.openings⟩
      rcases List.mem_append.mp mem with earlier | last
      · exact sound.posted p earlier
      · obtain rfl := List.mem_singleton.mp last
        exact ⟨unmarked, w.producer.toKeyProvider, key, nonce, sealed, current,
          known key.toList current, encrypted, rfl⟩
    next => cases h
  | deliver i base =>
    obtain ⟨⟨original, body⟩, here, rfl⟩ := Option.map_eq_some_iff.mp h
    refine ⟨sound.posted, fun o mem => ?_⟩
    rcases List.mem_append.mp mem with earlier | last
    · exact sound.openings o earlier
    · obtain rfl := List.mem_singleton.mp last
      obtain ⟨unmarked, keys, key, nonce, sealed, known, kept, encrypted, same⟩ :=
        sound.posted _ (List.mem_of_getElem? here)
      have opens : openDelivered sc backend workerId w.worker.toKeyProvider _ base = _ :=
        openDelivered_encryptJob lossless (json _) unmarked known kept encrypted inOrder
      rw [← same] at opens
      exact opens

/-- As long as keys are rotated in order, whatever producers have encrypted before, every delivery
and redelivery of a job runs the rest of the chain in the context of the job as it was. -/
theorem openings_restored (lossless : backend.Lossless) (json : ∀ v, backend.ReadsBack v)
    (producer worker : StaticKeyProvider) {past : List (EncryptedWorld × KeyAction)}
    {w : EncryptedWorld} (run : Run (step sc backend workerId) (start producer worker) past w)
    (inOrder : ∀ e ∈ past, e.1.InOrder sc e.2) :
    ∀ o ∈ w.openings, o.opened = some (.ok (processContext workerId o.restored)) := by
  have base : (start producer worker).Sound sc backend workerId :=
    ⟨fun _ mem => (List.not_mem_nil mem).elim, fun _ mem => (List.not_mem_nil mem).elim⟩
  have sound : w.Sound sc backend workerId :=
    run.keeps base (fun _ _ _ _ _ sound careful h => sound.step lossless json careful h) inOrder
  exact sound.openings

end EncryptedWorld

end

def zeroRing : StaticKeyProvider := .new "k1" zeroKey.toList

/-- A worker gets a second key, the producer goes on to it, and a job under the first key is
delivered. -/
def rotation : List KeyAction :=
  [.enqueue (.replicate nonceSize 0) testJob, .addWorkerKey "k2" (List.replicate 32 1),
    .deployProducer (.new "k2" (List.replicate 32 1)), .deliver 0 (Job.ofWire "job-1" "" .null)]

theorem rotation_restored :
    ∃ past w, Run (EncryptedWorld.step newYear testBackend "worker-1")
        (.start zeroRing zeroRing) past w ∧ w.openings.length = 1 ∧
      ∀ o ∈ w.openings, o.opened = some (.ok (processContext "worker-1" o.restored)) := by
  have ran : exec (EncryptedWorld.step newYear testBackend "worker-1") []
      (.start zeroRing zeroRing) rotation = some (_, _) := rfl
  have run := Run.start.exec ran
  refine ⟨_, _, run, rfl, EncryptedWorld.openings_restored testBackend_lossless
    testBackend_readsBack zeroRing zeroRing run ?_⟩
  intro e mem
  simp only [List.mem_cons, List.not_mem_nil, or_false] at mem
  obtain rfl | rfl | rfl | rfl := mem
  · exact ⟨by simp [Job.ofWire], by simp [Job.ofWire], by simp [Job.ofWire], by simp [Job.ofWire],
      by simp [Job.ofWire], by simp [Job.ofWire], by simp [Job.ofWire], by simp [Job.ofWire]⟩
  · trivial
  · intro old had
    cases had
  · refine ⟨?_, fun key known => known⟩
    simp [EncryptionMiddleware.Unmarked, EncryptionMiddleware.markerKeys, testJob, lookupField,
      metaCodecEncodings, metaCodecKeyId, legacyMetaEncrypted, legacyMetaKeyId]

end OjsSdk
