import OjsSdk.Client
import OjsSdk.WorkflowGraph

namespace OjsSdk

variable {chrono : Chrono} {clock : Clock} {clocks : Nat → Clock}

/-- What an object on the wire says about the job to be enqueued. -/
structure Payload where
  jobType : String
  args : Value
  metadata : Option MetaMap
  options : Option EnqueueOptionsWire

def EnqueueRequest.payload (r : EnqueueRequest) : Payload :=
  ⟨r.jobType, r.args, r.metadata, r.options⟩

/-- A wire step has no field for metadata. -/
def WorkflowStepWire.payload (w : WorkflowStepWire) : Payload :=
  ⟨w.jobType, w.args, none, w.options⟩

/-- The builder that `EnqueueBuilder::send` would be called on for the same inputs. -/
def JobRequest.asBuilder (r : JobRequest) : EnqueueBuilder where
  jobType := r.jobType
  args := r.args
  options := r.options
  metadata := r.metadata
  schema := none

def Step.asBuilder (s : Step) : EnqueueBuilder where
  jobType := s.jobType
  args := s.args
  options := s.options
  metadata := none
  schema := none

/-- The wire object has a value where an option is to be found. -/
def Payload.Carries (p : Payload) : EnqueueOption → Prop
  | .metadata _ => p.metadata.isSome = true
  | opt => ∃ wire, p.options = some wire ∧ opt.FilledIn wire

/-- A wire object carries the job as `EnqueueBuilder::send` would, and drops no option. -/
structure AsSent (chrono : Chrono) (clock : Clock) (b : EnqueueBuilder) (p : Payload) : Prop where
  same : ∃ sent, b.request chrono clock = .ok sent ∧ p = sent.payload
  kept : ∀ opt ∈ b.options, p.Carries opt

/-- There is a map given explicitly, or else no option that gives one. -/
def EnqueueBuilder.MetaExplicit (b : EnqueueBuilder) : Prop :=
  b.metadata.isSome = true ∨ ∀ m, .metadata m ∉ b.options

theorem extractMeta_eq_none_iff (opts : List EnqueueOption) :
    extractMeta opts = none ↔ ∀ m, .metadata m ∉ opts := by
  induction opts with
  | nil => simp [extractMeta]
  | cons opt opts ih =>
    cases opt with
    | metadata m =>
      simp only [extractMeta, reduceCtorEq, List.mem_cons, not_or, false_iff, not_forall,
        not_and, not_not]
      exact ⟨m, fun other => absurd rfl other⟩
    | _ => simpa [extractMeta] using ih

theorem EnqueueBuilder.request_eq_ok_iff {b : EnqueueBuilder} {sent : EnqueueRequest} :
    b.request chrono clock = .ok sent ↔
      sent.jobType = b.jobType ∧ sent.args = normalizeArgs b.args ∧
        sent.metadata = b.metadata.or (extractMeta b.options) ∧ sent.schema = b.schema ∧
        resolveOptions chrono clock b.options = .ok sent.options := by
  obtain ⟨jobType, args, metadata, schema, options⟩ := sent
  unfold request
  cases resolveOptions chrono clock b.options with
  | error e => simp [bind, Except.bind]
  | ok options' =>
    simp only [bind, Except.bind, pure, Except.pure, Except.ok.injEq, EnqueueRequest.mk.injEq]
    exact ⟨fun ⟨a, b, c, e, f⟩ => ⟨a.symm, b.symm, c.symm, e.symm, f⟩,
      fun ⟨a, b, c, e, f⟩ => ⟨a.symm, b.symm, c.symm, e.symm, f⟩⟩

theorem EnqueueBuilder.metadata_eq_or_iff (b : EnqueueBuilder) :
    b.metadata = b.metadata.or (extractMeta b.options) ↔ b.MetaExplicit := by
  constructor
  · intro same
    cases explicit : b.metadata with
    | some m => exact .inl (by simp [explicit])
    | none =>
      rw [explicit, Option.none_or] at same
      exact .inr ((extractMeta_eq_none_iff _).mp same.symm)
  · rintro (given | none)
    · obtain ⟨m, hm⟩ := Option.isSome_iff_exists.mp given
      simp [hm]
    · simp [(extractMeta_eq_none_iff _).mpr none]

/-- A path that takes over the job type, the wire form of the arguments and the resolved
options, and of the metadata only the explicit map, sends the job as `send` does exactly
when that map is all there is. -/
theorem asSent_iff {b : EnqueueBuilder} {p : Payload} (jobType : p.jobType = b.jobType)
    (args : p.args = normalizeArgs b.args) (metadata : p.metadata = b.metadata)
    (options : resolveOptions chrono clock b.options = .ok p.options) :
    AsSent chrono clock b p ↔ b.MetaExplicit := by
  constructor
  · rintro ⟨⟨sent, hs, hp⟩, _⟩
    obtain ⟨_, _, hm, _, _⟩ := EnqueueBuilder.request_eq_ok_iff.mp hs
    refine b.metadata_eq_or_iff.mp ?_
    calc
      b.metadata = p.metadata := metadata.symm
      _ = sent.metadata := by rw [hp]; rfl
      _ = b.metadata.or (extractMeta b.options) := hm
  · intro explicit
    have same := b.metadata_eq_or_iff.mpr explicit
    refine ⟨⟨⟨b.jobType, normalizeArgs b.args, b.metadata, b.schema, p.options⟩, ?_, ?_⟩, ?_⟩
    · exact EnqueueBuilder.request_eq_ok_iff.mpr ⟨rfl, rfl, same, rfl, options⟩
    · rw [EnqueueRequest.payload, ← jobType, ← args, ← metadata]
    · intro opt ho
      have filled : ∃ wire, p.options = some wire ∧ opt.FilledIn wire := by
        rcases resolveOptions_eq_ok_cases options with ⟨none, _⟩ | ⟨wire, hw, hr⟩
        · simp [none] at ho
        · exact ⟨wire, hw, filledIn_resolveFrom hr opt ho⟩
      cases opt with
      | metadata m =>
        rcases explicit with given | none
        · rwa [← metadata] at given
        · exact absurd ho (none m)
      | _ => exact filled

theorem JobRequest.request_eq_ok {r : JobRequest} {job : EnqueueRequest}
    (h : r.request chrono clock = .ok job) :
    job.jobType = r.jobType ∧ job.args = normalizeArgs r.args ∧ job.metadata = r.metadata ∧
      resolveOptions chrono clock r.options = .ok job.options := by
  unfold request at h
  cases ho : resolveOptions chrono clock r.options with
  | error e => simp [ho, bind, Except.bind] at h
  | ok options =>
    simp only [ho, bind, Except.bind, pure, Except.pure] at h
    cases h
    exact ⟨rfl, rfl, rfl, rfl⟩

/-- What a batch and a workflow carry of each of their jobs is what a single send would,
exactly where no metadata is given as an option alone. -/
theorem enqueuePaths_agree_iff (chrono : Chrono) (clocks : Nat → Clock)
    (requests : List JobRequest) (jobs : List EnqueueRequest) (d : WorkflowDefinition)
    (request : WorkflowRequest) (batched : batchRequests chrono clocks requests = .ok jobs)
    (built : d.toWire chrono clocks = .ok request) :
    (∀ (i : Nat) (r : JobRequest) (job : EnqueueRequest), requests[i]? = some r →
        jobs[i]? = some job →
        (AsSent chrono (clocks i) r.asBuilder job.payload ↔ r.asBuilder.MetaExplicit)) ∧
      ∀ (k : Nat) (step : Step) (wire : WorkflowStepWire), d.emitted[k]? = some step →
        request.steps[k]? = some wire →
        (AsSent chrono (clocks k) step.asBuilder wire.payload ↔ step.asBuilder.MetaExplicit) := by
  constructor
  · intro i r job hr hjob
    obtain ⟨sent, hsent, hs⟩ := Fallible.getElem?_of_mapM batched (i := i) (x := (r, i))
      (by simp [hr])
    obtain rfl : sent = job := Option.some.inj (hsent.symm.trans hjob)
    obtain ⟨jobType, args, metadata, options⟩ := JobRequest.request_eq_ok hs
    exact asSent_iff jobType args metadata options
  · intro k step wire hstep hwire
    have sent := (WorkflowDefinition.wireGraph_of_toWire built).sent k step wire hstep hwire
    exact asSent_iff sent.jobType sent.args rfl sent.options

def tenantOption : EnqueueOption := .metadata [("tenant", .string "acme")]

def tenantRequest (metadata : Option MetaMap) : JobRequest where
  jobType := "email.send"
  args := .object emailObject
  metadata
  options := [.queue "mail", tenantOption]

/-- With an explicit map the batch sends the job as a single send would. -/
theorem enqueuePaths_explicit :
    ∃ job : EnqueueRequest, job.metadata = some [] ∧
      AsSent Chrono.utc (fun _ => ⟨0⟩) (tenantRequest (some [])).asBuilder job.payload :=
  ⟨_, rfl, ((enqueuePaths_agree_iff Chrono.utc (fun _ _ => ⟨0⟩) [tenantRequest (some [])] _
    (chain []) _ rfl rfl).1 0 _ _ rfl rfl).mpr (.inl rfl)⟩

/-- A batch drops the metadata that is given as an option. -/
theorem batch_drops_metadata :
    ¬ ∀ (chrono : Chrono) (clocks : Nat → Clock) (requests : List JobRequest)
        (jobs : List EnqueueRequest), batchRequests chrono clocks requests = .ok jobs →
      ∀ (i : Nat) (r : JobRequest) (job : EnqueueRequest), requests[i]? = some r →
        jobs[i]? = some job → AsSent chrono (clocks i) r.asBuilder job.payload := by
  intro all
  have dropped := all Chrono.utc (fun _ _ => ⟨0⟩) [tenantRequest none] _ rfl 0 _ _ rfl rfl
  have carried := dropped.kept tenantOption (.tail _ (.head _))
  cases carried

end OjsSdk
