import OjsSdk.Workflow
import OjsSdk.TaskGraph
import OjsSdk.StdText

namespace OjsSdk

open TaskGraph

variable {chrono : Chrono} {clocks : Nat → Clock} {d : WorkflowDefinition}
  {request : WorkflowRequest} {steps : List Step} {i j : Nat}

def presentSteps : Option BatchCallbacks → List Step
  | some c => [c.onComplete, c.onSuccess, c.onFailure].filterMap id
  | none => []

/-- The steps that a definition hands over: its own and, for a batch, the callbacks
that are present. -/
def WorkflowDefinition.emitted (d : WorkflowDefinition) : List Step :=
  match d.workflowType with
  | .batch => d.steps ++ presentSteps d.callbacks
  | _ => d.steps

/-- The step at place `i` is to wait for the one at place `j`. -/
def WorkflowDefinition.Follows (d : WorkflowDefinition) (i j : Nat) : Prop :=
  match d.workflowType with
  | .chain => j < i ∧ i < d.steps.length
  | .group => False
  | .batch => j < d.steps.length ∧ d.steps.length ≤ i ∧ i < d.emitted.length

def WorkflowStepWire.node (w : WorkflowStepWire) : Node String := ⟨w.id, w.dependsOn⟩

def PlannedStep.node (p : PlannedStep) : Node String := ⟨p.id, p.dependsOn⟩

def WorkflowRequest.graph (r : WorkflowRequest) : List (Node String) :=
  r.steps.map WorkflowStepWire.node

/-- What a wire step takes over from the step it stands for. -/
structure Step.SentAs (chrono : Chrono) (clock : Clock) (step : Step)
    (wire : WorkflowStepWire) : Prop where
  jobType : wire.jobType = step.jobType
  args : wire.args = normalizeArgs step.args
  options : resolveOptions chrono clock step.options = .ok wire.options

/-- The wire form of a definition: its steps in order, over an ordered graph in which
a step depends on another, directly or not, exactly when it is to wait for it. -/
structure WireGraph (chrono : Chrono) (clocks : Nat → Clock) (d : WorkflowDefinition)
    (request : WorkflowRequest) : Prop where
  count : request.steps.length = d.emitted.length
  sent : ∀ (k : Nat) (step : Step) (wire : WorkflowStepWire), d.emitted[k]? = some step →
    request.steps[k]? = some wire → step.SentAs chrono (clocks k) wire
  ordered : Ordered request.graph
  depends : ∀ i j, Relation.TransGen (DependsOn request.graph) i j ↔ d.Follows i j

/-- No step of a wire graph waits for itself. -/
theorem WireGraph.acyclic (h : WireGraph chrono clocks d request) :
    ¬Relation.TransGen (DependsOn request.graph) i i := h.ordered.acyclic

/-- Every delay of the emitted steps and of the default options fits. -/
def WorkflowDefinition.DelaysFit (chrono : Chrono) (clocks : Nat → Clock)
    (d : WorkflowDefinition) : Prop :=
  (∀ k step, d.emitted[k]? = some step → OjsSdk.DelaysFit chrono (clocks k) step.options) ∧
    OjsSdk.DelaysFit chrono (clocks d.emitted.length) d.options

theorem jobId_injective {a b : Nat} (h : jobId a = jobId b) : a = b :=
  StdText.toString_injective ((String.append_right_inj _).mp h)

theorem stepId_injective {a b : Nat} (h : stepId a = stepId b) : a = b :=
  StdText.toString_injective ((String.append_right_inj _).mp h)

namespace WorkflowDefinition

@[simp] theorem planChain_getElem? (steps : List Step) (i : Nat) :
    (planChain steps)[i]? = (steps[i]?).map (fun step =>
      { id := stepId i, dependsOn := if 0 < i then [stepId (i - 1)] else [], step }) := by
  simp [planChain, Function.comp_def]

@[simp] theorem planJobs_getElem? (steps : List Step) (i : Nat) :
    (planJobs steps)[i]? = (steps[i]?).map (fun step => { id := jobId i, dependsOn := [], step }) := by
  simp [planJobs, Function.comp_def]

theorem planChain_ids (steps : List Step) :
    (planChain steps).map PlannedStep.id = (List.range steps.length).map stepId := by
  apply List.ext_getElem?
  intro i
  by_cases h : i < steps.length <;> simp [h]

theorem planJobs_ids (steps : List Step) :
    (planJobs steps).map PlannedStep.id = (List.range steps.length).map jobId := by
  apply List.ext_getElem?
  intro i
  by_cases h : i < steps.length <;> simp [h]

@[simp] theorem planJobs_length (steps : List Step) : (planJobs steps).length = steps.length := by
  simp [planJobs]

/-- What a callback is planned with: an id that is no job's, and all jobs before it. -/
theorem planCallbacks_mem {jobs : Nat} {callbacks : Option BatchCallbacks} {p : PlannedStep}
    (hp : p ∈ planCallbacks jobs callbacks) :
    p.dependsOn = (List.range jobs).map jobId ∧
      p.id ∈ ["on-complete", "on-success", "on-failure"] := by
  cases callbacks with
  | none => cases hp
  | some c =>
    obtain ⟨complete, success, failure⟩ := c
    cases complete <;> cases success <;> cases failure <;>
      simp [planCallbacks, BatchCallbacks.present] at hp ⊢ <;> grind

theorem planCallbacks_nodup (jobs : Nat) (callbacks : Option BatchCallbacks) :
    ((planCallbacks jobs callbacks).map PlannedStep.id).Nodup := by
  cases callbacks with
  | none => exact List.nodup_nil
  | some c =>
    obtain ⟨complete, success, failure⟩ := c
    cases complete <;> cases success <;> cases failure <;>
      simp [planCallbacks, BatchCallbacks.present]

theorem planCallbacks_steps (jobs : Nat) (callbacks : Option BatchCallbacks) :
    (planCallbacks jobs callbacks).map PlannedStep.step = presentSteps callbacks := by
  cases callbacks with
  | none => rfl
  | some c =>
    obtain ⟨complete, success, failure⟩ := c
    cases complete <;> cases success <;> cases failure <;> rfl

theorem jobId_ne_callback (i : Nat) : jobId i ∉ ["on-complete", "on-success", "on-failure"] := by
  intro h
  have first : (jobId i).toList.head? = some 'j' := by simp [jobId]
  simp only [List.mem_cons, List.not_mem_nil, or_false] at h
  rcases h with h | h | h <;> rw [h] at first <;> cases first

theorem planned_steps (d : WorkflowDefinition) : d.planned.map PlannedStep.step = d.emitted := by
  have jobs (steps : List Step) : (planJobs steps).map PlannedStep.step = steps := by
    apply List.ext_getElem?
    simp [Function.comp_def]
  unfold planned emitted
  cases d.workflowType with
  | chain =>
    apply List.ext_getElem?
    simp [Function.comp_def]
  | group => exact jobs d.steps
  | batch => simp [jobs, planCallbacks_steps]

theorem planned_nodup (d : WorkflowDefinition) : (d.planned.map PlannedStep.id).Nodup := by
  unfold planned
  cases d.workflowType with
  | chain =>
    rw [planChain_ids]
    exact List.nodup_range.map (fun _ _ => stepId_injective)
  | group =>
    rw [planJobs_ids]
    exact List.nodup_range.map (fun _ _ => jobId_injective)
  | batch =>
    rw [List.map_append, planJobs_ids]
    refine List.Nodup.append (List.nodup_range.map (fun _ _ => jobId_injective))
      (planCallbacks_nodup _ _) ?_
    intro id hj hc
    obtain ⟨i, _, rfl⟩ := List.mem_map.mp hj
    obtain ⟨p, hp, he⟩ := List.mem_map.mp hc
    exact jobId_ne_callback i (he ▸ (planCallbacks_mem hp).2)

def plannedGraph (d : WorkflowDefinition) : List (Node String) := d.planned.map PlannedStep.node

theorem plannedGraph_getElem?_eq_some {a : Node String} (h : d.plannedGraph[i]? = some a) :
    ∃ p, d.planned[i]? = some p ∧ p.id = a.id ∧ p.dependsOn = a.dependsOn := by
  unfold plannedGraph at h
  rw [List.getElem?_map] at h
  obtain ⟨p, hp, rfl⟩ := Option.map_eq_some_iff.mp h
  exact ⟨p, hp, rfl, rfl⟩

theorem plannedGraph_of_planned {p : PlannedStep} (h : d.planned[i]? = some p) :
    d.plannedGraph[i]? = some p.node := by
  simp [plannedGraph, h]

/-- A job of a batch depends on nothing, and a callback on all jobs. -/
theorem planned_batch_cases {p : PlannedStep} (batch : d.workflowType = .batch)
    (hp : d.planned[i]? = some p) :
    (i < d.steps.length ∧ p.dependsOn = []) ∨
      (d.steps.length ≤ i ∧ p.dependsOn = (List.range d.steps.length).map jobId) := by
  simp only [planned, batch] at hp
  by_cases h : i < d.steps.length
  · rw [List.getElem?_append_left (by simpa using h), planJobs_getElem?] at hp
    obtain ⟨step, _, rfl⟩ := Option.map_eq_some_iff.mp hp
    exact .inl ⟨h, rfl⟩
  · rw [List.getElem?_append_right (by simpa using h)] at hp
    exact .inr ⟨by omega, (planCallbacks_mem (List.mem_of_getElem? hp)).1⟩

theorem planned_job (batch : d.workflowType = .batch) (h : i < d.steps.length) :
    ∃ p, d.planned[i]? = some p ∧ p.id = jobId i := by
  simp only [planned, batch]
  rw [List.getElem?_append_left (by simpa using h), planJobs_getElem?]
  simp [h]

theorem planned_length (d : WorkflowDefinition) : d.planned.length = d.emitted.length := by
  rw [← planned_steps, List.length_map]

theorem plannedGraph_ordered (d : WorkflowDefinition) : Ordered d.plannedGraph := by
  constructor
  · have ids : d.plannedGraph.map Node.id = d.planned.map PlannedStep.id := by
      simp [plannedGraph, PlannedStep.node, Function.comp_def]
    rw [ids]
    exact d.planned_nodup
  · intro i a ha dep hd
    obtain ⟨p, hp, _, hdeps⟩ := plannedGraph_getElem?_eq_some ha
    rw [← hdeps] at hd
    cases type : d.workflowType with
    | chain =>
      simp only [planned, type, planChain_getElem?] at hp
      obtain ⟨step, hs, rfl⟩ := Option.map_eq_some_iff.mp hp
      obtain ⟨bound, _⟩ := List.getElem?_eq_some_iff.mp hs
      by_cases positive : 0 < i
      · obtain rfl : dep = stepId (i - 1) := by simpa [positive] using hd
        have before : d.planned[i - 1]? = some
            { id := stepId (i - 1), dependsOn := if 0 < i - 1 then [stepId (i - 1 - 1)] else [],
              step := d.steps[i - 1] } := by
          simp [planned, type, List.getElem?_eq_getElem (show i - 1 < d.steps.length by omega)]
        exact ⟨i - 1, _, by omega, plannedGraph_of_planned before, rfl⟩
      · simp [positive] at hd
    | group =>
      simp only [planned, type, planJobs_getElem?] at hp
      obtain ⟨step, _, rfl⟩ := Option.map_eq_some_iff.mp hp
      cases hd
    | batch =>
      rcases planned_batch_cases type hp with ⟨_, none⟩ | ⟨beyond, all⟩
      · simp [none] at hd
      · rw [all] at hd
        obtain ⟨j, hj, rfl⟩ := List.mem_map.mp hd
        have bound : j < d.steps.length := List.mem_range.mp hj
        obtain ⟨q, hq, hid⟩ := planned_job type bound
        exact ⟨j, _, by omega, plannedGraph_of_planned hq, hid⟩

theorem dependsOn_chain_iff (type : d.workflowType = .chain) :
    DependsOn d.plannedGraph i j ↔ i = j + 1 ∧ i < d.steps.length := by
  have place (k : Nat) : d.planned[k]? = (d.steps[k]?).map (fun step =>
      { id := stepId k, dependsOn := if 0 < k then [stepId (k - 1)] else [], step }) := by
    simp [planned, type]
  constructor
  · rintro ⟨a, b, ha, hb, hd⟩
    obtain ⟨p, hp, _, hdeps⟩ := plannedGraph_getElem?_eq_some ha
    obtain ⟨q, hq, hid, _⟩ := plannedGraph_getElem?_eq_some hb
    rw [place] at hp hq
    obtain ⟨step, hs, rfl⟩ := Option.map_eq_some_iff.mp hp
    obtain ⟨_, _, rfl⟩ := Option.map_eq_some_iff.mp hq
    obtain ⟨bound, _⟩ := List.getElem?_eq_some_iff.mp hs
    rw [← hdeps, ← hid] at hd
    by_cases positive : 0 < i
    · have same : stepId j = stepId (i - 1) := by simpa [positive] using hd
      have := stepId_injective same
      omega
    · simp [positive] at hd
  · rintro ⟨rfl, bound⟩
    have here : d.planned[j + 1]? = some
        { id := stepId (j + 1), dependsOn := [stepId j], step := d.steps[j + 1] } := by
      simp [place, List.getElem?_eq_getElem bound]
    have before : d.planned[j]? = some
        { id := stepId j, dependsOn := if 0 < j then [stepId (j - 1)] else [],
          step := d.steps[j] } := by
      simp [place, List.getElem?_eq_getElem (show j < d.steps.length by omega)]
    exact ⟨_, _, plannedGraph_of_planned here, plannedGraph_of_planned before, by
      simp [PlannedStep.node]⟩

theorem not_dependsOn_group (type : d.workflowType = .group) : ¬DependsOn d.plannedGraph i j := by
  rintro ⟨a, b, ha, _, hd⟩
  obtain ⟨p, hp, _, hdeps⟩ := plannedGraph_getElem?_eq_some ha
  simp only [planned, type, planJobs_getElem?] at hp
  obtain ⟨step, _, rfl⟩ := Option.map_eq_some_iff.mp hp
  rw [← hdeps] at hd
  cases hd

theorem dependsOn_batch_iff (type : d.workflowType = .batch) :
    DependsOn d.plannedGraph i j ↔
      j < d.steps.length ∧ d.steps.length ≤ i ∧ i < d.emitted.length := by
  constructor
  · rintro ⟨a, b, ha, hb, hd⟩
    obtain ⟨p, hp, _, hdeps⟩ := plannedGraph_getElem?_eq_some ha
    obtain ⟨bound, _⟩ := List.getElem?_eq_some_iff.mp hp
    rcases planned_batch_cases type hp with ⟨_, none⟩ | ⟨beyond, all⟩
    · simp [← hdeps, none] at hd
    · rw [← hdeps, all] at hd
      obtain ⟨k, hk, same⟩ := List.mem_map.mp hd
      have job : k < d.steps.length := List.mem_range.mp hk
      obtain ⟨q, hq, hid⟩ := planned_job type job
      have place := d.plannedGraph_ordered.eq_of_id (plannedGraph_of_planned hq) hb
        (hid.trans same)
      rw [planned_length] at bound
      omega
  · rintro ⟨job, beyond, bound⟩
    rw [← planned_length] at bound
    obtain ⟨q, hq, hid⟩ := planned_job type job
    have hp := List.getElem?_eq_getElem bound
    refine ⟨_, _, plannedGraph_of_planned hp, plannedGraph_of_planned hq, ?_⟩
    rcases planned_batch_cases type hp with ⟨inside, _⟩ | ⟨_, all⟩
    · omega
    · simp only [PlannedStep.node, all, hid]
      exact List.mem_map_of_mem (List.mem_range.mpr job)

theorem plannedGraph_depends (d : WorkflowDefinition) (i j : Nat) :
    Relation.TransGen (DependsOn d.plannedGraph) i j ↔ d.Follows i j := by
  unfold Follows
  cases type : d.workflowType with
  | chain => exact transGen_iff_of_pred (fun _ _ => dependsOn_chain_iff type)
  | group =>
    rw [transGen_iff_of_flat (fun _ _ _ direct => absurd direct (not_dependsOn_group type))]
    exact iff_false_intro (not_dependsOn_group type)
  | batch =>
    rw [transGen_iff_of_flat, dependsOn_batch_iff type]
    intro i j k direct further
    have := (dependsOn_batch_iff type).mp direct
    have := (dependsOn_batch_iff type).mp further
    omega

theorem graph_of_toWire (built : d.toWire chrono clocks = .ok request) :
    request.graph = d.plannedGraph := by
  obtain ⟨_, hs, _⟩ := toWire_eq_ok_iff.mp built
  refine Fallible.map_of_mapM_zipIdx hs (fun p k wire hw => ?_)
  obtain ⟨id, _, _, deps, _⟩ := PlannedStep.toWire_eq_ok_iff.mp hw
  rw [WorkflowStepWire.node, PlannedStep.node, id, deps]

theorem wireGraph_of_toWire (built : d.toWire chrono clocks = .ok request) :
    WireGraph chrono clocks d request := by
  obtain ⟨_, hs, _⟩ := toWire_eq_ok_iff.mp built
  constructor
  · rw [Fallible.length_of_mapM hs, List.length_zipIdx, planned_length]
  · intro k step wire hstep hwire
    rw [← planned_steps, List.getElem?_map] at hstep
    obtain ⟨p, hp, rfl⟩ := Option.map_eq_some_iff.mp hstep
    obtain ⟨sent, hsent, hw⟩ := toWire_step built hp
    obtain rfl : sent = wire := Option.some.inj (hsent.symm.trans hwire)
    obtain ⟨_, jobType, args, _, options⟩ := PlannedStep.toWire_eq_ok_iff.mp hw
    exact ⟨jobType, args, options⟩
  · rw [graph_of_toWire built]
    exact d.plannedGraph_ordered
  · rw [graph_of_toWire built]
    exact d.plannedGraph_depends

theorem delaysFit_iff_planned :
    d.DelaysFit chrono clocks ↔
      (∀ k p, d.planned[k]? = some p → OjsSdk.DelaysFit chrono (clocks k) p.step.options) ∧
        OjsSdk.DelaysFit chrono (clocks d.planned.length) d.options := by
  simp only [DelaysFit, ← planned_steps, List.getElem?_map, List.length_map,
    Option.map_eq_some_iff, forall_exists_index, and_imp, forall_apply_eq_imp_iff₂]

end WorkflowDefinition

/-- `to_wire` gives the steps of a definition in order over the graph of its type,
exactly when no delay of its options runs over the end of chrono's time. -/
theorem workflow_wireGraph_iff (chrono : Chrono) (clocks : Nat → Clock) (d : WorkflowDefinition) :
    (∃ request, d.toWire chrono clocks = .ok request ∧ WireGraph chrono clocks d request) ↔
      d.DelaysFit chrono clocks := by
  rw [WorkflowDefinition.delaysFit_iff_planned, ← WorkflowDefinition.exists_toWire_eq_ok_iff]
  constructor
  · rintro ⟨request, built, _⟩
    exact ⟨request, built⟩
  · rintro ⟨request, built⟩
    exact ⟨request, built, WorkflowDefinition.wireGraph_of_toWire built⟩

/-- A delay of about thirty million years, which chrono's durations can hold. -/
def longDelay : EnqueueOption := .delay (.fromSecs (10 ^ 15) (by decide))

theorem workflow_delay_overflow :
    ¬ ∀ (chrono : Chrono) (clocks : Nat → Clock) (d : WorkflowDefinition),
      ∃ request, d.toWire chrono clocks = .ok request ∧ WireGraph chrono clocks d request := by
  intro all
  obtain ⟨request, built, _⟩ := all Chrono.utc (fun _ _ => ⟨0⟩)
    (chain [{ jobType := "report.generate", args := .null, options := [longDelay] }])
  have fits := (WorkflowDefinition.exists_toWire_eq_ok_iff.mp ⟨request, built⟩).1
  exact absurd (fits 0 _ rfl 0 _ rfl) (by decide)

end OjsSdk
