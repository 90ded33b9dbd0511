import OjsSdk.EnqueueOptions
import OjsSdk.Fallible

namespace OjsSdk

/-- A step of a workflow, as the user gives it. -/
structure Step where
  jobType : String
  args : Value
  options : List EnqueueOption

structure BatchCallbacks where
  onComplete : Option Step
  onSuccess : Option Step
  onFailure : Option Step

inductive WorkflowType
  | chain
  | group
  | batch
  deriving DecidableEq, Repr

structure WorkflowDefinition where
  workflowType : WorkflowType
  name : Option String
  steps : List Step
  callbacks : Option BatchCallbacks
  options : List EnqueueOption

def chain (steps : List Step) : WorkflowDefinition where
  workflowType := .chain
  name := none
  steps
  callbacks := none
  options := []

def group (jobs : List Step) : WorkflowDefinition where
  workflowType := .group
  name := none
  steps := jobs
  callbacks := none
  options := []

def batch (callbacks : BatchCallbacks) (jobs : List Step) : WorkflowDefinition where
  workflowType := .batch
  name := none
  steps := jobs
  callbacks := some callbacks
  options := []

structure WorkflowStepWire where
  id : String
  jobType : String
  args : Value
  dependsOn : List String
  options : Option EnqueueOptionsWire

structure WorkflowRequest where
  name : Option String
  steps : List WorkflowStepWire
  options : Option EnqueueOptionsWire

/-- A step with the place that `to_wire` gives it in the graph. -/
structure PlannedStep where
  id : String
  dependsOn : List String
  step : Step

def stepId (i : Nat) : String := "step-" ++ toString i

def jobId (i : Nat) : String := "job-" ++ toString i

/-- The callbacks that are present, under their ids. -/
def BatchCallbacks.present (c : BatchCallbacks) : List (String × Step) :=
  [("on-complete", c.onComplete), ("on-success", c.onSuccess), ("on-failure", c.onFailure)].filterMap
    (fun (id, step) => step.map (fun step => (id, step)))

namespace WorkflowDefinition

def planChain (steps : List Step) : List PlannedStep :=
  steps.zipIdx.map (fun (step, i) =>
    { id := stepId i, dependsOn := if 0 < i then [stepId (i - 1)] else [], step })

def planJobs (steps : List Step) : List PlannedStep :=
  steps.zipIdx.map (fun (step, i) => { id := jobId i, dependsOn := [], step })

def planCallbacks (jobs : Nat) (callbacks : Option BatchCallbacks) : List PlannedStep :=
  match callbacks with
  | some callbacks =>
    callbacks.present.map (fun (id, step) =>
      { id, dependsOn := (List.range jobs).map jobId, step })
  | none => []

/-- The wire steps of a definition before their options are resolved. -/
def planned (d : WorkflowDefinition) : List PlannedStep :=
  match d.workflowType with
  | .chain => planChain d.steps
  | .group => planJobs d.steps
  | .batch => planJobs d.steps ++ planCallbacks d.steps.length d.callbacks

end WorkflowDefinition

def PlannedStep.toWire (chrono : Chrono) (clock : Clock) (p : PlannedStep) :
    Except ChronoPanic WorkflowStepWire := do
  let options ← resolveOptions chrono clock p.step.options
  return {
    id := p.id
    jobType := p.step.jobType
    args := normalizeArgs p.step.args
    dependsOn := p.dependsOn
    options }

/-- `WorkflowDefinition::to_wire`. The clocks are those of its calls of
`resolve_options`, one for each wire step and the last for the default options. -/
def WorkflowDefinition.toWire (chrono : Chrono) (clocks : Nat → Clock) (d : WorkflowDefinition) :
    Except ChronoPanic WorkflowRequest := do
  let steps ← d.planned.zipIdx.mapM (fun (p, k) => p.toWire chrono (clocks k))
  let options ← resolveOptions chrono (clocks d.planned.length) d.options
  return { name := d.name, steps, options }

section

variable {chrono : Chrono} {clock : Clock} {clocks : Nat → Clock} {p : PlannedStep}
  {wire : WorkflowStepWire} {d : WorkflowDefinition} {request : WorkflowRequest}

theorem PlannedStep.toWire_eq_ok_iff :
    p.toWire chrono clock = .ok wire ↔
      wire.id = p.id ∧ wire.jobType = p.step.jobType ∧ wire.args = normalizeArgs p.step.args ∧
        wire.dependsOn = p.dependsOn ∧
        resolveOptions chrono clock p.step.options = .ok wire.options := by
  obtain ⟨id, jobType, args, dependsOn, options⟩ := wire
  unfold toWire
  cases resolveOptions chrono clock p.step.options with
  | error e => simp [bind, Except.bind]
  | ok options' =>
    simp only [bind, Except.bind, pure, Except.pure, Except.ok.injEq, WorkflowStepWire.mk.injEq]
    exact ⟨fun ⟨a, b, c, e, f⟩ => ⟨a.symm, b.symm, c.symm, e.symm, f⟩,
      fun ⟨a, b, c, e, f⟩ => ⟨a.symm, b.symm, c.symm, e.symm, f⟩⟩

theorem WorkflowDefinition.toWire_eq_ok_iff :
    d.toWire chrono clocks = .ok request ↔
      request.name = d.name ∧
        d.planned.zipIdx.mapM (fun (p, k) => p.toWire chrono (clocks k)) = .ok request.steps ∧
        resolveOptions chrono (clocks d.planned.length) d.options = .ok request.options := by
  obtain ⟨name, steps, options⟩ := request
  unfold toWire
  cases d.planned.zipIdx.mapM (fun (p, k) => p.toWire chrono (clocks k)) with
  | error e => simp [bind, Except.bind]
  | ok steps' =>
    cases resolveOptions chrono (clocks d.planned.length) d.options with
    | error e => simp [bind, Except.bind]
    | ok options' =>
      simp only [bind, Except.bind, pure, Except.pure, Except.ok.injEq, WorkflowRequest.mk.injEq]
      exact ⟨fun ⟨a, b, c⟩ => ⟨a.symm, b, c⟩, fun ⟨a, b, c⟩ => ⟨a.symm, b, c⟩⟩

theorem WorkflowDefinition.toWire_step {k : Nat} (built : d.toWire chrono clocks = .ok request)
    (hp : d.planned[k]? = some p) :
    ∃ wire, request.steps[k]? = some wire ∧ p.toWire chrono (clocks k) = .ok wire := by
  obtain ⟨_, hs, _⟩ := toWire_eq_ok_iff.mp built
  exact Fallible.getElem?_of_mapM hs (x := (p, k)) (by simp [hp])

/-- A workflow is turned into its wire form exactly when no delay of its steps and
default options overflows. -/
theorem WorkflowDefinition.exists_toWire_eq_ok_iff :
    (∃ request, d.toWire chrono clocks = .ok request) ↔
      (∀ k p, d.planned[k]? = some p → DelaysFit chrono (clocks k) p.step.options) ∧
        DelaysFit chrono (clocks d.planned.length) d.options := by
  have each (k : Nat) (p : PlannedStep) :
      (∃ wire, p.toWire chrono (clocks k) = .ok wire) ↔
        DelaysFit chrono (clocks k) p.step.options := by
    rw [← exists_resolveOptions_eq_ok_iff]
    constructor
    · rintro ⟨wire, hw⟩
      exact ⟨_, (PlannedStep.toWire_eq_ok_iff.mp hw).2.2.2.2⟩
    · rintro ⟨options, ho⟩
      exact ⟨⟨p.id, p.step.jobType, normalizeArgs p.step.args, p.dependsOn, options⟩,
        PlannedStep.toWire_eq_ok_iff.mpr ⟨rfl, rfl, rfl, rfl, ho⟩⟩
  have steps := Fallible.exists_mapM_eq_ok_iff
    (fun (e : PlannedStep × Nat) => e.1.toWire chrono (clocks e.2)) d.planned.zipIdx
  rw [← exists_resolveOptions_eq_ok_iff]
  constructor
  · rintro ⟨request, built⟩
    obtain ⟨_, hs, ho⟩ := toWire_eq_ok_iff.mp built
    refine ⟨fun k p hp => ?_, _, ho⟩
    exact (each k p).mp (steps.mp ⟨_, hs⟩ (p, k) (List.mk_mem_zipIdx_iff_getElem?.mpr hp))
  · rintro ⟨fit, options, ho⟩
    obtain ⟨wires, hs⟩ := steps.mpr (fun e he =>
      (each e.2 e.1).mpr (fit e.2 e.1 (List.mem_zipIdx_iff_getElem?.mp he)))
    exact ⟨⟨d.name, wires, options⟩, toWire_eq_ok_iff.mpr ⟨rfl, hs, ho⟩⟩

end

end OjsSdk
