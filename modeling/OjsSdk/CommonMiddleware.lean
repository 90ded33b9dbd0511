import OjsSdk.MiddlewareOnion
import OjsSdk.ProcessJob
import OjsSdk.Suspension

namespace OjsSdk

open Suspension

variable {R V : Type}

inductive LogLevel
  | debug
  | info
  | error
  deriving DecidableEq, Repr

/-- The value of a field of a span or of a log event. -/
inductive FieldValue
  | text (s : String)
  | number (n : Nat)
  | seconds (nanos : Nat)
  deriving DecidableEq, Repr

/-- The calls of the trait `MetricsRecorder`. -/
inductive RecorderCall
  | jobStarted (jobType queue : String)
  | jobCompleted (jobType queue : String) (durationMs : Nat)
  | jobFailed (jobType queue : String) (durationMs : Nat) (error : String)
  deriving DecidableEq, Repr

inductive SpanStatus
  | ok
  | error (description : String)
  deriving DecidableEq, Repr

/-- What can be observed of a job in a chain. `R` names the recorders and meters, and `V` are the
things that handlers and other middlewares do. -/
inductive Signal (R V : Type)
  | log (level : LogLevel) (message : String) (fields : List (String × FieldValue))
  | span (name : String) (fields : List (String × FieldValue))
  | spanStatus (status : SpanStatus)
  | record (recorder : R) (call : RecorderCall)
  | count (meter : R) (instrument : String) (attributes : List (String × FieldValue))
  | duration (meter : R) (nanos : Nat) (attributes : List (String × FieldValue))
  | own (v : V)
  deriving DecidableEq, Repr

abbrev JobProc (R V : Type) := Proc (Signal R V) HandlerResult

/-- A middleware that looks at a job before and after it, and passes both on unchanged. -/
structure Observer (R V : Type) where
  before : JobContext → List (Signal R V)
  after : JobContext → Nat → HandlerResult → List (Signal R V)

def Observer.handle (o : Observer R V) (ctx : JobContext) (next : JobContext → JobProc R V) :
    JobProc R V :=
  .emitAll (o.before ctx) <| .input fun start => (next ctx).bind fun result =>
    .input fun now => .emitAll (o.after ctx (now - start) result) (.done result)

def LoggingMiddleware : Observer R V where
  before := fun ctx =>
    [.log .debug "job started"
      [("ojs.job.type", .text ctx.job.jobType), ("ojs.job.id", .text ctx.job.id),
        ("ojs.job.queue", .text ctx.job.queue),
        ("ojs.job.attempt", .number ctx.job.attempt.toNat)]]
  after := fun ctx elapsed result =>
    let fields := [("ojs.job.type", FieldValue.text ctx.job.jobType),
      ("ojs.job.id", .text ctx.job.id), ("duration_ms", .number (elapsed / 10 ^ 6))]
    match result with
    | .ok _ => [.log .info "job completed" fields]
    | .error e => [.log .error "job failed" (fields ++ [("error", .text e.toText)])]

def MetricsMiddleware (recorder : R) : Observer R V where
  before := fun ctx => [.record recorder (.jobStarted ctx.job.jobType ctx.job.queue)]
  after := fun ctx elapsed result =>
    let durationMs := elapsed / 10 ^ 6
    match result with
    | .ok _ => [.record recorder (.jobCompleted ctx.job.jobType ctx.job.queue durationMs)]
    | .error e =>
      [.record recorder (.jobFailed ctx.job.jobType ctx.job.queue durationMs e.toText)]

/-- The name of the span is a constant, whatever name the middleware was given. -/
def TracingMiddleware (_spanName : String) : Observer R V where
  before := fun ctx =>
    [.span "process"
      [("otel.kind", .text "CONSUMER"), ("messaging.system", .text "ojs"),
        ("messaging.operation", .text "process"), ("ojs.job.type", .text ctx.job.jobType),
        ("ojs.job.id", .text ctx.job.id), ("ojs.job.queue", .text ctx.job.queue),
        ("ojs.job.attempt", .number ctx.job.attempt.toNat)]]
  after := fun ctx elapsed result =>
    let fields := [("ojs.job.type", FieldValue.text ctx.job.jobType),
      ("ojs.job.queue", .text ctx.job.queue), ("duration_s", .seconds elapsed)]
    match result with
    | .ok _ => [.log .info "job completed" fields]
    | .error e => [.log .error "job failed" (fields ++ [("error", .text e.toText)])]

/-- The attempt is the one of the context here, not the one of the job. -/
def OtelTracingMiddleware : Observer R V where
  before := fun ctx =>
    [.span ("ojs.job " ++ ctx.job.jobType)
      [("ojs.job.type", .text ctx.job.jobType), ("ojs.job.id", .text ctx.job.id),
        ("ojs.job.queue", .text ctx.job.queue), ("ojs.job.attempt", .number ctx.attempt.toNat)]]
  after := fun _ _ result =>
    match result with
    | .ok _ => [.spanStatus .ok]
    | .error e => [.spanStatus (.error e.toText)]

def OtelMetricsMiddleware (meter : R) : Observer R V where
  before := fun ctx =>
    [.count meter "ojs.job.started"
      [("ojs.job.type", .text ctx.job.jobType), ("ojs.job.queue", .text ctx.job.queue)]]
  after := fun ctx elapsed result =>
    let attributes := [("ojs.job.type", FieldValue.text ctx.job.jobType),
      ("ojs.job.queue", .text ctx.job.queue)]
    let instrument :=
      match result with
      | .ok _ => "ojs.job.completed"
      | .error _ => "ojs.job.failed"
    [.count meter instrument attributes, .duration meter elapsed attributes]

/-- What a middleware of someone else decides before the next handler may run. -/
inductive Decision (V : Type)
  | shortCircuit (result : HandlerResult)
  | callNext (ctx : JobContext) (after : HandlerResult → Proc V HandlerResult)

/-- The implementations of the trait `Middleware`. -/
inductive CommonMiddleware (R V : Type)
  | logging
  | metrics (recorder : R)
  | tracing (spanName : String)
  | otelTracing
  | otelMetrics (meter : R)
  | timeout (duration : Duration)
  | other (decide : JobContext → Proc V (Decision V))

def timedOut (duration : Duration) (ctx : JobContext) : HandlerResult :=
  .error (.handler ("Job " ++ ctx.job.jobType ++ " (id=" ++ ctx.job.id ++ ") timed out after " ++
    Nat.repr duration.asMillis ++ "ms"))

namespace CommonMiddleware

def observer : CommonMiddleware R V → Option (Observer R V)
  | logging => some LoggingMiddleware
  | metrics recorder => some (MetricsMiddleware recorder)
  | tracing spanName => some (TracingMiddleware spanName)
  | otelTracing => some OtelTracingMiddleware
  | otelMetrics meter => some (OtelMetricsMiddleware meter)
  | timeout _ | other _ => none

def handle (mw : CommonMiddleware R V) (ctx : JobContext) (next : JobContext → JobProc R V) :
    JobProc R V :=
  match mw with
  | logging => LoggingMiddleware.handle ctx next
  | metrics recorder => (MetricsMiddleware recorder).handle ctx next
  | tracing spanName => (TracingMiddleware spanName).handle ctx next
  | otelTracing => OtelTracingMiddleware.handle ctx next
  | otelMetrics meter => (OtelMetricsMiddleware meter).handle ctx next
  | timeout duration => (next ctx).timeout (timedOut duration ctx)
  | other decide =>
    ((decide ctx).relabel Signal.own).bind fun decision =>
      match decision with
      | .shortCircuit result => .done result
      | .callNext ctx after => (next ctx).bind fun result => (after result).relabel Signal.own

end CommonMiddleware

/-- A job in a chain around a handler. -/
def runJob (chain : MiddlewareChain (CommonMiddleware R V))
    (handler : JobContext → Proc V HandlerResult) (ctx : JobContext) : JobProc R V :=
  chain.wrap CommonMiddleware.handle (fun ctx => (handler ctx).relabel Signal.own) ctx

/-- What handlers and other middlewares do, without the signals of the observers. -/
def Signal.visible : Signal R V → Bool
  | .own _ => true
  | _ => false

/-- The chain without its observers. -/
def MiddlewareChain.unobserved (chain : MiddlewareChain (CommonMiddleware R V)) :
    MiddlewareChain (CommonMiddleware R V) where
  middleware := chain.middleware.filter (fun named => named.middleware.observer.isNone)

namespace CommonMiddleware

variable {mw : CommonMiddleware R V} {o : Observer R V} {ctx : JobContext}
  {next next' : JobContext → JobProc R V}

theorem handle_eq_observe (h : mw.observer = some o) : mw.handle = o.handle := by
  cases mw with
  | timeout _ => cases h
  | other _ => cases h
  | _ =>
    cases h
    rfl

/-- The signals of an observer are none that handlers can make. -/
theorem not_visible (h : mw.observer = some o) : (∀ e ∈ o.before ctx, Signal.visible e = false) ∧
    ∀ elapsed result, ∀ e ∈ o.after ctx elapsed result, Signal.visible e = false := by
  cases mw with
  | timeout _ => cases h
  | other _ => cases h
  | otelMetrics meter =>
    cases h
    simp [OtelMetricsMiddleware, Signal.visible]
  | _ =>
    cases h
    refine ⟨by simp [LoggingMiddleware, MetricsMiddleware, TracingMiddleware,
      OtelTracingMiddleware, Signal.visible], ?_⟩
    intro elapsed result
    cases result <;> simp [LoggingMiddleware, MetricsMiddleware, TracingMiddleware,
      OtelTracingMiddleware, Signal.visible]

theorem filter_visible_before (h : mw.observer = some o) :
    (o.before ctx).filter Signal.visible = [] :=
  List.filter_eq_nil_iff.mpr (fun e he => by simp [(not_visible h).1 e he])

theorem filter_visible_after (h : mw.observer = some o) (elapsed : Nat) (result : HandlerResult) :
    (o.after ctx elapsed result).filter Signal.visible = [] :=
  List.filter_eq_nil_iff.mpr (fun e he => by simp [(not_visible h).2 elapsed result e he])

/-- An observer shows its own signals around what it looks at. -/
theorem observes_observer_iff {all : List (Signal R V)} {ending : Ending HandlerResult} :
    Observes (o.handle ctx next) all ending ↔ ∃ inner, Observes (next ctx) inner ending ∧
      match ending with
      | .error _ => all = o.before ctx ++ inner
      | .ok result => ∃ elapsed, all = o.before ctx ++ inner ++ o.after ctx elapsed result := by
  rw [Observer.handle, observes_emitAll_iff]
  simp only [observes_input_iff]
  constructor
  · rintro ⟨later, rfl, start, h⟩
    rcases observes_bind_cases h with ⟨stop, rfl, first⟩ | ⟨result, before, after, first, last, rfl⟩
    · exact ⟨later, first, rfl⟩
    · obtain ⟨now, last⟩ := observes_input_iff.mp last
      obtain ⟨rest, rfl, done⟩ := (observes_emitAll_iff _).mp last
      obtain ⟨rfl, rfl⟩ := observes_done_iff.mp done
      exact ⟨before, first, now - start, by simp⟩
  · rintro ⟨inner, first, all_eq⟩
    cases ending with
    | error stop =>
      subst all_eq
      exact ⟨inner, rfl, 0, first.bind_stop⟩
    | ok result =>
      obtain ⟨elapsed, rfl⟩ := all_eq
      refine ⟨inner ++ o.after ctx elapsed result, by simp, 0, first.bind_ok ?_⟩
      refine .input elapsed ((observes_emitAll_iff _).mpr ⟨[], ?_, .done result⟩)
      simp

/-- An observer cannot be told from what it looks at. -/
theorem alike_observer (h : mw.observer = some o) :
    Alike Signal.visible (o.handle ctx next) (next ctx) := by
  refine .of_sides ?_ ?_
  · intro all ending seen
    obtain ⟨inner, first, all_eq⟩ := observes_observer_iff.mp seen
    refine ⟨inner, first, ?_⟩
    cases ending with
    | error stop => rw [all_eq, List.filter_append, filter_visible_before h, List.nil_append]
    | ok result =>
      obtain ⟨elapsed, rfl⟩ := all_eq
      rw [List.filter_append, List.filter_append, filter_visible_before h,
        filter_visible_after h, List.nil_append, List.append_nil]
  · intro inner ending first
    cases ending with
    | error stop =>
      refine ⟨_, observes_observer_iff.mpr ⟨inner, first, rfl⟩, ?_⟩
      rw [List.filter_append, filter_visible_before h, List.nil_append]
    | ok result =>
      refine ⟨_, observes_observer_iff.mpr ⟨inner, first, 0, rfl⟩, ?_⟩
      rw [List.filter_append, List.filter_append, filter_visible_before h,
        filter_visible_after h, List.nil_append, List.append_nil]

/-- A middleware keeps apart only what the next handlers keep apart. -/
theorem alike_handle (mw : CommonMiddleware R V) (ctx : JobContext)
    (alike : ∀ ctx, Alike Signal.visible (next ctx) (next' ctx)) :
    Alike Signal.visible (mw.handle ctx next) (mw.handle ctx next') := by
  cases found : mw.observer with
  | some o =>
    rw [handle_eq_observe found]
    exact (alike_observer found).trans ((alike ctx).trans (alike_observer found).symm)
  | none =>
    cases mw with
    | timeout duration => exact (alike ctx).timeout _
    | other decide =>
      refine Alike.bind (.refl _) ?_
      intro decision
      cases decision with
      | shortCircuit result => exact .refl _
      | callNext ctx after => exact (alike ctx).bind (fun result => .refl _)
    | _ => cases found

end CommonMiddleware

/-- Observers change nothing that handlers and other middlewares do, whether they panic or hang,
or what comes out, wherever in the chain they stand. -/
theorem observers_transparent (chain : MiddlewareChain (CommonMiddleware R V))
    (handler : JobContext → Proc V HandlerResult) (ctx : JobContext) :
    Alike Signal.visible (runJob chain handler ctx) (runJob chain.unobserved handler ctx) := by
  obtain ⟨named⟩ := chain
  unfold MiddlewareChain.unobserved runJob
  induction named generalizing ctx with
  | nil => exact .refl _
  | cons named rest ih =>
    rw [MiddlewareChain.wrap_cons]
    cases found : named.middleware.observer with
    | some o =>
      rw [List.filter_cons_of_neg (by simp [found]), CommonMiddleware.handle_eq_observe found]
      exact (CommonMiddleware.alike_observer found).trans (ih ctx)
    | none =>
      rw [List.filter_cons_of_pos (by simp [found]), MiddlewareChain.wrap_cons]
      exact CommonMiddleware.alike_handle named.middleware ctx ih

theorem alike_observed_front {front : List (NamedMiddleware (CommonMiddleware R V))}
    (observers : ∀ named ∈ front, named.middleware.observer.isSome)
    (rest : List (NamedMiddleware (CommonMiddleware R V)))
    (handler : JobContext → Proc V HandlerResult) (ctx : JobContext) :
    Alike Signal.visible (runJob ⟨front ++ rest⟩ handler ctx) (runJob ⟨rest⟩ handler ctx) := by
  unfold runJob
  induction front with
  | nil => exact .refl _
  | cons named front ih =>
    obtain ⟨o, found⟩ := Option.isSome_iff_exists.mp (observers named (by simp))
    have inner := ih (fun other mem => observers other (List.mem_cons_of_mem named mem))
    rw [List.cons_append, MiddlewareChain.wrap_cons, CommonMiddleware.handle_eq_observe found]
    exact (CommonMiddleware.alike_observer found).trans inner

theorem shows_timeout_iff {visible : Signal R V → Bool} {p : JobProc R V} {late : HandlerResult}
    {shown : List (Signal R V)} {ending : Ending HandlerResult} :
    Shows visible (p.timeout late) shown ending ↔
      ∃ untimed, Shows visible p shown untimed ∧ Cut late untimed ending := by
  constructor
  · rintro ⟨all, seen, rfl⟩
    obtain ⟨untimed, first, cut⟩ := (observes_timeout_iff late).mp seen
    exact ⟨untimed, ⟨all, first, rfl⟩, cut⟩
  · rintro ⟨untimed, ⟨all, first, rfl⟩, cut⟩
    exact ⟨all, (observes_timeout_iff late).mpr ⟨untimed, first, cut⟩, rfl⟩

/-- With a timeout in front of everything but observers no job hangs, and it blocks its thread only
where it does so without the timeout. Its results are those that it has without the timeout, and
where it can be suspended an error that it is retried for. -/
theorem timeout_results_iff (front back : List (NamedMiddleware (CommonMiddleware R V)))
    (name : String) (duration : Duration) (handler : JobContext → Proc V HandlerResult)
    (ctx : JobContext) (observers : ∀ named ∈ front, named.middleware.observer.isSome)
    (shown : List (Signal R V)) :
    let job := runJob ⟨front ++ ⟨name, .timeout duration⟩ :: back⟩ handler ctx
    let untimed := runJob ⟨back⟩ handler ctx
    ¬Shows Signal.visible job shown (.error .hung) ∧
      (Shows Signal.visible job shown (.error .blocked) ↔
        Shows Signal.visible untimed shown (.error .blocked)) ∧
      (∀ result, Shows Signal.visible job shown (.ok result) ↔
        Shows Signal.visible untimed shown (.ok result) ∨
          (result = timedOut duration ctx ∧ ∃ stop : Stop, stop.isSuspended = true ∧
            Shows Signal.visible untimed shown (.error stop))) ∧
      (settlement ctx.job (.returned (timedOut duration ctx))).retryable = some true := by
  intro job untimed
  have timed : ∀ ending, Shows Signal.visible job shown ending ↔
      ∃ before, Shows Signal.visible untimed shown before ∧
        Cut (timedOut duration ctx) before ending := by
    intro ending
    have observed := alike_observed_front observers (⟨name, .timeout duration⟩ :: back) handler ctx
    rw [observed shown ending, runJob, MiddlewareChain.wrap_cons]
    exact shows_timeout_iff
  refine ⟨?_, ?_, ?_, rfl⟩
  · intro hung
    obtain ⟨before, _, cut⟩ := (timed _).mp hung
    cases cut with
    | stays awake => cases awake
  · rw [timed]
    constructor
    · rintro ⟨before, seen, cut⟩
      cases cut with
      | stays => exact seen
    · intro seen
      exact ⟨_, seen, .stays rfl⟩
  · intro result
    rw [timed]
    constructor
    · rintro ⟨before, seen, cut⟩
      cases cut with
      | result => exact .inl seen
      | fired other => exact .inr ⟨rfl, _, other, seen⟩
    · rintro (seen | ⟨rfl, stop, other, seen⟩)
      · exact ⟨_, seen, .result result⟩
      · exact ⟨_, seen, .fired other⟩

/-- A logged handler that hangs is timed out. -/
theorem hanging_times_out : Shows Signal.visible
    (runJob (R := Unit) (V := Unit) ⟨[⟨"logging", .logging⟩,
      ⟨"timeout", .timeout (.fromMillis 50 (by omega))⟩]⟩ (fun _ => .hang) emailContext)
    [] (.ok (timedOut (.fromMillis 50 (by omega)) emailContext)) := by
  have exactly := timeout_results_iff (R := Unit) (V := Unit) [⟨"logging", .logging⟩] [] "timeout"
    (.fromMillis 50 (by omega)) (fun _ => .hang) emailContext (by simp [CommonMiddleware.observer]) []
  exact (exactly.2.2.1 _).mpr (.inr ⟨rfl, .hung, rfl, [], .hang, rfl⟩)

end OjsSdk
