import OjsSdk.Middleware
import Mathlib.Data.List.Infix

namespace OjsSdk

variable {M W : Type}

/-- What can be seen of a job that runs through a chain. -/
inductive ChainEvent (M : Type)
  | enter (mw : M)
  | handler
  | exit (mw : M)
  deriving DecidableEq

/-- The events so far, and the middlewares that have called the next handler. -/
structure Observed (M : Type) where
  trace : List (ChainEvent M)
  called : List M

/-- What a middleware decides before the next handler may run. `W` is the outside world. -/
inductive Choice (W : Type)
  | shortCircuit (result : HandlerResult)
  | callNext (ctx : JobContext) (after : HandlerResult → StateM W HandlerResult)

abbrev Layer (W : Type) := JobContext → StateM W (Choice W)

abbrev ObservedM (M W : Type) := StateM (W × Observed M)

abbrev ObservedHandler (M W : Type) := JobContext → ObservedM M W HandlerResult

namespace ObservedM

def emit (event : ChainEvent M) : ObservedM M W Unit :=
  modify (fun s => (s.1, { s.2 with trace := s.2.trace ++ [event] }))

def noteCall (mw : M) : ObservedM M W Unit :=
  modify (fun s => (s.1, { s.2 with called := s.2.called ++ [mw] }))

def outside {α : Type} (action : StateM W α) : ObservedM M W α := fun s =>
  let (a, w) := action s.1
  (a, w, s.2)

@[simp] theorem run_emit (event : ChainEvent M) (s : W × Observed M) :
    (emit event).run s = ((), s.1, { s.2 with trace := s.2.trace ++ [event] }) :=
  rfl

@[simp] theorem run_outside {α : Type} (action : StateM W α) (s : W × Observed M) :
    (outside action).run s = ((action.run s.1).1, (action.run s.1).2, s.2) :=
  rfl

end ObservedM

open ObservedM

/-- The middleware `mw`, which does what its layer decides. -/
def observedHandle (layer : M → Layer W) (mw : M) (ctx : JobContext) (next : ObservedHandler M W) :
    ObservedM M W HandlerResult := do
  emit (.enter mw)
  match ← outside (layer mw ctx) with
  | .shortCircuit result =>
    emit (.exit mw)
    return result
  | .callNext ctx after =>
    noteCall mw
    let result ← next ctx
    let result ← outside (after result)
    emit (.exit mw)
    return result

def observedBase (handler : JobContext → StateM W HandlerResult) : ObservedHandler M W :=
  fun ctx => do
    emit .handler
    outside (handler ctx)

section

variable {layer : M → Layer W} {mw : M} {ctx ctx' : JobContext} {w w' : W} {past : Observed M}
  {next : ObservedHandler M W} {result : HandlerResult}

theorem observedHandle_shortCircuit (decided : (layer mw ctx).run w = (.shortCircuit result, w')) :
    (observedHandle layer mw ctx next).run (w, past) =
      (result, w', ⟨past.trace ++ [.enter mw] ++ [.exit mw], past.called⟩) := by
  simp only [observedHandle, StateT.run_bind, run_emit, run_outside]
  dsimp only [bind]
  rw [decided]
  rfl

theorem observedHandle_callNext {after : HandlerResult → StateM W HandlerResult}
    (decided : (layer mw ctx).run w = (.callNext ctx' after, w')) :
    ((observedHandle layer mw ctx next).run (w, past)).2.2 =
      let inner := ((next ctx').run
        (w', ⟨past.trace ++ [.enter mw], past.called ++ [mw]⟩)).2.2
      ⟨inner.trace ++ [.exit mw], inner.called⟩ := by
  simp only [observedHandle, StateT.run_bind, run_emit, run_outside]
  dsimp only [bind]
  rw [decided]
  rfl

end

/-- A run through the layers of an onion. The middlewares entered come first in the list, they
are left in the reverse order, and the handler inside runs once if every middleware has called
the next one, else not. -/
def Onion (mws : List M) (seen : Observed M) : Prop :=
  ∃ entered inside, entered <+: mws ∧
    seen.trace = entered.map .enter ++ inside ++ entered.reverse.map .exit ∧
    (seen.called = mws ∧ inside = [.handler] ∨ seen.called ≠ mws ∧ inside = [])

theorem Onion.base : Onion ([] : List M) ⟨[.handler], []⟩ :=
  ⟨[], [.handler], List.prefix_rfl, rfl, .inl ⟨rfl, rfl⟩⟩

theorem Onion.shortCircuit (mw : M) (mws : List M) :
    Onion (mw :: mws) ⟨[.enter mw, .exit mw], []⟩ :=
  ⟨[mw], [], List.cons_prefix_cons.mpr ⟨rfl, List.nil_prefix⟩, rfl, .inr ⟨by simp, rfl⟩⟩

theorem Onion.layer {mw : M} {mws : List M} {seen : Observed M} (onion : Onion mws seen) :
    Onion (mw :: mws) ⟨.enter mw :: seen.trace ++ [.exit mw], mw :: seen.called⟩ := by
  obtain ⟨entered, inside, first, trace, ran⟩ := onion
  refine ⟨mw :: entered, inside, List.cons_prefix_cons.mpr ⟨rfl, first⟩, ?_, ?_⟩
  · simp [trace]
  · simpa using ran

theorem MiddlewareChain.wrap_nil {m : Type → Type}
    (handle : M → JobContext → (JobContext → m HandlerResult) → m HandlerResult)
    (handler : JobContext → m HandlerResult) : wrap handle handler ⟨[]⟩ = handler :=
  rfl

theorem MiddlewareChain.wrap_cons {m : Type → Type}
    (handle : M → JobContext → (JobContext → m HandlerResult) → m HandlerResult)
    (handler : JobContext → m HandlerResult) (named : NamedMiddleware M)
    (rest : List (NamedMiddleware M)) :
    wrap handle handler ⟨named :: rest⟩ =
      fun ctx => handle named.middleware ctx (wrap handle handler ⟨rest⟩) := by
  simp only [wrap, List.foldl_reverse, List.foldr_cons]

/-- From any state on, the wrapped handler adds a run through the onion. -/
theorem wrap_observed (layer : M → Layer W) (handler : JobContext → StateM W HandlerResult)
    (mws : List (NamedMiddleware M)) (ctx : JobContext) (w : W) (past : Observed M) :
    ∃ seen, Onion (mws.map NamedMiddleware.middleware) seen ∧
      ((MiddlewareChain.wrap (observedHandle layer) (observedBase handler) ⟨mws⟩ ctx).run
        (w, past)).2.2 = ⟨past.trace ++ seen.trace, past.called ++ seen.called⟩ := by
  induction mws generalizing ctx w past with
  | nil =>
    refine ⟨⟨[.handler], []⟩, .base, ?_⟩
    rw [MiddlewareChain.wrap_nil, List.append_nil]
    rfl
  | cons named rest ih =>
    rw [MiddlewareChain.wrap_cons, List.map_cons]
    rcases decided : (layer named.middleware ctx).run w with ⟨result | ⟨ctx', after⟩, w'⟩
    · refine ⟨⟨[.enter named.middleware, .exit named.middleware], []⟩, .shortCircuit _ _, ?_⟩
      rw [observedHandle_shortCircuit decided]
      simp
    · obtain ⟨seen, onion, inner⟩ := ih ctx' w'
        ⟨past.trace ++ [.enter named.middleware], past.called ++ [named.middleware]⟩
      refine ⟨_, onion.layer, ?_⟩
      rw [observedHandle_callNext decided, inner]
      simp

/-- A chain, with the handlers that it has wrapped. -/
structure ChainSession (M W : Type) where
  chain : MiddlewareChain M
  wrapped : List (ObservedHandler M W)

inductive SessionStep (M W : Type)
  | edit (edit : ChainEdit M)
  | wrap (handler : JobContext → StateM W HandlerResult)

namespace ChainSession

def start : ChainSession M W where
  chain := .new
  wrapped := []

def step (layer : M → Layer W) (s : ChainSession M W) : SessionStep M W → ChainSession M W
  | .edit edit => { s with chain := edit.apply s.chain }
  | .wrap handler =>
    { s with
      wrapped := s.wrapped ++ [s.chain.wrap (observedHandle layer) (observedBase handler)] }

def run (layer : M → Layer W) (steps : List (SessionStep M W)) (s : ChainSession M W) :
    ChainSession M W :=
  steps.foldl (step layer) s

theorem wrapped_prefix (layer : M → Layer W) (steps : List (SessionStep M W))
    (s : ChainSession M W) : s.wrapped <+: (s.run layer steps).wrapped := by
  induction steps generalizing s with
  | nil => exact List.prefix_rfl
  | cons next steps ih =>
    refine List.IsPrefix.trans ?_ (ih (s.step layer next))
    cases next with
    | edit edit => exact List.prefix_rfl
    | wrap handler => exact List.prefix_append _ _

end ChainSession

/-- After any history a wrapped handler runs the chain of that moment as an onion, whatever
comes later, and the next edit keeps the survivors in order. -/
theorem wrapped_onion (layer : M → Layer W) (history later : List (SessionStep M W))
    (handler : JobContext → StateM W HandlerResult) :
    let before := ChainSession.start.run layer history
    let after := before.run layer (.wrap handler :: later)
    (∃ wrapped, after.wrapped[before.wrapped.length]? = some wrapped ∧
      ∀ ctx w, Onion (before.chain.middleware.map NamedMiddleware.middleware)
        ((wrapped ctx).run (w, ⟨[], []⟩)).2.2) ∧
    ∀ edit : ChainEdit M, edit.KeepsOrder before.chain := by
  intro before after
  refine ⟨?_, fun edit => edit.keepsOrder before.chain⟩
  obtain ⟨more, kept⟩ := ChainSession.wrapped_prefix layer later (before.step layer (.wrap handler))
  refine ⟨before.chain.wrap (observedHandle layer) (observedBase handler), ?_, fun ctx w => ?_⟩
  · have last : after.wrapped = before.wrapped ++
        [before.chain.wrap (observedHandle layer) (observedBase handler)] ++ more := kept.symm
    rw [last]
    simp
  · obtain ⟨seen, onion, same⟩ := wrap_observed layer handler before.chain.middleware ctx w ⟨[], []⟩
    rw [List.nil_append, List.nil_append] at same
    rw [same]
    exact onion

end OjsSdk
