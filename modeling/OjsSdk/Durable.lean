import OjsSdk.Job
import OjsSdk.TypedArgs

namespace OjsSdk

structure ReplayEntry where
  seq : Nat
  entryType : String
  key : String
  result : Value

/-- `DurableContext`, without its client and its job. -/
structure DurableContext where
  replayLog : List ReplayEntry
  replayCursor : Nat

def DurableContext.new : DurableContext where
  replayLog := []
  replayCursor := 0

def DurableContext.newWithReplay (replayLog : List ReplayEntry) : DurableContext where
  replayLog
  replayCursor := 0

/-- The error type of `durable.rs`. -/
inductive DurableError
  | transport (message : String)
  | server (message : String)
  | deserialization (message : String)
  | serialization (message : String)
  deriving DecidableEq, Repr

/-- How a call of a helper ends. -/
inductive HelperResult (α : Type)
  | value (a : α)
  | failed (e : DurableError)
  | panicked

def HelperResult.expect {α : Type} : Except String α → HelperResult α
  | .ok a => .value a
  | .error _ => .panicked

def HelperResult.mapErr {α : Type} (f : String → DurableError) : Except String α → HelperResult α
  | .ok a => .value a
  | .error e => .failed (f e)

/-- A type that is `Serialize + DeserializeOwned`, through `to_value` and `from_value`. -/
structure Codec (T : Type) where
  toValue : T → Except String Value
  fromValue : Decoder T

def Codec.Lossless {T : Type} (c : Codec T) : Prop :=
  ∀ t v, c.toValue t = .ok v → c.fromValue v = .ok t

def Codec.string : Codec String where
  toValue s := .ok (.string s)
  fromValue
    | .string s => .ok s
    | _ => .error "invalid type, expected a string"

/-- What a helper takes its fresh values from. -/
inductive Source
  | clock
  | rng
  | closure
  deriving DecidableEq, Repr

/-- A deterministic helper: the entries it accepts from the log, how it reads one, and
where a fresh value comes from. `W` is what the outside world is like at a call. -/
structure Helper (W T : Type) where
  entryType : String
  key : String
  accepts : ReplayEntry → Bool
  decode : Value → HelperResult T
  source : Source
  fresh : W → HelperResult T
  encode : T → HelperResult Value

namespace DurableContext

variable {W T : Type}

def advance (ctx : DurableContext) : DurableContext :=
  { ctx with replayCursor := ctx.replayCursor + 1 }

def record (ctx : DurableContext) (entryType key : String) (result : Value) : DurableContext where
  replayLog := ctx.replayLog ++ [{ seq := ctx.replayCursor, entryType, key, result }]
  replayCursor := ctx.replayCursor + 1

/-- The common body of the helpers: the entry at the cursor if the helper accepts it,
else a fresh value, which is recorded. -/
def consult (h : Helper W T) (w : W) (ctx : DurableContext) :
    HelperResult T × DurableContext × Option Source :=
  match (ctx.replayLog[ctx.replayCursor]?).filter h.accepts with
  | some entry => (h.decode entry.result, ctx.advance, none)
  | none =>
    match h.fresh w with
    | .value t =>
      match h.encode t with
      | .value result => (.value t, ctx.record h.entryType h.key result, some h.source)
      | .failed e => (.failed e, ctx, some h.source)
      | .panicked => (.panicked, ctx, some h.source)
    | .failed e => (.failed e, ctx, some h.source)
    | .panicked => (.panicked, ctx, some h.source)

end DurableContext

/-- The system clock with chrono's serde implementation, and the random number generator. -/
structure Surroundings (W : Type) where
  timeCodec : Codec DateTime
  clock : W → DateTime
  fillBytes : W → Nat → List UInt8

def hexDigit (n : Nat) : Char := "0123456789abcdef".toList.getD n '0'

/-- `format!("{b:02x}")` of every byte. -/
def toHex (bytes : List UInt8) : String :=
  String.ofList (bytes.flatMap (fun b => [hexDigit (b.toNat / 16), hexDigit (b.toNat % 16)]))

section

variable {W T : Type}

def nowHelper (s : Surroundings W) : Helper W DateTime where
  entryType := "now"
  key := "now"
  accepts entry := entry.entryType == "now"
  decode v := .expect (s.timeCodec.fromValue v)
  source := .clock
  fresh w := .value (s.clock w)
  encode t := .expect (s.timeCodec.toValue t)

def randomHelper (s : Surroundings W) (numBytes : Nat) : Helper W String where
  entryType := "random"
  key := "random"
  accepts entry := entry.entryType == "random"
  decode v := .expect (Codec.string.fromValue v)
  source := .rng
  fresh w := .value (toHex (s.fillBytes w numBytes))
  encode t := .expect (Codec.string.toValue t)

def sideEffectHelper (codec : Codec T) (key : String) (f : W → Except DurableError T) :
    Helper W T where
  entryType := "side_effect"
  key
  accepts entry := entry.entryType == "side_effect" && entry.key == key
  decode v := .mapErr .deserialization (codec.fromValue v)
  source := .closure
  fresh w :=
    match f w with
    | .ok t => .value t
    | .error e => .failed e
  encode t := .mapErr .serialization (codec.toValue t)

namespace DurableContext

def now (s : Surroundings W) (w : W) (ctx : DurableContext) :
    HelperResult DateTime × DurableContext × Option Source :=
  ctx.consult (nowHelper s) w

def random (s : Surroundings W) (numBytes : Nat) (w : W) (ctx : DurableContext) :
    HelperResult String × DurableContext × Option Source :=
  ctx.consult (randomHelper s numBytes) w

def sideEffect (codec : Codec T) (key : String) (f : W → Except DurableError T) (w : W)
    (ctx : DurableContext) : HelperResult T × DurableContext × Option Source :=
  ctx.consult (sideEffectHelper codec key f) w

end DurableContext

end

/-- A call of a helper by a handler in the state type `σ`, with what the handler makes
of the value returned. On the error of a side effect it goes on, or it stops. -/
inductive HelperCall (W σ : Type) : Type 1
  | now (resume : DateTime → σ)
  | random (numBytes : Nat) (resume : String → σ)
  | sideEffect (T : Type) (codec : Codec T) (key : String) (f : W → Except DurableError T)
      (resume : T → σ) (recover : DurableError → Option σ)

/-- A handler whose next call depends only on the values returned so far. -/
structure DurableHandler (W : Type) : Type 1 where
  State : Type
  start : State
  next : State → Option (HelperCall W State)

inductive Returned : Type 1
  | time (t : DateTime)
  | hex (s : String)
  | effect (T : Type) (t : T)
  | failure (e : DurableError)

/-- Where an execution of a handler is. -/
inductive ExecutionStatus (σ : Type)
  | running (state : σ)
  | failed (e : DurableError)
  | panicked

structure Execution (σ : Type) : Type 1 where
  ctx : DurableContext
  status : ExecutionStatus σ
  returned : List Returned
  invoked : List Source

def Execution.after {σ T : Type} (e : Execution σ)
    (result : HelperResult T × DurableContext × Option Source) (wrap : T → Returned)
    (resume : T → σ) (recover : DurableError → Option σ) : Execution σ :=
  let invoked := e.invoked ++ result.2.2.toList
  match result.1 with
  | .value t =>
    { ctx := result.2.1, status := .running (resume t), returned := e.returned ++ [wrap t],
      invoked }
  | .failed err =>
    match recover err with
    | some state =>
      { ctx := result.2.1, status := .running state, returned := e.returned ++ [.failure err],
        invoked }
    | none => { e with ctx := result.2.1, status := .failed err, invoked }
  | .panicked => { e with ctx := result.2.1, status := .panicked, invoked }

section

variable {W : Type} (s : Surroundings W) (h : DurableHandler W)

/-- The next helper call of a handler, if it makes one. -/
def Execution.step (w : W) (e : Execution h.State) : Execution h.State :=
  match e.status with
  | .running state =>
    match h.next state with
    | some (.now resume) => e.after (e.ctx.now s w) .time resume (fun _ => none)
    | some (.random numBytes resume) =>
      e.after (e.ctx.random s numBytes w) .hex resume (fun _ => none)
    | some (.sideEffect T codec key f resume recover) =>
      e.after (e.ctx.sideEffect codec key f w) (.effect T) resume recover
    | none => e
  | _ => e

/-- The first calls of a handler on a context. The world at call `i` is `env i`. -/
def execution (ctx : DurableContext) (env : Nat → W) : Nat → Execution h.State
  | 0 => { ctx, status := .running h.start, returned := [], invoked := [] }
  | n + 1 => (execution ctx env n).step s h (env n)

/-- The helper call that comes next, if the handler makes one. -/
def Execution.call (e : Execution h.State) : Option (HelperCall W h.State) :=
  match e.status with
  | .running state => h.next state
  | _ => none

end

/-- The helper that a call consults, and what the handler makes of its result. -/
structure HelperUse (W σ : Type) : Type 1 where
  T : Type
  helper : Helper W T
  wrap : T → Returned
  resume : T → σ
  recover : DurableError → Option σ

section

variable {W σ : Type} (s : Surroundings W)

def HelperCall.use : HelperCall W σ → HelperUse W σ
  | .now resume => ⟨DateTime, nowHelper s, .time, resume, fun _ => none⟩
  | .random numBytes resume => ⟨String, randomHelper s numBytes, .hex, resume, fun _ => none⟩
  | .sideEffect T codec key f resume recover =>
    ⟨T, sideEffectHelper codec key f, .effect T, resume, recover⟩

def HelperUse.run (u : HelperUse W σ) (w : W) (e : Execution σ) : Execution σ :=
  e.after (e.ctx.consult u.helper w) u.wrap u.resume u.recover

end

section

variable {W : Type} {s : Surroundings W} {h : DurableHandler W} {e : Execution h.State}

theorem Execution.step_of_call {c : HelperCall W h.State} (call : e.call h = some c) (w : W) :
    e.step s h w = (c.use s).run w e := by
  unfold Execution.call at call
  split at call
  next state status =>
    simp only [Execution.step, status, call]
    cases c with
    | now resume => rfl
    | random numBytes resume => rfl
    | sideEffect T codec key f resume recover => rfl
  next => cases call

theorem Execution.step_of_no_call (call : e.call h = none) (w : W) : e.step s h w = e := by
  unfold Execution.call at call
  split at call
  next state status => simp only [Execution.step, status, call]
  next other =>
    unfold Execution.step
    split
    next state status => exact absurd status (other state)
    next => rfl

end

end OjsSdk
