import OjsSdk.DurableCalls

namespace OjsSdk

variable {W T : Type} {s : Surroundings W} {h : DurableHandler W}

/-- What a helper has recorded it accepts and reads back. -/
structure Helper.Replays (k : Helper W T) : Prop where
  accepts : ∀ seq v, k.accepts ⟨seq, k.entryType, k.key, v⟩ = true
  reads : ∀ t v, k.encode t = .value v → k.decode v = .value t

/-- The codecs of a handler's values invert what they record. -/
structure DurableHandler.Lossless (s : Surroundings W) (h : DurableHandler W) : Prop where
  time : s.timeCodec.Lossless
  effect : ∀ state (T : Type) (codec : Codec T) key f resume recover,
    h.next state = some (.sideEffect T codec key f resume recover) → codec.Lossless

/-- The handler ends with the first side effect that fails. -/
def DurableHandler.Stops (h : DurableHandler W) : Prop :=
  ∀ state (T : Type) (codec : Codec T) key f resume recover,
    h.next state = some (.sideEffect T codec key f resume recover) → recover = fun _ => none

theorem Codec.string_lossless : Codec.string.Lossless := by
  intro t v h
  cases h
  rfl

theorem HelperResult.expect_eq_value {α : Type} {r : Except String α} {a : α} :
    HelperResult.expect r = .value a ↔ r = .ok a := by
  cases r <;> simp [HelperResult.expect]

theorem HelperResult.mapErr_eq_value {α : Type} {f : String → DurableError} {r : Except String α}
    {a : α} : HelperResult.mapErr f r = .value a ↔ r = .ok a := by
  cases r <;> simp [HelperResult.mapErr]

theorem nowHelper_replays (lossless : s.timeCodec.Lossless) : (nowHelper s).Replays where
  accepts _ _ := by simp [nowHelper]
  reads t v encoded := HelperResult.expect_eq_value.mpr
    (lossless t v (HelperResult.expect_eq_value.mp encoded))

theorem randomHelper_replays (s : Surroundings W) (numBytes : Nat) :
    (randomHelper s numBytes).Replays where
  accepts _ _ := by simp [randomHelper]
  reads t v encoded := HelperResult.expect_eq_value.mpr
    (Codec.string_lossless t v (HelperResult.expect_eq_value.mp encoded))

theorem sideEffectHelper_replays {codec : Codec T} (lossless : codec.Lossless) (key : String)
    (f : W → Except DurableError T) : (sideEffectHelper codec key f).Replays where
  accepts _ _ := by simp [sideEffectHelper]
  reads t v encoded := HelperResult.mapErr_eq_value.mpr
    (lossless t v (HelperResult.mapErr_eq_value.mp encoded))

theorem DurableHandler.Lossless.replays (lossless : h.Lossless s) {state : h.State}
    {c : HelperCall W h.State} (call : h.next state = some c) : (c.use s).helper.Replays := by
  cases c with
  | now resume => exact nowHelper_replays lossless.time
  | random numBytes resume => exact randomHelper_replays s numBytes
  | sideEffect T codec key f resume recover =>
    exact sideEffectHelper_replays (lossless.effect state T codec key f resume recover call) key f

theorem DurableHandler.Stops.recover (stops : h.Stops) (s : Surroundings W) {state : h.State}
    {c : HelperCall W h.State} (call : h.next state = some c) :
    (c.use s).recover = fun _ => none := by
  cases c with
  | now resume => rfl
  | random numBytes resume => rfl
  | sideEffect T codec key f resume recover => exact stops state T codec key f resume recover call

namespace DurableContext

variable {ctx : DurableContext} {k : Helper W T} {w : W} {t : T}

def Exhausted (ctx : DurableContext) : Prop := ctx.replayCursor = ctx.replayLog.length

/-- A helper returns what it has recorded at the cursor, and asks nobody. -/
theorem consult_recorded (replays : k.Replays) {v : Value} (encoded : k.encode t = .value v)
    {seq : Nat} (recorded : ctx.replayLog[ctx.replayCursor]? = some ⟨seq, k.entryType, k.key, v⟩) :
    ctx.consult k w = (.value t, ctx.advance, none) := by
  unfold consult
  simp only [recorded, Option.filter_some, replays.accepts, ↓reduceIte, replays.reads t v encoded]

end DurableContext

variable {e : Execution h.State} {w : W}

/-- A call that returns a value at the end of the log records an entry, and every
execution of the handler that finds it at its cursor makes the same call for it. -/
structure Execution.Records (s : Surroundings W) (e next : Execution h.State)
    (entry : ReplayEntry) : Prop where
  log : next.ctx.replayLog = e.ctx.replayLog ++ [entry]
  exhausted : next.ctx.Exhausted
  replayed : ∀ (e' : Execution h.State) (w' : W), e'.status = e.status → e'.returned = e.returned →
    e'.ctx.replayLog[e'.ctx.replayCursor]? = some entry →
      e'.step s h w' =
        { ctx := e'.ctx.advance, status := next.status, returned := next.returned,
          invoked := e'.invoked }

theorem Execution.next_of_call {e : Execution h.State} {c : HelperCall W h.State}
    (call : e.call h = some c) : ∃ state, h.next state = some c := by
  unfold Execution.call at call
  split at call
  next state _ => exact ⟨state, call⟩
  next => cases call

theorem Execution.call_congr {e' : Execution h.State} (same : e'.status = e.status) :
    e'.call h = e.call h := by
  simp only [call, same]

theorem Execution.records (lossless : h.Lossless s) (stops : h.Stops) (exhausted : e.ctx.Exhausted)
    (more : (e.step s h w).returned.length = e.returned.length + 1) :
    ∃ entry, e.Records s (e.step s h w) entry := by
  cases call : e.call h with
  | none =>
    rw [step_of_no_call call] at more
    omega
  | some c =>
    obtain ⟨state, next⟩ := next_of_call call
    have replays := lossless.replays next
    have stop := stops.recover s next
    rw [step_of_call call, HelperUse.run] at more ⊢
    have consulted := e.ctx.consulted (c.use s).helper w
    generalize e.ctx.consult (c.use s).helper w = r at consulted more ⊢
    cases consulted with
    | replayed entry found accepted =>
      rw [exhausted] at found
      simp at found
    | recorded t v unanswered fresh encoded =>
      refine ⟨⟨e.ctx.replayCursor, (c.use s).helper.entryType, (c.use s).helper.key, v⟩,
        rfl, ?_, ?_⟩
      · have atEnd : e.ctx.replayCursor = e.ctx.replayLog.length := exhausted
        simp [after, DurableContext.record, DurableContext.Exhausted, atEnd]
      · intro e' w' status returned recorded
        have call' := (call_congr status).trans call
        rw [step_of_call call', HelperUse.run,
          DurableContext.consult_recorded replays encoded recorded]
        simp [after, returned]
    | refused result unanswered nothing noValue =>
      rw [stop] at more
      cases result with
      | value t => exact absurd rfl (noValue t)
      | failed err => simp [after] at more
      | panicked => simp [after] at more

theorem Execution.after_returned_le {σ : Type} (e : Execution σ)
    (r : HelperResult T × DurableContext × Option Source) (wrap : T → Returned) (resume : T → σ)
    (recover : DurableError → Option σ) :
    (e.after r wrap resume recover).returned.length ≤ e.returned.length + 1 := by
  rcases r with ⟨t | err | _, ctx, source⟩
  · simp [after]
  · cases hr : recover err with
    | none => simp [after, hr]
    | some state => simp [after, hr]
  · simp [after]

theorem Execution.step_returned (e : Execution h.State) (w : W) :
    (e.step s h w).returned.length ≤ e.returned.length + 1 := by
  cases call : e.call h with
  | none =>
    rw [step_of_no_call call]
    omega
  | some c =>
    rw [step_of_call call]
    exact e.after_returned_le _ _ _ _

section

variable {ctx : DurableContext} {env env' : Nat → W} {k n : Nat}

theorem execution_add_returned_le (ctx : DurableContext) (env : Nat → W) (n d : Nat) :
    (execution s h ctx env (n + d)).returned.length ≤
      (execution s h ctx env n).returned.length + d := by
  induction d with
  | zero => exact Nat.le_refl _
  | succ d ih =>
    have h1 := (execution s h ctx env (n + d)).step_returned (s := s) (env (n + d))
    have h2 : (execution s h ctx env (n + (d + 1))).returned.length ≤
        (execution s h ctx env (n + d)).returned.length + 1 := h1
    omega

theorem execution_returned_of_le (full : (execution s h ctx env k).returned.length = k)
    (le : n ≤ k) : (execution s h ctx env n).returned.length = n := by
  have upper := execution_add_returned_le (s := s) (h := h) ctx env 0 n
  have rest := execution_add_returned_le (s := s) (h := h) ctx env n (k - n)
  rw [Nat.zero_add] at upper
  rw [Nat.add_sub_cancel' le, full] at rest
  have start : (execution s h ctx env 0).returned.length = 0 := rfl
  omega

theorem execution_congr (same : ∀ i < n, env i = env' i) :
    execution s h ctx env n = execution s h ctx env' n := by
  induction n with
  | zero => rfl
  | succ n ih =>
    have before := ih (fun i lt => same i (by omega))
    show (execution s h ctx env n).step s h (env n) = (execution s h ctx env' n).step s h (env' n)
    rw [before, same n (Nat.lt_succ_self n)]

/-- The next call of a full run from a new context records an entry. -/
theorem execution_records (lossless : h.Lossless s) (stops : h.Stops)
    (full : (execution s h .new env k).returned.length = k) (le : n ≤ k) :
    (execution s h .new env n).ctx.Exhausted ∧
      (execution s h .new env n).ctx.replayLog.length = n ∧
      (n < k → ∃ entry,
        (execution s h .new env n).Records s (execution s h .new env (n + 1)) entry) := by
  have more : ∀ n, n < k → (execution s h .new env (n + 1)).returned.length =
      (execution s h .new env n).returned.length + 1 := by
    intro n lt
    rw [execution_returned_of_le full lt, execution_returned_of_le full (Nat.le_of_lt lt)]
  induction n with
  | zero =>
    have exhausted : (execution s h .new env 0).ctx.Exhausted := rfl
    exact ⟨exhausted, rfl, fun lt => Execution.records lossless stops exhausted (more 0 lt)⟩
  | succ n ih =>
    obtain ⟨-, length, next⟩ := ih (Nat.le_of_succ_le le)
    obtain ⟨entry, records⟩ := next le
    have exhausted := records.exhausted
    refine ⟨exhausted, ?_, fun lt => Execution.records lossless stops exhausted (more (n + 1) lt)⟩
    rw [records.log, List.length_append, length, List.length_singleton]

theorem execution_log_prefix (lossless : h.Lossless s) (stops : h.Stops)
    (full : (execution s h .new env k).returned.length = k) (le : n ≤ k) :
    (execution s h .new env n).ctx.replayLog <+: (execution s h .new env k).ctx.replayLog := by
  have grows : ∀ d, n + d ≤ k → (execution s h .new env n).ctx.replayLog <+:
      (execution s h .new env (n + d)).ctx.replayLog := by
    intro d
    induction d with
    | zero => exact fun _ => List.prefix_rfl
    | succ d ih =>
      intro le
      obtain ⟨-, -, next⟩ := execution_records lossless stops full (n := n + d) (by omega)
      obtain ⟨entry, records⟩ := next (by omega)
      have last : (execution s h .new env (n + d)).ctx.replayLog <+:
          (execution s h .new env (n + (d + 1))).ctx.replayLog := ⟨[entry], records.log.symm⟩
      exact (ih (by omega)).trans last
  have := grows (k - n) (by omega)
  rwa [Nat.add_sub_cancel' le] at this

/-- While the log lasts, a replay is where the run that recorded it was, with nobody asked. -/
theorem execution_replayed (lossless : h.Lossless s) (stops : h.Stops)
    (full : (execution s h .new env k).returned.length = k) (later : Nat → W) (le : n ≤ k) :
    execution s h (.newWithReplay (execution s h .new env k).ctx.replayLog) later n =
      { ctx := { replayLog := (execution s h .new env k).ctx.replayLog, replayCursor := n },
        status := (execution s h .new env n).status,
        returned := (execution s h .new env n).returned,
        invoked := [] } := by
  induction n with
  | zero => rfl
  | succ n ih =>
    obtain ⟨-, length, next⟩ := execution_records lossless stops full (Nat.le_of_succ_le le)
    obtain ⟨entry, records⟩ := next le
    have found : (execution s h .new env k).ctx.replayLog[n]? = some entry := by
      obtain ⟨rest, whole⟩ := execution_log_prefix lossless stops full le
      rw [← whole, records.log]
      simp [length]
    show (execution s h (.newWithReplay _) later n).step s h (later n) = _
    rw [ih (Nat.le_of_succ_le le)]
    exact records.replayed _ (later n) rfl rfl found

end

/-- The world `env` for the first `k` calls and `later` for the others. -/
def spliced (k : Nat) (env later : Nat → W) : Nat → W :=
  fun i => if i < k then env i else later i

/-- Equal but for who has been asked. -/
structure Execution.Same (e e' : Execution h.State) : Prop where
  ctx : e.ctx = e'.ctx
  status : e.status = e'.status
  returned : e.returned = e'.returned

theorem Execution.Same.after {e e' : Execution h.State} (same : e.Same e')
    (r : HelperResult T × DurableContext × Option Source) (wrap : T → Returned)
    (resume : T → h.State) (recover : DurableError → Option h.State) :
    (e.after r wrap resume recover).Same (e'.after r wrap resume recover) := by
  rcases r with ⟨t | err | _, ctx', source⟩
  · exact ⟨rfl, rfl, by simp [Execution.after, same.returned]⟩
  · cases hr : recover err with
    | none => exact ⟨by simp [Execution.after, hr], by simp [Execution.after, hr],
        by simp [Execution.after, hr, same.returned]⟩
    | some state => exact ⟨by simp [Execution.after, hr], by simp [Execution.after, hr],
        by simp [Execution.after, hr, same.returned]⟩
  · exact ⟨rfl, rfl, same.returned⟩

theorem Execution.Same.step {e e' : Execution h.State} (same : e.Same e') (w : W) :
    (e.step s h w).Same (e'.step s h w) := by
  have calls : e.call h = e'.call h := Execution.call_congr same.status
  cases call : e.call h with
  | none =>
    rw [Execution.step_of_no_call call, Execution.step_of_no_call (calls.symm.trans call)]
    exact same
  | some c =>
    rw [Execution.step_of_call call, Execution.step_of_call (calls.symm.trans call), HelperUse.run,
      HelperUse.run, same.ctx]
    exact same.after _ _ _ _

section

variable {env later : Nat → W} {k n : Nat} {log : List ReplayEntry}

theorem execution_spliced (env later : Nat → W) (le : n ≤ k) (ctx : DurableContext) :
    execution s h ctx (spliced k env later) n = execution s h ctx env n := by
  refine execution_congr (fun i lt => ?_)
  have : i < k := by omega
  simp [spliced, this]

/-- From the end of the log on, a replay is the uninterrupted run. -/
theorem execution_onward (lossless : h.Lossless s) (stops : h.Stops)
    (full : (execution s h .new env k).returned.length = k) (later : Nat → W) (le : k ≤ n) :
    (execution s h (.newWithReplay (execution s h .new env k).ctx.replayLog) later n).Same
      (execution s h .new (spliced k env later) n) := by
  induction n, le using Nat.le_induction with
  | base =>
    rw [execution_replayed lossless stops full later (Nat.le_refl k),
      execution_spliced env later (Nat.le_refl k)]
    obtain ⟨exhausted, length, -⟩ := execution_records lossless stops full (Nat.le_refl k)
    refine ⟨?_, rfl, rfl⟩
    have cursor : k = (execution s h .new env k).ctx.replayCursor := by
      rw [show _ = _ from exhausted, length]
    exact congrArg (DurableContext.mk _) cursor
  | succ n le ih =>
    have world : spliced k env later n = later n := by
      simp [spliced, Nat.not_lt.mpr le]
    show ((execution s h (.newWithReplay _) later n).step s h (later n)).Same
      ((execution s h .new (spliced k env later) n).step s h (spliced k env later n))
    rw [world]
    exact ih.step (later n)

/-- `log` is left by runs of the handler that have crashed, each of which has replayed
the log left before it. It holds `k` calls, and `env i` is the world at call `i` when that
call was recorded. -/
inductive Recorded (s : Surroundings W) (h : DurableHandler W) :
    (Nat → W) → Nat → List ReplayEntry → Prop
  | fresh (env : Nat → W) : Recorded s h env 0 []
  | crash {env : Nat → W} {k : Nat} {log : List ReplayEntry} (later : Nat → W) (n : Nat) :
      Recorded s h env k log →
      (execution s h (.newWithReplay log) later n).returned.length = n →
      Recorded s h (spliced k env later) (max k n)
        (execution s h (.newWithReplay log) later n).ctx.replayLog

theorem Recorded.uninterrupted (lossless : h.Lossless s) (stops : h.Stops)
    (recorded : Recorded s h env k log) :
    (execution s h .new env k).returned.length = k ∧
      log = (execution s h .new env k).ctx.replayLog := by
  induction recorded with
  | fresh env => exact ⟨rfl, rfl⟩
  | crash later n earlier full ih =>
    rename_i env k log
    obtain ⟨before, rfl⟩ := ih
    rcases Nat.le_total n k with le | le
    · rw [Nat.max_eq_left le, execution_spliced env later (Nat.le_refl k),
        execution_replayed lossless stops before later le]
      exact ⟨before, rfl⟩
    · have same := execution_onward lossless stops before later le
      rw [Nat.max_eq_right le, ← same.returned, ← same.ctx]
      exact ⟨full, rfl⟩

/-- The calls that the log holds return what they returned without a crash, and those after
them make the run the uninterrupted one in the world that follows. -/
theorem replay_uninterrupted (lossless : h.Lossless s) (stops : h.Stops)
    (recorded : Recorded s h env k log) (later : Nat → W) :
    (∀ n ≤ k,
      let replay := execution s h (.newWithReplay log) later n
      replay.returned = (execution s h .new env n).returned ∧ replay.returned.length = n ∧
        replay.invoked = [] ∧ replay.ctx.replayLog = log) ∧
    (∀ n ≥ k,
      let replay := execution s h (.newWithReplay log) later n
      let uninterrupted := execution s h .new (spliced k env later) n
      replay.ctx.replayLog = uninterrupted.ctx.replayLog ∧
        replay.returned = uninterrupted.returned ∧ replay.status = uninterrupted.status) := by
  obtain ⟨full, rfl⟩ := recorded.uninterrupted lossless stops
  refine ⟨fun n le => ?_, fun n le => ?_⟩
  · have same := execution_replayed lossless stops full later le
    simp only [same]
    exact ⟨trivial, execution_returned_of_le full le, trivial, trivial⟩
  · have same := execution_onward lossless stops full later le
    exact ⟨congrArg DurableContext.replayLog same.ctx, same.returned, same.status⟩

end

/-- The clock stands at the epoch, and the generator gives zeros. -/
def standstill : Surroundings Bool where
  timeCodec :=
    { toValue := fun t =>
        if t = ⟨0⟩ then .ok (.string "1970-01-01T00:00:00Z") else .error "not the epoch"
      fromValue := fun
        | .string "1970-01-01T00:00:00Z" => .ok ⟨0⟩
        | _ => .error "invalid timestamp" }
  clock _ := ⟨0⟩
  fillBytes _ n := List.replicate n 0

def chargingNext : Nat → Option (HelperCall Bool Nat)
  | 0 => some (.now (fun _ => 1))
  | 1 => some (.random 2 (fun _ => 2))
  | 2 => some (.sideEffect String .string "charge"
      (fun up => if up then .ok "paid" else .error (.transport "unreachable"))
      (fun _ => 3) (fun _ => none))
  | _ => none

/-- Takes the time and a token, and then charges once, where the world lets it. -/
def charging : DurableHandler Bool where
  State := Nat
  start := 0
  next := chargingNext

theorem chargingNext_effect {state : Nat} {T : Type} {codec : Codec T} {key : String}
    {f : Bool → Except DurableError T} {resume : T → Nat} {recover : DurableError → Option Nat}
    (call : chargingNext state = some (.sideEffect T codec key f resume recover)) :
    codec.Lossless ∧ recover = fun _ => none := by
  unfold chargingNext at call
  split at call
  · cases call
  · cases call
  · cases call
    exact ⟨Codec.string_lossless, rfl⟩
  · cases call

theorem charging_stops : charging.Stops :=
  fun _ _ _ _ _ _ _ call => (chargingNext_effect call).2

theorem charging_lossless : charging.Lossless standstill where
  time t v encoded := by
    by_cases epoch : t = ⟨0⟩
    · simp only [standstill, epoch, ↓reduceIte, Except.ok.injEq] at encoded
      rw [epoch, ← encoded]
      rfl
    · simp [standstill, epoch] at encoded
  effect _ _ _ _ _ _ _ call := (chargingNext_effect call).1

/-- A run that crashes on the unreachable service goes on from its log. -/
theorem replay_charging :
    let crashed := execution standstill charging .new (fun _ => false) 3
    let replay := execution standstill charging (.newWithReplay crashed.ctx.replayLog) (fun _ => true)
    (replay 2).returned = crashed.returned ∧ (replay 2).invoked = [] ∧
      (replay 3).returned = (execution standstill charging .new
        (spliced 2 (spliced 0 (fun _ => false) (fun _ => false)) (fun _ => true)) 3).returned := by
  have recorded : Recorded standstill charging _ _ _ :=
    .crash (fun _ => false) 2 (.fresh (fun _ => false)) rfl
  have h := replay_uninterrupted charging_lossless charging_stops recorded (fun _ => true)
  obtain ⟨same, -, nobody, -⟩ := h.1 2 (Nat.le_refl 2)
  exact ⟨same, nobody, (h.2 3 (by decide)).2.1⟩

end OjsSdk
