import OjsSdk.DurableCalls
import OjsSdk.DurableReplay
import Mathlib.Data.Nat.Find

namespace OjsSdk

variable {W : Type} {s : Surroundings W} {h : DurableHandler W}

/-- Calls of one helper with the same arguments. What the closures do may differ. -/
inductive HelperCall.Same {σ : Type} : HelperCall W σ → HelperCall W σ → Prop
  | now (resume resume') : Same (.now resume) (.now resume')
  | random (numBytes) (resume resume') : Same (.random numBytes resume) (.random numBytes resume')
  | sideEffect (T codec key f f') (resume resume') (recover recover') :
      Same (.sideEffect T codec key f resume recover) (.sideEffect T codec key f' resume' recover')

theorem HelperCall.Same.use {σ : Type} {c c' : HelperCall W σ} (same : c.Same c') :
    ∃ fresh resume recover, c'.use s =
      { c.use s with helper := { (c.use s).helper with fresh }, resume, recover } := by
  cases same with
  | now resume resume' => exact ⟨_, _, _, rfl⟩
  | random numBytes resume resume' => exact ⟨_, _, _, rfl⟩
  | sideEffect T codec key f f' resume resume' recover recover' => exact ⟨_, _, _, rfl⟩

section

variable (s) (h) (env : Nat → W) (k : Nat) (env' : Nat → W)

/-- A run of the handler on the log that its first `k` calls have left, in another world. -/
def rerun : Nat → Execution h.State :=
  execution s h (.newWithReplay (execution s h .new env k).ctx.replayLog) env'

/-- How many entries the first `i` calls of a run have recorded. -/
def recordedBy (i : Nat) : Nat := (execution s h .new env i).ctx.replayLog.length

def CallRecords (i : Nat) : Prop := recordedBy s h env (i + 1) = recordedBy s h env i + 1

/-- The first `n` calls of the rerun are those of the original run. -/
structure RunAgain (n : Nat) : Prop where
  le : n ≤ k
  same : ∀ i < n, ∃ c c', (execution s h .new env i).call h = some c ∧
    (rerun s h env k env' i).call h = some c' ∧ c.Same c'

/-- The call returns what it returned in the original run, and asks nobody. -/
structure ReturnsRecorded (i : Nat) : Prop where
  returned : ∃ r, (execution s h .new env (i + 1)).returned =
      (execution s h .new env i).returned ++ [r] ∧
    (rerun s h env k env' (i + 1)).returned = (rerun s h env k env' i).returned ++ [r]
  nobody : (rerun s h env k env' (i + 1)).invoked = (rerun s h env k env' i).invoked

/-- It does so on the entry that it has recorded itself. -/
structure ReturnsOwn (i : Nat) : Prop extends ReturnsRecorded s h env k env' i where
  own : (rerun s h env k env' i).ctx.replayCursor = recordedBy s h env i

/-- The call has no value in the rerun either: the next entry of the log is not one that it
takes, and its closure fails again. -/
def FailsAgain (i : Nat) : Prop :=
  ∀ c, (rerun s h env k env' i).call h = some c →
    (∀ entry, (execution s h .new env k).ctx.replayLog[recordedBy s h env i]? = some entry →
      (c.use s).helper.accepts entry = false) ∧
    ¬(c.use s).helper.Gives (env' i)

end

section

variable {env env' : Nat → W} {k n i : Nat}

/-- A call of the original run records an entry, or it leaves the context as it is. -/
theorem original_cases (exhausted : (execution s h .new env i).ctx.Exhausted) :
    (execution s h .new env (i + 1)).ctx = (execution s h .new env i).ctx ∨
      ∃ c t v, (execution s h .new env i).call h = some c ∧
        (c.use s).helper.encode t = .value v ∧
        (execution s h .new env (i + 1)).ctx = (execution s h .new env i).ctx.record
          (c.use s).helper.entryType (c.use s).helper.key v ∧
        (execution s h .new env (i + 1)).returned =
          (execution s h .new env i).returned ++ [(c.use s).wrap t] := by
  have next : execution s h .new env (i + 1) = (execution s h .new env i).step s h (env i) := rfl
  generalize execution s h .new env i = e at next exhausted
  rw [next]
  cases call : e.call h with
  | none => exact .inl (by rw [Execution.step_of_no_call call])
  | some c =>
    rw [Execution.step_of_call call, HelperUse.run]
    have consulted := e.ctx.consulted (c.use s).helper (env i)
    generalize e.ctx.consult (c.use s).helper (env i) = r at consulted
    cases consulted with
    | replayed entry found accepted =>
      rw [exhausted] at found
      simp at found
    | recorded t v _ _ encoded => exact .inr ⟨c, t, v, rfl, encoded, by simp, rfl⟩
    | refused result _ _ _ => exact .inl (by simp)

theorem original_exhausted (s : Surroundings W) (h : DurableHandler W) (env : Nat → W) (n : Nat) :
    (execution s h .new env n).ctx.Exhausted := by
  induction n with
  | zero => rfl
  | succ n ih =>
    rcases original_cases ih with same | ⟨c, t, v, _, _, recorded, _⟩
    · rw [same]
      exact ih
    · rw [recorded]
      have atEnd : _ = _ := ih
      simp [DurableContext.record, DurableContext.Exhausted, atEnd]

theorem original_log_prefix (s : Surroundings W) (h : DurableHandler W) (env : Nat → W)
    (le : i ≤ k) :
    (execution s h .new env i).ctx.replayLog <+: (execution s h .new env k).ctx.replayLog := by
  induction k, le using Nat.le_induction with
  | base => exact List.prefix_rfl
  | succ k _ ih =>
    refine ih.trans ?_
    rcases original_cases (original_exhausted s h env k) with same | ⟨c, t, v, _, _, recorded, _⟩
    · rw [same]
    · rw [recorded]
      exact List.prefix_append _ _

theorem recordedBy_succ_of_not (not : ¬CallRecords s h env i) :
    recordedBy s h env (i + 1) = recordedBy s h env i := by
  rcases original_cases (original_exhausted s h env i) with
    same | ⟨c, t, v, _, _, recorded, _⟩
  · rw [recordedBy, same, recordedBy]
  · exact absurd (by simp [CallRecords, recordedBy, recorded, DurableContext.record]) not

theorem recordedBy_eq_of_not {j : Nat} (le : i ≤ j)
    (not : ∀ m, i ≤ m → m < j → ¬CallRecords s h env m) :
    recordedBy s h env j = recordedBy s h env i := by
  induction j, le using Nat.le_induction with
  | base => rfl
  | succ j le ih =>
    rw [recordedBy_succ_of_not (not j le (Nat.lt_succ_self j))]
    exact ih (fun m hm lt => not m hm (by omega))

/-- The rerun is where it reads what call `i` has recorded, and has appended nothing. -/
def Aligned (s : Surroundings W) (h : DurableHandler W) (env : Nat → W) (k : Nat)
    (env' : Nat → W) (i : Nat) : Prop :=
  (rerun s h env k env' i).ctx =
    ⟨(execution s h .new env k).ctx.replayLog, recordedBy s h env i⟩

theorem Aligned.returnsOwn (lossless : h.Lossless s) (again : RunAgain s h env k env' n)
    (lt : i < n) (aligned : Aligned s h env k env' i) (records : CallRecords s h env i) :
    Aligned s h env k env' (i + 1) ∧ ReturnsOwn s h env k env' i := by
  obtain ⟨c, c', call, call', same⟩ := again.same i lt
  obtain ⟨fresh, resume, recover, use'⟩ := same.use (s := s)
  obtain ⟨state, next⟩ := Execution.next_of_call call'
  have replays := lossless.replays next
  rcases original_cases (original_exhausted s h env i) with
    kept | ⟨c₀, t, v, call₀, encoded, recorded, returned⟩
  · rw [CallRecords, recordedBy, kept, recordedBy] at records
    omega
  · obtain rfl : c = c₀ := Option.some.inj (call.symm.trans call₀)
    have entry : (execution s h .new env k).ctx.replayLog[recordedBy s h env i]? =
        some ⟨(execution s h .new env i).ctx.replayCursor, (c.use s).helper.entryType,
          (c.use s).helper.key, v⟩ := by
      obtain ⟨rest, whole⟩ := original_log_prefix s h env
        (show i + 1 ≤ k from Nat.le_trans lt again.le)
      rw [← whole, recorded]
      simp [recordedBy, DurableContext.record]
    have step : rerun s h env k env' (i + 1) = (c'.use s).run (env' i) (rerun s h env k env' i) :=
      Execution.step_of_call call' (env' i)
    rw [use'] at step replays
    have found : (rerun s h env k env' i).ctx.replayLog[
        (rerun s h env k env' i).ctx.replayCursor]? =
        some ⟨(execution s h .new env i).ctx.replayCursor, (c.use s).helper.entryType,
          (c.use s).helper.key, v⟩ := by
      rw [aligned]
      exact entry
    rw [HelperUse.run, DurableContext.consult_recorded replays encoded found] at step
    refine ⟨?_, ⟨⟨(c.use s).wrap t, returned, ?_⟩, ?_⟩, ?_⟩
    · rw [Aligned, step, Execution.after_ctx, aligned, records]
      rfl
    · rw [step]
      rfl
    · rw [step]
      simp
    · rw [aligned]

theorem Aligned.failsAgain (again : RunAgain s h env k env' n) (lt : i < n)
    (aligned : Aligned s h env k env' i) (fails : ¬CallRecords s h env i)
    (again' : FailsAgain s h env k env' i) : Aligned s h env k env' (i + 1) := by
  obtain ⟨c, c', call, call', same⟩ := again.same i lt
  obtain ⟨unanswered, nothing⟩ := again' c' call'
  have step : rerun s h env k env' (i + 1) = (c'.use s).run (env' i) (rerun s h env k env' i) :=
    Execution.step_of_call call' (env' i)
  rw [Aligned, recordedBy_succ_of_not fails, step, HelperUse.run, Execution.after_ctx, ← aligned]
  have consulted := (rerun s h env k env' i).ctx.consulted (c'.use s).helper (env' i)
  generalize (rerun s h env k env' i).ctx.consult (c'.use s).helper (env' i) = r at consulted
  cases consulted with
  | replayed entry found accepted =>
    rw [aligned] at found
    rw [unanswered entry found] at accepted
    cases accepted
  | recorded t v _ fresh encoded => exact absurd ⟨t, v, fresh, encoded⟩ nothing
  | refused result _ _ _ => rfl

theorem aligned (lossless : h.Lossless s) (again : RunAgain s h env k env' n) (le : i ≤ n)
    (fails : ∀ m < i, ¬CallRecords s h env m → FailsAgain s h env k env' m) :
    Aligned s h env k env' i := by
  induction i with
  | zero => rfl
  | succ i ih =>
    have before := ih (Nat.le_of_succ_le le) (fun m lt => fails m (by omega))
    by_cases records : CallRecords s h env i
    · exact (before.returnsOwn lossless again le records).1
    · exact before.failsAgain again le records (fails i (Nat.lt_succ_self i) records)

theorem rerun_cursor_mono (s : Surroundings W) (h : DurableHandler W) (env : Nat → W) (k : Nat)
    (env' : Nat → W) {j : Nat} (le : i ≤ j) :
    (rerun s h env k env' i).ctx.replayCursor ≤ (rerun s h env k env' j).ctx.replayCursor := by
  induction j, le using Nat.le_induction with
  | base => exact Nat.le_refl _
  | succ j _ ih =>
    refine ih.trans ?_
    have next : rerun s h env k env' (j + 1) = (rerun s h env k env' j).step s h (env' j) := rfl
    rw [next]
    cases call : (rerun s h env k env' j).call h with
    | none => rw [Execution.step_of_no_call call]
    | some c =>
      rw [Execution.step_of_call call, HelperUse.run, Execution.after_ctx]
      exact DurableContext.consult_cursor_le _ _ _

/-- A call that does have a value this time takes the place of a recorded one. -/
theorem Aligned.ahead (aligned : Aligned s h env k env' i) (not : ¬FailsAgain s h env k env' i) :
    (rerun s h env k env' (i + 1)).ctx.replayCursor = recordedBy s h env i + 1 := by
  unfold FailsAgain at not
  push Not at not
  obtain ⟨c, call, answered⟩ := not
  have cursor : (rerun s h env k env' i).ctx.replayCursor = recordedBy s h env i := by
    rw [aligned]
  have next : rerun s h env k env' (i + 1) = (c.use s).run (env' i) (rerun s h env k env' i) :=
    Execution.step_of_call call (env' i)
  rw [next, HelperUse.run, Execution.after_ctx, ← cursor]
  have consulted := (rerun s h env k env' i).ctx.consulted (c.use s).helper (env' i)
  generalize (rerun s h env k env' i).ctx.consult (c.use s).helper (env' i) = r at consulted
  cases consulted with
  | replayed entry _ _ => rfl
  | recorded t v _ _ _ => rfl
  | refused result unanswered nothing _ =>
    refine absurd (answered fun entry found => ?_) nothing
    rw [Bool.eq_false_iff]
    intro accepted
    have here : (rerun s h env k env' i).ctx.replayLog[
        (rerun s h env k env' i).ctx.replayCursor]? = some entry := by
      rw [aligned]
      exact found
    exact unanswered ⟨entry, here, accepted⟩

/-- The calls that the log holds return what they have recorded, each on its own entry and with
nobody asked, if and only if every call before them that has recorded nothing fails again. -/
theorem handled_failures_replay_iff (lossless : h.Lossless s)
    (again : RunAgain s h env k env' n) :
    (∀ j < n, CallRecords s h env j → ReturnsOwn s h env k env' j) ↔
      ∀ j < n, CallRecords s h env j →
        ∀ i < j, ¬CallRecords s h env i → FailsAgain s h env k env' i := by
  constructor
  · intro own j lt records i
    induction i using Nat.strong_induction_on with
    | _ i ih =>
      intro before unrecorded
      have here : Aligned s h env k env' i :=
        aligned lossless again (by omega) (fun m hm => ih m hm (by omega))
      by_contra not
      -- the first later call that has recorded something finds the cursor past its entry
      have later : ∃ m, i < m ∧ CallRecords s h env m := ⟨j, before, records⟩
      classical
      obtain ⟨after, first⟩ := Nat.find_spec later
      have le : Nat.find later ≤ j := Nat.find_min' later ⟨before, records⟩
      have none : ∀ m, i ≤ m → m < Nat.find later → ¬CallRecords s h env m := by
        intro m hm small recorded
        rcases Nat.eq_or_lt_of_le hm with rfl | more
        · exact unrecorded recorded
        · exact Nat.find_min later small ⟨more, recorded⟩
      have same := recordedBy_eq_of_not (Nat.le_of_lt after) none
      have cursor := (own _ (by omega) first).own
      have ahead := here.ahead not
      have mono := rerun_cursor_mono s h env k env'
        (show i + 1 ≤ Nat.find later from after)
      omega
  · intro fails j lt records
    have here := aligned lossless again (Nat.le_of_lt lt) (fails j lt records)
    exact (here.returnsOwn lossless again lt records).2

end

def handlingNext : Nat → Option (HelperCall Bool Nat)
  | 0 => some (.sideEffect String .string "charge"
      (fun up => if up then .ok "paid" else .error (.transport "unreachable"))
      (fun _ => 1) (fun _ => some 1))
  | 1 => some (.now (fun _ => 2))
  | _ => none

/-- Charges where the world lets it, and takes the time in either case. -/
def handling : DurableHandler Bool where
  State := Nat
  start := 0
  next := handlingNext

theorem handlingNext_effect {state : Nat} {T : Type} {codec : Codec T} {key : String}
    {f : Bool → Except DurableError T} {resume : T → Nat} {recover : DurableError → Option Nat}
    (call : handlingNext state = some (.sideEffect T codec key f resume recover)) :
    codec.Lossless := by
  unfold handlingNext at call
  split at call
  · cases call
    exact Codec.string_lossless
  · cases call
  · cases call

theorem handling_lossless : handling.Lossless standstill where
  time := charging_lossless.time
  effect _ _ _ _ _ _ _ call := handlingNext_effect call

theorem handling_runAgain (up : Bool) :
    RunAgain standstill handling (fun _ => false) 2 (fun _ => up) 2 where
  le := Nat.le_refl 2
  same i lt := by
    have cases' : i = 0 ∨ i = 1 := by omega
    rcases cases' with rfl | rfl
    · exact ⟨_, _, rfl, rfl, .sideEffect _ _ _ _ _ _ _ _ _⟩
    · cases up with
      | false => exact ⟨_, _, rfl, rfl, .now _ _⟩
      | true => exact ⟨_, _, rfl, rfl, .now _ _⟩

/-- The charge fails again, and the time is the recorded one. -/
theorem handling_fails_again :
    ReturnsOwn standstill handling (fun _ => false) 2 (fun _ => false) 1 := by
  refine (handled_failures_replay_iff handling_lossless (handling_runAgain false)).mpr ?_
    1 (by decide) rfl
  intro j lt _ i before _ c call
  obtain rfl : i = 0 := by omega
  cases Option.some.inj call
  refine ⟨?_, ?_⟩
  · intro entry found
    cases Option.some.inj found
    rfl
  · rintro ⟨t, v, fresh, -⟩
    cases fresh

/-- The charge goes through this time, and the clock is asked again. -/
theorem handling_asks_again :
    ¬∀ (s : Surroundings Bool) (h : DurableHandler Bool) (env : Nat → Bool) (k : Nat)
      (env' : Nat → Bool) (n : Nat), h.Lossless s → RunAgain s h env k env' n →
      ∀ j < n, CallRecords s h env j → ReturnsRecorded s h env k env' j := by
  intro claim
  have returns := claim standstill handling (fun _ => false) 2 (fun _ => true) 2
    handling_lossless (handling_runAgain true) 1 (by decide) rfl
  have asked : (rerun standstill handling (fun _ => false) 2 (fun _ => true) 2).invoked =
      [.closure, .clock] := rfl
  have before : (rerun standstill handling (fun _ => false) 2 (fun _ => true) 1).invoked =
      [.closure] := rfl
  have same := returns.nobody
  rw [asked, before] at same
  cases same

end OjsSdk
