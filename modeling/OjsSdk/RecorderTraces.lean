import OjsSdk.Recorder
import OjsSdk.StepSystem
import OjsSdk.TextOrder
import Mathlib.Data.List.ModifyLast
import Mathlib.Data.String.Basic

namespace OjsSdk

open StepSystem

structure SourceMap where
  gitSha : String
  filePath : String
  line : UInt32
  deriving DecidableEq, Repr

structure TraceEntry where
  funcName : String
  args : String
  result : String
  durationMs : UInt64
  sourceMap : Option SourceMap
  timestamp : String
  error : Option String
  deriving DecidableEq, Repr

def TraceEntry.withSourceMap (sourceMap : SourceMap) (entry : TraceEntry) : TraceEntry :=
  { entry with sourceMap := some sourceMap }

structure Recorder where
  entries : List TraceEntry
  deriving DecidableEq, Repr

namespace Recorder

def new : Recorder where
  entries := []

/-- The system clock shows `secs`. `none` is an overflow in `chrono_now`. -/
def recordCall (r : Recorder) (funcName args result : String) (durationMs secs : UInt64) :
    Option Recorder := do
  let timestamp ← chronoNow secs
  return { entries := r.entries ++
    [{ funcName, args, result, durationMs, sourceMap := none, timestamp, error := none }] }

def recordError (r : Recorder) (funcName args error : String) (durationMs secs : UInt64) :
    Option Recorder := do
  let timestamp ← chronoNow secs
  return { entries := r.entries ++
    [{ funcName, args, result := "", durationMs, sourceMap := none, timestamp
       error := some error }] }

def attachSourceMap (r : Recorder) (gitSha filePath : String) (line : UInt32) : Recorder where
  entries := r.entries.modifyLast (.withSourceMap { gitSha, filePath, line })

def trace (r : Recorder) : List TraceEntry := r.entries

def len (r : Recorder) : Nat := r.entries.length

def isEmpty (r : Recorder) : Bool := r.entries.isEmpty

def reset (_ : Recorder) : Recorder where
  entries := []

end Recorder

inductive TraceCall
  | recordCall (funcName args result : String) (durationMs secs : UInt64)
  | recordError (funcName args error : String) (durationMs secs : UInt64)
  | attachSourceMap (gitSha filePath : String) (line : UInt32)
  | reset
  deriving DecidableEq, Repr

def Recorder.step (r : Recorder) : TraceCall → Option Recorder
  | .recordCall funcName args result durationMs secs =>
    r.recordCall funcName args result durationMs secs
  | .recordError funcName args error durationMs secs =>
    r.recordError funcName args error durationMs secs
  | .attachSourceMap gitSha filePath line => some (r.attachSourceMap gitSha filePath line)
  | .reset => some r.reset

/-- The text of a clock reading. -/
def timestampAt (secs : UInt64) : String := (chronoNow secs).getD ""

namespace TraceCall

def secs : TraceCall → Option UInt64
  | recordCall _ _ _ _ secs | recordError _ _ _ _ secs => some secs
  | _ => none

/-- The entry of a call that records something. -/
def entry (sourceMap : Option SourceMap) : TraceCall → Option TraceEntry
  | recordCall funcName args result durationMs secs =>
    some
      { funcName, args, result, durationMs, sourceMap, timestamp := timestampAt secs
        error := none }
  | recordError funcName args error durationMs secs =>
    some
      { funcName, args, result := "", durationMs, sourceMap, timestamp := timestampAt secs
        error := some error }
  | _ => none

def attaches : TraceCall → Option SourceMap
  | attachSourceMap gitSha filePath line => some { gitSha, filePath, line }
  | _ => none

/-- The last source map that these calls attach to what was recorded before them. -/
def attached : List TraceCall → Option SourceMap
  | [] => none
  | call :: later =>
    match call.attaches with
    | some sourceMap => (attached later).or (some sourceMap)
    | none => none

/-- The entries that a trace is to hold after these calls. -/
def recorded : List TraceCall → List TraceEntry
  | [] => []
  | call :: later =>
    match call.entry (attached later) with
    | some entry => if reset ∈ later then recorded later else entry :: recorded later
    | none => recorded later

section

variable {later calls : List TraceCall} {call : TraceCall} {e : TraceEntry}
  {sourceMap : Option SourceMap}

theorem entry_eq_some (other : Option SourceMap) (recording : call.entry sourceMap = some e) :
    call.entry other = some { e with sourceMap := other } := by
  cases call with
  | recordCall _ _ _ _ _ =>
    obtain rfl := Option.some.inj recording
    simp only [entry]
  | recordError _ _ _ _ _ =>
    obtain rfl := Option.some.inj recording
    simp only [entry]
  | attachSourceMap _ _ _ => cases recording
  | reset => cases recording

theorem entry_eq_none (other : Option SourceMap) (silent : call.entry sourceMap = none) :
    call.entry other = none := by
  cases given : call.entry other with
  | none => rfl
  | some e =>
    rw [entry_eq_some sourceMap given] at silent
    cases silent

theorem attaches_of_entry (recording : call.entry sourceMap = some e) : call.attaches = none := by
  cases call with
  | attachSourceMap _ _ _ => cases recording
  | _ => rfl

/-- One more call attaches nothing unless it is there for that. -/
theorem attached_concat (other : call.attaches = none) :
    attached (later ++ [call]) = attached later := by
  induction later with
  | nil => simp only [List.nil_append, attached, other]
  | cons first later ih =>
    rw [List.cons_append, attached, attached, ih]

theorem recorded_concat_entry (recording : call.entry none = some e) :
    recorded (calls ++ [call]) = recorded calls ++ [e] := by
  have other := attaches_of_entry recording
  have noReset : TraceCall.reset ≠ call := by
    rintro rfl
    cases recording
  induction calls with
  | nil => simp [recorded, attached, recording]
  | cons first later ih =>
    have still : reset ∈ later ++ [call] ↔ reset ∈ later := by simp [noReset]
    rw [List.cons_append, recorded, recorded, attached_concat other, ih]
    cases first.entry (attached later) with
    | none => rfl
    | some entry =>
      by_cases again : reset ∈ later
      · simp only [still, again, ↓reduceIte]
      · simp only [still, again, ↓reduceIte, List.cons_append]

theorem recorded_concat_reset : recorded (calls ++ [reset]) = [] := by
  induction calls with
  | nil => rfl
  | cons first later ih =>
    have again : reset ∈ later ++ [reset] := List.mem_append_right _ (List.mem_singleton.mpr rfl)
    rw [List.cons_append, recorded, ih]
    cases first.entry (attached (later ++ [reset])) with
    | none => rfl
    | some entry => simp only [again, ↓reduceIte]

/-- An attachment reaches back over other attachments, as far as the last entry. -/
theorem attached_concat_attaches {m : SourceMap} (attaching : call.attaches = some m)
    (noReset : reset ∉ later) :
    attached (later ++ [call]) = if recorded later = [] then some m else attached later := by
  induction later with
  | nil => simp [attached, attaching, recorded]
  | cons first later ih =>
    have rest : reset ∉ later := fun member => noReset (List.mem_cons_of_mem _ member)
    rw [List.cons_append, attached, attached, recorded, ih rest]
    cases first with
    | attachSourceMap gitSha filePath line =>
      by_cases alone : recorded later = []
      · simp [attaches, entry, alone]
      · simp [attaches, entry, alone]
    | reset => exact absurd List.mem_cons_self noReset
    | recordCall _ _ _ _ _ => simp [attaches, entry, rest]
    | recordError _ _ _ _ _ => simp [attaches, entry, rest]

theorem recorded_concat_attaches {m : SourceMap} (attaching : call.attaches = some m) :
    recorded (calls ++ [call]) =
      (recorded calls).modifyLast (.withSourceMap m) := by
  have silent : ∀ given, call.entry given = none := by
    intro given
    cases call with
    | attachSourceMap _ _ _ => rfl
    | _ => cases attaching
  have noReset : TraceCall.reset ≠ call := by
    rintro rfl
    cases attaching
  induction calls with
  | nil =>
    simp only [List.nil_append, recorded, silent]
    rfl
  | cons first later ih =>
    have still : reset ∈ later ++ [call] ↔ reset ∈ later := by simp [noReset]
    rw [List.cons_append, recorded, recorded, ih]
    cases recording : first.entry (attached later) with
    | none => rw [entry_eq_none _ recording]
    | some e =>
      rw [entry_eq_some _ recording]
      by_cases again : reset ∈ later
      · simp only [still, again, ↓reduceIte]
      · simp only [still, again, ↓reduceIte]
        rw [attached_concat_attaches attaching again]
        cases following : recorded later with
        | nil =>
          simp only [↓reduceIte]
          exact (List.modifyLast_concat (TraceEntry.withSourceMap m) e []).symm
        | cons second others =>
          have more := List.modifyLast_append_of_right_ne_nil (TraceEntry.withSourceMap m) [e]
            (second :: others) (List.cons_ne_nil _ _)
          have same := entry_eq_some (attached later) recording
          rw [recording] at same
          simp only [reduceCtorEq, ↓reduceIte]
          rw [← Option.some.inj same]
          exact more.symm

end

end TraceCall

theorem chronoNow_timestampAt (secs : UInt64) : chronoNow secs = some (timestampAt secs) := by
  obtain ⟨moment, converts, time, -, -⟩ := exists_moment secs
  rw [timestampAt, chronoNow_eq converts time]
  rfl

/-- The calls of a run, the first one first. -/
def callsOf (past : List (Recorder × TraceCall)) : List TraceCall := (past.map Prod.snd).reverse

namespace Recorder

variable {r r' : Recorder} {past : List (Recorder × TraceCall)}

/-- What a call does to the entries. No call overflows. -/
theorem step_eq (r : Recorder) (call : TraceCall) :
    r.step call = some
      { entries :=
          match call.entry none, call.attaches with
          | some e, _ => r.entries ++ [e]
          | none, some m => r.entries.modifyLast (.withSourceMap m)
          | none, none => [] } := by
  cases call with
  | recordCall funcName args result durationMs secs =>
    rw [step, recordCall, chronoNow_timestampAt]
    rfl
  | recordError funcName args error durationMs secs =>
    rw [step, recordError, chronoNow_timestampAt]
    rfl
  | attachSourceMap gitSha filePath line => rfl
  | reset => rfl

theorem entries_of_run (run : Run step new past r) : r.entries = TraceCall.recorded (callsOf past) := by
  induction run with
  | start => rfl
  | @next past s call t run moves ih =>
    have history : callsOf ((s, call) :: past) = callsOf past ++ [call] := by simp [callsOf]
    rw [step_eq] at moves
    obtain rfl := Option.some.inj moves
    rw [history]
    cases recording : call.entry none with
    | some e => rw [TraceCall.recorded_concat_entry recording, ← ih]
    | none =>
      cases attaching : call.attaches with
      | some m => rw [TraceCall.recorded_concat_attaches attaching, ← ih]
      | none =>
        cases call with
        | reset => exact TraceCall.recorded_concat_reset.symm
        | attachSourceMap _ _ _ => cases attaching
        | recordCall _ _ _ _ _ => cases recording
        | recordError _ _ _ _ _ => cases recording

end Recorder

section

open Gregorian TextOrder

/-- The format of `chrono_now`. -/
def timestampFormat : List (Nat × List Char) :=
  [(4, ['-']), (2, ['-']), (2, ['T']), (2, [':']), (2, [':']), (2, ['Z'])]

theorem toList_formatTimestamp (year month day hours minutes seconds : Nat) :
    (formatTimestamp year month day hours minutes seconds).toList =
      render timestampFormat [year, month, day, hours, minutes, seconds] := by
  simp [formatTimestamp, StdText.zeroPadded, timestampFormat, render, padded]

theorem fits_timestampFormat {m : Moment} (early : m.date.year < 10000) :
    Fits timestampFormat m.fields := by
  have month := m.date.month_le
  have day : m.date.day ≤ 31 := by
    have le := m.date.day_le
    unfold monthLength at le
    split at le
    · split at le <;> omega
    · split at le <;> omega
  have hour := m.time.hour_lt
  have minute := m.time.minute_lt
  have second := m.time.second_lt
  simp only [timestampFormat, Moment.fields, Fits, and_true]
  omega

theorem daysBeforeYear_mono {y z : Nat} (le : y ≤ z) : daysBeforeYear y ≤ daysBeforeYear z :=
  Finset.sum_le_sum_of_subset (Finset.range_mono le)

/-- The first reading of the year 10000. -/
def fiveDigitYears : UInt64 := 253402300800

theorem year_lt_of_early {secs : UInt64} {m : Moment}
    (number : m.number = unixEpoch.number + secs.toNat) (early : secs < fiveDigitYears) :
    m.date.year < 10000 := by
  by_contra late
  have years : daysBeforeYear 10000 ≤ daysBeforeYear m.date.year :=
    daysBeforeYear_mono (Nat.le_of_not_lt late)
  rw [daysBeforeYear_eq] at years
  have day := m.date.year_bounds.1
  have small : secs.toNat < 253402300800 := early
  rw [number_unixEpoch, Moment.number] at number
  omega

theorem exists_fields (secs : UInt64) : ∃ m : Moment,
    (timestampAt secs).toList = render timestampFormat m.fields ∧
      m.number = unixEpoch.number + secs.toNat := by
  obtain ⟨m, converts, time, -, number⟩ := exists_moment secs
  refine ⟨m, ?_, number⟩
  rw [timestampAt, chronoNow_eq converts time, Option.getD_some, toList_formatTimestamp]
  rfl

theorem timestampAt_lt_iff {a b : UInt64} (ha : a < fiveDigitYears) (hb : b < fiveDigitYears) :
    timestampAt a < timestampAt b ↔ a < b := by
  obtain ⟨m, text, number⟩ := exists_fields a
  obtain ⟨n, text', number'⟩ := exists_fields b
  have fits := fits_timestampFormat (year_lt_of_early number ha)
  have fits' := fits_timestampFormat (year_lt_of_early number' hb)
  rw [String.lt_iff, text, text', render_lt_iff fits fits', Moment.fields_lt_iff, number, number',
    UInt64.lt_iff_toNat_lt]
  omega

/-- As far as the year 9999, and no further, timestamps sort by time as texts. -/
theorem timestamps_sort_iff (last : UInt64) :
    (∀ a b : UInt64, a < b → b ≤ last → timestampAt a < timestampAt b) ↔ last < fiveDigitYears := by
  constructor
  · intro sorted
    by_contra late
    have reached : fiveDigitYears ≤ last := UInt64.not_lt.mp late
    have less := sorted 253402300799 fiveDigitYears (by decide) reached
    exact absurd less (by decide)
  · intro early a b less within
    have hb : b < fiveDigitYears := UInt64.lt_of_le_of_lt within early
    exact (timestampAt_lt_iff (UInt64.lt_trans less hb) hb).mpr less

end

theorem TraceCall.timestamps_sublist (calls : List TraceCall) :
    ((recorded calls).map (·.timestamp)).Sublist ((calls.filterMap secs).map timestampAt) := by
  induction calls with
  | nil => exact List.Sublist.slnil
  | cons call later ih =>
    rw [recorded]
    cases recording : call.entry (attached later) with
    | none =>
      have silent : call.secs = none := by
        cases call with
        | recordCall _ _ _ _ _ => cases recording
        | recordError _ _ _ _ _ => cases recording
        | _ => rfl
      rw [List.filterMap_cons_none silent]
      exact ih
    | some e =>
      obtain ⟨t, reading, stamp⟩ : ∃ t, call.secs = some t ∧ e.timestamp = timestampAt t := by
        cases call with
        | recordCall _ _ _ _ t => exact ⟨t, rfl, by rw [← Option.some.inj recording]⟩
        | recordError _ _ _ _ t => exact ⟨t, rfl, by rw [← Option.some.inj recording]⟩
        | attachSourceMap _ _ _ => cases recording
        | reset => cases recording
      rw [List.filterMap_cons_some reading, List.map_cons]
      by_cases again : reset ∈ later
      · simp only [again, ↓reduceIte]
        exact ih.cons _
      · simp only [again, ↓reduceIte, List.map_cons, stamp]
        exact ih.cons_cons _

theorem TraceCall.recorded_in_order {calls : List TraceCall}
    (steady : (calls.filterMap secs).Pairwise (· ≤ ·))
    (early : ∀ t ∈ calls.filterMap secs, t < fiveDigitYears) :
    (recorded calls).Pairwise (fun e f => e.timestamp ≤ f.timestamp) := by
  have stamps : ((calls.filterMap secs).map timestampAt).Pairwise (· ≤ ·) := by
    refine List.pairwise_map.mpr (steady.imp_of_mem (fun {a b} ha hb le => ?_))
    refine not_lt.mp (fun less => ?_)
    exact UInt64.not_lt.mpr le ((timestampAt_lt_iff (early b hb) (early a ha)).mp less)
  exact List.pairwise_map.mp (stamps.sublist (timestamps_sublist calls))

/-- Whatever is called in whatever order, no call fails, and the trace holds what has been recorded
since the last reset, each entry with the last source map attached before the next one. While the
clock does not go back, the entries stay sorted by their timestamps. -/
theorem Recorder.trace_reflects_calls {r : Recorder} {past : List (Recorder × TraceCall)}
    (run : Run step new past r) :
    r.trace = TraceCall.recorded (callsOf past) ∧
      (((callsOf past).filterMap TraceCall.secs).Pairwise (· ≤ ·) →
        (∀ t ∈ (callsOf past).filterMap TraceCall.secs, t < fiveDigitYears) →
        r.trace.Pairwise (fun e f => e.timestamp ≤ f.timestamp)) ∧
      ∀ call, ∃ r', r.step call = some r' := by
  have entries := entries_of_run run
  refine ⟨entries, fun steady early => ?_, fun call => ⟨_, step_eq r call⟩⟩
  rw [trace, entries]
  exact TraceCall.recorded_in_order steady early

def retriedHandler : List TraceCall :=
  [.recordCall "warm_up" "[]" "null" 1 1709251199, .reset,
    .recordError "charge" "[1]" "timeout" 30 1709251199, .attachSourceMap "abc" "pay.rs" 10,
    .recordCall "charge" "[1]" "\"ok\"" 5 1709251200, .attachSourceMap "abc" "pay.rs" 12]

theorem retriedHandler_trace : ∃ past r, Run Recorder.step .new past r ∧
    callsOf past = retriedHandler ∧ r.trace = TraceCall.recorded retriedHandler ∧ r.len = 2 ∧
      r.trace.Pairwise (fun e f => e.timestamp ≤ f.timestamp) := by
  have ran : exec Recorder.step [] .new retriedHandler = some (_, _) := rfl
  have run := Run.start.exec ran
  obtain ⟨trace, sorted, -⟩ := Recorder.trace_reflects_calls run
  refine ⟨_, _, run, rfl, trace, rfl, sorted (by decide) ?_⟩
  intro t reading
  have when : t ∈ [1709251199, 1709251199, 1709251200] := reading
  simp only [List.mem_cons, List.not_mem_nil, or_false] at when
  rcases when with rfl | rfl | rfl <;> decide

end OjsSdk
