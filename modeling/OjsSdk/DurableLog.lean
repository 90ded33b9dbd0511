import OjsSdk.DurableCalls
import OjsSdk.DurableReplay

namespace OjsSdk

variable {W : Type} {s : Surroundings W} {h : DurableHandler W}

def Numbered (log : List ReplayEntry) : Prop :=
  ∀ i (entry : ReplayEntry), log[i]? = some entry → entry.seq = i

theorem Numbered.append {log : List ReplayEntry} (numbered : Numbered log) {entry : ReplayEntry}
    (seq : entry.seq = log.length) : Numbered (log ++ [entry]) := by
  intro i e here
  rcases Nat.lt_trichotomy i log.length with lt | rfl | gt
  · rw [List.getElem?_append_left lt] at here
    exact numbered i e here
  · simp only [List.getElem?_concat_length, Option.some.injEq] at here
    rw [← here, seq]
  · obtain ⟨lt, -⟩ := List.getElem?_eq_some_iff.mp here
    rw [List.length_append, List.length_singleton] at lt
    omega

/-- Where a run that started on `log` is, as far as its log is concerned. -/
structure LogIntact (s : Surroundings W) (log : List ReplayEntry) (e : Execution h.State) :
    Prop where
  starts : log <+: e.ctx.replayLog
  cursor_le : e.ctx.replayCursor ≤ e.ctx.replayLog.length
  numbered : Numbered e.ctx.replayLog
  /-- The next call takes no entry that this run has appended. -/
  notOwn : ∀ c, e.call h = some c → e.ctx.Answers (c.use s).helper →
    e.ctx.replayCursor < log.length

/-- The next call records a value, but the cursor is not at the end of the log. -/
def Execution.Overtakes (s : Surroundings W) (w : W) (e : Execution h.State) : Prop :=
  ∃ c, e.call h = some c ∧ ¬e.ctx.Answers (c.use s).helper ∧ (c.use s).helper.Gives w ∧
    e.ctx.replayCursor < e.ctx.replayLog.length

/-- Nothing has been appended yet, or the log has been read to its end. -/
structure ReadOrUntouched (log : List ReplayEntry) (ctx : DurableContext) : Prop where
  starts : log <+: ctx.replayLog
  cursor_le : ctx.replayCursor ≤ ctx.replayLog.length
  numbered : Numbered ctx.replayLog
  either : ctx.replayLog.length = log.length ∨ ctx.replayCursor = ctx.replayLog.length

theorem DurableContext.Answers.lt {T : Type} {ctx : DurableContext} {k : Helper W T}
    (answers : ctx.Answers k) : ctx.replayCursor < ctx.replayLog.length := by
  obtain ⟨entry, found, -⟩ := answers
  exact (List.getElem?_eq_some_iff.mp found).1

theorem ReadOrUntouched.intact {log : List ReplayEntry} {e : Execution h.State}
    (inv : ReadOrUntouched log e.ctx) : LogIntact s log e where
  starts := inv.starts
  cursor_le := inv.cursor_le
  numbered := inv.numbered
  notOwn c _ answers := by
    have lt := answers.lt
    rcases inv.either with same | atEnd
    · omega
    · omega

theorem ReadOrUntouched.step {log : List ReplayEntry} {e : Execution h.State} {w : W}
    (inv : ReadOrUntouched log e.ctx) (not : ¬e.Overtakes s w) :
    ReadOrUntouched log (e.step s h w).ctx := by
  cases call : e.call h with
  | none => rwa [Execution.step_of_no_call call]
  | some c =>
    rw [Execution.step_of_call call, HelperUse.run, Execution.after_ctx]
    have consulted := e.ctx.consulted (c.use s).helper w
    generalize e.ctx.consult (c.use s).helper w = r at consulted
    cases consulted with
    | replayed entry found accepted =>
      have lt := (show e.ctx.Answers (c.use s).helper from ⟨entry, found, accepted⟩).lt
      refine ⟨inv.starts, lt, inv.numbered, ?_⟩
      rcases inv.either with same | atEnd
      · exact .inl same
      · omega
    | recorded t v unanswered fresh encoded =>
      have atEnd : e.ctx.replayCursor = e.ctx.replayLog.length := by
        by_contra ne
        have le := inv.cursor_le
        exact not ⟨c, call, unanswered, ⟨t, v, fresh, encoded⟩, by omega⟩
      refine ⟨inv.starts.trans (List.prefix_append _ _), ?_, inv.numbered.append atEnd, ?_⟩
      · simp [DurableContext.record, atEnd]
      · exact .inr (by simp [DurableContext.record, atEnd])
    | refused result _ _ _ => exact inv

/-- The entry of a call that overtakes the cursor has the number of another position. -/
theorem Execution.Overtakes.misnumbers {e : Execution h.State} {w : W}
    (overtakes : e.Overtakes s w) :
    ¬Numbered (e.step s h w).ctx.replayLog := by
  obtain ⟨c, call, unanswered, gives, lt⟩ := overtakes
  rw [Execution.step_of_call call, HelperUse.run, Execution.after_ctx]
  have consulted := e.ctx.consulted (c.use s).helper w
  generalize e.ctx.consult (c.use s).helper w = r at consulted
  cases consulted with
  | replayed entry found accepted => exact absurd ⟨entry, found, accepted⟩ unanswered
  | recorded t v _ _ _ =>
    intro numbered
    have seq := numbered e.ctx.replayLog.length _ List.getElem?_concat_length
    have : e.ctx.replayCursor = e.ctx.replayLog.length := seq
    omega
  | refused result _ nothing _ => exact absurd gives nothing

/-- The log stays intact exactly as long as no call records a value ahead of entries that have
not been read. -/
theorem log_intact_iff {log : List ReplayEntry} (numbered : Numbered log) (env : Nat → W)
    (k : Nat) :
    (∀ n ≤ k, LogIntact s log (execution s h (.newWithReplay log) env n)) ↔
      ∀ n < k, ¬(execution s h (.newWithReplay log) env n).Overtakes s (env n) := by
  constructor
  · intro intact n lt overtakes
    exact overtakes.misnumbers (intact (n + 1) lt).numbered
  · intro not n le
    have inv : ReadOrUntouched log (execution s h (.newWithReplay log) env n).ctx := by
      induction n with
      | zero => exact ⟨List.prefix_rfl, Nat.zero_le _, numbered, .inl rfl⟩
      | succ n ih => exact (ih (Nat.le_of_succ_le le)).step (not n le)
    exact inv.intact

def drawingNext : Nat → Option (HelperCall Bool Nat)
  | 0 => some (.random 2 (fun _ => 1))
  | 1 => some (.random 2 (fun _ => 2))
  | _ => none

/-- Takes two tokens. -/
def drawing : DurableHandler Bool where
  State := Nat
  start := 0
  next := drawingNext

def recordedToken : ReplayEntry := ⟨0, "random", "random", .string "0000"⟩

def recordedTime : ReplayEntry := ⟨0, "now", "now", .string "1970-01-01T00:00:00Z"⟩

theorem numbered_singleton {entry : ReplayEntry} (seq : entry.seq = 0) : Numbered [entry] := by
  have nothing : Numbered [] := by
    intro i e here
    cases here
  exact nothing.append seq

theorem drawing_intact :
    LogIntact standstill [recordedToken]
      (execution standstill drawing (.newWithReplay [recordedToken]) (fun _ => true) 2) := by
  refine (log_intact_iff (numbered_singleton rfl) (fun _ => true) 2).mpr ?_ 2 (Nat.le_refl 2)
  intro n lt overtakes
  obtain ⟨c, call, unanswered, -, ahead⟩ := overtakes
  have cases' : n = 0 ∨ n = 1 := by omega
  rcases cases' with rfl | rfl
  · cases Option.some.inj call
    exact unanswered ⟨recordedToken, rfl, rfl⟩
  · exact absurd ahead (by decide)

/-- The first token is recorded behind a time that is never taken, and the second is the first
one again. -/
theorem drawing_repeats :
    ¬∀ (s : Surroundings Bool) (h : DurableHandler Bool) (log : List ReplayEntry)
      (env : Nat → Bool) (n : Nat), Numbered log →
      LogIntact s log (execution s h (.newWithReplay log) env n) := by
  intro claim
  have intact := claim standstill drawing [recordedTime] (fun _ => true) 1 (numbered_singleton rfl)
  have own := intact.notOwn _ rfl ⟨⟨0, "random", "random", .string "0000"⟩, rfl, rfl⟩
  exact absurd own (by decide)

end OjsSdk
