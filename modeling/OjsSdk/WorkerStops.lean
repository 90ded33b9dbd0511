import OjsSdk.WorkerLifecycle

namespace OjsSdk

open StepSystem

variable {w : Worker} {s s' : State} {a : Action} {past : List (State × Action)}

/-- The shutdown notification was sent, or a state other than running was stored. -/
def State.Stopped (s : State) : Prop := s.shutdown = true ∨ s.state ≠ .running

instance (s : State) : Decidable s.Stopped := inferInstanceAs (Decidable (_ ∨ _))

/-- The calls of `fetch_jobs` that the main loop has past its last look at what
would stop it. -/
def State.dueFetches (s : State) : Nat :=
  match s.main with
  | .loadActive | .fetch _ => 1
  | .checkState => if s.state = .running then 1 else 0
  | _ => 0

theorem State.dueFetches_le_one (s : State) : s.dueFetches ≤ 1 := by
  unfold dueFetches
  split
  next => exact Nat.le_refl 1
  next => exact Nat.le_refl 1
  next => split <;> omega
  next => exact Nat.zero_le 1

theorem State.dueFetches_congr {t u : State} (main : u.main = t.main)
    (state : t.state ≠ .running → u.state ≠ .running) : u.dueFetches ≤ t.dueFetches := by
  unfold dueFetches
  rw [main]
  split
  next => exact Nat.le_refl 1
  next => exact Nat.le_refl 1
  next =>
    by_cases running : t.state = .running
    · rw [if_pos running]
      split <;> omega
    · rw [if_neg running, if_neg (state running)]
  next => exact Nat.le_refl 0

/-- No step stores running. -/
theorem State.Move.state_ne_running (h : State.Move w s a s') (stored : s.state ≠ .running) :
    s'.state ≠ .running := by
  rcases h.state_cases with ⟨_, hs, _⟩ | ⟨_, hs⟩ | ⟨_, hs⟩
  · simp [hs]
  · simp [hs]
  · rwa [hs]

theorem State.Move.shutdown (h : State.Move w s a s') (sent : s.shutdown = true) :
    s'.shutdown = true := by
  cases h with
  | main hm =>
    cases hm with
    | stopped d hm => rfl
    | _ => exact sent
  | @task i e t u eff ht hm =>
    obtain ⟨_, _, _, he⟩ := hm.frame s
    rw [he]
    exact sent
  | @heartbeat e pc eff hb =>
    obtain ⟨_, he⟩ := hb.frame
    rw [he]
    exact sent
  | signal => rfl
  | register => exact sent

theorem State.Move.stopped (h : State.Move w s a s') (stopped : s.Stopped) : s'.Stopped := by
  rcases stopped with sent | stored
  · exact .inl (h.shutdown sent)
  · exact .inr (h.state_ne_running stored)

/-- Once the worker is stopped, a call of `fetch_jobs` uses up one that was due, and
no further one becomes due. -/
theorem State.MainMove.fetchCalls {e : MainEvent} {pc : MainPc} {eff : Effect}
    (h : State.MainMove w s e pc eff) (stopped : s.Stopped) :
    (s.perform eff).fetchCalls.length + State.dueFetches { s.perform eff with main := pc } ≤
      s.fetchCalls.length + s.dueFetches := by
  cases h with
  | sawNoShutdown hm open_ =>
    have stored : s.state ≠ .running := by
      rcases stopped with sent | stored
      · simp [open_] at sent
      · exact stored
    simp [State.dueFetches, State.perform, hm, stored]
  | sawRunning hm hs => simp [State.dueFetches, State.perform, hm, hs]
  | slept site hm => cases site <;> simp [State.dueFetches, State.perform, hm, WaitSite.resume]
  | spare hm _ => simp [State.dueFetches, State.perform, hm]
  | called count hm => simp [State.dueFetches, State.perform, hm]
  | spawned job rest hm => cases rest <;> simp [State.dueFetches, State.perform, hm, nextJob]
  | _ => exact Nat.add_le_add_left (Nat.zero_le _) _

theorem State.Move.fetchCalls (h : State.Move w s a s') (stopped : s.Stopped) :
    s'.fetchCalls.length + s'.dueFetches ≤ s.fetchCalls.length + s.dueFetches := by
  have due : s'.main = s.main → s'.dueFetches ≤ s.dueFetches :=
    fun main => State.dueFetches_congr main h.state_ne_running
  cases h with
  | main hm => exact hm.fetchCalls stopped
  | @task i e t u eff ht hm =>
    obtain ⟨_, _, _, he⟩ := hm.frame s
    rw [he] at due ⊢
    exact Nat.add_le_add_left (due rfl) _
  | @heartbeat e pc eff hb =>
    obtain ⟨_, he⟩ := hb.frame
    rw [he] at due ⊢
    exact Nat.add_le_add_left (due rfl) _
  | signal => exact Nat.add_le_add_left (due rfl) _
  | register => exact Nat.add_le_add_left (due rfl) _

/-- From any moment of a run at which the worker is stopped, the main loop begins at
most one further call of `fetch_jobs`. -/
theorem fetchCalls_after_stopped_le (w : Worker) (past : List (State × Action)) (s t : State)
    (ran : Ran w past s) (ht : t ∈ visited past s) (stopped : t.Stopped) :
    s.fetchCalls.length ≤ t.fetchCalls.length + 1 := by
  obtain ⟨init, _, run⟩ := ran
  have bound : s.Stopped ∧
      s.fetchCalls.length + s.dueFetches ≤ t.fetchCalls.length + t.dueFetches := by
    refine Run.onward (P := fun s => s.Stopped ∧
      s.fetchCalls.length + s.dueFetches ≤ t.fetchCalls.length + t.dueFetches) ?_ ?_ run ht
    · exact ⟨stopped, Nat.le_refl _⟩
    · rintro s a u ⟨stopped, before⟩ hs
      have move := State.move_of_step hs
      exact ⟨move.stopped stopped, (move.fetchCalls stopped).trans before⟩
  have one := t.dueFetches_le_one
  omega

/-- The signal arrives after the main loop has found the worker running: one more
call is made, and then the worker shuts down. -/
theorem fetchCalls_after_signal :
    ∃ past s t, Ran (emailWorker 1) past s ∧ t ∈ visited past s ∧ t.fetchCalls.length = 0 ∧
      t.Stopped ∧ s.fetchCalls.length = 1 ∧ s.main = .graceCheck ∧
      s.fetchCalls.length ≤ t.fetchCalls.length + 1 := by
  have ran := ran_of_exec (w := emailWorker 1) rfl
    (rfl : exec _ _ _ ([.main .advance, .main .advance, .signal, .main .advance, .main .advance,
      .main (.response (.ok [])), .main .notified]) = some (_, _))
  have before := fetchCalls_after_stopped_le (emailWorker 1) _ _ _ ran
    (.tail _ (.tail _ (.tail _ (.tail _ (.head _))))) (.inl rfl)
  exact ⟨_, _, _, ran, .tail _ (.tail _ (.tail _ (.tail _ (.head _)))), rfl, .inl rfl, rfl, rfl,
    before⟩

end OjsSdk
