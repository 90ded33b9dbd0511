import OjsSdk.WorkerAccounting

namespace OjsSdk

open StepSystem

variable {w : Worker} {s s' : State} {a : Action} {past : List (State × Action)}

def State.busy (s : State) : Bool := s.tasks.any Task.executing

/-- The heartbeat task exists for as long as `start` has a job in process. -/
def State.Extended (s : State) : Prop :=
  s.main.isOver = false → s.busy = true → s.heartbeat ≠ .exited

def Action.endsHeartbeat (w : Worker) : Action → Bool
  | .heartbeat .start => w.heartbeatInterval.nanos = 0
  | .heartbeat .panicked | .heartbeat .notified | .heartbeat .aborted => true
  | _ => false

/-- The step neither ends the heartbeat task while `start` has a job in process
nor spawns a job task after it has ended. -/
def KeepsHeartbeat (w : Worker) (s : State) (a : Action) : Prop :=
  (a.endsHeartbeat w = true → s.main.isOver = true ∨ s.busy = false) ∧
    ((a.spawned s).isSome = true → s.heartbeat ≠ .exited)

instance : Decidable (KeepsHeartbeat w s a) := inferInstanceAs (Decidable (_ ∧ _))

theorem State.Move.busy (h : State.Move w s a s') (busy : s'.busy = true) :
    s.busy = true ∨ (a.spawned s).isSome = true := by
  obtain ⟨t, ht, executing⟩ := List.any_eq_true.mp busy
  rcases h.executing_cases ht executing with ⟨u, hu, running, _⟩ | spawned
  · exact .inl (List.any_eq_true.mpr ⟨u, hu, running⟩)
  · exact .inr (by simp [spawned])

theorem State.Move.exited (h : State.Move w s a s') (exited : s'.heartbeat = .exited) :
    s.heartbeat = .exited ∨ a.endsHeartbeat w = true := by
  cases h with
  | @main e pc eff hm =>
    left
    cases hm <;> exact exited
  | @task i e t u eff ht hm =>
    obtain ⟨_, _, _, he⟩ := hm.frame s
    rw [he] at exited
    exact .inl exited
  | heartbeat hb =>
    right
    cases hb <;> simp_all [Action.endsHeartbeat]
  | signal => exact .inl exited
  | register => exact .inl exited

theorem State.Move.ends (h : State.Move w s a s') (ends : a.endsHeartbeat w = true) :
    s'.heartbeat = .exited ∧ s'.main = s.main ∧ s'.tasks = s.tasks := by
  cases h with
  | heartbeat hb => cases hb <;> simp_all [Action.endsHeartbeat, State.perform]
  | _ => cases ends

theorem State.Move.extended (h : State.Move w s a s') (before : s.Extended)
    (keeps : KeepsHeartbeat w s a) : s'.Extended := by
  intro running busy exited
  have earlier := h.running running
  rcases h.exited exited with gone | ends
  · rcases h.busy busy with busy | spawns
    · exact before earlier busy gone
    · exact keeps.2 spawns gone
  · obtain ⟨_, _, tasks⟩ := h.ends ends
    rcases keeps.1 ends with hover | idle
    · simp [earlier] at hover
    · simp [State.busy, tasks] at busy idle
      obtain ⟨t, ht, executing⟩ := busy
      simp [idle t ht] at executing

theorem State.Move.not_extended (h : State.Move w s a s') (bad : ¬KeepsHeartbeat w s a) :
    ¬s'.Extended := by
  intro after
  apply bad
  constructor
  · intro ends
    obtain ⟨exited, main, tasks⟩ := h.ends ends
    by_contra both
    simp only [not_or, Bool.not_eq_true, Bool.not_eq_false] at both
    exact after (by rw [main]; exact both.1) (by rw [State.busy, tasks]; exact both.2) exited
  · intro spawns gone
    obtain ⟨job, hj⟩ := Option.isSome_iff_exists.mp spawns
    obtain ⟨new, _, same, running⟩ := h.spawned hj
    exact after running (List.any_eq_true.mpr ⟨_, new, rfl⟩) (same.trans gone)

/-- Nothing asks the heartbeat task to end while `start` is running. -/
def State.Undisturbed (s : State) : Prop :=
  s.shutdown = true ∨ s.abortHeartbeat = true ∨ s.heartbeat = .exited → s.main.isOver = true

theorem State.Move.undisturbed (h : State.Move w s a s') (interval : w.heartbeatInterval.nanos ≠ 0)
    (before : s.Undisturbed) (calm : a ≠ .signal ∧ a ≠ .heartbeat .panicked) : s'.Undisturbed := by
  have stays := h.isOver
  cases h with
  | @main e pc eff hm =>
    intro disturbed
    cases hm with
    | stopped => rfl
    | _ => exact stays (before disturbed)
  | @task i e t u eff ht hm =>
    obtain ⟨_, _, _, he⟩ := hm.frame s
    simpa only [State.Undisturbed, he] using before
  | @heartbeat e pc eff hb =>
    obtain ⟨_, he⟩ := hb.frame
    rw [he] at stays ⊢
    rintro (shutdown | abort | exited)
    · exact before (.inl shutdown)
    · exact before (.inr (.inl abort))
    · cases hb with
      | zeroInterval _ hz => exact absurd hz interval
      | panicked req _ => exact absurd rfl calm.2
      | notified _ hs => exact before (.inl hs)
      | aborted _ ha => exact before (.inr (.inl ha))
      | _ => cases exited
  | signal => exact absurd rfl calm.1
  | register => exact before

/-- Without the shutdown signal the heartbeat task lives until `start` is over, also
when a heartbeat response has directed the worker to terminate. -/
theorem Ran.undisturbed (ran : Ran w past s) (interval : w.heartbeatInterval.nanos ≠ 0)
    (calm : ∀ e ∈ past, e.2 ≠ .signal ∧ e.2 ≠ .heartbeat .panicked) : s.Undisturbed := by
  obtain ⟨init, hi, run⟩ := ran
  have init_eq := initial_of_start hi
  apply Run.keeps (C := fun _ a => a ≠ .signal ∧ a ≠ .heartbeat .panicked) ?_ ?_ run calm
  · rintro (shutdown | abort | exited)
    · simp [init_eq.shutdown] at shutdown
    · simp [init_eq.abortHeartbeat] at abort
    · simp [init_eq.heartbeat] at exited
  · exact fun _ _ _ _ _ before calm hs => (State.move_of_step hs).undisturbed interval before calm

/-- Along a run, the heartbeat task exists in every state in which `start` has a
job in process exactly when no step ends it there and no job is spawned after
its end. -/
theorem heartbeat_extended_iff (w : Worker) (past : List (State × Action)) (s : State)
    (ran : Ran w past s) :
    (∀ t ∈ visited past s, t.Extended) ↔ ∀ e ∈ past, KeepsHeartbeat w e.1 e.2 := by
  obtain ⟨init, hi, run⟩ := ran
  refine Run.all_visited_iff (I := fun _ => True) (C := KeepsHeartbeat w)
    (fun _ _ _ => trivial) ?_ ?_ ?_ run
  · intro _ busy
    simp [State.busy, (initial_of_start hi).tasks] at busy
  · exact fun _ _ _ _ before keeps hs => (State.move_of_step hs).extended before keeps
  · exact fun _ _ _ _ bad hs => (State.move_of_step hs).not_extended bad

/-- A shutdown directed by the server, while a job is in process. -/
theorem heartbeat_extended_directed :
    ∃ past s, Ran (emailWorker 1) past s ∧ s.main = .graceWait ∧ s.busy = true ∧
      ∀ t ∈ visited past s, t.Extended := by
  have ran := ran_of_exec (w := emailWorker 1) rfl
    (rfl : exec _ _ _ (fetchSteps [emailJob "job-1"] ++ spawnSteps ++
      [.heartbeat .start, .heartbeat (.tick ["job-1"]), .heartbeat (.response (.ok
        { state := "terminate", jobsExtended := none, serverTime := none })),
       .main .advance, .main .advance, .main .advance, .main .advance,
       .main (.deadline false)]) = some (_, _))
  refine ⟨_, _, ran, rfl, rfl, (heartbeat_extended_iff (emailWorker 1) _ _ ran).mpr ?_⟩
  decide

/-- A shutdown by the signal: the heartbeat task ends at once, with the job still
in process and `start` waiting for it. -/
theorem heartbeat_extended_signalled :
    ¬ ∀ w past s, w.Fresh → w.heartbeatInterval.nanos ≠ 0 → Ran w past s →
      s.main.isOver = false → s.busy = true → s.heartbeat ≠ .exited := by
  intro all
  have ran := ran_of_exec (w := emailWorker 1) rfl
    (rfl : exec _ _ _ (.heartbeat .start :: fetchSteps [emailJob "job-1"] ++ spawnSteps ++
      [.signal, .heartbeat .notified]) = some (_, _))
  exact all _ _ _ (emailWorker_fresh 1) (by decide) ran rfl rfl rfl

end OjsSdk
