import OjsSdk.WorkerRun

namespace OjsSdk

open StepSystem

variable {w : Worker} {s s' : State} {a : Action} {past : List (State × Action)}

def Action.quiets : Action → Bool
  | .heartbeat (.response (.ok resp)) => resp.state = "quiet"
  | _ => false

/-- What a step does to the stored state: a heartbeat response may store quiet,
and every other store is a store of terminate. -/
theorem State.Move.state_cases (h : State.Move w s a s') :
    (a.quiets = true ∧ s'.state = .quiet ∧ s'.main = s.main) ∨
      (a.quiets = false ∧ s'.state = .terminate) ∨ (a.quiets = false ∧ s'.state = s.state) := by
  cases h with
  | main hm =>
    cases hm with
    | storedTerminate _ => exact .inr (.inl ⟨rfl, rfl⟩)
    | _ => exact .inr (.inr ⟨rfl, rfl⟩)
  | @task i e t u eff ht hm =>
    obtain ⟨_, _, _, he⟩ := hm.frame s
    exact .inr (.inr ⟨rfl, by rw [he]⟩)
  | @heartbeat e pc eff hb =>
    cases hb with
    | answered req resp hb =>
      rcases State.directive_cases resp.state with ⟨hq, hd⟩ | ⟨ht, hd⟩ | ⟨hq, ht, hd⟩
      · exact .inl ⟨by simp [Action.quiets, hq], by rw [hd]; rfl, by rw [hd]; rfl⟩
      · exact .inr (.inl ⟨by simp [Action.quiets, ht], by rw [hd]; rfl⟩)
      · exact .inr (.inr ⟨by simp [Action.quiets, hq], by rw [hd]; rfl⟩)
    | _ => exact .inr (.inr ⟨rfl, rfl⟩)
  | signal => exact .inr (.inr ⟨rfl, rfl⟩)
  | register => exact .inr (.inr ⟨rfl, rfl⟩)

theorem State.Move.state_le_iff (h : State.Move w s a s') :
    s.state ≤ s'.state ↔ ¬(a.quiets = true ∧ s.state = .terminate) := by
  rcases h.state_cases with ⟨quiets, hs, _⟩ | ⟨other, hs⟩ | ⟨other, hs⟩
  · rw [hs]
    cases hp : s.state <;> simp [quiets, WorkerState.le_iff, WorkerState.asU8]
  · simp [hs, other, WorkerState.le_terminate]
  · simp [hs, other]

/-- The stored state never decreases along a run exactly when no heartbeat response
that says quiet is handled while terminate is stored. -/
theorem lifecycle_monotone_iff (w : Worker) (past : List (State × Action)) (s : State)
    (ran : Ran w past s) :
    (visited past s).Pairwise (fun later earlier => earlier.state ≤ later.state) ↔
      ∀ e ∈ past, ¬(e.2.quiets = true ∧ e.1.state = .terminate) := by
  obtain ⟨init, _, run⟩ := ran
  exact run.monotone_iff State.state (fun _ _ _ hs => (State.move_of_step hs).state_le_iff)

def heartbeatSteps (state : String) : List Action :=
  [.heartbeat (.tick []),
    .heartbeat (.response (.ok { state, jobsExtended := none, serverTime := none }))]

/-- A worker that is told to be quiet and then to terminate. -/
theorem lifecycle_monotone_forward :
    ∃ past s, Ran (emailWorker 1) past s ∧ s.state = .terminate ∧
      (visited past s).Pairwise (fun later earlier => earlier.state ≤ later.state) := by
  have ran := ran_of_exec (w := emailWorker 1) rfl
    (rfl : exec _ _ _ (.heartbeat .start :: heartbeatSteps "quiet" ++
      heartbeatSteps "terminate") = some (_, _))
  refine ⟨_, _, ran, rfl, (lifecycle_monotone_iff (emailWorker 1) _ _ ran).mpr ?_⟩
  decide

/-- A worker that is told to terminate and then to be quiet: the directive is lost. -/
theorem lifecycle_terminate_lost :
    ¬ ∀ w past s, w.Fresh → Ran w past s →
      (visited past s).Pairwise (fun later earlier => earlier.state ≤ later.state) := by
  intro all
  have ran := ran_of_exec (w := emailWorker 1) rfl
    (rfl : exec _ _ _ (.heartbeat .start :: heartbeatSteps "terminate" ++
      heartbeatSteps "quiet") = some (_, _))
  have ordered := (List.pairwise_cons.mp (all _ _ _ (emailWorker_fresh 1) ran)).1
  exact absurd (ordered _ (.tail _ (.head _))) (by decide)

end OjsSdk
