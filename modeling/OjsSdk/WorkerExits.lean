import OjsSdk.WorkerLifecycle

namespace OjsSdk

open StepSystem

variable {w : Worker} {s s' : State} {a : Action} {past : List (State × Action)}

/-- The fetch loop has been left only with terminate stored. -/
def State.LeftTerminated (s : State) : Prop := s.main.leftLoop = true → s.state = .terminate

def Action.breaksWait : Action → Bool
  | .main .notified => true
  | _ => false

/-- The step leaves terminate stored once the fetch loop is left: a break out of
a wait finds it stored, and no heartbeat response replaces it. -/
def KeepsTerminate (s : State) (a : Action) : Prop :=
  (a.breaksWait = true → s.state = .terminate) ∧ (a.quiets = true → s.main.leftLoop = false)

instance : Decidable (KeepsTerminate s a) := inferInstanceAs (Decidable (_ ∧ _))

@[simp] theorem nextJob_leftLoop (rest : List Job) : (nextJob rest).leftLoop = false := by
  cases rest <;> rfl

@[simp] theorem WaitSite.resume_leftLoop (site : WaitSite) : site.resume.leftLoop = false := by
  cases site <;> rfl

theorem State.MainMove.left_cases {e : MainEvent} {pc : MainPc} {eff : Effect}
    (h : State.MainMove w s e pc eff) (left : pc.leftLoop = true) :
    (s.perform eff).state = .terminate ∨
      ((s.perform eff).state = s.state ∧ (s.main.leftLoop = true ∨ e = .notified)) := by
  cases h with
  | storedTerminate _ => exact .inl rfl
  | sawTerminate _ hs => exact .inl hs
  | notified _ _ _ => exact .inr ⟨rfl, .inr rfl⟩
  | slept site _ => simp at left
  | spawned job rest _ => simp at left
  | drained hm _ => exact .inr ⟨rfl, .inl (by rw [hm]; rfl)⟩
  | stillActive hm _ => exact .inr ⟨rfl, .inl (by rw [hm]; rfl)⟩
  | expired hm => exact .inr ⟨rfl, .inl (by rw [hm]; rfl)⟩
  | inTime hm => exact .inr ⟨rfl, .inl (by rw [hm]; rfl)⟩
  | graceReaped _ _ hm _ => exact .inr ⟨rfl, .inl (by rw [hm]; rfl)⟩
  | graceEmpty hm => exact .inr ⟨rfl, .inl (by rw [hm]; rfl)⟩
  | graceSlept hm => exact .inr ⟨rfl, .inl (by rw [hm]; rfl)⟩
  | stopped d hm => exact .inr ⟨rfl, .inl (by rw [hm]; rfl)⟩
  | _ => cases left

theorem State.Move.leftTerminated (h : State.Move w s a s') (before : s.LeftTerminated)
    (keeps : KeepsTerminate s a) : s'.LeftTerminated := by
  intro left
  cases h with
  | main hm =>
    rcases hm.left_cases left with stored | ⟨same, at_left | rfl⟩
    · exact stored
    · exact same.trans (before at_left)
    · exact same.trans (keeps.1 rfl)
  | @task i e t u eff ht hm =>
    obtain ⟨_, _, _, he⟩ := hm.frame s
    rw [he] at left ⊢
    exact before left
  | @heartbeat e pc eff hb =>
    have at_left : s.main.leftLoop = true := by
      obtain ⟨_, he⟩ := hb.frame
      rw [he] at left
      exact left
    rcases (State.Move.heartbeat hb).state_cases with ⟨quiets, _⟩ | ⟨_, stored⟩ | ⟨_, same⟩
    · simp [keeps.2 quiets] at at_left
    · exact stored
    · exact same.trans (before at_left)
  | signal => exact before left
  | register => exact before left

/-- A break out of a wait stores nothing, and a response that says quiet replaces
what is stored. -/
theorem State.Move.not_leftTerminated (h : State.Move w s a s') (breaks : ¬KeepsTerminate s a) :
    ¬s'.LeftTerminated := by
  intro after
  apply breaks
  constructor
  · intro hb
    cases h with
    | main hm =>
      cases hm with
      | notified site _ _ => exact after rfl
      | _ => cases hb
    | _ => cases hb
  · intro hq
    rcases h.state_cases with ⟨_, quiet, main⟩ | ⟨other, _⟩ | ⟨other, _⟩
    · by_contra left
      have stored := after (by rw [main]; simpa using left)
      rw [quiet] at stored
      cases stored
    · simp [hq] at other
    · simp [hq] at other

/-- Along a run, terminate is stored in every state after the
fetch loop was left exactly when every break out of a wait finds it stored and no
later heartbeat response replaces it. -/
theorem leftTerminated_iff (w : Worker) (past : List (State × Action)) (s : State)
    (ran : Ran w past s) :
    (∀ t ∈ visited past s, t.LeftTerminated) ↔ ∀ e ∈ past, KeepsTerminate e.1 e.2 := by
  obtain ⟨init, hi, run⟩ := ran
  refine Run.all_visited_iff (I := fun _ => True) (C := KeepsTerminate)
    (fun _ _ _ => trivial) ?_ ?_ ?_ run
  · intro left
    rw [(initial_of_start hi).main] at left
    cases left
  · exact fun _ _ _ _ before keeps hs => (State.move_of_step hs).leftTerminated before keeps
  · exact fun _ _ _ _ breaks hs => (State.move_of_step hs).not_leftTerminated breaks

/-- A worker that is idle when the server directs it to terminate. -/
theorem leftTerminated_directed :
    ∃ past s, Ran (emailWorker 1) past s ∧ s.main = .graceCheck ∧
      ∀ t ∈ visited past s, t.LeftTerminated := by
  have ran := ran_of_exec (w := emailWorker 1) rfl
    (rfl : exec _ _ _ (fetchSteps [] ++ .heartbeat .start :: heartbeatSteps "terminate" ++
      [.main .elapsed, .main .advance, .main .advance]) = some (_, _))
  refine ⟨_, _, ran, rfl, (leftTerminated_iff (emailWorker 1) _ _ ran).mpr ?_⟩
  decide

/-- The shutdown signal arrives during the wait after an empty poll: the worker
shuts down and still says that it is running. -/
theorem leftTerminated_signalled :
    ¬ ∀ w past s, w.Fresh → Ran w past s → s.main.leftLoop = true → s.state = .terminate := by
  intro all
  have ran := ran_of_exec (w := emailWorker 1) rfl
    (rfl : exec _ _ _ (fetchSteps [] ++ [.signal, .main .notified]) = some (_, _))
  cases all _ _ _ (emailWorker_fresh 1) ran rfl

end OjsSdk
