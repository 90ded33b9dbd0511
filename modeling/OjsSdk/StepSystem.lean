import Mathlib.Algebra.Ring.Nat
import Mathlib.Order.Basic

namespace StepSystem

variable {σ α : Type*}

/-- A finite run of a partial step function. `past` lists the state and the
action of every step taken so far, latest first. -/
inductive Run (step : σ → α → Option σ) (init : σ) : List (σ × α) → σ → Prop
  | start : Run step init [] init
  | next {past s a t} : Run step init past s → step s a = some t → Run step init ((s, a) :: past) t

def visited (past : List (σ × α)) (s : σ) : List σ :=
  s :: past.map Prod.fst

@[simp] theorem mem_visited {past : List (σ × α)} {s t : σ} :
    t ∈ visited past s ↔ t = s ∨ ∃ a, (t, a) ∈ past := by
  simp [visited]

theorem visited_cons (past : List (σ × α)) (s t : σ) (a : α) :
    visited ((s, a) :: past) t = t :: visited past s := rfl

variable {step : σ → α → Option σ} {init s : σ} {past : List (σ × α)}

/-- A property kept by every step that meets `C` holds at the end of a run all of
whose steps meet `C`. -/
theorem Run.keeps {P : σ → Prop} {C : σ → α → Prop} (base : P init)
    (keep : ∀ past s a t, Run step init past s → P s → C s a → step s a = some t → P t)
    (run : Run step init past s) (allowed : ∀ e ∈ past, C e.1 e.2) : P s := by
  induction run with
  | start => exact base
  | @next past s a t run hs ih =>
    have earlier : P s := ih (fun e he => allowed e (List.mem_cons_of_mem _ he))
    exact keep past s a t run earlier (allowed (s, a) (by simp)) hs

/-- The invariant rule. The step may use that its source is reachable, and with
it every invariant proved before. -/
theorem Run.invariant {P : σ → Prop} (base : P init)
    (keep : ∀ past s a t, Run step init past s → P s → step s a = some t → P t)
    (run : Run step init past s) : P s := by
  induction run with
  | start => exact base
  | next run hs ih => exact keep _ _ _ _ run ih hs

theorem Run.of_visited (run : Run step init past s) :
    ∀ t ∈ visited past s, ∃ earlier, Run step init earlier t := by
  induction run with
  | start => intro t ht; simp at ht; exact ⟨[], ht ▸ .start⟩
  | @next past s a u run hs ih =>
    intro t ht
    rw [visited_cons] at ht
    rcases List.mem_cons.mp ht with rfl | ht
    · exact ⟨_, run.next hs⟩
    · exact ih t ht

/-- What a recorded step brought about and no later step undoes still holds. -/
theorem Run.lasting {Q : σ → Prop} {e : σ × α}
    (brought : ∀ past t, Run step init past e.1 → step e.1 e.2 = some t → Q t)
    (lasts : ∀ past s a t, Run step init past s → Q s → step s a = some t → Q t)
    (run : Run step init past s) (he : e ∈ past) : Q s := by
  induction run with
  | start => cases he
  | @next past s a t run hs ih =>
    rcases List.mem_cons.mp he with rfl | he
    · exact brought past t run hs
    · exact lasts past s a t run (ih he) hs

/-- A property of a visited state that every step keeps holds at the end of the run. -/
theorem Run.onward {P : σ → Prop} {t : σ} (base : P t)
    (keep : ∀ s a u, P s → step s a = some u → P u)
    (run : Run step init past s) (ht : t ∈ visited past s) : P s := by
  induction run with
  | start =>
    have same : t = init := by simpa [visited] using ht
    exact same ▸ base
  | @next past s a u run hs ih =>
    rw [visited_cons] at ht
    rcases List.mem_cons.mp ht with rfl | earlier
    · exact base
    · exact keep s a u (ih earlier) hs

/-- What a state shows, and the first state did not, arose in a step from a visited state. -/
theorem Run.arisen {β : Type*} (shown arises : σ → β → Prop) (blank : ∀ b, ¬shown init b)
    (changed : ∀ s a t b, step s a = some t → shown t b → shown s b ∨ arises s b)
    (run : Run step init past s) {b : β} (here : shown s b) : ∃ t ∈ visited past s, arises t b := by
  induction run with
  | start => exact absurd here (blank b)
  | @next past s a u run hs ih =>
    rcases changed s a u b hs here with before | now
    · obtain ⟨t, ht, reason⟩ := ih before
      exact ⟨t, List.mem_cons_of_mem _ ht, reason⟩
    · exact ⟨s, by simp [visited], now⟩

/-- The exactness rule. When steps that meet `C` keep `P` under the invariant
`I`, and a step that breaks `C` always ends outside `P`, then `P` holds all
along a run exactly when all its steps meet `C`. -/
theorem Run.all_visited_iff {I P : σ → Prop} {C : σ → α → Prop}
    (inv : ∀ past s, Run step init past s → I s) (base : P init)
    (keep : ∀ s a t, I s → P s → C s a → step s a = some t → P t)
    (broken : ∀ s a t, I s → ¬C s a → step s a = some t → ¬P t)
    (run : Run step init past s) :
    (∀ t ∈ visited past s, P t) ↔ ∀ e ∈ past, C e.1 e.2 := by
  induction run with
  | start => simp [visited, base]
  | @next past s a u run hs ih =>
    simp only [visited_cons, List.forall_mem_cons]
    constructor
    · rintro ⟨hu, earlier⟩
      refine ⟨?_, ih.mp earlier⟩
      by_contra bad
      exact broken s a u (inv _ _ run) bad hs hu
    · rintro ⟨good, rest⟩
      have earlier := ih.mpr rest
      have hp : P s := earlier s (by simp)
      exact ⟨keep s a u (inv _ _ run) hp good hs, earlier⟩

/-- A measure never decreases along a run exactly when no single step of the
run decreases it. -/
theorem Run.monotone_iff {β : Type*} [Preorder β] (f : σ → β) {C : σ → α → Prop}
    (exact_step : ∀ s a t, step s a = some t → (f s ≤ f t ↔ C s a))
    (run : Run step init past s) :
    (visited past s).Pairwise (fun later earlier => f earlier ≤ f later) ↔
      ∀ e ∈ past, C e.1 e.2 := by
  induction run with
  | start => simp [visited]
  | @next past s a u run hs ih =>
    rw [visited_cons, List.pairwise_cons, List.forall_mem_cons, ih]
    refine and_congr_left fun rest => ?_
    constructor
    · intro above
      exact (exact_step s a u hs).mp (above s (by simp))
    · intro good t ht
      have hsu : f s ≤ f u := (exact_step s a u hs).mpr good
      have sorted := ih.mpr rest
      rcases List.mem_cons.mp ht with rfl | ht
      · exact hsu
      · exact le_trans ((List.pairwise_cons.mp sorted).1 t ht) hsu

/-- Performs a list of actions after a recorded run, and records them too. -/
def exec (step : σ → α → Option σ) :
    List (σ × α) → σ → List α → Option (List (σ × α) × σ)
  | past, s, [] => some (past, s)
  | past, s, a :: rest => (step s a).bind (fun t => exec step ((s, a) :: past) t rest)

theorem Run.exec {actions : List α} {past' : List (σ × α)} {t : σ}
    (run : Run step init past s) (h : exec step past s actions = some (past', t)) :
    Run step init past' t := by
  induction actions generalizing s past with
  | nil => cases h; exact run
  | cons a rest ih =>
    obtain ⟨u, hu, h⟩ := Option.bind_eq_some_iff.mp h
    exact ih (run.next hu) h

/-- The budget rule. Where each step pays its cost out of a measure and of what it brings in, a
schedule costs no more than the measure at its start and all that came in. -/
theorem exec_budget {I : σ → Prop} {measure : σ → Nat} {cost credit : α → Nat}
    (keep : ∀ s a t, I s → step s a = some t → I t)
    (pays : ∀ s a t, I s → step s a = some t → measure t + cost a ≤ measure s + credit a)
    {actions : List α} {past' : List (σ × α)} {t : σ} (here : I s)
    (h : exec step past s actions = some (past', t)) :
    I t ∧ measure t + (actions.map cost).sum ≤ measure s + (actions.map credit).sum := by
  induction actions generalizing s past with
  | nil =>
    cases h
    exact ⟨here, Nat.le_refl _⟩
  | cons a rest ih =>
    obtain ⟨u, hu, h⟩ := Option.bind_eq_some_iff.mp h
    obtain ⟨later, bound⟩ := ih (keep s a u here hu) h
    have paid := pays s a u here hu
    simp only [List.map_cons, List.sum_cons]
    exact ⟨later, by omega⟩

theorem Run.exists_earlier {n : Nat} (run : Run step init past s) (earlier : n < past.length) :
    ∃ (before : List (σ × α)) (u v : σ) (a : α), Run step init before u ∧ before.length = n ∧
      step u a = some v := by
  induction run with
  | start => simp at earlier
  | @next past s a u run hs ih =>
    by_cases last : n = past.length
    · exact ⟨past, s, u, a, run, last.symm, hs⟩
    · rw [List.length_cons] at earlier
      exact ih (by omega)

section

variable [Subsingleton α] {past' : List (σ × α)} {t : σ}

/-- Where there is only one action, the number of steps decides where a run is. -/
theorem Run.eq_of_length (run : Run step init past s) (run' : Run step init past' t)
    (same : past.length = past'.length) : s = t := by
  induction run generalizing past' t with
  | start =>
    cases run' with
    | start => rfl
    | next _ _ => simp at same
  | @next past s a u run hs ih =>
    cases run' with
    | start => simp at same
    | @next past' s' a' _ run' hs' =>
      obtain rfl := ih run' (by simpa using same)
      obtain rfl := Subsingleton.elim a a'
      rw [hs] at hs'
      exact Option.some.inj hs'

/-- All runs that cannot go on end in the same state. -/
theorem Run.stuck_unique (run : Run step init past s) (run' : Run step init past' t)
    (stuck : ∀ a, step s a = none) (stuck' : ∀ a, step t a = none) : s = t := by
  rcases Nat.lt_trichotomy past.length past'.length with shorter | same | longer
  · obtain ⟨before, u, v, a, earlier, length, moves⟩ := run'.exists_earlier shorter
    obtain rfl := run.eq_of_length earlier length.symm
    rw [stuck a] at moves
    cases moves
  · exact run.eq_of_length run' same
  · obtain ⟨before, u, v, a, earlier, length, moves⟩ := run.exists_earlier longer
    obtain rfl := run'.eq_of_length earlier length.symm
    rw [stuck' a] at moves
    cases moves

end

end StepSystem
