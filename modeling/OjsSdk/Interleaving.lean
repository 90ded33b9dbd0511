import Mathlib.Algebra.Ring.Nat
import OjsSdk.Population
import OjsSdk.Suspension

namespace Suspension

variable {ι E A B : Type}

/-- A computation that has been started, with what it has shown and what is left of it. -/
structure Task (ι E A : Type) where
  job : ι
  shown : List E
  rest : Proc E A

structure Crowd (ι E A : Type) where
  tasks : List (Task ι E A)
  log : List E

inductive Turn (ι : Type)
  | start (job : ι)
  | go (task answer : Nat)
  deriving DecidableEq, Repr

namespace Crowd

def empty : Crowd ι E A where
  tasks := []
  log := []

def step (jobs : ι → Proc E A) (c : Crowd ι E A) : Turn ι → Option (Crowd ι E A)
  | .start job => some { c with tasks := c.tasks ++ [⟨job, [], jobs job⟩] }
  | .go i answer =>
    c.tasks[i]?.bind fun t => (t.rest.step answer).map fun (event, rest) =>
      { tasks := c.tasks.set i { t with shown := t.shown ++ event.toList, rest }
        log := c.log ++ event.toList }

end Crowd

def Task.returned (t : Task ι E A) : Bool :=
  match t.rest with
  | .done _ => true
  | _ => false

section

variable {p : Proc E A} {shown : List E} {ending : Ending A}

theorem observes_of_step {answer : Nat} {event : Option E} {rest : Proc E A}
    (h : p.step answer = some (event, rest)) (later : Observes rest shown ending) :
    Observes p (event.toList ++ shown) ending := by
  cases p with
  | done a => cases h
  | panic => cases h
  | hang => cases h
  | block => cases h
  | emit e q =>
    cases h
    exact .emit e later
  | wait q =>
    cases h
    exact .resumed later
  | input q =>
    cases h
    exact .input answer later

end

variable {jobs : ι → Proc E A} {c c' : Crowd ι E A} {past : List (Crowd ι E A × Turn ι)}

/-- What is left of a task goes on with what it has shown, and the log holds the events of all
tasks and no others. -/
structure Crowd.Kept (jobs : ι → Proc E A) (c : Crowd ι E A) : Prop where
  origin : ∀ t ∈ c.tasks, ∀ shown ending, Observes t.rest shown ending →
    Observes (jobs t.job) (t.shown ++ shown) ending
  counted : ∀ q : E → Bool, c.log.countP q = (c.tasks.map (fun t => t.shown.countP q)).sum

theorem Crowd.kept_of_run (run : StepSystem.Run (step jobs) empty past c) : Kept jobs c := by
  refine run.invariant ⟨by simp [empty], by simp [empty]⟩ ?_
  intro past c turn c' _ kept h
  cases turn with
  | start job =>
    cases h
    refine ⟨?_, ?_⟩
    · intro t ht shown ending seen
      rcases List.mem_append.mp ht with old | new
      · exact kept.origin t old shown ending seen
      · obtain rfl := List.mem_singleton.mp new
        exact seen
    · intro q
      simp [kept.counted q]
  | go i answer =>
    obtain ⟨t, found, h⟩ := Option.bind_eq_some_iff.mp h
    obtain ⟨⟨event, rest⟩, moves, rfl⟩ := Option.map_eq_some_iff.mp h
    refine ⟨?_, ?_⟩
    · refine Population.forall_set kept.origin ?_
      intro shown ending seen
      have before := kept.origin t (List.mem_of_getElem? found) _ ending
        (observes_of_step moves seen)
      rwa [← List.append_assoc] at before
    · intro q
      have moved := Population.sum_map_set { t with shown := t.shown ++ event.toList, rest }
        (fun t : Task ι E A => t.shown.countP q) found
      have counted := kept.counted q
      simp only [List.countP_append] at moved ⊢
      omega

section

variable (opens closes : E → Bool)

/-- Nothing is closed before it is opened. -/
def Balanced (events : List E) : Prop :=
  ∀ seen, seen <+: events → seen.countP closes ≤ seen.countP opens

/-- A computation opens at most `k` things, and closes only what it has opened. -/
structure Bracketed (k : Nat) (p : Proc E A) : Prop where
  balanced : ∀ all ending, Observes p all ending → Balanced opens closes all
  bounded : ∀ all ending, Observes p all ending → all.countP opens ≤ k

/-- With a result everything is closed. -/
def Settled (p : Proc E A) : Prop :=
  ∀ all a, Observes p all (.ok a) → all.countP closes = all.countP opens

variable {opens closes}

theorem Balanced.count_le {events : List E} (balanced : Balanced opens closes events) :
    events.countP closes ≤ events.countP opens :=
  balanced events List.prefix_rfl

theorem prefix_append_cases {seen first last : List E} (inside : seen <+: first ++ last) :
    seen <+: first ∨ ∃ more, seen = first ++ more ∧ more <+: last := by
  rcases List.prefix_or_prefix_of_prefix inside (List.prefix_append first last) with early | late
  · exact .inl early
  · obtain ⟨more, rfl⟩ := late
    exact .inr ⟨more, rfl, (List.prefix_append_right_inj first).mp inside⟩

theorem Balanced.append {first last : List E} (balanced : Balanced opens closes first)
    (balanced' : Balanced opens closes last) : Balanced opens closes (first ++ last) := by
  intro seen inside
  rcases prefix_append_cases inside with early | ⟨more, rfl, late⟩
  · exact balanced seen early
  · have one := balanced.count_le
    have two := balanced' more late
    rw [List.countP_append, List.countP_append]
    omega

variable {p : Proc E A} {k l : Nat}

theorem Bracketed.mono (bracketed : Bracketed opens closes k p) (le : k ≤ l) :
    Bracketed opens closes l p where
  balanced := bracketed.balanced
  bounded := fun all ending seen => Nat.le_trans (bracketed.bounded all ending seen) le

theorem Bracketed.bind {f : A → Proc E B} (first : Bracketed opens closes k p)
    (second : ∀ a, Bracketed opens closes l (f a)) : Bracketed opens closes (k + l) (p.bind f) := by
  constructor
  · intro all ending seen
    rcases observes_bind_cases seen with ⟨stop, _, one⟩ | ⟨a, before, after, one, two, rfl⟩
    · exact first.balanced all _ one
    · exact (first.balanced before _ one).append ((second a).balanced after _ two)
  · intro all ending seen
    rcases observes_bind_cases seen with ⟨stop, _, one⟩ | ⟨a, before, after, one, two, rfl⟩
    · exact Nat.le_add_right_of_le (first.bounded all _ one)
    · have le := first.bounded before _ one
      have le' := (second a).bounded after _ two
      rw [List.countP_append]
      omega

theorem Bracketed.timeout (late : A) (untimed : Bracketed opens closes k p) :
    Bracketed opens closes k (p.timeout late) := by
  constructor
  · intro all ending seen
    obtain ⟨before, first, _⟩ := (observes_timeout_iff late).mp seen
    exact untimed.balanced all before first
  · intro all ending seen
    obtain ⟨before, first, _⟩ := (observes_timeout_iff late).mp seen
    exact untimed.bounded all before first

theorem Bracketed.settled (none : Bracketed opens closes 0 p) : Settled opens closes p := by
  intro all a seen
  have le := (none.balanced all _ seen).count_le
  have le' := none.bounded all _ seen
  omega

theorem Settled.bind {f : A → Proc E B} (first : Settled opens closes p)
    (second : ∀ a, Settled opens closes (f a)) : Settled opens closes (p.bind f) := by
  intro all b seen
  rcases observes_bind_cases seen with ⟨stop, stopped, _⟩ | ⟨a, before, after, one, two, rfl⟩
  · cases stopped
  · rw [List.countP_append, List.countP_append, first before a one, second a after b two]

end

end Suspension
