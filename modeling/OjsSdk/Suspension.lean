import Mathlib.Data.List.Basic
import OjsSdk.StepSystem

namespace Suspension

variable {E A B : Type}

/-- An `input` is asked of the surroundings: a reading of the clock, or whether a timer has
fired. A computation that hangs is suspended for good, and one that blocks is not even that: it
keeps its thread to itself. -/
inductive Proc (E A : Type)
  | done (a : A)
  | panic
  | hang
  | block
  | emit (e : E) (rest : Proc E A)
  | wait (rest : Proc E A)
  | input (rest : Nat → Proc E A)

/-- Where a computation can be seen to stand that has no result. -/
inductive Stop
  | panicked
  | blocked
  | waiting
  | hung
  deriving DecidableEq, Repr

abbrev Ending (A : Type) := Except Stop A

namespace Proc

def bind : Proc E A → (A → Proc E B) → Proc E B
  | .done a, f => f a
  | .panic, _ => .panic
  | .hang, _ => .hang
  | .block, _ => .block
  | .emit e rest, f => .emit e (rest.bind f)
  | .wait rest, f => .wait (rest.bind f)
  | .input rest, f => .input (fun n => (rest n).bind f)

instance : Monad (Proc E) where
  pure := .done
  bind := .bind

def emitAll : List E → Proc E A → Proc E A
  | [], p => p
  | e :: es, p => .emit e (emitAll es p)

/-- Gives up with `late` at a suspension, at which the timer may have fired. A thread that is
blocked does not look at the timer. -/
def timeout (late : A) : Proc E A → Proc E A
  | .done a => .done a
  | .panic => .panic
  | .hang => .wait (.done late)
  | .block => .block
  | .emit e rest => .emit e (timeout late rest)
  | .wait rest =>
    .wait (.input (fun fired => if fired = 0 then timeout late rest else .done late))
  | .input rest => .input (fun n => timeout late (rest n))

def relabel {F : Type} (f : E → F) : Proc E A → Proc F A
  | .done a => .done a
  | .panic => .panic
  | .hang => .hang
  | .block => .block
  | .emit e rest => .emit (f e) (rest.relabel f)
  | .wait rest => .wait (rest.relabel f)
  | .input rest => .input (fun n => (rest n).relabel f)

/-- One step, with what it shows. -/
def step : Proc E A → Nat → Option (Option E × Proc E A)
  | .done _, _ | .panic, _ | .hang, _ | .block, _ => none
  | .emit e rest, _ => some (some e, rest)
  | .wait rest, _ => some (none, rest)
  | .input rest, n => some (none, rest n)

end Proc

/-- A computation can show this, and then end so or be suspended. -/
inductive Observes : Proc E A → List E → Ending A → Prop
  | done (a : A) : Observes (.done a) [] (.ok a)
  | panic : Observes .panic [] (.error .panicked)
  | hang : Observes .hang [] (.error .hung)
  | block : Observes .block [] (.error .blocked)
  | emit (e : E) {p : Proc E A} {shown ending} :
      Observes p shown ending → Observes (.emit e p) (e :: shown) ending
  | suspended (p : Proc E A) : Observes (.wait p) [] (.error .waiting)
  | resumed {p : Proc E A} {shown ending} :
      Observes p shown ending → Observes (.wait p) shown ending
  | input {rest : Nat → Proc E A} (n : Nat) {shown ending} :
      Observes (rest n) shown ending → Observes (.input rest) shown ending

variable {p q : Proc E A} {shown : List E} {ending : Ending A} {a : A} {e : E}

@[simp] theorem observes_done_iff :
    Observes (.done a : Proc E A) shown ending ↔ shown = [] ∧ ending = .ok a := by
  constructor
  · intro h
    cases h
    exact ⟨rfl, rfl⟩
  · rintro ⟨rfl, rfl⟩
    exact .done a

@[simp] theorem observes_panic_iff :
    Observes (.panic : Proc E A) shown ending ↔ shown = [] ∧ ending = .error .panicked := by
  constructor
  · intro h
    cases h
    exact ⟨rfl, rfl⟩
  · rintro ⟨rfl, rfl⟩
    exact .panic

@[simp] theorem observes_hang_iff :
    Observes (.hang : Proc E A) shown ending ↔ shown = [] ∧ ending = .error .hung := by
  constructor
  · intro h
    cases h
    exact ⟨rfl, rfl⟩
  · rintro ⟨rfl, rfl⟩
    exact .hang

@[simp] theorem observes_block_iff :
    Observes (.block : Proc E A) shown ending ↔ shown = [] ∧ ending = .error .blocked := by
  constructor
  · intro h
    cases h
    exact ⟨rfl, rfl⟩
  · rintro ⟨rfl, rfl⟩
    exact .block

@[simp] theorem observes_emit_iff :
    Observes (.emit e p) shown ending ↔ ∃ later, shown = e :: later ∧ Observes p later ending := by
  constructor
  · intro h
    cases h with
    | emit _ h => exact ⟨_, rfl, h⟩
  · rintro ⟨later, rfl, h⟩
    exact .emit e h

@[simp] theorem observes_wait_iff : Observes (.wait p) shown ending ↔
    (shown = [] ∧ ending = .error .waiting) ∨ Observes p shown ending := by
  constructor
  · intro h
    cases h with
    | suspended => exact .inl ⟨rfl, rfl⟩
    | resumed h => exact .inr h
  · rintro (⟨rfl, rfl⟩ | h)
    · exact .suspended p
    · exact .resumed h

@[simp] theorem observes_input_iff {rest : Nat → Proc E A} :
    Observes (.input rest) shown ending ↔ ∃ n, Observes (rest n) shown ending := by
  constructor
  · intro h
    cases h with
    | input n h => exact ⟨n, h⟩
  · rintro ⟨n, h⟩
    exact .input n h

theorem observes_emitAll_iff (es : List E) : Observes (.emitAll es p) shown ending ↔
    ∃ later, shown = es ++ later ∧ Observes p later ending := by
  induction es generalizing shown with
  | nil => simp [Proc.emitAll]
  | cons e es ih =>
    simp only [Proc.emitAll, observes_emit_iff, ih]
    constructor
    · rintro ⟨_, rfl, later, rfl, h⟩
      exact ⟨later, rfl, h⟩
    · rintro ⟨later, rfl, h⟩
      exact ⟨_, rfl, later, rfl, h⟩

section

variable {f : A → Proc E B}

theorem Observes.bind_stop {stop : Stop} (h : Observes p shown (.error stop)) :
    Observes (p.bind f) shown (.error stop) := by
  generalize stopped : Except.error stop = ending at h
  induction h with
  | done a => cases stopped
  | panic =>
    cases stopped
    exact .panic
  | hang =>
    cases stopped
    exact .hang
  | block =>
    cases stopped
    exact .block
  | emit e _ ih => exact .emit e (ih stopped)
  | suspended p =>
    cases stopped
    exact .suspended _
  | resumed _ ih => exact .resumed (ih stopped)
  | input n _ ih => exact .input n (ih stopped)

theorem Observes.bind_ok {after : List E} {ending : Ending B} (first : Observes p shown (.ok a))
    (second : Observes (f a) after ending) : Observes (p.bind f) (shown ++ after) ending := by
  generalize result : Except.ok a = middle at first
  induction first with
  | done a =>
    cases result
    exact second
  | panic => cases result
  | hang => cases result
  | block => cases result
  | emit e _ ih => exact .emit e (ih result)
  | suspended p => cases result
  | resumed _ ih => exact .resumed (ih result)
  | input n _ ih => exact .input n (ih result)

theorem observes_bind_cases {ending : Ending B} (h : Observes (p.bind f) shown ending) :
    (∃ stop, ending = .error stop ∧ Observes p shown (.error stop)) ∨
      ∃ a before after, Observes p before (.ok a) ∧ Observes (f a) after ending ∧
        shown = before ++ after := by
  induction p generalizing shown with
  | done a => exact .inr ⟨a, [], shown, .done a, h, rfl⟩
  | panic =>
    obtain ⟨rfl, stopped⟩ := observes_panic_iff.mp h
    exact .inl ⟨_, stopped, .panic⟩
  | hang =>
    obtain ⟨rfl, stopped⟩ := observes_hang_iff.mp h
    exact .inl ⟨_, stopped, .hang⟩
  | block =>
    obtain ⟨rfl, stopped⟩ := observes_block_iff.mp h
    exact .inl ⟨_, stopped, .block⟩
  | emit e rest ih =>
    obtain ⟨later, rfl, inner⟩ := observes_emit_iff.mp h
    rcases ih inner with ⟨stop, stopped, first⟩ | ⟨a, before, after, first, second, rfl⟩
    · exact .inl ⟨stop, stopped, .emit e first⟩
    · exact .inr ⟨a, e :: before, after, .emit e first, second, rfl⟩
  | wait rest ih =>
    rcases observes_wait_iff.mp h with ⟨rfl, stopped⟩ | inner
    · exact .inl ⟨_, stopped, .suspended rest⟩
    · rcases ih inner with ⟨stop, stopped, first⟩ | ⟨a, before, after, first, second, whole⟩
      · exact .inl ⟨stop, stopped, .resumed first⟩
      · exact .inr ⟨a, before, after, .resumed first, second, whole⟩
  | input rest ih =>
    obtain ⟨n, inner⟩ := observes_input_iff.mp h
    rcases ih n inner with ⟨stop, stopped, first⟩ | ⟨a, before, after, first, second, whole⟩
    · exact .inl ⟨stop, stopped, .input n first⟩
    · exact .inr ⟨a, before, after, .input n first, second, whole⟩

end

/-- The computation has given its thread back. -/
def Stop.isSuspended : Stop → Bool
  | .panicked | .blocked => false
  | .waiting | .hung => true

/-- How a timer changes an ending: a suspension may become the late result, and there is none
that lasts. -/
inductive Cut (late : A) : Ending A → Ending A → Prop
  | result (a : A) : Cut late (.ok a) (.ok a)
  | stays {stop : Stop} : stop.isSuspended = false → Cut late (.error stop) (.error stop)
  | suspended {stop : Stop} : stop.isSuspended = true → Cut late (.error stop) (.error .waiting)
  | fired {stop : Stop} : stop.isSuspended = true → Cut late (.error stop) (.ok late)

/-- An ending that is no suspension stays what it is. -/
theorem Cut.stays_iff {late : A} {stop : Stop} (awake : stop.isSuspended = false) :
    Cut late (.error stop) ending ↔ ending = .error stop := by
  constructor
  · intro cut
    cases cut with
    | stays => rfl
    | suspended other => simp [awake] at other
    | fired other => simp [awake] at other
  · rintro rfl
    exact .stays awake

theorem Cut.suspended_iff {late : A} {stop : Stop} (suspended : stop.isSuspended = true) :
    Cut late (.error stop) ending ↔ ending = .error .waiting ∨ ending = .ok late := by
  constructor
  · intro cut
    cases cut with
    | stays other => simp [suspended] at other
    | suspended => exact .inl rfl
    | fired => exact .inr rfl
  · rintro (rfl | rfl)
    · exact .suspended suspended
    · exact .fired suspended

theorem observes_timeout_iff (late : A) : Observes (p.timeout late) shown ending ↔
    ∃ untimed, Observes p shown untimed ∧ Cut late untimed ending := by
  induction p generalizing shown with
  | done a =>
    rw [Proc.timeout, observes_done_iff]
    constructor
    · rintro ⟨rfl, rfl⟩
      exact ⟨_, .done a, .result a⟩
    · rintro ⟨untimed, h, cut⟩
      obtain ⟨rfl, rfl⟩ := observes_done_iff.mp h
      cases cut
      exact ⟨rfl, rfl⟩
  | panic =>
    rw [Proc.timeout, observes_panic_iff]
    constructor
    · rintro ⟨rfl, rfl⟩
      exact ⟨_, .panic, .stays rfl⟩
    · rintro ⟨untimed, h, cut⟩
      obtain ⟨rfl, rfl⟩ := observes_panic_iff.mp h
      exact ⟨rfl, (Cut.stays_iff rfl).mp cut⟩
  | hang =>
    rw [Proc.timeout, observes_wait_iff, observes_done_iff]
    constructor
    · rintro (⟨rfl, rfl⟩ | ⟨rfl, rfl⟩)
      · exact ⟨_, .hang, .suspended rfl⟩
      · exact ⟨_, .hang, .fired rfl⟩
    · rintro ⟨untimed, h, cut⟩
      obtain ⟨rfl, rfl⟩ := observes_hang_iff.mp h
      rcases (Cut.suspended_iff rfl).mp cut with rfl | rfl
      · exact .inl ⟨rfl, rfl⟩
      · exact .inr ⟨rfl, rfl⟩
  | block =>
    rw [Proc.timeout, observes_block_iff]
    constructor
    · rintro ⟨rfl, rfl⟩
      exact ⟨_, .block, .stays rfl⟩
    · rintro ⟨untimed, h, cut⟩
      obtain ⟨rfl, rfl⟩ := observes_block_iff.mp h
      exact ⟨rfl, (Cut.stays_iff rfl).mp cut⟩
  | emit e rest ih =>
    rw [Proc.timeout, observes_emit_iff]
    constructor
    · rintro ⟨later, rfl, h⟩
      obtain ⟨untimed, first, cut⟩ := ih.mp h
      exact ⟨untimed, .emit e first, cut⟩
    · rintro ⟨untimed, h, cut⟩
      obtain ⟨later, rfl, first⟩ := observes_emit_iff.mp h
      exact ⟨later, rfl, ih.mpr ⟨untimed, first, cut⟩⟩
  | wait rest ih =>
    rw [Proc.timeout, observes_wait_iff, observes_input_iff]
    constructor
    · rintro (⟨rfl, rfl⟩ | ⟨fired, h⟩)
      · exact ⟨_, .suspended rest, .suspended rfl⟩
      · split at h
        · obtain ⟨untimed, first, cut⟩ := ih.mp h
          exact ⟨untimed, .resumed first, cut⟩
        · obtain ⟨rfl, rfl⟩ := observes_done_iff.mp h
          exact ⟨_, .suspended rest, .fired rfl⟩
    · rintro ⟨untimed, h, cut⟩
      rcases observes_wait_iff.mp h with ⟨rfl, rfl⟩ | first
      · rcases (Cut.suspended_iff rfl).mp cut with rfl | rfl
        · exact .inl ⟨rfl, rfl⟩
        · exact .inr ⟨1, .done late⟩
      · exact .inr ⟨0, ih.mpr ⟨untimed, first, cut⟩⟩
  | input rest ih =>
    rw [Proc.timeout, observes_input_iff]
    constructor
    · rintro ⟨n, h⟩
      obtain ⟨untimed, first, cut⟩ := (ih n).mp h
      exact ⟨untimed, .input n first, cut⟩
    · rintro ⟨untimed, h, cut⟩
      obtain ⟨n, first⟩ := observes_input_iff.mp h
      exact ⟨n, (ih n).mpr ⟨untimed, first, cut⟩⟩

section

variable (visible : E → Bool)

/-- What someone sees who sees only some of the events. -/
def Shows (p : Proc E A) (shown : List E) (ending : Ending A) : Prop :=
  ∃ all, Observes p all ending ∧ all.filter visible = shown

/-- The two cannot be told apart. -/
def Alike (p q : Proc E A) : Prop :=
  ∀ shown ending, Shows visible p shown ending ↔ Shows visible q shown ending

variable {visible}

theorem Alike.refl (p : Proc E A) : Alike visible p p := fun _ _ => Iff.rfl

theorem Alike.trans {r : Proc E A} (first : Alike visible p q) (second : Alike visible q r) :
    Alike visible p r :=
  fun shown ending => (first shown ending).trans (second shown ending)

/-- It is enough to look from one side, as being alike is symmetric. -/
theorem Alike.of_sides (there : ∀ all ending, Observes p all ending →
      Shows visible q (all.filter visible) ending)
    (back : ∀ all ending, Observes q all ending → Shows visible p (all.filter visible) ending) :
    Alike visible p q := by
  intro shown ending
  constructor
  · rintro ⟨all, h, rfl⟩
    exact there all ending h
  · rintro ⟨all, h, rfl⟩
    exact back all ending h

theorem Alike.symm (alike : Alike visible p q) : Alike visible q p :=
  fun shown ending => (alike shown ending).symm

theorem shows_bind_of_alike {f g : A → Proc E B} (first : Alike visible p q)
    (second : ∀ a, Alike visible (f a) (g a)) {all : List E} {ending : Ending B}
    (h : Observes (p.bind f) all ending) :
    Shows visible (q.bind g) (all.filter visible) ending := by
  rcases observes_bind_cases h with ⟨stop, rfl, inner⟩ | ⟨a, before, after, one, two, rfl⟩
  · obtain ⟨all', other, same⟩ := (first _ _).mp ⟨all, inner, rfl⟩
    exact ⟨all', other.bind_stop, same⟩
  · obtain ⟨before', other, same⟩ := (first _ _).mp ⟨before, one, rfl⟩
    obtain ⟨after', next, same'⟩ := (second a _ _).mp ⟨after, two, rfl⟩
    refine ⟨before' ++ after', other.bind_ok next, ?_⟩
    rw [List.filter_append, List.filter_append, same, same']

theorem Alike.bind {f g : A → Proc E B} (first : Alike visible p q)
    (second : ∀ a, Alike visible (f a) (g a)) : Alike visible (p.bind f) (q.bind g) :=
  .of_sides (fun _ _ h => shows_bind_of_alike first second h)
    (fun _ _ h => shows_bind_of_alike first.symm (fun a => (second a).symm) h)

theorem shows_timeout_of_alike (late : A) (alike : Alike visible p q) {all : List E}
    (h : Observes (p.timeout late) all ending) :
    Shows visible (q.timeout late) (all.filter visible) ending := by
  obtain ⟨untimed, inner, cut⟩ := (observes_timeout_iff late).mp h
  obtain ⟨all', other, same⟩ := (alike _ _).mp ⟨all, inner, rfl⟩
  exact ⟨all', (observes_timeout_iff late).mpr ⟨untimed, other, cut⟩, same⟩

theorem Alike.timeout (late : A) (alike : Alike visible p q) :
    Alike visible (p.timeout late) (q.timeout late) :=
  .of_sides (fun _ _ h => shows_timeout_of_alike late alike h)
    (fun _ _ h => shows_timeout_of_alike late alike.symm h)

end

end Suspension
