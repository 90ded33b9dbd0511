import Mathlib.Algebra.BigOperators.Group.Finset.Basic
import Mathlib.Algebra.Order.BigOperators.Group.Finset
import Mathlib.Data.List.Lex
import Mathlib.Tactic.IntervalCases

namespace Gregorian

open Finset

def IsLeap (y : Nat) : Prop := y % 4 = 0 ∧ (y % 100 = 0 → y % 400 = 0)

instance (y : Nat) : Decidable (IsLeap y) := inferInstanceAs (Decidable (_ ∧ _))

def yearLength (y : Nat) : Nat := if IsLeap y then 366 else 365

def monthLength (y m : Nat) : Nat :=
  if m = 2 then if IsLeap y then 29 else 28
  else if m = 4 ∨ m = 6 ∨ m = 9 ∨ m = 11 then 30
  else 31

@[ext] structure Date where
  year : Nat
  month : Nat
  day : Nat
  month_pos : 1 ≤ month
  month_le : month ≤ 12
  day_pos : 1 ≤ day
  day_le : day ≤ monthLength year month

theorem monthLength_pos (y m : Nat) : 1 ≤ monthLength y m := by
  unfold monthLength
  split
  · split <;> omega
  · split <;> omega

namespace Date

/-- The first of January. -/
def newYear (y : Nat) : Date where
  year := y
  month := 1
  day := 1
  month_pos := Nat.le_refl 1
  month_le := by decide
  day_pos := Nat.le_refl 1
  day_le := monthLength_pos _ _

/-- The day after. -/
def next (d : Date) : Date :=
  if more : d.day < monthLength d.year d.month then
    { d with day := d.day + 1, day_pos := Nat.le_add_left 1 d.day, day_le := more }
  else if later : d.month < 12 then
    { year := d.year
      month := d.month + 1
      day := 1
      month_pos := Nat.le_add_left 1 d.month
      month_le := later
      day_pos := Nat.le_refl 1
      day_le := monthLength_pos _ _ }
  else newYear (d.year + 1)

end Date

/-- The days of a year before a month. -/
def daysBeforeMonth (y m : Nat) : Nat := ∑ i ∈ range (m - 1), monthLength y (i + 1)

/-- The days from the first of January of the year 0 to that of another year. -/
def daysBeforeYear (y : Nat) : Nat := ∑ k ∈ range y, yearLength k

def Date.dayOfYear (d : Date) : Nat := daysBeforeMonth d.year d.month + (d.day - 1)

/-- The day count of a date. -/
def Date.dayNumber (d : Date) : Nat := daysBeforeYear d.year + d.dayOfYear

/-- The stretch of a running sum that a number falls into is determined. -/
theorem sum_range_unique (f : Nat → Nat) {a b x : Nat}
    (ha : ∑ k ∈ range a, f k ≤ x) (ha' : x < ∑ k ∈ range (a + 1), f k)
    (hb : ∑ k ∈ range b, f k ≤ x) (hb' : x < ∑ k ∈ range (b + 1), f k) : a = b := by
  have mono : ∀ i j, i ≤ j → ∑ k ∈ range i, f k ≤ ∑ k ∈ range j, f k :=
    fun i j le => sum_le_sum_of_subset (range_mono le)
  rcases Nat.lt_trichotomy a b with lt | same | gt
  · have := mono (a + 1) b lt
    omega
  · exact same
  · have := mono (b + 1) a gt
    omega

theorem daysBeforeMonth_succ (y : Nat) {m : Nat} (pos : 1 ≤ m) :
    daysBeforeMonth y (m + 1) = daysBeforeMonth y m + monthLength y m := by
  obtain ⟨i, rfl⟩ := Nat.exists_eq_add_of_le' pos
  unfold daysBeforeMonth
  rw [Nat.add_sub_cancel, Nat.add_sub_cancel, sum_range_succ]

theorem daysBeforeMonth_mono (y : Nat) {m n : Nat} (le : m ≤ n) :
    daysBeforeMonth y m ≤ daysBeforeMonth y n :=
  sum_le_sum_of_subset (range_mono (Nat.sub_le_sub_right le 1))

theorem daysBeforeMonth_thirteen (y : Nat) : daysBeforeMonth y 13 = yearLength y := by
  unfold daysBeforeMonth yearLength
  by_cases leap : IsLeap y
  · simp [sum_range_succ, monthLength, leap]
  · simp [sum_range_succ, monthLength, leap]

theorem daysBeforeYear_succ (y : Nat) :
    daysBeforeYear (y + 1) = daysBeforeYear y + yearLength y :=
  sum_range_succ _ _

theorem daysBeforeYear_eq (y : Nat) :
    daysBeforeYear y = 365 * y + (y + 3) / 4 - (y + 99) / 100 + (y + 399) / 400 := by
  induction y with
  | zero => rfl
  | succ y ih =>
    rw [daysBeforeYear_succ, ih, yearLength]
    by_cases leap : IsLeap y
    · rw [if_pos leap]
      unfold IsLeap at leap
      omega
    · rw [if_neg leap]
      unfold IsLeap at leap
      omega

namespace Date

theorem month_bounds (d : Date) : daysBeforeMonth d.year d.month ≤ d.dayOfYear ∧
    d.dayOfYear < daysBeforeMonth d.year (d.month + 1) := by
  have first := d.day_pos
  have last := d.day_le
  rw [daysBeforeMonth_succ d.year d.month_pos, dayOfYear]
  omega

theorem year_bounds (d : Date) : daysBeforeYear d.year ≤ d.dayNumber ∧
    d.dayNumber < daysBeforeYear (d.year + 1) := by
  have within : daysBeforeMonth d.year (d.month + 1) ≤ daysBeforeMonth d.year 13 :=
    daysBeforeMonth_mono d.year (Nat.succ_le_succ d.month_le)
  rw [daysBeforeMonth_thirteen] at within
  have before := d.month_bounds.2
  rw [daysBeforeYear_succ, dayNumber]
  omega

theorem dayNumber_injective : Function.Injective dayNumber := by
  intro d e same
  have year : d.year = e.year := by
    have later := e.year_bounds
    rw [← same] at later
    exact sum_range_unique yearLength d.year_bounds.1 d.year_bounds.2 later.1 later.2
  have dayOfYear : d.dayOfYear = e.dayOfYear := by
    simp only [dayNumber, year] at same
    omega
  have month : d.month = e.month := by
    have bounds := d.month_bounds
    have later := e.month_bounds
    rw [← dayOfYear, ← year] at later
    obtain ⟨i, hi⟩ := Nat.exists_eq_add_of_le' d.month_pos
    obtain ⟨j, hj⟩ := Nat.exists_eq_add_of_le' e.month_pos
    rw [hi] at bounds
    rw [hj] at later
    have index := sum_range_unique (fun i => monthLength d.year (i + 1)) bounds.1 bounds.2
      later.1 later.2
    rw [hi, hj]
    exact congrArg (· + 1) index
  have day : d.day = e.day := by
    have first := d.day_pos
    have first' := e.day_pos
    simp only [Date.dayOfYear, year, month] at dayOfYear
    omega
  exact Date.ext year month day

theorem dayNumber_newYear (y : Nat) : (newYear y).dayNumber = daysBeforeYear y := by
  have first : daysBeforeMonth y 1 = 0 := sum_range_zero _
  simp only [dayNumber, dayOfYear, newYear, first]
  omega

theorem dayNumber_next (d : Date) : d.next.dayNumber = d.dayNumber + 1 := by
  have first := d.day_pos
  have last := d.day_le
  unfold next
  split
  next more =>
    simp only [dayNumber, dayOfYear]
    omega
  next full =>
    split
    next later =>
      simp only [dayNumber, dayOfYear]
      rw [daysBeforeMonth_succ d.year d.month_pos]
      omega
    next december =>
      have month : d.month = 12 := Nat.le_antisymm d.month_le (Nat.not_lt.mp december)
      have year := daysBeforeMonth_thirteen d.year
      rw [daysBeforeMonth_succ d.year (by decide)] at year
      rw [dayNumber_newYear, daysBeforeYear_succ, ← year, dayNumber, dayOfYear, month]
      rw [month] at full last
      omega

theorem dayNumber_lt_of_year_lt {d e : Date} (less : d.year < e.year) :
    d.dayNumber < e.dayNumber := by
  have years : daysBeforeYear (d.year + 1) ≤ daysBeforeYear e.year :=
    sum_le_sum_of_subset (range_mono less)
  have before := d.year_bounds.2
  have after := e.year_bounds.1
  omega

theorem dayNumber_lt_of_month_lt {d e : Date} (year : d.year = e.year) (less : d.month < e.month) :
    d.dayNumber < e.dayNumber := by
  have months : daysBeforeMonth d.year (d.month + 1) ≤ daysBeforeMonth d.year e.month :=
    daysBeforeMonth_mono d.year less
  have before := d.month_bounds.2
  have after := e.month_bounds.1
  rw [← year] at after
  simp only [Date.dayNumber, ← year]
  omega

end Date

@[ext] structure Time where
  hour : Nat
  minute : Nat
  second : Nat
  hour_lt : hour < 24
  minute_lt : minute < 60
  second_lt : second < 60

namespace Time

def midnight : Time where
  hour := 0
  minute := 0
  second := 0
  hour_lt := by decide
  minute_lt := by decide
  second_lt := by decide

/-- The seconds since midnight. -/
def number (t : Time) : Nat := 3600 * t.hour + 60 * t.minute + t.second

/-- A second later, unless that is midnight. -/
def next (t : Time) : Option Time :=
  if more : t.second + 1 < 60 then some { t with second := t.second + 1, second_lt := more }
  else if later : t.minute + 1 < 60 then
    some { t with
      minute := t.minute + 1
      second := 0
      minute_lt := later
      second_lt := Nat.zero_lt_succ 59 }
  else if latest : t.hour + 1 < 24 then
    some {
      hour := t.hour + 1
      minute := 0
      second := 0
      hour_lt := latest
      minute_lt := Nat.zero_lt_succ 59
      second_lt := Nat.zero_lt_succ 59 }
  else none

theorem number_injective : Function.Injective number := by
  intro t u same
  have minute := t.minute_lt
  have minute' := u.minute_lt
  have second := t.second_lt
  have second' := u.second_lt
  unfold number at same
  refine Time.ext ?_ ?_ ?_
  · omega
  · omega
  · omega

theorem number_lt (t : Time) : t.number < 86400 := by
  have hour := t.hour_lt
  have minute := t.minute_lt
  have second := t.second_lt
  unfold number
  omega

theorem number_next (t : Time) :
    match t.next with
    | some u => u.number = t.number + 1
    | none => t.number + 1 = 86400 := by
  have hour := t.hour_lt
  have minute := t.minute_lt
  have second := t.second_lt
  by_cases more : t.second + 1 < 60
  · simp only [next, more, ↓reduceDIte, number]
    omega
  · by_cases later : t.minute + 1 < 60
    · simp only [next, more, later, ↓reduceDIte, number]
      omega
    · by_cases latest : t.hour + 1 < 24
      · simp only [next, more, later, latest, ↓reduceDIte, number]
        omega
      · simp only [next, more, later, latest, ↓reduceDIte, number]
        omega

end Time

@[ext] structure Moment where
  date : Date
  time : Time

namespace Moment

/-- The seconds since the first of January of the year 0. -/
def number (m : Moment) : Nat := 86400 * m.date.dayNumber + m.time.number

/-- A second later. -/
def tick (m : Moment) : Moment :=
  match m.time.next with
  | some time => { m with time }
  | none => { date := m.date.next, time := .midnight }

theorem number_injective : Function.Injective number := by
  intro m n same
  have time := m.time.number_lt
  have time' := n.time.number_lt
  unfold number at same
  refine Moment.ext (Date.dayNumber_injective ?_) (Time.number_injective ?_)
  · omega
  · omega

theorem number_tick (m : Moment) : m.tick.number = m.number + 1 := by
  have later := m.time.number_next
  unfold tick
  cases following : m.time.next with
  | some time =>
    simp only [following] at later
    simp only [number]
    omega
  | none =>
    simp only [following] at later
    simp only [number, Date.dayNumber_next, Time.midnight, Time.number]
    unfold Time.number at later
    omega

theorem number_iterate_tick (m : Moment) (n : Nat) : (tick^[n] m).number = m.number + n := by
  induction n with
  | zero => rfl
  | succ n ih =>
    rw [Function.iterate_succ_apply', number_tick, ih, Nat.add_assoc]

/-- The six numbers of a date and time, the largest unit first. -/
def fields (m : Moment) : List Nat :=
  [m.date.year, m.date.month, m.date.day, m.time.hour, m.time.minute, m.time.second]

/-- A moment that is earlier by its numbers is earlier. -/
theorem number_lt_of_fields_lt {m n : Moment} (less : m.fields < n.fields) :
    m.number < n.number := by
  have time := m.time.number_lt
  have time' := n.time.number_lt
  have earlier : m.date.dayNumber < n.date.dayNumber → m.number < n.number := by
    intro day
    unfold number
    omega
  simp only [fields, List.cons_lt_cons_iff, List.not_lt_nil, and_false, or_false] at less
  rcases less with year | ⟨year, month | ⟨month, less⟩⟩
  · exact earlier (Date.dayNumber_lt_of_year_lt year)
  · exact earlier (Date.dayNumber_lt_of_month_lt year month)
  · have first := m.date.day_pos
    have dates : m.date.dayNumber + n.date.day = n.date.dayNumber + m.date.day := by
      have first' := n.date.day_pos
      simp only [Date.dayNumber, Date.dayOfYear, year, month]
      omega
    have minute := m.time.minute_lt
    have minute' := n.time.minute_lt
    have second := m.time.second_lt
    have second' := n.time.second_lt
    unfold number
    simp only [Time.number] at time time' ⊢
    rcases less with day | ⟨day, less⟩
    · omega
    · omega

/-- Moments are ordered as their numbers are. -/
theorem fields_lt_iff {m n : Moment} : m.fields < n.fields ↔ m.number < n.number := by
  refine ⟨number_lt_of_fields_lt, fun less => ?_⟩
  rcases lt_trichotomy m.fields n.fields with smaller | same | larger
  · exact smaller
  · simp only [fields, List.cons.injEq, and_true] at same
    obtain ⟨year, month, day, hour, minute, second⟩ := same
    have equal : m = n := Moment.ext (Date.ext year month day) (Time.ext hour minute second)
    exact absurd (equal ▸ less) (Nat.lt_irrefl _)
  · have later := number_lt_of_fields_lt larger
    omega

end Moment

end Gregorian
