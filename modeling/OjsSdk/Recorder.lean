import OjsSdk.CheckedWords
import OjsSdk.CivilDays
import OjsSdk.StdText

namespace OjsSdk

open CheckedWords Gregorian

/-- `days_to_date`. `none` is an overflow or an underflow. -/
def daysToDate (days : UInt64) : Option (UInt64 × UInt64 × UInt64) := do
  let z ← add days 719468
  let era := z / 146097
  let doe ← sub z (← mul era 146097)
  let yoe := (← sub (← add (← sub doe (doe / 1460)) (doe / 36524)) (doe / 146096)) / 365
  let y ← add yoe (← mul era 400)
  let doy ← sub doe (← sub (← add (← mul 365 yoe) (yoe / 4)) (yoe / 100))
  let mp := (← add (← mul 5 doy) 2) / 153
  let d ← add (← sub doy ((← add (← mul 153 mp) 2) / 5)) 1
  let m ← (if mp < 10 then add mp 3 else sub mp 9)
  let y ← (if m ≤ 2 then add y 1 else some y)
  return (y, m, d)

/-- The text that `chrono_now` makes of its six numbers. -/
def formatTimestamp (year month day hours minutes seconds : Nat) : String :=
  StdText.zeroPadded 4 year ++ "-" ++ StdText.zeroPadded 2 month ++ "-" ++
    StdText.zeroPadded 2 day ++ "T" ++ StdText.zeroPadded 2 hours ++ ":" ++
    StdText.zeroPadded 2 minutes ++ ":" ++ StdText.zeroPadded 2 seconds ++ "Z"

/-- `chrono_now`, where the system clock shows `secs` seconds since the Unix epoch. -/
def chronoNow (secs : UInt64) : Option String := do
  let days := secs / 86400
  let timeOfDay := secs % 86400
  let hours := timeOfDay / 3600
  let minutes := (timeOfDay % 3600) / 60
  let seconds := timeOfDay % 60
  let (year, month, day) ← daysToDate days
  return formatTimestamp year.toNat month.toNat day.toNat hours.toNat minutes.toNat seconds.toNat

def unixEpoch : Moment where
  date := .newYear 1970
  time := .midnight

theorem dayNumber_unixEpoch : unixEpoch.date.dayNumber = 719528 := by
  have count : unixEpoch.date.dayNumber = daysBeforeYear 1970 := Date.dayNumber_newYear 1970
  rw [count, daysBeforeYear_eq]

/-- `days_to_date` gives the three numbers of the date. -/
def ConvertsTo (days : UInt64) (date : Date) : Prop :=
  ∃ y m d : UInt64, daysToDate days = some (y, m, d) ∧
    y.toNat = date.year ∧ m.toNat = date.month ∧ d.toNat = date.day

theorem exists_dayOfEra {z : UInt64} {n : Nat} (hz : z.toNat = n) (fits : n < 2 ^ 64) :
    ∃ start doe, mul (z / 146097) 146097 = some start ∧ sub z start = some doe ∧
      doe.toNat = n % 146097 := by
  have era := @toNat_div z 146097 _ 146097 hz rfl
  obtain ⟨start, hstart, start_eq⟩ := @exists_mul _ 146097 _ 146097 era rfl (by omega)
  obtain ⟨doe, hdoe, doe_eq⟩ := exists_sub hz start_eq (by omega)
  refine ⟨start, doe, hstart, hdoe, ?_⟩
  rw [doe_eq]
  omega

theorem exists_yearOfEra {doe : UInt64} {e : Nat} (hdoe : doe.toNat = e) (inside : e < 146097) :
    ∃ e₁ e₂ e₃, sub doe (doe / 1460) = some e₁ ∧ add e₁ (doe / 36524) = some e₂ ∧
      sub e₂ (doe / 146096) = some e₃ ∧ (e₃ / 365).toNat = yearOfEra e := by
  have quads := @toNat_div doe 1460 _ 1460 hdoe rfl
  have centuries := @toNat_div doe 36524 _ 36524 hdoe rfl
  have last := @toNat_div doe 146096 _ 146096 hdoe rfl
  obtain ⟨e₁, he₁, e₁_eq⟩ := exists_sub hdoe quads (Nat.div_le_self _ _)
  obtain ⟨e₂, he₂, e₂_eq⟩ := exists_add e₁_eq centuries (by omega)
  obtain ⟨e₃, he₃, e₃_eq⟩ := exists_sub e₂_eq last (by omega)
  exact ⟨e₁, e₂, e₃, he₁, he₂, he₃, @toNat_div e₃ 365 _ 365 e₃_eq rfl⟩

theorem exists_dayOfYear {doe yoe : UInt64} {e y : Nat} (hdoe : doe.toNat = e)
    (hyoe : yoe.toNat = y) (early : y < 400) (starts : marchStart y ≤ e) :
    ∃ d₁ d₂ d₃ doy, mul 365 yoe = some d₁ ∧ add d₁ (yoe / 4) = some d₂ ∧
      sub d₂ (yoe / 100) = some d₃ ∧ sub doe d₃ = some doy ∧
      doy.toNat = e - marchStart y := by
  have leaps := @toNat_div yoe 4 _ 4 hyoe rfl
  have skipped := @toNat_div yoe 100 _ 100 hyoe rfl
  obtain ⟨d₁, hd₁, d₁_eq⟩ := @exists_mul 365 yoe 365 _ rfl hyoe (by omega)
  obtain ⟨d₂, hd₂, d₂_eq⟩ := exists_add d₁_eq leaps (by omega)
  obtain ⟨d₃, hd₃, d₃_eq⟩ := exists_sub d₂_eq skipped (by omega)
  have first : 365 * y + y / 4 - y / 100 = marchStart y := by
    rw [marchStart, Nat.div_eq_of_lt early, Nat.add_zero]
  rw [first] at d₃_eq
  obtain ⟨doy, hdoy, doy_eq⟩ := exists_sub hdoe d₃_eq starts
  exact ⟨d₁, d₂, d₃, doy, hd₁, hd₂, hd₃, hdoy, doy_eq⟩

theorem exists_dayOfMonth {doy : UInt64} {k : Nat} (hdoy : doy.toNat = k) (inside : k < 366) :
    ∃ m₁ m₂ n₁ n₂ d₁ d, mul 5 doy = some m₁ ∧ add m₁ 2 = some m₂ ∧
      (m₂ / 153).toNat = (5 * k + 2) / 153 ∧ mul 153 (m₂ / 153) = some n₁ ∧
      add n₁ 2 = some n₂ ∧ sub doy (n₂ / 5) = some d₁ ∧ add d₁ 1 = some d ∧
      d.toNat = k - monthStart ((5 * k + 2) / 153) + 1 := by
  obtain ⟨m₁, hm₁, m₁_eq⟩ := @exists_mul 5 doy 5 _ rfl hdoy (by omega)
  obtain ⟨m₂, hm₂, m₂_eq⟩ := @exists_add m₁ 2 _ 2 m₁_eq rfl (by omega)
  have mp_eq := @toNat_div m₂ 153 _ 153 m₂_eq rfl
  obtain ⟨n₁, hn₁, n₁_eq⟩ := @exists_mul 153 _ 153 _ rfl mp_eq (by omega)
  obtain ⟨n₂, hn₂, n₂_eq⟩ := @exists_add n₁ 2 _ 2 n₁_eq rfl (by omega)
  have first : (n₂ / 5).toNat = monthStart ((5 * k + 2) / 153) := @toNat_div n₂ 5 _ 5 n₂_eq rfl
  obtain ⟨d₁, hd₁, d₁_eq⟩ := exists_sub hdoy first (by unfold monthStart; omega)
  obtain ⟨d, hd, d_eq⟩ := @exists_add d₁ 1 _ 1 d₁_eq rfl (by omega)
  exact ⟨m₁, m₂, n₁, n₂, d₁, d, hm₁, hm₂, mp_eq, hn₁, hn₂, hd₁, hd, d_eq⟩

theorem exists_month {mp : UInt64} {n : Nat} (hmp : mp.toNat = n) (inside : n < 12) :
    ∃ m, (if mp < 10 then add mp 3 else sub mp 9) = some m ∧
      m.toNat = if n < 10 then n + 3 else n - 9 := by
  have spring := @lt_iff mp 10 _ 10 hmp rfl
  by_cases before : n < 10
  · rw [if_pos (spring.mpr before), if_pos before]
    exact @exists_add mp 3 _ 3 hmp rfl (by omega)
  · rw [if_neg (fun h => before (spring.mp h)), if_neg before]
    exact @exists_sub mp 9 _ 9 hmp rfl (by omega)

theorem exists_year {y m : UInt64} {k n : Nat} (hy : y.toNat = k) (hm : m.toNat = n)
    (fits : k + 1 < 2 ^ 64) :
    ∃ year, (if m ≤ 2 then add y 1 else some y) = some year ∧
      year.toNat = if n ≤ 2 then k + 1 else k := by
  have winter := @le_iff m 2 _ 2 hm rfl
  by_cases new : n ≤ 2
  · rw [if_pos (winter.mpr new), if_pos new]
    exact @exists_add y 1 _ 1 hy rfl fits
  · rw [if_neg (fun h => new (winter.mp h)), if_neg new]
    exact ⟨y, rfl, hy⟩

/-- A day count is converted to the date that it is the count of. -/
theorem exists_convertsTo (days : UInt64) (fits : days.toNat + 719468 < 2 ^ 64) :
    ∃ date, ConvertsTo days date ∧ date.dayNumber = 719528 + days.toNat := by
  obtain ⟨z, hz, z_eq⟩ := @exists_add days 719468 days.toNat 719468 rfl rfl fits
  have era_eq := @toNat_div z 146097 _ 146097 z_eq rfl
  generalize number : days.toNat + 719468 = n at z_eq era_eq fits
  obtain ⟨start, doe, hstart, hdoe, doe_eq⟩ := exists_dayOfEra z_eq fits
  have inside : n % 146097 < 146097 := Nat.mod_lt n (by decide)
  have split : 146097 * (n / 146097) + n % 146097 = n := Nat.div_add_mod n 146097
  obtain ⟨e₁, e₂, e₃, he₁, he₂, he₃, yoe_eq⟩ := exists_yearOfEra doe_eq inside
  generalize n % 146097 = e at doe_eq inside split yoe_eq
  obtain ⟨early, starts, ends⟩ := yearOfEra_spec inside
  obtain ⟨y₁, hy₁, y₁_eq⟩ := @exists_mul _ 400 _ 400 era_eq rfl (by omega)
  obtain ⟨y₂, hy₂, y₂_eq⟩ := exists_add yoe_eq y₁_eq (by omega)
  obtain ⟨d₁, d₂, d₃, doy, hd₁, hd₂, hd₃, hdoy, doy_eq⟩ :=
    exists_dayOfYear doe_eq yoe_eq early starts
  have short : e - marchStart (yearOfEra e) < 366 := by
    have length := marchStart_succ_le (yearOfEra e)
    omega
  obtain ⟨m₁, m₂, n₁, n₂, d₄, d, hm₁, hm₂, mp_eq, hn₁, hn₂, hd₄, hd, d_eq⟩ :=
    exists_dayOfMonth doy_eq short
  obtain ⟨m, hm, m_eq⟩ := exists_month mp_eq (by omega)
  obtain ⟨y, hy, y_eq⟩ := exists_year y₂_eq m_eq (by omega)
  obtain ⟨date, year, month, day, count⟩ := exists_date_of_era inside rfl rfl rfl rfl
  have numbers : y.toNat = date.year ∧ m.toNat = date.month ∧ d.toNat = date.day :=
    ⟨y_eq.trans year.symm, m_eq.trans month.symm, d_eq.trans day.symm⟩
  refine ⟨date, ⟨y, m, d, ?_, numbers⟩, ?_⟩
  · unfold daysToDate
    refine bind_of_eq hz ?_
    refine bind_of_eq hstart ?_
    refine bind_of_eq hdoe ?_
    refine bind_of_eq he₁ ?_
    refine bind_of_eq he₂ ?_
    refine bind_of_eq he₃ ?_
    refine bind_of_eq hy₁ ?_
    refine bind_of_eq hy₂ ?_
    refine bind_of_eq hd₁ ?_
    refine bind_of_eq hd₂ ?_
    refine bind_of_eq hd₃ ?_
    refine bind_of_eq hdoy ?_
    refine bind_of_eq hm₁ ?_
    refine bind_of_eq hm₂ ?_
    refine bind_of_eq hn₁ ?_
    refine bind_of_eq hn₂ ?_
    refine bind_of_eq hd₄ ?_
    refine bind_of_eq hd ?_
    refine bind_of_eq hm ?_
    refine bind_of_eq hy ?_
    rfl
  · rw [count]
    omega

/-- The time of day in a number of seconds since midnight. -/
def timeOfDay (n : Nat) (inside : n < 86400) : Time where
  hour := n / 3600
  minute := n % 3600 / 60
  second := n % 60
  hour_lt := by omega
  minute_lt := by omega
  second_lt := by omega

theorem number_timeOfDay (n : Nat) (inside : n < 86400) : (timeOfDay n inside).number = n := by
  simp only [timeOfDay, Time.number]
  omega

theorem toNat_days (secs : UInt64) : (secs / 86400).toNat = secs.toNat / 86400 :=
  @toNat_div secs 86400 _ 86400 rfl rfl

theorem days_fit (secs : UInt64) : (secs / 86400).toNat + 719468 < 2 ^ 64 := by
  have small : secs.toNat < 2 ^ 64 := secs.toNat_lt
  rw [toNat_days]
  omega

theorem toNat_next_day {secs later : UInt64} (next : later / 86400 = secs / 86400 + 1) :
    (later / 86400).toNat = (secs / 86400).toNat + 1 := by
  have fits := days_fit secs
  have one : (1 : UInt64).toNat = 1 := rfl
  rw [next, UInt64.toNat_add]
  omega

theorem number_unixEpoch : unixEpoch.number = 86400 * 719528 := by
  have midnight : unixEpoch.time.number = 0 := rfl
  rw [Moment.number, dayNumber_unixEpoch, midnight]

/-- The date and time that a clock shows. -/
theorem exists_moment (secs : UInt64) : ∃ moment : Moment,
    ConvertsTo (secs / 86400) moment.date ∧
    moment.time = timeOfDay (secs.toNat % 86400) (Nat.mod_lt _ (by decide)) ∧
    moment.date.dayNumber = unixEpoch.date.dayNumber + (secs / 86400).toNat ∧
    moment.number = unixEpoch.number + secs.toNat := by
  obtain ⟨date, converts, count⟩ := exists_convertsTo (secs / 86400) (days_fit secs)
  have inside : secs.toNat % 86400 < 86400 := Nat.mod_lt _ (by decide)
  have time := number_timeOfDay _ inside
  refine ⟨⟨date, timeOfDay _ inside⟩, converts, rfl, ?_, ?_⟩
  · rw [count, dayNumber_unixEpoch]
  · rw [number_unixEpoch, Moment.number, time, count, toNat_days]
    omega

theorem chronoNow_eq {secs : UInt64} {moment : Moment}
    (converts : ConvertsTo (secs / 86400) moment.date)
    (time : moment.time = timeOfDay (secs.toNat % 86400) (Nat.mod_lt _ (by decide))) :
    chronoNow secs = some (formatTimestamp moment.date.year moment.date.month moment.date.day
      moment.time.hour moment.time.minute moment.time.second) := by
  obtain ⟨y, m, d, converted, year, month, day⟩ := converts
  have rest := @toNat_mod secs 86400 _ 86400 rfl rfl
  have hour := @toNat_div _ 3600 _ 3600 rest rfl
  have within := @toNat_mod _ 3600 _ 3600 rest rfl
  have minute := @toNat_div _ 60 _ 60 within rfl
  have second := @toNat_mod _ 60 _ 60 rest rfl
  unfold chronoNow
  refine bind_of_eq converted ?_
  simp only [year, month, day, hour, minute, second, time, timeOfDay, Option.pure_def]

/-- The day after is converted to the next date. -/
theorem convertsTo_next {secs later : UInt64} {date : Date}
    (count : date.dayNumber = unixEpoch.date.dayNumber + (secs / 86400).toNat)
    (next : later / 86400 = secs / 86400 + 1) : ConvertsTo (later / 86400) date.next := by
  obtain ⟨date', converts, count'⟩ := exists_convertsTo (later / 86400) (days_fit later)
  have same : date' = date.next := by
    apply Date.dayNumber_injective
    rw [count', toNat_next_day next, Date.dayNumber_next, count, dayNumber_unixEpoch,
      Nat.add_assoc]
  rw [← same]
  exact converts

/-- The clock is converted to the only date and time that is so many seconds after the epoch, and
the next day to the next date. -/
theorem chronoNow_calendar (secs : UInt64) : ∃ moment : Moment,
    ConvertsTo (secs / 86400) moment.date ∧
    chronoNow secs = some (formatTimestamp moment.date.year moment.date.month moment.date.day
      moment.time.hour moment.time.minute moment.time.second) ∧
    moment = Moment.tick^[secs.toNat] unixEpoch ∧
    (∀ other : Moment, other.number = unixEpoch.number + secs.toNat ↔ other = moment) ∧
    moment.date.dayNumber = unixEpoch.date.dayNumber + (secs / 86400).toNat ∧
    ∀ later : UInt64, later / 86400 = secs / 86400 + 1 →
      ConvertsTo (later / 86400) moment.date.next := by
  obtain ⟨moment, converts, time, count, number⟩ := exists_moment secs
  have next (later : UInt64) := @convertsTo_next secs later _ count
  refine ⟨moment, converts, chronoNow_eq converts time, ?_, ?_, count, next⟩
  · apply Moment.number_injective
    rw [number, Moment.number_iterate_tick]
  · intro other
    constructor
    · intro same
      exact Moment.number_injective (same.trans number.symm)
    · intro same
      rw [same, number]

example : chronoNow 1709251199 = some "2024-02-29T23:59:59Z" := by decide

end OjsSdk
