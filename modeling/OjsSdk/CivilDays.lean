import OjsSdk.Gregorian

namespace Gregorian

/-- The days from the first of March of the year 0 to that of the year `y`. -/
def marchStart (y : Nat) : Nat := 365 * y + y / 4 - y / 100 + y / 400

/-- The days from the first of March to the first day of the month that comes `mp` months later. -/
def monthStart (mp : Nat) : Nat := (153 * mp + 2) / 5

/-- The year of an era that a day of the era lies in. -/
def yearOfEra (doe : Nat) : Nat := (doe - doe / 1460 + doe / 36524 - doe / 146096) / 365

/-- The corrections make up for the leap days before a year. -/
theorem corrected_iff {doe y : Nat} (inside : doe < 146097) (early : y < 400) :
    365 * y ≤ doe - doe / 1460 + doe / 36524 - doe / 146096 ↔ marchStart y ≤ doe := by
  have centuries : doe / 36524 ≤ 4 := by omega
  have century : y / 100 ≤ 3 := by omega
  have era : y / 400 = 0 := Nat.div_eq_of_lt early
  rw [marchStart, era, Nat.add_zero]
  -- With the centuries fixed what is left is linear in the days and the years.
  generalize hc : doe / 36524 = c at *
  generalize hy : y / 100 = b at *
  interval_cases c <;> interval_cases b <;> omega

theorem yearOfEra_spec {doe : Nat} (inside : doe < 146097) :
    yearOfEra doe < 400 ∧ marchStart (yearOfEra doe) ≤ doe ∧
      doe < marchStart (yearOfEra doe + 1) := by
  have early : yearOfEra doe < 400 := by
    unfold yearOfEra
    omega
  have starts := (corrected_iff inside early).mp (by unfold yearOfEra; omega)
  refine ⟨early, starts, ?_⟩
  by_cases last : yearOfEra doe + 1 < 400
  · have ends := not_congr (corrected_iff inside last)
    unfold yearOfEra at ends ⊢
    omega
  · have year : yearOfEra doe = 399 := by omega
    rw [year]
    exact inside

theorem marchStart_era (era y : Nat) :
    marchStart (y + 400 * era) = 146097 * era + marchStart y := by
  unfold marchStart
  omega

theorem daysBeforeYear_march (y : Nat) : daysBeforeYear (y + 1) = marchStart y + 366 := by
  rw [daysBeforeYear_eq, marchStart]
  omega

theorem marchStart_succ (y : Nat) :
    marchStart (y + 1) = marchStart y + 337 + monthLength (y + 1) 2 := by
  have year := daysBeforeYear_succ (y + 1)
  have length : yearLength (y + 1) = 337 + monthLength (y + 1) 2 := by
    by_cases leap : IsLeap (y + 1)
    · simp only [yearLength, monthLength, leap, ↓reduceIte]
    · simp only [yearLength, monthLength, leap, ↓reduceIte]
  rw [daysBeforeYear_march, daysBeforeYear_march] at year
  omega

theorem marchStart_succ_le (y : Nat) : marchStart (y + 1) ≤ marchStart y + 366 := by
  have february : monthLength (y + 1) 2 ≤ 29 := by
    unfold monthLength
    split <;> split <;> omega
  rw [marchStart_succ]
  omega

theorem monthLength_march (y : Nat) {mp : Nat} (before : mp < 10) :
    monthStart mp + monthLength y (mp + 3) = monthStart (mp + 1) := by
  interval_cases mp <;> rfl

theorem daysBeforeMonth_march (y : Nat) {mp : Nat} (before : mp ≤ 10) :
    daysBeforeMonth y (mp + 3) + 306 = yearLength y + monthStart mp := by
  induction mp with
  | zero =>
    by_cases leap : IsLeap y
    · simp [daysBeforeMonth, Finset.sum_range_succ, monthLength, yearLength, monthStart, leap]
    · simp [daysBeforeMonth, Finset.sum_range_succ, monthLength, yearLength, monthStart, leap]
  | succ mp ih =>
    have length := monthLength_march y before
    have earlier := ih (Nat.le_of_lt before)
    have split : daysBeforeMonth y (mp + 1 + 3) =
        daysBeforeMonth y (mp + 3) + monthLength y (mp + 3) :=
      daysBeforeMonth_succ y (Nat.le_add_left 1 (mp + 2))
    omega

theorem exists_date_march {y doy mp : Nat} (before : mp < 10) (starts : monthStart mp ≤ doy)
    (ends : doy < monthStart (mp + 1)) :
    ∃ d : Date, d.year = y ∧ d.month = mp + 3 ∧ d.day = doy - monthStart mp + 1 ∧
      d.dayNumber = marchStart y + doy + 60 := by
  have inside := monthLength_march y before
  refine ⟨{
    year := y
    month := mp + 3
    day := doy - monthStart mp + 1
    month_pos := by omega
    month_le := by omega
    day_pos := by omega
    day_le := by omega }, rfl, rfl, rfl, ?_⟩
  have days := daysBeforeMonth_march y (Nat.le_of_lt before)
  have year := daysBeforeYear_march y
  rw [daysBeforeYear_succ] at year
  simp only [Date.dayNumber, Date.dayOfYear]
  omega

theorem exists_date_newYear {y doy mp : Nat} (after : mp = 10 ∨ mp = 11)
    (starts : monthStart mp ≤ doy)
    (ends : doy - monthStart mp < monthLength (y + 1) (mp - 9)) :
    ∃ d : Date, d.year = y + 1 ∧ d.month = mp - 9 ∧ d.day = doy - monthStart mp + 1 ∧
      d.dayNumber = marchStart y + doy + 60 := by
  refine ⟨{
    year := y + 1
    month := mp - 9
    day := doy - monthStart mp + 1
    month_pos := by omega
    month_le := by omega
    day_pos := by omega
    day_le := by omega }, rfl, rfl, rfl, ?_⟩
  have days : monthStart mp = 306 + daysBeforeMonth (y + 1) (mp - 9) := by
    obtain rfl | rfl := after
    · rfl
    · rfl
  have year := daysBeforeYear_march y
  simp only [Date.dayNumber, Date.dayOfYear]
  omega

theorem monthLength_newYear {y doy mp : Nat} (after : mp = 10 ∨ mp = 11)
    (ends : doy < monthStart (mp + 1)) (within : doy < 337 + monthLength (y + 1) 2)
    (starts : monthStart mp ≤ doy) : doy - monthStart mp < monthLength (y + 1) (mp - 9) := by
  obtain rfl | rfl := after
  · have january : monthStart (10 + 1) = monthStart 10 + monthLength (y + 1) (10 - 9) := rfl
    omega
  · have february : monthLength (y + 1) (11 - 9) = monthLength (y + 1) 2 := rfl
    have end_of_january : monthStart 11 = 337 := rfl
    omega

/-- The date that is `doy` days after the first of March of the year `y`. -/
theorem exists_date {y doy mp month : Nat} (within : marchStart y + doy < marchStart (y + 1))
    (hmp : mp = (5 * doy + 2) / 153) (hmonth : month = if mp < 10 then mp + 3 else mp - 9) :
    ∃ d : Date, d.year = (if month ≤ 2 then y + 1 else y) ∧ d.month = month ∧
      d.day = doy - monthStart mp + 1 ∧ d.dayNumber = marchStart y + doy + 60 := by
  have length := marchStart_succ y
  have short := marchStart_succ_le y
  have starts : monthStart mp ≤ doy := by unfold monthStart; omega
  have ends : doy < monthStart (mp + 1) := by unfold monthStart; omega
  by_cases before : mp < 10
  · rw [if_pos before] at hmonth
    have same_year : ¬month ≤ 2 := by omega
    rw [if_neg same_year, hmonth]
    exact exists_date_march before starts ends
  · rw [if_neg before] at hmonth
    have new_year : month ≤ 2 := by omega
    have after : mp = 10 ∨ mp = 11 := by omega
    rw [if_pos new_year, hmonth]
    exact exists_date_newYear after starts (monthLength_newYear after ends (by omega) starts)

/-- The date of a day of an era, the eras being counted from the first of March of the year 0. -/
theorem exists_date_of_era {era doe yoe doy mp month : Nat} (inside : doe < 146097)
    (hyoe : yoe = yearOfEra doe) (hdoy : doy = doe - marchStart yoe)
    (hmp : mp = (5 * doy + 2) / 153) (hmonth : month = if mp < 10 then mp + 3 else mp - 9) :
    ∃ d : Date, d.year = (if month ≤ 2 then yoe + era * 400 + 1 else yoe + era * 400) ∧
      d.month = month ∧ d.day = doy - monthStart mp + 1 ∧
      d.dayNumber = 146097 * era + doe + 60 := by
  obtain ⟨_, starts, ends⟩ := yearOfEra_spec inside
  rw [← hyoe] at starts ends
  have here := marchStart_era era yoe
  have later := marchStart_era era (yoe + 1)
  have order : yoe + 1 + 400 * era = yoe + 400 * era + 1 := by omega
  rw [order] at later
  have within : marchStart (yoe + 400 * era) + doy < marchStart (yoe + 400 * era + 1) := by
    rw [here, later]
    omega
  obtain ⟨d, year, month, day, number⟩ := exists_date within hmp hmonth
  refine ⟨d, ?_, month, day, ?_⟩
  · rw [year, Nat.mul_comm 400 era]
  · rw [number, here]
    omega

end Gregorian
