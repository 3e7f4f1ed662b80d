import Mathlib.Algebra.BigOperators.Intervals
import Mathlib.Algebra.Order.BigOperators.Group.Finset
import Mathlib.Tactic.IntervalCases
import Mathlib.Tactic.Ring

/-! The Gregorian calendar, and moments of a day in units of 100 nanoseconds. -/
namespace CivilCalendar
open scoped BigOperators

def IsLeap (year : ℕ) : Prop := 4 ∣ year ∧ ¬ 100 ∣ year ∨ 400 ∣ year

instance (year : ℕ) : Decidable (IsLeap year) := inferInstanceAs (Decidable (_ ∨ _))

def yearLength (year : ℕ) : ℕ := if IsLeap year then 366 else 365

def monthLength (year : ℕ) : ℕ → ℕ
  | 2 => if IsLeap year then 29 else 28
  | 4 | 6 | 9 | 11 => 30
  | _ => 31

theorem monthLength_le (year month : ℕ) : monthLength year month ≤ 31 := by
  unfold monthLength
  split
  · split_ifs <;> omega
  all_goals omega

structure CivilDate where
  year : ℕ
  month : ℕ
  day : ℕ
  year_pos : 1 ≤ year
  month_range : 1 ≤ month ∧ month ≤ 12
  day_range : 1 ≤ day ∧ day ≤ monthLength year month

def daysBeforeMonth (year month : ℕ) : ℕ := ∑ m ∈ Finset.Ico 1 month, monthLength year m

def daysBeforeYear (year : ℕ) : ℕ := ∑ y ∈ Finset.Ico 1 year, yearLength y

def CivilDate.dayNumber (date : CivilDate) : ℕ :=
  daysBeforeYear date.year + daysBeforeMonth date.year date.month + (date.day-1)

theorem daysBeforeYear_add (first year : ℕ) (hfirst : 1 ≤ first) (hyear : first ≤ year) :
    daysBeforeYear year = daysBeforeYear first + ∑ y ∈ Finset.Ico first year, yearLength y :=
  (Finset.sum_Ico_consecutive yearLength hfirst hyear).symm

theorem daysBeforeYear_mono {year year' : ℕ} (h : year ≤ year') :
    daysBeforeYear year ≤ daysBeforeYear year' :=
  Finset.sum_le_sum_of_subset (Finset.Ico_subset_Ico le_rfl h)

theorem daysBeforeYear_succ (year : ℕ) (h : 1 ≤ year) :
    daysBeforeYear (year+1) = daysBeforeYear year + yearLength year :=
  Finset.sum_Ico_succ_top h yearLength

theorem daysBeforeMonth_succ (year month : ℕ) (h : 1 ≤ month) :
    daysBeforeMonth year (month+1) = daysBeforeMonth year month + monthLength year month :=
  Finset.sum_Ico_succ_top h (monthLength year)

theorem daysBeforeYear_eq (n : ℕ) :
    daysBeforeYear (n+1) + n/100 = 365*n + n/4 + n/400 := by
  induction n with
  | zero => rfl
  | succ n ih =>
    rw [daysBeforeYear_succ (n+1) (by omega), yearLength]
    by_cases hleap : IsLeap (n+1)
    · rw [if_pos hleap]
      unfold IsLeap at hleap
      omega
    · rw [if_neg hleap]
      unfold IsLeap at hleap
      omega

theorem daysBeforeMonth_thirteen (year : ℕ) : daysBeforeMonth year 13 = yearLength year := by
  simp only [daysBeforeMonth, yearLength, Finset.sum_Ico_eq_sum_range, Finset.sum_range_succ,
    Finset.sum_range_zero, monthLength]
  split_ifs <;> rfl

theorem CivilDate.dayNumber_lt (date : CivilDate) :
    date.dayNumber < daysBeforeYear (date.year+1) := by
  have hmonth := date.month_range
  have hday := date.day_range
  have hnext : daysBeforeMonth date.year date.month + monthLength date.year date.month ≤
      daysBeforeMonth date.year 13 := by
    rw [← daysBeforeMonth_succ date.year date.month hmonth.1]
    exact Finset.sum_le_sum_of_subset (Finset.Ico_subset_Ico le_rfl (by omega))
  rw [daysBeforeMonth_thirteen] at hnext
  rw [daysBeforeYear_succ date.year date.year_pos, dayNumber]
  omega

structure CivilTime where
  date : CivilDate
  hour : ℕ
  minute : ℕ
  second : ℕ
  ticks : ℕ
  hour_lt : hour < 24
  minute_lt : minute < 60
  second_lt : second < 60
  ticks_lt : ticks < 10^7

theorem january_range : 1 ≤ 1 ∧ 1 ≤ 12 := by decide

def CivilDate.newYear (year : ℕ) (h : 1 ≤ year) : CivilDate :=
  ⟨year, 1, 1, h, january_range, by simp [monthLength]⟩

theorem zero_lt_ticks : 0 < 10^7 := by decide

def CivilDate.midnight (date : CivilDate) : CivilTime where
  date := date
  hour := 0
  minute := 0
  second := 0
  ticks := 0
  hour_lt := by decide
  minute_lt := by decide
  second_lt := by decide
  ticks_lt := zero_lt_ticks

def CivilTime.sinceEpoch (time : CivilTime) : ℤ :=
  (((time.date.dayNumber : ℤ)-daysBeforeYear 1970)*86400 + time.hour*3600 + time.minute*60 +
    time.second)*10^7 + time.ticks

def CivilTime.since (year : ℕ) (time : CivilTime) : ℤ :=
  (((time.date.dayNumber : ℤ)-daysBeforeYear year)*86400 + time.hour*3600 + time.minute*60 +
    time.second)*10^7 + time.ticks

theorem CivilTime.since_nonneg (time : CivilTime) {year : ℕ} (h : year ≤ time.date.year) :
    0 ≤ time.since year := by
  have hfirst : daysBeforeYear year ≤ time.date.dayNumber := by
    have hmono := daysBeforeYear_mono h
    rw [CivilDate.dayNumber]
    omega
  unfold CivilTime.since
  omega

theorem CivilTime.since_eq (time : CivilTime) (year : ℕ) :
    time.since year =
      time.sinceEpoch + ((daysBeforeYear 1970 : ℤ)-daysBeforeYear year)*86400*10^7 := by
  unfold CivilTime.since CivilTime.sinceEpoch
  generalize daysBeforeYear 1970 = epoch
  ring

theorem CivilTime.sinceEpoch_neg (time : CivilTime) (h : time.date.year < 1970) :
    time.sinceEpoch < 0 := by
  have hlast : time.date.dayNumber < daysBeforeYear 1970 :=
    lt_of_lt_of_le time.date.dayNumber_lt (daysBeforeYear_mono h)
  have hhour := time.hour_lt
  have hminute := time.minute_lt
  have hsecond := time.second_lt
  have hticks := time.ticks_lt
  unfold CivilTime.sinceEpoch
  omega

end CivilCalendar
