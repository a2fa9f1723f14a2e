import Mathlib.Algebra.Ring.Nat
import Mathlib.Algebra.Ring.Int.Defs

/-!
# The Gregorian calendar, before its introduction too

Days are counted from 1 January of the year 0. `yearStart` is the day a year begins on, `date` the date of a day, with
`dayNumber_date` as its meaning: the date is one there is, and the day is its day. `utc` splits a count of seconds from
1970 on, every day having 86400 of them.
-/

namespace Calendar

def isLeap (year : Int) : Bool := year % 4 = 0 && (year % 100 ≠ 0 || year % 400 = 0)

/-- The first day of a year. -/
def yearStart (year : Int) : Int := 365 * year + (year + 3) / 4 - (year + 99) / 100 + (year + 399) / 400

def yearLength (leap : Bool) : Nat := if leap then 366 else 365

def monthLengths (leap : Bool) : List Nat := [31, if leap then 29 else 28, 31, 30, 31, 30, 31, 31, 30, 31, 30, 31]

/-- A date there is. -/
structure Date where
  year : Int
  month : Nat
  day : Nat
  month_pos : 1 ≤ month
  day_pos : 1 ≤ day
  day_le : day ≤ (monthLengths (isLeap year)).getD (month - 1) 0

/-- The day of a date. -/
def Date.dayNumber (d : Date) : Int :=
  yearStart d.year + (((monthLengths (isLeap d.year)).take (d.month - 1)).sum + (d.day - 1) : Nat)

theorem Date.month_le (d : Date) : d.month ≤ 12 := by
  by_contra h
  have hlong : (monthLengths (isLeap d.year)).length ≤ d.month - 1 := by
    rw [show (monthLengths (isLeap d.year)).length = 12 from rfl]
    omega
  have hday := d.day_le
  rw [List.getD_eq_getElem?_getD, List.getElem?_eq_none hlong] at hday
  have := d.day_pos
  simp at hday
  omega

theorem Date.day_le_31 (d : Date) : d.day ≤ 31 := by
  have hall : ∀ leap, ∀ length ∈ monthLengths leap, length ≤ 31 := by decide
  refine Nat.le_trans d.day_le ?_
  rw [List.getD_eq_getElem?_getD]
  cases hget : (monthLengths (isLeap d.year))[d.month - 1]? with
  | none => exact Nat.zero_le _
  | some length => exact hall _ length (List.mem_of_getElem? hget)

/-! ## Years -/

theorem yearStart_succ (year : Int) : yearStart (year + 1) = yearStart year + yearLength (isLeap year) := by
  unfold yearStart yearLength isLeap
  by_cases h4 : year % 4 = 0
  · by_cases h100 : year % 100 = 0
    · by_cases h400 : year % 400 = 0
      · simp [h4, h100, h400]
        omega
      · simp [h4, h100, h400]
        omega
    · simp [h4, h100]
      omega
  · simp [h4]
    omega

theorem yearStart_mono {y z : Int} (h : y ≤ z) : yearStart y ≤ yearStart z := by
  unfold yearStart
  omega

/-- The year of a day, next to what the average length of a year gives. -/
def yearOf (n : Int) : Int :=
  let y := n * 400 / 146097
  if n < yearStart y then y - 1 else if yearStart (y + 1) ≤ n then y + 1 else y

theorem yearOf_spec (n : Int) : yearStart (yearOf n) ≤ n ∧ n < yearStart (yearOf n + 1) := by
  have hlow : yearStart (n * 400 / 146097 - 1) ≤ n := by
    unfold yearStart
    omega
  have hhigh : n < yearStart (n * 400 / 146097 + 1 + 1) := by
    unfold yearStart
    omega
  rw [yearOf]
  split_ifs with h h'
  · rw [show n * 400 / 146097 - 1 + 1 = n * 400 / 146097 by omega]
    exact ⟨hlow, h⟩
  · exact ⟨h', hhigh⟩
  · exact ⟨by omega, by omega⟩

theorem le_yearOf_iff (y n : Int) : y ≤ yearOf n ↔ yearStart y ≤ n := by
  obtain ⟨hlow, hhigh⟩ := yearOf_spec n
  constructor
  · intro h
    have := yearStart_mono h
    omega
  · intro h
    by_contra hlt
    have := yearStart_mono (show yearOf n + 1 ≤ y by omega)
    omega

/-! ## Months -/

/-- The part that a number falls into, and where in it. -/
def locate : List Nat → Nat → Nat × Nat
  | [], n => (0, n)
  | length :: lengths, n =>
    if n < length then (0, n) else ((locate lengths (n - length)).1 + 1, (locate lengths (n - length)).2)

theorem locate_spec {lengths : List Nat} {n : Nat} (h : n < lengths.sum) :
    (locate lengths n).2 < lengths.getD (locate lengths n).1 0 ∧
      (lengths.take (locate lengths n).1).sum + (locate lengths n).2 = n := by
  induction lengths generalizing n with
  | nil => simp at h
  | cons length lengths ih =>
    rw [List.sum_cons] at h
    rw [locate]
    by_cases hn : n < length
    · rw [if_pos hn]
      exact ⟨hn, by simp⟩
    · rw [if_neg hn]
      obtain ⟨hlt, hsum⟩ := ih (n := n - length) (by omega)
      refine ⟨by simpa using hlt, ?_⟩
      simp only [List.take_succ_cons, List.sum_cons]
      omega

theorem sum_monthLengths (leap : Bool) : (monthLengths leap).sum = yearLength leap := by
  cases leap <;> rfl

/-- How far in its year a day is. -/
def dayOfYear (n : Int) : Nat := (n - yearStart (yearOf n)).toNat

theorem dayOfYear_lt (n : Int) : dayOfYear n < (monthLengths (isLeap (yearOf n))).sum := by
  obtain ⟨hlow, hhigh⟩ := yearOf_spec n
  rw [yearStart_succ] at hhigh
  rw [sum_monthLengths, dayOfYear]
  omega

/-- The date of a day. -/
def date (n : Int) : Date where
  year := yearOf n
  month := (locate (monthLengths (isLeap (yearOf n))) (dayOfYear n)).1 + 1
  day := (locate (monthLengths (isLeap (yearOf n))) (dayOfYear n)).2 + 1
  month_pos := Nat.le_add_left 1 _
  day_pos := Nat.le_add_left 1 _
  day_le := (locate_spec (dayOfYear_lt n)).1

theorem dayNumber_date (n : Int) : (date n).dayNumber = n := by
  have hsum := (locate_spec (dayOfYear_lt n)).2
  have hlow := (yearOf_spec n).1
  simp only [Date.dayNumber, date, Nat.add_sub_cancel]
  rw [hsum, dayOfYear]
  omega

/-! ## Seconds -/

/-- A date with a time of the day. -/
structure Moment where
  date : Date
  hour : Nat
  minute : Nat
  second : Nat
  hour_le : hour ≤ 23
  minute_le : minute ≤ 59
  second_le : second ≤ 59

/-- Seconds from the start of 1970 to a moment. -/
def Moment.epoch (m : Moment) : Int :=
  86400 * (m.date.dayNumber - yearStart 1970) + (3600 * m.hour + 60 * m.minute + m.second : Nat)

/-- The moment that many seconds after the start of 1970. -/
def utc (epoch : Int) : Moment where
  date := Calendar.date (epoch / 86400 + yearStart 1970)
  hour := (epoch % 86400).toNat / 3600
  minute := (epoch % 86400).toNat % 3600 / 60
  second := (epoch % 86400).toNat % 60
  hour_le := by omega
  minute_le := by omega
  second_le := by omega

theorem epoch_utc (epoch : Int) : (utc epoch).epoch = epoch := by
  simp only [Moment.epoch, utc, dayNumber_date]
  omega

/-- A year has begun when its first second has. -/
theorem le_year_utc_iff (y epoch : Int) : y ≤ (utc epoch).date.year ↔ 86400 * (yearStart y - yearStart 1970) ≤ epoch := by
  have h := le_yearOf_iff y (epoch / 86400 + yearStart 1970)
  show y ≤ yearOf _ ↔ _
  rw [h]
  omega

end Calendar
