import Mathlib

/-!
# The calendar

Days are counted as `date.toordinal` does, day 1 being the Monday that begins year 1.
-/

namespace ChannelManager.Calendar

def isLeap (year : ℤ) : Bool := year % 4 = 0 && (year % 100 ≠ 0 || year % 400 = 0)

/-- `monthrange(year, month)[1]` -/
def daysInMonth (year : ℤ) (month : ℕ) : ℤ :=
  if month = 2 then (if isLeap year then 29 else 28)
  else if month = 4 ∨ month = 6 ∨ month = 9 ∨ month = 11 then 30 else 31

def daysBeforeYear (year : ℤ) : ℤ :=
  (year - 1) * 365 + (year - 1) / 4 - (year - 1) / 100 + (year - 1) / 400

def daysBeforeMonth (year : ℤ) : ℕ → ℤ
  | 0 | 1 => 0
  | month + 2 => daysBeforeMonth year (month + 1) + daysInMonth year (month + 1)

/-- The day before the first of a month. -/
def monthStart (year : ℤ) (month : ℕ) : ℤ := daysBeforeYear year + daysBeforeMonth year month

/-- `date.year`, by the cycles of 400, 100, 4 years and one. -/
def yearOf (day : ℤ) : ℤ :=
  let n := day - 1
  let n400 := n / 146097
  let n := n % 146097
  let n100 := n / 36524
  let n := n % 36524
  let n4 := n / 1461
  let n := n % 1461
  let n1 := n / 365
  let year := n400 * 400 + n100 * 100 + n4 * 4 + n1 + 1
  if n1 = 4 ∨ n100 = 4 then year - 1 else year

/-- `date.month`: the first month that does not end before the day. -/
def monthOf (day : ℤ) : ℕ :=
  ((List.range' 1 11).find? fun month => day ≤ monthStart (yearOf day) (month + 1)).getD 12

/-- Monday is 0. -/
def weekday (day : ℤ) : ℤ := (day + 6) % 7

/-- `isocalendar()[1]`: a week belongs to the year of its Thursday. -/
def isoWeek (day : ℤ) : ℤ :=
  let thursday := day - weekday day + 3
  (thursday - daysBeforeYear (yearOf thursday) - 1) / 7 + 1

theorem daysBeforeYear_succ (year : ℤ) :
    daysBeforeYear (year + 1) = daysBeforeYear year + if isLeap year then 366 else 365 := by
  simp only [daysBeforeYear, isLeap, Bool.and_eq_true, Bool.or_eq_true, decide_eq_true_eq]
  split <;> omega

theorem daysBeforeYear_cycles (a : ℤ) {b c d : ℤ} (hb : 0 ≤ b ∧ b ≤ 3) (hc : 0 ≤ c ∧ c ≤ 24)
    (hd : 0 ≤ d ∧ d ≤ 3) :
    daysBeforeYear (a * 400 + b * 100 + c * 4 + d + 1) =
      a * 146097 + b * 36524 + c * 1461 + d * 365 := by
  have h4 : (a * 400 + b * 100 + c * 4 + d + 1 - 1) / 4 = a * 100 + b * 25 + c := by omega
  have h100 : (a * 400 + b * 100 + c * 4 + d + 1 - 1) / 100 = a * 4 + b := by omega
  have h400 : (a * 400 + b * 100 + c * 4 + d + 1 - 1) / 400 = a := by omega
  rw [daysBeforeYear, h4, h100, h400]
  omega

/-- A day lies in its year. -/
theorem yearOf_spec (day : ℤ) :
    daysBeforeYear (yearOf day) < day ∧ day ≤ daysBeforeYear (yearOf day + 1) := by
  obtain ⟨a, b, c, d, r, hday, hyear, hb, hc, hd, hr, hcd, hbc⟩ : ∃ a b c d r : ℤ,
      day - 1 = a * 146097 + b * 36524 + c * 1461 + d * 365 + r ∧
      yearOf day = (if d = 4 ∨ b = 4 then a * 400 + b * 100 + c * 4 + d + 1 - 1
        else a * 400 + b * 100 + c * 4 + d + 1) ∧
      (0 ≤ b ∧ b ≤ 4) ∧ (0 ≤ c ∧ c ≤ 24) ∧ (0 ≤ d ∧ d ≤ 4) ∧ (0 ≤ r ∧ r < 365) ∧
      c * 1461 + d * 365 + r < 36524 ∧ b * 36524 + c * 1461 + d * 365 + r < 146097 ∧
      d * 365 + r < 1461 := by
    refine ⟨_, _, _, _, (day - 1) % 146097 % 36524 % 1461 % 365, ?_, rfl, ?_⟩
    all_goals omega
  rw [hyear]
  split
  next hlast =>
    rcases hlast with rfl | rfl
    · have hstart := daysBeforeYear_cycles a (b := b) (c := c) (d := 3) (by omega) hc (by omega)
      have hnext := daysBeforeYear_cycles a (b := b) (c := c + 1) (d := 0) (by omega) (by omega)
        (by omega)
      have hyear' : a * 400 + b * 100 + c * 4 + 4 + 1 - 1 = a * 400 + b * 100 + c * 4 + 3 + 1 := by
        omega
      have hnext' : a * 400 + b * 100 + c * 4 + 3 + 1 + 1 =
          a * 400 + b * 100 + (c + 1) * 4 + 0 + 1 := by
        omega
      rw [hyear', hnext', hstart, hnext]
      omega
    · have hstart := daysBeforeYear_cycles a (b := 3) (c := 24) (d := 3) (by omega) (by omega)
        (by omega)
      have hnext := daysBeforeYear_cycles (a + 1) (b := 0) (c := 0) (d := 0) (by omega) (by omega)
        (by omega)
      have hyear' : a * 400 + 4 * 100 + c * 4 + d + 1 - 1 = a * 400 + 3 * 100 + 24 * 4 + 3 + 1 := by
        omega
      have hnext' : a * 400 + 3 * 100 + 24 * 4 + 3 + 1 + 1 =
          (a + 1) * 400 + 0 * 100 + 0 * 4 + 0 + 1 := by
        omega
      rw [hyear', hnext', hstart, hnext]
      omega
  next hinner =>
    have hstart := daysBeforeYear_cycles a (b := b) (c := c) (d := d) (by omega) hc (by omega)
    have hnext := daysBeforeYear_succ (a * 400 + b * 100 + c * 4 + d + 1)
    rw [hnext, hstart]
    split <;> omega

theorem monthStart_succ (year : ℤ) {month : ℕ} (h : 1 ≤ month) :
    monthStart year (month + 1) = monthStart year month + daysInMonth year month := by
  obtain ⟨m, rfl⟩ := Nat.exists_eq_add_of_le' h
  rw [monthStart, monthStart, daysBeforeMonth, Int.add_assoc]

theorem monthStart_one (year : ℤ) : monthStart year 1 = daysBeforeYear year := Int.add_zero _

/-- A year ends where the next begins. -/
theorem monthStart_year (year : ℤ) :
    monthStart (year + 1) 1 = monthStart year 12 + daysInMonth year 12 := by
  rw [monthStart_one, daysBeforeYear_succ]
  simp only [monthStart, daysBeforeMonth, daysInMonth]
  split <;> simp +decide <;> omega

/-- A day lies in its month. -/
theorem monthOf_spec (day : ℤ) :
    (1 ≤ monthOf day ∧ monthOf day ≤ 12) ∧ monthStart (yearOf day) (monthOf day) < day ∧
      day ≤ monthStart (yearOf day) (monthOf day) + daysInMonth (yearOf day) (monthOf day) := by
  obtain ⟨hstart, hend⟩ := yearOf_spec day
  rw [← monthStart_one] at hstart hend
  rw [monthStart_year] at hend
  generalize hfound : (List.range' 1 11).find?
    (fun month => day ≤ monthStart (yearOf day) (month + 1)) = found
  cases found with
  | none =>
    have hmonth : monthOf day = 12 := by rw [monthOf, hfound]; rfl
    have hlate := (List.find?_range'_eq_none.mp hfound) 11 (by decide) (by decide)
    rw [hmonth]
    exact ⟨by decide, by simpa using hlate, hend⟩
  | some month =>
    have hmonth : monthOf day = month := by rw [monthOf, hfound]; rfl
    obtain ⟨hin, hrange, hearlier⟩ := List.find?_range'_eq_some.mp hfound
    obtain ⟨hone, hlast⟩ := List.mem_range'_1.mp hrange
    rw [hmonth]
    refine ⟨⟨hone, by omega⟩, ?_, ?_⟩
    · rcases Nat.eq_or_lt_of_le hone with rfl | hlater
      · exact hstart
      · have hprevious := hearlier (month - 1) (by omega) (by omega)
        rw [Nat.sub_add_cancel hone] at hprevious
        simpa using hprevious
    · rw [← monthStart_succ _ hone]
      simpa using hin

theorem daysInMonth_pos (year : ℤ) (month : ℕ) : 1 ≤ daysInMonth year month := by
  unfold daysInMonth
  repeat' split
  all_goals decide

/-! ### Months in a row -/

/-- The months, counted from January of year 0. -/
def yearOfIndex (i : ℤ) : ℤ := i / 12

def monthOfIndex (i : ℤ) : ℕ := (i % 12).toNat + 1

/-- The day before the first of a month. -/
def firstOf (i : ℤ) : ℤ := monthStart (yearOfIndex i) (monthOfIndex i)

def lengthOf (i : ℤ) : ℤ := daysInMonth (yearOfIndex i) (monthOfIndex i)

theorem firstOf_succ (i : ℤ) : firstOf (i + 1) = firstOf i + lengthOf i := by
  unfold firstOf lengthOf yearOfIndex monthOfIndex
  by_cases hlast : i % 12 = 11
  · have hyear : (i + 1) / 12 = i / 12 + 1 := by omega
    have hmonth : (i + 1) % 12 = 0 := by omega
    rw [hyear, hmonth, hlast]
    exact monthStart_year _
  · have hyear : (i + 1) / 12 = i / 12 := by omega
    have hmonth : ((i + 1) % 12).toNat = (i % 12).toNat + 1 := by omega
    rw [hyear, hmonth]
    exact monthStart_succ _ (by omega)

theorem firstOf_strictMono : StrictMono firstOf := by
  refine strictMono_int_of_lt_succ fun i => ?_
  have hlength : 1 ≤ lengthOf i := daysInMonth_pos _ _
  rw [firstOf_succ]
  omega

end ChannelManager.Calendar
