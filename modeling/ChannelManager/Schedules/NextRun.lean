import ChannelManager.Lib.NextAfter
import ChannelManager.Schedules.Calculator

/-!
# The next run of a schedule

A schedule runs at its time on the days it allows. What follows an instant is told by days: the first
one that is still to come is today, or tomorrow when the time is over.
-/

namespace ChannelManager.Schedules

open Calendar Templates

/-! ### Weeks from Sunday and from Monday -/

theorem sunday_first (day : ℤ) : (weekday day + 1) % 7 = day % 7 := by
  unfold weekday
  omega

theorem currentWeekday_eq (now : ℤ) : currentWeekday now = dayOf now % 7 := sunday_first _

theorem isoWeek_congr {day day' : ℤ} (h : (day - 1) / 7 = (day' - 1) / 7) :
    isoWeek day = isoWeek day' := by
  have hthursday : day - weekday day + 3 = day' - weekday day' + 3 := by
    unfold weekday
    omega
  rw [isoWeek, isoWeek, hthursday]

/-! ### Instants by days -/

/-- The first day whose time is still to come. -/
def comingDay (now hour minute : ℤ) : ℤ :=
  if dayOf now * dayLength + timeOfDay hour minute ≤ now then dayOf now + 1 else dayOf now

/-- The instants at a time of some days. -/
def instants (runsOn : ℤ → Prop) (hour minute offset : ℤ) : Set ℤ :=
  {x | ∃ day, runsOn day ∧ x + offset = day * dayLength + timeOfDay hour minute}

variable {hour minute : ℤ}

theorem lt_iff_comingDay (hhour : 0 ≤ hour ∧ hour < 24) (hminute : 0 ≤ minute ∧ minute < 60)
    (now day : ℤ) :
    now < day * dayLength + timeOfDay hour minute ↔ comingDay now hour minute ≤ day := by
  unfold comingDay
  split <;> simp only [dayOf, dayLength, timeOfDay] at * <;> omega

/-- The next instant is on the first of the days that is to come. -/
theorem isNext_iff (hhour : 0 ≤ hour ∧ hour < 24) (hminute : 0 ≤ minute ∧ minute < 60)
    (runsOn : ℤ → Prop) (offset nowUtc day : ℤ) :
    IsNext (instants runsOn hour minute offset) nowUtc
        (day * dayLength + timeOfDay hour minute - offset) ↔
      IsLeast {d | runsOn d ∧ comingDay (nowUtc + offset) hour minute ≤ d} day := by
  have hinstant : ∀ d, d * dayLength + timeOfDay hour minute - offset ∈
      instants runsOn hour minute offset ↔ runsOn d := by
    intro d
    constructor
    · rintro ⟨d', hruns, heq⟩
      obtain rfl : d = d' := by
        simp only [dayLength] at heq
        omega
      exact hruns
    · intro hruns
      exact ⟨d, hruns, by omega⟩
  have hlater : ∀ d, nowUtc < d * dayLength + timeOfDay hour minute - offset ↔
      comingDay (nowUtc + offset) hour minute ≤ d := by
    intro d
    rw [← lt_iff_comingDay hhour hminute]
    omega
  constructor
  · rintro ⟨⟨hin, hlt⟩, hleast⟩
    refine ⟨⟨(hinstant day).mp hin, (hlater day).mp hlt⟩, ?_⟩
    rintro d ⟨hruns, hcoming⟩
    have hle := hleast ⟨(hinstant d).mpr hruns, (hlater d).mpr hcoming⟩
    simp only [dayLength] at hle
    omega
  · rintro ⟨⟨hruns, hcoming⟩, hleast⟩
    refine ⟨⟨(hinstant day).mpr hruns, (hlater day).mpr hcoming⟩, ?_⟩
    rintro x ⟨⟨d, hd, heq⟩, hlt⟩
    have hx : x = d * dayLength + timeOfDay hour minute - offset := by omega
    have hle := hleast ⟨hd, (hlater d).mp (hx ▸ hlt)⟩
    simp only [dayLength] at hx ⊢
    omega

theorem dayOf_le_comingDay (now hour minute : ℤ) :
    dayOf now ≤ comingDay now hour minute ∧ comingDay now hour minute ≤ dayOf now + 1 := by
  unfold comingDay
  split <;> omega

/-! ### Within seven days -/

/-- A day of the week that is selected. -/
def SelectedDay (days : List ℤ) (day : ℤ) : Prop := (weekday day + 1) % 7 ∈ days

variable {days : List ℤ} {now : ℤ}

/-- A selected day within seven days is one of the loop's. -/
theorem daysAhead_weekday (now : ℤ) {day : ℤ} (hfrom : dayOf now ≤ day) (hto : day ≤ dayOf now + 6) :
    daysAhead now ((weekday day + 1) % 7) = day - dayOf now := by
  rw [daysAhead, currentWeekday_eq, sunday_first]
  omega

theorem weekday_daysAhead (now : ℤ) {day : ℤ} (h : 0 ≤ day ∧ day ≤ 6) :
    (weekday (dayOf now + daysAhead now day) + 1) % 7 = day := by
  rw [daysAhead, currentWeekday_eq, sunday_first]
  omega

theorem target_eq (today : ℤ) (day : ℤ) :
    dayOf now * dayLength + today + daysAhead now day * dayLength =
      (dayOf now + daysAhead now day) * dayLength + today := by
  rw [Int.add_mul, Int.add_right_comm]

/-- The loop skips what is not to come. -/
theorem still_to_come_iff (hhour : 0 ≤ hour ∧ hour < 24) (hminute : 0 ≤ minute ∧ minute < 60) (day : ℤ) :
    (!(daysAhead now day = 0 && dayOf now * dayLength + timeOfDay hour minute +
        daysAhead now day * dayLength ≤ now) : Bool) = true ↔
      comingDay now hour minute ≤ dayOf now + daysAhead now day := by
  have hahead : 0 ≤ daysAhead now day := Int.emod_nonneg _ (by decide)
  have hbound := dayOf_le_comingDay now hour minute
  have hlt := lt_iff_comingDay hhour hminute now (dayOf now + daysAhead now day)
  simp only [target_eq, Bool.not_eq_true', Bool.and_eq_false_iff, decide_eq_false_iff_not, not_le,
    hlt]
  omega

theorem week_some (hhour : 0 ≤ hour ∧ hour < 24) (hminute : 0 ≤ minute ∧ minute < 60)
    (hdays : ∀ day ∈ days, 0 ≤ day ∧ day ≤ 6) {x : ℤ}
    (h : bestWithinWeek (dayOf now * dayLength + timeOfDay hour minute) now days = some x) :
    ∃ day, x = day * dayLength + timeOfDay hour minute ∧ day ≤ dayOf now + 6 ∧
      IsLeast {d | SelectedDay days d ∧ comingDay now hour minute ≤ d} day := by
  obtain ⟨best, hbest, hadmits, rfl, hleast⟩ := (picks_foldl _ _ _).winner x h
  have hin := (List.mem_insertionSort _).mp hbest
  rw [still_to_come_iff hhour hminute] at hadmits
  have hahead : daysAhead now best < 7 := Int.emod_lt_of_pos _ (by decide)
  refine ⟨dayOf now + daysAhead now best, target_eq _ best, by omega, ⟨?_, hadmits⟩, ?_⟩
  · rw [SelectedDay, weekday_daysAhead now (hdays best hin)]
    exact hin
  · rintro d ⟨hselected, hcoming⟩
    have hstart := (dayOf_le_comingDay now hour minute).1
    by_contra hearlier
    have hd : daysAhead now ((weekday d + 1) % 7) = d - dayOf now :=
      daysAhead_weekday now (by omega) (by omega)
    have hle := hleast _ ((List.mem_insertionSort _).mpr hselected)
      ((still_to_come_iff hhour hminute _).mpr (by omega))
    simp only [dayLength] at hle
    omega

theorem week_none (hhour : 0 ≤ hour ∧ hour < 24) (hminute : 0 ≤ minute ∧ minute < 60)
    (h : bestWithinWeek (dayOf now * dayLength + timeOfDay hour minute) now days = none) :
    ∀ day ∈ days, daysAhead now day = 0 ∧ comingDay now hour minute = dayOf now + 1 := by
  intro day hday
  have hrefused := (picks_foldl _ _ _).none h day ((List.mem_insertionSort _).mpr hday)
  rw [← Bool.not_eq_true, still_to_come_iff hhour hminute] at hrefused
  have hahead : 0 ≤ daysAhead now day := Int.emod_nonneg _ (by decide)
  have hbound := dayOf_le_comingDay now hour minute
  omega

theorem firstDay_spec (day : ℤ) (days : List ℤ) :
    days.foldl min day ∈ day :: days ∧ ∀ d ∈ day :: days, days.foldl min day ≤ d :=
  List.min?_eq_some_iff.mp List.min?_cons'

/-- What the weekly calculator picks is on the first selected day that is to come. -/
theorem weekly_isLeast (now : ℤ) (hhour : 0 ≤ hour ∧ hour < 24) (hminute : 0 ≤ minute ∧ minute < 60)
    {day : ℤ} (hdays : ∀ d ∈ day :: days, 0 ≤ d ∧ d ≤ 6) :
    ∃ next, (bestWithinWeek (dayOf now * dayLength + timeOfDay hour minute) now (day :: days)).getD
        (dayOf now * dayLength + timeOfDay hour minute +
          (if daysAhead now (days.foldl min day) = 0 then 7
            else daysAhead now (days.foldl min day)) * dayLength) =
          next * dayLength + timeOfDay hour minute ∧
      IsLeast {d | SelectedDay (day :: days) d ∧ comingDay now hour minute ≤ d} next := by
  cases h : bestWithinWeek (dayOf now * dayLength + timeOfDay hour minute) now (day :: days) with
  | some x =>
    obtain ⟨next, rfl, -, hleast⟩ := week_some hhour hminute hdays h
    exact ⟨next, rfl, hleast⟩
  | none =>
    have hall := week_none hhour hminute h
    obtain ⟨hfirst, -⟩ := firstDay_spec day days
    obtain ⟨hahead, hcoming⟩ := hall _ hfirst
    refine ⟨dayOf now + 7, ?_, ⟨?_, ?_⟩, ?_⟩
    · rw [if_pos hahead, Option.getD_none, Int.add_mul, Int.add_right_comm]
    · have hweekday := weekday_daysAhead now (hdays _ hfirst)
      rw [hahead] at hweekday
      rw [SelectedDay]
      have hsame : (weekday (dayOf now + 7) + 1) % 7 = days.foldl min day := by
        rw [sunday_first] at hweekday ⊢
        omega
      rw [hsame]
      exact hfirst
    · omega
    · rintro d ⟨hselected, hd⟩
      have hother := (hall _ hselected).1
      rw [daysAhead, currentWeekday_eq, sunday_first] at hother
      omega

/-! ### Once a month -/

/-- The day of a month, the last one when it is shorter. -/
def MonthlyDay (dayOfMonth day : ℤ) : Prop :=
  ∃ year month, (1 ≤ month ∧ month ≤ 12) ∧
    day = monthStart year month + getActualDay dayOfMonth year month

def dayInMonth (dayOfMonth i : ℤ) : ℤ :=
  firstOf i + getActualDay dayOfMonth (yearOfIndex i) (monthOfIndex i)

def indexOf (year : ℤ) (month : ℕ) : ℤ := 12 * year + (month - 1)

theorem yearOfIndex_indexOf (year : ℤ) {month : ℕ} (h : 1 ≤ month ∧ month ≤ 12) :
    yearOfIndex (indexOf year month) = year := by
  unfold yearOfIndex indexOf
  omega

theorem monthOfIndex_indexOf (year : ℤ) {month : ℕ} (h : 1 ≤ month ∧ month ≤ 12) :
    monthOfIndex (indexOf year month) = month := by
  unfold monthOfIndex indexOf
  omega

theorem monthlyDay_iff (dayOfMonth day : ℤ) :
    MonthlyDay dayOfMonth day ↔ ∃ i, day = dayInMonth dayOfMonth i := by
  constructor
  · rintro ⟨year, month, hmonth, rfl⟩
    exact ⟨indexOf year month, by
      rw [dayInMonth, firstOf, yearOfIndex_indexOf year hmonth, monthOfIndex_indexOf year hmonth]⟩
  · rintro ⟨i, rfl⟩
    refine ⟨yearOfIndex i, monthOfIndex i, ?_, rfl⟩
    unfold monthOfIndex
    omega

theorem getActualDay_bounds {dayOfMonth : ℤ} (h : dayOfMonth = -1 ∨ 1 ≤ dayOfMonth) (year : ℤ)
    (month : ℕ) : 1 ≤ getActualDay dayOfMonth year month ∧
      getActualDay dayOfMonth year month ≤ daysInMonth year month := by
  have hpos := daysInMonth_pos year month
  unfold getActualDay
  split <;> omega

/-- The day of the month of an earlier day, or else of the month after it. -/
theorem monthly_isLeast (now hour minute : ℤ) {dayOfMonth : ℤ} (hday : dayOfMonth = -1 ∨ 1 ≤ dayOfMonth) {i : ℤ}
    (hstart : firstOf i < dayOf now) (hend : dayOf now ≤ firstOf (i + 1)) :
    IsLeast {d | MonthlyDay dayOfMonth d ∧ comingDay now hour minute ≤ d}
      (if comingDay now hour minute ≤ dayInMonth dayOfMonth i then dayInMonth dayOfMonth i
        else dayInMonth dayOfMonth (i + 1)) := by
  have hbounds : ∀ j, firstOf j < dayInMonth dayOfMonth j ∧
      dayInMonth dayOfMonth j ≤ firstOf (j + 1) := by
    intro j
    have hactual := getActualDay_bounds hday (yearOfIndex j) (monthOfIndex j)
    rw [firstOf_succ, lengthOf, dayInMonth]
    omega
  have hlater : ∀ {j k}, j < k → dayInMonth dayOfMonth j < dayInMonth dayOfMonth k := by
    intro j k hjk
    have hmono := firstOf_strictMono.monotone (by omega : j + 1 ≤ k)
    have hj := (hbounds j).2
    have hk := (hbounds k).1
    omega
  have hcoming := dayOf_le_comingDay now hour minute
  -- no day of an earlier month is to come
  have hmonth : ∀ j, comingDay now hour minute ≤ dayInMonth dayOfMonth j → i ≤ j := by
    intro j hj
    have hfirst : firstOf i < firstOf (j + 1) := by
      have hj' := (hbounds j).2
      omega
    have hlt := firstOf_strictMono.lt_iff_lt.mp hfirst
    omega
  simp only [monthlyDay_iff]
  split
  next hthis =>
    refine ⟨⟨⟨i, rfl⟩, hthis⟩, ?_⟩
    rintro d ⟨⟨j, rfl⟩, hj⟩
    rcases (hmonth j hj).eq_or_lt with rfl | hlt
    · exact le_rfl
    · exact (hlater hlt).le
  next hover =>
    have hnext := (hbounds (i + 1)).1
    refine ⟨⟨⟨i + 1, rfl⟩, by omega⟩, ?_⟩
    rintro d ⟨⟨j, rfl⟩, hj⟩
    have hne : j ≠ i := by
      rintro rfl
      exact hover hj
    have hle := hmonth j hj
    rcases (by omega : i + 1 = j ∨ i + 1 < j) with rfl | hlt
    · exact le_rfl
    · exact (hlater hlt).le

end ChannelManager.Schedules
