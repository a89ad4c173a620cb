import ChannelManager.Schedules.EveryOtherWeek
import Mathlib.Data.Int.Interval

/-!
# The earliest run there is

The next run is the first instant after now at the configured time on an allowed day, for every
schedule but a biweekly one that does not keep to its weeks.
-/

namespace ChannelManager.Schedules

open Calendar Templates

variable (int : Text → Option ℤ)

/-- A schedule by the day whose time and days are in range. -/
structure ByDay (schedule : Schedule) (hour minute : ℤ) : Prop where
  time : schedule.scheduleTime.bind (parseTime int) = some (hour, minute)
  hour : 0 ≤ hour ∧ hour < 24
  minute : 0 ≤ minute ∧ minute < 60
  kind : schedule.scheduleType ≠ .interval ∧ schedule.scheduleType ≠ .other
  days : schedule.scheduleType = .weekly ∨ schedule.scheduleType = .biweekly →
    ∃ day days, schedule.daysOfWeek = some (day :: days) ∧ ∀ d ∈ day :: days, 0 ≤ d ∧ d ≤ 6
  parity : ∀ p ∈ schedule.weekParity, p = 0 ∨ p = 1
  dayOfMonth : schedule.scheduleType = .monthly →
    ∃ day, schedule.dayOfMonth = some day ∧ (day = -1 ∨ 1 ≤ day ∧ day ≤ 31)

/-- The parity of the weeks of a biweekly schedule, by default of the week of the instant. -/
def anchoredParity (schedule : Schedule) (offset nowUtc : ℤ) : ℤ :=
  schedule.weekParity.getD (isoWeek (dayOf (nowUtc + offset)) % 2)

/-- The days a schedule allows. -/
def RunsOn (schedule : Schedule) (parity day : ℤ) : Prop :=
  match schedule.scheduleType with
  | .daily => True
  | .weekly => SelectedDay (schedule.daysOfWeek.getD []) day
  | .biweekly => SelectedDay (schedule.daysOfWeek.getD []) day ∧ isoWeek day % 2 = parity
  | .monthly => ∃ dayOfMonth ∈ schedule.dayOfMonth, MonthlyDay dayOfMonth day
  | .interval | .other => False

/-- The instants a schedule allows. -/
def allowed (schedule : Schedule) (hour minute offset parity : ℤ) : Set ℤ :=
  instants (RunsOn schedule parity) hour minute offset

/-- A biweekly schedule keeps to its weeks at an instant. -/
def Keeps (schedule : Schedule) (hour minute offset nowUtc : ℤ) : Prop :=
  schedule.scheduleType = .biweekly →
    KeepsWeeks (schedule.daysOfWeek.getD []) (anchoredParity schedule offset nowUtc)
      (nowUtc + offset) hour minute

/-- The calculator returns the earliest allowed instant. -/
def Earliest (schedule : Schedule) (hour minute offset nowUtc : ℤ) (lastRun : Option ℤ) : Prop :=
  ∃ next, calculateNextRun int schedule offset nowUtc lastRun = .ok (some next) ∧
    IsNext (allowed schedule hour minute offset (anchoredParity schedule offset nowUtc)) nowUtc next

variable {int} {schedule : Schedule} {hour minute : ℤ}

theorem withTime_of_byDay (h : ByDay int schedule hour minute)
    (next : ℤ → ℤ → Except ScheduleError (Option ℤ)) :
    withTime int schedule.scheduleTime next = next hour minute := by
  rw [withTime, h.time]

theorem atTime_of_byDay (h : ByDay int schedule hour minute) (day : ℤ) :
    atTime day hour minute = .ok (day * dayLength + timeOfDay hour minute) :=
  if_pos ⟨h.hour, h.minute⟩

theorem daily_day (h : ByDay int schedule hour minute) (offset now : ℤ) :
    calculateDailyNextRun int schedule.scheduleTime offset now =
      .ok (some (comingDay now hour minute * dayLength + timeOfDay hour minute - offset)) := by
  rw [calculateDailyNextRun, withTime_of_byDay h, atTime_of_byDay h]
  simp only [bind, Except.bind, pure, Except.pure, comingDay]
  split
  · rw [Int.add_mul, Int.one_mul, Int.add_right_comm]
  · rfl

theorem weekly_day (h : ByDay int schedule hour minute) (offset now : ℤ) {day : ℤ}
    {days : List ℤ} (hdays : ∀ d ∈ day :: days, 0 ≤ d ∧ d ≤ 6) :
    ∃ next, calculateWeeklyNextRun int schedule.scheduleTime offset now (some (day :: days)) =
        .ok (some (next * dayLength + timeOfDay hour minute - offset)) ∧
      IsLeast {d | SelectedDay (day :: days) d ∧ comingDay now hour minute ≤ d} next := by
  obtain ⟨next, hbest, hleast⟩ := weekly_isLeast now h.hour h.minute hdays
  refine ⟨next, ?_, hleast⟩
  rw [calculateWeeklyNextRun, withTime_of_byDay h, atTime_of_byDay h]
  simp only [bind, Except.bind, pure, Except.pure, hbest]

theorem biweekly_day (h : ByDay int schedule hour minute) (offset now : ℤ) {day : ℤ}
    {days : List ℤ} (hdays : ∀ d ∈ day :: days, 0 ≤ d ∧ d ≤ 6) (weekParity : Option ℤ) :
    ∃ next, calculateBiweeklyNextRun int schedule.scheduleTime offset now (some (day :: days))
          weekParity = .ok (some (next * dayLength + timeOfDay hour minute - offset)) ∧
      (IsLeast {d | (SelectedDay (day :: days) d ∧
            isoWeek d % 2 = weekParity.getD (isoWeek (dayOf now) % 2)) ∧
          comingDay now hour minute ≤ d} next ↔
        KeepsWeeks (day :: days) (weekParity.getD (isoWeek (dayOf now) % 2)) now hour minute) := by
  rw [calculateBiweeklyNextRun, withTime_of_byDay h, atTime_of_byDay h]
  simp only [bind, Except.bind, pure, Except.pure]
  generalize weekParity.getD (isoWeek (dayOf now) % 2) = parity
  have hcounted : ∀ d, dayOf now * dayLength + timeOfDay hour minute + d * dayLength =
      (dayOf now + d) * dayLength + timeOfDay hour minute := fun d => by
    rw [Int.add_mul, Int.add_right_comm]
  obtain ⟨hfirst, hmin⟩ := firstDay_spec day days
  by_cases hours : isoWeek (dayOf now) % 2 = parity
  · simp only [hours, if_true]
    cases hbest : bestWithinWeek (dayOf now * dayLength + timeOfDay hour minute) now
        (day :: days) with
    | some x =>
      obtain ⟨next, rfl, hto, hleast⟩ := week_some h.hour h.minute hdays hbest
      exact ⟨next, rfl, keepsWeeks_of_some hours hto hleast⟩
    | none =>
      have hall := week_none h.hour h.minute hbest
      have htoday : ∀ d ∈ day :: days, d = dayOf now % 7 := by
        intro d hd
        have hahead := (hall d hd).1
        have hd' := hdays d hd
        rw [daysAhead, currentWeekday_eq] at hahead
        omega
      refine ⟨dayOf now + 14, ?_, keepsWeeks_of_none hours (List.cons_ne_nil day days) htoday
        (hall _ hfirst).2⟩
      have hcount : 7 - currentWeekday now + 7 + days.foldl min day = 14 := by
        have hsame := htoday _ hfirst
        rw [currentWeekday_eq]
        omega
      rw [hcount, Option.getD_none, hcounted]
  · simp only [hours, if_false, Option.getD_none, hcounted, currentWeekday_eq]
    refine ⟨_, rfl, ?_⟩
    by_cases htoday : dayOf now % 7 = 0
    · rw [htoday, ← Int.add_assoc]
      exact keepsWeeks_of_sunday hours htoday hdays hfirst hmin
    · rw [← Int.add_assoc]
      exact keepsWeeks_of_weekday hours htoday hdays hfirst hmin

theorem targetIn_of_byDay (h : ByDay int schedule hour minute) {dayOfMonth : ℤ}
    (hday : dayOfMonth = -1 ∨ 1 ≤ dayOfMonth) (i : ℤ) :
    targetIn dayOfMonth hour minute (yearOfIndex i, monthOfIndex i) =
      .ok (dayInMonth dayOfMonth i * dayLength + timeOfDay hour minute) := by
  rw [targetIn, atDate, if_pos (getActualDay_bounds hday _ _), atTime_of_byDay h]
  rfl

theorem monthAfter_index (i : ℤ) : monthAfter (yearOfIndex i) (monthOfIndex i) =
    (yearOfIndex (i + 1), monthOfIndex (i + 1)) := by
  unfold monthAfter yearOfIndex monthOfIndex
  split <;> rw [Prod.mk.injEq] <;> omega

theorem monthly_day (h : ByDay int schedule hour minute) (offset now : ℤ) {dayOfMonth : ℤ}
    (hday : dayOfMonth = -1 ∨ 1 ≤ dayOfMonth) :
    ∃ next, calculateMonthlyNextRun int schedule.scheduleTime offset now (some dayOfMonth) =
        .ok (some (next * dayLength + timeOfDay hour minute - offset)) ∧
      IsLeast {d | MonthlyDay dayOfMonth d ∧ comingDay now hour minute ≤ d} next := by
  obtain ⟨hmonth, hstart, hend⟩ := monthOf_spec (dayOf now)
  obtain ⟨i, hyear, hindex⟩ : ∃ i, yearOf (dayOf now) = yearOfIndex i ∧
      monthOf (dayOf now) = monthOfIndex i :=
    ⟨_, (yearOfIndex_indexOf _ hmonth).symm, (monthOfIndex_indexOf _ hmonth).symm⟩
  rw [hyear, hindex] at hstart hend
  have hend' : dayOf now ≤ firstOf (i + 1) := by
    rw [firstOf_succ]
    exact hend
  refine ⟨_, ?_, monthly_isLeast now hour minute hday hstart hend'⟩
  rw [calculateMonthlyNextRun, withTime_of_byDay h, hyear, hindex]
  simp only [bind, Except.bind, pure, Except.pure, targetIn_of_byDay h hday, monthAfter_index]
  have hover := lt_iff_comingDay h.hour h.minute now (dayInMonth dayOfMonth i)
  split
  next hpassed =>
    rw [if_neg (by omega)]
  next hthis =>
    rw [if_pos (by omega)]

/-- What is returned is at the configured time of a day, which is told by the days alone. -/
theorem calculate_day (h : ByDay int schedule hour minute) (offset nowUtc : ℤ)
    (lastRun : Option ℤ) :
    ∃ day, calculateNextRun int schedule offset nowUtc lastRun =
        .ok (some (day * dayLength + timeOfDay hour minute - offset)) ∧
      (IsLeast {d | RunsOn schedule (anchoredParity schedule offset nowUtc) d ∧
          comingDay (nowUtc + offset) hour minute ≤ d} day ↔
        Keeps schedule hour minute offset nowUtc) := by
  cases htype : schedule.scheduleType with
  | interval => exact absurd htype h.kind.1
  | other => exact absurd htype h.kind.2
  | daily =>
    refine ⟨comingDay (nowUtc + offset) hour minute, ?_, iff_of_true ?_ (by simp [Keeps, htype])⟩
    · simp only [calculateNextRun, htype]
      exact daily_day h offset (nowUtc + offset)
    · simp only [RunsOn, htype, true_and]
      exact isLeast_Ici
  | weekly =>
    obtain ⟨day, days, hdays, hvalid⟩ := h.days (.inl htype)
    obtain ⟨next, hnext, hleast⟩ := weekly_day h offset (nowUtc + offset) hvalid
    refine ⟨next, ?_, iff_of_true ?_ (by simp [Keeps, htype])⟩
    · simp only [calculateNextRun, htype, hdays]
      exact hnext
    · simp only [RunsOn, htype, hdays]
      exact hleast
  | biweekly =>
    obtain ⟨day, days, hdays, hvalid⟩ := h.days (.inr htype)
    obtain ⟨next, hnext, hleast⟩ :=
      biweekly_day h offset (nowUtc + offset) hvalid schedule.weekParity
    refine ⟨next, ?_, ?_⟩
    · simp only [calculateNextRun, htype, hdays]
      exact hnext
    · simp only [RunsOn, Keeps, htype, hdays, anchoredParity, forall_const]
      exact hleast
  | monthly =>
    obtain ⟨dayOfMonth, hday, hrange⟩ := h.dayOfMonth htype
    obtain ⟨next, hnext, hleast⟩ := monthly_day h offset (nowUtc + offset)
      (hrange.imp_right And.left)
    refine ⟨next, ?_, iff_of_true ?_ (by simp [Keeps, htype])⟩
    · simp only [calculateNextRun, htype, hday]
      exact hnext
    · simpa [RunsOn, htype, hday] using hleast

theorem earliest_iff (h : ByDay int schedule hour minute) (offset nowUtc : ℤ)
    (lastRun : Option ℤ) :
    Earliest int schedule hour minute offset nowUtc lastRun ↔
      Keeps schedule hour minute offset nowUtc := by
  obtain ⟨day, hcalculate, hday⟩ := calculate_day h offset nowUtc lastRun
  rw [← hday, ← isNext_iff h.hour h.minute, Earliest, hcalculate]
  constructor
  · rintro ⟨next, hnext, hleast⟩
    rw [Option.some.inj (Except.ok.inj hnext)]
    exact hleast
  · exact fun hleast => ⟨_, rfl, hleast⟩

/-- The instants allowed stay the same from a run to the next. -/
theorem allowed_next (h : ByDay int schedule hour minute) {offset nowUtc next : ℤ}
    (hnext : IsNext (allowed schedule hour minute offset (anchoredParity schedule offset nowUtc))
      nowUtc next) :
    allowed schedule hour minute offset (anchoredParity schedule offset next) =
      allowed schedule hour minute offset (anchoredParity schedule offset nowUtc) := by
  cases htype : schedule.scheduleType with
  | biweekly =>
    obtain ⟨day, hruns, heq⟩ := hnext.mem
    have hday : dayOf (next + offset) = day := by
      have hhour := h.hour
      have hminute := h.minute
      rw [heq]
      simp only [dayOf, dayLength, timeOfDay]
      omega
    simp only [RunsOn, htype] at hruns
    have hsame : anchoredParity schedule offset next = anchoredParity schedule offset nowUtc := by
      unfold anchoredParity at hruns ⊢
      cases hparity : schedule.weekParity with
      | some parity => rfl
      | none =>
        rw [hparity] at hruns
        rw [Option.getD_none, Option.getD_none, hday]
        exact hruns.2
    rw [hsame]
  | _ =>
    have hsame : RunsOn schedule (anchoredParity schedule offset next) =
        RunsOn schedule (anchoredParity schedule offset nowUtc) := by
      funext day
      simp only [RunsOn, htype]
    rw [allowed, hsame, allowed]

/-- The calculator returns the earliest allowed instant exactly where it keeps to its weeks, and where
it does from run to run every allowed instant is met once. -/
theorem earliest_iff_keeps (h : ByDay int schedule hour minute) (offset : ℤ) :
    (∀ nowUtc lastRun, Earliest int schedule hour minute offset nowUtc lastRun ↔
      Keeps schedule hour minute offset nowUtc) ∧
    ∀ (walk : ℕ → ℤ) (lastRun : ℕ → Option ℤ),
      (∀ n, calculateNextRun int schedule offset (walk n) (lastRun n) = .ok (some (walk (n + 1)))) →
      (∀ n, Keeps schedule hour minute offset (walk n)) →
      ∀ x, walk 0 < x →
        (x ∈ allowed schedule hour minute offset (anchoredParity schedule offset (walk 0)) →
          ∃! n, walk (n + 1) = x) ∧
        ((∃ n, walk (n + 1) = x) →
          x ∈ allowed schedule hour minute offset (anchoredParity schedule offset (walk 0))) := by
  refine ⟨earliest_iff h offset, fun walk lastRun hwalk hkeeps x hlt => ?_⟩
  have hstep : ∀ n, IsNext (allowed schedule hour minute offset
      (anchoredParity schedule offset (walk n))) (walk n) (walk (n + 1)) := by
    intro n
    obtain ⟨next, hnext, hleast⟩ := (earliest_iff h offset (walk n) (lastRun n)).mpr (hkeeps n)
    rw [hwalk n] at hnext
    rw [Option.some.inj (Except.ok.inj hnext)]
    exact hleast
  have hanchored : ∀ n, allowed schedule hour minute offset (anchoredParity schedule offset (walk n)) =
      allowed schedule hour minute offset (anchoredParity schedule offset (walk 0)) := by
    intro n
    induction n with
    | zero => rfl
    | succ n ih => rw [allowed_next h (hstep n), ih]
  simp only [hanchored] at hstep
  refine ⟨fun hx => met_once_of_isNext hstep hx hlt, ?_⟩
  rintro ⟨n, rfl⟩
  exact (hstep n).mem

/-- A number as plain digits. -/
def plainInt (t : Text) : Option ℤ :=
  if t ≠ [] ∧ t.all Char.isDigit then some (Nat.ofDigitChars 10 t 0) else none

theorem earliest_iff_keeps_daily :
    ByDay plainInt ⟨.daily, none, some "10:30".toList, none, none, none⟩ 10 30 ∧
      Earliest plainInt ⟨.daily, none, some "10:30".toList, none, none, none⟩ 10 30 0 0 none := by
  have hdaily : ByDay plainInt ⟨.daily, none, some "10:30".toList, none, none, none⟩ 10 30 :=
    { time := by decide +kernel
      hour := by decide
      minute := by decide
      kind := by decide
      days := nofun
      parity := nofun
      dayOfMonth := nofun }
  exact ⟨hdaily, ((earliest_iff_keeps hdaily 0).1 0 none).mpr nofun⟩

/-- On a Wednesday of a week of the parity with only Monday selected, the next Monday is returned, which
is of the other parity. -/
theorem monday_of_the_other_week :
    ¬ Earliest plainInt ⟨.biweekly, none, some "10:00".toList, some [1], none, some 1⟩ 10 0 0
      (738888 * dayLength) none := by
  rintro ⟨next, hnext, hleast⟩
  have hmonday : next = 738893 * dayLength + timeOfDay 10 0 := by
    have hcalculate : calculateNextRun plainInt
        ⟨.biweekly, none, some "10:00".toList, some [1], none, some 1⟩ 0 (738888 * dayLength) none =
          .ok (some (738893 * dayLength + timeOfDay 10 0)) := by
      decide +kernel
    rw [hcalculate] at hnext
    exact (Option.some.inj (Except.ok.inj hnext)).symm
  obtain ⟨day, ⟨-, hparity⟩, heq⟩ := hleast.mem
  obtain rfl : day = 738893 := by
    simp only [hmonday, dayLength] at heq
    omega
  exact absurd hparity (by decide +kernel)

end ChannelManager.Schedules
