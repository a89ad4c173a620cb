import ChannelManager.Lib.LeastPick
import ChannelManager.Schedules.Calendar
import ChannelManager.Templates.Segment
import Mathlib.Data.List.Sort

/-!
# When a schedule runs next

Instants are microseconds since the day before year 1. A zone is at a fixed `offset` from UTC, and
`int` reads a number as Python's `int` does.
-/

namespace ChannelManager.Schedules

open Calendar Templates

inductive ScheduleType
  | interval
  | daily
  | weekly
  | biweekly
  | monthly
  | other
deriving DecidableEq

/-- What `calculate_next_run` is told of a schedule. Sunday is 0 of `days_of_week`. -/
structure Schedule where
  scheduleType : ScheduleType
  intervalSeconds : Option ℤ
  scheduleTime : Option Text
  daysOfWeek : Option (List ℤ)
  dayOfMonth : Option ℤ
  weekParity : Option ℤ

inductive ScheduleError
  | value
deriving DecidableEq

def dayLength : ℤ := 86400000000

def dayOf (now : ℤ) : ℤ := now / dayLength

def timeOfDay (hour minute : ℤ) : ℤ := (hour * 60 + minute) * 60000000

/-- `replace(hour=…, minute=…, second=0, microsecond=0)` on a day. -/
def atTime (day hour minute : ℤ) : Except ScheduleError ℤ :=
  if (0 ≤ hour ∧ hour < 24) ∧ 0 ≤ minute ∧ minute < 60 then
    .ok (day * dayLength + timeOfDay hour minute)
  else .error .value

/-- `replace` of the date too. -/
def atDate (year : ℤ) (month : ℕ) (day hour minute : ℤ) : Except ScheduleError ℤ :=
  if 1 ≤ day ∧ day ≤ daysInMonth year month then atTime (monthStart year month + day) hour minute
  else .error .value

section Calculate

variable (int : Text → Option ℤ)

/-- `map(int, schedule_time.split(":"))` -/
def parseTime (scheduleTime : Text) : Option (ℤ × ℤ) :=
  match scheduleTime.splitOn ':' with
  | [hour, minute] => do return (← int hour, ← int minute)
  | _ => none

/-- Nothing without a time of the format. -/
def withTime (scheduleTime : Option Text)
    (next : ℤ → ℤ → Except ScheduleError (Option ℤ)) : Except ScheduleError (Option ℤ) :=
  match scheduleTime.bind (parseTime int) with
  | some (hour, minute) => next hour minute
  | none => .ok none

def calculateIntervalNextRun (intervalSeconds lastRun : Option ℤ) (nowUtc : ℤ) : Option ℤ :=
  match intervalSeconds with
  | none => none
  | some seconds =>
    if seconds ≤ 0 then none
    else match lastRun with
      | none => some (nowUtc + seconds * 1000000)
      | some lastRun =>
        let nextRun := lastRun + seconds * 1000000
        some (if nextRun ≤ nowUtc then nowUtc + seconds * 1000000 else nextRun)

def calculateDailyNextRun (scheduleTime : Option Text) (offset now : ℤ) :
    Except ScheduleError (Option ℤ) :=
  withTime int scheduleTime fun hour minute => do
    let target ← atTime (dayOf now) hour minute
    let target := if target ≤ now then target + dayLength else target
    return some (target - offset)

/-- Sunday is 0. -/
def currentWeekday (now : ℤ) : ℤ := (weekday (dayOf now) + 1) % 7

def daysAhead (now day : ℤ) : ℤ := (day - currentWeekday now) % 7

/-- The loop over the days: the earliest of them within seven days, without today when it is over.
`today` is the configured time today. -/
def bestWithinWeek (today now : ℤ) (days : List ℤ) : Option ℤ :=
  (days.insertionSort (· ≤ ·)).foldl
    (keepLeast (fun day => today + daysAhead now day * dayLength)
      fun day => !(daysAhead now day = 0 && today + daysAhead now day * dayLength ≤ now)) none

def calculateWeeklyNextRun (scheduleTime : Option Text) (offset now : ℤ)
    (daysOfWeek : Option (List ℤ)) : Except ScheduleError (Option ℤ) :=
  match daysOfWeek with
  | none | some [] => .ok none
  | some (day :: days) =>
    withTime int scheduleTime fun hour minute => do
      let today ← atTime (dayOf now) hour minute
      let firstDay := days.foldl min day
      let ahead := if daysAhead now firstDay = 0 then 7 else daysAhead now firstDay
      let best := (bestWithinWeek today now (day :: days)).getD (today + ahead * dayLength)
      return some (best - offset)

def calculateBiweeklyNextRun (scheduleTime : Option Text) (offset now : ℤ)
    (daysOfWeek : Option (List ℤ)) (weekParity : Option ℤ) : Except ScheduleError (Option ℤ) :=
  match daysOfWeek with
  | none | some [] => .ok none
  | some (day :: days) =>
    withTime int scheduleTime fun hour minute => do
      let today ← atTime (dayOf now) hour minute
      let currentParity := isoWeek (dayOf now) % 2
      let isOurWeek := currentParity = weekParity.getD currentParity
      let best := if isOurWeek then bestWithinWeek today now (day :: days) else none
      let daysToNextWeek :=
        if isOurWeek then 7 - currentWeekday now + 7 else 7 - currentWeekday now
      let firstDay := days.foldl min day
      let best := best.getD (today + (daysToNextWeek + firstDay) * dayLength)
      return some (best - offset)

/-- `get_actual_day` -/
def getActualDay (dayOfMonth year : ℤ) (month : ℕ) : ℤ :=
  if dayOfMonth = -1 then daysInMonth year month else min dayOfMonth (daysInMonth year month)

def monthAfter (year : ℤ) (month : ℕ) : ℤ × ℕ :=
  if month + 1 > 12 then (year + 1, 1) else (year, month + 1)

def targetIn (dayOfMonth hour minute : ℤ) (month : ℤ × ℕ) : Except ScheduleError ℤ :=
  atDate month.1 month.2 (getActualDay dayOfMonth month.1 month.2) hour minute

def calculateMonthlyNextRun (scheduleTime : Option Text) (offset now : ℤ)
    (dayOfMonth : Option ℤ) : Except ScheduleError (Option ℤ) :=
  match dayOfMonth with
  | none => .ok none
  | some dayOfMonth =>
    withTime int scheduleTime fun hour minute => do
      let month := (yearOf (dayOf now), monthOf (dayOf now))
      -- a date that does not exist moves on to the next month
      let month := match targetIn dayOfMonth hour minute month with
        | .ok _ => month
        | .error _ => monthAfter month.1 month.2
      let target ← targetIn dayOfMonth hour minute month
      let target ←
        if target ≤ now then targetIn dayOfMonth hour minute (monthAfter month.1 month.2)
        else pure target
      return some (target - offset)

/-- `calculate_next_run`, at the instant `nowUtc`. -/
def calculateNextRun (schedule : Schedule) (offset nowUtc : ℤ) (lastRun : Option ℤ) :
    Except ScheduleError (Option ℤ) :=
  let now := nowUtc + offset
  match schedule.scheduleType with
  | .interval => .ok (calculateIntervalNextRun schedule.intervalSeconds lastRun nowUtc)
  | .daily => calculateDailyNextRun int schedule.scheduleTime offset now
  | .weekly => calculateWeeklyNextRun int schedule.scheduleTime offset now schedule.daysOfWeek
  | .biweekly =>
    calculateBiweeklyNextRun int schedule.scheduleTime offset now schedule.daysOfWeek
      schedule.weekParity
  | .monthly => calculateMonthlyNextRun int schedule.scheduleTime offset now schedule.dayOfMonth
  | .other => .ok none

end Calculate

end ChannelManager.Schedules
