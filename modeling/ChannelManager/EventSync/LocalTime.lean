import ChannelManager.Schedules.Calendar
import ChannelManager.Templates.Segment
import Mathlib.Tactic.IntervalCases

/-!
# The clock of an event

The start of an event as its zone shows it, and the texts made of it: the clock alone, the clock with
its date, the clock with the standard offset of the zone, and the instant in UTC.
-/

namespace ChannelManager.EventSync

open Calendar
open Templates (Text)

def digit (n : ℕ) : Char := Char.ofNat (48 + n % 10)

def twoDigits (n : ℕ) : Text := [digit (n / 10), digit n]

def fourDigits (n : ℕ) : Text := twoDigits (n / 100) ++ twoDigits n

/-- An aware `datetime` in whole seconds: what the clock on the wall shows, counted from the day before
year 1, how far it is ahead of UTC, and how much of that is daylight saving. -/
structure LocalTime where
  wall : ℤ
  utcoffset : ℤ
  dst : ℤ
  utc_year : 1 ≤ yearOf ((wall - utcoffset) / 86400) ∧ yearOf ((wall - utcoffset) / 86400) ≤ 9999

/-- The day of its month. -/
def dayOfMonth (day : ℤ) : ℤ := day - monthStart (yearOf day) (monthOf day)

def hourOf (seconds : ℤ) : ℕ := (seconds / 3600 % 24).toNat

def minuteOf (seconds : ℤ) : ℕ := (seconds / 60 % 60).toNat

/-- `%b` in the C locale. -/
def monthName (month : ℕ) : Text :=
  (["Jan", "Feb", "Mar", "Apr", "May", "Jun", "Jul", "Aug", "Sep", "Oct", "Nov", "Dec"].getD
    (month - 1) "").toList

namespace LocalTime

variable (t : LocalTime)

/-- `%I:%M %p` -/
def clock12 : Text :=
  twoDigits ((hourOf t.wall + 11) % 12 + 1) ++ ':' :: twoDigits (minuteOf t.wall) ++
    (if hourOf t.wall < 12 then " AM" else " PM").toList

/-- `%b %d %I:%M %p` -/
def stamp : Text :=
  monthName (monthOf (t.wall / 86400)) ++
    ' ' :: twoDigits (dayOfMonth (t.wall / 86400)).toNat ++ ' ' :: t.clock12

/-- `_dateless_clock_token` -/
def datelessClockToken : Text :=
  let totalMinutes := (t.utcoffset - t.dst) / 60
  twoDigits (hourOf t.wall) ++ ':' :: twoDigits (minuteOf t.wall) ++
    (if 0 ≤ totalMinutes then '+' else '-') ::
      twoDigits (totalMinutes.natAbs / 60) ++ ':' :: twoDigits (totalMinutes.natAbs % 60)

/-- The instant, as UTC counts it. -/
def instant : ℤ := t.wall - t.utcoffset

/-- `astimezone(UTC).isoformat()` -/
def utcIsoformat : Text :=
  let day := t.instant / 86400
  fourDigits (yearOf day).toNat ++ '-' :: twoDigits (monthOf day) ++
    '-' :: twoDigits (dayOfMonth day).toNat ++ 'T' :: twoDigits (hourOf t.instant) ++
      ':' :: twoDigits (minuteOf t.instant) ++ ':' :: twoDigits (t.instant % 60).toNat ++
        "+00:00".toList

end LocalTime

theorem digit_inj {n m : ℕ} (h : digit n = digit m) : n % 10 = m % 10 := by
  have hn : n % 10 < 10 := Nat.mod_lt n (by decide)
  have hm : m % 10 < 10 := Nat.mod_lt m (by decide)
  rw [digit, digit] at h
  generalize n % 10 = a at *
  generalize m % 10 = b at *
  interval_cases a <;> interval_cases b <;> first | rfl | exact absurd h (by decide)

theorem twoDigits_inj {n m : ℕ} (hn : n < 100) (hm : m < 100) (h : twoDigits n = twoDigits m) :
    n = m := by
  obtain ⟨htens, hones⟩ := List.cons_eq_cons.mp h
  have htens := digit_inj htens
  have hones := digit_inj (List.head_eq_of_cons_eq hones)
  omega

theorem fourDigits_inj {n m : ℕ} (hn : n < 10000) (hm : m < 10000) (h : fourDigits n = fourDigits m) :
    n = m := by
  obtain ⟨hhigh, hlow⟩ := List.append_inj h rfl
  have hhigh := twoDigits_inj (by omega) (by omega) hhigh
  obtain ⟨htens, hones⟩ := List.cons_eq_cons.mp hlow
  have htens := digit_inj htens
  have hones := digit_inj (List.head_eq_of_cons_eq hones)
  omega

theorem hourOf_lt (seconds : ℤ) : hourOf seconds < 24 := by
  rw [hourOf]
  omega

theorem minuteOf_lt (seconds : ℤ) : minuteOf seconds < 60 := by
  rw [minuteOf]
  omega

/-- A day has between 1 and 31 before it in its month, itself included. -/
theorem dayOfMonth_range (day : ℤ) : 1 ≤ dayOfMonth day ∧ dayOfMonth day ≤ 31 := by
  obtain ⟨_, hstart, hend⟩ := monthOf_spec day
  have hlength : daysInMonth (yearOf day) (monthOf day) ≤ 31 := by
    rw [daysInMonth]
    split_ifs <;> decide
  rw [dayOfMonth]
  omega

theorem append_twoDigits_inj {s s' : Text} {c : Char} {n m : ℕ}
    (h : s ++ c :: twoDigits n = s' ++ c :: twoDigits m) : s = s' ∧ twoDigits n = twoDigits m := by
  have hlength : (c :: twoDigits n).length = (c :: twoDigits m).length := by simp [twoDigits]
  obtain ⟨hfront, hback⟩ := List.append_inj' h hlength
  exact ⟨hfront, List.tail_eq_of_cons_eq hback⟩

/-- A day is known by its date. -/
theorem day_eq_of_date {day day' : ℤ} (hyear : yearOf day = yearOf day')
    (hmonth : monthOf day = monthOf day') (hday : dayOfMonth day = dayOfMonth day') : day = day' := by
  rw [dayOfMonth, dayOfMonth, hyear, hmonth] at hday
  omega

namespace LocalTime

variable {t t' : LocalTime}

theorem length_utcIsoformat (t : LocalTime) : t.utcIsoformat.length = 25 := rfl

/-- An instant is known by its text. -/
theorem instant_eq_of_utcIsoformat (h : t.utcIsoformat = t'.utcIsoformat) : t.instant = t'.instant := by
  have hyears := t.utc_year
  have hyears' := t'.utc_year
  change 1 ≤ yearOf (t.instant / 86400) ∧ yearOf (t.instant / 86400) ≤ 9999 at hyears
  change 1 ≤ yearOf (t'.instant / 86400) ∧ yearOf (t'.instant / 86400) ≤ 9999 at hyears'
  rw [utcIsoformat, utcIsoformat] at h
  generalize t.instant = a at *
  generalize t'.instant = b at *
  have hmonth := (monthOf_spec (a / 86400)).1
  have hmonth' := (monthOf_spec (b / 86400)).1
  have hday := dayOfMonth_range (a / 86400)
  have hday' := dayOfMonth_range (b / 86400)
  obtain ⟨h, _⟩ := List.append_inj' h rfl
  obtain ⟨h, hseconds⟩ := append_twoDigits_inj h
  obtain ⟨h, hminutes⟩ := append_twoDigits_inj h
  obtain ⟨h, hhours⟩ := append_twoDigits_inj h
  obtain ⟨h, hdays⟩ := append_twoDigits_inj h
  obtain ⟨hyear, hmonths⟩ := append_twoDigits_inj h
  have hyear := fourDigits_inj (by omega) (by omega) hyear
  have hmonths := twoDigits_inj (by omega) (by omega) hmonths
  have hdays := twoDigits_inj (by omega) (by omega) hdays
  have hhours := twoDigits_inj ((hourOf_lt a).trans (by decide)) ((hourOf_lt b).trans (by decide))
    hhours
  have hminutes := twoDigits_inj ((minuteOf_lt a).trans (by decide)) ((minuteOf_lt b).trans (by decide))
    hminutes
  have hseconds := twoDigits_inj (by omega) (by omega) hseconds
  have hdate : a / 86400 = b / 86400 := day_eq_of_date (by omega) hmonths (by omega)
  rw [hourOf, hourOf] at hhours
  rw [minuteOf, minuteOf] at hminutes
  omega

/-- The text of an instant ends in its minutes, its seconds and the offset. -/
theorem exists_utcIsoformat (t : LocalTime) :
    ∃ hour minute, t.utcIsoformat = hour ++ ':' :: minute ∧ minute.length = 11 :=
  ⟨t.utcIsoformat.take 13, t.utcIsoformat.drop 14, rfl, rfl⟩

/-- Two clocks of one token show the same to twelve hours. -/
theorem clock12_eq_of_token (h : t.datelessClockToken = t'.datelessClockToken) :
    t.clock12 = t'.clock12 := by
  obtain ⟨h, _⟩ := List.append_inj' h rfl
  obtain ⟨h, _⟩ := List.append_inj' h rfl
  obtain ⟨hhours, hminutes⟩ := List.append_inj' h rfl
  have hhours := twoDigits_inj ((hourOf_lt _).trans (by decide)) ((hourOf_lt _).trans (by decide)) hhours
  rw [clock12, clock12, hhours, List.tail_eq_of_cons_eq hminutes]

end LocalTime

end ChannelManager.EventSync
