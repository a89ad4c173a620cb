import ChannelManager.Schedules.NextRun

/-!
# Every other week

The biweekly calculator tells weeks by the parity of the ISO week, which begins on a Monday, and
counts to the next one from Sunday. Where that meets the first selected day of the weeks meant is said
here, case by case.
-/

namespace ChannelManager.Schedules

open Calendar

variable {hour minute now : ℤ} {days : List ℤ}

/-- When the biweekly calculator keeps to the weeks it is for. It looks seven days ahead in such a
week, and from a week between counts on to the week that the next Sunday begins. -/
inductive KeepsWeeks (days : List ℤ) (parity now hour minute : ℤ) : Prop
  /-- A selected day is left in this week, which is one of them. -/
  | left (hours : isoWeek (dayOf now) % 2 = parity) (day : ℤ) (hselected : SelectedDay days day)
      (hcoming : comingDay now hour minute ≤ day) (hweek : (day - 1) / 7 = (dayOf now - 1) / 7)
  /-- None is left, and the next week is one of them too. -/
  | consecutive (hours : isoWeek (dayOf now) % 2 = parity) (day : ℤ) (hselected : day ∈ days)
      (hother : day ≠ dayOf now % 7) (hnext : isoWeek (dayOf now + 7) % 2 = parity)
  /-- Only the weekday of today is selected, and of the next two weeks the second is one of them. -/
  | skipped (hours : isoWeek (dayOf now) % 2 = parity) (hall : ∀ day ∈ days, day = dayOf now % 7)
      (hnext : isoWeek (dayOf now + 7) % 2 ≠ parity)
      (hthen : isoWeek (dayOf now + 14) % 2 = parity)
  /-- In a week between, not on its Sunday, and Sunday is not selected. -/
  | weekday (hours : isoWeek (dayOf now) % 2 ≠ parity) (htoday : dayOf now % 7 ≠ 0)
      (hdays : 0 ∉ days) (hnext : isoWeek (dayOf now + 7) % 2 = parity)
  /-- On the Sunday of a week between, and only Sunday is selected. -/
  | sunday (hours : isoWeek (dayOf now) % 2 ≠ parity) (htoday : dayOf now % 7 = 0)
      (hdays : ∀ day ∈ days, day = 0) (hnext : isoWeek (dayOf now + 7) % 2 = parity)
  /-- On the Sunday of a week between and before another, and Sunday is not selected. -/
  | longSunday (hours : isoWeek (dayOf now) % 2 ≠ parity) (htoday : dayOf now % 7 = 0)
      (hdays : 0 ∉ days) (hnext : isoWeek (dayOf now + 7) % 2 ≠ parity)
      (hthen : isoWeek (dayOf now + 14) % 2 = parity)

/-- In a week it is for, with a selected day within seven days. -/
theorem keepsWeeks_of_some {parity next : ℤ} (hours : isoWeek (dayOf now) % 2 = parity)
    (hto : next ≤ dayOf now + 6)
    (h : IsLeast {d | SelectedDay days d ∧ comingDay now hour minute ≤ d} next) :
    IsLeast {d | (SelectedDay days d ∧ isoWeek d % 2 = parity) ∧ comingDay now hour minute ≤ d} next ↔
      KeepsWeeks days parity now hour minute := by
  obtain ⟨⟨hselected, hcoming⟩, hleast⟩ := h
  have hfrom := (dayOf_le_comingDay now hour minute).1
  have hkept : IsLeast {d | (SelectedDay days d ∧ isoWeek d % 2 = parity) ∧
      comingDay now hour minute ≤ d} next ↔ isoWeek next % 2 = parity := by
    constructor
    · exact fun hnext => hnext.1.1.2
    · intro hparity
      exact ⟨⟨⟨hselected, hparity⟩, hcoming⟩, fun d hd => hleast ⟨hd.1.1, hd.2⟩⟩
  rw [hkept]
  by_cases hweek : (next - 1) / 7 = (dayOf now - 1) / 7
  · have hsame := isoWeek_congr hweek
    refine iff_of_true (by rw [hsame, hours]) (.left hours next hselected hcoming hweek)
  · have hsame : isoWeek next = isoWeek (dayOf now + 7) := isoWeek_congr (by omega)
    rw [hsame]
    constructor
    · intro hnext
      refine .consecutive hours _ hselected ?_ hnext
      rw [sunday_first]
      omega
    · intro hkeeps
      cases hkeeps with
      | left _ day hday hto' hin =>
        have hle := hleast ⟨hday, hto'⟩
        omega
      | consecutive _ _ _ _ hnext => exact hnext
      | skipped _ hall =>
        have hweekday := hall _ hselected
        rw [sunday_first] at hweekday
        omega
      | weekday hbetween => exact absurd hours hbetween
      | sunday hbetween => exact absurd hours hbetween
      | longSunday hbetween => exact absurd hours hbetween

/-- In a week it is for, when only today is selected and over. -/
theorem keepsWeeks_of_none {parity : ℤ} (hours : isoWeek (dayOf now) % 2 = parity)
    (hne : days ≠ []) (hall : ∀ day ∈ days, day = dayOf now % 7)
    (hcoming : comingDay now hour minute = dayOf now + 1) :
    IsLeast {d | (SelectedDay days d ∧ isoWeek d % 2 = parity) ∧ comingDay now hour minute ≤ d}
        (dayOf now + 14) ↔ KeepsWeeks days parity now hour minute := by
  have hselected : ∀ d, SelectedDay days d ↔ d % 7 = dayOf now % 7 := by
    intro d
    rw [SelectedDay, sunday_first]
    constructor
    · exact hall _
    · intro hd
      obtain ⟨day, hday⟩ := List.exists_mem_of_ne_nil days hne
      rw [hd, ← hall day hday]
      exact hday
  simp only [hselected, hcoming]
  constructor
  · rintro ⟨⟨⟨-, hthen⟩, -⟩, hleast⟩
    refine .skipped hours hall (fun hnext => ?_) hthen
    have hle : dayOf now + 14 ≤ dayOf now + 7 := hleast ⟨⟨by omega, hnext⟩, by omega⟩
    omega
  · intro hkeeps
    cases hkeeps with
    | left _ day hday hto hin =>
      have hweekday := (hselected day).mp hday
      omega
    | consecutive _ day hday hother => exact absurd (hall day hday) hother
    | skipped _ _ hnext hthen =>
      refine ⟨⟨⟨by omega, hthen⟩, by omega⟩, ?_⟩
      rintro d ⟨⟨hd, hparity⟩, hto⟩
      by_contra hearlier
      obtain rfl : d = dayOf now + 7 := by omega
      exact hnext hparity
    | weekday hbetween => exact absurd hours hbetween
    | sunday hbetween => exact absurd hours hbetween
    | longSunday hbetween => exact absurd hours hbetween

/-- From the Sunday of a week between. -/
theorem keepsWeeks_of_sunday {parity first : ℤ} (hours : isoWeek (dayOf now) % 2 ≠ parity)
    (htoday : dayOf now % 7 = 0) (hdays : ∀ d ∈ days, 0 ≤ d ∧ d ≤ 6) (hfirst : first ∈ days)
    (hmin : ∀ d ∈ days, first ≤ d) :
    IsLeast {d | (SelectedDay days d ∧ isoWeek d % 2 = parity) ∧ comingDay now hour minute ≤ d}
        (dayOf now + 7 + first) ↔ KeepsWeeks days parity now hour minute := by
  have hbounds := hdays first hfirst
  obtain ⟨hfrom, hto⟩ := dayOf_le_comingDay now hour minute
  have hselected : ∀ d, SelectedDay days d ↔ d % 7 ∈ days := fun d => by
    rw [SelectedDay, sunday_first]
  have hweekday : ∀ d, 0 ≤ d ∧ d ≤ 6 → (dayOf now + d) % 7 = d := by
    intro d hd
    omega
  have hnextWeek : ∀ d, 1 ≤ d ∧ d ≤ 6 → isoWeek (dayOf now + d) = isoWeek (dayOf now + 7) := by
    intro d hd
    exact isoWeek_congr (by omega)
  have hthenWeek : 1 ≤ first → isoWeek (dayOf now + 7 + first) = isoWeek (dayOf now + 14) := by
    intro hone
    exact isoWeek_congr (by omega)
  simp only [hselected]
  constructor
  · rintro ⟨⟨⟨-, hparity⟩, -⟩, hleast⟩
    have hearlier : ∀ d ∈ days, 1 ≤ d → isoWeek (dayOf now + 7) % 2 ≠ parity := by
      intro d hd hone hnext
      have hd' := hdays d hd
      have hle := hleast ⟨⟨by rw [hweekday d hd']; exact hd, by rw [hnextWeek d (by omega), hnext]⟩,
        (by omega : comingDay now hour minute ≤ dayOf now + d)⟩
      omega
    by_cases hzero : first = 0
    · subst hzero
      rw [Int.add_zero] at hparity
      refine .sunday hours htoday (fun d hd => ?_) hparity
      by_contra hother
      have hd' := hdays d hd
      exact hearlier d hd (by omega) hparity
    · refine .longSunday hours htoday (fun hsunday => ?_) (hearlier first hfirst (by omega)) ?_
      · have hle := hmin 0 hsunday
        omega
      · rw [← hthenWeek (by omega)]
        exact hparity
  · intro hkeeps
    cases hkeeps with
    | left hours' => exact absurd hours' hours
    | consecutive hours' => exact absurd hours' hours
    | skipped hours' => exact absurd hours' hours
    | weekday _ htoday' => exact absurd htoday htoday'
    | sunday _ _ hall hnext =>
      obtain rfl := hall first hfirst
      rw [Int.add_zero]
      refine ⟨⟨⟨?_, hnext⟩, by omega⟩, ?_⟩
      · have hsunday : (dayOf now + 7) % 7 = 0 := by omega
        rw [hsunday]
        exact hfirst
      · rintro d ⟨⟨hd, hparity⟩, hcoming⟩
        have hsunday := hall _ hd
        by_contra hearlier
        obtain rfl : d = dayOf now := by omega
        exact hours hparity
    | longSunday _ _ hsunday hnext hthen =>
      have hone : 1 ≤ first := by
        by_contra hzero
        obtain rfl : first = 0 := by omega
        exact hsunday hfirst
      have hfirst' : (dayOf now + 7 + first) % 7 = first := by omega
      refine ⟨⟨⟨by rw [hfirst']; exact hfirst, by rw [hthenWeek hone, hthen]⟩, by omega⟩, ?_⟩
      rintro d ⟨⟨hd, hparity⟩, hcoming⟩
      by_contra hearlier
      rcases (by omega : d = dayOf now ∨ dayOf now < d ∧ d ≤ dayOf now + 7 ∨ dayOf now + 7 < d)
        with rfl | hweek | hweek
      · exact hours hparity
      · rw [isoWeek_congr (by omega : (d - 1) / 7 = (dayOf now + 7 - 1) / 7)] at hparity
        exact hnext hparity
      · have hle := hmin _ hd
        omega

/-- From another day of a week between. -/
theorem keepsWeeks_of_weekday {parity first : ℤ} (hours : isoWeek (dayOf now) % 2 ≠ parity)
    (htoday : dayOf now % 7 ≠ 0) (hdays : ∀ d ∈ days, 0 ≤ d ∧ d ≤ 6) (hfirst : first ∈ days)
    (hmin : ∀ d ∈ days, first ≤ d) :
    IsLeast {d | (SelectedDay days d ∧ isoWeek d % 2 = parity) ∧ comingDay now hour minute ≤ d}
        (dayOf now + (7 - dayOf now % 7) + first) ↔ KeepsWeeks days parity now hour minute := by
  have hbounds := hdays first hfirst
  obtain ⟨hfrom, hto⟩ := dayOf_le_comingDay now hour minute
  have hselected : ∀ d, SelectedDay days d ↔ d % 7 ∈ days := fun d => by
    rw [SelectedDay, sunday_first]
  have hfirst' : (dayOf now + (7 - dayOf now % 7) + first) % 7 = first := by omega
  have hnextWeek : 1 ≤ first →
      isoWeek (dayOf now + (7 - dayOf now % 7) + first) = isoWeek (dayOf now + 7) := by
    intro hone
    exact isoWeek_congr (by omega)
  simp only [hselected]
  constructor
  · rintro ⟨⟨⟨-, hparity⟩, -⟩, hleast⟩
    have hone : 1 ≤ first := by
      by_contra hzero
      have hsame : isoWeek (dayOf now + (7 - dayOf now % 7) + first) = isoWeek (dayOf now) :=
        isoWeek_congr (by omega)
      rw [hsame] at hparity
      exact hours hparity
    refine .weekday hours htoday (fun hsunday => ?_) ?_
    · have hle := hmin 0 hsunday
      omega
    · rw [← hnextWeek hone]
      exact hparity
  · intro hkeeps
    cases hkeeps with
    | left hours' => exact absurd hours' hours
    | consecutive hours' => exact absurd hours' hours
    | skipped hours' => exact absurd hours' hours
    | sunday _ htoday' => exact absurd htoday' htoday
    | longSunday _ htoday' => exact absurd htoday' htoday
    | weekday _ _ hsunday hnext =>
      have hone : 1 ≤ first := by
        by_contra hzero
        obtain rfl : first = 0 := by omega
        exact hsunday hfirst
      refine ⟨⟨⟨by rw [hfirst']; exact hfirst, by rw [hnextWeek hone, hnext]⟩, by omega⟩, ?_⟩
      rintro d ⟨⟨hd, hparity⟩, hcoming⟩
      by_contra hearlier
      by_cases hweek : (d - 1) / 7 = (dayOf now - 1) / 7
      · rw [isoWeek_congr hweek] at hparity
        exact hours hparity
      · have hle := hmin _ hd
        omega

end ChannelManager.Schedules
