import ChannelManager.Stats.Rollup

/-!
# What the rollups keep

A day that a marker has come to is in its table as all of its rows were, and no row of a later day
is gone. Each statement of the task keeps that.
-/

namespace ChannelManager.Stats

section ReplaceDay

variable {κ ν : Type} [DecidableEq κ]

/-- The table has, for the day, what was selected of it. -/
def HoldsDay (table : Dict (κ × ℤ) ν) (day : ℤ) (selected : Dict κ ν) : Prop :=
  ∀ k, table.get? (k, day) = selected.get? k

theorem get?_foldl_setDay (day : ℤ) (es : List (κ × ν)) (hnodup : (es.map Prod.fst).Nodup)
    (table : Dict (κ × ℤ) ν) (k : κ) (d : ℤ) :
    (es.foldl (fun table e => table.set (e.1, day) e.2) table).get? (k, d) =
      if d = day then (findEntry k es).or (table.get? (k, d)) else table.get? (k, d) := by
  induction es generalizing table with
  | nil => simp [findEntry]
  | cons e es ih =>
    rw [List.map_cons, List.nodup_cons] at hnodup
    rw [List.foldl_cons, ih hnodup.2, Dict.get?_set, findEntry]
    by_cases hd : d = day
    · by_cases hk : e.1 = k
      · have hnone : findEntry k es = none := by
          rw [← Option.not_isSome_iff_eq_none, findEntry_isSome]
          exact hk ▸ hnodup.1
        simp [hd, hk, hnone]
      · simp [hd, hk]
    · simp [hd, Ne.symm hd]

theorem get?_replaceDay (table : Dict (κ × ℤ) ν) (day : ℤ) (selected : Dict κ ν) (k : κ) (d : ℤ) :
    (replaceDay table day selected).get? (k, d) =
      if d = day then (selected.get? k).or (table.get? (k, d)) else table.get? (k, d) :=
  get?_foldl_setDay day selected.items selected.nodup_keys table k d

/-- A day that was blank, or held the same already, holds what replaces it. -/
theorem HoldsDay.replaceDay {table : Dict (κ × ℤ) ν} {day : ℤ} {selected : Dict κ ν}
    (h : HoldsDay table day ∅ ∨ HoldsDay table day selected) :
    HoldsDay (Stats.replaceDay table day selected) day selected := by
  intro k
  rw [get?_replaceDay, if_pos rfl]
  rcases h with h | h <;> rw [h k] <;> cases selected.get? k <;> rfl

theorem holdsDay_replaceDay_ne {table : Dict (κ × ℤ) ν} {day d : ℤ} {selected selected' : Dict κ ν}
    (h : d ≠ day) : HoldsDay (replaceDay table day selected) d selected' ↔
      HoldsDay table d selected' := by
  simp only [HoldsDay, get?_replaceDay, if_neg h]

end ReplaceDay

theorem rowsOfDay_eq (day : ℤ) (rows : List SessionTelemetry) :
    rowsOfDay day rows = rows.filter (·.day = day) := by
  apply List.filter_congr
  intro row _
  rw [decide_eq_decide, SessionTelemetry.day, dayMs]
  omega

@[simp] theorem rowsOfDay_nil (day : ℤ) : rowsOfDay day [] = [] := rfl

theorem rowsOfDay_append (day : ℤ) (rows rows' : List SessionTelemetry) :
    rowsOfDay day (rows ++ rows') = rowsOfDay day rows ++ rowsOfDay day rows' :=
  List.filter_append ..

theorem mem_rowsOfDay {day : ℤ} {rows : List SessionTelemetry} {row : SessionTelemetry} :
    row ∈ rowsOfDay day rows ↔ row ∈ rows ∧ row.day = day := by
  simp [rowsOfDay_eq]

theorem rowsOfDay_eq_nil {day : ℤ} {rows : List SessionTelemetry} :
    rowsOfDay day rows = [] ↔ ∀ row ∈ rows, row.day ≠ day := by
  simp [rowsOfDay_eq]

namespace Tables

variable {db : Tables} {day d : ℤ} {rows : List SessionTelemetry} {name name' : RollupName}

/-- The table of a rollup has, for the day, what these rows come to. -/
def Holds (db : Tables) (day : ℤ) (rows : List SessionTelemetry) : RollupName → Prop
  | .userDaily => HoldsDay db.userDaily day (Stats.userDaily rows)
  | .providerDaily => HoldsDay db.providerDaily day (Stats.providerDaily rows)

@[simp] theorem telemetry_rollUp : (db.rollUp day name).telemetry = db.telemetry := by
  cases name <;> rfl

@[simp] theorem nextId_rollUp : (db.rollUp day name).nextId = db.nextId := by
  cases name <;> rfl

@[simp] theorem readMarker_rollUp : (db.rollUp day name).readMarker name' = db.readMarker name' := by
  cases name <;> rfl

theorem holds_rollUp (h : db.Holds day [] name ∨ db.Holds day (rowsOfDay day db.telemetry) name) :
    (db.rollUp day name).Holds day (rowsOfDay day db.telemetry) name := by
  cases name with
  | userDaily => exact .replaceDay h
  | providerDaily => exact .replaceDay h

theorem holds_rollUp_ne (h : d ≠ day ∨ name' ≠ name) :
    (db.rollUp day name).Holds d rows name' ↔ db.Holds d rows name' := by
  cases name <;> cases name' <;> first
    | exact Iff.rfl
    | exact holdsDay_replaceDay_ne (h.resolve_right (not_not.mpr rfl))

@[simp] theorem telemetry_writeMarker (marker : RollupState) :
    (db.writeMarker name marker).telemetry = db.telemetry := rfl

@[simp] theorem nextId_writeMarker (marker : RollupState) :
    (db.writeMarker name marker).nextId = db.nextId := rfl

@[simp] theorem holds_writeMarker (marker : RollupState) :
    (db.writeMarker name marker).Holds d rows name' ↔ db.Holds d rows name' := by
  cases name' <;> exact Iff.rfl

@[simp] theorem readMarker_writeMarker (marker : RollupState) :
    (db.writeMarker name marker).readMarker name = marker.lastCompletedDay := by
  simp [readMarker, writeMarker]

theorem readMarker_writeMarker_ne (marker : RollupState) (h : name' ≠ name) :
    (db.writeMarker name marker).readMarker name' = db.readMarker name' := by
  simp [readMarker, writeMarker, Dict.get?_set_ne _ _ h.symm]

@[simp] theorem holds_deleteRows (ids : List ℕ) :
    (db.deleteRows ids).Holds d rows name ↔ db.Holds d rows name := by
  cases name <;> exact Iff.rfl

@[simp] theorem readMarker_deleteRows (ids : List ℕ) :
    (db.deleteRows ids).readMarker name = db.readMarker name := rfl

/-- The first day a run rolls up. -/
def startDay (db : Tables) (name : RollupName) : Option ℤ :=
  match db.readMarker name with
  | some day => some (day + 1)
  | none => db.firstDayWithRawRows

/-- The marker of a rollup has come to the day. -/
def Passed (db : Tables) (name : RollupName) (day : ℤ) : Prop :=
  ∃ m, db.readMarker name = some m ∧ day ≤ m

theorem firstDay_le {first : ℤ} (h : db.firstDayWithRawRows = some first) {row : SessionTelemetry}
    (hrow : row ∈ db.telemetry) : first ≤ row.day := by
  obtain ⟨least, hleast, rfl⟩ := Option.map_eq_some_iff.mp h
  have hle := (List.min?_eq_some_iff.mp hleast).2 _ (List.mem_map_of_mem hrow)
  exact Int.ediv_le_ediv (by decide) hle

theorem telemetry_eq_nil (h : db.firstDayWithRawRows = none) : db.telemetry = [] := by
  simpa [firstDayWithRawRows] using h

theorem startDay_eq_none (h : db.startDay name = none) :
    db.readMarker name = none ∧ db.telemetry = [] := by
  unfold startDay at h
  cases hmarker : db.readMarker name with
  | none => exact ⟨rfl, telemetry_eq_nil (by simpa [hmarker] using h)⟩
  | some m => simp [hmarker] at h

theorem Passed.lt_startDay {start : ℤ} (h : db.Passed name d)
    (hstart : db.startDay name = some start) : d < start := by
  obtain ⟨m, hm, hle⟩ := h
  have hnext : m + 1 = start := by simpa [startDay, hm] using hstart
  omega

/-- The days before the start day have been come to, or there are no rows of them. -/
theorem passed_or_bare {start : ℤ} (hstart : db.startDay name = some start) (hlt : d < start) :
    db.Passed name d ∨ ∀ row ∈ db.telemetry, row.day ≠ d := by
  unfold startDay at hstart
  cases hmarker : db.readMarker name with
  | none =>
    refine .inr fun row hrow => ?_
    have hle := firstDay_le (by simpa [hmarker] using hstart) hrow
    omega
  | some m =>
    have hnext : m + 1 = start := by simpa [hmarker] using hstart
    exact .inl ⟨m, hmarker, by omega⟩

end Tables

/-- What the tables keep, on a day when all rows that were ever written are known. From `since` on
no reset has taken rows away. -/
structure Kept (written : List SessionTelemetry) (since today : ℤ) (db : Tables) : Prop where
  ids : (db.telemetry.map (·.id)).Nodup
  fresh : ∀ row ∈ db.telemetry, row.id < db.nextId
  past : ∀ row ∈ written, row.day ≤ today
  behind : ∀ name d, db.Passed name d → d < today
  ahead : ∀ name d, today ≤ d → db.Holds d [] name
  either : ∀ name d, since ≤ d → db.Holds d [] name ∨ db.Holds d (rowsOfDay d written) name
  rolled : ∀ name d, since ≤ d → db.Passed name d → db.Holds d (rowsOfDay d written) name
  pending : ∀ name d, since ≤ d → ¬db.Passed name d →
    rowsOfDay d db.telemetry = rowsOfDay d written

namespace Kept

variable {written : List SessionTelemetry} {since today day d : ℤ} {db : Tables} {name : RollupName}

theorem passed_congr {db db' : Tables} {name : RollupName}
    (h : db'.readMarker name = db.readMarker name) (d : ℤ) : db'.Passed name d ↔ db.Passed name d := by
  rw [Tables.Passed, Tables.Passed, h]

/-- A day that the marker has not come to holds its rows once it is rolled up. -/
theorem holds_rollUp (h : Kept written since today db) (hpending : ¬db.Passed name day)
    (hsince : since ≤ day) : (db.rollUp day name).Holds day (rowsOfDay day written) name := by
  have hrows := h.pending name day hsince hpending
  rw [← hrows]
  apply Tables.holds_rollUp
  rw [hrows]
  exact h.either name day hsince

/-- A run finds nothing to roll up before its start day. -/
theorem holds_before_start {start : ℤ} (h : Kept written since today db)
    (hstart : db.startDay name = some start) (hsince : since ≤ d) (hlt : d < start) :
    db.Holds d (rowsOfDay d written) name := by
  by_cases hd : db.Passed name d
  · exact h.rolled name d hsince hd
  · have hbare := rowsOfDay_eq_nil.mpr ((Tables.passed_or_bare hstart hlt).resolve_left hd)
    have hnone : rowsOfDay d written = [] := (h.pending name d hsince hd).symm.trans hbare
    simpa [hnone] using h.either name d hsince

theorem rollUp (h : Kept written since today db) (hday : day < today)
    (hpending : ¬db.Passed name day) : Kept written since today (db.rollUp day name) where
  ids := by simpa using h.ids
  fresh := by simpa using h.fresh
  past := h.past
  behind name' d hd := h.behind name' d (by simpa [Tables.Passed] using hd)
  ahead name' d hd := (Tables.holds_rollUp_ne (.inl (by omega))).mpr (h.ahead name' d hd)
  either name' d hd := by
    by_cases hsame : d = day ∧ name' = name
    · obtain ⟨rfl, rfl⟩ := hsame
      exact .inr (h.holds_rollUp hpending hd)
    · have hne : d ≠ day ∨ name' ≠ name := Decidable.not_and_iff_or_not.mp hsame
      simpa only [Tables.holds_rollUp_ne hne] using h.either name' d hd
  rolled name' d hd hpassed := by
    have hpassed' : db.Passed name' d := by simpa [Tables.Passed] using hpassed
    have hne : d ≠ day ∨ name' ≠ name := by
      by_contra hsame
      push Not at hsame
      exact hpending (hsame.1 ▸ hsame.2 ▸ hpassed')
    exact (Tables.holds_rollUp_ne hne).mpr (h.rolled name' d hd hpassed')
  pending name' d hd hnot := by
    simpa using h.pending name' d hd (by simpa [Tables.Passed] using hnot)

/-- A marker may only go forward, over days that hold their rows. -/
theorem writeMarker (h : Kept written since today db) {marker : RollupState}
    (hpast : ∀ m, marker.lastCompletedDay = some m → m < today)
    (hforward : ∀ d, db.Passed name d → ∃ m, marker.lastCompletedDay = some m ∧ d ≤ m)
    (hholds : ∀ m, marker.lastCompletedDay = some m → ∀ d, since ≤ d → d ≤ m →
      db.Holds d (rowsOfDay d written) name) :
    Kept written since today (db.writeMarker name marker) where
  ids := h.ids
  fresh := h.fresh
  past := h.past
  behind name' d hd := by
    by_cases hname : name' = name
    · subst hname
      obtain ⟨m, hm, hle⟩ := hd
      rw [Tables.readMarker_writeMarker] at hm
      exact hle.trans_lt (hpast m hm)
    · exact h.behind name' d ((passed_congr (Tables.readMarker_writeMarker_ne _ hname) d).mp hd)
  ahead name' d hd := (Tables.holds_writeMarker _).mpr (h.ahead name' d hd)
  either name' d hd := by simpa using h.either name' d hd
  rolled name' d hsince hd := by
    rw [Tables.holds_writeMarker]
    by_cases hname : name' = name
    · subst hname
      obtain ⟨m, hm, hle⟩ := hd
      rw [Tables.readMarker_writeMarker] at hm
      exact hholds m hm d hsince hle
    · exact h.rolled name' d hsince
        ((passed_congr (Tables.readMarker_writeMarker_ne _ hname) d).mp hd)
  pending name' d hsince hd := by
    refine h.pending name' d hsince (mt (fun hpassed => ?_) hd)
    by_cases hname : name' = name
    · subst hname
      simpa [Tables.Passed] using hforward d hpassed
    · exact (passed_congr (Tables.readMarker_writeMarker_ne _ hname) d).mpr hpassed

/-- Rows may go once every marker has come to their day. -/
theorem deleteRows (h : Kept written since today db) {ids : List ℕ}
    (hids : ∀ row ∈ db.telemetry, row.id ∈ ids → ∀ name, db.Passed name row.day) :
    Kept written since today (db.deleteRows ids) where
  ids := h.ids.sublist (List.filter_sublist.map _)
  fresh row hrow := h.fresh row (List.mem_of_mem_filter hrow)
  past := h.past
  behind := h.behind
  ahead name d hd := (Tables.holds_deleteRows ids).mpr (h.ahead name d hd)
  either name d hd := by simpa using h.either name d hd
  rolled name d hsince hd := (Tables.holds_deleteRows ids).mpr (h.rolled name d hsince hd)
  pending name d hsince hd := by
    rw [← h.pending name d hsince hd, rowsOfDay_eq, rowsOfDay_eq, Tables.deleteRows,
      List.filter_filter]
    apply List.filter_congr
    intro row hrow
    by_cases hday : row.day = d
    · have hkept : row.id ∉ ids := fun hmem => hd (hday ▸ hids row hrow hmem name)
      simp [hday, hkept]
    · simp [hday]

theorem mono (h : Kept written since today db) {today' : ℤ} (hle : today ≤ today') :
    Kept written since today' db :=
  { h with
    past := fun row hrow => (h.past row hrow).trans hle
    behind := fun name d hd => (h.behind name d hd).trans_le hle
    ahead := fun name d hd => h.ahead name d (hle.trans hd) }

end Kept

theorem mem_daysBetween {start endExclusive d : ℤ} {cap : ℕ} :
    d ∈ daysBetween start endExclusive cap ↔ start ≤ d ∧ d < endExclusive ∧ d < start + cap := by
  induction cap generalizing start with
  | zero =>
    simp only [daysBetween, List.not_mem_nil, false_iff, Nat.cast_zero]
    omega
  | succ cap ih =>
    rw [daysBetween]
    split_ifs with hstart
    · rw [List.mem_cons, ih, Nat.cast_succ]
      omega
    · simp only [List.not_mem_nil, false_iff]
      omega

/-- The last of the days is the latest of them. -/
theorem le_getLast_daysBetween {start endExclusive latest d : ℤ} {cap : ℕ}
    (h : (daysBetween start endExclusive cap).getLast? = some latest)
    (hd : d ∈ daysBetween start endExclusive cap) : d ≤ latest := by
  induction cap generalizing start with
  | zero => simp [daysBetween] at hd
  | succ cap ih =>
    rw [daysBetween] at h hd
    split_ifs at h hd with hstart
    · cases hrest : (daysBetween (start + 1) endExclusive cap).getLast? with
      | none => simp_all [List.getLast?_eq_none_iff.mp hrest]
      | some last =>
        have hlast : last = latest := by simpa [List.getLast?_cons, hrest] using h
        have hlater := (mem_daysBetween.mp (List.mem_of_getLast? hrest)).1
        rcases List.mem_cons.mp hd with rfl | hd
        · omega
        · exact ih (hlast ▸ hrest) hd
    · simp at h

end ChannelManager.Stats
