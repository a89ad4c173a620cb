import ChannelManager.Stats.RollupKept
import ChannelManager.Lib.EveryPoint

/-!
# The rollups over whole runs

Polls, resets and nightly runs come in any order, and a run of the task may raise anywhere. Whatever
day the markers have come to is in the tables as the whole of its rows was, whether they are still
there or not, and no row is deleted before its day is in both.
-/

namespace ChannelManager.Stats

section Night

variable {faults : Faults} {config : RollupConfig} {nowMs : ℤ} {name : RollupName}
variable {written : List SessionTelemetry} {since : ℤ} {db db' : Tables}

theorem wp_execute {α : Type} {site : Site} {f : Tables → α × Tables} {s : Connection}
    {post : α → Connection → Prop} {fail : String → Connection → Prop}
    (hpost : faults site = none → post (f s.working).1 { s with working := (f s.working).2 })
    (hfail : ∀ e, faults site = some e → fail e s) : (execute faults site f).wp post fail s := by
  unfold execute
  cases hsite : faults site with
  | none => exact hpost hsite
  | some e => exact hfail e hsite

/-- A statement and its commit: either what it did is there, or nothing is. -/
theorem wp_transact {site site' : Site} {f : Tables → Tables} {post : Unit → Connection → Prop}
    {fail : String → Connection → Prop} (hpost : post () (.fresh (f db)))
    (hfail : ∀ e working, fail e ⟨db, working⟩) :
    (execute faults site fun db => ((), f db)).wp (fun _ => (commit faults site').wp post fail) fail
      (.fresh db) := by
  refine wp_execute (fun _ => ?_) fun e _ => hfail e db
  unfold commit
  cases faults site' with
  | none => exact hpost
  | some e => exact hfail e (f db)

theorem wp_transact_then {α : Type} {site site' : Site} {f : Tables → Tables}
    {rest : Eff Connection α} {post : α → Connection → Prop} {fail : String → Connection → Prop}
    (hpost : rest.wp post fail (.fresh (f db))) (hfail : ∀ e working, fail e ⟨db, working⟩) :
    (do
      execute faults site fun db => ((), f db)
      commit faults site'
      rest).wp post fail (.fresh db) := by
  have hboth := @wp_transact faults db site site' f (fun _ => rest.wp post fail) fail hpost hfail
  rw [Eff.wp_bind]
  apply Eff.wp_mono hboth _ fun _ _ hs => hs
  intro _ s hs
  rwa [Eff.wp_bind]

/-- Some days have been rolled up, and no marker moved. -/
structure Underway (written : List SessionTelemetry) (since today : ℤ) (db db' : Tables) : Prop where
  kept : Kept written since today db'
  telemetry : db'.telemetry = db.telemetry
  marker : ∀ name, db'.readMarker name = db.readMarker name

/-- One marker may have moved. -/
structure Settled (written : List SessionTelemetry) (since today : ℤ) (name : RollupName)
    (db db' : Tables) : Prop where
  kept : Kept written since today db'
  telemetry : db'.telemetry = db.telemetry
  marker : ∀ name', name' ≠ name → db'.readMarker name' = db.readMarker name'

/-- The rows of the days that a run can come to have been come to. -/
def Reached (config : RollupConfig) (today : ℤ) (name : RollupName) (db db' : Tables) : Prop :=
  ∀ row ∈ db.telemetry, row.day < today →
    (∀ start, db.startDay name = some start → row.day < start + config.maxDaysPerRun.toNat) →
    db'.Passed name row.day

theorem wp_rollDays {today : ℤ} {days : List ℤ}
    (hdays : ∀ day ∈ days, day < today ∧ ¬db.Passed name day)
    (h : Underway written since today db db') :
    (Eff.each (fun day => do
        execute faults (.rollUp name day) fun db => ((), db.rollUp day name)
        commit faults (.commitDay name day)) days).wp
      (fun _ s => ∃ db'', s = .fresh db'' ∧ Underway written since today db db'' ∧
        (∀ d, since ≤ d → d ∈ days → db''.Holds d (rowsOfDay d written) name) ∧
        ∀ d, since ≤ d → db'.Holds d (rowsOfDay d written) name →
          db''.Holds d (rowsOfDay d written) name)
      (fun _ s => Underway written since today db s.committed) (.fresh db') := by
  induction days generalizing db' with
  | nil => exact ⟨db', rfl, h, fun _ _ hd => absurd hd List.not_mem_nil, fun _ _ hd => hd⟩
  | cons day days ih =>
    obtain ⟨hday, hnot⟩ := hdays day (by simp)
    have hpending : ¬db'.Passed name day := (Kept.passed_congr (h.marker name) day).not.mpr hnot
    have hnext : Underway written since today db (db'.rollUp day name) :=
      { kept := h.kept.rollUp hday hpending
        telemetry := by simpa using h.telemetry
        marker := by simpa using h.marker }
    have hstays : ∀ d, since ≤ d → db'.Holds d (rowsOfDay d written) name →
        (db'.rollUp day name).Holds d (rowsOfDay d written) name := by
      intro d hd hholds
      by_cases hsame : d = day
      · subst hsame
        exact h.kept.holds_rollUp hpending hd
      · exact (Tables.holds_rollUp_ne (.inl hsame)).mpr hholds
    rw [Eff.each, Eff.wp_bind, Eff.wp_bind]
    refine wp_transact ?_ fun _ _ => h
    apply Eff.wp_mono (ih (fun d hd => hdays d (by simp [hd])) hnext) _ fun _ _ hs => hs
    rintro _ s ⟨db'', hs, hunderway, hall, hrest⟩
    refine ⟨db'', hs, hunderway, fun d hsince hd => ?_, fun d hsince hd =>
      hrest d hsince (hstays d hsince hd)⟩
    rcases List.mem_cons.mp hd with rfl | hd
    · exact hrest d hsince (h.kept.holds_rollUp hpending hsince)
    · exact hall d hsince hd

theorem Underway.refl {today : ℤ} (h : Kept written since today db) :
    Underway written since today db db := ⟨h, rfl, fun _ => rfl⟩

theorem Underway.writeMarker {today : ℤ} {marker : RollupState}
    (h : Underway written since today db db')
    (hpast : ∀ m, marker.lastCompletedDay = some m → m < today)
    (hforward : ∀ d, db.Passed name d → ∃ m, marker.lastCompletedDay = some m ∧ d ≤ m)
    (hholds : ∀ m, marker.lastCompletedDay = some m → ∀ d, since ≤ d → d ≤ m →
      db'.Holds d (rowsOfDay d written) name) :
    Settled written since today name db (db'.writeMarker name marker) where
  kept := h.kept.writeMarker hpast
    (fun d hd => hforward d ((Kept.passed_congr (h.marker name) d).mp hd)) hholds
  telemetry := h.telemetry
  marker name' hname := (Tables.readMarker_writeMarker_ne _ hname).trans (h.marker name')

/-- The marker as it was says nothing new. -/
theorem Underway.sameMarker {today : ℤ} {marker : RollupState}
    (h : Underway written since today db db')
    (hsame : marker.lastCompletedDay = db.readMarker name) :
    Settled written since today name db (db'.writeMarker name marker) := by
  have hpassed : ∀ m, marker.lastCompletedDay = some m → ∀ d, d ≤ m → db'.Passed name d :=
    fun m hm d hd => ⟨m, (h.marker name).trans (hsame ▸ hm), hd⟩
  apply h.writeMarker
  · exact fun m hm => h.kept.behind name m (hpassed m hm m le_rfl)
  · exact fun d ⟨m, hm, hd⟩ => ⟨m, hsame.trans hm, hd⟩
  · exact fun m hm d hsince hd => h.kept.rolled name d hsince (hpassed m hm d hd)

/-- What the `try` block of a rollup does, from the start day on. -/
theorem wp_rollUpFrom {start : Option ℤ} (hstart : db.startDay name = start)
    (h : Kept written since (nowMs / dayMs) db) :
    (rollUpFrom faults config nowMs name (db.readMarker name) start).wp
      (fun _ s => ∃ db', s = .fresh db' ∧ Settled written since (nowMs / dayMs) name db db' ∧
        Reached config (nowMs / dayMs) name db db')
      (fun _ s => Underway written since (nowMs / dayMs) db s.committed) (.fresh db) := by
  have hmark : ∀ {marker : RollupState} {outcome : RollupOutcome} {db'},
      Underway written since (nowMs / dayMs) db db' →
      Settled written since (nowMs / dayMs) name db (db'.writeMarker name marker) →
      Reached config (nowMs / dayMs) name db (db'.writeMarker name marker) →
      (do
        writeMarker faults (.writeMarker name) name marker
        commit faults (.commitMarker name)
        return outcome : Eff Connection RollupOutcome).wp
        (fun _ s => ∃ db', s = .fresh db' ∧ Settled written since (nowMs / dayMs) name db db' ∧
          Reached config (nowMs / dayMs) name db db')
        (fun _ s => Underway written since (nowMs / dayMs) db s.committed) (.fresh db') :=
    fun hunderway hsettled hreached =>
      wp_transact_then ⟨_, rfl, hsettled, hreached⟩ fun _ _ => hunderway
  unfold rollUpFrom
  cases start with
  | none =>
    have hnone := Tables.startDay_eq_none hstart
    apply hmark (.refl h) ((Underway.refl h).sameMarker hnone.1.symm)
    intro row hrow
    simp [hnone.2] at hrow
  | some start =>
    have hdays : ∀ row ∈ db.telemetry, row.day < nowMs / dayMs →
        (∀ start, db.startDay name = some start → row.day < start + config.maxDaysPerRun.toNat) →
        row.day < start ∨ row.day ∈ daysBetween start (nowMs / dayMs) config.maxDaysPerRun.toNat := by
      intro row _ hpast hreach
      have hlt := hreach start hstart
      rw [mem_daysBetween]
      omega
    dsimp only
    cases hlatest : (daysBetween start (nowMs / dayMs) config.maxDaysPerRun.toNat).getLast? with
    | none =>
      apply hmark (.refl h) ((Underway.refl h).sameMarker rfl)
      intro row hrow hpast hreach
      have hnil := List.getLast?_eq_none_iff.mp hlatest
      have hlt : row.day < start := by simpa [hnil] using hdays row hrow hpast hreach
      have hbare : ¬∀ row' ∈ db.telemetry, row'.day ≠ row.day := fun hno => hno row hrow rfl
      obtain ⟨m, hm, hle⟩ := (Tables.passed_or_bare hstart hlt).resolve_right hbare
      exact ⟨m, (Tables.readMarker_writeMarker _).trans hm, hle⟩
    | some latest =>
      have hlast := mem_daysBetween.mp (List.mem_of_getLast? hlatest)
      have hpending : ∀ day ∈ daysBetween start (nowMs / dayMs) config.maxDaysPerRun.toNat,
          day < nowMs / dayMs ∧ ¬db.Passed name day := by
        intro day hday
        have hmem := mem_daysBetween.mp hday
        exact ⟨hmem.2.1, fun hd => (hd.lt_startDay hstart).not_ge hmem.1⟩
      rw [Eff.wp_bind]
      apply Eff.wp_mono (wp_rollDays hpending (.refl h)) _ fun _ _ hs => hs
      rintro _ s ⟨db', rfl, hunderway, hholds, hstays⟩
      apply hmark hunderway
      · apply hunderway.writeMarker
        · intro m hm
          obtain rfl : latest = m := by simpa using hm
          exact hlast.2.1
        · intro d hd
          have hlt := hd.lt_startDay hstart
          exact ⟨latest, rfl, by omega⟩
        · intro m hm d hsince hle
          obtain rfl : latest = m := by simpa using hm
          by_cases hd : d < start
          · exact hstays d hsince (h.holds_before_start hstart hsince hd)
          · exact hholds d hsince (mem_daysBetween.mpr (by omega))
      · intro row hrow hpast hreach
        refine ⟨latest, Tables.readMarker_writeMarker _, ?_⟩
        rcases hdays row hrow hpast hreach with hlt | hmem
        · omega
        · exact le_getLast_daysBetween hlatest hmem

theorem wp_rollUpPendingDays (h : Kept written since (nowMs / dayMs) db) :
    (rollUpPendingDays faults config nowMs name).wp
      (fun _ s => ∃ db', s = .fresh db' ∧ Settled written since (nowMs / dayMs) name db db' ∧
        Reached config (nowMs / dayMs) name db db')
      (fun _ s => Underway written since (nowMs / dayMs) db s.committed) (.fresh db) := by
  unfold rollUpPendingDays readMarker
  rw [Eff.wp_bind]
  refine wp_execute (fun _ => ?_) fun _ _ => .refl h
  have hfrom := fun start hstart =>
    @wp_rollUpFrom faults config nowMs name written since db start hstart h
  simp only [Connection.fresh]
  cases hmarker : db.readMarker name with
  | some m =>
    rw [hmarker] at hfrom
    exact hfrom _ (by simp [Tables.startDay, hmarker])
  | none =>
    rw [hmarker] at hfrom
    rw [Eff.wp_bind]
    refine wp_execute (fun _ => ?_) fun _ _ => .refl h
    exact hfrom _ (by simp [Tables.startDay, hmarker])

/-- A rollup that raised has its marker where it was, unless it could write one but not read it. -/
theorem wp_recordFailure {message : String} {s : Connection}
    (hread : faults (.rereadMarker name) = none ∨ faults (.writeFailure name) ≠ none ∨
      faults (.commitFailure name) ≠ none)
    (h : Underway written since (nowMs / dayMs) db s.committed) :
    (recordFailure faults nowMs name message).wp
      (fun outcome s => outcome.status = .failure ∧
        Settled written since (nowMs / dayMs) name db s.committed) (fun _ _ => False) s := by
  have hsettled : Settled written since (nowMs / dayMs) name db s.committed :=
    ⟨h.kept, h.telemetry, fun name' _ => h.marker name'⟩
  have hwrite : ∀ marker : RollupState, (marker.lastCompletedDay = db.readMarker name ∨
      faults (.writeFailure name) ≠ none ∨ faults (.commitFailure name) ≠ none) →
      (tryCatch (do
        writeMarker faults (.writeFailure name) name marker
        commit faults (.commitFailure name)) fun _ => rollback).wp
        (fun _ s => Settled written since (nowMs / dayMs) name db s.committed) (fun _ _ => False)
        (.fresh s.committed) := by
    intro marker hmarker
    rw [Eff.wp_tryCatch, Eff.wp_bind]
    unfold writeMarker commit
    refine wp_execute (fun hwritten => ?_) fun _ _ => hsettled
    cases hcommit : faults (.commitFailure name) with
    | some e => exact hsettled
    | none => exact h.sameMarker (hmarker.resolve_right (by simp [hwritten, hcommit]))
  unfold recordFailure
  rw [Eff.wp_bind]
  change Eff.wp _ _ _ (Connection.fresh s.committed)
  rw [Eff.wp_bind, Eff.wp_tryCatch]
  unfold readMarker
  refine wp_execute (fun _ => ?_) fun e he => ?_
  · rw [Eff.wp_bind]
    exact Eff.wp_mono (hwrite _ (.inl (h.marker name))) (fun _ _ hs => ⟨rfl, hs⟩) fun _ _ hs => hs
  · rw [Eff.wp_pure, Eff.wp_bind]
    refine Eff.wp_mono (hwrite _ (.inr ?_)) (fun _ _ hs => ⟨rfl, hs⟩) fun _ _ hs => hs
    exact hread.resolve_left (by simp [he])

/-- A rollup on its connection. One that succeeded has come to all the days it can come to. -/
theorem wp_runRollup {s : Connection} (h : Kept written since (nowMs / dayMs) s.committed)
    (hread : faults (.rereadMarker name) = none ∨ faults (.writeFailure name) ≠ none ∨
      faults (.commitFailure name) ≠ none) :
    (runRollup faults config nowMs name).wp
      (fun outcome s' => Settled written since (nowMs / dayMs) name s.committed s'.committed ∧
        (outcome.status = .success →
          Reached config (nowMs / dayMs) name s.committed s'.committed))
      (fun _ _ => False) s := by
  unfold runRollup
  rw [Eff.wp_bind]
  change Eff.wp _ _ _ (Connection.fresh s.committed)
  rw [Eff.wp_tryCatch]
  apply Eff.wp_mono (wp_rollUpPendingDays h)
  · intro outcome s' ⟨db', hs, hsettled, hreached⟩
    subst hs
    exact ⟨hsettled, fun _ => hreached⟩
  · intro message s' hunderway
    apply Eff.wp_mono (wp_recordFailure hread hunderway) _ fun _ _ hs => hs
    exact fun outcome _ ⟨hstatus, hsettled⟩ => ⟨hsettled, fun hok => by simp [hstatus] at hok⟩

/-- Every marker has come to the day of every row that is old enough to go. -/
def Covered (cutoffMs : ℤ) (db : Tables) : Prop :=
  ∀ row ∈ db.telemetry, row.observedAt < cutoffMs → ∀ name, db.Passed name row.day

theorem Kept.deleteBatch {today cutoffMs : ℤ} (batchSize : ℕ) (h : Kept written since today db)
    (hcovered : Covered cutoffMs db) :
    Kept written since today
        (db.deleteRows ((db.pruneBatch cutoffMs batchSize).map (·.id))) ∧
      Covered cutoffMs (db.deleteRows ((db.pruneBatch cutoffMs batchSize).map (·.id))) := by
  constructor
  · apply h.deleteRows
    intro row hrow hid
    obtain ⟨row', hrow', hsame⟩ := List.mem_map.mp hid
    have hold := List.mem_filter.mp (List.mem_of_mem_take hrow')
    obtain rfl := List.inj_on_of_nodup_map h.ids hold.1 hrow hsame
    exact hcovered row' hrow (of_decide_eq_true hold.2)
  · exact fun row hrow hold => hcovered row (List.mem_of_mem_filter hrow) hold

theorem wp_pruneRawRows {today cutoffMs : ℤ} {batchSize : ℕ} (fuel batch total : ℕ)
    (h : Kept written since today db) (hcovered : Covered cutoffMs db) :
    (pruneRawRows faults cutoffMs batchSize fuel batch total).wp
      (fun _ s => Kept written since today s.committed)
      (fun _ s => Kept written since today s.committed) (.fresh db) := by
  induction fuel generalizing db batch total with
  | zero => exact h
  | succ fuel ih =>
    unfold pruneRawRows
    rw [Eff.wp_bind]
    refine wp_execute (fun _ => ?_) fun _ _ => h
    rw [Eff.wp_bind]
    unfold commit
    cases faults (.commitBatch batch) with
    | some e => exact h
    | none =>
      obtain ⟨hkept, hstill⟩ := h.deleteBatch batchSize hcovered
      change Eff.wp (if _ then _ else _) _ _ (Connection.fresh _)
      rw [Eff.wp_ite]
      exact ⟨fun _ => hkept, fun _ => ih _ _ hkept hstill⟩

/-- What the prune deletes when it meets no error. -/
def Tables.aged (db : Tables) (cutoffMs : ℤ) : List SessionTelemetry :=
  db.telemetry.filter (·.observedAt < cutoffMs)

section Batches

variable {cutoffMs : ℤ} {batchSize : ℕ}

theorem mem_batchIds (hids : (db.telemetry.map (·.id)).Nodup) {row : SessionTelemetry}
    (hrow : row ∈ db.telemetry) :
    row.id ∈ (db.pruneBatch cutoffMs batchSize).map (·.id) ↔
      row ∈ db.pruneBatch cutoffMs batchSize := by
  constructor
  · intro hmem
    obtain ⟨row', hrow', hid⟩ := List.mem_map.mp hmem
    have hthere := List.mem_of_mem_filter (List.mem_of_mem_take hrow')
    exact List.inj_on_of_nodup_map hids hthere hrow hid ▸ hrow'
  · exact List.mem_map_of_mem

theorem filter_not_mem_take {α : Type} [DecidableEq α] {l : List α} (h : l.Nodup) (n : ℕ) :
    l.filter (· ∉ l.take n) = l.drop n := by
  have happend : ∀ {a b : List α}, (a ++ b).Nodup → (a ++ b).filter (· ∉ a) = b := by
    intro a b hab
    have hdisjoint := List.disjoint_of_nodup_append hab
    rw [List.filter_append, List.filter_eq_nil_iff.mpr (by simp), List.nil_append,
      List.filter_eq_self.mpr]
    intro x hx
    simpa using fun hmem => hdisjoint hmem hx
  have hsplit := happend (a := l.take n) (b := l.drop n) (by rwa [List.take_append_drop])
  rwa [List.take_append_drop] at hsplit

/-- A batch leaves the aged rows that it does not take. -/
theorem aged_deleteBatch (cutoffMs : ℤ) (batchSize : ℕ) (hids : (db.telemetry.map (·.id)).Nodup) :
    (db.deleteRows ((db.pruneBatch cutoffMs batchSize).map (·.id))).aged cutoffMs =
      (db.aged cutoffMs).drop batchSize := by
  have hnodup : (db.aged cutoffMs).Nodup := hids.of_map.filter _
  rw [← filter_not_mem_take hnodup, Tables.aged, Tables.deleteRows, List.filter_filter,
    Tables.aged, List.filter_filter]
  apply List.filter_congr
  intro row hrow
  simp only [mem_batchIds hids hrow]
  rw [Bool.and_comm]
  rfl

theorem unaged_deleteBatch (cutoffMs : ℤ) (batchSize : ℕ) (hids : (db.telemetry.map (·.id)).Nodup) :
    (db.deleteRows ((db.pruneBatch cutoffMs batchSize).map (·.id))).telemetry.filter
        (cutoffMs ≤ ·.observedAt) = db.telemetry.filter (cutoffMs ≤ ·.observedAt) := by
  rw [Tables.deleteRows, List.filter_filter]
  apply List.filter_congr
  intro row hrow
  rw [Bool.eq_iff_iff]
  simp only [Bool.and_eq_true, decide_eq_true_eq, mem_batchIds hids hrow, and_iff_left_iff_imp]
  intro hle hmem
  have hlt := of_decide_eq_true (List.mem_filter.mp (List.mem_of_mem_take hmem)).2
  omega

/-- A batch that takes all aged rows leaves the others. -/
theorem deleteBatch_last (hids : (db.telemetry.map (·.id)).Nodup)
    (hlast : (db.aged cutoffMs).length ≤ batchSize) :
    db.deleteRows ((db.pruneBatch cutoffMs batchSize).map (·.id)) =
      { db with telemetry := db.telemetry.filter (cutoffMs ≤ ·.observedAt) } := by
  have hnone : (db.deleteRows ((db.pruneBatch cutoffMs batchSize).map (·.id))).aged cutoffMs = [] := by
    rw [aged_deleteBatch cutoffMs batchSize hids, List.drop_eq_nil_iff]
    exact hlast
  have hall : (db.deleteRows ((db.pruneBatch cutoffMs batchSize).map (·.id))).telemetry =
      db.telemetry.filter (cutoffMs ≤ ·.observedAt) := by
    rw [← unaged_deleteBatch cutoffMs batchSize hids, eq_comm, List.filter_eq_self]
    intro row hrow
    simpa using List.filter_eq_nil_iff.mp hnone row hrow
  rw [← hall]
  rfl

/-- One batch of a prune that meets no error. -/
theorem pruneRawRows_succ
    (hfaults : ∀ batch, faults (.deleteBatch batch) = none ∧ faults (.commitBatch batch) = none)
    (fuel batch total : ℕ) :
    pruneRawRows faults cutoffMs batchSize (fuel + 1) batch total (.fresh db) =
      if (db.pruneBatch cutoffMs batchSize).length < batchSize then
        (.ok (total + (db.pruneBatch cutoffMs batchSize).length),
          .fresh (db.deleteRows ((db.pruneBatch cutoffMs batchSize).map (·.id))))
      else
        pruneRawRows faults cutoffMs batchSize fuel (batch + 1)
          (total + (db.pruneBatch cutoffMs batchSize).length)
          (.fresh (db.deleteRows ((db.pruneBatch cutoffMs batchSize).map (·.id)))) := by
  rw [pruneRawRows]
  simp only [execute, commit, hfaults batch]
  change (if (db.pruneBatch cutoffMs batchSize).length < batchSize then pure _
    else pruneRawRows _ _ _ _ _ _ : Eff Connection ℕ) _ = _
  split_ifs <;> rfl

/-- Batch by batch the prune deletes exactly the aged rows, and ends. -/
theorem pruneRawRows_eq (hbatch : 0 < batchSize)
    (hfaults : ∀ batch, faults (.deleteBatch batch) = none ∧ faults (.commitBatch batch) = none)
    (hids : (db.telemetry.map (·.id)).Nodup) {fuel : ℕ} (hfuel : (db.aged cutoffMs).length < fuel)
    (batch total : ℕ) :
    pruneRawRows faults cutoffMs batchSize fuel batch total (.fresh db) =
      (.ok (total + (db.aged cutoffMs).length),
        .fresh { db with telemetry := db.telemetry.filter (cutoffMs ≤ ·.observedAt) }) := by
  induction fuel generalizing db batch total with
  | zero => omega
  | succ fuel ih =>
    have hlength : (db.pruneBatch cutoffMs batchSize).length =
        min batchSize (db.aged cutoffMs).length := List.length_take
    rw [pruneRawRows_succ hfaults, hlength]
    split_ifs with hlast
    · have htotal : min batchSize (db.aged cutoffMs).length = (db.aged cutoffMs).length := by omega
      rw [htotal, deleteBatch_last hids (by omega)]
    · have haged := aged_deleteBatch cutoffMs batchSize hids
      have htotal : total + min batchSize (db.aged cutoffMs).length +
          ((db.aged cutoffMs).length - batchSize) = total + (db.aged cutoffMs).length := by omega
      rw [ih (hids.sublist (List.filter_sublist.map _)), haged,
        unaged_deleteBatch cutoffMs batchSize hids, List.length_drop, htotal]
      · rfl
      · rw [haged, List.length_drop]
        omega

/-- Three old rows and a new one. -/
def fourRows : Tables where
  telemetry := [0, 1, 2, 3].map fun n =>
    ⟨n, "s1", if n = 2 then 500 else 10 * n, none, none, "news", 0, 0, 0, 0, 0, 10⟩
  nextId := 4

theorem pruneRawRows_eq_fourRows :
    pruneRawRows (fun _ => none) 100 2 5 0 0 (.fresh fourRows) =
      (.ok (0 + (fourRows.aged 100).length),
        .fresh { fourRows with telemetry := fourRows.telemetry.filter (100 ≤ ·.observedAt) }) :=
  pruneRawRows_eq (by decide) (fun _ => ⟨rfl, rfl⟩) (by decide) (by decide) 0 0

end Batches

theorem wp_runPrune {today : ℤ} {s : Connection} (h : Kept written since today s.committed)
    (hcovered : Covered (nowMs - config.rawRetentionDays * dayMs) s.committed) :
    (runPrune faults config nowMs).wp (fun _ s => Kept written since today s.committed)
      (fun _ _ => False) s := by
  unfold runPrune
  rw [Eff.wp_bind]
  change Eff.wp _ _ _ (Connection.fresh s.committed)
  rw [Eff.wp_bind, Eff.wp_get, Eff.wp_tryCatch, Eff.wp_bind]
  apply Eff.wp_mono (wp_pruneRawRows _ _ _ h hcovered)
  · intro _ s' hs'
    rw [Eff.wp_bind]
    exact wp_execute (fun _ => hs') fun _ _ => hs'
  · exact fun _ _ hs' => hs'

/-- A run comes to every day whose rows it is to delete. -/
def InReach (config : RollupConfig) (nowMs : ℤ) (db : Tables) : Prop :=
  ∀ row ∈ db.telemetry, row.observedAt < nowMs - config.rawRetentionDays * dayMs →
    ∀ name start, db.startDay name = some start → row.day < start + config.maxDaysPerRun.toNat

/-- A night comes to all it deletes if the nights are not too far apart. -/
theorem inReach_of_gap (h : ∀ name start, db.startDay name = some start →
    nowMs / dayMs < start + config.maxDaysPerRun.toNat + config.rawRetentionDays) :
    InReach config nowMs db := by
  intro row _ hcut name start hstart
  have hgap := h name start hstart
  unfold SessionTelemetry.day
  unfold dayMs at hcut hgap ⊢
  omega

/-- A marker that cannot be read after a failure cannot be written either. -/
def MarkersHold (faults : Faults) : Prop :=
  ∀ name, faults (.rereadMarker name) = none ∨ faults (.writeFailure name) ≠ none ∨
    faults (.commitFailure name) ≠ none

theorem startDay_congr (htelemetry : db'.telemetry = db.telemetry)
    (hmarker : db'.readMarker name = db.readMarker name) : db'.startDay name = db.startDay name := by
  simp only [Tables.startDay, Tables.firstDayWithRawRows, htelemetry, hmarker]

/-- A night keeps what the tables keep, wherever it raises. -/
theorem wp_rollupAndPrune (h : Kept written since (nowMs / dayMs) db)
    (hretention : 1 ≤ config.rawRetentionDays) (hreach : InReach config nowMs db)
    (hmarkers : MarkersHold faults) :
    (rollupAndPrune faults config nowMs).wp
      (fun _ s => Kept written since (nowMs / dayMs) s.committed) (fun _ _ => False)
      (.fresh db) := by
  unfold rollupAndPrune
  rw [Eff.wp_bind]
  apply Eff.wp_mono (wp_runRollup h (hmarkers .userDaily)) _ fun _ _ hs => hs
  intro user s₁ ⟨hs₁, huser⟩
  rw [Eff.wp_bind]
  apply Eff.wp_mono (wp_runRollup hs₁.kept (hmarkers .providerDaily)) _ fun _ _ hs => hs
  intro provider s₂ ⟨hs₂, hprovider⟩
  rw [Eff.wp_ite]
  refine ⟨fun hok => ?_, fun _ => hs₂.kept⟩
  rw [Eff.wp_bind]
  have hold : ∀ row : SessionTelemetry, row.observedAt < nowMs - config.rawRetentionDays * dayMs →
      row.day < nowMs / dayMs := by
    intro row hrow
    unfold SessionTelemetry.day
    unfold dayMs at hrow ⊢
    omega
  have hcovered : Covered (nowMs - config.rawRetentionDays * dayMs) s₂.committed := by
    intro row hrow hcut name
    rw [hs₂.telemetry] at hrow
    have hrow₀ : row ∈ db.telemetry := hs₁.telemetry ▸ hrow
    cases name with
    | userDaily =>
      rw [Kept.passed_congr (hs₂.marker _ (by decide))]
      exact huser hok.1 row hrow₀ (hold row hcut) (hreach row hrow₀ hcut .userDaily)
    | providerDaily =>
      apply hprovider hok.2 row hrow (hold row hcut)
      rw [startDay_congr hs₁.telemetry (hs₁.marker _ (by decide))]
      exact hreach row hrow₀ hcut .providerDaily
  exact Eff.wp_mono (wp_runPrune hs₂.kept hcovered) (fun _ _ hs => hs) fun _ _ hs => hs

end Night

/-- A poll writes one row, under the next id. -/
def Tables.insertRow (db : Tables) (row : SessionTelemetry) : Tables :=
  { db with telemetry := db.telemetry ++ [{ row with id := db.nextId }], nextId := db.nextId + 1 }

/-- The rows of one poll, with the time it began. -/
def Tables.writeTelemetry (db : Tables) (observedAt : ℤ) (rows : List SessionTelemetry) : Tables :=
  rows.foldl (fun db row => db.insertRow { row with observedAt := observedAt }) db

/-- What happens to the tables: a poll, a reset of the statistics (or a change of the server), a run
of the task. -/
inductive Event where
  | poll (observedAt : ℤ) (rows : List SessionTelemetry)
  | resetStats (nowMs : ℤ)
  | rollup (config : RollupConfig) (nowMs : ℤ) (faults : Faults)

def Event.day : Event → ℤ
  | .poll observedAt _ => observedAt / dayMs
  | .resetStats nowMs => nowMs / dayMs
  | .rollup _ nowMs _ => nowMs / dayMs

/-- The tables, with what they do not tell: every row written so far, the day of the last event and
the first day after the last reset. -/
structure History where
  db : Tables := {}
  written : List SessionTelemetry := []
  since : ℤ := 0
  today : ℤ := 0

def History.after (h : History) (e : Event) : History :=
  match e with
  | .poll observedAt rows =>
    let db := h.db.writeTelemetry observedAt rows
    { h with db := db, written := h.written ++ db.telemetry.drop h.db.telemetry.length,
             today := e.day }
  | .resetStats _ =>
    { h with db := { h.db with telemetry := [] }, since := e.day + 1, today := e.day }
  | .rollup config nowMs faults =>
    { h with db := (rollupAndPrune faults config nowMs (.fresh h.db)).2.committed, today := e.day }

/-- Time does not run back to an earlier day, rows are kept a day at least, a night's run comes to
all it deletes, and no marker is lost. -/
def History.Admits (h : History) (e : Event) : Prop :=
  h.today ≤ e.day ∧
    match e with
    | .rollup config nowMs faults =>
      1 ≤ config.rawRetentionDays ∧ InReach config nowMs h.db ∧ MarkersHold faults
    | _ => True

/-- Every event of the run is admitted where it comes. -/
def History.AdmitsAll : History → List Event → Prop
  | _, [] => True
  | h, e :: rest => h.Admits e ∧ (h.after e).AdmitsAll rest

/-- A day that a marker has come to is in its table as all rows ever written of it, and a row is
gone only after both markers have come to its day. -/
structure History.Faithful (h : History) : Prop where
  rolled : ∀ name day, h.since ≤ day → h.db.Passed name day →
    h.db.Holds day (rowsOfDay day h.written) name
  pruned : ∀ row ∈ h.written, h.since ≤ row.day → row ∉ h.db.telemetry →
    ∀ name, h.db.Passed name row.day

section Runs

variable {written : List SessionTelemetry} {since today : ℤ} {db : Tables}

@[simp] theorem Tables.holds_insertRow {d : ℤ} {rows : List SessionTelemetry} {name : RollupName}
    (row : SessionTelemetry) : (db.insertRow row).Holds d rows name ↔ db.Holds d rows name := by
  cases name <;> exact Iff.rfl

theorem Tables.holds_clear {d : ℤ} {rows : List SessionTelemetry} {name : RollupName} :
    { db with telemetry := [] }.Holds d rows name ↔ db.Holds d rows name := by
  cases name <;> exact Iff.rfl

theorem rowsOfDay_append_ne {d : ℤ} (rows : List SessionTelemetry) {row : SessionTelemetry}
    (h : row.day ≠ d) : rowsOfDay d (rows ++ [row]) = rowsOfDay d rows := by
  rw [rowsOfDay_append, List.append_right_eq_self, rowsOfDay_eq_nil]
  simpa using h

/-- A row of today comes to what is there of today, which no table holds yet. -/
theorem Kept.insertRow (h : Kept written since today db) (row : SessionTelemetry)
    (hday : row.day = today) :
    Kept (written ++ [{ row with id := db.nextId }]) since today (db.insertRow row) where
  ids := by
    have hnew : db.nextId ∉ db.telemetry.map (·.id) := by
      intro hmem
      obtain ⟨row', hrow', hid⟩ := List.mem_map.mp hmem
      exact absurd (h.fresh row' hrow') (by omega)
    rw [Tables.insertRow, List.map_append]
    exact h.ids.append (List.nodup_singleton _) (by simpa using hnew)
  fresh row' hrow' := by
    rcases List.mem_append.mp hrow' with hrow' | hrow'
    · exact (h.fresh row' hrow').trans (Nat.lt_succ_self _)
    · obtain rfl := List.mem_singleton.mp hrow'
      exact Nat.lt_succ_self _
  past row' hrow' := by
    rcases List.mem_append.mp hrow' with hrow' | hrow'
    · exact h.past row' hrow'
    · obtain rfl := List.mem_singleton.mp hrow'
      exact hday.le
  behind := h.behind
  ahead name d hd := (Tables.holds_insertRow row).mpr (h.ahead name d hd)
  either name d hd := by
    rw [Tables.holds_insertRow, Tables.holds_insertRow]
    by_cases hsame : d = today
    · exact .inl (h.ahead name d hsame.ge)
    · rw [rowsOfDay_append_ne written (by exact fun heq => hsame (heq.symm.trans hday))]
      exact h.either name d hd
  rolled name d hsince hd := by
    have hlt := h.behind name d hd
    rw [Tables.holds_insertRow,
      rowsOfDay_append_ne written (by exact fun heq => hlt.ne (heq.symm.trans hday))]
    exact h.rolled name d hsince hd
  pending name d hsince hd := by
    rw [Tables.insertRow, rowsOfDay_append, rowsOfDay_append, h.pending name d hsince hd]

theorem Kept.writeTelemetry {observedAt : ℤ} (rows : List SessionTelemetry)
    (h : Kept written since (observedAt / dayMs) db) :
    ∃ new, (db.writeTelemetry observedAt rows).telemetry = db.telemetry ++ new ∧
      Kept (written ++ new) since (observedAt / dayMs) (db.writeTelemetry observedAt rows) := by
  induction rows generalizing written db with
  | nil => exact ⟨[], by simp [Tables.writeTelemetry], by simpa [Tables.writeTelemetry] using h⟩
  | cons row rows ih =>
    have hrow := h.insertRow { row with observedAt := observedAt } rfl
    obtain ⟨new, htelemetry, hkept⟩ := ih hrow
    rw [List.append_assoc] at hkept
    refine ⟨_, ?_, hkept⟩
    rw [← List.append_assoc]
    exact htelemetry

/-- A reset takes rows away, of days that are no longer asked about. -/
theorem Kept.resetStats (h : Kept written since today db) :
    Kept written (today + 1) today { db with telemetry := [] } where
  ids := List.nodup_nil
  fresh _ hrow := absurd hrow List.not_mem_nil
  past := h.past
  behind := h.behind
  ahead name d hd := Tables.holds_clear.mpr (h.ahead name d hd)
  either name d hd := .inl (Tables.holds_clear.mpr (h.ahead name d (by omega)))
  rolled name d hsince hd := absurd (h.behind name d hd) (by omega)
  pending name d hsince _ := by
    symm
    rw [rowsOfDay_nil, rowsOfDay_eq_nil]
    intro row hrow hday
    have hle := h.past row hrow
    omega

theorem Kept.start : Kept [] 0 0 {} where
  ids := List.nodup_nil
  fresh _ hrow := absurd hrow List.not_mem_nil
  past _ hrow := absurd hrow List.not_mem_nil
  behind _ _ hd := by
    obtain ⟨m, hm, _⟩ := hd
    cases hm
  ahead name _ _ := by cases name <;> exact fun _ => rfl
  either name _ _ := by cases name <;> exact .inl fun _ => rfl
  rolled _ _ _ hd := by
    obtain ⟨m, hm, _⟩ := hd
    cases hm
  pending _ _ _ _ := rfl

theorem History.kept_after {h : History} {e : Event} (hkept : Kept h.written h.since h.today h.db)
    (hadmits : h.Admits e) :
    Kept (h.after e).written (h.after e).since (h.after e).today (h.after e).db := by
  have ⟨htime, hevent⟩ := hadmits
  have hnow := hkept.mono htime
  cases e with
  | poll observedAt rows =>
    obtain ⟨new, htelemetry, hnew⟩ := Kept.writeTelemetry rows hnow
    simpa [History.after, Event.day, htelemetry] using hnew
  | resetStats nowMs => exact hnow.resetStats
  | rollup config nowMs faults =>
    have ⟨hretention, hreach, hmarkers⟩ := hevent
    exact Eff.wp_state (Eff.wp_mono (wp_rollupAndPrune hnow hretention hreach hmarkers)
      (fun _ _ hs => hs) fun _ _ hs => hs.elim)

theorem Kept.faithful {h : History} (hkept : Kept h.written h.since h.today h.db) : h.Faithful where
  rolled := hkept.rolled
  pruned row hrow hsince hgone name := by
    by_contra hnot
    have hmem := mem_rowsOfDay.mpr ⟨hrow, rfl⟩
    rw [← hkept.pending name row.day hsince hnot] at hmem
    exact hgone (mem_rowsOfDay.mp hmem).1

theorem kept_everywhere {run : List Event} (h : History.AdmitsAll {} run) :
    EveryPoint History.after (fun h => Kept h.written h.since h.today h.db) {} run := by
  have hall : ∀ {run : List Event} {h : History}, Kept h.written h.since h.today h.db →
      h.AdmitsAll run →
      EveryPoint History.after (fun h => Kept h.written h.since h.today h.db) h run := by
    intro run
    induction run with
    | nil => exact fun hkept _ => hkept
    | cons e rest ih =>
      exact fun hkept hadmits => ⟨hkept, ih (History.kept_after hkept hadmits.1) hadmits.2⟩
  exact hall Kept.start h

/-- Two polls; the first night cannot write what it selected for the providers, the second deletes
all rows. -/
def twoNights : List Event :=
  let row : SessionTelemetry := ⟨0, "s1", 0, some 4, none, "news", 900, 0, 1, 0, 0, 10000⟩
  [.poll 0 [row, { row with sessionId := "s2" }],
    .rollup {} dayMs fun site =>
      if site = .rollUp .providerDaily 0 then some "disk is full" else none,
    .poll (dayMs + 10000) [row],
    .rollup {} (40 * dayMs) fun _ => none]

theorem inReach_of_starts {db : Tables} (user provider : Option ℤ) {config : RollupConfig} {nowMs : ℤ}
    (huser : db.startDay .userDaily = user) (hprovider : db.startDay .providerDaily = provider)
    (h : ∀ start ∈ user.toList ++ provider.toList,
      nowMs / dayMs < start + config.maxDaysPerRun.toNat + config.rawRetentionDays) :
    InReach config nowMs db := by
  apply inReach_of_gap
  intro name start hstart
  apply h
  cases name <;> simp_all

theorem twoNights_admitted : History.AdmitsAll {} twoNights := by
  refine ⟨⟨by decide, trivial⟩, ⟨by decide, by decide, ?_, ?_⟩, ⟨by decide, trivial⟩,
    ⟨by decide, by decide, ?_, fun _ => .inl rfl⟩, trivial⟩
  · exact inReach_of_starts (some 0) (some 0) (by decide +kernel)
      (by decide +kernel) (by decide)
  · intro name
    cases name <;> decide
  · exact inReach_of_starts (some 1) (some 0) (by decide +kernel)
      (by decide +kernel) (by decide)

example :
    let db := (twoNights.foldl History.after {}).db
    (db.telemetry, db.userDaily.items, db.readMarker .providerDaily) =
      ([], [(((4, "news"), 0), ⟨10, 1⟩), (((4, "news"), 1), ⟨10, 1⟩)], some 39) := by
  decide +kernel

end Runs

end ChannelManager.Stats
