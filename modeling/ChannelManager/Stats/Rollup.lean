import ChannelManager.Lib.Effect
import ChannelManager.Lib.Grouping
import Mathlib.Data.Int.Notation
import Mathlib.Data.String.Basic
import Mathlib.Data.List.Dedup
import Mathlib.Algebra.Order.Ring.Int

/-!
# The nightly rollup of telemetry

Each poll leaves raw rows. Once a night the complete days are aggregated into two daily tables, a
marker for each of them says how far that went, and raw rows past their retention are deleted if
both went well. The clock counts milliseconds, a day is the number of days since the epoch.
-/

namespace ChannelManager.Stats

def dayMs : ℤ := 24 * 3600 * 1000

structure SessionTelemetry where
  id : ℕ
  sessionId : String
  observedAt : ℤ
  userId : Option ℤ
  providerId : Option ℤ
  channelId : String
  bytesDelta : ℤ
  bufferEventCount : ℤ
  reconnectEventCount : ℤ
  errorEventCount : ℤ
  switchEventCount : ℤ
  pollIntervalMs : ℤ
  deriving DecidableEq, Repr

/-- The UTC day of a row. -/
def SessionTelemetry.day (row : SessionTelemetry) : ℤ := row.observedAt / dayMs

/-- The raw rows of a day, by the bounds the queries give. -/
def rowsOfDay (day : ℤ) (telemetry : List SessionTelemetry) : List SessionTelemetry :=
  telemetry.filter fun row => day * dayMs ≤ row.observedAt ∧ row.observedAt < day * dayMs + dayMs

structure UserDaily where
  watchSeconds : ℤ
  sessionCount : ℕ
  deriving DecidableEq, Repr

structure ProviderDaily where
  watchSeconds : ℤ
  bytesDeltaSum : ℤ
  bufferEventCount : ℤ
  reconnectEventCount : ℤ
  errorEventCount : ℤ
  switchEventCount : ℤ
  deriving DecidableEq, Repr

/-- `MAX` over the rows of a group. -/
def longestInterval (rows : List SessionTelemetry) : ℤ :=
  (rows.map (·.pollIntervalMs)).max?.getD 0

/-- `MIN` over the rows of a group. -/
def firstSession (rows : List SessionTelemetry) : String :=
  (rows.map (·.sessionId)).min?.getD ""

section Selected

variable {κ : Type} [DecidableEq κ]

/-- The rows of a poll under one key: the concurrent clients of a channel, mostly. -/
def perPoll (key : SessionTelemetry → Option κ) (rows : List SessionTelemetry) :
    Dict (κ × ℤ) (List SessionTelemetry) :=
  groupedBy (fun row => (key row).map (·, row.observedAt)) rows

/-- The polls of a key. -/
def pollsByKey (key : SessionTelemetry → Option κ) (rows : List SessionTelemetry) :
    Dict κ (List ((κ × ℤ) × List SessionTelemetry)) :=
  groupedBy (fun poll => some poll.1.1) (perPoll key rows).items

/-- One interval for each poll, however many rows it left. -/
def watchSeconds (polls : List ((κ × ℤ) × List SessionTelemetry)) : ℤ :=
  (polls.map fun poll => longestInterval poll.2).sum.tdiv 1000

end Selected

/-- A row without a user is nobody's. -/
def userKey (row : SessionTelemetry) : Option (ℤ × String) := row.userId.map (·, row.channelId)

/-- What `_rollup_user_daily` selects of a day. -/
def userDaily (rows : List SessionTelemetry) : Dict (ℤ × String) UserDaily :=
  (pollsByKey userKey rows).mapValues fun _ polls =>
    { watchSeconds := watchSeconds polls
      sessionCount := (polls.map fun poll => firstSession poll.2).dedup.length }

/-- `COALESCE(CAST(provider_id AS TEXT), 'unknown')`. -/
def providerBucket (row : SessionTelemetry) : String :=
  match row.providerId with
  | none => "unknown"
  | some provider => toString provider

def providerKey (row : SessionTelemetry) : Option (String × String) :=
  some (providerBucket row, row.channelId)

/-- What `_rollup_provider_daily` selects of a day: the intervals of the polls as for a user, and
the sums of the counters over all rows. -/
def providerDaily (rows : List SessionTelemetry) : Dict (String × String) ProviderDaily :=
  let all := groupedBy providerKey rows
  (pollsByKey providerKey rows).mapValues fun key polls =>
    let rows := (all.get? key).getD []
    { watchSeconds := watchSeconds polls
      bytesDeltaSum := (rows.map (·.bytesDelta)).sum
      bufferEventCount := (rows.map (·.bufferEventCount)).sum
      reconnectEventCount := (rows.map (·.reconnectEventCount)).sum
      errorEventCount := (rows.map (·.errorEventCount)).sum
      switchEventCount := (rows.map (·.switchEventCount)).sum }

inductive RollupName where
  | userDaily
  | providerDaily
  deriving DecidableEq, Repr

def RollupName.text : RollupName → String
  | .userDaily => "user_daily"
  | .providerDaily => "provider_daily"

inductive RunStatus where
  | success
  | failure
  deriving DecidableEq, Repr

/-- A row of `telemetry_rollup_state`. -/
structure RollupState where
  lastCompletedDay : Option ℤ
  lastRunAtMs : ℤ
  lastRunStatus : RunStatus
  lastRunError : Option String
  deriving DecidableEq, Repr

/-- The tables the task works on. -/
structure Tables where
  telemetry : List SessionTelemetry := []
  nextId : ℕ := 0
  userDaily : Dict ((ℤ × String) × ℤ) UserDaily := ∅
  providerDaily : Dict ((String × String) × ℤ) ProviderDaily := ∅
  state : Dict RollupName RollupState := ∅

/-- `INSERT OR REPLACE` of what was selected of a day. -/
def replaceDay {κ ν : Type} [DecidableEq κ] (table : Dict (κ × ℤ) ν) (day : ℤ) (selected : Dict κ ν) :
    Dict (κ × ℤ) ν :=
  selected.items.foldl (fun table e => table.set (e.1, day) e.2) table

/-- `_rollup_user_daily` and `_rollup_provider_daily`. -/
def Tables.rollUp (db : Tables) (day : ℤ) : RollupName → Tables
  | .userDaily =>
    { db with userDaily := replaceDay db.userDaily day
                (Stats.userDaily (rowsOfDay day db.telemetry)) }
  | .providerDaily =>
    { db with providerDaily := replaceDay db.providerDaily day
                (Stats.providerDaily (rowsOfDay day db.telemetry)) }

def Tables.readMarker (db : Tables) (name : RollupName) : Option ℤ :=
  (db.state.get? name).bind (·.lastCompletedDay)

def Tables.writeMarker (db : Tables) (name : RollupName) (marker : RollupState) : Tables :=
  { db with state := db.state.set name marker }

def Tables.firstDayWithRawRows (db : Tables) : Option ℤ :=
  (db.telemetry.map (·.observedAt)).min?.map (· / dayMs)

/-- The days from `start` that come before `endExclusive`, at most `cap` of them. -/
def daysBetween (start endExclusive : ℤ) : ℕ → List ℤ
  | 0 => []
  | cap + 1 => if start < endExclusive then start :: daysBetween (start + 1) endExclusive cap else []

/-- The rows one `DELETE` of the prune takes. -/
def Tables.pruneBatch (db : Tables) (cutoffMs : ℤ) (batchSize : ℕ) : List SessionTelemetry :=
  (db.telemetry.filter (·.observedAt < cutoffMs)).take batchSize

def Tables.deleteRows (db : Tables) (ids : List ℕ) : Tables :=
  { db with telemetry := db.telemetry.filter (·.id ∉ ids) }

/-- The places where a run of the task asks something of the database. -/
inductive Site where
  | readMarker (name : RollupName)
  | firstDay (name : RollupName)
  | rollUp (name : RollupName) (day : ℤ)
  | commitDay (name : RollupName) (day : ℤ)
  | writeMarker (name : RollupName)
  | commitMarker (name : RollupName)
  | rereadMarker (name : RollupName)
  | writeFailure (name : RollupName)
  | commitFailure (name : RollupName)
  | deleteBatch (batch : ℕ)
  | commitBatch (batch : ℕ)
  | countRows
  deriving DecidableEq, Repr

/-- A connection: what other connections see, and what this one has made of it. -/
structure Connection where
  committed : Tables
  working : Tables

def Connection.fresh (db : Tables) : Connection := ⟨db, db⟩

structure RollupConfig where
  rawRetentionDays : ℤ := 30
  maxDaysPerRun : ℤ := 60
  pruneBatchSize : ℕ := 50000

/-- Where a run raises, and with which message. A process that dies is a run that raises at every
place from some point on. -/
abbrev Faults := Site → Option String

section Run

variable (faults : Faults)

def execute {α : Type} (site : Site) (statement : Tables → α × Tables) : Eff Connection α :=
  match faults site with
  | some message => throw message
  | none => modifyGet fun s => ((statement s.working).1, { s with working := (statement s.working).2 })

def commit (site : Site) : Eff Connection Unit :=
  match faults site with
  | some message => throw message
  | none => modify fun s => { s with committed := s.working }

def rollback : Eff Connection Unit := modify fun s => { s with working := s.committed }

def readMarker (site : Site) (name : RollupName) : Eff Connection (Option ℤ) :=
  execute faults site fun db => (db.readMarker name, db)

def writeMarker (site : Site) (name : RollupName) (marker : RollupState) : Eff Connection Unit :=
  execute faults site fun db => ((), db.writeMarker name marker)

structure RollupOutcome where
  status : RunStatus
  days : ℕ := 0
  error : Option String := none
  deriving DecidableEq, Repr

variable (config : RollupConfig) (nowMs : ℤ)

/-- Roll up the days from the start day on, and move the marker over them. -/
def rollUpFrom (name : RollupName) (lastDone startDay : Option ℤ) :
    Eff Connection RollupOutcome := do
  let success (lastDone : Option ℤ) : RollupState := ⟨lastDone, nowMs, .success, none⟩
  match startDay with
  | none =>
    writeMarker faults (.writeMarker name) name (success none)
    commit faults (.commitMarker name)
    return { status := .success }
  | some start =>
    let days := daysBetween start (nowMs / dayMs) config.maxDaysPerRun.toNat
    match days.getLast? with
    | none =>
      writeMarker faults (.writeMarker name) name (success lastDone)
      commit faults (.commitMarker name)
      return { status := .success }
    | some latest =>
      Eff.each (fun day => do
        execute faults (.rollUp name day) fun db => ((), db.rollUp day name)
        commit faults (.commitDay name day)) days
      writeMarker faults (.writeMarker name) name (success (some latest))
      commit faults (.commitMarker name)
      return { status := .success, days := days.length }

/-- The `try` block of one rollup. -/
def rollUpPendingDays (name : RollupName) : Eff Connection RollupOutcome := do
  let lastDone ← readMarker faults (.readMarker name) name
  let startDay ←
    match lastDone with
    | some day => pure (some (day + 1))
    | none => execute faults (.firstDay name) fun db => (db.firstDayWithRawRows, db)
  rollUpFrom faults config nowMs name lastDone startDay

/-- What is left of a rollup that raised. -/
def recordFailure (name : RollupName) (message : String) : Eff Connection RollupOutcome := do
  rollback
  let lastDone ← tryCatch (readMarker faults (.rereadMarker name) name) fun _ => pure none
  tryCatch
    (do
      writeMarker faults (.writeFailure name) name ⟨lastDone, nowMs, .failure, some message⟩
      commit faults (.commitFailure name))
    fun _ => rollback
  return { status := .failure, error := some message }

/-- One rollup, on a connection of its own. -/
def runRollup (name : RollupName) : Eff Connection RollupOutcome := do
  modify fun s => Connection.fresh s.committed
  tryCatch (rollUpPendingDays faults config nowMs name) (recordFailure faults nowMs name)

/-- Delete batches until one is not full. Each full one deletes something, so there are fewer of
them than there are rows. -/
def pruneRawRows (cutoffMs : ℤ) (batchSize : ℕ) : ℕ → ℕ → ℕ → Eff Connection ℕ
  | 0, _, total => pure total
  | fuel + 1, batch, total => do
    let deleted ← execute faults (.deleteBatch batch) fun db =>
      ((db.pruneBatch cutoffMs batchSize).length,
        db.deleteRows ((db.pruneBatch cutoffMs batchSize).map (·.id)))
    commit faults (.commitBatch batch)
    if deleted < batchSize then
      return total + deleted
    else
      pruneRawRows cutoffMs batchSize fuel (batch + 1) (total + deleted)

/-- The second pass, on a connection of its own. -/
def runPrune : Eff Connection ℕ := do
  modify fun s => Connection.fresh s.committed
  let db := (← get).working
  tryCatch
    (do
      let pruned ← pruneRawRows faults (nowMs - config.rawRetentionDays * dayMs)
        config.pruneBatchSize (db.telemetry.length + 1) 0 0
      let _total ← execute faults .countRows fun db => (db.telemetry.length, db)
      return pruned)
    fun _ => do
      rollback
      return 0

structure TaskResult where
  success : Bool
  message : String
  totalItems : ℕ := 2
  successCount : ℕ
  failedCount : ℕ := 0
  error : Option String := none
  rowsPruned : ℕ
  deriving DecidableEq, Repr

/-- A night's run. -/
def rollupAndPrune : Eff Connection TaskResult := do
  let user ← runRollup faults config nowMs .userDaily
  let provider ← runRollup faults config nowMs .providerDaily
  if user.status = .success ∧ provider.status = .success then
    let pruned ← runPrune faults config nowMs
    return {
      success := true
      message := s!"Rolled up user_daily={user.days} provider_daily={provider.days} days; " ++
        s!"pruned {pruned} raw rows."
      successCount := 2
      rowsPruned := pruned }
  else
    let failed := [(RollupName.userDaily, user), (.providerDaily, provider)].filter
      (·.2.status ≠ .success)
    let first := ((failed.filterMap (·.2.error)).find? (· ≠ "")).getD "unknown"
    let names := ", ".intercalate (failed.map fun e => "'" ++ e.1.text ++ "'")
    return {
      success := false
      message := "Rollup failed for [" ++ names ++ "]; prune skipped to avoid data loss. " ++
        s!"First error: {first}"
      successCount := 2 - failed.length
      failedCount := failed.length
      error := some first
      rowsPruned := 0 }

end Run

end ChannelManager.Stats
