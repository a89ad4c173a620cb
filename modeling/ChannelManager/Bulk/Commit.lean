import ChannelManager.Bulk.Consolidate
import ChannelManager.Bulk.Validate

/-!
# A bulk commit from start to finish

`_run_bulk_commit`: validation, group creation, the operations in numbering order, the compensation
of a numbering plan that stopped part way, the journal and the accounting.
-/

namespace ChannelManager

variable {σ : Type}

/-- An operation with the index it was submitted under. -/
abbrev IndexedOp := ℕ × BulkOperation

/-- The channel and number of an edit that the execution order may move. -/
def numberingEdit? : BulkOperation → Option (ℤ × Option ℚ)
  | .updateChannel op =>
    if 0 ≤ op.channelId then op.data.channelNumber.map fun n => (op.channelId, n) else none
  | _ => none

/-- A maximal run of consecutive numbering edits on distinct channels, and the plan before it. -/
structure OrderState where
  plan : List IndexedOp := []
  run : List (IndexedOp × ℤ × Option ℚ) := []

/-- `flush_run`: the run in an order in which no channel moves onto a number still held. -/
def orderedRun (existingChannels : Dict ℤ Channel) (run : List (IndexedOp × ℤ × Option ℚ)) :
    List IndexedOp :=
  if run.length < 2 then run.map Prod.fst
  else
    let writes := run.map fun e =>
      { channelId := e.2.1
        name := displayName (((existingChannels.get? e.2.1).map (·.name)).getD "") e.2.1
        before := (existingChannels.get? e.2.1).bind (·.channelNumber)
        after := e.2.2 : NumberingWrite }
    (orderNumberingWrites writes).writes.filterMap fun w =>
      (run.find? (·.2.1 = w.channelId)).map Prod.fst

def OrderState.flush (existingChannels : Dict ℤ Channel) (st : OrderState) : OrderState where
  plan := st.plan ++ orderedRun existingChannels st.run

def orderStep (existingChannels : Dict ℤ Channel) (st : OrderState) (e : IndexedOp) : OrderState :=
  match numberingEdit? e.2 with
  | some edit =>
    if edit.1 ∈ st.run.map (·.2.1) then
      -- a second edit of a channel ends the run and is not part of the next one
      { st.flush existingChannels with plan := (st.flush existingChannels).plan ++ [e] }
    else { st with run := st.run ++ [(e, edit)] }
  | none => { st.flush existingChannels with plan := (st.flush existingChannels).plan ++ [e] }

/-- `_numbering_execution_order`. -/
def numberingExecutionOrder (operations : List BulkOperation) (existingChannels : Dict ℤ Channel) :
    List IndexedOp :=
  ((operations.zipIdx.map fun e => (e.2, e.1)).foldl (orderStep existingChannels) {} |>.flush
    existingChannels).plan

/-- The order of a run loses and adds nothing. -/
theorem orderedRun_perm (existingChannels : Dict ℤ Channel)
    {run : List (IndexedOp × ℤ × Option ℚ)} (hn : (run.map (·.2.1)).Nodup) :
    (orderedRun existingChannels run).Perm (run.map Prod.fst) := by
  have hfind : ∀ e ∈ run, run.find? (·.2.1 = e.2.1) = some e := by
    intro e he
    induction run with
    | nil => cases he
    | cons x xs ih =>
      have hn' := List.nodup_cons.mp hn
      cases he with
      | head => simp
      | tail _ he =>
        have hne : x.2.1 ≠ e.2.1 := fun h => hn'.1 (List.mem_map.mpr ⟨e, he, h.symm⟩)
        rw [List.find?_cons_of_neg (by simpa using hne)]
        exact ih hn'.2 he
  unfold orderedRun
  split
  · exact List.Perm.refl _
  · dsimp only
    refine ((orderNumberingWrites_perm _).filterMap _).trans ?_
    rw [List.filterMap_map]
    apply List.Perm.of_eq
    have hsome : ∀ e ∈ run, (run.find? (·.2.1 = e.2.1)).map Prod.fst = some e.1 := by
      intro e he
      rw [hfind e he]
      rfl
    rw [← List.filterMap_eq_map]
    exact List.filterMap_congr hsome

/-- What the scan has in hand: its plan and the run in progress are the operations seen. -/
theorem orderStep_perm (existingChannels : Dict ℤ Channel) (st : OrderState) (seen : List IndexedOp)
    (e : IndexedOp) (hn : (st.run.map (·.2.1)).Nodup)
    (hperm : (st.plan ++ st.run.map Prod.fst).Perm seen) :
    ((orderStep existingChannels st e).run.map (·.2.1)).Nodup ∧
      ((orderStep existingChannels st e).plan ++
        (orderStep existingChannels st e).run.map Prod.fst).Perm (seen ++ [e]) := by
  have hflush : ((st.flush existingChannels).plan ++ [e]).Perm (seen ++ [e]) :=
    (((orderedRun_perm existingChannels hn).append_left st.plan).trans hperm).append_right [e]
  unfold orderStep
  split
  · rename_i edit _
    split
    · exact ⟨List.nodup_nil, by simpa [OrderState.flush] using hflush⟩
    · rename_i hnew
      constructor
      · rw [List.map_append, List.nodup_append_comm]
        exact List.nodup_cons.mpr ⟨hnew, hn⟩
      · simpa [← List.append_assoc] using hperm.append_right [e]
  · exact ⟨List.nodup_nil, by simpa [OrderState.flush] using hflush⟩

/-- `_numbering_execution_order` only reorders. -/
theorem numberingExecutionOrder_perm (operations : List BulkOperation)
    (existingChannels : Dict ℤ Channel) :
    (numberingExecutionOrder operations existingChannels).Perm
      (operations.zipIdx.map fun e => (e.2, e.1)) := by
  have hscan : ∀ (todo : List IndexedOp) (st : OrderState) (seen : List IndexedOp),
      (st.run.map (·.2.1)).Nodup → (st.plan ++ st.run.map Prod.fst).Perm seen →
      ((todo.foldl (orderStep existingChannels) st).flush existingChannels).plan.Perm
        (seen ++ todo) := by
    intro todo
    induction todo with
    | nil =>
      intro st seen hn hperm
      rw [List.append_nil]
      exact ((orderedRun_perm existingChannels hn).append_left st.plan).trans hperm
    | cons e todo ih =>
      intro st seen hn hperm
      have hstep := orderStep_perm existingChannels st seen e hn hperm
      have hrest := ih _ _ hstep.1 hstep.2
      rw [List.append_assoc] at hrest
      exact hrest
  exact hscan _ {} [] List.nodup_nil (List.Perm.refl _)

theorem length_numberingExecutionOrder (operations : List BulkOperation)
    (existingChannels : Dict ℤ Channel) :
    (numberingExecutionOrder operations existingChannels).length = operations.length := by
  rw [(numberingExecutionOrder_perm operations existingChannels).length_eq]
  simp

def BulkOperation.typeName : BulkOperation → String
  | .updateChannel _ => "updateChannel"
  | .addStreamToChannel _ _ => "addStreamToChannel"
  | .removeStreamFromChannel _ _ => "removeStreamFromChannel"
  | .reorderChannelStreams _ _ => "reorderChannelStreams"
  | .bulkAssignChannelNumbers _ => "bulkAssignChannelNumbers"
  | .createChannel _ => "createChannel"
  | .deleteChannel _ => "deleteChannel"
  | .createGroup _ => "createGroup"
  | .deleteChannelGroup _ => "deleteChannelGroup"
  | .renameChannelGroup _ _ => "renameChannelGroup"
  | .setProfileMembership _ _ _ => "setProfileMembership"
  | .restoreChannelGroup _ => "restoreChannelGroup"
  | .clearStreamStats _ => "clearStreamStats"

def BulkOperation.streamId? : BulkOperation → Option ℤ
  | .addStreamToChannel _ x | .removeStreamFromChannel _ x => some x
  | _ => none

def BulkOperation.entityName? : BulkOperation → Option String
  | .createChannel op => some op.name
  | .createGroup name => some name
  | _ => none

/-- The error entry of an operation, without the two markers. -/
def errorDetails (ctx : BulkContext σ) (s : Exec σ) (e : IndexedOp) (error : String) : ErrorEntry where
  operationId := s!"op-{e.1}-" ++ e.2.typeName
  error := error
  operationType := some e.2.typeName
  channelId := e.2.channelId?
  channelName := e.2.channelId?.map fun c =>
    (ctx.tempChannelNames.get? c).getD
      (((s.existingChannels.get? c).map (·.name)).getD s!"Channel {c}")
  streamId := e.2.streamId?
  streamName := e.2.streamId?.map fun x => (ctx.existingStreams.get? x).getD s!"Stream {x}"
  entityName := e.2.entityName?

/-- The channel numbers a failed operation meant to write. -/
def intendedNumbers (s : Exec σ) : BulkOperation → List (ℤ × Option ℚ)
  | .updateChannel op =>
    op.data.channelNumber.toList.map fun n => (s.resolveId op.channelId, n)
  | .bulkAssignChannelNumbers op =>
    op.channelIds.zipIdx.map fun e => (s.resolveId e.1, some (op.start + e.2))
  | _ => []

/-- Note the numbers that were not written, unless the write had landed. -/
def noteUnwrittenNumbers (op : BulkOperation) (s : Exec σ) : Exec σ :=
  if s.numberingLanded then s
  else
    { s with
      compensator := (intendedNumbers s op).foldl
        (fun compensator e => compensator.recordFailed e.1 (s.channelNameOf e.1) e.2)
        s.compensator }

def addError (entry : ErrorEntry) (s : Exec σ) : Exec σ :=
  { s with result := { s.result with errors := s.result.errors ++ [entry] } }

/-- Close an operation that raised: applied all the same when its own write had landed. -/
def closeRaised (ctx : BulkContext σ) (e : IndexedOp) (error : String) : Eff (Exec σ) Unit := do
  modify (noteUnwrittenNumbers e.2)
  let s ← get
  if s.ledger.persisted then
    tellLedger (·.recordApplied true)
    note .appliedIncomplete
    modify (addError { errorDetails ctx s e error with applied := true })
  else
    tellLedger (·.recordFailed)
    note (.failed s.ledger.sideEffectsLanded)
    modify (addError
      { errorDetails ctx s e error with sideEffectsLanded := s.ledger.sideEffectsLanded })

/-- The `except` clause around an operation; says whether to go on. -/
def handleFailure (ctx : BulkContext σ) (e : IndexedOp) (error : String) : Eff (Exec σ) Bool := do
  closeRaised ctx e error
  if ctx.continueOnError then pure true
  else
    modify fun s => { s with ledger := s.ledger.abortRemaining }
    pure false

/-- The channel numbers an operation has set. -/
def numbersSet (s : Exec σ) : BulkOperation → List (ℤ × Option ℚ)
  | .createChannel op => [(s.resolveId op.tempId, op.channelNumber)]
  | op => intendedNumbers s op

def logApplied (op : BulkOperation) (s : Exec σ) : Exec σ :=
  { s with log := s.log ++ [(op, numbersSet s op)] }

/-- One iteration of the Phase 2 loop. -/
def attemptOperation (ctx : BulkContext σ) (e : IndexedOp) : Eff (Exec σ) Bool := do
  modify fun s => { s with numberingLanded := false }
  tellLedger (·.begin)
  note .opened
  tryCatch
    (do
      executeOperation ctx e.2
      tellLedger (·.recordApplied)
      note .applied
      modify (logApplied e.2)
      pure true)
    (handleFailure ctx e)

/-- Phase 2. -/
def processOperations (ctx : BulkContext σ) (operations : List BulkOperation) :
    Eff (Exec σ) Unit := do
  let s ← get
  Eff.eachUntil (attemptOperation ctx) (numberingExecutionOrder operations s.existingChannels)

/-- A step taken outside the operations failed. -/
def setupFailure (entry : ErrorEntry) (abortedRun : Bool) : Eff (Exec σ) Unit := do
  modify (addError entry)
  modify fun s => { s with ledger := s.ledger.recordSetupFailure abortedRun }
  note .setupFailed

/-- The compensating writes, newest change first; the ones that failed come back. -/
def writeBack (ctx : BulkContext σ) : List NumberingWrite → Eff (Exec σ) (List RecoveryStep)
  | [] => pure []
  | step :: steps => do
    let failure ← tryCatch
      (do
        write (ctx.up.updateChannel step.channelId { channelNumber := some step.after })
        pure none)
      (fun e => pure (some e))
    match failure with
    | some e =>
      let rest ← writeBack ctx steps
      pure (⟨step.channelId, step.name, step.before, step.after, e⟩ :: rest)
    | none =>
      tellLedger (·.recordWrite (.rows [⟨"reorder", some step.channelId, some step.name⟩]))
      modify fun s => { s with
        existingChannels := match s.existingChannels.get? step.channelId with
          | some ch => s.existingChannels.set step.channelId { ch with channelNumber := step.after }
          | none => s.existingChannels }
      writeBack ctx steps

/-- Phase 2b: a numbering plan that stopped part way is written back. -/
def compensate (ctx : BulkContext σ) : Eff (Exec σ) Unit := do
  let s ← get
  if s.compensator.halfApplied then
    let unrepaired ← writeBack ctx s.compensator.compensationSteps
    if unrepaired = [] then pure ()
    else
      modify fun s => { s with result := { s.result with numberingRecovery := unrepaired } }
      setupFailure
        { operationId := "bulk-commit-numbering-recovery"
          error := s!"{unrepaired.length} channel(s) could not be put back on the channel number " ++
            "they had before this batch. Each one is named in numberingRecovery with the exact " ++
            "step that fixes it. Do not retry the batch until they are fixed." } false
  else pure ()

/-- The rows that could not be written one at a time. -/
def countUnwritten (ctx : BulkContext σ) : List JournalRow → Eff (Exec σ) ℕ
  | [] => pure 0
  | row :: rows => do
    let written ← tryCatch (request (ctx.up.logEntry row)) (fun _ => pure false)
    let rest ← countUnwritten ctx rows
    pure (if written then rest else rest + 1)

/-- `write_journal_rows`: one transaction, then row by row when it failed. -/
def writeJournalRows (ctx : BulkContext σ) (rows : List JournalRow) : Eff (Exec σ) ℕ :=
  if rows = [] then pure 0
  else do
    let written ← tryCatch (request (ctx.up.logEntries rows)) (fun _ => pure false)
    if written then pure 0 else countUnwritten ctx rows

/-- `flush_journal`. -/
def flushJournal (ctx : BulkContext σ) : Eff (Exec σ) Unit := do
  let s ← get
  if s.journalFlushed ∨ ¬s.executionStarted then pure ()
  else
    modify fun s => { s with
      journalFlushed := true
      ledger := { s.ledger with journalRows := [] } }
    let rowsUnwritten ← writeJournalRows ctx s.ledger.journalRows
    let summary ← tryCatch
      (request (ctx.up.logEntry ⟨"bulk_commit", none, some "Bulk Commit"⟩)) (fun _ => pure false)
    let unwritten := if summary then rowsUnwritten else rowsUnwritten + 1
    if unwritten = 0 then pure ()
    else
      modify fun s => { s with result := { s.result with journalRowsUnwritten := unwritten } }
      setupFailure
        { operationId := "bulk-commit-journal"
          error := s!"{unwritten} journal row(s) could not be written. The operations themselves " ++
            "applied — do NOT retry them; the container log carries the unwritten rows." } false

/-- `finalize_bulk_commit_result`: settle the envelope, and raise if it contradicts itself. -/
def finalizeBulkCommitResult : Eff (Exec σ) Unit := do
  modify fun s => { s with result := settleEnvelope s.result s.ledger }
  let s ← get
  if bulkCommitAccountingViolations s.result s.ledger = [] then pure ()
  else throw "bulk-commit envelope accounting invariant violated"

/-- `finish`: the single exit once execution has started. -/
def finish (ctx : BulkContext σ) : Eff (Exec σ) Unit := do
  flushJournal ctx
  finalizeBulkCommitResult

def mapGroup (name : String) (id : ℤ) (s : Exec σ) : Exec σ :=
  { s with result := { s.result with groupIdMap := s.result.groupIdMap.set name id } }

/-- The group exists already: find its id. A failed search is not an error. -/
def findExistingGroup (ctx : BulkContext σ) (name : String) : Eff (Exec σ) Unit :=
  tryCatch
    (do
      let groups ← request ctx.up.getChannelGroups
      match groups.find? (·.name = name) with
      | some g => modify (mapGroup name g.id)
      | none => pure ())
    (fun _ => pure ())

/-- Create one group of `groupsToCreate`; says whether to go on. -/
def createGroupUpFront (ctx : BulkContext σ) (groupName : Option String) : Eff (Exec σ) Bool :=
  match groupName with
  | none => pure true
  | some name =>
    if name = "" then pure true
    else
      tryCatch
        (do
          let created ← write (ctx.up.createChannelGroup name)
          tellLedger (·.recordWrite (.rows [⟨"group_create", created, some name⟩]))
          note .groupCreated
          match created with
          | some id =>
            modify (mapGroup name id)
            pure true
          | none => throw "'id'")
        (fun e => do
          if mentions "400" e ∨ mentions "already exists" e.toLower then
            findExistingGroup ctx name
            pure true
          else
            setupFailure { operationId := "create-group-" ++ name, error := e } true
            pure false)

/-- Phase 1; says whether every group is there. -/
def createGroups (ctx : BulkContext σ) : List (Option String) → Eff (Exec σ) Bool
  | [] => pure true
  | name :: names => do
    if ← createGroupUpFront ctx name then createGroups ctx names else pure false

/-- Everything from Phase 1 on. -/
def execute (ctx : BulkContext σ) (request : BulkCommitRequest) : Eff (Exec σ) Unit := do
  modify fun s => { s with executionStarted := true }
  if ← createGroups ctx request.groupsToCreate then
    processOperations ctx request.operations
    compensate ctx
  else pure ()
  finish ctx

/-- The outer `except Exception`: the run itself fell over. -/
def crash (ctx : BulkContext σ) (e : String) : Eff (Exec σ) Unit := do
  setupFailure { operationId := "bulk-commit", error := e } true
  tryCatch (finish ctx) fun _ =>
    modify fun s => { s with
      result := { s.result with
        operationsApplied := s.ledger.applied
        operationsFailed := s.ledger.failed
        success := false } }

/-- What Phase 0 leaves for the phases after it. -/
def contextOf (up : Upstream σ) (format : Option ℚ → String) (request : BulkCommitRequest)
    (l : Lookups) : BulkContext σ where
  up := up
  continueOnError := request.continueOnError
  channelsResolved := l.channelsResolved
  streamsResolved := l.streamsResolved
  existingStreams := l.existingStreams
  tempChannelNames := request.operations.foldl
    (fun d op => match op with
      | .createChannel k => d.set k.tempId k.name
      | _ => d) ∅
  numbersAtRunStart := l.existingChannels.items.foldl (fun d e => d.set e.1 e.2.channelNumber) ∅
  formatChannelNumber := format

/-- The request is refused before anything executes, or is a dry run. -/
def stopsAfterValidation (request : BulkCommitRequest) (l : Lookups)
    (issues : List ValidationIssue) : Bool :=
  request.validateOnly || streamPlanBlocks l request.operations issues ||
    (issues.any (·.severity = .error) && !request.continueOnError)

/-- Phases 0 to 3 of a request whose operations have been consolidated. -/
def commitOperations (up : Upstream σ) (format : Option ℚ → String) (request : BulkCommitRequest) :
    Eff (Exec σ) Unit := do
  let l ← lookUp up request.operations
  let ctx := contextOf up format request l
  let issues := validationIssues format l ctx.tempChannelNames request.operations
  let passed := !issues.any (·.severity = .error)
  modify fun s => { s with
    existingChannels := l.existingChannels
    result := { s.result with validationIssues := issues, validationPassed := passed } }
  if stopsAfterValidation request l issues then
    modify fun s => { s with
      result := { s.result with success := request.validateOnly && passed } }
  else tryCatch (execute ctx request) (crash ctx)

def effectiveRequest (request : BulkCommitRequest) : BulkCommitRequest :=
  if request.consolidate then
    { request with operations := consolidateOperations request.operations }
  else request

/-- `_run_bulk_commit`; nothing when the request's temporary ids do not resolve. -/
def runBulkCommit (up : Upstream σ) (format : Option ℚ → String) (request : BulkCommitRequest)
    (start : σ) : Option (Exec σ) :=
  match validateBulkChannelDependencies request.operations with
  | .error _ => none
  | .ok _ =>
    let effective := effectiveRequest request
    match validateBulkChannelDependencies effective.operations with
    | .error _ => none
    | .ok _ =>
      some (commitOperations up format effective
        { up := start, ledger := { totalOperations := effective.operations.length } }).2

/-- Where Phase 2 of a run ends, with the context it ran in; nothing when the run does not get
there. -/
def endOfPhase2 (up : Upstream σ) (format : Option ℚ → String) (request : BulkCommitRequest)
    (start : σ) : Option (BulkContext σ × Exec σ) :=
  if (validateBulkChannelDependencies request.operations).isOk ∧
      (validateBulkChannelDependencies (effectiveRequest request).operations).isOk then
    let effective := effectiveRequest request
    let fresh : Exec σ :=
      { up := start, ledger := { totalOperations := effective.operations.length } }
    match lookUp up effective.operations fresh with
    | (.ok l, s) =>
      let ctx := contextOf up format effective l
      let issues := validationIssues format l ctx.tempChannelNames effective.operations
      if stopsAfterValidation effective l issues then none
      else
        match createGroups ctx effective.groupsToCreate { s with
          existingChannels := l.existingChannels
          result := { s.result with
            validationIssues := issues
            validationPassed := !issues.any (·.severity = .error) }
          executionStarted := true } with
        | (.ok true, s') => some (ctx, (processOperations ctx effective.operations s').2)
        | _ => none
    | _ => none
  else none

end ChannelManager
