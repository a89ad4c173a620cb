import ChannelManager.EditMode.NumberPlan

/-!
# Numbers changed meanwhile

`channelNumberConcurrency.ts`: the channels whose staged number would overwrite a change made on the server
since the session began, and the staged operations rewritten by what the operator decides for each.
-/

namespace ChannelManager.EditMode

structure ServerChannelNumber where
  id : ℤ
  name : String
  channelNumber : Option ℚ

inductive NumberingConflictKind
  | numberChanged
  | channelDeleted
deriving DecidableEq

structure NumberingConflict where
  kind : NumberingConflictKind
  channelId : ℤ
  name : String
  baselineNumber : Option ℚ
  serverNumber : Option ℚ
  proposedNumber : Option ℚ
  operationIds : List String
  operationDescriptions : List String
  fromRangeAssignment : Bool
deriving DecidableEq

structure PlannedNumberWrite where
  channelId : ℤ
  proposedNumber : Option ℚ
  operations : List StagedOperation
  fromRangeAssignment : Bool

/-- `record`. -/
def recordWrite (writes : Dict ℤ PlannedNumberWrite) (channelId : ℤ) (proposedNumber : Option ℚ)
    (operation : StagedOperation) (fromRangeAssignment : Bool) : Dict ℤ PlannedNumberWrite :=
  match writes.get? channelId with
  | some existing =>
    writes.set channelId
      { existing with
        proposedNumber
        operations := existing.operations ++ [operation]
        fromRangeAssignment := existing.fromRangeAssignment || fromRangeAssignment }
  | none => writes.set channelId ⟨channelId, proposedNumber, [operation], fromRangeAssignment⟩

/-- What one operation writes. -/
def planWrite (writes : Dict ℤ PlannedNumberWrite) (operation : StagedOperation) :
    Dict ℤ PlannedNumberWrite :=
  match operation.apiCall with
  | .updateChannel call =>
    match call.data.channelNumber with
    | some number => recordWrite writes call.channelId number operation false
    | none => writes
  | .bulkAssignChannelNumbers call =>
    call.channelIds.zipIdx.foldl (fun writes e =>
      recordWrite writes e.1 (some (call.startingNumber.getD 1 + e.2)) operation true) writes
  | .deleteChannel channelId => writes.erase channelId
  | _ => writes

/-- Every channel whose number the session will write. -/
def plannedNumberWrites (operations : List StagedOperation) : Dict ℤ PlannedNumberWrite :=
  operations.foldl planWrite ∅

/-- Equality of numbers that calls two unassigned ones the same. -/
def numbersAgree : Option ℚ → Option ℚ → Bool
  | some a, some b => sameChannelNumber (some a) (some b)
  | none, none => true
  | _, _ => false

/-- The operation carries consent to overwrite this change. -/
def consents (channelId : ℤ) (baselineNumber serverNumber : Option ℚ) (operation : StagedOperation) : Bool :=
  (concurrentAcknowledgementsOf operation).any fun acknowledgement =>
    acknowledgement.channelId = channelId && numbersAgree acknowledgement.baselineNumber baselineNumber &&
      numbersAgree acknowledgement.serverNumber serverNumber

/-- The conflict a write is in. -/
def conflictOf (baselineById : Dict ℤ ChannelSnapshot) (serverById : Dict ℤ ServerChannelNumber)
    (write : PlannedNumberWrite) : Option NumberingConflict :=
  if write.channelId < 0 then none
  else
    match baselineById.get? write.channelId with
    | none => none
    | some entry =>
      let conflict kind name serverNumber : NumberingConflict :=
        { kind
          channelId := write.channelId
          name
          baselineNumber := entry.channelNumber
          serverNumber
          proposedNumber := write.proposedNumber
          operationIds := write.operations.map (·.id)
          operationDescriptions := write.operations.map (·.description)
          fromRangeAssignment := write.fromRangeAssignment }
      match serverById.get? write.channelId with
      | none => some (conflict .channelDeleted entry.name none)
      | some channel =>
        if numbersAgree entry.channelNumber channel.channelNumber then none
        else if write.operations.any (consents write.channelId entry.channelNumber channel.channelNumber) then
          none
        else
          some (conflict .numberChanged (if channel.name = "" then entry.name else channel.name)
            channel.channelNumber)

/-- What the two lineups are compared by. -/
structure Lineups where
  baseline : List ChannelSnapshot
  server : List ServerChannelNumber

namespace Lineups

variable (lineups : Lineups)

def baselineById : Dict ℤ ChannelSnapshot := Dict.ofList (lineups.baseline.map fun entry => (entry.id, entry))

def serverById : Dict ℤ ServerChannelNumber :=
  Dict.ofList (lineups.server.map fun channel => (channel.id, channel))

/-- `detectNumberingConflicts`. -/
def detectNumberingConflicts (operations : List StagedOperation) : List NumberingConflict :=
  (plannedNumberWrites operations).values.filterMap (conflictOf lineups.baselineById lineups.serverById)

end Lineups

/-! ## Decisions -/

inductive ReconcileChoice
  | keepMine
  | takeTheirs
deriving DecidableEq

structure ReconcileDecision where
  channelId : ℤ
  choice : ReconcileChoice
  baselineNumber : Option ℚ
  serverNumber : Option ℚ

structure RemovedOperation where
  id : String
  description : String
  detail : String

structure ReconcileResult where
  operations : List StagedOperation
  removed : List RemovedOperation

/-- One acknowledgement a channel; a later one replaces an earlier one. -/
def mergeAcknowledgements (existing : List ConcurrentNumberAcknowledgement)
    (decisions : List ReconcileDecision) : List ConcurrentNumberAcknowledgement :=
  (Dict.ofList (existing.map (fun a => (a.channelId, a)) ++ decisions.map fun d =>
    (d.channelId, ⟨d.channelId, d.baselineNumber, d.serverNumber⟩))).values

/-- `keepMine`: of two decisions for one channel, the last. -/
def keepMineOf (decisions : List ReconcileDecision) : Dict ℤ ReconcileDecision :=
  Dict.ofList ((decisions.filter (·.choice = .keepMine)).map fun d => (d.channelId, d))

def takeTheirsOf (decisions : List ReconcileDecision) : List ℤ :=
  (decisions.filter (·.choice = .takeTheirs)).map (·.channelId)

section Reconcile

variable (computeAutoRename : String → Option ℚ → Option ℚ → Option String)

/-- The name in the payload is the one the surrendered number would have made. -/
def surrenderedAutoRename (operation : StagedOperation) (channelId : ℤ) (data : ChannelPatch)
    (surrendered : Option ℚ) : Bool :=
  match data.name, operation.beforeSnapshot.find? (·.id = channelId) with
  | some name, some before => some name = computeAutoRename before.name before.channelNumber surrendered
  | _, _ => false

/-- What becomes of an operation. -/
def reconcileOperation (keepMine : Dict ℤ ReconcileDecision) (takeTheirs : List ℤ)
    (operation : StagedOperation) : RemovedOperation ⊕ StagedOperation :=
  match operation.apiCall with
  | .bulkAssignChannelNumbers call =>
    let surrendered := call.channelIds.filter (· ∈ takeTheirs)
    if surrendered ≠ [] then
      .inl ⟨operation.id, operation.description,
        "This renumbering was dropped: its numbers run in sequence, so keeping the server's number for " ++
          s!"{surrendered.length} channel" ++ (if surrendered.length ≠ 1 then "s" else "") ++
          " would move every channel after it to a number you were not shown."⟩
    else
      let agreed := call.channelIds.filterMap keepMine.get?
      if agreed ≠ [] then
        .inr { operation with
          apiCall := .bulkAssignChannelNumbers { call with
            acknowledgedConcurrentChanges :=
              mergeAcknowledgements call.acknowledgedConcurrentChanges agreed } }
      else .inr operation
  | .updateChannel call =>
    match call.data.channelNumber with
    | none => .inr operation
    | some surrendered =>
      if call.channelId ∈ takeTheirs then
        let kept : ChannelPatch := { call.data with channelNumber := none }
        let rest : ChannelPatch :=
          if surrenderedAutoRename computeAutoRename operation call.channelId kept surrendered then
            { kept with name := none }
          else kept
        if rest = {} then
          .inl ⟨operation.id, operation.description,
            "This change only set the channel number, so keeping the server's value drops it."⟩
        else .inr { operation with apiCall := .updateChannel { call with data := rest } }
      else
        match keepMine.get? call.channelId with
        | none => .inr operation
        | some decision =>
          .inr { operation with
            apiCall := .updateChannel { call with
              acknowledgedConcurrentChanges :=
                mergeAcknowledgements call.acknowledgedConcurrentChanges [decision] } }
  | _ => .inr operation

/-- `applyReconcileDecisions`. -/
def applyReconcileDecisions (operations : List StagedOperation) (decisions : List ReconcileDecision) :
    ReconcileResult :=
  let outcomes := operations.map
    (reconcileOperation computeAutoRename (keepMineOf decisions) (takeTheirsOf decisions))
  ⟨outcomes.filterMap Sum.getRight?, outcomes.filterMap Sum.getLeft?⟩

end Reconcile

end ChannelManager.EditMode
