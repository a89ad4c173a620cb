import ChannelManager.Lib.Dict
import ChannelManager.Numbering.Plan

/-!
# The bulk-commit ledger

`bulk_commit_accounting.py`: one outcome per operation, the rows every landed write owes the
journal, the audit of the finished envelope and the flags derived from the counters.
-/

namespace ChannelManager

/-- What a journal row is about. -/
structure JournalRow where
  actionType : String
  entityId : Option ℤ
  entityName : Option String
deriving DecidableEq

/-- `JournalRowSpec`: the rows of a landed write, or the statement that it left none. -/
inductive JournalRowSpec where
  | rows (rows : List JournalRow)
  | nothingToJournal

structure OperationLedger where
  totalOperations : ℕ
  applied : ℕ := 0
  failed : ℕ := 0
  incomplete : ℕ := 0
  partiallyApplied : ℕ := 0
  setupFailures : ℕ := 0
  aborted : Bool := false
  appliedCreateTempIds : List ℤ := []
  journalRows : List JournalRow := []
  isOpen : Bool := false
  persisted : Bool := false
  sideEffects : ℕ := 0
  appliedWithoutWriting : Bool := false
  pendingCreateTempId : Option ℤ := none

namespace OperationLedger

/-- Whether the open operation has landed writes that are not its outcome. -/
def sideEffectsLanded (ledger : OperationLedger) : Bool := 0 < ledger.sideEffects

/-- `begin`. -/
def begin (ledger : OperationLedger) : Except String OperationLedger :=
  if ledger.isOpen then
    .error ("a bulk-commit operation was opened while the previous one was still " ++
      "unresolved")
  else
    .ok { ledger with
      isOpen := true
      persisted := false
      sideEffects := 0
      appliedWithoutWriting := false
      pendingCreateTempId := none }

/-- `_queue_journal`. -/
def queueJournal (ledger : OperationLedger) : JournalRowSpec → Except String OperationLedger
  | .nothingToJournal => .ok ledger
  | .rows rows =>
    if rows = [] then
      .error ("an upstream write was recorded with an empty list of journal rows; pass " ++
        "nothing_to_journal(reason) to say so deliberately")
    else .ok { ledger with journalRows := ledger.journalRows ++ rows }

/-- A write landed that is not the open operation's outcome. -/
def recordWrite (ledger : OperationLedger) (journalRow : JournalRowSpec) :
    Except String OperationLedger :=
  queueJournal
    (if ledger.isOpen then { ledger with sideEffects := ledger.sideEffects + 1 } else ledger)
    journalRow

/-- The write that is the open operation's outcome landed. -/
def recordPersisted (ledger : OperationLedger) (journalRow : JournalRowSpec)
    (createTempId : Option ℤ := none) : Except String OperationLedger := do
  let queued ← ledger.queueJournal journalRow
  return { queued with
    persisted := true
    pendingCreateTempId := createTempId.or queued.pendingCreateTempId }

/-- `applied_without_writing`: the requested state already held. -/
def sayAppliedWithoutWriting (ledger : OperationLedger) : Except String OperationLedger :=
  if ledger.isOpen then .ok { ledger with appliedWithoutWriting := true }
  else .error "applied_without_writing() was called with no operation open"

/-- `_close`. -/
def close (ledger : OperationLedger) : Except String OperationLedger :=
  if ledger.isOpen then
    .ok { ledger with isOpen := false, sideEffects := 0, appliedWithoutWriting := false }
  else
    .error ("a bulk-commit operation outcome was recorded twice, or recorded without the " ++
      "operation being opened")

/-- The ledger was told a write landed, or why there was none to make. -/
def told (ledger : OperationLedger) : Bool :=
  ledger.persisted || 0 < ledger.sideEffects || ledger.appliedWithoutWriting

def recordApplied (ledger : OperationLedger) (incomplete : Bool := false) :
    Except String OperationLedger :=
  if ledger.told then do
    let closed ← ledger.close
    return { closed with
      applied := closed.applied + 1
      incomplete := closed.incomplete + if incomplete then 1 else 0
      appliedCreateTempIds := closed.appliedCreateTempIds ++ closed.pendingCreateTempId.toList
      pendingCreateTempId := none }
  else
    .error ("an operation was recorded as applied having told the ledger nothing: it wrote " ++
      "nothing upstream and did not say why. Call record_persisted(journal_row=...) for a " ++
      "write, or applied_without_writing(reason) to say the requested state already held")

def recordFailed (ledger : OperationLedger) : Except String OperationLedger := do
  let closed ← ledger.close
  return { closed with
    failed := closed.failed + 1
    partiallyApplied := closed.partiallyApplied + if ledger.sideEffectsLanded then 1 else 0
    pendingCreateTempId := none }

def abortRemaining (ledger : OperationLedger) : OperationLedger := { ledger with aborted := true }

/-- A failure that is not one of the submitted operations. -/
def recordSetupFailure (ledger : OperationLedger) (abortedRun : Bool := true) : OperationLedger :=
  { ledger with
    setupFailures := ledger.setupFailures + 1
    aborted := ledger.aborted || abortedRun }

end OperationLedger

/-- One entry of the envelope's `errors`. -/
structure ErrorEntry where
  operationId : String
  error : String
  operationType : Option String := none
  channelId : Option ℤ := none
  channelName : Option String := none
  streamId : Option ℤ := none
  streamName : Option String := none
  entityName : Option String := none
  applied : Bool := false
  sideEffectsLanded : Bool := false

/-- A create that asked for normalization and did not get it. -/
structure NormalizationFailure where
  tempId : ℤ
  name : String
  nameApplied : String
  error : String

/-- A channel left on a number it should not be on. -/
structure RecoveryStep where
  channelId : ℤ
  name : String
  current : Option ℚ
  target : Option ℚ
  error : String

inductive IssueSeverity where
  | error
  | warning
deriving DecidableEq

inductive ValidationIssueType where
  | missingChannel
  | missingStream
  | invalidOperation
  | numberingPreflightUnavailable
  | numbering (type : NumberingIssueType)
deriving DecidableEq

structure ValidationIssue where
  type : ValidationIssueType
  severity : IssueSeverity := .error
  message : String
  operationIndex : Option ℕ := none
  channelId : Option ℤ := none
  channelName : Option String := none
  streamId : Option ℤ := none
  channelNumber : Option ℚ := none
  channelIds : List ℤ := []
  operationIndexes : List ℕ := []
deriving DecidableEq

/-- `as_validation_issue`. -/
def NumberingIssue.asValidationIssue (format : ℚ → String) (issue : NumberingIssue) :
    ValidationIssue where
  type := .numbering issue.type
  message := issue.message format
  operationIndex := issue.operationIndexes.head?
  channelId := issue.channelIds.head?
  channelNumber := some issue.channelNumber
  channelIds := issue.channelIds
  operationIndexes := issue.operationIndexes

/-- The result of a bulk commit. -/
structure Envelope where
  success : Bool := true
  operationsApplied : ℕ := 0
  operationsFailed : ℕ := 0
  operationsPartiallyApplied : ℕ := 0
  errors : List ErrorEntry := []
  tempIdMap : Dict ℤ ℤ := ∅
  groupIdMap : Dict String ℤ := ∅
  validationIssues : List ValidationIssue := []
  validationPassed : Bool := true
  isPartial : Bool := false
  normalizationFailures : List NormalizationFailure := []
  journalRowsUnwritten : ℕ := 0
  numberingRecovery : List RecoveryStep := []

/-- One way an envelope contradicts itself. -/
inductive AccountingViolation where
  | attemptedMoreThanSubmitted (attempted total : ℕ)
  | attemptedNotSubmitted (applied failed total : ℕ)
  | failedNotErrors (failed setupFailures entries : ℕ)
  | partiallyAppliedNotReported (reported recorded : ℕ)
  | partiallyAppliedExceedsFailed (partiallyApplied failed : ℕ)
  | partiallyAppliedNotMarked (partiallyApplied marked : ℕ)
  | successWrong (success : Bool) (failed appliedErrors setupFailures : ℕ)
  | partialWrong (isPartial : Bool) (applied failed partiallyApplied appliedErrors : ℕ)
  | normalizationOfUnapplied (tempId : ℤ)
deriving DecidableEq

namespace Envelope

def appliedErrors (result : Envelope) : List ErrorEntry := result.errors.filter (·.applied)

def unappliedErrors (result : Envelope) : List ErrorEntry := result.errors.filter (!·.applied)

def markedErrors (result : Envelope) : List ErrorEntry :=
  result.errors.filter (·.sideEffectsLanded)

end Envelope

/-- `bulk_commit_accounting_violations`, with the ledger values it is called with. -/
def bulkCommitAccountingViolations (result : Envelope) (ledger : OperationLedger) :
    List AccountingViolation :=
  let applied := result.operationsApplied
  let failed := result.operationsFailed
  let appliedErrors := result.appliedErrors.length
  let attempted := applied + failed
  let landed := 0 < applied || 0 < ledger.partiallyApplied
  let attempts : List AccountingViolation :=
    if ledger.aborted then
      if ledger.totalOperations < attempted then
        [.attemptedMoreThanSubmitted attempted ledger.totalOperations]
      else []
    else if attempted ≠ ledger.totalOperations then
      [.attemptedNotSubmitted applied failed ledger.totalOperations]
    else []
  attempts ++
    (if failed + ledger.setupFailures ≠ result.unappliedErrors.length then
      [.failedNotErrors failed ledger.setupFailures result.unappliedErrors.length] else []) ++
    (if result.operationsPartiallyApplied ≠ ledger.partiallyApplied then
      [.partiallyAppliedNotReported result.operationsPartiallyApplied ledger.partiallyApplied]
      else []) ++
    (if failed < ledger.partiallyApplied then
      [.partiallyAppliedExceedsFailed ledger.partiallyApplied failed] else []) ++
    (if result.markedErrors.length ≠ ledger.partiallyApplied then
      [.partiallyAppliedNotMarked ledger.partiallyApplied result.markedErrors.length] else []) ++
    (if result.success ≠ (failed == 0 && appliedErrors == 0 && ledger.setupFailures == 0) then
      [.successWrong result.success failed appliedErrors ledger.setupFailures] else []) ++
    (if result.isPartial ≠ (landed && (0 < failed || 0 < appliedErrors)) then
      [.partialWrong result.isPartial applied failed ledger.partiallyApplied appliedErrors]
      else []) ++
    (result.normalizationFailures.filter (·.tempId ∉ ledger.appliedCreateTempIds)).map
      fun entry => .normalizationOfUnapplied entry.tempId

/-- The counters and the flags `finalize_bulk_commit_result` writes. -/
def settleEnvelope (result : Envelope) (ledger : OperationLedger) : Envelope :=
  { result with
    operationsApplied := ledger.applied
    operationsFailed := ledger.failed
    operationsPartiallyApplied := ledger.partiallyApplied
    success := ledger.failed == 0 && ledger.incomplete == 0 && ledger.setupFailures == 0
    isPartial := (0 < ledger.applied || 0 < ledger.partiallyApplied) &&
      (0 < ledger.failed || 0 < ledger.incomplete) }

end ChannelManager
