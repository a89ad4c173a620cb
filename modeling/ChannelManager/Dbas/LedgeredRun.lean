import ChannelManager.Dbas.RestoreContracts

/-!
# A restore and its ledger

The ordered apply of `run_restore` and its rollback, step by step: the calls made upstream, the entries
the ledger in memory is given, and the ledger file. What an importer finds to create is left open, and
what it does about the ledger after each create is not.
-/

namespace ChannelManager.Dbas

/-- An entity of the destination. -/
abbrev CreatedEntity := EntityType × ℤ

/-- What comes of a create: it raises without effect, or makes an entity, whose id it may not answer. -/
inductive CreateAnswer
  | raised
  | created (id : ℤ) (answered : Bool)

/-- A call an importer makes upstream. -/
inductive ImporterCall
  | other
  | create (entityType : EntityType) (label : String) (answer : CreateAnswer)
  | customStreamAccount (id : ℤ)

/-- What a call makes. -/
def ImporterCall.made : ImporterCall → Option CreatedEntity
  | .other => none
  | .create _ _ .raised => none
  | .create entityType _ (.created id _) => some (entityType, id)
  | .customStreamAccount id => some (.m3uAccount, id)

/-- A step of an apply: a call with what it makes, an entry in the ledger, the ledger file. -/
inductive ApplyStep
  | call (made : Option CreatedEntity)
  | record (entityType : EntityType) (id : ℤ) (label : String)
  | persist

/-- One call and what an importer does after it. A created entity is recorded if its id is known; the
account of the custom streams is not. -/
def afterCall (persistsEach : Bool) (call : ImporterCall) : List ApplyStep :=
  .call call.made :: match call with
    | .create entityType label (.created id true) =>
      .record entityType id label :: if persistsEach then [.persist] else []
    | _ => []

/-- An importer: the calls it comes to, whether it raises after them, and whether its category reports a
failure. -/
structure ImporterStep where
  entityType : EntityType
  calls : List ImporterCall
  raised : Bool
  failed : Bool

namespace ImporterStep

/-- Whether the importer is given the flush of the ledger; `import_users` alone is. -/
def persistsEach (step : ImporterStep) : Bool := step.entityType = .user

/-- The importer, and the ledger file behind it. -/
def applySteps (step : ImporterStep) : List ApplyStep :=
  step.calls.flatMap (afterCall step.persistsEach) ++ [.persist]

/-- The apply stops and is rolled back. -/
def aborts (nonFatal : List EntityType) (step : ImporterStep) : Bool :=
  step.raised || (step.failed && decide (step.entityType ∉ nonFatal))

end ImporterStep

/-- The importers an apply comes to. -/
def carriedOut (nonFatal : List EntityType) : List ImporterStep → List ImporterStep
  | [] => []
  | step :: steps => step :: if step.aborts nonFatal then [] else carriedOut nonFatal steps

/-- The ordered apply. -/
def orderedApply (nonFatal : List EntityType) (steps : List ImporterStep) : List ApplyStep :=
  (carriedOut nonFatal steps).flatMap ImporterStep.applySteps

/-- What the entries of a ledger are about. -/
def LedgerEntry.entity (entry : LedgerEntry) : CreatedEntity := (entry.entityType, entry.destinationId)

def RollbackLedger.entities (ledger : RollbackLedger) : List CreatedEntity :=
  ledger.entries.map LedgerEntry.entity

/-- Where an apply stands: what it has created, the ledger, the ledger file, which is as good as empty
when it is missing, and what the last call has made as long as nothing was called or written since. -/
structure Applying where
  created : List CreatedEntity
  ledger : RollbackLedger
  file : RollbackLedger
  inFlight : Option CreatedEntity

def Applying.start : Applying := ⟨[], .empty, .empty, none⟩

def Applying.step (s : Applying) : ApplyStep → Applying
  | .call made => { s with created := s.created ++ made.toList, inFlight := made }
  | .record entityType id label => { s with ledger := s.ledger.recordCreated entityType id label }
  | .persist => { s with file := s.ledger, inFlight := none }

/-! ## The rollback -/

/-- The types `_delete_dispatch` has a compensator for. -/
def hasCompensator : EntityType → Bool
  | .settings => false
  | .ecmSettings => false
  | _ => true

/-- Mark the entry of a sequence number as compensated. -/
def RollbackLedger.markCompensated (ledger : RollbackLedger) (sequence : ℕ) : RollbackLedger :=
  ⟨ledger.entries.map fun e => if e.sequence = sequence then { e with compensated := true } else e⟩

/-- A step of a rollback: a delete upstream, an entry marked, the ledger file, an entry left. -/
inductive UndoStep
  | delete (entry : LedgerEntry)
  | mark (entry : LedgerEntry)
  | persist
  | leave (entry : LedgerEntry)

/-- Where a rollback stands: what the destination has, the ledger, its file, the entries deletes were
sent for, those left, and the last delete as long as nothing was made of its answer. -/
structure Undoing where
  upstream : List CreatedEntity
  ledger : RollbackLedger
  file : RollbackLedger
  deletes : List LedgerEntry
  residue : List LedgerEntry
  inFlight : Option LedgerEntry

section Rollback

variable (refuses : CreatedEntity → Bool)

/-- One entry: a delete that is refused leaves it; one answered 404 is as good as one that went through. -/
def undoEntry (entry : LedgerEntry) : List UndoStep :=
  if !hasCompensator entry.entityType then [.leave entry]
  else if refuses entry.entity then [.delete entry, .leave entry]
  else [.delete entry, .mark entry, .persist]

def Undoing.start (upstream : List CreatedEntity) (ledger : RollbackLedger) : Undoing :=
  ⟨upstream, ledger, ledger, [], [], none⟩

def Undoing.step (s : Undoing) : UndoStep → Undoing
  | .delete entry =>
    { s with
      upstream := if refuses entry.entity then s.upstream else s.upstream.filter (· ≠ entry.entity)
      deletes := s.deletes ++ [entry]
      inFlight := some entry }
  | .mark entry => { s with ledger := s.ledger.markCompensated entry.sequence }
  | .persist => { s with file := s.ledger, inFlight := none }
  | .leave entry => { s with residue := s.residue ++ [entry], inFlight := none }

/-- The steps of a rollback. -/
def rollbackSteps (ledger : RollbackLedger) : List UndoStep :=
  ledger.compensationOrder.flatMap (undoEntry refuses)

/-- `run_rollback`. -/
def runRollback (upstream : List CreatedEntity) (ledger : RollbackLedger) : Undoing :=
  (rollbackSteps refuses ledger).foldl (Undoing.step refuses) (.start upstream ledger)

end Rollback

end ChannelManager.Dbas
