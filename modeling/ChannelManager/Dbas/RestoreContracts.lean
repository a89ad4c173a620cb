import ChannelManager.Lib.Dict
import ChannelManager.Lib.Strip
import Mathlib.Data.List.Sort

/-!
# What the parts of a restore share

The ids the destination gave to archived entities, the ledger of what was created there, in the
order of creation, and what is reported of the streams.
-/

namespace ChannelManager.Dbas

/-- What a restore can create or report on. -/
inductive EntityType where
  | m3uAccount
  | epgSource
  | channelGroup
  | channelProfile
  | streamProfile
  | channel
  | stream
  | userAgent
  | serverGroup
  | dvrRule
  | upcomingRecording
  | settings
  | ecmSettings
  | user
  | logo
deriving DecidableEq

/-- One created entity, for possible compensation. -/
structure LedgerEntry where
  sequence : ℕ
  entityType : EntityType
  destinationId : ℤ
  label : String
  compensated : Bool
deriving DecidableEq

/-- `RollbackLedger`: the entries are numbered in the order they were recorded. -/
structure RollbackLedger where
  entries : List LedgerEntry
deriving DecidableEq

namespace RollbackLedger

/-- The ledger of a run that has created nothing. -/
def empty : RollbackLedger := ⟨[]⟩

/-- `record_created`. -/
def recordCreated (ledger : RollbackLedger) (entityType : EntityType) (destinationId : ℤ)
    (label : String) : RollbackLedger :=
  ⟨ledger.entries ++ [⟨ledger.entries.length, entityType, destinationId, label, false⟩]⟩

/-- `compensation_order`: what is not compensated yet, newest first. -/
def compensationOrder (ledger : RollbackLedger) : List LedgerEntry :=
  (ledger.entries.filter fun e => !e.compensated).insertionSort fun e e' => e'.sequence ≤ e.sequence

/-- `_ledgered_ids`. -/
def ledgeredIds (ledger : RollbackLedger) (entityType : EntityType) : List ℤ :=
  (ledger.entries.filter fun e => e.entityType = entityType).map LedgerEntry.destinationId

end RollbackLedger

/-- `IdRemapTable`: the destination id of an archived entity, by its type. -/
structure IdRemapTable where
  mappings : EntityType → Dict ℤ ℤ

namespace IdRemapTable

/-- The table of a run that has restored nothing. -/
def empty : IdRemapTable := ⟨fun _ => ∅⟩

/-- `add`. -/
def add (remap : IdRemapTable) (entityType : EntityType) (sourceExportId destinationId : ℤ) :
    IdRemapTable :=
  ⟨fun t =>
    if t = entityType then (remap.mappings t).set sourceExportId destinationId
    else remap.mappings t⟩

/-- `resolve`. -/
def resolve (remap : IdRemapTable) (entityType : EntityType) (sourceExportId : ℤ) : Option ℤ :=
  (remap.mappings entityType).get? sourceExportId

end IdRemapTable

/-- `str.isspace`. -/
def isSpace (c : Char) : Bool :=
  (9 ≤ c.toNat && c.toNat ≤ 13) || (28 ≤ c.toNat && c.toNat ≤ 32) || c.toNat = 133 ||
    c.toNat = 160 || c.toNat = 5760 || (8192 ≤ c.toNat && c.toNat ≤ 8202) || c.toNat = 8232 ||
    c.toNat = 8233 || c.toNat = 8239 || c.toNat = 8287 || c.toNat = 12288

/-- `str.strip`. -/
def strip (text : String) : String := String.ofList (stripEnds isSpace text.toList)

/-- `FailureReason`. -/
inductive FailureReason where
  | validationError
  | dependencyUnresolved
  | upstreamApiError
  | upstreamTimeout
  | conflict
  | passwordHashUnsupported
  | internalError
deriving DecidableEq

/-- One failed entity. -/
structure FailureDetail where
  reason : FailureReason
  label : String
  message : String
  sourceExportId : Option ℤ
deriving DecidableEq

/-- What an apply counts in a category: the created, the updated and the failed entities. -/
structure EntityCategoryReport where
  created : ℕ
  updated : ℕ
  failed : ℕ
  failureDetails : List FailureDetail
deriving DecidableEq

namespace EntityCategoryReport

/-- Nothing was counted yet. -/
def empty : EntityCategoryReport := ⟨0, 0, 0, []⟩

/-- Count a failure. -/
def fail (category : EntityCategoryReport) (detail : FailureDetail) : EntityCategoryReport :=
  { category with
    failed := category.failed + 1
    failureDetails := category.failureDetails ++ [detail] }

end EntityCategoryReport

/-- A channel still holding a stream that cannot play. -/
structure StreamReattachDetail where
  channelId : ℤ
  name : String
  placeholderStreams : List String
  hasPlayableStream : Bool
deriving DecidableEq

/-- What a restore reports of the streams. -/
structure StreamReport where
  streamsRebound : ℕ
  streamReattachDetails : List StreamReattachDetail
  streamUrlRedactionDetails : List (ℤ × String)
  notes : List String
deriving DecidableEq

end ChannelManager.Dbas
