import ChannelManager.EditMode.NumberPlan
import Mathlib.Data.Finset.Insert

/-!
# Restoring a staged ledger

`planLedgerRestore`: which operations of a session that died can still be applied, judged front to
back against the lists the server reports now. `numberText` prints a number as JavaScript does.
-/

namespace ChannelManager.EditMode

/-- `LedgerRestoreContext`, the groups and profiles by their ids. -/
structure LedgerRestoreContext where
  channels : List Channel
  channelGroupIds : List ℤ
  /-- Absent means unchecked. -/
  profileIds : Option (List ℤ) := none

/-- The `type` of an `ApiCallSpec`. -/
inductive ApiCallType where
  | updateChannel
  | addStreamToChannel
  | removeStreamFromChannel
  | reorderChannelStreams
  | bulkAssignChannelNumbers
  | createChannel
  | deleteChannel
  | createGroup
  | deleteChannelGroup
  | renameChannelGroup
  | setProfileMembership
  | restoreChannelGroup
  | clearStreamStats
deriving DecidableEq

def ApiCallSpec.type : ApiCallSpec → ApiCallType
  | .updateChannel _ => .updateChannel
  | .addStreamToChannel _ _ => .addStreamToChannel
  | .removeStreamFromChannel _ _ => .removeStreamFromChannel
  | .reorderChannelStreams _ _ => .reorderChannelStreams
  | .bulkAssignChannelNumbers _ => .bulkAssignChannelNumbers
  | .createChannel _ => .createChannel
  | .deleteChannel _ => .deleteChannel
  | .createGroup _ _ => .createGroup
  | .deleteChannelGroup _ => .deleteChannelGroup
  | .renameChannelGroup _ _ => .renameChannelGroup
  | .setProfileMembership _ _ _ => .setProfileMembership
  | .restoreChannelGroup _ => .restoreChannelGroup
  | .clearStreamStats _ => .clearStreamStats

inductive LedgerDropReason where
  | channelMissing
  | groupMissing
  | streamDetached
  | profileMissing
  | dependsOnDropped
deriving DecidableEq

structure DroppedLedgerOperation where
  id : String
  type : ApiCallType
  description : String
  reason : LedgerDropReason
  detail : String
deriving DecidableEq

structure WithdrawnAcknowledgement where
  id : String
  description : String
  detail : String
deriving DecidableEq

structure LedgerRestorePlan where
  restorable : List StagedOperation
  dropped : List DroppedLedgerOperation
  withdrawnAcknowledgements : List WithdrawnAcknowledgement

inductive ReferenceKind where
  | channel
  | group
  | profile
deriving DecidableEq

def ReferenceKind.text : ReferenceKind → String
  | .channel => "channel"
  | .group => "group"
  | .profile => "profile"

structure Reference where
  kind : ReferenceKind
  id : ℤ
deriving DecidableEq

/-- The name of a new group wins over the id of an existing one. -/
def CreateChannelCall.referencedGroupId (call : CreateChannelCall) : Option ℤ :=
  if call.newGroupName.any (· ≠ "") then call.stagedGroupId else call.groupId

def referencesOf : ApiCallSpec → List Reference
  | .updateChannel call =>
    ⟨.channel, call.channelId⟩ :: call.data.channelGroupId.join.toList.map (⟨.group, ·⟩)
  | .addStreamToChannel c _ => [⟨.channel, c⟩]
  | .removeStreamFromChannel c _ => [⟨.channel, c⟩]
  | .reorderChannelStreams c _ => [⟨.channel, c⟩]
  | .deleteChannel c => [⟨.channel, c⟩]
  | .bulkAssignChannelNumbers call => call.channelIds.map (⟨.channel, ·⟩)
  | .createChannel call => call.referencedGroupId.toList.map (⟨.group, ·⟩)
  | .createGroup _ _ => []
  | .deleteChannelGroup g => [⟨.group, g⟩]
  | .renameChannelGroup g _ => [⟨.group, g⟩]
  | .setProfileMembership p c _ => [⟨.channel, c⟩, ⟨.profile, p⟩]
  | .restoreChannelGroup _ => []
  | .clearStreamStats _ => []

/-- `tempChannelIdOf`. -/
def StagedOperation.tempChannelId? (operation : StagedOperation) : Option ℤ :=
  operation.snapshotId?.filter (· < 0)

def channelLabel (operation : StagedOperation) (id : ℤ) : String :=
  let snapshot := (operation.beforeSnapshot.find? (·.id = id)).or
    (operation.afterSnapshot.find? (·.id = id))
  match snapshot with
  | some entry => if entry.name ≠ "" then "\"" ++ entry.name ++ s!"\" (id {id})" else s!"id {id}"
  | none => s!"id {id}"

/-- `acknowledgementOf`. -/
def ApiCallSpec.acknowledgementOf : ApiCallSpec → Option AcknowledgedDuplicate
  | .updateChannel call => call.acknowledgedDuplicate
  | .createChannel call => call.acknowledgedDuplicate
  | _ => none

/-- The call without its acknowledgement. -/
def withoutAcknowledgement : ApiCallSpec → ApiCallSpec
  | .updateChannel call => .updateChannel { call with acknowledgedDuplicate := none }
  | .createChannel call => .createChannel { call with acknowledgedDuplicate := none }
  | apiCall => apiCall

/-- The lineup as the surviving operations leave it. -/
structure LedgerProjection where
  stagedChannelIds : Finset ℤ := ∅
  stagedGroupIds : Finset ℤ := ∅
  /-- Holds the channels whose streams a surviving operation changed. -/
  projectedStreams : Dict ℤ (List ℤ) := ∅
  numberByChannel : Dict ℤ (Option ℚ)

/-- What the walk over the ledger carries. -/
structure LedgerWalk where
  projection : LedgerProjection
  restorable : List StagedOperation := []
  dropped : List DroppedLedgerOperation := []
  withdrawnAcknowledgements : List WithdrawnAcknowledgement := []

namespace LedgerRestoreContext

variable (context : LedgerRestoreContext)

/-- Of two channels with one id the later counts, as in a `Map`. -/
def channelById : Dict ℤ Channel := Dict.ofList (context.channels.map fun ch => (ch.id, ch))

def startProjection : LedgerProjection where
  numberByChannel := Dict.ofList (context.channels.map fun ch => (ch.id, ch.channelNumber))

def streamsOf (projection : LedgerProjection) (channelId : ℤ) : List ℤ :=
  (projection.projectedStreams.get? channelId).getD
    (((context.channelById.get? channelId).map (·.streams)).getD [])

/-- Why one reference keeps an operation from being restored. A negative id is that of something the
session was going to create. -/
def referenceFailure (projection : LedgerProjection) (operation : StagedOperation)
    (reference : Reference) : Option (LedgerDropReason × String) :=
  if reference.id < 0 then
    let created := match reference.kind with
      | .group => decide (reference.id ∈ projection.stagedGroupIds)
      | _ => decide (reference.id ∈ projection.stagedChannelIds)
    if created then none
    else some (.dependsOnDropped, "It targets a " ++ reference.kind.text ++
      " this session was going to create, which could not be restored.")
  else
    match reference.kind with
    | .channel =>
      if reference.id ∈ context.channelById then none
      else some (.channelMissing,
        "Channel " ++ channelLabel operation reference.id ++ " no longer exists.")
    | .group =>
      if reference.id ∈ context.channelGroupIds then none
      else some (.groupMissing, s!"Channel group {reference.id} no longer exists.")
    | .profile =>
      if context.profileIds.all (reference.id ∈ ·) then none
      else some (.profileMissing, s!"Channel profile {reference.id} no longer exists.")

/-- Why the projected streams of its channel keep an operation from being restored. -/
def streamFailure (projection : LedgerProjection) (operation : StagedOperation) :
    Option (LedgerDropReason × String) :=
  match operation.apiCall with
  | .removeStreamFromChannel c s =>
    if s ∈ context.streamsOf projection c then none
    else some (.streamDetached, s!"Stream {s} is no longer assigned to channel " ++
      channelLabel operation c ++ ".")
  | .reorderChannelStreams c ss =>
    let current := context.streamsOf projection c
    if current.length = ss.length ∧ ∀ s ∈ ss, s ∈ current then none
    else some (.streamDetached, "The streams on channel " ++ channelLabel operation c ++
      " changed, so this reordering would drop or invent one.")
  | _ => none

def failureOf (projection : LedgerProjection) (operation : StagedOperation) :
    Option (LedgerDropReason × String) :=
  ((referencesOf operation.apiCall).findSome? (context.referenceFailure projection operation)).or
    (context.streamFailure projection operation)

end LedgerRestoreContext

/-- The channel whose own number an acknowledgement is about. -/
def StagedOperation.acknowledgingId? (operation : StagedOperation) : Option ℤ :=
  match operation.apiCall with
  | .updateChannel call => some call.channelId
  | _ => operation.tempChannelId?

namespace LedgerProjection

variable (projection : LedgerProjection)

def occupantsNow (self : Option ℤ) (number : ℚ) : List ℤ :=
  (projection.numberByChannel.items.filter fun e =>
    some e.1 ≠ self ∧ sameChannelNumber e.2 (some number)).map Prod.fst

/-- Whether the occupants an acknowledgement named still include all that stand on its number. -/
def stillCovered (operation : StagedOperation) (acknowledged : AcknowledgedDuplicate) : Bool :=
  (projection.occupantsNow operation.acknowledgingId? acknowledged.number).all
    (· ∈ acknowledged.occupantChannelIds)

variable (numberText : ℚ → String)

/-- The operation as it is restored, and what is reported of its acknowledgement. -/
def restored (operation : StagedOperation) : StagedOperation × List WithdrawnAcknowledgement :=
  match operation.apiCall.acknowledgementOf with
  | none => (operation, [])
  | some acknowledged =>
    if projection.stillCovered operation acknowledged then (operation, [])
    else
      ({ operation with apiCall := withoutAcknowledgement operation.apiCall },
        [{ id := operation.id
           description := operation.description
           detail :=
             "A channel you were not shown has joined number " ++ numberText acknowledged.number ++
               " while you were away, so your confirmation of that duplicate no longer describes it." ++
               " The number will be checked again before anything is applied." }])

end LedgerProjection

namespace LedgerRestoreContext

variable (context : LedgerRestoreContext) (numberText : ℚ → String)

/-- What an accepted operation creates, and how it moves the projection. -/
def accept (projection : LedgerProjection) (operation : StagedOperation) : LedgerProjection :=
  match operation.apiCall with
  | .createChannel call =>
    let created := match operation.tempChannelId? with
      | none => projection
      | some tempId =>
        { projection with
          stagedChannelIds := insert tempId projection.stagedChannelIds
          numberByChannel := projection.numberByChannel.set tempId call.channelNumber }
    if call.newGroupName.any (· ≠ "") then
      { created with stagedGroupIds := created.stagedGroupIds ∪ call.stagedGroupId.toFinset }
    else created
  | .createGroup _ tempGroupId =>
    { projection with stagedGroupIds := insert tempGroupId projection.stagedGroupIds }
  | .addStreamToChannel c s =>
    let streams := context.streamsOf projection c
    if s ∈ streams then projection
    else { projection with projectedStreams := projection.projectedStreams.set c (streams ++ [s]) }
  | .removeStreamFromChannel c s =>
    { projection with
      projectedStreams :=
        projection.projectedStreams.set c ((context.streamsOf projection c).filter (· ≠ s)) }
  | .reorderChannelStreams c ss =>
    { projection with projectedStreams := projection.projectedStreams.set c ss }
  | .updateChannel call =>
    match call.data.channelNumber with
    | none => projection
    | some number =>
      { projection with
        numberByChannel := projection.numberByChannel.set call.channelId number }
  | .deleteChannel c =>
    { projection with numberByChannel := projection.numberByChannel.erase c }
  | .bulkAssignChannelNumbers call =>
    { projection with
      numberByChannel :=
        call.assignments.foldl (fun m e => m.set e.1 (some e.2)) projection.numberByChannel }
  | _ => projection

/-- One round of the walk. -/
def planStep (walk : LedgerWalk) (operation : StagedOperation) : LedgerWalk :=
  match context.failureOf walk.projection operation with
  | some failure =>
    { walk with
      dropped := walk.dropped ++
        [⟨operation.id, operation.apiCall.type, operation.description, failure.1, failure.2⟩] }
  | none =>
    let restored := walk.projection.restored numberText operation
    { walk with
      projection := context.accept walk.projection operation
      restorable := walk.restorable ++ [restored.1]
      withdrawnAcknowledgements := walk.withdrawnAcknowledgements ++ restored.2 }

def walked (operations : List StagedOperation) : LedgerWalk :=
  operations.foldl (context.planStep numberText) { projection := context.startProjection }

end LedgerRestoreContext

def planLedgerRestore (numberText : ℚ → String) (operations : List StagedOperation)
    (context : LedgerRestoreContext) : LedgerRestorePlan :=
  let walk := context.walked numberText operations
  { restorable := walk.restorable
    dropped := walk.dropped
    withdrawnAcknowledgements := walk.withdrawnAcknowledgements }

end ChannelManager.EditMode
