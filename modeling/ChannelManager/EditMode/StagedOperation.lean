import ChannelManager.Bulk.Operation

/-!
# Staged operations

What Edit Mode queues: an API call with the snapshots taken around it, and the translation of a
queued operation into the bulk-commit wire format.
-/

namespace ChannelManager.EditMode

/-- `ChannelSnapshot`: the five fields `createSnapshot` copies. -/
structure ChannelSnapshot where
  id : ℤ
  channelNumber : Option ℚ
  name : String
  channelGroupId : Option ℤ
  streams : List ℤ
deriving DecidableEq

def createSnapshot (channel : Channel) : ChannelSnapshot where
  id := channel.id
  channelNumber := channel.channelNumber
  name := channel.name
  channelGroupId := channel.channelGroupId
  streams := channel.streams

/-- The operator's answer to a channel whose number moved on the server meanwhile. -/
structure ConcurrentNumberAcknowledgement where
  channelId : ℤ
  baselineNumber : Option ℚ
  serverNumber : Option ℚ
deriving DecidableEq

structure UpdateChannelCall where
  channelId : ℤ
  data : ChannelPatch
  acknowledgedDuplicate : Option AcknowledgedDuplicate := none
  acknowledgedConcurrentChanges : List ConcurrentNumberAcknowledgement := []
deriving DecidableEq

structure BulkAssignCall where
  channelIds : List ℤ
  startingNumber : Option ℚ := none
  acknowledgedConcurrentChanges : List ConcurrentNumberAcknowledgement := []
deriving DecidableEq

structure CreateChannelCall where
  name : String
  channelNumber : Option ℚ := none
  groupId : Option ℤ := none
  newGroupName : Option String := none
  stagedGroupId : Option ℤ := none
  logoId : Option ℤ := none
  logoUrl : Option String := none
  tvgId : Option String := none
  tvcGuideStationId : Option String := none
  acknowledgedDuplicate : Option AcknowledgedDuplicate := none
  expectedStreamIds : Option (List ℤ) := none
deriving DecidableEq

/-- `ApiCallSpec`: every API call Edit Mode can stage. -/
inductive ApiCallSpec where
  | updateChannel (call : UpdateChannelCall)
  | addStreamToChannel (channelId streamId : ℤ)
  | removeStreamFromChannel (channelId streamId : ℤ)
  | reorderChannelStreams (channelId : ℤ) (streamIds : List ℤ)
  | bulkAssignChannelNumbers (call : BulkAssignCall)
  | createChannel (call : CreateChannelCall)
  | deleteChannel (channelId : ℤ)
  | createGroup (name : String) (tempGroupId : ℤ)
  | deleteChannelGroup (groupId : ℤ)
  | renameChannelGroup (groupId : ℤ) (newName : String)
  | setProfileMembership (profileId channelId : ℤ) (enabled : Bool)
  | restoreChannelGroup (groupId : ℤ)
  | clearStreamStats (streamIds : List ℤ)
deriving DecidableEq

structure StagedOperation where
  id : String
  description : String
  apiCall : ApiCallSpec
  beforeSnapshot : List ChannelSnapshot := []
  afterSnapshot : List ChannelSnapshot := []
deriving DecidableEq

/-- The channels an operation's snapshots have to cover. -/
def affectedChannelIdsOf : ApiCallSpec → List ℤ
  | .updateChannel call => [call.channelId]
  | .addStreamToChannel c _ => [c]
  | .removeStreamFromChannel c _ => [c]
  | .reorderChannelStreams c _ => [c]
  | .deleteChannel c => [c]
  | .setProfileMembership _ c _ => [c]
  | .bulkAssignChannelNumbers call => call.channelIds
  | _ => []

/-- `operation.afterSnapshot[0]?.id`. -/
def StagedOperation.snapshotId? (operation : StagedOperation) : Option ℤ :=
  operation.afterSnapshot.head?.map (·.id)

/-- The temporary id a staged create introduces. -/
def StagedOperation.createdId? (operation : StagedOperation) : Option ℤ :=
  match operation.apiCall with
  | .createChannel _ => operation.snapshotId?
  | _ => none

/-- `concurrentAcknowledgementsOf`. -/
def concurrentAcknowledgementsOf (operation : StagedOperation) :
    List ConcurrentNumberAcknowledgement :=
  match operation.apiCall with
  | .updateChannel call => call.acknowledgedConcurrentChanges
  | .bulkAssignChannelNumbers call => call.acknowledgedConcurrentChanges
  | _ => []

def expectedServerNumber (operation : StagedOperation) (channelId : ℤ)
    (baselineNumber : Option ℚ) : Option ℚ :=
  match (concurrentAcknowledgementsOf operation).find? (·.channelId = channelId) with
  | some acknowledgement => acknowledgement.serverNumber
  | none => baselineNumber

/-- The name of the staged group an id refers to; nothing for a real or unknown one. -/
def stagedGroupName (stagedGroups : Dict ℤ String) (groupId : Option ℤ) : Option String :=
  groupId.bind fun g => if g < 0 then stagedGroups.get? g else none

/-- One arm of `buildBulkOperations`. A `createGroup` travels as a name, not as an operation, and
a create without a negative id is refused by the request model. -/
def wireOperation (stagedGroups : Dict ℤ String) (baselineNumbers : Dict ℤ (Option ℚ))
    (operation : StagedOperation) : Option BulkOperation :=
  match operation.apiCall with
  | .updateChannel call =>
    some <| .updateChannel
      { channelId := call.channelId
        data := call.data
        acknowledgedDuplicate := call.acknowledgedDuplicate
        expectedNumber :=
          if call.data.channelNumber.isSome ∧ 0 ≤ call.channelId then
            some ⟨expectedServerNumber operation call.channelId
              ((baselineNumbers.get? call.channelId).getD none)⟩
          else none }
  | .addStreamToChannel c s => some (.addStreamToChannel c s)
  | .removeStreamFromChannel c s => some (.removeStreamFromChannel c s)
  | .reorderChannelStreams c ss => some (.reorderChannelStreams c ss)
  | .bulkAssignChannelNumbers call =>
    some (.bulkAssignChannelNumbers
      { channelIds := call.channelIds, startingNumber := call.startingNumber })
  | .createChannel call =>
    let tempId := operation.snapshotId?.getD (-1)
    let pendingGroupName := call.newGroupName.or (stagedGroupName stagedGroups call.groupId)
    if h : tempId < 0 then
      some <| .createChannel
        { tempId := tempId
          name := call.name
          channelNumber := call.channelNumber
          groupId := if pendingGroupName.isSome then none else call.groupId
          newGroupName := pendingGroupName
          logoId := call.logoId
          logoUrl := call.logoUrl
          tvgId := call.tvgId
          tvcGuideStationId := call.tvcGuideStationId
          expectedStreamIds := call.expectedStreamIds
          acknowledgedDuplicate := call.acknowledgedDuplicate
          tempId_neg := h }
    else none
  | .deleteChannel c => some (.deleteChannel c)
  | .createGroup _ _ => none
  | .deleteChannelGroup g => some (.deleteChannelGroup g)
  | .renameChannelGroup g n => some (.renameChannelGroup g n)
  | .setProfileMembership p c e => some (.setProfileMembership p c e)
  | .restoreChannelGroup g => some (.restoreChannelGroup g)
  | .clearStreamStats ss => some (.clearStreamStats ss)

end ChannelManager.EditMode
