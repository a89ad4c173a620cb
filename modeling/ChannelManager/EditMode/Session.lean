import ChannelManager.EditMode.StagedOperation
import ChannelManager.Bulk.NumberPlan

/-!
# An Edit Mode session

`useEditMode.ts`: the working copy, the queue of staged operations and the undo and redo stacks, with
every call that changes them. `generateId n` is the `n`-th id the session draws.
-/

namespace ChannelManager.EditMode

/-- The fields a staged channel has that no operation names. -/
def stagedExtra (tempId : ℤ) : Dict String FieldValue :=
  (((∅ : Dict String FieldValue).set "uuid" (.str s!"temp-{tempId}")).set "auto_created"
    (.bool false) |>.set "auto_created_by" .null).set "auto_created_by_name" .null

/-- `buildStagedChannel`: the working-copy channel a staged create stands for. -/
def buildStagedChannel (call : CreateChannelCall) (tempId : ℤ) : Channel where
  id := tempId
  name := call.name
  channelNumber := call.channelNumber
  channelGroupId :=
    (if call.newGroupName.any (· ≠ "") then call.stagedGroupId else none).or call.groupId
  streams := []
  tvgId := call.tvgId
  tvcGuideStationid := call.tvcGuideStationId
  epgDataId := none
  streamProfileId := none
  logoId := call.logoId
  extra := match call.logoUrl with
    | none => stagedExtra tempId
    | some url => (stagedExtra tempId).set "_stagedLogoUrl" (.str url)

/-- Change the channel with one id, wherever it stands. -/
def mapChannel (c : ℤ) (g : Channel → Channel) (workingCopy : List Channel) : List Channel :=
  workingCopy.map fun ch => if ch.id = c then g ch else ch

def BulkAssignCall.numberOf (call : BulkAssignCall) (c : ℤ) : Option ℚ :=
  (call.channelIds.zipIdx.foldl
    (fun m e => m.set e.1 (call.startingNumber.getD 1 + e.2)) (∅ : Dict ℤ ℚ)).get? c

/-- `applyOperationToWorkingCopy`. A created channel is added by the caller. -/
def applyOperationToWorkingCopy (workingCopy : List Channel) (apiCall : ApiCallSpec) :
    List Channel :=
  match apiCall with
  | .updateChannel call => mapChannel call.channelId (·.patch call.data) workingCopy
  | .addStreamToChannel c s =>
    mapChannel c (fun ch => if s ∈ ch.streams then ch else { ch with streams := ch.streams ++ [s] })
      workingCopy
  | .removeStreamFromChannel c s =>
    mapChannel c (fun ch => { ch with streams := ch.streams.filter (· ≠ s) }) workingCopy
  | .reorderChannelStreams c ss => mapChannel c (fun ch => { ch with streams := ss }) workingCopy
  | .bulkAssignChannelNumbers call =>
    workingCopy.map fun ch =>
      match call.numberOf ch.id with
      | none => ch
      | some n => { ch with channelNumber := some n }
  | .deleteChannel c => workingCopy.filter (·.id ≠ c)
  | _ => workingCopy

/-- The effect of a whole operation, the channel a create adds included. -/
def applyWithCreate (workingCopy : List Channel) (apiCall : ApiCallSpec) (tempId : ℤ) :
    List Channel :=
  match apiCall with
  | .createChannel call => workingCopy ++ [buildStagedChannel call tempId]
  | _ => applyOperationToWorkingCopy workingCopy apiCall

def snapshotsOf (workingCopy : List Channel) (affected : List ℤ) : List ChannelSnapshot :=
  (workingCopy.filter (·.id ∈ affected)).map createSnapshot

/-- What `replayStagedOperations` rebuilds. -/
structure Replay where
  workingCopy : List Channel
  operations : List StagedOperation := []
  lowestTempChannelId : ℤ := 0
  lowestTempGroupId : ℤ := -999
  groupIdByName : Dict String ℤ := ∅

/-- The id a replayed create keeps: the one it was staged under, else one below all others. -/
def replayTempId (lowestTempChannelId : ℤ) (operation : StagedOperation) : ℤ :=
  match operation.snapshotId? with
  | some id => if id < 0 then id else lowestTempChannelId - 1
  | none => lowestTempChannelId - 1

def noteGroup (r : Replay) (name : String) (groupId : ℤ) : Replay :=
  { r with
    lowestTempGroupId := min r.lowestTempGroupId groupId
    groupIdByName :=
      if name ∈ r.groupIdByName then r.groupIdByName else r.groupIdByName.set name groupId }

def replayStep (r : Replay) (persisted : StagedOperation) : Replay :=
  let tempId := replayTempId r.lowestTempChannelId persisted
  let affected := affectedChannelIdsOf persisted.apiCall
  let workingCopy := applyWithCreate r.workingCopy persisted.apiCall tempId
  let rebuilt := { persisted with
    beforeSnapshot := snapshotsOf r.workingCopy affected
    afterSnapshot := match persisted.apiCall with
      | .createChannel _ => snapshotsOf workingCopy [tempId]
      | _ => snapshotsOf workingCopy affected }
  let next := { r with workingCopy := workingCopy, operations := r.operations ++ [rebuilt] }
  match persisted.apiCall with
  | .createChannel call =>
    let lowered := { next with lowestTempChannelId := min r.lowestTempChannelId tempId }
    match call.newGroupName, call.stagedGroupId with
    | some name, some groupId => if name ≠ "" then noteGroup lowered name groupId else lowered
    | _, _ => lowered
  | .createGroup name groupId => noteGroup next name groupId
  | _ => next

/-- `replayStagedOperations`. -/
def replayStagedOperations (base : List Channel) (operations : List StagedOperation) : Replay :=
  operations.foldl replayStep { workingCopy := base }

structure UndoEntry where
  id : String
  description : String
  operations : List StagedOperation
deriving DecidableEq

structure Batch where
  description : String
  operations : List StagedOperation := []
deriving DecidableEq

/-- An active session over the channel list it was entered with. -/
structure Session where
  channels : List Channel
  workingCopy : List Channel
  stagedOperations : List StagedOperation := []
  localUndoStack : List UndoEntry := []
  localRedoStack : List UndoEntry := []
  currentBatch : Option Batch := none
  nextTempId : ℤ := -1
  /-- The three refs that live beside the state. -/
  nextTempIdRef : ℤ := -1
  nextTempGroupIdRef : ℤ := -1000
  stagedGroupIdByNameRef : Dict String ℤ := ∅
  /-- How many ids have been drawn. -/
  generated : ℕ := 0
deriving DecidableEq

def enterEditMode (channels : List Channel) : Session :=
  { channels := channels, workingCopy := channels }

def Session.baselineSnapshot (s : Session) : List ChannelSnapshot := s.channels.map createSnapshot

structure OperationToStage where
  apiCall : ApiCallSpec
  description : String
  tempChannelId : Option ℤ := none

/-- What the loop of `stageOperations` carries. -/
structure StagingLoop where
  workingCopy : List Channel
  nextTempId : ℤ
  staged : List StagedOperation := []

variable (generateId : ℕ → String)

/-- One iteration of that loop; entry `index` draws two ids, its own and its undo entry's. -/
def stageEntry (generated : ℕ) (acc : StagingLoop) (index : ℕ) (entry : OperationToStage) :
    StagingLoop :=
  let tempId := entry.tempChannelId.getD acc.nextTempId
  let affected := affectedChannelIdsOf entry.apiCall
  let workingCopy := applyWithCreate acc.workingCopy entry.apiCall tempId
  let operation : StagedOperation :=
    { id := generateId (generated + 2 * index)
      description := entry.description
      apiCall := entry.apiCall
      beforeSnapshot := snapshotsOf acc.workingCopy affected
      afterSnapshot := match entry.apiCall with
        | .createChannel _ => snapshotsOf workingCopy [tempId]
        | _ => snapshotsOf workingCopy affected }
  { workingCopy := workingCopy
    nextTempId := match entry.apiCall with
      | .createChannel _ => acc.nextTempId - 1
      | _ => acc.nextTempId
    staged := acc.staged ++ [operation] }

def stageLoop (s : Session) (entries : List OperationToStage) : StagingLoop :=
  entries.zipIdx.foldl (fun acc e => stageEntry generateId s.generated acc e.2 e.1)
    { workingCopy := s.workingCopy, nextTempId := s.nextTempId }

/-- The undo entries a staging call adds outside a batch. -/
def undoEntriesOf (generated : ℕ) (staged : List StagedOperation)
    (undoDescription : Option String) : List UndoEntry :=
  match undoDescription with
  | none => staged.zipIdx.map fun e =>
      ⟨generateId (generated + 2 * e.2 + 1), e.1.description, [e.1]⟩
  | some description => [⟨generateId (generated + 1), description, staged⟩]

def stageOperations (s : Session) (entries : List OperationToStage)
    (undoDescription : Option String := none) : Session :=
  if entries = [] then s
  else
    let loop := stageLoop generateId s entries
    { s with
      workingCopy := loop.workingCopy
      stagedOperations := s.stagedOperations ++ loop.staged
      localUndoStack := match s.currentBatch with
        | some _ => s.localUndoStack
        | none => s.localUndoStack ++ undoEntriesOf generateId s.generated loop.staged undoDescription
      localRedoStack := []
      currentBatch := s.currentBatch.map fun b => { b with operations := b.operations ++ loop.staged }
      nextTempId := loop.nextTempId
      generated := s.generated + 2 * entries.length }

def stageOperation (s : Session) (apiCall : ApiCallSpec) (description : String) : Session :=
  stageOperations generateId s [{ apiCall := apiCall, description := description }]

/-- `ensureStagedGroupId`: allocation is idempotent by name. -/
def ensureStagedGroupId (s : Session) (name : String) : ℤ × Session :=
  match s.stagedGroupIdByNameRef.get? name with
  | some id => (id, s)
  | none =>
    (s.nextTempGroupIdRef,
      { s with
        nextTempGroupIdRef := s.nextTempGroupIdRef - 1
        stagedGroupIdByNameRef := s.stagedGroupIdByNameRef.set name s.nextTempGroupIdRef })

/-- The arguments the create wrappers take. -/
structure CreateChannelArgs where
  name : String
  channelNumber : Option ℚ := none
  groupId : Option ℤ := none
  newGroupName : Option String := none
  logoId : Option ℤ := none
  logoUrl : Option String := none
  tvgId : Option String := none
  tvcGuideStationId : Option String := none

/-- Draw the next temporary channel id, and one for the group when the call names a new one. -/
def drawCreateIds (s : Session) (args : CreateChannelArgs) : ℤ × Option ℤ × Session :=
  let drawn := { s with nextTempIdRef := s.nextTempIdRef - 1 }
  match args.newGroupName with
  | none => (s.nextTempIdRef, none, drawn)
  | some name =>
    if name = "" then (s.nextTempIdRef, none, drawn)
    else
      let group := ensureStagedGroupId drawn name
      (s.nextTempIdRef, some group.1, group.2)

def createCall (args : CreateChannelArgs) (stagedGroupId : Option ℤ)
    (expectedStreamIds : Option (List ℤ)) : CreateChannelCall where
  name := args.name
  channelNumber := args.channelNumber
  groupId := args.groupId
  newGroupName := args.newGroupName
  stagedGroupId := stagedGroupId
  logoId := args.logoId
  logoUrl := args.logoUrl
  tvgId := args.tvgId
  tvcGuideStationId := args.tvcGuideStationId
  expectedStreamIds := expectedStreamIds

def stageCreateChannel (s : Session) (args : CreateChannelArgs) : Session :=
  let ids := drawCreateIds s args
  stageOperations generateId ids.2.2
    [{ apiCall := .createChannel (createCall args ids.2.1 none)
       description := "Create channel \"" ++ args.name ++ "\""
       tempChannelId := some ids.1 }]

/-- With no stream the call throws before it changes anything. -/
def stageCreateChannelWithStreams (s : Session) (args : CreateChannelArgs) (streamIds : List ℤ) :
    Session :=
  let uniqueStreamIds := streamIds.eraseDups
  if uniqueStreamIds = [] then s
  else
    let ids := drawCreateIds s args
    stageOperations generateId ids.2.2
      ({ apiCall := .createChannel (createCall args ids.2.1 (some uniqueStreamIds))
         description := "Create channel \"" ++ args.name ++ "\""
         tempChannelId := some ids.1 } ::
       uniqueStreamIds.map fun streamId =>
        { apiCall := .addStreamToChannel ids.1 streamId
          description := "Assign stream to \"" ++ args.name ++ "\"" })
      (some ("Create channel \"" ++ args.name ++ "\" with streams"))

def stageCreateGroup (s : Session) (name : String) : Session :=
  let group := ensureStagedGroupId s name
  stageOperation generateId group.2 (.createGroup name group.1) ("Create group \"" ++ name ++ "\"")

/-- One operation per channel. -/
def stageSetProfileMembership (s : Session) (profileId : ℤ) (channelIds : List ℤ) (enabled : Bool)
    (description : String) : Session :=
  channelIds.foldl (fun s c =>
    stageOperation generateId s (.setProfileMembership profileId c enabled) description) s

def startBatch (s : Session) (description : String) : Session :=
  match s.currentBatch with
  | some _ => s
  | none => { s with currentBatch := some { description := description } }

def endBatch (s : Session) : Session :=
  match s.currentBatch with
  | none => s
  | some batch =>
    if batch.operations = [] then { s with currentBatch := none }
    else
      { s with
        localUndoStack := s.localUndoStack ++
          [⟨generateId s.generated, batch.description, batch.operations⟩]
        localRedoStack := []
        currentBatch := none
        generated := s.generated + 1 }

/-- Put a snapshot's four fields back on a channel. -/
def restoreFields (snapshot : ChannelSnapshot) (ch : Channel) : Channel :=
  { ch with
    channelNumber := snapshot.channelNumber
    name := snapshot.name
    channelGroupId := snapshot.channelGroupId
    streams := snapshot.streams }

/-- Restore one snapshot of an operation. A deleted channel comes back from the baseline. -/
def restoreSnapshot (s : Session) (apiCall : ApiCallSpec) (workingCopy : List Channel)
    (snapshot : ChannelSnapshot) : List Channel :=
  match workingCopy.findIdx? (·.id = snapshot.id) with
  | some i => workingCopy.modify i (restoreFields snapshot)
  | none =>
    match apiCall with
    | .deleteChannel _ =>
      match s.baselineSnapshot.find? (·.id = snapshot.id), s.channels.find? (·.id = snapshot.id) with
      | some baseline, some original => workingCopy ++ [restoreFields baseline original]
      | _, _ => workingCopy
    | _ => workingCopy

/-- Undo one operation on the working copy. -/
def undoOnWorkingCopy (s : Session) (workingCopy : List Channel) (operation : StagedOperation) :
    List Channel :=
  let restored := operation.beforeSnapshot.foldl (restoreSnapshot s operation.apiCall) workingCopy
  match operation.apiCall, operation.snapshotId? with
  | .createChannel _, some tempId => if tempId < 0 then restored.filter (·.id ≠ tempId) else restored
  | _, _ => restored

/-- Drop the first queued operation with this id. -/
def removeStaged (queue : List StagedOperation) (operation : StagedOperation) :
    List StagedOperation :=
  queue.eraseP (·.id = operation.id)

def localUndo (s : Session) : Session :=
  match s.localUndoStack.getLast? with
  | none => s
  | some entry =>
    { s with
      workingCopy := entry.operations.reverse.foldl (undoOnWorkingCopy s) s.workingCopy
      stagedOperations := entry.operations.reverse.foldl removeStaged s.stagedOperations
      localUndoStack := s.localUndoStack.dropLast
      localRedoStack := s.localRedoStack ++ [entry] }

/-- A redone create rebuilds its channel from the snapshot alone. -/
def redoneChannel (snapshot : ChannelSnapshot) : Channel where
  id := snapshot.id
  name := snapshot.name
  channelNumber := snapshot.channelNumber
  channelGroupId := snapshot.channelGroupId
  streams := snapshot.streams
  extra := stagedExtra snapshot.id

def redoOnWorkingCopy (workingCopy : List Channel) (operation : StagedOperation) : List Channel :=
  let applied := applyOperationToWorkingCopy workingCopy operation.apiCall
  match operation.apiCall, operation.afterSnapshot.head? with
  | .createChannel _, some snapshot =>
    if snapshot.id < 0 then applied ++ [redoneChannel snapshot] else applied
  | _, _ => applied

def localRedo (s : Session) : Session :=
  match s.localRedoStack.getLast? with
  | none => s
  | some entry =>
    { s with
      workingCopy := entry.operations.foldl redoOnWorkingCopy s.workingCopy
      stagedOperations := s.stagedOperations ++ entry.operations
      localUndoStack := s.localUndoStack ++ [entry]
      localRedoStack := s.localRedoStack.dropLast }

/-- Every call an operator can make in a session. -/
inductive Action where
  | updateChannel (channelId : ℤ) (data : ChannelPatch)
      (acknowledgedDuplicate : Option AcknowledgedDuplicate) (description : String)
  | addStream (channelId streamId : ℤ) (description : String)
  | removeStream (channelId streamId : ℤ) (description : String)
  | reorderStreams (channelId : ℤ) (streamIds : List ℤ) (description : String)
  | bulkAssignNumbers (channelIds : List ℤ) (startingNumber : ℚ) (description : String)
  | createChannel (args : CreateChannelArgs)
  | createChannelWithStreams (args : CreateChannelArgs) (streamIds : List ℤ)
  | deleteChannel (channelId : ℤ) (description : String)
  | createGroup (name : String)
  | deleteChannelGroup (groupId : ℤ) (description : String)
  | renameChannelGroup (groupId : ℤ) (newName description : String)
  | setProfileMembership (profileId : ℤ) (channelIds : List ℤ) (enabled : Bool)
      (description : String)
  | restoreChannelGroup (groupId : ℤ) (description : String)
  | clearStreamStats (streamIds : List ℤ) (description : String)
  | startBatch (description : String)
  | endBatch
  | localUndo
  | localRedo

def perform (s : Session) (action : Action) : Session :=
  match action with
  | .updateChannel c data ack description =>
    stageOperation generateId s
      (.updateChannel { channelId := c, data := data, acknowledgedDuplicate := ack }) description
  | .addStream c x description => stageOperation generateId s (.addStreamToChannel c x) description
  | .removeStream c x description =>
    stageOperation generateId s (.removeStreamFromChannel c x) description
  | .reorderStreams c xs description =>
    stageOperation generateId s (.reorderChannelStreams c xs) description
  | .bulkAssignNumbers cs start description =>
    stageOperation generateId s
      (.bulkAssignChannelNumbers { channelIds := cs, startingNumber := some start }) description
  | .createChannel args => stageCreateChannel generateId s args
  | .createChannelWithStreams args xs => stageCreateChannelWithStreams generateId s args xs
  | .deleteChannel c description => stageOperation generateId s (.deleteChannel c) description
  | .createGroup name => stageCreateGroup generateId s name
  | .deleteChannelGroup g description =>
    stageOperation generateId s (.deleteChannelGroup g) description
  | .renameChannelGroup g name description =>
    stageOperation generateId s (.renameChannelGroup g name) description
  | .setProfileMembership p cs enabled description =>
    stageSetProfileMembership generateId s p cs enabled description
  | .restoreChannelGroup g description =>
    stageOperation generateId s (.restoreChannelGroup g) description
  | .clearStreamStats xs description => stageOperation generateId s (.clearStreamStats xs) description
  | .startBatch description => EditMode.startBatch s description
  | .endBatch => EditMode.endBatch generateId s
  | .localUndo => EditMode.localUndo s
  | .localRedo => EditMode.localRedo s

end ChannelManager.EditMode
