import ChannelManager.Bulk.Upstream

/-!
# Executing the operations of a bulk commit

Phase 2 of `_run_bulk_commit`: one branch per operation type, the shared failure handler, and the
loop that runs them in numbering order.
-/

namespace ChannelManager

variable {σ : Type}

/-- What Phase 0 leaves for the phases after it. -/
structure BulkContext (σ : Type) where
  up : Upstream σ
  continueOnError : Bool
  channelsResolved : Bool
  streamsResolved : Bool
  existingStreams : Dict ℤ String
  tempChannelNames : Dict ℤ String
  /-- The lineup as it stood when the run started. -/
  numbersAtRunStart : Dict ℤ (Option ℚ)
  formatChannelNumber : Option ℚ → String

namespace Exec

def resolveId (s : Exec σ) (channelId : ℤ) : ℤ := (s.result.tempIdMap.get? channelId).getD channelId

def resolveGroupId (s : Exec σ) (groupId : Option ℤ) (newGroupName : Option String) : Option ℤ :=
  match newGroupName with
  | some name => if name = "" then groupId else (s.result.groupIdMap.get? name).or groupId
  | none => groupId

def channelNameOf (s : Exec σ) (c : ℤ) : String :=
  match s.existingChannels.get? c with
  | some ch => if ch.name = "" then s!"Channel {c}" else ch.name
  | none => s!"Channel {c}"

/-- The number the local catalog has for a channel. -/
def catalogNumber (s : Exec σ) (c : ℤ) : Option ℚ := (s.existingChannels.get? c).bind (·.channelNumber)

end Exec

def rejectUnresolvedChannel (channelId : ℤ) (label : String) : Eff (Exec σ) ℤ :=
  if channelId < 0 then
    throw (s!"Channel {channelId} does not exist. A temp channel id must be created by a " ++
      s!"createChannel operation in the same batch ({label}).")
  else pure channelId

def rejectUnresolvedGroup (groupId : Option ℤ) (label : String) : Eff (Exec σ) (Option ℤ) :=
  match groupId with
  | some g =>
    if g < 0 then
      throw (s!"Channel group {g} does not exist. A new group must be sent in groupsToCreate and " ++
        s!"referenced by name ({label}).")
    else pure (some g)
  | none => pure none

/-- Whether a text contains another. -/
def mentions (needle text : String) : Bool := decide (needle.toList <:+: text.toList)

/-- `stream_is_missing`: known to be absent, not merely unread. -/
def BulkContext.streamIsMissing (ctx : BulkContext σ) (streamId : ℤ) : Bool :=
  ctx.streamsResolved && streamId ∉ ctx.existingStreams

/-- Refuse to write a number over a change the caller has not seen. -/
def checkExpectedNumber (ctx : BulkContext σ) (op : BulkUpdateChannelOp) (channelId : ℤ) :
    Eff (Exec σ) Unit :=
  match op.expectedNumber, op.data.channelNumber with
  | some expected, some _ =>
    if ctx.channelsResolved then
      let current := (ctx.numbersAtRunStart.get? channelId).getD none
      if sameChannelNumberOrBothUnset current expected.number then pure ()
      else
        throw (s!"Channel {channelId} was not renumbered: it is on channel number " ++
          ctx.formatChannelNumber current ++ ", and this request expected " ++
          ctx.formatChannelNumber expected.number ++ ". Somebody else changed it. " ++
          "Re-read the channel and decide before sending this again.")
    else
      throw (s!"Channel {channelId} was not renumbered: the channel lineup could not be read, so " ++
        "ECM could not check whether anybody else changed its number first. Nothing about this " ++
        "channel was changed.")
  | _, _ => pure ()

/-- A field of the payload that was not known to hold its value already. -/
def changedField {ν : Type} [DecidableEq ν] (name : String) (before : Option ν)
    (after : Option ν) : List String :=
  match after with
  | none => []
  | some v => if before = some v then [] else [name]

/-- The fields `describe_channel_update` finds changed; without a record every field is. -/
def describeChannelUpdate (before : Option Channel) (data : ChannelPatch) : List String :=
  changedField "name" (before.map (·.name)) data.name ++
    changedField "channel_number" (before.map (·.channelNumber)) data.channelNumber ++
    changedField "tvg_id" (before.map (·.tvgId)) data.tvgId ++
    changedField "logo_id" (before.map (·.logoId)) data.logoId ++
    changedField "channel_group_id" (before.map (·.channelGroupId)) data.channelGroupId ++
    changedField "epg_data_id" (before.map (·.epgDataId)) data.epgDataId ++
    changedField "stream_profile_id" (before.map (·.streamProfileId)) data.streamProfileId ++
    changedField "tvc_guide_stationid" (before.map (·.tvcGuideStationid)) data.tvcGuideStationid ++
    changedField "streams" (before.map (·.streams)) data.streams ++
    data.extra.items.flatMap fun e => changedField e.1 (before.bind (·.extra.get? e.1)) (some e.2)

/-- A row when there is something to record. -/
def rowIf (wrote : Bool) (row : JournalRow) : JournalRowSpec :=
  if wrote then .rows [row] else .nothingToJournal

def executeUpdateChannel (ctx : BulkContext σ) (op : BulkUpdateChannelOp) : Eff (Exec σ) Unit := do
  let s ← get
  let channelId ← rejectUnresolvedChannel (s.resolveId op.channelId) "updateChannel"
  let _ ← rejectUnresolvedGroup (op.data.channelGroupId.getD none)
    s!"updateChannel on channel {channelId}"
  checkExpectedNumber ctx op channelId
  let before := s.existingChannels.get? channelId
  let changes := describeChannelUpdate before op.data
  write (ctx.up.updateChannel channelId op.data)
  match op.data.channelNumber with
  | some after =>
    modify fun s => { s with
      compensator := s.compensator.recordLanded channelId (s.channelNameOf channelId)
        (before.bind (·.channelNumber)) after
      numberingLanded := true }
  | none => pure ()
  tellLedger (·.recordPersisted
    (rowIf (changes ≠ []) ⟨"update", some channelId, s.channelNameOf channelId⟩))
  -- the catalog follows, so a later operation names the channel by its new name
  modify fun s => { s with
    existingChannels := match s.existingChannels.get? channelId with
      | some ch => s.existingChannels.set channelId (ch.patch op.data)
      | none => s.existingChannels }

/-- Replace a channel's stream list and say so. -/
def writeStreams (ctx : BulkContext σ) (channel : Channel) (channelId : ℤ) (streams : List ℤ)
    (actionType : String) : Eff (Exec σ) Unit := do
  let s ← get
  write (ctx.up.updateChannel channelId { streams := some streams })
  tellLedger (·.recordPersisted (.rows [⟨actionType, some channelId,
    if channel.name = "" then s.channelNameOf channelId else channel.name⟩]))

def executeAddStream (ctx : BulkContext σ) (channelId streamId : ℤ) : Eff (Exec σ) Unit := do
  let s ← get
  let channelId ← rejectUnresolvedChannel (s.resolveId channelId)
    ("addStreamToChannel for '" ++
      (ctx.tempChannelNames.get? channelId).getD s!"Channel {channelId}" ++ "'")
  if ctx.streamIsMissing streamId then throw s!"Stream {streamId} does not exist"
  else
    let channel ← request (ctx.up.getChannel channelId)
    if streamId ∈ channel.streams then tellLedger (·.sayAppliedWithoutWriting)
    else writeStreams ctx channel channelId (channel.streams ++ [streamId]) "stream_add"

def executeRemoveStream (ctx : BulkContext σ) (channelId streamId : ℤ) : Eff (Exec σ) Unit := do
  let s ← get
  let channelId ← rejectUnresolvedChannel (s.resolveId channelId) "removeStreamFromChannel"
  let channel ← request (ctx.up.getChannel channelId)
  if streamId ∈ channel.streams then
    writeStreams ctx channel channelId (channel.streams.erase streamId) "stream_remove"
  else tellLedger (·.sayAppliedWithoutWriting)

/-- `validate_stream_permutation`: why the new list is not a reorder of the current one. -/
def validateStreamPermutation (current new : List ℤ) : Option String :=
  if ¬new.Nodup then
    let dupes := (new.filter fun x => 1 < new.count x).dedup.insertionSort (· ≤ ·)
    some s!"streamIds contains duplicate ids: {dupes}"
  else
    let missing := (current.filter (· ∉ new)).dedup.insertionSort (· ≤ ·)
    let unknown := (new.filter (· ∉ current)).dedup.insertionSort (· ≤ ·)
    if missing = [] ∧ unknown = [] then none
    else
      some ("streamIds is not a permutation of the channel's current streams (" ++ "; ".intercalate
        ((if missing = [] then [] else [s!"would detach attached streams {missing}"]) ++
          if unknown = [] then [] else [s!"includes streams not on the channel {unknown}"]) ++ ")")

def executeReorderStreams (ctx : BulkContext σ) (channelId : ℤ) (streamIds : List ℤ) :
    Eff (Exec σ) Unit := do
  let s ← get
  let channelId ← rejectUnresolvedChannel (s.resolveId channelId) "reorderChannelStreams"
  let channel ← request (ctx.up.getChannel channelId)
  match validateStreamPermutation channel.streams streamIds with
  | some e => throw (s!"Cannot reorder streams for channel {channelId}: " ++ e)
  | none => writeStreams ctx channel channelId streamIds "stream_reorder"

/-- The channels a range moves, with the number each ends on; one already there is left out. -/
def renumberedBy (s : Exec σ) (resolvedIds : List ℤ) (start : ℚ) : Dict ℤ ℚ :=
  resolvedIds.zipIdx.foldl
    (fun renumbered e =>
      if s.catalogNumber e.1 = some (start + e.2) then renumbered
      else renumbered.set e.1 (start + e.2))
    ∅

def resolveChannels (label : String) : List ℤ → Eff (Exec σ) (List ℤ)
  | [] => pure []
  | c :: cs => do
    let s ← get
    let resolved ← rejectUnresolvedChannel (s.resolveId c) label
    let rest ← resolveChannels label cs
    pure (resolved :: rest)

/-- The rows of a range: one per channel that moves. -/
def assignedRows (s : Exec σ) (resolvedIds : List ℤ) (start : ℚ) : List JournalRow :=
  (resolvedIds.zipIdx.filter fun e => s.catalogNumber e.1 ≠ some (start + e.2)).map fun e =>
    ⟨"reorder", some e.1, s.channelNameOf e.1⟩

def executeAssignNumbers (ctx : BulkContext σ) (op : BulkAssignNumbersOp) : Eff (Exec σ) Unit := do
  let resolvedIds ← resolveChannels "bulkAssignChannelNumbers" op.channelIds
  let s ← get
  let renumbered := (renumberedBy s resolvedIds op.start).items
  let rows := assignedRows s resolvedIds op.start
  write (ctx.up.assignChannelNumbers resolvedIds op.startingNumber)
  modify fun s => { s with
    compensator := renumbered.foldl
      (fun compensator e =>
        compensator.recordLanded e.1 (s.channelNameOf e.1) (s.catalogNumber e.1) (some e.2))
      s.compensator
    numberingLanded := true }
  tellLedger (·.recordPersisted (if rows = [] then .nothingToJournal else .rows rows))
  modify fun s => { s with
    existingChannels := renumbered.foldl
      (fun existing e =>
        match existing.get? e.1 with
        | some ch => existing.set e.1 { ch with channelNumber := some e.2 }
        | none => existing)
      s.existingChannels }

/-- First occurrence of a url wins. -/
def indexLogos (logos : List Logo) : Dict String (Option ℤ) :=
  logos.foldl
    (fun index logo =>
      if logo.url = "" ∨ logo.url ∈ index then index else index.set logo.url logo.id)
    ∅

/-- Read the catalog on first use; a read that breaks off leaves what it had got. -/
def ensureLogoIndex (ctx : BulkContext σ) : Eff (Exec σ) Unit := do
  let s ← get
  match s.logoIndex with
  | some _ => pure ()
  | none =>
    let read ← request ctx.up.getLogos
    modify fun s => { s with logoIndex := some (indexLogos read.rows) }
    match read.error with
    | some e => throw e
    | none => pure ()

/-- The id a logo body carries. -/
def logoBodyId (id : Option ℤ) : Eff (Exec σ) ℤ :=
  match id with
  | some id => pure id
  | none => throw "'id'"

/-- `resolve_logo_id`. -/
def resolveLogoId (ctx : BulkContext σ) (logoUrl logoName : String) : Eff (Exec σ) ℤ := do
  ensureLogoIndex ctx
  let s ← get
  match (s.logoIndex.getD ∅).get? logoUrl with
  | some existing => logoBodyId existing
  | none =>
    let created ← write (ctx.up.createLogo logoName logoUrl)
    tellLedger (·.recordWrite (.rows [⟨"logo_create", created, some logoName⟩]))
    modify fun s => { s with logoIndex := some ((s.logoIndex.getD ∅).set logoUrl created) }
    logoBodyId created

/-- The name a create goes out under, and the failure to disclose once the channel exists. -/
def normalizedName (ctx : BulkContext σ) (op : BulkCreateChannelOp) :
    Eff (Exec σ) (String × Option NormalizationFailure) :=
  if op.normalize then
    tryCatch
      (do
        let name ← request (ctx.up.normalize op.name)
        pure (name, none))
      (fun e => pure (op.name, some ⟨op.tempId, op.name, op.name, e⟩))
  else pure (op.name, none)

/-- The logo a create goes out with; a failed lookup is a channel without one. -/
def createLogoId (ctx : BulkContext σ) (op : BulkCreateChannelOp) (channelName : String) :
    Eff (Exec σ) (Option ℤ) :=
  match op.logoUrl with
  | some url =>
    if (op.logoId = none ∨ op.logoId = some 0) ∧ url ≠ "" then
      tryCatch
        (do
          let id ← resolveLogoId ctx url channelName
          pure (some id))
        (fun _ => pure op.logoId)
    else pure op.logoId
  | none => pure op.logoId

/-- The name the response carries, or the one that was sent. -/
def createdName (created : Option Channel) (channelName : String) : String :=
  match created with
  | some ch => if ch.name = "" then channelName else ch.name
  | none => channelName

def executeCreateChannel (ctx : BulkContext σ) (op : BulkCreateChannelOp) : Eff (Exec σ) Unit := do
  let s ← get
  let groupId ← rejectUnresolvedGroup (s.resolveGroupId op.groupId op.newGroupName)
    ("createChannel '" ++ op.name ++ "'")
  let named ← normalizedName ctx op
  let logoId ← createLogoId ctx op named.1
  let created ← write (ctx.up.createChannel
    { name := named.1
      channelNumber := op.channelNumber
      channelGroupId := groupId
      logoId := logoId
      tvgId := op.tvgId
      tvcGuideStationid := op.tvcGuideStationId })
  tellLedger (·.recordPersisted
    (.rows [⟨"create", created.map (·.id), createdName created named.1⟩]) (some op.tempId))
  modify fun s => { s with
    result := { s.result with
      normalizationFailures := s.result.normalizationFailures ++ named.2.toList } }
  match created with
  | none =>
    throw ("Dispatcharr accepted the create for '" ++ named.1 ++ "' but returned no usable " ++
      s!"channel id. The channel exists; ECM cannot map temp id {op.tempId} to it, so any " ++
      "operation in this batch that referenced it will fail. Do not retry the create — " ++
      "reconcile against Dispatcharr instead.")
  | some channel =>
    modify fun s => { s with
      result := { s.result with tempIdMap := s.result.tempIdMap.set op.tempId channel.id }
      existingChannels := s.existingChannels.set channel.id channel }

/-- An upstream answer that says the entity is not there. -/
def saysNotFound (e : String) : Bool := mentions "404" e || mentions "not found" e.toLower

def executeDeleteChannel (ctx : BulkContext σ) (channelId : ℤ) : Eff (Exec σ) Unit := do
  let s ← get
  let channelId ← rejectUnresolvedChannel (s.resolveId channelId) "deleteChannel"
  let reallyDeleted ← tryCatch
    (do
      write (ctx.up.deleteChannel channelId)
      pure true)
    (fun e => if saysNotFound e then pure false else throw e)
  tellLedger (·.recordPersisted
    (rowIf reallyDeleted ⟨"delete", some channelId, s.channelNameOf channelId⟩))

def executeCreateGroup (ctx : BulkContext σ) (name : String) : Eff (Exec σ) Unit := do
  let s ← get
  if name ∈ s.result.groupIdMap then tellLedger (·.sayAppliedWithoutWriting)
  else
    let created ← write (ctx.up.createChannelGroup name)
    tellLedger (·.recordPersisted (.rows [⟨"group_create", created, name⟩]))
    match created with
    | some id =>
      modify fun s => { s with
        result := { s.result with groupIdMap := s.result.groupIdMap.set name id } }
    | none => throw "'id'"

def ungroupedTargetGroupName : String := "Default Group"

/-- `_still_belongs_to_group`: only positive evidence of a move withholds the write. -/
def stillBelongsToGroup (ctx : BulkContext σ) (channelId groupId : ℤ) : Eff (Exec σ) Bool :=
  tryCatch
    (do
      let current ← request (ctx.up.getChannel channelId)
      pure (current.channelGroupId = some groupId))
    (fun _ => pure true)

/-- Move one member of a group that is about to be deleted. -/
def moveMember (ctx : BulkContext σ) (groupId : ℤ) (target : ChannelGroup) (member : Channel) :
    Eff (Exec σ) Unit := do
  if ← stillBelongsToGroup ctx member.id groupId then
    write (ctx.up.updateChannel member.id { channelGroupId := some (some target.id) })
    tellLedger (·.recordWrite (.rows [⟨"update", some member.id,
      if member.name = "" then s!"Channel {member.id}" else member.name⟩]))
  else pure ()

def reparentGroupChannels (ctx : BulkContext σ) (groupId : ℤ) : Eff (Exec σ) Unit := do
  let read ← request ctx.up.getChannels
  match read.error with
  | some e => throw e
  | none =>
    let members := read.rows.filter (·.channelGroupId = some groupId)
    if members = [] then pure ()
    else
      let groups ← request ctx.up.getChannelGroups
      match groups.find? (·.name.trimAscii.toString.toLower = ungroupedTargetGroupName.toLower) with
      | none =>
        throw (s!"Cannot move {members.length} channel(s) out of this group: no \"" ++
          ungroupedTargetGroupName ++ "\" exists to move them to, and Dispatcharr does not allow " ++
          "a channel without a group. Create a group named \"" ++ ungroupedTargetGroupName ++
          "\", move the channels somewhere yourself, or delete the channels along with the group.")
      | some target =>
        if target.id = groupId then
          throw ("Cannot delete \"" ++ ungroupedTargetGroupName ++ "\": it is where channels are " ++
            s!"moved when their group is deleted, so its own {members.length} channel(s) have " ++
            "nowhere to go. Move them to another group first, or delete the channels along with " ++
            "the group.")
        else Eff.each (moveMember ctx groupId target) members

def executeDeleteChannelGroup (ctx : BulkContext σ) (groupId : ℤ) : Eff (Exec σ) Unit := do
  reparentGroupChannels ctx groupId
  write (ctx.up.deleteChannelGroup groupId)
  tellLedger (·.recordPersisted (.rows [⟨"group_delete", some groupId, s!"Group {groupId}"⟩]))

def executeSetProfileMembership (ctx : BulkContext σ) (profileId channelId : ℤ) (enabled : Bool) :
    Eff (Exec σ) Unit := do
  let s ← get
  let channelId ← rejectUnresolvedChannel (s.resolveId channelId)
    s!"setProfileMembership on profile {profileId}"
  write (ctx.up.updateProfileChannel profileId channelId enabled)
  tellLedger (·.recordPersisted
    (.rows [⟨"profile_membership", some channelId, s.channelNameOf channelId⟩]))

def executeRestoreChannelGroup (ctx : BulkContext σ) (groupId : ℤ) : Eff (Exec σ) Unit := do
  let restoredName ← request (ctx.up.restoreHiddenGroup groupId)
  tellLedger (·.recordPersisted
    (rowIf restoredName.isSome ⟨"group_restore", some groupId, restoredName⟩))

/-- How many streams had probe stats to clear. -/
def clearedStats (ctx : BulkContext σ) (streamIds : List ℤ) : Eff (Exec σ) ℕ :=
  if streamIds = [] then pure 0 else request (ctx.up.clearStreamStats streamIds)

def executeClearStreamStats (ctx : BulkContext σ) (streamIds : List ℤ) : Eff (Exec σ) Unit := do
  let cleared ← clearedStats ctx streamIds
  tellLedger (·.recordPersisted
    (rowIf (cleared ≠ 0) ⟨"stream_stats_clear", none, some "Stream Stats"⟩))

def executeRenameChannelGroup (ctx : BulkContext σ) (groupId : ℤ) (newName : String) :
    Eff (Exec σ) Unit := do
  write (ctx.up.updateChannelGroup groupId newName)
  tellLedger (·.recordPersisted (.rows [⟨"group_rename", some groupId, some newName⟩]))

/-- The branch of an operation. -/
def executeOperation (ctx : BulkContext σ) : BulkOperation → Eff (Exec σ) Unit
  | .updateChannel op => executeUpdateChannel ctx op
  | .addStreamToChannel c x => executeAddStream ctx c x
  | .removeStreamFromChannel c x => executeRemoveStream ctx c x
  | .reorderChannelStreams c xs => executeReorderStreams ctx c xs
  | .bulkAssignChannelNumbers op => executeAssignNumbers ctx op
  | .createChannel op => executeCreateChannel ctx op
  | .deleteChannel c => executeDeleteChannel ctx c
  | .createGroup name => executeCreateGroup ctx name
  | .deleteChannelGroup g => executeDeleteChannelGroup ctx g
  | .renameChannelGroup g name => executeRenameChannelGroup ctx g name
  | .setProfileMembership p c enabled => executeSetProfileMembership ctx p c enabled
  | .restoreChannelGroup g => executeRestoreChannelGroup ctx g
  | .clearStreamStats xs => executeClearStreamStats ctx xs

end ChannelManager
