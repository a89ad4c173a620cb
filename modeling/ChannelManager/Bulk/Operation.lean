import ChannelManager.Lib.Dict
import ChannelManager.Numbering.ChannelNumber

/-!
# Channels and bulk-commit operations

The channel record both halves of the program pass around, the payload of a PATCH, and the
operations of a bulk commit with the request's own check that every temporary channel id it
names was created by an earlier operation.
-/

namespace ChannelManager

/-- A JSON value of a channel field that has no name of its own here. -/
inductive FieldValue where
  | null
  | bool (b : Bool)
  | num (q : ℚ)
  | str (s : String)
  | raw (json : String)
deriving DecidableEq

/-- A channel record. A negative id is a staging placeholder, never a Dispatcharr id. -/
structure Channel where
  id : ℤ
  name : String
  channelNumber : Option ℚ := none
  channelGroupId : Option ℤ := none
  streams : List ℤ := []
  tvgId : Option String := none
  tvcGuideStationid : Option String := none
  epgDataId : Option ℤ := none
  streamProfileId : Option ℤ := none
  logoId : Option ℤ := none
  /-- Every other field the record carries, such as `uuid` and `auto_created`. -/
  extra : Dict String FieldValue := ∅
deriving DecidableEq

/-- A free-form bag of channel fields: an absent field is not being changed, and
`channelNumber := some none` clears the number. -/
structure ChannelPatch where
  name : Option String := none
  channelNumber : Option (Option ℚ) := none
  channelGroupId : Option (Option ℤ) := none
  streams : Option (List ℤ) := none
  tvgId : Option (Option String) := none
  tvcGuideStationid : Option (Option String) := none
  epgDataId : Option (Option ℤ) := none
  streamProfileId : Option (Option ℤ) := none
  logoId : Option (Option ℤ) := none
  extra : Dict String FieldValue := ∅
deriving DecidableEq

namespace ChannelPatch

/-- `existing.update(data)`: the later bag wins field by field. -/
def update (existing data : ChannelPatch) : ChannelPatch where
  name := data.name.or existing.name
  channelNumber := data.channelNumber.or existing.channelNumber
  channelGroupId := data.channelGroupId.or existing.channelGroupId
  streams := data.streams.or existing.streams
  tvgId := data.tvgId.or existing.tvgId
  tvcGuideStationid := data.tvcGuideStationid.or existing.tvcGuideStationid
  epgDataId := data.epgDataId.or existing.epgDataId
  streamProfileId := data.streamProfileId.or existing.streamProfileId
  logoId := data.logoId.or existing.logoId
  extra := existing.extra.update data.extra

end ChannelPatch

/-- The record after a PATCH: `{**channel, **data}`. -/
def Channel.patch (channel : Channel) (data : ChannelPatch) : Channel where
  id := channel.id
  name := data.name.getD channel.name
  channelNumber := data.channelNumber.getD channel.channelNumber
  channelGroupId := data.channelGroupId.getD channel.channelGroupId
  streams := data.streams.getD channel.streams
  tvgId := data.tvgId.getD channel.tvgId
  tvcGuideStationid := data.tvcGuideStationid.getD channel.tvcGuideStationid
  epgDataId := data.epgDataId.getD channel.epgDataId
  streamProfileId := data.streamProfileId.getD channel.streamProfileId
  logoId := data.logoId.getD channel.logoId
  extra := channel.extra.update data.extra

@[simp] theorem Channel.patch_id (channel : Channel) (data : ChannelPatch) :
    (channel.patch data).id = channel.id := rfl

@[simp] theorem Channel.patch_channelNumber (channel : Channel) (data : ChannelPatch) :
    (channel.patch data).channelNumber = data.channelNumber.getD channel.channelNumber := rfl

theorem Channel.patch_patch (channel : Channel) (data data' : ChannelPatch) :
    (channel.patch data).patch data' = channel.patch (data.update data') := by
  simp only [Channel.patch, ChannelPatch.update, Dict.update_update, Option.getD_or]

theorem Channel.patch_empty (channel : Channel) : channel.patch {} = channel := by
  simp only [Channel.patch, Option.getD_none]
  rfl

/-- The caller's recorded consent to one specific channel-number collision. -/
structure AcknowledgedDuplicate where
  number : ℚ
  occupantChannelIds : List ℤ
deriving DecidableEq

/-- The number the caller believes the channel is on. Its presence is the claim. -/
structure ExpectedChannelNumber where
  number : Option ℚ
deriving DecidableEq

structure BulkUpdateChannelOp where
  channelId : ℤ
  data : ChannelPatch
  acknowledgedDuplicate : Option AcknowledgedDuplicate := none
  expectedNumber : Option ExpectedChannelNumber := none
deriving DecidableEq

structure BulkAssignNumbersOp where
  channelIds : List ℤ
  startingNumber : Option ℚ := none
deriving DecidableEq

structure BulkCreateChannelOp where
  tempId : ℤ
  name : String
  channelNumber : Option ℚ := none
  groupId : Option ℤ := none
  newGroupName : Option String := none
  logoId : Option ℤ := none
  logoUrl : Option String := none
  tvgId : Option String := none
  tvcGuideStationId : Option String := none
  normalize : Bool := false
  expectedStreamIds : Option (List ℤ) := none
  acknowledgedDuplicate : Option AcknowledgedDuplicate := none
  /-- The request model declares the field `lt=0`. -/
  tempId_neg : tempId < 0 := by decide
deriving DecidableEq

/-- One operation of a bulk commit. -/
inductive BulkOperation where
  | updateChannel (op : BulkUpdateChannelOp)
  | addStreamToChannel (channelId streamId : ℤ)
  | removeStreamFromChannel (channelId streamId : ℤ)
  | reorderChannelStreams (channelId : ℤ) (streamIds : List ℤ)
  | bulkAssignChannelNumbers (op : BulkAssignNumbersOp)
  | createChannel (op : BulkCreateChannelOp)
  | deleteChannel (channelId : ℤ)
  | createGroup (name : String)
  | deleteChannelGroup (groupId : ℤ)
  | renameChannelGroup (groupId : ℤ) (newName : String)
  | setProfileMembership (profileId channelId : ℤ) (enabled : Bool)
  | restoreChannelGroup (groupId : ℤ)
  | clearStreamStats (streamIds : List ℤ)
deriving DecidableEq

/-- An omitted start is `1`. -/
def BulkAssignNumbersOp.start (op : BulkAssignNumbersOp) : ℚ := op.startingNumber.getD 1

/-- The numbers a range hands out, in list order. -/
def BulkAssignNumbersOp.assignments (op : BulkAssignNumbersOp) : List (ℤ × ℚ) :=
  op.channelIds.zipIdx.map fun e => (e.1, op.start + e.2)

namespace BulkOperation

/-- `getattr(op, "channelId", None)`. -/
def channelId? : BulkOperation → Option ℤ
  | updateChannel op => some op.channelId
  | addStreamToChannel c _ => some c
  | removeStreamFromChannel c _ => some c
  | reorderChannelStreams c _ => some c
  | deleteChannel c => some c
  | setProfileMembership _ c _ => some c
  | _ => none

/-- `_negative_channel_references`. -/
def negativeChannelReferences : BulkOperation → List ℤ
  | bulkAssignChannelNumbers op => op.channelIds.filter (· < 0)
  | op => (op.channelId?.filter (· < 0)).toList

end BulkOperation

/-- Why a request's temporary ids do not resolve. -/
inductive DependencyError where
  | duplicateTempId (tempId : ℤ) (index : ℕ)
  | tempChannelDependency (channelId : ℤ) (index : ℕ)
deriving DecidableEq

/-- The loop of `_validate_bulk_channel_dependencies`, from operation `index` on, with the
temporary ids created so far. -/
def validateDependenciesFrom (index : ℕ) (created : List ℤ) :
    List BulkOperation → Except DependencyError Unit
  | [] => .ok ()
  | .createChannel op :: ops =>
    if op.tempId ∈ created then .error (.duplicateTempId op.tempId index)
    else validateDependenciesFrom (index + 1) (op.tempId :: created) ops
  | op :: ops =>
    match op.negativeChannelReferences.find? (· ∉ created) with
    | some c => .error (.tempChannelDependency c index)
    | none => validateDependenciesFrom (index + 1) created ops

/-- `_validate_bulk_channel_dependencies`. -/
def validateBulkChannelDependencies (operations : List BulkOperation) :
    Except DependencyError Unit :=
  validateDependenciesFrom 0 [] operations

/-- The temporary id a create introduces. -/
def BulkOperation.createdTempId? : BulkOperation → Option ℤ
  | createChannel op => some op.tempId
  | _ => none

/-- What the dependency check establishes, one operation at a time. -/
inductive DependenciesResolved : List ℤ → List BulkOperation → Prop
  | nil (created : List ℤ) : DependenciesResolved created []
  | create (created : List ℤ) (op : BulkCreateChannelOp) (ops : List BulkOperation)
      (fresh : op.tempId ∉ created) (rest : DependenciesResolved (op.tempId :: created) ops) :
      DependenciesResolved created (.createChannel op :: ops)
  | other (created : List ℤ) (op : BulkOperation) (ops : List BulkOperation)
      (notCreate : op.createdTempId? = none)
      (known : ∀ c ∈ op.negativeChannelReferences, c ∈ created)
      (rest : DependenciesResolved created ops) : DependenciesResolved created (op :: ops)

theorem validateDependenciesFrom_ok {index : ℕ} {created : List ℤ} {ops : List BulkOperation} :
    validateDependenciesFrom index created ops = .ok () ↔ DependenciesResolved created ops := by
  induction ops generalizing index created with
  | nil => exact ⟨fun _ => .nil created, fun _ => rfl⟩
  | cons op ops ih =>
    cases hop : op.createdTempId? with
    | some t =>
      cases op <;> simp only [BulkOperation.createdTempId?, reduceCtorEq] at hop
      next op =>
        by_cases hmem : op.tempId ∈ created
        · constructor
          · simp [validateDependenciesFrom, hmem]
          · intro h
            cases h with
            | create fresh => exact absurd hmem ‹_›
            | other => simp [BulkOperation.createdTempId?] at *
        · rw [validateDependenciesFrom, if_neg hmem, ih]
          constructor
          · exact .create created op ops hmem
          · intro h
            cases h with
            | create _ _ _ _ rest => exact rest
            | other => simp [BulkOperation.createdTempId?] at *
    | none =>
      have heq : validateDependenciesFrom index created (op :: ops) =
          match op.negativeChannelReferences.find? (· ∉ created) with
          | some c => .error (.tempChannelDependency c index)
          | none => validateDependenciesFrom (index + 1) created ops := by
        cases op <;> first | rfl | simp [BulkOperation.createdTempId?] at hop
      rw [heq]
      cases hfind : op.negativeChannelReferences.find? (· ∉ created) with
      | some c =>
        constructor
        · simp
        · intro h
          have hc := List.find?_some hfind
          have hmem := List.mem_of_find?_eq_some hfind
          cases h with
          | create => simp [BulkOperation.createdTempId?] at hop
          | other _ _ _ _ known => simp [known c hmem] at hc
      | none =>
        rw [List.find?_eq_none] at hfind
        rw [ih]
        constructor
        · exact .other created op ops hop (by simpa using hfind)
        · intro h
          cases h with
          | create => simp [BulkOperation.createdTempId?] at hop
          | other _ _ _ _ _ rest => exact rest

/-- A request is accepted exactly when every temporary id it names was created before. -/
theorem validateBulkChannelDependencies_ok {ops : List BulkOperation} :
    validateBulkChannelDependencies ops = .ok () ↔ DependenciesResolved [] ops :=
  validateDependenciesFrom_ok

end ChannelManager
