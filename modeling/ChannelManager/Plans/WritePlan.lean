import ChannelManager.Plans.LiveClient

/-!
# Recorded pipeline writes

A planning run talks to a client that answers reads and records writes; replay validates what
planning has read and then sends the recorded writes, with the temporary ids of planned entities
replaced by the ids of the created ones.
-/

namespace ChannelManager.Plans

open Eff

/-- `PipelineWritePlan`: the recorded writes and what must still hold when they are replayed, by
channel, by group, and by profile and channel. -/
structure PipelineWritePlan where
  writes : List Write
  channelPreconditions : Dict ℤ Record
  groupPreconditions : Dict ℤ Json
  profilePreconditions : Dict (ℤ × ℤ) Bool

/-- `PlanningDispatcharrClient`: its plan, the next temporary id and the channels as the recorded
writes leave them. -/
structure Planner where
  plan : PipelineWritePlan
  nextTempId : ℤ
  shadowChannels : Dict ℤ Record

/-- A planning client before its first call. -/
def Planner.start : Planner where
  plan := ⟨[], ∅, ∅, ∅⟩
  nextTempId := -1
  shadowChannels := ∅

/-- The fields of a channel that preconditions keep besides its id. -/
def trackedFields : List String :=
  ["name", "streams", "channel_group_id", "logo_id", "tvg_id", "channel_number",
    "stream_profile_id", "epg_data_id"]

namespace Planner

/-- `get_channel`. -/
def getChannel (live : Live) (channelId : ℤ) : Eff Planner Record := do
  match (← get).shadowChannels.get? channelId with
  | some channel => pure channel
  | none => Eff.ofExcept (live.getChannel channelId)

/-- The record `_channel_before` keeps of a channel that planning reads. -/
def relevant (channelId : ℤ) (channel : Record) (streams : List Json) : Record :=
  Dict.ofList [("id", .int channelId), ("name", channel.read "name"), ("streams", .list streams),
    ("channel_group_id", channel.read "channel_group_id"), ("logo_id", channel.read "logo_id"),
    ("tvg_id", channel.read "tvg_id"), ("channel_number", channel.read "channel_number"),
    ("stream_profile_id", channel.read "stream_profile_id"),
    ("epg_data_id", channel.read "epg_data_id")]

/-- `setdefault`. -/
def setDefault {κ ν : Type} [DecidableEq κ] (d : Dict κ ν) (k : κ) (v : ν) : Dict κ ν :=
  if k ∈ d then d else d.set k v

/-- Keep what was read of a channel, as its precondition unless it has one, and as its shadow. -/
def keep (channelId : ℤ) (before : Record) (planner : Planner) : Planner where
  plan := { planner.plan with
    channelPreconditions := setDefault planner.plan.channelPreconditions channelId before }
  nextTempId := planner.nextTempId
  shadowChannels := planner.shadowChannels.set channelId before

/-- `_channel_before`. -/
def channelBefore (live : Live) (channelId : ℤ) : Eff Planner Record := do
  match (← get).shadowChannels.get? channelId with
  | some channel => pure channel
  | none =>
    let channel ← Eff.ofExcept (live.getChannel channelId)
    let streams ← Eff.ofExcept (channel.read "streams").orEmpty.toList
    let before := relevant channelId channel streams
    modify (keep channelId before)
    pure before

/-- `_record`. -/
def record (write : Write) : Eff Planner Unit :=
  modify fun planner =>
    { planner with plan := { planner.plan with writes := planner.plan.writes ++ [write] } }

/-- Set what the recorded writes make of a channel. -/
def shadow (channelId : ℤ) (channel : Record) : Eff Planner Unit :=
  modify fun planner =>
    { planner with shadowChannels := planner.shadowChannels.set channelId channel }

/-- Hand out the next temporary id. -/
def tempId : Eff Planner ℤ := do
  let planner ← get
  set { planner with nextTempId := planner.nextTempId - 1 }
  pure planner.nextTempId

/-- `create_channel`. -/
def createChannel (data : Record) : Eff Planner Record := do
  let id ← tempId
  let created := Dict.update (Dict.ofList [("id", .int id)]) data
  shadow id created
  record (.createChannel data)
  pure created

/-- `create_channel_group`. -/
def createChannelGroup (name : String) : Eff Planner Record := do
  let id ← tempId
  record (.createChannelGroup name)
  pure (Dict.ofList [("id", .int id), ("name", .str name)])

/-- `create_logo`. -/
def createLogo (data : Record) : Eff Planner Record := do
  let id ← tempId
  record (.createLogo data)
  pure (Dict.update (Dict.ofList [("id", .int id)]) data)

/-- `update_channel`. -/
def updateChannel (live : Live) (channelId : ℤ) (data : Record) : Eff Planner Record := do
  let current ← channelBefore live channelId
  let current := Dict.update current data
  shadow channelId current
  record (.updateChannel channelId data)
  pure current

/-- `delete_channel`. -/
def deleteChannel (live : Live) (channelId : ℤ) : Eff Planner Record := do
  let _ ← channelBefore live channelId
  record (.deleteChannel channelId)
  modify fun planner =>
    { planner with shadowChannels := planner.shadowChannels.erase channelId }
  pure ∅

/-- `delete_channel_group`. -/
def deleteChannelGroup (live : Live) (groupId : ℤ) : Eff Planner Record := do
  match live.groups.get? groupId with
  | none => throw s!"channel group {groupId} not found during planning"
  | some name =>
    modify fun planner =>
      { planner with plan := { planner.plan with
          groupPreconditions := planner.plan.groupPreconditions.set groupId name } }
    record (.deleteChannelGroup groupId)
    pure ∅

/-- `assign_channel_numbers`. -/
def assignChannelNumbers (live : Live) (channelIds : List ℤ) (startingNumber : Json) :
    Eff Planner Record := do
  each (fun channelId => do let _ ← channelBefore live channelId) channelIds
  record (.assignChannelNumbers channelIds startingNumber)
  pure (Dict.ofList [("status", .str "planned")])

/-- `update_profile_channel`. -/
def updateProfileChannel (live : Live) (profileId channelId : ℤ) (data : Record) :
    Eff Planner Record := do
  let _ ← channelBefore live channelId
  match live.profiles.get? profileId with
  | none => throw s!"channel profile {profileId} not found during planning"
  | some members =>
    modify fun planner =>
      { planner with plan := { planner.plan with
          profilePreconditions := planner.plan.profilePreconditions.set (profileId, channelId)
            (.int channelId ∈ memberIds members) } }
    record (.updateProfileChannel profileId channelId data)
    pure data

/-- The call of the planning client for a write. -/
def write (live : Live) : Write → Eff Planner Record
  | .createChannel data => createChannel data
  | .createChannelGroup name => createChannelGroup name
  | .createLogo data => createLogo data
  | .updateChannel channelId data => updateChannel live channelId data
  | .deleteChannel channelId => deleteChannel live channelId
  | .deleteChannelGroup groupId => deleteChannelGroup live groupId
  | .assignChannelNumbers channelIds startingNumber =>
    assignChannelNumbers live channelIds startingNumber
  | .updateProfileChannel profileId channelId data =>
    updateProfileChannel live profileId channelId data

end Planner

/-- A call of the planning client. -/
inductive Planner.Call where
  | getChannel (channelId : ℤ)
  | write (w : Write)

/-- The planning client's answer to a call, and what it leaves. -/
def Planner.Call.run (live : Live) : Planner.Call → Eff Planner Record
  | .getChannel channelId => Planner.getChannel live channelId
  | .write w => Planner.write live w

/-- The planning client after a sequence of calls, of which some may have raised. -/
def planned (live : Live) (calls : List Planner.Call) : Planner :=
  calls.foldl (fun planner call => (call.run live planner).2) Planner.start

/-- How hashes are made of canonical values: `json.dumps` and `sha256` over them. -/
structure Digest where
  Hash : Type
  decEq : DecidableEq Hash
  digest : Json → Hash

instance (d : Digest) : DecidableEq d.Hash := d.decEq

/-- `canonical_hash`. -/
def canonicalHash (d : Digest) (value : Record) : d.Hash :=
  d.digest (Json.canonical (.dict value.items))

/-- What `validate_read_set` compares a precondition of a channel with. -/
def actualOf (channelId : ℤ) (expected current : Record) : Record :=
  (Dict.ofList ((expected.keys.filter (· ≠ "id")).map fun key => (key, current.read key))).set
    "id" (.int channelId)

/-- The channel of a precondition has not drifted. -/
def checkChannel (d : Digest) (live : Live) (e : ℤ × Record) : Except String Unit :=
  match live.getChannel e.1 with
  | .error error => .error error
  | .ok current =>
    if canonicalHash d (actualOf e.1 e.2 current) ≠ canonicalHash d e.2 then
      .error s!"channel {e.1} drifted"
    else .ok ()

/-- The group of a precondition has not drifted. -/
def checkGroup (live : Live) (e : ℤ × Json) : Except String Unit :=
  if live.groups.get? e.1 ≠ some e.2 then .error s!"channel group {e.1} drifted" else .ok ()

/-- The membership of a precondition has not drifted. -/
def checkProfile (live : Live) (e : (ℤ × ℤ) × Bool) : Except String Unit :=
  let members := memberIds ((live.profiles.get? e.1.1).getD [])
  if decide (.int e.1.2 ∈ members) ≠ e.2 then
    .error s!"channel profile membership {e.1.1}:{e.1.2} drifted"
  else .ok ()

/-- Check the entries in order, up to the first that fails. -/
def checkAll {α : Type} (check : α → Except String Unit) : List α → Except String Unit
  | [] => .ok ()
  | e :: es =>
    match check e with
    | .error error => .error error
    | .ok () => checkAll check es

/-- `validate_read_set`, on what the live client reads. -/
def validateReadSet (d : Digest) (live : Live) (plan : PipelineWritePlan) :
    Except String Unit := do
  checkAll (checkChannel d live) plan.channelPreconditions.items
  checkAll (checkGroup live) plan.groupPreconditions.items
  checkAll (checkProfile live) plan.profilePreconditions.items

/-- The client at work and the variables of `replay_write_plan`; a completed write is kept with the
arguments it was sent with and its result. -/
structure Replay where
  exec : Exec
  remap : Dict ℤ ℤ
  nextTemp : ℤ
  results : List Record
  completed : List (Write × Write × Record)

namespace Replay

/-- Use the client. -/
def call {α : Type} (x : Eff Exec α) : Eff Replay α := fun replay =>
  let (outcome, exec) := x replay.exec
  (outcome, { replay with exec })

/-- `mapped` on an integer. -/
def mappedId (remap : Dict ℤ ℤ) (value : ℤ) : Except String ℤ :=
  if value < 0 then
    match remap.get? value with
    | none => .error s!"unresolved temporary id {value}"
    | some realId => .ok realId
  else .ok value

/-- `int(real_id)` on the id of a created entity. -/
def realId (method : String) (result : Record) : Except String ℤ :=
  match result.read "id" with
  | .int n => .ok n
  | .null => .error s!"{method} did not return an id"
  | _ => .error "int() argument is not an integer"

/-- The variables after a write that the client answered: of a create the id is noted. -/
def advance (replay : Replay) (write args : Write) (result : Record) (id : ℤ) : Replay where
  exec := replay.exec
  remap := if write.isCreate then replay.remap.set replay.nextTemp id else replay.remap
  nextTemp := if write.isCreate then replay.nextTemp - 1 else replay.nextTemp
  results := replay.results ++ [result]
  completed := replay.completed ++ [(write, args, result)]

/-- One round of the replay loop. -/
def replayOne (server : Server) (fails : ℕ → Bool) (write : Write) : Eff Replay Unit := do
  let args ← Eff.ofExcept (write.mapInts (mappedId (← get).remap))
  let result ← call (send server fails args)
  let id ← if write.isCreate then Eff.ofExcept (realId write.method result) else pure 0
  modify fun replay => replay.advance write args result id

/-- What undoes a completed write; deletes and memberships are not undone. -/
def undo (server : Server) (fails : ℕ → Bool) (plan : PipelineWritePlan) :
    Write × Write × Record → Eff Exec Unit
  | (.createChannel _, _, result) => do
    let id ← Eff.ofExcept (realId "create_channel" result)
    let _ ← send server fails (.deleteChannel id)
  | (.createChannelGroup _, _, result) => do
    let id ← Eff.ofExcept (realId "create_channel_group" result)
    let _ ← send server fails (.deleteChannelGroup id)
  | (.updateChannel .., .updateChannel channelId _, _) =>
    if 0 < channelId then
      match plan.channelPreconditions.get? channelId with
      | none => pure ()
      | some before =>
        if before.items = [] then pure ()
        else do
          let _ ← send server fails (.updateChannel channelId (before.erase "id"))
    else pure ()
  | _ => pure ()

/-- Undo the completed writes, in the order given; the errors of undoing are collected. -/
def compensate (server : Server) (fails : ℕ → Bool) (plan : PipelineWritePlan) :
    List (Write × Write × Record) → Eff Exec (List String)
  | [] => pure []
  | item :: items => do
    let failed ← tryCatch (do undo server fails plan item; pure [])
      fun e => pure [s!"{item.1.method}: {e}"]
    let errors ← compensate server fails plan items
    pure (failed ++ errors)

end Replay

/-- How a replay that has begun to write ends. -/
inductive ReplayEnd where
  | done (results : List Record) (remap : Dict ℤ ℤ)
  /-- `PartialReplayError`. -/
  | partialReplay (failedIndex : ℕ) (completed : List (String × Write))
    (compensationErrors : List String)

/-- `replay_write_plan`. -/
def replayWritePlan (d : Digest) (server : Server) (fails : ℕ → Bool) (plan : PipelineWritePlan)
    (readSetValidated : Bool) : Eff Exec ReplayEnd := fun exec =>
  match if readSetValidated then .ok () else validateReadSet d exec.live plan with
  | .error e => (.error e, exec)
  | .ok () =>
    let (outcome, replay) := each (Replay.replayOne server fails) plan.writes ⟨exec, ∅, -1, [], []⟩
    match outcome with
    | .ok () => (.ok (.done replay.results replay.remap), replay.exec)
    | .error _ =>
      let (errors, exec) :=
        Replay.compensate server fails plan replay.completed.reverse replay.exec
      (errors.map fun errors =>
        .partialReplay replay.completed.length
          (replay.completed.map fun item => (item.1.method, item.2.1)) errors, exec)

end ChannelManager.Plans
