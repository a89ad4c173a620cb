import ChannelManager.Lib.Effect
import ChannelManager.Plans.Json

/-!
# The live Dispatcharr client

The writes the channel pipeline makes and what Dispatcharr does with them. How it allocates ids,
what it fills in for a new channel and which numbers it picks when it is given none to start from
are parameters. A write that is refused has no effect.
-/

namespace ChannelManager.Plans

open Eff

/-- The writes of `PIPELINE_WRITE_METHODS`, each with its arguments. -/
inductive Write where
  | createChannel (data : Record)
  | createChannelGroup (name : String)
  | createLogo (data : Record)
  | updateChannel (channelId : ℤ) (data : Record)
  | deleteChannel (channelId : ℤ)
  | deleteChannelGroup (groupId : ℤ)
  | assignChannelNumbers (channelIds : List ℤ) (startingNumber : Json)
  | updateProfileChannel (profileId channelId : ℤ) (data : Record)
deriving DecidableEq

namespace Write

/-- The name of the client's method. -/
def method : Write → String
  | .createChannel _ => "create_channel"
  | .createChannelGroup _ => "create_channel_group"
  | .createLogo _ => "create_logo"
  | .updateChannel .. => "update_channel"
  | .deleteChannel _ => "delete_channel"
  | .deleteChannelGroup _ => "delete_channel_group"
  | .assignChannelNumbers .. => "assign_channel_numbers"
  | .updateProfileChannel .. => "update_profile_channel"

/-- `write.method.startswith("create_")`. -/
def isCreate : Write → Bool
  | .createChannel _ | .createChannelGroup _ | .createLogo _ => true
  | _ => false

/-- The integers in the arguments. -/
def ints : Write → List ℤ
  | .createChannel data | .createLogo data => data.ints
  | .createChannelGroup _ => []
  | .updateChannel channelId data => channelId :: data.ints
  | .deleteChannel id | .deleteChannelGroup id => [id]
  | .assignChannelNumbers channelIds startingNumber => channelIds ++ startingNumber.ints
  | .updateProfileChannel profileId channelId data => profileId :: channelId :: data.ints

/-- Every integer of the arguments rewritten. -/
def rename (ρ : ℤ → ℤ) : Write → Write
  | .createChannel data => .createChannel (data.rename ρ)
  | .createChannelGroup name => .createChannelGroup name
  | .createLogo data => .createLogo (data.rename ρ)
  | .updateChannel channelId data => .updateChannel (ρ channelId) (data.rename ρ)
  | .deleteChannel channelId => .deleteChannel (ρ channelId)
  | .deleteChannelGroup groupId => .deleteChannelGroup (ρ groupId)
  | .assignChannelNumbers channelIds startingNumber =>
    .assignChannelNumbers (channelIds.map ρ) (startingNumber.rename ρ)
  | .updateProfileChannel profileId channelId data =>
    .updateProfileChannel (ρ profileId) (ρ channelId) (data.rename ρ)

/-- Every integer of the arguments looked up. -/
def mapInts (f : ℤ → Except String ℤ) : Write → Except String Write
  | .createChannel data => return .createChannel (← data.mapInts f)
  | .createChannelGroup name => return .createChannelGroup name
  | .createLogo data => return .createLogo (← data.mapInts f)
  | .updateChannel channelId data => return .updateChannel (← f channelId) (← data.mapInts f)
  | .deleteChannel channelId => return .deleteChannel (← f channelId)
  | .deleteChannelGroup groupId => return .deleteChannelGroup (← f groupId)
  | .assignChannelNumbers channelIds startingNumber =>
    return .assignChannelNumbers (← channelIds.mapM f) (← startingNumber.mapInts f)
  | .updateProfileChannel profileId channelId data =>
    return .updateProfileChannel (← f profileId) (← f channelId) (← data.mapInts f)

/-- The channels a write addresses by id. -/
def channelIds : Write → List ℤ
  | .updateChannel channelId _ | .deleteChannel channelId => [channelId]
  | .assignChannelNumbers ids _ => ids
  | .updateProfileChannel _ channelId _ => [channelId]
  | _ => []

end Write

/-- What Dispatcharr holds; `created` counts the entities it has created. -/
structure Live where
  channels : Dict ℤ Record
  groups : Dict ℤ Json
  logos : Dict ℤ Record
  profiles : Dict ℤ (List Json)
  created : Nat

/-- What Dispatcharr decides by itself: the id of the `k`-th entity it creates, the fields of a new
channel that the request leaves out, and the numbers it assigns from no starting number. -/
structure Server where
  alloc : ℕ → ℤ
  alloc_injective : Function.Injective alloc
  alloc_pos : ∀ k, 0 < alloc k
  defaults : Record
  auto : Live → List ℤ → ℕ → Json

/-- `number + index`. -/
def numberPlus : Json → ℕ → Json
  | .int n, index => .int (n + index)
  | .float q, index => .float (q + index)
  | v, _ => v

/-- The ids in a profile's `channels`, listed as such or as dicts. -/
def memberIds (members : List Json) : List Json :=
  members.map fun
    | .dict fields => (findEntry "id" fields).getD .null
    | member => member

namespace Live

/-- `get_channel`. -/
def getChannel (live : Live) (channelId : ℤ) : Except String Record :=
  match live.channels.get? channelId with
  | some channel => .ok channel
  | none => .error s!"channel {channelId} not found"

/-- Set the number of a channel. -/
def setNumber (channels : Dict ℤ Record) (channelId : ℤ) (number : Json) : Dict ℤ Record :=
  match channels.get? channelId with
  | some channel => channels.set channelId (channel.set "channel_number" number)
  | none => channels

/-- Number channels one after the other. -/
def setNumbers (channels : Dict ℤ Record) : List (ℤ × Json) → Dict ℤ Record
  | [] => channels
  | (channelId, number) :: rest => setNumbers (setNumber channels channelId number) rest

/-- The number of the channel at `index` of an assignment. -/
def numberAt (server : Server) (live : Live) (channelIds : List ℤ) (startingNumber : Json)
    (index : ℕ) : Json :=
  match startingNumber with
  | .null => server.auto live channelIds index
  | _ => numberPlus startingNumber index

/-- What Dispatcharr does with a write. -/
def perform (server : Server) (live : Live) : Write → Except String (Record × Live)
  | .createChannel data =>
    let id := server.alloc live.created
    let channel := Dict.set (server.defaults.update data) "id" (.int id)
    .ok (channel,
      { live with channels := live.channels.set id channel, created := live.created + 1 })
  | .createChannelGroup name =>
    let id := server.alloc live.created
    .ok (Dict.ofList [("id", .int id), ("name", .str name)],
      { live with groups := live.groups.set id (.str name), created := live.created + 1 })
  | .createLogo data =>
    let id := server.alloc live.created
    let logo := Dict.set data "id" (.int id)
    .ok (logo, { live with logos := live.logos.set id logo, created := live.created + 1 })
  | .updateChannel channelId data =>
    match live.channels.get? channelId with
    | none => .error s!"channel {channelId} not found"
    | some channel =>
      let channel := Dict.set (channel.update data) "id" (.int channelId)
      .ok (channel, { live with channels := live.channels.set channelId channel })
  | .deleteChannel channelId =>
    if channelId ∈ live.channels then
      .ok (∅, { live with channels := live.channels.erase channelId })
    else .error s!"channel {channelId} not found"
  | .deleteChannelGroup groupId =>
    if groupId ∈ live.groups then .ok (∅, { live with groups := live.groups.erase groupId })
    else .error s!"channel group {groupId} not found"
  | .assignChannelNumbers channelIds startingNumber =>
    if ∀ channelId ∈ channelIds, channelId ∈ live.channels then
      let numbers := channelIds.zipIdx.map fun e =>
        (e.1, numberAt server live channelIds startingNumber e.2)
      .ok (Dict.ofList [("message", .str "Channels have been auto-assigned!")],
        { live with channels := setNumbers live.channels numbers })
    else .error "channel not found"
  | .updateProfileChannel profileId channelId data =>
    match live.profiles.get? profileId with
    | none => .error s!"channel profile {profileId} not found"
    | some members =>
      if channelId ∈ live.channels then
        let others := members.filter fun member => .int channelId ∉ memberIds [member]
        let members := if (data.read "enabled").truthy then others ++ [.int channelId] else others
        .ok (data, { live with profiles := live.profiles.set profileId members })
      else .error s!"channel {channelId} not found"

theorem get?_setNumber (channels : Dict ℤ Record) (channelId id : ℤ) (number : Json) :
    (setNumber channels channelId number).get? id =
      if channelId = id then
        (channels.get? id).map fun channel => channel.set "channel_number" number
      else channels.get? id := by
  unfold setNumber
  by_cases hid : channelId = id
  · subst hid
    cases h : channels.get? channelId with
    | none => simp [h]
    | some channel => simp
  · cases h : channels.get? channelId with
    | none => simp [hid]
    | some channel => simp [hid, Dict.get?_set_ne]

/-- Numbering channels changes numbers only, and only of the channels named. -/
theorem get?_setNumbers (numbers : List (ℤ × Json)) (channels : Dict ℤ Record) (id : ℤ) :
    ∃ renumber : Record → Record,
      (setNumbers channels numbers).get? id = (channels.get? id).map renumber ∧
      ∀ channel key, key ≠ "channel_number" ∨ id ∉ numbers.map Prod.fst →
        (renumber channel).read key = channel.read key := by
  induction numbers generalizing channels with
  | nil => exact ⟨fun channel => channel, by simp [setNumbers], fun _ _ _ => rfl⟩
  | cons e numbers ih =>
    obtain ⟨renumber, hget, hread⟩ := ih (setNumber channels e.1 e.2)
    rw [setNumbers, hget, get?_setNumber]
    by_cases hid : e.1 = id
    · refine ⟨fun channel => renumber (channel.set "channel_number" e.2), ?_, ?_⟩
      · rw [if_pos hid, Option.map_map]
        rfl
      · intro channel key hkey
        have hkey' : key ≠ "channel_number" := by
          rcases hkey with hkey | hkey
          · exact hkey
          · simp [hid] at hkey
        rw [hread _ _ (.inl hkey'), Record.read_set, if_neg (Ne.symm hkey')]
    · refine ⟨renumber, by rw [if_neg hid], ?_⟩
      intro channel key hkey
      apply hread
      rcases hkey with hkey | hkey
      · exact .inl hkey
      · exact .inr fun hmem => hkey (by simp [hmem])

end Live

/-- The live client at work: what Dispatcharr holds and the writes it was sent, latest last. -/
structure Exec where
  live : Live
  issued : List Write

/-- Send a write; `fails` says which of them, by position, the client raises on. -/
def send (server : Server) (fails : ℕ → Bool) (write : Write) : Eff Exec Record := do
  let exec ← get
  set { exec with issued := exec.issued ++ [write] }
  if fails exec.issued.length then throw "upstream request failed"
  else
    let (result, live) ← Eff.ofExcept (exec.live.perform server write)
    modify fun exec => { exec with live }
    pure result

theorem send_eq (server : Server) (fails : ℕ → Bool) (write : Write) (exec : Exec) :
    send server fails write exec =
      if fails exec.issued.length then
        (.error "upstream request failed", ⟨exec.live, exec.issued ++ [write]⟩)
      else match exec.live.perform server write with
        | .ok (result, live) => (.ok result, ⟨live, exec.issued ++ [write]⟩)
        | .error e => (.error e, ⟨exec.live, exec.issued ++ [write]⟩) := by
  have hrun : send server fails write exec =
      (if fails exec.issued.length then throw "upstream request failed"
        else do
          let (result, live) ← Eff.ofExcept (exec.live.perform server write)
          modify fun exec => { exec with live }
          pure result : Eff Exec Record) ⟨exec.live, exec.issued ++ [write]⟩ := rfl
  rw [hrun]
  by_cases hfails : fails exec.issued.length
  · rw [if_pos hfails, if_pos hfails]
    rfl
  · rw [if_neg hfails, if_neg hfails, bind_apply]
    cases exec.live.perform server write <;> rfl

end ChannelManager.Plans
