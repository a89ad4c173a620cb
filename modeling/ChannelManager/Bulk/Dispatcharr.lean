import ChannelManager.Bulk.Upstream

/-!
# A model of Dispatcharr

Channels, groups, logos and profile memberships as a store, with ECM's own hidden groups and probe
stats beside them. Calls are numbered, and a pattern says which of them raise; a call that raises
changes nothing. A paginated read that raises has read some rows before it did. A created channel
keeps the number it was sent with, and a range that names an unknown channel is refused.
-/

namespace ChannelManager

/-- The store a run writes to. -/
structure Dispatcharr where
  channels : List Channel := []
  groups : List ChannelGroup := []
  logos : List Logo := []
  streams : List (ℤ × String) := []
  profileIds : List ℤ := []
  memberships : Dict (ℤ × ℤ) Bool := ∅
  hiddenGroups : Dict ℤ String := ∅
  streamStats : List ℤ := []
  nextId : ℤ
  calls : ℕ := 0
deriving DecidableEq

namespace Dispatcharr

def channel? (d : Dispatcharr) (c : ℤ) : Option Channel := d.channels.find? (·.id = c)

/-- The number a channel is on; nothing when there is no such channel. -/
def number? (d : Dispatcharr) (c : ℤ) : Option (Option ℚ) := (d.channel? c).map (·.channelNumber)

/-- Change one channel. -/
def mapChannel (c : ℤ) (f : Channel → Channel) (d : Dispatcharr) : Dispatcharr :=
  { d with channels := d.channels.map fun ch => if ch.id = c then f ch else ch }

def setNumber (d : Dispatcharr) (e : ℤ × ℚ) : Dispatcharr :=
  d.mapChannel e.1 fun ch => { ch with channelNumber := some e.2 }

/-- The channel a payload describes. -/
def newChannel (d : Dispatcharr) (new : NewChannel) : Channel where
  id := d.nextId
  name := new.name
  channelNumber := new.channelNumber
  channelGroupId := new.channelGroupId
  logoId := new.logoId
  tvgId := new.tvgId
  tvcGuideStationid := new.tvcGuideStationid

end Dispatcharr

/-- A call that raises when the pattern says so, and otherwise does its work. -/
def guarded {α : Type} (fails : ℕ → Option String) (work : Call Dispatcharr α) :
    Call Dispatcharr α := fun d =>
  match fails d.calls with
  | some e => (.error e, { d with calls := d.calls + 1 })
  | none => work { d with calls := d.calls + 1 }

/-- The pattern in which only the `n`-th call raises. -/
def raisingAt (n : ℕ) : ℕ → Option String := fun k => if k = n then some "500" else none

def notFound : String := "404 Not Found"

/-- A paginated read; when it raises it has got the given number of rows. -/
def guardedRead {α : Type} (fails : ℕ → Option String) (rowsRead : ℕ → ℕ)
    (rows : Dispatcharr → List α) : Call Dispatcharr (PagedRead α) := fun d =>
  match fails d.calls with
  | some e => (.ok { rows := (rows d).take (rowsRead d.calls), error := some e },
      { d with calls := d.calls + 1 })
  | none => (.ok { rows := rows d }, { d with calls := d.calls + 1 })

/-- Dispatcharr with the given pattern of failing calls. -/
def dispatcharr (fails : ℕ → Option String) (rowsRead : ℕ → ℕ := fun _ => 0) :
    Upstream Dispatcharr where
  getChannels := guardedRead fails rowsRead (·.channels)
  getStreamsByIds ids := guarded fails fun d => (.ok (d.streams.filter (·.1 ∈ ids)), d)
  getChannelProfiles := guarded fails fun d => (.ok d.profileIds, d)
  hiddenGroups ids := guarded fails fun d => (.ok (d.hiddenGroups.keys.filter (· ∈ ids)), d)
  getChannel c := guarded fails fun d =>
    match d.channel? c with
    | some ch => (.ok ch, d)
    | none => (.error notFound, d)
  updateChannel c data := guarded fails fun d =>
    match d.channel? c with
    | some _ => (.ok (), d.mapChannel c (·.patch data))
    | none => (.error notFound, d)
  assignChannelNumbers ids start := guarded fails fun d =>
    if ids.all fun c => (d.channel? c).isSome then
      (.ok (), (ids.zipIdx.map fun e => (e.1, start.getD 1 + e.2)).foldl Dispatcharr.setNumber d)
    else (.error notFound, d)
  createChannel new := guarded fails fun d =>
    (.ok (some (d.newChannel new)),
      { d with channels := d.channels ++ [d.newChannel new], nextId := d.nextId + 1 })
  deleteChannel c := guarded fails fun d =>
    match d.channel? c with
    | some _ => (.ok (), { d with channels := d.channels.filter (·.id ≠ c) })
    | none => (.error notFound, d)
  getChannelGroups := guarded fails fun d => (.ok d.groups, d)
  createChannelGroup name := guarded fails fun d =>
    if name ∈ d.groups.map (·.name) then (.error "400 already exists", d)
    else (.ok (some d.nextId),
      { d with groups := d.groups ++ [⟨d.nextId, name⟩], nextId := d.nextId + 1 })
  updateChannelGroup g name := guarded fails fun d =>
    if g ∈ d.groups.map (·.id) then
      (.ok (), { d with groups := d.groups.map fun x => if x.id = g then { x with name := name } else x })
    else (.error notFound, d)
  deleteChannelGroup g := guarded fails fun d =>
    if g ∈ d.groups.map (·.id) then (.ok (), { d with groups := d.groups.filter (·.id ≠ g) })
    else (.error notFound, d)
  getLogos := guardedRead fails rowsRead (·.logos)
  createLogo _ url := guarded fails fun d =>
    (.ok (some d.nextId),
      { d with logos := d.logos ++ [⟨some d.nextId, url⟩], nextId := d.nextId + 1 })
  updateProfileChannel p c enabled := guarded fails fun d =>
    (.ok (), { d with memberships := d.memberships.set (p, c) enabled })
  restoreHiddenGroup g := guarded fails fun d =>
    (.ok (d.hiddenGroups.get? g), { d with hiddenGroups := d.hiddenGroups.erase g })
  clearStreamStats ids := guarded fails fun d =>
    (.ok (d.streamStats.filter (· ∈ ids)).length,
      { d with streamStats := d.streamStats.filter (· ∉ ids) })
  normalize name := guarded fails fun d => (.ok name, d)
  logEntries _ := guarded fails fun d => (.ok true, d)
  logEntry _ := guarded fails fun d => (.ok true, d)

end ChannelManager
