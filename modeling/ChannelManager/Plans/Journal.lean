import ChannelManager.Lib.Chain
import ChannelManager.Lib.LastWrite
import ChannelManager.Plans.Replay
import Mathlib

/-!
# The journal of a replay

`journal_entries_for_plan` writes a row for every change that a replayed plan made. It goes over the
recorded writes once more with a shadow of the channels of its own, looking up the ids it addresses
in the remap of the replay.
-/

namespace ChannelManager.Plans

/-- `action_type`. -/
inductive RowAction where
  | createChannel
  | createChannelGroup
  | createLogo
  | assignChannelNumber
  | assignChannelProfile
  | mergeStream
  | removeStream
  | updateChannel
  | deleteChannel
  | deleteChannelGroup
deriving DecidableEq

/-- What a row holds besides the values that are the same in all of them. -/
structure JournalRow where
  action : RowAction
  entityId : ℤ
  entityName : Json
  description : String
  before : Json
  after : Json
  batchId : String
deriving DecidableEq

/-- The stream ids of a value that lists them, as `set(value or [])` has them. -/
def streamSet : Json → Finset ℤ
  | .list items => (items.filterMap Json.int?).toFinset
  | _ => ∅

/-- `sorted(ids)`. -/
def sortedIds (ids : Finset ℤ) : Json := .list ((ids.sort (· ≤ ·)).map .int)

/-- `remap.get(id, id)`. -/
def resolve (remap : Dict ℤ ℤ) (id : ℤ) : ℤ := (remap.get? id).getD id

/-- The variables of `journal_entries_for_plan`. -/
structure Journal where
  rows : List JournalRow
  nextTemp : ℤ
  shadow : Dict ℤ Record

namespace Journal

variable (remap : Dict ℤ ℤ) (executionId : ℤ)

/-- The nested `append`. -/
def row (action : RowAction) (entityId : ℤ) (name before after : Json) (description : String) :
    JournalRow where
  action := action
  entityId := entityId
  entityName := name
  description := description
  before := before
  after := after
  batchId := s!"{executionId}"

/-- The row of a create, which takes the next temporary id. -/
def create (journal : Journal) (action : RowAction) (method : String) (name payload : Json) :
    Journal where
  rows := journal.rows ++
    [row executionId action (resolve remap journal.nextTemp) name .null payload
      s!"Planned pipeline executed {method} for {resolve remap journal.nextTemp}"]
  nextTemp := journal.nextTemp - 1
  shadow := journal.shadow

/-- One channel of an assignment. -/
def assign (startingNumber : Json) (journal : Journal) (e : ℤ × ℕ) : Journal :=
  let id := resolve remap e.1
  let before := (journal.shadow.get? id).getD ∅
  let number := numberPlus startingNumber e.2
  { journal with
    rows := journal.rows ++
      [row executionId .assignChannelNumber id (before.read "name")
        (.dict [("channel_number", before.read "channel_number")])
        (.dict [("channel_number", number)]) "Planned pipeline assigned channel number"]
    shadow := journal.shadow.set id (before.set "channel_number" number) }

/-- The row of a stream that an update adds. -/
def mergeRow (id : ℤ) (name : Json) (old : Finset ℤ) (streamId : ℤ) : JournalRow :=
  row executionId .mergeStream id name (.dict [("stream_ids", sortedIds old)])
    (.dict [("stream_id", .int streamId)])
    s!"Planned pipeline attached stream {streamId} to channel {id}"

/-- The row of a stream that an update takes away. -/
def removeRow (id : ℤ) (name : Json) (new : Finset ℤ) (streamId : ℤ) : JournalRow :=
  row executionId .removeStream id name (.dict [("stream_id", .int streamId)])
    (.dict [("stream_ids", sortedIds new)])
    s!"Planned pipeline removed stream {streamId} from channel {id}"

/-- The rows of a change of streams. -/
def streamRows (id : ℤ) (name : Json) (old new : Finset ℤ) : List JournalRow :=
  ((new \ old).sort (· ≤ ·)).map (mergeRow executionId id name old) ++
    ((old \ new).sort (· ≤ ·)).map (removeRow executionId id name new)

/-- The row of a change of other fields. -/
def updateRow (id : ℤ) (before data : Record) : JournalRow :=
  row executionId .updateChannel id (before.read "name") (.dict before.items) (.dict data.items)
    s!"Planned pipeline updated channel {id}"

/-- The rows of an update: one for each stream added or taken away, and one for the rest. -/
def updateRows (id : ℤ) (before data : Record) : List JournalRow :=
  if "streams" ∈ data then
    let old := streamSet (before.read "streams")
    let new := streamSet (data.read "streams")
    let remaining := data.erase "streams"
    ((new \ old).sort (· ≤ ·)).map (mergeRow executionId id (before.read "name") old) ++
      ((old \ new).sort (· ≤ ·)).map (removeRow executionId id (before.read "name") new) ++
      if remaining.items = [] then [] else [updateRow executionId id before remaining]
  else
    [row executionId .updateChannel id (before.read "name") (.dict before.items)
      (.dict data.items) s!"Planned pipeline executed update_channel for {id}"]

/-- What the rows of the other writes say was there before. -/
def beforeOf (plan : PipelineWritePlan) (journal : Journal) (rawId : ℤ) : Record :=
  (journal.shadow.get? (resolve remap rawId)).getD
    ((plan.channelPreconditions.get? rawId).getD ∅)

/-- One round of the loop. -/
def write (plan : PipelineWritePlan) (journal : Journal) : Write → Journal
  | .createChannel data =>
    let created := journal.create remap executionId .createChannel "create_channel"
      (data.read "name") (.dict data.items)
    let id := resolve remap journal.nextTemp
    { created with
      shadow := journal.shadow.set id (Dict.update (Dict.ofList [("id", .int id)]) data) }
  | .createChannelGroup name =>
    journal.create remap executionId .createChannelGroup "create_channel_group" (.str name)
      (.str name)
  | .createLogo data =>
    journal.create remap executionId .createLogo "create_logo" (data.read "name")
      (.dict data.items)
  | .assignChannelNumbers channelIds startingNumber =>
    channelIds.zipIdx.foldl (assign remap executionId startingNumber) journal
  | .updateProfileChannel profileId channelId data =>
    { journal with
      rows := journal.rows ++
        [row executionId .assignChannelProfile (resolve remap channelId) .null
          (.dict [("profile_id", .int profileId)]) (.dict data.items)
          s!"Planned pipeline updated profile {profileId} membership"] }
  | .updateChannel channelId data =>
    let id := resolve remap channelId
    let before := beforeOf remap plan journal channelId
    { journal with
      rows := journal.rows ++ updateRows executionId id before data
      shadow := journal.shadow.set id (before.update data) }
  | .deleteChannel channelId =>
    let id := resolve remap channelId
    let before := beforeOf remap plan journal channelId
    { journal with
      rows := journal.rows ++
        [row executionId .deleteChannel id (before.read "name") (.dict before.items) .null
          s!"Planned pipeline executed delete_channel for {id}"]
      shadow := journal.shadow.erase id }
  | .deleteChannelGroup groupId =>
    let id := resolve remap groupId
    let before := beforeOf remap plan journal groupId
    { journal with
      rows := journal.rows ++
        [row executionId .deleteChannelGroup id (before.read "name") (.dict before.items) .null
          s!"Planned pipeline executed delete_channel_group for {id}"] }

end Journal

/-- The journal after the writes of the plan, or some of them. -/
def journalOf (plan : PipelineWritePlan) (remap : Dict ℤ ℤ) (executionId : ℤ)
    (writes : List Write) : Journal :=
  writes.foldl (Journal.write remap executionId plan) ⟨[], -1, plan.channelPreconditions⟩

/-- `journal_entries_for_plan`. -/
def journalEntriesForPlan (plan : PipelineWritePlan) (remap : Dict ℤ ℤ) (executionId : ℤ) :
    List JournalRow :=
  (journalOf plan remap executionId plan.writes).rows

end ChannelManager.Plans
