import ChannelManager.Lib.Patch
import ChannelManager.Pipeline.Executor

/-!
# What a run writes and what it records of it

The write halves of the actions: what each one sends for the channel it settled on, which of the
channel's values it keeps as the previous state, and what it journals. Channels are records of
fields; no one else edits them during a run, so the executor's copy of a channel is what the upstream
has.
-/

namespace ChannelManager.Pipeline

/-- The fields of a channel that a run reads or writes. -/
inductive Field
  | name
  | channelGroupId
  | channelNumber
  | streams
  | tvgId
  | epgDataId
  | logoId
  | logoUrl
  | streamProfileId
  | autoCreated
deriving DecidableEq

abbrev Field.Value : Field → Type
  | .name => String
  | .channelNumber => Option ℕ
  | .streams => List ℤ
  | .tvgId | .logoUrl => Option String
  | .autoCreated => Bool
  | .channelGroupId | .epgDataId | .logoId | .streamProfileId => Option ℤ

/-- A channel as the upstream has it. -/
abbrev Row : Type := (f : Field) → f.Value

/-- The body of an update. -/
abbrev RowPatch : Type := Patch Field.Value

inductive GroupKey
  | existing (id : ℤ)
  | created (n : ℕ)
deriving DecidableEq

/-- An entry of `created_entities`. -/
inductive Created
  | channel (key : ChannelKey)
  | group (key : GroupKey)
deriving DecidableEq

/-- An entry of `modified_entities`; `channel` is the channel written to, which the entry names only
where it is the entity. -/
structure Modified where
  channel : ChannelKey
  entity : Entity
  previous : RowPatch

/-- The journal category of a merge. -/
inductive MergeCategory
  | autoCreation
  | eventSync
deriving DecidableEq

/-- A `merge_stream` entry of the journal, tagged with the run. -/
structure MergeEntry where
  category : MergeCategory
  entityId : ChannelKey
  before : List ℤ
  after : List ℤ

/-- A run on the way: the upstream's channels and groups, and the records of the run in the order in
which they were made. -/
structure Run where
  channels : Dict ChannelKey Row
  groups : List GroupKey
  created : List Created
  modified : List Modified
  journal : List MergeEntry
  nextChannel : ℕ
  nextGroup : ℕ

/-- What an action sends for a channel, and the fields whose values it records as previous. A rename
records nothing; the removal of a stream is recorded under the stream. -/
structure Write where
  patch : RowPatch
  recorded : List Field
  removed : Option ℤ
  merged : Option MergeCategory

/-- A write of some fields that is recorded under the channel. -/
def Write.record (patch : RowPatch) (recorded : List Field) : Write := ⟨patch, recorded, none, none⟩

section Actions

/-- `_add_stream_to_channel`. -/
def writeAddStream (category : MergeCategory) (streamId : ℤ) (row : Row) : Option Write :=
  if streamId ∈ row .streams then none
  else some ⟨.single .streams (row .streams ++ [streamId]), [.streams], none, some category⟩

/-- The logo and the tvg id that a stream has and the channel lacks. -/
def updatesOf (logoUrl tvgId : Option String) (row : Row) : RowPatch
  | .logoUrl => if filled logoUrl ≠ none ∧ filled (row .logoUrl) = none then some logoUrl else none
  | .tvgId => if filled tvgId ≠ none ∧ filled (row .tvgId) = none then some tvgId else none
  | _ => none

/-- `_update_channel`. -/
def writeUpdateChannel (logoUrl tvgId : Option String) (row : Row) : Option Write :=
  let updates := updatesOf logoUrl tvgId row
  if (updates .logoUrl).isNone ∧ (updates .tvgId).isNone then none
  else some (.record updates [.logoUrl, .tvgId])

/-- The rename of `_execute_create_channel`. -/
def writeRename (name : String) (_ : Row) : Option Write := some (.record (.single .name name) [])

/-- `_execute_assign_logo`. -/
def writeAssignLogo (logoId : ℤ) (_ : Row) : Option Write :=
  some (.record (.single .logoId (some logoId)) [.logoId, .logoUrl])

/-- `_execute_assign_tvg_id`. -/
def writeAssignTvgId (tvgId : String) (_ : Row) : Option Write :=
  some (.record (.single .tvgId (some tvgId)) [.tvgId])

/-- `_execute_assign_epg`; the tvg id is that of the guide entry, where the action sets it. -/
def writeAssignEpg (epgDataId : ℤ) (tvgId : Option String) (_ : Row) : Option Write :=
  match tvgId with
  | none => some (.record (.single .epgDataId (some epgDataId)) [.epgDataId])
  | some tvgId => some (.record ((Patch.single .epgDataId (some epgDataId)).orElse
      (.single .tvgId (some tvgId))) [.epgDataId, .tvgId])

/-- `_execute_assign_profile`. -/
def writeAssignProfile (profileId : ℤ) (_ : Row) : Option Write :=
  some (.record (.single .streamProfileId (some profileId)) [.streamProfileId])

/-- `_execute_set_channel_number`, for a channel the run has not numbered. -/
def writeSetChannelNumber (number : ℕ) (_ : Row) : Option Write :=
  some (.record (.single .channelNumber (some number)) [.channelNumber])

/-- `_execute_set_stream_priority`. -/
def writeSetStreamPriority (streamId : ℤ) (highest : Bool) (row : Row) : Option Write :=
  let without := (row .streams).filter (· ≠ streamId)
  let reordered := if highest then streamId :: without else without ++ [streamId]
  if streamId ∉ row .streams ∨ reordered = row .streams then none
  else some (.record (.single .streams reordered) [.streams])

/-- `_execute_remove_from_channel`. -/
def writeRemoveFromChannel (streamId : ℤ) (row : Row) : Option Write :=
  if streamId ∉ row .streams then none
  else some ⟨.single .streams ((row .streams).filter (· ≠ streamId)), [.streams], some streamId, none⟩

end Actions

/-- What an action does to the channel it settled on. -/
inductive ChannelAction
  | addStream (category : MergeCategory) (streamId : ℤ)
  | updateChannel (logoUrl tvgId : Option String)
  | rename (name : String)
  | assignLogo (logoId : ℤ)
  | assignTvgId (tvgId : String)
  | assignEpg (epgDataId : ℤ) (tvgId : Option String)
  | assignProfile (profileId : ℤ)
  | setChannelNumber (number : ℕ)
  | setStreamPriority (streamId : ℤ) (highest : Bool)
  | removeFromChannel (streamId : ℤ)

def ChannelAction.write : ChannelAction → Row → Option Write
  | .addStream category streamId => writeAddStream category streamId
  | .updateChannel logoUrl tvgId => writeUpdateChannel logoUrl tvgId
  | .rename name => writeRename name
  | .assignLogo logoId => writeAssignLogo logoId
  | .assignTvgId tvgId => writeAssignTvgId tvgId
  | .assignEpg epgDataId tvgId => writeAssignEpg epgDataId tvgId
  | .assignProfile profileId => writeAssignProfile profileId
  | .setChannelNumber number => writeSetChannelNumber number
  | .setStreamPriority streamId highest => writeSetStreamPriority streamId highest
  | .removeFromChannel streamId => writeRemoveFromChannel streamId

/-- One change of a run: a group or a channel is created, or an action writes to a channel. -/
inductive Change
  | createGroup
  | createChannel (row : Row)
  | act (key : ChannelKey) (action : ChannelAction)

/-- The channels and groups there are before a run; none of them is one the run creates. -/
structure Before where
  channels : Dict ChannelKey Row
  groups : List GroupKey
  loaded : ∀ key ∈ channels, ∃ id, key = .existing id
  listed : ∀ g ∈ groups, ∃ id, g = .existing id

namespace Run

/-- The run before its first change. -/
def start (b : Before) : Run where
  channels := b.channels
  groups := b.groups
  created := []
  modified := []
  journal := []
  nextChannel := 0
  nextGroup := 0

def createGroup (r : Run) : Run :=
  { r with
    groups := r.groups ++ [.created r.nextGroup]
    created := r.created ++ [.group (.created r.nextGroup)]
    nextGroup := r.nextGroup + 1 }

def createChannel (r : Run) (row : Row) : Run :=
  { r with
    channels := r.channels.set (.created r.nextChannel) row
    created := r.created ++ [.channel (.created r.nextChannel)]
    nextChannel := r.nextChannel + 1 }

/-- `add_result` on what a write changed. -/
def addResult (r : Run) (key : ChannelKey) (row : Row) (w : Write) : Run :=
  if w.recorded = [] then r
  else
    let entity := match w.removed with
      | none => Entity.channel key
      | some streamId => .stream streamId
    { r with modified := r.modified ++ [⟨key, entity, .keep w.recorded row⟩] }

/-- `_journal_merge`. -/
def journalMerge (r : Run) (key : ChannelKey) (row : Row) (w : Write) : Run :=
  match w.merged with
  | none => r
  | some category =>
    { r with journal := r.journal ++ [⟨category, key, row .streams, w.patch.apply row .streams⟩] }

/-- A write reaches the upstream, is journalled and recorded. -/
def perform (r : Run) (key : ChannelKey) (row : Row) (w : Write) : Run :=
  (({ r with channels := r.channels.set key (w.patch.apply row) }).journalMerge key row w).addResult
    key row w

/-- An action on a channel. -/
def act (r : Run) (key : ChannelKey) (action : ChannelAction) : Run :=
  match r.channels.get? key with
  | none => r
  | some row =>
    match action.write row with
    | none => r
    | some w => r.perform key row w

def change (r : Run) : Change → Run
  | .createGroup => r.createGroup
  | .createChannel row => r.createChannel row
  | .act key action => r.act key action

/-- The changes of a run, one after the other. -/
def changes (r : Run) (cs : List Change) : Run := cs.foldl change r

@[simp] theorem journalMerge_channels (r : Run) (key : ChannelKey) (row : Row) (w : Write) :
    (r.journalMerge key row w).channels = r.channels := by
  unfold journalMerge
  split <;> rfl

@[simp] theorem journalMerge_groups (r : Run) (key : ChannelKey) (row : Row) (w : Write) :
    (r.journalMerge key row w).groups = r.groups := by
  unfold journalMerge
  split <;> rfl

@[simp] theorem journalMerge_created (r : Run) (key : ChannelKey) (row : Row) (w : Write) :
    (r.journalMerge key row w).created = r.created := by
  unfold journalMerge
  split <;> rfl

@[simp] theorem journalMerge_modified (r : Run) (key : ChannelKey) (row : Row) (w : Write) :
    (r.journalMerge key row w).modified = r.modified := by
  unfold journalMerge
  split <;> rfl

/-- What `addResult` appends to the modified entities. -/
def recordOf (key : ChannelKey) (row : Row) (w : Write) : List Modified :=
  if w.recorded = [] then []
  else [⟨key, match w.removed with
    | none => .channel key
    | some streamId => .stream streamId, .keep w.recorded row⟩]

theorem addResult_eq (r : Run) (key : ChannelKey) (row : Row) (w : Write) :
    r.addResult key row w = { r with modified := r.modified ++ recordOf key row w } := by
  unfold addResult recordOf
  by_cases h : w.recorded = []
  · simp [h]
  · simp [h]

@[simp] theorem perform_channels (r : Run) (key : ChannelKey) (row : Row) (w : Write) :
    (r.perform key row w).channels = r.channels.set key (w.patch.apply row) := by
  simp [perform, addResult_eq]

@[simp] theorem perform_groups (r : Run) (key : ChannelKey) (row : Row) (w : Write) :
    (r.perform key row w).groups = r.groups := by
  simp [perform, addResult_eq]

@[simp] theorem perform_created (r : Run) (key : ChannelKey) (row : Row) (w : Write) :
    (r.perform key row w).created = r.created := by
  simp [perform, addResult_eq]

@[simp] theorem perform_modified (r : Run) (key : ChannelKey) (row : Row) (w : Write) :
    (r.perform key row w).modified = r.modified ++ recordOf key row w := by
  simp [perform, addResult_eq]

/-- A journal that is empty after a write was empty before, and the write merged nothing. -/
theorem perform_journal_nil {r : Run} {key : ChannelKey} {row : Row} {w : Write}
    (h : (r.perform key row w).journal = []) : r.journal = [] ∧ w.merged = none := by
  rw [perform, addResult_eq] at h
  cases hm : w.merged with
  | none => exact ⟨by simpa [journalMerge, hm] using h, rfl⟩
  | some category => simp [journalMerge, hm] at h

/-- What an action does: nothing, or one write to a channel there is. -/
theorem act_cases (r : Run) (key : ChannelKey) (action : ChannelAction) :
    r.act key action = r ∨ ∃ row w, r.channels.get? key = some row ∧ action.write row = some w ∧
      r.act key action = r.perform key row w := by
  unfold act
  cases hget : r.channels.get? key with
  | none => exact .inl rfl
  | some row =>
    cases hw : action.write row with
    | none => exact .inl (by simp [hw])
    | some w => exact .inr ⟨row, w, rfl, hw, by simp [hw]⟩

/-- What every change preserves holds at the end of a run. -/
theorem changes_induction {P : Run → Prop} {r : Run} (cs : List Change) (hstart : P r)
    (hstep : ∀ r c, P r → P (r.change c)) : P (r.changes cs) := by
  induction cs generalizing r with
  | nil => exact hstart
  | cons c cs ih => exact ih (hstep r c hstart)

end Run

end ChannelManager.Pipeline
