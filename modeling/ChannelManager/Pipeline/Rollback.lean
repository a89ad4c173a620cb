import ChannelManager.Pipeline.Changes

/-!
# Rolling a run back

`rollback_execution` and `restore_snapshot`. Created entities are deleted first, whatever becomes of
the calls. After that a run with a snapshot has its channels written back, unless the journal
accounts for all it did; a run without one has the streams it merged taken out again where the
journal lists any, and the recorded previous states written back where it lists none.
-/

namespace ChannelManager.Pipeline

structure Upstream where
  channels : Dict ChannelKey Row
  groups : List GroupKey

/-- The upstream as a run leaves it. -/
def Run.upstream (r : Run) : Upstream := ⟨r.channels, r.groups⟩

/-- A channel of a `ChannelPipelineSnapshot`. -/
structure SnapshotChannel where
  id : ChannelKey
  name : String
  channelGroupId : Option ℤ
  epgDataId : Option ℤ
  tvgId : Option String
  streamIds : List ℤ
  eventSyncMaster : Bool

/-- A channel that the snapshot leaves out: one Dispatcharr created, of no master group. -/
def excluded (includeGroupIds : List ℤ) (row : Row) : Bool :=
  row .autoCreated && !(row .channelGroupId).any (· ∈ includeGroupIds)

def SnapshotChannel.of (key : ChannelKey) (row : Row) : SnapshotChannel where
  id := key
  name := row .name
  channelGroupId := row .channelGroupId
  epgDataId := row .epgDataId
  tvgId := row .tvgId
  streamIds := row .streams
  eventSyncMaster := row .autoCreated

/-- `_capture_snapshot`. -/
def captureSnapshot (includeGroupIds : List ℤ) (channels : Dict ChannelKey Row) :
    List SnapshotChannel :=
  (channels.items.filter fun e => !excluded includeGroupIds e.2).map fun e => .of e.1 e.2

inductive RunStatus
  | running
  | completed
  | completedWithErrors
  | capped
  | failed
  | rolledBack
deriving DecidableEq

/-- What is stored of a run: its `ChannelPipelineExecution`, the journal's entries of its batch in
the order in which they were written, and its snapshot. -/
structure Execution where
  dryRun : Bool
  status : RunStatus
  created : List Created
  modified : List Modified
  journal : List MergeEntry
  snapshot : Option (List SnapshotChannel)

/-- The calls of a rollback. -/
inductive Call
  | deleteChannel (key : ChannelKey)
  | deleteGroup (key : GroupKey)
  | getChannel (key : ChannelKey)
  | updateChannel (key : ChannelKey)
deriving DecidableEq

/-- Which calls of a rollback fail, and which of its two reads of the journal. -/
structure Failures where
  call : Call → Bool
  coverageRead : Bool
  unmergeRead : Bool

/-- Every call succeeds. -/
def Failures.never : Failures := ⟨fun _ => false, false, false⟩

/-- Why a rollback is refused. -/
inductive Refusal
  | alreadyRolledBack
  | dryRun
  | requiresConfirm
  | nothingRecorded
  | noSnapshot
deriving DecidableEq

/-- What a rollback answers, and what it leaves. -/
structure RollbackAnswer where
  success : Bool
  refusal : Option Refusal
  failedChannels : List ChannelKey
  status : RunStatus
  upstream : Upstream

def refuse (e : Execution) (u : Upstream) (why : Refusal) : RollbackAnswer :=
  ⟨false, some why, [], e.status, u⟩

section Rollback

variable (failures : Failures)

/-- `_rollback_created_entity`: a failure is logged. -/
def rollbackCreatedEntity (u : Upstream) : Created → Upstream
  | .channel key =>
    if failures.call (.deleteChannel key) then u else { u with channels := u.channels.erase key }
  | .group key =>
    if failures.call (.deleteGroup key) then u else { u with groups := u.groups.filter (· ≠ key) }

/-- Created entities, the last one first. -/
def rollbackCreated (created : List Created) (u : Upstream) : Upstream :=
  created.reverse.foldl (rollbackCreatedEntity failures) u

/-- `_rollback_modified_entity`: only an entry about a channel is written back. -/
def rollbackModifiedEntity (u : Upstream) (m : Modified) : Upstream :=
  match m.entity with
  | .channel key =>
    if failures.call (.updateChannel key) then u
    else { u with channels := u.channels.modify key m.previous.apply }
  | .stream _ => u

/-- `journal.get_entries` of the run's merges: the first page of a thousand, newest first. -/
def getEntries (journal : List MergeEntry) : List MergeEntry := journal.reverse.take 1000

/-- `_added_stream_ids`. -/
def addedStreamIds (e : MergeEntry) : List ℤ := e.after.filter (· ∉ e.before)

/-- `added_by_channel`. -/
def addedByChannel (page : List MergeEntry) (key : ChannelKey) : List ℤ :=
  (page.filter (·.entityId = key)).flatMap addedStreamIds

/-- One channel of `_journal_driven_unmerge`. -/
def unmergeChannel (page : List MergeEntry) (u : Upstream) (key : ChannelKey) : Upstream :=
  if addedByChannel page key = [] ∨ failures.call (.getChannel key) then u
  else
    match u.channels.get? key with
    | none => u
    | some row =>
      let remaining := (row .streams).filter (· ∉ addedByChannel page key)
      if remaining = row .streams ∨ failures.call (.updateChannel key) then u
      else { u with channels := u.channels.set key ((Patch.single .streams remaining).apply row) }

/-- `_journal_driven_unmerge`: whether there was anything to go by, and what it leaves. -/
def journalDrivenUnmerge (journal : List MergeEntry) (u : Upstream) : Bool × Upstream :=
  let page := getEntries journal
  if failures.unmergeRead ∨ page = [] then (false, u)
  else (true, (page.map (·.entityId)).dedup.foldl (unmergeChannel failures page) u)

/-- An entry of `modified_entities` whose previous state is a list of streams and nothing else. -/
def Modified.onlyStreams (m : Modified) : Bool :=
  [Field.name, .channelGroupId, .channelNumber, .tvgId, .epgDataId, .logoId, .logoUrl,
    .streamProfileId, .autoCreated].all (fun f => (m.previous f).isNone) &&
    (m.previous .streams).isSome

/-- The channel an entry of `modified_entities` is about. -/
def Modified.channelEntity (m : Modified) : Option ChannelKey :=
  match m.entity with
  | .channel key => some key
  | .stream _ => none

/-- `_event_sync_journal_covers_run`. -/
def eventSyncJournalCoversRun (e : Execution) : Bool :=
  let entries := getEntries e.journal
  e.created.isEmpty && !e.modified.isEmpty &&
    e.modified.all (fun m => m.channelEntity.isSome && m.onlyStreams) &&
    !failures.coverageRead && e.journal.length = entries.length &&
    entries.all (·.category = .eventSync) &&
    (entries.map (·.entityId)).isPerm (e.modified.filterMap (·.channelEntity))

/-- What `restore_snapshot` sends for a channel. -/
def restorePayload (ch : SnapshotChannel) : RowPatch :=
  let streams : RowPatch := .single .streams ch.streamIds
  if ch.eventSyncMaster then streams
  else (((streams.orElse (.single .name ch.name)).orElse
    (.single .channelGroupId ch.channelGroupId)).orElse (.single .epgDataId ch.epgDataId)).orElse
    (.single .tvgId ch.tvgId)

/-- The channels of a snapshot are written back; those for which that fails are listed. -/
def restoreChannels : List SnapshotChannel → Upstream → List ChannelKey × Upstream
  | [], u => ([], u)
  | ch :: rest, u =>
    if failures.call (.updateChannel ch.id) ∨ ch.id ∉ u.channels then
      let (failed, u) := restoreChannels rest u
      (ch.id :: failed, u)
    else
      restoreChannels rest
        { u with channels := u.channels.modify ch.id (restorePayload ch).apply }

/-- `restore_snapshot`. -/
def restoreSnapshot (e : Execution) (u : Upstream) : RollbackAnswer :=
  if e.dryRun then refuse e u .dryRun
  else if e.status = .rolledBack then refuse e u .alreadyRolledBack
  else
    match e.snapshot with
    | none => refuse e u .noSnapshot
    | some channels =>
      let (failed, u) := restoreChannels failures channels (rollbackCreated failures e.created u)
      ⟨failed.isEmpty, none, failed, if failed.isEmpty then .rolledBack else e.status, u⟩

/-- The path of `rollback_execution` for a run without a snapshot. -/
def rollbackLegacy (e : Execution) (u : Upstream) : RollbackAnswer :=
  if e.created = [] ∧ e.modified.isEmpty then refuse e u .nothingRecorded
  else
    let (handled, u) := journalDrivenUnmerge failures e.journal (rollbackCreated failures e.created u)
    let u := if handled then u else e.modified.reverse.foldl (rollbackModifiedEntity failures) u
    ⟨true, none, [], .rolledBack, u⟩

/-- `rollback_execution`. -/
def rollbackExecution (confirm : Bool) (e : Execution) (u : Upstream) : RollbackAnswer :=
  if e.status = .rolledBack then refuse e u .alreadyRolledBack
  else if e.dryRun then refuse e u .dryRun
  else if e.snapshot.isNone then rollbackLegacy failures e u
  else if !confirm then refuse e u .requiresConfirm
  else if eventSyncJournalCoversRun failures e then
    match journalDrivenUnmerge failures e.journal u with
    | (true, u) => ⟨true, none, [], .rolledBack, u⟩
    | (false, _) => restoreSnapshot failures e u
  else restoreSnapshot failures e u

section Effects

/-- Writing a list of streams that a channel has changes nothing. -/
theorem single_streams_apply_self (row : Row) :
    (Patch.single .streams (row .streams) : RowPatch).apply row = row := by
  funext f
  by_cases hf : Field.streams = f
  · subst hf
    simp
  · simp [Patch.single_ne _ hf]

/-- What the rollback of the created entities leaves of the channels. -/
theorem get?_rollbackCreated (created : List Created) (u : Upstream) (key : ChannelKey) :
    (rollbackCreated failures created u).channels.get? key =
      if .channel key ∈ created ∧ !failures.call (.deleteChannel key) then none
      else u.channels.get? key := by
  induction created with
  | nil => simp [rollbackCreated]
  | cons entity created ih =>
    have hstep : rollbackCreated failures (entity :: created) u =
        rollbackCreatedEntity failures (rollbackCreated failures created u) entity := by
      simp [rollbackCreated]
    rw [hstep]
    cases entity with
    | group g =>
      have hsame : (rollbackCreatedEntity failures (rollbackCreated failures created u)
          (.group g)).channels = (rollbackCreated failures created u).channels := by
        simp only [rollbackCreatedEntity]
        split <;> rfl
      rw [hsame, ih]
      simp
    | channel k =>
      by_cases hfail : failures.call (.deleteChannel k)
      · simp only [rollbackCreatedEntity, hfail, if_true, ih, List.mem_cons, Created.channel.injEq]
        by_cases hk : key = k
        · simp [hk, hfail]
        · simp [hk]
      · simp only [rollbackCreatedEntity, hfail, Bool.false_eq_true, if_false, Dict.get?_erase, ih,
          List.mem_cons, Created.channel.injEq]
        by_cases hk : key = k
        · simp [hk, hfail]
        · simp [hk, Ne.symm hk]

/-- And of the groups. -/
theorem mem_groups_rollbackCreated (created : List Created) (u : Upstream) (g : GroupKey) :
    g ∈ (rollbackCreated failures created u).groups ↔
      g ∈ u.groups ∧ (.group g ∈ created → failures.call (.deleteGroup g)) := by
  induction created with
  | nil => simp [rollbackCreated]
  | cons entity created ih =>
    have hstep : rollbackCreated failures (entity :: created) u =
        rollbackCreatedEntity failures (rollbackCreated failures created u) entity := by
      simp [rollbackCreated]
    rw [hstep]
    cases entity with
    | channel k =>
      have hsame : (rollbackCreatedEntity failures (rollbackCreated failures created u)
          (.channel k)).groups = (rollbackCreated failures created u).groups := by
        simp only [rollbackCreatedEntity]
        split <;> rfl
      rw [hsame, ih]
      simp
    | group k =>
      by_cases hfail : failures.call (.deleteGroup k)
      · simp only [rollbackCreatedEntity, hfail, if_true, ih, List.mem_cons, Created.group.injEq]
        by_cases hk : g = k
        · simp [hk, hfail]
        · simp [hk]
      · simp only [rollbackCreatedEntity, hfail, Bool.false_eq_true, if_false, List.mem_filter, ih,
          List.mem_cons, Created.group.injEq]
        by_cases hk : g = k
        · simp [hk, hfail]
        · simp [hk]

/-- A channel without the streams the journal says were added to it. -/
def unmerged (page : List MergeEntry) (key : ChannelKey) (row : Row) : Row :=
  (Patch.single .streams ((row .streams).filter (· ∉ addedByChannel page key)) : RowPatch).apply row

/-- The calls of the unmerge for a channel. -/
def Failures.unmergeFails (key : ChannelKey) : Bool :=
  failures.call (.getChannel key) || failures.call (.updateChannel key)

theorem unmergeChannel_eq (page : List MergeEntry) (u : Upstream) (key : ChannelKey) :
    unmergeChannel failures page u key =
      { u with channels := u.channels.modify key fun row =>
          if failures.unmergeFails key then row else unmerged page key row } := by
  unfold unmergeChannel Dict.modify Failures.unmergeFails
  cases hget : u.channels.get? key with
  | none => simp
  | some row =>
    have hself : u.channels.set key row = u.channels := Dict.set_eq_self _ hget
    have hsame : (row .streams).filter (· ∉ addedByChannel page key) = row .streams →
        unmerged page key row = row := by
      intro h
      rw [unmerged, h, single_streams_apply_self]
    by_cases hadd : addedByChannel page key = []
    · have hrow : unmerged page key row = row := hsame (by simp [hadd])
      simp [hadd, hrow, hself]
    · by_cases hread : failures.call (.getChannel key)
      · simp [hread, hself]
      · by_cases hrest : (row .streams).filter (· ∉ addedByChannel page key) = row .streams
        · have hrow := hsame hrest
          simp only [hadd, hread, Bool.false_eq_true, or_self, hrest, true_or, if_true, hrow,
            ite_self, hself]
        · by_cases hwrite : failures.call (.updateChannel key)
          · simp only [hadd, hread, Bool.false_eq_true, or_self, if_false, hwrite, or_true, if_true,
              Bool.or_true, hself]
          · simp only [hadd, hread, Bool.false_eq_true, or_self, if_false, hrest, hwrite, unmerged,
              Bool.or_self]

/-- What the unmerge leaves: every channel without the streams it was given, unless a call fails. -/
theorem get?_journalDrivenUnmerge {journal : List MergeEntry} {u u' : Upstream}
    (h : journalDrivenUnmerge failures journal u = (true, u')) (key : ChannelKey) :
    u'.channels.get? key = (u.channels.get? key).map fun row =>
      if failures.unmergeFails key then row else unmerged (getEntries journal) key row := by
  unfold journalDrivenUnmerge at h
  dsimp only at h
  split at h
  · cases h
  cases h
  generalize getEntries journal = page
  have hfold : ∀ keys : List ChannelKey, ∀ u : Upstream,
      (keys.foldl (unmergeChannel failures page) u).channels =
        keys.foldl (fun d key => d.modify key fun row =>
          if failures.unmergeFails key then row else unmerged page key row) u.channels := by
    intro keys
    induction keys with
    | nil => intro u; rfl
    | cons k keys ih => intro u; rw [List.foldl_cons, ih, unmergeChannel_eq, List.foldl_cons]
  rw [hfold, Dict.get?_foldl_modify _ _ _ _ (List.nodup_dedup _)]
  congr 1
  funext row
  by_cases hk : key ∈ (page.map (·.entityId)).dedup
  · rw [if_pos hk]
  · have hnone : addedByChannel page key = [] := by
      rw [List.mem_dedup, List.mem_map] at hk
      rw [addedByChannel, List.flatMap_eq_nil_iff]
      intro e he
      have := List.mem_filter.mp he
      exact absurd ⟨e, this.1, by simpa using this.2⟩ hk
    have hrow : unmerged page key row = row := by
      rw [unmerged, hnone]
      simpa using single_streams_apply_self row
    rw [if_neg hk, hrow, ite_self]

theorem journalDrivenUnmerge_groups (journal : List MergeEntry) (u : Upstream) :
    (journalDrivenUnmerge failures journal u).2.groups = u.groups := by
  unfold journalDrivenUnmerge
  dsimp only
  split
  · rfl
  · generalize ((getEntries journal).map (·.entityId)).dedup = keys
    induction keys generalizing u with
    | nil => rfl
    | cons k keys ih => rw [List.foldl_cons, ih, unmergeChannel_eq]

/-- What was recorded of a channel under its own name. -/
def recordedUnder (modified : List Modified) (key : ChannelKey) : List RowPatch :=
  (modified.filter (·.entity = .channel key)).map (·.previous)

/-- Writing the recorded states back undoes the log of each channel. -/
theorem get?_rollbackModified (modified : List Modified) (u : Upstream) (key : ChannelKey) :
    (modified.reverse.foldl (rollbackModifiedEntity .never) u).channels.get? key =
      (u.channels.get? key).map (Patch.undo (recordedUnder modified key)) := by
  induction modified with
  | nil => exact Option.map_id'.symm
  | cons m modified ih =>
    rw [List.reverse_cons, List.foldl_append, List.foldl_cons, List.foldl_nil]
    cases hm : m.entity with
    | stream id =>
      have hlog : recordedUnder (m :: modified) key = recordedUnder modified key := by
        simp [recordedUnder, hm]
      rw [hlog, ← ih]
      simp only [rollbackModifiedEntity, hm]
    | channel k =>
      simp only [rollbackModifiedEntity, hm, Failures.never, Bool.false_eq_true, if_false,
        Dict.get?_modify]
      by_cases hk : k = key
      · have hlog : recordedUnder (m :: modified) key = m.previous :: recordedUnder modified key := by
          simp [recordedUnder, hm, hk]
        rw [if_pos hk, hlog]
        simp only [Failures.never] at ih
        rw [ih, Option.map_map]
        rfl
      · have hlog : recordedUnder (m :: modified) key = recordedUnder modified key := by
          simp [recordedUnder, hm, hk]
        rw [if_neg hk, hlog]
        exact ih

theorem rollbackModified_groups (modified : List Modified) (u : Upstream) :
    (modified.foldl (rollbackModifiedEntity failures) u).groups = u.groups := by
  induction modified generalizing u with
  | nil => rfl
  | cons m modified ih =>
    rw [List.foldl_cons, ih]
    unfold rollbackModifiedEntity
    split
    · split <;> rfl
    · rfl

end Effects

end Rollback

end ChannelManager.Pipeline
