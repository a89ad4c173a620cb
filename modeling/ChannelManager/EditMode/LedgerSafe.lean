import ChannelManager.EditMode.LedgerRestore
import ChannelManager.EditMode.SessionRuns
import ChannelManager.Lib.Chain

/-!
# A restored ledger is safe to replay

What the walk of `planLedgerRestore` projects is what Edit Mode's own replay of the restored
operations shows, so what it lets through names nothing that is missing by then.
-/

namespace ChannelManager.EditMode

/-- The groups a call brings into being. -/
def createdGroupIds : ApiCallSpec → List ℤ
  | .createChannel call =>
    if call.newGroupName.any (· ≠ "") then call.stagedGroupId.toList else []
  | .createGroup _ g => [g]
  | _ => []

/-- The groups a call names, a hidden one that it restores among them. -/
def namedGroupIds : ApiCallSpec → List ℤ
  | .updateChannel call => call.data.channelGroupId.join.toList
  | .createChannel call => call.referencedGroupId.toList
  | .deleteChannelGroup g => [g]
  | .renameChannelGroup g _ => [g]
  | .restoreChannelGroup g => [g]
  | _ => []

section SameEdit

@[simp] theorem applyWithCreate_withoutAcknowledgement (wc : List Channel) (apiCall : ApiCallSpec)
    (t : ℤ) : applyWithCreate wc (withoutAcknowledgement apiCall) t = applyWithCreate wc apiCall t := by
  cases apiCall <;> rfl

@[simp] theorem createdGroupIds_withoutAcknowledgement (apiCall : ApiCallSpec) :
    createdGroupIds (withoutAcknowledgement apiCall) = createdGroupIds apiCall := by
  cases apiCall <;> rfl

@[simp] theorem namedGroupIds_withoutAcknowledgement (apiCall : ApiCallSpec) :
    namedGroupIds (withoutAcknowledgement apiCall) = namedGroupIds apiCall := by
  cases apiCall <;> rfl

@[simp] theorem affectedChannelIdsOf_withoutAcknowledgement (apiCall : ApiCallSpec) :
    affectedChannelIdsOf (withoutAcknowledgement apiCall) = affectedChannelIdsOf apiCall := by
  cases apiCall <;> rfl

@[simp] theorem withoutAcknowledgement_eq_delete {apiCall : ApiCallSpec} {c : ℤ} :
    withoutAcknowledgement apiCall = .deleteChannel c ↔ apiCall = .deleteChannel c := by
  cases apiCall <;> simp [withoutAcknowledgement]

@[simp] theorem withoutAcknowledgement_eq_reorder {apiCall : ApiCallSpec} {c : ℤ} {xs : List ℤ} :
    withoutAcknowledgement apiCall = .reorderChannelStreams c xs ↔
      apiCall = .reorderChannelStreams c xs := by
  cases apiCall <;> simp [withoutAcknowledgement]

/-- What is restored of an operation: all of it, or all but its acknowledgement. -/
def SameEdit (operation restored : StagedOperation) : Prop :=
  restored = operation ∨
    restored = { operation with apiCall := withoutAcknowledgement operation.apiCall }

variable {operation kept : StagedOperation} (h : SameEdit operation kept)
include h

theorem SameEdit.id_eq : kept.id = operation.id := by
  obtain rfl | rfl := h <;> rfl

theorem SameEdit.tempId : kept.tempId = operation.tempId := by
  obtain rfl | rfl := h <;> rfl

theorem SameEdit.createdId? : kept.createdId? = operation.createdId? := by
  obtain rfl | rfl := h
  · rfl
  · cases hcall : operation.apiCall <;>
      simp [StagedOperation.createdId?, StagedOperation.snapshotId?, withoutAcknowledgement, hcall]

/-- The id a create was staged under is kept with it. -/
theorem SameEdit.staged_neg
    (hcreate : ∀ call, operation.apiCall = .createChannel call →
      ∃ t, t < 0 ∧ operation.snapshotId? = some t) :
    ∀ call, kept.apiCall = .createChannel call → ∃ t, t < 0 ∧ kept.snapshotId? = some t := by
  obtain rfl | rfl := h
  · exact hcreate
  · intro call hcall
    cases hop : operation.apiCall
    case createChannel call' => exact hcreate call' hop
    all_goals simp [withoutAcknowledgement, hop] at hcall

theorem SameEdit.createdGroupIds :
    EditMode.createdGroupIds kept.apiCall = EditMode.createdGroupIds operation.apiCall := by
  obtain rfl | rfl := h <;> simp

theorem SameEdit.namedGroupIds :
    EditMode.namedGroupIds kept.apiCall = EditMode.namedGroupIds operation.apiCall := by
  obtain rfl | rfl := h <;> simp

theorem SameEdit.affectedChannelIdsOf :
    EditMode.affectedChannelIdsOf kept.apiCall = EditMode.affectedChannelIdsOf operation.apiCall := by
  obtain rfl | rfl := h <;> simp

theorem SameEdit.applyWithCreate (wc : List Channel) (t : ℤ) :
    EditMode.applyWithCreate wc kept.apiCall t = EditMode.applyWithCreate wc operation.apiCall t := by
  obtain rfl | rfl := h <;> simp

theorem SameEdit.deletes_iff {c : ℤ} :
    kept.apiCall = .deleteChannel c ↔ operation.apiCall = .deleteChannel c := by
  obtain rfl | rfl := h <;> simp

theorem SameEdit.reorders_iff {c : ℤ} {xs : List ℤ} :
    kept.apiCall = .reorderChannelStreams c xs ↔
      operation.apiCall = .reorderChannelStreams c xs := by
  obtain rfl | rfl := h <;> simp

end SameEdit

theorem LedgerProjection.sameEdit_restored (projection : LedgerProjection) (numberText : ℚ → String)
    (operation : StagedOperation) :
    SameEdit operation (projection.restored numberText operation).1 := by
  unfold LedgerProjection.restored
  split
  · exact .inl rfl
  · split
    · exact .inl rfl
    · exact .inr rfl

/-- An operation the walk can follow: its channels have not been deleted before it, it writes streams
only through the stream calls, it lists no stream twice, and a create has its temporary id. -/
structure Steady (before : List StagedOperation) (operation : StagedOperation) : Prop where
  alive : ∀ c ∈ affectedChannelIdsOf operation.apiCall, ∀ op ∈ before, op.apiCall ≠ .deleteChannel c
  fields : ∀ call, operation.apiCall = .updateChannel call → call.data.streams = none
  distinct : ∀ c xs, operation.apiCall = .reorderChannelStreams c xs → xs.Nodup
  created : ∀ call, operation.apiCall = .createChannel call →
    ∃ t, t < 0 ∧ operation.snapshotId? = some t

/-- What a replayed operation can rely on: every channel and group it names is on the server or
created before it, and a reordering lists the streams its channel has by then. -/
structure SafeAfter (context : LedgerRestoreContext) (hiddenGroupIds : List ℤ)
    (earlier : List StagedOperation) (operation : StagedOperation) : Prop where
  channels : ∀ c ∈ affectedChannelIdsOf operation.apiCall, c ∈ context.channels.map (·.id) ∨
    ∃ op ∈ earlier, op.createdId? = some c
  groups : ∀ g ∈ namedGroupIds operation.apiCall, g ∈ context.channelGroupIds ∨
    g ∈ hiddenGroupIds ∨ ∃ op ∈ earlier, g ∈ createdGroupIds op.apiCall
  reorders : ∀ c xs, operation.apiCall = .reorderChannelStreams c xs →
    ∃ ch ∈ (replayStagedOperations context.channels earlier).workingCopy,
      ch.id = c ∧ xs.Perm ch.streams

namespace LedgerRestoreContext

variable (context : LedgerRestoreContext) (numberText : ℚ → String)

theorem planStep_dropped {walk : LedgerWalk} {operation : StagedOperation}
    {failure : LedgerDropReason × String}
    (h : context.failureOf walk.projection operation = some failure) :
    context.planStep numberText walk operation =
      { walk with
        dropped := walk.dropped ++
          [⟨operation.id, operation.apiCall.type, operation.description, failure.1, failure.2⟩] } := by
  rw [planStep, h]

theorem planStep_kept {walk : LedgerWalk} {operation : StagedOperation}
    (h : context.failureOf walk.projection operation = none) :
    context.planStep numberText walk operation =
      { walk with
        projection := context.accept walk.projection operation
        restorable :=
          walk.restorable ++ [(walk.projection.restored numberText operation).1]
        withdrawnAcknowledgements := walk.withdrawnAcknowledgements ++
          (walk.projection.restored numberText operation).2 } := by
  rw [planStep, h]

theorem walked_concat (operations : List StagedOperation) (operation : StagedOperation) :
    context.walked numberText (operations ++ [operation]) =
      context.planStep numberText (context.walked numberText operations) operation := by
  simp [walked]

theorem failureOf_eq_none {projection : LedgerProjection} {operation : StagedOperation} :
    context.failureOf projection operation = none ↔
      (∀ reference ∈ referencesOf operation.apiCall,
        context.referenceFailure projection operation reference = none) ∧
      context.streamFailure projection operation = none := by
  rw [failureOf, Option.or_eq_none_iff, List.findSome?_eq_none_iff]

section References

variable {context} {projection : LedgerProjection} {operation : StagedOperation}

theorem referenceFailure_channel {c : ℤ} :
    context.referenceFailure projection operation ⟨.channel, c⟩ = none ↔
      if c < 0 then c ∈ projection.stagedChannelIds else c ∈ context.channelById := by
  unfold referenceFailure
  dsimp only
  split <;> simp

theorem referenceFailure_group {g : ℤ} :
    context.referenceFailure projection operation ⟨.group, g⟩ = none ↔
      if g < 0 then g ∈ projection.stagedGroupIds else g ∈ context.channelGroupIds := by
  unfold referenceFailure
  dsimp only
  split <;> simp

theorem referenceFailure_profile {p : ℤ} (hp : 0 ≤ p) :
    context.referenceFailure projection operation ⟨.profile, p⟩ = none ↔
      context.profileIds.all (p ∈ ·) := by
  unfold referenceFailure
  dsimp only
  rw [if_neg (not_lt.mpr hp)]
  simp

theorem mem_channelById {c : ℤ} :
    c ∈ context.channelById ↔ c ∈ context.channels.map (·.id) := by
  constructor
  · intro h
    obtain ⟨ch, hch⟩ := Dict.exists_get? h
    have hentry := Dict.mem_of_get?_ofList hch
    rw [List.mem_map] at hentry ⊢
    obtain ⟨ch', hmem, heq⟩ := hentry
    exact ⟨ch', hmem, congrArg Prod.fst heq⟩
  · intro h
    have hkey : c ∈ (context.channels.map fun ch => (ch.id, ch)).map Prod.fst := by
      simpa [Function.comp_def] using h
    obtain ⟨ch, hch⟩ := Dict.exists_get?_ofList hkey
    exact Dict.mem_of_get? hch

end References

theorem get?_ofChannels {β : Type} (f : Channel → β) {channels : List Channel}
    (hn : (channels.map (·.id)).Nodup) (c : ℤ) :
    (Dict.ofList (channels.map fun ch => (ch.id, f ch))).get? c = (look channels c).map f := by
  have hkeys : ((channels.map fun ch => (ch.id, f ch)).map Prod.fst).Nodup := by
    simpa [Function.comp_def] using hn
  rw [Dict.get?, Dict.items_ofList _ hkeys]
  clear hkeys hn
  induction channels with
  | nil => rfl
  | cons ch channels ih =>
    by_cases h : ch.id = c
    · simp [findEntry, look, h]
    · simpa [findEntry, look, h] using ih

/-- What an operation does to the streams of one channel. -/
def streamsEffect (apiCall : ApiCallSpec) (c : ℤ) (streams : List ℤ) : List ℤ :=
  match apiCall with
  | .addStreamToChannel d x =>
    if d = c then if x ∈ streams then streams else streams ++ [x] else streams
  | .removeStreamFromChannel d x => if d = c then streams.filter (· ≠ x) else streams
  | .reorderChannelStreams d xs => if d = c then xs else streams
  | _ => streams

theorem streamsOf_set (projection : LedgerProjection) (d : ℤ) (xs : List ℤ) (c : ℤ) :
    context.streamsOf { projection with
      projectedStreams := projection.projectedStreams.set d xs } c =
      if d = c then xs else context.streamsOf projection c := by
  rw [streamsOf, Dict.get?_set]
  split <;> rfl

theorem streamsOf_accept (projection : LedgerProjection) (operation : StagedOperation) (c : ℤ) :
    context.streamsOf (context.accept projection operation) c =
      streamsEffect operation.apiCall c (context.streamsOf projection c) := by
  cases hcall : operation.apiCall
  case createChannel call =>
    simp only [accept, hcall, streamsEffect]
    split <;> split <;> rfl
  case addStreamToChannel d x =>
    simp only [accept, hcall, streamsEffect]
    by_cases hd : d = c
    · subst hd
      split
      · rw [if_pos rfl]
      · rw [streamsOf_set, if_pos rfl]
    · rw [if_neg hd]
      split
      · rfl
      · rw [streamsOf_set, if_neg hd]
  case removeStreamFromChannel d x =>
    simp only [accept, hcall, streamsEffect, streamsOf_set]
    by_cases hd : d = c
    · rw [hd]
    · rw [if_neg hd, if_neg hd]
  case reorderChannelStreams d xs =>
    simp only [accept, hcall, streamsEffect, streamsOf_set]
  case updateChannel call =>
    simp only [accept, hcall, streamsEffect]
    split <;> rfl
  all_goals simp [accept, hcall, streamsEffect, streamsOf]

/-- The same on the records of a working copy, but for an update that writes streams itself. -/
theorem streams_cell {apiCall : ApiCallSpec} {t c : ℤ} {record : Option Channel}
    (hid : ∀ ch, record = some ch → ch.id = c) (hdelete : apiCall ≠ .deleteChannel c)
    (hupdate : ∀ call, apiCall = .updateChannel call → call.data.streams = none)
    (hshown : c ∈ affectedChannelIdsOf apiCall → record.isSome) :
    ((cell apiCall t c record).map (·.streams)).getD [] =
      streamsEffect apiCall c ((record.map (·.streams)).getD []) := by
  cases apiCall
  case deleteChannel d =>
    have hd : d ≠ c := fun h => hdelete (by rw [h])
    simp [cell, hd, streamsEffect]
  case createChannel call =>
    cases record with
    | none =>
      by_cases ht : t = c
      · simp [cell, ht, streamsEffect, buildStagedChannel]
      · simp [cell, ht, streamsEffect]
    | some ch => simp [cell, streamsEffect]
  case updateChannel call =>
    cases record with
    | none => rfl
    | some ch =>
      have hstreams := hupdate call rfl
      simp only [cell, Option.map_some, channelEffect, streamsEffect, Option.getD_some]
      split
      · simp [Channel.patch, hstreams]
      · rfl
  case addStreamToChannel d x =>
    by_cases hd : d = c
    · obtain ⟨ch, rfl⟩ := Option.isSome_iff_exists.mp (hshown (by simp [affectedChannelIdsOf, hd]))
      simp only [cell, channelEffect, streamsEffect, Option.map_some, Option.getD_some, hd,
        hid ch rfl, if_true]
      split <;> rfl
    · have hc : c ∉ affectedChannelIdsOf (.addStreamToChannel d x) := by
        simpa [affectedChannelIdsOf] using Ne.symm hd
      rw [cell_of_not_affected (by simp) hc hid, streamsEffect, if_neg hd]
  case removeStreamFromChannel d x =>
    by_cases hd : d = c
    · obtain ⟨ch, rfl⟩ := Option.isSome_iff_exists.mp (hshown (by simp [affectedChannelIdsOf, hd]))
      simp [cell, channelEffect, streamsEffect, hd, hid ch rfl]
    · have hc : c ∉ affectedChannelIdsOf (.removeStreamFromChannel d x) := by
        simpa [affectedChannelIdsOf] using Ne.symm hd
      rw [cell_of_not_affected (by simp) hc hid, streamsEffect, if_neg hd]
  case reorderChannelStreams d xs =>
    by_cases hd : d = c
    · obtain ⟨ch, rfl⟩ := Option.isSome_iff_exists.mp (hshown (by simp [affectedChannelIdsOf, hd]))
      simp [cell, channelEffect, streamsEffect, hd, hid ch rfl]
    · have hc : c ∉ affectedChannelIdsOf (.reorderChannelStreams d xs) := by
        simpa [affectedChannelIdsOf] using Ne.symm hd
      rw [cell_of_not_affected (by simp) hc hid, streamsEffect, if_neg hd]
  case bulkAssignChannelNumbers call =>
    cases record with
    | none => rfl
    | some ch =>
      simp only [cell, channelEffect, streamsEffect, Option.map_some, Option.getD_some]
      split <;> rfl
  all_goals cases record <;> rfl

/-- A channel that was there or was created is there until it is deleted. -/
theorem look_replayed_isSome {base : List Channel} {operations : List StagedOperation} {c : ℤ}
    (h : c ∈ base.map (·.id) ∨ ∃ op ∈ operations, op.createdId? = some c)
    (hdelete : ∀ op ∈ operations, op.apiCall ≠ .deleteChannel c) :
    (look (replayed base operations) c).isSome := by
  induction operations using List.reverseRecOn with
  | nil =>
    have hbase := h.resolve_right (by simp)
    exact Option.isSome_iff_ne_none.mpr fun hnone => look_eq_none.mp hnone hbase
  | append_singleton operations op ih =>
    rw [look_replayed_concat]
    have hop := hdelete op (by simp)
    have hkeep : (look (replayed base operations) c).isSome →
        (cell op.apiCall op.tempId c (look (replayed base operations) c)).isSome := by
      intro hsome
      obtain ⟨ch, hch⟩ := Option.isSome_iff_exists.mp hsome
      rw [hch]
      cases hcall : op.apiCall
      case deleteChannel d =>
        have hd : d ≠ c := fun heq => hop (by rw [hcall, heq])
        simp [cell, hd]
      all_goals simp [cell]
    have hearlier : ∀ op' ∈ operations, op'.apiCall ≠ .deleteChannel c :=
      fun op' hmem => hdelete op' (List.mem_append_left _ hmem)
    obtain hbase | ⟨op', hmem, hcreated⟩ := h
    · exact hkeep (ih (.inl hbase) hearlier)
    · rw [List.mem_append, List.mem_singleton] at hmem
      obtain hmem | rfl := hmem
      · exact hkeep (ih (.inr ⟨op', hmem, hcreated⟩) hearlier)
      · obtain ⟨call, hcall⟩ := createdId?_isSome hcreated
        have hid : op'.tempId = c := by
          rw [StagedOperation.createdId?, hcall] at hcreated
          simp [StagedOperation.tempId, hcreated]
        simp [cell, hcall, hid]

/-- What the projection says of the operations restored so far. -/
structure Projects (restorable : List StagedOperation) (projection : LedgerProjection) : Prop where
  channels : ∀ c, c ∈ projection.stagedChannelIds ↔
    c < 0 ∧ ∃ op ∈ restorable, op.createdId? = some c
  groups : ∀ g, g ∈ projection.stagedGroupIds ↔
    ∃ op ∈ restorable, g ∈ createdGroupIds op.apiCall
  streams : ∀ c, (∀ op ∈ restorable, op.apiCall ≠ .deleteChannel c) →
    context.streamsOf projection c =
      ((look (replayed context.channels restorable) c).map (·.streams)).getD []

theorem projects_start (hn : (context.channels.map (·.id)).Nodup) :
    context.Projects [] context.startProjection where
  channels := by simp [startProjection]
  groups := by simp [startProjection]
  streams := by
    intro c _
    have hbase := get?_ofChannels id hn c
    simp only [id_eq, Option.map_id] at hbase
    simp [streamsOf, startProjection, channelById, hbase]

theorem stagedChannelIds_accept (projection : LedgerProjection) (operation : StagedOperation)
    (c : ℤ) : c ∈ (context.accept projection operation).stagedChannelIds ↔
      c ∈ projection.stagedChannelIds ∨ c < 0 ∧ operation.createdId? = some c := by
  cases hcall : operation.apiCall
  case createChannel call =>
    simp only [accept, hcall, StagedOperation.createdId?, StagedOperation.tempChannelId?]
    cases operation.snapshotId? with
    | none => split <;> simp
    | some t => split <;> by_cases ht : t < 0 <;> simp [ht, Option.filter] <;> grind
  all_goals
    simp only [accept, hcall, StagedOperation.createdId?]
    try split
  all_goals simp

theorem stagedGroupIds_accept (projection : LedgerProjection) (operation : StagedOperation)
    (g : ℤ) : g ∈ (context.accept projection operation).stagedGroupIds ↔
      g ∈ projection.stagedGroupIds ∨ g ∈ createdGroupIds operation.apiCall := by
  cases hcall : operation.apiCall
  case createChannel call =>
    simp only [accept, hcall, createdGroupIds]
    cases operation.tempChannelId? <;> split <;> simp
  all_goals
    simp only [accept, hcall, createdGroupIds]
    try split
  all_goals simp [or_comm]

variable {context}

/-- One more operation restored. -/
theorem Projects.accept {restorable : List StagedOperation} {projection : LedgerProjection}
    (h : context.Projects restorable projection) {operation kept : StagedOperation}
    (hsame : SameEdit operation kept)
    (hupdate : ∀ call, operation.apiCall = .updateChannel call → call.data.streams = none)
    (hshown : ∀ c ∈ affectedChannelIdsOf operation.apiCall,
      (look (replayed context.channels restorable) c).isSome) :
    context.Projects (restorable ++ [kept]) (context.accept projection operation) where
  channels := by
    intro c
    rw [stagedChannelIds_accept, h.channels, ← and_or_left, ← hsame.createdId?]
    simp [or_and_right, exists_or]
  groups := by
    intro g
    rw [stagedGroupIds_accept, h.groups, ← hsame.createdGroupIds]
    simp [or_and_right, exists_or]
  streams := by
    intro c hdelete
    have hkept : operation.apiCall ≠ .deleteChannel c :=
      fun hcall => hdelete kept (by simp) (hsame.deletes_iff.mpr hcall)
    rw [streamsOf_accept, h.streams c fun op hop => hdelete op (List.mem_append_left _ hop),
      look_replayed_concat, hsame.tempId, ← look_applyWithCreate, hsame.applyWithCreate,
      look_applyWithCreate, streams_cell (fun _ => look_id) hkept hupdate (hshown c)]

theorem mem_referencesOf_channel {apiCall : ApiCallSpec} {c : ℤ} :
    ⟨.channel, c⟩ ∈ referencesOf apiCall ↔ c ∈ affectedChannelIdsOf apiCall := by
  cases apiCall <;> simp [referencesOf, affectedChannelIdsOf]

/-- Every group a call names is a reference, but for a hidden one that it restores. -/
theorem mem_referencesOf_group {apiCall : ApiCallSpec} {g : ℤ} (h : g ∈ namedGroupIds apiCall) :
    ⟨.group, g⟩ ∈ referencesOf apiCall ∨ apiCall = .restoreChannelGroup g := by
  cases apiCall <;> simp_all [referencesOf, namedGroupIds]

/-- What an operation that is restored names is there. -/
theorem Projects.named {restorable : List StagedOperation} {projection : LedgerProjection}
    (h : context.Projects restorable projection) {operation : StagedOperation}
    (hkept : context.failureOf projection operation = none) :
    (∀ c ∈ affectedChannelIdsOf operation.apiCall, c ∈ context.channels.map (·.id) ∨
      ∃ op ∈ restorable, op.createdId? = some c) ∧
    ∀ g ∈ namedGroupIds operation.apiCall, operation.apiCall = .restoreChannelGroup g ∨
      g ∈ context.channelGroupIds ∨ ∃ op ∈ restorable, g ∈ createdGroupIds op.apiCall := by
  have hreferences := ((context.failureOf_eq_none).mp hkept).1
  constructor
  · intro c hc
    have href := hreferences _ (mem_referencesOf_channel.mpr hc)
    rw [referenceFailure_channel, mem_channelById, h.channels] at href
    split at href
    · exact .inr href.2
    · exact .inl href
  · intro g hg
    obtain hmem | hrestore := mem_referencesOf_group hg
    · have href := hreferences _ hmem
      rw [referenceFailure_group, h.groups] at href
      split at href
      · exact .inr (.inr href)
      · exact .inr (.inl href)
    · exact .inl hrestore

/-- The walk over a ledger: what it projects, and where its operations went. -/
structure Walked (context : LedgerRestoreContext) (operations : List StagedOperation)
    (walk : LedgerWalk) : Prop where
  projects : context.Projects walk.restorable walk.projection
  kept : ∀ restored ∈ walk.restorable, ∃ op ∈ operations, SameEdit op restored
  ids : (walk.restorable.map (·.id) ++ walk.dropped.map (·.id)).Perm (operations.map (·.id))

theorem Walked.alive {operations : List StagedOperation} {walk : LedgerWalk}
    (h : Walked context operations walk) {c : ℤ}
    (hdelete : ∀ op ∈ operations, op.apiCall ≠ .deleteChannel c) :
    ∀ op ∈ walk.restorable, op.apiCall ≠ .deleteChannel c := by
  intro restored hmem hcall
  obtain ⟨op, hop, hsame⟩ := h.kept restored hmem
  exact hdelete op hop (hsame.deletes_iff.mp hcall)

/-- Every channel a restored operation names is in the replay. -/
theorem Walked.shown {operations : List StagedOperation} {walk : LedgerWalk}
    (h : Walked context operations walk) {operation : StagedOperation}
    (hsteady : Steady operations operation)
    (hkept : context.failureOf walk.projection operation = none) :
    ∀ c ∈ affectedChannelIdsOf operation.apiCall,
      (look (replayed context.channels walk.restorable) c).isSome := by
  intro c hc
  exact look_replayed_isSome ((h.projects.named hkept).1 c hc) (h.alive (hsteady.alive c hc))

theorem Walked.step {operations : List StagedOperation} {walk : LedgerWalk}
    (h : Walked context operations walk) {operation : StagedOperation}
    (hsteady : Steady operations operation) :
    Walked context (operations ++ [operation]) (context.planStep numberText walk operation) := by
  cases hfailure : context.failureOf walk.projection operation with
  | some failure =>
    rw [planStep_dropped context numberText hfailure]
    refine ⟨h.projects, fun restored hmem => ?_, ?_⟩
    · obtain ⟨op, hop, hsame⟩ := h.kept restored hmem
      exact ⟨op, List.mem_append_left _ hop, hsame⟩
    · simpa [← List.append_assoc] using h.ids.append_right [operation.id]
  | none =>
    have hsame := walk.projection.sameEdit_restored numberText operation
    rw [planStep_kept context numberText hfailure]
    refine ⟨h.projects.accept hsame hsteady.fields (h.shown hsteady hfailure), ?_, ?_⟩
    · intro restored hmem
      rw [List.mem_append, List.mem_singleton] at hmem
      obtain hmem | rfl := hmem
      · obtain ⟨op, hop, hsame⟩ := h.kept restored hmem
        exact ⟨op, List.mem_append_left _ hop, hsame⟩
      · exact ⟨operation, by simp, hsame⟩
    · have hids := h.ids.append_right [operation.id]
      rw [List.map_append, List.map_singleton, hsame.id_eq, List.map_append, List.map_singleton]
      refine List.Perm.trans ?_ hids
      rw [List.append_assoc, List.append_assoc]
      exact List.perm_append_comm.append_left _

theorem walked_walked (hn : (context.channels.map (·.id)).Nodup) {operations : List StagedOperation}
    (hsteady : ∀ before op after, operations = before ++ op :: after → Steady before op) :
    Walked context operations (context.walked numberText operations) := by
  induction operations using List.reverseRecOn with
  | nil => exact ⟨projects_start context hn, by simp [walked], by simp [walked]⟩
  | append_singleton operations operation ih =>
    obtain ⟨hearlier, hlast⟩ := forall_split_concat.mp hsteady
    rw [walked_concat]
    exact (ih hearlier).step numberText hlast

theorem perm_of_sameSet {xs current : List ℤ} (hxs : xs.Nodup)
    (hlength : current.length = xs.length) (hmem : ∀ x ∈ xs, x ∈ current) : xs.Perm current := by
  have hsub : xs.Subperm current := List.subperm_of_subset hxs hmem
  exact hsub.perm_of_length_le (le_of_eq hlength)

/-- A restored operation is safe after those restored before it. -/
theorem Walked.safe {operations : List StagedOperation} {walk : LedgerWalk}
    (h : Walked context operations walk) {operation kept : StagedOperation}
    (hsame : SameEdit operation kept) (hsteady : Steady operations operation)
    (hcreated : ∀ op ∈ operations, ∀ call, op.apiCall = .createChannel call →
      ∃ t, t < 0 ∧ op.snapshotId? = some t)
    {hiddenGroupIds : List ℤ}
    (hrestore : ∀ g, operation.apiCall = .restoreChannelGroup g →
      g ∈ context.channelGroupIds ∨ g ∈ hiddenGroupIds)
    (hkept : context.failureOf walk.projection operation = none) :
    SafeAfter context hiddenGroupIds walk.restorable kept where
  channels := by
    rw [hsame.affectedChannelIdsOf]
    exact (h.projects.named hkept).1
  groups := by
    rw [hsame.namedGroupIds]
    intro g hg
    obtain hcall | hvisible | hcreated := (h.projects.named hkept).2 g hg
    · exact (hrestore g hcall).imp_right .inl
    · exact .inl hvisible
    · exact .inr (.inr hcreated)
  reorders := by
    intro c xs hcall
    rw [hsame.reorders_iff] at hcall
    have hc : c ∈ affectedChannelIdsOf operation.apiCall := by simp [hcall, affectedChannelIdsOf]
    have hstreams := ((context.failureOf_eq_none).mp hkept).2
    rw [streamFailure, hcall] at hstreams
    have hset : (context.streamsOf walk.projection c).length = xs.length ∧
        ∀ x ∈ xs, x ∈ context.streamsOf walk.projection c := by
      by_contra hne
      simp [hne] at hstreams
    obtain ⟨ch, hch⟩ := Option.isSome_iff_exists.mp (h.shown hsteady hkept c hc)
    have hproject := h.projects.streams c (h.alive (hsteady.alive c hc))
    rw [hch, Option.map_some, Option.getD_some] at hproject
    rw [hproject] at hset
    have hreplay : (replayStagedOperations context.channels walk.restorable).workingCopy =
        replayed context.channels walk.restorable := by
      refine replayStagedOperations_eq_replayed fun restored hmem => ?_
      obtain ⟨op, hop, hsame⟩ := h.kept restored hmem
      exact hsame.staged_neg (hcreated op hop)
    rw [hreplay]
    have hperm := perm_of_sameSet (hsteady.distinct c xs hcall) hset.1 hset.2
    exact ⟨ch, look_mem hch, look_id hch, hperm⟩

end LedgerRestoreContext

/-- Restoring does no harm: each restored operation is safe to replay after those before it, and every
staged one is either restored or dropped, never both. -/
structure RestoresSafely (numberText : ℚ → String) (context : LedgerRestoreContext)
    (hiddenGroupIds : List ℤ) (operations : List StagedOperation) : Prop where
  replays : ∀ earlier op later,
    (planLedgerRestore numberText operations context).restorable = earlier ++ op :: later →
      SafeAfter context hiddenGroupIds earlier op
  once : ∀ op ∈ operations,
    Xor (∃ restored ∈ (planLedgerRestore numberText operations context).restorable,
        SameEdit op restored)
      (∃ dropped ∈ (planLedgerRestore numberText operations context).dropped, dropped.id = op.id)

section Safety

variable {context : LedgerRestoreContext} {numberText : ℚ → String} {hiddenGroupIds : List ℤ}
  {operations : List StagedOperation}

theorem safe_replays (hn : (context.channels.map (·.id)).Nodup)
    (hsteady : ∀ before op after, operations = before ++ op :: after → Steady before op)
    (hrestore : ∀ op ∈ operations, ∀ g, op.apiCall = .restoreChannelGroup g →
      g ∈ context.channelGroupIds ∨ g ∈ hiddenGroupIds) :
    ∀ earlier op later, (context.walked numberText operations).restorable = earlier ++ op :: later →
      SafeAfter context hiddenGroupIds earlier op := by
  induction operations using List.reverseRecOn with
  | nil =>
    intro earlier op later h
    simp [LedgerRestoreContext.walked] at h
  | append_singleton operations operation ih =>
    obtain ⟨hearlier, hlast⟩ := forall_split_concat.mp hsteady
    have hwalked := context.walked_walked numberText hn hearlier
    have hih := ih hearlier fun op hop => hrestore op (List.mem_append_left _ hop)
    rw [LedgerRestoreContext.walked_concat]
    cases hfailure : context.failureOf (context.walked numberText operations).projection operation with
    | some failure =>
      rw [context.planStep_dropped numberText hfailure]
      exact hih
    | none =>
      rw [context.planStep_kept numberText hfailure]
      refine forall_split_concat.mpr ⟨hih, ?_⟩
      refine hwalked.safe (LedgerProjection.sameEdit_restored _ numberText operation) hlast ?_
        (hrestore operation (by simp)) hfailure
      intro op hop call hcall
      obtain ⟨before, after, rfl⟩ := List.append_of_mem hop
      exact (hearlier before op after rfl).created call hcall

/-- No operation goes missing, none is both restored and dropped. -/
theorem restored_xor_dropped {walk : LedgerWalk}
    (h : context.Walked operations walk) (hids : (operations.map (·.id)).Nodup) :
    ∀ op ∈ operations, Xor (∃ restored ∈ walk.restorable, SameEdit op restored)
      (∃ dropped ∈ walk.dropped, dropped.id = op.id) := by
  intro op hop
  have hall : op.id ∈ walk.restorable.map (·.id) ++ walk.dropped.map (·.id) :=
    h.ids.mem_iff.mpr (List.mem_map_of_mem hop)
  have hapart := (List.nodup_append.mp (h.ids.nodup_iff.mpr hids)).2.2
  rw [List.mem_append, List.mem_map, List.mem_map] at hall
  obtain ⟨restored, hrestored, hid⟩ | ⟨dropped, hdropped, hid⟩ := hall
  · obtain ⟨op', hop', hsame⟩ := h.kept restored hrestored
    have heq : op' = op := List.inj_on_of_nodup_map hids hop' hop (hsame.id_eq.symm.trans hid)
    refine .inl ⟨⟨restored, hrestored, heq ▸ hsame⟩, ?_⟩
    rintro ⟨dropped, hdropped, hid'⟩
    exact hapart _ (List.mem_map_of_mem hrestored) _ (List.mem_map_of_mem hdropped)
      (hid.trans hid'.symm)
  · refine .inr ⟨⟨dropped, hdropped, hid⟩, ?_⟩
    rintro ⟨restored, hrestored, hsame⟩
    exact hapart _ (List.mem_map_of_mem hrestored) _ (List.mem_map_of_mem hdropped)
      (hsame.id_eq.trans hid.symm)

theorem restoresSafely (hn : (context.channels.map (·.id)).Nodup)
    (hids : (operations.map (·.id)).Nodup)
    (hsteady : ∀ before op after, operations = before ++ op :: after → Steady before op)
    (hrestore : ∀ op ∈ operations, ∀ g, op.apiCall = .restoreChannelGroup g →
      g ∈ context.channelGroupIds ∨ g ∈ hiddenGroupIds) :
    RestoresSafely numberText context hiddenGroupIds operations where
  replays := safe_replays hn hsteady hrestore
  once := restored_xor_dropped (context.walked_walked numberText hn hsteady) hids

end Safety

end ChannelManager.EditMode
