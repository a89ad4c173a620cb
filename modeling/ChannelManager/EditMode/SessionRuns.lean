import ChannelManager.EditMode.UndoRedo

/-!
# What Edit Mode shows is what Apply sends

The invariant of a session, one lemma for each kind of action, and whole runs.
-/

namespace ChannelManager.EditMode

/-- The operations collected by the open batch. -/
def Session.batchOperations (s : Session) : List StagedOperation :=
  (s.currentBatch.map (·.operations)).getD []

/-- The undone operations, in the order in which redoing brings them back. -/
def Session.undoneOperations (s : Session) : List StagedOperation :=
  s.localRedoStack.reverse.flatMap (·.operations)

def Session.trail (s : Session) : List StagedOperation :=
  s.stagedOperations ++ s.undoneOperations

/-- Before an undo: no batch is collecting operations, and for every channel the last entry names
without creating it the snapshots suffice. -/
def UndoRestores (s : Session) : Prop :=
  ∀ entry ∈ s.localUndoStack.getLast?,
    s.batchOperations = [] ∧
    ∀ op ∈ entry.operations, ∀ c ∈ affectedChannelIdsOf op.apiCall,
      (∀ creator ∈ entry.operations, creator.createdId? ≠ some c) →
        SnapshotsSuffice entry.operations c
          (look (replayed s.channels (s.localUndoStack.dropLast.flatMap (·.operations))) c)
          (look s.workingCopy c) (look s.channels c)

instance (s : Session) : Decidable (UndoRestores s) :=
  inferInstanceAs (Decidable (∀ entry ∈ s.localUndoStack.getLast?, _))

def ApiCallSpec.createCall? : ApiCallSpec → Option CreateChannelCall
  | .createChannel call => some call
  | _ => none

/-- The operation is no create with a field that a rebuilt channel leaves empty. -/
def StagedOperation.Rebuildable (op : StagedOperation) : Prop :=
  ∀ call ∈ op.apiCall.createCall?,
    call.tvgId = none ∧ call.tvcGuideStationId = none ∧ call.logoId = none ∧ call.logoUrl = none

instance (op : StagedOperation) : Decidable op.Rebuildable :=
  inferInstanceAs (Decidable (∀ call ∈ op.apiCall.createCall?, _))

/-- Before a redo: every operation of the entry can be rebuilt. -/
def RedoRebuilds (s : Session) : Prop :=
  ∀ entry ∈ s.localRedoStack.getLast?, ∀ op ∈ entry.operations, op.Rebuildable

instance (s : Session) : Decidable (RedoRebuilds s) :=
  inferInstanceAs (Decidable (∀ entry ∈ s.localRedoStack.getLast?, _))

section Lists

theorem find?_snapshotsOf (wc : List Channel) (affected : List ℤ) (c : ℤ) :
    (snapshotsOf wc affected).find? (·.id = c) =
      if c ∈ affected then (look wc c).map createSnapshot else none := by
  induction wc with
  | nil => simp [snapshotsOf, look]
  | cons x wc ih =>
    by_cases hx : x.id = c
    · by_cases hc : c ∈ affected
      · simp [snapshotsOf, look, hx, hc, createSnapshot]
      · simpa [snapshotsOf, hx, hc, List.filter_cons] using ih
    · by_cases hmem : x.id ∈ affected
      · simpa [snapshotsOf, List.filter_cons, hmem, createSnapshot, hx, look, List.find?_cons]
          using ih
      · simpa [snapshotsOf, List.filter_cons, hmem, look, List.find?_cons, hx] using ih

theorem nodup_snapshotsOf {wc : List Channel} (h : (wc.map (·.id)).Nodup) (affected : List ℤ) :
    ((snapshotsOf wc affected).map (·.id)).Nodup := by
  have hids : (snapshotsOf wc affected).map (·.id) = (wc.filter (·.id ∈ affected)).map (·.id) := by
    simp [snapshotsOf, createSnapshot, Function.comp_def]
  rw [hids]
  exact h.sublist (List.filter_sublist.map _)

theorem applyWithCreate_congr {apiCall : ApiCallSpec} {t t' : ℤ}
    (h : ∀ call, apiCall = .createChannel call → t = t') (wc : List Channel) :
    applyWithCreate wc apiCall t = applyWithCreate wc apiCall t' := by
  cases apiCall
  case createChannel call => rw [h call rfl]
  all_goals rfl

theorem nodup_applyWithCreate {wc : List Channel} (hwc : (wc.map (·.id)).Nodup)
    {apiCall : ApiCallSpec} {t : ℤ}
    (ht : ∀ call, apiCall = .createChannel call → look wc t = none) :
    ((applyWithCreate wc apiCall t).map (·.id)).Nodup := by
  have hmap : ∀ g : Channel → Channel, (∀ ch, (g ch).id = ch.id) → ((wc.map g).map (·.id)).Nodup := by
    intro g hg
    have hids : (wc.map g).map (·.id) = wc.map (·.id) := by simp [hg, Function.comp_def]
    rw [hids]
    exact hwc
  cases apiCall
  case createChannel call =>
    have hfresh := look_eq_none.mp (ht call rfl)
    rw [applyWithCreate, List.map_append, List.nodup_append_comm]
    exact List.nodup_cons.mpr ⟨hfresh, hwc⟩
  case deleteChannel d => exact hwc.sublist (List.filter_sublist.map _)
  case updateChannel call => exact hmap _ (channelEffect_id (.updateChannel call))
  case addStreamToChannel d x => exact hmap _ (channelEffect_id (.addStreamToChannel d x))
  case removeStreamFromChannel d x => exact hmap _ (channelEffect_id (.removeStreamFromChannel d x))
  case reorderChannelStreams d xs => exact hmap _ (channelEffect_id (.reorderChannelStreams d xs))
  case bulkAssignChannelNumbers call =>
    exact hmap _ (channelEffect_id (.bulkAssignChannelNumbers call))
  all_goals exact hwc

theorem Fits.look_tempId {base : List Channel} {before : List StagedOperation}
    {op : StagedOperation} (h : Fits base before op) (hrec : Recorded base before)
    {call : CreateChannelCall} (hcall : op.apiCall = .createChannel call) :
    look (replayed base before) op.tempId = none := by
  have hfresh := h.fresh op.tempId (h.createdId hcall).1
  exact look_replayed_eq_none hrec hfresh.1 hfresh.2

theorem nodup_replayed {base : List Channel} {ops : List StagedOperation}
    (hbase : (base.map (·.id)).Nodup) (hrec : Recorded base ops) :
    ((replayed base ops).map (·.id)).Nodup := by
  induction ops using List.reverseRecOn with
  | nil => exact hbase
  | append_singleton ops op ih =>
    have hfits := hrec ops op [] rfl
    rw [replayed_concat]
    exact nodup_applyWithCreate (ih hrec.of_append)
      (fun call hcall => hfits.look_tempId hrec.of_append hcall)

theorem replayStep_workingCopy (r : Replay) (op : StagedOperation) :
    (replayStep r op).workingCopy =
      applyWithCreate r.workingCopy op.apiCall (replayTempId r.lowestTempChannelId op) := by
  unfold replayStep noteGroup
  cases op.apiCall
  case createChannel call =>
    dsimp only
    split
    · split <;> rfl
    · rfl
  all_goals rfl

/-- The replay keeps the id a create was staged under. -/
theorem replayStagedOperations_eq_replayed {base : List Channel} {ops : List StagedOperation}
    (h : ∀ op ∈ ops, ∀ call, op.apiCall = .createChannel call →
      ∃ t, t < 0 ∧ op.snapshotId? = some t) :
    (replayStagedOperations base ops).workingCopy = replayed base ops := by
  induction ops using List.reverseRecOn with
  | nil => rfl
  | append_singleton ops op ih =>
    have hconcat : replayStagedOperations base (ops ++ [op]) =
        replayStep (replayStagedOperations base ops) op := by
      simp [replayStagedOperations]
    rw [hconcat, replayStep_workingCopy, ih fun op' hop => h op' (List.mem_append_left _ hop),
      replayed_concat]
    refine applyWithCreate_congr (fun call hcall => ?_) _
    obtain ⟨t, hneg, hsnap⟩ := h op (by simp) call hcall
    simp [replayTempId, StagedOperation.tempId, hsnap, hneg]

theorem Fits.snapshotId? {base : List Channel} {before : List StagedOperation}
    {op : StagedOperation} (h : Fits base before op) {call : CreateChannelCall}
    (hcall : op.apiCall = .createChannel call) : ∃ t, t < 0 ∧ op.snapshotId? = some t := by
  obtain ⟨t, hneg, hafter⟩ := h.created call hcall
  exact ⟨t, hneg, by simp [StagedOperation.snapshotId?, hafter, createSnapshot, buildStagedChannel]⟩

theorem replayStagedOperations_workingCopy {base : List Channel} {ops : List StagedOperation}
    (hrec : Recorded base ops) :
    (replayStagedOperations base ops).workingCopy = replayed base ops := by
  refine replayStagedOperations_eq_replayed fun op hop call hcall => ?_
  obtain ⟨before, after, rfl⟩ := List.append_of_mem hop
  exact (hrec before op after rfl).snapshotId? hcall

end Lists

variable (generateId : ℕ → String)

/-- What every state of a session satisfies as long as undo and redo do their part. The trail, and
with it what its operations recorded, stays put while undo and redo move along it. -/
structure Sound (s : Session) : Prop where
  channels_nodup : (s.channels.map (·.id)).Nodup
  channels_nonneg : ∀ ch ∈ s.channels, 0 ≤ ch.id
  queue : s.stagedOperations = s.localUndoStack.flatMap (·.operations) ++ s.batchOperations
  recorded : Recorded s.channels s.trail
  ids_nodup : (s.trail.map (·.id)).Nodup
  ids_drawn : ∀ op ∈ s.trail, ∃ i < s.generated, op.id = generateId i
  temp_drawn : ∀ op ∈ s.trail, ∀ t, op.createdId? = some t → s.nextTempIdRef < t
  temp_neg : s.nextTempIdRef < 0
  nodup : (s.workingCopy.map (·.id)).Nodup
  shown : ∀ c, look s.workingCopy c = look (replayed s.channels s.stagedOperations) c
  redo_batch : s.localRedoStack ≠ [] → s.batchOperations = []

/-- Every working copy a sound session shows is the replay of its queue. -/
theorem Sound.perm_replay {s : Session} (h : Sound generateId s) :
    s.workingCopy.Perm (replayStagedOperations s.channels s.stagedOperations).workingCopy := by
  have hrec : Recorded s.channels s.stagedOperations := h.recorded.of_append
  rw [replayStagedOperations_workingCopy hrec]
  exact perm_of_look_eq h.nodup (nodup_replayed h.channels_nodup hrec) h.shown

theorem sound_enterEditMode {channels : List Channel} (hn : (channels.map (·.id)).Nodup)
    (hpos : ∀ ch ∈ channels, 0 ≤ ch.id) : Sound generateId (enterEditMode channels) where
  channels_nodup := hn
  channels_nonneg := hpos
  queue := rfl
  recorded := by
    intro before op after h
    simp [Session.trail, enterEditMode, Session.undoneOperations] at h
  ids_nodup := List.nodup_nil
  ids_drawn := by simp [Session.trail, enterEditMode, Session.undoneOperations]
  temp_drawn := by simp [Session.trail, enterEditMode, Session.undoneOperations]
  temp_neg := by show (-1 : ℤ) < 0; decide
  nodup := hn
  shown := fun _ => rfl
  redo_batch := fun _ => rfl

/-- The loop of `stageOperations` after `k` entries. -/
structure LoopSound (s : Session) (acc : StagingLoop) (k : ℕ) : Prop where
  nodup : (acc.workingCopy.map (·.id)).Nodup
  shown : ∀ c, look acc.workingCopy c =
    look (replayed s.channels (s.stagedOperations ++ acc.staged)) c
  recorded : Recorded s.channels (s.stagedOperations ++ acc.staged)
  ids : acc.staged.map (·.id) = (List.range k).map fun i => generateId (s.generated + 2 * i)
  temps : ∀ op ∈ acc.staged, ∀ t, op.createdId? = some t → s.nextTempIdRef < t

/-- A create is staged under a temporary id nothing before it was created under. -/
def FreshCreate (s : Session) (staged : List StagedOperation) (entry : OperationToStage) : Prop :=
  ∀ call, entry.apiCall = .createChannel call →
    ∃ t, entry.tempChannelId = some t ∧ t < 0 ∧ s.nextTempIdRef < t ∧ look s.channels t = none ∧
      ∀ op ∈ s.stagedOperations ++ staged, op.createdId? ≠ some t

/-- The operation `stageEntry` records. -/
def stagedOperationOf (id : String) (wc : List Channel) (tempId : ℤ) (entry : OperationToStage) :
    StagedOperation where
  id := id
  description := entry.description
  apiCall := entry.apiCall
  beforeSnapshot := snapshotsOf wc (affectedChannelIdsOf entry.apiCall)
  afterSnapshot := match entry.apiCall with
    | .createChannel _ => snapshotsOf (applyWithCreate wc entry.apiCall tempId) [tempId]
    | _ => snapshotsOf (applyWithCreate wc entry.apiCall tempId) (affectedChannelIdsOf entry.apiCall)

theorem snapshotsOf_created {wc : List Channel} {t : ℤ} (h : look wc t = none)
    (call : CreateChannelCall) :
    snapshotsOf (applyWithCreate wc (.createChannel call) t) [t] =
      [createSnapshot (buildStagedChannel call t)] := by
  have hnone : wc.filter (fun ch => decide (ch.id ∈ [t])) = [] := by
    rw [List.filter_eq_nil_iff]
    intro ch hch hid
    have hid' : ch.id = t := by simpa using hid
    exact look_eq_none.mp h (List.mem_map.mpr ⟨ch, hch, hid'⟩)
  have hbuilt : [buildStagedChannel call t].filter (fun ch => decide (ch.id ∈ [t])) =
      [buildStagedChannel call t] := by
    simp [buildStagedChannel]
  rw [snapshotsOf, applyWithCreate, List.filter_append, hnone, hbuilt]
  rfl

theorem stagedOperationOf_create {id : String} {wc : List Channel} {t : ℤ}
    {entry : OperationToStage} {call : CreateChannelCall} (hcall : entry.apiCall = .createChannel call)
    (h : look wc t = none) :
    (stagedOperationOf id wc t entry).afterSnapshot = [createSnapshot (buildStagedChannel call t)] ∧
      (stagedOperationOf id wc t entry).createdId? = some t := by
  have hafter : (stagedOperationOf id wc t entry).afterSnapshot =
      [createSnapshot (buildStagedChannel call t)] := by
    simp only [stagedOperationOf, hcall]
    exact snapshotsOf_created h call
  refine ⟨hafter, ?_⟩
  have hop : (stagedOperationOf id wc t entry).apiCall = .createChannel call := hcall
  simp [StagedOperation.createdId?, hop, StagedOperation.snapshotId?, hafter, createSnapshot,
    buildStagedChannel]

theorem createdId?_isSome {op : StagedOperation} {t : ℤ} (h : op.createdId? = some t) :
    ∃ call, op.apiCall = .createChannel call := by
  cases hcall : op.apiCall
  case createChannel call => exact ⟨call, rfl⟩
  all_goals simp [StagedOperation.createdId?, hcall] at h

/-- One iteration of the loop keeps its invariant. -/
theorem LoopSound.stageEntry {s : Session} {acc : StagingLoop} {k : ℕ}
    (h : LoopSound generateId s acc k) {entry : OperationToStage}
    (hfresh : FreshCreate s acc.staged entry) :
    LoopSound generateId s (EditMode.stageEntry generateId s.generated acc k entry) (k + 1) := by
  let t := entry.tempChannelId.getD acc.nextTempId
  let op := stagedOperationOf (generateId (s.generated + 2 * k)) acc.workingCopy t entry
  have hstaged : (EditMode.stageEntry generateId s.generated acc k entry).staged =
      acc.staged ++ [op] := rfl
  have hwc : (EditMode.stageEntry generateId s.generated acc k entry).workingCopy =
      applyWithCreate acc.workingCopy entry.apiCall t := rfl
  -- a create finds its id free, in the working copy as in the replay
  have hfree : ∀ call, entry.apiCall = .createChannel call →
      t < 0 ∧ s.nextTempIdRef < t ∧ look s.channels t = none ∧
        (∀ x ∈ s.stagedOperations ++ acc.staged, x.createdId? ≠ some t) ∧
        look acc.workingCopy t = none := by
    intro call hcall
    rcases hfresh call hcall with ⟨t', ht', hneg, hdrawn, hbase, hnew⟩
    have htt : t = t' := by simp [t, ht']
    rw [htt, h.shown]
    exact ⟨hneg, hdrawn, hbase, hnew, look_replayed_eq_none h.recorded hbase hnew⟩
  have hcreated : ∀ call, entry.apiCall = .createChannel call →
      op.afterSnapshot = [createSnapshot (buildStagedChannel call t)] ∧ op.createdId? = some t :=
    fun call hcall => stagedOperationOf_create hcall (hfree call hcall).2.2.2.2
  have hfits : Fits s.channels (s.stagedOperations ++ acc.staged) op := by
    constructor
    · intro c
      rw [← h.shown]
      exact find?_snapshotsOf acc.workingCopy _ c
    · exact nodup_snapshotsOf h.nodup _
    · intro call hcall
      exact ⟨t, (hfree call hcall).1, (hcreated call hcall).1⟩
    · intro t' ht'
      rcases createdId?_isSome ht' with ⟨call, hcall⟩
      have htt : t = t' := by
        have h1 := (hcreated call hcall).2
        rw [ht', Option.some.injEq] at h1
        exact h1.symm
      rw [← htt]
      exact ⟨(hfree call hcall).2.2.1, (hfree call hcall).2.2.2.1⟩
  have htemp : applyWithCreate acc.workingCopy entry.apiCall t =
      applyWithCreate acc.workingCopy op.apiCall op.tempId := by
    refine applyWithCreate_congr (fun call hcall => ?_) _
    have h1 := (hfits.createdId hcall).1
    rw [(hcreated call hcall).2, Option.some.injEq] at h1
    exact h1
  constructor
  · rw [hwc]
    exact nodup_applyWithCreate h.nodup (fun call hcall => (hfree call hcall).2.2.2.2)
  · intro c
    rw [hwc, hstaged, ← List.append_assoc, look_replayed_concat, htemp, look_applyWithCreate, h.shown]
  · rw [hstaged, ← List.append_assoc]
    exact h.recorded.concat hfits
  · rw [hstaged, List.map_append, h.ids, List.range_succ, List.map_append]
    rfl
  · rw [hstaged]
    intro x hx t' ht'
    rcases List.mem_append.mp hx with hx | hx
    · exact h.temps x hx t' ht'
    · have hxop : x = op := by simpa using hx
      rw [hxop] at ht'
      rcases createdId?_isSome ht' with ⟨call, hcall⟩
      have h1 := (hcreated call hcall).2
      rw [ht', Option.some.injEq] at h1
      rw [h1]
      exact (hfree call hcall).2.1

theorem LoopSound.foldl {s : Session} (entries : List OperationToStage) {acc : StagingLoop} {k : ℕ}
    (h : LoopSound generateId s acc k)
    (hentries : ∀ entry ∈ entries, ∀ call, entry.apiCall ≠ .createChannel call) :
    LoopSound generateId s
      ((entries.zipIdx k).foldl
        (fun acc e => EditMode.stageEntry generateId s.generated acc e.2 e.1) acc)
      (k + entries.length) := by
  induction entries generalizing acc k with
  | nil => exact h
  | cons entry entries ih =>
    have hhead : FreshCreate s acc.staged entry :=
      fun call hcall => absurd hcall (hentries entry (by simp) call)
    have hstep := ih (h.stageEntry generateId hhead) (fun x hx => hentries x (by simp [hx]))
    have hlen : k + (entry :: entries).length = k + 1 + entries.length := by
      simp only [List.length_cons]
      omega
    rw [List.zipIdx_cons, List.foldl_cons, hlen]
    exact hstep

theorem Sound.loop {s : Session} (h : Sound generateId s) {entry : OperationToStage}
    {entries : List OperationToStage} (hhead : FreshCreate s [] entry)
    (hrest : ∀ e ∈ entries, ∀ call, e.apiCall ≠ .createChannel call) :
    LoopSound generateId s (stageLoop generateId s (entry :: entries)) (entries.length + 1) := by
  have hstart : LoopSound generateId s
      { workingCopy := s.workingCopy, nextTempId := s.nextTempId } 0 := by
    constructor
    · exact h.nodup
    · intro c
      simpa using h.shown c
    · simpa using h.recorded.of_append
    · rfl
    · simp
  have hloop := LoopSound.foldl generateId entries (hstart.stageEntry generateId hhead) hrest
  rw [Nat.zero_add, Nat.add_comm] at hloop
  exact hloop

theorem undoEntriesOf_operations (generated : ℕ) (staged : List StagedOperation)
    (undoDescription : Option String) :
    (undoEntriesOf generateId generated staged undoDescription).flatMap (·.operations) = staged := by
  cases undoDescription with
  | some description => simp [undoEntriesOf]
  | none =>
    have aux : ∀ (xs : List StagedOperation) (k : ℕ),
        ((xs.zipIdx k).map fun e =>
          (⟨generateId (generated + 2 * e.2 + 1), e.1.description, [e.1]⟩ : UndoEntry)).flatMap
            (·.operations) = xs := by
      intro xs
      induction xs with
      | nil => intro k; rfl
      | cons x xs ih =>
        intro k
        rw [List.zipIdx_cons, List.map_cons, List.flatMap_cons, ih]
        rfl
    exact aux staged 0

/-- Staging keeps the session sound. -/
theorem Sound.stageOperations (hinj : Function.Injective generateId) {s : Session}
    (h : Sound generateId s) {entry : OperationToStage} {entries : List OperationToStage}
    (hhead : FreshCreate s [] entry)
    (hrest : ∀ e ∈ entries, ∀ call, e.apiCall ≠ .createChannel call)
    (undoDescription : Option String) :
    Sound generateId
      (EditMode.stageOperations generateId s (entry :: entries) undoDescription) := by
  have hloop := h.loop generateId hhead hrest
  let loop := stageLoop generateId s (entry :: entries)
  have htrail : (EditMode.stageOperations generateId s (entry :: entries) undoDescription).trail =
      s.stagedOperations ++ loop.staged := by
    simp [EditMode.stageOperations, Session.trail, Session.undoneOperations, loop]
  have hold : ∀ op ∈ s.stagedOperations, op ∈ s.trail := fun op hop => List.mem_append_left _ hop
  have hnewIds : ∀ op ∈ loop.staged, ∃ i < entries.length + 1,
      op.id = generateId (s.generated + 2 * i) := by
    intro op hop
    have hmem : op.id ∈ loop.staged.map (·.id) := List.mem_map_of_mem hop
    rw [hloop.ids, List.mem_map] at hmem
    rcases hmem with ⟨i, hi, hid⟩
    exact ⟨i, List.mem_range.mp hi, hid.symm⟩
  constructor
  · exact h.channels_nodup
  · exact h.channels_nonneg
  · -- a batch collects the new operations, otherwise they become undo entries
    have hq := h.queue
    cases hb : s.currentBatch with
    | none =>
      simp only [Session.batchOperations, hb, Option.map_none, Option.getD_none,
        List.append_nil] at hq
      simp [EditMode.stageOperations, Session.batchOperations, hb, undoEntriesOf_operations, hq]
    | some batch =>
      simp only [Session.batchOperations, hb, Option.map_some, Option.getD_some] at hq
      simp [EditMode.stageOperations, Session.batchOperations, hb, hq]
  · rw [htrail]
    exact hloop.recorded
  · rw [htrail, List.map_append, List.nodup_append]
    have hold_nodup : (s.stagedOperations.map (·.id)).Nodup :=
      h.ids_nodup.sublist ((List.sublist_append_left _ _).map _)
    refine ⟨hold_nodup, ?_, ?_⟩
    · rw [hloop.ids]
      refine List.Nodup.map ?_ List.nodup_range
      intro i j hij
      have := hinj hij
      omega
    · intro a ha b hb hab
      rcases List.mem_map.mp ha with ⟨x, hx, hxa⟩
      rcases List.mem_map.mp hb with ⟨y, hy, hyb⟩
      rcases h.ids_drawn x (hold x hx) with ⟨i, hi, hxi⟩
      rcases hnewIds y hy with ⟨j, hj, hyj⟩
      have hij : i = s.generated + 2 * j := hinj (by rw [← hxi, ← hyj, hxa, hyb, hab])
      omega
  · rw [htrail]
    intro op hop
    show ∃ i < s.generated + 2 * (entries.length + 1), op.id = generateId i
    rcases List.mem_append.mp hop with hop | hop
    · rcases h.ids_drawn op (hold op hop) with ⟨i, hi, hid⟩
      exact ⟨i, by omega, hid⟩
    · rcases hnewIds op hop with ⟨i, hi, hid⟩
      exact ⟨s.generated + 2 * i, by omega, hid⟩
  · rw [htrail]
    intro op hop t ht
    rcases List.mem_append.mp hop with hop | hop
    · exact h.temp_drawn op (hold op hop) t ht
    · exact hloop.temps op hop t ht
  · exact h.temp_neg
  · exact hloop.nodup
  · exact hloop.shown
  · intro hredo
    exact absurd rfl hredo

/-- A call that is not a create needs no id. -/
theorem Sound.stageOperation (hinj : Function.Injective generateId) {s : Session}
    (h : Sound generateId s) {apiCall : ApiCallSpec}
    (hcall : ∀ call, apiCall ≠ .createChannel call) (description : String) :
    Sound generateId (EditMode.stageOperation generateId s apiCall description) :=
  h.stageOperations generateId hinj (fun call hc => absurd hc (hcall call)) (by simp) none

/-- Only the temporary channel counter matters among the refs. -/
theorem Sound.refs {s s' : Session} (h : Sound generateId s) (hle : s'.nextTempIdRef ≤ s.nextTempIdRef)
    (heq : s' = { s with
      nextTempIdRef := s'.nextTempIdRef
      nextTempGroupIdRef := s'.nextTempGroupIdRef
      stagedGroupIdByNameRef := s'.stagedGroupIdByNameRef }) : Sound generateId s' := by
  rw [heq]
  constructor
  · exact h.channels_nodup
  · exact h.channels_nonneg
  · exact h.queue
  · exact h.recorded
  · exact h.ids_nodup
  · exact h.ids_drawn
  · intro op hop t ht
    exact lt_of_le_of_lt hle (h.temp_drawn op hop t ht)
  · exact lt_of_le_of_lt hle h.temp_neg
  · exact h.nodup
  · exact h.shown
  · exact h.redo_batch

theorem ensureStagedGroupId_refs (s : Session) (name : String) :
    (ensureStagedGroupId s name).2.nextTempIdRef = s.nextTempIdRef ∧
      (ensureStagedGroupId s name).2 = { s with
        nextTempGroupIdRef := (ensureStagedGroupId s name).2.nextTempGroupIdRef
        stagedGroupIdByNameRef := (ensureStagedGroupId s name).2.stagedGroupIdByNameRef } := by
  unfold ensureStagedGroupId
  cases s.stagedGroupIdByNameRef.get? name <;> exact ⟨rfl, rfl⟩

theorem drawCreateIds_refs (s : Session) (args : CreateChannelArgs) :
    (drawCreateIds s args).1 = s.nextTempIdRef ∧
      (drawCreateIds s args).2.2.nextTempIdRef = s.nextTempIdRef - 1 ∧
      (drawCreateIds s args).2.2 = { s with
        nextTempIdRef := (drawCreateIds s args).2.2.nextTempIdRef
        nextTempGroupIdRef := (drawCreateIds s args).2.2.nextTempGroupIdRef
        stagedGroupIdByNameRef := (drawCreateIds s args).2.2.stagedGroupIdByNameRef } := by
  unfold drawCreateIds
  cases args.newGroupName with
  | none => exact ⟨rfl, rfl, rfl⟩
  | some name =>
    by_cases hname : name = ""
    · simp [hname]
    · have hrefs := ensureStagedGroupId_refs { s with nextTempIdRef := s.nextTempIdRef - 1 } name
      simp only [hname, if_false, true_and]
      refine ⟨hrefs.1, ?_⟩
      rw [hrefs.1]
      exact hrefs.2

/-- The id a create draws is fresh. -/
theorem Sound.drawCreateIds {s : Session} (h : Sound generateId s) (args : CreateChannelArgs) :
    Sound generateId (drawCreateIds s args).2.2 ∧
      ∀ entry : OperationToStage, entry.tempChannelId = some (EditMode.drawCreateIds s args).1 →
        FreshCreate (EditMode.drawCreateIds s args).2.2 [] entry := by
  have hrefs := drawCreateIds_refs s args
  have hsound : Sound generateId (EditMode.drawCreateIds s args).2.2 :=
    h.refs generateId (by rw [hrefs.2.1]; omega) hrefs.2.2
  have hstaged : (EditMode.drawCreateIds s args).2.2.stagedOperations = s.stagedOperations := by
    rw [hrefs.2.2]
  have hchannels : (EditMode.drawCreateIds s args).2.2.channels = s.channels := by rw [hrefs.2.2]
  refine ⟨hsound, ?_⟩
  intro entry hentry call _
  refine ⟨s.nextTempIdRef, by rw [hentry, hrefs.1], h.temp_neg, by rw [hrefs.2.1]; omega, ?_, ?_⟩
  · rw [hchannels, look_eq_none]
    intro hmem
    rcases List.mem_map.mp hmem with ⟨ch, hch, hid⟩
    have hpos := h.channels_nonneg ch hch
    have hneg := h.temp_neg
    omega
  · intro op hop hcreated
    rw [hstaged, List.append_nil] at hop
    have hlt := h.temp_drawn op (List.mem_append_left _ hop) _ hcreated
    omega

theorem Sound.stageCreateChannel (hinj : Function.Injective generateId) {s : Session}
    (h : Sound generateId s) (args : CreateChannelArgs) :
    Sound generateId (EditMode.stageCreateChannel generateId s args) := by
  have hdraw := h.drawCreateIds generateId args
  exact hdraw.1.stageOperations generateId hinj (hdraw.2 _ rfl) (by simp) none

theorem Sound.stageCreateChannelWithStreams (hinj : Function.Injective generateId) {s : Session}
    (h : Sound generateId s) (args : CreateChannelArgs) (streamIds : List ℤ) :
    Sound generateId (EditMode.stageCreateChannelWithStreams generateId s args streamIds) := by
  unfold EditMode.stageCreateChannelWithStreams
  by_cases hempty : streamIds.eraseDups = []
  · simpa [hempty] using h
  · simp only [hempty, if_false]
    have hdraw := h.drawCreateIds generateId args
    refine hdraw.1.stageOperations generateId hinj (hdraw.2 _ rfl) ?_ _
    intro e he call
    rcases List.mem_map.mp he with ⟨x, _, hx⟩
    rw [← hx]
    simp

theorem Sound.stageCreateGroup (hinj : Function.Injective generateId) {s : Session}
    (h : Sound generateId s) (name : String) :
    Sound generateId (EditMode.stageCreateGroup generateId s name) := by
  have hrefs := ensureStagedGroupId_refs s name
  have hsound : Sound generateId (ensureStagedGroupId s name).2 := by
    refine h.refs generateId (le_of_eq hrefs.1) ?_
    rw [hrefs.1]
    exact hrefs.2
  exact hsound.stageOperation generateId hinj (by simp) _

theorem Sound.stageSetProfileMembership (hinj : Function.Injective generateId) {s : Session}
    (h : Sound generateId s) (profileId : ℤ) (channelIds : List ℤ) (enabled : Bool)
    (description : String) :
    Sound generateId
      (EditMode.stageSetProfileMembership generateId s profileId channelIds enabled description) := by
  unfold EditMode.stageSetProfileMembership
  induction channelIds generalizing s with
  | nil => exact h
  | cons c channelIds ih => exact ih (h.stageOperation generateId hinj (by simp) description)

theorem Sound.startBatch {s : Session} (h : Sound generateId s) (description : String) :
    Sound generateId (EditMode.startBatch s description) := by
  unfold EditMode.startBatch
  cases hb : s.currentBatch with
  | some batch => exact h
  | none =>
    have hops : s.batchOperations = [] := by simp [Session.batchOperations, hb]
    have hqueue := h.queue
    rw [hops] at hqueue
    exact { h with queue := hqueue, redo_batch := fun _ => rfl }

theorem Sound.endBatch {s : Session} (h : Sound generateId s) :
    Sound generateId (EditMode.endBatch generateId s) := by
  unfold EditMode.endBatch
  cases hb : s.currentBatch with
  | none => exact h
  | some batch =>
    have hops : s.batchOperations = batch.operations := by simp [Session.batchOperations, hb]
    have hqueue := h.queue
    rw [hops] at hqueue
    by_cases hempty : batch.operations = []
    · rw [hempty] at hqueue
      simp only [hempty, if_true]
      exact { h with queue := hqueue, redo_batch := fun _ => rfl }
    · simp only [hempty, if_false]
      have htrail : ∀ op, op ∈ s.stagedOperations ++ [] → op ∈ s.trail :=
        fun op hop => List.mem_append_left _ (by simpa using hop)
      constructor
      · exact h.channels_nodup
      · exact h.channels_nonneg
      · show s.stagedOperations = _ ++ []
        rw [hqueue, List.flatMap_append, List.append_nil]
        simp
      · show Recorded s.channels (s.stagedOperations ++ [])
        rw [List.append_nil]
        exact h.recorded.of_append
      · show ((s.stagedOperations ++ []).map StagedOperation.id).Nodup
        rw [List.append_nil]
        exact h.ids_nodup.sublist ((List.sublist_append_left _ _).map _)
      · intro op hop
        rcases h.ids_drawn op (htrail op hop) with ⟨i, hi, hid⟩
        exact ⟨i, Nat.lt_succ_of_lt hi, hid⟩
      · intro op hop t ht
        exact h.temp_drawn op (htrail op hop) t ht
      · exact h.temp_neg
      · exact h.nodup
      · exact h.shown
      · intro hredo
        exact absurd rfl hredo

section Undo

theorem removeStaged_reverse (xs ys : List StagedOperation)
    (h : ((xs ++ ys).map (·.id)).Nodup) : ys.reverse.foldl removeStaged (xs ++ ys) = xs := by
  induction ys using List.reverseRecOn with
  | nil => simp
  | append_singleton ys op ih =>
    rw [← List.append_assoc] at h
    have hlast : ∀ x ∈ xs ++ ys, ¬decide (x.id = op.id) = true := by
      intro x hx hid
      rw [List.map_append, List.nodup_append] at h
      exact h.2.2 x.id (List.mem_map_of_mem hx) op.id (by simp) (of_decide_eq_true hid)
    have hstep : removeStaged (xs ++ ys ++ [op]) op = xs ++ ys := by
      rw [removeStaged, List.eraseP_append_right _ hlast]
      simp
    rw [List.reverse_append, List.foldl_append, ← List.append_assoc]
    show ys.reverse.foldl removeStaged (removeStaged (xs ++ ys ++ [op]) op) = xs
    rw [hstep]
    exact ih (h.sublist ((List.sublist_append_left _ _).map _))

theorem map_id_modify (snapshot : ChannelSnapshot) (wc : List Channel) (i : ℕ) :
    (wc.modify i (restoreFields snapshot)).map (·.id) = wc.map (·.id) := by
  induction wc generalizing i with
  | nil => simp
  | cons x wc ih =>
    cases i with
    | zero => simp
    | succ i => simpa using ih i

theorem nodup_restoreSnapshot {s : Session} {wc : List Channel} (h : (wc.map (·.id)).Nodup)
    (apiCall : ApiCallSpec) (snapshot : ChannelSnapshot) :
    ((restoreSnapshot s apiCall wc snapshot).map (·.id)).Nodup := by
  unfold restoreSnapshot
  split
  · rw [map_id_modify]
    exact h
  · rename_i hnone
    split
    · split
      · rename_i original _ horiginal
        have hid : original.id = snapshot.id := look_id horiginal
        have hfree : snapshot.id ∉ wc.map (·.id) := by
          simpa [List.findIdx?_eq_none_iff] using hnone
        rw [List.map_append, List.nodup_append_comm]
        refine List.nodup_cons.mpr ⟨?_, h⟩
        show original.id ∉ _
        rw [hid]
        exact hfree
      · exact h
    · exact h

theorem nodup_undoOnWorkingCopy {s : Session} {wc : List Channel} (h : (wc.map (·.id)).Nodup)
    (op : StagedOperation) : ((undoOnWorkingCopy s wc op).map (·.id)).Nodup := by
  have hrestored : ∀ (snapshots : List ChannelSnapshot) (wc : List Channel),
      (wc.map (·.id)).Nodup →
      ((snapshots.foldl (restoreSnapshot s op.apiCall) wc).map (·.id)).Nodup := by
    intro snapshots
    induction snapshots with
    | nil => exact fun _ hwc => hwc
    | cons snapshot snapshots ih => exact fun wc hwc => ih _ (nodup_restoreSnapshot hwc _ _)
  have hall := hrestored op.beforeSnapshot wc h
  unfold undoOnWorkingCopy
  split
  · split
    · exact hall.sublist (List.filter_sublist.map _)
    · exact hall
  · exact hall

theorem Recorded.fits_of_mem {base : List Channel} {before ops : List StagedOperation}
    (h : Recorded base (before ++ ops)) {op : StagedOperation} (hop : op ∈ ops) :
    ∃ earlier, Fits base earlier op := by
  rcases List.append_of_mem hop with ⟨xs, ys, rfl⟩
  exact ⟨before ++ xs, h (before ++ xs) op ys (by simp)⟩

/-- Undoing the last entry brings back the replay of what was staged before it. -/
theorem look_undone_entry {s : Session} {before ops : List StagedOperation}
    (hrec : Recorded s.channels (before ++ ops))
    (hshown : ∀ c, look s.workingCopy c = look (replayed s.channels (before ++ ops)) c)
    (hs : ∀ op ∈ ops, ∀ c ∈ affectedChannelIdsOf op.apiCall,
      (∀ creator ∈ ops, creator.createdId? ≠ some c) →
        SnapshotsSuffice ops c (look (replayed s.channels before) c) (look s.workingCopy c)
          (look s.channels c)) (c : ℤ) :
    look (ops.reverse.foldl (undoOnWorkingCopy s) s.workingCopy) c =
      look (replayed s.channels before) c := by
  have hnodup : ∀ op ∈ ops, (op.beforeSnapshot.map (·.id)).Nodup := by
    intro op hop
    rcases hrec.fits_of_mem hop with ⟨_, hfits⟩
    exact hfits.nodup
  have hneg : ∀ op ∈ ops, ∀ t, op.createdId? = some t → t < 0 := by
    intro op hop t ht
    rcases hrec.fits_of_mem hop with ⟨_, hfits⟩
    exact hfits.created_neg ht
  rw [look_undo_reverse s ops s.workingCopy hnodup hneg]
  by_cases hcreated : ∃ op ∈ ops, op.createdId? = some c
  · rw [uncells_of_created before ops hrec hcreated, look_replayed_before_created hrec hcreated]
  · have hnot : ∀ op ∈ ops, op.createdId? ≠ some c :=
      fun op hop hc => hcreated ⟨op, hop, hc⟩
    rw [hshown, uncells_eq_undoneRecord before ops hrec hnot]
    refine undoneRecord_eq_before (fun htouched => ?_)
    rcases htouched with ⟨op, hop, hc⟩
    rw [← hshown]
    exact hs op hop c hc hnot

/-- The stacks and the queue around an undo that finds an entry. -/
theorem Sound.split_last {s : Session} (h : Sound generateId s) {entry : UndoEntry}
    (hlast : s.localUndoStack.getLast? = some entry) (hbatch : s.batchOperations = []) :
    s.stagedOperations =
      s.localUndoStack.dropLast.flatMap (·.operations) ++ entry.operations := by
  have hstack : s.localUndoStack = s.localUndoStack.dropLast ++ [entry] := by
    rw [List.getLast?_eq_some_iff] at hlast
    rcases hlast with ⟨xs, hxs⟩
    rw [hxs, List.dropLast_concat]
  have hqueue := h.queue
  rw [hbatch, List.append_nil] at hqueue
  rw [hqueue]
  nth_rewrite 1 [hstack]
  simp

/-- Moving along the trail only has to answer for the queue and the working copy. -/
theorem Sound.along_trail {s s' : Session} (h : Sound generateId s)
    (hchannels : s'.channels = s.channels) (htrail : s'.trail = s.trail)
    (hgenerated : s'.generated = s.generated) (href : s'.nextTempIdRef = s.nextTempIdRef)
    (hqueue : s'.stagedOperations = s'.localUndoStack.flatMap (·.operations) ++ s'.batchOperations)
    (hnodup : (s'.workingCopy.map (·.id)).Nodup)
    (hshown : ∀ c, look s'.workingCopy c = look (replayed s.channels s'.stagedOperations) c)
    (hbatch : s'.batchOperations = []) : Sound generateId s' where
  channels_nodup := by rw [hchannels]; exact h.channels_nodup
  channels_nonneg := by rw [hchannels]; exact h.channels_nonneg
  queue := hqueue
  recorded := by rw [hchannels, htrail]; exact h.recorded
  ids_nodup := by rw [htrail]; exact h.ids_nodup
  ids_drawn := by rw [htrail, hgenerated]; exact h.ids_drawn
  temp_drawn := by rw [htrail, href]; exact h.temp_drawn
  temp_neg := by rw [href]; exact h.temp_neg
  nodup := hnodup
  shown := by rw [hchannels]; exact hshown
  redo_batch := fun _ => hbatch

theorem Sound.localUndo {s : Session} (h : Sound generateId s) (hs : UndoRestores s) :
    Sound generateId (EditMode.localUndo s) := by
  unfold EditMode.localUndo
  cases hlast : s.localUndoStack.getLast? with
  | none => exact h
  | some entry =>
    dsimp only
    replace hs := hs entry hlast
    have hsplit := h.split_last generateId hlast hs.1
    let before := s.localUndoStack.dropLast.flatMap (·.operations)
    have hrec : Recorded s.channels (before ++ entry.operations) := by
      rw [← hsplit]
      exact h.recorded.of_append
    have hids : ((before ++ entry.operations).map (·.id)).Nodup := by
      rw [← hsplit]
      exact h.ids_nodup.sublist ((List.sublist_append_left _ _).map _)
    have hqueue : entry.operations.reverse.foldl removeStaged s.stagedOperations = before := by
      rw [hsplit]
      exact removeStaged_reverse before entry.operations hids
    rw [hqueue]
    have hfold : ∀ (ops : List StagedOperation) (wc : List Channel), (wc.map (·.id)).Nodup →
        ((ops.foldl (undoOnWorkingCopy s) wc).map (·.id)).Nodup := by
      intro ops
      induction ops with
      | nil => exact fun _ hwc => hwc
      | cons op ops ih => exact fun wc hwc => ih _ (nodup_undoOnWorkingCopy hwc op)
    refine h.along_trail generateId rfl ?_ rfl rfl ?_ (hfold _ _ h.nodup)
      (look_undone_entry hrec (fun c => by rw [← hsplit]; exact h.shown c) hs.2) hs.1
    · simp [Session.trail, Session.undoneOperations, hsplit, before]
    · show before = before ++ s.batchOperations
      rw [hs.1, List.append_nil]

end Undo

section Redo

/-- A redone operation does what staging it did. -/
theorem redoOnWorkingCopy_eq {base : List Channel} {before : List StagedOperation}
    {op : StagedOperation} (hfits : Fits base before op)
    (hrebuilds : op.Rebuildable) (wc : List Channel) :
    redoOnWorkingCopy wc op = applyWithCreate wc op.apiCall op.tempId := by
  cases hcall : op.apiCall
  case createChannel call =>
    have hids := hfits.createdId hcall
    replace hrebuilds := hrebuilds call (by rw [hcall]; rfl)
    have hbuilt : redoneChannel (createSnapshot (buildStagedChannel call op.tempId)) =
        buildStagedChannel call op.tempId := by
      simp [redoneChannel, createSnapshot, buildStagedChannel, hrebuilds]
    have hneg : (createSnapshot (buildStagedChannel call op.tempId)).id < 0 := hids.2.1
    simp only [redoOnWorkingCopy, hcall, hids.2.2, List.head?_cons, if_pos hneg, hbuilt]
    rfl
  all_goals simp [redoOnWorkingCopy, hcall, applyWithCreate]

/-- Redoing recorded operations on top of the replay of those before them. -/
theorem redo_entry {base : List Channel} (before ops : List StagedOperation)
    (hrec : Recorded base (before ++ ops))
    (hrebuilds : ∀ op ∈ ops, op.Rebuildable) (wc : List Channel) (hnodup : (wc.map (·.id)).Nodup)
    (hshown : ∀ c, look wc c = look (replayed base before) c) :
    ((ops.foldl redoOnWorkingCopy wc).map (·.id)).Nodup ∧
      ∀ c, look (ops.foldl redoOnWorkingCopy wc) c = look (replayed base (before ++ ops)) c := by
  induction ops generalizing before wc with
  | nil => simpa using ⟨hnodup, hshown⟩
  | cons op ops ih =>
    have hfits : Fits base before op := hrec before op ops rfl
    have hbefore : Recorded base before := hrec.of_append
    have hsplit : before ++ op :: ops = (before ++ [op]) ++ ops := by simp
    rw [hsplit] at hrec ⊢
    rw [List.foldl_cons, redoOnWorkingCopy_eq hfits (hrebuilds op (by simp))]
    refine ih (before ++ [op]) hrec (fun x hx => hrebuilds x (by simp [hx])) _ ?_ ?_
    · refine nodup_applyWithCreate hnodup (fun call hcall => ?_)
      rw [hshown]
      exact hfits.look_tempId hbefore hcall
    · intro c
      rw [look_applyWithCreate, look_replayed_concat, hshown]

theorem Sound.localRedo {s : Session} (h : Sound generateId s) (hs : RedoRebuilds s) :
    Sound generateId (EditMode.localRedo s) := by
  unfold EditMode.localRedo
  cases hlast : s.localRedoStack.getLast? with
  | none => exact h
  | some entry =>
    dsimp only
    replace hs := hs entry hlast
    have hstack : s.localRedoStack = s.localRedoStack.dropLast ++ [entry] := by
      rw [List.getLast?_eq_some_iff] at hlast
      rcases hlast with ⟨xs, hxs⟩
      rw [hxs, List.dropLast_concat]
    have hbatch : s.batchOperations = [] := h.redo_batch (by rw [hstack]; simp)
    have htrail : s.trail = (s.stagedOperations ++ entry.operations) ++
        s.localRedoStack.dropLast.reverse.flatMap (·.operations) := by
      rw [Session.trail, Session.undoneOperations]
      nth_rewrite 1 [hstack]
      simp
    have hrec : Recorded s.channels (s.stagedOperations ++ entry.operations) := by
      have hrec := h.recorded
      rw [htrail] at hrec
      exact hrec.of_append
    have hredone := redo_entry s.stagedOperations entry.operations hrec hs s.workingCopy h.nodup h.shown
    have hqueue := h.queue
    rw [hbatch, List.append_nil] at hqueue
    refine h.along_trail generateId rfl ?_ rfl rfl ?_ hredone.1 hredone.2 hbatch
    · exact htrail.symm
    · show s.stagedOperations ++ entry.operations = _ ++ s.batchOperations
      rw [hbatch, hqueue]
      simp

end Redo

/-- What an action needs of the state it is taken in. -/
def Action.Faithful (s : Session) : Action → Prop
  | .localUndo => UndoRestores s
  | .localRedo => RedoRebuilds s
  | _ => True

instance (s : Session) : (action : Action) → Decidable (action.Faithful s)
  | .localUndo => inferInstanceAs (Decidable (UndoRestores s))
  | .localRedo => inferInstanceAs (Decidable (RedoRebuilds s))
  | .updateChannel .. | .addStream .. | .removeStream .. | .reorderStreams ..
  | .bulkAssignNumbers .. | .createChannel .. | .createChannelWithStreams .. | .deleteChannel ..
  | .createGroup .. | .deleteChannelGroup .. | .renameChannelGroup .. | .setProfileMembership ..
  | .restoreChannelGroup .. | .clearStreamStats .. | .startBatch .. | .endBatch =>
    inferInstanceAs (Decidable True)

def run (s : Session) (actions : List Action) : Session :=
  actions.foldl (perform generateId) s

/-- Every undo and redo of the run has what it needs. -/
def FaithfulRun (s : Session) : List Action → Prop
  | [] => True
  | action :: actions => action.Faithful s ∧ FaithfulRun (perform generateId s action) actions

instance decidableFaithfulRun (s : Session) :
    (actions : List Action) → Decidable (FaithfulRun generateId s actions)
  | [] => inferInstanceAs (Decidable True)
  | action :: actions =>
    have := decidableFaithfulRun (perform generateId s action) actions
    inferInstanceAs (Decidable (action.Faithful s ∧ _))

theorem Sound.perform (hinj : Function.Injective generateId) {s : Session} (h : Sound generateId s)
    {action : Action} (haction : action.Faithful s) :
    Sound generateId (EditMode.perform generateId s action) := by
  cases action
  case createChannel args => exact h.stageCreateChannel generateId hinj args
  case createChannelWithStreams args xs =>
    exact h.stageCreateChannelWithStreams generateId hinj args xs
  case createGroup name => exact h.stageCreateGroup generateId hinj name
  case setProfileMembership p cs enabled description =>
    exact h.stageSetProfileMembership generateId hinj p cs enabled description
  case startBatch description => exact h.startBatch generateId description
  case endBatch => exact h.endBatch generateId
  case localUndo => exact h.localUndo generateId haction
  case localRedo => exact h.localRedo generateId haction
  all_goals exact h.stageOperation generateId hinj (by simp) _

theorem Sound.run (hinj : Function.Injective generateId) {s : Session} (h : Sound generateId s)
    {actions : List Action} (hrun : FaithfulRun generateId s actions) :
    Sound generateId (EditMode.run generateId s actions) := by
  induction actions generalizing s with
  | nil => exact h
  | cons action actions ih => exact ih (h.perform generateId hinj hrun.1) hrun.2

theorem stageOperations_channels (s : Session) (entries : List OperationToStage)
    (undoDescription : Option String) :
    (stageOperations generateId s entries undoDescription).channels = s.channels := by
  unfold stageOperations
  split <;> rfl

theorem perform_channels (s : Session) (action : Action) :
    (perform generateId s action).channels = s.channels := by
  have hdraw : ∀ args, (drawCreateIds s args).2.2.channels = s.channels := by
    intro args
    rw [(drawCreateIds_refs s args).2.2]
  cases action
  case createChannel args => exact (stageOperations_channels generateId _ _ _).trans (hdraw args)
  case createChannelWithStreams args xs =>
    simp only [perform, stageCreateChannelWithStreams]
    split
    · rfl
    · exact (stageOperations_channels generateId _ _ _).trans (hdraw args)
  case createGroup name =>
    refine (stageOperations_channels generateId _ _ _).trans ?_
    rw [(ensureStagedGroupId_refs s name).2]
  case setProfileMembership p cs enabled description =>
    simp only [perform, stageSetProfileMembership]
    induction cs generalizing s with
    | nil => rfl
    | cons c cs ih =>
      rw [List.foldl_cons, ih]
      · exact stageOperations_channels generateId _ _ _
      · intro args
        rw [(drawCreateIds_refs _ args).2.2]
  case startBatch description =>
    simp only [perform, startBatch]
    split <;> rfl
  case endBatch =>
    simp only [perform, endBatch]
    split
    · rfl
    · split <;> rfl
  case localUndo =>
    simp only [perform, localUndo]
    split <;> rfl
  case localRedo =>
    simp only [perform, localRedo]
    split <;> rfl
  all_goals exact stageOperations_channels generateId _ _ _

theorem run_channels (s : Session) (actions : List Action) :
    (run generateId s actions).channels = s.channels := by
  induction actions generalizing s with
  | nil => rfl
  | cons action actions ih => exact (ih _).trans (perform_channels generateId s action)

/-- An undo that found an entry, and the redo after it, put queue and stacks back. -/
theorem Sound.redo_undo {s : Session} (h : Sound generateId s) (hs : UndoRestores s)
    (hstacks : s.localUndoStack = [] → s.localRedoStack = []) :
    (EditMode.localRedo (EditMode.localUndo s)).stagedOperations = s.stagedOperations ∧
      (EditMode.localRedo (EditMode.localUndo s)).localUndoStack = s.localUndoStack ∧
      (EditMode.localRedo (EditMode.localUndo s)).localRedoStack = s.localRedoStack := by
  cases hlast : s.localUndoStack.getLast? with
  | none =>
    have hredo := hstacks (List.getLast?_eq_none_iff.mp hlast)
    simp [EditMode.localUndo, EditMode.localRedo, hlast, hredo]
  | some entry =>
    have hbatch : s.batchOperations = [] := (hs entry hlast).1
    have hsplit := h.split_last generateId hlast hbatch
    have hids : ((s.localUndoStack.dropLast.flatMap (·.operations) ++ entry.operations).map
        (·.id)).Nodup := by
      rw [← hsplit]
      exact h.ids_nodup.sublist ((List.sublist_append_left _ _).map _)
    have hstack : s.localUndoStack.dropLast ++ [entry] = s.localUndoStack := by
      rw [List.getLast?_eq_some_iff] at hlast
      rcases hlast with ⟨xs, hxs⟩
      rw [hxs, List.dropLast_concat]
    refine ⟨?_, ?_, ?_⟩
    · simp only [EditMode.localUndo, EditMode.localRedo, hlast, List.getLast?_append,
        List.getLast?_singleton, Option.some_or]
      rw [hsplit, removeStaged_reverse _ _ hids]
    · simpa [EditMode.localUndo, EditMode.localRedo, hlast] using hstack
    · simp [EditMode.localUndo, EditMode.localRedo, hlast]

/-- In a run whose undos and redos have what they need, the working copy is the replay of the queue,
and an undo directly followed by a redo changes nothing. -/
theorem run_shows_replay (hinj : Function.Injective generateId) (channels : List Channel)
    (hnodup : (channels.map (·.id)).Nodup) (hnonneg : ∀ ch ∈ channels, 0 ≤ ch.id)
    (actions : List Action) (hrun : FaithfulRun generateId (enterEditMode channels) actions)
    (s : Session) (hs : s = run generateId (enterEditMode channels) actions) :
    s.workingCopy.Perm (replayStagedOperations channels s.stagedOperations).workingCopy ∧
      (UndoRestores s → RedoRebuilds (localUndo s) →
        (s.localUndoStack = [] → s.localRedoStack = []) →
        (localRedo (localUndo s)).workingCopy.Perm s.workingCopy ∧
          (localRedo (localUndo s)).stagedOperations = s.stagedOperations ∧
          (localRedo (localUndo s)).localUndoStack = s.localUndoStack ∧
          (localRedo (localUndo s)).localRedoStack = s.localRedoStack) := by
  have hsound : Sound generateId s := by
    rw [hs]
    exact (sound_enterEditMode generateId hnodup hnonneg).run generateId hinj hrun
  have hchannels : s.channels = channels := by
    rw [hs, run_channels]
    rfl
  have hperm := hsound.perm_replay
  rw [hchannels] at hperm
  refine ⟨hperm, fun hundo hredo hstacks => ?_⟩
  have hqueue := hsound.redo_undo generateId hundo hstacks
  have hagain := (hsound.localUndo generateId hundo).localRedo generateId hredo
  have hagain_channels : (localRedo (localUndo s)).channels = channels := by
    have h1 := perform_channels generateId (localUndo s) .localRedo
    have h2 := perform_channels generateId s .localUndo
    exact (h1.trans h2).trans hchannels
  have hperm' := hagain.perm_replay
  rw [hagain_channels, hqueue.1] at hperm'
  exact ⟨hperm'.trans hperm.symm, hqueue⟩

/-- A supply of distinct ids. -/
def tallyId (n : ℕ) : String := String.ofList (List.replicate n 'i')

theorem tallyId_injective : Function.Injective tallyId := by
  intro i j h
  have hlen := congrArg String.length h
  simpa [tallyId] using hlen

/-- Two channels, a rename, a delete taken back and repeated, and a create on top. -/
theorem run_shows_replay_example :
    let channels : List Channel := [{ id := 1, name := "A", channelNumber := some 5 },
      { id := 2, name := "B" }]
    let s := run tallyId (enterEditMode channels)
      [.updateChannel 1 { name := some "C" } none "", .deleteChannel 2 "", .localUndo, .localRedo,
        .createChannel { name := "D" }]
    s.workingCopy.Perm (replayStagedOperations channels s.stagedOperations).workingCopy ∧
      (localRedo (localUndo s)).workingCopy.Perm s.workingCopy ∧
      (localRedo (localUndo s)).stagedOperations = s.stagedOperations ∧
      (localRedo (localUndo s)).localUndoStack = s.localUndoStack ∧
      (localRedo (localUndo s)).localRedoStack = s.localRedoStack := by
  intro channels s
  have h := run_shows_replay tallyId tallyId_injective channels (by decide) (by decide)
    [.updateChannel 1 { name := some "C" } none "", .deleteChannel 2 "", .localUndo, .localRedo,
      .createChannel { name := "D" }] (by decide +kernel) s rfl
  exact ⟨h.1, h.2 (by decide +kernel) (by decide +kernel) (by decide +kernel)⟩

/-- Undo leaves a field behind that no snapshot holds. -/
theorem localUndo_keeps_tvgId :
    let channels : List Channel := [{ id := 1, name := "A" }]
    let s := run tallyId (enterEditMode channels)
      [.updateChannel 1 { tvgId := some (some "x") } none "", .localUndo]
    ¬s.workingCopy.Perm (replayStagedOperations channels s.stagedOperations).workingCopy := by
  decide +kernel

end ChannelManager.EditMode
