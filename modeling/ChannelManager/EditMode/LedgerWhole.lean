import ChannelManager.EditMode.LedgerSafe

/-!
# A restored ledger is whole

Against the lists it was staged from, a ledger whose creates find their new groups created loses
nothing.
-/

namespace ChannelManager.EditMode

/-- Nobody stands on the acknowledged number but the channel itself and those the acknowledgement
names. -/
def Covers (workingCopy : List Channel) (operation : StagedOperation)
    (acknowledged : AcknowledgedDuplicate) : Prop :=
  ∀ ch ∈ workingCopy, some ch.id ≠ operation.acknowledgingId? →
    sameChannelNumber ch.channelNumber (some acknowledged.number) →
      ch.id ∈ acknowledged.occupantChannelIds

/-- Restoring loses nothing: no operation is dropped, and no acknowledgement that covers at its place
in the queue is withdrawn. -/
structure RestoresWhole (numberText : ℚ → String) (context : LedgerRestoreContext)
    (operations : List StagedOperation) : Prop where
  keeps : (planLedgerRestore numberText operations context).dropped = []
  consents : ∀ before op after, operations = before ++ op :: after →
    ∀ acknowledged, op.apiCall.acknowledgementOf = some acknowledged →
      Covers (replayStagedOperations context.channels before).workingCopy op acknowledged →
        op.id ∉ (planLedgerRestore numberText operations
          context).withdrawnAcknowledgements.map (·.id)

/-- The groups a call chooses among those there are; a create that names a new group chooses none. -/
def chosenGroupIds : ApiCallSpec → List ℤ
  | .createChannel call => if call.newGroupName.any (· ≠ "") then [] else call.groupId.toList
  | .restoreChannelGroup _ => []
  | apiCall => namedGroupIds apiCall

/-- Lists as a server reports them: no id twice, none below zero, no stream twice on a channel. -/
structure LedgerRestoreContext.Listed (context : LedgerRestoreContext) : Prop where
  nodup : (context.channels.map (·.id)).Nodup
  nonneg : ∀ ch ∈ context.channels, 0 ≤ ch.id
  streams : ∀ ch ∈ context.channels, ch.streams.Nodup
  groups_nonneg : ∀ g ∈ context.channelGroupIds, 0 ≤ g

/-- A call that is about what its place in the queue shows. -/
structure Offered (context : LedgerRestoreContext) (before : List StagedOperation)
    (apiCall : ApiCallSpec) : Prop where
  channels : ∀ c ∈ affectedChannelIdsOf apiCall,
    ∃ ch ∈ (replayStagedOperations context.channels before).workingCopy, ch.id = c
  groups : ∀ g ∈ chosenGroupIds apiCall, g ∈ context.channelGroupIds ∨
    ∃ op ∈ before, g ∈ createdGroupIds op.apiCall
  profiles : ∀ p c enabled, apiCall = .setProfileMembership p c enabled →
    0 ≤ p ∧ context.profileIds.all (p ∈ ·)
  removes : ∀ c x, apiCall = .removeStreamFromChannel c x →
    ∃ ch ∈ (replayStagedOperations context.channels before).workingCopy, ch.id = c ∧ x ∈ ch.streams
  reorders : ∀ c xs, apiCall = .reorderChannelStreams c xs →
    ∃ ch ∈ (replayStagedOperations context.channels before).workingCopy,
      ch.id = c ∧ xs.Perm ch.streams
  fields : ∀ call, apiCall = .updateChannel call → call.data.streams = none

/-- Every create that names a new group comes after a call that creates a group of that name. -/
def GroupsStaged (operations : List StagedOperation) : Prop :=
  ∀ before op after, operations = before ++ op :: after →
    ∀ call, op.apiCall = .createChannel call → ∀ name, call.newGroupName = some name → name ≠ "" →
      ∃ g, ∃ op' ∈ before, op'.apiCall = .createGroup name g

section Edits

variable {operations restorable : List StagedOperation}

theorem replayed_edits (h : List.Forall₂ SameEdit operations restorable) (base : List Channel) :
    replayed base restorable = replayed base operations := by
  induction h generalizing base with
  | nil => rfl
  | cons hsame _ ih =>
    simp only [replayed, List.foldl_cons] at ih ⊢
    rw [hsame.tempId, hsame.applyWithCreate]
    exact ih _

theorem exists_edit (h : List.Forall₂ SameEdit operations restorable) :
    ∀ op ∈ operations, ∃ restored ∈ restorable, SameEdit op restored := by
  induction h with
  | nil => simp
  | cons hsame _ ih =>
    intro op hop
    rw [List.mem_cons] at hop
    obtain rfl | hop := hop
    · exact ⟨_, List.mem_cons_self, hsame⟩
    · obtain ⟨restored, hmem, hsame'⟩ := ih op hop
      exact ⟨restored, List.mem_cons_of_mem _ hmem, hsame'⟩

end Edits

section Records

variable {base : List Channel} {before : List StagedOperation}

/-- A channel that is shown has not been deleted: a deleted one never comes back. -/
theorem not_deleted_of_shown (hrec : Recorded base before)
    (hoffered : ∀ earlier op later, before = earlier ++ op :: later →
      ∀ c ∈ affectedChannelIdsOf op.apiCall, (look (replayed base earlier) c).isSome)
    {c : ℤ} (hshown : (look (replayed base before) c).isSome) :
    ∀ op ∈ before, op.apiCall ≠ .deleteChannel c := by
  intro op hop hcall
  obtain ⟨earlier, later, rfl⟩ := List.append_of_mem hop
  have hsome := hoffered earlier op later rfl c (by simp [hcall, affectedChannelIdsOf])
  have hfits := hrec earlier op later rfl
  have hgone : look (replayed base (earlier ++ [op])) c = none := by
    rw [look_replayed_concat, hcall]
    simp [cell]
  have hnew : ∀ op' ∈ later, op'.createdId? ≠ some c := by
    intro op' hop' hcreated
    obtain ⟨mid, rest, rfl⟩ := List.append_of_mem hop'
    have hfits' := hrec (earlier ++ op :: mid) op' rest (by simp)
    obtain ⟨hbase, hfresh⟩ := hfits'.fresh c hcreated
    have hearlier : look (replayed base earlier) c = none :=
      look_replayed_eq_none hrec.of_append hbase
        fun x hx => hfresh x (List.mem_append_left _ hx)
    rw [hearlier] at hsome
    cases hsome
  have happend : earlier ++ op :: later = earlier ++ [op] ++ later := by simp
  rw [happend] at hrec hshown
  rw [look_replayed_append_of_none hrec hgone hnew] at hshown
  cases hshown

theorem mem_applyWithCreate {wc : List Channel} {apiCall : ApiCallSpec} {t : ℤ} {ch : Channel}
    (h : ch ∈ applyWithCreate wc apiCall t) :
    (∃ ch' ∈ wc, ch = channelEffect apiCall ch') ∨
      ∃ call, apiCall = .createChannel call ∧ ch = buildStagedChannel call t := by
  have hmap : ∀ g : Channel → Channel, ch ∈ wc.map g → ∃ ch' ∈ wc, ch = g ch' := by
    intro g hmem
    obtain ⟨ch', hch', heq⟩ := List.mem_map.mp hmem
    exact ⟨ch', hch', heq.symm⟩
  cases apiCall
  case createChannel call =>
    rw [applyWithCreate, List.mem_append, List.mem_singleton] at h
    obtain h | rfl := h
    · exact .inl ⟨ch, h, rfl⟩
    · exact .inr ⟨call, rfl, rfl⟩
  case deleteChannel c => exact .inl ⟨ch, List.mem_of_mem_filter h, rfl⟩
  case updateChannel call => exact .inl (hmap _ h)
  case addStreamToChannel c x => exact .inl (hmap _ h)
  case removeStreamFromChannel c x => exact .inl (hmap _ h)
  case reorderChannelStreams c xs => exact .inl (hmap _ h)
  case bulkAssignChannelNumbers call => exact .inl (hmap _ h)
  all_goals exact .inl ⟨ch, h, rfl⟩

theorem nodup_streams_channelEffect {apiCall : ApiCallSpec} {ch : Channel} (h : ch.streams.Nodup)
    (hfields : ∀ call, apiCall = .updateChannel call → call.data.streams = none)
    (hreorders : ∀ c xs, apiCall = .reorderChannelStreams c xs → xs.Nodup) :
    (channelEffect apiCall ch).streams.Nodup := by
  cases apiCall
  case updateChannel call =>
    rw [channelEffect]
    split
    · simpa [Channel.patch, hfields call rfl] using h
    · exact h
  case addStreamToChannel c x =>
    rw [channelEffect]
    split
    · split
      · exact h
      · rename_i hx
        simpa using h.concat hx
    · exact h
  case removeStreamFromChannel c x =>
    rw [channelEffect]
    split
    · exact h.filter _
    · exact h
  case reorderChannelStreams c xs =>
    rw [channelEffect]
    split
    · exact hreorders c xs rfl
    · exact h
  case bulkAssignChannelNumbers call =>
    rw [channelEffect]
    split <;> exact h
  all_goals exact h

theorem nodup_streams_replayed (hstreams : ∀ ch ∈ base, ch.streams.Nodup)
    (hoffered : ∀ earlier op later, before = earlier ++ op :: later →
      (∀ call, op.apiCall = .updateChannel call → call.data.streams = none) ∧
      ∀ c xs, op.apiCall = .reorderChannelStreams c xs →
        ∃ ch ∈ replayed base earlier, xs.Perm ch.streams) :
    ∀ ch ∈ replayed base before, ch.streams.Nodup := by
  induction before using List.reverseRecOn with
  | nil => exact hstreams
  | append_singleton before op ih =>
    obtain ⟨hearlier, hfields, hreorders⟩ := forall_split_concat.mp hoffered
    have hbefore := ih hearlier
    intro ch hch
    rw [replayed_concat] at hch
    obtain ⟨ch', hch', rfl⟩ | ⟨call, _, rfl⟩ := mem_applyWithCreate hch
    · refine nodup_streams_channelEffect (hbefore ch' hch') hfields ?_
      intro c xs hcall
      obtain ⟨shown, hshown, hperm⟩ := hreorders c xs hcall
      exact hperm.nodup_iff.mpr (hbefore shown hshown)
    · exact List.nodup_nil

end Records

/-- Every call of the queue is about what its place shows. -/
def OfferedQueue (context : LedgerRestoreContext) (operations : List StagedOperation) : Prop :=
  ∀ before op after, operations = before ++ op :: after → Offered context before op.apiCall

section Queue

variable {context : LedgerRestoreContext} {operations : List StagedOperation}

theorem Offered.shown {before : List StagedOperation} {apiCall : ApiCallSpec}
    (h : Offered context before apiCall) (hrec : Recorded context.channels before) {c : ℤ}
    (hc : c ∈ affectedChannelIdsOf apiCall) : (look (replayed context.channels before) c).isSome := by
  obtain ⟨ch, hch, hid⟩ := h.channels c hc
  rw [replayStagedOperations_workingCopy hrec] at hch
  exact Option.isSome_iff_ne_none.mpr fun hnone =>
    look_eq_none.mp hnone (List.mem_map.mpr ⟨ch, hch, hid⟩)

theorem OfferedQueue.steady (h : OfferedQueue context operations) (hlisted : context.Listed)
    (hrec : Recorded context.channels operations) :
    ∀ before op after, operations = before ++ op :: after → Steady before op := by
  intro before op after heq
  subst heq
  have hbefore : Recorded context.channels before := hrec.of_append
  have hop := h before op after rfl
  have hearlier : ∀ earlier op' later, before = earlier ++ op' :: later →
      Offered context earlier op'.apiCall :=
    fun earlier op' later heq => h earlier op' (later ++ op :: after) (by simp [heq])
  have hplaces : ∀ earlier op' later, before = earlier ++ op' :: later →
      Recorded context.channels earlier := by
    intro earlier op' later heq
    rw [heq] at hbefore
    exact hbefore.of_append
  refine ⟨fun c hc => ?_, hop.fields, fun c xs hcall => ?_, fun call hcall => ?_⟩
  · refine not_deleted_of_shown hbefore (fun earlier op' later heq c hc => ?_) (hop.shown hbefore hc)
    exact (hearlier earlier op' later heq).shown (hplaces earlier op' later heq) hc
  · obtain ⟨ch, hch, -, hperm⟩ := hop.reorders c xs hcall
    rw [replayStagedOperations_workingCopy hbefore] at hch
    refine hperm.nodup_iff.mpr (nodup_streams_replayed hlisted.streams ?_ ch hch)
    intro earlier op' later heq
    have hop' := hearlier earlier op' later heq
    refine ⟨hop'.fields, fun c xs hcall => ?_⟩
    obtain ⟨ch, hch, -, hperm⟩ := hop'.reorders c xs hcall
    rw [replayStagedOperations_workingCopy (hplaces earlier op' later heq)] at hch
    exact ⟨ch, hch, hperm⟩
  · exact (hrec before op after rfl).snapshotId? hcall

/-- What the walk holds when it has dropped nothing. -/
structure Kept (context : LedgerRestoreContext) (operations : List StagedOperation)
    (walk : LedgerWalk) : Prop where
  dropped : walk.dropped = []
  edits : List.Forall₂ SameEdit operations walk.restorable
  walked : context.Walked operations walk
  numbers : ∀ c, walk.projection.numberByChannel.get? c =
    (look (replayed context.channels operations) c).map (·.channelNumber)

variable {walk : LedgerWalk}

theorem Kept.mem_stagedChannelIds (h : Kept context operations walk) {c : ℤ} (hc : c < 0)
    {op : StagedOperation} (hop : op ∈ operations) (hcreated : op.createdId? = some c) :
    c ∈ walk.projection.stagedChannelIds := by
  obtain ⟨restored, hmem, hsame⟩ := exists_edit h.edits op hop
  exact (h.walked.projects.channels c).mpr ⟨hc, restored, hmem, hsame.createdId?.trans hcreated⟩

theorem Kept.mem_stagedGroupIds (h : Kept context operations walk) {g : ℤ} {op : StagedOperation}
    (hop : op ∈ operations) (hg : g ∈ createdGroupIds op.apiCall) :
    g ∈ walk.projection.stagedGroupIds := by
  obtain ⟨restored, hmem, hsame⟩ := exists_edit h.edits op hop
  exact (h.walked.projects.groups g).mpr ⟨restored, hmem, hsame.createdGroupIds ▸ hg⟩

/-- The projected streams of a channel that is shown are those it shows. -/
theorem Kept.streamsOf (h : Kept context operations walk) {c : ℤ}
    (halive : ∀ op ∈ operations, op.apiCall ≠ .deleteChannel c) {ch : Channel}
    (hch : look (replayed context.channels operations) c = some ch) :
    context.streamsOf walk.projection c = ch.streams := by
  rw [h.walked.projects.streams c (h.walked.alive halive), replayed_edits h.edits, hch,
    Option.map_some, Option.getD_some]

/-- A group that a call refers to: one of the server's, or one that the queue creates before it. -/
def GroupAt (context : LedgerRestoreContext) (before : List StagedOperation) (g : ℤ) : Prop :=
  g ∈ context.channelGroupIds ∧ 0 ≤ g ∨ ∃ op ∈ before, g ∈ createdGroupIds op.apiCall ∧ g < 0

/-- A call about what its place shows is not dropped. -/
theorem Kept.failureOf (h : Kept context operations walk) (hlisted : context.Listed)
    {operation : StagedOperation} (hrec : Recorded context.channels operations)
    (hoffered : Offered context operations operation.apiCall)
    (hsteady : Steady operations operation)
    (hgroups : ∀ g, ⟨.group, g⟩ ∈ referencesOf operation.apiCall → GroupAt context operations g) :
    context.failureOf walk.projection operation = none := by
  have hchannels : ∀ c ∈ affectedChannelIdsOf operation.apiCall,
      context.referenceFailure walk.projection operation ⟨.channel, c⟩ = none := by
    intro c hc
    rw [LedgerRestoreContext.referenceFailure_channel, LedgerRestoreContext.mem_channelById]
    have hshown := hoffered.shown hrec hc
    split
    · rename_i hneg
      have hbase : look context.channels c = none := by
        rw [look_eq_none]
        intro hmem
        obtain ⟨ch, hch, hid⟩ := List.mem_map.mp hmem
        exact absurd (hlisted.nonneg ch hch) (by omega)
      by_contra hne
      rw [look_replayed_eq_none hrec hbase
        fun op hop hcreated => hne (h.mem_stagedChannelIds hneg hop hcreated)] at hshown
      cases hshown
    · rename_i hnonneg
      by_contra hne
      rw [look_replayed_eq_none hrec (look_eq_none.mpr hne) fun op hop hcreated => ?_] at hshown
      · cases hshown
      · obtain ⟨earlier, later, rfl⟩ := List.append_of_mem hop
        exact hnonneg ((hrec earlier op later rfl).created_neg hcreated)
  rw [context.failureOf_eq_none]
  constructor
  · rintro ⟨kind, id⟩ href
    cases kind with
    | channel => exact hchannels id (LedgerRestoreContext.mem_referencesOf_channel.mp href)
    | group =>
      rw [LedgerRestoreContext.referenceFailure_group]
      obtain ⟨hmem, hnonneg⟩ | ⟨op, hop, hcreated, hneg⟩ := hgroups id href
      · rwa [if_neg (not_lt.mpr hnonneg)]
      · rw [if_pos hneg]
        exact h.mem_stagedGroupIds hop hcreated
    | profile =>
      cases hcall : operation.apiCall
      case setProfileMembership p c enabled =>
        rw [hcall] at href hoffered
        simp only [referencesOf, List.mem_cons, Reference.mk.injEq, reduceCtorEq, false_and,
          true_and, List.not_mem_nil, or_false, false_or] at href
        obtain ⟨hp, hlist⟩ := hoffered.profiles p c enabled rfl
        rw [href, LedgerRestoreContext.referenceFailure_profile hp]
        exact hlist
      all_goals simp [referencesOf, hcall] at href
  · have hstreams : ∀ c ch, c ∈ affectedChannelIdsOf operation.apiCall →
        ch ∈ (replayStagedOperations context.channels operations).workingCopy → ch.id = c →
          context.streamsOf walk.projection c = ch.streams := by
      intro c ch hc hch hid
      rw [replayStagedOperations_workingCopy hrec,
        mem_iff_look (nodup_replayed hlisted.nodup hrec), hid] at hch
      exact h.streamsOf (hsteady.alive c hc) hch
    unfold LedgerRestoreContext.streamFailure
    split
    · rename_i c x hcall
      obtain ⟨ch, hch, hid, hx⟩ := hoffered.removes c x hcall
      rw [hstreams c ch (by simp [hcall, affectedChannelIdsOf]) hch hid, if_pos hx]
    · rename_i c xs hcall
      obtain ⟨ch, hch, hid, hperm⟩ := hoffered.reorders c xs hcall
      rw [hstreams c ch (by simp [hcall, affectedChannelIdsOf]) hch hid]
      exact if_pos ⟨hperm.length_eq.symm, fun x hx => hperm.mem_iff.mp hx⟩
    · rfl

/-- The numbers a bulk assignment sets, whichever map it sets them in. -/
theorem get?_foldl_assignments (call : BulkAssignCall) (numbers : Dict ℤ (Option ℚ)) (c : ℤ) :
    (call.assignments.foldl (fun m e => m.set e.1 (some e.2)) numbers).get? c =
      ((call.numberOf c).map some).or (numbers.get? c) := by
  have hnumber : call.numberOf c = (Dict.ofList call.assignments).get? c := by
    rw [BulkAssignCall.numberOf, Dict.ofList, BulkAssignCall.assignments, List.foldl_map]
  rw [hnumber]
  induction call.assignments using List.reverseRecOn with
  | nil => rfl
  | append_singleton es e ih =>
    rw [List.foldl_append, Dict.get?_ofList_concat, List.foldl_cons, List.foldl_nil, Dict.get?_set, ih]
    split <;> rfl

/-- The number of a channel moves as its record does. -/
theorem get?_numberByChannel_accept {projection : LedgerProjection} {operation : StagedOperation}
    {c : ℤ} {record : Option Channel}
    (h : projection.numberByChannel.get? c = record.map (·.channelNumber))
    (hid : ∀ ch, record = some ch → ch.id = c)
    (hshown : c ∈ affectedChannelIdsOf operation.apiCall → record.isSome)
    (hcreate : ∀ call, operation.apiCall = .createChannel call →
      operation.tempChannelId? = some operation.tempId ∧ (operation.tempId = c → record = none)) :
    (context.accept projection operation).numberByChannel.get? c =
      (cell operation.apiCall operation.tempId c record).map (·.channelNumber) := by
  cases hcall : operation.apiCall
  case createChannel call =>
    obtain ⟨htemp, hfresh⟩ := hcreate call hcall
    have hset : (context.accept projection operation).numberByChannel =
        projection.numberByChannel.set operation.tempId call.channelNumber := by
      simp only [LedgerRestoreContext.accept, hcall, htemp]
      split <;> rfl
    rw [hset, Dict.get?_set, cell]
    by_cases hc : operation.tempId = c
    · simp [hc, hfresh hc, buildStagedChannel]
    · simp [hc, h]
  case updateChannel call =>
    by_cases hc : call.channelId = c
    · obtain ⟨ch, rfl⟩ := Option.isSome_iff_exists.mp
        (hshown (by simp [hcall, affectedChannelIdsOf, hc]))
      have hch := hid ch rfl
      cases hnumber : call.data.channelNumber with
      | none => simp [LedgerRestoreContext.accept, hcall, hnumber, cell, channelEffect, hch, hc, h,
          Channel.patch]
      | some n => simp [LedgerRestoreContext.accept, hcall, hnumber, cell, channelEffect, hch, hc,
          Channel.patch]
    · have haffected : c ∉ affectedChannelIdsOf (.updateChannel call) := by
        simpa [affectedChannelIdsOf] using Ne.symm hc
      rw [cell_of_not_affected (by simp) haffected hid, ← h]
      simp only [LedgerRestoreContext.accept, hcall]
      split
      · rfl
      · exact Dict.get?_set_ne _ _ hc
  case deleteChannel d =>
    simp only [LedgerRestoreContext.accept, hcall, cell, Dict.get?_erase, h]
    by_cases hd : d = c
    · simp [hd]
    · simp [hd]
  case bulkAssignChannelNumbers call =>
    simp only [LedgerRestoreContext.accept, hcall, get?_foldl_assignments, h]
    by_cases hc : c ∈ call.channelIds
    · obtain ⟨ch, rfl⟩ := Option.isSome_iff_exists.mp
        (hshown (by simp [hcall, affectedChannelIdsOf, hc]))
      simp only [cell, channelEffect, hid ch rfl, Option.map_some]
      cases call.numberOf c <;> rfl
    · rw [cell_of_not_affected (by simp) (by simpa [affectedChannelIdsOf] using hc) hid,
        numberOf_eq_none hc]
      rfl
  -- the calls that are not about numbers
  case addStreamToChannel d x =>
    have hleft : (context.accept projection operation).numberByChannel =
        projection.numberByChannel := by
      simp only [LedgerRestoreContext.accept, hcall]
      split <;> rfl
    simp only [hleft, h, cell, Option.map_map]
    refine Option.map_congr fun ch _ => ?_
    simp only [Function.comp_apply, channelEffect]
    split
    · split <;> rfl
    · rfl
  case removeStreamFromChannel d x =>
    simp only [LedgerRestoreContext.accept, hcall, cell, Option.map_map, h]
    refine Option.map_congr fun ch _ => ?_
    simp only [Function.comp_apply, channelEffect]
    split <;> rfl
  case reorderChannelStreams d xs =>
    simp only [LedgerRestoreContext.accept, hcall, cell, Option.map_map, h]
    refine Option.map_congr fun ch _ => ?_
    simp only [Function.comp_apply, channelEffect]
    split <;> rfl
  all_goals simp [LedgerRestoreContext.accept, hcall, cell, Option.map_map, h, Function.comp_def,
    channelEffect]

theorem Fits.tempChannelId? {base : List Channel} {before : List StagedOperation}
    {op : StagedOperation} (h : Fits base before op) {call : CreateChannelCall}
    (hcall : op.apiCall = .createChannel call) : op.tempChannelId? = some op.tempId := by
  obtain ⟨t, hneg, hsnap⟩ := h.snapshotId? hcall
  simp [StagedOperation.tempChannelId?, StagedOperation.tempId, hsnap, hneg]

theorem Kept.step (h : Kept context operations walk) (hlisted : context.Listed)
    {operation : StagedOperation} (hrec : Recorded context.channels (operations ++ [operation]))
    (hoffered : Offered context operations operation.apiCall)
    (hsteady : Steady operations operation)
    (hgroups : ∀ g, ⟨.group, g⟩ ∈ referencesOf operation.apiCall → GroupAt context operations g)
    (numberText : ℚ → String) :
    Kept context (operations ++ [operation]) (context.planStep numberText walk operation) := by
  have hbefore : Recorded context.channels operations := hrec.of_append
  have hfits := hrec operations operation [] rfl
  have hfailure := h.failureOf hlisted hbefore hoffered hsteady hgroups
  refine ⟨?_, ?_, h.walked.step numberText hsteady, fun c => ?_⟩
  · rw [context.planStep_kept numberText hfailure]
    exact h.dropped
  · rw [context.planStep_kept numberText hfailure]
    exact List.rel_append h.edits (.cons (LedgerProjection.sameEdit_restored _ _ _) .nil)
  · rw [context.planStep_kept numberText hfailure, look_replayed_concat]
    refine get?_numberByChannel_accept (h.numbers c) (fun _ => look_id) (hoffered.shown hbefore) ?_
    intro call hcall
    refine ⟨hfits.tempChannelId? hcall, ?_⟩
    rintro rfl
    exact hfits.look_tempId hbefore hcall

/-- The walk finds an acknowledgement covered where the working copy does. -/
theorem Kept.stillCovered (h : Kept context operations walk)
    (hrec : Recorded context.channels operations) {operation : StagedOperation}
    {acknowledged : AcknowledgedDuplicate}
    (hcovers : Covers (replayStagedOperations context.channels operations).workingCopy operation
      acknowledged) :
    walk.projection.stillCovered operation acknowledged = true := by
  rw [LedgerProjection.stillCovered, List.all_eq_true]
  intro c hc
  obtain ⟨⟨c', number⟩, hmem, rfl⟩ := List.mem_map.mp hc
  rw [List.mem_filter, decide_eq_true_eq] at hmem
  obtain ⟨hitem, hself, hsame⟩ := hmem
  have hget := (Dict.get?_eq_some _ _ _).mpr hitem
  rw [h.numbers] at hget
  obtain ⟨ch, hch, rfl⟩ := Option.map_eq_some_iff.mp hget
  rw [replayStagedOperations_workingCopy hrec] at hcovers
  have hid := look_id hch
  subst hid
  exact decide_eq_true (hcovers ch (look_mem hch) hself hsame)

/-- What the walk withdraws at one operation. -/
theorem Kept.restored_withdraws (h : Kept context operations walk)
    (hrec : Recorded context.channels operations) (operation : StagedOperation)
    (numberText : ℚ → String) :
    (∀ w ∈ (walk.projection.restored numberText operation).2, w.id = operation.id) ∧
      ∀ acknowledged, operation.apiCall.acknowledgementOf = some acknowledged →
        Covers (replayStagedOperations context.channels operations).workingCopy operation
          acknowledged →
        (walk.projection.restored numberText operation).2 = [] := by
  rw [LedgerProjection.restored]
  cases hack : operation.apiCall.acknowledgementOf with
  | none => simp
  | some acknowledged =>
    dsimp only
    split
    · simp
    · rename_i hcovered
      refine ⟨by simp, fun acknowledged' heq hcovers => ?_⟩
      cases heq
      exact absurd (h.stillCovered hrec hcovers) hcovered

theorem kept_walked (hlisted : context.Listed) (hrec : Recorded context.channels operations)
    (hoffered : OfferedQueue context operations)
    (hgroups : ∀ before op after, operations = before ++ op :: after →
      ∀ g, ⟨.group, g⟩ ∈ referencesOf op.apiCall → GroupAt context before g)
    (numberText : ℚ → String) :
    Kept context operations (context.walked numberText operations) := by
  have hsteady := hoffered.steady hlisted hrec
  induction operations using List.reverseRecOn with
  | nil =>
    refine ⟨rfl, .nil, context.walked_walked numberText hlisted.nodup (by simp), fun c => ?_⟩
    exact LedgerRestoreContext.get?_ofChannels (·.channelNumber) hlisted.nodup c
  | append_singleton operations operation ih =>
    rw [LedgerRestoreContext.walked_concat]
    have hkept := ih hrec.of_append (forall_split_concat.mp hoffered).1
      (forall_split_concat.mp hgroups).1 (forall_split_concat.mp hsteady).1
    exact hkept.step hlisted hrec (forall_split_concat.mp hoffered).2
      (forall_split_concat.mp hsteady).2 (forall_split_concat.mp hgroups).2 numberText

theorem consents_walked (hlisted : context.Listed) (hrec : Recorded context.channels operations)
    (hoffered : OfferedQueue context operations) (hids : (operations.map (·.id)).Nodup)
    (hgroups : ∀ before op after, operations = before ++ op :: after →
      ∀ g, ⟨.group, g⟩ ∈ referencesOf op.apiCall → GroupAt context before g)
    (numberText : ℚ → String) :
    (∀ w ∈ (context.walked numberText operations).withdrawnAcknowledgements,
      w.id ∈ operations.map (·.id)) ∧
    ∀ before op after, operations = before ++ op :: after →
      ∀ acknowledged, op.apiCall.acknowledgementOf = some acknowledged →
        Covers (replayStagedOperations context.channels before).workingCopy op acknowledged →
          op.id ∉ (context.walked numberText operations).withdrawnAcknowledgements.map (·.id) := by
  induction operations using List.reverseRecOn with
  | nil => simp [LedgerRestoreContext.walked]
  | append_singleton operations operation ih =>
    have hbefore : Recorded context.channels operations := hrec.of_append
    have hearlier := (forall_split_concat.mp hoffered).1
    have hkept := kept_walked hlisted hbefore hearlier (forall_split_concat.mp hgroups).1 numberText
    have hfailure := hkept.failureOf hlisted hbefore (forall_split_concat.mp hoffered).2
      (hoffered.steady hlisted hrec operations operation [] rfl) (forall_split_concat.mp hgroups).2
    rw [List.map_append, List.map_singleton, List.nodup_append] at hids
    obtain ⟨hsub, hconsents⟩ := ih hbefore hearlier hids.1 (forall_split_concat.mp hgroups).1
    obtain ⟨hown, hcovered⟩ := hkept.restored_withdraws hbefore operation numberText
    rw [LedgerRestoreContext.walked_concat, context.planStep_kept numberText hfailure]
    constructor
    · intro w hw
      rw [List.mem_append] at hw
      obtain hw | hw := hw
      · simp only [List.map_append, List.mem_append]
        exact .inl (hsub w hw)
      · simp [hown w hw]
    · refine forall_split_concat.mpr ⟨fun before op after heq acknowledged hack hcovers => ?_,
        fun acknowledged hack hcovers => ?_⟩
      · rw [List.map_append, List.mem_append, not_or]
        refine ⟨hconsents before op after heq acknowledged hack hcovers, fun hmem => ?_⟩
        obtain ⟨w, hw, hid⟩ := List.mem_map.mp hmem
        have hop : op.id ∈ operations.map (·.id) := by simp [heq]
        exact hids.2.2 _ hop _ (List.mem_singleton_self _) (hid.symm.trans (hown w hw))
      · rw [hcovered acknowledged hack hcovers, List.append_nil]
        intro hmem
        obtain ⟨w, hw, hid⟩ := List.mem_map.mp hmem
        exact hids.2.2 _ (hid ▸ hsub w hw) _ (List.mem_singleton_self _) rfl

end Queue

/-- A call whose new groups are known by name: a group is created under the id its name has, and a
channel is created into it under the same. -/
structure Registered (groupIdByName : Dict String ℤ) (apiCall : ApiCallSpec) : Prop where
  group : ∀ name g, apiCall = .createGroup name g → groupIdByName.get? name = some g
  channel : ∀ call, apiCall = .createChannel call → ∀ name, call.newGroupName = some name →
    name ≠ "" → ∃ g, call.stagedGroupId = some g ∧ groupIdByName.get? name = some g

/-- The names of the staged groups, and the calls staged under them. -/
structure GroupNames (groupIdByName : Dict String ℤ) (operations : List StagedOperation) : Prop where
  registered : ∀ op ∈ operations, Registered groupIdByName op.apiCall
  negative : ∀ name g, groupIdByName.get? name = some g → g < 0
  injective : ∀ name name' g, groupIdByName.get? name = some g →
    groupIdByName.get? name' = some g → name = name'

section GroupNames

variable {context : LedgerRestoreContext} {operations : List StagedOperation}
  {groupIdByName : Dict String ℤ}

theorem any_ne_empty {name : Option String} (h : name.any (· ≠ "") = true) :
    ∃ n, name = some n ∧ n ≠ "" := by
  cases name with
  | none => simp at h
  | some n => exact ⟨n, rfl, by simpa using h⟩

theorem Registered.created_neg {apiCall : ApiCallSpec} (h : Registered groupIdByName apiCall)
    (hnegative : ∀ name g, groupIdByName.get? name = some g → g < 0) :
    ∀ g ∈ createdGroupIds apiCall, g < 0 := by
  intro g hg
  cases hcall : apiCall
  case createChannel call =>
    rw [hcall, createdGroupIds] at hg
    split at hg
    · rename_i hnew
      obtain ⟨name, hname, hne⟩ := any_ne_empty hnew
      obtain ⟨g', hstaged, hget⟩ := h.channel call hcall name hname hne
      rw [hstaged, Option.toList_some, List.mem_singleton] at hg
      exact hg ▸ hnegative name g' hget
    · cases hg
  case createGroup name g' =>
    rw [hcall, createdGroupIds, List.mem_singleton] at hg
    exact hg ▸ hnegative name g' (h.group name g' hcall)
  all_goals simp [hcall, createdGroupIds] at hg

/-- A group that a call refers to is chosen, or is the new one that a create names. -/
theorem chosen_or_new {apiCall : ApiCallSpec} {g : ℤ} (h : ⟨.group, g⟩ ∈ referencesOf apiCall) :
    g ∈ chosenGroupIds apiCall ∨ ∃ call, apiCall = .createChannel call ∧
      call.newGroupName.any (· ≠ "") = true ∧ call.stagedGroupId = some g := by
  cases apiCall
  case createChannel call =>
    simp only [referencesOf, CreateChannelCall.referencedGroupId] at h
    simp only [chosenGroupIds]
    split at h
    · rename_i hnew
      refine .inr ⟨call, rfl, hnew, ?_⟩
      simpa using h
    · rename_i hold
      rw [if_neg hold]
      exact .inl (by simpa using h)
  all_goals simp_all [referencesOf, chosenGroupIds, namedGroupIds]

/-- Where the new groups of creates are staged first, every group referred to is there. -/
theorem GroupNames.groupAt (h : GroupNames groupIdByName operations) (hlisted : context.Listed)
    (hoffered : OfferedQueue context operations) (hstaged : GroupsStaged operations) :
    ∀ before op after, operations = before ++ op :: after →
      ∀ g, ⟨.group, g⟩ ∈ referencesOf op.apiCall → GroupAt context before g := by
  intro before op after heq g hg
  have hbefore : ∀ op' ∈ before, op' ∈ operations := fun op' hop' => by simp [heq, hop']
  have hop : op ∈ operations := by simp [heq]
  obtain hchosen | ⟨call, hcall, hnew, hid⟩ := chosen_or_new hg
  · obtain hlist | ⟨op', hop', hcreated⟩ := (hoffered before op after heq).groups g hchosen
    · exact .inl ⟨hlist, hlisted.groups_nonneg g hlist⟩
    · exact .inr ⟨op', hop', hcreated,
        (h.registered op' (hbefore op' hop')).created_neg h.negative g hcreated⟩
  · obtain ⟨name, hname, hne⟩ := any_ne_empty hnew
    obtain ⟨g', hg', hget⟩ := (h.registered op hop).channel call hcall name hname hne
    obtain ⟨g'', op', hop', hcall'⟩ := hstaged before op after heq call hcall name hname hne
    have hget' := (h.registered op' (hbefore op' hop')).group name g'' hcall'
    have hsame : g = g'' := by
      rw [hget, Option.some.injEq] at hget'
      rw [hid, Option.some.injEq] at hg'
      exact hg'.trans hget'
    refine .inr ⟨op', hop', ?_, ?_⟩
    · rw [hcall', hsame]
      exact List.mem_singleton_self _
    · exact hsame ▸ h.negative name g'' hget'

/-- A staged group id that the walk knows comes from a call that creates a group: a create that names
one is let through only when it is known already. -/
theorem createGroup_of_staged (numberText : ℚ → String) {g : ℤ} (hneg : g < 0)
    (h : g ∈ (context.walked numberText operations).projection.stagedGroupIds) :
    ∃ op ∈ operations, ∃ name, op.apiCall = .createGroup name g := by
  induction operations using List.reverseRecOn with
  | nil => simp [LedgerRestoreContext.walked, LedgerRestoreContext.startProjection] at h
  | append_singleton operations operation ih =>
    have hearlier (hmem : g ∈ (context.walked numberText operations).projection.stagedGroupIds) :
        ∃ op ∈ operations ++ [operation], ∃ name, op.apiCall = .createGroup name g := by
      obtain ⟨op, hop, hcall⟩ := ih hmem
      exact ⟨op, List.mem_append_left _ hop, hcall⟩
    rw [LedgerRestoreContext.walked_concat] at h
    cases hfailure : context.failureOf (context.walked numberText operations).projection operation with
    | some failure =>
      rw [context.planStep_dropped numberText hfailure] at h
      exact hearlier h
    | none =>
      rw [context.planStep_kept numberText hfailure] at h
      rw [LedgerRestoreContext.stagedGroupIds_accept] at h
      obtain h | h := h
      · exact hearlier h
      · cases hcall : operation.apiCall
        case createGroup name g' =>
          rw [hcall, createdGroupIds, List.mem_singleton] at h
          exact ⟨operation, by simp, name, by rw [hcall, h]⟩
        case createChannel call =>
          rw [hcall, createdGroupIds] at h
          split at h
          · rename_i hnew
            have href : ⟨.group, g⟩ ∈ referencesOf operation.apiCall := by
              rw [hcall, referencesOf, CreateChannelCall.referencedGroupId, if_pos hnew]
              simpa using h
            have hknown := ((context.failureOf_eq_none).mp hfailure).1 _ href
            rw [LedgerRestoreContext.referenceFailure_group, if_pos hneg] at hknown
            exact hearlier hknown
          · cases h
        all_goals simp [hcall, createdGroupIds] at h

/-- Nothing is dropped only where every new group that a create names was staged before it. -/
theorem GroupNames.groupsStaged (h : GroupNames groupIdByName operations) (numberText : ℚ → String)
    (hkeeps : (context.walked numberText operations).dropped = []) : GroupsStaged operations := by
  induction operations using List.reverseRecOn with
  | nil => simp [GroupsStaged]
  | append_singleton operations operation ih =>
    have hearlier : GroupNames groupIdByName operations :=
      ⟨fun op hop => h.registered op (List.mem_append_left _ hop), h.negative, h.injective⟩
    rw [LedgerRestoreContext.walked_concat] at hkeeps
    cases hfailure : context.failureOf (context.walked numberText operations).projection operation with
    | some failure =>
      rw [context.planStep_dropped numberText hfailure] at hkeeps
      simp at hkeeps
    | none =>
      rw [context.planStep_kept numberText hfailure] at hkeeps
      refine forall_split_concat.mpr ⟨ih hearlier hkeeps, fun call hcall name hname hne => ?_⟩
      obtain ⟨g, hid, hget⟩ := (h.registered operation (by simp)).channel call hcall name hname hne
      have href : ⟨.group, g⟩ ∈ referencesOf operation.apiCall := by
        simp [hcall, referencesOf, CreateChannelCall.referencedGroupId, hname, hne, hid]
      have hknown := ((context.failureOf_eq_none).mp hfailure).1 _ href
      have hneg := h.negative name g hget
      rw [LedgerRestoreContext.referenceFailure_group, if_pos hneg] at hknown
      obtain ⟨op, hop, name', hcall'⟩ := createGroup_of_staged numberText hneg hknown
      have hget' := (hearlier.registered op hop).group name' g hcall'
      exact ⟨g, op, hop, h.injective name name' g hget hget' ▸ hcall'⟩

theorem GroupNames.restoresWhole_iff (h : GroupNames groupIdByName operations)
    (hlisted : context.Listed) (hrec : Recorded context.channels operations)
    (hoffered : OfferedQueue context operations) (hids : (operations.map (·.id)).Nodup)
    (numberText : ℚ → String) :
    RestoresWhole numberText context operations ↔ GroupsStaged operations := by
  constructor
  · intro hwhole
    exact h.groupsStaged numberText hwhole.keeps
  · intro hstaged
    have hgroups := h.groupAt hlisted hoffered hstaged
    exact ⟨(kept_walked hlisted hrec hoffered hgroups numberText).dropped,
      (consents_walked hlisted hrec hoffered hids hgroups numberText).2⟩

end GroupNames

end ChannelManager.EditMode
