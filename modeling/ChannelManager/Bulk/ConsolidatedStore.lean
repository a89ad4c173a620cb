import ChannelManager.Bulk.MergedUpdates

/-!
# The store a consolidated list leaves

Consolidation emits the operations that keep their place, then one update per channel, then the
ranges. The list runs and leaves the store the submitted one leaves exactly when nothing stands
between an update and the place it is moved to.
-/

namespace ChannelManager

/-! ## When nothing stands in the way -/

/-- Nothing stands between an update and the place it is moved to. The first three are about the
operations that keep their place, run without the others. -/
structure Hoistable (ctx : LandingContext) (s : CommitStore) (ops : List BulkOperation) : Prop where
  /-- A temporary channel that is also deleted is in no profile. -/
  membership : ∀ p c enabled, .setProfileMembership p c enabled ∈ ops →
    ¬(c ∈ channelsToCreate ops ∧ c ∈ channelsToDelete ops)
  /-- A reorder lists the streams of its channel. -/
  reorder : ∀ pre c xs post, ops = pre ++ .reorderChannelStreams c xs :: post →
    ¬(c ∈ channelsToCreate ops ∧ c ∈ channelsToDelete ops) →
      (s.leftBy ctx (keptOps ops pre)).permutes c xs
  /-- A deleted group's channels have somewhere to go. -/
  deletion : ∀ pre g post, ops = pre ++ .deleteChannelGroup g :: post →
    (s.leftBy ctx (keptOps ops pre)).canEmpty g
  /-- No stream operation changes a list after it has been written. -/
  streams : ∀ c, c ∉ channelsToDelete ops → standingStreams c ops = (writtenTo c ops).streams
  /-- No group is deleted after it has been written. -/
  group : ∀ c, c ∉ channelsToDelete ops → standingGroup c ops = (writtenTo c ops).channelGroupId

/-- The same channels with the same fields, and the same groups, memberships and stats. -/
structure SameStore (a b : CommitStore) : Prop where
  around : a.around = b.around
  channel : ∀ c, a.channels.get? c = b.channels.get? c

section Consolidated

variable {ctx : LandingContext} {s a t : CommitStore} {ops pre : List BulkOperation}
  {op : BulkOperation} {c : ℤ}

theorem RunsAhead.mem_iff (h : RunsAhead (channelsToDelete ops) (channelsToCreate ops) pre t a)
    (hc : ¬(c ∈ channelsToCreate ops ∧ c ∈ channelsToDelete ops)) :
    c ∈ t.channels ↔ c ∈ a.channels := by
  have hrel := h.channel c hc
  rw [CommitStore.mem_channels, CommitStore.mem_channels]
  generalize t.channels.get? c = x at hrel
  generalize a.channels.get? c = y at hrel
  cases hrel <;> rfl

theorem RunsAhead.resolves (h : RunsAhead (channelsToDelete ops) (channelsToCreate ops) pre t a)
    (ha : a.resolves c) (hc : c < 0 → c ∉ channelsToDelete ops) : t.resolves c := by
  rcases ha with hpos | hmem
  · exact .inl hpos
  · by_cases hneg : c < 0
    · exact .inr ((h.created c).mpr ⟨hmem, hc hneg⟩)
    · exact .inl (not_lt.mp hneg)

theorem not_cancelled {toDelete toCreate : List ℤ}
    (h : (!decide (c < 0 ∧ c ∈ toCreate ∧ c ∈ toDelete)) = true) :
    ¬(c < 0 ∧ c ∈ toCreate ∧ c ∈ toDelete) :=
  of_decide_eq_false (Bool.not_eq_true' _ ▸ h)

/-- An operation that keeps its place is admitted there as it was in submitted order. -/
theorem RunsAhead.admits (h : RunsAhead (channelsToDelete ops) (channelsToCreate ops) pre t a)
    (hcreated : ∀ c ∈ a.created, c ∈ channelsToCreate ops) (hop : a.Admits ctx op)
    (hkeep : passesThrough (channelsToDelete ops) (channelsToCreate ops) op = true)
    (hmembership : ∀ p c enabled, op = .setProfileMembership p c enabled →
      ¬(c ∈ channelsToCreate ops ∧ c ∈ channelsToDelete ops))
    (hreorder : ∀ c xs, op = .reorderChannelStreams c xs → t.permutes c xs)
    (hdeletion : ∀ g, op = .deleteChannelGroup g → t.canEmpty g) : t.Admits ctx op := by
  -- a temporary id that names a channel was created, so it is none that is deleted
  have hresolves : ∀ c, a.resolves c →
      ¬(c < 0 ∧ c ∈ channelsToCreate ops ∧ c ∈ channelsToDelete ops) → t.resolves c := by
    intro c hc hplain
    refine h.resolves hc fun hneg hdel => hplain ⟨hneg, ?_, hdel⟩
    exact hcreated c (hc.resolve_left (not_le.mpr hneg))
  have hmem : ∀ c, ¬(c < 0 ∧ c ∈ channelsToCreate ops ∧ c ∈ channelsToDelete ops) →
      c ∈ a.channels → c ∈ t.channels := by
    intro c hplain hc
    refine (h.mem_iff fun hboth => hplain ⟨neg_of_mem_channelsToCreate hboth.1, hboth⟩).mpr hc
  cases op with
  | updateChannel u => cases hkeep
  | bulkAssignChannelNumbers r => cases hkeep
  | addStreamToChannel c x =>
    have hplain := not_cancelled hkeep
    obtain ⟨hc, hthere, hin⟩ := hop
    exact ⟨hresolves c hc hplain, hthere, hmem c hplain hin⟩
  | removeStreamFromChannel c x =>
    have hplain := not_cancelled hkeep
    exact ⟨hresolves c hop.1 hplain, hmem c hplain hop.2⟩
  | reorderChannelStreams c xs =>
    have hplain := not_cancelled hkeep
    exact ⟨hresolves c hop.1 hplain, hmem c hplain hop.2.1, hreorder c xs rfl⟩
  | deleteChannel c =>
    have hplain := passesThrough_deleteChannel.mp hkeep
    exact hresolves c hop fun hc => hplain ⟨hc.1, hc.2.1⟩
  | setProfileMembership p c enabled =>
    exact hresolves c hop fun hc => hmembership p c enabled rfl hc.2
  | deleteChannelGroup g => exact ⟨hdeletion g rfl, h.around ▸ hop.2⟩
  | createChannel k =>
    change groupResolved (t.around.resolveGroupId k.groupId k.newGroupName)
    exact h.around ▸ hop
  | createGroup name =>
    change name ∈ t.around.groupIdMap ∨ name ∉ t.around.groups.map (·.name)
    exact h.around ▸ hop
  | renameChannelGroup g name =>
    change t.around.hasGroup g
    exact h.around ▸ hop
  | restoreChannelGroup _ | clearStreamStats _ => trivial

/-- The operations that keep their place run. -/
theorem admitsAll_keptOps (hs : AtStart s) (hn : Numberable ops) (hadmits : s.AdmitsAll ctx ops)
    (h : Hoistable ctx s ops) {post : List BulkOperation} (hops : ops = pre ++ post) :
    s.AdmitsAll ctx (keptOps ops pre) := by
  induction pre using List.reverseRecOn generalizing post with
  | nil => trivial
  | append_singleton pre op ih =>
    have hsplit : ops = pre ++ op :: post := by simp [hops]
    rw [keptOps_concat]
    split
    next hkeep =>
      have hop := hadmits
      rw [hsplit, CommitStore.admitsAll_append] at hop
      rw [CommitStore.admitsAll_concat]
      refine ⟨ih hsplit, (runsAhead_of_split hs hn hadmits hsplit).admits ?_ hop.2.1 hkeep ?_ ?_ ?_⟩
      · intro c hc
        rw [CommitStore.created_leftBy, hs.created, List.nil_append] at hc
        rw [hsplit, channelsToCreate_append]
        exact List.mem_append_left _ hc
      · rintro p c enabled rfl
        exact h.membership p c enabled (by simp [hsplit])
      · rintro c xs rfl
        refine h.reorder pre c xs post hsplit ?_
        have hplain := not_cancelled hkeep
        exact fun hc => hplain ⟨neg_of_mem_channelsToCreate hc.1, hc⟩
      · rintro g rfl
        exact h.deletion pre g post hsplit
    next => exact ih hsplit

/-- The updates and ranges of a list that is admitted throughout stay possible. -/
theorem admitsAll_writes {s : CommitStore} {ops : List BulkOperation}
    (hkind : ∀ op ∈ ops, (∃ u, op = .updateChannel u) ∨ ∃ r, op = .bulkAssignChannelNumbers r)
    (hops : ∀ op ∈ ops, s.Admits ctx op) : s.AdmitsAll ctx ops := by
  induction ops generalizing s with
  | nil => trivial
  | cons op ops ih =>
    refine ⟨hops op List.mem_cons_self, ih (fun op' h => hkind op' (List.mem_cons_of_mem _ h)) ?_⟩
    have hdelete : ∀ c, c ∉ channelsToDelete [op] := by
      intro c hc
      have hmem := List.mem_singleton.mp (mem_channelsToDelete.mp hc)
      rcases hkind op List.mem_cons_self with ⟨u, rfl⟩ | ⟨r, rfl⟩ <;> cases hmem
    have hstays : ∀ c, s.resolves c → c ∈ s.channels →
        (s.leftBy ctx [op]).resolves c ∧ c ∈ (s.leftBy ctx [op]).channels := fun c hc hmem =>
      ⟨CommitStore.resolves_leftBy hc, CommitStore.mem_leftBy (hdelete c) hmem⟩
    intro op' hop'
    have hadmits := hops op' (List.mem_cons_of_mem _ hop')
    rcases hkind op' (List.mem_cons_of_mem _ hop') with ⟨u, rfl⟩ | ⟨r, rfl⟩
    · obtain ⟨hc, hgroup, hexpected, hmem⟩ := hadmits
      obtain ⟨hc, hmem⟩ := hstays _ hc hmem
      exact ⟨hc, hgroup, hexpected, hmem⟩
    · exact fun c hc => hstays c (hadmits c hc).1 (hadmits c hc).2

theorem group_mergedData (acc : Consolidation) (e : ℤ × ChannelPatch) :
    (mergedData acc e).channelGroupId = e.2.channelGroupId := by
  unfold mergedData
  split <;> rfl

/-- The channel of an operation that was admitted is still there when the operations that keep their
place have run, unless it is deleted. -/
theorem stays (hs : AtStart s) (hn : Numberable ops) (hadmits : s.AdmitsAll ctx ops)
    (hc : c ∉ channelsToDelete ops) {post : List BulkOperation} (hops : ops = pre ++ post)
    (hresolves : (s.leftBy ctx pre).resolves c) (hmem : c ∈ (s.leftBy ctx pre).channels) :
    (s.leftBy ctx (keptOps ops ops)).resolves c ∧
      c ∈ (s.leftBy ctx (keptOps ops ops)).channels := by
  have hrunsAhead := runsAhead_of_split hs hn hadmits (List.append_nil ops).symm
  have hpost : c ∉ channelsToDelete post := by
    rw [hops, channelsToDelete_append, List.mem_append, not_or] at hc
    exact hc.2
  have hleft : s.leftBy ctx ops = (s.leftBy ctx pre).leftBy ctx post := by
    rw [hops, CommitStore.leftBy_append]
  have hresolves' : (s.leftBy ctx ops).resolves c := hleft ▸ CommitStore.resolves_leftBy hresolves
  have hmem' : c ∈ (s.leftBy ctx ops).channels := hleft ▸ CommitStore.mem_leftBy hpost hmem
  exact ⟨hrunsAhead.resolves hresolves' fun _ => hc, (hrunsAhead.mem_iff fun h => hc h.2).mpr hmem'⟩

theorem admits_emitUpdates (hs : AtStart s) (hn : Numberable ops) (hadmits : s.AdmitsAll ctx ops)
    (hop : op ∈ emitUpdates (consolidation ops)) :
    (s.leftBy ctx (keptOps ops ops)).Admits ctx op := by
  have hfiled := filed_consolidateOperations ops
  obtain ⟨e, he, hemit⟩ := List.mem_filterMap.mp hop
  have hkey : e.1 ∈ (consolidation ops).finalUpdates := List.mem_map_of_mem he
  have hget := ((consolidation ops).finalUpdates.get?_eq_some e.1 e.2).mpr he
  have hc := (hfiled.updates e.1 hkey).1
  have hmerged : e.2 = writtenTo e.1 ops := by
    rw [← finalUpdates_getD (channelsToCreate ops) hc ops]
    exact (congrArg (Option.getD · {}) hget).symm
  rcases emitUpdate_cases hfiled he with ⟨hnone, -⟩ | ⟨u, hsome, hid, hdata⟩
  · rw [hnone] at hemit
    cases hemit
  obtain rfl := Option.some.inj (hsome.symm.trans hemit)
  obtain ⟨v, hv, hvid⟩ : ∃ v, .updateChannel v ∈ ops ∧ v.channelId = e.1 := by
    rw [Dict.mem_def, consolidation, keys_finalUpdates, List.mem_eraseDups, List.mem_filter] at hkey
    obtain ⟨op', hop', hid'⟩ := List.mem_filterMap.mp hkey.1
    cases op' with
    | updateChannel v => exact ⟨v, hop', Option.some.inj hid'⟩
    | _ => cases hid'
  obtain ⟨pre, post, hsplit, hresolves, -, -, hmem⟩ := hadmits.of_mem hv
  obtain ⟨hresolves, hmem⟩ := stays hs hn hadmits hc hsplit (hvid ▸ hresolves) (hvid ▸ hmem)
  refine ⟨hid ▸ hresolves, ?_, ?_, hid ▸ hmem⟩
  · rw [hdata, group_mergedData, hmerged]
    cases hgroup : (writtenTo e.1 ops).channelGroupId with
    | none => exact fun g hg => by cases hg
    | some g =>
      obtain ⟨w, hw, -, hwg⟩ := exists_update_of_group hgroup
      obtain ⟨-, -, -, -, hresolved, -⟩ := hadmits.of_mem hw
      rwa [hwg] at hresolved
  · apply expectationHolds_emitUpdate (sourced_consolidation _ _ ops) hget _ hsome
    intro w hw
    obtain ⟨-, -, -, -, -, hexpected, -⟩ := hadmits.of_mem hw
    exact hexpected

theorem admits_emitRanges (hs : AtStart s) (hn : Numberable ops) (hadmits : s.AdmitsAll ctx ops)
    (hop : op ∈ emitRanges (rangeEntries (consolidation ops))) :
    (s.leftBy ctx (keptOps ops ops)).Admits ctx op := by
  obtain ⟨run, hrun, rfl⟩ := List.mem_map.mp hop
  intro c hc
  obtain ⟨e, he, rfl⟩ := List.mem_map.mp hc
  have hentry : (e.1, e.2) ∈ rangeEntries (consolidation ops) := by
    rw [← flatten_rangeRuns (rangeEntries (consolidation ops))]
    exact List.mem_flatten.mpr ⟨run, hrun, he⟩
  have hkey := Dict.mem_of_get? (mem_rangeEntries.mp hentry).1
  have hc := (filed_consolidateOperations ops).numbers e.1 hkey
  rw [Dict.mem_def, consolidation, keys_finalNumbers, List.mem_eraseDups, List.mem_filter] at hkey
  obtain ⟨op', hop', hid⟩ := List.mem_flatMap.mp hkey.1
  cases op' with
  | bulkAssignChannelNumbers r =>
    obtain ⟨pre, post, hsplit, hrange⟩ := hadmits.of_mem hop'
    exact stays hs hn hadmits hc hsplit (hrange e.1 hid).1 (hrange e.1 hid).2
  | _ => cases hid

theorem admitsAll_tail (hs : AtStart s) (hn : Numberable ops) (hadmits : s.AdmitsAll ctx ops) :
    (s.leftBy ctx (keptOps ops ops)).AdmitsAll ctx
      (emitUpdates (consolidation ops) ++ emitRanges (rangeEntries (consolidation ops))) := by
  apply admitsAll_writes
  · intro op hop
    rcases List.mem_append.mp hop with hop | hop
    · exact .inl (mem_emitUpdates hop)
    · exact .inr (mem_emitRanges hop)
  · intro op hop
    rcases List.mem_append.mp hop with hop | hop
    · exact admits_emitUpdates hs hn hadmits hop
    · exact admits_emitRanges hs hn hadmits hop

theorem emitOrderedOps_eq (ops : List BulkOperation) : emitOrderedOps (consolidation ops) =
    (keptOps ops ops).map (emitOrdered (consolidation ops).numberOwner) := by
  rw [emitOrderedOps, consolidation, orderedOps_consolidation, keptOps]

/-- The consolidated list runs exactly when the operations that keep their place do. -/
theorem admitsAll_consolidateOperations (hs : AtStart s) (hn : Numberable ops)
    (hadmits : s.AdmitsAll ctx ops) :
    s.AdmitsAll ctx (consolidateOperations ops) ↔ s.AdmitsAll ctx (keptOps ops ops) := by
  rw [consolidateOperations_eq, List.append_assoc, CommitStore.admitsAll_append, emitOrderedOps_eq,
    (SameButNumbers.refl s).admitsAll_emitOrdered]
  refine and_iff_left_of_imp fun _ => ?_
  exact ((SameButNumbers.refl s).leftBy_emitOrdered _ _).admitsAll (admitsAll_tail hs hn hadmits)

theorem sameButNumbers_consolidateOperations (ops : List BulkOperation) :
    SameButNumbers ((s.leftBy ctx (keptOps ops ops)).leftBy ctx (emitUpdates (consolidation ops)))
      (s.leftBy ctx (consolidateOperations ops)) := by
  rw [consolidateOperations_eq, CommitStore.leftBy_append, CommitStore.leftBy_append,
    emitOrderedOps_eq]
  exact (((SameButNumbers.refl s).leftBy_emitOrdered _ _).leftBy _).trans
    (sameButNumbers_emitRanges _ _)

theorem around_leftBy_emitUpdates (acc : Consolidation)
    (hfiled : Filed (channelsToDelete ops) acc) :
    (s.leftBy ctx (emitUpdates acc)).around = s.around := by
  have hupdates : ∀ (us : List BulkOperation) (s : CommitStore),
      (∀ op ∈ us, ∃ u, op = .updateChannel u) → (s.leftBy ctx us).around = s.around := by
    intro us
    induction us with
    | nil => exact fun _ _ => rfl
    | cons op us ih =>
      intro s hus
      obtain ⟨u, rfl⟩ := hus op List.mem_cons_self
      exact ih (s.landed ctx (.updateChannel u)) fun op h => hus op (List.mem_cons_of_mem _ h)
  apply hupdates
  intro op hop
  obtain ⟨e, -, hemit⟩ := List.mem_filterMap.mp hop
  obtain ⟨u, hu, -⟩ := emitUpdate_eq_some hfiled hemit
  exact ⟨u, hu⟩

/-- Numbers aside, what the consolidated list leaves of a channel is what the operations in their
place leave of it, with all that its updates have written. -/
theorem unnumbered_consolidateOperations (hc : c ∉ channelsToDelete ops) :
    ((s.leftBy ctx (consolidateOperations ops)).channels.get? c).map Channel.unnumbered =
      ((s.leftBy ctx (keptOps ops ops)).channels.get? c).map fun channel =>
        (channel.patch (writtenTo c ops)).unnumbered := by
  rw [← (sameButNumbers_consolidateOperations ops).channel c,
    get?_leftBy_emitUpdates (filed_consolidateOperations ops), Option.map_map]
  congr 1
  funext channel
  rw [Function.comp_apply, ← finalUpdates_getD (channelsToCreate ops) hc ops]
  change _ = (channel.patch (((consolidation ops).finalUpdates.get? c).getD {})).unnumbered
  cases (consolidation ops).finalUpdates.get? c with
  | none => rw [Option.elim_none, Option.getD_none, Channel.patch_empty]
  | some patch =>
    rw [Option.elim_some, Option.getD_some, mergedData]
    split <;> rfl

/-- Both runs leave a surviving channel on one number. -/
theorem number_consolidateOperations (hn : Numberable ops) (hc : c ∉ channelsToDelete ops)
    {channel channel' : Channel} (h : (s.leftBy ctx ops).channels.get? c = some channel)
    (h' : (s.leftBy ctx (consolidateOperations ops)).channels.get? c = some channel') :
    channel'.channelNumber = channel.channelNumber := by
  rw [CommitStore.channelNumber_leftBy h, CommitStore.channelNumber_leftBy h',
    lastWrite_consolidateOperations hn.nodup_creates hc]

/-- A channel that is deleted is gone after both runs. -/
theorem get?_of_deleted (hs : AtStart s) (hn : Numberable ops) (hc : c ∈ channelsToDelete ops) :
    (s.leftBy ctx ops).channels.get? c = none ∧
      (s.leftBy ctx (consolidateOperations ops)).channels.get? c = none := by
  refine ⟨CommitStore.get?_leftBy_of_deleted hn.not_recreated hc, ?_⟩
  by_cases hcreate : c ∈ channelsToCreate ops
  · apply CommitStore.get?_leftBy_of_uncreated
    · rw [channelsToCreate_consolidateOperations, List.mem_filter]
      simp [hc]
    · rw [Dict.get?_eq_none]
      intro hmem
      have := hs.nonneg c hmem
      have := neg_of_mem_channelsToCreate hcreate
      omega
  · apply CommitStore.get?_leftBy_of_deleted
    · exact (numberable_consolidateOperations hn.nodup_creates).not_recreated
    · exact mem_channelsToDelete_consolidateOperations.mpr ⟨hc, fun h => hcreate h.2⟩

/-- A list that was written is still the channel's exactly when it stands. -/
theorem Ahead.streams_eq_iff {t a : Channel} (h : Ahead c ops t a) :
    (writtenTo c ops).streams.getD t.streams = a.streams ↔
      standingStreams c ops = (writtenTo c ops).streams := by
  rw [h.streams]
  have hsome : (standingStreams c ops).isSome ↔ (writtenTo c ops).streams.isSome :=
    isSome_standingStreams
  cases hw : (writtenTo c ops).streams with
  | none =>
    rw [hw, Option.isSome_none, Bool.false_eq_true, iff_false, Bool.not_eq_true,
      Option.isSome_eq_false_iff, Option.isNone_iff_eq_none] at hsome
    simp [hsome]
  | some written =>
    rw [hw] at hsome
    obtain ⟨standing, hs⟩ := Option.isSome_iff_exists.mp (hsome.mpr rfl)
    simp [hs, eq_comm]

theorem Ahead.group_eq_iff {store : CommitStore} {t a : Channel} (h : Ahead c ops t a)
    (hkept : GroupKept c ops store) (ha : store.channels.get? c = some a) :
    (writtenTo c ops).channelGroupId.getD t.channelGroupId = a.channelGroupId ↔
      standingGroup c ops = (writtenTo c ops).channelGroupId := by
  cases hw : (writtenTo c ops).channelGroupId with
  | none =>
    have hnone : standingGroup c ops = none := by
      by_contra hsome
      exact hsome ((standingGroup_eq (Option.isSome_iff_ne_none.mpr hsome)).trans hw)
    rw [Option.getD_none, h.group hw, hnone]
    exact iff_of_true rfl rfl
  | some group =>
    rcases hkept a ha group hw with ⟨hstands, heq⟩ | ⟨hstands, g, rfl, hne, -⟩
    · rw [Option.getD_some, hstands, heq]
      exact iff_of_true rfl rfl
    · rw [Option.getD_some, hstands]
      exact iff_of_false (Ne.symm hne) (by simp)

/-- A surviving channel is the same after both runs exactly when what was last written to its list
and its group still stands. -/
theorem get?_consolidateOperations_iff (hs : AtStart s) (hn : Numberable ops)
    (hadmits : s.AdmitsAll ctx ops) (hc : c ∉ channelsToDelete ops) :
    (s.leftBy ctx (consolidateOperations ops)).channels.get? c =
        (s.leftBy ctx ops).channels.get? c ↔
      standingStreams c ops = (writtenTo c ops).streams ∧
        standingGroup c ops = (writtenTo c ops).channelGroupId := by
  have hrel :=
    (runsAhead_of_split hs hn hadmits (List.append_nil ops).symm).channel c fun h => hc h.2
  have hleft :
      ((s.leftBy ctx (consolidateOperations ops)).channels.get? c).map Channel.unnumbered = _ :=
    unnumbered_consolidateOperations hc
  have hkept : GroupKept c ops (s.leftBy ctx ops) :=
    groupKept_run hs hn hadmits (List.append_nil ops).symm
  rcases ht : (s.leftBy ctx (keptOps ops ops)).channels.get? c with _ | t <;>
    rcases ha : (s.leftBy ctx ops).channels.get? c with _ | a <;>
    rw [ht, ha] at hrel <;> cases hrel <;> rw [ht] at hleft
  · rw [Option.map_none, Option.map_eq_none_iff] at hleft
    obtain ⟨hw, hstreams, hg⟩ := written_of_untouched fun u hu => hadmits.untouched hc ha hu
    simp [hleft, hw, hstreams, hg]
  · rename_i hahead
    obtain ⟨b, hb, heq⟩ := Option.map_eq_some_iff.mp hleft
    have hnumber := number_consolidateOperations hn hc ha hb
    have hrecord : b = { t.patch (writtenTo c ops) with channelNumber := a.channelNumber } := by
      rw [← hnumber]
      calc b = { b.unnumbered with channelNumber := b.channelNumber } := rfl
        _ = { (t.patch (writtenTo c ops)).unnumbered with channelNumber := b.channelNumber } := by
          rw [heq]
    rw [hb, Option.some.injEq, ← hahead.streams_eq_iff, ← hahead.group_eq_iff hkept ha, hrecord]
    constructor
    · intro hsame
      exact ⟨congrArg Channel.streams hsame, congrArg Channel.channelGroupId hsame⟩
    · rintro ⟨hstreams, hgroup⟩
      rw [hahead.record, ← hahead.streams, ← hstreams, ← hgroup]
      rfl

theorem around_consolidateOperations (hs : AtStart s) (hn : Numberable ops)
    (hadmits : s.AdmitsAll ctx ops) :
    (s.leftBy ctx (consolidateOperations ops)).around = (s.leftBy ctx ops).around := by
  rw [← (sameButNumbers_consolidateOperations ops).around,
    around_leftBy_emitUpdates _ (filed_consolidateOperations ops)]
  exact (runsAhead_of_split hs hn hadmits (List.append_nil ops).symm).around

/-- What the operations that keep their place do when they all run. -/
theorem admits_of_kept (hkept : s.AdmitsAll ctx (keptOps ops ops)) {post : List BulkOperation}
    (hops : ops = pre ++ op :: post)
    (hkeep : passesThrough (channelsToDelete ops) (channelsToCreate ops) op = true) :
    (s.leftBy ctx (keptOps ops pre)).Admits ctx op := by
  have hsplit : keptOps ops ops = keptOps ops pre ++ op :: keptOps ops post := by
    rw [keptOps, keptOps, keptOps]
    conv_lhs => rw [hops]
    rw [List.filter_append, List.filter_cons_of_pos]
    · rw [← hops]
    · rwa [← hops]
  rw [hsplit, CommitStore.admitsAll_append] at hkept
  exact hkept.2.1

theorem hoistable_of_same (hs : AtStart s) (hn : Numberable ops) (hadmits : s.AdmitsAll ctx ops)
    (hruns : s.AdmitsAll ctx (consolidateOperations ops))
    (hsame : SameStore (s.leftBy ctx (consolidateOperations ops)) (s.leftBy ctx ops)) :
    Hoistable ctx s ops := by
  have hkept := (admitsAll_consolidateOperations hs hn hadmits).mp hruns
  constructor
  · intro p c enabled hop hc
    obtain ⟨pre, post, hsplit⟩ := List.append_of_mem hop
    have hresolves : (s.leftBy ctx (keptOps ops pre)).resolves c := admits_of_kept hkept hsplit rfl
    have hneg := neg_of_mem_channelsToCreate hc.1
    have hmem := hresolves.resolve_left (not_le.mpr hneg)
    exact (((runsAhead_of_split hs hn hadmits hsplit).created c).mp hmem).2 hc.2
  · intro pre c xs post hsplit hc
    refine (admits_of_kept hkept hsplit ?_).2.2
    simp only [passesThrough, Bool.not_eq_true', decide_eq_false_iff_not]
    exact fun h => hc h.2
  · intro pre g post hsplit
    exact (admits_of_kept hkept hsplit rfl).1
  · exact fun c hc => ((get?_consolidateOperations_iff hs hn hadmits hc).mp (hsame.channel c)).1
  · exact fun c hc => ((get?_consolidateOperations_iff hs hn hadmits hc).mp (hsame.channel c)).2

theorem same_of_hoistable (hs : AtStart s) (hn : Numberable ops) (hadmits : s.AdmitsAll ctx ops)
    (h : Hoistable ctx s ops) : s.AdmitsAll ctx (consolidateOperations ops) ∧
      SameStore (s.leftBy ctx (consolidateOperations ops)) (s.leftBy ctx ops) := by
  refine ⟨?_, around_consolidateOperations hs hn hadmits, fun c => ?_⟩
  · rw [admitsAll_consolidateOperations hs hn hadmits]
    exact admitsAll_keptOps hs hn hadmits h (List.append_nil ops).symm
  · by_cases hc : c ∈ channelsToDelete ops
    · rw [(get?_of_deleted hs hn hc).1, (get?_of_deleted hs hn hc).2]
    · exact (get?_consolidateOperations_iff hs hn hadmits hc).mpr ⟨h.streams c hc, h.group c hc⟩

end Consolidated

section News

/-- A channel with one stream, in a group of its own. -/
def newsStore : CommitStore where
  channels :=
    ⟨[(1, { id := 1, name := "News", channelGroupId := some 3, streams := [7] })], by decide⟩
  around := { groups := [⟨3, "News"⟩], nextGroupId := 4 }

theorem atStart_newsStore : AtStart newsStore :=
  ⟨rfl, by decide, by simp [newsStore, Surroundings.hasGroup]⟩

end News

end ChannelManager
