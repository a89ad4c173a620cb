import ChannelManager.Bulk.Landing

/-!
# Operations in their place, updates left out

The operations that keep their place run as they were submitted, while the updates around them come
later. What the two runs hold of a channel differs by what the updates before have written to it;
only a stream operation after a written list, and a group deletion after a written group, can make
the difference more than that.
-/

namespace ChannelManager

/-! ## What the updates have written -/

def writtenStep (c : ℤ) (written : ChannelPatch) : BulkOperation → ChannelPatch
  | .updateChannel u => if u.channelId = c then written.update u.data else written
  | _ => written

/-- The updates of a channel, merged. -/
def writtenTo (c : ℤ) (ops : List BulkOperation) : ChannelPatch := ops.foldl (writtenStep c) {}

def standingStreamsStep (c : ℤ) (streams : Option (List ℤ)) : BulkOperation → Option (List ℤ)
  | .updateChannel u => if u.channelId = c then u.data.streams.or streams else streams
  | .addStreamToChannel d x => if d = c then streams.map (withStream · x) else streams
  | .removeStreamFromChannel d x => if d = c then streams.map (·.erase x) else streams
  | .reorderChannelStreams d xs => if d = c then streams.map fun _ => xs else streams
  | _ => streams

/-- The list an update wrote last to a channel, as the stream operations after it leave it. -/
def standingStreams (c : ℤ) (ops : List BulkOperation) : Option (List ℤ) :=
  ops.foldl (standingStreamsStep c) none

def standingGroupStep (c : ℤ) (group : Option (Option ℤ)) : BulkOperation → Option (Option ℤ)
  | .updateChannel u => if u.channelId = c then u.data.channelGroupId.or group else group
  | .deleteChannelGroup g => if group = some (some g) then none else group
  | _ => group

/-- The group an update wrote last to a channel, unless it is deleted afterwards. -/
def standingGroup (c : ℤ) (ops : List BulkOperation) : Option (Option ℤ) :=
  ops.foldl (standingGroupStep c) none

section Written

variable {c : ℤ} {ops : List BulkOperation} {op : BulkOperation}

theorem writtenTo_concat : writtenTo c (ops ++ [op]) = writtenStep c (writtenTo c ops) op :=
  List.foldl_concat ..

theorem standingStreams_concat :
    standingStreams c (ops ++ [op]) = standingStreamsStep c (standingStreams c ops) op :=
  List.foldl_concat ..

theorem standingGroup_concat :
    standingGroup c (ops ++ [op]) = standingGroupStep c (standingGroup c ops) op :=
  List.foldl_concat ..

/-- A list stands exactly where one has been written. -/
theorem isSome_standingStreams :
    (standingStreams c ops).isSome ↔ (writtenTo c ops).streams.isSome := by
  induction ops using List.reverseRecOn with
  | nil => rfl
  | append_singleton ops op ih =>
    rw [standingStreams_concat, writtenTo_concat]
    cases op with
    | updateChannel u =>
      simp only [standingStreamsStep, writtenStep]
      split
      next => cases hu : u.data.streams <;> simp [ChannelPatch.update, hu, ih]
      next => exact ih
    | addStreamToChannel _ _ | removeStreamFromChannel _ _ | reorderChannelStreams _ _ =>
      simp only [standingStreamsStep, writtenStep]
      split
      · rw [Option.isSome_map, ih]
      · exact ih
    | _ => exact ih

/-- A group that stands is the one written last. -/
theorem standingGroup_eq (h : (standingGroup c ops).isSome) :
    standingGroup c ops = (writtenTo c ops).channelGroupId := by
  induction ops using List.reverseRecOn with
  | nil => rfl
  | append_singleton ops op ih =>
    rw [standingGroup_concat] at h ⊢
    rw [writtenTo_concat]
    cases op with
    | updateChannel u =>
      simp only [standingGroupStep, writtenStep] at h ⊢
      split at h
      next hu =>
        rw [if_pos hu, if_pos hu]
        cases hg : u.data.channelGroupId with
        | none =>
          rw [hg, Option.none_or] at h
          simp [ChannelPatch.update, hg, ih h]
        | some g => simp [ChannelPatch.update, hg]
      next hu =>
        rw [if_neg hu, if_neg hu]
        exact ih h
    | deleteChannelGroup g =>
      simp only [standingGroupStep, writtenStep] at h ⊢
      split at h
      · cases h
      · rename_i hne
        rw [if_neg hne]
        exact ih h
    | _ => exact ih h

theorem written_of_untouched (h : ∀ u, .updateChannel u ∈ ops → u.channelId ≠ c) :
    writtenTo c ops = {} ∧ standingStreams c ops = none ∧ standingGroup c ops = none := by
  induction ops using List.reverseRecOn with
  | nil => exact ⟨rfl, rfl, rfl⟩
  | append_singleton ops op ih =>
    obtain ⟨hw, hs, hg⟩ := ih fun u hu => h u (List.mem_append_left _ hu)
    rw [writtenTo_concat, standingStreams_concat, standingGroup_concat, hw, hs, hg]
    cases op with
    | updateChannel u =>
      have hu := h u (by simp)
      simp [writtenStep, standingStreamsStep, standingGroupStep, hu]
    | _ => simp [writtenStep, standingStreamsStep, standingGroupStep]

/-- What has been merged was written by some update. -/
theorem exists_update_of_group {g : Option ℤ} (h : (writtenTo c ops).channelGroupId = some g) :
    ∃ u, .updateChannel u ∈ ops ∧ u.channelId = c ∧ u.data.channelGroupId = some g := by
  induction ops using List.reverseRecOn with
  | nil => cases h
  | append_singleton ops op ih =>
    have hearlier : (writtenTo c ops).channelGroupId = some g →
        ∃ u, .updateChannel u ∈ ops ++ [op] ∧ u.channelId = c ∧ u.data.channelGroupId = some g := by
      intro h
      obtain ⟨u, hu, hrest⟩ := ih h
      exact ⟨u, List.mem_append_left _ hu, hrest⟩
    rw [writtenTo_concat] at h
    cases op with
    | updateChannel u =>
      simp only [writtenStep] at h
      split at h
      next hu =>
        rcases Option.or_eq_some_iff.mp h with hg | ⟨-, hg⟩
        · exact ⟨u, by simp, hu, hg⟩
        · exact hearlier hg
      next => exact hearlier h
    | _ => exact hearlier h

end Written

/-! ## The two runs -/

/-- What a channel holds in submitted order, `a`, beside what it holds with the updates left out. -/
structure Ahead (c : ℤ) (ops : List BulkOperation) (t a : Channel) : Prop where
  record : a = { t.patch (writtenTo c ops) with
    channelNumber := a.channelNumber
    channelGroupId := a.channelGroupId
    streams := (standingStreams c ops).getD t.streams }
  group : (writtenTo c ops).channelGroupId = none → a.channelGroupId = t.channelGroupId

variable {ctx : LandingContext} {c : ℤ} {pre : List BulkOperation} {op : BulkOperation}

theorem Ahead.streams {t a : Channel} (h : Ahead c pre t a) :
    a.streams = (standingStreams c pre).getD t.streams := congrArg Channel.streams h.record

theorem Ahead.update {t a : Channel} (h : Ahead c pre t a) {u : BulkUpdateChannelOp}
    (hu : u.channelId = c) : Ahead c (pre ++ [.updateChannel u]) t (a.patch u.data) := by
  have hw : writtenTo c (pre ++ [.updateChannel u]) = (writtenTo c pre).update u.data := by
    rw [writtenTo_concat, writtenStep, if_pos hu]
  have hs : standingStreams c (pre ++ [.updateChannel u]) =
      u.data.streams.or (standingStreams c pre) := by
    rw [standingStreams_concat, standingStreamsStep, if_pos hu]
  constructor
  · rw [hw, hs, ← Channel.patch_patch, h.record]
    simp only [Channel.patch, Option.getD_or]
  · rw [hw]
    intro hnone
    obtain ⟨hdata, hbefore⟩ := Option.or_eq_none_iff.mp hnone
    rw [Channel.patch, hdata, Option.getD_none]
    exact h.group hbefore

/-- An operation that is no update of the channel and changes the record alike on both sides. -/
theorem Ahead.alike {t a t' a' : Channel} (h : Ahead c pre t a)
    (hop : writtenStep c (writtenTo c pre) op = writtenTo c pre)
    (ht : t' = { t with channelGroupId := t'.channelGroupId, streams := t'.streams })
    (ha : a' = { a with
      channelNumber := a'.channelNumber
      channelGroupId := a'.channelGroupId
      streams := (standingStreamsStep c (standingStreams c pre) op).getD t'.streams })
    (hgroup : a.channelGroupId = t.channelGroupId → a'.channelGroupId = t'.channelGroupId) :
    Ahead c (pre ++ [op]) t' a' := by
  have hw : writtenTo c (pre ++ [op]) = writtenTo c pre := by rw [writtenTo_concat, hop]
  constructor
  · rw [hw, standingStreams_concat, ha, h.record, ht]
    rfl
  · rw [hw]
    exact fun hnone => hgroup (h.group hnone)

/-- An operation on something else. -/
theorem ahead_untouched {t a : Option Channel} (h : Option.Rel (Ahead c pre) t a)
    (hw : writtenStep c (writtenTo c pre) op = writtenTo c pre)
    (hs : standingStreamsStep c (standingStreams c pre) op = standingStreams c pre) :
    Option.Rel (Ahead c (pre ++ [op])) t a := by
  cases h with
  | none => exact .none
  | some hta =>
    refine .some (hta.alike hw rfl ?_ fun hgroup => hgroup)
    rw [hs, ← hta.streams]

/-- An update that waits has been written on the one side only. -/
theorem ahead_update {around : Surroundings} {t a : Option Channel}
    (h : Option.Rel (Ahead c pre) t a) (u : BulkUpdateChannelOp) :
    Option.Rel (Ahead c (pre ++ [.updateChannel u])) t
      (CommitStore.channelAfter ctx around c a (.updateChannel u)) := by
  rw [CommitStore.channelAfter]
  split
  next hu =>
    cases h with
    | none => exact .none
    | some hta => exact .some (hta.update hu)
  next hu =>
    exact ahead_untouched h (by rw [writtenStep, if_neg hu])
      (by rw [standingStreamsStep, if_neg hu])

/-- So has a range, which writes a number alone. -/
theorem ahead_range {around : Surroundings} {t a : Option Channel}
    (h : Option.Rel (Ahead c pre) t a) (r : BulkAssignNumbersOp) :
    Option.Rel (Ahead c (pre ++ [.bulkAssignChannelNumbers r])) t
      (CommitStore.channelAfter ctx around c a (.bulkAssignChannelNumbers r)) := by
  rw [CommitStore.channelAfter]
  cases h with
  | none => exact .none
  | some hta =>
    refine .some (hta.alike rfl rfl ?_ ?_)
    · simp only [standingStreamsStep, ← hta.streams]
      cases numberAt c r.assignments <;> rfl
    · cases numberAt c r.assignments <;> exact fun hgroup => hgroup

/-- An operation that keeps its place does the same to a channel in both runs. -/
theorem ahead_kept {around : Surroundings} {t a : Option Channel}
    (h : Option.Rel (Ahead c pre) t a) (hupdate : ∀ u, op ≠ .updateChannel u)
    (hrange : ∀ r, op ≠ .bulkAssignChannelNumbers r)
    (hfresh : ∀ k, op = .createChannel k → k.tempId = c →
      writtenTo c pre = {} ∧ standingStreams c pre = none) :
    Option.Rel (Ahead c (pre ++ [op])) (CommitStore.channelAfter ctx around c t op)
      (CommitStore.channelAfter ctx around c a op) := by
  cases op with
  | updateChannel u => exact absurd rfl (hupdate u)
  | bulkAssignChannelNumbers r => exact absurd rfl (hrange r)
  | createChannel k =>
    simp only [CommitStore.channelAfter]
    split
    next hk =>
      obtain ⟨hw, hs⟩ := hfresh k rfl hk
      refine .some ⟨?_, fun _ => rfl⟩
      rw [writtenTo_concat, standingStreams_concat, writtenStep, standingStreamsStep, hw, hs,
        Channel.patch_empty]
      · rfl
      all_goals simp
    next => exact ahead_untouched h rfl rfl
  | deleteChannel d =>
    simp only [CommitStore.channelAfter]
    split
    · exact .none
    · exact ahead_untouched h rfl rfl
  | addStreamToChannel d x | removeStreamFromChannel d x | reorderChannelStreams d x =>
    simp only [CommitStore.channelAfter]
    split
    next hd =>
      cases h with
      | none => exact .none
      | some hta =>
        refine .some (hta.alike rfl rfl ?_ fun hgroup => hgroup)
        rw [standingStreamsStep, if_pos hd]
        simp only [hta.streams]
        cases standingStreams c pre <;> rfl
    next hd => exact ahead_untouched h rfl (by rw [standingStreamsStep, if_neg hd])
  | deleteChannelGroup g =>
    simp only [CommitStore.channelAfter]
    cases h with
    | none => exact .none
    | some hta =>
      refine .some (hta.alike rfl rfl ?_ (congrArg (around.regrouped g)))
      simp only [standingStreamsStep, ← hta.streams]
  | _ => exact ahead_untouched h rfl rfl

/-- The run in submitted order, `a`, beside the run of the operations that keep their place, `t`. A
temporary channel that is created and deleted has no part in the second. -/
structure RunsAhead (toDelete toCreate : List ℤ) (pre : List BulkOperation) (t a : CommitStore) :
    Prop where
  around : t.around = a.around
  created : ∀ c, c ∈ t.created ↔ c ∈ a.created ∧ c ∉ toDelete
  channel : ∀ c, ¬(c ∈ toCreate ∧ c ∈ toDelete) →
    Option.Rel (Ahead c pre) (t.channels.get? c) (a.channels.get? c)

section RunsAhead

variable {ops : List BulkOperation} {t a : CommitStore}

/-- An operation that loses its place is none on a channel that is not cancelled. -/
theorem channelAfter_of_dropped {around : Surroundings} {channel : Option Channel} (hop : op ∈ ops)
    (hupdate : ∀ u, op ≠ .updateChannel u) (hrange : ∀ r, op ≠ .bulkAssignChannelNumbers r)
    (hdrop : passesThrough (channelsToDelete ops) (channelsToCreate ops) op = false)
    (hc : ¬(c ∈ channelsToCreate ops ∧ c ∈ channelsToDelete ops)) :
    CommitStore.channelAfter ctx around c channel op = channel := by
  cases op with
  | updateChannel u => exact absurd rfl (hupdate u)
  | bulkAssignChannelNumbers r => exact absurd rfl (hrange r)
  | addStreamToChannel d x | removeStreamFromChannel d x | reorderChannelStreams d x =>
    have hd : d ≠ c := by
      rintro rfl
      simp only [passesThrough, Bool.not_eq_false', decide_eq_true_eq] at hdrop
      exact hc hdrop.2
    simp only [CommitStore.channelAfter, if_neg hd]
  | createChannel k =>
    have hk : k.tempId ≠ c := by
      rintro rfl
      simp only [passesThrough, decide_eq_false_iff_not, not_not] at hdrop
      exact hc ⟨mem_channelsToCreate.mpr ⟨k, hop, rfl⟩, hdrop⟩
    simp only [CommitStore.channelAfter, if_neg hk]
  | deleteChannel d =>
    have hd : d ≠ c := by
      rintro rfl
      simp only [passesThrough, Bool.not_eq_false', decide_eq_true_eq] at hdrop
      exact hc ⟨hdrop.2, mem_channelsToDelete.mpr hop⟩
    simp only [CommitStore.channelAfter, if_neg hd]
  | _ => cases hdrop

theorem landed_of_dropped {around : Surroundings}
    (hdrop : passesThrough (channelsToDelete ops) (channelsToCreate ops) op = false) :
    around.landed op = around := by
  cases op with
  | createGroup _ | deleteChannelGroup _ | renameChannelGroup _ _ | setProfileMembership _ _ _
  | restoreChannelGroup _ | clearStreamStats _ => cases hdrop
  | _ => rfl

/-- One operation, kept in its place or not. -/
theorem RunsAhead.step (h : RunsAhead (channelsToDelete ops) (channelsToCreate ops) pre t a)
    (hop : op ∈ ops)
    (hfresh : ∀ k, op = .createChannel k →
      writtenTo k.tempId pre = {} ∧ standingStreams k.tempId pre = none) :
    RunsAhead (channelsToDelete ops) (channelsToCreate ops) (pre ++ [op])
      (if passesThrough (channelsToDelete ops) (channelsToCreate ops) op then t.landed ctx op
        else t)
      (a.landed ctx op) := by
  constructor
  · split
    · rw [CommitStore.around_landed, CommitStore.around_landed, h.around]
    · rename_i hdrop
      rw [CommitStore.around_landed, landed_of_dropped (Bool.eq_false_iff.mpr hdrop), h.around]
  · intro c
    cases op with
    | createChannel k =>
      by_cases hk : k.tempId ∈ channelsToDelete ops <;>
        simp only [passesThrough, hk, not_true, not_false_eq_true, decide_true, decide_false,
          Bool.false_eq_true, if_true, if_false, CommitStore.created_landed,
          BulkOperation.createdTempId?, Option.toList_some, List.mem_append, List.mem_singleton,
          h.created c]
      · constructor
        · exact fun hc => ⟨.inl hc.1, hc.2⟩
        · rintro ⟨hc | rfl, hkeep⟩
          · exact ⟨hc, hkeep⟩
          · exact absurd hk hkeep
      · constructor
        · rintro (hc | rfl)
          · exact ⟨.inl hc.1, hc.2⟩
          · exact ⟨.inr rfl, hk⟩
        · rintro ⟨hc | rfl, hkeep⟩
          · exact .inl ⟨hc, hkeep⟩
          · exact .inr rfl
    | _ =>
      split <;> simpa [CommitStore.created_landed, BulkOperation.createdTempId?] using h.created c
  · intro c hc
    rw [CommitStore.get?_landed, ← h.around]
    have hkept : (∀ u, op ≠ .updateChannel u) → (∀ r, op ≠ .bulkAssignChannelNumbers r) →
        (if passesThrough (channelsToDelete ops) (channelsToCreate ops) op then t.landed ctx op
          else t).channels.get? c =
            CommitStore.channelAfter ctx t.around c (t.channels.get? c) op := by
      intro hupdate hrange
      split
      · exact CommitStore.get?_landed c
      · rename_i hdrop
        exact (channelAfter_of_dropped hop hupdate hrange (Bool.eq_false_iff.mpr hdrop) hc).symm
    cases op with
    | updateChannel u => exact ahead_update (h.channel c hc) u
    | bulkAssignChannelNumbers r => exact ahead_range (h.channel c hc) r
    | _ =>
      rw [hkept (by simp) (by simp)]
      exact ahead_kept (h.channel c hc) (by simp) (by simp) fun k hk hid => hid ▸ hfresh k hk

/-- The store as a commit finds it: Dispatcharr's ids are primary keys, never staging placeholders,
and the next group gets an id no group has had. -/
structure AtStart (s : CommitStore) : Prop where
  created : s.created = []
  nonneg : ∀ c ∈ s.channels, 0 ≤ c
  groups : ∀ g, s.around.hasGroup g → g < s.around.nextGroupId

/-- The operations of a request that keep their place, of those in a part of it. -/
def keptOps (ops pre : List BulkOperation) : List BulkOperation :=
  pre.filter (passesThrough (channelsToDelete ops) (channelsToCreate ops))

theorem keptOps_concat : keptOps ops (pre ++ [op]) =
    if passesThrough (channelsToDelete ops) (channelsToCreate ops) op then keptOps ops pre ++ [op]
    else keptOps ops pre := by
  rw [keptOps, List.filter_append, keptOps]
  split <;> simp_all

variable {s : CommitStore}

/-- A create names a channel that no update before it is of. -/
theorem unwritten_of_create {k : BulkCreateChannelOp} {post : List BulkOperation} (hs : AtStart s)
    (hn : Numberable ops) (hops : ops = pre ++ .createChannel k :: post)
    (hadmits : s.AdmitsAll ctx pre) :
    writtenTo k.tempId pre = {} ∧ standingStreams k.tempId pre = none ∧
      standingGroup k.tempId pre = none := by
  obtain ⟨hcreate, hdelete⟩ :
      k.tempId ∉ channelsToCreate pre ∧ k.tempId ∉ channelsToDelete pre := by
    constructor
    · intro hmem
      have hnodup := hn.nodup_creates
      rw [hops, channelsToCreate_append] at hnodup
      exact (List.disjoint_of_nodup_append hnodup) hmem
        (mem_channelsToCreate.mpr ⟨k, List.mem_cons_self, rfl⟩)
    · intro hmem
      obtain ⟨pre', post', rfl⟩ := List.append_of_mem (mem_channelsToDelete.mp hmem)
      apply hn.not_recreated pre' k.tempId (post' ++ .createChannel k :: post) (by simp [hops])
      rw [channelsToCreate_append]
      exact List.mem_append_right _ (mem_channelsToCreate.mpr ⟨k, List.mem_cons_self, rfl⟩)
  have hnone : s.channels.get? k.tempId = none := by
    rw [Dict.get?_eq_none]
    intro hmem
    have := hs.nonneg _ hmem
    have := k.tempId_neg
    omega
  exact written_of_untouched fun u hu => hadmits.untouched hdelete
    (CommitStore.get?_leftBy_of_uncreated hcreate hnone) hu

theorem runsAhead_of_split (hs : AtStart s) (hn : Numberable ops) (hadmits : s.AdmitsAll ctx ops)
    {post : List BulkOperation} (hops : ops = pre ++ post) :
    RunsAhead (channelsToDelete ops) (channelsToCreate ops) pre (s.leftBy ctx (keptOps ops pre))
      (s.leftBy ctx pre) := by
  induction pre using List.reverseRecOn generalizing post with
  | nil =>
    refine ⟨rfl, fun c => by simp [keptOps, hs.created], fun c _ => ?_⟩
    change Option.Rel _ (s.channels.get? c) (s.channels.get? c)
    cases s.channels.get? c with
    | none => exact .none
    | some channel => exact .some ⟨(Channel.patch_empty channel).symm, fun _ => rfl⟩
  | append_singleton pre op ih =>
    have hsplit : ops = pre ++ op :: post := by simp [hops]
    have hbefore : s.AdmitsAll ctx pre := by
      rw [hsplit, CommitStore.admitsAll_append] at hadmits
      exact hadmits.1
    have hstep : RunsAhead (channelsToDelete ops) (channelsToCreate ops) (pre ++ [op])
        (if passesThrough (channelsToDelete ops) (channelsToCreate ops) op then
          (s.leftBy ctx (keptOps ops pre)).landed ctx op else s.leftBy ctx (keptOps ops pre))
        ((s.leftBy ctx pre).landed ctx op) := by
      refine (ih hsplit).step (by simp [hsplit]) fun k hk => ?_
      obtain ⟨hw, hst, -⟩ := unwritten_of_create hs hn (hk ▸ hsplit) hbefore
      exact ⟨hw, hst⟩
    rw [keptOps_concat, CommitStore.leftBy_concat]
    split at hstep
    next hkeep => rwa [if_pos hkeep, CommitStore.leftBy_concat]
    next hdrop => rwa [if_neg hdrop]

end RunsAhead

/-! ## Groups that go away -/

/-- The group an update wrote last is the channel's, or it has been deleted for good. -/
def GroupKept (c : ℤ) (ops : List BulkOperation) (a : CommitStore) : Prop :=
  ∀ channel, a.channels.get? c = some channel →
    ∀ group, (writtenTo c ops).channelGroupId = some group →
    (standingGroup c ops = some group ∧ channel.channelGroupId = group) ∨
      (standingGroup c ops = none ∧ ∃ g, group = some g ∧ channel.channelGroupId ≠ some g ∧
        ¬a.around.hasGroup g ∧ g < a.around.nextGroupId)

/-- A group is there from before, or it is the next one. -/
theorem hasGroup_of_landed {around : Surroundings} {g : ℤ} (h : (around.landed op).hasGroup g) :
    around.hasGroup g ∨
      g = around.nextGroupId ∧ (around.landed op).nextGroupId = around.nextGroupId + 1 := by
  cases op with
  | createGroup name =>
    by_cases hmem : name ∈ around.groupIdMap
    · rw [Surroundings.landed, if_pos hmem] at h
      exact .inl h
    · rw [Surroundings.landed, if_neg hmem] at h ⊢
      simpa [Surroundings.hasGroup] using h
  | deleteChannelGroup g' =>
    obtain ⟨x, hx, rfl⟩ := List.mem_map.mp h
    exact .inl (List.mem_map_of_mem (List.mem_filter.mp hx).1)
  | renameChannelGroup g' name =>
    obtain ⟨x, hx, rfl⟩ := List.mem_map.mp h
    obtain ⟨y, hy, rfl⟩ := List.mem_map.mp hx
    refine .inl (List.mem_map.mpr ⟨y, hy, ?_⟩)
    split <;> rfl
  | _ => exact .inl h

theorem nextGroupId_landed {around : Surroundings} :
    around.nextGroupId ≤ (around.landed op).nextGroupId := by
  cases op with
  | createGroup name =>
    simp only [Surroundings.landed]
    split
    · exact le_rfl
    · simp
  | _ => exact le_rfl

/-- A group that was deleted does not come back. -/
theorem hasGroup_landed {around : Surroundings} {g : ℤ} (hg : ¬around.hasGroup g)
    (hold : g < around.nextGroupId) : ¬(around.landed op).hasGroup g := by
  intro h
  rcases hasGroup_of_landed h with h | ⟨rfl, -⟩
  · exact hg h
  · exact lt_irrefl _ hold

theorem groups_landed {around : Surroundings} (h : ∀ g, around.hasGroup g → g < around.nextGroupId)
    {g : ℤ} (hg : (around.landed op).hasGroup g) : g < (around.landed op).nextGroupId := by
  rcases hasGroup_of_landed hg with hg | ⟨rfl, hnext⟩
  · exact (h g hg).trans_le nextGroupId_landed
  · omega

section GroupKept

variable {a : CommitStore}

/-- A store in which the channel has the group it had, under an operation that writes it none. -/
theorem GroupKept.same (h : GroupKept c pre a)
    (hw : writtenStep c (writtenTo c pre) op = writtenTo c pre)
    (hg : standingGroupStep c (standingGroup c pre) op = standingGroup c pre)
    (hchannel : ∀ channel, (a.landed ctx op).channels.get? c = some channel →
      ∃ before, a.channels.get? c = some before ∧ channel.channelGroupId = before.channelGroupId) :
    GroupKept c (pre ++ [op]) (a.landed ctx op) := by
  intro channel hget group hwritten
  obtain ⟨before, hbefore, hsame⟩ := hchannel channel hget
  rw [writtenTo_concat, hw] at hwritten
  rw [standingGroup_concat, hg, hsame]
  refine (h before hbefore group hwritten).imp id ?_
  rintro ⟨hstands, g, rfl, hne, hgone, hold⟩
  exact ⟨hstands, g, rfl, hne, hasGroup_landed hgone hold, hold.trans_le nextGroupId_landed⟩

theorem Surroundings.hasGroup_target {around : Surroundings} {target : ChannelGroup}
    (h : around.target = some target) : around.hasGroup target.id :=
  List.mem_map_of_mem (List.mem_of_find?_eq_some h)

/-- No channel is moved into a group that is not there. -/
theorem Surroundings.regrouped_ne {around : Surroundings} {g g' : ℤ} {group : Option ℤ}
    (hgone : ¬around.hasGroup g) (h : group ≠ some g) : around.regrouped g' group ≠ some g := by
  unfold Surroundings.regrouped
  split
  next target htarget =>
    split
    · rintro heq
      obtain rfl := Option.some.inj heq
      exact hgone (hasGroup_target htarget)
    · exact h
  next => exact h

/-- A member of a group that can be emptied leaves it. -/
theorem CommitStore.canEmpty.leaves {g : ℤ} (h : a.canEmpty g) {channel : Channel}
    (hget : a.channels.get? c = some channel) (hmember : channel.channelGroupId = some g) :
    a.around.regrouped g channel.channelGroupId ≠ some g := by
  rcases h with hnone | ⟨target, htarget, hne⟩
  · have hmem : channel ∈ a.membersOf g :=
      List.mem_filter.mpr ⟨Dict.mem_values.mpr ⟨c, hget⟩, by simpa using hmember⟩
    rw [hnone] at hmem
    cases hmem
  · rw [Surroundings.regrouped, htarget, hmember]
    simpa using hne

theorem GroupKept.deleteChannelGroup (h : GroupKept c pre a) {g : ℤ}
    (hadmits : a.Admits ctx (.deleteChannelGroup g))
    (hgroups : ∀ g, a.around.hasGroup g → g < a.around.nextGroupId) :
    GroupKept c (pre ++ [.deleteChannelGroup g]) (a.landed ctx (.deleteChannelGroup g)) := by
  intro channel hget group hwritten
  rw [CommitStore.get?_landed] at hget
  obtain ⟨before, hbefore, rfl⟩ := Option.map_eq_some_iff.mp hget
  rw [writtenTo_concat] at hwritten
  rw [standingGroup_concat, standingGroupStep]
  rcases h before hbefore group hwritten with ⟨hstands, rfl⟩ | ⟨hstands, g', rfl, hne, hgone, hold⟩
  · by_cases hmember : before.channelGroupId = some g
    · refine .inr ⟨by rw [hstands, hmember, if_pos rfl], g, hmember,
        hadmits.1.leaves hbefore hmember, ?_, hgroups g hadmits.2⟩
      simp [Surroundings.hasGroup, Surroundings.landed]
    · refine .inl ⟨?_, a.around.regrouped_of_ne hmember⟩
      rw [hstands, if_neg fun heq => hmember (Option.some.inj heq)]
  · exact .inr ⟨by rw [hstands]; rfl, g', rfl, Surroundings.regrouped_ne hgone hne,
      hasGroup_landed hgone hold, hold⟩

theorem GroupKept.updateChannel (h : GroupKept c pre a) (u : BulkUpdateChannelOp) :
    GroupKept c (pre ++ [.updateChannel u]) (a.landed ctx (.updateChannel u)) := by
  by_cases hu : u.channelId = c
  · intro channel hget group hwritten
    rw [CommitStore.get?_landed, CommitStore.channelAfter, if_pos hu] at hget
    obtain ⟨before, hbefore, rfl⟩ := Option.map_eq_some_iff.mp hget
    rw [writtenTo_concat, writtenStep, if_pos hu] at hwritten
    rw [standingGroup_concat, standingGroupStep, if_pos hu]
    cases hg : u.data.channelGroupId with
    | none =>
      simp only [ChannelPatch.update, hg, Option.none_or] at hwritten
      have hsame : (before.patch u.data).channelGroupId = before.channelGroupId := by
        rw [Channel.patch, hg, Option.getD_none]
      rw [Option.none_or, hsame]
      exact h before hbefore group hwritten
    | some g =>
      simp only [ChannelPatch.update, hg, Option.some_or, Option.some.injEq] at hwritten
      exact .inl ⟨by simp [hwritten], by simp [Channel.patch, hg, hwritten]⟩
  · refine h.same (by rw [writtenStep, if_neg hu]) (by rw [standingGroupStep, if_neg hu]) ?_
    intro channel hget
    rw [CommitStore.get?_landed, CommitStore.channelAfter, if_neg hu] at hget
    exact ⟨channel, hget, rfl⟩

theorem GroupKept.step (h : GroupKept c pre a) (hadmits : a.Admits ctx op)
    (hgroups : ∀ g, a.around.hasGroup g → g < a.around.nextGroupId)
    (hfresh : ∀ k, op = .createChannel k → writtenTo k.tempId pre = {}) :
    GroupKept c (pre ++ [op]) (a.landed ctx op) := by
  cases op with
  | updateChannel u => exact h.updateChannel u
  | deleteChannelGroup g => exact h.deleteChannelGroup hadmits hgroups
  | createChannel k =>
    by_cases hk : k.tempId = c
    · intro channel _ group hwritten
      rw [writtenTo_concat, writtenStep, ← hk, hfresh k rfl] at hwritten
      · cases hwritten
      · simp
    · refine h.same rfl rfl fun channel hget => ?_
      rw [CommitStore.get?_landed, CommitStore.channelAfter, if_neg hk] at hget
      exact ⟨channel, hget, rfl⟩
  | deleteChannel d =>
    refine h.same rfl rfl fun channel hget => ?_
    rw [CommitStore.get?_landed, CommitStore.channelAfter] at hget
    split at hget
    · cases hget
    · exact ⟨channel, hget, rfl⟩
  | bulkAssignChannelNumbers r =>
    refine h.same rfl rfl fun channel hget => ?_
    rw [CommitStore.get?_landed] at hget
    obtain ⟨before, hbefore, rfl⟩ := Option.map_eq_some_iff.mp hget
    refine ⟨before, hbefore, ?_⟩
    cases numberAt c r.assignments <;> rfl
  | addStreamToChannel d x | removeStreamFromChannel d x | reorderChannelStreams d x =>
    refine h.same rfl rfl fun channel hget => ?_
    rw [CommitStore.get?_landed, CommitStore.channelAfter] at hget
    split at hget
    · obtain ⟨before, hbefore, rfl⟩ := Option.map_eq_some_iff.mp hget
      exact ⟨before, hbefore, rfl⟩
    · exact ⟨channel, hget, rfl⟩
  | _ => exact h.same rfl rfl fun channel hget => ⟨channel, hget, rfl⟩

theorem groups_leftBy {ops : List BulkOperation} {s : CommitStore} (hs : AtStart s) {g : ℤ}
    (hg : (s.leftBy ctx ops).around.hasGroup g) : g < (s.leftBy ctx ops).around.nextGroupId := by
  induction ops using List.reverseRecOn generalizing g with
  | nil => exact hs.groups g hg
  | append_singleton ops op ih =>
    rw [CommitStore.leftBy_concat] at hg ⊢
    exact groups_landed (fun _ => ih) hg

theorem groupKept_run {ops post : List BulkOperation} {s : CommitStore} (hs : AtStart s)
    (hn : Numberable ops) (hadmits : s.AdmitsAll ctx ops) (hops : ops = pre ++ post) :
    GroupKept c pre (s.leftBy ctx pre) := by
  induction pre using List.reverseRecOn generalizing post with
  | nil => exact fun _ _ _ h => by cases h
  | append_singleton pre op ih =>
    have hsplit : ops = pre ++ op :: post := by simp [hops]
    have hbefore := hadmits
    rw [hsplit, CommitStore.admitsAll_append] at hbefore
    rw [CommitStore.leftBy_concat]
    exact (ih hsplit).step hbefore.2.1 (fun _ => groups_leftBy hs)
      fun k hk => (unwritten_of_create hs hn (hk ▸ hsplit) hbefore.1).1

end GroupKept

end ChannelManager
