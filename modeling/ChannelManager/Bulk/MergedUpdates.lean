import ChannelManager.Bulk.Hoisting
import ChannelManager.Bulk.ConsolidateConsent

/-!
# What the merged updates write

The operations of a consolidated list beside those that keep their place: the merged updates write
each channel once, with what its updates have written in submitted order, and the ranges write
numbers only.
-/

namespace ChannelManager

/-! ## Numbers aside -/

def Channel.unnumbered (channel : Channel) : Channel := { channel with channelNumber := none }

/-- The stores differ in channel numbers at most. -/
structure SameButNumbers (a b : CommitStore) : Prop where
  around : a.around = b.around
  created : a.created = b.created
  channel : ∀ c, (a.channels.get? c).map Channel.unnumbered =
    (b.channels.get? c).map Channel.unnumbered

namespace SameButNumbers

variable {ctx : LandingContext} {a b d : CommitStore} {op : BulkOperation}

theorem refl (a : CommitStore) : SameButNumbers a a := ⟨rfl, rfl, fun _ => rfl⟩

theorem symm (h : SameButNumbers a b) : SameButNumbers b a :=
  ⟨h.around.symm, h.created.symm, fun c => (h.channel c).symm⟩

theorem trans (h : SameButNumbers a b) (h' : SameButNumbers b d) : SameButNumbers a d :=
  ⟨h.around.trans h'.around, h.created.trans h'.created,
    fun c => (h.channel c).trans (h'.channel c)⟩

theorem exists_channel (h : SameButNumbers a b) {c : ℤ} {channel : Channel}
    (hget : a.channels.get? c = some channel) :
    ∃ channel', b.channels.get? c = some channel' ∧ channel.unnumbered = channel'.unnumbered := by
  have hc := h.channel c
  rw [hget, Option.map_some] at hc
  obtain ⟨channel', hget', heq⟩ := Option.map_eq_some_iff.mp hc.symm
  exact ⟨channel', hget', heq.symm⟩

theorem mem_iff (h : SameButNumbers a b) (c : ℤ) : c ∈ a.channels ↔ c ∈ b.channels := by
  have hc := congrArg Option.isSome (h.channel c)
  rw [Option.isSome_map, Option.isSome_map] at hc
  rw [CommitStore.mem_channels, CommitStore.mem_channels, hc]

theorem resolves_iff (h : SameButNumbers a b) (c : ℤ) : a.resolves c ↔ b.resolves c := by
  rw [CommitStore.resolves, h.created, CommitStore.resolves]

theorem permutes (h : SameButNumbers a b) {c : ℤ} {xs : List ℤ} (hp : a.permutes c xs) :
    b.permutes c xs := by
  intro channel hget
  obtain ⟨channel', hget', heq⟩ := h.symm.exists_channel hget
  have hstreams : channel.unnumbered.streams = channel'.unnumbered.streams := by rw [heq]
  change validateStreamPermutation channel.unnumbered.streams xs = none
  rw [hstreams]
  exact hp channel' hget'

theorem canEmpty (h : SameButNumbers a b) {g : ℤ} (hg : a.canEmpty g) : b.canEmpty g := by
  rcases hg with hnone | htarget
  · refine .inl (List.filter_eq_nil_iff.mpr fun channel hmem hgroup => ?_)
    obtain ⟨c, hget⟩ := Dict.mem_values.mp hmem
    obtain ⟨channel', hget', heq⟩ := h.symm.exists_channel hget
    have hsame : channel.unnumbered.channelGroupId = channel'.unnumbered.channelGroupId := by
      rw [heq]
    change decide (channel.unnumbered.channelGroupId = some g) = true at hgroup
    rw [hsame] at hgroup
    exact List.filter_eq_nil_iff.mp hnone channel' (Dict.mem_values.mpr ⟨c, hget'⟩) hgroup
  · exact .inr (h.around ▸ htarget)

/-- No branch asks for a number in the store. -/
theorem admits (h : SameButNumbers a b) (hop : a.Admits ctx op) : b.Admits ctx op := by
  cases op with
  | updateChannel u =>
    obtain ⟨hresolves, hgroup, hexpected, hmem⟩ := hop
    exact ⟨(h.resolves_iff _).mp hresolves, hgroup, hexpected, (h.mem_iff _).mp hmem⟩
  | addStreamToChannel c x =>
    obtain ⟨hresolves, hthere, hmem⟩ := hop
    exact ⟨(h.resolves_iff _).mp hresolves, hthere, (h.mem_iff _).mp hmem⟩
  | removeStreamFromChannel c x => exact ⟨(h.resolves_iff _).mp hop.1, (h.mem_iff _).mp hop.2⟩
  | reorderChannelStreams c xs =>
    obtain ⟨hresolves, hmem, hpermutes⟩ := hop
    exact ⟨(h.resolves_iff _).mp hresolves, (h.mem_iff _).mp hmem, h.permutes hpermutes⟩
  | bulkAssignChannelNumbers r =>
    intro c hc
    exact ⟨(h.resolves_iff _).mp (hop c hc).1, (h.mem_iff _).mp (hop c hc).2⟩
  | deleteChannel c => exact (h.resolves_iff _).mp hop
  | setProfileMembership p c enabled => exact (h.resolves_iff _).mp hop
  | deleteChannelGroup g => exact ⟨h.canEmpty hop.1, h.around ▸ hop.2⟩
  | createChannel k =>
    change groupResolved (b.around.resolveGroupId k.groupId k.newGroupName)
    exact h.around ▸ hop
  | createGroup name =>
    change name ∈ b.around.groupIdMap ∨ name ∉ b.around.groups.map (·.name)
    exact h.around ▸ hop
  | renameChannelGroup g name =>
    change b.around.hasGroup g
    exact h.around ▸ hop
  | restoreChannelGroup _ | clearStreamStats _ => trivial

/-- What an operation leaves of a channel but its number depends on no number. -/
theorem unnumbered_channelAfter {around : Surroundings} {c : ℤ} {x y : Option Channel}
    (h : x.map Channel.unnumbered = y.map Channel.unnumbered) :
    (CommitStore.channelAfter ctx around c x op).map Channel.unnumbered =
      (CommitStore.channelAfter ctx around c y op).map Channel.unnumbered := by
  have hmap : ∀ f : Channel → Channel, (∀ ch, (f ch).unnumbered = (f ch.unnumbered).unnumbered) →
      (x.map f).map Channel.unnumbered = (y.map f).map Channel.unnumbered := by
    intro f hf
    have hx : ∀ z : Option Channel, (z.map f).map Channel.unnumbered =
        (z.map Channel.unnumbered).map fun ch => (f ch).unnumbered := by
      intro z
      cases z with
      | none => rfl
      | some ch => exact congrArg some (hf ch)
    rw [hx, hx, h]
  cases op with
  | updateChannel u =>
    simp only [CommitStore.channelAfter]
    split
    · exact hmap _ fun _ => rfl
    · exact h
  | addStreamToChannel d z | removeStreamFromChannel d z | reorderChannelStreams d z =>
    simp only [CommitStore.channelAfter]
    split
    · exact hmap _ fun _ => rfl
    · exact h
  | bulkAssignChannelNumbers r =>
    refine hmap _ fun ch => ?_
    cases numberAt c r.assignments <;> rfl
  | deleteChannelGroup g => exact hmap _ fun _ => rfl
  | createChannel k | deleteChannel k =>
    simp only [CommitStore.channelAfter]
    split
    · rfl
    · exact h
  | _ => exact h

theorem landed (h : SameButNumbers a b) : SameButNumbers (a.landed ctx op) (b.landed ctx op) := by
  refine ⟨by simp [h.around], by simp [h.created], fun c => ?_⟩
  rw [CommitStore.get?_landed, CommitStore.get?_landed, ← h.around]
  exact unnumbered_channelAfter (h.channel c)

/-- A create without its number makes the same channel but for the number. -/
theorem landed_emitOrdered (owner : Dict ℤ NumberOwner) :
    SameButNumbers (a.landed ctx op) (a.landed ctx (emitOrdered owner op)) := by
  cases op with
  | createChannel k =>
    simp only [emitOrdered]
    split
    · refine ⟨rfl, rfl, fun c => ?_⟩
      rw [CommitStore.get?_landed, CommitStore.get?_landed]
      simp only [CommitStore.channelAfter]
      split <;> rfl
    · exact refl _
  | _ => exact refl _

theorem admits_emitOrdered (owner : Dict ℤ NumberOwner) :
    a.Admits ctx (emitOrdered owner op) ↔ a.Admits ctx op := by
  cases op with
  | createChannel k =>
    simp only [emitOrdered]
    split <;> exact Iff.rfl
  | _ => exact Iff.rfl

/-- A range changes numbers only. -/
theorem landed_range (r : BulkAssignNumbersOp) :
    SameButNumbers a (a.landed ctx (.bulkAssignChannelNumbers r)) := by
  refine ⟨rfl, by simp [BulkOperation.createdTempId?], fun c => ?_⟩
  rw [CommitStore.get?_landed, CommitStore.channelAfter, Option.map_map]
  congr 1
  funext ch
  rw [Function.comp_apply]
  cases numberAt c r.assignments <;> rfl

theorem leftBy (h : SameButNumbers a b) (ops : List BulkOperation) :
    SameButNumbers (a.leftBy ctx ops) (b.leftBy ctx ops) := by
  induction ops generalizing a b with
  | nil => exact h
  | cons op ops ih => exact ih h.landed

theorem admitsAll (h : SameButNumbers a b) {ops : List BulkOperation} (hops : a.AdmitsAll ctx ops) :
    b.AdmitsAll ctx ops := by
  induction ops generalizing a b with
  | nil => trivial
  | cons op ops ih => exact ⟨h.admits hops.1, ih h.landed hops.2⟩

theorem leftBy_emitOrdered (h : SameButNumbers a b) (owner : Dict ℤ NumberOwner)
    (ops : List BulkOperation) :
    SameButNumbers (a.leftBy ctx ops) (b.leftBy ctx (ops.map (emitOrdered owner))) := by
  induction ops generalizing a b with
  | nil => exact h
  | cons op ops ih => exact ih (h.landed.trans (landed_emitOrdered owner))

theorem admitsAll_emitOrdered (h : SameButNumbers a b) (owner : Dict ℤ NumberOwner)
    (ops : List BulkOperation) :
    b.AdmitsAll ctx (ops.map (emitOrdered owner)) ↔ a.AdmitsAll ctx ops := by
  induction ops generalizing a b with
  | nil => exact Iff.rfl
  | cons op ops ih =>
    rw [List.map_cons, CommitStore.AdmitsAll, CommitStore.AdmitsAll, admits_emitOrdered,
      ih (h.landed.trans (landed_emitOrdered owner))]
    exact and_congr ⟨h.symm.admits, h.admits⟩ Iff.rfl

end SameButNumbers

/-! ## The merged updates -/

section Merged

variable {ops : List BulkOperation} {c : ℤ}

theorem updates_positions (toDelete : List ℤ) (es : List (ℤ × ℚ)) (acc : Consolidation) :
    (es.foldl (consolidatePosition toDelete) acc).updateLast = acc.updateLast ∧
      (es.foldl (consolidatePosition toDelete) acc).numberSource = acc.numberSource ∧
      (es.foldl (consolidatePosition toDelete) acc).finalUpdates = acc.finalUpdates := by
  induction es generalizing acc with
  | nil => exact ⟨rfl, rfl, rfl⟩
  | cons e es ih =>
    obtain ⟨hlast, hsource, hfinal⟩ := ih (consolidatePosition toDelete acc e)
    rw [List.foldl_cons, hlast, hsource, hfinal, consolidatePosition]
    split <;> exact ⟨rfl, rfl, rfl⟩

/-- What has been merged for a channel is what its updates have written to it. -/
theorem finalUpdates_getD {toDelete : List ℤ} (toCreate : List ℤ) (hc : c ∉ toDelete)
    (ops : List BulkOperation) :
    ((ops.foldl (consolidateStep toDelete toCreate) {}).finalUpdates.get? c).getD {} =
      writtenTo c ops := by
  induction ops using List.reverseRecOn with
  | nil => rfl
  | append_singleton ops op ih =>
    rw [List.foldl_concat, writtenTo_concat, ← ih]
    generalize ops.foldl (consolidateStep toDelete toCreate) {} = acc
    cases op with
    | updateChannel u =>
      simp only [consolidateStep, writtenStep]
      by_cases hu : u.channelId = c
      · rw [if_neg (hu ▸ hc), if_pos hu, consolidateUpdate]
        split <;> simp [hu]
      · rw [if_neg hu]
        split
        · rfl
        · rw [consolidateUpdate]
          split <;> simp [Dict.get?_set_ne, hu]
    | bulkAssignChannelNumbers r =>
      simp only [consolidateStep, writtenStep, (updates_positions _ _ _).2.2]
    | _ =>
      simp only [consolidateStep, writtenStep]
      first
      | rfl
      | split <;> rfl

/-- Where the templates of the merged updates come from. -/
structure Sourced (ops : List BulkOperation) (acc : Consolidation) : Prop where
  last : ∀ c u, acc.updateLast.get? c = some u → .updateChannel u ∈ ops
  source : ∀ c u, acc.numberSource.get? c = some u →
    .updateChannel u ∈ ops ∧ u.data.channelNumber.isSome
  numbered : ∀ c patch, acc.finalUpdates.get? c = some patch → patch.channelNumber.isSome →
    (acc.numberSource.get? c).isSome

theorem Sourced.concat {acc acc' : Consolidation} (h : Sourced ops acc) (op : BulkOperation)
    (hlast : acc'.updateLast = acc.updateLast) (hsource : acc'.numberSource = acc.numberSource)
    (hfinal : acc'.finalUpdates = acc.finalUpdates) : Sourced (ops ++ [op]) acc' where
  last c u hu := List.mem_append_left _ (h.last c u (hlast ▸ hu))
  source c u hu := (h.source c u (hsource ▸ hu)).imp_left (List.mem_append_left _)
  numbered c patch hpatch hnum := hsource ▸ h.numbered c patch (hfinal ▸ hpatch) hnum

theorem Sourced.update {acc : Consolidation} (h : Sourced ops acc) (u : BulkUpdateChannelOp) :
    Sourced (ops ++ [.updateChannel u]) (consolidateUpdate acc u) := by
  have hkeep : Sourced (ops ++ [.updateChannel u]) acc := h.concat _ rfl rfl rfl
  have hlast : ∀ c v, (acc.updateLast.set u.channelId u).get? c = some v →
      .updateChannel v ∈ ops ++ [.updateChannel u] := by
    intro c v hv
    rw [Dict.get?_set] at hv
    split at hv
    · obtain rfl := Option.some.inj hv
      simp
    · exact hkeep.last c v hv
  cases hnum : u.data.channelNumber with
  | none =>
    rw [consolidateUpdate, hnum, Option.isSome_none, if_neg Bool.false_ne_true]
    refine ⟨hlast, hkeep.source, fun c patch hpatch hsome => ?_⟩
    rw [Dict.get?_set] at hpatch
    split at hpatch
    next hc =>
      obtain rfl := Option.some.inj hpatch
      cases hget : acc.finalUpdates.get? u.channelId with
      | none => simp [ChannelPatch.update, hnum, hget] at hsome
      | some before =>
        rw [← hc]
        apply h.numbered _ before hget
        simpa [ChannelPatch.update, hnum, hget] using hsome
    next => exact h.numbered c patch hpatch hsome
  | some n =>
    rw [consolidateUpdate, hnum, Option.isSome_some, if_pos rfl]
    refine ⟨hlast, fun c v hv => ?_, fun c patch hpatch hsome => ?_⟩
    · rw [Dict.get?_set] at hv
      split at hv
      · obtain rfl := Option.some.inj hv
        simp [hnum]
      · exact hkeep.source c v hv
    · rw [Dict.get?_set] at hpatch ⊢
      split
      · rfl
      next hc =>
        rw [if_neg hc] at hpatch
        exact h.numbered c patch hpatch hsome

theorem sourced_consolidation (toDelete toCreate : List ℤ) (ops : List BulkOperation) :
    Sourced ops (ops.foldl (consolidateStep toDelete toCreate) {}) := by
  induction ops using List.reverseRecOn with
  | nil => exact ⟨by simp, by simp, by simp⟩
  | append_singleton ops op ih =>
    rw [List.foldl_concat]
    generalize ops.foldl (consolidateStep toDelete toCreate) {} = acc at ih
    cases op with
    | updateChannel u =>
      simp only [consolidateStep]
      split
      · exact ih.concat _ rfl rfl rfl
      · exact ih.update u
    | bulkAssignChannelNumbers r =>
      obtain ⟨hlast, hsource, hfinal⟩ := updates_positions toDelete r.assignments acc
      exact ih.concat _ hlast hsource hfinal
    | _ =>
      simp only [consolidateStep]
      first
      | exact ih.concat _ rfl rfl rfl
      | split <;> exact ih.concat _ rfl rfl rfl

/-- A merged update, or nothing where no field is left to write. -/
theorem emitUpdate_cases {toDelete : List ℤ} {acc : Consolidation} (h : Filed toDelete acc)
    {e : ℤ × ChannelPatch} (he : e ∈ acc.finalUpdates.items) :
    (emitUpdate acc e = none ∧ mergedData acc e = {}) ∨
      ∃ u, emitUpdate acc e = some (.updateChannel u) ∧ u.channelId = e.1 ∧
        u.data = mergedData acc e := by
  by_cases hempty : mergedData acc e = {}
  · exact .inl ⟨by rw [emitUpdate, if_pos hempty], hempty⟩
  · have hmem : e.1 ∈ acc.finalUpdates := List.mem_map_of_mem he
    obtain ⟨template, htemplate, hid⟩ : ∃ template, (acc.numberSource.get? e.1).or
        (acc.updateLast.get? e.1) = some template ∧ template.channelId = e.1 := by
      cases hsource : acc.numberSource.get? e.1 with
      | some u => exact ⟨u, rfl, h.source _ u hsource⟩
      | none =>
        obtain ⟨u, hu⟩ := Option.isSome_iff_exists.mp (h.updates e.1 hmem).2
        exact ⟨u, hu, h.last _ u hu⟩
    refine .inr ?_
    rw [emitUpdate, if_neg hempty, htemplate, Option.map_some]
    split
    · exact ⟨_, rfl, hid, rfl⟩
    · exact ⟨_, rfl, hid, rfl⟩

/-- What a merged update expects of the number, an update that wrote one expected. -/
theorem expectationHolds_emitUpdate {ctx : LandingContext} {acc : Consolidation}
    (h : Sourced ops acc) {e : ℤ × ChannelPatch} (he : acc.finalUpdates.get? e.1 = some e.2)
    (hops : ∀ u, .updateChannel u ∈ ops → ctx.expectationHolds u) {u : BulkUpdateChannelOp}
    (hu : emitUpdate acc e = some (.updateChannel u)) : ctx.expectationHolds u := by
  unfold emitUpdate at hu
  split at hu
  · cases hu
  obtain ⟨template, htemplate, hu⟩ := Option.map_eq_some_iff.mp hu
  obtain rfl := BulkOperation.updateChannel.inj hu
  by_cases hsuperseded : superseded acc e
  · simp [hsuperseded, LandingContext.expectationHolds]
  · rw [if_neg hsuperseded]
    have hmerged : mergedData acc e = e.2 := by rw [mergedData, if_neg hsuperseded]
    cases hnum : e.2.channelNumber with
    | none =>
      simp only [LandingContext.expectationHolds, hmerged, hnum]
      cases template.expectedNumber <;> rfl
    | some n =>
      obtain ⟨source, hsource⟩ :=
        Option.isSome_iff_exists.mp (h.numbered e.1 e.2 he (by simp [hnum]))
      rw [hsource, Option.some_or] at htemplate
      obtain rfl := Option.some.inj htemplate
      obtain ⟨hmem, hsome⟩ := h.source _ _ hsource
      obtain ⟨m, hm⟩ := Option.isSome_iff_exists.mp hsome
      have hholds := hops _ hmem
      simp only [LandingContext.expectationHolds, hmerged, hnum, hm] at hholds ⊢
      cases hexpected : source.expectedNumber with
      | none => rfl
      | some expected => simpa [hexpected] using hholds

/-- What the merged updates leave of each channel. -/
theorem get?_leftBy_emitUpdates {ctx : LandingContext} {toDelete : List ℤ} {acc : Consolidation}
    (h : Filed toDelete acc) (s : CommitStore) (c : ℤ) :
    (s.leftBy ctx (emitUpdates acc)).channels.get? c = (s.channels.get? c).map fun channel =>
      (acc.finalUpdates.get? c).elim channel fun patch =>
        channel.patch (mergedData acc (c, patch)) := by
  have hitems : ∀ (es : List (ℤ × ChannelPatch)) (s : CommitStore),
      (∀ e ∈ es, e ∈ acc.finalUpdates.items) → (es.map Prod.fst).Nodup →
      (s.leftBy ctx (es.filterMap (emitUpdate acc))).channels.get? c =
        (s.channels.get? c).map fun channel =>
          (findEntry c es).elim channel fun patch => channel.patch (mergedData acc (c, patch)) := by
    intro es
    induction es with
    | nil =>
      intro s _ _
      simp [findEntry]
    | cons e es ih =>
      intro s hes hn
      obtain ⟨hnot, hn⟩ := List.nodup_cons.mp hn
      have htail := fun e he => hes e (List.mem_cons_of_mem _ he)
      have hnone : e.1 = c → findEntry c es = none := by
        rintro rfl
        rwa [← Option.not_isSome_iff_eq_none, findEntry_isSome]
      rcases emitUpdate_cases h (hes e List.mem_cons_self) with
        ⟨hemit, hempty⟩ | ⟨u, hemit, hid, hdata⟩
      · rw [List.filterMap_cons_none hemit, ih s htail hn]
        by_cases hc : e.1 = c
        · subst hc
          simp [findEntry, hnone rfl, hempty, Channel.patch_empty]
        · simp [findEntry, hc]
      · rw [List.filterMap_cons_some hemit, CommitStore.leftBy_cons, ih _ htail hn,
          CommitStore.get?_landed, CommitStore.channelAfter, hid]
        by_cases hc : e.1 = c
        · subst hc
          simp [findEntry, hnone rfl, hdata, Function.comp_def]
        · simp [findEntry, hc]
  exact hitems _ s (fun _ he => he) acc.finalUpdates.nodup_keys

theorem sameButNumbers_emitRanges {ctx : LandingContext} (entries : List (ℤ × ℚ))
    (s : CommitStore) :
    SameButNumbers s (s.leftBy ctx (emitRanges entries)) := by
  have hranges : ∀ (runs : List (List (ℤ × ℚ))) (s : CommitStore),
      SameButNumbers s (s.leftBy ctx (runs.map emitRange)) := by
    intro runs
    induction runs with
    | nil => exact fun s => .refl s
    | cons run runs ih => exact fun s => (SameButNumbers.landed_range _).trans (ih _)
  exact hranges _ s

end Merged

end ChannelManager
