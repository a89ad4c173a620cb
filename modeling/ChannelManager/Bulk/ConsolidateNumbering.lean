import ChannelManager.Bulk.NumberPlan

/-!
# Consolidation keeps the numbering plan

The accumulator of `_consolidate_operations` holds, for every channel no operation deletes, the kind
and the value of the last write to its number. The emitted list then writes each number once, from
the operation that owns it, so both lists have the same plan.
-/

namespace ChannelManager

/-! ## Accepted requests -/

theorem DependenciesResolved.drop {created : List ℤ} {pre ops : List BulkOperation}
    (h : DependenciesResolved created (pre ++ ops)) :
    DependenciesResolved ((channelsToCreate pre).reverse ++ created) ops := by
  induction pre generalizing created with
  | nil => simpa [channelsToCreate] using h
  | cons op pre ih =>
    cases h with
    | create _ _ _ _ rest =>
      have := ih rest
      simpa [channelsToCreate, BulkOperation.createdTempId?] using this
    | other _ _ _ hop _ rest =>
      have := ih rest
      simpa [channelsToCreate, hop] using this

theorem DependenciesResolved.fresh {created : List ℤ} {ops : List BulkOperation}
    (h : DependenciesResolved created ops) :
    (channelsToCreate ops).Nodup ∧ ∀ c ∈ channelsToCreate ops, c ∉ created := by
  induction h with
  | nil => simp [channelsToCreate]
  | create created k ops hfresh _ ih =>
    obtain ⟨hnodup, hnew⟩ := ih
    have hcons : channelsToCreate (.createChannel k :: ops) = k.tempId :: channelsToCreate ops := by
      simp [channelsToCreate, BulkOperation.createdTempId?]
    rw [hcons]
    refine ⟨List.nodup_cons.mpr ⟨fun hmem => hnew _ hmem (by simp), hnodup⟩, ?_⟩
    intro c hc
    rcases List.mem_cons.mp hc with rfl | hc
    · exact hfresh
    · exact fun hmem => hnew c hc (List.mem_cons_of_mem _ hmem)
  | other created op ops hop _ _ ih =>
    have hcons : channelsToCreate (op :: ops) = channelsToCreate ops := by
      simp [channelsToCreate, hop]
    rwa [hcons]

theorem DependenciesResolved.numberable {ops : List BulkOperation}
    (h : DependenciesResolved [] ops) : Numberable ops where
  nodup_creates := h.fresh.1
  not_recreated := by
    intro pre c post heq hc
    have hrest := (heq ▸ h).drop
    cases hrest with
    | other _ _ _ _ known rest =>
      have hneg := neg_of_mem_channelsToCreate hc
      apply rest.fresh.2 c hc
      apply known
      simp [BulkOperation.negativeChannelReferences, BulkOperation.channelId?, Option.filter, hneg]

/-! ## The accumulator -/

/-- Which operations of the second pass keep their place in the output. -/
def passesThrough (toDelete toCreate : List ℤ) (op : BulkOperation) : Bool :=
  match op with
  | .bulkAssignChannelNumbers _ | .updateChannel _ => false
  | .addStreamToChannel c _ | .removeStreamFromChannel c _ | .reorderChannelStreams c _ =>
    !decide (c < 0 ∧ c ∈ toCreate ∧ c ∈ toDelete)
  | .createChannel k => decide (k.tempId ∉ toDelete)
  | .deleteChannel c => !decide (c < 0 ∧ c ∈ toCreate)
  | _ => true

section Accumulator

variable (toDelete toCreate : List ℤ)

theorem orderedOps_positions (es : List (ℤ × ℚ)) (acc : Consolidation) :
    (es.foldl (consolidatePosition toDelete) acc).orderedOps = acc.orderedOps := by
  induction es generalizing acc with
  | nil => rfl
  | cons e es ih =>
    rw [List.foldl_cons, ih, consolidatePosition]
    split <;> rfl

theorem orderedOps_consolidateStep (acc : Consolidation) (op : BulkOperation) :
    (consolidateStep toDelete toCreate acc op).orderedOps =
      acc.orderedOps ++ if passesThrough toDelete toCreate op then [op] else [] := by
  cases op with
  | bulkAssignChannelNumbers r => simp [consolidateStep, passesThrough, orderedOps_positions]
  | updateChannel u =>
    simp only [consolidateStep, passesThrough, consolidateUpdate]
    split
    · simp
    · split <;> simp
  | createChannel k =>
    by_cases hk : k.tempId ∈ toDelete <;>
      simp [consolidateStep, passesThrough, Consolidation.passThrough, hk]
  | deleteChannel c =>
    by_cases hc : c < 0 ∧ c ∈ toCreate <;>
      simp [consolidateStep, passesThrough, Consolidation.passThrough, hc]
  | addStreamToChannel c _ | removeStreamFromChannel c _ | reorderChannelStreams c _ =>
    by_cases hc : c < 0 ∧ c ∈ toCreate ∧ c ∈ toDelete <;>
      simp [consolidateStep, passesThrough, Consolidation.passThrough, hc]
  | _ => simp [consolidateStep, passesThrough, Consolidation.passThrough]

theorem orderedOps_consolidation (ops : List BulkOperation) :
    (ops.foldl (consolidateStep toDelete toCreate) {}).orderedOps =
      ops.filter (passesThrough toDelete toCreate) := by
  induction ops using List.reverseRecOn with
  | nil => rfl
  | append_singleton ops op ih =>
    rw [List.foldl_append, List.foldl_cons, List.foldl_nil, orderedOps_consolidateStep, ih,
      List.filter_append]
    congr 1
    simp [List.filter_singleton]

/-- The kind of operation a number write comes from. -/
def BulkOperation.owner : BulkOperation → NumberOwner
  | .createChannel _ => .createChannel
  | .bulkAssignChannelNumbers _ => .bulkAssignChannelNumbers
  | _ => .updateChannel

def ownedWrite (c : ℤ) (op : BulkOperation) : Option (NumberOwner × NumberWrite) :=
  (numberWrite c op).map (op.owner, ·)

/-- What the accumulator holds about a channel whose number was last written as `last`. -/
structure Resolved (c : ℤ) (last : Option (NumberOwner × NumberWrite)) (acc : Consolidation) :
    Prop where
  owner : acc.numberOwner.get? c = last.map Prod.fst
  update : ∀ w, last = some (.updateChannel, w) → ∃ u patch, acc.numberSource.get? c = some u ∧
    acknowledgementOf (.updateChannel u) = w.acknowledgement ∧
    acc.finalUpdates.get? c = some patch ∧ patch.channelNumber = some w.number
  range : ∀ w, last = some (.bulkAssignChannelNumbers, w) →
    ∃ n, acc.finalNumbers.get? c = some n ∧ w = ⟨some n, none⟩

/-- Only the four entries of the channel itself matter. -/
theorem Resolved.frame {c : ℤ} {last : Option (NumberOwner × NumberWrite)}
    {acc acc' : Consolidation} (h : Resolved c last acc)
    (howner : acc'.numberOwner.get? c = acc.numberOwner.get? c)
    (hsource : acc'.numberSource.get? c = acc.numberSource.get? c)
    (hupdates : acc'.finalUpdates.get? c = acc.finalUpdates.get? c)
    (hnumbers : acc'.finalNumbers.get? c = acc.finalNumbers.get? c) : Resolved c last acc' := by
  refine ⟨howner.trans h.owner, ?_, ?_⟩
  · intro w hw
    rw [hsource, hupdates]
    exact h.update w hw
  · intro w hw
    rw [hnumbers]
    exact h.range w hw

theorem Resolved.positions {c : ℤ} (hc : c ∉ toDelete) {last : Option (NumberOwner × NumberWrite)}
    {acc : Consolidation} (h : Resolved c last acc) (es : List (ℤ × ℚ)) :
    Resolved c (((numberAt c es).map fun n => (.bulkAssignChannelNumbers, ⟨some n, none⟩)).or last)
      (es.foldl (consolidatePosition toDelete) acc) := by
  induction es using List.reverseRecOn with
  | nil => simpa [numberAt] using h
  | append_singleton es e ih =>
    rw [List.foldl_append, List.foldl_cons, List.foldl_nil, numberAt_concat, consolidatePosition]
    by_cases he : e.1 = c
    · have hkeep : e.1 ∉ toDelete := he ▸ hc
      rw [if_pos he, if_neg hkeep]
      refine ⟨by simp [he], by simp, ?_⟩
      intro w hw
      exact ⟨e.2, by simp [he], by simpa [eq_comm] using hw⟩
    · rw [if_neg he]
      split
      next => exact ih
      next => exact ih.frame (by simp [Dict.get?_set_ne, he]) rfl rfl (by simp [Dict.get?_set_ne, he])

theorem Resolved.consolidateUpdate {c : ℤ} {last : Option (NumberOwner × NumberWrite)}
    {acc : Consolidation} (h : Resolved c last acc) (u : BulkUpdateChannelOp) :
    Resolved c ((ownedWrite c (.updateChannel u)).or last) (consolidateUpdate acc u) := by
  by_cases hu : u.channelId = c
  · subst hu
    cases hn : u.data.channelNumber with
    | none =>
      have hnone : ownedWrite u.channelId (.updateChannel u) = none := by
        simp [ownedWrite, numberWrite, hn]
      simp only [hnone, Option.none_or, ChannelManager.consolidateUpdate, hn, Option.isSome_none,
        Bool.false_eq_true, if_false]
      refine ⟨h.owner, ?_, h.range⟩
      intro w hw
      obtain ⟨src, patch, hsrc, hack, hpatch, hnum⟩ := h.update w hw
      refine ⟨src, patch.update u.data, hsrc, hack, by simp [hpatch], ?_⟩
      simp [ChannelPatch.update, hn, hnum]
    | some n =>
      have hsome : ownedWrite u.channelId (.updateChannel u) =
          some (.updateChannel, ⟨n, acknowledgementOf (.updateChannel u)⟩) := by
        simp [ownedWrite, numberWrite, hn, BulkOperation.owner]
      simp only [hsome, Option.some_or, ChannelManager.consolidateUpdate, hn, Option.isSome_some,
        if_true]
      refine ⟨by simp, ?_, by simp⟩
      intro w hw
      simp only [Option.some.injEq, Prod.mk.injEq, true_and] at hw
      subst hw
      refine ⟨u, ((acc.finalUpdates.get? u.channelId).getD {}).update u.data, by simp, rfl,
        by simp, ?_⟩
      simp [ChannelPatch.update, hn]
  · have hnone : ownedWrite c (.updateChannel u) = none := by
      simp [ownedWrite, numberWrite, hu]
    rw [hnone, Option.none_or]
    unfold ChannelManager.consolidateUpdate
    split <;> exact h.frame (by simp [Dict.get?_set_ne, hu]) (by simp [Dict.get?_set_ne, hu])
      (by simp [Dict.get?_set_ne, hu]) rfl

/-- One operation of the second pass, for a channel no operation deletes. -/
theorem Resolved.step {c : ℤ} (hc : c ∉ toDelete) {last : Option (NumberOwner × NumberWrite)}
    {acc : Consolidation} (h : Resolved c last acc) (op : BulkOperation) :
    Resolved c ((ownedWrite c op).or last) (consolidateStep toDelete toCreate acc op) := by
  cases op with
  | updateChannel u =>
    simp only [consolidateStep]
    split
    next hu =>
      have hne : u.channelId ≠ c := fun heq => hc (heq ▸ hu)
      simpa [ownedWrite, numberWrite, hne] using h
    next => exact h.consolidateUpdate u
  | bulkAssignChannelNumbers r =>
    have hpos := h.positions toDelete hc r.assignments
    simpa [ownedWrite, numberWrite, consolidateStep, Function.comp_def, BulkOperation.owner]
      using hpos
  | createChannel k =>
    simp only [consolidateStep]
    by_cases hk : k.tempId = c
    · subst hk
      rw [if_neg hc]
      refine ⟨?_, ?_, ?_⟩ <;> simp [ownedWrite, numberWrite, BulkOperation.owner]
    · have hnone : ownedWrite c (.createChannel k) = none := by simp [ownedWrite, numberWrite, hk]
      rw [hnone, Option.none_or]
      split
      · exact h
      · exact h.frame (by simp [Dict.get?_set_ne, hk]) rfl rfl rfl
  | _ =>
    simp only [ownedWrite, numberWrite, Option.map_none, Option.none_or, consolidateStep]
    first
    | exact h.frame rfl rfl rfl rfl
    | split
      · exact h
      · exact h.frame rfl rfl rfl rfl

theorem resolved_consolidation {c : ℤ} (hc : c ∉ toDelete) (ops : List BulkOperation) :
    Resolved c ((lastWrite (ownedWrite c) ops).map Prod.snd)
      (ops.foldl (consolidateStep toDelete toCreate) {}) := by
  induction ops using List.reverseRecOn with
  | nil => exact ⟨rfl, by simp, by simp⟩
  | append_singleton ops op ih =>
    rw [List.foldl_append, List.foldl_cons, List.foldl_nil, lastWrite_concat]
    have h := ih.step toDelete toCreate hc op
    cases hw : ownedWrite c op <;> simpa [hw] using h

/-- Every entry is filed under its own channel, and under none that is to be deleted. -/
structure Filed (acc : Consolidation) : Prop where
  updates : ∀ c ∈ acc.finalUpdates, c ∉ toDelete ∧ (acc.updateLast.get? c).isSome
  last : ∀ c u, acc.updateLast.get? c = some u → u.channelId = c
  source : ∀ c u, acc.numberSource.get? c = some u → u.channelId = c
  numbers : ∀ c ∈ acc.finalNumbers, c ∉ toDelete

variable {toDelete}

theorem Filed.position {acc : Consolidation} (h : Filed toDelete acc) (e : ℤ × ℚ) :
    Filed toDelete (consolidatePosition toDelete acc e) := by
  unfold consolidatePosition
  split
  next => exact h
  next he =>
    refine ⟨h.updates, h.last, h.source, ?_⟩
    intro c hc
    rcases (Dict.mem_set _ _ _ _).mp hc with rfl | hc
    · exact he
    · exact h.numbers c hc

theorem Filed.consolidateUpdate {acc : Consolidation} (h : Filed toDelete acc)
    {u : BulkUpdateChannelOp} (hu : u.channelId ∉ toDelete) :
    Filed toDelete (consolidateUpdate acc u) := by
  have hupdates : ∀ c ∈ acc.finalUpdates.set u.channelId
      (((acc.finalUpdates.get? u.channelId).getD {}).update u.data),
      c ∉ toDelete ∧ ((acc.updateLast.set u.channelId u).get? c).isSome := by
    intro c hc
    rcases (Dict.mem_set _ _ _ _).mp hc with rfl | hc
    · exact ⟨hu, by simp⟩
    · refine ⟨(h.updates c hc).1, ?_⟩
      rw [Dict.get?_set]
      split
      · rfl
      · exact (h.updates c hc).2
  have hself : ∀ (d : Dict ℤ BulkUpdateChannelOp), (∀ c v, d.get? c = some v → v.channelId = c) →
      ∀ c v, (d.set u.channelId u).get? c = some v → v.channelId = c := by
    intro d hd c v hv
    rw [Dict.get?_set] at hv
    split at hv
    next heq => rw [← Option.some.inj hv, heq]
    next => exact hd c v hv
  unfold ChannelManager.consolidateUpdate
  split
  · exact ⟨hupdates, hself _ h.last, hself _ h.source, h.numbers⟩
  · exact ⟨hupdates, hself _ h.last, h.source, h.numbers⟩

theorem Filed.step {acc : Consolidation} (h : Filed toDelete acc) (op : BulkOperation) :
    Filed toDelete (consolidateStep toDelete toCreate acc op) := by
  have hpositions : ∀ (es : List (ℤ × ℚ)) (acc : Consolidation), Filed toDelete acc →
      Filed toDelete (es.foldl (consolidatePosition toDelete) acc) := by
    intro es
    induction es with
    | nil => exact fun _ hacc => hacc
    | cons e es ih => exact fun acc hacc => ih _ (hacc.position e)
  cases op with
  | updateChannel u =>
    simp only [consolidateStep]
    split
    next => exact h
    next hu => exact h.consolidateUpdate hu
  | bulkAssignChannelNumbers r => exact hpositions _ _ h
  | _ =>
    simp only [consolidateStep]
    first
    | exact ⟨h.updates, h.last, h.source, h.numbers⟩
    | split
      · exact h
      · exact ⟨h.updates, h.last, h.source, h.numbers⟩

theorem filed_consolidation (ops : List BulkOperation) :
    Filed toDelete (ops.foldl (consolidateStep toDelete toCreate) {}) := by
  induction ops using List.reverseRecOn with
  | nil => exact ⟨by simp [Dict.mem_def], by simp, by simp, by simp [Dict.mem_def]⟩
  | append_singleton ops op ih =>
    rw [List.foldl_append, List.foldl_cons, List.foldl_nil]
    exact ih.step toCreate op

end Accumulator

/-! ## The emitted operations -/

/-- A run of consecutive numbers is the range it is emitted as. -/
theorem assignments_emitRange {run : List (ℤ × ℚ)} (hne : run ≠ [])
    (hchain : run.IsChain fun a b => b.2 = a.2 + 1) :
    BulkAssignNumbersOp.assignments
      { channelIds := run.map Prod.fst, startingNumber := run.head?.map Prod.snd } = run := by
  have hshift : ∀ (es : List (ℤ × ℚ)) (start : ℚ) (k : ℕ),
      (es.IsChain fun a b => b.2 = a.2 + 1) → (∀ e ∈ es.head?, e.2 = start + k) →
      ((es.map Prod.fst).zipIdx k).map (fun e => (e.1, start + (e.2 : ℚ))) = es := by
    intro es start
    induction es with
    | nil => simp
    | cons e es ih =>
      intro k hes hhead
      have he := hhead e rfl
      rw [List.map_cons, List.zipIdx_cons, List.map_cons, ih (k + 1)]
      · rw [← he]
      · exact hes.tail
      · intro e' he'
        cases es with
        | nil => simp at he'
        | cons x es =>
          obtain rfl : x = e' := by simpa using he'
          have hx := (List.isChain_cons_cons.mp hes).1
          rw [hx, he]
          push_cast
          ring
  cases run with
  | nil => exact absurd rfl hne
  | cons e es =>
    rw [BulkAssignNumbersOp.assignments, BulkAssignNumbersOp.start]
    exact hshift (e :: es) e.2 0 hchain (by simp)

theorem mem_rangeEntries {acc : Consolidation} {c : ℤ} {n : ℚ} :
    (c, n) ∈ rangeEntries acc ↔
      acc.finalNumbers.get? c = some n ∧
        acc.numberOwner.get? c = some .bulkAssignChannelNumbers := by
  rw [rangeEntries, List.mem_insertionSort, ← Dict.get?_eq_some, Dict.get?_filter,
    Option.filter_eq_some_iff, decide_eq_true_eq]

theorem nodup_rangeEntries (acc : Consolidation) : ((rangeEntries acc).map Prod.fst).Nodup := by
  have hperm := (List.perm_insertionSort (fun a b : ℤ × ℚ => a.2 ≤ b.2)
    (acc.finalNumbers.filter fun c _ =>
      acc.numberOwner.get? c = some .bulkAssignChannelNumbers).items).map Prod.fst
  exact hperm.nodup_iff.mpr (Dict.nodup_keys _)

theorem numberAt_of_nodup {es : List (ℤ × ℚ)} (hn : (es.map Prod.fst).Nodup) {c : ℤ} {n : ℚ}
    (h : (c, n) ∈ es) : numberAt c es = some n := by
  have hsome : (numberAt c es).isSome := (numberAt_isSome c es).mpr (List.mem_map_of_mem h)
  obtain ⟨m, hm⟩ := Option.isSome_iff_exists.mp hsome
  rw [hm]
  have h1 := (findEntry_eq_some c m es hn).mpr (mem_of_numberAt hm)
  have h2 := (findEntry_eq_some c n es hn).mpr h
  rw [← h1, h2]

/-- The runs the entries are cut into, each of them consecutive. -/
def rangeRuns (entries : List (ℤ × ℚ)) : List (List (ℤ × ℚ)) :=
  entries.splitBy fun a b => b.2 = a.2 + 1

theorem numberWrite_emitRange {entries run : List (ℤ × ℚ)} (hrun : run ∈ rangeRuns entries)
    (c : ℤ) : numberWrite c (emitRange run) = (numberAt c run).map (⟨some ·, none⟩) := by
  have hne : run ≠ [] := by
    rintro rfl
    exact List.nil_notMem_splitBy _ _ hrun
  have hchain : run.IsChain fun a b => b.2 = a.2 + 1 := by
    have := List.isChain_of_mem_splitBy hrun
    simpa using this
  simp only [emitRange, numberWrite, assignments_emitRange hne hchain]

theorem flatten_rangeRuns (entries : List (ℤ × ℚ)) : (rangeRuns entries).flatten = entries :=
  List.flatten_splitBy _ _

/-- What the emitted ranges write: each owned channel its number, every other channel nothing. -/
theorem numberWrite_emitRanges {acc : Consolidation} {c : ℤ} {op : BulkOperation}
    (hop : op ∈ emitRanges (rangeEntries acc)) {w : NumberWrite} (hw : numberWrite c op = some w) :
    ∃ n, (c, n) ∈ rangeEntries acc ∧ w = ⟨some n, none⟩ := by
  obtain ⟨run, hrun, rfl⟩ := List.mem_map.mp hop
  rw [numberWrite_emitRange hrun, Option.map_eq_some_iff] at hw
  obtain ⟨n, hn, rfl⟩ := hw
  refine ⟨n, ?_, rfl⟩
  rw [← flatten_rangeRuns (rangeEntries acc)]
  exact List.mem_flatten.mpr ⟨run, hrun, mem_of_numberAt hn⟩

theorem exists_emitRange {acc : Consolidation} {c : ℤ} {n : ℚ} (h : (c, n) ∈ rangeEntries acc) :
    ∃ op ∈ emitRanges (rangeEntries acc), numberWrite c op = some ⟨some n, none⟩ := by
  have hflat := flatten_rangeRuns (rangeEntries acc)
  have hmem : (c, n) ∈ (rangeRuns (rangeEntries acc)).flatten := by rwa [hflat]
  obtain ⟨run, hrun, hcn⟩ := List.mem_flatten.mp hmem
  refine ⟨emitRange run, List.mem_map_of_mem hrun, ?_⟩
  have hnodup : (run.map Prod.fst).Nodup := by
    have hall := nodup_rangeEntries acc
    rw [← hflat] at hall
    exact hall.sublist ((List.sublist_flatten_of_mem hrun).map _)
  rw [numberWrite_emitRange hrun, numberAt_of_nodup hnodup hcn, Option.map_some]

theorem lastWrite_emitRanges {acc : Consolidation} {c : ℤ} {n : ℚ} (h : (c, n) ∈ rangeEntries acc) :
    (lastWrite (numberWrite c) (emitRanges (rangeEntries acc))).map Prod.snd =
      some ⟨some n, none⟩ := by
  obtain ⟨op, hop, hw⟩ := exists_emitRange h
  apply lastWrite_of_constant hop hw
  intro op' hop' w' hw'
  obtain ⟨m, hm, rfl⟩ := numberWrite_emitRanges hop' hw'
  have heq : m = n := by
    have h1 := (mem_rangeEntries.mp hm).1
    rw [(mem_rangeEntries.mp h).1] at h1
    exact (Option.some.inj h1).symm
  rw [heq]

/-- An emitted update carries a number only for a channel whose number updates own, and then it is
the merged one with the consent of the update that set it. -/
theorem emitUpdate_eq_some {toDelete : List ℤ} {acc : Consolidation} (h : Filed toDelete acc)
    {c : ℤ} {patch : ChannelPatch} {op : BulkOperation} (hop : emitUpdate acc (c, patch) = some op) :
    ∃ u : BulkUpdateChannelOp, op = .updateChannel u ∧ u.channelId = c ∧
      (u.data.channelNumber = if acc.numberOwner.get? c = some .updateChannel
        then patch.channelNumber else none) := by
  unfold emitUpdate at hop
  split at hop
  · simp at hop
  · obtain ⟨template, htemplate, rfl⟩ := Option.map_eq_some_iff.mp hop
    have hid : template.channelId = c := by
      rcases Option.or_eq_some_iff.mp htemplate with hsource | ⟨_, hlast⟩
      · exact h.source c template hsource
      · exact h.last c template hlast
    refine ⟨_, rfl, ?_, ?_⟩
    · split <;> exact hid
    · have hdata : (mergedData acc (c, patch)).channelNumber =
          if acc.numberOwner.get? c = some .updateChannel then patch.channelNumber else none := by
        by_cases howner : acc.numberOwner.get? c = some .updateChannel
        · simp [mergedData, superseded, howner]
        · cases hn : patch.channelNumber <;> simp [mergedData, superseded, howner, hn]
      rw [← hdata]
      split <;> rfl

/-- The merged updates, in first-touched order. -/
def emitUpdates (acc : Consolidation) : List BulkOperation :=
  acc.finalUpdates.items.filterMap (emitUpdate acc)

theorem numberWrite_emitUpdates {toDelete : List ℤ} {acc : Consolidation}
    (h : Filed toDelete acc) {c : ℤ} {op : BulkOperation} (hop : op ∈ emitUpdates acc)
    {w : NumberWrite} (hw : numberWrite c op = some w) :
    acc.numberOwner.get? c = some .updateChannel ∧
      ∃ patch, acc.finalUpdates.get? c = some patch ∧ emitUpdate acc (c, patch) = some op := by
  obtain ⟨⟨c', patch⟩, hmem, hemit⟩ := List.mem_filterMap.mp hop
  obtain ⟨u, rfl, hid, hnum⟩ := emitUpdate_eq_some h hemit
  have hc : c' = c := by
    by_contra hne
    simp [numberWrite, hid, hne] at hw
  subst hc
  refine ⟨?_, patch, (acc.finalUpdates.get?_eq_some c' patch).mpr hmem, hemit⟩
  by_contra howner
  simp [numberWrite, hid, hnum, howner] at hw

theorem exists_emitUpdate {toDelete : List ℤ} {acc : Consolidation} (h : Filed toDelete acc)
    {c : ℤ} {w : NumberWrite} (hres : Resolved c (some (.updateChannel, w)) acc) :
    ∃ patch op, acc.finalUpdates.get? c = some patch ∧ emitUpdate acc (c, patch) = some op ∧
      numberWrite c op = some w := by
  obtain ⟨u, patch, hsource, hack, hpatch, hnum⟩ := hres.update w rfl
  have howner : acc.numberOwner.get? c = some .updateChannel := hres.owner
  have hid := h.source c u hsource
  have hkeep : superseded acc (c, patch) = false := by simp [superseded, howner]
  have hdata : mergedData acc (c, patch) = patch := by simp [mergedData, hkeep]
  have hne : patch ≠ {} := by
    rintro rfl
    simp at hnum
  refine ⟨patch, .updateChannel { u with data := patch }, hpatch, ?_, ?_⟩
  · simp [emitUpdate, hdata, hne, hsource, hkeep]
  · have hack' : acknowledgementOf (.updateChannel { u with data := patch }) =
        w.acknowledgement := hack
    simp only [numberWrite, hid, if_true, hnum, Option.map_some]
    rw [hid] at hack'
    rw [hack']

theorem lastWrite_emitUpdates {toDelete : List ℤ} {acc : Consolidation} (h : Filed toDelete acc)
    {c : ℤ} {w : NumberWrite} (hres : Resolved c (some (.updateChannel, w)) acc) :
    (lastWrite (numberWrite c) (emitUpdates acc)).map Prod.snd = some w := by
  obtain ⟨patch, op, hpatch, hemit, hw⟩ := exists_emitUpdate h hres
  have hmem := (acc.finalUpdates.get?_eq_some c patch).mp hpatch
  apply lastWrite_of_constant (List.mem_filterMap.mpr ⟨_, hmem, hemit⟩) hw
  intro op' hop' w' hw'
  obtain ⟨_, patch', hpatch', hemit'⟩ := numberWrite_emitUpdates h hop' hw'
  obtain rfl := Option.some.inj (hpatch.symm.trans hpatch')
  obtain rfl := Option.some.inj (hemit.symm.trans hemit')
  exact Option.some.inj (hw'.symm.trans hw)

/-- The operations that keep their place, with superseded numbers taken off creates. -/
def emitOrderedOps (acc : Consolidation) : List BulkOperation :=
  acc.orderedOps.map (emitOrdered acc.numberOwner)

theorem numberWrite_emitOrdered {owner : Dict ℤ NumberOwner} {c : ℤ} {op : BulkOperation}
    {toDelete toCreate : List ℤ} (hpass : passesThrough toDelete toCreate op) {w : NumberWrite}
    (hw : numberWrite c (emitOrdered owner op) = some w) :
    ∃ k : BulkCreateChannelOp, op = .createChannel k ∧ k.tempId = c ∧
      (owner.get? c = some .createChannel → numberWrite c op = some w) := by
  cases op with
  | createChannel k =>
    have hid : k.tempId = c := by
      by_contra hne
      simp only [emitOrdered] at hw
      split at hw <;> simp [numberWrite, hne] at hw
    refine ⟨k, rfl, hid, fun howner => ?_⟩
    simpa [emitOrdered, hid, howner] using hw
  | updateChannel u => simp [passesThrough] at hpass
  | bulkAssignChannelNumbers r => simp [passesThrough] at hpass
  | _ => simp [emitOrdered, numberWrite] at hw

theorem consolidateOperations_eq (ops : List BulkOperation) :
    consolidateOperations ops = emitOrderedOps (consolidation ops) ++
      emitUpdates (consolidation ops) ++ emitRanges (rangeEntries (consolidation ops)) := rfl

theorem mem_emitOrderedOps {ops : List BulkOperation} {op : BulkOperation} :
    op ∈ emitOrderedOps (consolidation ops) ↔
      ∃ op' ∈ ops, passesThrough (channelsToDelete ops) (channelsToCreate ops) op' ∧
        emitOrdered (consolidation ops).numberOwner op' = op := by
  rw [emitOrderedOps, List.mem_map, consolidation, orderedOps_consolidation]
  simp [and_assoc]

/-- An operation list creates each temporary id by one operation only. -/
theorem create_unique {ops : List BulkOperation} (hn : (channelsToCreate ops).Nodup)
    {k k' : BulkCreateChannelOp} (hk : .createChannel k ∈ ops) (hk' : .createChannel k' ∈ ops)
    (hid : k.tempId = k'.tempId) : k = k' := by
  by_contra hne
  have hpair : ops.Pairwise fun a b => ∀ c ∈ a.createdTempId?, ∀ d ∈ b.createdTempId?, c ≠ d :=
    (List.pairwise_filterMap.mp hn)
  have hsymm : Std.Symm fun a b : BulkOperation =>
      ∀ c ∈ a.createdTempId?, ∀ d ∈ b.createdTempId?, c ≠ d :=
    ⟨fun a b h c hc d hd => (h d hd c hc).symm⟩
  have := hpair.forall hk hk' (by simpa using hne)
  exact this k.tempId (by simp [BulkOperation.createdTempId?]) k'.tempId
    (by simp [BulkOperation.createdTempId?]) hid

section Emission

variable {ops : List BulkOperation} {c : ℤ}

theorem filed_consolidateOperations (ops : List BulkOperation) :
    Filed (channelsToDelete ops) (consolidation ops) :=
  filed_consolidation (channelsToCreate ops) ops

theorem resolved_consolidateOperations (hc : c ∉ channelsToDelete ops) :
    Resolved c ((lastWrite (ownedWrite c) ops).map Prod.snd) (consolidation ops) :=
  resolved_consolidation (channelsToDelete ops) (channelsToCreate ops) hc ops

theorem lastWrite_numberWrite (c : ℤ) (ops : List BulkOperation) :
    lastWrite (numberWrite c) ops =
      (lastWrite (ownedWrite c) ops).map fun e => (e.1, e.2.2) := by
  rw [← lastWrite_map]
  apply lastWrite_congr
  intro op _
  cases h : numberWrite c op <;> simp [ownedWrite, h]

theorem lastWrite_emitRanges_none {acc : Consolidation}
    (h : acc.numberOwner.get? c ≠ some .bulkAssignChannelNumbers) :
    lastWrite (numberWrite c) (emitRanges (rangeEntries acc)) = none := by
  rw [lastWrite_eq_none]
  intro op hop
  by_contra hne
  obtain ⟨w, hw⟩ := Option.ne_none_iff_exists'.mp hne
  obtain ⟨n, hmem, -⟩ := numberWrite_emitRanges hop hw
  exact h (mem_rangeEntries.mp hmem).2

theorem lastWrite_emitUpdates_none {toDelete : List ℤ} {acc : Consolidation}
    (hfiled : Filed toDelete acc) (h : acc.numberOwner.get? c ≠ some .updateChannel) :
    lastWrite (numberWrite c) (emitUpdates acc) = none := by
  rw [lastWrite_eq_none]
  intro op hop
  by_contra hne
  obtain ⟨w, hw⟩ := Option.ne_none_iff_exists'.mp hne
  exact h (numberWrite_emitUpdates hfiled hop hw).1

theorem lastWrite_emitOrderedOps_none (h : c ∉ channelsToCreate ops) :
    lastWrite (numberWrite c) (emitOrderedOps (consolidation ops)) = none := by
  rw [lastWrite_eq_none]
  intro op hop
  by_contra hne
  obtain ⟨w, hw⟩ := Option.ne_none_iff_exists'.mp hne
  obtain ⟨op', hop', hpass, rfl⟩ := mem_emitOrderedOps.mp hop
  obtain ⟨k, rfl, hid, -⟩ := numberWrite_emitOrdered hpass hw
  exact h (mem_channelsToCreate.mpr ⟨k, hop', hid⟩)

theorem lastWrite_emitOrderedOps (hn : (channelsToCreate ops).Nodup)
    (hc : c ∉ channelsToDelete ops) {i : ℕ} {w : NumberWrite}
    (hlast : lastWrite (ownedWrite c) ops = some (i, .createChannel, w)) :
    (lastWrite (numberWrite c) (emitOrderedOps (consolidation ops))).map Prod.snd = some w := by
  have howner : (consolidation ops).numberOwner.get? c = some .createChannel := by
    rw [(resolved_consolidateOperations hc).owner, hlast]
    rfl
  obtain ⟨pre, op, post, heq, -, hop, -⟩ := lastWrite_eq_some.mp hlast
  obtain ⟨w', hw', hpair⟩ := Option.map_eq_some_iff.mp hop
  simp only [Prod.mk.injEq] at hpair
  obtain ⟨hkind, rfl⟩ := hpair
  have hmem : op ∈ ops := by simp [heq]
  -- an operation that owns a number as a create is one
  obtain ⟨k, rfl⟩ : ∃ k, op = .createChannel k := by
    cases op <;> simp [BulkOperation.owner] at hkind
    exact ⟨_, rfl⟩
  have hid : k.tempId = c := by
    by_contra hne
    simp [numberWrite, hne] at hw'
  have hemit : emitOrdered (consolidation ops).numberOwner (.createChannel k) =
      .createChannel k := by simp [emitOrdered, hid, howner]
  have hpass : passesThrough (channelsToDelete ops) (channelsToCreate ops) (.createChannel k) := by
    simpa [passesThrough, hid] using hc
  apply lastWrite_of_constant (mem_emitOrderedOps.mpr ⟨_, hmem, hpass, rfl⟩) (by rwa [hemit])
  intro op' hop' w'' hw''
  obtain ⟨op₀, hop₀, hpass₀, rfl⟩ := mem_emitOrderedOps.mp hop'
  obtain ⟨k₀, rfl, hid₀, hwrite⟩ := numberWrite_emitOrdered hpass₀ hw''
  obtain rfl := create_unique hn hmem hop₀ (hid.trans hid₀.symm)
  exact Option.some.inj ((hwrite howner).symm.trans hw')

/-- Every channel no operation deletes is written the same value last. -/
theorem lastWrite_consolidateOperations (hn : (channelsToCreate ops).Nodup)
    (hc : c ∉ channelsToDelete ops) :
    (lastWrite (numberWrite c) (consolidateOperations ops)).map Prod.snd =
      (lastWrite (numberWrite c) ops).map Prod.snd := by
  have hfiled := filed_consolidateOperations ops
  have hres := resolved_consolidateOperations hc
  rw [consolidateOperations_eq, lastWrite_append, lastWrite_append, lastWrite_numberWrite c ops]
  cases hlast : lastWrite (ownedWrite c) ops with
  | none =>
    have howner : (consolidation ops).numberOwner.get? c = none := by simp [hres.owner, hlast]
    have hcreate : c ∉ channelsToCreate ops := by
      intro hmem
      obtain ⟨k, hk, hid⟩ := mem_channelsToCreate.mp hmem
      have := (lastWrite_eq_none _ _).mp hlast _ hk
      simp [ownedWrite, numberWrite, hid] at this
    rw [lastWrite_emitRanges_none (by simp [howner]),
      lastWrite_emitUpdates_none hfiled (by simp [howner]), lastWrite_emitOrderedOps_none hcreate]
    rfl
  | some e =>
    obtain ⟨i, owner, w⟩ := e
    rw [hlast, Option.map_some] at hres
    have howner : (consolidation ops).numberOwner.get? c = some owner := hres.owner
    cases owner with
    | createChannel =>
      rw [lastWrite_emitRanges_none (by simp [howner]),
        lastWrite_emitUpdates_none hfiled (by simp [howner])]
      simpa using lastWrite_emitOrderedOps hn hc hlast
    | updateChannel =>
      have hw := lastWrite_emitUpdates hfiled hres
      obtain ⟨e, he, rfl⟩ := Option.map_eq_some_iff.mp hw
      rw [lastWrite_emitRanges_none (by simp [howner]), he]
      simp
    | bulkAssignChannelNumbers =>
      obtain ⟨n, hn', rfl⟩ := hres.range w rfl
      have hw := lastWrite_emitRanges (mem_rangeEntries.mpr ⟨hn', howner⟩)
      obtain ⟨e, he, hval⟩ := Option.map_eq_some_iff.mp hw
      rw [he]
      simp [hval]

theorem createdTempId?_emitOrdered (owner : Dict ℤ NumberOwner) (op : BulkOperation) :
    (emitOrdered owner op).createdTempId? = op.createdTempId? := by
  cases op with
  | createChannel k =>
    simp only [emitOrdered]
    split <;> rfl
  | _ => rfl

theorem mem_emitUpdates {op : BulkOperation} (h : op ∈ emitUpdates (consolidation ops)) :
    ∃ u, op = .updateChannel u := by
  obtain ⟨e, -, hemit⟩ := List.mem_filterMap.mp h
  obtain ⟨u, hu, -⟩ := emitUpdate_eq_some (filed_consolidateOperations ops) hemit
  exact ⟨u, hu⟩

theorem mem_emitRanges {entries : List (ℤ × ℚ)} {op : BulkOperation} (h : op ∈ emitRanges entries) :
    ∃ r, op = .bulkAssignChannelNumbers r := by
  obtain ⟨run, -, rfl⟩ := List.mem_map.mp h
  exact ⟨_, rfl⟩

theorem channelsToCreate_consolidateOperations (ops : List BulkOperation) :
    channelsToCreate (consolidateOperations ops) =
      (channelsToCreate ops).filter (· ∉ channelsToDelete ops) := by
  have hupdates : channelsToCreate (emitUpdates (consolidation ops)) = [] := by
    apply List.filterMap_eq_nil_iff.mpr
    intro op hop
    obtain ⟨u, rfl⟩ := mem_emitUpdates hop
    rfl
  have hranges : channelsToCreate (emitRanges (rangeEntries (consolidation ops))) = [] := by
    apply List.filterMap_eq_nil_iff.mpr
    intro op hop
    obtain ⟨r, rfl⟩ := mem_emitRanges hop
    rfl
  rw [consolidateOperations_eq, channelsToCreate_append, channelsToCreate_append, hupdates, hranges,
    List.append_nil, List.append_nil, emitOrderedOps, consolidation, orderedOps_consolidation,
    channelsToCreate, List.filterMap_map]
  simp only [Function.comp_def, createdTempId?_emitOrdered]
  rw [List.filterMap_filter, channelsToCreate, List.filter_filterMap]
  apply List.filterMap_congr
  intro op _
  cases op <;> simp [passesThrough, BulkOperation.createdTempId?, Option.filter]

theorem passesThrough_deleteChannel {toDelete toCreate : List ℤ} :
    passesThrough toDelete toCreate (.deleteChannel c) ↔ ¬(c < 0 ∧ c ∈ toCreate) := by
  simp only [passesThrough, Bool.not_eq_true', decide_eq_false_iff_not]

theorem mem_channelsToDelete_consolidateOperations :
    c ∈ channelsToDelete (consolidateOperations ops) ↔
      c ∈ channelsToDelete ops ∧ ¬(c < 0 ∧ c ∈ channelsToCreate ops) := by
  rw [mem_channelsToDelete, mem_channelsToDelete, consolidateOperations_eq, List.mem_append,
    List.mem_append]
  constructor
  · rintro ((h | h) | h)
    · obtain ⟨op, hop, hpass, hemit⟩ := mem_emitOrderedOps.mp h
      obtain rfl : op = .deleteChannel c := by
        cases op with
        | createChannel k =>
          simp only [emitOrdered] at hemit
          split at hemit <;> simp at hemit
        | _ => exact hemit
      exact ⟨hop, passesThrough_deleteChannel.mp hpass⟩
    · obtain ⟨u, hu⟩ := mem_emitUpdates h
      simp at hu
    · obtain ⟨r, hr⟩ := mem_emitRanges h
      simp at hr
  · rintro ⟨h, hpass⟩
    exact .inl (.inl (mem_emitOrderedOps.mpr ⟨_, h, passesThrough_deleteChannel.mpr hpass, rfl⟩))

theorem numberable_consolidateOperations (hn : (channelsToCreate ops).Nodup) :
    Numberable (consolidateOperations ops) where
  nodup_creates := by
    rw [channelsToCreate_consolidateOperations]
    exact hn.filter _
  not_recreated := by
    intro pre d post heq hd
    have hdelete : d ∈ channelsToDelete (consolidateOperations ops) := by
      rw [mem_channelsToDelete, heq]
      simp
    have hcreate : d ∈ channelsToCreate (consolidateOperations ops) := by
      rw [heq, channelsToCreate_append]
      exact List.mem_append_right _ (by simpa [channelsToCreate,
        BulkOperation.createdTempId?] using hd)
    rw [channelsToCreate_consolidateOperations] at hcreate
    have hmem := (List.mem_filter.mp hcreate).1
    exact (mem_channelsToDelete_consolidateOperations.mp hdelete).2
      ⟨neg_of_mem_channelsToCreate hmem, hmem⟩

theorem survivors_consolidateOperations (lineup : Lineup) (ops : List BulkOperation) :
    survivors lineup (consolidateOperations ops) = survivors lineup ops := by
  rw [survivors, survivors, List.filter_append, List.filter_append,
    channelsToCreate_consolidateOperations, List.filter_filter]
  congr 1
  · apply List.filter_congr
    intro d hd
    have hnonneg := Lineup.nonneg_of_mem_ids hd
    have hkeep : ¬(d < 0 ∧ d ∈ channelsToCreate ops) := by omega
    simp only [mem_channelsToDelete_consolidateOperations, hkeep, not_false_eq_true, and_true]
  · apply List.filter_congr
    intro d hd
    by_cases hdel : d ∈ channelsToDelete ops <;>
      simp [mem_channelsToDelete_consolidateOperations, hdel]

/-- Every surviving channel is planned onto the same number, with the same consent. -/
theorem plannedOutcome_consolidateOperations (lineup : Lineup) (hn : (channelsToCreate ops).Nodup)
    (hc : c ∉ channelsToDelete ops) :
    { plannedOutcome lineup (consolidateOperations ops) c with arrival := none } =
      { plannedOutcome lineup ops c with arrival := none } := by
  have h := lastWrite_consolidateOperations hn hc
  simp only [plannedOutcome]
  cases hl : lastWrite (numberWrite c) ops with
  | none =>
    rw [hl, Option.map_none, Option.map_eq_none_iff] at h
    rw [h]
  | some e =>
    rw [hl, Option.map_some, Option.map_eq_some_iff] at h
    obtain ⟨e', he', hval⟩ := h
    rw [he']
    simp [Outcome.settle, Outcome.write, hval]

end Emission

/-- The channels whose number an operation writes. -/
def numberTargets : BulkOperation → List ℤ
  | .createChannel k => if k.channelNumber.isSome then [k.tempId] else []
  | .updateChannel u => if u.data.channelNumber.isSome then [u.channelId] else []
  | .bulkAssignChannelNumbers r => r.channelIds
  | _ => []

section Targets

variable {ops : List BulkOperation} {c : ℤ}

/-- A number left on an emitted create belongs to it. -/
theorem numberTargets_emitOrderedOps {op : BulkOperation}
    (hop : op ∈ emitOrderedOps (consolidation ops)) (hc : c ∈ numberTargets op) :
    (consolidation ops).numberOwner.get? c = some .createChannel ∧ op.createdTempId? = some c := by
  obtain ⟨op', -, hpass, rfl⟩ := mem_emitOrderedOps.mp hop
  cases op' with
  | createChannel k =>
    rw [createdTempId?_emitOrdered]
    simp only [emitOrdered] at hc
    split at hc
    next => simp [numberTargets] at hc
    next hkeep =>
      simp only [numberTargets] at hc
      split at hc
      next hnum =>
        obtain rfl := List.mem_singleton.mp hc
        exact ⟨by simpa [hnum] using hkeep, rfl⟩
      next => simp at hc
  | updateChannel u => simp [passesThrough] at hpass
  | bulkAssignChannelNumbers r => simp [passesThrough] at hpass
  | _ => simp [emitOrdered, numberTargets] at hc

theorem numberTargets_emitUpdate {acc : Consolidation} {toDelete : List ℤ}
    (hfiled : Filed toDelete acc) {e : ℤ × ChannelPatch} {op : BulkOperation}
    (hop : emitUpdate acc e = some op) (hc : c ∈ numberTargets op) :
    acc.numberOwner.get? c = some .updateChannel ∧ c = e.1 := by
  obtain ⟨u, rfl, hid, hnum⟩ := emitUpdate_eq_some hfiled hop
  simp only [numberTargets] at hc
  split at hc
  next hsome =>
    obtain rfl := List.mem_singleton.mp hc
    refine ⟨?_, hid⟩
    by_contra howner
    rw [hid] at howner
    simp [hnum, howner] at hsome
  next => simp at hc

theorem flatMap_numberTargets_emitRanges (acc : Consolidation) :
    (emitRanges (rangeEntries acc)).flatMap numberTargets = (rangeEntries acc).map Prod.fst := by
  conv_rhs => rw [← flatten_rangeRuns (rangeEntries acc), List.map_flatten]
  rw [emitRanges, List.flatMap_map, ← List.flatMap_def]
  rfl

private theorem numberTargets_nodup (op : BulkOperation)
    (hop : ∀ r, op ≠ .bulkAssignChannelNumbers r) : (numberTargets op).Nodup := by
  cases op with
  | bulkAssignChannelNumbers r => exact absurd rfl (hop r)
  | createChannel k =>
    simp only [numberTargets]
    split <;> simp
  | updateChannel u =>
    simp only [numberTargets]
    split <;> simp
  | _ => exact List.nodup_nil

theorem nodup_numberTargets_emitOrderedOps (hn : (channelsToCreate ops).Nodup) :
    ((emitOrderedOps (consolidation ops)).flatMap numberTargets).Nodup := by
  rw [List.nodup_flatMap]
  refine ⟨?_, ?_⟩
  · intro op hop
    apply numberTargets_nodup
    rintro r rfl
    obtain ⟨op', -, hpass, hemit⟩ := mem_emitOrderedOps.mp hop
    cases op' with
    | createChannel k =>
      simp only [emitOrdered] at hemit
      split at hemit <;> simp at hemit
    | bulkAssignChannelNumbers r' => simp [passesThrough] at hpass
    | _ => simp [emitOrdered] at hemit
  · have hcreates : (channelsToCreate (emitOrderedOps (consolidation ops))).Nodup := by
      have hall := (numberable_consolidateOperations hn).nodup_creates
      rw [consolidateOperations_eq, channelsToCreate_append, channelsToCreate_append] at hall
      exact hall.of_append_left.of_append_left
    refine (List.pairwise_filterMap.mp hcreates).imp_of_mem ?_
    intro op op' hop hop' hne c hc hc'
    exact hne c (numberTargets_emitOrderedOps hop hc).2 c
      (numberTargets_emitOrderedOps hop' hc').2 rfl

theorem nodup_numberTargets_emitUpdates (ops : List BulkOperation) :
    ((emitUpdates (consolidation ops)).flatMap numberTargets).Nodup := by
  have hfiled := filed_consolidateOperations ops
  rw [List.nodup_flatMap]
  refine ⟨?_, ?_⟩
  · intro op hop
    obtain ⟨u, rfl⟩ := mem_emitUpdates hop
    exact numberTargets_nodup _ (by simp)
  · rw [emitUpdates, List.pairwise_filterMap]
    refine (List.pairwise_map.mp (consolidation ops).finalUpdates.nodup_keys).imp ?_
    intro e e' hne op hop op' hop' c hc hc'
    exact hne ((numberTargets_emitUpdate hfiled hop hc).2.symm.trans
      (numberTargets_emitUpdate hfiled hop' hc').2)

/-- The consolidated list writes no channel's number twice: the three groups write the channels
owned by three different kinds. -/
theorem nodup_numberTargets_consolidateOperations (hn : (channelsToCreate ops).Nodup) :
    ((consolidateOperations ops).flatMap numberTargets).Nodup := by
  have hfiled := filed_consolidateOperations ops
  have hcreate : ∀ c ∈ (emitOrderedOps (consolidation ops)).flatMap numberTargets,
      (consolidation ops).numberOwner.get? c = some .createChannel := by
    intro c hc
    obtain ⟨op, hop, hc⟩ := List.mem_flatMap.mp hc
    exact (numberTargets_emitOrderedOps hop hc).1
  have hupdate : ∀ c ∈ (emitUpdates (consolidation ops)).flatMap numberTargets,
      (consolidation ops).numberOwner.get? c = some .updateChannel := by
    intro c hc
    obtain ⟨op, hop, hc⟩ := List.mem_flatMap.mp hc
    obtain ⟨e, -, hemit⟩ := List.mem_filterMap.mp hop
    exact (numberTargets_emitUpdate hfiled hemit hc).1
  have hrange : ∀ c ∈ (rangeEntries (consolidation ops)).map Prod.fst,
      (consolidation ops).numberOwner.get? c = some .bulkAssignChannelNumbers := by
    intro c hc
    obtain ⟨⟨d, n⟩, hmem, rfl⟩ := List.mem_map.mp hc
    exact (mem_rangeEntries.mp hmem).2
  rw [consolidateOperations_eq, List.flatMap_append, List.flatMap_append,
    flatMap_numberTargets_emitRanges]
  refine ((nodup_numberTargets_emitOrderedOps hn).append
    (nodup_numberTargets_emitUpdates ops) ?_).append (nodup_rangeEntries _) ?_
  · intro c hc hc'
    have := (hcreate c hc).symm.trans (hupdate c hc')
    simp at this
  · intro c hc hc'
    have howner := hrange c hc'
    rcases List.mem_append.mp hc with hc | hc
    · have := (hcreate c hc).symm.trans howner
      simp at this
    · have := (hupdate c hc).symm.trans howner
      simp at this

end Targets

end ChannelManager
