import ChannelManager.Bulk.ConsolidateNumbering

/-!
# What consolidation does to consent

Consent is judged in arrival order, and consolidation emits creates first, then one update per
channel in first-touched order, then ranges by number. The two verdicts can differ only through
pairs of channels that share a slot and trade places.
-/

namespace ChannelManager

/-- The channels `updateChannel` operations name, in order. -/
def updatedIds (ops : List BulkOperation) : List ℤ :=
  ops.filterMap fun
    | .updateChannel u => some u.channelId
    | _ => none

/-- The channels range positions name, in order. -/
def rangedIds (ops : List BulkOperation) : List ℤ :=
  ops.flatMap fun
    | .bulkAssignChannelNumbers r => r.channelIds
    | _ => []

/-- `c`'s number is emitted before `d`'s, read off the submitted operations. -/
def EmittedBefore (ops : List BulkOperation) (c d : ℤ) : Prop :=
  match lastWrite (ownedWrite c) ops, lastWrite (ownedWrite d) ops with
  | some (i, .createChannel, _), some (j, .createChannel, _) => i < j
  | some (_, .createChannel, _), some _ => True
  | some (_, .updateChannel, _), some (_, .updateChannel, _) =>
    (updatedIds ops).idxOf c < (updatedIds ops).idxOf d
  | some (_, .updateChannel, _), some (_, .bulkAssignChannelNumbers, _) => True
  | some (_, .bulkAssignChannelNumbers, w), some (_, .bulkAssignChannelNumbers, w') =>
    w.number.getD 0 < w'.number.getD 0 ∨
      w.number = w'.number ∧ (rangedIds ops).idxOf c < (rangedIds ops).idxOf d
  | _, _ => False

/-! ## First-touched order -/

theorem eraseDups_concat (l : List ℤ) (k : ℤ) :
    (l ++ [k]).eraseDups = if k ∈ l then l.eraseDups else l.eraseDups ++ [k] := by
  rw [List.eraseDups_append]
  have hone : [k].eraseDups = [k] := rfl
  by_cases hk : k ∈ l <;> simp [List.removeAll, hk, hone]

theorem keys_set_eraseDups {ν : Type} (d : Dict ℤ ν) (l : List ℤ) (hd : d.keys = l.eraseDups)
    (k : ℤ) (v : ν) : (d.set k v).keys = (l ++ [k]).eraseDups := by
  have hmem : k ∈ d ↔ k ∈ l := by rw [Dict.mem_def, hd, List.mem_eraseDups]
  rw [Dict.keys_set, eraseDups_concat, hd]
  simp only [hmem]

section FirstTouched

variable (toDelete toCreate : List ℤ)

theorem updatedIds_append (ops ops' : List BulkOperation) :
    updatedIds (ops ++ ops') = updatedIds ops ++ updatedIds ops' := List.filterMap_append

theorem rangedIds_append (ops ops' : List BulkOperation) :
    rangedIds (ops ++ ops') = rangedIds ops ++ rangedIds ops' := List.flatMap_append

private theorem finalUpdates_positions (es : List (ℤ × ℚ)) (acc : Consolidation) :
    (es.foldl (consolidatePosition toDelete) acc).finalUpdates = acc.finalUpdates := by
  induction es generalizing acc with
  | nil => rfl
  | cons e es ih =>
    rw [List.foldl_cons, ih, consolidatePosition]
    split <;> rfl

theorem keys_finalUpdates (ops : List BulkOperation) :
    (ops.foldl (consolidateStep toDelete toCreate) {}).finalUpdates.keys =
      ((updatedIds ops).filter (· ∉ toDelete)).eraseDups := by
  induction ops using List.reverseRecOn with
  | nil => rfl
  | append_singleton ops op ih =>
    rw [List.foldl_append, List.foldl_cons, List.foldl_nil, updatedIds_append, List.filter_append]
    set acc := ops.foldl (consolidateStep toDelete toCreate) {} with hacc
    cases op with
    | updateChannel u =>
      by_cases hu : u.channelId ∈ toDelete
      · simpa [consolidateStep, hu, updatedIds] using ih
      · have hkeys := keys_set_eraseDups acc.finalUpdates _ ih u.channelId
          (((acc.finalUpdates.get? u.channelId).getD {}).update u.data)
        have hstep : (consolidateStep toDelete toCreate acc (.updateChannel u)).finalUpdates =
            acc.finalUpdates.set u.channelId
              (((acc.finalUpdates.get? u.channelId).getD {}).update u.data) := by
          simp only [consolidateStep, hu, if_false, consolidateUpdate]
          split <;> rfl
        rw [hstep, hkeys]
        simp [updatedIds, hu]
    | bulkAssignChannelNumbers r =>
      simpa [consolidateStep, finalUpdates_positions, updatedIds] using ih
    | _ =>
      simp only [consolidateStep, updatedIds, List.filterMap_cons_none, List.filterMap_nil,
        List.filter_nil, List.append_nil]
      first
      | exact ih
      | split <;> exact ih

private theorem keys_finalNumbers_positions (es : List (ℤ × ℚ)) (acc : Consolidation) (l : List ℤ)
    (hacc : acc.finalNumbers.keys = l.eraseDups) :
    (es.foldl (consolidatePosition toDelete) acc).finalNumbers.keys =
      (l ++ (es.map Prod.fst).filter (· ∉ toDelete)).eraseDups := by
  induction es generalizing acc l with
  | nil => simpa using hacc
  | cons e es ih =>
    rw [List.foldl_cons, List.map_cons]
    by_cases he : e.1 ∈ toDelete
    · rw [List.filter_cons_of_neg (by simpa using he)]
      apply ih
      simpa [consolidatePosition, he] using hacc
    · rw [List.filter_cons_of_pos (by simpa using he), List.append_cons]
      apply ih
      simp only [consolidatePosition, he, if_false]
      exact keys_set_eraseDups _ _ hacc _ _

theorem keys_finalNumbers (ops : List BulkOperation) :
    (ops.foldl (consolidateStep toDelete toCreate) {}).finalNumbers.keys =
      ((rangedIds ops).filter (· ∉ toDelete)).eraseDups := by
  induction ops using List.reverseRecOn with
  | nil => rfl
  | append_singleton ops op ih =>
    rw [List.foldl_append, List.foldl_cons, List.foldl_nil, rangedIds_append, List.filter_append]
    set acc := ops.foldl (consolidateStep toDelete toCreate) {} with hacc
    cases op with
    | bulkAssignChannelNumbers r =>
      have hids : r.assignments.map Prod.fst = r.channelIds := by
        simp [BulkAssignNumbersOp.assignments, Function.comp_def]
      have hkeys := keys_finalNumbers_positions toDelete r.assignments acc _ ih
      rw [hids] at hkeys
      simpa [consolidateStep, rangedIds] using hkeys
    | updateChannel u =>
      simp only [consolidateStep, rangedIds, consolidateUpdate, List.flatMap_cons, List.flatMap_nil,
        List.append_nil, List.filter_nil]
      split
      · exact ih
      · split <;> exact ih
    | _ =>
      simp only [consolidateStep, rangedIds, List.flatMap_cons, List.flatMap_nil,
        List.filter_nil, List.append_nil]
      first
      | exact ih
      | split <;> exact ih

/-- What is first touched earlier comes earlier among the keys. -/
theorem eraseDups_cut {l : List ℤ} {c d : ℤ} (hc : c ∉ toDelete) (h : l.idxOf c < l.idxOf d) :
    ∃ ks ks', (l.filter (· ∉ toDelete)).eraseDups = ks ++ ks' ∧ c ∈ ks ∧ d ∉ ks := by
  have hle : l.idxOf d ≤ l.length := List.idxOf_le_length
  have hc' : c ∈ l.take (l.idxOf d) := by
    rw [List.mem_take_iff_idxOf_lt (List.idxOf_lt_length_iff.mp (by omega))]
    exact h
  have hd' : d ∉ l.take (l.idxOf d) := by
    intro hmem
    rw [List.mem_take_iff_idxOf_lt (List.mem_of_mem_take hmem)] at hmem
    omega
  have hcut : l.filter (· ∉ toDelete) = (l.take (l.idxOf d)).filter (· ∉ toDelete) ++
      (l.drop (l.idxOf d)).filter (· ∉ toDelete) := by
    rw [← List.filter_append, List.take_append_drop]
  rw [hcut, List.eraseDups_append]
  refine ⟨_, _, rfl, ?_, ?_⟩
  · rw [List.mem_eraseDups, List.mem_filter]
    exact ⟨hc', by simpa using hc⟩
  · rw [List.mem_eraseDups, List.mem_filter]
    exact fun hmem => hd' hmem.1

end FirstTouched

/-! ## Emission order -/

section EmissionOrder

variable {ops : List BulkOperation} {c d : ℤ}

theorem owner_consolidation (hc : c ∉ channelsToDelete ops) {i : ℕ} {owner : NumberOwner}
    {w : NumberWrite} (h : lastWrite (ownedWrite c) ops = some (i, owner, w)) :
    (consolidation ops).numberOwner.get? c = some owner := by
  rw [(resolved_consolidateOperations hc).owner, h]
  rfl

theorem exists_write_emitUpdates (hd : d ∉ channelsToDelete ops) {j : ℕ} {w : NumberWrite}
    (h : lastWrite (ownedWrite d) ops = some (j, .updateChannel, w)) :
    ∃ op ∈ emitUpdates (consolidation ops), (numberWrite d op).isSome := by
  have hres := resolved_consolidateOperations hd
  rw [h, Option.map_some] at hres
  obtain ⟨patch, op, hpatch, hemit, hw⟩ := exists_emitUpdate (filed_consolidateOperations ops) hres
  have hmem := (Dict.get?_eq_some _ _ _).mp hpatch
  exact ⟨op, List.mem_filterMap.mpr ⟨_, hmem, hemit⟩, by simp [hw]⟩

theorem mem_rangeEntries_consolidation (hd : d ∉ channelsToDelete ops) {j : ℕ} {w : NumberWrite}
    (h : lastWrite (ownedWrite d) ops = some (j, .bulkAssignChannelNumbers, w)) :
    ∃ m, w = ⟨some m, none⟩ ∧ (d, m) ∈ rangeEntries (consolidation ops) := by
  have hres := resolved_consolidateOperations hd
  rw [h, Option.map_some] at hres
  obtain ⟨m, hm, rfl⟩ := hres.range w rfl
  exact ⟨m, rfl, mem_rangeEntries.mpr ⟨hm, hres.owner⟩⟩

theorem exists_write_emitRanges (hd : d ∉ channelsToDelete ops) {j : ℕ} {w : NumberWrite}
    (h : lastWrite (ownedWrite d) ops = some (j, .bulkAssignChannelNumbers, w)) :
    ∃ op ∈ emitRanges (rangeEntries (consolidation ops)), (numberWrite d op).isSome := by
  obtain ⟨m, -, hm⟩ := mem_rangeEntries_consolidation hd h
  obtain ⟨op, hop, hw⟩ := exists_emitRange hm
  exact ⟨op, hop, by simp [hw]⟩

/-- A cut of the emitted list after which `d` is written and `c` no more. -/
def Cuts (ops : List BulkOperation) (c d : ℤ) : Prop :=
  ∃ l l', consolidateOperations ops = l ++ l' ∧ (∀ op ∈ l', numberWrite c op = none) ∧
    ∃ op ∈ l', (numberWrite d op).isSome

theorem Cuts.lt {i j : ℕ} {w w' : NumberWrite} (h : Cuts ops c d)
    (hi : lastWrite (numberWrite c) (consolidateOperations ops) = some (i, w))
    (hj : lastWrite (numberWrite d) (consolidateOperations ops) = some (j, w')) : i < j := by
  obtain ⟨l, l', heq, hquiet, hloud⟩ := h
  rw [heq] at hi hj
  exact lastWrite_lt_of_cut hi hj hquiet hloud

theorem quiet_emitUpdates (h : (consolidation ops).numberOwner.get? c ≠ some .updateChannel) :
    ∀ op ∈ emitUpdates (consolidation ops), numberWrite c op = none :=
  (lastWrite_eq_none _ _).mp (lastWrite_emitUpdates_none (filed_consolidateOperations ops) h)

theorem quiet_emitRanges
    (h : (consolidation ops).numberOwner.get? c ≠ some .bulkAssignChannelNumbers) :
    ∀ op ∈ emitRanges (rangeEntries (consolidation ops)), numberWrite c op = none :=
  (lastWrite_eq_none _ _).mp (lastWrite_emitRanges_none h)

theorem cuts_after_ordered (howner : (consolidation ops).numberOwner.get? c = some .createChannel)
    (hloud : ∃ op ∈ emitUpdates (consolidation ops) ++
      emitRanges (rangeEntries (consolidation ops)), (numberWrite d op).isSome) : Cuts ops c d := by
  refine ⟨_, _, by rw [consolidateOperations_eq, List.append_assoc], ?_, hloud⟩
  intro op hop
  rcases List.mem_append.mp hop with hop | hop
  · exact quiet_emitUpdates (by simp [howner]) op hop
  · exact quiet_emitRanges (by simp [howner]) op hop

theorem cuts_after_updates (howner : (consolidation ops).numberOwner.get? c = some .updateChannel)
    (hloud : ∃ op ∈ emitRanges (rangeEntries (consolidation ops)), (numberWrite d op).isSome) :
    Cuts ops c d :=
  ⟨_, _, consolidateOperations_eq ops, quiet_emitRanges (by simp [howner]), hloud⟩

/-- A create owns its number exactly when it is the channel's last write. -/
theorem create_of_lastWrite {i : ℕ} {w : NumberWrite}
    (h : lastWrite (ownedWrite c) ops = some (i, .createChannel, w)) :
    ∃ pre k post, ops = pre ++ .createChannel k :: post ∧ pre.length = i ∧ k.tempId = c ∧
      ∀ op ∈ post, ownedWrite c op = none := by
  obtain ⟨pre, op, post, heq, hlen, hop, hpost⟩ := lastWrite_eq_some.mp h
  obtain ⟨w', hw', hpair⟩ := Option.map_eq_some_iff.mp hop
  have hkind : op.owner = .createChannel := congrArg Prod.fst hpair
  cases op with
  | createChannel k =>
    refine ⟨pre, k, post, heq, hlen, ?_, hpost⟩
    by_contra hne
    simp [numberWrite, hne] at hw'
  | _ => simp [BulkOperation.owner] at hkind

theorem cuts_creates (hc : c ∉ channelsToDelete ops) (hd : d ∉ channelsToDelete ops) {i j : ℕ}
    {w w' : NumberWrite} (hci : lastWrite (ownedWrite c) ops = some (i, .createChannel, w))
    (hdj : lastWrite (ownedWrite d) ops = some (j, .createChannel, w')) (hij : i < j) :
    Cuts ops c d := by
  have howner := owner_consolidation hc hci
  obtain ⟨pre, k, post, heq, hlen, hid, hpost⟩ := create_of_lastWrite hci
  obtain ⟨pre', k', post', heq', hlen', hid', -⟩ := create_of_lastWrite hdj
  have hk' : BulkOperation.createChannel k' ∈ post := by
    have hget : ops[j]? = some (.createChannel k') := by simp [heq', ← hlen']
    rw [heq, List.append_cons, List.getElem?_append_right (by simp [hlen]; omega)] at hget
    exact List.mem_of_getElem? hget
  set f := fun l : List BulkOperation =>
    (l.filter (passesThrough (channelsToDelete ops) (channelsToCreate ops))).map
      (emitOrdered (consolidation ops).numberOwner) with hf
  have hordered : emitOrderedOps (consolidation ops) = f (pre ++ [.createChannel k]) ++ f post := by
    have hall : (consolidation ops).orderedOps =
        ops.filter (passesThrough (channelsToDelete ops) (channelsToCreate ops)) :=
      orderedOps_consolidation _ _ ops
    rw [emitOrderedOps, hall, hf, ← List.map_append, ← List.filter_append, ← List.append_cons,
      ← heq]
  refine ⟨f (pre ++ [.createChannel k]), f post ++ (emitUpdates (consolidation ops) ++
    emitRanges (rangeEntries (consolidation ops))), ?_, ?_, ?_⟩
  · rw [consolidateOperations_eq, hordered]
    simp
  · intro op hop
    rcases List.mem_append.mp hop with hop | hop
    · obtain ⟨op', hop', rfl⟩ := List.mem_map.mp hop
      obtain ⟨hmem, hpass⟩ := List.mem_filter.mp hop'
      by_contra hne
      obtain ⟨v, hv⟩ := Option.ne_none_iff_exists'.mp hne
      obtain ⟨k₀, rfl, hid₀, -⟩ := numberWrite_emitOrdered hpass hv
      have := hpost _ hmem
      simp [ownedWrite, numberWrite, hid₀] at this
    · rcases List.mem_append.mp hop with hop | hop
      · exact quiet_emitUpdates (by simp [howner]) op hop
      · exact quiet_emitRanges (by simp [howner]) op hop
  · have hpass : passesThrough (channelsToDelete ops) (channelsToCreate ops)
        (.createChannel k') := by simpa [passesThrough, hid'] using hd
    have howner' := owner_consolidation hd hdj
    refine ⟨.createChannel k', List.mem_append_left _ (List.mem_map.mpr
      ⟨.createChannel k', List.mem_filter.mpr ⟨hk', hpass⟩, ?_⟩), by simp [numberWrite, hid']⟩
    simp [emitOrdered, hid', howner']

theorem cuts_updates (hc : c ∉ channelsToDelete ops) (hd : d ∉ channelsToDelete ops) {i j : ℕ}
    {w w' : NumberWrite} (hci : lastWrite (ownedWrite c) ops = some (i, .updateChannel, w))
    (hdj : lastWrite (ownedWrite d) ops = some (j, .updateChannel, w'))
    (hlt : (updatedIds ops).idxOf c < (updatedIds ops).idxOf d) : Cuts ops c d := by
  have hfiled := filed_consolidateOperations ops
  have howner := owner_consolidation hc hci
  obtain ⟨ks, ks', hkeys, hck, hdk⟩ := eraseDups_cut (channelsToDelete ops) hc hlt
  rw [← keys_finalUpdates (channelsToDelete ops) (channelsToCreate ops) ops] at hkeys
  obtain ⟨its, its', hitems, rfl, rfl⟩ := List.map_eq_append_iff.mp hkeys
  have hck' : c ∉ its'.map Prod.fst := by
    have hnodup := (consolidation ops).finalUpdates.nodup_keys
    have hsplit : (consolidation ops).finalUpdates.items = its ++ its' := hitems
    rw [hsplit, List.map_append] at hnodup
    exact List.disjoint_of_nodup_append hnodup hck
  have hcut : emitUpdates (consolidation ops) = its.filterMap (emitUpdate (consolidation ops)) ++
      its'.filterMap (emitUpdate (consolidation ops)) := by
    have hsplit : (consolidation ops).finalUpdates.items = its ++ its' := hitems
    rw [emitUpdates, hsplit, List.filterMap_append]
  refine ⟨emitOrderedOps (consolidation ops) ++ its.filterMap (emitUpdate (consolidation ops)),
    its'.filterMap (emitUpdate (consolidation ops)) ++
      emitRanges (rangeEntries (consolidation ops)), ?_, ?_, ?_⟩
  · rw [consolidateOperations_eq, hcut]
    simp
  · intro op hop
    rcases List.mem_append.mp hop with hop | hop
    · obtain ⟨e, he, hemit⟩ := List.mem_filterMap.mp hop
      obtain ⟨u, rfl, hid, -⟩ := emitUpdate_eq_some hfiled hemit
      have hne : u.channelId ≠ c := fun heq =>
        hck' (List.mem_map.mpr ⟨e, he, hid.symm.trans heq⟩)
      simp [numberWrite, hne]
    · exact quiet_emitRanges (by simp [howner]) op hop
  · have hres := resolved_consolidateOperations hd
    rw [hdj, Option.map_some] at hres
    obtain ⟨patch, op, hpatch, hemit, hw⟩ := exists_emitUpdate hfiled hres
    have hmem := (Dict.get?_eq_some _ _ _).mp hpatch
    have hmem' : (d, patch) ∈ its' := by
      have hsplit : (consolidation ops).finalUpdates.items = its ++ its' := hitems
      rw [hsplit, List.mem_append] at hmem
      exact hmem.resolve_left fun h => hdk (List.mem_map_of_mem h)
    exact ⟨op, List.mem_append_left _ (List.mem_filterMap.mpr ⟨_, hmem', hemit⟩), by simp [hw]⟩

/-- Two cuts of a list without repetitions cannot disagree about which element comes first. -/
private theorem cut_agrees {α : Type} {l l' r r' : List α} {a b : α} (h : l ++ l' = r ++ r')
    (hn : (l ++ l').Nodup) (har : a ∈ r) (hbr : b ∈ r') (hbl : b ∈ l) (hal : a ∈ l') : False := by
  have hn' : (r ++ r').Nodup := h ▸ hn
  rcases List.append_eq_append_iff.mp h with ⟨m, rfl, -⟩ | ⟨m, rfl, -⟩
  · exact List.disjoint_of_nodup_append hn' (List.mem_append_left _ hbl) hbr
  · exact List.disjoint_of_nodup_append hn (List.mem_append_left _ har) hal

/-- Entries are emitted by number, and by first range position within a number. -/
theorem rangeEntries_cut (hc : c ∉ channelsToDelete ops) {n m : ℚ}
    (hcn : (c, n) ∈ rangeEntries (consolidation ops))
    (hdm : (d, m) ∈ rangeEntries (consolidation ops))
    (h : n < m ∨ n = m ∧ (rangedIds ops).idxOf c < (rangedIds ops).idxOf d) :
    ∃ es es', rangeEntries (consolidation ops) = es ++ es' ∧ (c, n) ∈ es ∧ (d, m) ∈ es' := by
  rcases h with hlt | ⟨rfl, hidx⟩
  · obtain ⟨es, es', heq⟩ := List.append_of_mem hcn
    refine ⟨es ++ [(c, n)], es', by simp [heq], by simp, ?_⟩
    have hsorted : (rangeEntries (consolidation ops)).Pairwise fun a b => a.2 ≤ b.2 :=
      List.pairwise_insertionSort _ _
    rw [heq, List.mem_append, List.mem_cons] at hdm
    rcases hdm with hbefore | hself | hafter
    · rw [heq] at hsorted
      have hle := (List.pairwise_append.mp hsorted).2.2 _ hbefore (c, n) (by simp)
      exact absurd hlt (not_lt.mpr hle)
    · obtain rfl := congrArg Prod.snd hself
      exact absurd hlt (lt_irrefl _)
    · exact hafter
  · obtain ⟨ks, ks', hkeys, hck, hdk⟩ := eraseDups_cut (channelsToDelete ops) hc hidx
    rw [← keys_finalNumbers (channelsToDelete ops) (channelsToCreate ops) ops] at hkeys
    obtain ⟨its, its', hitems, rfl, rfl⟩ := List.map_eq_append_iff.mp hkeys
    have hsplit : (consolidation ops).finalNumbers.items = its ++ its' := hitems
    have hnodup := (consolidation ops).finalNumbers.nodup_keys
    rw [hsplit, List.map_append] at hnodup
    obtain ⟨hcget, hcown⟩ := mem_rangeEntries.mp hcn
    obtain ⟨hdget, hdown⟩ := mem_rangeEntries.mp hdm
    have hcits : (c, n) ∈ its := by
      have hmem := (Dict.get?_eq_some _ _ _).mp hcget
      rw [hsplit, List.mem_append] at hmem
      exact hmem.resolve_right fun h =>
        List.disjoint_of_nodup_append hnodup hck (List.mem_map_of_mem h)
    have hdits : (d, n) ∈ its' := by
      have hmem := (Dict.get?_eq_some _ _ _).mp hdget
      rw [hsplit, List.mem_append] at hmem
      exact hmem.resolve_left fun h => hdk (List.mem_map_of_mem h)
    set owned := fun e : ℤ × ℚ =>
      decide ((consolidation ops).numberOwner.get? e.1 = some .bulkAssignChannelNumbers)
    have hpair : [(c, n), (d, n)].Sublist
        ((consolidation ops).finalNumbers.items.filter owned) := by
      rw [hsplit, List.filter_append]
      refine List.cons_sublist_iff.mpr ⟨its.filter owned, its'.filter owned, rfl, ?_, ?_⟩
      · exact List.mem_filter.mpr ⟨hcits, by simpa [owned] using hcown⟩
      · exact List.singleton_sublist.mpr
          (List.mem_filter.mpr ⟨hdits, by simpa [owned] using hdown⟩)
    have hsorted : [(c, n), (d, n)].Sublist (rangeEntries (consolidation ops)) :=
      List.pair_sublist_insertionSort (le_refl n) hpair
    obtain ⟨es, es', heq, hces, hdes⟩ := List.cons_sublist_iff.mp hsorted
    exact ⟨es, es', heq, hces, List.singleton_sublist.mp hdes⟩

theorem cuts_ranges (hc : c ∉ channelsToDelete ops) (hcd : c ≠ d) {n m : ℚ}
    (hcn : (c, n) ∈ rangeEntries (consolidation ops))
    (hdm : (d, m) ∈ rangeEntries (consolidation ops)) (hslot : slotKey n = slotKey m)
    (h : n < m ∨ n = m ∧ (rangedIds ops).idxOf c < (rangedIds ops).idxOf d) : Cuts ops c d := by
  obtain ⟨es, es', hcut, hces, hdes⟩ := rangeEntries_cut hc hcn hdm h
  have hkeys := nodup_rangeEntries (consolidation ops)
  have hnodup : (rangeEntries (consolidation ops)).Nodup := hkeys.of_map _
  have hflat := flatten_rangeRuns (rangeEntries (consolidation ops))
  have hmem : (c, n) ∈ (rangeRuns (rangeEntries (consolidation ops))).flatten := by rwa [hflat]
  obtain ⟨run, hrun, hcrun⟩ := List.mem_flatten.mp hmem
  obtain ⟨runs, runs', hruns⟩ := List.append_of_mem hrun
  have hwhole : rangeEntries (consolidation ops) = runs.flatten ++ (run ++ runs'.flatten) := by
    rw [← hflat, hruns]
    simp
  have hkeys' : ((runs.flatten ++ run).map Prod.fst ++ runs'.flatten.map Prod.fst).Nodup := by
    rw [← List.map_append, List.append_assoc, ← hwhole]
    exact hkeys
  -- a run holds consecutive numbers, so `d` is in a later one
  have hdrun : (d, m) ∉ run := by
    intro hd
    have hrunKeys : (run.map Prod.fst).Nodup := by
      rw [List.map_append] at hkeys'
      exact hkeys'.of_append_left.of_append_right
    have hcw : numberWrite c (emitRange run) = some ⟨some n, none⟩ := by
      rw [numberWrite_emitRange hrun, numberAt_of_nodup hrunKeys hcrun, Option.map_some]
    have hdw : numberWrite d (emitRange run) = some ⟨some m, none⟩ := by
      rw [numberWrite_emitRange hrun, numberAt_of_nodup hrunKeys hd, Option.map_some]
    exact slot_ne_of_numberWrite hcd hcw hdw rfl rfl hslot
  have hdlater : (d, m) ∈ runs'.flatten := by
    have hd := hdm
    rw [hwhole, List.mem_append, List.mem_append] at hd
    rcases hd with hd | hd | hd
    · exact absurd (cut_agrees (hwhole.symm.trans hcut) (hwhole ▸ hnodup) hces hdes hd
        (List.mem_append_left _ hcrun)) id
    · exact absurd hd hdrun
    · exact hd
  obtain ⟨run', hrun', hdrun'⟩ := List.mem_flatten.mp hdlater
  have hmem' : ∀ r ∈ runs', r ∈ rangeRuns (rangeEntries (consolidation ops)) := by
    intro r hr
    rw [hruns]
    simp [hr]
  refine ⟨emitOrderedOps (consolidation ops) ++ emitUpdates (consolidation ops) ++
    (runs ++ [run]).map emitRange, runs'.map emitRange, ?_, ?_, ?_⟩
  · have hemit : emitRanges (rangeEntries (consolidation ops)) =
        (rangeRuns (rangeEntries (consolidation ops))).map emitRange := rfl
    rw [consolidateOperations_eq, hemit, hruns]
    simp
  · intro op hop
    obtain ⟨r, hr, rfl⟩ := List.mem_map.mp hop
    rw [numberWrite_emitRange (hmem' r hr), Option.map_eq_none_iff]
    by_contra hne
    obtain ⟨x, hx⟩ := Option.ne_none_iff_exists'.mp hne
    have hlater : c ∈ runs'.flatten.map Prod.fst :=
      List.mem_map.mpr ⟨(c, x), List.mem_flatten.mpr ⟨r, hr, mem_of_numberAt hx⟩, rfl⟩
    exact List.disjoint_of_nodup_append hkeys'
      (List.mem_map_of_mem (List.mem_append_right _ hcrun)) hlater
  · refine ⟨emitRange run', List.mem_map_of_mem hrun', ?_⟩
    rw [numberWrite_emitRange (hmem' run' hrun'), Option.isSome_map, numberAt_isSome]
    exact List.mem_map_of_mem hdrun'

/-- The emission order on channels that share a slot is the order of the emitted list. -/
theorem EmittedBefore.cuts (hc : c ∉ channelsToDelete ops) (hd : d ∉ channelsToDelete ops)
    (hcd : c ≠ d) (h : EmittedBefore ops c d)
    (hslot : ∀ i j o o' w w' n m, lastWrite (ownedWrite c) ops = some (i, o, w) →
      lastWrite (ownedWrite d) ops = some (j, o', w') → w.number = some n → w'.number = some m →
      slotKey n = slotKey m) : Cuts ops c d := by
  unfold EmittedBefore at h
  cases hlc : lastWrite (ownedWrite c) ops with
  | none => simp [hlc] at h
  | some e =>
    cases hld : lastWrite (ownedWrite d) ops with
    | none => simp [hlc, hld] at h
    | some e' =>
      obtain ⟨i, owner, w⟩ := e
      obtain ⟨j, owner', w'⟩ := e'
      rw [hlc, hld] at h
      have howner := owner_consolidation hc hlc
      cases owner with
      | createChannel =>
        cases owner' with
        | createChannel => exact cuts_creates hc hd hlc hld h
        | updateChannel =>
          obtain ⟨op, hop, hw⟩ := exists_write_emitUpdates hd hld
          exact cuts_after_ordered howner ⟨op, List.mem_append_left _ hop, hw⟩
        | bulkAssignChannelNumbers =>
          obtain ⟨op, hop, hw⟩ := exists_write_emitRanges hd hld
          exact cuts_after_ordered howner ⟨op, List.mem_append_right _ hop, hw⟩
      | updateChannel =>
        cases owner' with
        | createChannel => exact absurd h id
        | updateChannel => exact cuts_updates hc hd hlc hld h
        | bulkAssignChannelNumbers =>
          exact cuts_after_updates howner (exists_write_emitRanges hd hld)
      | bulkAssignChannelNumbers =>
        cases owner' with
        | createChannel => exact absurd h id
        | updateChannel => exact absurd h id
        | bulkAssignChannelNumbers =>
          obtain ⟨n, rfl, hcn⟩ := mem_rangeEntries_consolidation hc hlc
          obtain ⟨m, rfl, hdm⟩ := mem_rangeEntries_consolidation hd hld
          have hkey := hslot i j _ _ _ _ n m hlc hld rfl rfl
          refine cuts_ranges hc hcd hcn hdm hkey ?_
          simpa using h

theorem mem_updatedIds {i : ℕ} {w : NumberWrite}
    (h : lastWrite (ownedWrite c) ops = some (i, .updateChannel, w)) : c ∈ updatedIds ops := by
  obtain ⟨pre, op, post, rfl, -, hop, -⟩ := lastWrite_eq_some.mp h
  obtain ⟨w', hw', hpair⟩ := Option.map_eq_some_iff.mp hop
  have hkind : op.owner = .updateChannel := congrArg Prod.fst hpair
  cases op with
  | updateChannel u =>
    have hid : u.channelId = c := by
      by_contra hne
      simp [numberWrite, hne] at hw'
    exact List.mem_filterMap.mpr ⟨.updateChannel u, by simp, by simp [hid]⟩
  | createChannel k => simp [BulkOperation.owner] at hkind
  | bulkAssignChannelNumbers r => simp [BulkOperation.owner] at hkind
  | _ => simp [numberWrite] at hw'

theorem mem_rangedIds {i : ℕ} {w : NumberWrite}
    (h : lastWrite (ownedWrite c) ops = some (i, .bulkAssignChannelNumbers, w)) :
    c ∈ rangedIds ops ∧ ∃ n, w.number = some n := by
  obtain ⟨pre, op, post, rfl, -, hop, -⟩ := lastWrite_eq_some.mp h
  obtain ⟨w', hw', hpair⟩ := Option.map_eq_some_iff.mp hop
  have hkind : op.owner = .bulkAssignChannelNumbers := congrArg Prod.fst hpair
  have hval : w' = w := congrArg Prod.snd hpair
  cases op with
  | bulkAssignChannelNumbers r =>
    obtain ⟨n, hn, rfl⟩ := Option.map_eq_some_iff.mp hw'
    obtain ⟨k, hk, -⟩ := mem_assignments (mem_of_numberAt hn)
    refine ⟨List.mem_flatMap.mpr ⟨.bulkAssignChannelNumbers r, by simp, ?_⟩, n, by rw [← hval]⟩
    exact List.mem_of_getElem? hk
  | createChannel k => simp [BulkOperation.owner] at hkind
  | _ => simp [BulkOperation.owner] at hkind

theorem emittedBefore_total (hcd : c ≠ d) (hc : (lastWrite (ownedWrite c) ops).isSome)
    (hd : (lastWrite (ownedWrite d) ops).isSome) : EmittedBefore ops c d ∨ EmittedBefore ops d c := by
  obtain ⟨⟨i, owner, w⟩, hlc⟩ := Option.isSome_iff_exists.mp hc
  obtain ⟨⟨j, owner', w'⟩, hld⟩ := Option.isSome_iff_exists.mp hd
  unfold EmittedBefore
  rw [hlc, hld]
  cases owner with
  | createChannel =>
    cases owner' with
    | createChannel =>
      obtain ⟨pre, k, post, heq, hlen, hid, -⟩ := create_of_lastWrite hlc
      obtain ⟨pre', k', post', heq', hlen', hid', -⟩ := create_of_lastWrite hld
      have hne : i ≠ j := by
        rintro rfl
        have h1 : ops[i]? = some (.createChannel k) := by simp [heq, ← hlen]
        have h2 : ops[i]? = some (.createChannel k') := by simp [heq', ← hlen']
        have hk := Option.some.inj (h1.symm.trans h2)
        simp only [BulkOperation.createChannel.injEq] at hk
        exact hcd (by rw [← hid, ← hid', hk])
      exact Nat.lt_or_gt_of_ne hne
    | updateChannel => exact .inl trivial
    | bulkAssignChannelNumbers => exact .inl trivial
  | updateChannel =>
    cases owner' with
    | createChannel => exact .inr trivial
    | updateChannel =>
      have hne : (updatedIds ops).idxOf c ≠ (updatedIds ops).idxOf d := fun h =>
        hcd ((List.idxOf_inj (mem_updatedIds hlc)).mp h)
      exact Nat.lt_or_gt_of_ne hne
    | bulkAssignChannelNumbers => exact .inl trivial
  | bulkAssignChannelNumbers =>
    cases owner' with
    | createChannel => exact .inr trivial
    | updateChannel => exact .inr trivial
    | bulkAssignChannelNumbers =>
      obtain ⟨hcmem, n, hn⟩ := mem_rangedIds hlc
      obtain ⟨-, m, hm⟩ := mem_rangedIds hld
      have hne : (rangedIds ops).idxOf c ≠ (rangedIds ops).idxOf d := fun h =>
        hcd ((List.idxOf_inj hcmem).mp h)
      simp only [hn, hm, Option.getD_some, Option.some.injEq]
      rcases lt_trichotomy n m with h | h | h
      · exact .inl (.inl h)
      · rcases Nat.lt_or_gt_of_ne hne with hlt | hlt
        · exact .inl (.inr ⟨h, hlt⟩)
        · exact .inr (.inr ⟨h.symm, hlt⟩)
      · exact .inr (.inl h)

end EmissionOrder

/-! ## The two verdicts -/

section Verdicts

variable (lineup : Lineup) (ops : List BulkOperation)

/-- The plan is acceptable when the arrivals on a slot come in the order `before`. -/
structure AcceptedInOrder (before : ℤ → ℤ → Prop) : Prop where
  valid : ∀ c ∈ survivors lineup ops, (plannedOutcome lineup ops c).placed →
    ∀ n, (plannedOutcome lineup ops c).number = some n → isValidChannelNumber n
  consent : ∀ c ∈ survivors lineup ops, ∀ d ∈ survivors lineup ops, c ≠ d →
    (plannedOutcome lineup ops c).placed →
    ((plannedOutcome lineup ops d).placed → before d c) →
    ∀ slot, (plannedOutcome lineup ops c).slot? = some slot →
      (plannedOutcome lineup ops d).slot? = some slot → (plannedOutcome lineup ops c).Names slot d

/-- The operation that sets `d`'s final number is submitted before the one that sets `c`'s. -/
def SubmittedBefore (d c : ℤ) : Prop :=
  (plannedOutcome lineup ops d).arrival.getD 0 < (plannedOutcome lineup ops c).arrival.getD 0

theorem evaluateFinalNumbering_iff_submitted (hops : Numberable ops) :
    evaluateFinalNumbering lineup.channels ops = [] ↔
      AcceptedInOrder lineup ops (SubmittedBefore lineup ops) := by
  rw [evaluateFinalNumbering_eq_nil lineup hops]
  constructor
  · intro h
    refine ⟨fun c hc => h.valid _ (List.mem_map_of_mem hc), ?_⟩
    intro c hc d hd hcd hplaced hbefore slot hcs hds
    have hne : plannedOutcome lineup ops c ≠ plannedOutcome lineup ops d := by
      intro heq
      have := congrArg Outcome.channelId heq
      rw [channelId_plannedOutcome, channelId_plannedOutcome] at this
      exact hcd this
    have := h.consent _ (List.mem_map_of_mem hc) _ (List.mem_map_of_mem hd) hne hplaced hbefore
      slot hcs hds
    rwa [channelId_plannedOutcome] at this
  · intro h
    refine ⟨?_, ?_⟩
    · intro o ho
      obtain ⟨c, hc, rfl⟩ := List.mem_map.mp ho
      exact h.valid c hc
    · intro p hp q hq hne hplaced hbefore slot hps hqs
      obtain ⟨c, hc, rfl⟩ := List.mem_map.mp hp
      obtain ⟨d, hd, rfl⟩ := List.mem_map.mp hq
      rw [channelId_plannedOutcome]
      exact h.consent c hc d hd (fun heq => hne (by rw [heq])) hplaced hbefore slot hps hqs

theorem arrival_plannedOutcome (c : ℤ) :
    (plannedOutcome lineup ops c).arrival = (lastWrite (numberWrite c) ops).map Prod.fst := by
  rw [plannedOutcome, Outcome.settle]
  cases lastWrite (numberWrite c) ops <;> rfl

theorem isSome_lastWrite_of_placed {c : ℤ} (h : (plannedOutcome lineup ops c).placed) :
    (lastWrite (numberWrite c) ops).isSome := by
  have harrival := Outcome.isSome_arrival h
  rwa [arrival_plannedOutcome, Option.isSome_map] at harrival

/-- Consolidation changes when a channel arrives on its number, and nothing else about it. -/
theorem outcome_consolidateOperations (hn : (channelsToCreate ops).Nodup) {c : ℤ}
    (hc : c ∉ channelsToDelete ops) :
    (plannedOutcome lineup (consolidateOperations ops) c).placed =
        (plannedOutcome lineup ops c).placed ∧
      (plannedOutcome lineup (consolidateOperations ops) c).number =
        (plannedOutcome lineup ops c).number ∧
      (plannedOutcome lineup (consolidateOperations ops) c).acknowledgement =
        (plannedOutcome lineup ops c).acknowledgement := by
  have hsame := plannedOutcome_consolidateOperations lineup hn hc
  simp only [Outcome.mk.injEq] at hsame
  obtain ⟨-, hbase, hnew, hnumber, -, hack⟩ := hsame
  have hsome : (plannedOutcome lineup (consolidateOperations ops) c).arrival.isSome =
      (plannedOutcome lineup ops c).arrival.isSome := by
    have h := congrArg Option.isSome (lastWrite_consolidateOperations hn hc)
    simpa only [arrival_plannedOutcome, Option.isSome_map] using h
  refine ⟨?_, hnumber, hack⟩
  rw [Outcome.placed, Outcome.placed, hbase, hnew, hnumber, hsome]

theorem number_of_lastWrite {c : ℤ} {i : ℕ} {o : NumberOwner} {w : NumberWrite}
    (h : lastWrite (ownedWrite c) ops = some (i, o, w)) :
    (plannedOutcome lineup ops c).number = w.number := by
  rw [plannedOutcome, lastWrite_numberWrite, h]
  rfl

theorem submittedBefore_consolidateOperations (hn : (channelsToCreate ops).Nodup) {c d : ℤ}
    (hc : c ∉ channelsToDelete ops) (hd : d ∉ channelsToDelete ops) (hcd : c ≠ d)
    (hcp : (plannedOutcome lineup ops c).placed) (hdp : (plannedOutcome lineup ops d).placed)
    {slot : SlotKey} (hcs : (plannedOutcome lineup ops c).slot? = some slot)
    (hds : (plannedOutcome lineup ops d).slot? = some slot) :
    SubmittedBefore lineup (consolidateOperations ops) d c ↔ EmittedBefore ops d c := by
  have hcp' := (outcome_consolidateOperations lineup ops hn hc).1 ▸ hcp
  have hdp' := (outcome_consolidateOperations lineup ops hn hd).1 ▸ hdp
  obtain ⟨⟨i, w⟩, hi⟩ := Option.isSome_iff_exists.mp (isSome_lastWrite_of_placed lineup _ hcp')
  obtain ⟨⟨j, w'⟩, hj⟩ := Option.isSome_iff_exists.mp (isSome_lastWrite_of_placed lineup _ hdp')
  have hindex : SubmittedBefore lineup (consolidateOperations ops) d c ↔ j < i := by
    rw [SubmittedBefore, arrival_plannedOutcome, arrival_plannedOutcome, hi, hj]
    rfl
  have hslots : ∀ {a b : ℤ}, (plannedOutcome lineup ops a).slot? = some slot →
      (plannedOutcome lineup ops b).slot? = some slot →
      ∀ i j o o' w w' n m, lastWrite (ownedWrite a) ops = some (i, o, w) →
        lastWrite (ownedWrite b) ops = some (j, o', w') → w.number = some n →
        w'.number = some m → slotKey n = slotKey m := by
    intro a b has hbs i j o o' w w' n m ha hb hw hw'
    rw [Outcome.slot?, number_of_lastWrite lineup ops ha, hw] at has
    rw [Outcome.slot?, number_of_lastWrite lineup ops hb, hw'] at hbs
    exact Option.some.inj (has.trans hbs.symm)
  have howned : ∀ {a : ℤ}, (plannedOutcome lineup ops a).placed →
      (lastWrite (ownedWrite a) ops).isSome := by
    intro a ha
    have hsome := isSome_lastWrite_of_placed lineup ops ha
    rwa [lastWrite_numberWrite, Option.isSome_map] at hsome
  rw [hindex]
  constructor
  · intro hlt
    rcases emittedBefore_total hcd (howned hcp) (howned hdp) with h | h
    · have := (h.cuts hc hd hcd (hslots hcs hds)).lt hi hj
      omega
    · exact h
  · intro h
    exact (h.cuts hd hc hcd.symm (hslots hds hcs)).lt hj hi

theorem evaluateFinalNumbering_iff_emitted (hn : (channelsToCreate ops).Nodup) :
    evaluateFinalNumbering lineup.channels (consolidateOperations ops) = [] ↔
      AcceptedInOrder lineup ops (EmittedBefore ops) := by
  rw [evaluateFinalNumbering_iff_submitted lineup _ (numberable_consolidateOperations hn)]
  have hsurv := survivors_consolidateOperations lineup ops
  have hkept : ∀ c ∈ survivors lineup ops, c ∉ channelsToDelete ops :=
    fun c hc => (mem_survivors.mp hc).2
  constructor
  · intro h
    refine ⟨?_, ?_⟩
    · intro c hc hplaced n hnum
      obtain ⟨hp, hnumber, -⟩ := outcome_consolidateOperations lineup ops hn (hkept c hc)
      exact h.valid c (hsurv ▸ hc) (hp ▸ hplaced) n (hnumber ▸ hnum)
    · intro c hc d hd hcd hplaced hbefore slot hcs hds
      obtain ⟨hp, hnumber, hack⟩ := outcome_consolidateOperations lineup ops hn (hkept c hc)
      obtain ⟨hp', hnumber', -⟩ := outcome_consolidateOperations lineup ops hn (hkept d hd)
      have hnames := h.consent c (hsurv ▸ hc) d (hsurv ▸ hd) hcd (hp ▸ hplaced) (by
        intro hdp
        rw [hp'] at hdp
        rw [submittedBefore_consolidateOperations lineup ops hn (hkept c hc) (hkept d hd) hcd
          hplaced hdp hcs hds]
        exact hbefore hdp) slot (by rwa [Outcome.slot?, hnumber])
        (by rwa [Outcome.slot?, hnumber'])
      rwa [Outcome.Names, hack] at hnames
  · intro h
    refine ⟨?_, ?_⟩
    · intro c hc hplaced n hnum
      rw [hsurv] at hc
      obtain ⟨hp, hnumber, -⟩ := outcome_consolidateOperations lineup ops hn (hkept c hc)
      exact h.valid c hc (hp ▸ hplaced) n (hnumber ▸ hnum)
    · intro c hc d hd hcd hplaced hbefore slot hcs hds
      rw [hsurv] at hc hd
      obtain ⟨hp, hnumber, hack⟩ := outcome_consolidateOperations lineup ops hn (hkept c hc)
      obtain ⟨hp', hnumber', -⟩ := outcome_consolidateOperations lineup ops hn (hkept d hd)
      rw [Outcome.slot?, hnumber] at hcs
      rw [Outcome.slot?, hnumber'] at hds
      rw [hp] at hplaced
      rw [Outcome.Names, hack]
      refine h.consent c hc d hd hcd hplaced ?_ slot hcs hds
      intro hdp
      rw [← submittedBefore_consolidateOperations lineup ops hn (hkept c hc) (hkept d hd) hcd
        hplaced hdp hcs hds]
      exact hbefore (hp' ▸ hdp)

/-- Two channels this request puts on one slot, whose order of arrival consolidation reverses:
`first` is submitted first and `second` is emitted first. -/
structure Reordered (first second : ℤ) : Prop where
  ne : first ≠ second
  survives : first ∈ survivors lineup ops ∧ second ∈ survivors lineup ops
  placed : (plannedOutcome lineup ops first).placed ∧ (plannedOutcome lineup ops second).placed
  slot : ∃ slot, (plannedOutcome lineup ops first).slot? = some slot ∧
    (plannedOutcome lineup ops second).slot? = some slot
  submitted : SubmittedBefore lineup ops first second
  emitted : EmittedBefore ops second first

/-- The consent of `c`'s placement covers `d` on `c`'s own slot. -/
def ConsentsTo (c d : ℤ) : Prop :=
  ∀ slot, (plannedOutcome lineup ops c).slot? = some slot →
    (plannedOutcome lineup ops c).Names slot d

/-- The plan is acceptable as submitted, reordered pairs aside. -/
def AcceptedElsewhere : Prop :=
  AcceptedInOrder lineup ops fun d c =>
    SubmittedBefore lineup ops d c ∧ ¬Reordered lineup ops d c

theorem submittedBefore_total {c d : ℤ} (hcd : c ≠ d)
    (hcp : (plannedOutcome lineup ops c).placed) (hdp : (plannedOutcome lineup ops d).placed)
    {slot : SlotKey} (hcs : (plannedOutcome lineup ops c).slot? = some slot)
    (hds : (plannedOutcome lineup ops d).slot? = some slot) :
    SubmittedBefore lineup ops c d ∨ SubmittedBefore lineup ops d c := by
  have hne := plannedOutcome_untied lineup ops hcd hcp hdp slot hcs hds
  obtain ⟨i, hi⟩ := Option.isSome_iff_exists.mp (Outcome.isSome_arrival hcp)
  obtain ⟨j, hj⟩ := Option.isSome_iff_exists.mp (Outcome.isSome_arrival hdp)
  rw [hi, hj] at hne
  rw [SubmittedBefore, SubmittedBefore, hi, hj]
  exact Nat.lt_or_gt_of_ne fun h => hne (congrArg some h)

theorem acceptedInOrder_submitted_iff :
    AcceptedInOrder lineup ops (SubmittedBefore lineup ops) ↔
      AcceptedElsewhere lineup ops ∧
        ∀ first second, Reordered lineup ops first second →
          ConsentsTo lineup ops second first := by
  constructor
  · intro h
    refine ⟨⟨h.valid, ?_⟩, ?_⟩
    · intro c hc d hd hcd hcp hbefore slot hcs hds
      exact h.consent c hc d hd hcd hcp (fun hdp => (hbefore hdp).1) slot hcs hds
    · intro first second hr slot hslot
      obtain ⟨slot', hs, hs'⟩ := hr.slot
      obtain rfl := Option.some.inj (hs'.symm.trans hslot)
      exact h.consent second hr.survives.2 first hr.survives.1 hr.ne.symm hr.placed.2
        (fun _ => hr.submitted) slot' hs' hs
  · rintro ⟨helse, hreordered⟩
    refine ⟨helse.valid, ?_⟩
    intro c hc d hd hcd hcp hbefore slot hcs hds
    by_cases hr : Reordered lineup ops d c
    · exact hreordered d c hr slot hcs
    · exact helse.consent c hc d hd hcd hcp (fun hdp => ⟨hbefore hdp, hr⟩) slot hcs hds

theorem acceptedInOrder_emitted_iff (hn : (channelsToCreate ops).Nodup) :
    AcceptedInOrder lineup ops (EmittedBefore ops) ↔
      AcceptedElsewhere lineup ops ∧
        ∀ first second, Reordered lineup ops first second →
          ConsentsTo lineup ops first second := by
  have hkept : ∀ c ∈ survivors lineup ops, c ∉ channelsToDelete ops :=
    fun c hc => (mem_survivors.mp hc).2
  constructor
  · intro h
    refine ⟨⟨h.valid, ?_⟩, ?_⟩
    · intro c hc d hd hcd hcp hbefore slot hcs hds
      refine h.consent c hc d hd hcd hcp ?_ slot hcs hds
      intro hdp
      obtain ⟨hsub, hnot⟩ := hbefore hdp
      have howned : ∀ {a : ℤ}, (plannedOutcome lineup ops a).placed →
          (lastWrite (ownedWrite a) ops).isSome := by
        intro a ha
        have hsome := isSome_lastWrite_of_placed lineup ops ha
        rwa [lastWrite_numberWrite, Option.isSome_map] at hsome
      rcases emittedBefore_total hcd (howned hcp) (howned hdp) with hem | hem
      · exact absurd ⟨hcd.symm, ⟨hd, hc⟩, ⟨hdp, hcp⟩, ⟨slot, hds, hcs⟩, hsub, hem⟩ hnot
      · exact hem
    · intro first second hr slot hslot
      obtain ⟨slot', hs, hs'⟩ := hr.slot
      obtain rfl := Option.some.inj (hs.symm.trans hslot)
      exact h.consent first hr.survives.1 second hr.survives.2 hr.ne hr.placed.1
        (fun _ => hr.emitted) slot' hs hs'
  · rintro ⟨helse, hreordered⟩
    refine ⟨helse.valid, ?_⟩
    intro c hc d hd hcd hcp hbefore slot hcs hds
    by_cases hdp : (plannedOutcome lineup ops d).placed
    · have hem := hbefore hdp
      rcases submittedBefore_total lineup ops hcd hcp hdp hcs hds with hsub | hsub
      · exact hreordered c d ⟨hcd, ⟨hc, hd⟩, ⟨hcp, hdp⟩, ⟨slot, hcs, hds⟩, hsub, hem⟩ slot hcs
      · refine helse.consent c hc d hd hcd hcp (fun _ => ⟨hsub, ?_⟩) slot hcs hds
        intro hr
        -- both orders of emission at once contradict the positions in the emitted list
        have hdc := (submittedBefore_consolidateOperations lineup ops hn (hkept c hc) (hkept d hd)
          hcd hcp hdp hcs hds).mpr hem
        have hcd' := (submittedBefore_consolidateOperations lineup ops hn (hkept d hd) (hkept c hc)
          hcd.symm hdp hcp hds hcs).mpr hr.emitted
        exact absurd hdc (not_lt.mpr (le_of_lt hcd'))
    · exact helse.consent c hc d hd hcd hcp (fun h => absurd h hdp) slot hcs hds

end Verdicts

end ChannelManager
