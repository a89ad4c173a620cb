import ChannelManager.EditMode.Session

/-!
# The working copy, one channel at a time

No staged operation looks at more than one record, so a working copy is read here as the record it
holds for each channel id. Staging, replaying, undoing and redoing then act on one cell each.
-/

namespace ChannelManager.EditMode

/-- The record a working copy holds for a channel. -/
def look (workingCopy : List Channel) (c : ℤ) : Option Channel :=
  workingCopy.find? (·.id = c)

theorem look_id {workingCopy : List Channel} {c : ℤ} {ch : Channel}
    (h : look workingCopy c = some ch) : ch.id = c := by
  have hp := List.find?_some h
  exact of_decide_eq_true hp

theorem look_mem {workingCopy : List Channel} {c : ℤ} {ch : Channel}
    (h : look workingCopy c = some ch) : ch ∈ workingCopy :=
  List.mem_of_find?_eq_some h

theorem look_eq_none {workingCopy : List Channel} {c : ℤ} :
    look workingCopy c = none ↔ c ∉ workingCopy.map (·.id) := by
  simp [look, List.find?_eq_none]

theorem look_append (xs ys : List Channel) (c : ℤ) :
    look (xs ++ ys) c = (look xs c).or (look ys c) := by
  simp [look, List.find?_append]

theorem look_singleton (ch : Channel) (c : ℤ) :
    look [ch] c = if ch.id = c then some ch else none := by
  by_cases h : ch.id = c <;> simp [look, h]

theorem look_map (xs : List Channel) (g : Channel → Channel) (hg : ∀ ch, (g ch).id = ch.id)
    (c : ℤ) : look (xs.map g) c = (look xs c).map g := by
  induction xs with
  | nil => rfl
  | cons x xs ih =>
    by_cases h : x.id = c
    · simp [look, hg, h]
    · have hgx : (g x).id ≠ c := by rw [hg]; exact h
      simpa [look, List.find?_cons, h, hgx] using ih

theorem look_filter_ne (xs : List Channel) (d c : ℤ) :
    look (xs.filter (·.id ≠ d)) c = if d = c then none else look xs c := by
  by_cases hdc : d = c
  · rw [if_pos hdc, look_eq_none]
    simp [hdc]
  · rw [if_neg hdc]
    induction xs with
    | nil => rfl
    | cons x xs ih =>
      by_cases hx : x.id = d
      · have hxc : x.id ≠ c := fun h => hdc (hx.symm.trans h)
        simpa [look, List.filter_cons, List.find?_cons, hx, hdc] using ih
      · by_cases hxc : x.id = c
        · have hcd : c ≠ d := fun h => hdc h.symm
          simp [look, hxc, hcd]
        · simpa [look, List.find?_cons, hx, hxc] using ih

/-- What a working copy without a repeated id holds for a channel is the one it lists. -/
theorem mem_iff_look {workingCopy : List Channel} (h : (workingCopy.map (·.id)).Nodup)
    (ch : Channel) : ch ∈ workingCopy ↔ look workingCopy ch.id = some ch := by
  constructor
  · intro hmem
    induction workingCopy with
    | nil => cases hmem
    | cons z zs ih =>
      have hz := List.nodup_cons.mp h
      cases hmem with
      | head => simp [look]
      | tail _ hmem =>
        have hne : z.id ≠ ch.id := fun he => hz.1 (List.mem_map.mpr ⟨ch, hmem, he.symm⟩)
        simpa [look, List.find?_cons, hne] using ih hz.2 hmem
  · exact look_mem

/-- Two lists without a repeated id that hold the same records are the same up to order. -/
theorem perm_of_look_eq {xs ys : List Channel} (hx : (xs.map (·.id)).Nodup)
    (hy : (ys.map (·.id)).Nodup) (h : ∀ c, look xs c = look ys c) : xs.Perm ys := by
  rw [List.perm_ext_iff_of_nodup (List.Nodup.of_map _ hx) (List.Nodup.of_map _ hy)]
  intro ch
  rw [mem_iff_look hx, mem_iff_look hy, h]

/-- What an operation that neither adds nor removes channels does to a record. -/
def channelEffect (apiCall : ApiCallSpec) (ch : Channel) : Channel :=
  match apiCall with
  | .updateChannel call => if ch.id = call.channelId then ch.patch call.data else ch
  | .addStreamToChannel c s =>
    if ch.id = c then if s ∈ ch.streams then ch else { ch with streams := ch.streams ++ [s] } else ch
  | .removeStreamFromChannel c s =>
    if ch.id = c then { ch with streams := ch.streams.filter (· ≠ s) } else ch
  | .reorderChannelStreams c ss => if ch.id = c then { ch with streams := ss } else ch
  | .bulkAssignChannelNumbers call =>
    match call.numberOf ch.id with
    | none => ch
    | some n => { ch with channelNumber := some n }
  | _ => ch

@[simp] theorem channelEffect_id (apiCall : ApiCallSpec) (ch : Channel) :
    (channelEffect apiCall ch).id = ch.id := by
  unfold channelEffect
  split
  · split <;> simp
  · split
    · split <;> rfl
    · rfl
  · split <;> rfl
  · split <;> rfl
  · split <;> rfl
  · rfl

/-- The record of channel `c` after an operation, from the one before it. -/
def cell (apiCall : ApiCallSpec) (tempId c : ℤ) (record : Option Channel) : Option Channel :=
  match apiCall with
  | .createChannel call =>
    record.or (if tempId = c then some (buildStagedChannel call tempId) else none)
  | .deleteChannel d => if d = c then none else record
  | _ => record.map (channelEffect apiCall)

theorem look_applyWithCreate (wc : List Channel) (apiCall : ApiCallSpec) (tempId c : ℤ) :
    look (applyWithCreate wc apiCall tempId) c = cell apiCall tempId c (look wc c) := by
  cases apiCall
  case createChannel call => simp [applyWithCreate, cell, look_append, look_singleton,
    buildStagedChannel]
  case deleteChannel d => exact look_filter_ne wc d c
  case updateChannel call => exact look_map wc _ (channelEffect_id (.updateChannel call)) c
  case addStreamToChannel d x => exact look_map wc _ (channelEffect_id (.addStreamToChannel d x)) c
  case removeStreamFromChannel d x =>
    exact look_map wc _ (channelEffect_id (.removeStreamFromChannel d x)) c
  case reorderChannelStreams d xs =>
    exact look_map wc _ (channelEffect_id (.reorderChannelStreams d xs)) c
  case bulkAssignChannelNumbers call =>
    exact look_map wc _ (channelEffect_id (.bulkAssignChannelNumbers call)) c
  all_goals
    exact (congrFun Option.map_id (look wc c)).symm

theorem numberOf_eq_none {call : BulkAssignCall} {c : ℤ} (h : c ∉ call.channelIds) :
    call.numberOf c = none := by
  have aux : ∀ (ids : List ℤ) (k : ℕ) (m : Dict ℤ ℚ), c ∉ ids → m.get? c = none →
      ((ids.zipIdx k).foldl
        (fun m e => m.set e.1 (call.startingNumber.getD 1 + e.2)) m).get? c = none := by
    intro ids
    induction ids with
    | nil => intro k m _ hm; exact hm
    | cons d ids ih =>
      intro k m hc hm
      rw [List.zipIdx_cons, List.foldl_cons]
      refine ih (k + 1) _ (fun hmem => hc (List.mem_cons_of_mem _ hmem)) ?_
      have hd : d ≠ c := fun he => hc (he ▸ List.mem_cons_self)
      simp [Dict.get?_set, hd, hm]
  exact aux call.channelIds 0 ∅ h (by simp)

/-- An operation that names a channel nowhere leaves its record alone. -/
theorem cell_of_not_affected {apiCall : ApiCallSpec} {tempId c : ℤ} {record : Option Channel}
    (hcreate : ∀ call, apiCall = .createChannel call → tempId ≠ c)
    (hc : c ∉ affectedChannelIdsOf apiCall) (hid : ∀ ch, record = some ch → ch.id = c) :
    cell apiCall tempId c record = record := by
  cases apiCall
  case createChannel call => simp [cell, hcreate call rfl]
  case deleteChannel d =>
    have hd : d ≠ c := fun h => hc (by simp [affectedChannelIdsOf, h])
    simp [cell, hd]
  all_goals
    cases record with
    | none => rfl
    | some ch =>
      have hch := hid ch rfl
      simp only [affectedChannelIdsOf, List.mem_singleton] at hc
      simp [cell, channelEffect, hch, hc, numberOf_eq_none]

/-- An operation other than a create never brings a record into being. -/
theorem cell_none {apiCall : ApiCallSpec} {tempId c : ℤ}
    (hcreate : ∀ call, apiCall = .createChannel call → tempId ≠ c) :
    cell apiCall tempId c none = none := by
  cases apiCall
  case createChannel call => simp [cell, hcreate call rfl]
  all_goals simp [cell]

/-- The id a staged create stands under; irrelevant for every other operation. -/
def StagedOperation.tempId (operation : StagedOperation) : ℤ := operation.snapshotId?.getD 0

/-- Staged operations applied in order. -/
def replayed (base : List Channel) (operations : List StagedOperation) : List Channel :=
  operations.foldl (fun wc op => applyWithCreate wc op.apiCall op.tempId) base

@[simp] theorem replayed_nil (base : List Channel) : replayed base [] = base := rfl

theorem replayed_concat (base : List Channel) (ops : List StagedOperation)
    (op : StagedOperation) :
    replayed base (ops ++ [op]) = applyWithCreate (replayed base ops) op.apiCall op.tempId := by
  simp [replayed]

theorem look_replayed_concat (base : List Channel) (ops : List StagedOperation)
    (op : StagedOperation) (c : ℤ) :
    look (replayed base (ops ++ [op])) c =
      cell op.apiCall op.tempId c (look (replayed base ops) c) := by
  rw [replayed_concat, look_applyWithCreate]

end ChannelManager.EditMode
