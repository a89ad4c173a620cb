import ChannelManager.Profiles.Reconcile

/-!
# What a reconcile converges to

Without failures and without other writers a reconcile clears the stale ownership markers of the
channels its enumeration reaches and puts those that are not owned in exactly the selected profiles.
Doing it twice is doing it once, and doing it for two groups commutes.
-/

namespace ChannelManager.Profiles

/-- The channels a listing filtered by the group names, in order. -/
def residents (store : Store) (groupId : ℤ) : List (ℤ × Hosted) :=
  match store.groups.get? groupId with
  | none => []
  | some name =>
    store.channels.items.filter fun e => store.groups.get? e.2.group = some name

/-- The residents that the enumeration reaches: at most `_MAX_CHANNEL_PAGES` pages. -/
def reached (store : Store) (groupId : ℤ) : List (ℤ × Hosted) :=
  (residents store groupId).take (maxChannelPages * channelPageSize)

/-- The rows of channels. -/
def rowsOf (es : List (ℤ × Hosted)) : List Row :=
  es.map fun e => ⟨some e.1, e.2.customProperties⟩

/-- Custom properties without the ownership marker. -/
def unmarked : Json → Json
  | .dict fields => .dict (withoutMarker fields)
  | properties => properties

namespace Store

/-- Take the ownership marker off some channels. -/
def clear (store : Store) (channelIds : List ℤ) : Store :=
  store.mapProperties fun c old => if c ∈ channelIds then unmarked old else old

/-- Put channels in exactly the selected ones of the profiles. -/
def converge (store : Store) (channelIds selection : List ℤ) : Store :=
  { store with
    member := fun c p =>
      if c ∈ channelIds ∧ p ∈ store.profiles then decide (p ∈ selection) else store.member c p
    members_live := by
      intro c p h
      split at h
      next hcp => exact hcp.2
      next => exact store.members_live c p h }

end Store

/-- The channels of a group that are not owned. -/
def targets (liveRuleIds : Option (List ℤ)) (groupId : ℤ) (store : Store) : List ℤ :=
  targetsOf (rowsOf (reached store groupId)) liveRuleIds

/-- The channels of a group whose owning rule is gone. -/
def released (liveRuleIds : Option (List ℤ)) (groupId : ℤ) (store : Store) : List ℤ :=
  releasedOf (rowsOf (reached store groupId)) liveRuleIds

/-- How a reconcile for a selection ends. -/
def statusOf (liveRuleIds : Option (List ℤ)) (selection : List ℤ) (groupId : ℤ) (store : Store) :
    Status :=
  if targets liveRuleIds groupId store = [] then .noChannels
  else if (selection.filter fun p => p ∈ store.profiles) = [] then .staleSelection
  else .reconciled

/-- What a reconcile for a selection leaves. -/
def settle (liveRuleIds : Option (List ℤ)) (selection : List ℤ) (groupId : ℤ) (store : Store) :
    Store :=
  (store.clear (released liveRuleIds groupId store)).converge
    (if statusOf liveRuleIds selection groupId store = .reconciled then
      targets liveRuleIds groupId store else []) selection

section Store

variable {store : Store} {liveRuleIds : Option (List ℤ)} {selection selection' : List ℤ}
  {groupId groupId' : ℤ} {channelIds channelIds' : List ℤ}

theorem mapProperties_mapProperties (f g : ℤ → Json → Json) :
    (store.mapProperties f).mapProperties g = store.mapProperties fun c old => g c (f c old) := by
  refine Store.ext rfl ?_ rfl rfl
  apply Dict.ext
  exact List.map_map

theorem mapProperties_eq_self {f : ℤ → Json → Json}
    (h : ∀ e ∈ store.channels.items, f e.1 e.2.customProperties = e.2.customProperties) :
    store.mapProperties f = store := by
  refine Store.ext rfl ?_ rfl rfl
  apply Dict.ext
  apply (List.map_congr_left fun e he => _).trans (List.map_id _)
  intro e he
  rw [h e he]
  rfl

theorem stamp_none (store : Store) : store.stamp (fun _ => none) = store :=
  mapProperties_eq_self fun _ _ => rfl

theorem clear_nil (store : Store) : store.clear [] = store :=
  mapProperties_eq_self fun _ _ => if_neg (List.not_mem_nil)

theorem withoutMarker_withoutMarker (fields : List (String × Json)) :
    withoutMarker (withoutMarker fields) = withoutMarker fields := by
  unfold withoutMarker
  rw [List.filter_filter]
  simp only [Bool.and_self]

theorem unmarked_unmarked (properties : Json) :
    unmarked (unmarked properties) = unmarked properties := by
  cases properties with
  | dict fields => exact congrArg Json.dict (withoutMarker_withoutMarker fields)
  | _ => rfl

theorem clear_clear (store : Store) (channelIds channelIds' : List ℤ) :
    (store.clear channelIds).clear channelIds' = store.clear (channelIds ++ channelIds') := by
  unfold Store.clear
  rw [mapProperties_mapProperties]
  congr 1
  funext c old
  by_cases hc : c ∈ channelIds
  · by_cases hc' : c ∈ channelIds'
    · simp [hc, hc', unmarked_unmarked]
    · simp [hc, hc']
  · simp [hc]

theorem clear_comm (store : Store) (channelIds channelIds' : List ℤ) :
    (store.clear channelIds).clear channelIds' = (store.clear channelIds').clear channelIds := by
  rw [clear_clear, clear_clear]
  unfold Store.clear
  congr 1
  funext c old
  simp only [List.mem_append, or_comm]

/-- Writing back the custom properties of a channel without the marker is clearing it. -/
theorem setProperties_unmarked {channelId : ℤ} {hosted : Hosted}
    (hget : store.channels.get? channelId = some hosted) :
    store.setProperties channelId (unmarked hosted.customProperties) = store.clear [channelId] := by
  refine Store.ext rfl ?_ rfl rfl
  apply Dict.ext
  apply List.map_congr_left
  intro e he
  by_cases hc : e.1 = channelId
  · have hitem := (Dict.get?_eq_some _ _ _).mp hget
    have hsame : e = (channelId, hosted) :=
      List.inj_on_of_nodup_map store.channels.nodup_keys he hitem hc
    subst hsame
    simp
  · simp [hc]

theorem clear_singleton_eq_self {channelId : ℤ}
    (h : ∀ hosted, store.channels.get? channelId = some hosted →
      unmarked hosted.customProperties = hosted.customProperties) :
    store.clear [channelId] = store := by
  apply mapProperties_eq_self
  intro e he
  by_cases hc : e.1 ∈ [channelId]
  · obtain rfl := List.mem_singleton.mp hc
    rw [if_pos hc]
    exact h e.2 ((Dict.get?_eq_some _ _ _).mpr he)
  · exact if_neg hc

theorem withoutMarker_eq_self {fields : List (String × Json)}
    (hmarker : findEntry pipelineOwnershipMarkerKey fields = none)
    (hrule : findEntry pipelineOwnershipRuleIdKey fields = none) :
    withoutMarker fields = fields := by
  rw [← Option.not_isSome_iff_eq_none, findEntry_isSome] at hmarker hrule
  apply List.filter_eq_self.mpr
  intro e he
  have hmem := List.mem_map_of_mem (f := Prod.fst) he
  simp only [decide_eq_true_eq]
  exact ⟨fun h => hmarker (h ▸ hmem), fun h => hrule (h ▸ hmem)⟩

theorem converge_clear (store : Store) (channelIds channelIds' selection : List ℤ) :
    (store.converge channelIds selection).clear channelIds' =
      (store.clear channelIds').converge channelIds selection := rfl

theorem member_converge (store : Store) (channelIds selection : List ℤ) (c p : ℤ) :
    (store.converge channelIds selection).member c p =
      if c ∈ channelIds ∧ p ∈ store.profiles then decide (p ∈ selection) else store.member c p := rfl

theorem converge_converge (store : Store) (channelIds selection : List ℤ) :
    (store.converge channelIds selection).converge channelIds selection =
      store.converge channelIds selection := by
  refine Store.ext rfl rfl rfl ?_
  funext c p
  dsimp only [Store.converge]
  split <;> rfl

theorem converge_comm (store : Store) (hdisjoint : ∀ c ∈ channelIds, c ∉ channelIds') :
    (store.converge channelIds selection).converge channelIds' selection' =
      (store.converge channelIds' selection').converge channelIds selection := by
  refine Store.ext rfl rfl rfl ?_
  funext c p
  dsimp only [Store.converge]
  by_cases hc : c ∈ channelIds
  · simp [hc, hdisjoint c hc]
  · simp [hc]

/-- Names are given once, so the channels under a group's name are those in the group. -/
theorem mem_residents (e : ℤ × Hosted) :
    e ∈ residents store groupId ↔
      e ∈ store.channels.items ∧ e.2.group = groupId ∧ groupId ∈ store.groups := by
  unfold residents
  cases hname : store.groups.get? groupId with
  | none =>
    rw [Dict.get?_eq_none] at hname
    simp [hname]
  | some name =>
    have hmem : groupId ∈ store.groups := by
      rw [← Dict.isSome_get?, hname]
      rfl
    rw [List.mem_filter]
    simp only [decide_eq_true_eq, hmem, and_true]
    constructor
    · rintro ⟨he, hgroup⟩
      exact ⟨he, store.names_unique _ _ _ hgroup hname⟩
    · rintro ⟨he, rfl⟩
      exact ⟨he, hname⟩

theorem residents_mapProperties (f : ℤ → Json → Json) :
    residents (store.mapProperties f) groupId = (residents store groupId).map fun e =>
      (e.1, { e.2 with customProperties := f e.1 e.2.customProperties }) := by
  unfold residents
  show (match store.groups.get? groupId with | none => [] | some name => _) = _
  cases store.groups.get? groupId with
  | none => rfl
  | some name =>
    show (store.channels.items.map _).filter _ = _
    rw [List.filter_map]
    rfl

theorem reached_mapProperties (f : ℤ → Json → Json) :
    reached (store.mapProperties f) groupId = (reached store groupId).map fun e =>
      (e.1, { e.2 with customProperties := f e.1 e.2.customProperties }) := by
  rw [reached, residents_mapProperties, reached, List.map_take]

theorem mem_idsIn {state : Ownership → Bool} {es : List (ℤ × Hosted)} {c : ℤ} :
    c ∈ idsIn state (rowsOf es) liveRuleIds ↔
      ∃ hosted, (c, hosted) ∈ es ∧ state (ownershipState hosted.customProperties liveRuleIds) := by
  unfold idsIn rowsOf
  simp only [List.mem_filterMap, List.mem_map]
  constructor
  · rintro ⟨row, ⟨e, he, rfl⟩, hrow⟩
    split at hrow
    next hstate =>
      obtain rfl := Option.some.inj hrow
      exact ⟨e.2, he, hstate⟩
    next => cases hrow
  · rintro ⟨hosted, he, hstate⟩
    exact ⟨_, ⟨_, he, rfl⟩, if_pos hstate⟩

/-- Rewriting custom properties without changing in which of these states a channel is does not
change the ids. -/
theorem idsIn_map {state state' : Ownership → Bool} {es : List (ℤ × Hosted)}
    (f : ℤ → Json → Json)
    (h : ∀ e ∈ es, state' (ownershipState (f e.1 e.2.customProperties) liveRuleIds) =
      state (ownershipState e.2.customProperties liveRuleIds)) :
    idsIn state' (rowsOf (es.map fun e =>
      (e.1, { e.2 with customProperties := f e.1 e.2.customProperties }))) liveRuleIds =
      idsIn state (rowsOf es) liveRuleIds := by
  unfold idsIn rowsOf
  rw [List.map_map, List.filterMap_map, List.filterMap_map]
  apply List.filterMap_congr
  intro e he
  show (if state' (ownershipState (f e.1 e.2.customProperties) liveRuleIds) then some e.1 else none) =
    if state (ownershipState e.2.customProperties liveRuleIds) then some e.1 else none
  rw [h e he]

theorem ownershipState_unmarked (properties : Json) :
    ownershipState (unmarked properties) liveRuleIds = .unowned := by
  cases properties with
  | dict fields =>
    have hnone : findEntry pipelineOwnershipMarkerKey (withoutMarker fields) = none := by
      rw [← Option.not_isSome_iff_eq_none, findEntry_isSome]
      intro hmem
      obtain ⟨e, he, heq⟩ := List.mem_map.mp hmem
      exact (of_decide_eq_true (List.mem_filter.mp he).2).1 heq
    unfold unmarked ownershipState
    dsimp only
    rw [if_pos (by rw [hnone]; nofun)]
  | _ => rfl

/-- A channel is reached once, whatever the group. -/
theorem reached_unique {e e' : ℤ × Hosted} (he : e ∈ reached store groupId)
    (he' : e' ∈ reached store groupId') (h : e.1 = e'.1) : e = e' := by
  have hitem := ((mem_residents e).mp (List.mem_of_mem_take he)).1
  have hitem' := ((mem_residents e').mp (List.mem_of_mem_take he')).1
  exact List.inj_on_of_nodup_map store.channels.nodup_keys hitem hitem' h

/-- A channel is reached in one group only. -/
theorem reached_disjoint (hne : groupId ≠ groupId') {e e' : ℤ × Hosted}
    (he : e ∈ reached store groupId) (he' : e' ∈ reached store groupId') : e.1 ≠ e'.1 := by
  intro h
  obtain rfl := reached_unique he he' h
  have hgroup := ((mem_residents e).mp (List.mem_of_mem_take he)).2.1
  have hgroup' := ((mem_residents e).mp (List.mem_of_mem_take he')).2.1
  exact hne (hgroup.symm.trans hgroup')

theorem mem_targets {c : ℤ} : c ∈ targets liveRuleIds groupId store ↔
    ∃ hosted, (c, hosted) ∈ reached store groupId ∧
      ownershipState hosted.customProperties liveRuleIds ≠ .owned := by
  unfold targets targetsOf
  simp [mem_idsIn]

theorem mem_released {c : ℤ} : c ∈ released liveRuleIds groupId store ↔
    ∃ hosted, (c, hosted) ∈ reached store groupId ∧
      ownershipState hosted.customProperties liveRuleIds = .released := by
  unfold released releasedOf
  simp [mem_idsIn]

/-- Clearing markers of released channels makes none owned and leaves none released. -/
theorem state_clear {e : ℤ × Hosted} (he : e ∈ reached store groupId)
    (hreleased : ∀ c ∈ channelIds, c ∈ released liveRuleIds groupId store) :
    ownershipState (if e.1 ∈ channelIds then unmarked e.2.customProperties
        else e.2.customProperties) liveRuleIds = .owned ↔
      ownershipState e.2.customProperties liveRuleIds = .owned := by
  split
  next hc =>
    obtain ⟨hosted, hmem, hstate⟩ := mem_released.mp (hreleased _ hc)
    have hsame : e = (e.1, hosted) := reached_unique he hmem rfl
    rw [hsame, ownershipState_unmarked, hstate]
    simp
  next => exact Iff.rfl

theorem targets_clear (hreleased : ∀ c ∈ channelIds, c ∈ released liveRuleIds groupId store) :
    targets liveRuleIds groupId (store.clear channelIds) = targets liveRuleIds groupId store := by
  unfold targets Store.clear targetsOf
  rw [reached_mapProperties]
  apply idsIn_map fun c old => if c ∈ channelIds then unmarked old else old
  intro e he
  have hstate := state_clear he hreleased
  by_cases howned : ownershipState e.2.customProperties liveRuleIds = .owned
  · simp [hstate.mpr howned, howned]
  · simp [mt hstate.mp howned, howned]

theorem released_clear_self :
    released liveRuleIds groupId (store.clear (released liveRuleIds groupId store)) = [] := by
  apply List.eq_nil_iff_forall_not_mem.mpr
  intro c hc
  obtain ⟨hosted, hmem, hstate⟩ := mem_released.mp hc
  unfold Store.clear at hmem
  rw [reached_mapProperties] at hmem
  obtain ⟨e, he, heq⟩ := List.mem_map.mp hmem
  obtain ⟨rfl, rfl⟩ := Prod.mk.inj heq
  dsimp only at hstate
  split at hstate
  next => rw [ownershipState_unmarked] at hstate; cases hstate
  next hnot => exact hnot (mem_released.mpr ⟨e.2, he, hstate⟩)

/-- Clearing markers in one group is not seen in another. -/
theorem reached_clear_of_ne (hne : groupId ≠ groupId')
    (hids : ∀ c ∈ channelIds, ∃ hosted, (c, hosted) ∈ reached store groupId) :
    reached (store.clear channelIds) groupId' = reached store groupId' := by
  unfold Store.clear
  rw [reached_mapProperties]
  apply (List.map_congr_left fun e he => _).trans (List.map_id _)
  intro e he
  rw [if_neg]
  · rfl
  · intro hc
    obtain ⟨hosted, hmem⟩ := hids _ hc
    exact reached_disjoint hne hmem he rfl

theorem reached_converge : reached (store.converge channelIds selection) groupId' =
    reached store groupId' := by
  unfold reached residents
  rfl

theorem targets_settle : targets liveRuleIds groupId (settle liveRuleIds selection groupId store) =
    targets liveRuleIds groupId store := by
  have hclear : targets liveRuleIds groupId
      (store.clear (released liveRuleIds groupId store)) = targets liveRuleIds groupId store :=
    targets_clear fun _ hc => hc
  rw [← hclear]
  unfold targets settle
  rw [reached_converge]

theorem released_settle :
    released liveRuleIds groupId (settle liveRuleIds selection groupId store) = [] := by
  have hclear : released liveRuleIds groupId
      (store.clear (released liveRuleIds groupId store)) = [] := released_clear_self
  rw [← hclear]
  unfold released settle
  rw [reached_converge]
  rfl

theorem statusOf_settle :
    statusOf liveRuleIds selection groupId (settle liveRuleIds selection groupId store) =
      statusOf liveRuleIds selection groupId store := by
  unfold statusOf
  rw [targets_settle]
  rfl

/-- Settling twice is settling once. -/
theorem settle_settle :
    settle liveRuleIds selection groupId (settle liveRuleIds selection groupId store) =
      settle liveRuleIds selection groupId store := by
  conv_lhs => rw [settle, statusOf_settle, targets_settle, released_settle, clear_nil]
  exact converge_converge _ _ _

/-- Settling one group is not seen in another. -/
theorem reached_settle_of_ne (hne : groupId ≠ groupId') :
    reached (settle liveRuleIds selection groupId store) groupId' = reached store groupId' := by
  unfold settle
  rw [reached_converge]
  exact reached_clear_of_ne hne fun c hc => (mem_released.mp hc).imp fun _ h => h.1

theorem statusOf_settle_of_ne (hne : groupId ≠ groupId') :
    statusOf liveRuleIds selection' groupId' (settle liveRuleIds selection groupId store) =
      statusOf liveRuleIds selection' groupId' store := by
  unfold statusOf targets
  rw [reached_settle_of_ne hne]
  rfl

theorem settle_comm (hne : groupId ≠ groupId') :
    settle liveRuleIds selection' groupId' (settle liveRuleIds selection groupId store) =
      settle liveRuleIds selection groupId (settle liveRuleIds selection' groupId' store) := by
  have hdisjoint : ∀ c ∈ targets liveRuleIds groupId store,
      c ∉ targets liveRuleIds groupId' store := by
    intro c hc hc'
    obtain ⟨hosted, hmem, -⟩ := mem_targets.mp hc
    obtain ⟨hosted', hmem', -⟩ := mem_targets.mp hc'
    exact reached_disjoint hne hmem hmem' rfl
  have hleft : settle liveRuleIds selection' groupId' (settle liveRuleIds selection groupId store) =
      ((settle liveRuleIds selection groupId store).clear
        (released liveRuleIds groupId' store)).converge
        (if statusOf liveRuleIds selection' groupId' store = .reconciled then
          targets liveRuleIds groupId' store else []) selection' := by
    conv_lhs => rw [settle, statusOf_settle_of_ne hne, targets, released, reached_settle_of_ne hne]
    rfl
  have hright : settle liveRuleIds selection groupId (settle liveRuleIds selection' groupId' store) =
      ((settle liveRuleIds selection' groupId' store).clear
        (released liveRuleIds groupId store)).converge
        (if statusOf liveRuleIds selection groupId store = .reconciled then
          targets liveRuleIds groupId store else []) selection := by
    conv_lhs =>
      rw [settle, statusOf_settle_of_ne hne.symm, targets, released, reached_settle_of_ne hne.symm]
    rfl
  rw [hleft, hright, settle, settle, converge_clear, converge_clear, clear_comm]
  apply converge_comm
  intro c hc hc'
  split at hc
  · split at hc'
    · exact hdisjoint c hc hc'
    · exact List.not_mem_nil hc'
  · exact List.not_mem_nil hc

end Store

end ChannelManager.Profiles
