import ChannelManager.Profiles.Converge

/-!
# Sweeping the selected groups

One reconcile that reports `reconciled` has converged and is idempotent; the sweep over the winning
groups leaves one store in whatever order it goes, and reconciling the targets of a save afterwards
changes nothing.
-/

namespace ChannelManager.Profiles

open Eff

/-- Reconcile groups one after the other, with nobody else writing. -/
def sweep (settings : Settings) (liveRuleIds : Option (List ℤ)) (revalidate : Bool) (store : Store)
    (groupIds : List ℤ) : Store :=
  groupIds.foldl (fun store groupId =>
    (reconcileGroupProfiles (calm settings) settings groupId liveRuleIds revalidate
      (World.start store)).2.store) store

/-- The groups a sweep reconciles. -/
def sweepWinners (settings : Settings) : List ℤ :=
  dedupeGidsByEffectiveGroup settings (groupsWithSelection settings)

section

variable {settings : Settings} {liveRuleIds : Option (List ℤ)} {store : Store} {groupId : ℤ}

theorem calm_calm (settings : Settings) : (calm settings).Calm := ⟨fun _ => rfl, fun _ => rfl⟩

/-- Nobody else writing, a reconcile returns, settles the group and says how. -/
theorem reconcile_calm (revalidate : Bool) :
    ∃ outcome w, reconcileGroupProfiles (calm settings) settings groupId liveRuleIds revalidate
        (World.start store) = (.ok outcome, w) ∧
      w.store = settleGroup settings liveRuleIds store groupId ∧
      ∀ selection, selectionOf settings groupId = some selection →
        outcome.status = statusOf liveRuleIds selection
          (resolveEffectiveMasterGroupId settings groupId) store := by
  have hrun := @reconcileGroupProfiles_spec settings (fun _ => false) (fun _ => false)
    (fun _ => none) liveRuleIds (World.start store) groupId revalidate rfl
  obtain ⟨outcome, w, hreturns, hpost⟩ := wp_returns
    (wp_mono hrun (fun _ _ h => h) fun _ _ h => h (calm_calm settings))
  refine ⟨outcome, w, hreturns, ?_⟩
  have hends := hpost (.inr (calm_calm settings))
  unfold settleGroup
  cases hselection : selectionOf settings groupId with
  | none =>
    rw [hselection] at hends
    exact ⟨hends.2, nofun⟩
  | some selection =>
    rw [hselection] at hends
    obtain ⟨done, -, hdone, hends⟩ := hends
    rw [hdone (calm_calm settings), World.start, runEnds_calm] at hends
    obtain ⟨hstatus, hstore⟩ := Prod.mk.inj hends
    refine ⟨hstore, ?_⟩
    rintro selection' ⟨⟩
    exact hstatus

theorem sweep_eq (revalidate : Bool) (groupIds : List ℤ) :
    sweep settings liveRuleIds revalidate store groupIds =
      groupIds.foldl (settleGroup settings liveRuleIds) store := by
  unfold sweep
  congr 1
  funext store groupId
  obtain ⟨outcome, w, hrun, hstore, -⟩ := @reconcile_calm settings liveRuleIds store groupId revalidate
  rw [hrun]
  exact hstore

theorem settleGroup_settleGroup :
    settleGroup settings liveRuleIds (settleGroup settings liveRuleIds store groupId) groupId =
      settleGroup settings liveRuleIds store groupId := by
  unfold settleGroup
  cases selectionOf settings groupId with
  | none => rfl
  | some selection => exact settle_settle

theorem settleGroup_comm {groupId' : ℤ}
    (h : resolveEffectiveMasterGroupId settings groupId =
      resolveEffectiveMasterGroupId settings groupId' → groupId = groupId') :
    settleGroup settings liveRuleIds (settleGroup settings liveRuleIds store groupId) groupId' =
      settleGroup settings liveRuleIds (settleGroup settings liveRuleIds store groupId') groupId := by
  by_cases hne : resolveEffectiveMasterGroupId settings groupId =
      resolveEffectiveMasterGroupId settings groupId'
  · rw [h hne]
  · unfold settleGroup
    cases selectionOf settings groupId with
    | none => rfl
    | some selection =>
      cases selectionOf settings groupId' with
      | none => rfl
      | some selection' => exact settle_comm hne

/-- A group is kept under the effective group it resolves to. -/
theorem dedupe_resolves (groupIds : List ℤ) (effectiveToGid : Dict ℤ ℤ)
    (h : ∀ effective gid, effectiveToGid.get? effective = some gid →
      resolveEffectiveMasterGroupId settings gid = effective) :
    ∀ effective gid, (groupIds.foldl (dedupeOne settings) effectiveToGid).get? effective = some gid →
      resolveEffectiveMasterGroupId settings gid = effective := by
  induction groupIds generalizing effectiveToGid with
  | nil => exact h
  | cons groupId groupIds ih =>
    apply ih
    intro effective gid hget
    unfold dedupeOne at hget
    dsimp only at hget
    split at hget
    · rw [Dict.get?_set] at hget
      split at hget
      · obtain rfl := Option.some.inj hget
        assumption
      · exact h effective gid hget
    · exact h effective gid hget

/-- The winners have different effective groups. -/
theorem winners_distinct {g g' : ℤ} (hg : g ∈ sweepWinners settings)
    (hg' : g' ∈ sweepWinners settings)
    (h : resolveEffectiveMasterGroupId settings g = resolveEffectiveMasterGroupId settings g') :
    g = g' := by
  have hwinner : ∀ {gid}, gid ∈ sweepWinners settings →
      ((sortedIds (groupsWithSelection settings).dedup).foldl (dedupeOne settings) ∅).get?
        (resolveEffectiveMasterGroupId settings gid) = some gid := by
    intro gid hmem
    obtain ⟨effective, -, hget⟩ := List.mem_filterMap.mp hmem
    rw [dedupe_resolves _ ∅ (fun _ _ h => by cases h) effective gid hget]
    exact hget
  have hsame := (hwinner hg).symm.trans ((congrArg _ h).trans (hwinner hg'))
  exact Option.some.inj hsame

/-- The order of the winners does not matter. -/
theorem foldl_winners_perm {order : List ℤ} (horder : order.Perm (sweepWinners settings)) :
    order.foldl (settleGroup settings liveRuleIds) store =
      (sweepWinners settings).foldl (settleGroup settings liveRuleIds) store := by
  apply horder.foldl_eq'
  intro g hg g' hg' z
  exact settleGroup_comm (winners_distinct (horder.subset hg) (horder.subset hg'))

/-- A winner is settled once the sweep is over. -/
theorem settleGroup_after_sweep {winner : ℤ} (hwinner : winner ∈ sweepWinners settings) :
    settleGroup settings liveRuleIds
        ((sweepWinners settings).foldl (settleGroup settings liveRuleIds) store) winner =
      (sweepWinners settings).foldl (settleGroup settings liveRuleIds) store := by
  have hlast : ((sweepWinners settings).erase winner ++ [winner]).Perm (sweepWinners settings) :=
    List.perm_append_comm.trans (List.perm_cons_erase hwinner).symm
  rw [← foldl_winners_perm hlast, List.foldl_append]
  exact settleGroup_settleGroup

theorem foldl_targets_after_sweep {targets : List ℤ} (h : ∀ g ∈ targets, g ∈ sweepWinners settings) :
    targets.foldl (settleGroup settings liveRuleIds)
        ((sweepWinners settings).foldl (settleGroup settings liveRuleIds) store) =
      (sweepWinners settings).foldl (settleGroup settings liveRuleIds) store := by
  induction targets with
  | nil => rfl
  | cons g targets ih =>
    rw [List.foldl_cons, settleGroup_after_sweep (h g (List.mem_cons_self ..))]
    exact ih fun g' hg' => h g' (List.mem_cons_of_mem _ hg')

end

/-- The store after a run whose selection was applied: the channels enumerated, not owned and not
given an owner since are members of exactly the selected profiles that exist, all other memberships
are what they were. -/
structure Converged (stamps : ℤ → Option Json) (liveRuleIds : Option (List ℤ)) (selection : List ℤ)
    (effectiveGroupId : ℤ) (store final : Store) : Prop where
  exactly : ∀ c hosted, (c, hosted) ∈ reached store effectiveGroupId →
    ownershipState hosted.customProperties liveRuleIds ≠ .owned → stamps c = none →
    ∀ p, final.member c p ↔ p ∈ selection ∧ p ∈ store.profiles
  others : ∀ c, (∀ hosted, (c, hosted) ∈ reached store effectiveGroupId →
    ownershipState hosted.customProperties liveRuleIds ≠ .owned → stamps c ≠ none) →
    final.member c = store.member c

section

variable {settings : Settings} {raises cancels : ℕ → Bool} {stamps : ℤ → Option Json}
  {liveRuleIds : Option (List ℤ)} {store : Store} {groupId : ℤ}

/-- Where a run that reports `reconciled` ends. -/
theorem exists_kept (revalidate : Bool) {outcome : Outcome} {w : World}
    (hrun : reconcileGroupProfiles (dispatcharr settings raises cancels stamps) settings groupId
      liveRuleIds revalidate (World.start store) = (.ok outcome, w))
    (hstatus : outcome.status = .reconciled) :
    ∃ selection done, selectionOf settings groupId = some selection ∧
      (∀ c ∈ done, c ∈ released liveRuleIds (resolveEffectiveMasterGroupId settings groupId) store) ∧
      runEnds stamps liveRuleIds selection done (resolveEffectiveMasterGroupId settings groupId)
        store = (.reconciled, w.store) := by
  have hends := wp_exec (@reconcileGroupProfiles_spec settings raises cancels stamps liveRuleIds
    (World.start store) groupId revalidate rfl) hrun (.inl hstatus)
  cases hselection : selectionOf settings groupId with
  | none =>
    rw [hselection] at hends
    exact (hends.1 hstatus).elim
  | some selection =>
    rw [hselection] at hends
    obtain ⟨done, hdone, -, hends⟩ := hends
    exact ⟨selection, done, rfl, hdone, by rw [← hstatus]; exact hends.symm⟩

/-- A run that ends reconciled got past every other end. -/
theorem runEnds_reconciled {selection done : List ℤ} {final : Store}
    (h : runEnds stamps liveRuleIds selection done groupId store = (.reconciled, final)) :
    (selection.filter fun p => p ∈ store.profiles) ≠ [] ∧
      ∃ kept, kept ≠ [] ∧ kept = ((targets liveRuleIds groupId store).filter fun c =>
        c ∉ ownedOf (rowsOf (reached ((store.clear done).stamp stamps) groupId)) liveRuleIds) ∧
      final = ((store.clear done).stamp stamps).converge kept selection := by
  unfold runEnds recheckEnds at h
  dsimp only at h
  split at h
  · cases h
  · split at h
    · cases h
    next hvalid =>
      split at h
      · cases h
      next hkept =>
        cases h
        exact ⟨hvalid, _, hkept, rfl, rfl⟩

theorem converged_of_runEnds {selection done : List ℤ} {final : Store}
    (hdone : ∀ c ∈ done, c ∈ released liveRuleIds groupId store)
    (hstamps : ∀ c properties, stamps c = some properties →
      ownershipState properties liveRuleIds = .owned)
    (h : runEnds stamps liveRuleIds selection done groupId store = (.reconciled, final)) :
    Converged stamps liveRuleIds selection groupId store final := by
  obtain ⟨-, kept, -, rfl, rfl⟩ := runEnds_reconciled h
  constructor
  case exactly =>
    intro c hosted hmem hstate hstamp p
    have hkept := (mem_kept hdone hstamps).mpr ⟨mem_targets.mpr ⟨hosted, hmem, hstate⟩, hstamp⟩
    have hprofiles : ((store.clear done).stamp stamps).profiles = store.profiles := rfl
    rw [member_converge, hprofiles]
    by_cases hp : p ∈ store.profiles
    · rw [if_pos ⟨hkept, hp⟩]
      simp [hp]
    · rw [if_neg fun h => hp h.2]
      simp only [hp, and_false, iff_false]
      exact fun hmember => hp (store.members_live c p hmember)
  case others =>
    intro c hno
    funext p
    rw [member_converge, if_neg]
    · rfl
    rintro ⟨hkept, -⟩
    obtain ⟨htarget, hstamp⟩ := (mem_kept hdone hstamps).mp hkept
    obtain ⟨hosted, hmem, hstate⟩ := mem_targets.mp htarget
    exact hno hosted hmem hstate hstamp

/-- A second run on what the first one left is reconciled and changes no membership. -/
theorem settle_of_runEnds {selection done : List ℤ} {final : Store}
    (hdone : ∀ c ∈ done, c ∈ released liveRuleIds groupId store)
    (hstamps : ∀ c properties, stamps c = some properties →
      ownershipState properties liveRuleIds = .owned)
    (h : runEnds stamps liveRuleIds selection done groupId store = (.reconciled, final)) :
    statusOf liveRuleIds selection groupId final = .reconciled ∧
      (settle liveRuleIds selection groupId final).member = final.member := by
  obtain ⟨hvalid, kept, hkept, heq, rfl⟩ := runEnds_reconciled h
  have htargets : ∀ c, c ∈ targets liveRuleIds groupId
      (((store.clear done).stamp stamps).converge kept selection) ↔ c ∈ kept := by
    intro c
    rw [heq, mem_kept hdone hstamps, ← mem_targets_recheck hdone hstamps]
    unfold targets
    rw [reached_converge]
  have hstatus : statusOf liveRuleIds selection groupId
      (((store.clear done).stamp stamps).converge kept selection) = .reconciled := by
    unfold statusOf
    rw [if_neg, if_neg]
    · exact hvalid
    · intro hnone
      obtain ⟨c, hc⟩ := List.exists_mem_of_ne_nil _ hkept
      rw [← htargets c, hnone] at hc
      exact List.not_mem_nil hc
  refine ⟨hstatus, ?_⟩
  funext c p
  rw [settle, if_pos hstatus, member_converge]
  split
  next hcp => rw [member_converge, if_pos ⟨(htargets c).mp hcp.1, hcp.2⟩]
  next => rfl

/-- A reconcile that reports `reconciled` has converged and a second one changes nothing; a sweep
leaves the same store in any order of its winners, and reconciling afterwards what any edited groups
touch leaves it too. -/
theorem reconcile_converges (settings : Settings) (liveRuleIds : Option (List ℤ)) (revalidate : Bool)
    (raises cancels : ℕ → Bool) (stamps : ℤ → Option Json)
    (hstamps : ∀ c properties, stamps c = some properties →
      ownershipState properties liveRuleIds = .owned) (store : Store) :
    (∀ groupId outcome w,
      reconcileGroupProfiles (dispatcharr settings raises cancels stamps) settings groupId
        liveRuleIds revalidate (World.start store) = (.ok outcome, w) →
      outcome.status = .reconciled →
      (∃ selection, selectionFromSetting (settings.get? groupId) = some selection ∧
        Converged stamps liveRuleIds selection (resolveEffectiveMasterGroupId settings groupId)
          store w.store) ∧
      ∃ outcome' w', reconcileGroupProfiles (calm settings) settings groupId liveRuleIds revalidate
          (World.start w.store) = (.ok outcome', w') ∧ outcome'.status = .reconciled ∧
        w'.store.member = w.store.member) ∧
    ∀ order : List ℤ, order.Perm (sweepWinners settings) →
      sweep settings liveRuleIds revalidate store order =
        sweep settings liveRuleIds revalidate store (sweepWinners settings) ∧
      ∀ editedGids, sweep settings liveRuleIds revalidate
          (sweep settings liveRuleIds revalidate store order)
          (resolveSaveReconcileTargets settings editedGids) =
        sweep settings liveRuleIds revalidate store (sweepWinners settings) := by
  constructor
  · intro groupId outcome w hrun hstatus
    obtain ⟨selection, done, hselection, hdone, hends⟩ := exists_kept revalidate hrun hstatus
    constructor
    · refine ⟨selection, ?_, converged_of_runEnds hdone hstamps hends⟩
      unfold selectionOf at hselection
      split at hselection
      · cases hselection
      · exact hselection
    · obtain ⟨outcome', w', hrun', hstore, hstatus'⟩ := @reconcile_calm settings liveRuleIds w.store
        groupId revalidate
      obtain ⟨hagain, hmember⟩ := settle_of_runEnds hdone hstamps hends
      refine ⟨outcome', w', hrun', (hstatus' selection hselection).trans hagain, ?_⟩
      rw [hstore, settleGroup, hselection]
      exact hmember
  · intro order horder
    simp only [sweep_eq]
    rw [foldl_winners_perm horder]
    refine ⟨rfl, fun editedGids => ?_⟩
    apply foldl_targets_after_sweep
    intro g hg
    exact (List.mem_filter.mp hg).1

end

/-- One group with the first of two profiles selected. -/
def sportSettings : Settings :=
  Dict.ofList [(1, Dict.ofList [("custom_properties",
    .dict [("channel_profile_ids", .list [.int 1])])])]

/-- A group of `n` channels, numbered from one, each in both profiles. -/
def crowd (n : ℕ) : Store where
  groups := Dict.ofList [(1, "Sport")]
  channels :=
    { items := (List.range n).map fun k : ℕ => ((k : ℤ) + 1, ⟨1, .null⟩)
      nodup_keys := by
        rw [List.map_map]
        apply List.Nodup.map _ List.nodup_range
        intro k k' h
        simpa using h }
  profiles := [1, 2]
  member _ p := p ∈ [(1 : ℤ), 2]
  names_unique g g' name hg hg' := by
    rw [Dict.get?_eq_some] at hg hg'
    have hmem : (g, name) ∈ [((1 : ℤ), "Sport")] := hg
    have hmem' : (g', name) ∈ [((1 : ℤ), "Sport")] := hg'
    simp only [List.mem_singleton, Prod.mk.injEq] at hmem hmem'
    rw [hmem.1, hmem'.1]
  members_live _ _ h := of_decide_eq_true h

/-- A pipeline takes the second channel over between the snapshot and the re-check. -/
def secondTaken (c : ℤ) : Option Json :=
  if c = 2 then some (.dict [(pipelineOwnershipMarkerKey, .str pipelineOwnershipMarkerValue)])
  else none

theorem reconcile_converges_second_taken :
    ∃ outcome w, reconcileGroupProfiles (dispatcharr sportSettings (fun _ => false)
        (fun _ => false) secondTaken) sportSettings 1 (some []) true (World.start (crowd 2)) =
          (.ok outcome, w) ∧
      (∃ selection, selectionFromSetting (sportSettings.get? 1) = some selection ∧
        Converged secondTaken (some []) selection (resolveEffectiveMasterGroupId sportSettings 1)
          (crowd 2) w.store) ∧
      ∃ outcome' w', reconcileGroupProfiles (calm sportSettings) sportSettings 1 (some []) true
          (World.start w.store) = (.ok outcome', w') ∧ outcome'.status = .reconciled ∧
        w'.store.member = w.store.member := by
  have hstamps : ∀ c properties, secondTaken c = some properties →
      ownershipState properties (some []) = .owned := by
    intro c properties h
    unfold secondTaken at h
    split at h
    · obtain rfl := Option.some.inj h
      rfl
    · cases h
  have hend : ((reconcileGroupProfiles (dispatcharr sportSettings (fun _ => false)
      (fun _ => false) secondTaken) sportSettings 1 (some []) true
      (World.start (crowd 2))).1.toOption.map Outcome.status) = some .reconciled := by
    decide +kernel
  cases hrun : reconcileGroupProfiles (dispatcharr sportSettings (fun _ => false)
      (fun _ => false) secondTaken) sportSettings 1 (some []) true (World.start (crowd 2)) with
  | mk result w =>
    rw [hrun] at hend
    cases result with
    | error e => cases hend
    | ok outcome =>
      refine ⟨outcome, w, rfl, ?_⟩
      exact (reconcile_converges sportSettings (some []) true (fun _ => false) (fun _ => false)
        secondTaken hstamps (crowd 2)).1 1 outcome w hrun (Option.some.inj hend)

theorem mem_crowd {n k : ℕ} (h : k < n) :
    ((k : ℤ) + 1, (⟨1, .null⟩ : Hosted)) ∈ (crowd n).channels.items :=
  List.mem_map.mpr ⟨k, List.mem_range.mpr h, rfl⟩

theorem reached_crowd (n : ℕ) : reached (crowd n) 1 =
    (List.range (min (maxChannelPages * channelPageSize) n)).map fun k : ℕ =>
      ((k : ℤ) + 1, ⟨1, .null⟩) := by
  have hresidents : residents (crowd n) 1 = (crowd n).channels.items := by
    apply List.filter_eq_self.mpr
    intro e he
    obtain ⟨k, -, rfl⟩ := List.mem_map.mp he
    rfl
  rw [reached, hresidents, ← List.take_range, List.map_take]
  rfl

/-- A group has a channel beyond the last page that is fetched: it stays in the profile that is not
selected, and the run is reported reconciled. -/
theorem channel_beyond_the_cap :
    ∃ outcome w, reconcileGroupProfiles (calm sportSettings) sportSettings 1 (some []) false
        (World.start (crowd 100001)) = (.ok outcome, w) ∧
      outcome.status = .reconciled ∧ resolveEffectiveMasterGroupId sportSettings 1 = 1 ∧
      selectionFromSetting (sportSettings.get? 1) = some [1] ∧
      (crowd 100001).channels.get? 100001 = some ⟨1, .null⟩ ∧
      ownershipState .null (some []) = .unowned ∧ w.store.member 100001 2 = true := by
  have hselection : selectionOf sportSettings 1 = some [1] := by decide +kernel
  have heffective : resolveEffectiveMasterGroupId sportSettings 1 = 1 := by decide +kernel
  have htargets : ∀ c, c ∈ targets (some []) 1 (crowd 100001) ↔
      ∃ k : ℕ, k < min (maxChannelPages * channelPageSize) 100001 ∧ c = k + 1 := by
    intro c
    rw [mem_targets, reached_crowd]
    constructor
    · rintro ⟨hosted, hmem, -⟩
      obtain ⟨k, hk, heq⟩ := List.mem_map.mp hmem
      exact ⟨k, List.mem_range.mp hk, (Prod.mk.inj heq).1.symm⟩
    · rintro ⟨k, hk, rfl⟩
      exact ⟨_, List.mem_map.mpr ⟨k, List.mem_range.mpr hk, rfl⟩, nofun⟩
  have hstatusOf : statusOf (some []) [1] 1 (crowd 100001) = .reconciled := by
    unfold statusOf
    rw [if_neg, if_neg]
    · decide
    · intro hnone
      have hfirst := (htargets 1).mpr ⟨0, by decide, rfl⟩
      rw [hnone] at hfirst
      exact List.not_mem_nil hfirst
  obtain ⟨outcome, w, hrun, hstore, hstatus⟩ := @reconcile_calm sportSettings (some [])
    (crowd 100001) 1 false
  refine ⟨outcome, w, hrun, ?_, heffective, by decide +kernel, ?_, rfl, ?_⟩
  · rw [hstatus [1] hselection, heffective]
    exact hstatusOf
  · rw [Dict.get?_eq_some]
    have hlast : ((100000 : ℕ) : ℤ) + 1 = 100001 := by omega
    rw [← hlast]
    exact mem_crowd (by omega)
  · rw [hstore, settleGroup, hselection, heffective]
    dsimp only
    rw [settle, if_pos hstatusOf, member_converge, if_neg]
    · rfl
    · rintro ⟨hmem, -⟩
      obtain ⟨k, hk, heq⟩ := (htargets _).mp hmem
      have hcap : maxChannelPages * channelPageSize = 100000 := rfl
      rw [hcap] at hk
      omega

end ChannelManager.Profiles
