import ChannelManager.Profiles.Membership
import Mathlib

/-!
# Group profile reconciliation

The profile selection stored for a channel group is applied to the channels of its effective group:
first they are put in every selected profile, and only when all of that landed taken out of the
others. Channels owned by a pipeline rule are left out. The review queue that a conflict is entered
in lives in ECM's own database and is not part of the model.
-/

namespace ChannelManager.Profiles

open Eff

/-- `PIPELINE_OWNERSHIP_MARKER_KEY`. -/
def pipelineOwnershipMarkerKey : String := "ecm_profile_owner"

/-- `PIPELINE_OWNERSHIP_MARKER_VALUE`. -/
def pipelineOwnershipMarkerValue : String := "pipeline"

/-- `PIPELINE_OWNERSHIP_RULE_ID_KEY`. -/
def pipelineOwnershipRuleIdKey : String := "ecm_profile_owner_rule_id"

/-- `_CHANNEL_PAGE_SIZE`. -/
def channelPageSize : ℕ := 100

/-- `_MAX_CHANNEL_PAGES`. -/
def maxChannelPages : ℕ := 1000

/-- `_LOCK_REACQUIRE_MAX`. -/
def lockReacquireMax : ℕ := 3

/-- A nonempty run of ASCII digits. -/
def digits (ds : List Char) : Option ℤ :=
  if ds ≠ [] ∧ ∀ d ∈ ds, d.isDigit then
    some (ds.foldl (fun n d => 10 * n + (d.toNat - '0'.toNat : ℤ)) 0)
  else none

/-- `coerce_profile_id`. -/
def coerceProfileId : Json → Option ℤ
  | .int n => some n
  | .str s =>
    match s.trimAscii.toString.toList with
    | '-' :: ds => (digits ds).map (-·)
    | ds => digits ds
  | _ => none

/-- `_selection_from_setting`. -/
def selectionFromSetting (setting : Option Record) : Option (List ℤ) := do
  let setting ← setting
  let .dict properties := setting.read "custom_properties" | none
  let .list raw ← findEntry "channel_profile_ids" properties | none
  let selection := raw.filterMap coerceProfileId
  if selection = [] then none else some selection

/-- The group a row's `group_override` names. -/
def groupOverride (setting : Record) : Option ℤ :=
  match setting.read "custom_properties" with
  | .dict properties =>
    match findEntry "group_override" properties with
    | some (.int target) => some target
    | some (.bool b) => some (if b then 1 else 0)
    | _ => none
  | _ => none

/-- `source_to_target` of `_build_override_maps`. -/
def sourceToTarget (settings : Settings) : List (ℤ × ℤ) :=
  settings.items.filterMap fun e => (groupOverride e.2).map fun target => (e.1, target)

/-- `resolve_effective_master_group_id`. -/
def resolveEffectiveMasterGroupId (settings : Settings) (groupId : ℤ) : ℤ :=
  (findEntry groupId (sourceToTarget settings)).getD groupId

/-- What `_ownership_state` returns. -/
inductive Ownership where
  | unowned
  | owned
  | released
deriving DecidableEq

/-- `_ownership_state`; the rules are unknown when resolving them failed. -/
def ownershipState (properties : Json) (liveRuleIds : Option (List ℤ)) : Ownership :=
  match properties with
  | .dict fields =>
    if findEntry pipelineOwnershipMarkerKey fields ≠ some (.str pipelineOwnershipMarkerValue) then
      .unowned
    else
      match liveRuleIds with
      | none => .owned
      | some rules =>
        match findEntry pipelineOwnershipRuleIdKey fields with
        | some (.int rule) => if rule ∈ rules then .owned else .released
        | _ => .owned
  | _ => .unowned

/-- The status of a result. -/
inductive Status where
  | noSelection
  | noChannels
  | conflict
  | staleSelection
  | reconciled
  | partialFailure
  | degraded
deriving DecidableEq

/-- `_result`, with its defaults. -/
structure Outcome where
  status : Status
  groupId : ℤ
  effectiveGroupId : Option ℤ := none
  channelsScoped : ℕ := 0
  channelsExcluded : ℕ := 0
  channelsReleased : ℕ := 0
  profilesEnabled : ℕ := 0
  profilesDisabled : ℕ := 0
  failedProfileIds : List ℤ := []
  conflict : Bool := false
  error : Option String := none
deriving DecidableEq

/-- `sorted` on the ids. -/
def sortedIds (ids : List ℤ) : List ℤ := ids.insertionSort (· ≤ ·)

/-- The pages of `_fetch_group_channels` from `page` on, at most as many as `remaining`. -/
def fetchPages (upstream : Upstream) (groupId : ℤ) :
    (remaining page : ℕ) → List Row → Eff World (List Row)
  | 0, _, channels => pure channels
  | remaining + 1, page, channels => do
    checkCancel upstream
    let response ← getChannels upstream groupId page
    let results := match response with
      | some page => page.results
      | none => []
    let more := match response with
      | some page => page.next
      | none => false
    if results = [] ∨ more = false then pure (channels ++ results)
    else fetchPages upstream groupId remaining (page + 1) (channels ++ results)

/-- `_fetch_group_channels`. -/
def fetchGroupChannels (upstream : Upstream) (groupId : ℤ) : Eff World (List Row) := do
  let channels ← fetchPages upstream groupId maxChannelPages 1 []
  modify fun world => { world with snapshots := world.snapshots ++ [channels] }
  pure channels

/-- The ids of the rows in some states; a row without an id is skipped. -/
def idsIn (state : Ownership → Bool) (rows : List Row) (liveRuleIds : Option (List ℤ)) : List ℤ :=
  rows.filterMap fun row =>
    if state (ownershipState row.customProperties liveRuleIds) then row.id else none

/-- `channel_ids`: the rows that are not owned. -/
def targetsOf (rows : List Row) (liveRuleIds : Option (List ℤ)) : List ℤ :=
  idsIn (· ≠ .owned) rows liveRuleIds

/-- The rows that are owned. -/
def ownedOf (rows : List Row) (liveRuleIds : Option (List ℤ)) : List ℤ :=
  idsIn (· = .owned) rows liveRuleIds

/-- `released_channels`: the rows whose owning rule is gone. -/
def releasedOf (rows : List Row) (liveRuleIds : Option (List ℤ)) : List ℤ :=
  idsIn (· = .released) rows liveRuleIds

/-- Custom properties without the two marker keys. -/
def withoutMarker (fields : List (String × Json)) : List (String × Json) :=
  fields.filter fun e => e.1 ≠ pipelineOwnershipMarkerKey ∧ e.1 ≠ pipelineOwnershipRuleIdKey

/-- `_clear_ownership_marker`; whatever it raises is swallowed. -/
def clearOwnershipMarker (upstream : Upstream) (channelId : ℤ) : Eff World Unit :=
  tryCatch (do
    match ← getChannelProperties upstream channelId with
    | .dict fields =>
      if findEntry pipelineOwnershipMarkerKey fields = none ∧
          findEntry pipelineOwnershipRuleIdKey fields = none then pure ()
      else updateChannelProperties upstream channelId (.dict (withoutMarker fields))
    | _ => pure ())
    fun _ => pure ()

/-- `_recheck_newly_owned`. -/
def recheckNewlyOwned (upstream : Upstream) (groupId : ℤ) (liveRuleIds : Option (List ℤ)) :
    Eff World (List ℤ) := do
  let rows ← fetchGroupChannels upstream groupId
  pure (ownedOf rows liveRuleIds)

/-- A loop of bulk writes: the profiles written and those whose write failed. -/
def writeAll (upstream : Upstream) (channelIds : List ℤ) (enabled : Bool) :
    List ℤ → Eff World (List ℤ × List ℤ)
  | [] => pure ([], [])
  | profileId :: profileIds => do
    checkCancel upstream
    let landed ← tryCatch (do
      bulkUpdateProfileChannels upstream profileId channelIds enabled
      pure true) fun _ => pure false
    let (written, failed) ← writeAll upstream channelIds enabled profileIds
    pure (if landed then (profileId :: written, failed) else (written, profileId :: failed))

/-- The run from a failed fetch of the profiles on: selected profiles are enabled, none disabled. -/
def enableOnly (upstream : Upstream) (effectiveGroupId : ℤ) (liveRuleIds : Option (List ℤ))
    (selection channelIds : List ℤ) (base : Outcome) : Eff World Outcome := do
  let recheck ← tryCatch (do
      let newlyOwned ← recheckNewlyOwned upstream effectiveGroupId liveRuleIds
      pure (some newlyOwned)) fun _ => pure none
  match recheck with
  | none => pure { base with
      status := .degraded
      error := some "enable-only ownership re-check fetch failed; no writes issued" }
  | some newlyOwned =>
    let kept := channelIds.filter fun c => c ∉ newlyOwned
    let excluded := base.channelsExcluded + channelIds.countP fun c => c ∈ newlyOwned
    if kept = [] then pure { base with status := .noChannels, channelsExcluded := excluded }
    else
      let (enabled, failed) ← writeAll upstream kept true selection
      pure { base with
        status := .degraded
        channelsScoped := kept.length
        channelsExcluded := excluded
        profilesEnabled := enabled.length
        failedProfileIds := sortedIds failed
        error := some "profile universe unavailable; exclusivity not enforced" }

/-- The run from the fetched profiles on. -/
def applySelection (upstream : Upstream) (effectiveGroupId : ℤ) (liveRuleIds : Option (List ℤ))
    (selection channelIds universeIds : List ℤ) (base : Outcome) : Eff World Outcome := do
  let validSelected := selection.filter fun p => p ∈ universeIds
  if validSelected = [] then pure { base with status := .staleSelection }
  else
    let recheck ← tryCatch (do
        let newlyOwned ← recheckNewlyOwned upstream effectiveGroupId liveRuleIds
        pure (some newlyOwned)) fun _ => pure none
    match recheck with
    | none => pure { base with
        status := .degraded
        error := some "ownership re-check fetch failed; no writes issued" }
    | some newlyOwned =>
      let kept := channelIds.filter fun c => c ∉ newlyOwned
      let excluded := base.channelsExcluded + channelIds.countP fun c => c ∈ newlyOwned
      if kept = [] then pure { base with status := .noChannels, channelsExcluded := excluded }
      else
        -- Enable first: no profile is left before every selected one was entered.
        let (enabled, failedEnable) ← writeAll upstream kept true
          (universeIds.filter fun p => p ∈ validSelected)
        if failedEnable ≠ [] then
          pure { base with
            status := .partialFailure
            channelsScoped := kept.length
            channelsExcluded := excluded
            profilesEnabled := enabled.length
            failedProfileIds := sortedIds failedEnable }
        else
          let (disabled, failedDisable) ← writeAll upstream kept false
            (universeIds.filter fun p => p ∉ validSelected)
          pure { base with
            status := if failedDisable ≠ [] then .partialFailure else .reconciled
            channelsScoped := kept.length
            channelsExcluded := excluded
            profilesEnabled := enabled.length
            profilesDisabled := disabled.length
            failedProfileIds := sortedIds failedDisable }

/-- The run for a selection. -/
def reconcileSelection (upstream : Upstream) (groupId effectiveGroupId : ℤ)
    (liveRuleIds : Option (List ℤ)) (selection : List ℤ) : Eff World Outcome := do
  let channels ← fetchGroupChannels upstream effectiveGroupId
  let channelIds := targetsOf channels liveRuleIds
  let released := releasedOf channels liveRuleIds
  each (clearOwnershipMarker upstream) released
  let base : Outcome :=
    { status := .noChannels
      groupId
      effectiveGroupId := some effectiveGroupId
      channelsExcluded := (ownedOf channels liveRuleIds).length
      channelsReleased := released.length }
  if channelIds = [] then pure base
  else
    let profiles ← tryCatch (do
        let profiles ← getChannelProfiles upstream
        pure (some profiles)) fun _ => pure none
    match profiles with
    | none => enableOnly upstream effectiveGroupId liveRuleIds selection channelIds base
    | some profiles =>
      applySelection upstream effectiveGroupId liveRuleIds selection channelIds
        profiles.reduceOption base

/-- `_reconcile_group_locked`. -/
def reconcileGroupLocked (upstream : Upstream) (settings : Settings) (groupId effectiveGroupId : ℤ)
    (liveRuleIds : Option (List ℤ)) : Eff World Outcome :=
  let setting := settings.get? groupId
  if setting.any fun row => (row.read "_ecm_channel_profile_conflict").truthy then
    pure
      { status := .conflict
        groupId
        effectiveGroupId := some effectiveGroupId
        conflict := true
        error := some "channel-profile membership is frozen pending review" }
  else
    match selectionFromSetting setting with
    | none => pure { status := .noSelection, groupId }
    | some selection => reconcileSelection upstream groupId effectiveGroupId liveRuleIds selection

/-- The settings under the lock: read again where a `settings_provider` is given, none where that
raised. -/
def revalidated (upstream : Upstream) (revalidate : Bool) (settings : Settings) :
    Eff World (Option Settings) :=
  if revalidate then
    tryCatch (do
      let settings ← getAllM3uGroupSettings upstream
      pure (some settings)) fun _ => pure none
  else pure (some settings)

/-- The run under the lock of the effective group, a cancellation mapped to a result. -/
def reconcileUnlessCancelled (upstream : Upstream) (settings : Settings)
    (groupId effectiveGroupId : ℤ) (liveRuleIds : Option (List ℤ)) : Eff World Outcome :=
  tryCatch (reconcileGroupLocked upstream settings groupId effectiveGroupId liveRuleIds) fun e =>
    if e = reconcileCancelled then
      pure
        { status := .degraded
          groupId
          effectiveGroupId := some effectiveGroupId
          error := some "cancelled mid-reconcile" }
    else throw e

/-- The attempts of `reconcile_group_profiles` at the lock of the effective group. -/
def reconcileAttempts (upstream : Upstream) (revalidate : Bool) (groupId : ℤ)
    (liveRuleIds : Option (List ℤ)) : ℕ → Settings → Eff World Outcome
  | 0, settings => pure
      { status := .degraded
        groupId
        effectiveGroupId := some (resolveEffectiveMasterGroupId settings groupId)
        error := some "effective group unstable under lock; no writes issued" }
  | attempts + 1, settings => do
    let lockKey := resolveEffectiveMasterGroupId settings groupId
    match ← revalidated upstream revalidate settings with
    | none =>
      pure
        { status := .degraded
          groupId
          effectiveGroupId := some lockKey
          error := some "revalidation fetch failed; no writes issued" }
    | some settings =>
      let effectiveGroupId := resolveEffectiveMasterGroupId settings groupId
      if effectiveGroupId = lockKey then
        reconcileUnlessCancelled upstream settings groupId effectiveGroupId liveRuleIds
      else reconcileAttempts upstream revalidate groupId liveRuleIds attempts settings

/-- `reconcile_group_profiles`; `revalidate` says whether a `settings_provider` is given. -/
def reconcileGroupProfiles (upstream : Upstream) (settings : Settings) (groupId : ℤ)
    (liveRuleIds : Option (List ℤ)) (revalidate : Bool) : Eff World Outcome :=
  reconcileAttempts upstream revalidate groupId liveRuleIds lockReacquireMax settings

/-- `groups_with_selection`. -/
def groupsWithSelection (settings : Settings) : List ℤ :=
  settings.keys.filter fun groupId => (selectionFromSetting (settings.get? groupId)).isSome

/-- A round of `dedupe_gids_by_effective_group`. -/
def dedupeOne (settings : Settings) (effectiveToGid : Dict ℤ ℤ) (groupId : ℤ) : Dict ℤ ℤ :=
  let effective := resolveEffectiveMasterGroupId settings groupId
  if effective ∉ effectiveToGid ∨ groupId = effective then effectiveToGid.set effective groupId
  else effectiveToGid

/-- `dedupe_gids_by_effective_group`. -/
def dedupeGidsByEffectiveGroup (settings : Settings) (groupIds : List ℤ) : List ℤ :=
  let effectiveToGid := (sortedIds groupIds.dedup).foldl (dedupeOne settings) ∅
  (sortedIds effectiveToGid.keys).filterMap effectiveToGid.get?

/-- `resolve_save_reconcile_targets`. -/
def resolveSaveReconcileTargets (settings : Settings) (editedGids : List ℤ) : List ℤ :=
  let sweepWinners := dedupeGidsByEffectiveGroup settings (groupsWithSelection settings)
  let touchedEffective := editedGids.map (resolveEffectiveMasterGroupId settings)
  sweepWinners.filter fun winner =>
    resolveEffectiveMasterGroupId settings winner ∈ touchedEffective

end ChannelManager.Profiles
