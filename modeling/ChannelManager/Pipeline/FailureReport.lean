import ChannelManager.Lib.Effect
import ChannelManager.Pipeline.Rollback
import Mathlib

/-!
# What a run reports of the calls that failed

The phases of a live run as the calls they make and what each does about one that fails: some end an
action with an error, some record a failed phase, and some go on. The status of the run is computed
from what was recorded. Which calls a phase has to make is decided elsewhere and given; the n-th call
of the run fails with what `fails n` says.
-/

namespace ChannelManager.Pipeline

/-- The write an action is about. -/
inductive ActionSite
  | createChannel
  | createGroup
  | mergeStream
  | updateChannel
  | assignLogo
  | assignTvgId
  | assignEpg
  | assignProfile
  | setChannelNumber
  | removeFromChannel
  | setStreamPriority
deriving DecidableEq

/-- The places a run writes to the upstream from. -/
inductive WriteSite
  | action (site : ActionSite)
  | profileMembership
  | renumber
  | sortGroup
  | refreshEpgSource
  | renameExisting
  | createLogo
  | ownershipMarker
  | verifyEpg
  | pruneStreams
  | reorderStreams
  | autoRename
  | deleteOrphan
  | moveOrphan
  | deleteGroup
deriving DecidableEq

inductive ReadSite
  | fetchStreams
  | reloadEpgData
  | findLogo
  | countStreams
  | groupSettings
  | ownership
  | verifyEpg
  | pruneStreams
  | reorderStreams
  | autoRename
  | groupChannels
deriving DecidableEq

/-- What a run does that may fail: a write, a read, a step of its own, or an action that says without
a call that it cannot do its work. -/
inductive RunCall
  | write (site : WriteSite) (target : ℤ)
  | read (site : ReadSite) (target : ℤ)
  | step (name : String)
  | refused
deriving DecidableEq

/-- An entry of `failed_actions`. -/
structure FailedEntry where
  actionType : String
  entityId : Option ℤ
  error : String
deriving DecidableEq

/-- The report of a run, with all that was tried so far and whether it went through. -/
structure RunReport where
  calls : ℕ
  failedActions : List FailedEntry
  history : List (RunCall × Bool)

/-- A logo an action needs: none or one in the cache, or one to be created, with what a search for it
would find. -/
inductive LogoNeed
  | cached
  | unknown (listed : Bool)

/-- One write of an action, or what it decided without one. -/
inductive PatchRun
  | decided (error : Option String)
  | write (site : ActionSite) (target : ℤ)

/-- What `assign_channel_profile` has to do: read the group settings or not, where a failure counts
for a channel in a group; stamp the owner or not; and flip some memberships. -/
structure ProfileRun where
  target : ℤ
  readsSettings : Bool
  grouped : Bool
  stamps : Bool
  profileIds : List ℤ

/-- What an action of a live run has to do. -/
inductive ActionRun
  | patch (run : PatchRun)
  | useExisting (target : ℤ) (renames : Bool) (run : PatchRun)
  | createChannel (target : ℤ) (logo : LogoNeed) (defaultProfileIds : List ℤ)
  | mergeStreams (target : ℤ) (seeds : Bool) (run : PatchRun)
  | assignLogo (target : ℤ) (logo : LogoNeed)
  | rearrange (site : ActionSite) (target : ℤ) (fetches changes : Bool)
  | assignChannelProfile (run : ProfileRun)

/-- An action of a rule on a stream. -/
structure ActionStep where
  actionType : String
  entityId : Option ℤ
  run : ActionRun

/-- An event_sync rule: its attaches, the events it promotes with the streams to attach to each, the
guide entries to assign, and the channels to put into profiles. -/
structure SyncRun where
  attaches : List PatchRun
  promotions : List (ActionRun × List PatchRun)
  epg : List PatchRun
  profiles : List ProfileRun

/-- A channel a pass goes over: known to the executor or to be read, and to be written or not. -/
structure Overwrite where
  target : ℤ
  known : Bool
  changes : Bool

/-- Channels numbered in one call, and renamed after their numbers. -/
structure Numbering where
  target : ℤ
  renames : List Overwrite

/-- The orphans of a rule: deleted or moved, then the groups to look through with the pages of
channels each takes, and the numbering that closes the gaps. -/
structure Reconciliation where
  moves : Bool
  orphans : List ℤ
  groups : List (ℤ × ℕ × Bool)
  numbering : Option Numbering

/-- Pass 5: the sources to refresh and the assignments to retry. -/
structure DeferredRun where
  sourceIds : List ℤ
  retries : List PatchRun

/-- What a live run has to do, phase by phase. -/
structure RunPlan where
  streams : List (List ActionStep)
  sync : List SyncRun
  verifications : List Overwrite
  prunes : List Overwrite
  renumbers : List Numbering
  reorders : List Overwrite
  sorts : List Numbering
  reconciliations : List Reconciliation
  deferred : Option DeferredRun
  capped : Bool

section Phases

variable (fails : ℕ → Option String)

/-- Make a call. -/
def attemptCall (c : RunCall) : Eff RunReport Unit := do
  let r ← get
  set { r with calls := r.calls + 1, history := r.history ++ [(c, (fails r.calls).isNone)] }
  match fails r.calls with
  | none => pure ()
  | some error => throw error

/-- Make a call where the phase needs it. -/
def callIf (needed : Bool) (c : RunCall) : Eff RunReport Unit :=
  if needed then attemptCall fails c else pure ()

/-- An action has an error to report that no call made. -/
def refuseAction : Eff RunReport Unit :=
  modify fun r => { r with history := r.history ++ [(.refused, false)] }

/-- The error a computation ends with, if any. -/
def report (x : Eff RunReport Unit) : Eff RunReport (Option String) :=
  tryCatch (do x; pure none) fun error => pure (some error)

/-- `_record_failed_action` and `_record_failed_phase`. -/
def recordFailed (entries : List FailedEntry) : Eff RunReport Unit :=
  modify fun r => { r with failedActions := r.failedActions ++ entries }

/-- The texts `_resolve_logo_id` takes for a logo that is there already. -/
def duplicateLogo (error : String) : Bool :=
  "already exists".toList <:+: error.toLower.toList || "400".toList <:+: error.toLower.toList

/-- `_resolve_logo_id`: whether there is a logo id. -/
def resolveLogoId (target : ℤ) : LogoNeed → Eff RunReport Bool
  | .cached => pure true
  | .unknown listed => do
    match ← report (attemptCall fails (.write .createLogo target)) with
    | none => pure true
    | some error =>
      if duplicateLogo error then
        let found ← Eff.attempt (attemptCall fails (.read .findLogo target))
        pure (found && listed)
      else pure false

/-- `_apply_exclusive_profile_membership`: the profiles that could not be updated. -/
def applyExclusiveProfileMembership (profileIds : List ℤ) : Eff RunReport (List ℤ) :=
  Eff.fold (fun failed profileId => do
    let ok ← Eff.attempt (attemptCall fails (.write .profileMembership profileId))
    pure (if ok then failed else failed ++ [profileId])) [] profileIds

/-- The one write of an action. -/
def performPatch : PatchRun → Eff RunReport (Option String)
  | .decided none => pure none
  | .decided (some error) => do
    refuseAction
    pure (some error)
  | .write site target => report (attemptCall fails (.write (.action site) target))

/-- `_mark_channel_profile_ownership`, where the rule owns the channel: a failure is a warning of the
run. -/
def markChannelProfileOwnership (stamps : Bool) (target : ℤ) : Eff RunReport Bool :=
  Eff.attempt do
    callIf fails stamps (.read .ownership target)
    callIf fails stamps (.write .ownershipMarker target)

/-- `_execute_assign_channel_profile`. -/
def executeAssignChannelProfile (run : ProfileRun) : Eff RunReport (Option String) := do
  let settings ← Eff.attempt (callIf fails run.readsSettings (.read .groupSettings run.target))
  if !settings && run.grouped then
    refuseAction
    pure (some "group lock key unresolvable; failed closed (no write)")
  else
    let _ ← markChannelProfileOwnership fails run.stamps run.target
    let failed ← applyExclusiveProfileMembership fails run.profileIds
    pure (if failed = [] then none else some s!"Failed to update channel profile(s): {failed}")

/-- `_execute_create_channel`, where it creates one. -/
def performCreateChannel (target : ℤ) (logo : LogoNeed) (defaultProfileIds : List ℤ) :
    Eff RunReport (Option String × List ℤ) := do
  let _ ← resolveLogoId fails target logo
  match ← performPatch fails (.write .createChannel target) with
  | some error => pure (some error, [])
  | none =>
    let failed ← applyExclusiveProfileMembership fails defaultProfileIds
    pure (none, failed)

/-- `_execute_assign_logo`. -/
def performAssignLogo (target : ℤ) (need : LogoNeed) : Eff RunReport (Option String) := do
  if ← resolveLogoId fails target need then performPatch fails (.write .assignLogo target)
  else pure none

/-- `execute`: the error of the action, and the default profiles that could not be updated. -/
def performAction : ActionRun → Eff RunReport (Option String × List ℤ)
  | .patch run => do
    let error ← performPatch fails run
    pure (error, [])
  | .useExisting target renames run => do
    let _ ← Eff.attempt (callIf fails renames (.write .renameExisting target))
    let error ← performPatch fails run
    pure (error, [])
  | .createChannel target logo defaultProfileIds =>
    performCreateChannel fails target logo defaultProfileIds
  | .mergeStreams target seeds run => do
    let _ ← Eff.attempt (callIf fails seeds (.read .countStreams target))
    let error ← performPatch fails run
    pure (error, [])
  | .assignLogo target need => do
    let error ← performAssignLogo fails target need
    pure (error, [])
  | .rearrange site target fetches changes => do
    let error ← report do
      callIf fails fetches (.read .fetchStreams target)
      callIf fails changes (.write (.action site) target)
    pure (error, [])
  | .assignChannelProfile run => do
    let error ← executeAssignChannelProfile fails run
    pure (error, [])

/-- An entry of the failed default profiles of a channel. -/
def defaultProfileEntry (failed : Option ℤ × List ℤ) : FailedEntry :=
  ⟨"assign_default_profile", failed.1,
    s!"default-profile assignment incomplete: failed to update profile(s) {failed.2}"⟩

/-- One action of Pass 2, with the default-profile failures of the stream so far. -/
def executeStep (pending : List (Option ℤ × List ℤ)) (step : ActionStep) :
    Eff RunReport (List (Option ℤ × List ℤ)) := do
  let (error, failed) ← performAction fails step.run
  match error with
  | none => pure ()
  | some error => recordFailed [⟨step.actionType, step.entityId, error⟩]
  pure (if failed = [] then pending else pending ++ [(step.entityId, failed)])

/-- Pass 2 for one stream: `_record_default_profile_failures` comes after its actions. -/
def executeStream (steps : List ActionStep) : Eff RunReport Unit := do
  let pending ← Eff.fold (executeStep fails) [] steps
  recordFailed (pending.map defaultProfileEntry)

/-- The number of errors so far, and one attach more. -/
def attach (errors : ℕ) (run : PatchRun) : Eff RunReport ℕ := do
  let error ← performPatch fails run
  pure (if error.isSome then errors + 1 else errors)

/-- The attach errors of a promotion, and its default-profile failures. -/
def promote (acc : ℕ × List (Option ℤ × List ℤ)) (unit : ActionRun × List PatchRun) :
    Eff RunReport (ℕ × List (Option ℤ × List ℤ)) := do
  let (error, failed) ← performAction fails unit.1
  let pending := if failed = [] then acc.2 else acc.2 ++ [(none, failed)]
  match error with
  | some _ => pure (acc.1 + 1, pending)
  | none =>
    let errors ← Eff.fold (attach fails) acc.1 unit.2
    pure (errors, pending)

/-- The profile step of an event_sync rule, for one channel. -/
def syncProfile (run : ProfileRun) : Eff RunReport Unit := do
  match ← executeAssignChannelProfile fails run with
  | none => pure ()
  | some error => recordFailed [⟨"assign_channel_profile", some run.target, error⟩]

/-- One rule of `_run_event_sync_rules`. -/
def runEventSyncRule (run : SyncRun) : Eff RunReport Unit := do
  let attachErrors ← Eff.fold (attach fails) 0 run.attaches
  let (errors, pending) ← Eff.fold (promote fails) (attachErrors, []) run.promotions
  let failed ← Eff.fold (attach fails) 0 run.epg
  recordFailed (List.replicate failed
    ⟨"event_sync_dummy_epg", none, s!"{failed} dummy-EPG assignment(s) failed"⟩)
  Eff.each (syncProfile fails) run.profiles
  recordFailed (List.replicate errors
    ⟨"event_sync_attach", none, s!"{errors} event_sync attach(es) failed"⟩)
  recordFailed (pending.map defaultProfileEntry)

/-- Pass 2.5, `verify_epg_assignments`: a failure is counted. -/
def verifyEpgAssignment (item : Overwrite) : Eff RunReport Unit := do
  let _ ← Eff.attempt do
    attemptCall fails (.read .verifyEpg item.target)
    callIf fails item.changes (.write .verifyEpg item.target)

/-- A pass over channels that are read where the executor does not know them, and written where that
changes something; failures are logged. -/
def overwrite (readSite : ReadSite) (writeSite : WriteSite) (item : Overwrite) :
    Eff RunReport Unit := do
  let found ← Eff.attempt (callIf fails (!item.known) (.read readSite item.target))
  let _ ← Eff.attempt (callIf fails (found && item.changes) (.write writeSite item.target))

/-- Pass 2.75, `prune_merge_streams`. -/
def pruneMergeStreams : Overwrite → Eff RunReport Unit :=
  overwrite fails .pruneStreams .pruneStreams

/-- Pass 3.5, `_reorder_channel_streams`. -/
def reorderChannelStreams : Overwrite → Eff RunReport Unit :=
  overwrite fails .reorderStreams .reorderStreams

/-- `_auto_rename_after_renumber`. -/
def autoRenameAfterRenumber : Overwrite → Eff RunReport Unit :=
  overwrite fails .autoRename .autoRename

/-- Number channels and rename them, or record the phase as failed. -/
def numberChannels (site : WriteSite) (phase : String) (numbering : Numbering) :
    Eff RunReport Unit :=
  tryCatch
    (do
      attemptCall fails (.write site numbering.target)
      Eff.each (autoRenameAfterRenumber fails) numbering.renames)
    fun error => recordFailed [⟨phase, some numbering.target, s!"Failed to number channels: {error}"⟩]

/-- Pass 3 for one rule. -/
def renumberRule : Numbering → Eff RunReport Unit := numberChannels fails .renumber "renumber_channels"

/-- Pass 3.6, `_sort_channel_groups`, for one group. -/
def sortChannelGroup : Numbering → Eff RunReport Unit := numberChannels fails .sortGroup "sort_group"

/-- `remove_channel` and `move_channel_to_uncategorized`, whose results are logged. -/
def cleanUp (moves : Bool) (c : ℤ) : Eff RunReport Unit := do
  let _ ← Eff.attempt (attemptCall fails (.write (if moves then .moveOrphan else .deleteOrphan) c))

/-- `delete_group_if_empty`, whose result is logged. -/
def deleteGroupIfEmpty (group : ℤ × ℕ × Bool) : Eff RunReport Unit := do
  let _ ← Eff.attempt do
    Eff.each (fun _ => attemptCall fails (.read .groupChannels group.1)) (List.range group.2.1)
    callIf fails group.2.2 (.write .deleteGroup group.1)

/-- Pass 4 for one rule. -/
def reconcileOrphansOf (run : Reconciliation) : Eff RunReport Unit := do
  Eff.each (cleanUp fails run.moves) run.orphans
  Eff.each (deleteGroupIfEmpty fails) run.groups
  match run.numbering with
  | none => pure ()
  | some numbering => numberChannels fails .renumber "renumber_channels" numbering

/-- Refresh one source, or record that this failed. -/
def refreshEpgSource (sourceId : ℤ) : Eff RunReport Unit :=
  tryCatch (attemptCall fails (.write .refreshEpgSource sourceId)) fun error =>
    recordFailed [⟨"refresh_epg_source", some sourceId, s!"Failed to refresh EPG source: {error}"⟩]

/-- A retried assignment; one that is deferred again counts as an error. -/
def retryAssignEpg (run : PatchRun) : Eff RunReport Unit := do
  match ← performPatch fails run with
  | none => pure ()
  | some error => recordFailed [⟨"assign_epg", none, error⟩]

/-- A step of Pass 5, recorded when it fails; whether it went through. -/
def dummyEpgStep (c : RunCall) : Eff RunReport Bool := do
  match ← report (attemptCall fails c) with
  | none => pure true
  | some error =>
    recordFailed [⟨"dummy_epg_refresh", none, error⟩]
    pure false

/-- Pass 5, `_refresh_dummy_epg_and_retry`: without the guide data regenerated and read again
nothing is retried. -/
def refreshDummyEpgAndRetry (run : DeferredRun) : Eff RunReport Unit := do
  let _ ← dummyEpgStep fails (.step "update profile groups")
  if ← dummyEpgStep fails (.step "regenerate XMLTV") then
    Eff.each (refreshEpgSource fails) run.sourceIds
    if ← dummyEpgStep fails (.read .reloadEpgData 0) then
      Eff.each (retryAssignEpg fails) run.retries
    else pure ()
  else pure ()

/-- `_process_streams` from Pass 2 on. -/
def processStreams (plan : RunPlan) : Eff RunReport Unit := do
  Eff.each (executeStream fails) plan.streams
  Eff.each (runEventSyncRule fails) plan.sync
  Eff.each (verifyEpgAssignment fails) plan.verifications
  Eff.each (pruneMergeStreams fails) plan.prunes
  Eff.each (renumberRule fails) plan.renumbers
  Eff.each (reorderChannelStreams fails) plan.reorders
  Eff.each (sortChannelGroup fails) plan.sorts
  Eff.each (reconcileOrphansOf fails) plan.reconciliations
  match plan.deferred with
  | none => pure ()
  | some run => refreshDummyEpgAndRetry fails run

/-- What a run answers. -/
structure RunResult where
  success : Bool
  status : RunStatus
  failedActions : List FailedEntry

/-- The end of `run_pipeline`. -/
def finishRun (capped : Bool) (r : RunReport) : RunResult where
  success := r.failedActions.isEmpty
  status :=
    if capped then .capped
    else if r.failedActions = [] then .completed
    else .completedWithErrors
  failedActions := r.failedActions

/-- The report a run starts with. -/
def RunReport.empty : RunReport := ⟨0, [], []⟩

/-- All that a run tried, and what became of it. -/
def runHistory (plan : RunPlan) : List (RunCall × Bool) :=
  (processStreams fails plan .empty).2.history

/-- A live run. -/
def runPipeline (plan : RunPlan) : RunResult :=
  finishRun plan.capped (processStreams fails plan .empty).2

end Phases

end ChannelManager.Pipeline
