import ChannelManager.Bulk.Executor

/-!
# Validating a bulk commit before it executes

Phase 0 of `_run_bulk_commit`: the lookups, the simulated stream plan, one check per operation and
the check of the combined final numbering. Only a lookup that succeeded can find something missing.
-/

namespace ChannelManager

variable {σ : Type}

structure BulkCommitRequest where
  operations : List BulkOperation
  /-- The `name` of every group to create; an entry may carry none. -/
  groupsToCreate : List (Option String) := []
  validateOnly : Bool := false
  continueOnError : Bool := false
  consolidate : Bool := false

/-- The existing channels an operation names. -/
def BulkOperation.referencedChannelIds : BulkOperation → List ℤ
  | .bulkAssignChannelNumbers op => op.channelIds.filter (0 ≤ ·)
  | op => op.channelId?.toList.filter (0 ≤ ·)

def BulkOperation.referencedStreamIds : BulkOperation → List ℤ
  | .addStreamToChannel _ x | .removeStreamFromChannel _ x => [x]
  | .reorderChannelStreams _ xs | .clearStreamStats xs => xs
  | _ => []

def BulkOperation.referencedProfileIds : BulkOperation → List ℤ
  | .setProfileMembership p _ _ => [p]
  | _ => []

def BulkOperation.referencedHiddenGroupIds : BulkOperation → List ℤ
  | .restoreChannelGroup g => [g]
  | _ => []

/-- Whether the operation puts a channel on a number. -/
def BulkOperation.placesAChannel : BulkOperation → Bool
  | .createChannel op => op.channelNumber.isSome
  | .updateChannel op => op.data.channelNumber.isSome
  | .bulkAssignChannelNumbers op => op.channelIds ≠ []
  | _ => false

/-- What the lookups of Phase 0 found, and which of them succeeded. -/
structure Lookups where
  existingChannels : Dict ℤ Channel := ∅
  channelsResolved : Bool := false
  existingStreams : Dict ℤ String := ∅
  streamsResolved : Bool := false
  profileIds : List ℤ := []
  profilesResolved : Bool := false
  hiddenGroupIds : List ℤ := []
  hiddenGroupsResolved : Bool := false

/-- `existing_channels[ch["id"]] = ch`, row by row. -/
def channelsById (rows : List Channel) : Dict ℤ Channel :=
  rows.foldl (fun d ch => d.set ch.id ch) ∅

def readChannels (up : Upstream σ) (needed : Bool) (l : Lookups) : Eff (Exec σ) Lookups :=
  if needed then do
    let read ← tryCatch (request up.getChannels) (fun e => pure { rows := [], error := some e })
    pure { l with
      existingChannels := channelsById read.rows
      channelsResolved := read.error.isNone }
  else pure l

def readStreams (up : Upstream σ) (ids : List ℤ) (l : Lookups) : Eff (Exec σ) Lookups :=
  if ids = [] then pure l
  else
    tryCatch
      (do
        let streams ← request (up.getStreamsByIds ids)
        pure { l with
          existingStreams := streams.foldl (fun d e => d.set e.1 e.2) ∅
          streamsResolved := true })
      (fun _ => pure l)

def readProfiles (up : Upstream σ) (ids : List ℤ) (l : Lookups) : Eff (Exec σ) Lookups :=
  if ids = [] then pure l
  else
    tryCatch
      (do
        let profiles ← request up.getChannelProfiles
        pure { l with profileIds := profiles, profilesResolved := true })
      (fun _ => pure l)

def readHiddenGroups (up : Upstream σ) (ids : List ℤ) (l : Lookups) : Eff (Exec σ) Lookups :=
  if ids = [] then pure l
  else
    tryCatch
      (do
        let hidden ← request (up.hiddenGroups ids)
        pure { l with hiddenGroupIds := hidden, hiddenGroupsResolved := true })
      (fun _ => pure l)

def numberingPlacesAChannel (operations : List BulkOperation) : Bool :=
  operations.any (·.placesAChannel)

/-- The four lookups of Phase 0. -/
def lookUp (up : Upstream σ) (operations : List BulkOperation) : Eff (Exec σ) Lookups := do
  let channels ← readChannels up
    (operations.flatMap (·.referencedChannelIds) ≠ [] || numberingPlacesAChannel operations) {}
  let streams ← readStreams up (operations.flatMap (·.referencedStreamIds)).dedup channels
  let profiles ← readProfiles up (operations.flatMap (·.referencedProfileIds)) streams
  readHiddenGroups up (operations.flatMap (·.referencedHiddenGroupIds)) profiles

/-- The stream plan simulated so far, with the issues found. -/
structure StreamPlan where
  streamsByChannel : Dict ℤ (List ℤ)
  expected : List (ℤ × String × List ℤ) := []
  issues : List ValidationIssue := []

def streamPlanStep (plan : StreamPlan) (e : BulkOperation × ℕ) : StreamPlan :=
  match e.1 with
  | .createChannel op =>
    { plan with
      streamsByChannel := plan.streamsByChannel.set op.tempId []
      expected := match op.expectedStreamIds with
        | some ids => plan.expected ++ [(op.tempId, op.name, ids)]
        | none => plan.expected }
  | .addStreamToChannel c x =>
    match plan.streamsByChannel.get? c with
    | some current =>
      if x ∈ current then plan
      else { plan with streamsByChannel := plan.streamsByChannel.set c (current ++ [x]) }
    | none => plan
  | .removeStreamFromChannel c x =>
    match plan.streamsByChannel.get? c with
    | some current => { plan with streamsByChannel := plan.streamsByChannel.set c (current.erase x) }
    | none => plan
  | .reorderChannelStreams c xs =>
    match plan.streamsByChannel.get? c with
    | some current =>
      match validateStreamPermutation current xs with
      | some reason =>
        { plan with
          issues := plan.issues ++ [
            { type := .invalidOperation
              message := s!"Cannot reorder streams for channel {c}: " ++ reason ++
                "; nothing was applied"
              operationIndex := some e.2
              channelId := some c }] }
      | none => { plan with streamsByChannel := plan.streamsByChannel.set c xs }
    | none => plan
  | _ => plan

/-- The streams a created channel was to have and would not. -/
def missingExpectedStreams (plan : StreamPlan) (e : ℤ × String × List ℤ) : List ValidationIssue :=
  let final := (plan.streamsByChannel.get? e.1).getD []
  ((e.2.2.filter (· ∉ final)).dedup.insertionSort (· ≤ ·)).map fun x =>
    { type := .invalidOperation
      message := "Bulk-created channel '" ++ e.2.1 ++
        s!"' would be missing expected stream {x}; nothing was applied"
      channelId := some e.1
      channelName := some e.2.1
      streamId := some x }

def streamPlanIssues (l : Lookups) (operations : List BulkOperation) : List ValidationIssue :=
  let start : StreamPlan :=
    { streamsByChannel := l.existingChannels.items.foldl (fun d e => d.set e.1 e.2.streams) ∅ }
  let plan := operations.zipIdx.foldl streamPlanStep start
  plan.issues ++ plan.expected.flatMap (missingExpectedStreams plan)

namespace Lookups

/-- Is this channel known to be absent from Dispatcharr? -/
def channelIsMissing (l : Lookups) (c : ℤ) : Bool :=
  l.channelsResolved && 0 ≤ c && c ∉ l.existingChannels

def streamIsMissing (l : Lookups) (x : ℤ) : Bool := l.streamsResolved && x ∉ l.existingStreams

def missingChannel (l : Lookups) (index : ℕ) (c : ℤ) (message : String)
    (channelName : Option String := none) (streamId : Option ℤ := none) : List ValidationIssue :=
  if l.channelIsMissing c then
    [{ type := .missingChannel, message := message, operationIndex := some index,
       channelId := some c, channelName := channelName, streamId := streamId }]
  else []

end Lookups

/-- The check of one operation. -/
def validateOperation (l : Lookups) (tempChannelNames : Dict ℤ String) (e : BulkOperation × ℕ) :
    List ValidationIssue :=
  match e.1 with
  | .updateChannel op =>
    l.missingChannel e.2 op.channelId s!"Channel {op.channelId} does not exist in Dispatcharr"
      (some s!"Channel {op.channelId}")
  | .addStreamToChannel c x =>
    let name := (tempChannelNames.get? c).getD
      (((l.existingChannels.get? c).map (·.name)).getD s!"Channel {c}")
    l.missingChannel e.2 c s!"Cannot add stream to channel {c}: channel does not exist" (some name)
        (some x) ++
      if l.streamIsMissing x then
        [{ type := .missingStream, message := s!"Stream {x} does not exist",
           operationIndex := some e.2, channelId := some c, channelName := some name,
           streamId := some x }]
      else []
  | .removeStreamFromChannel c x =>
    l.missingChannel e.2 c s!"Cannot remove stream from channel {c}: channel does not exist" none
      (some x)
  | .reorderChannelStreams c _ =>
    l.missingChannel e.2 c s!"Cannot reorder streams for channel {c}: channel does not exist"
  | .bulkAssignChannelNumbers op =>
    op.channelIds.flatMap fun c =>
      l.missingChannel e.2 c s!"Cannot assign number to channel {c}: channel does not exist"
  | .setProfileMembership p c _ =>
    l.missingChannel e.2 c
        s!"Cannot set profile membership for channel {c}: channel does not exist"
        (some s!"Channel {c}") ++
      if l.profilesResolved && p ∉ l.profileIds then
        [{ type := .invalidOperation, message := s!"Channel profile {p} does not exist",
           operationIndex := some e.2, channelId := some c }]
      else []
  | .restoreChannelGroup g =>
    if l.hiddenGroupsResolved && g ∉ l.hiddenGroupIds then
      [{ type := .invalidOperation, severity := .warning,
         message := s!"Channel group {g} is not hidden; the restore will do nothing",
         operationIndex := some e.2 }]
    else []
  | .clearStreamStats xs =>
    (xs.filter l.streamIsMissing).map fun x =>
      { type := .missingStream, severity := .warning,
        message := s!"Stream {x} does not exist; clearing its probe stats will do nothing",
        operationIndex := some e.2, streamId := some x }
  | _ => []

def numberingUnavailable : ValidationIssue where
  type := .numberingPreflightUnavailable
  message := "The channel lineup could not be read, so the check for duplicate and " ++
    "out-of-contract channel numbers could not run. No channel numbering was verified. Try again " ++
    "once Dispatcharr is reachable."

/-- Every issue Phase 0 reports. -/
def validationIssues (format : Option ℚ → String) (l : Lookups)
    (tempChannelNames : Dict ℤ String) (operations : List BulkOperation) : List ValidationIssue :=
  streamPlanIssues l operations ++
    operations.zipIdx.flatMap (validateOperation l tempChannelNames) ++
    (if numberingPlacesAChannel operations && !l.channelsResolved then [numberingUnavailable]
      else []) ++
    (evaluateFinalNumbering l.existingChannels.values operations).map
      (·.asValidationIssue fun q => format (some q))

/-- `stream_plan_blocks_request`: a temporary channel would be left without its streams. -/
def streamPlanBlocks (l : Lookups) (operations : List BulkOperation)
    (issues : List ValidationIssue) : Bool :=
  streamPlanIssues l operations ≠ [] ||
    issues.any fun issue => issue.type = .missingStream && issue.channelId.any (· < 0)

end ChannelManager
