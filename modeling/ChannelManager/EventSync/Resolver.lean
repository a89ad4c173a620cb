import ChannelManager.EventSync.Matcher
import ChannelManager.Lib.Dict

/-!
# Resolving event sync

`resolve_event_sync`: every secondary stream is matched, the pairings the operator excluded or rejected
are taken out, what is left is classified by the bands of its first candidates, and an accepted pairing
turns an open question into an attach.
-/

namespace ChannelManager.EventSync

inductive Disposition
  | wouldAttach
  | ambiguous
  | unmatched
  | parseFailed
  | excludedByOperator
deriving DecidableEq

inductive AmbiguousReason
  | contestedTopCandidates
  | topCandidateAmbiguousBand
  | venueTokenConflict
  | staleDatelessStreamName
deriving DecidableEq

inductive AttachSource
  | threshold
  | reviewQueue
deriving DecidableEq

inductive MatchedVia
  | assumeCurrentDate
  | timeWindowIgnored
  | loweredThreshold
  | masterFromStream
deriving DecidableEq

/-- `CONTESTED_SCORE_EPSILON`. -/
def contestedScoreEpsilon : ℚ := 1 / 20

/-- `MAX_REVIEW_CANDIDATES_PER_STREAM`. -/
def maxReviewCandidatesPerStream : ℕ := 5

/-- `PROVIDER_ID_UNKNOWN`. -/
def providerIdUnknown : ℤ := 0

structure SecondaryStream where
  name : String
  groupId : ℤ
  streamId : Option ℤ
  provider : Option String
  providerId : Option ℤ
  nameSeenBeforeToday : Option Bool
deriving DecidableEq

/-- The fingerprint of a pairing: the provider, the hash of the stream's name and the event of the
master. -/
structure PairingKey where
  providerId : ℤ
  streamNameHash : String
  eventKey : String
deriving DecidableEq

/-- `ReviewDecisions`. -/
structure ReviewDecisions where
  accepted : List PairingKey
  rejected : List PairingKey

/-- What an `event_sync_config` says; a field that is absent has its default. -/
structure EventSyncConfig (π : Type) where
  masterGroupId : ℤ
  patterns : Option (List π)
  groupPatterns : Dict (ℤ ⊕ String) (List π)
  enforceTimeWindow : Option Bool
  timeWindowMinutes : Option ℤ
  attachThreshold : Option ℚ
  assumeCurrentDate : Option Bool
  demoteStaleDateless : Option Bool
  parseMasterFromStream : Option Bool

structure ResolvedStream where
  stream : SecondaryStream
  result : StreamMatchResult
  disposition : Disposition
  best : Option MasterCandidate
  ambiguousReason : Option AmbiguousReason
  attachSource : Option AttachSource
  reviewCandidates : List MasterCandidate
  rejectedSuppressed : ℕ
  matchedVia : List MatchedVia
  excludedSuppressed : ℕ
  excludedMasters : List String
deriving DecidableEq

structure EventSyncResolution where
  resolved : List ResolvedStream
  unparsedMasterNames : List String
deriving DecidableEq

/-- `_is_contested`, on the first candidate and the others. -/
def isContested (top : MasterCandidate) (runners : List MasterCandidate) : Bool :=
  (runners.head?.any fun runner => decide (top.score - runner.score ≤ contestedScoreEpsilon)) ||
    runners.any fun runner => decide (runner.band = .attach)

/-- `_classify_candidates`. -/
def classifyCandidates (unmatchableReason : Option RejectReason) :
    List MasterCandidate → Disposition × Option MasterCandidate × Option AmbiguousReason
  | [] => (if unmatchableReason = none then .unmatched else .parseFailed, none, none)
  | top :: runners =>
    if unmatchableReason ≠ none then (.parseFailed, none, none)
    else
      match top.band with
      | .attach =>
        if isContested top runners then (.ambiguous, none, some .contestedTopCandidates)
        else (.wouldAttach, some top, none)
      | .ambiguous =>
        if .venueTokenConflict ∈ top.rejectReasons then (.ambiguous, none, some .venueTokenConflict)
        else (.ambiguous, none, some .topCandidateAmbiguousBand)
      | .reject => (.unmatched, none, none)

section Resolver

variable {π : Type} (scorer : Scorer π)

/-- `master_event_key`. -/
def masterEventKey (parsed : ParsedEvent) : Option String :=
  match parsed.title, parsed.start with
  | some title, some start =>
    let cleaned := scorer.cleanName title
    let cleaned := if cleaned = "" then scorer.lowerWords title else cleaned
    if parsed.matchedPattern.any (· ∈ scorer.synthesizedDatePatternNames) then
      some (cleaned ++ "|dateless|" ++ start.clock)
    else some (cleaned ++ "|" ++ scorer.utcIsoformat start.instant)
  | _, _ => none

/-- The fingerprint of a stream and a master, if the master has one. -/
def pairingKey (stream : SecondaryStream) (master : ParsedEvent) : Option PairingKey :=
  (masterEventKey scorer master).map fun eventKey =>
    ⟨stream.providerId.getD providerIdUnknown, scorer.streamNameHash stream.name, eventKey⟩

/-- The candidates after the operator's word, and what was taken out. -/
structure Sifted where
  kept : List MasterCandidate
  keyed : Dict String PairingKey
  rejectedSuppressed : ℕ
  excludedSuppressed : ℕ
  excludedMasters : List String

variable (decisions : Option ReviewDecisions) (exclusions : Option (List PairingKey))

/-- `decisions` says something. -/
def hasDecisions : Bool := decisions.any fun d => decide (d.accepted ≠ [] ∨ d.rejected ≠ [])

def isExcluded (key : PairingKey) : Bool := exclusions.any (key ∈ ·)

def isRejected (key : PairingKey) : Bool := decisions.any (key ∈ ·.rejected)

def isAccepted (key : Option PairingKey) : Bool :=
  key.any fun key => decisions.any (key ∈ ·.accepted)

/-- One candidate of the loop of `_resolve_stream`. -/
def siftOne (stream : SecondaryStream) (acc : Sifted) (c : MasterCandidate) : Sifted :=
  match pairingKey scorer stream c.parsed with
  | none => { acc with kept := acc.kept ++ [c] }
  | some key =>
    let acc := { acc with keyed := acc.keyed.set c.masterName key }
    if isExcluded exclusions key then
      { acc with
        excludedSuppressed := acc.excludedSuppressed + 1
        excludedMasters := acc.excludedMasters ++ [c.masterName] }
    else if isRejected decisions key then
      { acc with rejectedSuppressed := acc.rejectedSuppressed + 1 }
    else { acc with kept := acc.kept ++ [c] }

def sift (stream : SecondaryStream) (candidates : List MasterCandidate) : Sifted :=
  if hasDecisions decisions || exclusions.any (· ≠ []) then
    candidates.foldl (siftOne scorer decisions exclusions stream) ⟨[], ∅, 0, 0, []⟩
  else ⟨candidates, ∅, 0, 0, []⟩

/-- The stale-dateless demotion: the name is from before today and only assuming today's date gave it a
start. -/
def isStale (demoteStaleDateless : Bool) (patterns : Option (List π)) (stream : SecondaryStream) : Bool :=
  demoteStaleDateless && decide (stream.nameSeenBeforeToday = some true) &&
    (parseEventName scorer patterns false stream.name).start.isNone

/-- `_resolve_stream`. -/
def resolveStream (stream : SecondaryStream) (result : StreamMatchResult) (demoteStaleDateless : Bool)
    (patterns : Option (List π)) : ResolvedStream :=
  let sifted := sift scorer decisions exclusions stream result.candidates
  let classified := classifyCandidates result.unmatchableReason sifted.kept
  let row := fun (disposition : Disposition) (best : Option MasterCandidate)
      (reason : Option AmbiguousReason) (source : Option AttachSource)
      (review : List MasterCandidate) =>
    (⟨stream, result, disposition, best, reason, source, review, sifted.rejectedSuppressed, [],
      sifted.excludedSuppressed, sifted.excludedMasters⟩ : ResolvedStream)
  let (disposition, best, reason) :=
    if classified.1 = .wouldAttach ∧ isStale scorer demoteStaleDateless patterns stream then
      (.ambiguous, none, some .staleDatelessStreamName)
    else classified
  match disposition with
  | .wouldAttach => row .wouldAttach best reason (some .threshold) []
  | .ambiguous =>
    let eligible := sifted.kept.filter fun c => decide (c.band = .attach ∨ c.band = .ambiguous)
    match eligible.find? fun c => isAccepted decisions (sifted.keyed.get? c.masterName) with
    | some c => row .wouldAttach (some c) none (some .reviewQueue) []
    | none => row .ambiguous best reason none (eligible.take maxReviewCandidatesPerStream)
  | .unmatched =>
    row (if sifted.excludedSuppressed ≠ 0 then .excludedByOperator else .unmatched) best reason none []
  | disposition => row disposition best reason none []

/-- `_matched_via`. -/
def matchedVia (config : EventSyncConfig π) (patterns : Option (List π)) (row : ResolvedStream) :
    List MatchedVia :=
  match row.disposition, row.best with
  | .wouldAttach, some best =>
    (if config.assumeCurrentDate.getD false ∧ row.result.parsed.start.isSome ∧
        (parseEventName scorer patterns false row.stream.name).start.isNone then
      [.assumeCurrentDate] else []) ++
    (if !config.enforceTimeWindow.getD true ∧
        (config.timeWindowMinutes.getD defaultTimeWindowMinutes : ℚ) < best.timeDeltaMinutes then
      [.timeWindowIgnored] else []) ++
    (if best.score < (if best.teamVerdict = .agree then eventAttachFloor else eventNoTeamsFloor) then
      [.loweredThreshold] else []) ++
    (if config.parseMasterFromStream.getD false then [.masterFromStream] else [])
  | _, _ => []

/-- `effective_patterns`. -/
def effectivePatterns (config : EventSyncConfig π) (groupId : ℤ) : Option (List π) :=
  (config.groupPatterns.get? (.inl groupId)).or
    ((config.groupPatterns.get? (.inr (toString groupId))).or config.patterns)

/-- The time window, if it is enforced. -/
def windowMinutes (config : EventSyncConfig π) : Option ℤ :=
  if config.enforceTimeWindow.getD true then
    some (config.timeWindowMinutes.getD defaultTimeWindowMinutes)
  else none

/-- The rows of one group, in the order of names. -/
def resolveGroup (config : EventSyncConfig π) (masterNames : List String)
    (secondaryStreams : List SecondaryStream) (groupId : ℤ) : List ResolvedStream :=
  let patterns := effectivePatterns config groupId
  let assumeCurrentDate := config.assumeCurrentDate.getD false
  let streams := sortedOn (fun s : SecondaryStream => toLex (s.name, s.streamId.getD 0))
    (secondaryStreams.filter fun s => decide (s.groupId = groupId))
  let results := matchStreams scorer (streams.map (·.name)) masterNames patterns
    (effectivePatterns config config.masterGroupId) (windowMinutes config)
    (config.attachThreshold.getD eventAttachFloor) assumeCurrentDate
  (streams.zip results).map fun (stream, result) =>
    let row := resolveStream scorer decisions exclusions stream result
      (assumeCurrentDate && config.demoteStaleDateless.getD true) patterns
    { row with matchedVia := matchedVia scorer config patterns row }

/-- `resolve_event_sync`. -/
def resolveEventSync (config : EventSyncConfig π) (masterNames : List String)
    (secondaryStreams : List SecondaryStream) (attachedStreamIds : List ℤ) : EventSyncResolution :=
  let masterPatterns := effectivePatterns config config.masterGroupId
  let unparsed := masterNames.filter fun name =>
    let parsed := parseEventName scorer masterPatterns (config.assumeCurrentDate.getD false) name
    parsed.title.isNone || parsed.start.isNone
  let offered := secondaryStreams.filter fun s =>
    !(decide (s.groupId = config.masterGroupId) && s.streamId.any (· ∈ attachedStreamIds))
  let groupIds := sortedOn id (offered.map (·.groupId)).dedup
  ⟨groupIds.flatMap (resolveGroup scorer decisions exclusions config masterNames offered), unparsed⟩

end Resolver

end ChannelManager.EventSync
