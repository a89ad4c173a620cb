import ChannelManager.EventSync.Resolver
import ChannelManager.Lib.Budget

/-!
# Attaching streams to masters

`execute_event_sync_rule` from the resolution on: every resolved stream is counted under what became of
it, and a stream that is to be attached is appended to the streams of its master, at most as many in a
run as the cap allows. An `update_channel` that raises leaves the channel as it was.
-/

namespace ChannelManager.EventSync

/-- What the resolver says of a stream; a disposition the executor does not know is kept as it is. -/
inductive Decision
  | parseFailed
  | unmatched
  | excludedByOperator
  | ambiguous (reason : Option AmbiguousReason) (reviewCandidates : List MasterCandidate)
  | wouldAttach (best : MasterCandidate) (source : Option AttachSource)
  | unknown (disposition : String)

/-- A resolved stream as the executor reads it. -/
structure DecidedStream where
  stream : SecondaryStream
  decision : Decision
  rejectedSuppressed : ℕ
  excludedSuppressed : ℕ

/-- A row of the resolver; one to be attached has a best candidate. -/
def decided (row : ResolvedStream) : Option DecidedStream :=
  let decision : Option Decision := match row.disposition with
    | .parseFailed => some .parseFailed
    | .unmatched => some .unmatched
    | .excludedByOperator => some .excludedByOperator
    | .ambiguous => some (.ambiguous row.ambiguousReason row.reviewCandidates)
    | .wouldAttach => row.best.map fun best => .wouldAttach best row.attachSource
  decision.map fun decision => ⟨row.stream, decision, row.rejectedSuppressed, row.excludedSuppressed⟩

/-- The counts of the summary. -/
inductive Count
  | attached
  | alreadyAttached
  | ambiguousSkipped
  | contestedSkipped
  | unmatched
  | parseFailed
  | attachErrors
  | capOverage
  | queueAttached
  | rejectedSuppressed
  | excludedByOperator
  | excludedSuppressed
deriving DecidableEq

/-- How `_add_stream_to_channel` ends. -/
inductive AddResult
  | skipped
  | added
  | failed
deriving DecidableEq

/-- An entry of `attach_entries`. -/
structure AttachEntry where
  entityId : ℤ
  entityName : String
  streamId : Option ℤ
  attachSource : Option AttachSource
  result : AddResult

/-- The ids of the streams of the channels. -/
abbrev ChannelStreams := Dict ℤ (List (Option ℤ))

/-- What a run of a rule is given: the cap, whether it is a dry run, the channels of the master names,
and which of its `update_channel` calls raise. -/
structure AttachSetup where
  cap : ℕ
  dryRun : Bool
  nameToId : Dict String ℤ
  raises : ℕ → Bool

/-- Where a run stands: the executor's channels and Dispatcharr's, the calls made, and the summary. -/
structure Attaching where
  cache : ChannelStreams
  store : ChannelStreams
  calls : ℕ
  counts : Count → ℕ
  capped : Bool
  attachEntries : List AttachEntry
  reviewCandidates : List PairingKey

namespace Attaching

def start (store : ChannelStreams) : Attaching := ⟨store, store, 0, fun _ => 0, false, [], []⟩

/-- `summary[count] += n` -/
def bump (s : Attaching) (count : Count) (n : ℕ) : Attaching :=
  { s with counts := Function.update s.counts count (s.counts count + n) }

end Attaching

/-- A stream is on its channel. -/
def onChannel (store : ChannelStreams) (pair : ℤ × Option ℤ) : Bool :=
  (store.get? pair.1).any (pair.2 ∈ ·)

section Execute

variable {π : Type} (scorer : Scorer π) (setup : AttachSetup)

/-- `_add_stream_to_channel` -/
def addStreamToChannel (s : Attaching) (channelId : ℤ) (currentStreams : List (Option ℤ))
    (streamId : Option ℤ) : Attaching × AddResult :=
  if streamId ∈ currentStreams then (s, .skipped)
  else
    let newStreams := currentStreams ++ [streamId]
    if setup.dryRun then ({ s with cache := s.cache.set channelId newStreams }, .added)
    else if setup.raises s.calls then ({ s with calls := s.calls + 1 }, .failed)
    else
      ({ s with
        cache := s.cache.set channelId newStreams
        store := s.store.set channelId newStreams
        calls := s.calls + 1 }, .added)

/-- `cap_active` and the cap is reached. -/
def capReached (s : Attaching) : Bool :=
  decide (setup.cap ≠ 0) && !setup.dryRun && decide (setup.cap ≤ s.counts .attached)

/-- Attach a stream to a channel and count how it went. -/
def attach (s : Attaching) (row : DecidedStream) (best : MasterCandidate) (source : Option AttachSource)
    (channelId : ℤ) (currentStreams : List (Option ℤ)) : Attaching :=
  let (s, result) : Attaching × AddResult :=
    addStreamToChannel setup s channelId currentStreams row.stream.streamId
  let s : Attaching := match result with
    | .failed => s.bump .attachErrors 1
    | .skipped => s.bump .alreadyAttached 1
    | .added =>
      let s := s.bump .attached 1
      if source = some AttachSource.reviewQueue then s.bump .queueAttached 1 else s
  { s with
    attachEntries :=
      s.attachEntries ++ [⟨channelId, best.masterName, row.stream.streamId, source, result⟩] }

/-- One stream of the loop. -/
def decideStream (s : Attaching) (row : DecidedStream) : Attaching :=
  let s := (s.bump .rejectedSuppressed row.rejectedSuppressed).bump .excludedSuppressed
    row.excludedSuppressed
  match row.decision with
  | .parseFailed => s.bump .parseFailed 1
  | .unmatched => s.bump .unmatched 1
  | .excludedByOperator => s.bump .excludedByOperator 1
  | .ambiguous reason reviewCandidates =>
    let s := s.bump .ambiguousSkipped 1
    let s := if reason = some .contestedTopCandidates then s.bump .contestedSkipped 1 else s
    { s with
      reviewCandidates := s.reviewCandidates ++
        reviewCandidates.filterMap fun c => pairingKey scorer row.stream c.parsed }
  | .unknown _ => s.bump .attachErrors 1
  | .wouldAttach best source =>
    match setup.nameToId.get? best.masterName with
    | none => s.bump .attachErrors 1
    | some masterChannelId =>
      match s.cache.get? masterChannelId with
      | none => s.bump .attachErrors 1
      | some currentStreams =>
        if row.stream.streamId ∉ currentStreams ∧ capReached setup s then
          { s with capped := true }.bump .capOverage 1
        else attach setup s row best source masterChannelId currentStreams

/-- `execute_event_sync_rule` on what was resolved, without the promotion. -/
def executeEventSyncRule (rows : List DecidedStream) (store : ChannelStreams) : Attaching :=
  rows.foldl (decideStream scorer setup) (Attaching.start store)

end Execute

end ChannelManager.EventSync
