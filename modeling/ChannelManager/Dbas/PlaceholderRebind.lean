import ChannelManager.Dbas.RestoreContracts
import ChannelManager.Dbas.StreamBindings

/-!
# Rebinding placeholders

The two passes that put real streams in the place of the placeholders of a restore: one driven by
the archive at the end of a restore, one by what is left on the destination after a refresh.
-/

namespace ChannelManager.Dbas

open Eff

/-- The stream matcher: which candidate a stream is, if any. -/
structure Matcher where
  matchStream : StreamRecord → List (ℤ × StreamRecord) → Option ℤ
  found : ∀ archived candidates s, matchStream archived candidates = some s →
    s ∈ candidates.map Prod.fst

/-- A channel of the archive with its streams; ids may be missing. -/
structure ArchiveChannel where
  id : Option ℤ
  name : String
  streams : List (Option ℤ × StreamRecord)

/-- `CUSTOM_STREAM_ACCOUNT_NAME`. -/
def customStreamAccountName : String := "ECM Custom Streams (DBAS restore)"

/-- `RebindResult`. -/
structure RebindResult where
  rebound : ℕ
  channelsUpdated : ℕ
  placeholdersDeleted : ℕ
  orphansSwept : ℕ
  accountDeleted : Bool
  stillPlaceholder : List String
  unplayable : List String
deriving DecidableEq

/-- Nothing changed. -/
def RebindResult.none : RebindResult := ⟨0, 0, 0, 0, false, [], []⟩

/-- A name to show, also when there is none. -/
def shownName (name : String) : String := if name = "" then "<unknown>" else name

/-- The streams of a listing that are no placeholder and can serve. -/
def candidateStreams (placeholderIds : List ℤ) (allStreams : List (ℤ × StreamRecord)) :
    List (ℤ × StreamRecord) :=
  allStreams.filter fun row => row.1 ∉ placeholderIds && urlCanServe row.2.url

/-- The streams each listed channel holds. -/
def currentByChannel (rows : List (ℤ × ChannelRecord)) : Dict ℤ (List ℤ) :=
  Dict.ofList (rows.map fun row => (row.1, row.2.streams))

/-- What the channels are left with: the list the pass settled on, or the one it read. -/
def referencedIds (current final : Dict ℤ (List ℤ)) : List ℤ :=
  current.items.flatMap fun row => (final.get? row.1).getD row.2

/-- The slots of a channel after the matcher went over them. -/
structure Slots where
  orderedIds : List ℤ
  rebound : ℕ
  retained : List ℤ
deriving DecidableEq

/-- `_ChannelRebind`: what a channel is left holding. -/
structure ChannelRebind where
  finalIds : List ℤ
  rebound : ℕ
  updated : Bool
  retainedPlaceholders : List ℤ
deriving DecidableEq

section RebindOneChannel

variable (matcher : Matcher) (placeholderIds : List ℤ) (archivedFor : ℤ → Option StreamRecord)
  (candidates : List (ℤ × StreamRecord))

/-- The match for a placeholder, unless the channel already holds it. -/
def claim (claimedIds : List ℤ) (boundId : ℤ) : Option ℤ :=
  ((archivedFor boundId).bind fun archived => matcher.matchStream archived candidates).filter
    fun matchId => decide (matchId ∉ claimedIds)

/-- The slot loop: a hit rewrites its slot in place, a miss keeps the placeholder. -/
def rebindSlots : List ℤ → List ℤ → Slots
  | _, [] => ⟨[], 0, []⟩
  | claimedIds, boundId :: rest =>
    if boundId ∈ placeholderIds then
      match claim matcher archivedFor candidates claimedIds boundId with
      | some matchId =>
        let later := rebindSlots (matchId :: claimedIds) rest
        ⟨matchId :: later.orderedIds, later.rebound + 1, later.retained⟩
      | none =>
        let later := rebindSlots (boundId :: claimedIds) rest
        ⟨boundId :: later.orderedIds, later.rebound, boundId :: later.retained⟩
    else
      let later := rebindSlots claimedIds rest
      { later with orderedIds := boundId :: later.orderedIds }

/-- The slots of a channel, the real streams it holds claimed from the start. -/
def channelSlots (currentIds : List ℤ) : Slots :=
  rebindSlots matcher placeholderIds archivedFor candidates
    (currentIds.filter (· ∉ placeholderIds)) currentIds

/-- `_rebind_one_channel`. -/
def rebindOneChannel (upstream : Upstream) (destChannelId : ℤ) (currentIds : List ℤ) :
    Eff World ChannelRebind := do
  let slots := channelSlots matcher placeholderIds archivedFor candidates currentIds
  if slots.rebound = 0 then pure ⟨slots.orderedIds, 0, false, slots.retained⟩
  else do
    if ← attempt (updateChannelStreams upstream destChannelId slots.orderedIds) then
      pure ⟨slots.orderedIds, slots.rebound, true, slots.retained⟩
    else pure ⟨currentIds, 0, false, currentIds.filter (· ∈ placeholderIds)⟩

end RebindOneChannel

section Cleanup

variable (upstream : Upstream)

/-- Delete a stream, and remember it when that went through. -/
def deleteAndNote (deletedIds : List ℤ) (streamId : ℤ) : Eff World (List ℤ) := do
  if ← attempt (deleteStream upstream streamId) then pure (deletedIds ++ [streamId])
  else pure deletedIds

/-- `_synthetic_account_ids`. -/
def syntheticAccountIds (ledger : RollbackLedger) (destination : Destination) : List ℤ :=
  let ledgered := (ledger.entries.filter fun e =>
    e.entityType = .m3uAccount && e.label = customStreamAccountName).map LedgerEntry.destinationId
  if upstream.accountListing then ledgered
  else
    ledgered ++ (destination.accounts.items.filter fun row =>
      row.2 = customStreamAccountName).map Prod.fst

/-- What the sweep takes of a listing: unservable, on a synthetic account, referenced by no channel
and not deleted before. -/
def sweepable (referencedIds alreadyDeleted syntheticIds : List ℤ) (row : ℤ × StreamRecord) : Bool :=
  row.1 ∉ alreadyDeleted && !urlCanServe row.2.url && row.2.m3uAccount.any (· ∈ syntheticIds) &&
    row.1 ∉ referencedIds

/-- `_sweep_orphaned_placeholders`. -/
def sweepOrphanedPlaceholders (allStreams : List (ℤ × StreamRecord))
    (referencedIds alreadyDeleted syntheticIds : List ℤ) : Eff World (List ℤ) :=
  fold (deleteAndNote upstream) []
    ((allStreams.filter (sweepable referencedIds alreadyDeleted syntheticIds)).map Prod.fst)

/-- The accounts with a stream left under them. -/
def occupiedAccounts (allStreams : List (ℤ × StreamRecord)) (deletedIds : List ℤ) : List ℤ :=
  (allStreams.filter fun row => row.1 ∉ deletedIds).filterMap fun row => row.2.m3uAccount

/-- `_drop_empty_synthetic_account`. -/
def dropEmptySyntheticAccount (allStreams : List (ℤ × StreamRecord))
    (deletedIds syntheticIds : List ℤ) : Eff World Bool :=
  fold (fun deletedAny accountId => do
    if ← attempt (deleteM3uAccount upstream accountId) then pure true else pure deletedAny) false
    ((syntheticIds.dedup.insertionSort (· ≤ ·)).filter
      (· ∉ occupiedAccounts allStreams deletedIds))

end Cleanup

/-- What the loop over the archive carries. -/
structure Progress where
  stillReferenced : List ℤ
  finalByChannel : Dict ℤ (List ℤ)
  result : RebindResult
  details : List StreamReattachDetail

section Archive

variable (upstream : Upstream) (matcher : Matcher) (ledger : RollbackLedger) (remap : IdRemapTable)

/-- The destination channel of an archived one. -/
def ArchiveChannel.target (archiveChannel : ArchiveChannel) : Option ℤ :=
  archiveChannel.id.bind fun id => remap.resolve .channel id

/-- The archived streams by their id. -/
def ArchiveChannel.bySource (archiveChannel : ArchiveChannel) : Dict ℤ StreamRecord :=
  Dict.ofList (archiveChannel.streams.filterMap fun s => s.1.map fun id => (id, s.2))

/-- The archived stream a placeholder stands in for. -/
def ArchiveChannel.standsFor (archiveChannel : ArchiveChannel) (placeholderId : ℤ) :
    Option StreamRecord :=
  let sourceByPlaceholder : Dict ℤ ℤ :=
    Dict.ofList ((remap.mappings .stream).items.map fun row => (row.2, row.1))
  (sourceByPlaceholder.get? placeholderId).bind archiveChannel.bySource.get?

/-- Take down what a channel was left with, and whether it plays. -/
def Progress.note (progress : Progress) (allStreams : List (ℤ × StreamRecord))
    (archiveChannel : ArchiveChannel) (destChannelId : ℤ) (outcome : ChannelRebind) : Progress :=
  let playableIds := (allStreams.filter fun row => urlCanServe row.2.url).map Prod.fst
  let streamNames : Dict ℤ String :=
    Dict.ofList (allStreams.map fun row => (row.1, shownName row.2.name))
  let nonPlayableIds := outcome.finalIds.filter (· ∉ playableIds)
  let hasPlayable := outcome.finalIds.any (· ∈ playableIds)
  let undelivered := outcome.finalIds = [] ∧ archiveChannel.bySource.items ≠ []
  let reported := nonPlayableIds ≠ [] ∨ undelivered
  let label := shownName archiveChannel.name
  let named := (nonPlayableIds.map fun s => (streamNames.get? s).getD "<unknown>").dedup
  { stillReferenced := progress.stillReferenced ++ outcome.retainedPlaceholders
    finalByChannel := progress.finalByChannel.set destChannelId outcome.finalIds
    result :=
      { progress.result with
        rebound := progress.result.rebound + outcome.rebound
        channelsUpdated := progress.result.channelsUpdated + if outcome.updated then 1 else 0
        stillPlaceholder :=
          progress.result.stillPlaceholder ++ if reported then [label] else []
        unplayable :=
          progress.result.unplayable ++ if reported ∧ !hasPlayable then [label] else [] }
    details := progress.details ++ if reported then
      [⟨destChannelId, label, named.insertionSort (· ≤ ·), hasPlayable⟩] else [] }

/-- One round of the loop over the archive. -/
def rebindArchived (allStreams : List (ℤ × StreamRecord)) (current : Dict ℤ (List ℤ))
    (progress : Progress) (archiveChannel : ArchiveChannel) : Eff World Progress :=
  match archiveChannel.target remap with
  | none => pure progress
  | some destChannelId =>
    match current.get? destChannelId with
    | none => pure progress
    | some currentIds => do
      let outcome ← rebindOneChannel matcher (ledger.ledgeredIds .stream)
        (archiveChannel.standsFor remap)
        (candidateStreams (ledger.ledgeredIds .stream) allStreams) upstream destChannelId currentIds
      pure (progress.note allStreams archiveChannel destChannelId outcome)

/-- The note about the channels that need a stream. -/
def reattachNote (result : RebindResult) (stillReferenced : List ℤ) : List String :=
  let needing := result.stillPlaceholder.length
  let silent := result.unplayable.length
  let kept := if stillReferenced = [] then "" else
    s!" The synthetic '{customStreamAccountName}' account was kept so those bindings survive."
  if result.stillPlaceholder = [] then []
  else [s!"{needing} channel(s) need a real stream attached, {silent} of which have NO " ++
    "playable stream at all and cannot play. Attach a real stream to each channel named in " ++
    "stream_reattach_details." ++ kept]

/-- `_rebind_from_archive`. -/
def rebindFromArchive (archiveChannels : List ArchiveChannel) (report : StreamReport) :
    Eff World (RebindResult × StreamReport) := do
  let world ← get
  let placeholderIds := ledger.ledgeredIds .stream
  let allStreams := listStreams upstream none world.destination
  let current := currentByChannel (listChannels upstream world.destination)
  let progress ← fold (rebindArchived upstream matcher ledger remap allStreams current)
    ⟨[], ∅, .none, report.streamReattachDetails⟩ archiveChannels
  let orphaned := (placeholderIds.filter (· ∉ progress.stillReferenced)).dedup.insertionSort (· ≤ ·)
  let deletedIds ← fold (deleteAndNote upstream) [] orphaned
  let world ← get
  let syntheticIds := syntheticAccountIds upstream ledger world.destination
  let sweptIds ← sweepOrphanedPlaceholders upstream allStreams
    (referencedIds current progress.finalByChannel) deletedIds syntheticIds
  let removedIds := deletedIds ++ sweptIds
  let accountDeleted ← dropEmptySyntheticAccount upstream allStreams removedIds syntheticIds
  let redacted := allStreams.filter fun row => row.1 ∉ removedIds && urlIsRedacted row.2.url
  pure
    ({ progress.result with
        placeholdersDeleted := deletedIds.length
        orphansSwept := sweptIds.length
        accountDeleted },
      { streamsRebound := report.streamsRebound + progress.result.rebound
        streamReattachDetails := progress.details
        streamUrlRedactionDetails := redacted.map fun row => (row.1, shownName row.2.name)
        notes := report.notes ++ reattachNote progress.result progress.stillReferenced })

end Archive

section Refresh

variable (upstream : Upstream) (matcher : Matcher)

/-- The leftover placeholders: on a synthetic account and unservable. -/
def leftoverPlaceholders (destination : Destination) (syntheticIds : List ℤ) :
    Dict ℤ StreamRecord :=
  Dict.ofList ((syntheticIds.dedup.insertionSort (· ≤ ·)).flatMap fun accountId =>
    (listStreams upstream (some accountId) destination).filter fun row =>
      !urlCanServe row.2.url && row.2.m3uAccount.any (· ∈ syntheticIds))

/-- Take down what a channel was left with after a refresh. -/
def noteRefreshed (candidateIds : List ℤ) (label : String) (destChannelId : ℤ)
    (progress : Dict ℤ (List ℤ) × RebindResult) (outcome : ChannelRebind) :
    Dict ℤ (List ℤ) × RebindResult :=
  let silent := outcome.finalIds.any (· ∉ candidateIds)
  (progress.1.set destChannelId outcome.finalIds,
    { progress.2 with
      rebound := progress.2.rebound + outcome.rebound
      channelsUpdated := progress.2.channelsUpdated + if outcome.updated then 1 else 0
      stillPlaceholder := progress.2.stillPlaceholder ++ if silent then [label] else []
      unplayable := progress.2.unplayable ++
        if silent && !outcome.finalIds.any (· ∈ candidateIds) then [label] else [] })

/-- One round of the loop over the listed channels. -/
def rebindListed (placeholders : Dict ℤ StreamRecord) (candidates : List (ℤ × StreamRecord))
    (progress : Dict ℤ (List ℤ) × RebindResult) (row : ℤ × ChannelRecord) :
    Eff World (Dict ℤ (List ℤ) × RebindResult) :=
  if row.2.streams.any (· ∈ placeholders.keys) then do
    let outcome ← rebindOneChannel matcher placeholders.keys placeholders.get? candidates upstream
      row.1 row.2.streams
    pure (noteRefreshed (candidates.map Prod.fst) (shownName row.2.name) row.1 progress outcome)
  else pure progress

/-- The refresh-driven pass past its gates. -/
def rebindLeftovers (placeholders : Dict ℤ StreamRecord) (candidates allStreams : List (ℤ × StreamRecord))
    (syntheticIds : List ℤ) : Eff World RebindResult := do
  let world ← get
  let channels := listChannels upstream world.destination
  let progress ← fold (rebindListed upstream matcher placeholders candidates) (∅, .none) channels
  let sweptIds ← sweepOrphanedPlaceholders upstream allStreams
    (referencedIds (currentByChannel channels) progress.1) [] syntheticIds
  let accountDeleted ← dropEmptySyntheticAccount upstream allStreams sweptIds syntheticIds
  pure { progress.2 with orphansSwept := sweptIds.length, accountDeleted }

/-- `_rebind_from_live_placeholders`. -/
def rebindFromLivePlaceholders : Eff World RebindResult := do
  let world ← get
  let syntheticIds := syntheticAccountIds upstream .empty world.destination
  let placeholders := leftoverPlaceholders upstream world.destination syntheticIds
  let allStreams := listStreams upstream none world.destination
  let candidates := candidateStreams placeholders.keys allStreams
  if syntheticIds = [] ∨ placeholders.keys = [] ∨ candidates = [] then pure .none
  else rebindLeftovers upstream matcher placeholders candidates allStreams syntheticIds

/-- `rebind_placeholders_after_refresh`: skipped while another pass is in flight. -/
def rebindPlaceholdersAfterRefresh (inFlight : Bool) : Eff World RebindResult :=
  if inFlight then pure .none
  else tryCatch (rebindFromLivePlaceholders upstream matcher) fun _ => pure .none

end Refresh

end ChannelManager.Dbas
