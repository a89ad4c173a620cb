import ChannelManager.Dbas.StreamMatcher

/-!
# Attaching the archived streams

The importer plans a slot for every archived stream of a restored channel. It creates a custom
stream for each that the matcher misses, and then sends every channel the streams of its slots.
-/

namespace ChannelManager.Dbas

open Eff

/-- How the destination answers a create: the ids it gives, a stream's always a new one, and the
answers without an id, by the number of the write. -/
structure Creations where
  streamId : Destination → ℤ
  accountId : Destination → ℤ
  anonymous : ℕ → Bool
  fresh : ∀ destination, streamId destination ∉ destination.streams

namespace Destination

/-- Take in a stream. -/
def addStream (destination : Destination) (streamId : ℤ) (record : StreamRecord) : Destination :=
  { destination with
    streams := destination.streams.set streamId record
    bound := by
      intro c record' h
      obtain ⟨hnodup, hexist⟩ := destination.bound c record' h
      exact ⟨hnodup, fun s hs => (Dict.mem_set _ _ _ _).mpr (.inr (hexist s hs))⟩ }

/-- Take in an account. -/
def addAccount (destination : Destination) (accountId : ℤ) (name : String) : Destination :=
  { destination with accounts := destination.accounts.set accountId name }

end Destination

section Creates

variable (upstream : Upstream) (creations : Creations)

/-- `create_stream`, and the id it answers with. -/
def createStream (record : StreamRecord) : Eff World (Option ℤ) := do
  let asked ← get
  request upstream
  let world ← get
  let streamId := creations.streamId world.destination
  set { world with destination := world.destination.addStream streamId record }
  pure (if creations.anonymous asked.writes then none else some streamId)

/-- `create_m3u_account`, and the id it answers with. -/
def createM3uAccount (name : String) : Eff World (Option ℤ) := do
  let asked ← get
  request upstream
  let world ← get
  let accountId := creations.accountId world.destination
  set { world with destination := world.destination.addAccount accountId name }
  pure (if creations.anonymous asked.writes then none else some accountId)

/-- `_find_account_id_by_name`. -/
def findAccountIdByName (destination : Destination) : Option ℤ :=
  (destination.accounts.items.find? fun row => row.2 = customStreamAccountName).map Prod.fst

/-- `_ensure_custom_stream_account`. -/
def ensureCustomStreamAccount : Eff World ℤ := do
  let world ← get
  if upstream.accountListing then throw "upstream request failed"
  else match findAccountIdByName world.destination with
    | some accountId => pure accountId
    | none => do
      match ← createM3uAccount upstream creations customStreamAccountName with
      | some accountId => pure accountId
      | none =>
        throw "create_m3u_account returned no usable id for the synthesized custom-stream account."

end Creates

/-- What the stream layer of a restore writes down. -/
structure StreamLayer where
  category : EntityCategoryReport
  notes : List String
  ledger : RollbackLedger
  remap : IdRemapTable

/-- An archived stream: its id in the archive, which may be missing, and what is read of it. -/
abbrev ArchivedStream := Option ℤ × StreamRecord

/-- `_StreamSlot`. -/
structure StreamSlot where
  destId : Option ℤ
  orphan : Option ArchivedStream

/-- `_ChannelStreamPlan`. -/
structure ChannelStreamPlan where
  destChannelId : ℤ
  label : String
  slots : List StreamSlot

section Plan

variable (names : NameRules) (allowFuzzy : Bool) (candidates : List (ℤ × StreamRecord))

/-- The candidate an archived stream is matched to. -/
def hit (stream : ArchivedStream) : Option ℤ :=
  let matched := matchStream candidates names allowFuzzy stream.2
  if matched.1 ≠ .miss then matched.2 else none

/-- The slot of an archived stream. -/
def slotOf (stream : ArchivedStream) : StreamSlot :=
  match hit names allowFuzzy candidates stream with
  | some destId => ⟨some destId, none⟩
  | none => ⟨none, some stream⟩

/-- The note on a stream attached by a similar name. -/
def fuzzyNote (label : String) (stream : ArchivedStream) : Option String :=
  if (matchStream candidates names allowFuzzy stream.2).1 = .fuzzyNormalizedName then
    some (s!"low-confidence stream match (fuzzy): attached stream '{shownName stream.2.name}' on " ++
      s!"channel '{label}' via a fuzzy name match — verify it is correct.")
  else none

/-- `_plan_streams`, for a restored channel and its id on the destination. -/
def planStreams (planned : List ChannelStreamPlan × StreamLayer) (row : ArchiveChannel × ℤ) :
    List ChannelStreamPlan × StreamLayer :=
  let label := shownName row.1.name
  let hits := (row.1.streams.filterMap (hit names allowFuzzy candidates)).length
  if row.1.streams = [] then planned
  else
    (planned.1 ++ [⟨row.2, label, row.1.streams.map (slotOf names allowFuzzy candidates)⟩],
      { planned.2 with
        category := { planned.2.category with updated := planned.2.category.updated + hits }
        notes := planned.2.notes ++
          row.1.streams.filterMap (fuzzyNote names allowFuzzy candidates label) })

end Plan

section Attach

variable (upstream : Upstream) (creations : Creations)

/-- One round of `synthesize_custom_streams`. -/
def synthesizeStream (accountId : ℤ) (layer : StreamLayer) (orphan : ArchivedStream) :
    Eff World StreamLayer := do
  let label := shownName orphan.2.name
  let failed := fun message => { layer with
    category := layer.category.fail ⟨.upstreamApiError, label, message, orphan.1⟩ }
  match ← caught (createStream upstream creations
    { orphan.2 with m3uAccount := some accountId }) with
  | .error e => pure (failed (String.ofList (e.toList.take 300)))
  | .ok none => pure (failed "create_stream returned no usable stream id.")
  | .ok (some destId) =>
    pure { layer with
      category := { layer.category with created := layer.category.created + 1 }
      ledger := layer.ledger.recordCreated .stream destId label
      remap := match orphan.1 with
        | some sourceId => layer.remap.add .stream sourceId destId
        | none => layer.remap }

/-- The layer after an attach, and the lists it sent, each with its channel. -/
structure Attached where
  layer : StreamLayer
  sent : List (ℤ × List ℤ)

/-- The stream of a slot: the match, or the one created for it. -/
def StreamSlot.resolve (remap : IdRemapTable) (slot : StreamSlot) : Option ℤ :=
  match slot.destId with
  | some destId => some destId
  | none => (slot.orphan.bind Prod.fst).bind (remap.resolve .stream)

/-- `_sanitize_failure`. -/
def sanitizeFailure (e : String) : String :=
  if strip e = "" then "Upstream rejected the channel creation request." else strip e

/-- One round of the second pass of `_attach_streams`. -/
def attachPlan (attached : Attached) (plan : ChannelStreamPlan) : Eff World Attached := do
  let orderedIds := plan.slots.filterMap (StreamSlot.resolve attached.layer.remap)
  if orderedIds = [] then pure attached
  else do
    let sent := attached.sent ++ [(plan.destChannelId, orderedIds)]
    match ← caught (updateChannelStreams upstream plan.destChannelId orderedIds) with
    | .ok _ => pure ⟨attached.layer, sent⟩
    | .error e =>
      let detail := ⟨.upstreamApiError, plan.label, sanitizeFailure e, none⟩
      pure ⟨{ attached.layer with category := attached.layer.category.fail detail }, sent⟩

/-- `_attach_streams`. -/
def attachStreams (plans : List ChannelStreamPlan) (layer : StreamLayer) : Eff World Attached := do
  let orphans := plans.flatMap fun plan => plan.slots.filterMap StreamSlot.orphan
  let layer ← if orphans = [] then pure layer else do
    let accountId ← ensureCustomStreamAccount upstream creations
    fold (synthesizeStream upstream creations accountId) layer orphans
  fold (attachPlan upstream) ⟨layer, []⟩ plans

/-- The stream layer of `import_channels`: a plan for every restored channel, and the attach. -/
def importStreams (names : NameRules) (allowFuzzy : Bool) (candidates : List (ℤ × StreamRecord))
    (restored : List (ArchiveChannel × ℤ)) (layer : StreamLayer) : Eff World Attached :=
  let planned := restored.foldl (planStreams names allowFuzzy candidates) ([], layer)
  attachStreams upstream creations planned.1 planned.2

end Attach

end ChannelManager.Dbas
