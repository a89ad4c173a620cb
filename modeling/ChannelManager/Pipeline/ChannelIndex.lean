import ChannelManager.Lib.Dict
import Mathlib

/-!
# The channels of a pipeline run

The channel dictionaries an `ActionExecutor` holds, and the indices it finds them in: by lower-case
name, by name without a number prefix, by fold key, and by what the normalization engine makes of a
name. An index has one channel in the slot of a key and lists every channel under that key; a lookup
by name is a walk over the channels of the stages, in order, to the first that passes the gates.
-/

namespace ChannelManager.Pipeline

/-- A channel of a run: one that was there at the start, by its id, or the `n`-th created by the
run. A dry run gives that one the id `-(n + 1)`, Dispatcharr an id no other channel has. -/
inductive ChannelKey
  | existing (id : ℤ)
  | created (n : ℕ)
deriving DecidableEq

/-- A channel dictionary. Numbers are ticks, one per tenth. -/
structure Channel where
  name : String
  channelGroupId : Option ℤ
  channelNumber : Option ℕ
  streams : List ℤ
  tvgId : Option String
  logoUrl : Option String
  autoCreated : Bool
deriving DecidableEq

/-- What the actions read of a stream. -/
structure Stream where
  streamId : ℤ
  streamName : String
  tvgId : Option String
  logoUrl : Option String
  m3uAccountId : Option ℤ
  channelId : Option ℤ
deriving DecidableEq

/-- The functions on names: `str.lower`, `str.split`, `fold_match_key`, the split at a "NUMBER | "
prefix, and the removal of parentheses from a core name. -/
structure Naming where
  lower : String → String
  words : String → List String
  foldKey : String → String
  splitNumber : String → String × String
  deparen : String → String

/-- The normalization engine; no list of groups means all of them. -/
structure Normalizer where
  normalize : Option (List ℤ) → String → String
  extractCoreName : String → Option String
  extractCallSign : String → Option String

/-- A lookup map and its list of candidates. -/
structure Index where
  slot : Dict String ChannelKey
  candidates : Dict String (List ChannelKey)

namespace Index

def empty : Index := ⟨∅, ∅⟩

/-- `_add_candidate`. -/
def addCandidate (index : Index) (name : String) (key : ChannelKey) : Index :=
  if name = "" then index
  else
    let listed := (index.candidates.get? name).getD []
    { index with candidates := index.candidates.set name (if key ∈ listed then listed else listed ++ [key]) }

/-- The last channel under a name takes the slot. -/
def take (index : Index) (name : String) (key : ChannelKey) : Index :=
  { index with slot := index.slot.set name key }.addCandidate name key

/-- The first channel under a name keeps the slot. -/
def setDefault (index : Index) (name : String) (key : ChannelKey) : Index :=
  { index with slot := if name ∈ index.slot then index.slot else index.slot.set name key }.addCandidate
    name key

/-- `_pick`: the channel in the slot first, then the others listed. -/
def pick (index : Index) (name : String) : List ChannelKey :=
  (index.slot.get? name).toList ++
    ((index.candidates.get? name).getD []).filter fun key => some key ≠ index.slot.get? name

/-- The channels listed under a name. -/
def listed (index : Index) (name : String) : List ChannelKey := (index.candidates.get? name).getD []

end Index

/-- What an executor is built with: the settings and services its lookups use, and the channels the
rules' ledgers list. `score` is `score_one` with `is_admissible`: none for a candidate that is not
admitted. -/
structure Config where
  naming : Naming
  normalizer : Option Normalizer
  numberInName : ℕ → String → String
  score : Stream → ℚ → Bool → String → Option String → Option ℚ
  accountOf : ℤ → Option ℤ
  managed : List ℤ

/-- The indices that are built once, from the channels loaded. -/
structure FixedIndices where
  normalizedName : Index
  coreName : Index
  callSign : Dict String ChannelKey

/-- What a live run writes and a dry run does not follow: the numbers given out by
`set_channel_number`, the channels whose cached stream list was rearranged, those whose stream list
was written, and whether a tvg id was filled in. The executor never reads it. -/
structure Drift where
  setNumbers : List ℕ
  reordered : List ChannelKey
  written : List ChannelKey
  retagged : Bool

/-- The state of an `ActionExecutor`, with the stream lists the upstream has and the number of calls
made to it. -/
structure State where
  channels : Dict ChannelKey Channel
  created : Dict String ChannelKey
  byName : Index
  baseName : Index
  foldKeys : Index
  fixed : FixedIndices
  nextKey : ℕ
  used : List ℕ
  assigned : Dict ChannelKey ℕ
  counts : Dict (ChannelKey × ℤ) ℕ
  seeded : List ChannelKey
  lastManualBlock : Option ChannelKey
  upstream : Dict ChannelKey (List ℤ)
  calls : ℕ
  drift : Drift

section Build

variable (cfg : Config)

/-- `_channel_by_name` and its candidates. -/
def byNameOf (channels : List (ChannelKey × Channel)) : Index :=
  channels.foldl (fun index e => index.take (cfg.naming.lower e.2.name) e.1) .empty

/-- `_base_name_to_channel` and its candidates. -/
def baseNameOf (channels : List (ChannelKey × Channel)) : Index :=
  channels.foldl (fun index e =>
    let stripped := (cfg.naming.splitNumber e.2.name).2
    if stripped ≠ e.2.name then index.setDefault (cfg.naming.lower stripped) e.1 else index) .empty

/-- `_fold_key_to_channel` and its candidates. -/
def foldKeysOf (channels : List (ChannelKey × Channel)) : Index :=
  channels.foldl (fun index e =>
    let stripped := (cfg.naming.splitNumber e.2.name).2
    let index := index.setDefault (cfg.naming.foldKey e.2.name) e.1
    if stripped ≠ e.2.name then index.setDefault (cfg.naming.foldKey stripped) e.1 else index) .empty

/-- `_normalized_name_to_channel` and its candidates. -/
def normalizedNameOf (normalizer : Normalizer) (channels : List (ChannelKey × Channel)) : Index :=
  channels.foldl (fun index e =>
    let stripped := (cfg.naming.splitNumber e.2.name).2
    let normalized := normalizer.normalize none stripped
    if normalized ≠ "" ∧ cfg.naming.lower normalized ≠ cfg.naming.lower stripped then
      index.setDefault (cfg.naming.lower normalized) e.1
    else index) .empty

/-- The core names with their parentheses removed are indexed as well. -/
def withDeparens (index : Index) : Index :=
  let slot := index.slot.items.foldl (fun (slot : Dict String ChannelKey) e =>
    let deparen := cfg.naming.deparen e.1
    if deparen ≠ e.1 ∧ deparen ∉ slot then slot.set deparen e.2 else slot) index.slot
  index.candidates.items.foldl (fun index e =>
    let deparen := cfg.naming.deparen e.1
    if deparen ≠ e.1 then e.2.foldl (fun index key => index.addCandidate deparen key) index
    else index) { index with slot }

/-- `_core_name_to_channel` and its candidates. -/
def coreNameOf (normalizer : Normalizer) (channels : List (ChannelKey × Channel)) : Index :=
  withDeparens cfg (channels.foldl (fun index e =>
    match normalizer.extractCoreName (cfg.naming.splitNumber e.2.name).2 with
    | none => index
    | some core => if core = "" then index else index.setDefault (cfg.naming.lower core) e.1) .empty)

/-- `_callsign_to_channel`. -/
def callSignOf (normalizer : Normalizer) (channels : List (ChannelKey × Channel)) :
    Dict String ChannelKey :=
  channels.foldl (fun (slot : Dict String ChannelKey) e =>
    match normalizer.extractCallSign e.2.name with
    | none => slot
    | some sign => if sign = "" ∨ sign ∈ slot then slot else slot.set sign e.1) ∅

/-- The executor of a run over the channels loaded; `elsewhere` are the stream lists of channels
that exist upstream and were not loaded. -/
def State.start (existing : Dict ℤ Channel) (elsewhere : Dict ℤ (List ℤ)) : State :=
  let channels := existing.items.map fun e => (ChannelKey.existing e.1, e.2)
  { channels := Dict.ofList channels
    created := ∅
    byName := byNameOf cfg channels
    baseName := baseNameOf cfg channels
    foldKeys := foldKeysOf cfg channels
    fixed := match cfg.normalizer with
      | none => ⟨.empty, .empty, ∅⟩
      | some normalizer => ⟨normalizedNameOf cfg normalizer channels,
          coreNameOf cfg normalizer channels, callSignOf normalizer channels⟩
    nextKey := 0
    used := existing.items.filterMap fun e => e.2.channelNumber
    assigned := ∅
    counts := ∅
    seeded := []
    lastManualBlock := none
    upstream := Dict.ofList ((elsewhere.items.map fun e => (ChannelKey.existing e.1, e.2)) ++
      channels.map fun e => (e.1, e.2.streams))
    calls := 0
    drift := ⟨[], [], [], false⟩ }

end Build

section Lookup

variable (cfg : Config)

/-- `_is_manual_channel`. -/
def isManualChannel (key : ChannelKey) (channel : Channel) : Bool :=
  !channel.autoCreated &&
    match key with
    | .existing id => decide (id ∉ cfg.managed)
    | .created _ => false

/-- Walk to the first channel that is in the scope group and, unless manual channels may be adopted,
not a manual one; a manual channel passed over is remembered. -/
def firstInScope (channels : Dict ChannelKey Channel) (scopeGroupId : Option ℤ) (blockManual : Bool) :
    List ChannelKey → Option ChannelKey → Option ChannelKey × Option ChannelKey
  | [], blocked => (none, blocked)
  | key :: keys, blocked =>
    match channels.get? key with
    | none => firstInScope channels scopeGroupId blockManual keys blocked
    | some channel =>
      if scopeGroupId ≠ none ∧ channel.channelGroupId ≠ scopeGroupId then
        firstInScope channels scopeGroupId blockManual keys blocked
      else if blockManual && isManualChannel cfg key channel then
        firstInScope channels scopeGroupId blockManual keys (some key)
      else (some key, blocked)

/-- What a search name normalized, or reduced to its core, finds. -/
def fallbackOrder (normalizer : Normalizer) (s : State) (name : String) : List ChannelKey :=
  let lowerName := cfg.naming.lower name
  let normalized := cfg.naming.lower (normalizer.normalize none name)
  let core := cfg.naming.lower ((normalizer.extractCoreName name).getD "")
  let legacy := (s.byName.slot.get? normalized).or ((s.baseName.slot.get? normalized).or
    ((s.fixed.normalizedName.slot.get? normalized).or (s.fixed.coreName.slot.get? normalized)))
  let byNormalized := legacy.toList ++
    (s.byName.listed normalized ++ s.baseName.listed normalized ++
      s.fixed.normalizedName.listed normalized ++ s.fixed.coreName.listed normalized).filter
        fun key => some key ≠ legacy
  (if normalized = "" ∨ normalized = lowerName then [] else byNormalized) ++
    (if core = "" ∨ core = lowerName then [] else s.fixed.coreName.pick core)

/-- The channels a lookup by name tries, in order. -/
def nameOrder (s : State) (name : String) (fold : Bool) : List ChannelKey :=
  let lowerName := cfg.naming.lower name
  (s.created.get? lowerName).toList ++ s.baseName.pick lowerName ++ s.byName.pick lowerName ++
    s.fixed.normalizedName.pick lowerName ++
    (match cfg.normalizer with
      | none => []
      | some normalizer => fallbackOrder cfg normalizer s name) ++
    (if fold ∧ cfg.naming.foldKey name ≠ "" then s.foldKeys.pick (cfg.naming.foldKey name) else [])

/-- `_find_channel_by_name`: what is found, and the manual channel that was in the way. -/
def findChannelByName (s : State) (name : String) (scopeGroupId : Option ℤ) (blockManual fold : Bool) :
    Option ChannelKey × State :=
  let (found, blocked) :=
    firstInScope cfg s.channels scopeGroupId blockManual (nameOrder cfg s name fold) none
  (found, { s with lastManualBlock := blocked })

/-- The channels of one normalized name that pass the gates, and the last manual one that does
not. -/
def eligible (channels : Dict ChannelKey Channel) (scopeGroupId : Option ℤ) (blockManual : Bool)
    (keys : List ChannelKey) (blocked : Option ChannelKey) : List ChannelKey × Option ChannelKey :=
  keys.foldl (fun acc key =>
    match channels.get? key with
    | none => acc
    | some channel =>
      if scopeGroupId ≠ none ∧ channel.channelGroupId ≠ scopeGroupId then acc
      else if blockManual && isManualChannel cfg key channel then (acc.1, some key)
      else (acc.1 ++ [key], acc.2)) ([], blocked)

/-- The channels of one exact name, each once. -/
def identityOrder (s : State) (name : String) : List ChannelKey :=
  let lowerName := cfg.naming.lower name
  ((s.created.get? lowerName).toList ++ s.baseName.listed lowerName ++ s.byName.listed lowerName ++
    s.fixed.normalizedName.listed lowerName).reverse.dedup.reverse

/-- `_find_unique_channel_by_exact_identity`. -/
def findUniqueChannelByExactIdentity (s : State) (name : String) (scopeGroupId : Option ℤ)
    (blockManual : Bool) : Option ChannelKey × State :=
  let (unique, blocked) := eligible cfg s.channels scopeGroupId blockManual
    (identityOrder cfg s name) s.lastManualBlock
  (if unique.length = 1 then unique.head? else none, { s with lastManualBlock := blocked })

/-- `existing_channels`. -/
def existingChannels (s : State) : List (ChannelKey × Channel) :=
  s.channels.items.filter fun e =>
    match e.1 with
    | .existing _ => true
    | .created _ => false

/-- The values of `_created_channels`. -/
def createdChannels (s : State) : List (ChannelKey × Channel) :=
  s.created.values.filterMap fun key => (s.channels.get? key).map fun channel => (key, channel)

/-- The first channel, of those loaded and then of those created, that passes a test. -/
def findChannel (s : State) (test : Channel → Bool) : Option ChannelKey :=
  ((existingChannels s ++ createdChannels s).find? fun e => test e.2).map Prod.fst

/-- `_find_channel_by_tvg_id`. -/
def findChannelByTvgId (s : State) (tvgId : Option String) : Option ChannelKey :=
  match tvgId with
  | none => none
  | some "" => none
  | some id => findChannel s fun channel => channel.tvgId = some id

/-- One candidate of `_resolve_scored_fuzzy` against the best so far. -/
def better (lowestId : Bool) (best : Option (ChannelKey × ℚ)) (key : ChannelKey) (score : ℚ) :
    Option (ChannelKey × ℚ) :=
  match best with
  | none => some (key, score)
  | some (bestKey, bestScore) =>
    let lower := match key, bestKey with
      | .existing id, .existing bestId => decide (toString id < toString bestId)
      | _, _ => false
    if bestScore < score ∨ score = bestScore ∧ lowestId = true ∧ lower = true then some (key, score)
    else best

/-- `_resolve_scored_fuzzy`. -/
def resolveScoredFuzzy (s : State) (stream : Stream) (minScore : ℚ) (allowedGroups : List ℤ)
    (allowNoCallsign lowestId : Bool) : Option ChannelKey :=
  ((existingChannels s).foldl (fun best e =>
    if (e.2.channelGroupId.any (· ∈ allowedGroups)) && decide (e.2.name ≠ "") then
      match cfg.score stream minScore allowNoCallsign e.2.name e.2.tvgId with
      | none => best
      | some score => better lowestId best e.1 score
    else best) none).map Prod.fst

end Lookup

end ChannelManager.Pipeline
