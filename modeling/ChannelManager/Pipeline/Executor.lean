import ChannelManager.Pipeline.ChannelIndex

/-!
# Executing the actions of a rule

`ActionExecutor.execute` for the actions that create channels, merge streams into them, number them
and reorder their streams. Dry and live runs share one text: every action decides what to do from
the executor's state, and then either writes to the upstream and follows its own write, or notes
what it would have written. An upstream call that fails leaves the upstream as it was; `fails` says
which do.
-/

namespace ChannelManager.Pipeline

/-- A rule's `channel_number`: automatic, a literal in ticks, or a range of whole numbers. -/
inductive NumberSpec
  | auto
  | literal (ticks : ℕ)
  | range (lo hi : ℕ)
deriving DecidableEq

/-- `if_exists` of `create_channel`. -/
inductive IfExists
  | skip
  | merge
  | mergeOnly
  | update
deriving DecidableEq

/-- The parameters of `create_channel`; `channelName` is the name template expanded and
transformed. -/
structure CreateParams where
  channelName : Stream → String
  groupId : Option ℤ
  ifExists : IfExists
  channelNumber : NumberSpec

/-- `target` of `merge_streams`. -/
inductive MergeTarget
  | newChannel
  | existingChannel
  | auto
deriving DecidableEq

/-- `find_channel_by` of `merge_streams` with its value; a regular expression is the names it
matches. -/
inductive FindBy
  | nameExact (value : Stream → String)
  | nameRegex (test : String → Bool)
  | tvgId (value : Option String)

/-- The parameters of `merge_streams`. -/
structure MergeParams where
  target : MergeTarget
  findChannelBy : Option FindBy
  maxStreamsPerChannel : ℕ
  looseNameMatch : Bool
  minScore : Option ℚ
  allowNoCallsign : Bool
  lowestId : Bool
  targetChannelNotInGroup : List ℤ
  targetChannelInGroup : List ℤ

inductive Action
  | createChannel (params : CreateParams)
  | mergeStreams (params : MergeParams)
  | setChannelNumber (value : NumberSpec)
  | setStreamPriority (highest : Bool)
  | removeFromChannel

/-- What `execute` is told of the rule. -/
structure RuleOptions where
  targetGroupId : Option ℤ
  normalizationGroupIds : List ℤ
  matchScopeTargetGroup : Bool
  ruleScopeGroupId : Option ℤ
  allowManualChannelMerge : Bool
  foldMatchKey : Bool

/-- What an action was about. -/
inductive Entity
  | channel (key : ChannelKey)
  | stream (id : ℤ)
deriving DecidableEq

/-- `ActionResult`, with the channel number its description names. -/
structure ActionResult where
  success : Bool
  actionType : String
  entity : Option Entity
  entityName : Option String
  channelNumber : Option ℕ
  created : Bool
  modified : Bool
  skipped : Bool
  error : Option String
deriving DecidableEq

/-- `ExecutionContext`: what the actions on one stream have come to. -/
structure Context where
  currentChannel : Option ChannelKey
  createdChannels : List ChannelKey
  results : List ActionResult

/-- What an action leaves. -/
structure Turn where
  result : ActionResult
  ctx : Context
  state : State

namespace ActionResult

/-- The action changed nothing and says why elsewhere. -/
def skip (actionType : String) (entity : Option Entity) (entityName : Option String) : ActionResult :=
  ⟨true, actionType, entity, entityName, none, false, false, true, none⟩

/-- The action changed what it is about. -/
def modify (actionType : String) (entity : Entity) (entityName : Option String)
    (channelNumber : Option ℕ) : ActionResult :=
  ⟨true, actionType, some entity, entityName, channelNumber, false, true, false, none⟩

def fail (actionType : String) (entity : Option Entity) (entityName : Option String)
    (error : String) : ActionResult :=
  ⟨false, actionType, entity, entityName, none, false, false, false, some error⟩

end ActionResult

section Numbers

/-- `_next_free_number_from_ticks`: among one more number than are used there is a free one. -/
def nextFreeNumber (used : List ℕ) (start step : ℕ) : ℕ :=
  (((List.range (used.length + 1)).map fun i => start + i * step).find? (· ∉ used)).getD start

/-- `_get_next_channel_number`. -/
def getNextChannelNumber (used : List ℕ) : NumberSpec → ℕ
  | .auto => nextFreeNumber used 10 10
  | .literal ticks => nextFreeNumber used ticks (if ticks % 10 = 0 then 10 else 1)
  | .range lo hi =>
    (((List.range (hi + 1 - lo)).map fun i => 10 * (lo + i)).find? (· ∉ used)).getD
      (nextFreeNumber used (10 * (hi + 1)) 10)

end Numbers

section Actions

variable (cfg : Config) (fails : ℕ → Option String) (dryRun : Bool)

/-- A call to the upstream: the error it raises, if any. -/
def request (s : State) : Option String × State := (fails s.calls, { s with calls := s.calls + 1 })

/-- Replace a channel dictionary the executor holds. -/
def State.setChannel (s : State) (key : ChannelKey) (channel : Channel) : State :=
  { s with channels := s.channels.set key channel }

/-- The upstream has a new stream list for a channel. -/
def State.writeStreams (s : State) (key : ChannelKey) (streams : List ℤ) : State :=
  { s with
    upstream := s.upstream.set key streams
    drift := { s.drift with written := key :: s.drift.written } }

/-- `_track_m3u_count`. -/
def State.trackM3uCount (s : State) (key : ChannelKey) (accountId : Option ℤ) : State :=
  match accountId with
  | none => s
  | some account =>
    { s with counts := s.counts.set (key, account) ((s.counts.get? (key, account)).getD 0 + 1) }

theorem trackM3uCount_used (s : State) (key : ChannelKey) (accountId : Option ℤ) :
    (s.trackM3uCount key accountId).used = s.used := by
  cases accountId <;> rfl

/-- `_ensure_channel_m3u_counts`. -/
def ensureChannelM3uCounts (s : State) (key : ChannelKey) : State :=
  if key ∈ s.seeded then s
  else
    let (raised, s) := request fails { s with seeded := key :: s.seeded }
    match raised, s.upstream.get? key with
    | none, some streams => streams.foldl (fun s id => s.trackM3uCount key (cfg.accountOf id)) s
    | _, _ => s

/-- The first value that is not empty. -/
def filled (value : Option String) : Option String := value.filter (· ≠ "")

/-- `a or b` on group ids. -/
def orId (a b : Option ℤ) : Option ℤ := if a.any (· ≠ 0) then a else b

/-- `_add_stream_to_channel`. -/
def addStreamToChannel (key : ChannelKey) (channel : Channel) (stream : Stream) (ctx : Context)
    (s : State) : Turn :=
  let entity := some (Entity.channel key)
  let ctx' := { ctx with currentChannel := some key }
  let streams := channel.streams ++ [stream.streamId]
  let merged := ActionResult.modify "merge_stream" (.channel key) (some channel.name) none
  if stream.streamId ∈ channel.streams then
    ⟨.skip "merge_stream" entity (some channel.name), ctx', s⟩
  else if dryRun then
    ⟨merged, ctx', (s.setChannel key { channel with streams }).trackM3uCount key stream.m3uAccountId⟩
  else
    match request fails s with
    | (some error, s) => ⟨.fail "merge_stream" none none error, ctx, s⟩
    | (none, s) =>
      ⟨merged, ctx', ((s.writeStreams key streams).setChannel key
        { channel with streams }).trackM3uCount key stream.m3uAccountId⟩

/-- What `_update_channel` fills in: the logo and the tvg id a channel lacks. -/
def updated (channel : Channel) (stream : Stream) : Channel :=
  { channel with
    logoUrl := if filled channel.logoUrl = none ∧ filled stream.logoUrl ≠ none then stream.logoUrl
      else channel.logoUrl
    tvgId := if filled channel.tvgId = none ∧ filled stream.tvgId ≠ none then stream.tvgId
      else channel.tvgId }

/-- `_update_channel`. -/
def updateChannel (key : ChannelKey) (channel : Channel) (stream : Stream) (ctx : Context)
    (s : State) : Turn :=
  let ctx := { ctx with currentChannel := some key }
  let modified := ActionResult.modify "update_channel" (.channel key) (some channel.name) none
  if dryRun then ⟨modified, ctx, s⟩
  else if updated channel stream = channel then ⟨{ modified with modified := false }, ctx, s⟩
  else
    match request fails s with
    | (some error, s) => ⟨.fail "update_channel" none none error, ctx, s⟩
    | (none, s) =>
      let retagged := s.drift.retagged || decide ((updated channel stream).tvgId ≠ channel.tvgId)
      ⟨modified, ctx, { s.setChannel key (updated channel stream) with
        drift := { s.drift with retagged } }⟩

/-- The name normalization gives a channel found under another name. -/
def renamedTo (opts : RuleOptions) (channel : Channel) (channelName : String) : Option String :=
  if opts.normalizationGroupIds ≠ [] ∧ cfg.normalizer.isSome then
    let (number, core) := cfg.naming.splitNumber channel.name
    if cfg.naming.lower core ≠ cfg.naming.lower channelName then some (number ++ channelName) else none
  else none

/-- Rename a channel and index it under its new name. -/
def State.rename (s : State) (key : ChannelKey) (channel : Channel) (name : String) : State :=
  let old := cfg.naming.lower channel.name
  let byName : Index := ⟨s.byName.slot.erase old, match s.byName.candidates.get? old with
    | none => s.byName.candidates
    | some keys => s.byName.candidates.set old (keys.filter (· ≠ key))⟩
  { s.setChannel key { channel with name } with
    byName := byName.take (cfg.naming.lower name) key
    foldKeys := s.foldKeys.setDefault (cfg.naming.foldKey name) key }

/-- The rename of `_execute_create_channel`: a dry run changes the name and no index. -/
def renameExisting (opts : RuleOptions) (key : ChannelKey) (channel : Channel) (channelName : String)
    (s : State) : State :=
  match renamedTo cfg opts channel channelName with
  | none => s
  | some name =>
    if dryRun then s.setChannel key { channel with name }
    else
      match request fails s with
      | (some _, s) => s
      | (none, s) => s.rename cfg key channel name

/-- Index a channel the run creates. -/
def State.register (s : State) (baseName : String) (channel : Channel) (number : ℕ) : State :=
  let key := ChannelKey.created s.nextKey
  let name := cfg.naming.lower channel.name
  let base := cfg.naming.lower baseName
  { s with
    channels := s.channels.set key channel
    created := s.created.set name key
    byName := s.byName.addCandidate name key
    baseName := if base ≠ name then s.baseName.take base key else s.baseName
    foldKeys := (s.foldKeys.setDefault (cfg.naming.foldKey channel.name) key).setDefault
      (cfg.naming.foldKey baseName) key
    nextKey := s.nextKey + 1
    used := number :: s.used }

/-- The channel of a number, a name and a group. -/
def newChannel (number : ℕ) (name : String) (groupId : Option ℤ) (stream : Stream) : Channel where
  name := name
  channelGroupId := groupId
  channelNumber := some number
  streams := [stream.streamId]
  tvgId := filled stream.tvgId
  logoUrl := none
  autoCreated := true

/-- The end of `_execute_create_channel`: nothing was found and a channel is created. -/
def createNew (params : CreateParams) (groupId : Option ℤ) (channelName : String) (stream : Stream)
    (ctx : Context) (s : State) : Turn :=
  let number := getNextChannelNumber s.used params.channelNumber
  let channel := newChannel number (cfg.numberInName number channelName) groupId stream
  let key := ChannelKey.created s.nextKey
  let ctx' := { ctx with currentChannel := some key, createdChannels := key :: ctx.createdChannels }
  let result : ActionResult := ⟨true, "create_channel", none, some channel.name, some number, true,
    false, false, none⟩
  if dryRun then ⟨result, ctx', s.register cfg channelName channel number⟩
  else
    match request fails s with
    | (some error, s) => ⟨.fail "create_channel" none none error, ctx, s⟩
    | (none, s) =>
      let s := (s.register cfg channelName channel number).writeStreams key channel.streams
      ⟨{ result with entity := some (.channel key) }, ctx',
        { s with assigned := s.assigned.set key number }⟩

/-- The name of the channel a stream gives rise to. -/
def channelNameFor (params : CreateParams) (opts : RuleOptions) (stream : Stream) : String :=
  match cfg.normalizer with
  | none => params.channelName stream
  | some normalizer =>
    if opts.normalizationGroupIds = [] then params.channelName stream
    else normalizer.normalize (some opts.normalizationGroupIds) (params.channelName stream)

/-- The scope of the lookup of `create_channel`. -/
def createScope (params : CreateParams) (opts : RuleOptions) : Option ℤ :=
  if opts.matchScopeTargetGroup then
    orId opts.ruleScopeGroupId (orId params.groupId opts.targetGroupId)
  else none

/-- `_execute_create_channel` where a channel was found. -/
def useExisting (params : CreateParams) (opts : RuleOptions) (key : ChannelKey) (channel : Channel)
    (channelName : String) (stream : Stream) (ctx : Context) (s : State) : Turn :=
  let s := renameExisting cfg fails dryRun opts key channel channelName s
  let channel := (s.channels.get? key).getD channel
  match params.ifExists with
  | .skip =>
    ⟨.skip "create_channel" (some (.channel key)) (some channelName),
      { ctx with currentChannel := some key }, s⟩
  | .update => updateChannel fails dryRun key channel stream ctx s
  | _ => addStreamToChannel fails dryRun key channel stream ctx s

/-- `_execute_create_channel` where none was found. -/
def createUnlessMergeOnly (params : CreateParams) (opts : RuleOptions) (channelName : String)
    (stream : Stream) (ctx : Context) (s : State) : Turn :=
  if params.ifExists = .mergeOnly then ⟨.skip "create_channel" none (some channelName), ctx, s⟩
  else createNew cfg fails dryRun params (orId params.groupId opts.targetGroupId) channelName stream
    ctx s

/-- A channel that is found is one the executor has. -/
theorem get?_of_found {channels : Dict ChannelKey Channel} {found : Option ChannelKey}
    {e : ChannelKey × Channel}
    (h : (found.bind fun key => (channels.get? key).map fun channel => (key, channel)) = some e) :
    channels.get? e.1 = some e.2 := by
  obtain ⟨key, _, hmap⟩ := Option.bind_eq_some_iff.mp h
  obtain ⟨channel, hget, rfl⟩ := Option.map_eq_some_iff.mp hmap
  exact hget

/-- `_execute_create_channel`. -/
def executeCreateChannel (params : CreateParams) (opts : RuleOptions) (stream : Stream)
    (ctx : Context) (s : State) : Turn :=
  let channelName := channelNameFor cfg params opts stream
  let (found, s) := findChannelByName cfg s channelName (createScope params opts)
    (!opts.allowManualChannelMerge) opts.foldMatchKey
  match found.bind fun key => (s.channels.get? key).map fun channel => (key, channel) with
  | some (key, channel) =>
    useExisting cfg fails dryRun params opts key channel channelName stream ctx s
  | none => createUnlessMergeOnly cfg fails dryRun params opts channelName stream ctx s

/-- Give a channel its number of this run. -/
def State.setNumber (s : State) (key : ChannelKey) (number : ℕ) : State :=
  let s := { s with assigned := s.assigned.set key number }
  match s.channels.get? key with
  | none => s
  | some channel => s.setChannel key { channel with channelNumber := some number }

theorem setNumber_used (s : State) (key : ChannelKey) (number : ℕ) :
    (s.setNumber key number).used = s.used := by
  cases hget : s.channels.get? key <;> simp only [State.setNumber, hget, State.setChannel]

/-- `_execute_set_channel_number`. -/
def executeSetChannelNumber (value : NumberSpec) (ctx : Context) (s : State) : Turn :=
  match ctx.currentChannel.filter (· ≠ .existing 0) with
  | none => ⟨.fail "set_channel_number" none none "No channel to update", ctx, s⟩
  | some key =>
    match s.assigned.get? key with
    | some number =>
      ⟨{ ActionResult.skip "set_channel_number" (some (.channel key)) none with
          channelNumber := some number }, ctx, s⟩
    | none =>
      let number := getNextChannelNumber s.used value
      let result := ActionResult.modify "set_channel_number" (.channel key) none (some number)
      if dryRun then ⟨result, ctx, s.setNumber key number⟩
      else
        match request fails s with
        | (some error, s) => ⟨.fail "set_channel_number" none none error, ctx, s⟩
        | (none, s) => ⟨result, ctx, { s.setNumber key number with
            used := number :: s.used
            drift := { s.drift with setNumbers := number :: s.drift.setNumbers } }⟩

/-- `{normalized_name}`. -/
def normalizedName (opts : RuleOptions) (stream : Stream) : String :=
  match cfg.normalizer with
  | none => stream.streamName
  | some normalizer =>
    if opts.normalizationGroupIds = [] then stream.streamName
    else
      let normalized := normalizer.normalize (some opts.normalizationGroupIds) stream.streamName
      if normalized = "" then stream.streamName else normalized

/-- `effective_scope_group_id`. -/
def mergeScope (opts : RuleOptions) : Option ℤ :=
  if opts.matchScopeTargetGroup then opts.ruleScopeGroupId else none

/-- The lookup `find_channel_by` asks for, and the manual channel in its way. -/
def findExplicit (params : MergeParams) (opts : RuleOptions) (stream : Stream) (s : State) :
    Option ChannelKey × Option ChannelKey × State :=
  match params.target, params.findChannelBy with
  | .existingChannel, some (.nameExact value) =>
    let (found, s) := findChannelByName cfg s (value stream) (mergeScope opts)
      (!opts.allowManualChannelMerge) false
    (found, if found = none then s.lastManualBlock else none, s)
  | .existingChannel, some (.nameRegex test) => (findChannel s fun channel => test channel.name, none, s)
  | .existingChannel, some (.tvgId value) =>
    (findChannelByTvgId s (if filled value = none then stream.tvgId else value), none, s)
  | _, _ => (none, none, s)

/-- The one core name that starts the name looked up or is started by it, of two words at least. -/
def wordContainment (slot : Dict String ChannelKey) (lookup : String) : Option ChannelKey :=
  let words := cfg.naming.words lookup
  if words.length < 2 then none
  else
    match slot.items.filter fun e =>
        let channelWords := cfg.naming.words e.1
        decide (2 ≤ channelWords.length) &&
          (words.isPrefixOf channelWords || channelWords.isPrefixOf words) with
    | [e] => some e.2
    | _ => none

/-- A core name in the index, or else any channel of that name that is not a manual one. -/
def findCore (s : State) (core : String) : Option ChannelKey × State :=
  match s.fixed.coreName.slot.get? (cfg.naming.lower core) with
  | some key => (some key, s)
  | none => findChannelByName cfg s core none true false

/-- The core-name fallback of `merge_streams`: the core name, the core name without parentheses, and
word containment. -/
def findByCoreName (core : String) (s : State) : Option ChannelKey × State :=
  match findCore cfg s core with
  | (some key, s) => (some key, s)
  | (none, s) =>
    let deparen := cfg.naming.deparen core
    let contained := wordContainment cfg s.fixed.coreName.slot (cfg.naming.lower deparen)
    if cfg.naming.lower deparen = cfg.naming.lower core then (contained, s)
    else
      match findCore cfg s deparen with
      | (some key, s) => (some key, s)
      | (none, s) => (contained, s)

/-- The fallbacks of `loose_name_match`: the core name, then the call sign. -/
def findLoosely (normalizer : Normalizer) (stream : Stream) (s : State) : Option ChannelKey × State :=
  let (found, s) := match filled (normalizer.extractCoreName stream.streamName) with
    | none => (none, s)
    | some core => findByCoreName cfg core s
  let sign := filled (normalizer.extractCallSign stream.streamName)
  (found.or (sign.bind s.fixed.callSign.get?), s)

/-- The lookup of the `auto` target. -/
def findAuto (params : MergeParams) (opts : RuleOptions) (stream : Stream) (s : State) :
    Option ChannelKey × State :=
  if params.target = .auto then
    findUniqueChannelByExactIdentity cfg s (normalizedName cfg opts stream) (mergeScope opts)
      (!opts.allowManualChannelMerge)
  else (none, s)

/-- The loose lookups, where the rule asks for them and nothing was found. -/
def findFallback (params : MergeParams) (opts : RuleOptions) (stream : Stream)
    (found : Option ChannelKey) (s : State) : Option ChannelKey × State :=
  match found, cfg.normalizer with
  | none, some normalizer =>
    if params.looseNameMatch ∧ opts.normalizationGroupIds ≠ [] then
      findLoosely cfg normalizer stream s
    else (none, s)
  | found, _ => (found, s)

/-- The channel `merge_streams` resolves to, and the manual channel noted on the way. -/
def resolveMerge (params : MergeParams) (opts : RuleOptions) (stream : Stream) (s : State) :
    Option ChannelKey × Option ChannelKey × State :=
  let (found, blocked, s) := findExplicit cfg params opts stream s
  match found, (if params.looseNameMatch then params.minScore else none) with
  | some key, _ => (some key, blocked, s)
  | none, some minScore =>
    (resolveScoredFuzzy cfg s stream minScore params.targetChannelInGroup params.allowNoCallsign
      params.lowestId, blocked, s)
  | none, none =>
    let (found, s) := findAuto cfg params opts stream s
    let blocked := if params.target = .auto ∧ found = none then blocked.or s.lastManualBlock
      else blocked
    let (found, s) := findFallback cfg params opts stream found s
    (found, blocked, s)

/-- The rejects after the resolution: of a manual channel, and of one out of the scope group. -/
def admitResolved (opts : RuleOptions) (found blocked : Option ChannelKey) (s : State) :
    Option (ChannelKey × Channel) × Option ChannelKey :=
  match found.bind fun key => (s.channels.get? key).map fun channel => (key, channel) with
  | none => (none, blocked.or s.lastManualBlock)
  | some (key, channel) =>
    if !opts.allowManualChannelMerge && isManualChannel cfg key channel then (none, some key)
    else if mergeScope opts ≠ none ∧ channel.channelGroupId ≠ mergeScope opts then (none, blocked)
    else (some (key, channel), blocked)

/-- The rejects by the channel's group. -/
def targetGroupAllowed (params : MergeParams) (channel : Channel) : Bool :=
  !channel.channelGroupId.any (· ∈ params.targetChannelNotInGroup) &&
    (params.targetChannelInGroup.isEmpty || channel.channelGroupId.any (· ∈ params.targetChannelInGroup))

/-- The account whose streams in a channel are limited, if any is. -/
def limitedAccount (params : MergeParams) (stream : Stream) : Option ℤ :=
  if 0 < params.maxStreamsPerChannel then stream.m3uAccountId else none

/-- Merge a stream into the channel `merge_streams` settled on. -/
def mergeInto (params : MergeParams) (key : ChannelKey) (channel : Channel) (stream : Stream)
    (ctx : Context) (s : State) : Turn :=
  let skipped := ActionResult.skip "merge_streams" (some (.channel key)) (some channel.name)
  if !targetGroupAllowed params channel then ⟨skipped, ctx, s⟩
  else
    match limitedAccount params stream with
    | none => addStreamToChannel fails dryRun key channel stream ctx s
    | some account =>
      let s := ensureChannelM3uCounts cfg fails s key
      if params.maxStreamsPerChannel ≤ (s.counts.get? (key, account)).getD 0 then ⟨skipped, ctx, s⟩
      else addStreamToChannel fails dryRun key channel stream ctx s

/-- `merge_streams` found no channel. -/
def mergeNothing (params : MergeParams) (blocked : Option ChannelKey) (ctx : Context) (s : State) :
    Turn :=
  let entity := blocked.map Entity.channel
  let name := (blocked.bind s.channels.get?).map Channel.name
  if params.target = .existingChannel then
    ⟨.fail "merge_streams" entity name (if blocked = none then "Channel not found for merge"
      else "Channel not found for merge (manual channel blocked)"), ctx, s⟩
  else ⟨.skip "merge_streams" entity name, ctx, s⟩

/-- `_execute_merge_streams`. -/
def executeMergeStreams (params : MergeParams) (opts : RuleOptions) (stream : Stream) (ctx : Context)
    (s : State) : Turn :=
  if params.target = .newChannel then ⟨.skip "merge_streams" none none, ctx, s⟩
  else
    let (found, blocked, s) := resolveMerge cfg params opts stream s
    match admitResolved cfg opts found blocked s with
    | (some (key, channel), _) => mergeInto cfg fails dryRun params key channel stream ctx s
    | (none, blocked) => mergeNothing params blocked ctx s

/-- The stream list of a channel: the executor's, or the upstream's for one it did not load. -/
def fetchStreams (key : ChannelKey) (s : State) : Except String (List ℤ) × State :=
  match s.channels.get? key with
  | some channel => (.ok channel.streams, s)
  | none =>
    match request fails s with
    | (some error, s) => (.error error, s)
    | (none, s) =>
      match s.upstream.get? key with
      | none => (.error "404 Not Found", s)
      | some streams => (.ok streams, s)

/-- Write a stream list another action gave a channel. -/
def rewriteStreams (actionType : String) (entity : Entity) (key : ChannelKey) (streams : List ℤ)
    (ctx : Context) (s : State) : Turn :=
  let result := ActionResult.modify actionType entity none none
  if dryRun then ⟨result, ctx, s⟩
  else
    match request fails s with
    | (some error, s) => ⟨.fail actionType none none error, ctx, s⟩
    | (none, s) =>
      let s := s.writeStreams key streams
      let s := { s with drift := { s.drift with reordered := key :: s.drift.reordered } }
      match s.channels.get? key with
      | none => ⟨result, ctx, s⟩
      | some channel => ⟨result, ctx, s.setChannel key { channel with streams }⟩

/-- What `_execute_remove_from_channel` and `_execute_set_stream_priority` have in common: the
stream's channel is looked up and its list of streams rearranged. -/
def rearrange (actionType : String) (entity : ChannelKey → Entity) (arrange : List ℤ → List ℤ)
    (stream : Stream) (ctx : Context) (s : State) : Turn :=
  match stream.channelId.filter (· ≠ 0) with
  | none => ⟨.skip actionType none none, ctx, s⟩
  | some channelId =>
    let key := ChannelKey.existing channelId
    match fetchStreams fails key s with
    | (.error error, s) => ⟨.fail actionType none none error, ctx, s⟩
    | (.ok streams, s) =>
      if stream.streamId ∉ streams ∨ arrange streams = streams then ⟨.skip actionType none none, ctx, s⟩
      else rewriteStreams fails dryRun actionType (entity key) key (arrange streams) ctx s

/-- `_execute_remove_from_channel`. -/
def executeRemoveFromChannel (stream : Stream) (ctx : Context) (s : State) : Turn :=
  rearrange fails dryRun "remove_from_channel" (fun _ => .stream stream.streamId)
    (fun streams => streams.filter (· ≠ stream.streamId)) stream ctx s

/-- `_execute_set_stream_priority`. -/
def executeSetStreamPriority (highest : Bool) (stream : Stream) (ctx : Context) (s : State) : Turn :=
  rearrange fails dryRun "set_stream_priority" .channel
    (fun streams =>
      let rest := streams.filter (· ≠ stream.streamId)
      if highest then stream.streamId :: rest else rest ++ [stream.streamId]) stream ctx s

/-- `execute`: one action, its result appended to the context. -/
def execute (action : Action) (opts : RuleOptions) (stream : Stream) (ctx : Context) (s : State) :
    Turn :=
  let turn := match action with
    | .createChannel params => executeCreateChannel cfg fails dryRun params opts stream ctx s
    | .mergeStreams params => executeMergeStreams cfg fails dryRun params opts stream ctx s
    | .setChannelNumber value => executeSetChannelNumber fails dryRun value ctx s
    | .setStreamPriority highest => executeSetStreamPriority fails dryRun highest stream ctx s
    | .removeFromChannel => executeRemoveFromChannel fails dryRun stream ctx s
  { turn with ctx := { turn.ctx with results := turn.ctx.results ++ [turn.result] } }

end Actions

end ChannelManager.Pipeline
