import ChannelManager.Pipeline.FreeNumber

/-!
# What a dry run foretells

A dry run and a live run of the same actions take the same decisions as long as the state they decide
on is the same. They part where the live run follows a write of its own that the dry run has not
noted: a rename in the indices, a number set, a stream list rearranged, a tvg id filled in, the
number already assigned to a channel that was created.
-/

namespace ChannelManager.Pipeline

/-- A stream of a run with the actions of its rule. -/
structure Job where
  stream : Stream
  actions : List (Action × RuleOptions)

inductive OutcomeKind
  | created
  | merged
  | updated
  | unchanged
  | skipped
  | failed
deriving DecidableEq

/-- What a run reports of an action; a channel it created is the current one. -/
structure Outcome where
  kind : OutcomeKind
  target : Option Entity
  channelName : Option String
  channelNumber : Option ℕ
deriving DecidableEq

def kindOf (result : ActionResult) : OutcomeKind :=
  if result.success = false then .failed
  else if result.skipped then .skipped
  else if result.created then .created
  else if result.modified then (if result.actionType = "merge_stream" then .merged else .updated)
  else .unchanged

def Turn.outcome (turn : Turn) : Outcome where
  kind := kindOf turn.result
  target := if turn.result.created then turn.ctx.currentChannel.map .channel else turn.result.entity
  channelName := turn.result.entityName
  channelNumber := turn.result.channelNumber

/-- The context a stream starts with. -/
def Context.start : Context := ⟨none, [], []⟩

section Runs

variable (cfg : Config) (fails : ℕ → Option String) (dryRun : Bool)

/-- The actions on one stream, in order. -/
def executeActions (stream : Stream) : List (Action × RuleOptions) → Context → State →
    List Outcome × State
  | [], _, s => ([], s)
  | a :: as, ctx, s =>
    let turn := execute cfg fails dryRun a.1 a.2 stream ctx s
    let rest := executeActions stream as turn.ctx turn.state
    (turn.outcome :: rest.1, rest.2)

/-- A run over streams, with what it reports of each. -/
def executeJobs : List Job → State → List (List Outcome) × State
  | [], s => ([], s)
  | job :: jobs, s =>
    let done := executeActions cfg fails dryRun job.stream job.actions .start s
    let rest := executeJobs jobs done.2
    (done.1 :: rest.1, rest.2)

end Runs

/-- Every call succeeds. -/
def noFailure : ℕ → Option String := fun _ => none

/-! ## Which steps a dry run follows -/

section Follow

variable (cfg : Config)

/-- The number handed out is the one that would be handed out if `set_channel_number` took none. -/
def followsNumber (spec : NumberSpec) (s : State) : Bool :=
  decide (getNextChannelNumber (s.used.filter (· ∉ s.drift.setNumbers)) spec =
    getNextChannelNumber s.used spec)

/-- The channel's stream list has not been rearranged. -/
def followsStreams (key : ChannelKey) (s : State) : Bool := decide (key ∉ s.drift.reordered)

/-- The account's streams in the channel are counted by now, or the run has not written them. -/
def followsCounts (key : ChannelKey) (s : State) : Bool :=
  decide (key ∈ s.seeded ∨ key ∉ s.drift.written)

/-- The channel found is not renamed, and an update changes something. -/
def followsExisting (params : CreateParams) (opts : RuleOptions) (key : ChannelKey)
    (channel : Channel) (channelName : String) (stream : Stream) (s : State) : Bool :=
  decide (renamedTo cfg opts channel channelName = none) &&
    match params.ifExists with
    | .skip => true
    | .update => decide (updated channel stream ≠ channel)
    | _ => followsStreams key s

def followsCreate (params : CreateParams) (opts : RuleOptions) (stream : Stream) (s : State) :
    Bool :=
  let channelName := channelNameFor cfg params opts stream
  let (found, s) := findChannelByName cfg s channelName (createScope params opts)
    (!opts.allowManualChannelMerge) opts.foldMatchKey
  match found.bind fun key => (s.channels.get? key).map fun channel => (key, channel) with
  | some (key, channel) => followsExisting cfg params opts key channel channelName stream s
  | none => decide (params.ifExists = .mergeOnly) || followsNumber params.channelNumber s

/-- The channel is looked for by its tvg id. -/
def readsTvgId (params : MergeParams) : Bool :=
  (params.looseNameMatch && params.minScore.isSome) ||
    match params.findChannelBy with
    | some (.tvgId _) => true
    | _ => false

def followsMergeInto (params : MergeParams) (key : ChannelKey) (channel : Channel) (stream : Stream)
    (s : State) : Bool :=
  !targetGroupAllowed params channel ||
    match limitedAccount params stream with
    | none => followsStreams key s
    | some account =>
      let counts := (ensureChannelM3uCounts cfg noFailure s key).counts
      followsCounts key s &&
        (decide (params.maxStreamsPerChannel ≤ (counts.get? (key, account)).getD 0) ||
          followsStreams key s)

def followsMerge (params : MergeParams) (opts : RuleOptions) (stream : Stream) (s : State) : Bool :=
  decide (params.target = .newChannel) ||
    (!(readsTvgId params && s.drift.retagged) &&
      let (found, blocked, s) := resolveMerge cfg params opts stream s
      match admitResolved cfg opts found blocked s with
      | (some (key, channel), _) => followsMergeInto cfg params key channel stream s
      | (none, _) => true)

/-- The channel is not one the run created, and the number is the same. -/
def followsSetNumber (value : NumberSpec) (ctx : Context) (s : State) : Bool :=
  match ctx.currentChannel.filter (· ≠ .existing 0) with
  | none => true
  | some (.created _) => false
  | some (.existing id) => (s.assigned.get? (.existing id)).isSome || followsNumber value s

def followsRearrange (stream : Stream) (s : State) : Bool :=
  (stream.channelId.filter (· ≠ 0)).all fun id => followsStreams (.existing id) s

/-- The step is one a dry run follows, by the state of the live run before it. -/
def follows (action : Action) (opts : RuleOptions) (stream : Stream) (ctx : Context) (s : State) :
    Bool :=
  match action with
  | .createChannel params => followsCreate cfg params opts stream s
  | .mergeStreams params => followsMerge cfg params opts stream s
  | .setChannelNumber value => followsSetNumber value ctx s
  | .setStreamPriority _ => followsRearrange stream s
  | .removeFromChannel => followsRearrange stream s

/-- Every step on a stream is one a dry run follows. -/
def followsActions (stream : Stream) : List (Action × RuleOptions) → Context → State → Bool
  | [], _, _ => true
  | a :: as, ctx, s =>
    let turn := execute cfg noFailure false a.1 a.2 stream ctx s
    follows cfg a.1 a.2 stream ctx s && followsActions stream as turn.ctx turn.state

/-- Every step of a live run is one a dry run follows. -/
def followsJobs : List Job → State → Bool
  | [], _ => true
  | job :: jobs, s =>
    followsActions cfg job.stream job.actions .start s &&
      followsJobs jobs (executeActions cfg noFailure false job.stream job.actions .start s).2

end Follow

end ChannelManager.Pipeline
