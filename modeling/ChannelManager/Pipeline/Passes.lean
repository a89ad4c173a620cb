import ChannelManager.Pipeline.OrphanLedger
import ChannelManager.Pipeline.Executor

/-!
# The passes of a live run

From the catalog to the ledgers: the streams of the accounts fetched, the rule that wins each, the
order they are executed in, the channels noted for each rule, and the orphan reconciliation these
notes feed. What executing the actions on a stream does is a parameter, since the passes look at
nothing but the `ExecutionContext` it leaves.
-/

namespace ChannelManager.Pipeline

/-- A standard rule, as far as the passes read it. -/
structure PipelineRule where
  id : ℤ
  m3uAccountId : Option ℤ
  conditions : Stream → Bool
  stopOnFirstMatch : Bool
  sortBy : Option (Stream → Stream → Bool)
  skipStruckStreams : Bool
  actions : List Action
  options : RuleOptions
  reconciled : ReconciledRule

/-- What the actions on one stream leave: the context's channels, and those the stream was created
in, merged into or found in. -/
structure StreamTurn where
  currentChannelId : Option ℤ
  createdChannelIds : List ℤ
  channelsCreated : ℕ
  used : List ℤ

/-- What the event_sync phase leaves: the channels it attached streams to or found them in, and for
each rule whose promotion ran the channels it registers. -/
structure EventSyncTurn where
  used : List ℤ
  promoted : Dict ℤ (List ℤ)

/-- An executor with its state: how it runs a rule's actions and the event_sync phase, the channel
it resolves a stream of a rule to, and the channels it knows of and Dispatcharr has when the orphans
are reconciled. -/
structure Services (σ : Type) where
  perform : PipelineRule → Stream → σ → StreamTurn × σ
  resolve : PipelineRule → Stream → σ → Option ℤ
  syncEvents : σ → EventSyncTurn × σ
  known : σ → Dict ℤ KnownChannel
  channels : σ → Dict ℤ StoredChannel

/-- What a run starts from. The rules are in priority order, `catalog` has the streams of every
account, and `pagesRead` the number of pages got of an account whose fetch fails. -/
structure RunInput where
  rules : List PipelineRule
  eventSyncRules : Dict ℤ ReconciledRule
  catalog : Dict ℤ (List Stream)
  m3uAccountIds : List ℤ
  pagesRead : ℤ → Option ℕ
  excluded : Stream → Bool
  inTimezone : Stream → Bool
  struck : List ℤ
  channelCap : ℕ
  managed : Dict ℤ (List ℤ)

namespace RunInput

variable (input : RunInput)

/-- `accounts_to_fetch`. -/
def accountsToFetch : List ℤ :=
  if input.m3uAccountIds ≠ [] then input.m3uAccountIds.dedup
  else
    match input.rules.filterMap fun rule => rule.m3uAccountId.filter (· ≠ 0) with
    | [] => input.catalog.keys
    | ids => ids.dedup

/-- The streams got from one account; an error is logged and what was read so far kept. -/
def fetchAccount (accountId : ℤ) : List Stream :=
  match input.catalog.get? accountId, input.pagesRead accountId with
  | none, _ => []
  | some streams, none => streams
  | some streams, some pages => streams.take (1000 * pages)

/-- `_fetch_streams`, which a run without standard rules does not call. -/
def fetched : List Stream :=
  if input.rules = [] then [] else input.accountsToFetch.flatMap input.fetchAccount

end RunInput

section Match

/-- The rule is for the stream's account and its conditions hold. -/
def PipelineRule.applies (rule : PipelineRule) (stream : Stream) : Bool :=
  (rule.m3uAccountId.filter (· ≠ 0)).all (fun id => stream.m3uAccountId = some id) &&
    rule.conditions stream

/-- The rules matching a stream, up to one that stops at the first match. -/
def matchingRules (stream : Stream) : List PipelineRule → List PipelineRule
  | [] => []
  | rule :: rules =>
    if rule.applies stream then
      if rule.stopOnFirstMatch then [rule] else rule :: matchingRules stream rules
    else matchingRules stream rules

/-- The winning rule. -/
def winningRule (rules : List PipelineRule) (stream : Stream) : Option PipelineRule :=
  (matchingRules stream rules).head?

/-- The streams of every account. -/
def RunInput.wholeCatalog (input : RunInput) : List Stream := input.catalog.values.flatten

/-- No filter takes the stream out, and the rule wins it. -/
def RunInput.wins (input : RunInput) (rule : PipelineRule) (stream : Stream) : Bool :=
  !input.excluded stream && input.inTimezone stream &&
    decide ((winningRule input.rules stream).map PipelineRule.id = some rule.id)

/-- Pass 1 and the timezone filter after it. -/
def matchedEntries (input : RunInput) : List (Stream × PipelineRule) :=
  ((input.fetched.filter fun stream => !input.excluded stream).filterMap fun stream =>
    (winningRule input.rules stream).map fun rule => (stream, rule)).filter fun e =>
      input.inTimezone e.1

/-- Sort the entries of one rule. -/
def sortGroup (entries : List (Stream × PipelineRule)) : List (Stream × PipelineRule) :=
  match entries.head?.bind fun e => e.2.sortBy with
  | none => entries
  | some le => entries.mergeSort fun a b => le a.1 b.1

/-- The entries by rule, in the order the rules come up. -/
def sortedEntries (entries : List (Stream × PipelineRule)) : List (Stream × PipelineRule) :=
  (entries.map fun e => e.2.id).reverse.dedup.reverse.flatMap fun id =>
    sortGroup (entries.filter fun e => e.2.id = id)

end Match

section Passes

variable {σ : Type} (services : Services σ) (input : RunInput)

/-- One stream executed: the rule that won it and what came of it. -/
structure Executed where
  rule : PipelineRule
  stream : Stream
  turn : StreamTurn

/-- The state of Pass 2. -/
structure PassTwo (σ : Type) where
  executor : σ
  order : Dict ℤ (List ℤ)
  channelsCreated : ℕ
  executed : List Executed

/-- Note the stream's channel for the rule, if the rule created it in this run or its ledger lists
it. -/
def trackChannel (rule : PipelineRule) (turn : StreamTurn) (order : Dict ℤ (List ℤ)) :
    Dict ℤ (List ℤ) :=
  match turn.currentChannelId.filter (· ≠ 0) with
  | none => order
  | some c =>
    if c ∈ turn.createdChannelIds ∨ c ∈ ledger input.managed rule.id then
      order.set rule.id ((order.get? rule.id).getD [] ++ [c])
    else order

/-- Pass 2: it stops at the created-channel cap and passes over struck streams. -/
def executeEntries : List (Stream × PipelineRule) → PassTwo σ → PassTwo σ
  | [], pass => pass
  | (stream, rule) :: entries, pass =>
    if 0 < input.channelCap ∧ input.channelCap ≤ pass.channelsCreated then pass
    else if rule.skipStruckStreams && decide (stream.streamId ∈ input.struck) then
      executeEntries entries pass
    else
      let (turn, executor) := services.perform rule stream pass.executor
      executeEntries entries
        { executor
          order := trackChannel input rule turn pass.order
          channelsCreated := pass.channelsCreated + turn.channelsCreated
          executed := pass.executed ++ [⟨rule, stream, turn⟩] }

/-- The channels promoted are noted for their event_sync rule. -/
def registerRow (order : Dict ℤ (List ℤ)) (row : ℤ × List ℤ) : Dict ℤ (List ℤ) :=
  let listed := (order.get? row.1).getD []
  order.set row.1 (listed ++ row.2.reverse.dedup.reverse.filter (· ∉ listed))

def registerPromoted (promoted : Dict ℤ (List ℤ)) (order : Dict ℤ (List ℤ)) : Dict ℤ (List ℤ) :=
  promoted.items.foldl registerRow order

/-- The rules Pass 4 takes: the standard ones, and the event_sync rules whose promotion ran. -/
def reconciledRules (promoted : Dict ℤ (List ℤ)) : Dict ℤ ReconciledRule :=
  Dict.ofList ((input.rules.map fun rule => (rule.id, rule.reconciled)) ++
    (input.eventSyncRules.filter fun id _ => id ∈ promoted).items)

/-- What a live run leaves behind it. -/
structure LiveRun where
  executed : List Executed
  resolve : PipelineRule → Stream → Option ℤ
  sync : EventSyncTurn
  order : Dict ℤ (List ℤ)
  before : World
  after : World

/-- A live run from its catalog to its ledgers; `before` is what Pass 4 starts from. -/
def runLive (answers : Answers) (allowInternalSideEffects commits : Bool) (s : σ) : LiveRun :=
  let pass := executeEntries services input (sortedEntries (matchedEntries input)) ⟨s, ∅, 0, []⟩
  let (sync, s) := services.syncEvents pass.executor
  let order := registerPromoted sync.promoted pass.order
  let before := World.start (services.channels s) (services.known s) input.managed
  { executed := pass.executed
    resolve := fun rule stream => services.resolve rule stream pass.executor
    sync
    order
    before
    after := reconcileOrphans answers false allowInternalSideEffects commits
      (reconciledRules input sync.promoted) order before }

/-- The channels into which the run created or merged a stream, or found one present. -/
def LiveRun.used (run : LiveRun) : List ℤ :=
  run.executed.flatMap (fun e => e.turn.used) ++ run.sync.used

/-- Some stream the rule won ended on the channel, or the rule promoted it. -/
def LiveRun.endedOn (run : LiveRun) (ruleId c : ℤ) : Prop :=
  (∃ e ∈ run.executed, e.rule.id = ruleId ∧ e.turn.currentChannelId.filter (· ≠ 0) = some c) ∨
    c ∈ ledger run.sync.promoted ruleId

instance (run : LiveRun) (ruleId c : ℤ) : Decidable (run.endedOn ruleId c) :=
  inferInstanceAs (Decidable (_ ∨ _))

end Passes

section Executor

variable (cfg : Config) (fails : ℕ → Option String) (newId : ℕ → ℤ)

/-- The id of a channel; Dispatcharr numbers the created ones. -/
def ChannelKey.id : ChannelKey → ℤ
  | existing id => id
  | created n => newId n

/-- The action created, merged into, updated or found a channel. -/
def ActionResult.usedChannel (result : ActionResult) : Option ChannelKey :=
  if result.success && decide (result.actionType ∈
      ["create_channel", "merge_stream", "merge_streams", "update_channel"]) then
    match result.entity with
    | some (.channel key) => some key
    | _ => none
  else none

/-- The actions of a rule on a stream. -/
def performActions (rule : PipelineRule) (stream : Stream) (s : State) : StreamTurn × State :=
  let (ctx, s) := rule.actions.foldl (fun acc action =>
    let turn := execute cfg fails false action rule.options stream acc.1 acc.2
    (turn.ctx, turn.state)) (⟨none, [], []⟩, s)
  (⟨ctx.currentChannel.map (ChannelKey.id newId), ctx.createdChannels.map (ChannelKey.id newId),
    ctx.results.countP (·.created), ctx.results.filterMap fun result =>
      result.usedChannel.map (ChannelKey.id newId)⟩, s)

/-- The channel an action finds for a stream. -/
def resolveAction (opts : RuleOptions) (stream : Stream) (s : State) : Action → Option ChannelKey
  | .createChannel params => (findChannelByName cfg s (channelNameFor cfg params opts stream)
      (createScope params opts) (!opts.allowManualChannelMerge) opts.foldMatchKey).1
  | .mergeStreams params =>
    let (found, blocked, s) := resolveMerge cfg params opts stream s
    (admitResolved cfg opts found blocked s).1.map Prod.fst
  | _ => none

/-- The executor in a run without event_sync rules. -/
def executorServices : Services State where
  perform := performActions cfg fails newId
  resolve rule stream s :=
    (rule.actions.findSome? (resolveAction cfg rule.options stream s)).map (ChannelKey.id newId)
  syncEvents s := (⟨[], ∅⟩, s)
  known s := Dict.ofList (s.channels.items.map fun e =>
    (e.1.id newId, ⟨e.2.name, e.2.channelGroupId⟩))
  channels s := Dict.ofList (s.channels.items.map fun e =>
    (e.1.id newId, ⟨e.2.name, e.2.channelGroupId, e.2.channelNumber.map fun n : ℕ => (n : ℤ)⟩))

end Executor

end ChannelManager.Pipeline
