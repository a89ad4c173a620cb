import ChannelManager.Pipeline.DryRun
import ChannelManager.Pipeline.Passes

/-!
# Whole runs over a lineup

A live run of rules that create channels, from the channels Dispatcharr lists and the rules' ledgers to
those the run leaves: the channels loaded, the streams matched against them, the actions, the numbers of
Pass 3, the order of streams of Pass 3.5 and the orphan reconciliation. Every call succeeds.
-/

namespace ChannelManager.Pipeline

/-- A channel as Dispatcharr lists it, its number in ticks. -/
structure ListedChannel where
  name : String
  channelGroupId : Option ℤ
  channelNumber : Option ℤ
  streams : List ℤ
  tvgId : Option String
  logoUrl : Option String
  autoCreated : Bool
deriving DecidableEq

/-- The dictionary the executor gets of a channel. -/
def ListedChannel.loaded (c : ListedChannel) : Channel where
  name := c.name
  channelGroupId := c.channelGroupId
  channelNumber := c.channelNumber.bind Int.toNat?
  streams := c.streams
  tvgId := c.tvgId
  logoUrl := c.logoUrl
  autoCreated := c.autoCreated

/-- A rule with one `create_channel` action that merges or skips. Its conditions may look at the channels
loaded. -/
structure CreateRule where
  id : ℤ
  m3uAccountId : Option ℤ
  conditions : Dict ℤ Channel → Stream → Bool
  stopOnFirstMatch : Bool
  sortBy : Option (Stream → Stream → Bool)
  skipStruckStreams : Bool
  params : CreateParams
  mergesOrSkips : params.ifExists = .merge ∨ params.ifExists = .skip
  options : RuleOptions
  reconciled : ReconciledRule
  standard : reconciled.eventSync = none

/-- The rule in a run that loaded these channels. -/
def CreateRule.on (rule : CreateRule) (loaded : Dict ℤ Channel) : PipelineRule where
  id := rule.id
  m3uAccountId := rule.m3uAccountId
  conditions := rule.conditions loaded
  stopOnFirstMatch := rule.stopOnFirstMatch
  sortBy := rule.sortBy
  skipStruckStreams := rule.skipStruckStreams
  actions := [.createChannel rule.params]
  options := rule.options
  reconciled := rule.reconciled

/-- What does not change from run to run: the rules, in priority order, the catalog and the settings. -/
structure RunSetup where
  cfg : Config
  rules : List CreateRule
  nodup_rules : (rules.map CreateRule.id).Nodup
  catalog : Dict ℤ (List Stream)
  m3uAccountIds : List ℤ
  excluded : Stream → Bool
  inTimezone : Stream → Bool
  struck : List ℤ
  channelCap : ℕ

/-- The channels Dispatcharr lists and the rules' ledgers. -/
structure Lineup where
  channels : Dict ℤ ListedChannel
  managed : Dict ℤ (List ℤ)

def Lineup.loaded (lineup : Lineup) : Dict ℤ Channel := lineup.channels.mapValues fun _ c => c.loaded

/-- The ids Dispatcharr gives to the channels a run creates, which no channel had before. -/
structure NewIds (lineup : Lineup) where
  newId : ℕ → ℤ
  injective : Function.Injective newId
  not_listed : ∀ n, newId n ∉ lineup.channels
  not_managed : ∀ n ruleId, newId n ∉ ledger lineup.managed ruleId

/-- What Pass 3.5 makes of the stream lists of a run. -/
structure StreamOrder where
  reorder : ℤ → List ℤ → List ℤ
  perm : ∀ c streams, (reorder c streams).Perm streams

/-- No write is refused. -/
def allDone : Answers := ⟨fun _ _ => .done, fun _ _ => .done, fun _ => .done⟩

namespace RunSetup

variable (setup : RunSetup)

/-- The executor's settings: `managed` is the union of the rules' ledgers. -/
def config (managed : Dict ℤ (List ℤ)) : Config :=
  { setup.cfg with managed := setup.rules.flatMap fun rule => ledger managed rule.id }

def input (lineup : Lineup) : RunInput where
  rules := setup.rules.map fun rule => rule.on lineup.loaded
  eventSyncRules := ∅
  catalog := setup.catalog
  m3uAccountIds := setup.m3uAccountIds
  pagesRead := fun _ => none
  excluded := setup.excluded
  inTimezone := setup.inTimezone
  struck := setup.struck
  channelCap := setup.channelCap
  managed := lineup.managed

/-- The executor of the run. -/
def services (managed : Dict ℤ (List ℤ)) (newId : ℕ → ℤ) : Services State :=
  executorServices (setup.config managed) noFailure newId

def startState (lineup : Lineup) : State := State.start (setup.config lineup.managed) lineup.loaded ∅

/-- The streams matched, with the rule that wins each, in the order they are executed in. -/
def entries (lineup : Lineup) : List (Stream × PipelineRule) :=
  sortedEntries (matchedEntries (setup.input lineup))

/-- Pass 2. -/
def passTwo (lineup : Lineup) (newId : ℕ → ℤ) : PassTwo State :=
  executeEntries (setup.services lineup.managed newId) (setup.input lineup) (setup.entries lineup)
    ⟨setup.startState lineup, ∅, 0, []⟩

end RunSetup

/-- What Dispatcharr has of a channel of the executor after Pass 2, which renumbers none. -/
def storedChannel (lineup : Lineup) (key : ChannelKey) (channel : Channel) : StoredChannel where
  name := channel.name
  channelGroupId := channel.channelGroupId
  channelNumber := match key with
    | .existing id => (lineup.channels.get? id).bind ListedChannel.channelNumber
    | .created _ => channel.channelNumber.map fun n : ℕ => (n : ℤ)

/-- What Dispatcharr has of the executor's channels after Pass 2. -/
def storedChannels (lineup : Lineup) (newId : ℕ → ℤ) (s : State) : Dict ℤ StoredChannel :=
  Dict.ofList (s.channels.items.map fun e => (e.1.id newId, storedChannel lineup e.1 e.2))

/-- Pass 3 for one rule. The rename after it finds every channel on its new number and renames none. -/
def renumberSorted (order : Dict ℤ (List ℤ)) (channels : Dict ℤ StoredChannel) (rule : CreateRule) :
    Dict ℤ StoredChannel :=
  let channelIds := firsts (ledger order rule.id)
  match rule.reconciled.startingNumber with
  | none => channels
  | some start =>
    if rule.reconciled.sortField = none ∨ channelIds.length < 2 then channels
    else renumbered start channelIds channels

/-- What Dispatcharr lists of a channel after a run; it does not keep the mark of one created. -/
def listedChannel (newId : ℕ → ℤ) (order : StreamOrder) (key : ChannelKey) (channel : Channel)
    (stored : StoredChannel) : ListedChannel where
  name := stored.name
  channelGroupId := stored.channelGroupId
  channelNumber := stored.channelNumber
  streams := order.reorder (key.id newId) channel.streams
  tvgId := channel.tvgId
  logoUrl := channel.logoUrl
  autoCreated := match key with
    | .existing _ => channel.autoCreated
    | .created _ => false

/-- The channels Dispatcharr lists after a run. -/
def listedAfter (newId : ℕ → ℤ) (order : StreamOrder) (s : State) (channels : Dict ℤ StoredChannel) :
    Dict ℤ ListedChannel :=
  Dict.ofList (s.channels.items.filterMap fun e =>
    ((channels.get? (e.1.id newId)).map (listedChannel newId order e.1 e.2)).map fun x => (e.1.id newId, x))

namespace RunSetup

variable (setup : RunSetup)

/-- What Pass 4 starts from. -/
def beforeCleanup (lineup : Lineup) (newId : ℕ → ℤ) : World :=
  let pass := setup.passTwo lineup newId
  World.start (setup.rules.foldl (renumberSorted pass.order) (storedChannels lineup newId pass.executor))
    ((setup.services lineup.managed newId).known pass.executor) lineup.managed

/-- Pass 4. -/
def afterCleanup (lineup : Lineup) (newId : ℕ → ℤ) : World :=
  reconcileOrphans allDone false true true (reconciledRules (setup.input lineup) ∅)
    (setup.passTwo lineup newId).order (setup.beforeCleanup lineup newId)

/-- `run_pipeline`: what a run leaves. -/
def run (lineup : Lineup) (newId : ℕ → ℤ) (order : StreamOrder) : Lineup where
  channels := listedAfter newId order (setup.passTwo lineup newId).executor
    (setup.afterCleanup lineup newId).channels
  managed := (setup.afterCleanup lineup newId).managed

/-- The entries a run executes unless the created-channel cap stops it. -/
def unstruck (lineup : Lineup) : List (Stream × PipelineRule) :=
  (setup.entries lineup).filter fun e => !(e.2.skipStruckStreams && decide (e.1.streamId ∈ setup.struck))

/-- The cap did not stop the run. -/
def Uncapped (lineup : Lineup) (newId : ℕ → ℤ) : Prop :=
  (setup.passTwo lineup newId).executed.map (fun e => (e.stream, e.rule)) = setup.unstruck lineup

end RunSetup

end ChannelManager.Pipeline
