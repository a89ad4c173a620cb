import Mathlib.Data.List.Infix
import Mathlib.Data.Rat.Floor

/-!
# The conditions of a rule

A rule has a flat list of conditions, each joined to those before it by AND or OR, each of which may be
negated or be made up of others.
-/

namespace ChannelManager.Pipeline.Conditions

/-- `StreamContext`, as far as the conditions read it. -/
structure StreamContext where
  streamName : String
  groupName : Option String
  tvgId : Option String
  logoUrl : Option String
  m3uAccountId : Option ℤ
  resolutionHeight : Option ℤ
  videoCodec : Option String
  audioTracks : ℤ
  channelId : Option ℤ

structure ExistingChannel where
  id : ℤ
  name : String
  channelGroupId : Option ℤ
  streamCount : ℕ

/-- `ConditionEvaluator`: the channels there are, and what it calls on texts. `expandDates` takes whether
ranges are allowed, `search` whether case counts, and `normalize` answers `none` where it raises. -/
structure Evaluator where
  existingChannels : List ExistingChannel
  lower : String → String
  stripNumberPrefix : String → String
  expandDates : Bool → String → String
  compiles : String → Bool
  search : String → Bool → String → Bool
  normalize : Option (String → Option String)

namespace Evaluator

variable (ev : Evaluator)

/-- The names a channel goes by in its group. -/
def channelNames (channel : ExistingChannel) : List String :=
  let stripped := ev.stripNumberPrefix channel.name
  ev.lower channel.name ::
    ((if stripped = channel.name then [] else [ev.lower stripped]) ++
      ((ev.normalize.bind fun normalize => normalize stripped).filter (· ≠ "")).toList.map ev.lower)

/-- `_channel_names_by_group`; group 0 is none. -/
def channelNamesByGroup (groupId : ℤ) : List String :=
  (ev.existingChannels.filter fun c => groupId ≠ 0 ∧ c.channelGroupId = some groupId).flatMap
    ev.channelNames

/-- `_all_channel_names`. -/
def allChannelNames : List String :=
  (ev.existingChannels.filter fun c => (c.channelGroupId.filter (· ≠ 0)).isSome).flatMap ev.channelNames

/-- `_channel_by_id`: of two channels with one id, the last. -/
def channelById (id : ℤ) : Option ExistingChannel := ev.existingChannels.reverse.find? (·.id = id)

def normalizeStreamName (ctx : StreamContext) : String :=
  (ev.normalize.bind fun normalize => normalize ctx.streamName).getD ctx.streamName

/-- `_evaluate_regex`. -/
def evaluateRegex (pattern value : String) (caseSensitive : Bool) : Bool :=
  let pattern := ev.expandDates true pattern
  pattern ≠ "" && ev.search pattern caseSensitive value

/-- `_evaluate_contains`. -/
def evaluateContains (substring value : String) (caseSensitive : Bool) : Bool :=
  let substring := ev.expandDates false substring
  substring ≠ "" &&
    if caseSensitive then decide (substring.toList <:+: value.toList)
    else decide ((ev.lower substring).toList <:+: (ev.lower value).toList)

/-- `_evaluate_equals`. -/
def evaluateEquals (expected actual : String) (caseSensitive : Bool) : Bool :=
  expected ≠ "" && if caseSensitive then actual = expected else ev.lower actual = ev.lower expected

/-- `_evaluate_normalized_name_in_group`. -/
def normalizedNameInGroup (groupId : ℤ) (ctx : StreamContext) : Bool :=
  groupId ≠ 0 && decide (ev.lower (ev.normalizeStreamName ctx) ∈ ev.channelNamesByGroup groupId)

/-- `_evaluate_normalized_name_exists`. -/
def normalizedNameExists (ctx : StreamContext) : Bool :=
  decide (ev.lower (ev.normalizeStreamName ctx) ∈ ev.allChannelNames)

end Evaluator

/-- The registered condition types that are no logical operators, with the values they are saved with; a
single provider or codec is a list of one. -/
inductive Test
  | streamNameMatches (pattern : String)
  | streamNameContains (substring : String)
  | streamGroupContains (substring : String)
  | streamGroupMatches (pattern : String)
  | streamGroupIs (name : String)
  | tvgIdExists (expected : Option Bool)
  | tvgIdMatches (pattern : String)
  | logoExists (expected : Option Bool)
  | providerIs (ids : List ℤ)
  | qualityMin (height : ℚ)
  | qualityMax (height : ℚ)
  | codecIs (codecs : List String)
  | hasAudioTracks (count : ℚ)
  | hasChannel (expected : Option Bool)
  | channelExistsWithName (name : String)
  | channelExistsMatching (pattern : String)
  | channelInGroup (groupId : ℤ)
  | channelHasStreams (count : ℚ)
  | normalizedNameInGroup (groupId : ℤ)
  | normalizedNameNotInGroup (groupId : ℤ)
  | normalizedNameExists
  | normalizedNameNotExists
  | always
  | never

/-- The part of `_evaluate_condition` for the types that are no logical operators. -/
def Test.holds (ev : Evaluator) (caseSensitive : Bool) (ctx : StreamContext) : Test → Bool
  | streamNameMatches pattern => ev.evaluateRegex pattern ctx.streamName caseSensitive
  | streamNameContains substring => ev.evaluateContains substring ctx.streamName caseSensitive
  | streamGroupContains substring => ev.evaluateContains substring (ctx.groupName.getD "") caseSensitive
  | streamGroupMatches pattern => ev.evaluateRegex pattern (ctx.groupName.getD "") caseSensitive
  | streamGroupIs name => ev.evaluateEquals name (ctx.groupName.getD "") caseSensitive
  | tvgIdExists expected => (ctx.tvgId.filter (· ≠ "")).isSome == expected.getD true
  | tvgIdMatches pattern => ev.evaluateRegex pattern (ctx.tvgId.getD "") caseSensitive
  | logoExists expected => (ctx.logoUrl.filter (· ≠ "")).isSome == expected.getD true
  | providerIs ids => ctx.m3uAccountId.any fun id => decide (id ∈ ids)
  | qualityMin height => ctx.resolutionHeight.any fun h => decide (height ≤ h)
  | qualityMax height => ctx.resolutionHeight.all fun h => decide (h ≤ height)
  | codecIs codecs => ctx.videoCodec.any fun codec => decide (ev.lower codec ∈ codecs.map ev.lower)
  | hasAudioTracks count => decide ((if count = 0 then 1 else ⌊count⌋) ≤ ctx.audioTracks)
  | hasChannel expected => ctx.channelId.isSome == expected.getD true
  | channelExistsWithName name =>
    decide (ev.lower (ev.expandDates false name) ∈ ev.existingChannels.map fun c => ev.lower c.name)
  | channelExistsMatching pattern =>
    let pattern := ev.expandDates true pattern
    ev.compiles pattern && ev.existingChannels.any fun c => ev.search pattern caseSensitive c.name
  | channelInGroup groupId =>
    (ctx.channelId.bind ev.channelById).any fun c => c.channelGroupId = some groupId
  | channelHasStreams count =>
    (ctx.channelId.bind ev.channelById).any fun c => decide (count ≤ (c.streamCount : ℚ))
  | normalizedNameInGroup groupId => ev.normalizedNameInGroup groupId ctx
  | normalizedNameNotInGroup groupId => !ev.normalizedNameInGroup groupId ctx
  | normalizedNameExists => ev.normalizedNameExists ctx
  | normalizedNameNotExists => !ev.normalizedNameExists ctx
  | always => true
  | never => false

/-- How a condition is joined to those before it. -/
inductive Connector
  | and
  | or
deriving DecidableEq

inductive Operator
  | and
  | or
  | not

/-- `Condition`. -/
inductive Condition
  | simple (test : Test) (caseSensitive : Bool) (connector : Connector) (negate : Bool)
  | compound (operator : Operator) (conditions : List Condition) (connector : Connector) (negate : Bool)

namespace Condition

def connector : Condition → Connector
  | simple _ _ connector _ => connector
  | compound _ _ connector _ => connector

def negate : Condition → Bool
  | simple _ _ _ negate => negate
  | compound _ _ _ negate => negate

/-- The condition is of type `never`. -/
def isNever : Condition → Bool
  | simple .never _ _ _ => true
  | _ => false

end Condition

section Evaluate

variable (ev : Evaluator) (ctx : StreamContext)

mutual

/-- `ConditionEvaluator.evaluate`. -/
def Condition.evaluate : Condition → Bool
  | .simple test caseSensitive _ negate => negate ^^ test.holds ev caseSensitive ctx
  | .compound .and conditions _ negate => negate ^^ (!conditions.isEmpty && evaluateAll conditions)
  | .compound .or conditions _ negate => negate ^^ evaluateAny conditions
  | .compound .not conditions _ negate => negate ^^ evaluateNot conditions

/-- `_evaluate_and` on conditions there are. -/
def evaluateAll : List Condition → Bool
  | [] => true
  | condition :: conditions => condition.evaluate && evaluateAll conditions

/-- `_evaluate_or`. -/
def evaluateAny : List Condition → Bool
  | [] => false
  | condition :: conditions => condition.evaluate || evaluateAny conditions

/-- `_evaluate_not`. -/
def evaluateNot : List Condition → Bool
  | [condition] => !condition.evaluate
  | _ => false

end

end Evaluate

end ChannelManager.Pipeline.Conditions
