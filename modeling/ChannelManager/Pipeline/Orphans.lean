import ChannelManager.Lib.Dict
import Mathlib.Algebra.Order.Ring.Int
import Mathlib.Data.List.Infix

/-!
# Orphan reconciliation

Pass 4 of a pipeline run. Every rule keeps a ledger of the channels it manages; what the ledger
lists and the run did not see again is an orphan, and is deleted or moved to Uncategorized
according to the rule's orphan action. Afterwards the ledger becomes the list of what the run saw.
Each rule's loop is a fold over its orphans, and the pass a fold over the rules.
-/

namespace ChannelManager.Pipeline

/-- A rule's `orphan_action`. -/
inductive OrphanAction
  | delete
  | moveUncategorized
  | deleteAndCleanupGroups
  | none
deriving DecidableEq

/-- What an `event_sync_config` says of promoted channels. -/
structure EventSyncConfig where
  promoteUnmatched : Bool
  promoteTargetGroupId : Option ℤ

/-- What Pass 4 reads of a rule: `eventSync` is none for a standard rule, `startingNumber` is what
`_get_rule_starting_number` finds. -/
structure ReconciledRule where
  name : String
  eventSync : Option EventSyncConfig
  orphanAction : OrphanAction
  sortField : Option String
  startingNumber : Option ℤ

/-- What becomes of a write: it goes through, or it raises, and may have landed all the same. -/
inductive Answer
  | done
  | raised (error : String) (landed : Bool)

/-- The write took effect. -/
def Answer.lands : Answer → Bool
  | done => true
  | raised _ landed => landed

/-- The upstream's answers to the writes of one pass, by the rule and the channel they are about. -/
structure Answers where
  delete : ℤ → ℤ → Answer
  move : ℤ → ℤ → Answer
  renumber : ℤ → Answer

/-- A channel on Dispatcharr, its number in ticks. No group is "Uncategorized". -/
structure StoredChannel where
  name : String
  channelGroupId : Option ℤ
  channelNumber : Option ℤ

/-- A channel in `executor._channel_by_id`, as far as Pass 4 reads it. -/
structure KnownChannel where
  name : String
  channelGroupId : Option ℤ

structure CleanupResult where
  success : Bool
  actionType : String
  description : String
  error : Option String

/-- An entry of `execution_log`: what was done under which heading. -/
structure LogEntry where
  streamName : String
  entityId : Option ℤ
  result : CleanupResult

/-- An entry of `dry_run_results`. -/
structure DryRunResult where
  streamName : String
  ruleId : ℤ
  action : String
  wouldModify : Bool

/-- An entry of `failed_actions`. -/
structure FailedAction where
  ruleId : ℤ
  ruleName : String
  phase : String
  error : String

/-- What the run has to report. -/
structure Results where
  channelsRemoved : ℕ
  channelsMoved : ℕ
  executionLog : List LogEntry
  dryRunResults : List DryRunResult
  failedActions : List FailedAction

/-- What Pass 4 reads and writes: the channels on Dispatcharr, the executor's picture of them, the
rules' ledgers in memory and in the database, where a rule without a ledger has no entry. -/
structure World where
  channels : Dict ℤ StoredChannel
  known : Dict ℤ KnownChannel
  managed : Dict ℤ (List ℤ)
  saved : Dict ℤ (List ℤ)
  results : Results

/-- The texts `remove_channel` and `move_channel_to_uncategorized` take for a channel already
gone. -/
def alreadyGone (error : String) : Bool :=
  "404".toList <:+: error.toList || "not found".toList <:+: error.toLower.toList

section Writes

/-- Send a write about channel `c`; Dispatcharr answers 404 to one about a channel it lacks. -/
def send (answer : Answer) (c : ℤ) (change : Dict ℤ StoredChannel → Dict ℤ StoredChannel) (w : World) :
    Except String Unit × World :=
  if c ∈ w.channels then
    match answer with
    | .done => (.ok (), { w with channels := change w.channels })
    | .raised error true => (.error error, { w with channels := change w.channels })
    | .raised error false => (.error error, w)
  else (.error "404 Not Found", w)

/-- The name the executor has for a channel. -/
def knownName (w : World) (c : ℤ) : String :=
  ((w.known.get? c).map KnownChannel.name).getD s!"ID:{c}"

/-- What is made of an error: a channel already gone counts as cleaned up. -/
def cleanupError (actionType verb : String) (c : ℤ) (error : String) : CleanupResult :=
  if alreadyGone error then ⟨true, actionType, s!"Channel {c} already deleted", none⟩
  else ⟨false, actionType, s!"Failed to {verb} channel {c}", some error⟩

/-- `remove_channel`. -/
def removeChannel (answer : Answer) (c : ℤ) (w : World) : CleanupResult × World :=
  match send answer c (·.erase c) w with
  | (.ok _, w') =>
    (⟨true, "remove_channel", s!"Deleted orphaned channel '{knownName w c}'", none⟩, w')
  | (.error error, w') => (cleanupError "remove_channel" "delete" c error, w')

/-- Take a channel out of its group. -/
def uncategorize (c : ℤ) (channels : Dict ℤ StoredChannel) : Dict ℤ StoredChannel :=
  channels.mapValues fun c' channel => if c' = c then { channel with channelGroupId := none } else channel

/-- The executor notes that a channel has no group any more. -/
def noteUncategorized (c : ℤ) (known : Dict ℤ KnownChannel) : Dict ℤ KnownChannel :=
  known.mapValues fun c' channel => if c' = c then { channel with channelGroupId := none } else channel

/-- `move_channel_to_uncategorized`. -/
def moveChannelToUncategorized (answer : Answer) (c : ℤ) (w : World) : CleanupResult × World :=
  match send answer c (uncategorize c) w with
  | (.ok _, w') =>
    (⟨true, "move_channel", s!"Moved orphaned channel '{knownName w c}' to Uncategorized", none⟩,
      { w' with known := noteUncategorized c w'.known })
  | (.error error, w') => (cleanupError "move_channel" "move" c error, w')

end Writes

section Rule

variable (answers : Answers)

/-- The group a rule may clean up in: outside `some none` nothing restricts it, and a rule without
a scope is not reconciled at all. -/
def ReconciledRule.scope (rule : ReconciledRule) : Option (Option ℤ) :=
  match rule.eventSync with
  | none => some none
  | some config =>
    if config.promoteUnmatched then config.promoteTargetGroupId.map some else none

/-- The channels a run saw under a rule. -/
def currentIds (order : Dict ℤ (List ℤ)) (ruleId : ℤ) : List ℤ := ((order.get? ruleId).getD []).dedup

/-- Whether the ownership rail leaves a channel to the rule. -/
def inScope (known : Dict ℤ KnownChannel) (scope : Option ℤ) (c : ℤ) : Bool :=
  match scope with
  | none => true
  | some groupId => decide (((known.get? c).bind KnownChannel.channelGroupId) = some groupId)

/-- What the ledger lists, the run did not see, and the executor still knows. -/
def orphanIds (known : Dict ℤ KnownChannel) (scope : Option ℤ) (previous current : List ℤ) : List ℤ :=
  previous.dedup.filter fun c => c ∉ current && decide (c ∈ known) && inScope known scope c

/-- `set_managed_channel_ids`: an empty list is stored as no ledger. -/
def setManaged (ruleId : ℤ) (ids : List ℤ) (w : World) : World :=
  { w with managed := if ids = [] then w.managed.erase ruleId else w.managed.set ruleId ids }

def noteRemoved (results : Results) : Results :=
  { results with channelsRemoved := results.channelsRemoved + 1 }

def noteMoved (results : Results) : Results :=
  { results with channelsMoved := results.channelsMoved + 1 }

def logged (entry : LogEntry) (results : Results) : Results :=
  { results with executionLog := results.executionLog ++ [entry] }

/-- What a dry run says it would do with an orphan. -/
def plannedCleanup (rule : ReconciledRule) (name : String) : String :=
  match rule.orphanAction with
  | .moveUncategorized => s!"Would move orphaned channel '{name}' to Uncategorized"
  | .deleteAndCleanupGroups => s!"Would delete orphaned channel '{name}' + cleanup empty groups"
  | _ => s!"Would delete orphaned channel '{name}'"

/-- One round of the cleanup loop of a dry run. -/
def planOrphan (ruleId : ℤ) (rule : ReconciledRule) (w : World) (c : ℤ) : World :=
  { w with
    results := noteRemoved { w.results with
      dryRunResults := w.results.dryRunResults ++
        [⟨s!"[Orphan] {knownName w c}", ruleId, plannedCleanup rule (knownName w c),
          rule.orphanAction = .moveUncategorized⟩] } }

/-- One round of the cleanup loop. -/
def cleanUpOrphan (ruleId : ℤ) (rule : ReconciledRule) (w : World) (c : ℤ) : World :=
  let entry := fun result : CleanupResult => LogEntry.mk s!"[Orphan] {knownName w c}" (some c) result
  if rule.orphanAction = .moveUncategorized then
    let (result, w) := moveChannelToUncategorized (answers.move ruleId c) c w
    let results := if result.success then noteMoved w.results else w.results
    { w with results := logged (entry result) results }
  else
    let (result, w) := removeChannel (answers.delete ruleId c) c w
    let results := if result.success then noteRemoved w.results else w.results
    { w with results := logged (entry result) results }

/-- Number channels one after the other in whole numbers. -/
def renumbered (start : ℤ) (ids : List ℤ) (channels : Dict ℤ StoredChannel) : Dict ℤ StoredChannel :=
  channels.mapValues fun c channel =>
    if c ∈ ids then { channel with channelNumber := some (10 * (start + ids.idxOf c)) } else channel

/-- What the renumbering after a cleanup says of itself. -/
def renumberEntry (rule : ReconciledRule) (success : Bool) (description : String)
    (error : Option String) : LogEntry :=
  ⟨s!"[Renumber] Rule '{rule.name}' after orphan cleanup", none,
    ⟨success, "renumber_channels", description, error⟩⟩

/-- Close the gaps a cleanup left, for a rule that sorts its channels and starts at a number. -/
def renumberRemaining (dryRun : Bool) (ruleId : ℤ) (rule : ReconciledRule)
    (remaining orphans : List ℤ) (w : World) : World :=
  match rule.startingNumber with
  | none => w
  | some start =>
    if remaining = [] ∨ rule.sortField = none then w
    else if dryRun then
      { w with
        results := { w.results with
          dryRunResults := w.results.dryRunResults ++ [⟨"[Renumber after cleanup]", ruleId,
            s!"Would renumber {remaining.length} channels starting at #{start}", true⟩] } }
    else
      let w' := if (answers.renumber ruleId).lands then
        { w with channels := renumbered start remaining w.channels } else w
      match answers.renumber ruleId with
      | .done =>
        { w' with
          results := logged (renumberEntry rule true
            s!"Renumbered {remaining.length} channels starting at #{start} after removing {orphans.length} orphans"
            none) w'.results }
      | .raised error _ =>
        let results := logged (renumberEntry rule false
          s!"Failed to renumber channels after orphan cleanup: {error}" (some error)) w'.results
        { w' with
          results := { results with
            failedActions := results.failedActions ++ [⟨ruleId, rule.name, "renumber_channels",
              s!"Failed to renumber channels after orphan cleanup for rule '{rule.name}': {error}"⟩] } }

/-- Pass 4 for one rule. -/
def reconcileRule (dryRun persist : Bool) (order : Dict ℤ (List ℤ)) (w : World)
    (row : ℤ × ReconciledRule) : World :=
  let (ruleId, rule) := row
  let current := currentIds order ruleId
  match rule.scope with
  | none => w
  | some scope =>
    if rule.orphanAction = .none then
      if current ≠ [] ∧ ¬dryRun then setManaged ruleId current w else w
    else
      match w.managed.get? ruleId with
      | none => if current ≠ [] ∧ ¬dryRun then setManaged ruleId current w else w
      | some previous =>
        let orphans := orphanIds w.known scope previous current
        if orphans = [] then
          if persist && decide (¬(current ⊆ previous ∧ previous ⊆ current)) then
            setManaged ruleId current w
          else w
        else
          let w := if dryRun then orphans.foldl (planOrphan ruleId rule) w
            else orphans.foldl (cleanUpOrphan answers ruleId rule) w
          let remaining := (firsts ((order.get? ruleId).getD [])).filter (· ∉ orphans)
          let w := renumberRemaining answers dryRun ruleId rule remaining orphans w
          if persist then setManaged ruleId current w else w

/-- `_reconcile_orphans`: the rules are rows of the database, `order` is `rule_channel_order`, and
`commits` says whether the session's commit goes through. -/
def reconcileOrphans (dryRun allowInternalSideEffects commits : Bool)
    (rules : Dict ℤ ReconciledRule) (order : Dict ℤ (List ℤ)) (w : World) : World :=
  let persist := !dryRun && allowInternalSideEffects
  let w := rules.items.foldl (reconcileRule answers dryRun persist order) w
  if persist && commits then { w with saved := w.managed } else w

end Rule

end ChannelManager.Pipeline
