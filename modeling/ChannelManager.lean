import ChannelManager.Lib.Dict
import ChannelManager.Numbering.ChannelNumber
import ChannelManager.Bulk.Operation
import ChannelManager.Bulk.Consolidate
import ChannelManager.Bulk.NumberPlan
import ChannelManager.Bulk.ConsolidateNumbering
import ChannelManager.Bulk.ConsolidateConsent
import ChannelManager.EditMode.NumberPlan
import ChannelManager.Numbering.Preflight
import ChannelManager.EditMode.Preflight
import ChannelManager.EditMode.Session
import ChannelManager.EditMode.UndoRedo
import ChannelManager.EditMode.SessionRuns
import ChannelManager.Bulk.Executor
import ChannelManager.Bulk.Validate
import ChannelManager.Bulk.Commit
import ChannelManager.Bulk.Accounting
import ChannelManager.Bulk.Dispatcharr
import ChannelManager.Bulk.Tracking
import ChannelManager.Bulk.Compensation
import ChannelManager.Plans.MutationPlanStore
import ChannelManager.Plans.StoreRuns
import ChannelManager.Plans.Json
import ChannelManager.Plans.LiveClient
import ChannelManager.Plans.WritePlan
import ChannelManager.Plans.Planning
import ChannelManager.Plans.OwnWrites
import ChannelManager.Plans.Replay
import ChannelManager.Plans.PutBack
import ChannelManager.Profiles.Membership
import ChannelManager.Profiles.Reconcile
import ChannelManager.Profiles.Stranding
import ChannelManager.Profiles.Settle
import ChannelManager.Profiles.Converge
import ChannelManager.Profiles.Sweep
import ChannelManager.Dbas.StreamBindings
import ChannelManager.Dbas.PlaceholderRebind
import ChannelManager.Dbas.RebindSafety
import ChannelManager.Dbas.RebindRuns
import ChannelManager.Dbas.CalmRebind
import ChannelManager.Dbas.Playability
import ChannelManager.Pipeline.OrphanLedger
import ChannelManager.Pipeline.ChannelIndex
import ChannelManager.Pipeline.Executor
import ChannelManager.Pipeline.DryRun
import ChannelManager.Pipeline.Foretold
import ChannelManager.Pipeline.Passes
import ChannelManager.Pipeline.Spared
import ChannelManager.Lib.Patch
import ChannelManager.Pipeline.Changes
import ChannelManager.Pipeline.Rollback
import ChannelManager.Pipeline.Unwound
import ChannelManager.Pipeline.SnapshotRestore
import ChannelManager.Pipeline.FailureReport
import ChannelManager.Pipeline.Reported
import ChannelManager.Lib.Precedence
import ChannelManager.Numbering.WriteOrder
import ChannelManager.Numbering.CompensationOrder
import ChannelManager.Bulk.Alike
import ChannelManager.Bulk.Resequence
import ChannelManager.Dbas.Retention
import ChannelManager.Dbas.NewestKept
import ChannelManager.Dbas.RetentionRuns
import ChannelManager.Pipeline.FreshNumbers
import ChannelManager.Lib.Strip
import ChannelManager.Templates.Segment
import ChannelManager.Templates.Engines
import ChannelManager.Templates.Agreement
import ChannelManager.EventSync.Matcher
import ChannelManager.EventSync.Obeyed
import ChannelManager.Pipeline.Coverage
import ChannelManager.Lib.Distinct
import ChannelManager.Pipeline.NumberRuns
import ChannelManager.Pipeline.WholeRun
import ChannelManager.Pipeline.SecondRun
import ChannelManager.Pipeline.Idempotence
import ChannelManager.Pipeline.RuleScope
import ChannelManager.Pipeline.AutoRename
import ChannelManager.Pipeline.Conditions
import ChannelManager.Pipeline.RuleAnalyzer
import ChannelManager.Lib.PushDown
import ChannelManager.EditMode.NumberShift
import ChannelManager.EditMode.Concurrency
import ChannelManager.EditMode.Reconciled
import ChannelManager.Bulk.PairConsent
import ChannelManager.Lib.Chain
import ChannelManager.Plans.Journal
import ChannelManager.Plans.JournalRows
import ChannelManager.Plans.JournalStanding
import ChannelManager.Plans.JournalReal
import ChannelManager.Plans.JournalReplay
import ChannelManager.Dbas.StreamMatcher
import ChannelManager.Dbas.StreamAttach
import ChannelManager.Dbas.AttachedOnce
import ChannelManager.Dbas.MembershipReattach
import ChannelManager.Dbas.MembershipExact
import ChannelManager.Dbas.StreamLadder
import ChannelManager.Dbas.PlaceholdersOnce
import ChannelManager.Templates.Concat
import ChannelManager.Templates.Trace
import ChannelManager.Templates.Faithful
import ChannelManager.Dbas.CredentialSentinel
import ChannelManager.EventSync.OneReading
import ChannelManager.Dbas.SentinelPaths
import ChannelManager.Lib.NextAfter
import ChannelManager.Schedules.Calculator
import ChannelManager.Schedules.EveryOtherWeek
import ChannelManager.Schedules.EarliestRun
import ChannelManager.Dedup.ScoredMatch
import ChannelManager.Dedup.SafeResolution
import ChannelManager.Import.CsvHandler
import ChannelManager.Import.CsvRoundTrip
import ChannelManager.M3u.ChangeDetector
import ChannelManager.M3u.WholeDifference
import ChannelManager.Probing.SameOrder
import ChannelManager.EventSync.TeamVerdicts
import ChannelManager.Dedup.Normalize
import ChannelManager.EventSync.TitleBridges
import ChannelManager.Pipeline.StreamBooks
import ChannelManager.Pipeline.ProviderLimit
import ChannelManager.Pipeline.MergePrune
import ChannelManager.Profiles.DiffOnly
import ChannelManager.Profiles.LastProfile
import ChannelManager.EventSync.LocalTime
import ChannelManager.EventSync.Promotion
import ChannelManager.EventSync.PromotionRounds
import ChannelManager.EventSync.Attach
import ChannelManager.EventSync.AttachRuns
import ChannelManager.Pipeline.NameIndices
import ChannelManager.Dbas.LedgeredRun
import ChannelManager.Lib.EveryPoint
import ChannelManager.Dbas.CrashSafety
import ChannelManager.Lib.RaisingSort
import ChannelManager.Lib.Runs
import ChannelManager.Pipeline.NaturalSort
import ChannelManager.EditMode.LedgerRestore
import ChannelManager.EditMode.LedgerSafe
import ChannelManager.EditMode.LedgerWhole
import ChannelManager.EditMode.LedgerRuns
import ChannelManager.Bulk.ConsolidatedStore
import ChannelManager.Bulk.Stands
import ChannelManager.Bulk.StoreBranches
import ChannelManager.Bulk.StoreRuns
import ChannelManager.Stats.Rollup
import ChannelManager.Stats.RollupKept
import ChannelManager.Stats.RollupRuns
import ChannelManager.Stats.RollupTotals
