import GithubCatalog.Lib.Table
import GithubCatalog.Lib.History
import GithubCatalog.Lib.Runs
import GithubCatalog.Lib.TextCode
import GithubCatalog.Lib.Jsonb
import GithubCatalog.Lib.Transact
import GithubCatalog.Lib.Forwarding
import GithubCatalog.Lib.Pacing
import GithubCatalog.Lib.Tally
import GithubCatalog.Lib.Permits
import GithubCatalog.Lib.Rotation
import GithubCatalog.Lib.Refinement
import GithubCatalog.Lib.Lineage
import GithubCatalog.Lib.Join
import GithubCatalog.Rows
import GithubCatalog.Text
import GithubCatalog.Contracts
import GithubCatalog.Schema
import GithubCatalog.Transaction
import GithubCatalog.Identity
import GithubCatalog.BackupPolicy
import GithubCatalog.SyncRuns
import GithubCatalog.Snapshot
import GithubCatalog.Incremental
import GithubCatalog.StarLists
import GithubCatalog.MutationTrail
import GithubCatalog.Mutations
import GithubCatalog.Modes
import GithubCatalog.Legacy
import GithubCatalog.Delivery
import GithubCatalog.Metadata
import GithubCatalog.Watches
import GithubCatalog.AnalysisRuns
import GithubCatalog.AnalysisLifecycle
import GithubCatalog.AnalysisQueue
import GithubCatalog.AnalysisCurrency
import GithubCatalog.AnalysisOrder
import GithubCatalog.AccountErasure
import GithubCatalog.Catalog
import GithubCatalog.RepositoryWrites
import GithubCatalog.StarAuthority
import GithubCatalog.RunScope
import GithubCatalog.SnapshotAttempts
import GithubCatalog.SnapshotAtomicity
import GithubCatalog.SnapshotCoverage
import GithubCatalog.SnapshotSwap
import GithubCatalog.SnapshotProgress
import GithubCatalog.ListSwap
import GithubCatalog.ListPairs
import GithubCatalog.ListOwnership
import GithubCatalog.SequentialRuns
import GithubCatalog.ListProgress
import GithubCatalog.ListExactness
import GithubCatalog.SnapshotExactness
import GithubCatalog.ListResumption
import GithubCatalog.ListReplies
import GithubCatalog.IncrementalScan
import GithubCatalog.IncrementalGaps
import GithubCatalog.MutationExecution
import GithubCatalog.MutationOutcomes
import GithubCatalog.MutationEffects
import GithubCatalog.ModeExclusion
import GithubCatalog.StarTargets
import GithubCatalog.StarConvergence
import GithubCatalog.ListTargets
import GithubCatalog.RepositoryActions
import GithubCatalog.ActionReplay
import GithubCatalog.ActionFaults
import GithubCatalog.ErasureState
import GithubCatalog.ErasureFrame
import GithubCatalog.ModeAuthority
import GithubCatalog.PolicyCursor
import GithubCatalog.ErasureOrder
import GithubCatalog.AnalysisOwnership
import GithubCatalog.ErasureEvidence
import GithubCatalog.PolicyPublication
import GithubCatalog.PolicyVersions
import GithubCatalog.PolicyDirtiness
import GithubCatalog.StarGovernance
import GithubCatalog.UnknownTimes
import GithubCatalog.ImportLoops
import GithubCatalog.ImportAuthority
import GithubCatalog.ImportIdempotence
import GithubCatalog.AliasTable
import GithubCatalog.AliasRedirects
import GithubCatalog.AliasNames
import GithubCatalog.AliasResolution
import GithubCatalog.AliasOwnership
import GithubCatalog.AliasRenames
import GithubCatalog.RequestRows
import GithubCatalog.AnalysisPacing
import GithubCatalog.ReadmeBytes
import GithubCatalog.AnalysisConvergence
import GithubCatalog.MutationReplay
import GithubCatalog.MutationBatches
import GithubCatalog.MetadataProjection
import GithubCatalog.AttributeAgreement
import GithubCatalog.RevisionHistory
import GithubCatalog.ObserverRotation
import GithubCatalog.RateLimit
import GithubCatalog.SyncCommands
import GithubCatalog.CommandFlows
import GithubCatalog.MutationErrors
import GithubCatalog.Relay
import GithubCatalog.RelayBackoff
import GithubCatalog.ErasureDeliveries
import GithubCatalog.Settlement
import GithubCatalog.ProviderGateway
import GithubCatalog.LedgerRanges
import GithubCatalog.RepositoryFetches
import GithubCatalog.RequestBudget
import GithubCatalog.StarBook
import GithubCatalog.StarRefinement
import GithubCatalog.ErasurePermanence
import GithubCatalog.RunLifecycle
import GithubCatalog.EvidenceLogs
import GithubCatalog.LegacyShadow
import GithubCatalog.Credentials
import GithubCatalog.ReadmeRoute
import GithubCatalog.ProjectionSource
