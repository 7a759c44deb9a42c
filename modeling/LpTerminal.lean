import LpTerminal.Api.GroupSums
import LpTerminal.Api.PoolTraversal
import LpTerminal.Api.V4Traversal
import LpTerminal.Bridge.PendingBridges
import LpTerminal.Catalog.ConnectorRank
import LpTerminal.Catalog.DatabaseIdentity
import LpTerminal.Catalog.MetaPages
import LpTerminal.Catalog.PancakeRuns
import LpTerminal.Catalog.Rebuild
import LpTerminal.Catalog.V2Sync
import LpTerminal.Catalog.V3Backfill
import LpTerminal.Catalog.V3SnapshotExact
import LpTerminal.Catalog.V4Positions
import LpTerminal.Catalog.V4RpcComplete
import LpTerminal.Catalog.V4Snapshot
import LpTerminal.Depth.TickSegments
import LpTerminal.Emerging.AdmissionExact
import LpTerminal.Emerging.DiscoverySweep
import LpTerminal.Emerging.MinuteCoverage
import LpTerminal.Emerging.MinuteOrientation
import LpTerminal.Emerging.ReorgExact
import LpTerminal.Emerging.ReplayExact
import LpTerminal.Emerging.RoundTrips
import LpTerminal.Emerging.ShadowFees
import LpTerminal.Emerging.SignalSweep
import LpTerminal.Emerging.SupplyExact
import LpTerminal.Executor.CapitalPolicy
import LpTerminal.Executor.EscalationEnds
import LpTerminal.Executor.FeeTaxLeast
import LpTerminal.Executor.FinalSwap
import LpTerminal.Executor.IncomeRetention
import LpTerminal.Executor.RecoveryRetry
import LpTerminal.Executor.WalletLock
import LpTerminal.Fables.CycleAccounting
import LpTerminal.Fables.WalletExclusion
import LpTerminal.Farm.V2Farm
import LpTerminal.Gas.GasValuations
import LpTerminal.Mint.BandAmounts
import LpTerminal.Mint.LargestFundable
import LpTerminal.Mint.MintFunded
import LpTerminal.Monitor.GuardAgreement
import LpTerminal.Monitor.LowerBreakCap
import LpTerminal.Monitor.WaitsKept
import LpTerminal.Recommendation.Ranking
import LpTerminal.Recommendation.TickCoverage
import LpTerminal.Recovery.FailedReads
import LpTerminal.Recovery.FeeCollection
import LpTerminal.Recovery.ReplayAgreement
import LpTerminal.Recovery.SharedWallet
import LpTerminal.Recovery.SlotReuse
import LpTerminal.Recovery.SlotRuns
import LpTerminal.Recovery.SwapAccounting
import LpTerminal.Scheduler.Coalescing
import LpTerminal.Solver.QuoteBinding
import LpTerminal.State.Logtail
import LpTerminal.State.Sweep
import LpTerminal.State.WeightedMedian
import LpTerminal.Store.Turnover
import LpTerminal.Strategy.Accounting
import LpTerminal.Strategy.CostBasis
import LpTerminal.Strategy.TickRange
import LpTerminal.Swap.ExecutionLaw
import LpTerminal.Swap.MinimumFloor
import LpTerminal.Swap.SlippageSearch
import LpTerminal.Volume.DayEndSamples
import LpTerminal.Volume.Migration
import LpTerminal.Volume.PairVolumeExact
import LpTerminal.Withdrawal.WithdrawalRun
