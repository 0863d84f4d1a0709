import CopyTrading.AssocSum
import CopyTrading.StepRun
import CopyTrading.DecimalFormat
import CopyTrading.Calculation
import CopyTrading.Clock
import CopyTrading.Money
import CopyTrading.DecimalMachine
import CopyTrading.Ids
import CopyTrading.Trade
import CopyTrading.Wallet
import CopyTrading.Dedup
import CopyTrading.DedupBatch
import CopyTrading.DedupOps
import CopyTrading.DedupRetention
import CopyTrading.DecimalText
import CopyTrading.Tracker
import CopyTrading.TrackerSchedule
import CopyTrading.Position
import CopyTrading.Portfolio
import CopyTrading.PortfolioLedger
import CopyTrading.Book
import CopyTrading.CalcMoney
import CopyTrading.Order
import CopyTrading.Matching
import CopyTrading.CalcMatching
import CopyTrading.Health
import CopyTrading.Events
import CopyTrading.Feed
import CopyTrading.FeedGap
import CopyTrading.GapFills
import CopyTrading.OrderManager
import CopyTrading.CalcOrder
import CopyTrading.CalcOrderManager
import CopyTrading.AcceptedFills
import CopyTrading.OrderRace
import CopyTrading.SubmitOnce
import CopyTrading.Paper
import CopyTrading.PaperSession
import CopyTrading.CalcPaper
import CopyTrading.RestingMatch
import CopyTrading.PaperSteps
import CopyTrading.PaperLedgers
import CopyTrading.PaperOpenSet
import CopyTrading.Sizing
import CopyTrading.Strategy
import CopyTrading.Risk
import CopyTrading.CalcRisk
import CopyTrading.SourceEvents
import CopyTrading.Pipeline
import CopyTrading.PipelineGates
import CopyTrading.DailyLoss
import CopyTrading.SourceIntake
import CopyTrading.PipelineStages
import CopyTrading.CalcPortfolio
import CopyTrading.CalcPipeline
import CopyTrading.KillSwitchRace
import CopyTrading.KillSwitchInvariant
import CopyTrading.KillSwitchSweep
import CopyTrading.KillSwitchLeft
import CopyTrading.DedupWindow
import CopyTrading.DedupRestart
import CopyTrading.LedgerTables
import CopyTrading.LedgerRecovery
import CopyTrading.OrderRecovery
import CopyTrading.WorstExposure
import CopyTrading.ExposureLimits
import CopyTrading.OrdersInFlight
import CopyTrading.CapsInFlight
import CopyTrading.WalletExposure
import CopyTrading.HealthGate
import CopyTrading.SortedListing
import CopyTrading.MarketWs
import CopyTrading.PriceMaps
import CopyTrading.MarketStream
import CopyTrading.DailyBucket
import CopyTrading.DailyRestart
import CopyTrading.FillDelivery
import CopyTrading.Reconciliation
import CopyTrading.DrawOrder
import CopyTrading.RestingPass
import CopyTrading.PaperReplay
import CopyTrading.SharedLiquidity
import CopyTrading.TickGrid
import CopyTrading.CapChain
import CopyTrading.SizingCaps
import CopyTrading.CalcSizing
import CopyTrading.RoundedSizing
import CopyTrading.OrderValidator
import CopyTrading.EmittedOrders
import CopyTrading.OutcomeEvents
import CopyTrading.SizingMonotone
import CopyTrading.TradedNotional
import CopyTrading.LimitBudget
import CopyTrading.SweepPrice
import CopyTrading.RiskMonotone
import CopyTrading.FillBounds
import CopyTrading.FillOrKill
import CopyTrading.BoundedBroadcast
import CopyTrading.EventLog
import CopyTrading.RangedArith
import CopyTrading.RangedMoney
import CopyTrading.RangedSizing
import CopyTrading.RangedPath
import CopyTrading.GreedyAllocation
import CopyTrading.SweepOptimal
import CopyTrading.RoundedSweep
import CopyTrading.OrderCalls
import CopyTrading.OrderAccounts
import CopyTrading.TerminalOrders
import CopyTrading.OrderEvents
import CopyTrading.FlaggedFills
import CopyTrading.WireTrades
import CopyTrading.LiveExecution
import CopyTrading.ConfirmedCancels
import CopyTrading.CancelRetry
import CopyTrading.LiveOutcomes
import CopyTrading.ReconcileExact
import CopyTrading.ReconciliationHalt
import CopyTrading.UnknownOrders
import CopyTrading.AverageEntry
import CopyTrading.PortfolioBreakdowns
import CopyTrading.SnapshotCoherence
import CopyTrading.BigEndian
import CopyTrading.AbiWords
import CopyTrading.Utf8Text
import CopyTrading.TokenWords
import CopyTrading.Fallible
import CopyTrading.PolymarketOrder
import CopyTrading.SignedAmounts
import CopyTrading.HexText
import CopyTrading.SignedEncoding
import CopyTrading.ContentIdentity
import CopyTrading.KeyRoundTrip
import CopyTrading.BookFeeds
import CopyTrading.Base64Url
import CopyTrading.Backoff
import CopyTrading.CircuitBreaker
import CopyTrading.RingBuffer
import CopyTrading.LatencyRing
import CopyTrading.Replay
import CopyTrading.DeliveryPaths
import CopyTrading.Config
import CopyTrading.WalletRequests
import CopyTrading.BookWriters
import CopyTrading.RestMinimum
import CopyTrading.TickAnnounced
import CopyTrading.Rotation
import CopyTrading.Markets
import CopyTrading.BookRefresh
import CopyTrading.Subscriptions
import CopyTrading.Latch
import CopyTrading.KillSwitchHistory
import CopyTrading.ApiServer
import CopyTrading.ApiAuth
import CopyTrading.ApiAudit
import CopyTrading.WalletStore
import CopyTrading.Holders
import CopyTrading.StoredChain
import CopyTrading.StoredRuns
import CopyTrading.StoredOnce
import CopyTrading.StoredWhole
import CopyTrading.LiveStartup
import CopyTrading.RecentWindow
import CopyTrading.LatencyStages
import CopyTrading.Dashboard
import CopyTrading.DashboardRows
import CopyTrading.DashboardCounts
import CopyTrading.Since
import CopyTrading.ReconcileTask
import CopyTrading.SilentFeed
import CopyTrading.ReceiverLog
import CopyTrading.DashboardSocket
import CopyTrading.GracefulRestart
import CopyTrading.OrderOrigins
import CopyTrading.TargetWallets
import CopyTrading.Environment
import CopyTrading.ConfiguredOrders
