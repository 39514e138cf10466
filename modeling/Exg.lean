import Exg.Admin.Symbols
import Exg.Clearing.Atomicity
import Exg.Clearing.CheckedFeed
import Exg.Clearing.CheckedPostTrade
import Exg.Clearing.CheckedService
import Exg.Clearing.Counters
import Exg.Clearing.Deleveraging
import Exg.Clearing.EntryPrice
import Exg.Clearing.LiquidationPanics
import Exg.Clearing.Liquidations
import Exg.Clearing.Margin
import Exg.Clearing.MarginAgreement
import Exg.Clearing.OpenInterest
import Exg.Clearing.Pool
import Exg.Clearing.Position
import Exg.Clearing.PositiveFills
import Exg.Clearing.PostTrade
import Exg.Clearing.Rebuild
import Exg.Clearing.Requests
import Exg.Clearing.Restart
import Exg.Clearing.RiskMonitor
import Exg.Clearing.Service
import Exg.Clearing.ServiceDivisions
import Exg.Clearing.ServiceStages
import Exg.Clearing.Settlement
import Exg.Clearing.Soundness
import Exg.Clearing.TidyPositions
import Exg.Clearing.TradeSides
import Exg.Clearing.ZeroSum
import Exg.Common.CheckedDecimal
import Exg.Common.Decimal
import Exg.Common.DecimalGrammar
import Exg.Common.DecimalParser
import Exg.Common.DecimalRoundTrip
import Exg.Common.DecimalText
import Exg.Common.DecimalValue
import Exg.Common.Operators
import Exg.Common.Snowflake
import Exg.Common.Types
import Exg.Config.Agreement
import Exg.Config.Tiers
import Exg.Config.Validation
import Exg.Gateway.Conversion
import Exg.Gateway.Handlers
import Exg.Gateway.Identifiers
import Exg.Gateway.Subscriptions
import Exg.Gateway.Tasks
import Exg.Ledger.CheckedLedger
import Exg.Ledger.CheckedOperations
import Exg.Ledger.Conservation
import Exg.Ledger.Effects
import Exg.Ledger.ExactlyOnce
import Exg.Ledger.Faithful
import Exg.Ledger.Ledger
import Exg.Ledger.LedgerInvariant
import Exg.Ledger.Operations
import Exg.Ledger.Outcomes
import Exg.Ledger.Refusals
import Exg.Ledger.RequestsInTurn
import Exg.Ledger.Solvency
import Exg.MarketData.DepthTracker
import Exg.MarketData.Klines
import Exg.MarketData.Ticker
import Exg.MarketData.Trades
import Exg.Matching.Accounting
import Exg.Matching.BookInvariant
import Exg.Matching.BookOperations
import Exg.Matching.BookRange
import Exg.Matching.CancelAll
import Exg.Matching.CheckedBook
import Exg.Matching.CheckedCommands
import Exg.Matching.CheckedEngine
import Exg.Matching.CheckedReplay
import Exg.Matching.CheckedTriggers
import Exg.Matching.CountedMatch
import Exg.Matching.Depth
import Exg.Matching.Engine
import Exg.Matching.EngineInvariant
import Exg.Matching.Expiry
import Exg.Matching.FillOrKill
import Exg.Matching.Iceberg
import Exg.Matching.IcebergRuns
import Exg.Matching.Inversion
import Exg.Matching.Legs
import Exg.Matching.Matcher
import Exg.Matching.MatcherSpec
import Exg.Matching.OrderBook
import Exg.Matching.OrderIds
import Exg.Matching.PanicFree
import Exg.Matching.PriceTime
import Exg.Matching.Quantities
import Exg.Matching.Reachable
import Exg.Matching.Rejection
import Exg.Matching.Replay
import Exg.Matching.ReplayEquivalence
import Exg.Matching.ReplaySucceeds
import Exg.Matching.ReplaySweep
import Exg.Matching.ReplayTotal
import Exg.Matching.SameOrders
import Exg.Matching.Snapshot
import Exg.Matching.Terms
import Exg.Matching.TimeInForce
import Exg.Matching.TimePriority
import Exg.Matching.TradeIds
import Exg.Matching.Triggers
import Exg.Matching.Uncrossed
import Exg.Matching.Undisturbed
import Exg.OrderService.ActiveOrders
import Exg.OrderService.Indices
import Exg.OrderService.LiveOrders
import Exg.OrderService.Redelivery
import Exg.OrderService.Service
import Exg.OrderService.Tracking
import Exg.Protocol
import Exg.Ringbuffer.Batch
import Exg.Ringbuffer.Buffer
import Exg.Ringbuffer.Fifo
import Exg.Risk.CheckedMargin
import Exg.Risk.ImpactPrice
import Exg.Risk.ImpactPriceSafety
import Exg.Risk.LiquidationPrice
import Exg.Risk.Margin
import Exg.Server.Audit
import Exg.Server.Boot
import Exg.Server.CheckedLoop
import Exg.Server.CommandLoop
import Exg.Server.Crashes
import Exg.Server.Drain
import Exg.Server.Encoding
import Exg.Server.EngineEvents
import Exg.Server.Exchange
import Exg.Server.MatchingThread
import Exg.Server.Requests
import Exg.Server.Serving
import Exg.Server.Site
import Exg.Server.SymbolConfig
import Exg.Support.Allocation
import Exg.Support.Audit
import Exg.Support.Blocks
import Exg.Support.Bookkeeping
import Exg.Support.Bytes
import Exg.Support.CompareExchange
import Exg.Support.Crc32
import Exg.Support.Cutoffs
import Exg.Support.Definedness
import Exg.Support.Digits
import Exg.Support.Disk
import Exg.Support.Firsts
import Exg.Support.FloatingPoint
import Exg.Support.Grouping
import Exg.Support.Intervals
import Exg.Support.ListMaps
import Exg.Support.Machine
import Exg.Support.MapTotal
import Exg.Support.Memory
import Exg.Support.Overflow
import Exg.Support.Polling
import Exg.Support.Separated
import Exg.Support.SetMaps
import Exg.Support.SortedEntries
import Exg.Support.Stages
import Exg.Support.SwapScan
import Exg.Support.Tickets
import Exg.Support.TruncatedAverage
import Exg.Support.WideArithmetic
import Exg.Wal.Agreement
import Exg.Wal.BoundedLoss
import Exg.Wal.Corruption
import Exg.Wal.Delivery
import Exg.Wal.Durability
import Exg.Wal.Framing
import Exg.Wal.Layout
import Exg.Wal.Reader
import Exg.Wal.Recovery
import Exg.Wal.Seeking
import Exg.Wal.Segment
import Exg.Wal.SnapshotCrashes
import Exg.Wal.Snapshots
import Exg.Wal.Writer
import Exg.Wallet.Addresses
import Exg.Wallet.Deposits
