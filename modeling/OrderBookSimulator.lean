import OrderBookSimulator.Properties.IndexExactness
import OrderBookSimulator.Properties.PriceTimePriority
import OrderBookSimulator.Properties.Reservations
import OrderBookSimulator.Properties.Solvency
import OrderBookSimulator.Properties.WellFormedBook
import OrderBookSimulator.Properties.Conservation
import OrderBookSimulator.Properties.TradeLedger
import OrderBookSimulator.Properties.OrderEvents
import OrderBookSimulator.Properties.JournalReplay
import OrderBookSimulator.Properties.Independence
import OrderBookSimulator.Properties.CashCheck
import OrderBookSimulator.Properties.RestingReport
import OrderBookSimulator.Properties.CancelInverse
import OrderBookSimulator.Properties.RefusedOrders
import OrderBookSimulator.Properties.Attribution
import OrderBookSimulator.Properties.UserIds
import OrderBookSimulator.Properties.AccountsKept
import OrderBookSimulator.Properties.SnapshotFreshness
import OrderBookSimulator.Properties.ClientIsolation
import OrderBookSimulator.Properties.Mirror
import OrderBookSimulator.Properties.Splitting
import OrderBookSimulator.Properties.LimitPrices
import OrderBookSimulator.Properties.BookDocuments
import OrderBookSimulator.Properties.JournalTails
import OrderBookSimulator.Properties.UserTrades
import OrderBookSimulator.Properties.ClientMessages
import OrderBookSimulator.Properties.NumericRange
import OrderBookSimulator.Properties.Correlation
import OrderBookSimulator.Properties.ParsedAsSaid
import OrderBookSimulator.Properties.PassiveStrategies
import OrderBookSimulator.Properties.TopUp
import OrderBookSimulator.Properties.Seeding
import OrderBookSimulator.Properties.ActivityGroups
import OrderBookSimulator.Properties.TradeTape
import OrderBookSimulator.Properties.AggregateRange
import OrderBookSimulator.Properties.Linearization
import OrderBookSimulator.Properties.ServerAccounts
import OrderBookSimulator.Properties.TradeFeed
import OrderBookSimulator.Properties.Conversations
import OrderBookSimulator.Properties.EndToEnd
import OrderBookSimulator.Properties.SteadyMarket
import OrderBookSimulator.Properties.ComingToRest
import OrderBookSimulator.Properties.CrashRecovery
import OrderBookSimulator.Properties.ToggleReturns
import OrderBookSimulator.Properties.DepthReadout
import OrderBookSimulator.Properties.AccountReadout
import OrderBookSimulator.Properties.BroadcastRefinement
