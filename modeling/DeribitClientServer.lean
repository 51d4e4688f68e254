import DeribitClientServer.Benchmark.Attribution
import DeribitClientServer.Benchmark.Client
import DeribitClientServer.Benchmark.Heard
import DeribitClientServer.Benchmark.Watching
import DeribitClientServer.Client.BookRows
import DeribitClientServer.Client.Forms
import DeribitClientServer.Client.Instruments
import DeribitClientServer.Client.Lists
import DeribitClientServer.Client.OrderBook
import DeribitClientServer.Client.Positions
import DeribitClientServer.Client.Responses
import DeribitClientServer.Client.Script
import DeribitClientServer.Library.Asking
import DeribitClientServer.Library.Exec
import DeribitClientServer.Library.History
import DeribitClientServer.Library.Json
import DeribitClientServer.Library.JsonOpening
import DeribitClientServer.Library.JsonRoundTrip
import DeribitClientServer.Library.JsonSplice
import DeribitClientServer.Library.JsonText
import DeribitClientServer.Library.Members
import DeribitClientServer.Library.Query
import DeribitClientServer.Library.Record
import DeribitClientServer.Library.Relational
import DeribitClientServer.Library.Transition
import DeribitClientServer.Library.Utf8
import DeribitClientServer.Server.Books
import DeribitClientServer.Server.Dispatch
import DeribitClientServer.Server.Externals
import DeribitClientServer.Server.FrameOrigins
import DeribitClientServer.Server.LoopSafety
import DeribitClientServer.Server.Loops
import DeribitClientServer.Server.MessageRuns
import DeribitClientServer.Server.OrderGate
import DeribitClientServer.Server.OrderRuns
import DeribitClientServer.Server.OrderTraces
import DeribitClientServer.Server.OrderbookCycle
import DeribitClientServer.Server.Orders
import DeribitClientServer.Server.QueryEncoding
import DeribitClientServer.Server.QuickCheck
import DeribitClientServer.Server.Recipients
import DeribitClientServer.Server.Replies
import DeribitClientServer.Server.Routing
import DeribitClientServer.Server.Secrecy
import DeribitClientServer.Server.SingleReply
import DeribitClientServer.Server.Token
import DeribitClientServer.Server.TokenHistory
import DeribitClientServer.Server.UpdateFrames
import DeribitClientServer.Server.Updates
import DeribitClientServer.Server.WireFormat
import DeribitClientServer.Server.World
import DeribitClientServer.System.BookShown
import DeribitClientServer.System.CancelClicks
import DeribitClientServer.System.FrameTypes
import DeribitClientServer.System.InstrumentSync
import DeribitClientServer.System.ListState
import DeribitClientServer.System.ModifyDialogs
import DeribitClientServer.System.OpenOrdersFeed
import DeribitClientServer.System.OpenOrdersVisible
import DeribitClientServer.System.OrderInFlight
import DeribitClientServer.System.OrderOutcomes
import DeribitClientServer.System.PositionsShown
import DeribitClientServer.Library.Utf8Shape
import DeribitClientServer.Transport.Utf8Validator
import DeribitClientServer.Library.Endian
import DeribitClientServer.Transport.Header
import DeribitClientServer.Library.Chunked
import DeribitClientServer.Library.Mask
import DeribitClientServer.Library.Outbox
import DeribitClientServer.Transport.Channel
import DeribitClientServer.Transport.Duplex
import DeribitClientServer.System.Conversation
import DeribitClientServer.System.Answered
