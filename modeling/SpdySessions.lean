import SpdySessions.Address
import SpdySessions.Attempt
import SpdySessions.BufferPool
import SpdySessions.Bytes
import SpdySessions.Channel
import SpdySessions.Client
import SpdySessions.Config
import SpdySessions.Config.Json
import SpdySessions.Connection
import SpdySessions.Connector
import SpdySessions.Endpoint
import SpdySessions.Factory
import SpdySessions.Factory.Builder
import SpdySessions.Factory.Connect
import SpdySessions.Factory.Stop
import SpdySessions.Fault
import SpdySessions.FlowControl
import SpdySessions.Frame
import SpdySessions.HeaderCodec
import SpdySessions.Json.Basic
import SpdySessions.Json.Number
import SpdySessions.Json.Quoted
import SpdySessions.Json.Value
import SpdySessions.Lifecycle
import SpdySessions.Negotiation
import SpdySessions.Promise
import SpdySessions.Promise.Script
import SpdySessions.Scheduler
import SpdySessions.Scheduler.Agenda
import SpdySessions.ServerName
import SpdySessions.Session
import SpdySessions.Span
import SpdySessions.Utf8
import SpdySessions.Version
import SpdySessions.Version.Json
import SpdySessions.Watchdog
import SpdySessions.Wire.FrameReader
import SpdySessions.Wire.FrameWriter
import SpdySessions.Proofs.Wire.Chunking
import SpdySessions.Proofs.Wire.Grammar
import SpdySessions.Proofs.Wire.Acceptance
import SpdySessions.Proofs.Wire.Writing
import SpdySessions.Proofs.Wire.RoundTrip
import SpdySessions.Proofs.Factory.Books
import SpdySessions.Proofs.Factory.Course
import SpdySessions.Proofs.Factory.Keeping
import SpdySessions.Proofs.Factory.Steps
import SpdySessions.Proofs.Factory.Accepted
import SpdySessions.Proofs.Promise.Nested
import SpdySessions.Proofs.Promise.Settling
import SpdySessions.Proofs.Promise.Cancelling
import SpdySessions.Proofs.Promise.Waiting
import SpdySessions.Proofs.Session.Calls
import SpdySessions.Proofs.Factory.Stopping
import SpdySessions.Proofs.Factory.Sessions
import SpdySessions.Proofs.Connection.Turn
import SpdySessions.Proofs.Connection.Traffic
import SpdySessions.Proofs.Connection.Flow
import SpdySessions.Proofs.Factory.Quiet
import SpdySessions.Proofs.Factory.Tidy
import SpdySessions.Proofs.Factory.Clean
import SpdySessions.Proofs.Factory.Ends
import SpdySessions.Proofs.Past
import SpdySessions.Proofs.Scheduler.Tasks
import SpdySessions.Proofs.Scheduler.Watch
import SpdySessions.Proofs.Scheduler.Idle
import SpdySessions.Proofs.Scheduler.Closing
import SpdySessions.Proofs.Session.Steps
import SpdySessions.Proofs.Session.History
import SpdySessions.Proofs.Session.Queue
import SpdySessions.Proofs.Session.Farewell
import SpdySessions.Proofs.Wire.Canonical
import SpdySessions.Proofs.Wire.Rewriting
import SpdySessions.Proofs.Factory.Beside
import SpdySessions.Proofs.Factory.Lifetimes
import SpdySessions.Proofs.Factory.Terms
import SpdySessions.Proofs.Wire.Failing
import SpdySessions.Proofs.Wire.Pending
import SpdySessions.Proofs.Session.Moments
import SpdySessions.Proofs.Session.Mirror
import SpdySessions.Proofs.Wire.Size
import SpdySessions.Proofs.Session.Window
import SpdySessions.Proofs.Session.Pings
import SpdySessions.Proofs.Session.Refused
import SpdySessions.Proofs.Factory.Construction
import SpdySessions.Proofs.Ascii
import SpdySessions.Proofs.Factory.Handlers
import SpdySessions.Proofs.Factory.Negotiating
import SpdySessions.Proofs.Session.Twins
import SpdySessions.Proofs.Factory.Regular
import SpdySessions.Proofs.Factory.Shares
import SpdySessions.Proofs.Factory.Apart
import SpdySessions.Proofs.Borrowing
import SpdySessions.Proofs.Factory.Watching
import SpdySessions.Proofs.Json.Grammar
import SpdySessions.Proofs.Json.Passing
import SpdySessions.Proofs.Wire.Offsets
import SpdySessions.Proofs.Json.Decimal
import SpdySessions.Proofs.Config.Spelling
import SpdySessions.Proofs.Wrapping
import SpdySessions.Proofs.Promise.Failing
import SpdySessions.Proofs.Factory.Threads
import SpdySessions.Proofs.Factory.Locking
