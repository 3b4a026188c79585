import SentryCpp.Foundation.Transition
import SentryCpp.Foundation.Loop
import SentryCpp.Foundation.Snapshot
import SentryCpp.Foundation.Locks
import SentryCpp.Foundation.RetryQueue
import SentryCpp.Foundation.Multimap
import SentryCpp.Foundation.Iterators
import SentryCpp.Foundation.Generator
import SentryCpp.Foundation.StdString
import SentryCpp.Foundation.Memory
import SentryCpp.Foundation.Utf8
import SentryCpp.Foundation.JsonText
import SentryCpp.Foundation.Number
import SentryCpp.Foundation.Calendar
import SentryCpp.Foundation.LocalTime
import SentryCpp.Foundation.Lines
import SentryCpp.Foundation.Incoming
import SentryCpp.Foundation.Regex
import SentryCpp.External.SimpleWeb
import SentryCpp.External.HttpMessage
import SentryCpp.External.HttpClient
import SentryCpp.External.Reading
import SentryCpp.External.Framing
import SentryCpp.External.Connection
import SentryCpp.External.Requests
import SentryCpp.External.Json
import SentryCpp.External.JsonDump
import SentryCpp.Transport.Basic
import SentryCpp.Transport.Answer
import SentryCpp.Transport.RetryAfter
import SentryCpp.Transport.Worker
import SentryCpp.Transport.Delivery
import SentryCpp.Transport.Conservation
import SentryCpp.Transport.Shutdown
import SentryCpp.Transport.Pause
import SentryCpp.Transport.Status
import SentryCpp.Transport.BackOff
import SentryCpp.Transport.Exit
import SentryCpp.Transport.Progress
import SentryCpp.Transport.Dsn
import SentryCpp.Transport.Grammar
import SentryCpp.Transport.Posts
import SentryCpp.Hub.Scope
import SentryCpp.Hub.Basic
import SentryCpp.Hub.Init
import SentryCpp.Hub.Target
import SentryCpp.Hub.Writes
import SentryCpp.Hub.Limiter
import SentryCpp.Hub.Expiry
import SentryCpp.Hub.Elapsed
import SentryCpp.Hub.Window
import SentryCpp.Hub.Suppression
import SentryCpp.Hub.Trail
import SentryCpp.Hub.Payload
import SentryCpp.Hub.Bulk
import SentryCpp.Hub.Capacity
import SentryCpp.Hub.Sampling
import SentryCpp.Hub.Precedence
import SentryCpp.Hub.Atomicity
import SentryCpp.Hub.Logged
import SentryCpp.Hub.Api
import SentryCpp.Hub.Swept
import SentryCpp.Hub.Recorded
import SentryCpp.Hub.Snapshot
import SentryCpp.Hub.Handlers
import SentryCpp.Hub.LastEvent
import SentryCpp.Hub.LifeCycle
import SentryCpp.Hub.Traces
import SentryCpp.Hub.Interrupt
import SentryCpp.Hub.Wire
import SentryCpp.Hub.System
import SentryCpp.Backtrace.Frame
import SentryCpp.Backtrace.Accepted
import SentryCpp.Backtrace.Buffer
import SentryCpp.Backtrace.Decoded
import SentryCpp.Backtrace.Symbols
import SentryCpp.Backtrace.Indices
import SentryCpp.Backtrace.Context
import SentryCpp.Backtrace.Stacktrace
import SentryCpp.Hub.Thrown
import SentryCpp.Transport.Escape
