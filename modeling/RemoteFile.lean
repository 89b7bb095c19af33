import RemoteFile.Body
import RemoteFile.Connection
import RemoteFile.Connection.Read
import RemoteFile.Consultation
import RemoteFile.Counters
import RemoteFile.Decimal.Binary
import RemoteFile.Decimal.Layout
import RemoteFile.Decimal.Shortest
import RemoteFile.Duration
import RemoteFile.Duration.Seconds
import RemoteFile.Duration.Text
import RemoteFile.Event
import RemoteFile.Event.Line
import RemoteFile.Failure
import RemoteFile.Fetch
import RemoteFile.File
import RemoteFile.File.Read
import RemoteFile.File.Reader
import RemoteFile.File.Session
import RemoteFile.Job
import RemoteFile.Json.Fault
import RemoteFile.Json.Number
import RemoteFile.Json.Quoted
import RemoteFile.Json.Record
import RemoteFile.Json.Skip
import RemoteFile.Json.Text
import RemoteFile.Operation
import RemoteFile.Options
import RemoteFile.Options.Json
import RemoteFile.Options.Load
import RemoteFile.Options.Text
import RemoteFile.Pool
import RemoteFile.Pool.Read
import RemoteFile.Proofs.Connection.Account
import RemoteFile.Proofs.Connection.Faithful
import RemoteFile.Proofs.Connection.Idle
import RemoteFile.Proofs.Connection.Read
import RemoteFile.Proofs.Connection.Span
import RemoteFile.Proofs.Connection.Stream
import RemoteFile.Proofs.Connection.Supply
import RemoteFile.Proofs.Consultation.Answers
import RemoteFile.Proofs.Consultation.Burst
import RemoteFile.Proofs.Consultation.Crowd
import RemoteFile.Proofs.Crowd
import RemoteFile.Proofs.Crowd.Chronicle
import RemoteFile.Proofs.Crowd.Life
import RemoteFile.Proofs.Crowd.Trace
import RemoteFile.Proofs.Fetch.Move
import RemoteFile.Proofs.Fetch.Progress
import RemoteFile.Proofs.Fetch.Record
import RemoteFile.Proofs.Fetch.Sound
import RemoteFile.Proofs.Fetch.Source
import RemoteFile.Proofs.Fetch.Spans
import RemoteFile.Proofs.Fetch.Streams
import RemoteFile.Proofs.Fetch.Turn
import RemoteFile.Proofs.File.Bytes
import RemoteFile.Proofs.File.Close
import RemoteFile.Proofs.File.Conservation
import RemoteFile.Proofs.File.Crowd
import RemoteFile.Proofs.File.Cursor
import RemoteFile.Proofs.File.Held
import RemoteFile.Proofs.File.Length
import RemoteFile.Proofs.File.Opening
import RemoteFile.Proofs.File.Progress
import RemoteFile.Proofs.File.Reader
import RemoteFile.Proofs.File.Requests
import RemoteFile.Proofs.File.Sound
import RemoteFile.Proofs.File.Streams
import RemoteFile.Proofs.File.Urls
import RemoteFile.Proofs.Json.Grammar
import RemoteFile.Proofs.Json.Object
import RemoteFile.Proofs.Json.Token
import RemoteFile.Proofs.Operation.Acts
import RemoteFile.Proofs.Operation.Contract
import RemoteFile.Proofs.Operation.Course
import RemoteFile.Proofs.Operation.Crowd
import RemoteFile.Proofs.Operation.Early
import RemoteFile.Proofs.Operation.Ending
import RemoteFile.Proofs.Operation.Generations
import RemoteFile.Proofs.Operation.Source
import RemoteFile.Proofs.Operation.Stage
import RemoteFile.Proofs.Operation.Turn
import RemoteFile.Proofs.Operation.Urls
import RemoteFile.Proofs.Options.Json
import RemoteFile.Proofs.Pool.Books
import RemoteFile.Proofs.Pool.Bound
import RemoteFile.Proofs.Pool.Bytes
import RemoteFile.Proofs.Pool.Choice
import RemoteFile.Proofs.Pool.Conservation
import RemoteFile.Proofs.Pool.Crowd
import RemoteFile.Proofs.Pool.Custody
import RemoteFile.Proofs.Pool.Ledger
import RemoteFile.Proofs.Pool.Progress
import RemoteFile.Proofs.Pool.Retry
import RemoteFile.Proofs.Pool.Reuse
import RemoteFile.Proofs.Pool.Selection
import RemoteFile.Proofs.Pool.Sound
import RemoteFile.Proofs.Pool.Streams
import RemoteFile.Proofs.Pool.Tally
import RemoteFile.Proofs.Pool.Wakeup
import RemoteFile.Proofs.Range.Coverage
import RemoteFile.Proofs.Range.Grammar
import RemoteFile.Proofs.Range.Header
import RemoteFile.Proofs.Renewal.Line
import RemoteFile.Proofs.Renewal.Turn
import RemoteFile.Proofs.Retry.Budget
import RemoteFile.Proofs.Transport.Acceptance
import RemoteFile.Proofs.Transport.Discreet
import RemoteFile.Proofs.Transport.Meter
import RemoteFile.Proofs.Transport.Response
import RemoteFile.Proofs.Transport.Script
import RemoteFile.Proofs.Transport.Service
import RemoteFile.Proofs.Transport.Supply
import RemoteFile.Proofs.Transport.Traffic
import RemoteFile.Proofs.World
import RemoteFile.Proofs.World.Books
import RemoteFile.Proofs.World.Bytes
import RemoteFile.Proofs.World.Journal
import RemoteFile.Proofs.World.Requests
import RemoteFile.Proofs.World.Sound
import RemoteFile.Range
import RemoteFile.Range.Content
import RemoteFile.Renewal
import RemoteFile.Retry.Backoff
import RemoteFile.Retry.Budget
import RemoteFile.Schedule
import RemoteFile.Source
import RemoteFile.Task
import RemoteFile.Text.Blank
import RemoteFile.Text.Escaped
import RemoteFile.Text.Numeral
import RemoteFile.Text.Quoted
import RemoteFile.Transport
import RemoteFile.Transport.Drain
import RemoteFile.Transport.Exchange
import RemoteFile.Transport.Http
import RemoteFile.Transport.Memory
import RemoteFile.Transport.Script
import RemoteFile.Url.Address
import RemoteFile.Url.Domain
import RemoteFile.Url.Parse
import RemoteFile.Url.Percent
import RemoteFile.Url.Punycode
import RemoteFile.Words
import RemoteFile.World
