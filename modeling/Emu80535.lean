import Emu80535.Core.State
import Emu80535.Core.Ports
import Emu80535.Core.Uart
import Emu80535.Core.Sfr
import Emu80535.Core.Timers
import Emu80535.Core.Op
import Emu80535.Core.Opcodes
import Emu80535.Core.Interrupts
import Emu80535.Core.Tick
import Emu80535.Core.Host
import Emu80535.Core.Breakpoints
import Emu80535.Core.Debugger
import Emu80535.Trace.Record
import Emu80535.Trace.Ring
import Emu80535.Facade.Observer
import Emu80535.Facade.Cpu
import Emu80535.Lib.Fold
import Emu80535.Lib.Bits
import Emu80535.Lib.Ring
import Emu80535.Lib.Ledger
import Emu80535.Lib.History
import Emu80535.Lib.Window
import Emu80535.Proofs.Frame
import Emu80535.Proofs.Moves
import Emu80535.Proofs.Access
import Emu80535.Proofs.Steps
import Emu80535.Proofs.Bodies
import Emu80535.Proofs.Entry
import Emu80535.Proofs.Ticks
import Emu80535.Proofs.Scope
import Emu80535.Proofs.Keeps
import Emu80535.Proofs.Serial
import Emu80535.Proofs.Latch
import Emu80535.Proofs.Clock
import Emu80535.Proofs.Nesting
import Emu80535.Proofs.Flags
import Emu80535.Proofs.Sampling
import Emu80535.Proofs.Pins
import Emu80535.Proofs.Requests
import Emu80535.Proofs.Arbitration
import Emu80535.Proofs.Gate
import Emu80535.Proofs.Inhibit
import Emu80535.Proofs.Idle
import Emu80535.Proofs.Schedule
import Emu80535.Proofs.Overflow
import Emu80535.Proofs.Course
import Emu80535.Proofs.Rights
import Emu80535.Proofs.Events
import Emu80535.Proofs.Converter
import Emu80535.Proofs.Receive
import Emu80535.Proofs.Transmit
import Emu80535.Proofs.Overlay
import Emu80535.Proofs.Spaces
import Emu80535.Proofs.Isolation
import Emu80535.Proofs.ColdReset
import Emu80535.Proofs.Chunking
import Emu80535.Proofs.Debugger
import Emu80535.Proofs.Breakpoints
import Emu80535.Proofs.Paging
import Emu80535.Proofs.Acts
import Emu80535.Proofs.Tells
import Emu80535.Proofs.Emissions
import Emu80535.Proofs.Calls
import Emu80535.Proofs.Narration
import Emu80535.Proofs.Arithmetic
import Emu80535.Json.Syntax
import Emu80535.Lib.Recogniser
import Emu80535.Lib.JsonGrammar
import Emu80535.Proofs.JsonSyntax
import Emu80535.Json.Output
import Emu80535.Lib.Frames
import Emu80535.Runtime.Control
import Emu80535.Proofs.Framing
import Emu80535.Runtime.FileSink
import Emu80535.Lib.Tickets
import Emu80535.Proofs.SinkWriter
import Emu80535.Proofs.SinkOrder
import Emu80535.Proofs.SinkCounts
import Emu80535.Lib.Batches
import Emu80535.Debug.Event
import Emu80535.Debug.Trace
import Emu80535.Proofs.TraceConfig
import Emu80535.Proofs.Routing
import Emu80535.Proofs.Deliveries
import Emu80535.Proofs.Router
import Emu80535.Debug.Runtime
import Emu80535.Proofs.Watches
import Emu80535.Proofs.Dispatch
import Emu80535.Proofs.Runtime
import Emu80535.Proofs.WatchTables
import Emu80535.Proofs.Decimal
import Emu80535.Proofs.Exchange
import Emu80535.Proofs.FailedEntry
import Emu80535.Proofs.Bounded
import Emu80535.Proofs.RoundTrip
import Emu80535.Lib.Counter
import Emu80535.Proofs.Timers
import Emu80535.Proofs.TimerRuns
import Emu80535.Proofs.ControlFlow
import Emu80535.Lib.Tiles
import Emu80535.Debug.Decode
import Emu80535.Proofs.DecodeWindow
import Emu80535.Lib.Width
import Emu80535.Debug.Condition
import Emu80535.Proofs.Conditions
import Emu80535.Lib.Probing
import Emu80535.Debug.RequestIds
import Emu80535.Proofs.RequestIds
import Emu80535.Lib.Utf8
import Emu80535.Json.Utf8
import Emu80535.Proofs.Utf8
import Emu80535.Lib.Sha256
import Emu80535.Runtime.Sha
import Emu80535.Proofs.Sha
import Emu80535.Json.Document
import Emu80535.Lib.JsonTree
import Emu80535.Lib.JsonString
import Emu80535.Lib.JsonNumber
import Emu80535.Proofs.JsonTokens
import Emu80535.Proofs.JsonDocument
import Emu80535.Proofs.JsonStrings
import Emu80535.Proofs.JsonNumbers
import Emu80535.Proofs.JsonStrict
import Emu80535.Proofs.JsonAdmission
import Emu80535.Proofs.JsonAgreement
import Emu80535.Proofs.JsonEntries
import Emu80535.Proofs.JsonQuoting
import Emu80535.Proofs.JsonCompaction
import Emu80535.Lib.JsonOrder
import Emu80535.Proofs.JsonWalks
