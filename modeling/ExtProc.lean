import ExtProc.Exec
import ExtProc.WhileLoop
import ExtProc.Keyed
import ExtProc.Machine
import ExtProc.Patch
import ExtProc.Server
import ExtProc.Stream
import ExtProc.Outcomes
import ExtProc.Http
import ExtProc.Rejection
import ExtProc.Forwarding
import ExtProc.Phases
import ExtProc.HeaderGuard
import ExtProc.Chunks
import ExtProc.Exchange
import ExtProc.FilterState
import ExtProc.Trailers
import ExtProc.Snapshot
import ExtProc.Mutations
import ExtProc.Composition
import ExtProc.Budget
import ExtProc.Interleaving
import ExtProc.Frame
import ExtProc.TwoPaths
import ExtProc.Counter
import ExtProc.Once
import ExtProc.Cap
import ExtProc.Loop
import ExtProc.Delivery
import ExtProc.Conversion
import ExtProc.HeaderBytes
import ExtProc.Paths
import ExtProc.NameDiff
import ExtProc.ChunkBody
import ExtProc.RequestMutations
import ExtProc.Config
import ExtProc.ChainTable
import ExtProc.Merging
import ExtProc.Coalesce
import ExtProc.Steps
import ExtProc.Channel
import ExtProc.Task
import ExtProc.Progress
import ExtProc.Service
import ExtProc.Replay
import ExtProc.HookOrder
import ExtProc.Replies
import ExtProc.Startup
import ExtProc.Lifecycle
import ExtProc.Dialogue
import ExtProc.Reading
import ExtProc.Failures
import ExtProc.ReadOnly
import ExtProc.Memory
import ExtProc.Verdicts
import ExtProc.Inline
import ExtProc.Duplex
import ExtProc.Contexts
import ExtProc.Framing
import ExtProc.Gathering
import ExtProc.Relay
