import TcRdma.Machine.Run
import TcRdma.Machine.Count
import TcRdma.Machine.Dispenser
import TcRdma.MemMag.PinnedBlock
import TcRdma.MemMag.Pool
import TcRdma.MemMag.Dispensing
import TcRdma.MemMag.Refinement
import TcRdma.MemMag.Allocate
import TcRdma.MemMag.Magr
import TcRdma.MemMag.Lookup
import TcRdma.MemMag.Overrun
import TcRdma.MemMag.Stability
import TcRdma.LinkBuf.Basic
import TcRdma.Machine.Tiling
import TcRdma.LinkBuf.Tracking
import TcRdma.LinkBuf.Window
import TcRdma.LinkBuf.AdvanceTail
import TcRdma.LinkBuf.Traffic
import TcRdma.LinkBuf.Orderly
import TcRdma.Machine.Notifier
import TcRdma.RdmaCom.WorkRequest
import TcRdma.RdmaCom.PollCq
import TcRdma.RdmaCom.Completion
import TcRdma.RdmaCom.QueueLoad
import TcRdma.Machine.Program
import TcRdma.RdmaCom.World
import TcRdma.RdmaCom.Connection
import TcRdma.RdmaCom.Client
import TcRdma.RdmaCom.Server
import TcRdma.RdmaCom.Footprint
import TcRdma.RdmaCom.BuildConnection
import TcRdma.RdmaCom.Resources
import TcRdma.RdmaCom.Handlers
import TcRdma.RdmaCom.Setup
import TcRdma.RdmaCom.ServerLoop
import TcRdma.RdmaCom.SecondRequest
import TcRdma.RdmaCom.Guarded
import TcRdma.RdmaCom.ClientGuard
import TcRdma.RdmaCom.Resolution
import TcRdma.RdmaCom.Acknowledge
import TcRdma.RdmaCom.AcknowledgeRuns
import TcRdma.RdmaCom.Equipped
import TcRdma.RdmaCom.MetaSend
import TcRdma.RdmaCom.MetaRuns
import TcRdma.Machine.Interleave
import TcRdma.RdmaCom.TwoParty
import TcRdma.Machine.Ledger
import TcRdma.MemMag.BlockLife
import TcRdma.MemMag.BlockOwnership
import TcRdma.MemMag.BlockPinned
import TcRdma.MemMag.Arena
import TcRdma.MemMag.Destroy
import TcRdma.LinkBuf.Orderly
import TcRdma.RdmaCom.RecvPool
import TcRdma.RdmaCom.RunEnds
import TcRdma.RdmaCom.RunResult
import TcRdma.RdmaCom.Connected
import TcRdma.RdmaCom.ConnectedBuild
import TcRdma.RdmaCom.ConnectedRuns
import TcRdma.Machine.Buffer
import TcRdma.Machine.BigEndian
import TcRdma.EnvBasic.ByteOrder
import TcRdma.RdmaCom.Message
import TcRdma.MemMag.Alone
import TcRdma.MemMag.Facade
import TcRdma.Machine.Walk
import TcRdma.LinkBuf.Longest
import TcRdma.LinkBuf.Ownership
import TcRdma.LinkBuf.Moves
import TcRdma.LinkBuf.Representation
import TcRdma.RdmaCom.Stretch
import TcRdma.RdmaCom.BuildStages
import TcRdma.RdmaCom.CompleteBuild
import TcRdma.Machine.Numeral
import TcRdma.Machine.Getopt
import TcRdma.EnvBasic.ParseParams
import TcRdma.EnvBasic.Parsed
import TcRdma.EnvBasic.CheckEnv
import TcRdma.EnvBasic.Assigned
import TcRdma.RdmaCom.Ports
import TcRdma.EnvBasic.Numbers
import TcRdma.LinkBuf.Progress
import TcRdma.RdmaCom.Action
import TcRdma.RdmaCom.PollFailures
import TcRdma.RdmaCom.Working
import TcRdma.RdmaCom.ClientProtocol
import TcRdma.RdmaCom.ServerProtocol
import TcRdma.RdmaCom.ClosedSession
import TcRdma.Machine.Board
import TcRdma.MemMag.Linearizable
import TcRdma.MemMag.Progress
import TcRdma.MemMag.Quota
import TcRdma.RdmaCom.PollProgress
import TcRdma.EnvBasic.Startup
import TcRdma.Machine.Decimal
import TcRdma.Machine.Spelling
import TcRdma.EnvBasic.CommandLine
import TcRdma.LinkBuf.Freshness
import TcRdma.RdmaCom.MessageCopies
import TcRdma.Machine.PrefixCode
import TcRdma.RdmaCom.PacketStream
import TcRdma.RdmaCom.Interrupted
import TcRdma.RdmaCom.InterruptedServer
import TcRdma.Machine.Online
import TcRdma.RdmaCom.Online
import TcRdma.RdmaCom.FaultySession
import TcRdma.MemMag.Returning
