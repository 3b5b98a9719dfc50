import GlfsNdmp.Protocol
import GlfsNdmp.UnsetFields
import GlfsNdmp.Lib.Register
import GlfsNdmp.Lib.Fifo
import GlfsNdmp.VolInfo
import GlfsNdmp.Config
import GlfsNdmp.Handlers
import GlfsNdmp.Server
import GlfsNdmp.SessionRun
import GlfsNdmp.DataState
import GlfsNdmp.Refusal
import GlfsNdmp.Environment
import GlfsNdmp.Mount
import GlfsNdmp.Lib.Lts
import GlfsNdmp.Registry
import GlfsNdmp.Access
import GlfsNdmp.Store
import GlfsNdmp.Pipeline
import GlfsNdmp.Delivery
import GlfsNdmp.Reclaim
import GlfsNdmp.Outlook
import GlfsNdmp.Records
import GlfsNdmp.Backlog
import GlfsNdmp.Closing
import GlfsNdmp.FreshRecord
import GlfsNdmp.Notify
import GlfsNdmp.Serial
import GlfsNdmp.UsageFile
import GlfsNdmp.UsageRun
import GlfsNdmp.Directories
import GlfsNdmp.Lib.Shell
import GlfsNdmp.Commands
import GlfsNdmp.Lib.LinkedList
import GlfsNdmp.Replies
import GlfsNdmp.Queue
import GlfsNdmp.QueueShape
import GlfsNdmp.QueueRun
import GlfsNdmp.Snapshot
import GlfsNdmp.Lib.Xdr
import GlfsNdmp.ReplyStream
import GlfsNdmp.History
import GlfsNdmp.Wire
import GlfsNdmp.Decoding
import GlfsNdmp.Segments
import GlfsNdmp.Harmless
import GlfsNdmp.Truncated
import GlfsNdmp.CommLoop
import GlfsNdmp.Isolation
import GlfsNdmp.DataOperations
import GlfsNdmp.GetEnv
import GlfsNdmp.Transfers
import GlfsNdmp.Unset
import GlfsNdmp.Buffers
import GlfsNdmp.Lib.Locking
import GlfsNdmp.Threads
import GlfsNdmp.LockOrder
import GlfsNdmp.Lib.Tokens
import GlfsNdmp.ReplyWire
import GlfsNdmp.ReplySizes
import GlfsNdmp.Preallocated
import GlfsNdmp.Lib.XdrMemory
import GlfsNdmp.ReplyMemory
import GlfsNdmp.UsageReaders
import GlfsNdmp.MountOnce
import GlfsNdmp.ScsiInfo
import GlfsNdmp.ScsiListing
import GlfsNdmp.Lib.Balance
import GlfsNdmp.Ownership
import GlfsNdmp.Drain
import GlfsNdmp.Turns
import GlfsNdmp.Lifecycle
import GlfsNdmp.Lib.Reassembly
import GlfsNdmp.ClientReads
import GlfsNdmp.RemoteCalls
import GlfsNdmp.Lib.Blocks
import GlfsNdmp.VolFsList
import GlfsNdmp.Overtaking
import GlfsNdmp.Lib.Atomicity
import GlfsNdmp.CriticalSections
import GlfsNdmp.Lib.Lines
import GlfsNdmp.Logs
import GlfsNdmp.MemoryUse
import GlfsNdmp.Limits
import GlfsNdmp.UsageReadBack
import GlfsNdmp.Recovery
import GlfsNdmp.KnownPaths
import GlfsNdmp.Outcome
import GlfsNdmp.Determined
import GlfsNdmp.Answered
