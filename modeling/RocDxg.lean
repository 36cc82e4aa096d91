import RocDxg.Bdf.Cli
import RocDxg.Bdf.Interface
import RocDxg.Bdf.Text
import RocDxg.Lib.Arena
import RocDxg.Lib.Arenas
import RocDxg.Lib.Buffer
import RocDxg.Lib.CString
import RocDxg.Lib.Chain
import RocDxg.Lib.Coalesced
import RocDxg.Lib.Custody
import RocDxg.Lib.DoubleChecked
import RocDxg.Lib.Exchange
import RocDxg.Lib.Framing
import RocDxg.Lib.Handles
import RocDxg.Lib.Ledger
import RocDxg.Lib.Monitor
import RocDxg.Lib.MultiMap
import RocDxg.Lib.OrdMap
import RocDxg.Lib.Patch
import RocDxg.Lib.Pattern
import RocDxg.Lib.Reach
import RocDxg.Lib.Separated
import RocDxg.Lib.Stacked
import RocDxg.Lib.Tally
import RocDxg.Lib.TileMap
import RocDxg.Lib.Window
import RocDxg.Memory.Alignment
import RocDxg.Memory.Allocation
import RocDxg.Memory.Attempts
import RocDxg.Memory.BlockCalls
import RocDxg.Memory.Cleanup
import RocDxg.Memory.Client
import RocDxg.Memory.Descriptors
import RocDxg.Memory.Discard
import RocDxg.Memory.Empty
import RocDxg.Memory.Entries
import RocDxg.Memory.FailedReservation
import RocDxg.Memory.FileMemory
import RocDxg.Memory.Files
import RocDxg.Memory.GpuMapping
import RocDxg.Memory.GpuMemory
import RocDxg.Memory.Guarantees
import RocDxg.Memory.HeapAccounts
import RocDxg.Memory.HeapCalls
import RocDxg.Memory.HeapCoalesced
import RocDxg.Memory.HeapDiscards
import RocDxg.Memory.HeapPartition
import RocDxg.Memory.HeapRuns
import RocDxg.Memory.Lifetime
import RocDxg.Memory.Mapping
import RocDxg.Memory.OpenClose
import RocDxg.Memory.Ownership
import RocDxg.Memory.Paged
import RocDxg.Memory.PagingFence
import RocDxg.Memory.PartialMapping
import RocDxg.Memory.PointerRuns
import RocDxg.Memory.Pointers
import RocDxg.Memory.Records
import RocDxg.Memory.Reimport
import RocDxg.Memory.Reserved
import RocDxg.Memory.Resident
import RocDxg.Memory.Rings
import RocDxg.Memory.SharedReferences
import RocDxg.Memory.Shelved
import RocDxg.Memory.SimpleHeap
import RocDxg.Memory.Sizes
import RocDxg.Memory.SubAllocator
import RocDxg.Memory.SystemHeap
import RocDxg.Memory.VaOps
import RocDxg.Platform.BdfLookup
import RocDxg.Platform.DeviceIndex
import RocDxg.Platform.Devices
import RocDxg.Platform.GpuSelection
import RocDxg.Platform.ProcessBuffers
import RocDxg.Platform.ProcessViews
import RocDxg.Platform.Processes
import RocDxg.Platform.Smi
import RocDxg.Platform.Uuid
import RocDxg.Queue.AqlRing
import RocDxg.Queue.AqlThread
import RocDxg.Queue.AqlWakeup
import RocDxg.Queue.Barrier
import RocDxg.Queue.CommandBuffer
import RocDxg.Queue.Completion
import RocDxg.Queue.Consumption
import RocDxg.Queue.Decoding
import RocDxg.Queue.Encoding
import RocDxg.Queue.Execution
import RocDxg.Queue.Finishing
import RocDxg.Queue.Frames
import RocDxg.Queue.GpuQueue
import RocDxg.Queue.Merging
import RocDxg.Queue.Packets
import RocDxg.Queue.PollScan
import RocDxg.Queue.Process
import RocDxg.Queue.Relocation
import RocDxg.Queue.Resources
import RocDxg.Queue.Scratch
import RocDxg.Queue.ScratchFields
import RocDxg.Queue.ScratchSize
import RocDxg.Queue.Sdma
import RocDxg.Queue.SdmaDoorbells
import RocDxg.Queue.SdmaThread
import RocDxg.Queue.Submission
import RocDxg.Queue.Translate
import RocDxg.Runtime.Connection
import RocDxg.Runtime.HandleAperture
import RocDxg.Runtime.HsaSymbols
import RocDxg.Runtime.Lifecycle
import RocDxg.Runtime.SvmSpace
import RocDxg.Topology.CacheList
import RocDxg.Topology.CpuCaches
import RocDxg.Topology.Leftovers
import RocDxg.Topology.Links
import RocDxg.Topology.Nodes
import RocDxg.Topology.Queries
import RocDxg.Topology.SiblingMap
import RocDxg.Topology.Snapshot
import RocDxg.Util
import RocDxg.VaMgr.Coalesced
import RocDxg.VaMgr.Empty
import RocDxg.VaMgr.Model
import RocDxg.VaMgr.Partition
import RocDxg.VaMgr.Requests
import RocDxg.VaMgr.Runs
import RocDxg.VaMgr.Undone
