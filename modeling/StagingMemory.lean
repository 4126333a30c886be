import StagingMemory.Text.Blank
import StagingMemory.Text.Quoted
import StagingMemory.Text.Record
import StagingMemory.Size
import StagingMemory.Page
import StagingMemory.Sharing.Config
import StagingMemory.Table
import StagingMemory.Memory.Contents
import StagingMemory.Memory.PageSet
import StagingMemory.SystemError
import StagingMemory.Kernel
import StagingMemory.Memory.AddressSpace
import StagingMemory.Diagnostic.Catalogue
import StagingMemory.Diagnostic.StrictMode
import StagingMemory.Diagnostic.StrictGuard
import StagingMemory.Account.Statistics
import StagingMemory.Device.Access
import StagingMemory.Sharing.Attach
import StagingMemory.Sharing.Detach
import StagingMemory.Resource.Call
import StagingMemory.StagingBuffer
import StagingMemory.Session.Clock
import StagingMemory.Session.Memory
import StagingMemory.Session.Devices
import StagingMemory.Session.Segments
import StagingMemory.Session.Diagnostics
import StagingMemory.Resource.Stream
import StagingMemory.Session.Script
import StagingMemory.Proofs.Termination
import StagingMemory.Proofs.Atomicity
import StagingMemory.Proofs.Machine
import StagingMemory.Proofs.Books
import StagingMemory.Proofs.Attendance
import StagingMemory.Proofs.Ledger
import StagingMemory.Proofs.Leadership
import StagingMemory.Proofs.Reclaim
import StagingMemory.Proofs.Namespace
import StagingMemory.Proofs.Naming
import StagingMemory.Proofs.Variables
import StagingMemory.Proofs.Barrier
import StagingMemory.Proofs.Publication
import StagingMemory.Proofs.Teardown
import StagingMemory.Proofs.Interchange
import StagingMemory.Proofs.Custody
import StagingMemory.Proofs.Leniency
import StagingMemory.Proofs.Recovery
import StagingMemory.Proofs.Turnout
import StagingMemory.Proofs.Course
import StagingMemory.Proofs.Following
import StagingMemory.Proofs.Reports
import StagingMemory.Proofs.Depot
import StagingMemory.Proofs.Registration
import StagingMemory.Proofs.SharedMemory
import StagingMemory.Proofs.Entries
import StagingMemory.Proofs.Traffic
import StagingMemory.Proofs.Buffers
import StagingMemory.Proofs.Locking
import StagingMemory.Proofs.PageLocks
import StagingMemory.Proofs.Looking
import StagingMemory.Proofs.Waiting
import StagingMemory.Proofs.Primitives
import StagingMemory.Proofs.PinnedMemory
import StagingMemory.Proofs.Crowd
import StagingMemory.Proofs.HighWater
import StagingMemory.Proofs.LazyMode
import StagingMemory.Proofs.Overrides
import StagingMemory.Proofs.Taken
import StagingMemory.Proofs.Alignment
import StagingMemory.Proofs.WholePages
import StagingMemory.Proofs.Sizes
import StagingMemory.Proofs.NormalSizes
