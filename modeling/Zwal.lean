import Zwal.Contracts.SyncDurability
import Zwal.Contracts.ReadHandles
import Zwal.Contracts.WalParser
import Zwal.Contracts.SparseSplit
import Zwal.Contracts.NameIndependence
import Zwal.Contracts.ZonePartition
import Zwal.Contracts.ZoneAllocation
import Zwal.Contracts.MetaRoundTrip
import Zwal.Contracts.OrdinaryWrites
import Zwal.Contracts.MigrationSlot
import Zwal.Contracts.SparseRecovery
import Zwal.Contracts.BarrierOffset
import Zwal.Contracts.DeferredStatus
import Zwal.Contracts.ClosingWriters
import Zwal.Contracts.Truncation
import Zwal.Contracts.DirectoryDeletion
import Zwal.Contracts.WalSequence
import Zwal.Contracts.LockOrder
import Zwal.Contracts.MigratedContents
import Zwal.Contracts.ExtentLocks
import Zwal.Contracts.ZoneArithmetic
import Zwal.Contracts.ZoneFsAppend
import Zwal.Contracts.FileCopy
import Zwal.Contracts.MetaCrash
import Zwal.Contracts.ResetSafety
