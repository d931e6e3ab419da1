import Thur.Block.WriteBack
import Thur.Block.Unmap
import Thur.Block.Fence
import Thur.Block.Uploaded
import Thur.Block.Pending
import Thur.Block.Recovery
import Thur.Block.Snapshot
import Thur.Block.Eviction
import Thur.Block.GcSafety
import Thur.Block.Resize
import Thur.Block.FlatVolume
import Thur.Block.PoolBudget
import Thur.Block.Recreate
import Thur.Block.SnapshotDirs
import Thur.Store.Reupload
import Thur.Store.Linearize
import Thur.Reservations.Notices
import Thur.Reservations.Generation
import Thur.Target.Isolation
import Thur.Target.OdxReadable
import Thur.Target.Deallocate
import Thur.Stream.ManifestBackup
import Thur.Stream.IndexCrash
import Thur.Stream.FailedWrite
import Thur.Stream.Hold
import Thur.Changer.Addressing
import Thur.Changer.Mounts
import Thur.Changer.RestoreArchive
import Thur.Stream.PageSweep
import Thur.Stream.Workers
import Thur.Stream.Migrate
import Thur.Stream.EvictionPass
import Thur.Stream.TapeGc
import Thur.Iscsi.Login
import Thur.Iscsi.Answers
import Thur.NvmeTcp.Fused
import Thur.Vtl.LegalHold
