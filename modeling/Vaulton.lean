import Vaulton.Lib.Machine
import Vaulton.Lib.Weight
import Vaulton.Lib.Segments
import Vaulton.Lib.Tree
import Vaulton.Lib.Unwinding
import Vaulton.Lib.Cache
import Vaulton.Lib.WorkList
import Vaulton.Lib.Projection
import Vaulton.Lib.SingleFlight
import Vaulton.Lib.Draining
import Vaulton.Lib.Linear
import Vaulton.Config
import Vaulton.Paths
import Vaulton.Quota
import Vaulton.QuotaAccessor
import Vaulton.QuotaClose
import Vaulton.QuotaReset
import Vaulton.Retention
import Vaulton.RepoJobs
import Vaulton.VfsCache
import Vaulton.SetVfs
import Vaulton.Rotations
import Vaulton.Transfer
import Vaulton.TransferRace
import Vaulton.DataOps
import Vaulton.JobCancel
import Vaulton.EventBus
import Vaulton.LocalQuota
import Vaulton.WriteHandles
import Vaulton.ReadHandles
import Vaulton.ReadCache
import Vaulton.CloseWrite
import Vaulton.JobResults
import Vaulton.DryRun
import Vaulton.MountAccess
import Vaulton.QuotaIsolation
import Vaulton.SnapshotLock
import Vaulton.Reconfiguration
import Vaulton.QuotaRollback
import Vaulton.SharedDisk
import Vaulton.DiskWalk
import Vaulton.Progress
import Vaulton.RepoStore
import Vaulton.TransferProgress
import Vaulton.SnapshotCache
import Vaulton.Proofs.Config
import Vaulton.Proofs.Paths
import Vaulton.Proofs.QuotaCounter
import Vaulton.Proofs.QuotaSync
import Vaulton.Proofs.QuotaAccounting
import Vaulton.Proofs.QuotaDrift
import Vaulton.Proofs.QuotaReset
import Vaulton.Proofs.QuotaLimit
import Vaulton.Proofs.QuotaModes
import Vaulton.Proofs.Retention
import Vaulton.Proofs.RepoJobs
import Vaulton.Proofs.VfsCache
import Vaulton.Proofs.SetVfs
import Vaulton.Proofs.Rotations
import Vaulton.Proofs.TransferJob
import Vaulton.Proofs.TransferFrame
import Vaulton.Proofs.Transfer
import Vaulton.Proofs.TransferPromise
import Vaulton.Proofs.TransferRace
import Vaulton.Proofs.DataOps
import Vaulton.Proofs.JobCancel
import Vaulton.Proofs.EventBus
import Vaulton.Proofs.LocalQuota
import Vaulton.Proofs.WriteHandles
import Vaulton.Proofs.ReadHandles
import Vaulton.Proofs.ReadCache
import Vaulton.Proofs.CloseWrite
import Vaulton.Proofs.JobResults
import Vaulton.Proofs.DryRun
import Vaulton.Proofs.MountAccess
import Vaulton.Proofs.MountListing
import Vaulton.Proofs.QuotaIsolation
import Vaulton.Proofs.SnapshotLock
import Vaulton.Proofs.Reconfiguration
import Vaulton.Proofs.QuotaRollback
import Vaulton.Proofs.QuotaRename
import Vaulton.Proofs.RetentionPolicy
import Vaulton.Proofs.ReadBack
import Vaulton.Proofs.PointNames
import Vaulton.Proofs.RelativePaths
import Vaulton.Proofs.MountResolving
import Vaulton.Proofs.RetentionRounds
import Vaulton.Proofs.SharedDisk
import Vaulton.Proofs.DiskWalk
import Vaulton.Proofs.Progress
import Vaulton.Proofs.RepoStore
import Vaulton.Proofs.TransferProgress
import Vaulton.Proofs.SnapshotCache
import Vaulton.Proofs.WriteOrder
