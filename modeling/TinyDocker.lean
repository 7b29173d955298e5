import TinyDocker.Core.Safety
import TinyDocker.Core.NetworkState
import TinyDocker.Core.StatusCodec
import TinyDocker.Core.Fs
import TinyDocker.Docker.NetworkStore
import TinyDocker.Docker.StatusFile
import TinyDocker.Docker.StartupGate
import TinyDocker.Docker.Identity
import TinyDocker.Docker.Addresses
import TinyDocker.Docker.HostSafety
import TinyDocker.Docker.UnmountFrame
import TinyDocker.Docker.Rollback
import TinyDocker.Docker.Cgroup
import TinyDocker.Docker.Bridges
import TinyDocker.Docker.DefaultBridge
import TinyDocker.Docker.RemovalOrder
import TinyDocker.Docker.StuckNames
import TinyDocker.Docker.RemovalFinish
import TinyDocker.Docker.VethNames
import TinyDocker.Docker.Allocator
import TinyDocker.Docker.VolumeRestore
import TinyDocker.Docker.PortRules
import TinyDocker.Docker.MetadataDir
import TinyDocker.Lib.Runs
import TinyDocker.Docker.ImageCache
import TinyDocker.Docker.VethOwnership
import TinyDocker.Docker.ChildDeath
import TinyDocker.Docker.DnatListing
import TinyDocker.Docker.StopProtocol
import TinyDocker.Core.Process
import TinyDocker.Core.Archive
import TinyDocker.Core.CgroupParse
import TinyDocker.Core.ProcStat
import TinyDocker.Core.UnsignedText
import TinyDocker.Docker.ProcessEnv
import TinyDocker.Cmdparser.Run
import TinyDocker.Docker.ProcessTable
import TinyDocker.Docker.Exec
import TinyDocker.Lib.TreeRemoval
import TinyDocker.Lib.Pivot
import TinyDocker.Lib.Canonical
import TinyDocker.Core.RemoveTree
import TinyDocker.Docker.NewRoot
import TinyDocker.Docker.Foreground
import TinyDocker.Docker.RuntimePaths
import TinyDocker.Docker.CgroupStages
import TinyDocker.Docker.Listing
import TinyDocker.Cmdparser.Command
import TinyDocker.Main
import TinyDocker.Docker.RacingRuns
import TinyDocker.Docker.ChildInit
import TinyDocker.Util.MakePath
import TinyDocker.Docker.Workspace
import TinyDocker.Docker.OwnedInterfaces
import TinyDocker.Docker.Gateway
import TinyDocker.Docker.NetworkTable
import TinyDocker.Docker.SharedMetadata
