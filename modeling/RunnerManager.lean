import RunnerManager.Domain.Store
import RunnerManager.Agent.Ports
import RunnerManager.Agent.Slots
import RunnerManager.Domain.StoreRead
import RunnerManager.Domain.PolicyClients
import RunnerManager.Domain.StoreClosure
import RunnerManager.Domain.Profiles
import RunnerManager.Lib.Program
import RunnerManager.Domain.Capacity
import RunnerManager.Agent.Reconcile
import RunnerManager.Agent.HostCeiling
import RunnerManager.Agent.Lifecycle
import RunnerManager.Agent.Passes
import RunnerManager.Agent.Supervision
import RunnerManager.Agent.Attribution
import RunnerManager.Agent.Launch
import RunnerManager.Agent.Launches
import RunnerManager.Agent.Registrations
import RunnerManager.Agent.IsolatedCleanup
import RunnerManager.Coordinator.Enrollment
import RunnerManager.Agent.ReconcilePass
import RunnerManager.Agent.Supply
import RunnerManager.Coordinator.Protocol
import RunnerManager.Github.Demand
import RunnerManager.App.WakeFreshness
import RunnerManager.Coordinator.Wire
import RunnerManager.App.CoordinatorLink
import RunnerManager.App.Watchdog
import RunnerManager.App.GuestHeartbeat
import RunnerManager.App.TargetLoop
import RunnerManager.Agent.ScrubOwnership
import RunnerManager.Agent.LaunchFence
import RunnerManager.Agent.BlockedLaunches
import RunnerManager.Agent.LaunchReports
import RunnerManager.Agent.FenceSafety
import RunnerManager.Coordinator.Registry
import RunnerManager.Coordinator.WakeRouting
import RunnerManager.Github.Client
import RunnerManager.Github.Lockout
import RunnerManager.Github.SingleFlight
import RunnerManager.Github.Renewal
import RunnerManager.App.Credentials
import RunnerManager.App.CredentialRuns
import RunnerManager.Github.Paging
import RunnerManager.Github.LinkHeader
import RunnerManager.Github.Confinement
import RunnerManager.App.Workspace
import RunnerManager.App.WorkspaceRoots
import RunnerManager.Agent.Providers
import RunnerManager.Agent.ProviderAbsence
import RunnerManager.Agent.ImagePins
import RunnerManager.Domain.RunsOn
import RunnerManager.Agent.Routing
import RunnerManager.Domain.AllocationFormula
import RunnerManager.Domain.RecoveryTable
import RunnerManager.Agent.SlotRefusal
import RunnerManager.App.HostEdits
import RunnerManager.Platform.CommandLine
import RunnerManager.Platform.WslTable
import RunnerManager.Platform.ProcessControl
import RunnerManager.Platform.Service
import RunnerManager.Platform.ForeignService
import RunnerManager.Platform.ServiceRequest
import RunnerManager.Platform.ServiceExchange
import RunnerManager.Lib.Fields
import RunnerManager.App.ReleaseSums
import RunnerManager.App.ReleaseAgreement
import RunnerManager.App.Update
import RunnerManager.App.UpdateSafety
import RunnerManager.Platform.ServiceRollback
import RunnerManager.App.ServiceInstall
import RunnerManager.App.ModeSwitch
import RunnerManager.Agent.IsolatedRetirement
import RunnerManager.Domain.CountFence
import RunnerManager.Domain.ExecutionFence
import RunnerManager.Domain.PolicyLife
import RunnerManager.Domain.Selectors
import RunnerManager.Domain.PathSpelling
import RunnerManager.Agent.PollSchedule
import RunnerManager.Github.DemandReading
import RunnerManager.Github.QuietPeriod
import RunnerManager.Github.ClockJump
import RunnerManager.Github.Traffic
import RunnerManager.Github.Budget
import RunnerManager.Github.BackoffWindow
import RunnerManager.Github.DeviceLogin
import RunnerManager.Github.PageWalk
import RunnerManager.Github.Coalescer
import RunnerManager.Github.ConditionalCache
import RunnerManager.Platform.CachePrune
import RunnerManager.Platform.CacheNamespace
import RunnerManager.Platform.Redaction
import RunnerManager.Platform.RedactionDepth
import RunnerManager.Platform.RedactedUrls
import RunnerManager.Platform.CacheConfig
import RunnerManager.Lib.Lines
import RunnerManager.Platform.RunnerEnv
import RunnerManager.Agent.DockerHttp
import RunnerManager.Agent.DockerJournal
import RunnerManager.Agent.DockerProxy
import RunnerManager.Agent.DockerRetirement
import RunnerManager.Platform.CacheLeases
import RunnerManager.Lib.FileTree
import RunnerManager.Platform.RootPreflight
import RunnerManager.Agent.Package
import RunnerManager.Agent.PackageExtract
import RunnerManager.Agent.PackageUnpacking
import RunnerManager.Agent.PackageContainment
import RunnerManager.Agent.PackageLeases
import RunnerManager.Agent.LeaseGuard
