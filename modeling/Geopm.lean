import Geopm.Library.Run
import Geopm.Library.Table
import Geopm.Library.MaskedWrite
import Geopm.Library.Stateful
import Geopm.Library.Objects
import Geopm.Record
import Geopm.RecordLog.Log
import Geopm.RecordLog.View
import Geopm.RecordLog.Simulation
import Geopm.RecordLog.Interval
import Geopm.RecordLog.Overflow
import Geopm.RecordLog.History
import Geopm.ValidateRecord
import Geopm.RegionAggregator
import Geopm.ApplicationSampler
import Geopm.Accounting.Balance
import Geopm.Accounting.Monitor
import Geopm.Accounting.Totals
import Geopm.Accounting.Lost
import Geopm.Controller
import Geopm.Msr.Msrio
import Geopm.Msr.Access
import Geopm.Msr.Encode
import Geopm.Msr.FailedBatch
import Geopm.Msr.ReadBatch
import Geopm.Msr.FieldSignal
import Geopm.Msr.Formed
import Geopm.Msr.Batch
import Geopm.Msr.Confined
import Geopm.Msr.Group
import Geopm.Msr.Saved
import Geopm.Msr.Calls
import Geopm.Msr.SaveControl
import Geopm.Msr.SaveRestore
import Geopm.Msr.Control
import Geopm.Msr.Description
import Geopm.Msr.Allowlist
import Geopm.Msr.Coverage
import Geopm.Library.Window
import Geopm.TreeComm.Level
import Geopm.TreeComm.Down
import Geopm.TreeComm.Up
import Geopm.TreeComm.Cartesian
import Geopm.TreeComm.Tree
import Geopm.ProfileTracer
import Geopm.Library.Packing
import Geopm.Library.Terminated
import Geopm.ProfileTable
import Geopm.NameExchange
import Geopm.ProfileIOGroup
import Geopm.ProfileSampler
import Geopm.NameLoop
import Geopm.RegionNames
import Geopm.EpochFilter.CircularBuffer
import Geopm.EpochFilter.PeriodicityDetector
import Geopm.EpochFilter.Filter
import Geopm.EpochFilter.Stream
import Geopm.EpochFilter.Timing
import Geopm.Reindexing
import Geopm.Handshake.ControlMessage
import Geopm.Handshake.Exchange
import Geopm.Handshake.Invariant
import Geopm.Handshake.RankStep
import Geopm.Handshake.ControllerStep
import Geopm.Handshake.Preservation
import Geopm.Handshake.Safety
import Geopm.Library.Number
import Geopm.Library.Word
import Geopm.Library.WordField
import Geopm.Library.Hexadecimal
import Geopm.Library.Assoc
import Geopm.EpochFilter.RingBuffer
import Geopm.EpochFilter.SetCapacity
import Geopm.EpochFilter.DistanceTable
import Geopm.EpochFilter.Detection
import Geopm.EpochFilter.EditDistance
import Geopm.PlatformTopo
import Geopm.PlatformIOImp.Push
import Geopm.PlatformIOImp.Methods
import Geopm.PlatformIOImp.Tracked
import Geopm.PlatformIOImp.Paths
import Geopm.ApplicationStatus
import Geopm.Profile
import Geopm.ProfileOverflow
import Geopm.SampleAggregator
import Geopm.FrequencyMapAgent
import Geopm.PolicySource
import Geopm.PolicyPass
import Geopm.Balancer.Agg
import Geopm.Balancer.PowerBalancer
import Geopm.Balancer.Policy
import Geopm.Balancer.Reset
import Geopm.Balancer.Root
import Geopm.Balancer.Leaf
import Geopm.TreeComm.Topology
import Geopm.Balancer.Tree
import Geopm.Balancer.Measurements
import Geopm.Balancer.MeasureRuntime
import Geopm.Balancer.PolicyLimits
import Geopm.Library.Outcome
import Geopm.Balancer.Follows
import Geopm.Balancer.LeafFollows
import Geopm.Balancer.Links
import Geopm.Balancer.TreeSteps
import Geopm.Balancer.StepSync
import Geopm.Balancer.Current
import Geopm.Balancer.NewCaps
import Geopm.Balancer.CapsDelivered
import Geopm.Library.Sharing
import Geopm.Balancer.PackageLimits
import Geopm.Balancer.LeafBudget
import Geopm.Balancer.Descendants
import Geopm.Balancer.Budget
import Geopm.Balancer.BudgetDown
import Geopm.Balancer.BudgetLeaf
import Geopm.Balancer.BudgetUp
import Geopm.Balancer.Unheard
import Geopm.Balancer.BudgetKept
import Geopm.Sst.Sstio
import Geopm.Sst.Merge
import Geopm.Sst.WriteBatch
import Geopm.Sst.Rounds
import Geopm.Lscpu
import Geopm.BoardMemory
import Geopm.NumaMask
import Geopm.Helper
import Geopm.Json
import Geopm.Environment
import Geopm.ProcCpuset
import Geopm.Launcher
import Geopm.Placement
import Geopm.Sst.ReadBatch
import Geopm.Sst.Registers
import Geopm.Sst.SharedRegister
import Geopm.Sst.Control
import Geopm.EpochFilter.ParseName
import Geopm.EpochFilter.NamedFilter
import Geopm.EpochFilter.StablePeriod
import Geopm.EpochFilter.RepeatingPattern
import Geopm.Library.Stretch
import Geopm.SampleAggregator.Sample
import Geopm.SampleAggregator.LastVisit
import Geopm.SampleAggregator.PeriodSample
import Geopm.HintTime
import Geopm.WorkUnits
import Geopm.ProfileEpoch
import Geopm.ProfileMessages
import Geopm.ProfileKeys
import Geopm.FrequencyMapLeaf
import Geopm.FrequencyMapForwarding
import Geopm.PowerGovernorAgent
import Geopm.FrequencyGovernor
import Geopm.FrequencyValidation
import Geopm.EnergyEfficient.Region
import Geopm.EnergyEfficient.Forwarding
import Geopm.EnergyEfficient.Leaf
import Geopm.NvmlAcceleratorTopo
import Geopm.Library.LeastSquares
import Geopm.DerivativeSignal
import Geopm.Library.SqlTable
import Geopm.PolicyStore.Store
import Geopm.PolicyStore.Stored
import Geopm.PolicyStore.Failure
import Geopm.OptionParser.FormatOption
import Geopm.OptionParser.Parse
import Geopm.Library.Simulation
import Geopm.Endpoint.Shmem
import Geopm.Endpoint.Methods
import Geopm.Endpoint.Mailbox
import Geopm.Daemon.Update
import Geopm.Daemon.Session
import Geopm.Daemon.Served
import Geopm.Daemon.Delivery
import Geopm.EpochIOGroup
import Geopm.EpochCount
import Geopm.Library.Mailbox
import Geopm.Controllers.Tree
import Geopm.Controllers.Flow
import Geopm.Controllers.Gather
import Geopm.PowerGovernor.Levels
import Geopm.PowerGovernor.Average
import Geopm.PowerGovernor.Reports
import Geopm.PowerGovernor.Written
import Geopm.PowerGovernor.Synced
import Geopm.PowerGovernor.Settles
import Geopm.PowerGovernor.Rounds
import Geopm.Site.Model
import Geopm.Site.Attended
import Geopm.Site.Served
import Geopm.Site.Settles
