import WVmm.Devices.Device
import WVmm.Devices.PluggedSet
import WVmm.Devices.MemoryFailures
import WVmm.Devices.MemorySpec
import WVmm.Devices.Negotiation
import WVmm.Devices.Twins
import WVmm.Devices.Ledger
import WVmm.Devices.Chains
import WVmm.Devices.Transmit
import WVmm.Devices.TransmitPass
import WVmm.Devices.Walks
import WVmm.Devices.PinScan
import WVmm.Devices.Receive
import WVmm.Devices.Apart
import WVmm.Devices.Rounds
import WVmm.Devices.BlockRequests
import WVmm.Devices.Records
import WVmm.Devices.MemoryLoop
import WVmm.Devices.Journal
import WVmm.Devices.Generation
import WVmm.Devices.Answers
import WVmm.Devices.ScatterGather
import WVmm.Platform.PauseBarrier
import WVmm.Platform.Layout
import WVmm.Platform.WellFormed
import WVmm.Platform.Boot
import WVmm.Platform.Hvf
import WVmm.Platform.Mappings
import WVmm.Platform.Workers
import WVmm.Platform.Teardown
import WVmm.Platform.Progress
import WVmm.Platform.Wakeups
import WVmm.Platform.Exits
import WVmm.Platform.Load
import WVmm.Platform.Power
import WVmm.Platform.Abort
import WVmm.Control.Stopped
import WVmm.Control.Paused
import WVmm.Control.Startup
import WVmm.Runtime.Isolation
import WVmm.Runtime.Interrupts
import WVmm.Runtime.Twins
import WVmm.Runtime.Modes
import WVmm.Runtime.Renewal
import WVmm.Runtime.Chains
import WVmm.Control.Progress
import WVmm.Control.Wakeups
import WVmm.Runtime.Effects
import WVmm.Runtime.Deliveries
import WVmm.Runtime.Transmissions
import WVmm.Runtime.Lines
import WVmm.Runtime.Life
import WVmm.Runtime.Holdings
import WVmm.Runtime.Bringup
import WVmm.Runtime.Cleanup
import WVmm.Runtime.Dispatch
import WVmm.Runtime.Replies
import WVmm.Runtime.SerialInput
import WVmm.Runtime.Durability
import WVmm.Runtime.Faults
import WVmm.Runtime.Confinement
import WVmm.Runtime.LiveQueues
import WVmm.Runtime.Lenient
import WVmm.Storage.Disk
import WVmm.Storage.Transfer
import WVmm.Network.Frames
import WVmm.Storage.Locks
import WVmm.Demo.Exchange
