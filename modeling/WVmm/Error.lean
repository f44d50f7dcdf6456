import Mathlib

/-! Errors at the backend, device and machine boundaries, and which of them a
guest can cause. Errors of other packages are kept as their text; a boxed
backend error is one of them. Panics are a separate way to fail, so that the
absence of a violated assertion is a statement about outcomes. -/
namespace WVmm

/-- An error value of a package outside the repository. -/
structure Foreign where
  text : String
deriving DecidableEq

inductive StorageError
  | readOnly
  | capacityMismatch (expected actual : Nat)
  | notRegularFile
  | invalidCapacity (size : Nat)
  | invalidHeaderLength (length : Nat)
  | incompatibleFeatures (features : Nat)
  | internalSnapshotsUnsupported
  | encryptedImagesUnsupported
  | invalidQcow2ClusterSize (bits : Nat)
  | backingChainsUnsupported
  | unsupportedVersion (version : Nat)
  | invalidHeader
  | outOfBounds (size offset len : Nat)
  | backend (source : Foreign)
  | io (source : Foreign)
  | operation (operation path : String) (source : Foreign)
deriving DecidableEq

inductive NetError
  | invalidVmnetRxFrameSize (length capacity : Nat)
  | invalidVmnetRxCount (count : Int)
  | vmnetRxBufferTooSmall (length capacity : Nat)
  | invalidVmnetTxCount (count : Int)
  | invalidVmnetTxFrameSize (length capacity : Nat)
  | createVmnetDescription
  | invalidVmnetFrameCapacity
  | unexpectedMtu (mtu : Nat)
  | missingVmnetInterfaceParameters
  | invalidVmnetMacAddress
  | vmnet (operation : String) (status : Nat)
  | permissionDenied (operation : String) (status : Nat)
  | backend (source : Foreign)
  | integer (source : Foreign)
  | utf8 (source : Foreign)
  | macParse (source : Foreign)
  | wait (operation : String) (source : Foreign)
  | start (source : NetError)
  | missingMac
  | missingInterface
  | closed
deriving DecidableEq

mutual
inductive MemoryError
  | stopped
  | invalidTarget (requested capacity blockSizeMib : Nat)
  | capacityOverflow (mib : Nat)
  | readableDescriptorAfterWritableDescriptor
  | invalidVirtioMemRequestBuffers (read write : Nat)
  | ipaOverflow
  | hotplugOverflow
  | hotplugAlignment (address alignment : Nat)
  | invalidRegionSize (mib alignmentMib : Nat)
  | invalidBlockSize (mib : Nat)
  | rollbackFailed (source rollback : MemoryError)
  | backend (source : Foreign)
  | guestMemory (source : Foreign)
  | guestAccess (source : Foreign)
  | slice (source : Foreign)
  | mapping (source : PlatformError)
  | regions (source : Foreign)

inductive PlatformError
  | noDefaultPlatform
  | hotplugLayoutMismatch
  | invalidHotplugCapacityAlignment (address size capacity alignment : Nat)
  | invalidVirtioMmioRegion
  | ramCapacityMismatch (expectedMib actual : Nat)
  | ramCapacityOverflow (total size : Nat)
  | overlappingRegions (address size : Nat)
  | portRangeOverflow (address size : Nat)
  | regionOverflow (address size : Nat)
  | emptyRegion
  | uartRegionTooSmall (size : Nat)
  | deviceCountMismatch (expected actual : Nat)
  | noBaseRam
  | invalidVcpuCount
  | eventChannelDisconnected
  | vmNotPrepared
  | hotplugOverflow
  | unsupportedVcpuCount
  | hvfHostPageAlignment
  | gicOverlapsRam
  | createGicConfiguration
  | gicSpiRange (base stop : Nat)
  | invalidGicSpiRange
  | hypervisor (operation : String) (code : Int)
  | unexpectedHvfExit (reason syndrome : Nat)
  | unhandledException (syndrome address pc : Nat)
  | unsupportedSysreg (sysreg esr : Nat)
  | unsupportedDataAbort (syndrome address : Nat)
  | vcpuInitializationThreadFailed
  | vcpuThreadPanicked
  | startupCancelled
  | mmioReplyDisconnected (address : Nat)
  | mappingOverlap (address size : Nat)
  | mappingNotFound (address size : Nat)
  | mappingMismatch (address size : Nat)
  | backend (source : Foreign)
  | memory (source : MemoryError)
  | boot (source : Foreign)
  | integer (source : Foreign)
  | io (source : Foreign)
end

inductive DeviceError
  | invalidGetId
  | invalidFlush
  | sectorOverflow (sector : Nat)
  | writeToReadOnlyDisk
  | unalignedBlockRequest (length : Nat)
  | blockDescriptorDirectionMismatch
  | requestLengthOverflow
  | invalidBlockHeaderStatus
  | truncatedBlockDescriptorChain
  | invalidBlockName (name : String)
  | missingBlockChain
  | rxLengthOverflow
  | rxDescriptorMustBeWritable
  | missingRxChain
  | invalidBackendRxPacketSize (length capacity : Nat)
  | unnegotiatedTxChecksumGsoOffload
  | invalidTxPacketSize (length capacity : Nat)
  | txLengthOverflow
  | txDescriptorMustBeReadable
  | networkMacMustBeNonzeroUnicast
  | invalidNetworkMtuFrameCapacity (mtu capacity : Nat)
  | invalidQueueMemory
  | invalidQueueReady (value : Nat)
  | queueTooLarge (size max : Nat)
  | queueConfigurationWhileReady
  | queueConfigurationAfterDriverOk
  | driverNotReady
  | statusBitsCleared
  | cyclicDescriptorChain
  | invalidDescriptorFlagsRange (address length flags : Nat)
  | unnegotiatedIndirectDescriptor
  | descriptorIndexOutOfRange (index size : Nat)
  | invalidAvailableDescriptor
  | availableRingOverrun (count size : Nat)
  | invalidVirtqueue
  | cyclicPendingDescriptorChain
  | invalidPendingDescriptor (address length flags : Nat)
  | invalidLiveQueue
  | storage (source : StorageError)
  | net (source : NetError)
  | memory (source : MemoryError)
  | guestAccess (source : Foreign)
  | queue (source : Foreign)
  | slice (source : Foreign)

inductive ControlError
  | cancelled
  | ownerThread
  | disconnected
  | notRunning
  | memoryNotConfigured
  | cleanupFailed (message : String)
  | memory (source : MemoryError)
  | replyFailed (message : String)

inductive RuntimeError
  | vmmThreadPanicked
  | unmappedIo (address width : Nat)
  | invalidAccess (address width : Nat) (write : Bool)
deriving DecidableEq

inductive SerialError
  | invalidReceiveLength (count capacity : Nat)
  | io (source : Foreign)
  | uart (source : Foreign)
deriving DecidableEq

inductive Error
  | storage (source : StorageError)
  | memory (source : MemoryError)
  | net (source : NetError)
  | platform (source : PlatformError)
  | device (source : DeviceError)
  | control (source : ControlError)
  | runtime (source : RuntimeError)
  | serial (source : SerialError)

/-- Malformed virtio-mem requests. Mapping failures, including rollback
failures, are host errors. -/
def MemoryError.isGuest : MemoryError → Bool
  | .readableDescriptorAfterWritableDescriptor
  | .invalidVirtioMemRequestBuffers _ _
  | .guestAccess _ => true
  | .stopped
  | .invalidTarget _ _ _
  | .capacityOverflow _
  | .ipaOverflow
  | .hotplugOverflow
  | .hotplugAlignment _ _
  | .invalidRegionSize _ _
  | .invalidBlockSize _
  | .rollbackFailed _ _
  | .backend _
  | .guestMemory _
  | .slice _
  | .mapping _
  | .regions _ => false

/-- Guest-caused errors, which a lenient machine contains to the device. Host
and backend failures, backend contract violations and construction errors are
always fatal. -/
def DeviceError.isGuest : DeviceError → Bool
  | .invalidGetId
  | .invalidFlush
  | .sectorOverflow _
  | .writeToReadOnlyDisk
  | .unalignedBlockRequest _
  | .blockDescriptorDirectionMismatch
  | .requestLengthOverflow
  | .invalidBlockHeaderStatus
  | .truncatedBlockDescriptorChain
  | .missingBlockChain
  | .rxLengthOverflow
  | .rxDescriptorMustBeWritable
  | .missingRxChain
  | .unnegotiatedTxChecksumGsoOffload
  | .invalidTxPacketSize _ _
  | .txLengthOverflow
  | .txDescriptorMustBeReadable
  | .invalidQueueMemory
  | .invalidQueueReady _
  | .queueTooLarge _ _
  | .queueConfigurationWhileReady
  | .queueConfigurationAfterDriverOk
  | .driverNotReady
  | .statusBitsCleared
  | .cyclicDescriptorChain
  | .invalidDescriptorFlagsRange _ _ _
  | .unnegotiatedIndirectDescriptor
  | .descriptorIndexOutOfRange _ _
  | .invalidAvailableDescriptor
  | .availableRingOverrun _ _
  | .invalidVirtqueue
  | .cyclicPendingDescriptorChain
  | .invalidPendingDescriptor _ _ _
  | .invalidLiveQueue
  | .guestAccess _
  | .queue _ => true
  | .memory e => e.isGuest
  | .invalidBlockName _
  | .invalidBackendRxPacketSize _ _
  | .networkMacMustBeNonzeroUnicast
  | .invalidNetworkMtuFrameCapacity _ _
  | .storage _
  | .net _
  | .slice _ => false

/-- What a violated assertion, `unwrap`, `unreachable!`, index, division or sum in
the source does instead of returning. -/
inductive Panic
  | assertion
  | unwrap
  | unreachable
  | index
  | division
  | overflow
deriving DecidableEq

inductive Failure (ε : Type)
  | error (e : ε)
  | panic (p : Panic)

namespace Failure

/-- The `From` conversion that `?` applies; a panic passes through. -/
def convert {ε δ : Type} (into : ε → δ) : Failure ε → Failure δ
  | error e => error (into e)
  | panic p => panic p

end Failure
end WVmm
