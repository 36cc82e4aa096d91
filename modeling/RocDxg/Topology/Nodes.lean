import Mathlib.Data.Fintype.Pi
import RocDxg.Util

/-!
# The table of nodes

The records that `topology.cpp` fills in.  A node of the system is a processor or a GPU; the
processor is the node zero.  `NodeProps` is an entry of the table `g_props`: the properties of a
node with its memory banks, caches and links.

Fields that the code only leaves at zero are not in the records.  A name is the list of its
characters before the terminating zero.
-/

namespace RocDxg

/-- The values of `HSAKMT_STATUS` that the topology returns. -/
inductive HsakmtStatus where
  | success
  | error
  | invalidParameter
  | noMemory
  | invalidNodeUnit
  | notSupported
  | kernelIoChannelNotOpened
deriving DecidableEq, Repr

/-! ## Memory banks -/

/-- `HSA_HEAPTYPE` -/
inductive HsaHeapType where
  | system
  | frameBufferPublic
  | frameBufferPrivate
  | gpuGds
  | gpuLds
  | gpuScratch
  | deviceSvm
  | mmioRemap
deriving DecidableEq, Repr

/-- `HsaMemoryProperties`; the record with the defaults is the zeroed one. -/
structure HsaMemoryProperties where
  heapType : HsaHeapType := .system
  sizeInBytes : Nat := 0
  width : Nat := 0
  memoryClockMax : Nat := 0
  virtualBaseAddress : Nat := 0
deriving DecidableEq, Repr

/-! ## Caches -/

/-- `HSA_CPU_SIBLINGS` -/
def hsaCpuSiblings : Nat := 256

/-- `HsaCacheType` -/
structure HsaCacheType where
  data : Bool := false
  instruction : Bool := false
  cpu : Bool := false
  hsacu : Bool := false
deriving DecidableEq, Repr

/-- `HsaCacheProperties` -/
structure HsaCacheProperties where
  processorIdLow : Nat := 0
  cacheLevel : Nat := 0
  cacheSize : Nat := 0
  cacheLineSize : Nat := 0
  cacheLinesPerTag : Nat := 0
  cacheAssociativity : Nat := 0
  cacheType : HsaCacheType := {}
  siblingMap : Fin hsaCpuSiblings → Nat := fun _ => 0
deriving DecidableEq

/-! ## Links -/

/-- `HSA_IOLINKTYPE` -/
inductive HsaIoLinkType where
  | undefined
  | hypertransport
  | pciexpress
  | amba
  | mipi
  | qpi11
  | reserved1
  | reserved2
  | rapidIo
  | infiniband
  | reserved3
  | xgmi
  | xgop
  | gz
  | ethernetRdma
  | rdmaOther
  | other
deriving DecidableEq, Repr

/-- `HSA_LINKPROPERTY` -/
structure HsaLinkProperty where
  override : Bool := false
  nonCoherent : Bool := false
  noAtomics32bit : Bool := false
  noAtomics64bit : Bool := false
deriving DecidableEq, Repr

/-- `HsaIoLinkProperties` -/
structure HsaIoLinkProperties where
  ioLinkType : HsaIoLinkType := .undefined
  nodeFrom : Nat := 0
  nodeTo : Nat := 0
  weight : Nat := 0
  flags : HsaLinkProperty := {}
deriving DecidableEq, Repr

/-! ## Nodes -/

/-- `HSA_ENGINE_ID` -/
structure HsaEngineId where
  uCode : Nat := 0
  major : Nat := 0
  minor : Nat := 0
  stepping : Nat := 0
deriving DecidableEq, Repr

/-- `HsaNodeProperties` -/
structure HsaNodeProperties where
  numCPUCores : Nat := 0
  numFComputeCores : Nat := 0
  numMemoryBanks : Nat := 0
  numCaches : Nat := 0
  numIOLinks : Nat := 0
  cComputeIdLo : Nat := 0
  asicRevision : Nat := 0
  watchPointsTotalBits : Nat := 0
  doorbellType : Nat := 0
  maxWavesPerSIMD : Nat := 0
  ldsSizeInKB : Nat := 0
  waveFrontSize : Nat := 0
  numShaderBanks : Nat := 0
  numArrays : Nat := 0
  numCUPerArray : Nat := 0
  numSIMDPerCU : Nat := 0
  maxSlotsScratchCU : Nat := 0
  engineId : HsaEngineId := {}
  overrideEngineId : HsaEngineId := {}
  vendorId : Nat := 0
  deviceId : Nat := 0
  locationId : Nat := 0
  maxEngineClockMhzFCompute : Nat := 0
  maxEngineClockMhzCCompute : Nat := 0
  drmRenderMinor : Nat := 0
  marketingName : List Char := []
  amdName : List Char := []
  uCodeSDMA : Nat := 0
  hiveID : Nat := 0
  numSdmaEngines : Nat := 0
  numSdmaQueuesPerEngine : Nat := 0
  numCpQueues : Nat := 0
  integrated : Bool := false
  domain : Nat := 0
  uniqueID : Nat := 0
  vgprSizePerCU : Nat := 0
  sgprSizePerCU : Nat := 0
  numXcc : Nat := 0
  kfdGpuID : Nat := 0
  familyID : Nat := 0
deriving DecidableEq, Repr

/-- `node_props_t` -/
structure NodeProps where
  node : HsaNodeProperties := {}
  mem : List HsaMemoryProperties := []
  cache : List HsaCacheProperties := []
  link : List HsaIoLinkProperties := []
deriving DecidableEq

/-- `std::vector::resize` -/
def resize {α : Type} (x : α) (n : Nat) (xs : List α) : List α :=
  xs.take n ++ List.replicate (n - xs.length) x

@[simp] theorem length_resize {α : Type} (x : α) (n : Nat) (xs : List α) :
    (resize x n xs).length = n := by
  rw [resize, List.length_append, List.length_take, List.length_replicate]
  omega

end RocDxg
