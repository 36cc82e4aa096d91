import RocDxg.Memory.Mapping
import RocDxg.VaMgr.Model

/-!
# Memory objects and their addresses

`GpuMemory` of `wddm/gpu_memory.h` and `wddm/gpu_memory.cpp`, with the part of
`hsakmtRuntime` that hands out virtual addresses.  An object that is created reserves
a range in one of three address managers: the local heap, the system heap, or, if it
is physical memory only, the handle aperture.  The destructor gives the range back.

What the driver and the host answer while an object is created is in `Answers`.  The
physical side, `CreatePhysicalMemory` and what maps it, enters through its status
alone; `PhysicalMemory` is about the mapping itself.

`createGpuMemory` returns `none` where an assertion of `VaMgr` fails.
-/

namespace RocDxg

/-- `AllocDomain` -/
inductive AllocDomain where
  | kSystem
  | kLocal
  | kUserMemory
  | kUserQueue
deriving DecidableEq, Repr

/-- A device: the page sizes that its `SharedDevice()` reports, and the value of `GetLuid`,
which tells it from other devices. -/
structure SharedDevice where
  enableBigPageAlignment : Bool
  bigPageAlignmentSize : UInt32
  hwBigPageMinAlignmentSize : UInt32
  hwBigPageAlignmentSize : UInt32
  luid : Nat
deriving DecidableEq, Repr

/-- The bits of `mem_flags`. -/
structure MemFlags where
  kFineGrain : Bool := false
  kKernarg : Bool := false
deriving DecidableEq, Repr

/-- `GpuMemoryCreateFlags` -/
structure GpuMemoryCreateFlags where
  virtualAlloc : Bool := false
  physicalOnly : Bool := false
  interprocess : Bool := false
  locked : Bool := false
  physicalContiguous : Bool := false
  sysmemIpcSigImporter : Bool := false
  sysmemIpcSigExporter : Bool := false
  allocVa : Bool := false
  blitKernelObject : Bool := false
deriving DecidableEq, Repr

/-- `GpuMemoryCreateInfo`; the file descriptor is `none` when it is not positive. -/
structure GpuMemoryCreateInfo where
  flags : GpuMemoryCreateFlags := {}
  domain : AllocDomain := .kLocal
  size : Nat := 0
  alignment : Nat := 0
  dmabufFd : Option Nat := none
  vaHint : Nat := 0
  memFlags : MemFlags := {}
deriving DecidableEq, Repr

/-- A field of three bits can be zero. -/
instance neZero_eight : NeZero 8 := ⟨by decide⟩

/-- `GpuMemoryDescFlags` -/
structure GpuMemoryDescFlags where
  isVirtual : Bool := false
  isShared : Bool := false
  isExternal : Bool := false
  isPhysicalOnly : Bool := false
  isLocked : Bool := false
  isQueueReferenced : Bool := false
  isPhysicalContiguous : Bool := false
  isImportedSysMemfd : Bool := false
  isSysmemExporter : Bool := false
  isVaRequired : Bool := false
  isImportedVramVmem : Bool := false
  isImportedVramIpc : Bool := false
  /-- A field of three bits. -/
  isImportedFromSameProcess : Fin 8 := 0
  isBlitKernelObject : Bool := false
deriving DecidableEq, Repr

/-- `GpuMemoryDesc`, and whether `mem_fd_` is a file descriptor. -/
structure GpuMemory where
  domain : AllocDomain
  gpuAddr : Nat := 0
  clientSize : Nat := 0
  size : Nat := 0
  alignment : Nat := 0
  handleApeAddr : Nat := 0
  flags : GpuMemoryDescFlags := {}
  memFlags : MemFlags := {}
  adapterLuid : Nat := 0
  memFd : Bool := false
deriving DecidableEq, Repr

/-- `SharedHandleInfo` -/
structure SharedHandleInfo where
  domain : AllocDomain := .kLocal
  clientSize : Nat := 0
  size : Nat := 0
  flags : GpuMemoryDescFlags := {}
  memFlags : MemFlags := {}
  adapterLuid : Nat := 0
  pid : Nat := 0
  gpuAddr : Nat := 0
deriving DecidableEq, Repr

/-- What the driver and the host answer while an object is created. -/
structure Answers where
  /-- `CommitSystemHeapSpace` and `CommitSystemHeapSpaceIPC` -/
  commit : Bool := true
  /-- `DecommitSystemHeapSpaceIPC` -/
  decommit : Bool := true
  createPhysicalMemory : ErrorCode := .success
  mapGpuVirtualAddress : ErrorCode := .success
  makeResident : ErrorCode := .success
  waitOnPagingFenceFromCpu : Bool := true
  /-- `dup` returns a descriptor. -/
  dup : Bool := true
  /-- The value that `desc_.domain` has before it is assigned. -/
  staleDomain : AllocDomain := .kSystem
  queryResourceInfo : ErrorCode := .success
  /-- The runtime data has the size of a `SharedHandleInfo`. -/
  runtimeDataFits : Bool := true
  /-- `calloc` returns memory. -/
  calloc : Bool := true
  openResource : ErrorCode := .success
  sharedInfo : SharedHandleInfo := {}
  /-- `IsSameAdapter`, which reads `desc_.adapter_luid` before it is assigned. -/
  isSameAdapter : Bool := false
deriving DecidableEq, Repr

/-- The status of the steps that back a range with memory. -/
def Answers.backing (a : Answers) : ErrorCode :=
  if a.createPhysicalMemory ≠ .success then a.createPhysicalMemory
  else if a.mapGpuVirtualAddress ≠ .success then a.mapGpuVirtualAddress
  else if a.makeResident ≠ .success then a.makeResident
  else if a.waitOnPagingFenceFromCpu then .success
  else .unknown

/-! ## The runtime -/

/-- The address managers of `hsakmtRuntime`. -/
structure Heaps where
  localHeapMgr : VaMgr
  systemHeapMgr : VaMgr
  handleApertureMgr : VaMgr

namespace Heaps

/-- The alignment that `ReserveGpuVirtualAddress` asks for. -/
def reserveAlign (size alignment : Nat) : Nat :=
  if size ≥ gpuHugePageSize then gpuHugePageSize
  else if alignment = 0 then 64 * 1024
  else alignment

/-- `ReserveGpuVirtualAddress` -/
def reserveGpuVirtualAddress (hs : Heaps) (domain : AllocDomain)
    (hitBaseAddr size alignment : Nat) (commit : Bool) : Option (ErrorCode × Nat × Heaps) :=
  let align := reserveAlign size alignment
  if domain = .kSystem then
    (hs.systemHeapMgr.alloc size align hitBaseAddr).map fun (p, m) =>
      if commit then (if p = 0 then .outOfMemory else .success, p, { hs with systemHeapMgr := m })
      else (.syscallFail, 0, { hs with systemHeapMgr := m.free p })
  else
    (hs.localHeapMgr.alloc size align hitBaseAddr).map fun (p, m) =>
      (if p = 0 then .outOfGpuMemory else .success, p, { hs with localHeapMgr := m })

/-- `FreeGpuVirtualAddress` -/
def freeGpuVirtualAddress (hs : Heaps) (domain : AllocDomain) (gpuAddr : Nat) : Heaps :=
  if domain = .kSystem then { hs with systemHeapMgr := hs.systemHeapMgr.free gpuAddr }
  else { hs with localHeapMgr := hs.localHeapMgr.free gpuAddr }

/-- `ReserveIPCSysMem` -/
def reserveIPCSysMem (hs : Heaps) (size alignment : Nat) (commit : Bool) :
    Option (ErrorCode × Nat × Heaps) :=
  (hs.systemHeapMgr.alloc size alignment 0).map fun (p, m) =>
    if p = 0 then (.outOfMemory, 0, { hs with systemHeapMgr := m })
    else if commit then (.success, p, { hs with systemHeapMgr := m })
    else (.syscallFail, 0, { hs with systemHeapMgr := m.free p })

/-- `FreeIPCSysMem` -/
def freeIPCSysMem (hs : Heaps) (gpuAddr : Nat) : Heaps :=
  { hs with systemHeapMgr := hs.systemHeapMgr.free gpuAddr }

/-- `HandleApertureAlloc` -/
def handleApertureAlloc (hs : Heaps) (size : Nat) : Option (ErrorCode × Nat × Heaps) :=
  let align := if size ≥ gpuHugePageSize then gpuHugePageSize else defaultGpuPageSize
  (hs.handleApertureMgr.alloc size align 0).map fun (p, m) =>
    (if p = 0 then .outOfHandleApeMemory else .success, p, { hs with handleApertureMgr := m })

/-- `HandleApertureFree` -/
def handleApertureFree (hs : Heaps) (gpuAddr : Nat) : Heaps :=
  { hs with handleApertureMgr := hs.handleApertureMgr.free gpuAddr }

end Heaps

/-! ## Objects -/

namespace GpuMemory

/-- The alignment that `AdjustSize` gives local memory: that of large or of big pages,
whichever is larger. -/
def bigPageAlignment (dev : SharedDevice) (size : Nat) : Nat :=
  let alignment := dev.bigPageAlignmentSize.toNat
  if 0 < dev.hwBigPageMinAlignmentSize.toNat ∧ size > dev.hwBigPageMinAlignmentSize.toNat then
    let alignment := max alignment dev.hwBigPageMinAlignmentSize.toNat
    if size > dev.hwBigPageAlignmentSize.toNat then max alignment dev.hwBigPageAlignmentSize.toNat
    else alignment
  else alignment

/-- `AdjustSize` of an object in a domain. -/
def adjustSize (dev : SharedDevice) (domain : AllocDomain) (size : Nat) : Nat :=
  if dev.enableBigPageAlignment ∧ domain = .kLocal then
    if bigPageAlignment dev size > 0 then alignUp 64 size (bigPageAlignment dev size) else size
  else alignUp 64 size 4096

/-- `IncSharedReference` -/
def incSharedReference (mem : GpuMemory) : GpuMemory :=
  { mem with flags.isImportedFromSameProcess := mem.flags.isImportedFromSameProcess + 1 }

/-- `DecSharedReference` -/
def decSharedReference (mem : GpuMemory) : Fin 8 × GpuMemory :=
  let n := mem.flags.isImportedFromSameProcess
  if n = 0 then (0, mem) else (n - 1, { mem with flags.isImportedFromSameProcess := n - 1 })

/-- The memory of the object is a file that other processes can map. -/
def isFile (mem : GpuMemory) : Bool :=
  (mem.flags.isSysmemExporter || mem.flags.isImportedSysMemfd) && mem.domain = .kSystem

/-- `ReserveGpuVirtualAddress` -/
def reserveGpuVirtualAddress (mem : GpuMemory) (hs : Heaps) (baseVirtAddr size alignment : Nat)
    (a : Answers) : Option (ErrorCode × GpuMemory × Heaps) :=
  if mem.isFile then
    (hs.reserveIPCSysMem mem.size mem.alignment a.commit).map fun (code, p, hs) =>
      (code, if code = .success then { mem with gpuAddr := p, memFd := true } else mem, hs)
  else
    (hs.reserveGpuVirtualAddress mem.domain baseVirtAddr size alignment a.commit).map
      fun (code, p, hs) => (code, if code = .success then { mem with gpuAddr := p } else mem, hs)

/-- `FreeGpuVirtualAddress` -/
def freeGpuVirtualAddress (mem : GpuMemory) (hs : Heaps) (decommit : Bool) :
    GpuMemory × Heaps :=
  if mem.memFd then ({ mem with memFd := !decommit }, hs.freeIPCSysMem mem.gpuAddr)
  else if mem.gpuAddr ≠ 0 then (mem, hs.freeGpuVirtualAddress mem.domain mem.gpuAddr)
  else (mem, hs)

/-- The destructor. -/
def destroy (mem : GpuMemory) (hs : Heaps) : Heaps :=
  let hs := (mem.freeGpuVirtualAddress hs true).2
  if mem.handleApeAddr > 0 then hs.handleApertureFree mem.handleApeAddr else hs

/-- The end of `Init` and of the import of a shared file: back the range, or give it
back. -/
def back (mem : GpuMemory) (hs : Heaps) (a : Answers) : ErrorCode × GpuMemory × Heaps :=
  if a.backing = .success then (.success, mem, hs)
  else (a.backing, mem.freeGpuVirtualAddress hs a.decommit)

/-- What `Init` stores of its argument. -/
def describe (dev : SharedDevice) (info : GpuMemoryCreateInfo) : GpuMemory where
  domain := info.domain
  clientSize := info.size
  size := adjustSize dev info.domain info.size
  alignment := info.alignment
  memFlags := info.memFlags
  adapterLuid := dev.luid
  flags :=
    { isVirtual := info.flags.virtualAlloc
      isPhysicalOnly := info.flags.physicalOnly
      isPhysicalContiguous := info.flags.physicalContiguous
      isImportedSysMemfd := info.flags.sysmemIpcSigImporter
      isSysmemExporter := info.flags.sysmemIpcSigExporter
      isVaRequired := info.flags.allocVa
      isBlitKernelObject := info.flags.blitKernelObject
      isShared := info.flags.interprocess || info.domain = .kLocal
      isLocked := info.flags.locked }

/-- A place in the handle aperture. -/
def takeHandle (mem : GpuMemory) (hs : Heaps) : Option (ErrorCode × GpuMemory × Heaps) :=
  (hs.handleApertureAlloc mem.size).map fun (code, p, hs) =>
    (code, { mem with handleApeAddr := p }, hs)

/-- `Init` -/
def init (dev : SharedDevice) (hs : Heaps) (info : GpuMemoryCreateInfo) (a : Answers) :
    Option (ErrorCode × GpuMemory × Heaps) :=
  let mem := describe dev info
  if mem.flags.isPhysicalOnly then
    if a.createPhysicalMemory = .success then mem.takeHandle hs
    else some (a.createPhysicalMemory, mem, hs)
  else
    (mem.reserveGpuVirtualAddress hs info.vaHint mem.size info.alignment a).map
      fun (code, mem, hs) =>
        if mem.flags.isVirtual ∨ code ≠ .success then (code, mem, hs) else mem.back hs a

/-- What the import of a shared file stores. -/
def describeFile (dev : SharedDevice) (info : GpuMemoryCreateInfo) (a : Answers) : GpuMemory where
  domain := .kSystem
  clientSize := info.size
  size := adjustSize dev a.staleDomain info.size
  alignment := 0x1000
  memFlags := info.memFlags
  adapterLuid := dev.luid
  flags :=
    { isImportedSysMemfd := info.flags.sysmemIpcSigImporter
      isVaRequired := info.flags.allocVa
      isVirtual := info.flags.virtualAlloc
      isPhysicalOnly := info.flags.physicalOnly
      isPhysicalContiguous := info.flags.physicalContiguous
      isLocked := info.flags.locked }
  memFd := a.dup

/-- What the import of a shared resource stores. -/
def describeShared (info : GpuMemoryCreateInfo) (s : SharedHandleInfo) : GpuMemory where
  domain := s.domain
  clientSize := s.clientSize
  size := s.size
  memFlags := s.memFlags
  adapterLuid := s.adapterLuid
  flags :=
    { s.flags with
      isVaRequired := info.flags.allocVa
      isImportedVramIpc := s.flags.isImportedVramIpc || info.flags.allocVa
      isImportedVramVmem := s.flags.isImportedVramVmem || !info.flags.allocVa }

/-- An object before it is described. -/
def blank (a : Answers) : GpuMemory := { domain := a.staleDomain }

/-- Why a shared resource is not imported into the process `pid`, if it is not.  The
address is that of the exporter, when the exporter is this process. -/
def refusal (pid : Nat) (info : GpuMemoryCreateInfo) (a : Answers) : Option (Nat × ErrorCode) :=
  if a.queryResourceInfo ≠ .success then some (0, .invalidParams)
  else if a.runtimeDataFits = false then some (0, .unSupported)
  else if a.calloc = false then some (0, .outOfMemory)
  else if a.openResource ≠ .success then some (0, .invalidParams)
  else if a.sharedInfo.pid = pid ∧ info.flags.allocVa ∧ a.isSameAdapter ∧ a.sharedInfo.gpuAddr ≠ 0 then
    some (a.sharedInfo.gpuAddr, .sameProcessSameDevice)
  else none

/-- `ImportPhysicalHandle` in the process `pid`. -/
def importPhysicalHandle (pid : Nat) (dev : SharedDevice) (hs : Heaps) (info : GpuMemoryCreateInfo)
    (a : Answers) : Option (Nat × ErrorCode × GpuMemory × Heaps) :=
  if info.dmabufFd = none then some (0, .invalidParams, blank a, hs)
  else if info.flags.sysmemIpcSigImporter then
    let mem := describeFile dev info a
    (mem.reserveGpuVirtualAddress hs info.vaHint mem.size info.alignment a).map
      fun (code, mem, hs) => (0, if code ≠ .success then (code, mem, hs) else mem.back hs a)
  else
    match refusal pid info a with
    | some (p, code) => some (p, code, blank a, hs)
    | none =>
        let mem := describeShared info a.sharedInfo
        (if mem.flags.isVaRequired then
          mem.reserveGpuVirtualAddress hs info.vaHint mem.size info.alignment a
        else mem.takeHandle hs).map fun r => (0, r)

end GpuMemory

/-- The end of `CreateGpuMemory`: an object that was not initialised is deleted. -/
def keepOrDelete : Nat × ErrorCode × GpuMemory × Heaps →
    Nat × ErrorCode × Option GpuMemory × Heaps
  | (p, code, mem, hs) =>
      if code = .success then (p, code, some mem, hs) else (p, code, none, mem.destroy hs)

/-- `CreateGpuMemory` in the process `pid`: the address of a conflicting object, the
status, and the object if there is one. -/
def createGpuMemory (pid : Nat) (dev : SharedDevice) (hs : Heaps) (info : GpuMemoryCreateInfo)
    (a : Answers) : Option (Nat × ErrorCode × Option GpuMemory × Heaps) :=
  if info.dmabufFd.isSome then (GpuMemory.importPhysicalHandle pid dev hs info a).map keepOrDelete
  else (GpuMemory.init dev hs info a).map fun r => keepOrDelete (0, r)

end RocDxg
