import RocDxg.Memory.GpuMemory
import RocDxg.Memory.SimpleHeap

/-!
# The allocation map

The memory functions of `memory.cpp`.  `allocation_map_` says which object is at an
address; an object is named by a handle, and the handles of deleted objects are not
used again.  The sub-allocator keeps its blocks in the same map, under their base.

A function that reads a deleted object or an erased entry, or that fails an assertion,
has a `Fault` for a result.  Pointers to results are values that are returned.
-/

namespace RocDxg

open Lib (OrdMap)

/-- `HSAKMT_STATUS`, as far as the memory functions return it. -/
inductive Status where
  | success
  | error
  | invalidParameter
  | noMemory
  | kernelIoChannelNotOpened
  | kernelAlreadyOpened
deriving DecidableEq, Repr

/-- Where the source has no defined behaviour. -/
inductive Fault where
  /-- An assertion fails. -/
  | assertion
  /-- A method of a device that does not exist is called. -/
  | nullDevice
  /-- An entry of the map is read after it was erased. -/
  | useAfterErase
  /-- An object is read after it was deleted. -/
  | useAfterDelete
deriving DecidableEq, Repr

/-- `HsaMemFlags`, as far as an allocation reads it. -/
structure HsaMemFlags where
  nonPaged : Bool := false
  hostAccess : Bool := false
  noSubstitute : Bool := false
  scratch : Bool := false
  executeAccess : Bool := false
  coarseGrain : Bool := false
  fixedAddress : Bool := false
  noAddress : Bool := false
  onlyAddress : Bool := false
  gttAccess : Bool := false
  contiguous : Bool := false
  executeBlit : Bool := false
  uncached : Bool := false
deriving DecidableEq, Repr

/-- `Allocation` -/
structure Allocation where
  handle : Nat
  cpuAddr : Nat
  gpuAddr : Nat
  size : Nat
  userptr : Bool
deriving DecidableEq, Repr

/-- The settings of `hsakmtRuntime`, and `get_wddmdev`. -/
structure Config where
  getWddmdev : Nat → Option SharedDevice
  defaultNode : Nat := 1
  zfbSupport : Bool := false
  checkAvailSysram : Bool := false
  maxSingleAllocSize : Nat := 0
  enableThunkSubAllocator : Bool := false
  pageSize : Nat := 4096
  systemHeapSize : Nat := 0

/-- The objects, the map, and the state of the runtime. -/
structure Core where
  heaps : Heaps
  objects : OrdMap GpuMemory := .empty
  nextHandle : Nat := 0
  allocationMap : OrdMap Allocation := .empty
  dxgFd : Bool := false
  dxgOpenCount : Nat := 0
  isForked : Bool := false
  parentPid : Nat := 0

namespace Core

/-- `CHECK_DXG_OPEN` -/
def isOpen (c : Core) : Bool := c.dxgOpenCount ≠ 0 && !c.isForked

/-- An object is changed. -/
def setObject (c : Core) (handle : Nat) (mem : GpuMemory) : Core :=
  { c with objects := c.objects.insert handle mem }

/-- An object is deleted. -/
def deleteObject (c : Core) (handle : Nat) (mem : GpuMemory) : Core :=
  { c with heaps := mem.destroy c.heaps, objects := c.objects.erase handle }

/-- An object is created, with the next handle. -/
def withObject (c : Core) (hs : Heaps) (mem : GpuMemory) : Core :=
  { c with
    heaps := hs
    objects := c.objects.insert c.nextHandle mem
    nextHandle := c.nextHandle + 1 }

/-- An entry of the map is assigned. -/
def setEntry (c : Core) (addr : Nat) (e : Allocation) : Core :=
  { c with allocationMap := c.allocationMap.insert addr e }

/-- An entry of the map is erased. -/
def eraseEntry (c : Core) (addr : Nat) : Core :=
  { c with allocationMap := c.allocationMap.erase addr }

/-- `CreateGpuMemory`, with the handle of the object if there is one. -/
def create (c : Core) (dev : SharedDevice) (info : GpuMemoryCreateInfo) (a : Answers) :
    Except Fault (Nat × ErrorCode × Option (Nat × GpuMemory) × Core) :=
  match createGpuMemory c.parentPid dev c.heaps info a with
  | none => .error .assertion
  | some (va, code, none, hs) => .ok (va, code, none, { c with heaps := hs })
  | some (va, code, some mem, hs) =>
      .ok (va, code, some (c.nextHandle, mem), c.withObject hs mem)

/-! ## Allocation -/

end Core

/-- The arguments of `hsaKmtAllocMemoryAlign`. -/
structure AllocArgs where
  preferredNode : Nat
  sizeInBytes : Nat
  alignment : Nat := 0
  memFlags : HsaMemFlags := {}
  memoryAddress : Nat := 0
deriving DecidableEq, Repr

/-- The first part of `hsaKmtAllocMemoryAlignInternal`: the device, what it is asked
for, and whether the request is kept from the sub-allocator.  `ram` is the result of
`isSystemMemoryAvailable`. -/
def allocInfo (cfg : Config) (args : AllocArgs) (ram : Bool) :
    Except Status (SharedDevice × GpuMemoryCreateInfo × Bool) :=
  let flags := args.memFlags
  let node := if args.preferredNode = 0 then cfg.defaultNode else args.preferredNode
  let onlyAddress := flags.onlyAddress ||
    (flags.scratch && flags.hostAccess && args.sizeInBytes > 0x80000000)
  let system := (args.preferredNode = 0 && flags.hostAccess) || cfg.zfbSupport || flags.gttAccess
  let vmm := onlyAddress || flags.noAddress || flags.contiguous
  let coarseGrain := flags.coarseGrain || (cfg.zfbSupport && flags.nonPaged)
  if flags.fixedAddress ∧ args.memoryAddress = 0 then .error .invalidParameter
  else
    match cfg.getWddmdev node with
    | none => .error .error
    | some dev =>
        if system ∧ (args.sizeInBytes > cfg.maxSingleAllocSize ∨ cfg.checkAvailSysram ∧ ¬ ram) then
          .error .noMemory
        else
          .ok (dev,
            { size := args.sizeInBytes
              alignment := args.alignment
              vaHint := if flags.fixedAddress then args.memoryAddress else 0
              domain := if system ∧ ¬ vmm then .kSystem else .kLocal
              memFlags := { kFineGrain := !coarseGrain, kKernarg := flags.uncached }
              flags :=
                { sysmemIpcSigExporter := system && flags.nonPaged && !flags.gttAccess
                  physicalOnly := flags.noAddress
                  allocVa := !flags.noAddress
                  interprocess := flags.noAddress || flags.contiguous
                  physicalContiguous := flags.contiguous
                  locked := flags.noSubstitute
                  virtualAlloc := onlyAddress
                  blitKernelObject := flags.executeBlit && flags.executeAccess && system } },
            vmm)

/-- A request that is refused is not reported as served. -/
theorem allocInfo_ne_success {cfg : Config} {args : AllocArgs} {ram : Bool} {status : Status}
    (h : allocInfo cfg args ram = .error status) : status ≠ .success := by
  rintro rfl
  rw [allocInfo] at h
  repeat' split at h
  all_goals cases h

namespace Core

/-- One attempt of `hsaKmtAllocMemoryAlignInternal` to create an object: its status, and
the address under which the object was entered. -/
def createAllocation (c : Core) (dev : SharedDevice) (info : GpuMemoryCreateInfo) (a : Answers) :
    Except Fault (ErrorCode × Nat × Core) := do
  let (_, code, object, c) ← c.create dev info a
  match object with
  | none => .ok (code, 0, c)
  | some (handle, mem) =>
      let addr := if info.flags.physicalOnly ∨ info.dmabufFd.isSome then mem.handleApeAddr
        else mem.gpuAddr
      .ok (code, addr, c.setEntry addr ⟨handle, addr, addr, info.size, false⟩)

/-- `hsaKmtAllocMemoryAlignInternal` without the sub-allocator. -/
def allocDirect (cfg : Config) (c : Core) (args : AllocArgs) (ram : Bool) (a : Answers) :
    Except Fault (Status × Nat × Core) :=
  if c.isOpen = false then .ok (.kernelIoChannelNotOpened, 0, c)
  else
    match allocInfo cfg args ram with
    | .error status => .ok (status, 0, c)
    | .ok (dev, info, _) => do
        let (code, addr, c) ← c.createAllocation dev info a
        if code = .success then .ok (.success, addr, c) else .ok (.error, 0, c)

/-- The part of `hsaKmtFreeMemoryInternal` that is about the map. -/
def freeEntry (c : Core) (addr : Nat) : Except Fault (Status × Core) :=
  match c.allocationMap.find? addr with
  | none => .ok (.error, c)
  | some e =>
      match c.objects.find? e.handle with
      | none => .error .useAfterDelete
      | some mem =>
          if mem.flags.isQueueReferenced then .ok (.error, c)
          else if mem.flags.isImportedVramIpc then
            let (count, mem) := mem.decSharedReference
            if count ≠ 0 then .ok (.success, c.setObject e.handle mem)
            else .ok (.success, (c.eraseEntry addr).deleteObject e.handle mem)
          else .ok (.success, (c.eraseEntry addr).deleteObject e.handle mem)

/-- `hsaKmtFreeMemoryInternal` without the sub-allocator. -/
def freeDirect (c : Core) (addr : Nat) : Except Fault (Status × Core) :=
  if c.isOpen = false then .ok (.kernelIoChannelNotOpened, c)
  else if addr = 0 then .ok (.invalidParameter, c)
  else c.freeEntry addr

end Core

/-! ## The sub-allocator -/

/-- `block_size_`, 128 MiB. -/
def subAllocatorBlockSize : Nat := 128 * 1024 * 1024

/-- The request of `BlockAllocator::alloc`. -/
def blockArgs (size : Nat) : AllocArgs where
  preferredNode := 1
  sizeInBytes := size
  memFlags := { coarseGrain := true, noSubstitute := true }

/-- `BlockAllocator`.  A fault ends the call it happens in, so the state that the heap
passes along is a result. -/
def blockAllocator (cfg : Config) (ram : Bool) (a : Answers) :
    BlockAllocator (Except Fault Core) where
  blockSize := subAllocatorBlockSize
  alloc s request :=
    let size := alignUp 64 request subAllocatorBlockSize
    match s.bind fun c => c.allocDirect cfg (blockArgs size) ram a with
    | .error fault => (none, .error fault)
    | .ok (status, base, c) => (if status = .success then some (base, size) else none, .ok c)
  free s base _ := s.bind fun c => (c.freeDirect base).map Prod.snd

/-- The objects and `fragment_allocator_`. -/
structure Memory where
  core : Core
  heap : SimpleHeap := {}

/-- What the driver and the host answer during an allocation: while a block is created,
at the first attempt, and at the attempt after `trim`. -/
structure AllocAnswers where
  ram : Bool := true
  block : Answers := {}
  first : Answers := {}
  retry : Answers := {}
deriving DecidableEq, Repr

namespace Memory

/-- The size that the sub-allocator is asked for. -/
def realSize (cfg : Config) (size : Nat) : Nat :=
  if size > gpuHugePageSize then alignUp 64 size gpuHugePageSize else alignUp 64 size cfg.pageSize

/-- The request to the sub-allocator; the address is zero if it was not served. -/
def subAlloc (cfg : Config) (m : Memory) (size : Nat) (ans : AllocAnswers) :
    Except Fault (Nat × Memory) :=
  if realSize cfg size < subAllocatorBlockSize then
    match SimpleHeap.alloc (blockAllocator cfg ans.ram ans.block) m.heap (.ok m.core)
        (realSize cfg size) with
    | none => .error .assertion
    | some (_, _, .error fault) => .error fault
    | some (addr, heap, .ok core) => .ok (addr, ⟨core, heap⟩)
  else .ok (0, m)

/-- `trim_suballocator` -/
def trim (cfg : Config) (m : Memory) : Except Fault Memory :=
  let r := SimpleHeap.trim (blockAllocator cfg true {}) m.heap (.ok m.core)
  r.2.map fun core => ⟨core, r.1⟩

/-- Create an object of its own for the request; if that fails, once more with the
blocks of the cache released. -/
def createOrTrim (cfg : Config) (m : Memory) (dev : SharedDevice) (info : GpuMemoryCreateInfo)
    (ans : AllocAnswers) : Except Fault (Status × Nat × Memory) := do
  let (code, addr, core) ← m.core.createAllocation dev info ans.first
  let m := { m with core := core }
  if code = .success then .ok (.success, addr, m)
  else
    let m ← m.trim cfg
    let (code, addr, core) ← m.core.createAllocation dev info ans.retry
    let m := { m with core := core }
    if code = .success then .ok (.success, addr, m) else .ok (.error, 0, m)

/-- `hsaKmtAllocMemoryAlign` -/
def allocMemoryAlign (cfg : Config) (m : Memory) (args : AllocArgs) (ans : AllocAnswers) :
    Except Fault (Status × Nat × Memory) :=
  if m.core.isOpen = false then .ok (.kernelIoChannelNotOpened, 0, m)
  else
    match allocInfo cfg args ans.ram with
    | .error status => .ok (status, 0, m)
    | .ok (dev, info, vmm) =>
        if cfg.enableThunkSubAllocator ∧ ¬ vmm ∧ info.domain = .kLocal then do
          let (addr, m) ← m.subAlloc cfg info.size ans
          if addr ≠ 0 then .ok (.success, addr, m) else m.createOrTrim cfg dev info ans
        else do
          let (code, addr, core) ← m.core.createAllocation dev info ans.first
          let m := { m with core := core }
          if code = .success then .ok (.success, addr, m) else .ok (.error, 0, m)

/-- `hsaKmtAllocMemory` -/
def allocMemory (cfg : Config) (m : Memory) (preferredNode sizeInBytes : Nat) (flags : HsaMemFlags)
    (memoryAddress : Nat) (ans : AllocAnswers) : Except Fault (Status × Nat × Memory) :=
  m.allocMemoryAlign cfg ⟨preferredNode, sizeInBytes, 0, flags, memoryAddress⟩ ans

/-- `hsaKmtFreeMemory` -/
def freeMemory (cfg : Config) (m : Memory) (addr : Nat) : Except Fault (Status × Memory) :=
  if m.core.isOpen = false then .ok (.kernelIoChannelNotOpened, m)
  else if addr = 0 then .ok (.invalidParameter, m)
  else
    match SimpleHeap.free (blockAllocator cfg true {}) m.heap (.ok m.core) addr with
    | (_, _, .error fault) => .error fault
    | (true, heap, .ok core) => .ok (.success, ⟨core, heap⟩)
    | (false, heap, .ok core) => (core.freeEntry addr).map fun r => (r.1, ⟨r.2, heap⟩)

/-! ## Registration -/

/-- `hsaKmtDeregisterMemory`.  For a user pointer the entry is erased before its GPU
address is read from it. -/
def deregisterMemory (m : Memory) (addr : Nat) : Except Fault (Status × Memory) :=
  if m.core.isOpen = false then .ok (.kernelIoChannelNotOpened, m)
  else if addr = 0 then .ok (.invalidParameter, m)
  else
    match m.core.allocationMap.find? addr with
    | none => .ok (.success, m)
    | some e =>
        match m.core.objects.find? e.handle with
        | none => .error .useAfterDelete
        | some mem =>
            if mem.flags.isImportedVramIpc then
              let (count, mem) := mem.decSharedReference
              if count = 0 then
                .ok (.success, { m with core := (m.core.eraseEntry addr).deleteObject e.handle mem })
              else if e.userptr then .error .useAfterErase
              else .ok (.success, { m with core := m.core.setObject e.handle mem })
            else if e.userptr then .error .useAfterErase
            else .ok (.success, m)

/-- The status of the steps of `hsaKmtMapMemoryToGPUNodes` for imported memory. -/
def remapStatus (a : Answers) : Status :=
  if a.mapGpuVirtualAddress = .success ∧ a.makeResident = .success ∧ a.waitOnPagingFenceFromCpu then
    .success
  else .error

/-- The end of `hsaKmtMapMemoryToGPUNodes`: an object for the user's memory, with an
entry under the user's address and one under the GPU address. -/
def mapUserptr (cfg : Config) (m : Memory) (addr start size node : Nat) (a : Answers) :
    Except Fault (Status × Option Nat × Memory) :=
  match cfg.getWddmdev node with
  | none => .ok (.error, none, m)
  | some dev => do
      let (_, _, object, core) ← m.core.create dev { domain := .kUserMemory, size := size } a
      match object with
      | none => .ok (.error, none, { m with core := core })
      | some (handle, mem) =>
          let e : Allocation := ⟨handle, start, mem.gpuAddr, size, true⟩
          .ok (.success, some (u64 (mem.gpuAddr + (addr - start))),
            { m with core := (core.setEntry addr e).setEntry mem.gpuAddr e })

/-- The entry under the user's address, if it is a user pointer that is large enough. -/
def mappedUserptr (m : Memory) (addr size : Nat) : Option (Status × Option Nat) :=
  match m.core.allocationMap.find? addr with
  | none => none
  | some e =>
      if e.userptr ∧ e.size ≥ size then
        some (.success, some (u64 (e.gpuAddr + sub64 addr e.cpuAddr)))
      else none

/-- The part of `hsaKmtMapMemoryToGPUNodes` that finds memory which is there: its
result, if it has one. -/
def mapExisting (m : Memory) (addr size : Nat) (a : Answers) :
    Except Fault (Option (Status × Option Nat)) :=
  let start := alignDown 64 addr 4096
  if m.heap.blockBase start ≠ 0 then .ok (some (.success, none))
  else
    match m.core.allocationMap.find? start with
    | none => .ok (m.mappedUserptr addr size)
    | some e =>
        match m.core.objects.find? e.handle with
        | none => .error .useAfterDelete
        | some mem =>
            if mem.flags.isImportedVramIpc then .ok (some (remapStatus a, none))
            else if e.userptr then .ok (m.mappedUserptr addr size)
            else if e.size ≥ size then .ok (some (.success, some addr))
            else .ok (some (.error, none))

/-- The number of bytes of the pages that a range of memory touches. -/
def alignedSize (addr size : Nat) : Nat :=
  sub64 (alignUp 64 (u64 (addr + size)) 4096) (alignDown 64 addr 4096)

/-- `hsaKmtMapMemoryToGPUNodes`, with the alternate address if one is stored. -/
def mapMemoryToGPUNodes (cfg : Config) (m : Memory) (addr size node : Nat) (a : Answers) :
    Except Fault (Status × Option Nat × Memory) :=
  if m.core.isOpen = false then .ok (.kernelIoChannelNotOpened, none, m)
  else if addr = 0 then .ok (.error, none, m)
  else do
    match ← m.mapExisting addr size a with
    | some (status, alternate) => .ok (status, alternate, m)
    | none => m.mapUserptr cfg addr (alignDown 64 addr 4096) (alignedSize addr size) node a

/-- The arguments of `import_dmabuf_fd`, and the size that `fstat` reports. -/
structure ImportArgs where
  dmabufFd : Option Nat
  nodeId : Nat
  allocVa : Bool
  isIpcMemfd : Bool
  statSize : Nat := 0
deriving DecidableEq, Repr

/-- What `import_dmabuf_fd` asks for. -/
def importInfo (cfg : Config) (args : ImportArgs) : GpuMemoryCreateInfo :=
  let file := args.isIpcMemfd && 4096 ≤ args.statSize && args.statSize < cfg.systemHeapSize &&
    args.statSize % 4096 = 0
  { dmabufFd := args.dmabufFd
    size := if file then args.statSize else 0
    flags := { allocVa := args.allocVa, sysmemIpcSigImporter := file } }

/-- `import_dmabuf_fd`, with the handle it stores. -/
def importDmabufFd (cfg : Config) (m : Memory) (args : ImportArgs) (a : Answers) :
    Except Fault (Status × Option Nat × Memory) :=
  if m.core.isOpen = false then .ok (.kernelIoChannelNotOpened, none, m)
  else
    match cfg.getWddmdev args.nodeId with
    | none => .error .nullDevice
    | some dev => do
        let (va, code, object, core) ← m.core.create dev (importInfo cfg args) a
        let m := { m with core := core }
        if code = .sameProcessSameDevice then
          match core.allocationMap.find? va with
          | none => .ok (.error, none, m)
          | some e =>
              match core.objects.find? e.handle with
              | none => .error .useAfterDelete
              | some mem =>
                  .ok (.success, some e.handle,
                    { m with core := core.setObject e.handle mem.incSharedReference })
        else
          match object with
          | none => .ok (.error, none, m)
          | some (handle, mem) =>
              let addr := if args.allocVa then mem.gpuAddr else mem.handleApeAddr
              .ok (.success, some handle,
                { m with core := core.setEntry addr ⟨handle, addr, addr, mem.size, false⟩ })

/-! ## Opening and closing -/

/-- `hsaKmtOpenKFD` in a process that has not forked.  `fd` and `dxcore` say whether the
device file could be opened and the loader initialised. -/
def openKFD (m : Memory) (fd dxcore : Bool) : Status × Memory :=
  if m.core.dxgOpenCount = 0 then
    if ¬ m.core.dxgFd ∧ ¬ fd then (.kernelIoChannelNotOpened, m)
    else if ¬ dxcore then (.error, { m with core := { m.core with dxgFd := true } })
    else
      (.success,
        { core := { m.core with dxgFd := true, dxgOpenCount := 1 }
          heap := m.heap.reset })
  else
    (.kernelAlreadyOpened,
      { core := { m.core with dxgOpenCount := u64 (m.core.dxgOpenCount + 1) }
        heap := m.heap.reset })

/-- `hsaKmtCloseKFD` -/
def closeKFD (m : Memory) : Status × Memory :=
  if m.core.dxgOpenCount > 0 then
    let count := m.core.dxgOpenCount - 1
    (.success, { m with core :=
      { m.core with dxgOpenCount := count, dxgFd := if count = 0 then false else m.core.dxgFd } })
  else (.kernelIoChannelNotOpened, m)

end Memory

end RocDxg
