import Mathlib.Data.Finset.Basic
import RocDxg.Memory.Ownership

/-!
# File descriptors

What the memory functions do with file descriptors.  A descriptor of the library is recorded
in one of two places: `mem_fd_` of the object whose memory it is, and `dmabuf_fd` of the
entry it was exported from.  `Files` has both records beside the numbers that are open, and
the numbers that were closed although they were not the library's.

`FileCore` is `Core` with its descriptors.  Its functions are those of `Core`, with each
`memfd_create`, `dup` and `close` of the source; `hsaKmtExportDMABufHandle` changes
descriptors only.  They are the functions with `SkipSubAlloc`.
-/

namespace RocDxg

open Lib (OrdMap)
open GpuMemory (describe describeFile describeShared refusal)
open Memory (ImportArgs importInfo)

/-- What the host answers about descriptors while an object is created and deleted. -/
structure FdAnswers where
  /-- `memfd_create` returns a descriptor, though the memory is not committed. -/
  memfdCreate : Bool := true
  /-- The number of `memfd_create`. -/
  memfd : Nat := 3
  /-- The number of `dup`. -/
  dup : Nat := 3
  /-- `munmap` in the destructor succeeds. -/
  munmap : Bool := true
deriving DecidableEq, Repr

/-- The descriptors of the library. -/
structure Files where
  /-- `mem_fd_` of the objects, by handle. -/
  memFd : OrdMap Nat := .empty
  /-- `dmabuf_fd` of the entries, by address. -/
  dmabufFd : OrdMap Nat := .empty
  /-- The numbers that the library has obtained and not closed. -/
  owned : Finset Nat := ∅
  /-- The numbers that were closed and not the library's. -/
  strays : List Nat := []

namespace Files

/-- A descriptor is obtained. -/
def acquire (f : Files) (n : Nat) : Files := { f with owned := insert n f.owned }

/-- `close` -/
def close (f : Files) (n : Nat) : Files :=
  if n ∈ f.owned then { f with owned := f.owned.erase n } else { f with strays := n :: f.strays }

/-- `CommitSystemHeapSpaceIPC`, with the file that the object has after it. -/
def commitSystemHeapSpaceIPC (f : Files) (memFd : Option Nat) (commit : Bool) (k : FdAnswers) :
    Option Nat × Files :=
  match memFd with
  | some n => (some n, f)
  | none =>
      if commit then (some k.memfd, f.acquire k.memfd)
      else if k.memfdCreate then (none, (f.acquire k.memfd).close k.memfd)
      else (none, f)

/-- `DecommitSystemHeapSpaceIPC` -/
def decommitSystemHeapSpaceIPC (f : Files) (n : Nat) (munmap : Bool) : Option Nat × Files :=
  if munmap then (none, f.close n) else (some n, f)

/-- `ReserveGpuVirtualAddress`, with the file that the object has after it. -/
def reserveGpuVirtualAddress (f : Files) (mem : GpuMemory) (hs : Heaps) (memFd : Option Nat)
    (a : Answers) (k : FdAnswers) : Option Nat × Files :=
  if mem.isFile then
    match hs.systemHeapMgr.alloc mem.size mem.alignment 0 with
    | none => (memFd, f)
    | some (p, _) => if p = 0 then (memFd, f) else f.commitSystemHeapSpaceIPC memFd a.commit k
  else (memFd, f)

/-- `FreeGpuVirtualAddress` -/
def freeGpuVirtualAddress (f : Files) (memFd : Option Nat) (munmap : Bool) : Option Nat × Files :=
  match memFd with
  | none => (none, f)
  | some n => f.decommitSystemHeapSpaceIPC n munmap

/-- The end of `Init` and of the import of a shared file. -/
def back (f : Files) (memFd : Option Nat) (a : Answers) : Option Nat × Files :=
  if a.backing = .success then (memFd, f) else f.freeGpuVirtualAddress memFd a.decommit

/-- `Init` -/
def init (f : Files) (dev : SharedDevice) (hs : Heaps) (info : GpuMemoryCreateInfo) (a : Answers)
    (k : FdAnswers) : Option Nat × Files :=
  let mem := describe dev info
  if mem.flags.isPhysicalOnly then (none, f)
  else
    let (memFd, files) := f.reserveGpuVirtualAddress mem hs none a k
    match mem.reserveGpuVirtualAddress hs info.vaHint mem.size info.alignment a with
    | none => (memFd, files)
    | some (code, mem, _) =>
        if mem.flags.isVirtual ∨ code ≠ .success then (memFd, files) else files.back memFd a

/-- `ImportPhysicalHandle` in the process `pid`. -/
def importPhysicalHandle (f : Files) (pid : Nat) (dev : SharedDevice) (hs : Heaps)
    (info : GpuMemoryCreateInfo) (a : Answers) (k : FdAnswers) : Option Nat × Files :=
  if info.dmabufFd = none then (none, f)
  else if info.flags.sysmemIpcSigImporter then
    let mem := describeFile dev info a
    let (memFd, files) := if a.dup then (some k.dup, f.acquire k.dup) else (none, f)
    let (memFd, files) := files.reserveGpuVirtualAddress mem hs memFd a k
    match mem.reserveGpuVirtualAddress hs info.vaHint mem.size info.alignment a with
    | none => (memFd, files)
    | some (code, _) => if code ≠ .success then (memFd, files) else files.back memFd a
  else
    match refusal pid info a with
    | some _ => (none, f)
    | none =>
        let mem := describeShared info a.sharedInfo
        if mem.flags.isVaRequired then f.reserveGpuVirtualAddress mem hs none a k else (none, f)

/-- `CreateGpuMemory`: the file of the object, and the descriptors with those closed that the
object had if it is deleted. -/
def create (f : Files) (pid : Nat) (dev : SharedDevice) (hs : Heaps) (info : GpuMemoryCreateInfo)
    (a : Answers) (k : FdAnswers) (kept : Bool) : Option Nat × Files :=
  let (memFd, files) := if info.dmabufFd.isSome then f.importPhysicalHandle pid dev hs info a k
    else f.init dev hs info a k
  if kept then (memFd, files) else (none, (files.freeGpuVirtualAddress memFd k.munmap).2)

/-- The file of a new object is stored. -/
def setMemFd (f : Files) (handle : Nat) : Option Nat → Files
  | none => f
  | some n => { f with memFd := f.memFd.insert handle n }

/-- The descriptor of an entry is closed, if it has one. -/
def closeEntry (f : Files) (addr : Nat) : Files :=
  match f.dmabufFd.find? addr with
  | none => f
  | some n => f.close n

/-- An entry is assigned or erased. -/
def eraseEntry (f : Files) (addr : Nat) : Files := { f with dmabufFd := f.dmabufFd.erase addr }

/-- The destructor. -/
def deleteObject (f : Files) (handle : Nat) (munmap : Bool) : Files :=
  let files := (f.freeGpuVirtualAddress (f.memFd.find? handle) munmap).2
  { files with memFd := files.memFd.erase handle }

end Files

/-- The objects and the map, with the descriptors. -/
structure FileCore where
  core : Core
  files : Files := {}

namespace FileCore

def setObject (s : FileCore) (handle : Nat) (mem : GpuMemory) : FileCore :=
  { s with core := s.core.setObject handle mem }

def deleteObject (s : FileCore) (handle : Nat) (mem : GpuMemory) (munmap : Bool) : FileCore :=
  ⟨s.core.deleteObject handle mem, s.files.deleteObject handle munmap⟩

def setEntry (s : FileCore) (addr : Nat) (e : Allocation) : FileCore :=
  ⟨s.core.setEntry addr e, s.files.eraseEntry addr⟩

def eraseEntry (s : FileCore) (addr : Nat) : FileCore :=
  ⟨s.core.eraseEntry addr, s.files.eraseEntry addr⟩

/-- The descriptor of an entry is closed. -/
def closeEntry (s : FileCore) (addr : Nat) : FileCore :=
  { s with files := s.files.closeEntry addr }

/-- `CreateGpuMemory`, with the handle of the object if there is one. -/
def create (s : FileCore) (dev : SharedDevice) (info : GpuMemoryCreateInfo) (a : Answers)
    (k : FdAnswers) : Except Fault (Nat × ErrorCode × Option (Nat × GpuMemory) × FileCore) := do
  let (va, code, object, core) ← s.core.create dev info a
  let (memFd, files) := s.files.create s.core.parentPid dev s.core.heaps info a k object.isSome
  match object with
  | none => .ok (va, code, none, ⟨core, files⟩)
  | some (handle, mem) => .ok (va, code, some (handle, mem), ⟨core, files.setMemFd handle memFd⟩)

/-- An attempt of `hsaKmtAllocMemoryAlignInternal` to create an object. -/
def createAllocation (s : FileCore) (dev : SharedDevice) (info : GpuMemoryCreateInfo) (a : Answers)
    (k : FdAnswers) : Except Fault (ErrorCode × Nat × FileCore) := do
  let (_, code, object, s) ← s.create dev info a k
  match object with
  | none => .ok (code, 0, s)
  | some (handle, mem) =>
      let addr := if info.flags.physicalOnly ∨ info.dmabufFd.isSome then mem.handleApeAddr
        else mem.gpuAddr
      .ok (code, addr, s.setEntry addr ⟨handle, addr, addr, info.size, false⟩)

/-- `hsaKmtAllocMemoryAlignInternal` without the sub-allocator. -/
def allocDirect (cfg : Config) (s : FileCore) (args : AllocArgs) (ram : Bool) (a : Answers)
    (k : FdAnswers) : Except Fault (Status × Nat × FileCore) :=
  if s.core.isOpen = false then .ok (.kernelIoChannelNotOpened, 0, s)
  else
    match allocInfo cfg args ram with
    | .error status => .ok (status, 0, s)
    | .ok (dev, info, _) => do
        let (code, addr, s) ← s.createAllocation dev info a k
        if code = .success then .ok (.success, addr, s) else .ok (.error, 0, s)

/-- `ExportPhysicalHandle` of an object with a file or without; `shared` is what `ShareObjects`
returns. -/
def exportPhysicalHandle (s : FileCore) (handle : Nat) (mem : GpuMemory) (shared : Option Nat) :
    Option (Nat × Files) :=
  match s.files.memFd.find? handle with
  | some n => some (n, s.files)
  | none => if mem.flags.isShared then shared.map fun n => (n, s.files.acquire n) else none

/-- `hsaKmtExportDMABufHandle`: the number that `dup` returns, and the offset. -/
def exportDMABufHandle (s : FileCore) (addr : Nat) (shared dup : Option Nat) :
    Except Fault (Status × Option Nat × Nat × FileCore) :=
  if s.core.isOpen = false then .ok (.kernelIoChannelNotOpened, none, 0, s)
  else
    match s.core.allocationMap.floor? addr with
    | none => .ok (.error, none, 0, s)
    | some (a, e) =>
        match s.files.dmabufFd.find? a with
        | some _ => .ok (.success, dup, sub64 addr e.gpuAddr, s)
        | none =>
            match s.core.objects.find? e.handle with
            | none => .error .useAfterDelete
            | some mem =>
                match s.exportPhysicalHandle e.handle mem shared with
                | none => .ok (.error, none, 0, s)
                | some (n, files) =>
                    .ok (.success, dup, sub64 addr e.gpuAddr,
                      { s with files := { files with dmabufFd := files.dmabufFd.insert a n } })

/-- The part of `hsaKmtFreeMemoryInternal` that is about the map. -/
def freeEntry (s : FileCore) (addr : Nat) (munmap : Bool) : Except Fault (Status × FileCore) :=
  match s.core.allocationMap.find? addr with
  | none => .ok (.error, s)
  | some e =>
      match s.core.objects.find? e.handle with
      | none => .error .useAfterDelete
      | some mem =>
          if mem.flags.isQueueReferenced then .ok (.error, s)
          else if mem.flags.isImportedVramIpc then
            let (count, mem) := mem.decSharedReference
            if count ≠ 0 then .ok (.success, s.setObject e.handle mem)
            else
              .ok (.success,
                ((s.closeEntry addr).eraseEntry addr).deleteObject e.handle mem munmap)
          else
            .ok (.success, ((s.closeEntry addr).eraseEntry addr).deleteObject e.handle mem munmap)

/-- `hsaKmtFreeMemoryInternal` without the sub-allocator. -/
def freeDirect (s : FileCore) (addr : Nat) (munmap : Bool) : Except Fault (Status × FileCore) :=
  if s.core.isOpen = false then .ok (.kernelIoChannelNotOpened, s)
  else if addr = 0 then .ok (.invalidParameter, s)
  else s.freeEntry addr munmap

/-- `hsaKmtDeregisterMemory` -/
def deregisterMemory (s : FileCore) (addr : Nat) (munmap : Bool) :
    Except Fault (Status × FileCore) :=
  if s.core.isOpen = false then .ok (.kernelIoChannelNotOpened, s)
  else if addr = 0 then .ok (.invalidParameter, s)
  else
    match s.core.allocationMap.find? addr with
    | none => .ok (.success, s)
    | some e =>
        match s.core.objects.find? e.handle with
        | none => .error .useAfterDelete
        | some mem =>
            if mem.flags.isImportedVramIpc then
              let (count, mem) := mem.decSharedReference
              if count = 0 then
                .ok (.success, (s.eraseEntry addr).deleteObject e.handle mem munmap)
              else if e.userptr then .error .useAfterErase
              else .ok (.success, s.setObject e.handle mem)
            else if e.userptr then .error .useAfterErase
            else .ok (.success, s)

/-- `import_dmabuf_fd`, with the handle it stores. -/
def importDmabufFd (cfg : Config) (s : FileCore) (args : ImportArgs) (a : Answers) (k : FdAnswers) :
    Except Fault (Status × Option Nat × FileCore) :=
  if s.core.isOpen = false then .ok (.kernelIoChannelNotOpened, none, s)
  else
    match cfg.getWddmdev args.nodeId with
    | none => .error .nullDevice
    | some dev => do
        let (va, code, object, s) ← s.create dev (importInfo cfg args) a k
        if code = .sameProcessSameDevice then
          match s.core.allocationMap.find? va with
          | none => .ok (.error, none, s)
          | some e =>
              match s.core.objects.find? e.handle with
              | none => .error .useAfterDelete
              | some mem =>
                  .ok (.success, some e.handle, s.setObject e.handle mem.incSharedReference)
        else
          match object with
          | none => .ok (.error, none, s)
          | some (handle, mem) =>
              let addr := if args.allocVa then mem.gpuAddr else mem.handleApeAddr
              .ok (.success, some handle,
                s.setEntry addr ⟨handle, addr, addr, mem.size, false⟩)

/-! ## The descriptors do not change the memory -/

section Forget

variable {cfg : Config} {s : FileCore}

theorem create_core {dev : SharedDevice} {info : GpuMemoryCreateInfo} {a : Answers} {k : FdAnswers} :
    (s.create dev info a k).map (fun r => (r.1, r.2.1, r.2.2.1, r.2.2.2.core)) =
      s.core.create dev info a := by
  rw [create]
  cases s.core.create dev info a with
  | error f => rfl
  | ok r =>
      obtain ⟨va, code, object, core⟩ := r
      cases object with
      | none => rfl
      | some o => rfl

theorem createAllocation_core {dev : SharedDevice} {info : GpuMemoryCreateInfo} {a : Answers}
    {k : FdAnswers} :
    (s.createAllocation dev info a k).map (fun r => (r.1, r.2.1, r.2.2.core)) =
      s.core.createAllocation dev info a := by
  rw [createAllocation, Core.createAllocation, ← create_core (k := k)]
  cases s.create dev info a k with
  | error f => rfl
  | ok r =>
      obtain ⟨va, code, object, s₁⟩ := r
      cases object with
      | none => rfl
      | some o => rfl

/-- The allocation of memory. -/
theorem allocDirect_core {args : AllocArgs} {ram : Bool} {a : Answers} {k : FdAnswers} :
    (s.allocDirect cfg args ram a k).map (fun r => (r.1, r.2.1, r.2.2.core)) =
      s.core.allocDirect cfg args ram a := by
  rw [allocDirect, Core.allocDirect]
  split
  next => rfl
  next =>
    cases allocInfo cfg args ram with
    | error status => rfl
    | ok r =>
        obtain ⟨dev, info, vmm⟩ := r
        simp only
        rw [← createAllocation_core (k := k)]
        cases s.createAllocation dev info a k with
        | error f => rfl
        | ok r =>
            obtain ⟨code, addr, s₁⟩ := r
            simp only [bind, Except.bind, Except.map]
            by_cases hcode : code = .success
            · rw [if_pos hcode, if_pos hcode]
            · rw [if_neg hcode, if_neg hcode]

theorem freeEntry_core {addr : Nat} {munmap : Bool} :
    (s.freeEntry addr munmap).map (fun r => (r.1, r.2.core)) = s.core.freeEntry addr := by
  rw [freeEntry, Core.freeEntry]
  cases s.core.allocationMap.find? addr with
  | none => rfl
  | some e =>
      simp only
      cases s.core.objects.find? e.handle with
      | none => rfl
      | some mem =>
          simp only
          split
          next => rfl
          next =>
            split
            next =>
              split
              next => rfl
              next => rfl
            next => rfl

/-- The release of memory. -/
theorem freeDirect_core {addr : Nat} {munmap : Bool} :
    (s.freeDirect addr munmap).map (fun r => (r.1, r.2.core)) = s.core.freeDirect addr := by
  rw [freeDirect, Core.freeDirect]
  split
  next => rfl
  next =>
    split
    next => rfl
    next => exact freeEntry_core

/-- The end of a registration. -/
theorem deregisterMemory_core {heap : SimpleHeap} {addr : Nat} {munmap : Bool} :
    (s.deregisterMemory addr munmap).map (fun r => (r.1, (⟨r.2.core, heap⟩ : Memory))) =
      Memory.deregisterMemory ⟨s.core, heap⟩ addr := by
  rw [deregisterMemory, Memory.deregisterMemory]
  split
  next => rfl
  next =>
    split
    next => rfl
    next =>
      cases s.core.allocationMap.find? addr with
      | none => rfl
      | some e =>
          simp only
          cases s.core.objects.find? e.handle with
          | none => rfl
          | some mem =>
              simp only
              split
              next =>
                split
                next => rfl
                next => split <;> rfl
              next => split <;> rfl

/-- An import. -/
theorem importDmabufFd_core {heap : SimpleHeap} {args : ImportArgs} {a : Answers} {k : FdAnswers} :
    (s.importDmabufFd cfg args a k).map (fun r => (r.1, r.2.1, (⟨r.2.2.core, heap⟩ : Memory))) =
      Memory.importDmabufFd cfg ⟨s.core, heap⟩ args a := by
  rw [importDmabufFd, Memory.importDmabufFd]
  split
  next => rfl
  next =>
    cases cfg.getWddmdev args.nodeId with
    | none => rfl
    | some dev =>
        simp only
        rw [← create_core (k := k)]
        cases s.create dev (importInfo cfg args) a k with
        | error f => rfl
        | ok r =>
            obtain ⟨va, code, object, s₁⟩ := r
            simp only [bind, Except.bind, Except.map]
            by_cases hcode : code = .sameProcessSameDevice
            · simp only [if_pos hcode]
              cases s₁.core.allocationMap.find? va with
              | none => rfl
              | some e =>
                  simp only
                  cases s₁.core.objects.find? e.handle with
                  | none => rfl
                  | some mem => rfl
            · simp only [if_neg hcode]
              cases object with
              | none => rfl
              | some o => rfl

end Forget

end FileCore

end RocDxg
