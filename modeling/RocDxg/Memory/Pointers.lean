import RocDxg.Lib.Stacked
import RocDxg.Memory.SubAllocator

/-!
# Whose memory a pointer is in

`hsaKmtQueryPointerInfo` and `hsaKmtExportDMABufHandle` take any address.  Both look for the
entry of the allocation map with the greatest address up to it, and at no other.  The first
compares the address with the end of that entry, the second does not.

`Pointers` is the memory together with the fields of the entries that only these functions read,
and with the ranges that the client has asked for.  What the functions are to say about an
address is said in terms of those ranges (`Owns`, `Exports`).
-/

namespace RocDxg

open Lib (OrdMap Stacked)
open GpuMemory (describe)
open Memory (AllocRegular subAllocates userptrInfo)

/-- `HSA_POINTER_TYPE`, as far as an address is found. -/
inductive PointerType where
  | allocated
  | registeredUser
  | reservedAddr
deriving DecidableEq, Repr

/-- `HsaPointerInfo` -/
structure PointerInfo where
  type : PointerType
  sizeInBytes : Nat
  cpuAddress : Nat
  gpuAddress : Nat
deriving DecidableEq, Repr

/-- A range of addresses that the client has asked for. -/
structure Asked where
  base : Nat
  size : Nat
deriving DecidableEq, Repr

/-- The addresses of the range. -/
def Asked.Mem (r : Asked) (p : Nat) : Prop := r.base ≤ p ∧ p < r.base + r.size

instance (r : Asked) (p : Nat) : Decidable (r.Mem p) := inferInstanceAs (Decidable (_ ∧ _))

/-- The memory, `size_requested` of the user pointers under the handle of their object,
`dmabuf_fd` of the entries with the handle of their object, and the ranges that were asked for
and not given back. -/
structure Pointers where
  mem : Memory
  userSize : OrdMap Nat := .empty
  dmabufFd : OrdMap (Nat × Nat) := .empty
  asked : List Asked := []

/-- What the host answers to an export: the number of the file of the memory, if it has one,
the one under which the driver shares it, and the result of `dup`. -/
structure ExportAnswers where
  memFd : Nat := 0
  shared : Option Nat := none
  dup : Option Nat := none
deriving DecidableEq, Repr

namespace Pointers

/-- A process that has opened the library once. -/
def new (sp : AddressSpace) (pid : Nat) : Pointers where
  mem := .new sp pid

/-- `size_requested` of an entry -/
def sizeRequested (s : Pointers) (e : Allocation) : Nat :=
  if e.userptr then (s.userSize.find? e.handle).getD 0 else e.size

/-- `dmabuf_fd` of the entry at an address, if it is not -1 -/
def fd? (s : Pointers) (addr : Nat) (e : Allocation) : Option Nat :=
  (s.dmabufFd.find? addr).bind fun r => if r.1 = e.handle then some r.2 else none

/-- `hsaKmtQueryPointerInfo` -/
def queryPointerInfo (s : Pointers) (p : Nat) : Except Fault (Status × Option PointerInfo) :=
  if s.mem.core.isOpen = false then .ok (.kernelIoChannelNotOpened, none)
  else if p = 0 then .ok (.invalidParameter, none)
  else
    match s.mem.core.allocationMap.floor? p with
    | none => .ok (.error, none)
    | some (addr, e) =>
        if p < u64 (addr + s.sizeRequested e) then
          if e.userptr then
            .ok (.success, some ⟨.registeredUser, e.size, e.cpuAddr, e.gpuAddr⟩)
          else
            match s.mem.core.objects.find? e.handle with
            | none => .error .useAfterDelete
            | some mem =>
                if mem.flags.isVirtual then
                  .ok (.success, some ⟨.reservedAddr, 0, e.cpuAddr, e.gpuAddr⟩)
                else
                  .ok (.success,
                    some ⟨.allocated, s.sizeRequested e, e.cpuAddr, e.gpuAddr⟩)
        else .ok (.error, none)

/-- `ExportPhysicalHandle` -/
def exportPhysicalHandle (mem : GpuMemory) (x : ExportAnswers) : Option Nat :=
  if mem.memFd then some x.memFd else if mem.flags.isShared then x.shared else none

/-- `hsaKmtExportDMABufHandle`: the number that `dup` returns, and the offset. -/
def exportDMABufHandle (s : Pointers) (p : Nat) (x : ExportAnswers) :
    Except Fault (Status × Option Nat × Nat × Pointers) :=
  if s.mem.core.isOpen = false then .ok (.kernelIoChannelNotOpened, none, 0, s)
  else
    match s.mem.core.allocationMap.floor? p with
    | none => .ok (.error, none, 0, s)
    | some (addr, e) =>
        match s.fd? addr e with
        | some _ => .ok (.success, x.dup, sub64 p e.gpuAddr, s)
        | none =>
            match s.mem.core.objects.find? e.handle with
            | none => .error .useAfterDelete
            | some mem =>
                match exportPhysicalHandle mem x with
                | none => .ok (.error, none, 0, s)
                | some fd =>
                    .ok (.success, x.dup, sub64 p e.gpuAddr,
                      { s with dmabufFd := s.dmabufFd.insert addr (e.handle, fd) })

/-! ## The calls -/

/-- `hsaKmtAllocMemory`: the range that it returns is the client's. -/
def allocMemory (cfg : Config) (s : Pointers) (node size : Nat) (flags : HsaMemFlags)
    (addr : Nat) (ans : AllocAnswers) : Except Fault Pointers :=
  (s.mem.allocMemory cfg node size flags addr ans).map fun (status, p, m) =>
    if status = .success then { s with mem := m, asked := ⟨p, size⟩ :: s.asked }
    else { s with mem := m }

/-- `hsaKmtMapMemoryToGPUNodes`: a new user pointer has its range and the one at which the
devices see it; a user pointer that is there is asked for again. -/
def mapMemoryToGPUNodes (cfg : Config) (s : Pointers) (addr size node : Nat) (a : Answers) :
    Except Fault Pointers :=
  (s.mem.mapMemoryToGPUNodes cfg addr size node a).map fun (status, alternate, m) =>
    if status = .success then
      match s.mem.mapExisting addr size a with
      | .ok none =>
          { s with
            mem := m
            userSize := s.userSize.insert s.mem.core.nextHandle size
            asked := ⟨addr, size⟩ :: ⟨alternate.getD 0, size⟩ :: s.asked }
      | _ =>
          if (s.mem.mappedUserptr addr size).isSome then
            { s with mem := m, asked := ⟨addr, size⟩ :: s.asked }
          else { s with mem := m }
    else { s with mem := m }

/-- `hsaKmtFreeMemory`: what begins there is given back. -/
def freeMemory (cfg : Config) (s : Pointers) (addr : Nat) : Except Fault Pointers :=
  (s.mem.freeMemory cfg addr).map fun (status, m) =>
    if status = .success then
      { s with mem := m, asked := s.asked.filter fun r => r.base ≠ addr }
    else { s with mem := m }

end Pointers

/-- The calls that change what an address stands for. -/
inductive PointerCall where
  | allocMemory (node size : Nat) (flags : HsaMemFlags) (addr : Nat) (ans : AllocAnswers)
  | mapMemoryToGPUNodes (addr size node : Nat) (a : Answers)
  | freeMemory (addr : Nat)
  | exportDMABufHandle (p : Nat) (x : ExportAnswers)

namespace Pointers

/-- The state after a call. -/
def call (cfg : Config) (s : Pointers) : PointerCall → Except Fault Pointers
  | .allocMemory node size flags addr ans => s.allocMemory cfg node size flags addr ans
  | .mapMemoryToGPUNodes addr size node a => s.mapMemoryToGPUNodes cfg addr size node a
  | .freeMemory addr => s.freeMemory cfg addr
  | .exportDMABufHandle p x => (s.exportDMABufHandle p x).map fun r => r.2.2.2

/-- A call that returns. -/
def step (cfg : Config) (s : Pointers) (e : PointerCall) : Option Pointers :=
  (s.call cfg e).toOption

/-! ## What an address is to be found in -/

/-- The address lies in a range that the client has asked for. -/
def Covers (s : Pointers) (p : Nat) : Prop := ∃ r ∈ s.asked, r.Mem p

instance (s : Pointers) (p : Nat) : Decidable (s.Covers p) :=
  inferInstanceAs (Decidable (∃ r ∈ s.asked, r.Mem p))

/-- The address lies before all ranges that the client has asked for. -/
def Below (s : Pointers) (p : Nat) : Prop := ∀ r ∈ s.asked, p < r.base

instance (s : Pointers) (p : Nat) : Decidable (s.Below p) :=
  inferInstanceAs (Decidable (∀ r ∈ s.asked, p < r.base))

/-- A query finds exactly the addresses of the ranges, and reports one that the address lies
in. -/
structure Owns (s : Pointers) (p : Nat) : Prop where
  found : (∃ info, s.queryPointerInfo p = .ok (.success, some info)) ↔ s.Covers p
  owner : ∀ {info}, s.queryPointerInfo p = .ok (.success, some info) →
    ∃ r ∈ s.asked, r.Mem p ∧ r.size = info.sizeInBytes ∧
      (r.base = info.cpuAddress ∨ r.base = info.gpuAddress)

/-- An export succeeds only inside the allocation whose descriptor it is, and with the offset
in it. -/
def Exports (s : Pointers) (p : Nat) : Prop :=
  ∀ x fd offset s', s.exportDMABufHandle p x = .ok (.success, fd, offset, s') →
    ∃ r ∈ s.asked, ∃ e, s.mem.core.allocationMap.find? r.base = some e ∧
      (s'.fd? r.base e).isSome ∧ r.Mem p ∧ offset = p - r.base ∧ offset < r.size

/-! ## The calls that keep it so -/

/-- The lengths of the entries. -/
def lengths (s : Pointers) : OrdMap Nat := s.mem.core.allocationMap.mapVal Allocation.size

/-- The range lies outside what the library reserves for itself. -/
def Outside (sp : AddressSpace) (addr size : Nat) : Prop :=
  ∀ k, addr + size ≤ (sp.range k).start ∨ (sp.range k).start + (sp.range k).size ≤ addr

instance (sp : AddressSpace) (addr size : Nat) : Decidable (Outside sp addr size) :=
  decidable_of_iff (∀ k ∈ [Heap.localHeap, .systemHeap, .handleAperture],
      addr + size ≤ (sp.range k).start ∨ (sp.range k).start + (sp.range k).size ≤ addr) <| by
    constructor
    · intro h k
      exact h k (by cases k <;> simp)
    · exact fun h k _ => h k

/-- Whole pages of the user's own memory, so that the nearest start still covers every address
that is covered. -/
def UserPages (sp : AddressSpace) (s : Pointers) (addr size : Nat) : Prop :=
  addr % 4096 = 0 ∧ size % 4096 = 0 ∧ addr + size < 2 ^ 64 ∧ Outside sp addr size ∧
    Stacked (s.lengths.insert addr size)

instance (sp : AddressSpace) (s : Pointers) (addr size : Nat) :
    Decidable (UserPages sp s addr size) :=
  inferInstanceAs (Decidable (_ ∧ _))

/-- The request is for memory, not for addresses alone, and the sub-allocator does not serve
it. -/
def OwnObject (cfg : Config) (m : Memory) (args : AllocArgs) (ans : AllocAnswers) : Prop :=
  ∀ r ∈ (allocInfo cfg args ans.ram).toOption, r.2.1.flags.virtualAlloc = false ∧
    (subAllocates cfg r.2.1 r.2.2 = true →
      ∀ q ∈ (m.subAlloc cfg args.sizeInBytes ans).toOption, q.1 = 0)

instance (cfg : Config) (m : Memory) (args : AllocArgs) (ans : AllocAnswers) :
    Decidable (OwnObject cfg m args ans) :=
  inferInstanceAs (Decidable (∀ r ∈ (allocInfo cfg args ans.ram).toOption, _ ∧ (_ → _)))

/-- The calls after which the nearest entry is the one an address belongs to: memory comes as
an object of its own, a new user pointer is one of whole pages of the user's memory, and a user
pointer is freed only under its last entry.  An export changes nothing that they look at. -/
def Regular (cfg : Config) (sp : AddressSpace) (s : Pointers) : PointerCall → Prop
  | .allocMemory node size flags addr ans =>
      size < 2 ^ 64 ∧ AllocRegular cfg s.mem ⟨node, size, 0, flags, addr⟩ ans ∧
        OwnObject cfg s.mem ⟨node, size, 0, flags, addr⟩ ans
  | .mapMemoryToGPUNodes addr size node a =>
      ∀ r ∈ (s.mem.mapExisting addr size a).toOption, r = none →
        ∀ dev ∈ cfg.getWddmdev node, UserPages sp s addr size ∧
          (describe dev (userptrInfo addr size)).Fits s.mem.core.heaps 0 0
  | .freeMemory addr =>
      ∀ e ∈ s.mem.core.allocationMap.find? addr, e.userptr = true → s.mem.core.Alone addr
  | .exportDMABufHandle _ _ => True

instance (cfg : Config) (sp : AddressSpace) (s : Pointers) :
    (e : PointerCall) → Decidable (Regular cfg sp s e)
  | .allocMemory .. => inferInstanceAs (Decidable (_ ∧ _ ∧ _))
  | .mapMemoryToGPUNodes addr size node a =>
      inferInstanceAs (Decidable (∀ r ∈ (s.mem.mapExisting addr size a).toOption, r = none →
        ∀ dev ∈ cfg.getWddmdev node, UserPages sp s addr size ∧
          (describe dev (userptrInfo addr size)).Fits s.mem.core.heaps 0 0))
  | .freeMemory addr =>
      inferInstanceAs (Decidable (∀ e ∈ s.mem.core.allocationMap.find? addr,
        e.userptr = true → s.mem.core.Alone addr))
  | .exportDMABufHandle _ _ => inferInstanceAs (Decidable True)

end Pointers

end RocDxg
