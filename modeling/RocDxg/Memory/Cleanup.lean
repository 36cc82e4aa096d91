import RocDxg.Lib.Ledger
import RocDxg.Memory.FailedReservation

/-!
# What a creation takes and gives back

`WDDMDevice::CreateGpuMemory` with the physical side of its objects: `CreatePhysicalMemory`,
`FreePhysicalMemory`, and the allocations that `ImportPhysicalHandle` opens.  The calls that
take something, and those that give something back, are recorded in their order.

Whatever fails, `CreateGpuMemory` deletes the object, so that the destructor has the last word:
it gives back what the object records (`HeldMemory.destroy_calls`).  A guard in `Init` and in
the import has then given back the range already, but the object still records it, unlike the
allocations.  Other records say too much as well, or too little: more than one chunk without
allocations, the descriptor of a file without a range, an opened resource that is not stored.
`released_once_iff` says when the records are right.

The assertion of `CreatePhysicalMemory` on the number of chunks is left out.
-/

namespace RocDxg

open Lib (Balanced settle)

/-- What an object takes. -/
inductive Taken where
  /-- By `ReserveGpuVirtualAddress` of the runtime. -/
  | range (domain : AllocDomain) (addr : Nat)
  /-- By `ReserveIPCSysMem`. -/
  | file (addr : Nat)
  /-- By `HandleApertureAlloc`. -/
  | handle (addr : Nat)
  /-- By `CreateAllocation` or `OpenResourceFromNtHandle`: a resource and its allocations. -/
  | allocations (resource : Nat) (handles : List Nat)
deriving DecidableEq, Repr

/-- The handles that the driver gives out, none of which is zero. -/
structure DriverHandles where
  /-- `hAllocation` of every chunk -/
  hAllocation : Nat → Nat
  /-- `hResource` of `CreateAllocation`, which is set for shared objects only -/
  hResource : Nat
  /-- `hResource` of `OpenResourceFromNtHandle` -/
  openedResource : Nat
  /-- `NumAllocations` of `QueryResourceInfoFromNtHandle` -/
  openedAllocations : Nat
  hAllocation_ne : ∀ i, hAllocation i ≠ 0
  openedResource_ne : openedResource ≠ 0

/-- The first handles of the driver. -/
def DriverHandles.first (d : DriverHandles) (n : Nat) : List Nat := (List.range n).map d.hAllocation

/-- A `GpuMemory` with its physical side. -/
structure HeldMemory where
  mem : GpuMemory
  numAllocations : Nat := 0
  /-- What `alloc_handles_ptr_` points to, if it is not null. -/
  allocHandles : Option (List Nat) := none
  resource : Nat := 0
deriving DecidableEq, Repr

namespace HeldMemory

/-- `ReserveGpuVirtualAddress` -/
def reserveGpuVirtualAddress (b : HeldMemory) (hs : Heaps) (baseVirtAddr size alignment : Nat)
    (a : Answers) : Option (ErrorCode × HeldMemory × Heaps × List (Lib.Event Taken)) :=
  (b.mem.reserveGpuVirtualAddress hs baseVirtAddr size alignment a).map fun (code, mem, hs) =>
    (code, { b with mem := mem }, hs,
      if code ≠ .success then []
      else if b.mem.isFile then [.acquire (.file mem.gpuAddr)]
      else [.acquire (.range mem.domain mem.gpuAddr)])

/-- `FreeGpuVirtualAddress` -/
def freeGpuVirtualAddress (b : HeldMemory) (hs : Heaps) (decommit : Bool) :
    HeldMemory × Heaps × List (Lib.Event Taken) :=
  ({ b with mem := (b.mem.freeGpuVirtualAddress hs decommit).1 },
    (b.mem.freeGpuVirtualAddress hs decommit).2,
    if b.mem.memFd then [.release (.file b.mem.gpuAddr)]
    else if b.mem.gpuAddr ≠ 0 then [.release (.range b.mem.domain b.mem.gpuAddr)]
    else [])

/-- A place in the handle aperture. -/
def takeHandle (b : HeldMemory) (hs : Heaps) :
    Option (ErrorCode × HeldMemory × Heaps × List (Lib.Event Taken)) :=
  (b.mem.takeHandle hs).map fun (code, mem, hs) =>
    (code, { b with mem := mem }, hs,
      if code ≠ .success then [] else [.acquire (.handle mem.handleApeAddr)])

/-- The number of chunks, and room for their handles. -/
def makeRoom (b : HeldMemory) : HeldMemory :=
  let n := calcChunkNumbers b.mem.size
  { b with numAllocations := n, allocHandles := some (List.replicate n 0) }

/-- `CreatePhysicalMemory` -/
def createPhysicalMemory (b : HeldMemory) (a : Answers) (d : DriverHandles) :
    ErrorCode × HeldMemory × List (Lib.Event Taken) :=
  if a.createPhysicalMemory = .success then
    let handles := d.first b.numAllocations
    (.success, { b with allocHandles := some handles, resource := d.hResource },
      [.acquire (.allocations d.hResource handles)])
  else (a.createPhysicalMemory, b, [])

/-- `FreePhysicalMemory` -/
def freePhysicalMemory (b : HeldMemory) : HeldMemory × List (Lib.Event Taken) :=
  match b.allocHandles with
  | none => (b, [])
  | some handles =>
      if b.numAllocations = 1 ∧ handles.headD 0 = 0 then (b, [])
      else
        ({ b with allocHandles := none },
          [.release (.allocations b.resource (handles.take b.numAllocations))])

/-- The destructor. -/
def destroy (b : HeldMemory) (hs : Heaps) : Heaps × List (Lib.Event Taken) :=
  let (b, hs, ranges) := b.freeGpuVirtualAddress hs true
  let (b, allocations) := b.freePhysicalMemory
  if b.mem.handleApeAddr > 0 then
    (hs.handleApertureFree b.mem.handleApeAddr,
      ranges ++ allocations ++ [.release (.handle b.mem.handleApeAddr)])
  else (hs, ranges ++ allocations)

/-- The end of `Init` and of the import of a shared file: back the range, or let the guard
give it back. -/
def back (b : HeldMemory) (hs : Heaps) (a : Answers) (d : DriverHandles) :
    ErrorCode × HeldMemory × Heaps × List (Lib.Event Taken) :=
  let (code, b, created) := b.createPhysicalMemory a d
  if a.backing = .success then (.success, b, hs, created)
  else
    let (b, allocations) := if code = .success then b.freePhysicalMemory else (b, [])
    let (b, hs, ranges) := b.freeGpuVirtualAddress hs a.decommit
    (a.backing, b, hs, created ++ allocations ++ ranges)

/-- `Init` -/
def init (dev : SharedDevice) (hs : Heaps) (info : GpuMemoryCreateInfo) (a : Answers)
    (d : DriverHandles) : Option (ErrorCode × HeldMemory × Heaps × List (Lib.Event Taken)) :=
  let b := makeRoom { mem := GpuMemory.describe dev info }
  if b.mem.flags.isPhysicalOnly then
    let (code, b, created) := b.createPhysicalMemory a d
    if code = .success then
      (b.takeHandle hs).map fun (code, b, hs, taken) => (code, b, hs, created ++ taken)
    else some (code, b, hs, created)
  else
    (b.reserveGpuVirtualAddress hs info.vaHint b.mem.size info.alignment a).map
      fun (code, b, hs, reserved) =>
        if b.mem.flags.isVirtual ∨ code ≠ .success then (code, b, hs, reserved)
        else
          let (code, b, hs, calls) := b.back hs a d
          (code, b, hs, reserved ++ calls)

/-- The driver reports on the handle, and there is room for what it reports. -/
def Described (a : Answers) : Prop :=
  a.queryResourceInfo = .success ∧ a.runtimeDataFits = true ∧ a.calloc = true

instance (a : Answers) : Decidable (Described a) :=
  inferInstanceAs (Decidable (_ ∧ _ ∧ _))

/-- The object of a resource that is opened. -/
def opened (info : GpuMemoryCreateInfo) (a : Answers) (d : DriverHandles) : HeldMemory where
  mem := GpuMemory.describeShared info a.sharedInfo
  numAllocations := d.openedAllocations
  allocHandles := some (d.first d.openedAllocations)
  resource := d.openedResource

/-- `ImportPhysicalHandle` in the process `pid`. -/
def importPhysicalHandle (pid : Nat) (dev : SharedDevice) (hs : Heaps) (info : GpuMemoryCreateInfo)
    (a : Answers) (d : DriverHandles) :
    Option (Nat × ErrorCode × HeldMemory × Heaps × List (Lib.Event Taken)) :=
  if info.dmabufFd = none then some (0, .invalidParams, { mem := GpuMemory.blank a }, hs, [])
  else if info.flags.sysmemIpcSigImporter then
    let b : HeldMemory := { mem := GpuMemory.describeFile dev info a }
    (b.reserveGpuVirtualAddress hs info.vaHint b.mem.size info.alignment a).map
      fun (code, b, hs, reserved) =>
        if code ≠ .success then (0, code, b, hs, reserved)
        else
          let (code, b, hs, calls) := b.makeRoom.back hs a d
          (0, code, b, hs, reserved ++ calls)
  else
    -- the array is there before the resource is opened, and is not cleared
    let room := if Described a then some (List.replicate d.openedAllocations 0) else none
    let taken : List (Lib.Event Taken) :=
      if Described a ∧ a.openResource = .success then
        [.acquire (.allocations d.openedResource (d.first d.openedAllocations))]
      else []
    match GpuMemory.refusal pid info a with
    | some (p, code) => some (p, code, { mem := GpuMemory.blank a, allocHandles := room }, hs, taken)
    | none =>
        let b := opened info a d
        (if b.mem.flags.isVaRequired then
          b.reserveGpuVirtualAddress hs info.vaHint b.mem.size info.alignment a
        else b.takeHandle hs).map fun (code, b, hs, calls) => (0, code, b, hs, taken ++ calls)

/-- The end of `CreateGpuMemory`: an object that was not initialised is deleted. -/
def keepOrDelete : Nat × ErrorCode × HeldMemory × Heaps × List (Lib.Event Taken) →
    Nat × ErrorCode × Option HeldMemory × Heaps × List (Lib.Event Taken)
  | (p, code, b, hs, calls) =>
      if code = .success then (p, code, some b, hs, calls)
      else
        let (hs, released) := b.destroy hs
        (p, code, none, hs, calls ++ released)

/-- `CreateGpuMemory` in the process `pid`, with its calls. -/
def createGpuMemory (pid : Nat) (dev : SharedDevice) (hs : Heaps) (info : GpuMemoryCreateInfo)
    (a : Answers) (d : DriverHandles) :
    Option (Nat × ErrorCode × Option HeldMemory × Heaps × List (Lib.Event Taken)) :=
  if info.dmabufFd.isSome then (importPhysicalHandle pid dev hs info a d).map keepOrDelete
  else (init dev hs info a d).map fun r => keepOrDelete (0, r)

/-- The calls of the destructor, if there is an object. -/
def deleteCalls (object : Option HeldMemory) (hs : Heaps) : List (Lib.Event Taken) :=
  match object with
  | none => []
  | some b => (b.destroy hs).2

variable {b b' : HeldMemory} {hs hs' : Heaps} {a : Answers} {d : DriverHandles} {code : ErrorCode}
  {calls : List (Lib.Event Taken)} {dev : SharedDevice} {info : GpuMemoryCreateInfo} {pid p : Nat}

/-! ## Without the calls -/

/-- The objects as `GpuMemory` has them. -/
def erase (r : ErrorCode × HeldMemory × Heaps × List (Lib.Event Taken)) : ErrorCode × GpuMemory × Heaps :=
  (r.1, r.2.1.mem, r.2.2.1)

theorem reserveGpuVirtualAddress_erase (b : HeldMemory) (hs : Heaps) (base size alignment : Nat)
    (a : Answers) :
    (b.reserveGpuVirtualAddress hs base size alignment a).map erase =
      b.mem.reserveGpuVirtualAddress hs base size alignment a := by
  rw [reserveGpuVirtualAddress, Option.map_map]
  exact Option.map_id'

theorem takeHandle_erase (b : HeldMemory) (hs : Heaps) :
    (b.takeHandle hs).map erase = b.mem.takeHandle hs := by
  rw [takeHandle, Option.map_map]
  exact Option.map_id'

theorem freePhysicalMemory_mem (b : HeldMemory) : b.freePhysicalMemory.1.mem = b.mem := by
  rw [freePhysicalMemory]
  split
  next => rfl
  next => split <;> rfl

theorem createPhysicalMemory_mem (b : HeldMemory) (a : Answers) (d : DriverHandles) :
    (b.createPhysicalMemory a d).2.1.mem = b.mem ∧
      (b.createPhysicalMemory a d).1 = a.createPhysicalMemory := by
  rw [createPhysicalMemory]
  split
  next h => exact ⟨rfl, h.symm⟩
  next => exact ⟨rfl, rfl⟩

/-- The range stays on record. -/
theorem freeGpuVirtualAddress_fields (b : HeldMemory) (hs : Heaps) (decommit : Bool) :
    ∃ fd, (b.freeGpuVirtualAddress hs decommit).1 = { b with mem := { b.mem with memFd := fd } } := by
  simp only [freeGpuVirtualAddress, GpuMemory.freeGpuVirtualAddress]
  split
  next => exact ⟨_, rfl⟩
  next => split <;> exact ⟨_, rfl⟩

/-- The place in the handle aperture is still that of the object. -/
theorem destroy_handle (b : HeldMemory) (hs : Heaps) :
    (b.freeGpuVirtualAddress hs true).1.freePhysicalMemory.1.mem.handleApeAddr =
      b.mem.handleApeAddr := by
  obtain ⟨fd, hfields⟩ := freeGpuVirtualAddress_fields b hs true
  rw [freePhysicalMemory_mem, hfields]

theorem destroy_erase (b : HeldMemory) (hs : Heaps) : (b.destroy hs).1 = b.mem.destroy hs := by
  simp only [destroy, GpuMemory.destroy, destroy_handle]
  split <;> rfl

theorem back_erase (b : HeldMemory) (hs : Heaps) (a : Answers) (d : DriverHandles) :
    erase (b.back hs a d) = b.mem.back hs a := by
  obtain ⟨hmem, hcode⟩ := createPhysicalMemory_mem b a d
  simp only [back, GpuMemory.back, hcode]
  by_cases hbacking : a.backing = .success
  · simp only [if_pos hbacking, erase, hmem]
  · simp only [if_neg hbacking, erase]
    split
    next => simp only [freeGpuVirtualAddress, freePhysicalMemory_mem, hmem]
    next => simp only [freeGpuVirtualAddress, hmem]

theorem init_erase : (init dev hs info a d).map erase = GpuMemory.init dev hs info a := by
  have hmem : (makeRoom { mem := GpuMemory.describe dev info }).mem = GpuMemory.describe dev info :=
    rfl
  obtain ⟨hcreated, hcode⟩ :=
    createPhysicalMemory_mem (makeRoom { mem := GpuMemory.describe dev info }) a d
  have htake := takeHandle_erase
    ((makeRoom { mem := GpuMemory.describe dev info }).createPhysicalMemory a d).2.1 hs
  have hreserve := reserveGpuVirtualAddress_erase (makeRoom { mem := GpuMemory.describe dev info })
    hs info.vaHint (GpuMemory.describe dev info).size info.alignment a
  rw [hcreated, hmem] at htake
  rw [hmem] at hreserve
  simp only [init, GpuMemory.init, hmem, hcode]
  split
  next =>
    split
    next =>
      rw [← htake, Option.map_map]
      rfl
    next => rw [Option.map_some, erase, hcreated, hmem]
  next =>
    rw [← hreserve, Option.map_map, Option.map_map]
    refine congrArg (Option.map · _) (funext fun r => ?_)
    obtain ⟨code, b, hs, reserved⟩ := r
    by_cases hstop : b.mem.flags.isVirtual = true ∨ code ≠ .success
    · simp only [Function.comp_apply, if_pos hstop]
      exact (if_pos hstop).symm
    · simp only [Function.comp_apply, if_neg hstop]
      exact (back_erase b hs a d).trans (if_neg hstop).symm

/-- What the import opens is set aside as well. -/
theorem importPhysicalHandle_erase :
    (importPhysicalHandle pid dev hs info a d).map (fun r => (r.1, erase r.2)) =
      GpuMemory.importPhysicalHandle pid dev hs info a := by
  rw [importPhysicalHandle, GpuMemory.importPhysicalHandle]
  split
  next => rfl
  next =>
    split
    next =>
      have hreserve := reserveGpuVirtualAddress_erase { mem := GpuMemory.describeFile dev info a }
        hs info.vaHint (GpuMemory.describeFile dev info a).size info.alignment a
      simp only at hreserve ⊢
      rw [← hreserve, Option.map_map, Option.map_map]
      refine congrArg (Option.map · _) (funext fun r => ?_)
      obtain ⟨code, b, hs, reserved⟩ := r
      by_cases hcode : code ≠ .success
      · simp only [Function.comp_apply, if_pos hcode]
        exact congrArg (Prod.mk 0) (if_pos hcode).symm
      · simp only [Function.comp_apply, if_neg hcode]
        exact congrArg (Prod.mk 0) ((back_erase b.makeRoom hs a d).trans (if_neg hcode).symm)
    next =>
      cases GpuMemory.refusal pid info a with
      | some r => rfl
      | none =>
          have hreserve := reserveGpuVirtualAddress_erase (opened info a d) hs info.vaHint
            (GpuMemory.describeShared info a.sharedInfo).size info.alignment a
          have htake := takeHandle_erase (opened info a d) hs
          have hmem : (opened info a d).mem = GpuMemory.describeShared info a.sharedInfo := rfl
          rw [hmem] at hreserve htake
          simp only [hmem]
          by_cases hva : (GpuMemory.describeShared info a.sharedInfo).flags.isVaRequired = true
          · simp only [if_pos hva]
            rw [← hreserve, Option.map_map, Option.map_map]
            rfl
          · simp only [if_neg hva]
            rw [← htake, Option.map_map, Option.map_map]
            rfl

theorem keepOrDelete_erase (r : Nat × ErrorCode × HeldMemory × Heaps × List (Lib.Event Taken)) :
    ((keepOrDelete r).1, (keepOrDelete r).2.1, (keepOrDelete r).2.2.1.map HeldMemory.mem,
      (keepOrDelete r).2.2.2.1) = RocDxg.keepOrDelete (r.1, erase r.2) := by
  obtain ⟨p, code, b, hs, calls⟩ := r
  rw [keepOrDelete, RocDxg.keepOrDelete, erase]
  by_cases hcode : code = .success
  · simp only [if_pos hcode, Option.map_some]
  · simp only [if_neg hcode, Option.map_none, destroy_erase]

/-- The calls aside, this is `CreateGpuMemory` of the memory objects. -/
theorem createGpuMemory_erase :
    (createGpuMemory pid dev hs info a d).map
        (fun r => (r.1, r.2.1, r.2.2.1.map HeldMemory.mem, r.2.2.2.1)) =
      RocDxg.createGpuMemory pid dev hs info a := by
  rw [createGpuMemory, RocDxg.createGpuMemory]
  split
  next =>
    rw [← importPhysicalHandle_erase (d := d), Option.map_map, Option.map_map]
    exact congrArg (Option.map · _) (funext keepOrDelete_erase)
  next =>
    rw [← init_erase (d := d), Option.map_map, Option.map_map]
    exact congrArg (Option.map · _) (funext fun r => keepOrDelete_erase (0, r))

/-! ## What the object records -/

/-- The range that the destructor gives back. -/
def heldRange (b : HeldMemory) : List Taken :=
  if b.mem.memFd then [.file b.mem.gpuAddr]
  else if b.mem.gpuAddr ≠ 0 then [.range b.mem.domain b.mem.gpuAddr]
  else []

/-- The allocations that it destroys. -/
def heldAllocations (b : HeldMemory) : List Taken :=
  match b.allocHandles with
  | none => []
  | some handles =>
      if b.numAllocations = 1 ∧ handles.headD 0 = 0 then []
      else [.allocations b.resource (handles.take b.numAllocations)]

/-- The place in the handle aperture that it gives back. -/
def heldHandle (b : HeldMemory) : List Taken :=
  if b.mem.handleApeAddr > 0 then [.handle b.mem.handleApeAddr] else []

def held (b : HeldMemory) : List Taken := b.heldRange ++ b.heldAllocations ++ b.heldHandle

theorem freeGpuVirtualAddress_calls (b : HeldMemory) (hs : Heaps) (decommit : Bool) :
    (b.freeGpuVirtualAddress hs decommit).2.2 = b.heldRange.map .release := by
  simp only [freeGpuVirtualAddress, heldRange]
  split
  next => rfl
  next => split <;> rfl

theorem freePhysicalMemory_calls (b : HeldMemory) :
    b.freePhysicalMemory.2 = b.heldAllocations.map .release := by
  rw [freePhysicalMemory, heldAllocations]
  split
  next => rfl
  next => split <;> rfl

/-- The destructor gives back what the object records. -/
theorem destroy_calls (b : HeldMemory) (hs : Heaps) :
    (b.destroy hs).2 = b.held.map .release := by
  obtain ⟨fd, hfields⟩ := freeGpuVirtualAddress_fields b hs true
  have hranges := freeGpuVirtualAddress_calls b hs true
  have hallocations : (b.freeGpuVirtualAddress hs true).1.freePhysicalMemory.2 =
      b.heldAllocations.map .release := by
    rw [hfields]
    exact freePhysicalMemory_calls _
  simp only [destroy, hranges, hallocations, destroy_handle, held, heldHandle, List.map_append]
  split
  next => rfl
  next => rw [List.map_nil, List.append_nil]

/-! ## The steps -/

theorem length_first (d : DriverHandles) (n : Nat) : (d.first n).length = n := by
  rw [DriverHandles.first, List.length_map, List.length_range]

/-- The handles of the driver are all on record. -/
theorem heldAllocations_first (h : b.allocHandles = some (d.first b.numAllocations)) :
    b.heldAllocations = [.allocations b.resource (d.first b.numAllocations)] := by
  have hne : ¬ (b.numAllocations = 1 ∧ (d.first b.numAllocations).headD 0 = 0) := by
    rintro ⟨hone, hzero⟩
    rw [hone] at hzero
    exact d.hAllocation_ne 0 hzero
  simp only [heldAllocations, h, if_neg hne]
  rw [List.take_of_length_le (Nat.le_of_eq (length_first ..))]

/-- Handles that are zero are only overlooked if there is one of them. -/
theorem heldAllocations_zeros (h : b.allocHandles = some (List.replicate b.numAllocations 0)) :
    b.heldAllocations = [] ↔ b.numAllocations = 1 := by
  simp only [heldAllocations, h]
  by_cases hone : b.numAllocations = 1
  · simp [hone]
  · simp [hone]

theorem heldAllocations_makeRoom (b : HeldMemory) :
    b.makeRoom.heldAllocations = [] ↔ calcChunkNumbers b.mem.size = 1 :=
  heldAllocations_zeros rfl

/-- The address that the manager of the object returns. -/
def allocated (mem : GpuMemory) (hs : Heaps) (hint alignment : Nat) : Option Nat :=
  if mem.isFile then (hs.systemHeapMgr.alloc mem.size mem.alignment 0).map Prod.fst
  else hs.allocated mem.domain hint mem.size alignment

/-- There is room for the range, and memory of the host to back it. -/
def Served (mem : GpuMemory) (hs : Heaps) (hint alignment : Nat) (a : Answers) : Prop :=
  allocated mem hs hint alignment ≠ some 0 ∧ (mem.domain = .kSystem → a.commit = true)

instance (mem : GpuMemory) (hs : Heaps) (hint alignment : Nat) (a : Answers) :
    Decidable (Served mem hs hint alignment a) :=
  inferInstanceAs (Decidable (_ ∧ _))

/-- An object with a range. -/
def withRange (b : HeldMemory) (p : Nat) : HeldMemory :=
  { b with mem := { b.mem with gpuAddr := p, memFd := b.mem.isFile || b.mem.memFd } }

/-- What a range at an address is taken as. -/
def rangeAt (mem : GpuMemory) (p : Nat) : Taken :=
  if mem.isFile then .file p else .range mem.domain p

/-- A file is reserved where the manager of the system heap has room and the file is made. -/
theorem reserveIPCSysMem_code {size alignment p : Nat} {commit : Bool}
    (h : hs.reserveIPCSysMem size alignment commit = some (code, p, hs')) :
    ∃ q, (hs.systemHeapMgr.alloc size alignment 0).map Prod.fst = some q ∧
      (code = .success ↔ q ≠ 0 ∧ commit = true) ∧ (code = .success → p = q) := by
  obtain ⟨⟨q, m⟩, halloc, heq⟩ := Option.map_eq_some_iff.mp h
  refine ⟨q, by rw [halloc, Option.map_some], ?_⟩
  simp only at heq
  split at heq
  next hq =>
    cases heq
    simp [hq]
  next hq =>
    split at heq
    next hcommit =>
      cases heq
      simp [hq, hcommit]
    next hcommit =>
      cases heq
      simp [hcommit]

/-- A range is reserved where its manager has room and the range is committed. -/
theorem heaps_reserve_code {domain : AllocDomain} {hint size alignment p : Nat} {commit : Bool}
    (h : hs.reserveGpuVirtualAddress domain hint size alignment commit = some (code, p, hs')) :
    ∃ q, hs.allocated domain hint size alignment = some q ∧
      (code = .success ↔ q ≠ 0 ∧ (domain = .kSystem → commit = true)) ∧
      (code = .success → p = q) := by
  rw [Heaps.reserveGpuVirtualAddress] at h
  split at h
  next hdomain =>
    subst hdomain
    obtain ⟨⟨q, m⟩, halloc, heq⟩ := Option.map_eq_some_iff.mp h
    refine ⟨q, congrArg (Option.map Prod.fst) halloc, ?_⟩
    simp only at heq
    split at heq
    next hcommit =>
      cases heq
      by_cases hp : p = 0 <;> simp [hp, hcommit]
    next hcommit =>
      cases heq
      simp [hcommit]
  next hdomain =>
    obtain ⟨⟨q, m⟩, halloc, heq⟩ := Option.map_eq_some_iff.mp h
    have hallocated : hs.allocated domain hint size alignment = some q := by
      rw [Heaps.allocated, Heaps.domainHeap, if_neg hdomain]
      exact congrArg (Option.map Prod.fst) halloc
    refine ⟨q, hallocated, ?_⟩
    cases heq
    by_cases hp : p = 0 <;> simp [hp, hdomain]

/-- The reservation of an object, with the address of its manager. -/
theorem mem_reserve_code {mem mem' : GpuMemory} {hint alignment : Nat}
    (h : mem.reserveGpuVirtualAddress hs hint mem.size alignment a = some (code, mem', hs')) :
    (code = .success ↔ Served mem hs hint alignment a) ∧
      (code ≠ .success → mem' = mem) ∧
      (code = .success → ∃ p, p ≠ 0 ∧
        mem' = { mem with gpuAddr := p, memFd := mem.isFile || mem.memFd }) := by
  rw [GpuMemory.reserveGpuVirtualAddress] at h
  by_cases hfile : mem.isFile = true
  · have hdomain : mem.domain = .kSystem := by
      rw [GpuMemory.isFile, Bool.and_eq_true] at hfile
      exact of_decide_eq_true hfile.2
    rw [if_pos hfile] at h
    obtain ⟨⟨code₁, p, hs₁⟩, hreserve, heq⟩ := Option.map_eq_some_iff.mp h
    cases heq
    obtain ⟨q, halloc, hcode, hp⟩ := reserveIPCSysMem_code hreserve
    have hserved : code = .success ↔ Served mem hs hint alignment a := by
      rw [hcode, Served, allocated, if_pos hfile, halloc]
      simp [hdomain]
    refine ⟨hserved, fun hne => if_neg hne, fun heq => ⟨p, ?_, ?_⟩⟩
    · rw [hp heq]
      exact (hcode.mp heq).1
    · rw [if_pos heq, hfile, Bool.true_or]
  · rw [if_neg hfile] at h
    obtain ⟨⟨code₁, p, hs₁⟩, hreserve, heq⟩ := Option.map_eq_some_iff.mp h
    cases heq
    obtain ⟨q, halloc, hcode, hp⟩ := heaps_reserve_code hreserve
    have hserved : code = .success ↔ Served mem hs hint alignment a := by
      rw [hcode, Served, allocated, if_neg hfile, halloc]
      simp
    refine ⟨hserved, fun hne => if_neg hne, fun heq => ⟨p, ?_, ?_⟩⟩
    · rw [hp heq]
      exact (hcode.mp heq).1
    · rw [if_pos heq, Bool.eq_false_iff.mpr hfile, Bool.false_or]

/-- A reservation takes a range and records it, or does nothing. -/
theorem reserve_cases {hint alignment : Nat}
    (h : b.reserveGpuVirtualAddress hs hint b.mem.size alignment a = some (code, b', hs', calls)) :
    (¬ Served b.mem hs hint alignment a ∧ code ≠ .success ∧ b' = b ∧ calls = []) ∨
      (Served b.mem hs hint alignment a ∧ code = .success ∧
        ∃ p, p ≠ 0 ∧ b' = b.withRange p ∧ calls = [.acquire (rangeAt b.mem p)]) := by
  obtain ⟨⟨code₁, mem, hs₁⟩, hreserve, heq⟩ := Option.map_eq_some_iff.mp h
  obtain ⟨hserved, hrefused, hmade⟩ := mem_reserve_code hreserve
  cases heq
  by_cases hcode : code = .success
  · obtain ⟨p, hp, rfl⟩ := hmade hcode
    refine Or.inr ⟨hserved.mp hcode, hcode, p, hp, rfl, ?_⟩
    rw [if_neg (not_not.mpr hcode), rangeAt]
    split <;> rfl
  · refine Or.inl ⟨fun hs => hcode (hserved.mpr hs), hcode, ?_, if_pos hcode⟩
    rw [hrefused hcode]

/-- A place in the handle aperture is taken and recorded, or none is. -/
theorem takeHandle_cases (h : b.takeHandle hs = some (code, b', hs', calls)) :
    ∃ p, b' = { b with mem := { b.mem with handleApeAddr := p } } ∧
      calls = if p = 0 then [] else [.acquire (.handle p)] := by
  obtain ⟨⟨code₁, mem, hs₁⟩, htake, heq⟩ := Option.map_eq_some_iff.mp h
  obtain ⟨⟨code₂, p, hs₂⟩, halloc, hmem⟩ := Option.map_eq_some_iff.mp htake
  obtain ⟨⟨q, m⟩, _, hcode⟩ := Option.map_eq_some_iff.mp halloc
  cases hcode
  cases hmem
  cases heq
  refine ⟨p, rfl, ?_⟩
  by_cases hp : p = 0 <;> simp [hp]

theorem heldRange_withRange {p : Nat} (hp : p ≠ 0) (hfd : b.mem.memFd = true → b.mem.isFile = true) :
    (b.withRange p).heldRange = [rangeAt b.mem p] := by
  rw [heldRange, rangeAt]
  by_cases hfile : b.mem.isFile = true
  · rw [if_pos hfile, if_pos (by rw [withRange, hfile, Bool.true_or])]
    rfl
  · have hnone : (b.withRange p).mem.memFd = false := by
      rw [withRange, Bool.eq_false_iff.mpr hfile, Bool.false_or]
      exact Bool.eq_false_iff.mpr fun h => hfile (hfd h)
    rw [hnone, if_neg Bool.false_ne_true, if_pos (show (b.withRange p).mem.gpuAddr ≠ 0 from hp),
      if_neg hfile]
    rfl

/-- An object whose range is backed. -/
def backed (b : HeldMemory) (d : DriverHandles) : HeldMemory :=
  { b with allocHandles := some (d.first b.numAllocations), resource := d.hResource }

theorem heldAllocations_backed (b : HeldMemory) (d : DriverHandles) :
    (b.backed d).heldAllocations = [.allocations d.hResource (d.first b.numAllocations)] :=
  heldAllocations_first rfl

theorem createPhysicalMemory_made (h : a.createPhysicalMemory = .success) :
    b.createPhysicalMemory a d =
      (.success, b.backed d, [.acquire (.allocations d.hResource (d.first b.numAllocations))]) :=
  if_pos h

theorem createPhysicalMemory_failed (h : a.createPhysicalMemory ≠ .success) :
    b.createPhysicalMemory a d = (a.createPhysicalMemory, b, []) :=
  if_neg h

/-- The steps that back a range begin with the allocations. -/
theorem create_of_backing (h : a.backing = .success) : a.createPhysicalMemory = .success := by
  by_contra hne
  rw [Answers.backing, if_pos hne] at h
  exact hne h

theorem back_made (h : a.backing = .success) :
    b.back hs a d =
      (.success, b.backed d, hs,
        [.acquire (.allocations d.hResource (d.first b.numAllocations))]) := by
  rw [back, createPhysicalMemory_made (create_of_backing h)]
  exact if_pos h

/-- The guard gives back what was taken, but the range stays on record. -/
theorem back_failed {x : Taken} (hs : Heaps) (d : DriverHandles) (h : a.backing ≠ .success)
    (hrange : b.heldRange = [x])
    (haddr : b.mem.gpuAddr ≠ 0) :
    settle (b.back hs a d).2.2.2 [x] = some [] ∧ (b.back hs a d).2.1.heldRange ≠ [] := by
  have hrecord : ∀ b' : HeldMemory, b'.mem = b.mem →
      ((b'.freeGpuVirtualAddress hs a.decommit).1.heldRange ≠ []) ∧
        (b'.freeGpuVirtualAddress hs a.decommit).2.2 = [.release x] := by
    intro b' hmem
    obtain ⟨fd, hfields⟩ := freeGpuVirtualAddress_fields b' hs a.decommit
    constructor
    · rw [hfields, heldRange]
      simp only [hmem, if_pos haddr]
      split <;> exact List.cons_ne_nil _ _
    · have hsame : b'.heldRange = [x] := by rw [← hrange, heldRange, hmem, heldRange]
      rw [freeGpuVirtualAddress_calls, hsame]
      rfl
  by_cases hcreate : a.createPhysicalMemory = .success
  · have hfree : (b.backed d).freePhysicalMemory.1.mem = b.mem := by
      rw [freePhysicalMemory]
      split
      next => rfl
      next => split <;> rfl
    obtain ⟨hkept, hcalls⟩ := hrecord _ hfree
    have hdestroyed := freePhysicalMemory_calls (b.backed d)
    rw [heldAllocations_backed] at hdestroyed
    simp only [back, createPhysicalMemory_made hcreate, if_neg h, if_true, hcalls, hdestroyed]
    refine ⟨?_, hkept⟩
    simp [settle]
  · obtain ⟨hkept, hcalls⟩ := hrecord b rfl
    simp only [back, createPhysicalMemory_failed hcreate, if_neg h, if_neg hcreate, hcalls]
    refine ⟨?_, hkept⟩
    simp [settle]

/-! ## When the records are right -/

/-- What `Init` has taken is what the object records. -/
def InitRight (dev : SharedDevice) (hs : Heaps) (info : GpuMemoryCreateInfo) (a : Answers) : Prop :=
  let mem := GpuMemory.describe dev info
  if info.flags.physicalOnly then
    a.createPhysicalMemory = .success ∨ calcChunkNumbers mem.size = 1
  else if info.flags.virtualAlloc ∨ ¬ Served mem hs info.vaHint info.alignment a then
    calcChunkNumbers mem.size = 1
  else a.backing = .success

/-- The import of a file leaves right records. -/
def FileRight (dev : SharedDevice) (hs : Heaps) (info : GpuMemoryCreateInfo) (a : Answers) : Prop :=
  if Served (GpuMemory.describeFile dev info a) hs info.vaHint info.alignment a then
    a.backing = .success
  else a.dup = false

/-- The import of a resource leaves right records: the resource is opened and stored, or the
driver does not report on it. -/
def ResourceRight (pid : Nat) (info : GpuMemoryCreateInfo) (a : Answers) : Prop :=
  Described a → GpuMemory.refusal pid info a = none

/-- What is held after the calls is what the object records. -/
def Recorded (calls : List (Lib.Event Taken)) (b : HeldMemory) (right : Prop) : Prop :=
  ∃ held, settle calls [] = some held ∧ (b.held.Perm held ↔ right)

theorem heldRange_makeRoom (b : HeldMemory) : b.makeRoom.heldRange = b.heldRange := by
  rw [heldRange, heldRange, makeRoom]

theorem heldHandle_makeRoom (b : HeldMemory) : b.makeRoom.heldHandle = b.heldHandle := by
  rw [heldHandle, heldHandle, makeRoom]

theorem makeRoom_records (mem : GpuMemory) (hfd : mem.memFd = false) (haddr : mem.gpuAddr = 0)
    (hhandle : mem.handleApeAddr = 0) :
    (makeRoom { mem := mem }).held = (makeRoom { mem := mem }).heldAllocations := by
  have hrange : (makeRoom { mem := mem }).heldRange = [] := by
    rw [heldRange_makeRoom, heldRange]
    simp [hfd, haddr]
  have hnone : (makeRoom { mem := mem }).heldHandle = [] := by
    rw [heldHandle_makeRoom, heldHandle]
    simp [hhandle]
  rw [held, hrange, hnone, List.nil_append, List.append_nil]

/-- Nothing is held, and the object records its allocations at most. -/
theorem nothing_recorded {b : HeldMemory} (hheld : b.held = b.heldAllocations)
    (hzeros : b.heldAllocations = [] ↔ right) : Recorded [] b right := by
  refine ⟨[], rfl, ?_⟩
  rw [hheld, List.perm_nil, hzeros]

/-- An object with its allocations and no range, and the attempt to give it a handle. -/
theorem takeHandle_records {x : Taken} {right : Prop} (hright : right)
    (hrange : b.heldRange = []) (hallocations : b.heldAllocations = [x])
    (h : b.takeHandle hs = some (code, b', hs', calls)) :
    Recorded (.acquire x :: calls) b' right := by
  obtain ⟨p, rfl, rfl⟩ := takeHandle_cases h
  have hheld : HeldMemory.held { b with mem := { b.mem with handleApeAddr := p } } =
      [x] ++ if p > 0 then [.handle p] else [] := by
    rw [held]
    exact congrArg₂ (fun r l => r ++ l ++ _) hrange hallocations
  by_cases hp : p = 0
  · refine ⟨[x], by simp [settle, hp], iff_of_true ?_ hright⟩
    rw [hheld, if_neg (by omega), List.append_nil]
  · refine ⟨[.handle p, x], by simp [settle, hp], iff_of_true ?_ hright⟩
    rw [hheld, if_pos (by omega)]
    exact List.Perm.swap ..

/-- An object with its allocations, and the attempt to give it a range. -/
theorem reserve_records {x : Taken} {right : Prop} {hint alignment : Nat} (hright : right)
    (hfd : b.mem.memFd = false) (haddr : b.mem.gpuAddr = 0) (hhandle : b.heldHandle = [])
    (hallocations : b.heldAllocations = [x])
    (h : b.reserveGpuVirtualAddress hs hint b.mem.size alignment a = some (code, b', hs', calls)) :
    Recorded (.acquire x :: calls) b' right := by
  rcases reserve_cases h with ⟨_, _, rfl, rfl⟩ | ⟨_, _, p, hp, rfl, rfl⟩
  · have hrange : b'.heldRange = [] := by
      rw [heldRange]
      simp [hfd, haddr]
    refine ⟨[x], rfl, iff_of_true ?_ hright⟩
    rw [held, hrange, hallocations, hhandle, List.nil_append, List.append_nil]
  · have hrange := heldRange_withRange hp fun h => absurd h (by rw [hfd]; exact Bool.false_ne_true)
    refine ⟨[rangeAt b.mem p, x], rfl, iff_of_true ?_ hright⟩
    rw [held, hrange, show (b.withRange p).heldAllocations = [x] from hallocations,
      show (b.withRange p).heldHandle = [] from hhandle, List.append_nil]
    exact List.Perm.refl _

/-- An object with a range, and the attempt to back it. -/
theorem back_records {x : Taken} (hrange : b.heldRange = [x]) (haddr : b.mem.gpuAddr ≠ 0)
    (hhandle : b.heldHandle = []) :
    Recorded (.acquire x :: (b.back hs a d).2.2.2) (b.back hs a d).2.1 (a.backing = .success) := by
  by_cases hbacking : a.backing = .success
  · rw [back_made hbacking]
    refine ⟨[_, x], rfl, iff_of_true ?_ hbacking⟩
    have hheld : (b.backed d).held = [x] ++ [.allocations d.hResource (d.first b.numAllocations)] := by
      rw [held, heldAllocations_backed, show (b.backed d).heldRange = [x] from hrange,
        show (b.backed d).heldHandle = [] from hhandle, List.append_nil]
    rw [hheld]
    exact List.Perm.swap ..
  · obtain ⟨hsettle, hkept⟩ := back_failed hs d hbacking hrange haddr
    refine ⟨[], hsettle, iff_of_false (fun hperm => ?_) hbacking⟩
    have hnil := List.perm_nil.mp hperm
    rw [held, List.append_eq_nil_iff, List.append_eq_nil_iff] at hnil
    exact hkept hnil.1.1

/-- A range without allocations of its own. -/
theorem range_records {x : Taken} {right : Prop} (hrange : b.heldRange = [x])
    (hhandle : b.heldHandle = []) (hzeros : b.heldAllocations = [] ↔ right) :
    Recorded [.acquire x] b right := by
  refine ⟨[x], rfl, ?_⟩
  rw [held, hrange, hhandle, List.append_nil, ← hzeros]
  constructor
  · intro hperm
    exact List.perm_nil.mp ((List.perm_cons x).mp hperm)
  · intro hnil
    rw [hnil, List.append_nil]

theorem init_records (h : init dev hs info a d = some (code, b, hs', calls)) :
    Recorded calls b (InitRight dev hs info a) := by
  rw [init] at h
  have hroom := makeRoom_records (GpuMemory.describe dev info) rfl rfl rfl
  have hzeros := heldAllocations_makeRoom { mem := GpuMemory.describe dev info }
  by_cases hphysical : info.flags.physicalOnly = true
  · have hflag : (makeRoom { mem := GpuMemory.describe dev info }).mem.flags.isPhysicalOnly = true :=
      hphysical
    simp only [if_pos hflag] at h
    simp only [InitRight, if_pos hphysical]
    by_cases hcreate : a.createPhysicalMemory = .success
    · simp only [createPhysicalMemory_made hcreate, if_true] at h
      obtain ⟨⟨code', b', hs₁, taken⟩, htake, heq⟩ := Option.map_eq_some_iff.mp h
      cases heq
      exact takeHandle_records (Or.inl hcreate) rfl (heldAllocations_backed ..) htake
    · simp only [createPhysicalMemory_failed hcreate, if_neg hcreate] at h
      cases h
      refine nothing_recorded hroom (hzeros.trans ?_)
      exact (or_iff_right hcreate).symm
  · have hflag : ¬ (makeRoom { mem := GpuMemory.describe dev info }).mem.flags.isPhysicalOnly =
        true := hphysical
    simp only [if_neg hflag] at h
    obtain ⟨⟨code', b', hs₁, reserved⟩, hreserve, heq⟩ := Option.map_eq_some_iff.mp h
    simp only at heq
    rcases reserve_cases hreserve with ⟨hserved, hcode, rfl, rfl⟩ | ⟨hserved, hcode, p, hp, rfl, rfl⟩
    · have hserved : ¬ Served (GpuMemory.describe dev info) hs info.vaHint info.alignment a := hserved
      rw [if_pos (Or.inr hcode)] at heq
      cases heq
      simp only [InitRight, if_neg hphysical, if_pos (Or.inr hserved)]
      exact nothing_recorded hroom hzeros
    · have hserved : Served (GpuMemory.describe dev info) hs info.vaHint info.alignment a := hserved
      have hrange := heldRange_withRange (b := makeRoom { mem := GpuMemory.describe dev info }) hp nofun
      have hflags : ((makeRoom { mem := GpuMemory.describe dev info }).withRange p).mem.flags.isVirtual =
          info.flags.virtualAlloc := rfl
      rw [hflags] at heq
      by_cases hvirtual : info.flags.virtualAlloc = true
      · rw [if_pos (Or.inl hvirtual)] at heq
        cases heq
        simp only [InitRight, if_neg hphysical, if_pos (Or.inl hvirtual)]
        exact range_records hrange rfl hzeros
      · rw [if_neg (not_or.mpr ⟨hvirtual, not_not.mpr hcode⟩)] at heq
        cases heq
        have hno : ¬ (info.flags.virtualAlloc = true ∨
            ¬ Served (GpuMemory.describe dev info) hs info.vaHint info.alignment a) :=
          not_or.mpr ⟨hvirtual, not_not.mpr hserved⟩
        simp only [InitRight, if_neg hphysical, if_neg hno]
        exact back_records hrange hp rfl

/-- The import of a file. -/
theorem file_records
    (h : (({ mem := GpuMemory.describeFile dev info a } : HeldMemory).reserveGpuVirtualAddress hs
      info.vaHint (GpuMemory.describeFile dev info a).size info.alignment a).map
        (fun (code, b, hs, reserved) =>
          if code ≠ .success then ((0 : Nat), code, b, hs, reserved)
          else
            let (code, b, hs, calls) := b.makeRoom.back hs a d
            (0, code, b, hs, reserved ++ calls)) = some (p, code, b, hs', calls))
    (himporter : info.flags.sysmemIpcSigImporter = true) :
    Recorded calls b (FileRight dev hs info a) := by
  obtain ⟨⟨code', b', hs₁, reserved⟩, hreserve, heq⟩ := Option.map_eq_some_iff.mp h
  simp only at heq
  rcases reserve_cases hreserve with ⟨hserved, hcode, rfl, rfl⟩ | ⟨hserved, hcode, p, hp, rfl, rfl⟩
  · rw [if_pos hcode] at heq
    cases heq
    rw [FileRight, if_neg hserved]
    refine ⟨[], rfl, ?_⟩
    rw [List.perm_nil]
    cases hdup : a.dup with
    | true => simp [held, heldRange, GpuMemory.describeFile, hdup]
    | false => simp [held, heldRange, heldAllocations, heldHandle, GpuMemory.describeFile, hdup]
  · rw [if_neg (not_not.mpr hcode)] at heq
    cases heq
    rw [FileRight, if_pos hserved]
    have hfile : (GpuMemory.describeFile dev info a).isFile = true := by
      simp [GpuMemory.isFile, GpuMemory.describeFile, himporter]
    have hrange := heldRange_withRange (b := { mem := GpuMemory.describeFile dev info a }) hp
      fun _ => hfile
    rw [← heldRange_makeRoom] at hrange
    exact back_records hrange hp (heldHandle_makeRoom _)

/-- The import of a resource that is refused. -/
theorem refused_records {code : ErrorCode} {p : Nat}
    (h : GpuMemory.refusal pid info a = some (p, code)) :
    Recorded
      (if Described a ∧ a.openResource = .success then
        [.acquire (.allocations d.openedResource (d.first d.openedAllocations))] else [])
      { mem := GpuMemory.blank a
        allocHandles := if Described a then some (List.replicate d.openedAllocations 0) else none }
      (ResourceRight pid info a) := by
  by_cases hdescribed : Described a
  · have hright : ¬ ResourceRight pid info a := fun hr => by
      rw [hr hdescribed] at h
      cases h
    have hheld : HeldMemory.held
        { mem := GpuMemory.blank a, allocHandles := some (List.replicate d.openedAllocations 0) } =
          [.allocations 0 []] := by
      simp [held, heldRange, heldAllocations, heldHandle, GpuMemory.blank]
    rw [if_pos hdescribed]
    by_cases hopen : a.openResource = .success
    · rw [if_pos ⟨hdescribed, hopen⟩]
      refine ⟨[_], rfl, iff_of_false (fun hperm => ?_) hright⟩
      rw [hheld, List.singleton_perm_singleton, Taken.allocations.injEq] at hperm
      exact d.openedResource_ne hperm.1.symm
    · rw [if_neg fun hand => hopen hand.2]
      refine ⟨[], rfl, iff_of_false (fun hperm => ?_) hright⟩
      rw [hheld, List.perm_nil] at hperm
      cases hperm
  · rw [if_neg hdescribed, if_neg fun hand => hdescribed hand.1]
    refine ⟨[], rfl, iff_of_true ?_ fun hd => absurd hd hdescribed⟩
    simp [held, heldRange, heldAllocations, heldHandle, GpuMemory.blank]

/-- A resource that is opened is stored. -/
theorem opened_of_refusal (h : GpuMemory.refusal pid info a = none) :
    Described a ∧ a.openResource = .success := by
  rw [GpuMemory.refusal] at h
  repeat' split at h
  all_goals simp_all [Described]

/-- What an import has taken is what the object records. -/
def ImportRight (pid : Nat) (dev : SharedDevice) (hs : Heaps) (info : GpuMemoryCreateInfo)
    (a : Answers) : Prop :=
  if info.flags.sysmemIpcSigImporter then FileRight dev hs info a else ResourceRight pid info a

theorem import_records (hfd : info.dmabufFd.isSome = true)
    (h : importPhysicalHandle pid dev hs info a d = some (p, code, b, hs', calls)) :
    Recorded calls b (ImportRight pid dev hs info a) := by
  have hne : info.dmabufFd ≠ none := Option.isSome_iff_ne_none.mp hfd
  rw [importPhysicalHandle, if_neg hne] at h
  by_cases himporter : info.flags.sysmemIpcSigImporter = true
  · rw [if_pos himporter] at h
    rw [ImportRight, if_pos himporter]
    exact file_records h himporter
  · rw [if_neg himporter] at h
    rw [ImportRight, if_neg himporter]
    cases hrefusal : GpuMemory.refusal pid info a with
    | some r =>
        rw [hrefusal] at h
        cases h
        exact refused_records hrefusal
    | none =>
        have hright : ResourceRight pid info a := fun _ => hrefusal
        simp only [hrefusal, if_pos (opened_of_refusal hrefusal)] at h
        obtain ⟨⟨code', b', hs₁, taken⟩, htake, heq⟩ := Option.map_eq_some_iff.mp h
        cases heq
        have hallocations := heldAllocations_first (b := opened info a d) rfl
        split at htake
        next => exact reserve_records hright rfl rfl rfl hallocations htake
        next => exact takeHandle_records hright rfl hallocations htake

/-- The records are right in the end. -/
def RecordsRight (pid : Nat) (dev : SharedDevice) (hs : Heaps) (info : GpuMemoryCreateInfo)
    (a : Answers) : Prop :=
  if info.dmabufFd.isSome then ImportRight pid dev hs info a else InitRight dev hs info a

/-- Whether it is deleted at once or later, the object gives back what it records. -/
theorem keepOrDelete_calls (r : Nat × ErrorCode × HeldMemory × Heaps × List (Lib.Event Taken))
    (hs₂ : Heaps) :
    (keepOrDelete r).2.2.2.2 ++ deleteCalls (keepOrDelete r).2.2.1 hs₂ =
      r.2.2.2.2 ++ r.2.2.1.held.map .release := by
  obtain ⟨p, code, b, hs, calls⟩ := r
  rw [keepOrDelete]
  split
  next => exact congrArg (calls ++ ·) (destroy_calls b hs₂)
  next =>
    refine (List.append_nil _).trans ?_
    exact congrArg (calls ++ ·) (destroy_calls b hs)

theorem Recorded.balanced_iff {right : Prop} (R : Recorded calls b right) :
    Balanced (calls ++ b.held.map .release) ↔ right := by
  obtain ⟨held, hsettle, hperm⟩ := R
  rw [Lib.balanced_append_release hsettle]
  exact hperm

/-- Everything that is taken is given back once, and nothing else, exactly if the records are
right. -/
theorem released_once_iff {object : Option HeldMemory}
    (h : createGpuMemory pid dev hs info a d = some (p, code, object, hs', calls)) (hs₂ : Heaps) :
    Balanced (calls ++ deleteCalls object hs₂) ↔ RecordsRight pid dev hs info a := by
  rw [createGpuMemory] at h
  by_cases hfd : info.dmabufFd.isSome = true
  · rw [if_pos hfd] at h
    obtain ⟨r, himport, hkeep⟩ := Option.map_eq_some_iff.mp h
    have hcalls := keepOrDelete_calls r hs₂
    rw [hkeep] at hcalls
    rw [RecordsRight, if_pos hfd, hcalls]
    exact (import_records hfd himport).balanced_iff
  · rw [if_neg hfd] at h
    obtain ⟨r, hinit, hkeep⟩ := Option.map_eq_some_iff.mp h
    have hcalls := keepOrDelete_calls (0, r) hs₂
    rw [hkeep] at hcalls
    rw [RecordsRight, if_neg hfd, hcalls]
    exact (init_records hinit).balanced_iff

/-- A device without big pages, and the handles that its driver gives out. -/
def plainDevice : SharedDevice := ⟨false, 0, 0, 0, 7⟩

def plainDriver : DriverHandles where
  hAllocation i := i + 0x40
  hResource := 0x20
  openedResource := 0x30
  openedAllocations := 1
  hAllocation_ne i := Nat.succ_ne_zero _
  openedResource_ne := by decide

/-- A page of local memory. -/
theorem released_once_page :
    ∃ b hs' calls, createGpuMemory 1 plainDevice (.new smallSpace) { size := 0x1000 } {} plainDriver =
        some (0, .success, some b, hs', calls) ∧
      Balanced (calls ++ deleteCalls (some b) hs') := by
  have hrun : (createGpuMemory 1 plainDevice (.new smallSpace) { size := 0x1000 } {} plainDriver).map
      (fun r => (r.1, r.2.1, r.2.2.1.isSome)) = some (0, .success, true) := by
    decide +kernel
  obtain ⟨⟨p, code, object, hs', calls⟩, hr, heq⟩ := Option.map_eq_some_iff.mp hrun
  obtain ⟨rfl, rfl, hsome⟩ := by simpa only [Prod.mk.injEq] using heq
  obtain ⟨b, rfl⟩ := Option.isSome_iff_exists.mp hsome
  have hserved : Served (GpuMemory.describe plainDevice { size := 0x1000 }) (.new smallSpace) 0 0 {} := by
    decide +kernel
  have hright : RecordsRight 1 plainDevice (.new smallSpace) { size := 0x1000 } {} := by
    simp only [RecordsRight, InitRight, Option.isSome_none, Bool.false_eq_true, if_false, false_or]
    rw [if_neg (not_not.mpr hserved)]
    rfl
  exact ⟨b, hs', calls, hr, (released_once_iff hr hs').mpr hright⟩

/-- When the mapping of a page fails, its range is given back twice. -/
theorem range_released_twice :
    ¬ ∀ pid dev hs info a d p code object hs' calls,
      createGpuMemory pid dev hs info a d = some (p, code, object, hs', calls) →
      ∀ hs₂, Balanced (calls ++ deleteCalls object hs₂) := by
  intro hall
  have hrun : (createGpuMemory 1 plainDevice (.new smallSpace) { size := 0x1000 }
      { mapGpuVirtualAddress := .unknown } plainDriver).map (fun r => (r.2.2.1, r.2.2.2.2)) =
        some (none,
          [.acquire (.range .kLocal 0x10000000), .acquire (.allocations 0x20 [0x40]),
            .release (.allocations 0x20 [0x40]), .release (.range .kLocal 0x10000000),
            .release (.range .kLocal 0x10000000)]) := by
    decide +kernel
  obtain ⟨⟨p, code, object, hs', calls⟩, hr, heq⟩ := Option.map_eq_some_iff.mp hrun
  obtain ⟨rfl, rfl⟩ := by simpa only [Prod.mk.injEq] using heq
  have hbalanced := (hall _ _ _ _ _ _ _ _ _ _ _ hr hs').released (.range .kLocal 0x10000000)
  rw [deleteCalls, List.append_nil] at hbalanced
  exact absurd hbalanced (by decide)

end HeldMemory

end RocDxg
