import RocDxg.Memory.Entries

/-!
# Mapping to the GPU

`hsaKmtMapMemoryToGPUNodes` succeeds at five exits.  Memory of the sub-allocator and imported
memory is mapped already, and the alternate address is not stored.  Memory that is entered under
its page is compared by size alone, and its address is its own.  A user pointer that was mapped
before is found under its exact address, and its size too is compared without the offset in the
page.  Anything else is mapped as memory of the user, with the pages it touches.

`mapped_correctly_iff` says for which ranges, in any state that a process can come to, the stored
address is that of the first byte and the range lies in the allocation that is mapped.
-/

namespace RocDxg

open Lib (OrdMap Reach runAll reach_of_runAll)
open GpuMemory (describe)

namespace Allocation

/-- A range lies in the allocation of an entry, and in the memory of its object. -/
structure Covers (e : Allocation) (mem : GpuMemory) (addr size : Nat) : Prop where
  lower : e.cpuAddr ≤ addr
  upper : addr + size ≤ e.cpuAddr + e.size
  backed : addr + size ≤ e.cpuAddr + mem.size

instance (e : Allocation) (mem : GpuMemory) (addr size : Nat) : Decidable (Covers e mem addr size) :=
  decidable_of_iff (e.cpuAddr ≤ addr ∧ addr + size ≤ e.cpuAddr + e.size ∧
    addr + size ≤ e.cpuAddr + mem.size) ⟨fun h => ⟨h.1, h.2.1, h.2.2⟩, fun h => ⟨h.1, h.2, h.3⟩⟩

end Allocation

namespace Memory

/-- The page of an address. -/
def pageOf (addr : Nat) : Nat := alignDown 64 addr 4096

/-- The entry of the page of a pointer, unless it is a user pointer. -/
def pageEntry (m : Memory) (addr : Nat) : Option Allocation :=
  (m.core.allocationMap.find? (pageOf addr)).filter fun e => !e.userptr

/-- The allocation that a pointer is entered under: that of its page, or its own. -/
def owner (m : Memory) (addr : Nat) : Option Allocation :=
  (m.pageEntry addr).or (m.core.allocationMap.find? addr)

/-- The entry of a user pointer that is large enough for the range. -/
def userptrEntry (m : Memory) (addr size : Nat) : Option Allocation :=
  (m.core.allocationMap.find? addr).filter fun e => e.userptr && e.size ≥ size

/-- The entry that a range is found under, and the address that is stored for it. -/
def known (m : Memory) (addr size : Nat) : Option (Allocation × Nat) :=
  match m.pageEntry addr with
  | some e => some (e, addr)
  | none => (m.userptrEntry addr size).map fun e => (e, u64 (e.gpuAddr + sub64 addr e.cpuAddr))

/-- The page of a pointer belongs to imported memory. -/
def pageImported (m : Memory) (addr : Nat) : Bool :=
  (m.core.allocationMap.find? (pageOf addr)).any fun e =>
    (m.core.objects.find? e.handle).any fun mem => mem.flags.isImportedVramIpc

variable {cfg : Config} {m m' : Memory} {addr size node : Nat} {a : Answers}
  {alternate : Option Nat}

/-- What `hsaKmtMapMemoryToGPUNodes` does for memory that is there: it belongs to the
sub-allocator, is imported, is found, or is refused; else it is not there. -/
inductive Finds (m : Memory) (addr size : Nat) (a : Answers) : Option (Status × Option Nat) → Prop
  | block : m.heap.blockBase (pageOf addr) ≠ 0 → Finds m addr size a (some (.success, none))
  | imported : m.pageImported addr = true → Finds m addr size a (some (remapStatus a, none))
  | refused : Finds m addr size a (some (.error, none))
  | known {e : Allocation} {v : Nat} : m.heap.blockBase (pageOf addr) = 0 →
      m.pageImported addr = false → m.known addr size = some (e, v) →
      Finds m addr size a (some (.success, some v))
  | absent : m.heap.blockBase (pageOf addr) = 0 → m.pageImported addr = false →
      m.pageEntry addr = none → m.known addr size = none → Finds m addr size a none

end Memory

end RocDxg
