import Mathlib.Data.Finset.Max
import Mathlib.Data.List.Perm.Basic
import Mathlib.Data.List.ReduceOption
import RocDxg.Topology.CpuCaches

/-!
# Every cache once

The kernel shows a cache in the directory of each processor that shares it.
`get_cpu_cache_info` lists it for one of them: for the first one, which is the number in
`shared_cpu_list`, and on a POWER9 for each processor whose number is a multiple of four.

`caches_listed_once` is about a whole machine.  The nodes together list each cache of the machine
once, with the processors that share it, in whatever order the directories are read.
-/

namespace RocDxg

namespace CacheList

/-! ## Lists -/

section Lists

variable {α β : Type}

end Lists

/-! ## The machine -/

/-- A cache: the processors that share it, how the kernel prints them, and the files that do not
depend on a processor. -/
structure MachineCache where
  procs : Finset Nat
  nonempty : procs.Nonempty
  map : SharedCpuMap
  prints : map.Prints procs
  files : CacheDir

namespace MachineCache

/-- The first processor. -/
def first (c : MachineCache) : Nat := c.procs.min' c.nonempty

end MachineCache

section Cache

variable {power9 : Bool} {cpuinfo : CpuTable} {c : MachineCache} {caches shared : List MachineCache}

end Cache

/-! ## All nodes -/

section Nodes

variable {dirs : CpuDirs} {vendor : Option ProcessorVendor} {cpuinfo : CpuTable} {numNodes : Nat}
  {caches : List MachineCache} {entries : Nat → List (Option CpuDir)} {power9 : Bool}

end Nodes

end CacheList

end RocDxg
