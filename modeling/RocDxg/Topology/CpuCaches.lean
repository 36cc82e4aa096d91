import RocDxg.Topology.SiblingMap

/-!
# The processors and their caches

What `topology.cpp` reads of `/proc/cpuinfo` and of the cache directories of `sysfs`:
`topology_parse_cpuinfo`, `get_cpu_cache_info` and `topology_get_cpu_cache_props`.

The vendor of the processor and its clock stay in the topology from one snapshot to the next.
The caches that are read are appended to those that the node has already.

A file is given by what is parsed from it, `none` where that fails.  The variable that a failed
read leaves alone keeps its value.
-/

namespace RocDxg

/-! ## The table of processors -/

/-- `HSA_PUBLIC_NAME_SIZE` -/
def hsaPublicNameSize : Nat := 64

/-- `SUPPORTED_PROCESSOR_VENDORS` -/
inductive ProcessorVendor where
  | genuineIntel
  | authenticAmd
  | ibmPower
deriving DecidableEq, Repr

/-- `topology_search_processor_vendor` -/
def searchProcessorVendor (name : List Char) : Option ProcessorVendor :=
  if name = "GenuineIntel".toList then some .genuineIntel
  else if name = "POWER9, altivec supported".toList then some .ibmPower
  else if name = "AuthenticAMD".toList then some .authenticAmd
  else if name = [] then some .ibmPower
  else none

/-- A line of `/proc/cpuinfo` that the parser looks at.  The clock is in kHz. -/
inductive CpuinfoLine where
  | processor (n : Nat)
  | vendorId (name : List Char)
  | modelName (name : List Char)
  | apicid (n : Nat)
  | cpuMHz (kHz : Nat)
deriving DecidableEq, Repr

/-- The variables of `topology_parse_cpuinfo`. -/
structure CpuinfoState where
  proc : Nat := 0
  cpuinfo : CpuTable
  processorVendor : Option ProcessorVendor
  freqMax : Nat

/-- A new table of processors. -/
def CpuTable.new (numProcs : Nat) : CpuTable where
  rows := List.replicate (u32 numProcs) {}
  length_le := by
    rw [List.length_replicate, u32]
    omega

/-- Write into the row of a processor. -/
def CpuTable.modify (cpuinfo : CpuTable) (proc : Nat) (f : ProcCpuinfo → ProcCpuinfo) :
    CpuTable where
  rows := cpuinfo.rows.modify proc f
  length_le := by
    rw [List.length_modify]
    exact cpuinfo.length_le

/-- The loop of `topology_parse_cpuinfo`; it ends early at a processor behind the table.
`maxFreq` says that the clock was read from its own file. -/
def parseLines (maxFreq : Bool) : List CpuinfoLine → CpuinfoState → Bool × CpuinfoState
  | [], s => (true, s)
  | .processor n :: lines, s =>
      if n ≥ s.cpuinfo.rows.length then (false, { s with proc := n })
      else parseLines maxFreq lines { s with proc := n }
  | .vendorId name :: lines, s =>
      parseLines maxFreq lines
        (if s.processorVendor = none then { s with processorVendor := searchProcessorVendor name }
        else s)
  | .modelName name :: lines, s =>
      parseLines maxFreq lines
        { s with cpuinfo := s.cpuinfo.modify s.proc fun row =>
            { row with modelName := name.take hsaPublicNameSize } }
  | .apicid n :: lines, s =>
      parseLines maxFreq lines
        { s with cpuinfo := s.cpuinfo.modify s.proc fun row => { row with apicid := n } }
  | .cpuMHz kHz :: lines, s =>
      parseLines maxFreq lines
        (if ¬ maxFreq ∧ kHz > s.freqMax then { s with freqMax := kHz } else s)

/-- What `/proc` and `sysfs` say of the processors. -/
structure ProcAnswers where
  /-- `_SC_NPROCESSORS_ONLN` -/
  numProcs : Nat
  /-- `cpuinfo_max_freq`, in kHz. -/
  maxFreq : Option Nat := none
  /-- `/proc/cpuinfo`, `none` if it cannot be opened. -/
  cpuinfo : Option (List CpuinfoLine) := none
deriving DecidableEq, Repr

/-- The clock before the lines are read, in kHz.  That of the file is in whole MHz. -/
def ProcAnswers.startFreq (a : ProcAnswers) (freqMax : Nat) : Nat :=
  match a.maxFreq with
  | some kHz => kHz / 1000 * 1000
  | none => freqMax

/-- `topology_parse_cpuinfo`; the caller does not look at its status. -/
def parseCpuinfo (a : ProcAnswers) (vendor : Option ProcessorVendor) (freqMax : Nat) :
    CpuinfoState :=
  let s : CpuinfoState := ⟨0, .new a.numProcs, vendor, a.startFreq freqMax⟩
  match a.cpuinfo with
  | none => s
  | some lines =>
      match parseLines a.maxFreq.isSome lines s with
      | (false, s) => s
      | (true, s) => { s with processorVendor := some (s.processorVendor.getD .genuineIntel) }

/-! ## The caches of a processor -/

/-- The files of a cache directory.  A size may have a unit. -/
structure CacheDir where
  sharedCpuList : Option Nat := none
  level : Option Nat := none
  type : Option (List Char) := none
  size : Option (Nat × Option Char) := none
  coherencyLineSize : Option Nat := none
  waysOfAssociativity : Option Nat := none
  physicalLinePartition : Option Nat := none
  sharedCpuMap : Option (List Char) := none
deriving DecidableEq, Repr

/-- The directory of a processor: its number and its caches.  `unset` is what the local variable
`n` holds before a file is read. -/
structure CpuDir where
  procNum : Nat
  indexes : List CacheDir
  unset : Nat := 0
deriving DecidableEq, Repr

/-- `fscanf_size` -/
def fscanfSize : Option (Nat × Option Char) → Nat
  | none => 0
  | some (bytes, none) => bytes
  | some (bytes, some unit) =>
      if unit = 'K' then u32 (bytes * 2 ^ 10)
      else if unit = 'M' then u32 (bytes * 2 ^ 20)
      else if unit = 'G' then u32 (bytes * 2 ^ 30)
      else bytes

/-- The type of a cache from its name. -/
def cacheTypeOf (str : List Char) : HsaCacheType where
  data := str = "Data".toList ∨ str = "Unified".toList
  instruction := str = "Instruction".toList ∨ str = "Unified".toList
  cpu := true

/-- The part of `get_cpu_cache_info` that fills the record of a cache in.  The map is read into
the buffer that holds the name of the type. -/
def readCache (cpuinfo : CpuTable) (d : CacheDir) (processorIdLow : Nat) :
    Option HsaCacheProperties :=
  let str := d.type.getD []
  cpumapToCpuCi (d.sharedCpuMap.getD str) cpuinfo
    { processorIdLow := processorIdLow
      cacheLevel := d.level.getD 0
      cacheSize := fscanfSize d.size
      cacheLineSize := d.coherencyLineSize.getD 0
      cacheLinesPerTag := d.physicalLinePartition.getD 0
      cacheAssociativity := d.waysOfAssociativity.getD 0
      cacheType := cacheTypeOf str }

/-- The loop of `get_cpu_cache_info`, with the caches that it appends.  A cache is listed for the
first of the processors that share it. -/
def cpuCacheInfo (power9 : Bool) (cpuinfo : CpuTable) (procNum : Nat) :
    Nat → List CacheDir → Option (List HsaCacheProperties)
  | _, [] => some []
  | n, d :: ds =>
      if power9 then
        if procNum % 4 ≠ 0 then cpuCacheInfo power9 cpuinfo procNum n ds
        else
          (readCache cpuinfo d 0).bind fun c =>
            (cpuCacheInfo power9 cpuinfo procNum n ds).map (c :: ·)
      else
        let n := d.sharedCpuList.getD n
        if procNum ≠ n then cpuCacheInfo power9 cpuinfo procNum n ds
        else
          (cpuinfo.rows[procNum]?).bind fun row =>
            (readCache cpuinfo d row.apicid).bind fun c =>
              (cpuCacheInfo power9 cpuinfo procNum n ds).map (c :: ·)

/-- The loop over the directories of a node; `none` is one like `cpulist`. -/
def cpuCaches (power9 : Bool) (cpuinfo : CpuTable) :
    List (Option CpuDir) → Option (List HsaCacheProperties)
  | [] => some []
  | none :: dirs => cpuCaches power9 cpuinfo dirs
  | some d :: dirs =>
      (cpuCacheInfo power9 cpuinfo d.procNum d.unset d.indexes).bind fun cs =>
        (cpuCaches power9 cpuinfo dirs).map (cs ++ ·)

/-- The directories whose names start with `cpu`: those of a node, and those of the system. -/
structure CpuDirs where
  node : Nat → List (Option CpuDir) := fun _ => []
  system : List (Option CpuDir) := []

/-- The test whether the processors are those of a POWER9. -/
def isPower9 (vendor : Option ProcessorVendor) (cpuinfo : CpuTable) : Bool :=
  vendor = some .ibmPower && (cpuinfo.rows.head?.map ProcCpuinfo.modelName) = some "POWER9".toList

/-- The directories that `topology_get_cpu_cache_props` goes through, `none` if there are no. -/
def cacheDirs (dirs : CpuDirs) (power9 : Bool) (node : Nat) : Option (List (Option CpuDir)) :=
  if dirs.node (if power9 then node * 8 else node) ≠ [] then
    some (dirs.node (if power9 then node * 8 else node))
  else if node = 0 ∧ dirs.system ≠ [] then some dirs.system
  else none

/-- `topology_get_cpu_cache_props`.  There is no result where the map of a cache or the number of
a processor is of one that the table does not have. -/
def topologyGetCpuCacheProps (dirs : CpuDirs) (vendor : Option ProcessorVendor) (cpuinfo : CpuTable)
    (node : Nat) (tbl : NodeProps) : Option (HsakmtStatus × NodeProps) :=
  match cacheDirs dirs (isPower9 vendor cpuinfo) node with
  | none => some (.error, tbl)
  | some entries =>
      (cpuCaches (isPower9 vendor cpuinfo) cpuinfo entries).map fun cs =>
        (.success, { tbl with
          cache := tbl.cache ++ cs
          node := { tbl.node with numCaches := cs.length } })

end RocDxg
