import RocDxg.Lib.Reach
import RocDxg.Topology.CpuCaches
import RocDxg.Topology.Links

/-!
# The snapshot of the topology

`topology_take_snapshot` of `topology.cpp` builds the table of nodes in `g_props`, where it stays
when the call fails.  The node zero is the processor, and the node `i + 1` the GPU of the device
`i`.  Each entry is filled in by `snapshotNode`, over what a call before has left in it.

The lists of point-to-point links, which no device has, are left out, and so are the heaps and
the settings of the runtime that the call changes besides.
-/

namespace RocDxg

open Lib (Reach runAll reach_of_runAll)

/-! ## What the snapshot reads -/

/-- The properties of a `WDDMDevice` that the topology reads. -/
structure WddmDevice where
  deviceId : Nat
  major : Nat := 11
  minor : Nat := 0
  stepping : Nat := 0
  isDgpu : Bool := true
  productName : List Char := []
  simdPerCu : Nat := 1
  computeUnitCount : Nat := 1
  asicRevision : Nat := 0
  watchPointsNum : Nat := 1
  wavePerCu : Nat := 1
  ldsSize : Nat := 0
  wavefrontSize : Nat := 32
  numShaderEngine : Nat := 1
  shaderArrayPerShaderEngine : Nat := 1
  maxScratchSlotsPerCu : Nat := 0
  pciBusAddr : Nat := 0
  maxEngineClockMhz : Nat := 0
  sdmaFwVersion : Nat := 0
  mecFwVersion : Nat := 0
  numSdmaEngine : Nat := 0
  numCpQueues : Nat := 0
  domain : Nat := 0
  uuid : Nat := 0
  gfxFamily : Nat := 0
  localHeapSize : Nat := 0
  nonLocalHeapSize : Nat := 0
  memoryBusWidth : Nat := 0
  maxMemoryClockMhz : Nat := 0
  l1CacheSize : Nat := 0
  l2CacheSize : Nat := 0
  l3CacheSize : Nat := 0
  supportPlatformAtomic : Bool := false
  sharedApertureBase : Nat := 0
  privateApertureBase : Nat := 0
  privateApertureSize : Nat := 0
deriving DecidableEq, Repr

/-- `HSA_OVERRIDE_GFX_VERSION` -/
inductive GfxOverride where
  | unset
  /-- Three numbers and nothing else. -/
  | version (major minor step : Nat)
  | malformed
deriving DecidableEq, Repr

/-- What the driver and the system answer while a snapshot is taken. -/
structure TopologyAnswers where
  /-- The devices that `WDDMCreateDevices` makes. -/
  devices : List WddmDevice
  proc : ProcAnswers
  cpuDirs : CpuDirs
  /-- `sysinfo` -/
  totalram : Nat := 0
  gfxOverride : GfxOverride := .unset
  /-- There is memory for `g_system`. -/
  malloc : Bool := true

/-- `HsaSystemProperties` -/
structure HsaSystemProperties where
  numNodes : Nat
deriving DecidableEq, Repr

/-- `_topology_props` -/
structure TopologyProps where
  gSystem : Option HsaSystemProperties := none
  gProps : List NodeProps := []
  wdevices : List WddmDevice := []
  numSysfsNodes : Nat := 0
  processorVendor : Option ProcessorVendor := none
  /-- `freq_max_`, in kHz. -/
  freqMax : Nat := 0

/-! ## The properties of a node -/

/-- `topology_map_node_id` and `get_wddmdev` -/
def TopologyProps.device (t : TopologyProps) (node : Nat) : Option WddmDevice :=
  if t.wdevices = [] ∨ node = 0 ∨ node ≥ t.numSysfsNodes then none else t.wdevices[node - 1]?

/-- `HSA_GET_GFX_VERSION_FULL` -/
def HsaEngineId.version (e : HsaEngineId) : Nat := e.major * 2 ^ 16 + e.minor * 2 ^ 8 + e.stepping

/-- `get_vgpr_size_per_cu` -/
def getVgprSizePerCu (e : HsaEngineId) : Nat :=
  if e.version ∈ [0x1100, 0x1101, 0x1151, 0x1200, 0x1201] then 0x60000 else 0x40000

/-- A digit of `%x`. -/
def gfxName (e : HsaEngineId) : List Char := 'G' :: 'F' :: 'X' :: Lib.hexDigits 6 e.version

/-- The properties of the processor. -/
def cpuNode (a : TopologyAnswers) (freqMax : Nat) : HsaNodeProperties where
  maxEngineClockMhzCCompute := freqMax / 1000
  numCPUCores := u32 a.proc.numProcs
  numMemoryBanks := 1

/-- The properties of a GPU before the version is looked at. -/
def gpuNode (d : WddmDevice) (freqMax nodeId : Nat) : HsaNodeProperties where
  maxEngineClockMhzCCompute := freqMax / 1000
  numFComputeCores := u32 (d.simdPerCu * d.computeUnitCount)
  numMemoryBanks := 1
  numCaches := 3
  numIOLinks := 1
  asicRevision := d.asicRevision % 2 ^ 4
  watchPointsTotalBits := d.watchPointsNum.log2 % 2 ^ 4
  maxWavesPerSIMD := d.wavePerCu / d.simdPerCu
  ldsSizeInKB := d.ldsSize / 1024
  waveFrontSize := d.wavefrontSize
  numShaderBanks := d.numShaderEngine
  numArrays := d.shaderArrayPerShaderEngine
  numCUPerArray := d.computeUnitCount / d.shaderArrayPerShaderEngine
  numSIMDPerCU := d.simdPerCu
  maxSlotsScratchCU := d.maxScratchSlotsPerCu
  vendorId := 0x1002
  deviceId := d.deviceId % 2 ^ 16
  locationId := d.pciBusAddr
  maxEngineClockMhzFCompute := d.maxEngineClockMhz
  drmRenderMinor := nodeId
  marketingName := d.productName.take (hsaPublicNameSize - 1)
  uCodeSDMA := d.sdmaFwVersion % 2 ^ 10
  numSdmaEngines := d.numSdmaEngine
  numSdmaQueuesPerEngine := 6
  numCpQueues := d.numCpQueues % 2 ^ 8
  domain := d.domain
  uniqueID := d.uuid
  numXcc := 1
  kfdGpuID := d.deviceId
  familyID := d.gfxFamily
  engineId := { uCode := d.mecFwVersion % 2 ^ 10 }

/-- The properties of a GPU from its version on. -/
def finishGpuNode (d : WddmDevice) (p : HsaNodeProperties) : HsaNodeProperties :=
  let engineId := { p.engineId with
    major := d.major % 2 ^ 6, minor := d.minor % 2 ^ 8, stepping := d.stepping % 2 ^ 8 }
  { p with
    engineId := engineId
    amdName := gfxName engineId
    doorbellType := 2
    sgprSizePerCU := 0x4000
    vgprSizePerCU := getVgprSizePerCu engineId }

/-- `topology_sysfs_get_node_props` -/
def topologySysfsGetNodeProps (t : TopologyProps) (a : TopologyAnswers) (nodeId : Nat) :
    HsakmtStatus × HsaNodeProperties :=
  if nodeId = 0 then (.success, cpuNode a t.freqMax)
  else
    match t.device nodeId with
    | none => (.error, { maxEngineClockMhzCCompute := t.freqMax / 1000 })
    | some d =>
        let p := gpuNode d t.freqMax nodeId
        match a.gfxOverride with
        | .unset => (.success, finishGpuNode d p)
        | .malformed => (.error, p)
        | .version major minor step =>
            if major > 63 ∨ minor > 255 ∨ step > 255 then (.error, p)
            else
              (.success, finishGpuNode d { p with
                overrideEngineId := { major := major, minor := minor, stepping := step } })

/-- `topology_get_cpu_model_name`; the caller does not look at its status. -/
def topologyGetCpuModelName (p : HsaNodeProperties) (cpuinfo : CpuTable) : HsaNodeProperties :=
  match cpuinfo.rows.find? fun row => row.apicid = p.cComputeIdLo with
  | none => p
  | some row =>
      { p with
        amdName := if p.deviceId = 0 then row.modelName else p.amdName
        marketingName := row.modelName.take (hsaPublicNameSize - 1) }

/-- `topology_sysfs_get_mem_props` -/
def topologySysfsGetMemProps (t : TopologyProps) (a : TopologyAnswers) (nodeId : Nat) :
    HsakmtStatus × HsaMemoryProperties :=
  if nodeId = 0 then
    (.success, { sizeInBytes := a.totalram, width := 64, memoryClockMax := 2133 })
  else
    match t.device nodeId with
    | none => (.error, {})
    | some d =>
        (.success,
          { heapType := .frameBufferPrivate
            sizeInBytes := if d.isDgpu then d.localHeapSize
              else u64 (d.localHeapSize + d.nonLocalHeapSize)
            width := d.memoryBusWidth
            memoryClockMax := d.maxMemoryClockMhz })

/-- `topology_sysfs_get_iolink_props`, for a node with a device. -/
def topologySysfsGetIolinkProps (d : WddmDevice) (nodeId : Nat) : HsaIoLinkProperties where
  ioLinkType := .pciexpress
  nodeFrom := nodeId
  nodeTo := 0
  weight := 20
  flags :=
    { override := true
      nonCoherent := true
      noAtomics32bit := !d.supportPlatformAtomic
      noAtomics64bit := !d.supportPlatformAtomic }

/-! ## The entry of a node -/

/-- The loop over the memory banks, from the bank `memId` on. -/
def fillMem (props : HsakmtStatus × HsaMemoryProperties) :
    (k memId : Nat) → List HsaMemoryProperties → HsakmtStatus × List HsaMemoryProperties
  | 0, _, mem => (.success, mem)
  | k + 1, memId, mem =>
      if props.1 ≠ .success then (props.1, mem.set memId props.2)
      else fillMem props k (memId + 1) (mem.set memId props.2)

/-- A cache of a GPU, over the record that was there. -/
def setGpuCache (level size : Nat) (c : HsaCacheProperties) : HsaCacheProperties :=
  { c with
    cacheType := { c.cacheType with data := true, hsacu := true }
    cacheLevel := level
    cacheSize := size / 1024 }

/-- The three caches of a GPU. -/
def fillCache (d : WddmDevice) (cache : List HsaCacheProperties) : List HsaCacheProperties :=
  ((cache.modify 0 (setGpuCache 1 d.l1CacheSize)).modify 1 (setGpuCache 2 d.l2CacheSize)).modify 2
    (setGpuCache 3 d.l3CacheSize)

/-- The loop over the direct links, from the slot `linkId` on, with the number of links.  There is
no result where the device is not there. -/
def fillLinks (device : Option WddmDevice) (nodeId numNodes : Nat) :
    (k linkId : Nat) → List HsaIoLinkProperties → Option (Nat × List HsaIoLinkProperties)
  | 0, linkId, link => some (linkId, link)
  | k + 1, linkId, link =>
      if linkId < numNodes - 1 then
        device.bind fun d =>
          fillLinks device nodeId numNodes k (linkId + 1)
            (link.set linkId (topologySysfsGetIolinkProps d nodeId))
      else some (linkId, link)

/-- The caches of a node.  There is no result where the device is not there. -/
def snapshotCaches (t : TopologyProps) (a : TopologyAnswers) (cpuinfo : CpuTable) (i : Nat)
    (np : NodeProps) : Option (HsakmtStatus × NodeProps) :=
  if np.node.numCaches ≠ 0 then
    (t.device i).map fun d =>
      (.success, { np with cache := fillCache d (resize {} np.node.numCaches np.cache) })
  else if np.node.kfdGpuID = 0 then
    topologyGetCpuCacheProps a.cpuDirs t.processorVendor cpuinfo i np
  else some (.success, np)

/-- The links of a node. -/
def snapshotLinks (t : TopologyProps) (numNodes i : Nat) (np : NodeProps) : Option NodeProps :=
  let link := resize {} (numNodes - 1) np.link
  if np.node.numIOLinks ≠ 0 then
    (fillLinks (t.device i) i numNodes np.node.numIOLinks 0 link).map fun (linkId, link) =>
      { np with node := { np.node with numIOLinks := linkId }, link := link }
  else some { np with link := link }

/-- The part of `topology_take_snapshot` that fills the entry of a node in, from its memory banks
on. -/
def snapshotRest (t : TopologyProps) (a : TopologyAnswers) (cpuinfo : CpuTable) (numNodes i : Nat)
    (np : NodeProps) : Option (HsakmtStatus × NodeProps) :=
  let (status, mem) :=
    if np.node.numMemoryBanks ≠ 0 then
      fillMem (topologySysfsGetMemProps t a i) np.node.numMemoryBanks 0
        (resize {} np.node.numMemoryBanks np.mem)
    else (.success, np.mem)
  let np := { np with mem := mem }
  if status ≠ .success then some (status, np)
  else
    (snapshotCaches t a cpuinfo i np).bind fun (status, np) =>
      if status ≠ .success then some (status, np)
      else (snapshotLinks t numNodes i np).map (.success, ·)

/-- The body of the loop of `topology_take_snapshot`, on the entry of the node `i`. -/
def snapshotNode (t : TopologyProps) (a : TopologyAnswers) (cpuinfo : CpuTable) (numNodes i : Nat)
    (np : NodeProps) : Option (HsakmtStatus × NodeProps) :=
  let (status, node) := topologySysfsGetNodeProps t a i
  if status ≠ .success then some (status, { np with node := node })
  else
    snapshotRest t a cpuinfo numNodes i { np with
      node := if node.numCPUCores ≠ 0 then topologyGetCpuModelName node cpuinfo else node }

/-- The loop of `topology_take_snapshot`, from the node `i` on. -/
def snapshotNodes (t : TopologyProps) (a : TopologyAnswers) (cpuinfo : CpuTable) (numNodes : Nat) :
    (k i : Nat) → List NodeProps → Option (HsakmtStatus × List NodeProps)
  | 0, _, props => some (.success, props)
  | k + 1, i, props =>
      (snapshotNode t a cpuinfo numNodes i (nodeAt props i)).bind fun (status, np) =>
        if status ≠ .success then some (status, props.set i np)
        else snapshotNodes t a cpuinfo numNodes k (i + 1) (props.set i np)

namespace TopologyProps

/-- The topology after `/proc/cpuinfo` is read. -/
def readCpuinfo (t : TopologyProps) (a : TopologyAnswers) : TopologyProps :=
  let s := parseCpuinfo a.proc t.processorVendor t.freqMax
  { t with processorVendor := s.processorVendor, freqMax := s.freqMax }

/-- The table of processors that is read. -/
def cpuinfo (t : TopologyProps) (a : TopologyAnswers) : CpuTable :=
  (parseCpuinfo a.proc t.processorVendor t.freqMax).cpuinfo

/-- `topology_sysfs_get_system_props` -/
def systemProps (t : TopologyProps) (a : TopologyAnswers) : HsakmtStatus × TopologyProps :=
  let t := { t with wdevices := a.devices }
  if a.devices = [] then (.error, t)
  else (.success, { t with numSysfsNodes := a.devices.length + 1 })

/-- The end of `topology_take_snapshot`, with the entries of all nodes. -/
def publish (t : TopologyProps) (a : TopologyAnswers) (props : List NodeProps) :
    HsakmtStatus × TopologyProps :=
  let t := { t with gProps := topologyCreateIndirectGpuLinks t.numSysfsNodes props }
  if t.gSystem = none ∧ a.malloc = false then (.noMemory, t)
  else (.success, { t with gSystem := some ⟨t.numSysfsNodes⟩ })

/-- `topology_take_snapshot`.  There is no result where a table is read behind its end. -/
def takeSnapshot (t : TopologyProps) (a : TopologyAnswers) : Option (HsakmtStatus × TopologyProps) :=
  match (t.readCpuinfo a).systemProps a with
  | (.success, s) =>
      (snapshotNodes s a (t.cpuinfo a) s.numSysfsNodes s.numSysfsNodes 0
        (resize {} s.numSysfsNodes s.gProps)).map fun (status, props) =>
        if status ≠ .success then (status, { s with gProps := props }) else s.publish a props
  | (status, s) => some (status, s)

/-- `topology_drop_snapshot` -/
def dropSnapshot (t : TopologyProps) : TopologyProps :=
  { t with gProps := [], gSystem := none, wdevices := [] }

end TopologyProps

/-! ## What the entry of a node becomes -/

variable {t : TopologyProps} {a : TopologyAnswers} {cpuinfo : CpuTable} {numNodes i : Nat}
  {np : NodeProps} {d : WddmDevice}

/-- The entry of the processor, over what was there. -/
def cpuEntry (t : TopologyProps) (a : TopologyAnswers) (cpuinfo : CpuTable) (numNodes : Nat)
    (cs : List HsaCacheProperties) (np : NodeProps) : NodeProps where
  node := { (if u32 a.proc.numProcs ≠ 0 then topologyGetCpuModelName (cpuNode a t.freqMax) cpuinfo
    else cpuNode a t.freqMax) with numCaches := cs.length }
  mem := [(topologySysfsGetMemProps t a 0).2]
  cache := np.cache ++ cs
  link := resize {} (numNodes - 1) np.link

/-- The entry of a GPU, over what was there. -/
def gpuEntry (t : TopologyProps) (a : TopologyAnswers) (d : WddmDevice) (numNodes i : Nat)
    (np : NodeProps) : NodeProps where
  node := (topologySysfsGetNodeProps t a i).2
  mem := [(topologySysfsGetMemProps t a i).2]
  cache := fillCache d (resize {} 3 np.cache)
  link := (resize {} (numNodes - 1) np.link).set 0 (topologySysfsGetIolinkProps d i)

/-- The fields of a processor that the rest of the loop reads. -/
theorem cpuModel_fields (p : HsaNodeProperties) (cpuinfo : CpuTable) :
    (topologyGetCpuModelName p cpuinfo).numMemoryBanks = p.numMemoryBanks ∧
      (topologyGetCpuModelName p cpuinfo).numCaches = p.numCaches ∧
      (topologyGetCpuModelName p cpuinfo).numIOLinks = p.numIOLinks ∧
      (topologyGetCpuModelName p cpuinfo).kfdGpuID = p.kfdGpuID := by
  rw [topologyGetCpuModelName]
  split <;> exact ⟨rfl, rfl, rfl, rfl⟩

/-- The fields of a GPU that the rest of the loop reads. -/
theorem gpuNode_fields (hi : i ≠ 0) (hd : t.device i = some d)
    (hs : (topologySysfsGetNodeProps t a i).1 = .success) :
    (topologySysfsGetNodeProps t a i).2.numCPUCores = 0 ∧
      (topologySysfsGetNodeProps t a i).2.numMemoryBanks = 1 ∧
      (topologySysfsGetNodeProps t a i).2.numCaches = 3 ∧
      (topologySysfsGetNodeProps t a i).2.numIOLinks = 1 ∧
      (topologySysfsGetNodeProps t a i).2.kfdGpuID = d.deviceId := by
  rw [topologySysfsGetNodeProps, if_neg hi, hd] at hs ⊢
  simp only at hs ⊢
  split at hs
  next => exact ⟨rfl, rfl, rfl, rfl, rfl⟩
  next => cases hs
  next =>
    split at hs
    next => cases hs
    next hle =>
      rw [if_neg hle]
      exact ⟨rfl, rfl, rfl, rfl, rfl⟩

theorem resize_one {α : Type} (x y : α) (xs : List α) : (resize x 1 xs).set 0 y = [y] := by
  have hlen := length_resize x 1 xs
  obtain ⟨z, hz⟩ := List.length_eq_one_iff.mp hlen
  rw [hz]
  rfl

/-- The entry of the processor. -/
theorem snapshotNode_cpu :
    snapshotNode t a cpuinfo numNodes 0 np =
      match cacheDirs a.cpuDirs (isPower9 t.processorVendor cpuinfo) 0 with
      | none => some (.error, { np with
          node := if u32 a.proc.numProcs ≠ 0 then
            topologyGetCpuModelName (cpuNode a t.freqMax) cpuinfo else cpuNode a t.freqMax
          mem := [(topologySysfsGetMemProps t a 0).2] })
      | some entries =>
          (cpuCaches (isPower9 t.processorVendor cpuinfo) cpuinfo entries).map fun cs =>
            (.success, cpuEntry t a cpuinfo numNodes cs np) := by
  have hprops : topologySysfsGetNodeProps t a 0 = (.success, cpuNode a t.freqMax) := by
    rw [topologySysfsGetNodeProps, if_pos rfl]
  generalize hnode : (if (cpuNode a t.freqMax).numCPUCores ≠ 0 then
    topologyGetCpuModelName (cpuNode a t.freqMax) cpuinfo else cpuNode a t.freqMax) = node
  have hfields : node.numMemoryBanks = 1 ∧ node.numCaches = 0 ∧ node.numIOLinks = 0 ∧
      node.kfdGpuID = 0 := by
    rw [← hnode]
    split
    · exact cpuModel_fields (cpuNode a t.freqMax) cpuinfo
    · exact ⟨rfl, rfl, rfl, rfl⟩
  obtain ⟨hmem, hcaches, hlinks, hgpu⟩ := hfields
  have hcores : (cpuNode a t.freqMax).numCPUCores = u32 a.proc.numProcs := rfl
  rw [hcores] at hnode
  have hmemProps : (topologySysfsGetMemProps t a 0).1 = .success := rfl
  rw [snapshotNode, hprops]
  simp only [ne_eq, not_true_eq_false, if_false, hcores]
  rw [show (if ¬ u32 a.proc.numProcs = 0 then topologyGetCpuModelName (cpuNode a t.freqMax) cpuinfo
    else cpuNode a t.freqMax) = node from hnode, snapshotRest]
  simp only [hmem, ne_eq, Nat.one_ne_zero, not_false_eq_true, if_true, fillMem, hmemProps,
    not_true_eq_false, if_false, resize_one, snapshotCaches, hcaches, hgpu,
    topologyGetCpuCacheProps]
  cases cacheDirs a.cpuDirs (isPower9 t.processorVendor cpuinfo) 0 with
  | none => rfl
  | some entries =>
      simp only
      cases cpuCaches (isPower9 t.processorVendor cpuinfo) cpuinfo entries with
      | none => rfl
      | some cs =>
          simp only [Option.map_some, Option.bind_some, not_true_eq_false, if_false, snapshotLinks,
            hlinks, ne_eq, cpuEntry, hnode, hmem, hgpu]

/-- The entry of a GPU. -/
theorem snapshotNode_gpu (hi : i ≠ 0) (hd : t.device i = some d) (hn : 2 ≤ numNodes) :
    snapshotNode t a cpuinfo numNodes i np =
      some (if (topologySysfsGetNodeProps t a i).1 = .success then
        (.success, gpuEntry t a d numNodes i np)
      else ((topologySysfsGetNodeProps t a i).1,
        { np with node := (topologySysfsGetNodeProps t a i).2 })) := by
  rw [snapshotNode]
  simp only
  by_cases hs : (topologySysfsGetNodeProps t a i).1 = .success
  · have hfields := gpuNode_fields hi hd hs
    have hmemProps : (topologySysfsGetMemProps t a i).1 = .success := by
      rw [topologySysfsGetMemProps, if_neg hi, hd]
    have hlt : 0 < numNodes - 1 := by omega
    rw [if_neg (not_not.mpr hs), if_pos hs, gpuEntry]
    generalize (topologySysfsGetNodeProps t a i).2 = node at hfields ⊢
    obtain ⟨hcores, hmem, hcaches, hlinks, hgpu⟩ := hfields
    rw [hcores, snapshotRest]
    simp only [ne_eq, not_true_eq_false, if_false, hmem, Nat.one_ne_zero, not_false_eq_true,
      if_true, fillMem, hmemProps, resize_one, snapshotCaches, hcaches, OfNat.ofNat_ne_zero, hd,
      Option.map_some, Option.bind_some, snapshotLinks, hlinks, fillLinks, hlt]
    cases node
    simp only at hcores hmem hcaches hlinks hgpu
    subst hcores hmem hcaches hlinks hgpu
    rfl
  · rw [if_pos hs, if_neg hs]

/-! ## What the table becomes -/

/-- Each entry is filled in over what was there, up to the node where the loop ends. -/
theorem snapshotNodes_entries {k : Nat} {status : HsakmtStatus} {props props' : List NodeProps}
    (h : snapshotNodes t a cpuinfo numNodes k i props = some (status, props'))
    (hlen : i + k ≤ props.length) :
    props'.length = props.length ∧
      (∀ j, nodeAt props' j = nodeAt props j ∨ i ≤ j ∧ j < i + k ∧
        ∃ status', snapshotNode t a cpuinfo numNodes j (nodeAt props j) =
          some (status', nodeAt props' j)) ∧
      (status = .success → ∀ j, i ≤ j → j < i + k →
        snapshotNode t a cpuinfo numNodes j (nodeAt props j) =
          some (.success, nodeAt props' j)) := by
  induction k generalizing i props with
  | zero =>
      cases h
      exact ⟨rfl, fun _ => Or.inl rfl, fun _ j hj hlt => absurd hlt (Nat.not_lt.mpr hj)⟩
  | succ k ih =>
      rw [snapshotNodes] at h
      obtain ⟨⟨status₁, np⟩, hnode, h⟩ := Option.bind_eq_some_iff.mp h
      have hi : i < props.length := by omega
      have hset := nodeAt_set hi np
      simp only at h
      split at h
      next hfail =>
        cases h
        refine ⟨List.length_set, ?_, fun hs => absurd hs hfail⟩
        intro j
        rw [hset]
        split
        next heq =>
          rw [heq]
          exact Or.inr ⟨Nat.le_refl i, by omega, status, hnode⟩
        next => exact Or.inl rfl
      next hok =>
        obtain ⟨hlen', hall, hdone⟩ := ih h (by rw [List.length_set]; omega)
        have hkeep : nodeAt props' i = np := by
          cases hall i with
          | inl heq => rw [heq, hset, if_pos rfl]
          | inr hin => exact absurd hin.1 (Nat.not_succ_le_self i)
        refine ⟨hlen'.trans List.length_set, ?_, ?_⟩
        · intro j
          by_cases hj : j = i
          · rw [hj, hkeep]
            exact Or.inr ⟨Nat.le_refl i, by omega, status₁, hnode⟩
          · have hj' := hall j
            rw [hset, if_neg hj] at hj'
            refine hj'.imp_right fun hin => ?_
            obtain ⟨hle, hlt, hrun⟩ := hin
            exact ⟨by omega, by omega, hrun⟩
        · intro hs j hle hlt
          by_cases hj : j = i
          · rw [hj, hkeep, hnode, not_not.mp hok]
          · have hj' := hdone hs j (by omega) (by omega)
            rwa [hset, if_neg hj] at hj'

theorem nodeAt_resize (numNodes i : Nat) (props : List NodeProps) :
    nodeAt (resize {} numNodes props) i = if i < numNodes then nodeAt props i else {} := by
  simp only [nodeAt, resize, List.getD_eq_getElem?_getD, List.getElem?_append, List.length_take,
    List.getElem?_take, List.getElem?_replicate]
  split
  next h =>
    rw [if_pos (by omega), if_pos (by omega)]
  next h =>
    split
    next hlt =>
      rw [List.getElem?_eq_none (by omega)]
      split <;> rfl
    next => 
      rw [if_neg (by omega)]
      rfl

end RocDxg
