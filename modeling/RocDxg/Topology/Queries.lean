import RocDxg.Topology.Leftovers

/-!
# Queries of the topology

The calls of `topology.cpp` that read the snapshot, and the two functions between the number of
a node and its GPU id.

Three of the four queries test the node against the snapshot.  The one for the memory banks does
not, so it reads a table that may be empty, or that a failed call has left.  It also fills in one
bank less for a GPU than the query for the node has announced.  `queries_agree_iff` says for which
nodes neither matters.

The GPU id of a node is the device id, which all boards of one model share.
`gpu_ids_identify_iff` says that the ids tell the nodes apart exactly if no two devices have the
same id and none has the id zero.

There is no result where a table is indexed behind its end.
-/

namespace RocDxg

open Lib (Reach runAll reach_of_runAll)
open TopologyProps (sampleAnswers)

/-! ## GPU ids -/

namespace TopologyProps

/-- `validate_nodeid`, with the GPU id. -/
def validateNodeid (t : TopologyProps) (nodeid : Nat) : Option (Except HsakmtStatus Nat) :=
  match t.gSystem with
  | none => some (.error .invalidNodeUnit)
  | some sys =>
      if t.gProps = [] ∨ sys.numNodes ≤ nodeid then some (.error .invalidNodeUnit)
      else (t.gProps[nodeid]?).map fun np => .ok np.node.kfdGpuID

/-- The loop of `gpuid_to_nodeid`, from the node `i` on. -/
def findGpuid (t : TopologyProps) (gpuId : Nat) : (k i : Nat) → Option (Except HsakmtStatus Nat)
  | 0, _ => some (.error .invalidNodeUnit)
  | k + 1, i =>
      (t.gProps[i]?).bind fun np =>
        if np.node.kfdGpuID = gpuId then some (.ok i) else findGpuid t gpuId k (i + 1)

/-- `gpuid_to_nodeid`, with the node. -/
def gpuidToNodeid (t : TopologyProps) (gpuId : Nat) : Option (Except HsakmtStatus Nat) :=
  t.gSystem.bind fun sys => t.findGpuid gpuId sys.numNodes 0

end TopologyProps

/-! ## Queries -/

/-- The library of a process: how often it is open, and the topology. -/
structure TopologyClient where
  dxgOpenCount : Nat := 0
  topology : TopologyProps := {}

/-- A call, with what it finds. -/
inductive TopologyCall where
  /-- `hsaKmtOpenKFD`, which may fail when the library is not open yet. -/
  | openKFD (ok : Bool)
  | closeKFD
  | acquireSystemProperties (a : TopologyAnswers)
  | releaseSystemProperties

namespace TopologyClient

/-- `CHECK_DXG_OPEN` -/
def isOpen (c : TopologyClient) : Bool := c.dxgOpenCount ≠ 0

/-- `hsaKmtAcquireSystemProperties` -/
def acquireSystemProperties (c : TopologyClient) (a : TopologyAnswers) :
    Option (HsakmtStatus × TopologyClient) :=
  if c.isOpen = false then some (.kernelIoChannelNotOpened, c)
  else
    match c.topology.gSystem with
    | some _ => some (.success, c)
    | none => (c.topology.takeSnapshot a).map fun (status, t) => (status, { c with topology := t })

/-- One call. -/
def step (c : TopologyClient) : TopologyCall → Option TopologyClient
  | .openKFD ok =>
      if c.dxgOpenCount = 0 then some { c with dxgOpenCount := if ok then 1 else 0 }
      else some { c with dxgOpenCount := u64 (c.dxgOpenCount + 1) }
  | .closeKFD => some { c with dxgOpenCount := c.dxgOpenCount - 1 }
  | .acquireSystemProperties a => (c.acquireSystemProperties a).map Prod.snd
  | .releaseSystemProperties => some { c with topology := c.topology.dropSnapshot }

/-- A query that returns a status, and what it has written. -/
abbrev Answer (α : Type) := Option (HsakmtStatus × Option α)

/-- `hsaKmtGetNodeProperties` -/
def getNodeProperties (c : TopologyClient) (nodeId : Nat) : Answer HsaNodeProperties :=
  if c.isOpen = false then some (.kernelIoChannelNotOpened, none)
  else
    (c.topology.validateNodeid nodeId).bind fun
      | .error status => some (status, none)
      | .ok gpuId =>
          (c.topology.gProps[nodeId]?).map fun np =>
            (.success, some (if gpuId ≠ 0 then
              { np.node with numMemoryBanks := np.node.numMemoryBanks + 3 } else np.node))

/-- The banks that `hsaKmtGetNodeMemoryProperties` adds for a GPU. -/
def addBanks (np : NodeProps) (d : WddmDevice) (i : Nat) (banks : List HsaMemoryProperties) :
    List HsaMemoryProperties :=
  (banks.modify i fun m =>
    { m with
      heapType := .gpuLds
      virtualBaseAddress := d.sharedApertureBase
      sizeInBytes := u32 (np.node.ldsSizeInKB * 1024) }).modify (i + 1) fun m =>
    { m with
      heapType := .gpuScratch
      virtualBaseAddress := d.privateApertureBase
      sizeInBytes := d.privateApertureSize }

/-- `hsaKmtGetNodeMemoryProperties`, with a place for `numBanks` banks. -/
def getNodeMemoryProperties (c : TopologyClient) (nodeId numBanks : Nat) :
    Answer (List HsaMemoryProperties) :=
  if c.isOpen = false then some (.kernelIoChannelNotOpened, none)
  else
    (c.topology.gProps[nodeId]?).bind fun np =>
      let i := min np.node.numMemoryBanks numBanks
      if np.mem.length < i then none
      else
        let banks := resize {} numBanks (np.mem.take i)
        match c.topology.device nodeId with
        | none => some (.success, some banks)
        | some d => some (.success, some (addBanks np d i banks))

/-- The test of the node in the queries for caches and links. -/
def snapshotHas (c : TopologyClient) (nodeId : Nat) : Bool :=
  match c.topology.gSystem with
  | none => false
  | some sys => nodeId < sys.numNodes

/-- `hsaKmtGetNodeCacheProperties` -/
def getNodeCacheProperties (c : TopologyClient) (nodeId numCaches : Nat) :
    Answer (List HsaCacheProperties) :=
  if c.isOpen = false then some (.kernelIoChannelNotOpened, none)
  else if c.snapshotHas nodeId = false then some (.invalidNodeUnit, none)
  else
    (c.topology.gProps[nodeId]?).bind fun np =>
      if numCaches > np.node.numCaches then some (.invalidParameter, none)
      else if np.cache.length < numCaches then none
      else some (.success, some (np.cache.take numCaches))

/-- `hsaKmtGetNodeIoLinkProperties` -/
def getNodeIoLinkProperties (c : TopologyClient) (nodeId numIoLinks : Nat) :
    Answer (List HsaIoLinkProperties) :=
  if c.isOpen = false then some (.kernelIoChannelNotOpened, none)
  else if c.snapshotHas nodeId = false then some (.invalidNodeUnit, none)
  else
    (c.topology.gProps[nodeId]?).bind fun np =>
      if numIoLinks > np.node.numIOLinks then some (.invalidParameter, none)
      else if np.link.length < numIoLinks then none
      else some (.success, some (np.link.take numIoLinks))

/-! ## What the queries have to do -/

/-- The query returns an error. -/
def Rejects {α : Type} (r : Answer α) : Prop := ∃ status out, r = some (status, out) ∧ status ≠ .success

/-- The queries reject a node that the snapshot does not have.  They fill in as many memory
banks as the node is said to have, and leave none of them zeroed. -/
structure QueriesAgree (c : TopologyClient) (nodeId : Nat) : Prop where
  rejects : c.snapshotHas nodeId = false →
    Rejects (c.getNodeProperties nodeId) ∧
    (∀ n, Rejects (c.getNodeMemoryProperties nodeId n)) ∧
    (∀ n, Rejects (c.getNodeCacheProperties nodeId n)) ∧
    ∀ n, Rejects (c.getNodeIoLinkProperties nodeId n)
  fills : ∀ p, c.getNodeProperties nodeId = some (.success, some p) →
    ∃ banks, c.getNodeMemoryProperties nodeId p.numMemoryBanks = some (.success, some banks) ∧
      banks.length = p.numMemoryBanks ∧ ∀ m ∈ banks, m ≠ {}

/-! ## The nodes of a snapshot -/

/-- What the queries find in the entry of a node. -/
structure NodeFacts (t : TopologyProps) (i : Nat) : Prop where
  banks : (nodeAt t.gProps i).node.numMemoryBanks = 1
  mem : ∃ m, (nodeAt t.gProps i).mem = [m] ∧ m ≠ {}
  device : gpuIdAt t.gProps i ≠ 0 → ∃ d, t.device i = some d

/-- A snapshot has an entry for each of its nodes. -/
def Inv (t : TopologyProps) : Prop :=
  ∀ sys, t.gSystem = some sys →
    t.gProps.length = sys.numNodes ∧ ∀ i < sys.numNodes, NodeFacts t i

theorem inv_of_none {t : TopologyProps} (h : t.gSystem = none) : Inv t := by
  intro sys hsys
  rw [h] at hsys
  cases hsys

open TopologyProps in
/-- The nodes of a snapshot that was taken. -/
theorem facts_of_filled {t : TopologyProps} {a : TopologyAnswers} {props : List NodeProps}
    (F : Filled t a props) {i : Nat} (hlt : i < a.devices.length + 1) :
    NodeFacts { t.prepared a with gProps := props, gSystem := some ⟨a.devices.length + 1⟩ } i := by
  by_cases hi : i = 0
  · obtain ⟨cs, _, hentry⟩ := F.cpu
    have hfields : (nodeAt props 0).node.numMemoryBanks = 1 ∧ gpuIdAt props 0 = 0 := by
      rw [gpuIdAt, hentry, cpuEntry]
      simp only
      split
      · exact ⟨(cpuModel_fields _ _).1, (cpuModel_fields _ _).2.2.2⟩
      · exact ⟨rfl, rfl⟩
    subst hi
    refine ⟨hfields.1, ⟨(topologySysfsGetMemProps (t.prepared a) a 0).2, ?_, ?_⟩, ?_⟩
    · show (nodeAt props 0).mem = _
      rw [hentry, cpuEntry]
    · intro h
      have hwidth := congrArg HsaMemoryProperties.width h
      cases hwidth
    · exact fun h => absurd hfields.2 h
  · obtain ⟨d, hd, hs, hentry⟩ := F.gpu i hi hlt
    obtain ⟨d', hd', hdevice⟩ := t.prepared_device a hi hlt
    have hfields := gpuNode_fields hi hdevice hs
    refine ⟨?_, ⟨(topologySysfsGetMemProps (t.prepared a) a i).2, ?_, ?_⟩, fun _ => ⟨d', hdevice⟩⟩
    · show (nodeAt props i).node.numMemoryBanks = 1
      rw [hentry, gpuEntry]
      exact hfields.2.1
    · show (nodeAt props i).mem = _
      rw [hentry, gpuEntry]
    · rw [topologySysfsGetMemProps, if_neg hi, hdevice]
      intro h
      have htype := congrArg HsaMemoryProperties.heapType h
      cases htype

open TopologyProps in
theorem Inv.takeSnapshot {t t' : TopologyProps} {a : TopologyAnswers} {status : HsakmtStatus}
    (hnone : t.gSystem = none) (h : t.takeSnapshot a = some (status, t')) : Inv t' := by
  cases takeSnapshot_result h with
  | noDevice => exact inv_of_none hnone
  | failed => exact inv_of_none hnone
  | noMemory => exact inv_of_none hnone
  | taken hdev hfill =>
      have F := filled_of_success hdev hfill
      rw [F.star.create]
      intro sys hsys
      cases hsys
      exact ⟨F.length, fun i hi => facts_of_filled F hi⟩

theorem Inv.step {c c' : TopologyClient} {call : TopologyCall} (I : Inv c.topology)
    (h : c.step call = some c') : Inv c'.topology := by
  cases call with
  | openKFD ok =>
      rw [TopologyClient.step] at h
      split at h <;> cases h <;> exact I
  | closeKFD =>
      cases h
      exact I
  | acquireSystemProperties a =>
      obtain ⟨⟨status, c₁⟩, hacq, heq⟩ := Option.map_eq_some_iff.mp h
      simp only at heq
      subst heq
      rw [acquireSystemProperties] at hacq
      split at hacq
      next =>
        cases hacq
        exact I
      next =>
        cases hsys : c.topology.gSystem with
        | some sys =>
            rw [hsys] at hacq
            cases hacq
            exact I
        | none =>
            rw [hsys] at hacq
            obtain ⟨⟨status', t'⟩, hsnap, heq⟩ := Option.map_eq_some_iff.mp hacq
            cases heq
            exact Inv.takeSnapshot hsys hsnap
  | releaseSystemProperties =>
      cases h
      exact inv_of_none rfl

/-! ## When the queries agree -/

variable {c : TopologyClient} {nodeId : Nat}

theorem getElem?_of_lt {t : List NodeProps} {i : Nat} (h : i < t.length) :
    t[i]? = some (nodeAt t i) := by
  rw [nodeAt, List.getD_eq_getElem _ _ h, List.getElem?_eq_getElem h]

/-- The query for memory banks never returns an error of its own. -/
theorem not_rejects_memory (hopen : c.isOpen = true) (n : Nat) :
    ¬ Rejects (c.getNodeMemoryProperties nodeId n) := by
  intro h
  obtain ⟨status, out, heq, hne⟩ := h
  rw [getNodeMemoryProperties, hopen, if_neg (by decide)] at heq
  obtain ⟨np, _, heq⟩ := Option.bind_eq_some_iff.mp heq
  simp only at heq
  split at heq
  next => cases heq
  next =>
    split at heq <;> cases heq <;> exact hne rfl

/-- The answer for a node of the snapshot. -/
theorem getNodeProperties_eq (I : Inv c.topology) (hopen : c.isOpen = true)
    (hnode : c.snapshotHas nodeId = true) :
    nodeId < c.topology.gProps.length ∧ NodeFacts c.topology nodeId ∧
      c.getNodeProperties nodeId = some (.success, some
        (if gpuIdAt c.topology.gProps nodeId ≠ 0 then
          { (nodeAt c.topology.gProps nodeId).node with numMemoryBanks := 1 + 3 }
        else (nodeAt c.topology.gProps nodeId).node)) := by
  rw [snapshotHas] at hnode
  cases hsys : c.topology.gSystem with
  | none =>
      rw [hsys] at hnode
      cases hnode
  | some sys =>
      rw [hsys] at hnode
      have hlt : nodeId < sys.numNodes := of_decide_eq_true hnode
      obtain ⟨hlen, hfacts⟩ := I sys hsys
      have F := hfacts nodeId hlt
      have hin : nodeId < c.topology.gProps.length := hlen ▸ hlt
      have hne : ¬ (c.topology.gProps = [] ∨ sys.numNodes ≤ nodeId) := by
        rintro (h | h)
        · rw [h] at hin
          exact absurd hin (Nat.not_lt_zero _)
        · omega
      refine ⟨hin, F, ?_⟩
      rw [getNodeProperties, hopen, if_neg (by decide), TopologyProps.validateNodeid, hsys]
      simp only
      rw [if_neg hne, getElem?_of_lt hin]
      simp only [Option.map_some, Option.bind_some, F.banks]
      rfl

/-- The memory banks of a node of the snapshot. -/
theorem getNodeMemoryProperties_eq (hopen : c.isOpen = true)
    (hin : nodeId < c.topology.gProps.length) (F : NodeFacts c.topology nodeId) (n : Nat) :
    c.getNodeMemoryProperties nodeId (1 + n) = some (.success, some
      (match c.topology.device nodeId with
      | none => resize {} (1 + n) (nodeAt c.topology.gProps nodeId).mem
      | some d => addBanks (nodeAt c.topology.gProps nodeId) d 1
          (resize {} (1 + n) (nodeAt c.topology.gProps nodeId).mem))) := by
  obtain ⟨m, hm, _⟩ := F.mem
  have hmin : min 1 (1 + n) = 1 := by omega
  have htake : (nodeAt c.topology.gProps nodeId).mem.take 1 = (nodeAt c.topology.gProps nodeId).mem := by
    rw [hm]
    rfl
  have hlen : ¬ (nodeAt c.topology.gProps nodeId).mem.length < 1 := by
    rw [hm]
    exact Nat.lt_irrefl 1
  rw [getNodeMemoryProperties, hopen, if_neg (by decide), getElem?_of_lt hin]
  simp only [Option.bind_some, F.banks, hmin, hlen, if_false, htake]
  cases c.topology.device nodeId <;> rfl

/-- In every history the queries agree about a node exactly if the library is not open, or the
snapshot has the node and its GPU id is zero. -/
theorem queries_agree_iff (h : Reach step (fun _ _ => True) {} c) (nodeId : Nat) :
    QueriesAgree c nodeId ↔
      c.isOpen = false ∨ c.snapshotHas nodeId = true ∧ gpuIdAt c.topology.gProps nodeId = 0 := by
  have I : Inv c.topology :=
    h.invariant (I := fun c => Inv c.topology) (inv_of_none rfl) fun _ _ _ I _ hs => I.step hs
  cases hopen : c.isOpen with
  | false =>
      refine ⟨fun _ => Or.inl rfl, fun _ => ⟨fun _ => ⟨?_, fun n => ?_, fun n => ?_, fun n => ?_⟩, ?_⟩⟩
      · exact ⟨.kernelIoChannelNotOpened, none, by rw [getNodeProperties, if_pos hopen], by decide⟩
      · exact ⟨.kernelIoChannelNotOpened, none, by rw [getNodeMemoryProperties, if_pos hopen],
          by decide⟩
      · exact ⟨.kernelIoChannelNotOpened, none, by rw [getNodeCacheProperties, if_pos hopen],
          by decide⟩
      · exact ⟨.kernelIoChannelNotOpened, none, by rw [getNodeIoLinkProperties, if_pos hopen],
          by decide⟩
      · intro p hp
        rw [getNodeProperties, if_pos hopen] at hp
        cases hp
  | true =>
      cases hnode : c.snapshotHas nodeId with
      | false =>
          constructor
          · intro hagree
            exact absurd ((hagree.rejects hnode).2.1 0) (not_rejects_memory hopen 0)
          · rintro (h | h)
            · cases h
            · cases h.1
      | true =>
          obtain ⟨hin, F, hprops⟩ := getNodeProperties_eq I hopen hnode
          obtain ⟨m, hm, hne⟩ := F.mem
          constructor
          · intro hagree
            refine Or.inr ⟨rfl, ?_⟩
            by_cases hgpu : gpuIdAt c.topology.gProps nodeId = 0
            · exact hgpu
            · rw [if_pos hgpu] at hprops
              obtain ⟨banks, hbanks, _, hall⟩ := hagree.fills _ hprops
              obtain ⟨d, hd⟩ := F.device hgpu
              rw [getNodeMemoryProperties_eq hopen hin F 3, hd, hm] at hbanks
              cases hbanks
              exact absurd rfl (hall {} (by simp [addBanks, resize]))
          · rintro (h | h)
            · cases h
            · refine ⟨fun hno => absurd (hnode.symm.trans hno) (by decide), fun p hp => ?_⟩
              rw [if_neg (not_not.mpr h.2)] at hprops
              rw [hprops] at hp
              cases hp
              rw [F.banks, getNodeMemoryProperties_eq hopen hin F 0]
              refine ⟨_, rfl, ?_⟩
              rw [hm]
              cases c.topology.device nodeId <;>
                exact ⟨rfl, fun x hx => List.mem_singleton.mp hx ▸ hne⟩

/-- The queries agree about the processor of a snapshot. -/
theorem queries_agree_iff_processor :
    ∃ c, Reach step (fun _ _ => True) {} c ∧ c.snapshotHas 0 = true ∧ QueriesAgree c 0 := by
  have hrun : (runAll step (fun _ _ => True) {}
      [.openKFD true, .acquireSystemProperties (sampleAnswers .unset)]).map (fun c =>
        (c.snapshotHas 0, gpuIdAt c.topology.gProps 0)) = some (true, 0) := by
    decide
  obtain ⟨c, hc, hproj⟩ := Option.map_eq_some_iff.mp hrun
  obtain ⟨hnode, hgpu⟩ := Prod.mk.inj hproj
  have hreach := reach_of_runAll hc
  exact ⟨c, hreach, hnode, (queries_agree_iff hreach 0).mpr (Or.inr ⟨hnode, hgpu⟩)⟩

/-- Without a snapshot the query for memory banks reads behind the end of the table, and for a GPU
it leaves the last of the banks zeroed. -/
theorem memory_query_disagrees :
    (¬ ∀ c nodeId, Reach step (fun _ _ => True) {} c → c.snapshotHas nodeId = false →
      ∀ n, Rejects (c.getNodeMemoryProperties nodeId n)) ∧
    ¬ ∀ c nodeId, Reach step (fun _ _ => True) {} c →
      ∀ p, c.getNodeProperties nodeId = some (.success, some p) →
        ∃ banks, c.getNodeMemoryProperties nodeId p.numMemoryBanks = some (.success, some banks) ∧
          banks.length = p.numMemoryBanks ∧ ∀ m ∈ banks, m ≠ {} := by
  constructor
  · intro hall
    have hrun : (step {} (.openKFD true)).map (fun c =>
        (c.snapshotHas 0, c.getNodeMemoryProperties 0 0)) = some (false, none) := by
      decide
    obtain ⟨c, hc, hproj⟩ := Option.map_eq_some_iff.mp hrun
    obtain ⟨hnode, hquery⟩ := Prod.mk.inj hproj
    obtain ⟨status, out, heq, _⟩ := hall c 0 (.step .start trivial hc) hnode 0
    rw [hquery] at heq
    cases heq
  · intro hall
    have hrun : (runAll step (fun _ _ => True) {}
        [.openKFD true, .acquireSystemProperties (sampleAnswers .unset)]).map (fun c =>
          ((c.getNodeProperties 1).map fun r => (r.1, r.2.map (·.numMemoryBanks)),
            (c.getNodeMemoryProperties 1 4).map fun r => r.2.map fun banks => banks[3]?)) =
        some (some (.success, some 4), some (some (some ({} : HsaMemoryProperties)))) := by
      decide
    obtain ⟨c, hc, hproj⟩ := Option.map_eq_some_iff.mp hrun
    obtain ⟨hprops, hbanks⟩ := Prod.mk.inj hproj
    obtain ⟨⟨status, out⟩, hquery, hout⟩ := Option.map_eq_some_iff.mp hprops
    obtain ⟨hstatus, hout⟩ := Prod.mk.inj hout
    obtain ⟨p, hp, hfour⟩ := Option.map_eq_some_iff.mp hout
    simp only at hstatus hp
    subst hstatus hp
    obtain ⟨banks, hmem, _, hne⟩ := hall c 1 (reach_of_runAll hc) p hquery
    rw [hfour] at hmem
    rw [hmem] at hbanks
    have hlast : banks[3]? = some ({} : HsaMemoryProperties) := Option.some.inj (Option.some.inj hbanks)
    exact hne {} (List.mem_of_getElem? hlast) rfl

end TopologyClient

/-! ## When the ids identify the nodes -/

namespace TopologyProps

variable {t t' : TopologyProps} {a : TopologyAnswers}

/-- The GPU ids of the nodes. -/
def gpuIds (t : TopologyProps) : List Nat := t.gProps.map (·.node.kfdGpuID)

/-- A list whose elements are all found at their own place, the first one apart, has no element
twice. -/
theorem nodup_iff_idxOf {ids : List Nat} :
    ids.Nodup ↔ ∀ n id, n ≠ 0 → ids[n]? = some id → ids.idxOf id = n := by
  constructor
  · intro h n id _ hid
    obtain ⟨hlt, rfl⟩ := List.getElem?_eq_some_iff.mp hid
    exact h.idxOf_getElem n hlt
  · intro h
    rw [List.Nodup, List.pairwise_iff_getElem]
    intro i j hi hj hij heq
    have hfirst : ids.idxOf ids[j] = j :=
      h j ids[j] (Nat.ne_of_gt (Nat.lt_of_le_of_lt (Nat.zero_le i) hij)) (List.getElem?_eq_getElem hj)
    have hmem : ids[j] ∈ ids.take (i + 1) :=
      List.mem_take_iff_getElem.mpr ⟨i, by omega, heq⟩
    have hle := (List.mem_take_iff_idxOf_lt (List.getElem_mem hj)).mp hmem
    omega

/-- The loop of `gpuid_to_nodeid` finds the first node with the id. -/
theorem findGpuid_eq (t : TopologyProps) (gpuId : Nat) {k i : Nat}
    (h : i + k = t.gProps.length) :
    t.findGpuid gpuId k i =
      if gpuId ∈ t.gpuIds.drop i then some (.ok (i + (t.gpuIds.drop i).idxOf gpuId))
      else some (.error .invalidNodeUnit) := by
  induction k generalizing i with
  | zero =>
      have hlen : t.gpuIds.length ≤ i := by
        rw [gpuIds, List.length_map]
        omega
      rw [List.drop_eq_nil_of_le hlen]
      rfl
  | succ k ih =>
      have hlt : i < t.gProps.length := by omega
      have hlt' : i < t.gpuIds.length := by
        rw [gpuIds, List.length_map]
        exact hlt
      have hget : t.gpuIds[i] = t.gProps[i].node.kfdGpuID := by
        simp only [gpuIds, List.getElem_map]
      rw [findGpuid, List.getElem?_eq_getElem hlt, Option.bind_some, ih (by omega),
        List.drop_eq_getElem_cons hlt', hget]
      by_cases heq : t.gProps[i].node.kfdGpuID = gpuId
      · rw [if_pos heq, heq, if_pos List.mem_cons_self, List.idxOf_cons_self]
        rfl
      · rw [if_neg heq, List.idxOf_cons_ne _ heq]
        have hmem : gpuId ∈ t.gProps[i].node.kfdGpuID :: t.gpuIds.drop (i + 1) ↔
            gpuId ∈ t.gpuIds.drop (i + 1) := by
          rw [List.mem_cons, or_iff_right (Ne.symm heq)]
        simp only [hmem, Nat.succ_eq_add_one, Nat.add_assoc, Nat.add_comm 1]

/-- The ids of a snapshot are those of the devices, after a zero for the processor. -/
theorem gpuIds_of_filled {props : List NodeProps} (F : Filled t a props) :
    props.map (·.node.kfdGpuID) = 0 :: a.devices.map WddmDevice.deviceId := by
  apply List.ext_getElem?
  intro i
  by_cases hlt : i < a.devices.length + 1
  · rw [List.getElem?_map, TopologyClient.getElem?_of_lt (F.length.symm ▸ hlt), Option.map_some]
    by_cases hi : i = 0
    · obtain ⟨cs, _, hentry⟩ := F.cpu
      rw [hi, hentry, cpuEntry]
      simp only
      split
      · rw [(cpuModel_fields _ _).2.2.2]
        rfl
      · rfl
    · obtain ⟨d, hd, hs, hentry⟩ := F.gpu i hi hlt
      obtain ⟨d', hd', hdevice⟩ := t.prepared_device a hi hlt
      have hsame : d' = d := Option.some.inj (hd'.symm.trans hd)
      have hid := (gpuNode_fields hi hdevice hs).2.2.2.2
      rw [hentry, gpuEntry, List.getElem?_cons, if_neg hi, List.getElem?_map, hd]
      simp only [hid, hsame, Option.map_some]
  · rw [List.getElem?_eq_none (by rw [List.length_map, F.length]; omega),
      List.getElem?_eq_none (by rw [List.length_cons, List.length_map]; omega)]

/-- What a snapshot that was taken has to do with the ids. -/
theorem gpuIds_of_taken (h : t.takeSnapshot a = some (.success, t')) :
    t'.gSystem = some ⟨t'.gProps.length⟩ ∧
      t'.gpuIds = 0 :: a.devices.map WddmDevice.deviceId := by
  have hres := takeSnapshot_result h
  generalize hst : HsakmtStatus.success = status at hres
  cases hres with
  | noDevice => cases hst
  | failed _ _ hne => exact absurd hst.symm hne
  | noMemory => cases hst
  | taken hdev hfill =>
      have F := filled_of_success hdev hfill
      rw [F.star.create]
      refine ⟨?_, gpuIds_of_filled F⟩
      show some (HsaSystemProperties.mk (a.devices.length + 1)) = some ⟨_⟩
      rw [F.length]

/-- The GPU ids of a snapshot identify its nodes exactly if no two devices have the same id and
none has the id zero. -/
theorem gpu_ids_identify_iff (h : t.takeSnapshot a = some (.success, t')) :
    ((∀ n gpuId, n ≠ 0 → t'.validateNodeid n = some (.ok gpuId) →
        t'.gpuidToNodeid gpuId = some (.ok n)) ∧
      ∀ gpuId, gpuId ≠ 0 → t'.gpuidToNodeid gpuId ≠ some (.ok 0)) ↔
      (0 :: a.devices.map WddmDevice.deviceId).Nodup := by
  obtain ⟨hsys, hids⟩ := gpuIds_of_taken h
  have hlookup : ∀ gpuId, t'.gpuidToNodeid gpuId =
      if gpuId ∈ t'.gpuIds then some (.ok (t'.gpuIds.idxOf gpuId))
      else some (.error .invalidNodeUnit) := by
    intro gpuId
    rw [gpuidToNodeid, hsys, Option.bind_some, t'.findGpuid_eq gpuId (Nat.zero_add _),
      List.drop_zero, Nat.zero_add]
  have hvalid : ∀ n gpuId, t'.validateNodeid n = some (.ok gpuId) ↔ t'.gpuIds[n]? = some gpuId := by
    intro n gpuId
    rw [validateNodeid, hsys, gpuIds, List.getElem?_map]
    simp only
    by_cases hlt : n < t'.gProps.length
    · have hne : ¬ (t'.gProps = [] ∨ t'.gProps.length ≤ n) := by
        intro hbad
        cases hbad with
        | inl hnil => simp [hnil] at hlt
        | inr hle => omega
      rw [if_neg hne, List.getElem?_eq_getElem hlt]
      simp
    · rw [if_pos (Or.inr (Nat.le_of_not_lt hlt)), List.getElem?_eq_none (Nat.le_of_not_lt hlt)]
      simp
  rw [← hids, nodup_iff_idxOf]
  constructor
  · intro hall n gpuId hn hid
    have hfound := hall.1 n gpuId hn ((hvalid n gpuId).mpr hid)
    rw [hlookup, if_pos (List.mem_of_getElem? hid)] at hfound
    exact Except.ok.inj (Option.some.inj hfound)
  · intro hall
    refine ⟨fun n gpuId hn hid => ?_, fun gpuId hne hzero => ?_⟩
    · have hat := (hvalid n gpuId).mp hid
      rw [hlookup, if_pos (List.mem_of_getElem? hat), hall n gpuId hn hat]
    · rw [hlookup] at hzero
      split at hzero
      next =>
        have hidx : t'.gpuIds.idxOf gpuId = 0 := Except.ok.inj (Option.some.inj hzero)
        rw [hids, List.idxOf_cons_ne _ (Ne.symm hne)] at hidx
        cases hidx
      next => cases hzero

/-- Two boards of different models have nodes that their ids tell apart. -/
theorem gpu_ids_identify_iff_two_boards :
    ∃ t', ({} : TopologyProps).takeSnapshot
        { sampleAnswers .unset with devices := [{ deviceId := 0x744c }, { deviceId := 0x7480 }] } =
          some (.success, t') ∧
      (∀ n gpuId, n ≠ 0 → t'.validateNodeid n = some (.ok gpuId) →
        t'.gpuidToNodeid gpuId = some (.ok n)) ∧
      ∀ gpuId, gpuId ≠ 0 → t'.gpuidToNodeid gpuId ≠ some (.ok 0) := by
  have hrun : (({} : TopologyProps).takeSnapshot
      { sampleAnswers .unset with devices := [{ deviceId := 0x744c }, { deviceId := 0x7480 }] }).map
        Prod.fst = some .success := by
    decide
  obtain ⟨⟨status, t'⟩, hsnap, hstatus⟩ := Option.map_eq_some_iff.mp hrun
  simp only at hstatus
  subst hstatus
  exact ⟨t', hsnap, (gpu_ids_identify_iff hsnap).mpr (by decide)⟩

/-- The second of two boards of one model is taken for the first. -/
theorem gpuid_of_second_board :
    ¬ ∀ (a : TopologyAnswers) (t' : TopologyProps) (n gpuId : Nat),
      ({} : TopologyProps).takeSnapshot a = some (.success, t') → n ≠ 0 →
      t'.validateNodeid n = some (.ok gpuId) → t'.gpuidToNodeid gpuId = some (.ok n) := by
  intro hall
  have hrun : (({} : TopologyProps).takeSnapshot
      { sampleAnswers .unset with devices := [{ deviceId := 0x744c }, { deviceId := 0x744c }] }).map
        (fun r => (r.1, (r.2.validateNodeid 2).map Except.toOption,
          (r.2.gpuidToNodeid 0x744c).map Except.toOption)) =
      some (.success, some (some 0x744c), some (some 1)) := by
    decide
  obtain ⟨⟨status, t'⟩, hsnap, hproj⟩ := Option.map_eq_some_iff.mp hrun
  simp only [Prod.mk.injEq] at hproj
  obtain ⟨rfl, hvalid, hfound⟩ := hproj
  obtain ⟨r, hr, hok⟩ := Option.map_eq_some_iff.mp hvalid
  cases r with
  | error status => cases hok
  | ok gpuId =>
      cases hok
      rw [hall _ t' 2 0x744c hsnap (by decide) hr] at hfound
      cases hfound

end TopologyProps

end RocDxg
