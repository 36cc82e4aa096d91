import RocDxg.Topology.Snapshot

/-!
# What a failed snapshot leaves behind

A call of `hsaKmtAcquireSystemProperties` whose snapshot fails keeps the table that it was
filling in, and so does the next one.  Almost all of an entry is written again.  The caches of the
processor are not: they are appended to those of the call before.  Besides, the clock is never
lower than one that was read before, unless it has a file of its own, and the vendor of the
processor is the one that was read first.

`failed_snapshots_iff` says that these three are all: after any number of failed calls the
snapshot is that of a first call exactly if no caches are left, the clock is not lower, and the
vendor that was kept says the same of the processor.
-/

namespace RocDxg

open Lib (Reach runAll reach_of_runAll)

/-! ## The outcome of a snapshot -/

namespace TopologyProps

/-- The topology when the loop over the nodes starts. -/
def prepared (t : TopologyProps) (a : TopologyAnswers) : TopologyProps :=
  { t.readCpuinfo a with wdevices := a.devices, numSysfsNodes := a.devices.length + 1 }

/-- The loop over the nodes. -/
def fillNodes (t : TopologyProps) (a : TopologyAnswers) : Option (HsakmtStatus × List NodeProps) :=
  snapshotNodes (t.prepared a) a (t.cpuinfo a) (a.devices.length + 1) (a.devices.length + 1) 0
    (resize {} (a.devices.length + 1) t.gProps)

/-- The cases of a snapshot. -/
inductive SnapshotResult (t : TopologyProps) (a : TopologyAnswers) :
    HsakmtStatus → TopologyProps → Prop where
  | noDevice : a.devices = [] →
      SnapshotResult t a .error { t.readCpuinfo a with wdevices := a.devices }
  | failed {status : HsakmtStatus} {props : List NodeProps} : a.devices ≠ [] →
      t.fillNodes a = some (status, props) → status ≠ .success →
      SnapshotResult t a status { t.prepared a with gProps := props }
  | noMemory {props : List NodeProps} : a.devices ≠ [] →
      t.fillNodes a = some (.success, props) → t.gSystem = none →
      SnapshotResult t a .noMemory { t.prepared a with
        gProps := topologyCreateIndirectGpuLinks (a.devices.length + 1) props }
  | taken {props : List NodeProps} : a.devices ≠ [] →
      t.fillNodes a = some (.success, props) →
      SnapshotResult t a .success { t.prepared a with
        gProps := topologyCreateIndirectGpuLinks (a.devices.length + 1) props
        gSystem := some ⟨a.devices.length + 1⟩ }

theorem takeSnapshot_result {t t' : TopologyProps} {a : TopologyAnswers} {status : HsakmtStatus}
    (h : t.takeSnapshot a = some (status, t')) : SnapshotResult t a status t' := by
  by_cases hdev : a.devices = []
  · simp only [takeSnapshot, systemProps, if_pos hdev] at h
    cases h
    exact .noDevice hdev
  · simp only [takeSnapshot, systemProps, if_neg hdev] at h
    obtain ⟨⟨status₁, props⟩, hfill, h⟩ := Option.map_eq_some_iff.mp h
    change t.fillNodes a = some (status₁, props) at hfill
    simp only at h
    split at h
    next hfail =>
      cases h
      exact .failed hdev hfill hfail
    next hok =>
      rw [not_not.mp hok] at hfill
      rw [publish] at h
      simp only at h
      split at h
      next hmem =>
        cases h
        exact .noMemory hdev hfill hmem.1
      next =>
        cases h
        exact .taken hdev hfill

theorem prepared_device (t : TopologyProps) (a : TopologyAnswers) {i : Nat} (hi : i ≠ 0)
    (hlt : i < a.devices.length + 1) :
    ∃ d, a.devices[i - 1]? = some d ∧ (t.prepared a).device i = some d := by
  have hlen : i - 1 < a.devices.length := by omega
  have hne : a.devices ≠ [] := List.ne_nil_of_length_pos (Nat.lt_of_le_of_lt (Nat.zero_le _) hlen)
  refine ⟨a.devices[i - 1], List.getElem?_eq_getElem hlen, ?_⟩
  show (if a.devices = [] ∨ i = 0 ∨ i ≥ a.devices.length + 1 then none else a.devices[i - 1]?) = _
  rw [if_neg]
  · exact List.getElem?_eq_getElem hlen
  · rintro (h | h | h)
    · exact hne h
    · exact hi h
    · omega

/-- The caches that are read for the processor. -/
def cachesRead (t : TopologyProps) (a : TopologyAnswers) : Option (List HsaCacheProperties) :=
  (cacheDirs a.cpuDirs (isPower9 (t.readCpuinfo a).processorVendor (t.cpuinfo a)) 0).bind
    (cpuCaches (isPower9 (t.readCpuinfo a).processorVendor (t.cpuinfo a)) (t.cpuinfo a))

/-- The entries of a snapshot whose loop has come to its end. -/
structure Filled (t : TopologyProps) (a : TopologyAnswers) (props : List NodeProps) : Prop where
  length : props.length = a.devices.length + 1
  cpu : ∃ cs, t.cachesRead a = some cs ∧ nodeAt props 0 =
    cpuEntry (t.prepared a) a (t.cpuinfo a) (a.devices.length + 1) cs (nodeAt t.gProps 0)
  gpu : ∀ i, i ≠ 0 → i < a.devices.length + 1 → ∃ d, a.devices[i - 1]? = some d ∧
    (topologySysfsGetNodeProps (t.prepared a) a i).1 = .success ∧
    nodeAt props i = gpuEntry (t.prepared a) a d (a.devices.length + 1) i (nodeAt t.gProps i)

theorem filled_of_success {t : TopologyProps} {a : TopologyAnswers} {props : List NodeProps}
    (hdev : a.devices ≠ []) (h : t.fillNodes a = some (.success, props)) : Filled t a props := by
  have hpos := List.length_pos_iff.mpr hdev
  obtain ⟨hlen, _, hdone⟩ := snapshotNodes_entries h (by rw [length_resize]; omega)
  refine ⟨hlen.trans (length_resize ..), ?_, ?_⟩
  · have hcpu := hdone rfl 0 (Nat.le_refl 0) (by omega)
    rw [nodeAt_resize, if_pos (Nat.succ_pos _), snapshotNode_cpu] at hcpu
    simp only [cachesRead]
    have hvendor : (t.prepared a).processorVendor = (t.readCpuinfo a).processorVendor := rfl
    rw [hvendor] at hcpu
    cases hdirs : cacheDirs a.cpuDirs
        (isPower9 (t.readCpuinfo a).processorVendor (t.cpuinfo a)) 0 with
    | none =>
        rw [hdirs] at hcpu
        cases hcpu
    | some entries =>
        rw [hdirs] at hcpu
        obtain ⟨cs, hcs, heq⟩ := Option.map_eq_some_iff.mp hcpu
        exact ⟨cs, hcs, (Prod.mk.inj heq).2.symm⟩
  · intro i hi hlt
    obtain ⟨d, hd, hdevice⟩ := t.prepared_device a hi hlt
    have hgpu := hdone rfl i (Nat.zero_le i) (by omega)
    rw [nodeAt_resize, if_pos hlt, snapshotNode_gpu hi hdevice (by omega)] at hgpu
    by_cases hs : (topologySysfsGetNodeProps (t.prepared a) a i).1 = .success
    · rw [if_pos hs] at hgpu
      exact ⟨d, hd, hs, (Prod.mk.inj (Option.some.inj hgpu)).2.symm⟩
    · rw [if_neg hs] at hgpu
      exact absurd (Prod.mk.inj (Option.some.inj hgpu)).1 hs

/-- The links of a GPU are the one to the processor. -/
theorem Filled.links {t : TopologyProps} {a : TopologyAnswers} {props : List NodeProps}
    (F : Filled t a props) {i : Nat} (hi : i ≠ 0) (hlt : i < a.devices.length + 1) :
    ∃ d, linksAt props i = [topologySysfsGetIolinkProps d i] := by
  obtain ⟨d, hd, hs, hentry⟩ := F.gpu i hi hlt
  obtain ⟨d', _, hdevice⟩ := t.prepared_device a hi hlt
  have hlinks := (gpuNode_fields hi hdevice hs).2.2.2.1
  refine ⟨d, ?_⟩
  rw [linksAt, hentry, gpuEntry]
  simp only [hlinks]
  have hlen := length_resize ({} : HsaIoLinkProperties) (a.devices.length + 1 - 1)
    (nodeAt t.gProps i).link
  cases hlink : resize ({} : HsaIoLinkProperties) (a.devices.length + 1 - 1)
      (nodeAt t.gProps i).link with
  | nil =>
      rw [hlink, List.length_nil] at hlen
      omega
  | cons l ls => rfl

/-- No indirect links are added to the table of a snapshot. -/
theorem Filled.star {t : TopologyProps} {a : TopologyAnswers} {props : List NodeProps}
    (F : Filled t a props) : Star props where
  root := by
    obtain ⟨cs, _, hentry⟩ := F.cpu
    have hzero : (nodeAt props 0).node.numIOLinks = 0 := by
      rw [hentry, cpuEntry]
      simp only
      split
      · exact (cpuModel_fields _ _).2.2.1
      · rfl
    rw [linksAt, hzero, List.take_zero]
  leaf := by
    intro i l hl
    by_cases hi : i = 0
    · obtain ⟨cs, _, hentry⟩ := F.cpu
      rw [hi, linksAt, hentry, cpuEntry] at hl
      simp only at hl
      split at hl
      · rw [(cpuModel_fields _ _).2.2.1] at hl
        cases hl
      · cases hl
    · by_cases hlt : i < a.devices.length + 1
      · obtain ⟨d, hlinks⟩ := F.links hi hlt
        rw [hlinks] at hl
        rw [List.mem_singleton.mp hl]
        rfl
      · rw [linksAt, nodeAt_of_ge (F.length.trans_le (Nat.le_of_not_lt hlt))] at hl
        cases hl

/-! ## What a failed call leaves in an entry -/

/-- A record of a cache that becomes the same as a new one when it is written. -/
def Rewritten (c : HsaCacheProperties) : Prop :=
  ∀ level size, setGpuCache level size c = setGpuCache level size {}

/-- The entry of a node as a call may leave it: a link is at most in the first slot of a GPU, and
the caches of a GPU are written again. -/
structure Leftover (i : Nat) (np : NodeProps) : Prop where
  link : ∀ k, i = 0 ∨ k ≠ 0 → np.link.getD k {} = {}
  cache : i ≠ 0 → ∀ c ∈ np.cache, Rewritten c

theorem leftover_empty (i : Nat) : Leftover i {} :=
  ⟨fun _ _ => rfl, fun _ _ hc => absurd hc List.not_mem_nil⟩

theorem getElem?_resize {α : Type} (x : α) (n k : Nat) (xs : List α) :
    (resize x n xs)[k]? = if k < n then some (xs.getD k x) else none := by
  simp only [resize, List.getD_eq_getElem?_getD, List.getElem?_append, List.length_take,
    List.getElem?_take, List.getElem?_replicate]
  by_cases hk : k < n
  · simp only [hk, if_true]
    by_cases hlen : k < xs.length
    · rw [if_pos (by omega), List.getElem?_eq_getElem hlen]
      rfl
    · rw [if_neg (by omega), List.getElem?_eq_none (by omega), if_pos (by omega)]
      rfl
  · simp only [hk, if_false]
    split
    · rfl
    · rw [if_neg (by omega)]

theorem getD_resize {α : Type} (x : α) (n k : Nat) (xs : List α) :
    (resize x n xs).getD k x = if k < n then xs.getD k x else x := by
  rw [List.getD_eq_getElem?_getD, getElem?_resize]
  split <;> rfl

theorem mem_resize {α : Type} {x y : α} {n : Nat} {xs : List α} (h : y ∈ resize x n xs) :
    y ∈ xs ∨ y = x := by
  rw [resize, List.mem_append] at h
  exact h.imp List.mem_of_mem_take List.eq_of_mem_replicate

/-- The three caches that are written over what was there. -/
theorem fillCache_leftover (d : WddmDevice) {cache : List HsaCacheProperties}
    (h : ∀ c ∈ cache, Rewritten c) :
    fillCache d (resize {} 3 cache) =
      [setGpuCache 1 d.l1CacheSize {}, setGpuCache 2 d.l2CacheSize {},
        setGpuCache 3 d.l3CacheSize {}] := by
  have hall : ∀ c ∈ resize {} 3 cache, Rewritten c := by
    intro c hc
    cases mem_resize hc with
    | inl hc => exact h c hc
    | inr hc =>
        rw [hc]
        exact fun _ _ => rfl
  obtain ⟨x, y, z, heq⟩ := List.length_eq_three.mp (length_resize ({} : HsaCacheProperties) 3 cache)
  rw [heq] at hall ⊢
  have hx := hall x (by simp)
  have hy := hall y (by simp)
  have hz := hall z (by simp)
  show [setGpuCache 1 d.l1CacheSize x, setGpuCache 2 d.l2CacheSize y,
    setGpuCache 3 d.l3CacheSize z] = _
  rw [hx, hy, hz]

theorem link_leftover {i n : Nat} {np : NodeProps} (L : Leftover i np)
    (l : HsaIoLinkProperties) :
    (resize {} n np.link).set 0 l = (resize {} n []).set 0 l := by
  apply List.ext_getElem?
  intro k
  rw [List.getElem?_set, List.getElem?_set, length_resize, length_resize, getElem?_resize,
    getElem?_resize]
  split
  next => rfl
  next hk =>
    rw [L.link k (Or.inr fun h => hk h.symm)]
    rfl

theorem link_leftover_cpu {n : Nat} {np : NodeProps} (L : Leftover 0 np) :
    resize {} n np.link = resize {} n [] := by
  apply List.ext_getElem?
  intro k
  rw [getElem?_resize, getElem?_resize, L.link k (Or.inl rfl)]
  rfl

/-- What the loop does to an entry leaves it so. -/
theorem Leftover.snapshotNode {t : TopologyProps} {a : TopologyAnswers} {cpuinfo : CpuTable} {i : Nat}
    {np np' : NodeProps} {status : HsakmtStatus} (L : Leftover i np)
    (hlt : i < a.devices.length + 1) (hdev : a.devices ≠ [])
    (h : snapshotNode (t.prepared a) a cpuinfo (a.devices.length + 1) i np = some (status, np')) :
    Leftover i np' := by
  by_cases hi : i = 0
  · subst hi
    rw [snapshotNode_cpu] at h
    split at h
    next =>
      cases h
      exact ⟨L.link, fun hne => absurd rfl hne⟩
    next =>
      obtain ⟨cs, _, heq⟩ := Option.map_eq_some_iff.mp h
      cases heq
      refine ⟨fun k hk => ?_, fun hne => absurd rfl hne⟩
      rw [cpuEntry, getD_resize, L.link k hk, ite_self]
  · obtain ⟨d, _, hdevice⟩ := t.prepared_device a hi hlt
    have hpos := List.length_pos_iff.mpr hdev
    rw [snapshotNode_gpu hi hdevice (by omega)] at h
    split at h
    next =>
      cases h
      refine ⟨fun k hk => ?_, fun _ c hc => ?_⟩
      · have hk0 : k ≠ 0 := hk.resolve_left hi
        rw [gpuEntry, List.getD_eq_getElem?_getD, List.getElem?_set_ne (Ne.symm hk0),
          ← List.getD_eq_getElem?_getD, getD_resize, L.link k hk, ite_self]
      · rw [gpuEntry, fillCache_leftover d (L.cache hi)] at hc
        simp only [List.mem_cons, List.not_mem_nil, or_false] at hc
        rcases hc with rfl | rfl | rfl <;> exact fun _ _ => rfl
    next =>
      cases h
      exact ⟨L.link, L.cache⟩

/-! ## Runs of failed calls -/

/-- A call of `topology_take_snapshot`. -/
def attempt (t : TopologyProps) (a : TopologyAnswers) : Option TopologyProps :=
  (t.takeSnapshot a).map Prod.snd

/-- The call fails. -/
def Fails (t : TopologyProps) (a : TopologyAnswers) : Prop :=
  (t.takeSnapshot a).map Prod.fst ≠ some .success

instance (t : TopologyProps) (a : TopologyAnswers) : Decidable (Fails t a) :=
  inferInstanceAs (Decidable (_ ≠ _))

/-- The table after failed calls. -/
structure Inv (t : TopologyProps) : Prop where
  gSystem : t.gSystem = none
  entries : ∀ i, Leftover i (nodeAt t.gProps i)

theorem Inv.fillNodes {t : TopologyProps} {a : TopologyAnswers} {status : HsakmtStatus}
    {props : List NodeProps} (I : Inv t) (hdev : a.devices ≠ [])
    (h : t.fillNodes a = some (status, props)) (i : Nat) : Leftover i (nodeAt props i) := by
  obtain ⟨_, hall, _⟩ := snapshotNodes_entries h (by rw [length_resize]; omega)
  have L : Leftover i (nodeAt (resize {} (a.devices.length + 1) t.gProps) i) := by
    rw [nodeAt_resize]
    split
    · exact I.entries i
    · exact leftover_empty i
  cases hall i with
  | inl heq => exact heq ▸ L
  | inr hin =>
      obtain ⟨_, hlt, _, hrun⟩ := hin
      exact L.snapshotNode (by omega) hdev hrun

theorem Inv.attempt {t t' : TopologyProps} {a : TopologyAnswers} (I : Inv t) (hf : Fails t a)
    (h : t.attempt a = some t') : Inv t' := by
  obtain ⟨⟨status, t₁⟩, hsnap, heq⟩ := Option.map_eq_some_iff.mp h
  simp only at heq
  subst heq
  rw [Fails, hsnap] at hf
  cases takeSnapshot_result hsnap with
  | noDevice => exact ⟨I.gSystem, I.entries⟩
  | failed hdev hfill => exact ⟨I.gSystem, I.fillNodes hdev hfill⟩
  | noMemory hdev hfill =>
      rw [(filled_of_success hdev hfill).star.create]
      exact ⟨I.gSystem, I.fillNodes hdev hfill⟩
  | taken => exact absurd rfl hf

/-! ## What is read again -/

/-- Two states of the parser, the first of which started from a vendor and a clock that were read
before. -/
structure SameParse (vendor : Option ProcessorVendor) (freq : Nat) (s s' : CpuinfoState) :
    Prop where
  proc : s.proc = s'.proc
  cpuinfo : s.cpuinfo = s'.cpuinfo
  processorVendor : s.processorVendor = vendor.or s'.processorVendor
  freqMax : s.freqMax = max freq s'.freqMax

/-- The line of the vendor is read only if none was read before. -/
theorem SameParse.vendorId {vendor : Option ProcessorVendor} {freq : Nat} {s s' : CpuinfoState}
    (h : SameParse vendor freq s s') (read : Option ProcessorVendor) :
    SameParse vendor freq
      (if s.processorVendor = none then { s with processorVendor := read } else s)
      (if s'.processorVendor = none then { s' with processorVendor := read } else s') := by
  have hv := h.processorVendor
  cases vendor with
  | none =>
      rw [Option.none_or] at hv
      rw [hv]
      split
      next => exact ⟨h.proc, h.cpuinfo, rfl, h.freqMax⟩
      next => exact h
  | some v =>
      rw [Option.some_or] at hv
      rw [hv, if_neg (Option.some_ne_none v)]
      split
      next => exact ⟨h.proc, h.cpuinfo, hv, h.freqMax⟩
      next => exact h

theorem parseLines_same {vendor : Option ProcessorVendor} {freq : Nat} (maxFreq : Bool)
    (lines : List CpuinfoLine) {s s' : CpuinfoState} (h : SameParse vendor freq s s') :
    (parseLines maxFreq lines s).1 = (parseLines maxFreq lines s').1 ∧
      SameParse vendor freq (parseLines maxFreq lines s).2 (parseLines maxFreq lines s').2 := by
  induction lines generalizing s s' with
  | nil => exact ⟨rfl, h⟩
  | cons line lines ih =>
      cases line with
      | processor n =>
          rw [parseLines, parseLines, h.cpuinfo]
          split
          next => exact ⟨rfl, rfl, rfl, h.processorVendor, h.freqMax⟩
          next => exact ih ⟨rfl, rfl, h.processorVendor, h.freqMax⟩
      | vendorId name =>
          rw [parseLines, parseLines]
          exact ih (h.vendorId (searchProcessorVendor name))
      | modelName name =>
          rw [parseLines, parseLines, h.cpuinfo, h.proc]
          exact ih ⟨rfl, rfl, h.processorVendor, h.freqMax⟩
      | apicid n =>
          rw [parseLines, parseLines, h.cpuinfo, h.proc]
          exact ih ⟨rfl, rfl, h.processorVendor, h.freqMax⟩
      | cpuMHz kHz =>
          rw [parseLines, parseLines]
          apply ih
          have hf := h.freqMax
          cases maxFreq with
          | true => exact h
          | false =>
              simp only [Bool.false_eq_true, not_false_eq_true, true_and]
              refine ⟨?_, ?_, ?_, ?_⟩
              · split <;> split <;> exact h.proc
              · split <;> split <;> exact h.cpuinfo
              · split <;> split <;> exact h.processorVendor
              · rw [apply_ite CpuinfoState.freqMax, apply_ite CpuinfoState.freqMax]
                simp only
                split <;> split <;> omega

/-- The clock that a first call reads, in kHz. -/
def clockRead (a : TopologyAnswers) : Nat := (parseCpuinfo a.proc none 0).freqMax

/-- The vendor that a first call reads. -/
def vendorRead (a : TopologyAnswers) : Option ProcessorVendor :=
  (parseCpuinfo a.proc none 0).processorVendor

/-- The table of processors that is read, at whatever call. -/
def tableRead (a : TopologyAnswers) : CpuTable := (parseCpuinfo a.proc none 0).cpuinfo

/-- The table of processors does not depend on what was read before, the vendor is the one that
was, and the clock is at least the one that was. -/
theorem parseCpuinfo_same (a : TopologyAnswers) (vendor : Option ProcessorVendor) (freq : Nat) :
    (parseCpuinfo a.proc vendor freq).cpuinfo = tableRead a ∧
      (parseCpuinfo a.proc vendor freq).processorVendor = vendor.or (vendorRead a) ∧
      (parseCpuinfo a.proc vendor freq).freqMax =
        max (if a.proc.maxFreq.isSome then 0 else freq) (clockRead a) := by
  have hstart : a.proc.startFreq freq =
      max (if a.proc.maxFreq.isSome then 0 else freq) (a.proc.startFreq 0) := by
    rw [ProcAnswers.startFreq, ProcAnswers.startFreq]
    cases a.proc.maxFreq with
    | none => simp
    | some kHz => simp
  rw [clockRead, vendorRead, tableRead, parseCpuinfo, parseCpuinfo]
  cases a.proc.cpuinfo with
  | none => exact ⟨rfl, (Option.or_none ..).symm, hstart⟩
  | some lines =>
      have h : SameParse vendor (if a.proc.maxFreq.isSome then 0 else freq)
          ⟨0, .new a.proc.numProcs, vendor, a.proc.startFreq freq⟩
          ⟨0, .new a.proc.numProcs, none, a.proc.startFreq 0⟩ :=
        ⟨rfl, rfl, (Option.or_none ..).symm, hstart⟩
      obtain ⟨hflag, hsame⟩ := parseLines_same a.proc.maxFreq.isSome lines h
      simp only
      generalize hr : parseLines a.proc.maxFreq.isSome lines
        ⟨0, .new a.proc.numProcs, vendor, a.proc.startFreq freq⟩ = r at hflag hsame
      generalize hr' : parseLines a.proc.maxFreq.isSome lines
        ⟨0, .new a.proc.numProcs, none, a.proc.startFreq 0⟩ = r' at hflag hsame
      obtain ⟨b, s⟩ := r
      obtain ⟨b', s'⟩ := r'
      simp only at hflag hsame
      subst hflag
      cases b with
      | false => exact ⟨hsame.cpuinfo, hsame.processorVendor, hsame.freqMax⟩
      | true =>
          refine ⟨hsame.cpuinfo, ?_, hsame.freqMax⟩
          show some (s.processorVendor.getD .genuineIntel) = _
          rw [hsame.processorVendor]
          cases vendor with
          | none => rfl
          | some v => rfl

/-! ## When nothing is left -/

theorem nodeAt_ext {props props' : List NodeProps} (hlen : props.length = props'.length)
    (h : ∀ i < props.length, nodeAt props i = nodeAt props' i) : props = props' := by
  apply List.ext_getElem hlen
  intro i hi hi'
  have heq := h i hi
  rwa [nodeAt, nodeAt, List.getD_eq_getElem _ _ hi, List.getD_eq_getElem _ _ hi'] at heq

/-- The clock in MHz is that of a first call. -/
theorem clock_eq_iff (t : TopologyProps) (a : TopologyAnswers) :
    (t.prepared a).freqMax / 1000 = (({} : TopologyProps).prepared a).freqMax / 1000 ↔
      (a.proc.maxFreq.isSome = true ∨ t.freqMax / 1000 ≤ clockRead a / 1000) := by
  have hfreq : (t.prepared a).freqMax =
      max (if a.proc.maxFreq.isSome then 0 else t.freqMax) (clockRead a) :=
    (parseCpuinfo_same a t.processorVendor t.freqMax).2.2
  have hfirst : (({} : TopologyProps).prepared a).freqMax = clockRead a := rfl
  rw [hfreq, hfirst]
  cases a.proc.maxFreq.isSome with
  | true => simp
  | false =>
      simp only [Bool.false_eq_true, if_false, false_or]
      omega

theorem cpuEntry_clock (t : TopologyProps) (a : TopologyAnswers) (cpuinfo : CpuTable)
    (numNodes : Nat) (cs : List HsaCacheProperties) (np : NodeProps) :
    (cpuEntry t a cpuinfo numNodes cs np).node.maxEngineClockMhzCCompute = t.freqMax / 1000 := by
  rw [cpuEntry]
  simp only
  split
  next =>
    rw [topologyGetCpuModelName]
    split <;> rfl
  next => rfl

/-- The entry of a GPU is that of a first call. -/
theorem gpuEntry_leftover {t : TopologyProps} {a : TopologyAnswers} {d : WddmDevice} {numNodes i : Nat}
    {np : NodeProps} (L : Leftover i np) (hi : i ≠ 0)
    (hclock : (t.prepared a).freqMax / 1000 = (({} : TopologyProps).prepared a).freqMax / 1000) :
    gpuEntry (t.prepared a) a d numNodes i np =
      gpuEntry (({} : TopologyProps).prepared a) a d numNodes i {} := by
  have hdevice : (t.prepared a).device i = (({} : TopologyProps).prepared a).device i := rfl
  have hnode : topologySysfsGetNodeProps (t.prepared a) a i =
      topologySysfsGetNodeProps (({} : TopologyProps).prepared a) a i := by
    simp only [topologySysfsGetNodeProps, if_neg hi, hdevice, gpuNode, hclock]
  have hmem : topologySysfsGetMemProps (t.prepared a) a i =
      topologySysfsGetMemProps (({} : TopologyProps).prepared a) a i := by
    simp only [topologySysfsGetMemProps, if_neg hi, hdevice]
  rw [gpuEntry, gpuEntry, hnode, hmem, fillCache_leftover d (L.cache hi),
    fillCache_leftover d ((leftover_empty i).cache hi), link_leftover L]

/-- The entry of the processor is that of a first call. -/
theorem cpuEntry_leftover_iff {t : TopologyProps} {a : TopologyAnswers} {cpuinfo : CpuTable}
    {numNodes : Nat} {cs cs₀ : List HsaCacheProperties} {np : NodeProps} (L : Leftover 0 np) :
    cpuEntry (t.prepared a) a cpuinfo numNodes cs np =
        cpuEntry (({} : TopologyProps).prepared a) a cpuinfo numNodes cs₀ {} ↔
      np.cache = [] ∧ cs = cs₀ ∧
        (t.prepared a).freqMax / 1000 = (({} : TopologyProps).prepared a).freqMax / 1000 := by
  constructor
  · intro h
    have hclock := congrArg (fun e => e.node.maxEngineClockMhzCCompute) h
    simp only [cpuEntry_clock] at hclock
    have hnum : cs.length = cs₀.length := congrArg (fun e => e.node.numCaches) h
    have hcache : np.cache ++ cs = [] ++ cs₀ := congrArg NodeProps.cache h
    obtain ⟨hnil, hcs⟩ := List.append_inj' hcache hnum
    exact ⟨hnil, hcs, hclock⟩
  · intro h
    obtain ⟨hnil, hcs, hclock⟩ := h
    have hnode : cpuNode a (t.prepared a).freqMax =
        cpuNode a (({} : TopologyProps).prepared a).freqMax := by
      rw [cpuNode, cpuNode, hclock]
    have hmem : topologySysfsGetMemProps (t.prepared a) a 0 =
        topologySysfsGetMemProps (({} : TopologyProps).prepared a) a 0 := rfl
    rw [cpuEntry, cpuEntry, hnode, hcs, hnil, hmem, link_leftover_cpu L]

/-- The caches that the directories show for the processor, if it is taken for a POWER9 or not. -/
def cachesShown (a : TopologyAnswers) (power9 : Bool) : Option (List HsaCacheProperties) :=
  (cacheDirs a.cpuDirs power9 0).bind (cpuCaches power9 (tableRead a))

/-- The vendor that was kept, if any, says as the one that a first call reads whether the processor
is a POWER9, or the directories show the same caches for both. -/
def VendorAgrees (t : TopologyProps) (a : TopologyAnswers) : Prop :=
  (∀ vendor ∈ t.processorVendor,
    isPower9 (some vendor) (tableRead a) = isPower9 (vendorRead a) (tableRead a)) ∨
  cachesShown a true = cachesShown a false

instance (t : TopologyProps) (a : TopologyAnswers) : Decidable (VendorAgrees t a) :=
  inferInstanceAs (Decidable (_ ∨ _))

theorem cachesRead_eq (t : TopologyProps) (a : TopologyAnswers) :
    t.cachesRead a =
      cachesShown a (isPower9 (t.processorVendor.or (vendorRead a)) (tableRead a)) := by
  obtain ⟨htable, hvendor, _⟩ := parseCpuinfo_same a t.processorVendor t.freqMax
  have htable : t.cpuinfo a = tableRead a := htable
  have hvendor : (t.readCpuinfo a).processorVendor = t.processorVendor.or (vendorRead a) := hvendor
  rw [cachesRead, htable, hvendor, cachesShown]

/-- The caches are those that a first call reads exactly if the vendor agrees. -/
theorem cachesRead_eq_iff (t : TopologyProps) (a : TopologyAnswers) :
    t.cachesRead a = ({} : TopologyProps).cachesRead a ↔ t.VendorAgrees a := by
  have hfirst : ({} : TopologyProps).processorVendor.or (vendorRead a) = vendorRead a := rfl
  rw [cachesRead_eq, cachesRead_eq, hfirst, VendorAgrees]
  cases t.processorVendor with
  | none => exact iff_of_true rfl (Or.inl fun v hv => by cases hv)
  | some vendor =>
      have hmem : (∀ v ∈ some vendor,
          isPower9 (some v) (tableRead a) = isPower9 (vendorRead a) (tableRead a)) ↔
            isPower9 (some vendor) (tableRead a) = isPower9 (vendorRead a) (tableRead a) := by
        simp
      rw [Option.some_or, hmem]
      cases isPower9 (some vendor) (tableRead a) <;>
        cases isPower9 (vendorRead a) (tableRead a) <;> simp [eq_comm]

theorem inv_new : Inv {} := ⟨rfl, leftover_empty⟩

/-- The tables of two snapshots with the same answers. -/
theorem Filled.eq_iff {t : TopologyProps} {a : TopologyAnswers} {props props₀ : List NodeProps}
    (I : Inv t) (F : Filled t a props) (F₀ : Filled {} a props₀) :
    props = props₀ ↔ (nodeAt t.gProps 0).cache = [] ∧
      (a.proc.maxFreq.isSome = true ∨ t.freqMax / 1000 ≤ clockRead a / 1000) ∧
      t.VendorAgrees a := by
  obtain ⟨cs, hcs, hcpu⟩ := F.cpu
  obtain ⟨cs₀, hcs₀, hcpu₀⟩ := F₀.cpu
  have htable : t.cpuinfo a = ({} : TopologyProps).cpuinfo a :=
    (parseCpuinfo_same a t.processorVendor t.freqMax).1
  have hentry : nodeAt props 0 = nodeAt props₀ 0 ↔ (nodeAt t.gProps 0).cache = [] ∧ cs = cs₀ ∧
      (t.prepared a).freqMax / 1000 = (({} : TopologyProps).prepared a).freqMax / 1000 := by
    rw [hcpu, hcpu₀, htable]
    exact cpuEntry_leftover_iff (I.entries 0)
  rw [clock_eq_iff] at hentry
  rw [← cachesRead_eq_iff, hcs, hcs₀, Option.some.injEq]
  constructor
  · intro h
    rw [h] at hentry
    obtain ⟨hnil, hsame, hclock⟩ := hentry.mp rfl
    exact ⟨hnil, hclock, hsame⟩
  · intro h
    obtain ⟨hnil, hclock, hsame⟩ := h
    refine nodeAt_ext (F.length.trans F₀.length.symm) fun i hi => ?_
    by_cases hzero : i = 0
    · rw [hzero]
      exact hentry.mpr ⟨hnil, hsame, hclock⟩
    · rw [F.length] at hi
      obtain ⟨d, hd, _, hgpu⟩ := F.gpu i hzero hi
      obtain ⟨d₀, hd₀, _, hgpu₀⟩ := F₀.gpu i hzero hi
      rw [hd, Option.some.injEq] at hd₀
      subst hd₀
      rw [hgpu, hgpu₀]
      exact gpuEntry_leftover (I.entries i) hzero ((clock_eq_iff t a).mpr hclock)

/-- After any number of calls that have failed, a snapshot is that of a first call with the same
answers exactly if the entry of the processor has no caches left, the clock that was read before
is not higher or there is a file for it, and the vendor that was kept agrees with the one that a
first call reads. -/
theorem failed_snapshots_iff {t t' t₀ : TopologyProps} {a : TopologyAnswers}
    (hfail : Reach attempt Fails {} t) (h : t.takeSnapshot a = some (.success, t'))
    (h₀ : ({} : TopologyProps).takeSnapshot a = some (.success, t₀)) :
    (t'.gSystem = t₀.gSystem ∧ t'.gProps = t₀.gProps) ↔
      (nodeAt t.gProps 0).cache = [] ∧
        (a.proc.maxFreq.isSome = true ∨ t.freqMax / 1000 ≤ clockRead a / 1000) ∧
        t.VendorAgrees a := by
  have I : Inv t := hfail.invariant inv_new fun _ _ _ I hf hs => I.attempt hf hs
  have hres := takeSnapshot_result h
  have hres₀ := takeSnapshot_result h₀
  generalize hst : HsakmtStatus.success = status at hres hres₀
  cases hres with
  | noDevice => cases hst
  | failed _ _ hne => exact absurd hst.symm hne
  | noMemory => cases hst
  | taken hdev hfill =>
      cases hres₀ with
      | failed _ _ hne => exact absurd rfl hne
      | taken _ hfill₀ =>
          have F := filled_of_success hdev hfill
          have F₀ := filled_of_success hdev hfill₀
          rw [← F.eq_iff I F₀]
          simp only [true_and, F.star.create, F₀.star.create]

/-! ## Samples -/

/-- A processor with one cache and a device. -/
def sampleAnswers (gfxOverride : GfxOverride) : TopologyAnswers where
  devices := [{ deviceId := 0x744c }]
  proc := { numProcs := 1 }
  cpuDirs :=
    { node := fun _ => [some
        { procNum := 0
          indexes := [{ sharedCpuList := some 0, sharedCpuMap := some ['1'] }] }] }
  gfxOverride := gfxOverride

/-- A call that fails before a cache is read. -/
def sampleFailure : TopologyAnswers :=
  { sampleAnswers .malformed with cpuDirs := { node := fun _ => [none] } }

/-- The table is left with the entry of the processor, which has no caches. -/
theorem failed_snapshots_iff_no_cache :
    ∃ t t' t₀, Reach attempt Fails {} t ∧ t.gProps.length = 2 ∧
      t.takeSnapshot (sampleAnswers .unset) = some (.success, t') ∧
      ({} : TopologyProps).takeSnapshot (sampleAnswers .unset) = some (.success, t₀) ∧
      t'.gProps = t₀.gProps := by
  have hrun : (({} : TopologyProps).attempt sampleFailure).bind (fun t =>
      (t.takeSnapshot (sampleAnswers .unset)).map fun r =>
        (r.1, t.gProps.length, (nodeAt t.gProps 0).cache.length, t.processorVendor, t.freqMax)) =
      some (.success, 2, 0, none, 0) := by
    decide
  have hfirst : (({} : TopologyProps).takeSnapshot (sampleAnswers .unset)).map Prod.fst =
      some .success := by
    decide
  obtain ⟨t, ht, hrun⟩ := Option.bind_eq_some_iff.mp hrun
  obtain ⟨⟨status, t'⟩, hsnap, hproj⟩ := Option.map_eq_some_iff.mp hrun
  obtain ⟨⟨status₀, t₀⟩, h₀, hstatus₀⟩ := Option.map_eq_some_iff.mp hfirst
  simp only [Prod.mk.injEq] at hproj hstatus₀
  obtain ⟨rfl, hlen, hcache, hvendor, hfreq⟩ := hproj
  subst hstatus₀
  have hreach : Reach attempt Fails {} t := .step .start (by decide) ht
  refine ⟨t, t', t₀, hreach, hlen, hsnap, h₀, ((failed_snapshots_iff hreach hsnap h₀).mpr ?_).2⟩
  refine ⟨List.length_eq_zero_iff.mp hcache, Or.inr ?_, ?_⟩
  · rw [hfreq]
    exact Nat.zero_le _
  · exact Or.inl fun vendor hkept => by simp [hvendor] at hkept

/-- A call that fails at the version leaves the cache of the processor. -/
theorem failed_snapshot_leaves_cache :
    ¬ ∀ (t t' t₀ : TopologyProps) (a : TopologyAnswers), Reach attempt Fails {} t →
      t.takeSnapshot a = some (.success, t') →
      ({} : TopologyProps).takeSnapshot a = some (.success, t₀) →
      t'.gSystem = t₀.gSystem ∧ t'.gProps = t₀.gProps := by
  intro hall
  have hrun : (({} : TopologyProps).attempt (sampleAnswers .malformed)).bind (fun t =>
      (t.takeSnapshot (sampleAnswers .unset)).map fun r =>
        (r.1, (nodeAt r.2.gProps 0).cache.length)) = some (.success, 2) := by
    decide
  have hfirst : (({} : TopologyProps).takeSnapshot (sampleAnswers .unset)).map (fun r =>
      (r.1, (nodeAt r.2.gProps 0).cache.length)) = some (.success, 1) := by
    decide
  obtain ⟨t, ht, hrun⟩ := Option.bind_eq_some_iff.mp hrun
  obtain ⟨⟨status, t'⟩, hsnap, hproj⟩ := Option.map_eq_some_iff.mp hrun
  obtain ⟨⟨status₀, t₀⟩, h₀, hproj₀⟩ := Option.map_eq_some_iff.mp hfirst
  simp only [Prod.mk.injEq] at hproj hproj₀
  obtain ⟨rfl, hcache⟩ := hproj
  obtain ⟨rfl, hcache₀⟩ := hproj₀
  have heq := (hall t t' t₀ _ (.step .start (by decide) ht) hsnap h₀).2
  rw [heq, hcache₀] at hcache
  cases hcache

end TopologyProps

end RocDxg
