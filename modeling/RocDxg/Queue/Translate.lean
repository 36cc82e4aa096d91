import RocDxg.Queue.Packets

/-!
# Translation of AQL packets

The three translators of `ComputeQueue` in `wddm/queue.cpp`.  A translation reads
the packet at the write index, writes PM4 commands behind the ones already in the
indirect buffer, and, when they fit in a frame, accepts the packet: the indirect
buffer grows, the write index advances and the header of the packet becomes
`INVALID`.

What a translation learns from outside is in `Host`.  The waits of a barrier packet
for its dependency signals come before everything else and change nothing, so the
model leaves them out: the step it takes may stand at any later time.  Assertions
about the alignment of the entry point and the kind of a signal are left out too.
-/

namespace RocDxg

/-- The values of `hsa_status_t` the queue uses. -/
inductive HsaStatus where
  | success
  | error
  | errorInvalidArgument
  | errorIncompatibleArguments
  | errorInvalidAllocation
  | errorInvalidCodeObject
  | errorInvalidPacketFormat
  | errorOutOfResources
deriving DecidableEq, Repr

/-- What the outside answers during one translation. -/
structure Host where
  /-- `GetKernelObjAddr` and the object behind it. -/
  kernelCode : Nat → Option KernelCode := fun _ => none
  /-- `EnableProfiling` at the start and at the end of the packet. -/
  profilingStart : Bool := false
  profilingEnd : Bool := false
  /-- The address of the scratch buffer that `CreateGpuMemory` returns. -/
  scratch : Option Nat := none

/-- The members of `ComputeQueue` that translation and submission use.  `ib` is the
content of the indirect buffer under construction. -/
structure ComputeQueue where
  device : Device
  ringSize : Nat
  ring : Nat → AqlPacket
  cmdbufAddr : Nat
  ibStartAddr : Nat
  ibSize : Nat := 0
  ib : List Pm4 := []
  syncPoint : Nat := 0
  writeIndex : Nat := 0
  signalAddr : Option Nat := none
  needsBarrier : Bool := true
  readyToSubmit : Bool := false
  scratchSizePerWave : Nat := 0
  scratchSize : Nat := 0
  scratchBase : Option Scratch := none
  amdQueue : AmdQueue := {}
  scratchBaseOffsetArray : List Nat := []
  /-- The scratch buffers that are allocated, and the handle of the next one. -/
  scratchMems : List Nat := []
  nextMem : Nat := 0
  /-- The status last reported by `HandleError`. -/
  reported : Option HsaStatus := none

/-- The outcome of a translator: its status, the commands it wrote and the queue. -/
structure Translation where
  status : HsaStatus
  written : List Pm4
  queue : ComputeQueue

namespace ComputeQueue

/-- The queue as the constructor and `Init` leave it. -/
def init (device : Device) (ringSize : Nat) (ring : Nat → AqlPacket) (cmdbufAddr : Nat) :
    ComputeQueue where
  device := device
  ringSize := ringSize
  ring := ring
  cmdbufAddr := cmdbufAddr
  ibStartAddr := cmdbufAddr

/-- The ring slot at the write index. -/
def slot (q : ComputeQueue) : Nat := q.writeIndex % q.ringSize

/-- `IsInvalidPacket` -/
def isInvalidPacket (q : ComputeQueue) : Bool := (q.ring q.slot).type = some .invalid

/-- `cmdbuf_aql_frame_size` -/
def frameSize (q : ComputeQueue) : Nat := q.device.aqlFrameSize

/-! ## Scratch memory -/

/-- The per-wave size `UpdateScratch` computes. -/
def scratchSizePerWaveFor (privateSegmentSize : Nat) (wave32 : Bool) : Nat :=
  let wavefront := if wave32 then 32 else 64
  u32 (alignUp 32 privateSegmentSize (1024 / wavefront) * wavefront)

/-- The buffer size `UpdateScratch` computes, in 32 bits. -/
def scratchSizeFor (q : ComputeQueue) (privateSegmentSize : Nat) (wave32 : Bool) : Nat :=
  u32 (scratchSizePerWaveFor privateSegmentSize wave32 * q.device.scratchWaves)

/-- The part of `UpdateScratch` that reports a size over 32 bits. -/
def reportOverflow (q : ComputeQueue) (privateSegmentSize : Nat) (wave32 : Bool) :
    ComputeQueue :=
  if scratchSizePerWaveFor privateSegmentSize wave32 * q.device.scratchWaves > 2 ^ 32 - 1 then
    { q with reported := some .errorInvalidArgument }
  else q

/-- The part of `UpdateScratch` after the new buffer exists: the old one is deleted
at once. -/
def replaceScratch (q : ComputeQueue) (addr perWave size : Nat) : ComputeQueue :=
  { q with
    scratchMems := q.nextMem ::
      match q.scratchBase with
      | some old => q.scratchMems.erase old.mem
      | none => q.scratchMems
    nextMem := q.nextMem + 1
    scratchSizePerWave := perWave
    scratchSize := size
    scratchBase := some ⟨addr, q.nextMem⟩
    amdQueue := ⟨some ⟨addr, q.nextMem⟩, size, perWave⟩ }

/-- `UpdateScratch`; the caller ignores whether it failed. -/
def updateScratch (q : ComputeQueue) (h : Host) (privateSegmentSize : Nat) (wave32 : Bool) :
    ComputeQueue :=
  let size := q.scratchSizeFor privateSegmentSize wave32
  let q := q.reportOverflow privateSegmentSize wave32
  if q.scratchSize ≥ size then q
  else
    match h.scratch with
    | none => q
    | some addr => q.replaceScratch addr (scratchSizePerWaveFor privateSegmentSize wave32) size

/-! ## Commands -/

/-- The scratch descriptor in the user data. -/
def bufferData (q : ComputeQueue) (k : KernelCode) : List UserData :=
  if k.enableSgprPrivateSegmentBuffer then
    [.scratchLo q.amdQueue.scratchBase, .scratchHi q.amdQueue.scratchBase,
      .srdNumRecords q.amdQueue.scratchSize, .srdStride k.enableWavefrontSize32] else []

/-- The pointers in the user data: the packet, the queue, the arguments, and the
dispatch id, which is zero. -/
def pointerData (q : ComputeQueue) (p : AqlPacket) (k : KernelCode) : List UserData :=
  let packetAddr := q.device.ringAddr + q.slot * 64
  (if k.enableSgprDispatchPtr then [.ptrLow packetAddr, .ptrHigh packetAddr] else []) ++
  (if k.enableSgprQueuePtr then
    [.ptrLow q.device.amdQueueAddr, .ptrHigh q.device.amdQueueAddr] else []) ++
  (if k.enableSgprKernargSegmentPtr then
    [.ptrLow p.kernargAddress, .ptrHigh p.kernargAddress] else []) ++
  (if k.enableSgprDispatchId then [.word 0, .word 0] else [])

/-- The flat scratch base in the user data. -/
def flatData (q : ComputeQueue) (k : KernelCode) : List UserData :=
  if k.enableSgprFlatScratchInit then [.scratchLo q.scratchBase, .scratchHi q.scratchBase] else []

/-- The private segment size in the user data. -/
def sizeData (q : ComputeQueue) (k : KernelCode) : List UserData :=
  if k.enableSgprPrivateSegmentSize then
    [.word (q.scratchSizePerWave / if k.enableWavefrontSize32 then 32 else 64)] else []

/-- The user data of a dispatch. -/
def userData (q : ComputeQueue) (p : AqlPacket) (k : KernelCode) : List UserData :=
  q.bufferData k ++ q.pointerData p k ++ q.flatData k ++ q.sizeData k

/-- The offsets in a dispatch that hold a scratch address. -/
def scratchBaseOffset (q : ComputeQueue) (p : AqlPacket) (k : KernelCode) : List Nat :=
  (if k.enableSgprPrivateSegmentBuffer then [Pm4.userDataOffset] else []) ++
  (if k.enableSgprFlatScratchInit then
    [Pm4.userDataOffset + (q.bufferData k ++ q.pointerData p k).length * 4] else [])

theorem userData_length (q : ComputeQueue) (p : AqlPacket) (k : KernelCode) :
    (q.userData p k).length ≤ 16 := by
  simp only [userData, bufferData, pointerData, flatData, sizeData, List.length_append,
    apply_ite List.length, List.length_cons, List.length_nil]
  grind

/-- `BuildDispatch` -/
def buildDispatch (q : ComputeQueue) (p : AqlPacket) (k : KernelCode) : Pm4 :=
  .dispatch
    { threadX := p.workgroupSizeX
      threadY := p.workgroupSizeY
      threadZ := p.workgroupSizeZ
      entry := u64 (p.kernelObject + k.kernelCodeEntryByteOffset)
      rsrc1 := if q.device.major = .gfx11 then k.computePgmRsrc1 ||| 2 ^ 20 else k.computePgmRsrc1
      rsrc2 := u32 (ldsBlocks p * 2 ^ 15) ||| k.computePgmRsrc2
      tmpringSizePerWave := q.amdQueue.scratchSizePerWave
      userData := q.userData p k
      wave32 := k.enableWavefrontSize32
      gridX := p.gridSizeX
      gridY := p.gridSizeY
      gridZ := p.gridSizeZ
      userData_length := q.userData_length p k }

/-- The fields `value`, `start_ts` and `end_ts` of an `amd_signal_t`. -/
def signalValue (signal : Nat) : Nat := signal + 8
def signalStartTs (signal : Nat) : Nat := signal + 32
def signalEndTs (signal : Nat) : Nat := signal + 40

/-- The decrement of a completion signal, which the GPU does if it can. -/
def completion (q : ComputeQueue) (signal : Nat) : List Pm4 :=
  if q.device.platformAtomic then [.atomicMem (signalValue signal) (-1)] else []

/-- The signal the CPU has to decrement after the submission. -/
def leaveSignal (q : ComputeQueue) (signal : Nat) : ComputeQueue :=
  if q.device.platformAtomic then q else { q with signalAddr := some (signalValue signal) }

/-- The command that advances the read pointer of the ring. -/
def advanceRptr (q : ComputeQueue) : Pm4 :=
  if q.device.platformAtomic then .atomicMem q.device.ringRptr 1
  else .writeData64 q.device.ringRptr (q.writeIndex + 1)

/-- The end of every translator: accept the packet if the commands fit in a frame. -/
def accept (q : ComputeQueue) (written : List Pm4) : Translation :=
  if Pm4.bytes written > q.frameSize then ⟨.errorOutOfResources, written, q⟩
  else
    ⟨.success, written,
      { q with
        ibSize := q.ibSize + Pm4.bytes written
        ib := q.ib ++ written
        writeIndex := q.writeIndex + 1
        ring := fun i => if i = q.slot then (q.ring i).invalidate else q.ring i }⟩

/-! ## Kernel dispatch packets -/

/-- The commands before the scratch registers and the dispatch. -/
def kernelPrologue (q : ComputeQueue) (h : Host) (p : AqlPacket) : List Pm4 :=
  (if p.completionSignal ≠ 0 ∧ h.profilingStart then
    [.copyData (signalStartTs p.completionSignal)] else []) ++
  (if p.barrierBit ∧ q.needsBarrier then [.barrier] else []) ++
  [.acquireMem q.device.major]

/-- The scratch registers of gfx11 and later. -/
def kernelScratch (q : ComputeQueue) : List Pm4 :=
  if q.device.major.ge11 then [.setScratch q.scratchBase, .computeShaderParams] else []

/-- The commands after the dispatch. -/
def kernelEpilogue (q : ComputeQueue) (h : Host) (p : AqlPacket) : List Pm4 :=
  (if p.completionSignal ≠ 0 then
    [.barrier] ++
    (if h.profilingEnd then [.copyData (signalEndTs p.completionSignal)] else []) ++
    [.acquireMem q.device.major] ++ q.completion p.completionSignal else []) ++
  [q.advanceRptr]

/-- The commands of a kernel dispatch, in a queue whose scratch is up to date. -/
def kernelCommands (q : ComputeQueue) (h : Host) (p : AqlPacket) (k : KernelCode) : List Pm4 :=
  q.kernelPrologue h p ++ q.kernelScratch ++ [q.buildDispatch p k] ++ q.kernelEpilogue h p

/-- The offsets, from the start of the indirect buffer, that
`AppendCmdbufSratchBaseOffset` records for a kernel dispatch. -/
def kernelScratchOffsets (q : ComputeQueue) (h : Host) (p : AqlPacket) (k : KernelCode) :
    List Nat :=
  let i := q.ibSize + Pm4.bytes (q.kernelPrologue h p)
  (if q.device.major.ge11 then [i + Pm4.scratchLoOffset] else []) ++
  (q.scratchBaseOffset p k).map (i + Pm4.bytes q.kernelScratch + ·)

/-- The checks of `KernelDispatchAqlToPm4` before it changes anything. -/
def checkKernelDispatch (q : ComputeQueue) (h : Host) (p : AqlPacket) :
    Except HsaStatus KernelCode :=
  if p.workgroupSizeX > 1024 ∨ p.workgroupSizeY > 1024 ∨ p.workgroupSizeZ > 1024 then
    .error .errorInvalidArgument
  else
    match h.kernelCode p.kernelObject with
    | none => .error .errorInvalidCodeObject
    | some k =>
        if p.setup = 0 ∨ p.setup > 3 then .error .errorIncompatibleArguments
        else if p.groupSegmentSize > q.device.ldsSize then .error .errorInvalidAllocation
        else if ldsBlocks p > 128 then .error .errorInvalidArgument
        else .ok k

/-- `KernelDispatchAqlToPm4` -/
def kernelDispatchAqlToPm4 (q : ComputeQueue) (h : Host) (p : AqlPacket) : Translation :=
  match q.checkKernelDispatch h p with
  | .error status => ⟨status, [], q⟩
  | .ok k =>
      let q := q.updateScratch h p.privateSegmentSize k.enableWavefrontSize32
      let written := q.kernelCommands h p k
      let q := { q with
        scratchBaseOffsetArray := q.scratchBaseOffsetArray ++ q.kernelScratchOffsets h p k
        needsBarrier := p.completionSignal = 0 }
      let q := if p.completionSignal ≠ 0 then q.leaveSignal p.completionSignal else q
      q.accept written

/-! ## Barrier and vendor packets -/

/-- The commands of a barrier packet. -/
def barrierCommands (q : ComputeQueue) (h : Host) (p : AqlPacket) : List Pm4 :=
  (if p.completionSignal ≠ 0 then
    (if h.profilingStart then [.copyData (signalStartTs p.completionSignal)] else []) ++
    (if q.needsBarrier then [.barrier] else []) ++
    (if h.profilingEnd then [.copyData (signalEndTs p.completionSignal)] else []) ++
    [.acquireMem q.device.major] ++ q.completion p.completionSignal else []) ++
  [q.advanceRptr]

/-- `BarrierGenericAqlToPm4`, for barrier-AND and barrier-OR packets. -/
def barrierGenericAqlToPm4 (q : ComputeQueue) (h : Host) (p : AqlPacket) : Translation :=
  let written := q.barrierCommands h p
  let q := if p.completionSignal ≠ 0 then
    { q with needsBarrier := false }.leaveSignal p.completionSignal else q
  q.accept written

/-- The commands of a vendor packet. -/
def vendorCommands (q : ComputeQueue) (h : Host) (p : AqlPacket) : List Pm4 :=
  (if q.device.vendorPacketProcess then
    [.copied (p.ibJumpCmd2 * 2 ^ 32 + p.ibJumpCmd1 / 4 * 4) (p.ibJumpCmd3 % 2 ^ 20)] ++
    (if p.completionSignal ≠ 0 then
      (if h.profilingStart then [.copyData (signalStartTs p.completionSignal)] else []) ++
      [.barrier] ++
      (if h.profilingEnd then [.copyData (signalEndTs p.completionSignal)] else []) ++
      [.acquireMem q.device.major] ++ q.completion p.completionSignal else []) else []) ++
  [q.advanceRptr]

/-- `VendorSpecificAqlToPm4` -/
def vendorSpecificAqlToPm4 (q : ComputeQueue) (h : Host) (p : AqlPacket) : Translation :=
  let written := q.vendorCommands h p
  let q := if q.device.vendorPacketProcess ∧ p.completionSignal ≠ 0 then
    q.leaveSignal p.completionSignal else q
  q.accept written

/-! ## Submission -/

/-- `RelocateCmdbufScratchBase` -/
def relocateCmdbufScratchBase (q : ComputeQueue) : ComputeQueue :=
  { q with
    ib := q.scratchBaseOffsetArray.foldl (fun ib o => Pm4.patchAt q.scratchBase o ib) q.ib
    scratchBaseOffsetArray := [] }

/-- `EndSubmit` -/
def endSubmit (q : ComputeQueue) : ComputeQueue :=
  { q with
    syncPoint := q.writeIndex
    ibStartAddr := q.cmdbufAddr + q.writeIndex % aqlFrameNum * q.frameSize
    ibSize := 0
    ib := [] }

/-! ## What a translation does to the indirect buffer -/

/-- The queues agree on the indirect buffer and on the indices. -/
structure SameBuffer (q q' : ComputeQueue) : Prop where
  device : q'.device = q.device
  cmdbufAddr : q'.cmdbufAddr = q.cmdbufAddr
  ibStartAddr : q'.ibStartAddr = q.ibStartAddr
  ibSize : q'.ibSize = q.ibSize
  ib : q'.ib = q.ib
  syncPoint : q'.syncPoint = q.syncPoint
  writeIndex : q'.writeIndex = q.writeIndex

/-- `q'` is `q` after a packet was accepted as `written`. -/
structure Accepts (q : ComputeQueue) (written : List Pm4) (q' : ComputeQueue) : Prop where
  fits : Pm4.bytes written ≤ q.frameSize
  device : q'.device = q.device
  cmdbufAddr : q'.cmdbufAddr = q.cmdbufAddr
  ibStartAddr : q'.ibStartAddr = q.ibStartAddr
  ibSize : q'.ibSize = q.ibSize + Pm4.bytes written
  ib : q'.ib = q.ib ++ written
  syncPoint : q'.syncPoint = q.syncPoint
  writeIndex : q'.writeIndex = q.writeIndex + 1

theorem SameBuffer.refl (q : ComputeQueue) : SameBuffer q q :=
  ⟨rfl, rfl, rfl, rfl, rfl, rfl, rfl⟩

theorem SameBuffer.trans {q q' q'' : ComputeQueue} (h : SameBuffer q q') (h' : SameBuffer q' q'') :
    SameBuffer q q'' :=
  ⟨h'.device.trans h.device, h'.cmdbufAddr.trans h.cmdbufAddr,
    h'.ibStartAddr.trans h.ibStartAddr, h'.ibSize.trans h.ibSize, h'.ib.trans h.ib,
    h'.syncPoint.trans h.syncPoint, h'.writeIndex.trans h.writeIndex⟩

theorem SameBuffer.frameSize {q q' : ComputeQueue} (h : SameBuffer q q') :
    q'.frameSize = q.frameSize := by
  rw [ComputeQueue.frameSize, ComputeQueue.frameSize, h.device]

theorem Accepts.frameSize {q q' : ComputeQueue} {written : List Pm4} (h : Accepts q written q') :
    q'.frameSize = q.frameSize := by
  rw [ComputeQueue.frameSize, ComputeQueue.frameSize, h.device]

theorem Accepts.of_same {q q' q'' : ComputeQueue} {written : List Pm4} (h : SameBuffer q q')
    (h' : Accepts q' written q'') : Accepts q written q'' where
  fits := h.frameSize ▸ h'.fits
  device := h'.device.trans h.device
  cmdbufAddr := h'.cmdbufAddr.trans h.cmdbufAddr
  ibStartAddr := h'.ibStartAddr.trans h.ibStartAddr
  ibSize := by rw [h'.ibSize, h.ibSize]
  ib := by rw [h'.ib, h.ib]
  syncPoint := h'.syncPoint.trans h.syncPoint
  writeIndex := by rw [h'.writeIndex, h.writeIndex]

theorem same_updateScratch (q : ComputeQueue) (h : Host) (n : Nat) (wave32 : Bool) :
    SameBuffer q (q.updateScratch h n wave32) := by
  rw [updateScratch, reportOverflow]
  cases h.scratch with
  | none =>
      simp only [ite_self]
      split <;> exact ⟨rfl, rfl, rfl, rfl, rfl, rfl, rfl⟩
  | some addr =>
      simp only
      split <;> split <;> exact ⟨rfl, rfl, rfl, rfl, rfl, rfl, rfl⟩

theorem SameBuffer.leaveSignal {q q' : ComputeQueue} (h : SameBuffer q q') (signal : Nat) :
    SameBuffer q (q'.leaveSignal signal) := by
  refine h.trans ?_
  rw [ComputeQueue.leaveSignal]
  split <;> exact ⟨rfl, rfl, rfl, rfl, rfl, rfl, rfl⟩

/-- The outcome of a translator that has come to its end. -/
inductive Outcome (q : ComputeQueue) (written : List Pm4) (t : Translation) : Prop where
  | accepted : t.status = .success → Accepts q written t.queue → Outcome q written t
  | rejected : t.status = .errorOutOfResources → q.frameSize < Pm4.bytes written →
      SameBuffer q t.queue → Outcome q written t

/-- Commands that fit in a frame are accepted. -/
theorem Outcome.of_fits {q : ComputeQueue} {written : List Pm4} {t : Translation}
    (h : Outcome q written t) (hle : Pm4.bytes written ≤ q.frameSize) :
    t.status = .success ∧ Accepts q written t.queue := by
  cases h with
  | accepted hs hacc => exact ⟨hs, hacc⟩
  | rejected _ hgt => exact absurd hle (Nat.not_le_of_lt hgt)

/-- A translator that reports success has accepted its packet. -/
theorem Outcome.of_success {q : ComputeQueue} {written : List Pm4} {t : Translation}
    (h : Outcome q written t) (hs : t.status = .success) : Accepts q written t.queue := by
  cases h with
  | accepted _ hacc => exact hacc
  | rejected hs' =>
      rw [hs'] at hs
      cases hs

theorem outcome_accept {q q' : ComputeQueue} (h : SameBuffer q q') (written : List Pm4) :
    Outcome q written (q'.accept written) := by
  rw [accept]
  split
  next hgt => exact .rejected rfl (h.frameSize ▸ hgt) h
  next hle =>
    refine .accepted rfl (Accepts.of_same h ?_)
    exact ⟨Nat.le_of_not_lt hle, rfl, rfl, rfl, rfl, rfl, rfl, rfl⟩

theorem written_accept (q : ComputeQueue) (written : List Pm4) :
    (q.accept written).written = written := by
  rw [accept]
  split <;> rfl

theorem checkKernelDispatch_error {q : ComputeQueue} {h : Host} {p : AqlPacket} {status : HsaStatus}
    (he : q.checkKernelDispatch h p = .error status) : status ≠ .success := by
  rw [checkKernelDispatch] at he
  split at he
  · cases he
    decide
  · cases hk : h.kernelCode p.kernelObject with
    | none =>
        rw [hk] at he
        cases he
        decide
    | some k =>
        rw [hk] at he
        simp only at he
        split at he
        · cases he
          decide
        · split at he
          · cases he
            decide
          · split at he
            · cases he
              decide
            · cases he

/-- A kernel dispatch is rejected by a check, or it comes to its end with the
commands for the scratch it has updated. -/
theorem kernelDispatch_cases (q : ComputeQueue) (h : Host) (p : AqlPacket) :
    (∃ status, q.checkKernelDispatch h p = .error status ∧
      q.kernelDispatchAqlToPm4 h p = ⟨status, [], q⟩) ∨
    ∃ k, q.checkKernelDispatch h p = .ok k ∧
      (q.kernelDispatchAqlToPm4 h p).written =
        (q.updateScratch h p.privateSegmentSize k.enableWavefrontSize32).kernelCommands h p k ∧
      Outcome q (q.kernelDispatchAqlToPm4 h p).written (q.kernelDispatchAqlToPm4 h p) := by
  rw [kernelDispatchAqlToPm4]
  cases hc : q.checkKernelDispatch h p with
  | error status => exact Or.inl ⟨status, rfl, rfl⟩
  | ok k =>
      refine Or.inr ⟨k, rfl, written_accept .., ?_⟩
      rw [written_accept]
      apply outcome_accept
      refine (same_updateScratch q h p.privateSegmentSize k.enableWavefrontSize32).trans ?_
      split
      · apply SameBuffer.leaveSignal
        exact ⟨rfl, rfl, rfl, rfl, rfl, rfl, rfl⟩
      · exact ⟨rfl, rfl, rfl, rfl, rfl, rfl, rfl⟩

/-- A kernel dispatch that reports success has passed the checks. -/
theorem kernelDispatch_success {q : ComputeQueue} {h : Host} {p : AqlPacket}
    (hs : (q.kernelDispatchAqlToPm4 h p).status = .success) :
    ∃ k, q.checkKernelDispatch h p = .ok k ∧
      (q.kernelDispatchAqlToPm4 h p).written =
        (q.updateScratch h p.privateSegmentSize k.enableWavefrontSize32).kernelCommands h p k := by
  cases kernelDispatch_cases q h p with
  | inl hcheck =>
      obtain ⟨status, herr, heq⟩ := hcheck
      rw [heq] at hs
      exact absurd hs (checkKernelDispatch_error herr)
  | inr hend =>
      obtain ⟨k, hk, hw, _⟩ := hend
      exact ⟨k, hk, hw⟩

theorem outcome_barrierGeneric (q : ComputeQueue) (h : Host) (p : AqlPacket) :
    (q.barrierGenericAqlToPm4 h p).written = q.barrierCommands h p ∧
      Outcome q (q.barrierCommands h p) (q.barrierGenericAqlToPm4 h p) := by
  refine ⟨written_accept .., outcome_accept ?_ _⟩
  split
  · apply SameBuffer.leaveSignal
    exact ⟨rfl, rfl, rfl, rfl, rfl, rfl, rfl⟩
  · exact SameBuffer.refl q

theorem outcome_vendorSpecific (q : ComputeQueue) (h : Host) (p : AqlPacket) :
    (q.vendorSpecificAqlToPm4 h p).written = q.vendorCommands h p ∧
      Outcome q (q.vendorCommands h p) (q.vendorSpecificAqlToPm4 h p) := by
  refine ⟨written_accept .., outcome_accept ?_ _⟩
  split
  · exact (SameBuffer.refl q).leaveSignal _
  · exact SameBuffer.refl q

@[simp] theorem readyToSubmit_updateScratch (q : ComputeQueue) (h : Host) (n : Nat) (wave32 : Bool) :
    (q.updateScratch h n wave32).readyToSubmit = q.readyToSubmit := by
  rw [updateScratch, reportOverflow]
  cases h.scratch with
  | none =>
      simp only [ite_self]
      split <;> rfl
  | some addr =>
      simp only
      split <;> split <;> rfl

@[simp] theorem readyToSubmit_leaveSignal (q : ComputeQueue) (signal : Nat) :
    (q.leaveSignal signal).readyToSubmit = q.readyToSubmit := by
  rw [leaveSignal]
  split <;> rfl

@[simp] theorem readyToSubmit_accept (q : ComputeQueue) (written : List Pm4) :
    (q.accept written).queue.readyToSubmit = q.readyToSubmit := by
  rw [accept]
  split <;> rfl

/-- A kernel dispatch leaves the decision to submit to the test that follows. -/
theorem readyToSubmit_kernelDispatch (q : ComputeQueue) (h : Host) (p : AqlPacket) :
    (q.kernelDispatchAqlToPm4 h p).queue.readyToSubmit = q.readyToSubmit := by
  rw [kernelDispatchAqlToPm4]
  cases q.checkKernelDispatch h p with
  | error status => rfl
  | ok k =>
      rw [readyToSubmit_accept]
      split <;> simp

/-- An accepted kernel dispatch is not empty. -/
theorem kernelCommands_pos (q : ComputeQueue) (h : Host) (p : AqlPacket) (k : KernelCode) :
    0 < Pm4.bytes (q.kernelCommands h p k) := by
  have : Pm4.bytes [q.buildDispatch p k] = 176 := rfl
  simp only [kernelCommands, Pm4.bytes_append, this]
  omega

end ComputeQueue

end RocDxg
