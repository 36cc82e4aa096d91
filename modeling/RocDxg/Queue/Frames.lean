import RocDxg.Queue.Process

/-!
# The frame of a packet

A translator writes its commands behind the indirect buffer and compares their size with that of a
frame afterwards.  The size of a frame is a sum over the templates of the commands, which is
enough for every kernel dispatch and every barrier packet (`bytes_kernelCommands`,
`bytes_barrierCommands`).  The words of a vendor packet are as many as 20 bits can say.

`writes_in_frame_iff` says for which vendor packets nothing is written behind the frame.
-/

namespace RocDxg

namespace Pm4

/-- The address and the size of each command of a list that is written from an address on. -/
def writes : Nat → List Pm4 → List (Nat × Nat)
  | _, [] => []
  | addr, c :: cs => (addr, c.size) :: writes (addr + c.size) cs

/-- The commands stay below an address exactly if their bytes do. -/
theorem writes_below_iff {addr start limit : Nat} {cs : List Pm4} (hstart : start ≤ addr)
    (hlimit : addr ≤ limit) :
    (∀ w ∈ writes addr cs, start ≤ w.1 ∧ w.1 + w.2 ≤ limit) ↔ addr + bytes cs ≤ limit := by
  induction cs generalizing addr with
  | nil =>
      constructor
      · intro _
        exact hlimit
      · intro _ w hw
        exact absurd hw List.not_mem_nil
  | cons c cs ih =>
      rw [writes, List.forall_mem_cons, bytes_cons, ← Nat.add_assoc]
      constructor
      · intro h
        exact (ih (Nat.le_trans hstart (Nat.le_add_right ..)) h.1.2).mp h.2
      · intro h
        have hc : addr + c.size ≤ limit := Nat.le_trans (Nat.le_add_right ..) h
        exact ⟨⟨hstart, hc⟩, (ih (Nat.le_trans hstart (Nat.le_add_right ..)) hc).mpr h⟩

theorem bytes_ite {c : Prop} [Decidable c] (cs cs' : List Pm4) :
    bytes (if c then cs else cs') = if c then bytes cs else bytes cs' := by
  split <;> rfl

theorem size_copyData (dst : Nat) : (copyData dst).size = 24 := rfl

theorem size_barrier : barrier.size = 8 := rfl

theorem size_copied (addr dwords : Nat) : (copied addr dwords).size = dwords * 4 := rfl

end Pm4

namespace ComputeQueue

/-- The commands are written into the frame behind the indirect buffer. -/
def InFrame (q : ComputeQueue) (written : List Pm4) : Prop :=
  ∀ w ∈ Pm4.writes (q.ibStartAddr + q.ibSize) written,
    q.ibStartAddr + q.ibSize ≤ w.1 ∧ w.1 + w.2 ≤ q.ibStartAddr + q.ibSize + q.frameSize

theorem inFrame_iff (q : ComputeQueue) (written : List Pm4) :
    q.InFrame written ↔ Pm4.bytes written ≤ q.frameSize := by
  rw [InFrame, Pm4.writes_below_iff (Nat.le_refl _) (Nat.le_add_right ..), Nat.add_le_add_iff_left]

/-! ## The size of a frame -/

/-- The scratch registers of gfx11 and later. -/
def scratchBytes (major : Gfx) : Nat := if major.ge11 then 28 else 0

/-- The templates that `InitCmdbufInfo` adds up. -/
theorem le_frameSize (q : ComputeQueue) :
    2 * (Pm4.acquireMem q.device.major).size + scratchBytes q.device.major + 312 ≤ q.frameSize := by
  rw [frameSize, Device.aqlFrameSize]
  cases q.device.major <;> decide

theorem bytes_completion (q : ComputeQueue) (signal : Nat) :
    Pm4.bytes (q.completion signal) = if q.device.platformAtomic then 36 else 0 := by
  rw [completion, Pm4.bytes_ite]
  rfl

theorem size_advanceRptr (q : ComputeQueue) :
    q.advanceRptr.size = if q.device.platformAtomic then 36 else 24 := by
  rw [advanceRptr]
  split <;> rfl

theorem bytes_completion_le (q : ComputeQueue) (signal : Nat) :
    Pm4.bytes (q.completion signal) ≤ 36 := by
  rw [bytes_completion]
  split <;> decide

theorem size_advanceRptr_le (q : ComputeQueue) : q.advanceRptr.size ≤ 36 := by
  rw [size_advanceRptr]
  split <;> decide

theorem bytes_kernelPrologue_le (q : ComputeQueue) (h : Host) (p : AqlPacket) :
    Pm4.bytes (q.kernelPrologue h p) ≤ 32 + (Pm4.acquireMem q.device.major).size := by
  simp only [kernelPrologue, Pm4.bytes_append, Pm4.bytes_ite, Pm4.bytes_cons, Pm4.bytes_nil,
    Pm4.size_copyData, Pm4.size_barrier]
  split <;> split <;> omega

theorem bytes_kernelScratch (q : ComputeQueue) :
    Pm4.bytes q.kernelScratch = scratchBytes q.device.major := by
  rw [kernelScratch, Pm4.bytes_ite]
  rfl

theorem bytes_kernelEpilogue_le (q : ComputeQueue) (h : Host) (p : AqlPacket) :
    Pm4.bytes (q.kernelEpilogue h p) ≤ 104 + (Pm4.acquireMem q.device.major).size := by
  have hcompletion := q.bytes_completion_le p.completionSignal
  have hrptr := q.size_advanceRptr_le
  simp only [kernelEpilogue, Pm4.bytes_append, Pm4.bytes_ite, Pm4.bytes_cons, Pm4.bytes_nil,
    Pm4.size_copyData, Pm4.size_barrier]
  split
  · split <;> omega
  · omega

/-- The commands of a kernel dispatch fit in a frame. -/
theorem bytes_kernelCommands (q : ComputeQueue) (h : Host) (p : AqlPacket) (k : KernelCode) :
    Pm4.bytes (q.kernelCommands h p k) ≤ q.frameSize := by
  have hframe := q.le_frameSize
  have hprologue := q.bytes_kernelPrologue_le h p
  have hepilogue := q.bytes_kernelEpilogue_le h p
  have hdispatch : Pm4.bytes [q.buildDispatch p k] = 176 := rfl
  rw [kernelCommands, Pm4.bytes_append, Pm4.bytes_append, Pm4.bytes_append, bytes_kernelScratch,
    hdispatch]
  omega

/-- The commands of a barrier packet fit in a frame. -/
theorem bytes_barrierCommands (q : ComputeQueue) (h : Host) (p : AqlPacket) :
    Pm4.bytes (q.barrierCommands h p) ≤ q.frameSize := by
  have hframe := q.le_frameSize
  have hcompletion := q.bytes_completion_le p.completionSignal
  have hrptr := q.size_advanceRptr_le
  simp only [barrierCommands, Pm4.bytes_append, Pm4.bytes_ite, Pm4.bytes_cons, Pm4.bytes_nil,
    Pm4.size_copyData, Pm4.size_barrier]
  split
  · split <;> split <;> split <;> omega
  · omega

/-- A kernel dispatch that passes the checks is accepted. -/
theorem accepts_kernelDispatch {q : ComputeQueue} {h : Host} {p : AqlPacket} {k : KernelCode}
    (hk : q.checkKernelDispatch h p = .ok k) :
    (q.kernelDispatchAqlToPm4 h p).status = .success ∧
      Accepts q
        ((q.updateScratch h p.privateSegmentSize k.enableWavefrontSize32).kernelCommands h p k)
        (q.kernelDispatchAqlToPm4 h p).queue := by
  have hscratch := same_updateScratch q h p.privateSegmentSize k.enableWavefrontSize32
  cases kernelDispatch_cases q h p with
  | inl hcheck =>
      obtain ⟨status, herr, _⟩ := hcheck
      rw [hk] at herr
      cases herr
  | inr hend =>
      obtain ⟨k', hk', hw, hout⟩ := hend
      rw [hk] at hk'
      cases hk'
      rw [hw] at hout
      refine hout.of_fits ?_
      rw [← hscratch.frameSize]
      exact bytes_kernelCommands ..

/-- A barrier packet is accepted. -/
theorem accepts_barrierGeneric (q : ComputeQueue) (h : Host) (p : AqlPacket) :
    (q.barrierGenericAqlToPm4 h p).status = .success ∧
      Accepts q (q.barrierCommands h p) (q.barrierGenericAqlToPm4 h p).queue :=
  (outcome_barrierGeneric q h p).2.of_fits (q.bytes_barrierCommands h p)

/-- The bytes behind the words of a vendor packet. -/
def vendorTail (q : ComputeQueue) (h : Host) (p : AqlPacket) : Nat :=
  (if p.completionSignal ≠ 0 then
    (if h.profilingStart then 24 else 0) + 8 + (if h.profilingEnd then 24 else 0) +
      (Pm4.acquireMem q.device.major).size + (if q.device.platformAtomic then 36 else 0)
  else 0) + if q.device.platformAtomic then 36 else 24

/-- The words of a vendor packet leave room for the commands behind them. -/
def VendorFits (q : ComputeQueue) (h : Host) (p : AqlPacket) : Prop :=
  q.device.vendorPacketProcess = true →
    p.ibJumpCmd3 % 2 ^ 20 * 4 + q.vendorTail h p ≤ q.frameSize

instance (q : ComputeQueue) (h : Host) (p : AqlPacket) : Decidable (q.VendorFits h p) :=
  inferInstanceAs (Decidable (_ → _))

/-- The commands of a vendor packet fit in a frame exactly if its words leave room. -/
theorem bytes_vendorCommands_iff (q : ComputeQueue) (h : Host) (p : AqlPacket) :
    Pm4.bytes (q.vendorCommands h p) ≤ q.frameSize ↔ q.VendorFits h p := by
  have hcompletion := q.bytes_completion p.completionSignal
  have hrptr := q.size_advanceRptr
  rw [VendorFits, vendorTail]
  simp only [vendorCommands, Pm4.bytes_append, Pm4.bytes_ite, Pm4.bytes_cons, Pm4.bytes_nil,
    Pm4.size_copyData, Pm4.size_barrier, Pm4.size_copied, hcompletion, hrptr]
  cases q.device.vendorPacketProcess with
  | true => simp only [if_true, forall_true_left, Nat.add_zero, Nat.add_assoc]
  | false =>
      simp only [Bool.false_eq_true, if_false, false_imp_iff, iff_true, Nat.zero_add, Nat.add_zero]
      have hframe := q.le_frameSize
      split <;> omega

/-! ## What the translators write -/

/-- A kernel dispatch fits, also where it was rejected before. -/
theorem bytes_kernelDispatch (q : ComputeQueue) (h : Host) (p : AqlPacket) :
    Pm4.bytes (q.kernelDispatchAqlToPm4 h p).written ≤ q.frameSize := by
  cases q.kernelDispatch_cases h p with
  | inl hcheck =>
      obtain ⟨status, _, heq⟩ := hcheck
      rw [heq]
      exact Nat.zero_le _
  | inr hend =>
      obtain ⟨k, _, hwritten, _⟩ := hend
      have hsame := q.same_updateScratch h p.privateSegmentSize k.enableWavefrontSize32
      rw [hwritten, ← hsame.frameSize]
      exact bytes_kernelCommands _ h p k

/-- The three translators write into the frame of the packet, whatever it contains, exactly if it
is no vendor packet that is too long. -/
theorem writes_in_frame_iff (q : ComputeQueue) (h : Host) (p : AqlPacket) :
    (q.InFrame (q.kernelDispatchAqlToPm4 h p).written ∧
      q.InFrame (q.barrierGenericAqlToPm4 h p).written ∧
      q.InFrame (q.vendorSpecificAqlToPm4 h p).written) ↔ q.VendorFits h p := by
  simp only [inFrame_iff]
  rw [(q.outcome_barrierGeneric h p).1, (q.outcome_vendorSpecific h p).1,
    bytes_vendorCommands_iff]
  constructor
  · intro hall
    exact hall.2.2
  · intro hfits
    exact ⟨q.bytes_kernelDispatch h p, q.bytes_barrierCommands h p, hfits⟩

open Machine in
/-- A vendor packet with as many words as there can be is copied over all frames. -/
theorem vendor_leaves_frame :
    ¬ ∀ (q : ComputeQueue) (h : Host) (p : AqlPacket), p.type = some .vendorSpecific →
      q.InFrame (q.vendorSpecificAqlToPm4 h p).written := by
  intro hall
  have hin := hall (.init sampleDevice 4 (fun _ => { header := 1 }) 0x100000) {}
    { header := 0, ibJumpCmd1 := 0x2000, ibJumpCmd3 := 0xfffff } rfl
  have hout := hin (0x100000, 4194300) (by
    rw [(outcome_vendorSpecific _ _ _).1]
    exact List.mem_cons_self)
  exact absurd hout.2 (by decide)

end ComputeQueue

end RocDxg
