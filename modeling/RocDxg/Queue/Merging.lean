import RocDxg.Queue.Decoding
import RocDxg.Queue.Frames

/-!
# Packets merged into one indirect buffer

Between two submissions the processing loop translates packets one behind the other.  `Merges` is
such a sequence of kernel dispatches and barrier packets, each with the queue that it was translated
with, and `reach_merges` that the machine does nothing else.  What the packets were built from can
be read back from the dwords of the buffer (`decodes_merged`).
-/

namespace RocDxg

open Lib (Reach frames)

/-- A packet in an indirect buffer, with the queue when its commands are written: for a kernel
dispatch, after its scratch memory is there. -/
inductive MergedPacket where
  | kernel (q : ComputeQueue) (h : Host) (p : AqlPacket) (k : KernelCode)
  | barrier (q : ComputeQueue) (h : Host) (p : AqlPacket)

namespace MergedPacket

/-- The commands of a packet. -/
def commands : MergedPacket → List Pm4
  | kernel q h p k => q.kernelCommands h p k
  | barrier q h p => q.barrierCommands h p

/-- A signal or the read pointer is at an address divisible by 8, below `2 ^ 48`. -/
def Placed64 (addr : Nat) : Prop := 2 ^ 3 ∣ addr ∧ addr < 2 ^ 48

/-- `entry` in `KernelDispatchAqlToPm4` -/
def entryAddr (p : AqlPacket) (k : KernelCode) : Nat :=
  u64 (p.kernelObject + k.kernelCodeEntryByteOffset)

/-- The addresses that the commands of a packet encode are aligned. -/
def Aligned : MergedPacket → Prop
  | kernel q _ p k => Placed64 p.completionSignal ∧ Placed64 q.device.ringRptr ∧
      2 ^ 8 ∣ entryAddr p k ∧ 2 ^ 8 ∣ scratchAddr q.scratchBase
  | barrier q _ p => Placed64 p.completionSignal ∧ Placed64 q.device.ringRptr

instance (addr : Nat) : Decidable (Placed64 addr) := inferInstanceAs (Decidable (_ ∧ _))

instance : (m : MergedPacket) → Decidable m.Aligned
  | kernel q _ p k =>
      inferInstanceAs (Decidable (Placed64 p.completionSignal ∧ Placed64 q.device.ringRptr ∧
        2 ^ 8 ∣ entryAddr p k ∧ 2 ^ 8 ∣ scratchAddr q.scratchBase))
  | barrier q _ p =>
      inferInstanceAs (Decidable (Placed64 p.completionSignal ∧ Placed64 q.device.ringRptr))

/-- The entry point is at a 48-bit address, as `Ptr48Low32` asserts. -/
def EntryBelow : MergedPacket → Prop
  | kernel _ _ p k => entryAddr p k < 2 ^ 48
  | barrier _ _ _ => True

instance : (m : MergedPacket) → Decidable m.EntryBelow
  | kernel _ _ p k => inferInstanceAs (Decidable (entryAddr p k < 2 ^ 48))
  | barrier _ _ _ => inferInstanceAs (Decidable True)

end MergedPacket

namespace ComputeQueue

/-- The packets accepted one behind the other.  The ring and the flags of the queue may change in
between. -/
inductive Merges (q : ComputeQueue) : List MergedPacket → ComputeQueue → Prop
  | nil : Merges q [] q
  | kernel {ms : List MergedPacket} {q' : ComputeQueue} (h : Host) (p : AqlPacket)
      {k : KernelCode} : Merges q ms q' → q'.checkKernelDispatch h p = .ok k →
      (q'.kernelDispatchAqlToPm4 h p).status = .success →
      Merges q (ms ++ [.kernel (q'.updateScratch h p.privateSegmentSize k.enableWavefrontSize32)
        h p k]) (q'.kernelDispatchAqlToPm4 h p).queue
  | barrier {ms : List MergedPacket} {q' : ComputeQueue} (h : Host) (p : AqlPacket) :
      Merges q ms q' → (q'.barrierGenericAqlToPm4 h p).status = .success →
      Merges q (ms ++ [.barrier q' h p]) (q'.barrierGenericAqlToPm4 h p).queue
  | other {ms : List MergedPacket} {q' : ComputeQueue} (ring : Nat → AqlPacket) (ready : Bool)
      (signal : Option Nat) : Merges q ms q' →
      Merges q ms { q' with ring := ring, readyToSubmit := ready, signalAddr := signal }

variable {q q' : ComputeQueue} {ms : List MergedPacket}

/-- The indirect buffer grows by the commands of the packets. -/
theorem Merges.content (h : Merges q ms q') :
    q'.ib = q.ib ++ ms.flatMap MergedPacket.commands ∧
      q'.ibSize = q.ibSize + Pm4.bytes (ms.flatMap MergedPacket.commands) := by
  induction h with
  | nil => exact ⟨(List.append_nil _).symm, rfl⟩
  | kernel h p _ hk _ ih =>
      have hacc := (accepts_kernelDispatch hk).2
      rw [hacc.ib, hacc.ibSize, ih.1, ih.2, List.flatMap_append, List.flatMap_singleton,
        Pm4.bytes_append, List.append_assoc, Nat.add_assoc]
      exact ⟨rfl, rfl⟩
  | @barrier ms q₁ h p _ _ ih =>
      have hacc := (accepts_barrierGeneric q₁ h p).2
      rw [hacc.ib, hacc.ibSize, ih.1, ih.2, List.flatMap_append, List.flatMap_singleton,
        Pm4.bytes_append, List.append_assoc, Nat.add_assoc]
      exact ⟨rfl, rfl⟩
  | other _ _ _ _ ih => exact ih

end ComputeQueue

/-! ## Between two submissions -/

namespace Machine

open ComputeQueue

variable {m m' : Machine} {q : ComputeQueue}

/-- The thread does not submit, and it translates kernel dispatches and barrier packets. -/
def Merging (m : Machine) : Event → Prop
  | .run _ _ => m.pc ≠ .submit ∧ (m.pc = .switch → m.packet.type = some .kernelDispatch ∨
      m.packet.type = some .barrierAnd ∨ m.packet.type = some .barrierOr)
  | _ => True

/-- A translation adds its packet. -/
theorem switch_merges {h : Host} (I : ∃ ms, Merges q ms m.queue)
    (htype : m.packet.type = some .kernelDispatch ∨ m.packet.type = some .barrierAnd ∨
      m.packet.type = some .barrierOr) (hres : SwitchResult m h m') :
    Until (fun q' => ∃ ms, Merges q ms q') m' := by
  obtain ⟨ms, hm⟩ := I
  cases hres with
  | kernel hkernel hs _ =>
      rw [translation_kernel h hkernel] at hs ⊢
      obtain ⟨k, hk, _⟩ := kernelDispatch_success hs
      exact Or.inr ⟨_, .kernel h m.packet hm hk hs⟩
  | accepted hun | rejected hun =>
      have hbarrier : m.packet.type = some .barrierAnd ∨ m.packet.type = some .barrierOr := by
        rcases hun with hun | hun | hun
        · exact Or.inl hun
        · exact Or.inr hun
        · rw [hun] at htype
          rcases htype with htype | htype | htype <;> cases htype
      rw [translation_barrier h hbarrier]
      have hacc := accepts_barrierGeneric m.queue h m.packet
      exact Or.inr ⟨_, .other _ true _ (.barrier h m.packet hm hacc.1)⟩
  | invalid hinvalid =>
      rw [hinvalid] at htype
      rcases htype with htype | htype | htype <;> cases htype
  | failed q status => exact Or.inl ⟨status, rfl⟩

theorem step_merges {e : Event} (I : Until (fun q' => ∃ ms, Merges q ms q') m)
    (hok : Merging m e) (hs : m.step e = some m') :
    Until (fun q' => ∃ ms, Merges q ms q') m' := by
  refine Until.step I hs ?_ ?_ ?_ ?_
  · rintro q' ring ⟨ms, hm⟩
    exact ⟨ms, hm.other ring q'.readyToSubmit q'.signalAddr⟩
  · rintro q' ready signal ⟨ms, hm⟩
    exact ⟨ms, hm.other q'.ring ready signal⟩
  · intro h d he hpc
    subst he
    exact absurd hpc hok.1
  · intro h d he hpc hP hres
    subst he
    exact switch_merges hP (hok.2 hpc) hres

/-- From a submission to the next, the indirect buffer is a sequence of merged packets. -/
theorem reach_merges {m₀ : Machine} (h : Reach step Merging m₀ m) :
    Until (fun q => ∃ ms, Merges m₀.queue ms q) m :=
  h.invariant (Or.inr ⟨[], .nil⟩) fun _ _ _ I hok hs => step_merges I hok hs

end Machine

namespace ComputeQueue

variable {q q' : ComputeQueue} {ms : List MergedPacket}

/-! ## What the packets lose -/

section Recoverable

open Pm4 MergedPacket

variable {h : Host} {p : AqlPacket} {k : KernelCode}

theorem recoverable_completion {signal : Nat} (hsignal : Placed64 signal) :
    ∀ c ∈ q.completion signal, c.Recoverable := by
  have hlt : signalValue signal < 2 ^ 64 := by
    rw [signalValue]
    exact Nat.lt_trans (Nat.add_lt_add_right hsignal.2 8) (by decide)
  rw [completion]
  exact forall_mem_ite (forall_mem_singleton ⟨hlt, by decide, by decide⟩)

theorem recoverable_advanceRptr (hrptr : Placed64 q.device.ringRptr) :
    q.advanceRptr.Recoverable := by
  obtain ⟨hdvd, hlt⟩ := hrptr
  have hlt : q.device.ringRptr < 2 ^ 64 := Nat.lt_trans hlt (by decide)
  rw [advanceRptr]
  split
  · exact ⟨hlt, by decide, by decide⟩
  · exact ⟨by omega, hlt⟩

theorem recoverable_startTs {signal : Nat} (hsignal : Placed64 signal) :
    (copyData (signalStartTs signal)).Recoverable := by
  obtain ⟨hdvd, hlt⟩ := hsignal
  exact ⟨by rw [signalStartTs]; omega, by rw [signalStartTs]; omega⟩

theorem recoverable_endTs {signal : Nat} (hsignal : Placed64 signal) :
    (copyData (signalEndTs signal)).Recoverable := by
  obtain ⟨hdvd, hlt⟩ := hsignal
  exact ⟨by rw [signalEndTs]; omega, by rw [signalEndTs]; omega⟩

theorem recoverable_kernelCommands (hsignal : Placed64 p.completionSignal)
    (hrptr : Placed64 q.device.ringRptr) (hentry : Encodable (entryAddr p k))
    (hscratch : 2 ^ 8 ∣ scratchAddr q.scratchBase) :
    ∀ c ∈ q.kernelCommands h p k, c.Recoverable := by
  have hprologue : ∀ c ∈ q.kernelPrologue h p, c.Recoverable := by
    rw [kernelPrologue]
    exact forall_mem_append (forall_mem_append
      (forall_mem_ite (forall_mem_singleton (recoverable_startTs hsignal)))
      (forall_mem_ite (forall_mem_singleton trivial))) (forall_mem_singleton trivial)
  have hregs : ∀ c ∈ q.kernelScratch, c.Recoverable := by
    rw [kernelScratch]
    refine forall_mem_ite (List.forall_mem_cons.mpr ⟨hscratch, forall_mem_singleton trivial⟩)
  have hepilogue : ∀ c ∈ q.kernelEpilogue h p, c.Recoverable := by
    rw [kernelEpilogue]
    exact forall_mem_append (forall_mem_ite (forall_mem_append (forall_mem_append
      (forall_mem_append (forall_mem_singleton trivial)
        (forall_mem_ite (forall_mem_singleton (recoverable_endTs hsignal))))
      (forall_mem_singleton trivial)) (recoverable_completion hsignal)))
      (forall_mem_singleton (recoverable_advanceRptr hrptr))
  rw [kernelCommands]
  exact forall_mem_append (forall_mem_append (forall_mem_append hprologue hregs)
    (forall_mem_singleton hentry)) hepilogue

theorem recoverable_barrierCommands (hsignal : Placed64 p.completionSignal)
    (hrptr : Placed64 q.device.ringRptr) : ∀ c ∈ q.barrierCommands h p, c.Recoverable := by
  rw [barrierCommands]
  exact forall_mem_append (forall_mem_ite (forall_mem_append (forall_mem_append
    (forall_mem_append (forall_mem_append
      (forall_mem_ite (forall_mem_singleton (recoverable_startTs hsignal)))
      (forall_mem_ite (forall_mem_singleton trivial)))
      (forall_mem_ite (forall_mem_singleton (recoverable_endTs hsignal))))
    (forall_mem_singleton trivial)) (recoverable_completion hsignal)))
    (forall_mem_singleton (recoverable_advanceRptr hrptr))

theorem recoverable_commands {m : MergedPacket} (halign : m.Aligned) (hentry : m.EntryBelow) :
    ∀ c ∈ m.commands, c.Recoverable := by
  cases m with
  | kernel q h p k =>
      obtain ⟨hsignal, hrptr, hdvd, hscratch⟩ := halign
      exact recoverable_kernelCommands hsignal hrptr ⟨hdvd, hentry⟩ hscratch
  | barrier q h p => exact recoverable_barrierCommands halign.1 halign.2

end Recoverable

/-! ## Reading an indirect buffer -/

/-- What is read of a dispatch are its sizes, its entry point and the user SGPRs. -/
def TellsDispatch (e : DwordEnv) (q : ComputeQueue) (p : AqlPacket) (k : KernelCode) :
    List Pm4Read → Prop
  | [.numThreads x y z, .program entry, .programResources _ _, .resourceLimits _ _ _ _ _ _,
      .userData ws, .dispatchDirect gx gy gz _] =>
      x = p.workgroupSizeX ∧ y = p.workgroupSizeY ∧ z = p.workgroupSizeZ ∧
      entry = MergedPacket.entryAddr p k ∧ readSgprs k ws = q.sgprs e p k ∧
      gx = u32 p.gridSizeX ∧ gy = u32 p.gridSizeY ∧ gz = u32 p.gridSizeZ
  | _ => False

/-- What the dwords of an indirect buffer tell of the packets in it. -/
structure Decodes (e : DwordEnv) (ms : List MergedPacket) (q : ComputeQueue) : Prop where
  /-- The decoder finds the packets that the `Build` functions wrote, up to `ib_size`. -/
  packets : ∃ ps, frames bodyDwords (Pm4.ibWords e q.ib) = some ps ∧
    ps = (ms.flatMap MergedPacket.commands).flatMap (Pm4.packets e) ∧
    4 * (ps.map List.length).sum = q.ibSize
  /-- The fields of the packets hold what the `Build` functions were called with. -/
  reads : decodeStream (Pm4.ibWords e q.ib) =
    some ((ms.flatMap MergedPacket.commands).flatMap (Pm4.reads e))
  dispatch : ∀ q' h p k, .kernel q' h p k ∈ ms →
    TellsDispatch e q' p k (Pm4.reads e (q'.buildDispatch p k))

theorem workgroup_of_check {h : Host} {p : AqlPacket} {k : KernelCode}
    (hk : q.checkKernelDispatch h p = .ok k) :
    p.workgroupSizeX ≤ 1024 ∧ p.workgroupSizeY ≤ 1024 ∧ p.workgroupSizeZ ≤ 1024 := by
  rw [checkKernelDispatch] at hk
  split at hk
  next => cases hk
  next hle => omega

/-- The sizes of a dispatch in the buffer have passed the test of the translator. -/
theorem Merges.workgroup (hm : Merges q ms q') {q₁ : ComputeQueue} {h : Host} {p : AqlPacket}
    {k : KernelCode} (hmem : .kernel q₁ h p k ∈ ms) :
    p.workgroupSizeX ≤ 1024 ∧ p.workgroupSizeY ≤ 1024 ∧ p.workgroupSizeZ ≤ 1024 := by
  induction hm with
  | nil => cases hmem
  | kernel _ _ _ hk _ ih =>
      cases List.mem_append.mp hmem with
      | inl hbefore => exact ih hbefore
      | inr hlast =>
          cases List.mem_singleton.mp hlast
          exact workgroup_of_check hk
  | barrier _ _ _ _ ih =>
      cases List.mem_append.mp hmem with
      | inl hbefore => exact ih hbefore
      | inr hlast => cases List.mem_singleton.mp hlast
  | other _ _ _ _ ih => exact ih hmem

open Pm4 in
/-- The dwords of any number of merged packets, of every generation, with or without profiling and
platform atomics, tell what each packet was built from. -/
theorem decodes_merged (e : DwordEnv) (hib : q.ib = []) (hsize : q.ibSize = 0)
    (hm : Merges q ms q') (halign : ∀ m ∈ ms, m.Aligned) (hentry : ∀ m ∈ ms, m.EntryBelow) :
    Decodes e ms q' := by
  obtain ⟨hcontent, hbytes⟩ := hm.content
  rw [hib, List.nil_append] at hcontent
  rw [hsize, Nat.zero_add] at hbytes
  have hrec : ∀ c ∈ q'.ib, c.Recoverable := by
    intro c hc
    rw [hcontent] at hc
    obtain ⟨m, hmem, hc⟩ := List.mem_flatMap.mp hc
    exact recoverable_commands (halign m hmem) (hentry m hmem) c hc
  have hframes := frames_ibWords (e := e) fun c hc => (hrec c hc).isBuilt
  refine ⟨⟨_, hframes, by rw [hcontent], ?_⟩, ?_, ?_⟩
  · rw [← List.length_flatten, Lib.flatten_of_frames hframes, hbytes, ← hcontent]
    exact (bytes_ibWords ..).symm
  · rw [decode_ibWords hrec, hcontent]
  · intro q₁ h p k hmem
    obtain ⟨hx, hy, hz⟩ := hm.workgroup hmem
    have hx : u32 p.workgroupSizeX = p.workgroupSizeX := u32_of_lt (by omega)
    have hy : u32 p.workgroupSizeY = p.workgroupSizeY := u32_of_lt (by omega)
    have hz : u32 p.workgroupSizeZ = p.workgroupSizeZ := u32_of_lt (by omega)
    exact ⟨hx, hy, hz, rfl, readSgprs_userDwords e q₁ p k, rfl, rfl, rfl⟩

/-! ## Two packets -/

/-- A host whose kernels at an address have all user SGPRs. -/
def sgprHost (kernelObject : Nat) : Host where
  kernelCode := fun addr =>
    if addr = kernelObject then some { kernelCodeProperties := 2 ^ 7 - 1 } else none
  profilingStart := true
  profilingEnd := true
  scratch := some 0x10000

/-- A dispatch of the kernel at an address. -/
def kernelAt (kernelObject : Nat) : AqlPacket :=
  { Machine.sampleKernel 0 32 with kernelObject := kernelObject, kernargAddress := 0x123456789000 }

/-- The queue of a device of a generation. -/
def mergingQueue (major : Gfx) : ComputeQueue :=
  .init { Machine.sampleDevice with major := major } 4 (fun _ => { header := 1 }) 0x100000

theorem decodes_merged_two :
    ∃ ms q', ms.length = 2 ∧ Merges (mergingQueue .gfx10) ms q' ∧
      Decodes { device := (mergingQueue .gfx10).device } ms q' := by
  have hk : (mergingQueue .gfx10).checkKernelDispatch (sgprHost 0x7000) (kernelAt 0x7000) =
      .ok { kernelCodeProperties := 2 ^ 7 - 1 } := by decide +kernel
  have hkernel := Merges.kernel _ _ .nil hk (accepts_kernelDispatch hk).1
  have hm := Merges.barrier _ _ hkernel
    (accepts_barrierGeneric _ (sgprHost 0x7000) { header := 3, completionSignal := 0x9000 }).1
  refine ⟨_, _, rfl, hm, decodes_merged _ rfl rfl hm ?_ ?_⟩
  · decide +kernel
  · decide +kernel

/-- A host whose kernel object says that its code is far behind it. -/
def farEntryHost : Host :=
  { sgprHost 0x7000 with
    kernelCode := fun addr =>
      if addr = 0x7000 then
        some { kernelCodeProperties := 2 ^ 7 - 1, kernelCodeEntryByteOffset := 2 ^ 48 - 0x7000 }
      else none }

/-- An entry point above the 48-bit addresses is encoded without its upper bits. -/
theorem decodes_other_entry :
    ¬ ∀ (e : DwordEnv) (q q' : ComputeQueue) (ms : List MergedPacket), q.ib = [] → q.ibSize = 0 →
      Merges q ms q' → (∀ m ∈ ms, m.Aligned) → Decodes e ms q' := by
  intro hall
  have hk : (mergingQueue .gfx10).checkKernelDispatch farEntryHost (kernelAt 0x7000) =
      .ok { kernelCodeProperties := 2 ^ 7 - 1, kernelCodeEntryByteOffset := 2 ^ 48 - 0x7000 } := by
    decide +kernel
  have hm := Merges.kernel _ _ .nil hk (accepts_kernelDispatch hk).1
  have hdec := hall { device := (mergingQueue .gfx10).device } _ _ _ rfl rfl hm (by decide +kernel)
  have hreads := hdec.reads
  rw [decodeStream, Pm4.frames_ibWords (by decide +kernel)] at hreads
  exact absurd hreads (by decide +kernel)

end ComputeQueue

end RocDxg
