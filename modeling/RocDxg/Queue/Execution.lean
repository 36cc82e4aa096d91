import Mathlib.Data.BitVec
import Mathlib.Tactic.Ring
import RocDxg.Queue.Process

/-!
# What the GPU does for a packet

A packet that is done advances the read pointer of the ring and decrements its completion signal.
Where the device has platform atomics the GPU does both, one packet after another.  Elsewhere it
only writes the new value of the read pointer, and leaves the signal to the CPU.

`GpuDone` is what either device has done after a number of packets, and `Advances` that some
commands lead from one number of packets to another.  The commands of a packet lead to the next
(`advances_kernel`, `advances_barrier`, `advances_vendor`).

Of the commands only `ATOMIC_MEM` and `WRITE_DATA` are executed.  Kernels, clocks and the words
copied from vendor packets write elsewhere.
-/

namespace RocDxg

open ComputeQueue (signalValue)

/-- The 64-bit words of the memory that the GPU and the CPU share. -/
abbrev Words := Nat → BitVec 64

namespace Pm4

/-- What a command does to the words. -/
def execute (words : Words) : Pm4 → Words
  | atomicMem addr srcData => Function.update words addr (words addr + (srcData : BitVec 64))
  | writeData64 addr value => Function.update words addr (value : BitVec 64)
  | _ => words

/-- The commands of an indirect buffer, in order. -/
def executeAll (words : Words) (cs : List Pm4) : Words := cs.foldl execute words

theorem executeAll_append (words : Words) (cs cs' : List Pm4) :
    executeAll words (cs ++ cs') = executeAll (executeAll words cs) cs' :=
  List.foldl_append

/-- The command changes no word. -/
def Silent (c : Pm4) : Prop := ∀ words, execute words c = words

theorem executeAll_silent {cs : List Pm4} (h : ∀ c ∈ cs, Silent c) (words : Words) :
    executeAll words cs = words := by
  induction cs with
  | nil => rfl
  | cons c cs ih =>
      rw [executeAll, List.foldl_cons, h c (List.mem_cons_self ..)]
      exact ih fun x hx => h x (List.mem_cons_of_mem _ hx)

theorem silent_copyData (dst : Nat) : Silent (copyData dst) := fun _ => rfl

theorem silent_barrier : Silent barrier := fun _ => rfl

theorem silent_acquireMem (major : Gfx) : Silent (acquireMem major) := fun _ => rfl

/-- Another scratch buffer makes no difference to the words. -/
theorem execute_patch (c : Pm4) (base : Option Scratch) (offset : Nat) (words : Words) :
    execute words (c.patch base offset) = execute words c := by
  cases c with
  | setScratch old =>
      rw [patch]
      split <;> rfl
  | _ => rfl

theorem executeAll_patchAt (base : Option Scratch) (offset : Nat) (cs : List Pm4) (words : Words) :
    executeAll words (patchAt base offset cs) = executeAll words cs := by
  induction cs generalizing offset words with
  | nil => rfl
  | cons c cs ih =>
      rw [patchAt]
      split
      next => rw [executeAll, executeAll, List.foldl_cons, List.foldl_cons, execute_patch]
      next => exact ih _ _

end Pm4

/-! ## Progress of the GPU -/

/-- How many of the first packets name a signal. -/
def named (packets : List AqlPacket) (signal n : Nat) : Nat :=
  (packets.take n).countP fun p => p.completionSignal = signal

/-- How often the GPU has decremented a signal after the first packets. -/
def gpuDecrements (device : Device) (packets : List AqlPacket) (signal n : Nat) : Nat :=
  if device.platformAtomic then named packets signal n else 0

/-- What the GPU has done to the words after `n` packets. -/
structure GpuDone (device : Device) (packets : List AqlPacket) (words₀ : Words) (n : Nat)
    (words : Words) : Prop where
  rptr : words device.ringRptr = (n : BitVec 64)
  signal : ∀ s, s ≠ 0 → signalValue s ≠ device.ringRptr →
    words (signalValue s) = words₀ (signalValue s) - (gpuDecrements device packets s n : BitVec 64)

/-- The commands take the GPU from packet `a` to packet `b`. -/
def Advances (device : Device) (packets : List AqlPacket) (a : Nat) (cs : List Pm4) (b : Nat) :
    Prop :=
  ∀ words₀ words, GpuDone device packets words₀ a words →
    GpuDone device packets words₀ b (Pm4.executeAll words cs)

variable {device : Device} {packets : List AqlPacket} {cs cs' : List Pm4} {a b c : Nat}

theorem Advances.append (h : Advances device packets a cs b) (h' : Advances device packets b cs' c) :
    Advances device packets a (cs ++ cs') c := by
  intro words₀ words hdone
  rw [Pm4.executeAll_append]
  exact h' _ _ (h _ _ hdone)

theorem Advances.congr (h : Advances device packets a cs b)
    (heq : ∀ words, Pm4.executeAll words cs' = Pm4.executeAll words cs) :
    Advances device packets a cs' b := by
  intro words₀ words hdone
  rw [heq]
  exact h _ _ hdone

theorem named_concat_of_le {p : AqlPacket} {signal n : Nat} (hn : n ≤ packets.length) :
    named (packets ++ [p]) signal n = named packets signal n := by
  rw [named, named, List.take_append_of_le_length hn]

theorem named_concat_length (packets : List AqlPacket) (p : AqlPacket) (signal : Nat) :
    named (packets ++ [p]) signal (packets.length + 1) =
      named packets signal packets.length + if p.completionSignal = signal then 1 else 0 := by
  have hall : packets.length + 1 = (packets ++ [p]).length := by
    rw [List.length_append, List.length_singleton]
  rw [named, named, hall, List.take_length, List.take_length, List.countP_append,
    List.countP_singleton]
  simp only [decide_eq_true_eq]

/-- Packets that come later make no difference. -/
theorem Advances.concat (h : Advances device packets a cs b) (p : AqlPacket)
    (ha : a ≤ packets.length) (hb : b ≤ packets.length) :
    Advances device (packets ++ [p]) a cs b := by
  have hdone : ∀ {words₀ words : Words} {n : Nat}, n ≤ packets.length →
      (GpuDone device (packets ++ [p]) words₀ n words ↔ GpuDone device packets words₀ n words) := by
    intro words₀ words n hn
    have heq : ∀ s, gpuDecrements device (packets ++ [p]) s n = gpuDecrements device packets s n :=
      fun s => by rw [gpuDecrements, gpuDecrements, named_concat_of_le hn]
    constructor
    · intro hd
      exact ⟨hd.rptr, fun s hs hne => by rw [← heq]; exact hd.signal s hs hne⟩
    · intro hd
      exact ⟨hd.rptr, fun s hs hne => by rw [heq]; exact hd.signal s hs hne⟩
  intro words₀ words hd
  exact (hdone hb).mpr (h _ _ ((hdone ha).mp hd))

namespace ComputeQueue

open Pm4 (executeAll executeAll_append executeAll_silent forall_mem_append forall_mem_singleton
  forall_mem_ite silent_copyData silent_barrier silent_acquireMem)

variable {q : ComputeQueue} {p : AqlPacket}

/-- The commands that complete a packet. -/
def finish (q : ComputeQueue) (p : AqlPacket) : List Pm4 :=
  (if p.completionSignal ≠ 0 then q.completion p.completionSignal else []) ++ [q.advanceRptr]

/-- The read pointer is not one of the signals. -/
def ApartFromRptr (device : Device) (p : AqlPacket) : Prop :=
  p.completionSignal ≠ 0 → signalValue p.completionSignal ≠ device.ringRptr

instance (device : Device) (p : AqlPacket) : Decidable (ApartFromRptr device p) :=
  inferInstanceAs (Decidable (_ → _))

theorem signalValue_inj {s t : Nat} : signalValue s = signalValue t ↔ s = t := Nat.add_right_cancel_iff

/-- The completion of a packet leaves the read pointer alone. -/
theorem executeAll_completion_rptr (hne : ApartFromRptr q.device p) (words : Words) :
    executeAll words (if p.completionSignal ≠ 0 then q.completion p.completionSignal else [])
      q.device.ringRptr = words q.device.ringRptr := by
  split
  next hs =>
    rw [completion]
    split
    · exact Function.update_of_ne (hne hs).symm _ _
    · rfl
  next => rfl

/-- The GPU decrements the signal of a packet if it can. -/
theorem executeAll_completion_signal (words : Words) {s : Nat} (hs : s ≠ 0) :
    executeAll words (if p.completionSignal ≠ 0 then q.completion p.completionSignal else [])
      (signalValue s) = words (signalValue s) -
        if q.device.platformAtomic ∧ p.completionSignal = s then 1 else 0 := by
  cases hatomic : q.device.platformAtomic with
  | true =>
      by_cases heq : p.completionSignal = s
      · subst heq
        rw [if_pos hs, completion, if_pos hatomic, if_pos ⟨rfl, rfl⟩]
        refine (Function.update_self ..).trans ?_
        rw [Int.cast_neg, Int.cast_one, sub_eq_add_neg]
      · have hzero : ¬ (true = true ∧ p.completionSignal = s) := fun h => heq h.2
        rw [if_neg hzero, sub_zero]
        split
        · rw [completion, if_pos hatomic]
          exact Function.update_of_ne (fun h => heq (signalValue_inj.mp h).symm) _ _
        · rfl
  | false =>
      have hzero : ¬ (false = true ∧ p.completionSignal = s) := fun h => Bool.false_ne_true h.1
      have hnone : ∀ signal, q.completion signal = [] := fun signal => by
        rw [completion, hatomic]
        rfl
      rw [if_neg hzero, sub_zero, hnone, ite_self]
      rfl

/-- The next packet is done. -/
theorem advances_finish {packets : List AqlPacket} (hlen : packets.length = q.writeIndex)
    (hne : ApartFromRptr q.device p) :
    Advances q.device (packets ++ [p]) q.writeIndex (q.finish p) (q.writeIndex + 1) := by
  intro words₀ words hdone
  have hrptr := executeAll_completion_rptr hne words
  rw [finish, executeAll_append]
  generalize hwords : executeAll words
    (if p.completionSignal ≠ 0 then q.completion p.completionSignal else []) = words' at hrptr ⊢
  have hlast : executeAll words' [q.advanceRptr] =
      Function.update words' q.device.ringRptr ((q.writeIndex + 1 : Nat) : BitVec 64) := by
    rw [advanceRptr]
    split
    · show Function.update words' q.device.ringRptr (words' q.device.ringRptr + _) = _
      rw [hrptr, hdone.rptr]
      push_cast
      rfl
    · rfl
  rw [hlast]
  refine ⟨Function.update_self .., fun s hs hsne => ?_⟩
  rw [Function.update_of_ne hsne, ← hwords, executeAll_completion_signal words hs,
    hdone.signal s hs hsne, gpuDecrements, gpuDecrements, ← hlen, named_concat_length,
    named_concat_of_le (Nat.le_refl _)]
  cases q.device.platformAtomic with
  | true =>
      rw [if_pos rfl, if_pos rfl]
      by_cases heq : p.completionSignal = s
      · rw [if_pos ⟨rfl, heq⟩, if_pos heq, Nat.cast_add, Nat.cast_one, sub_sub]
      · rw [if_neg fun h => heq h.2, if_neg heq, Nat.add_zero, sub_zero]
  | false =>
      have hzero : ¬ (false = true ∧ p.completionSignal = s) := fun h => Bool.false_ne_true h.1
      rw [if_neg Bool.false_ne_true, if_neg Bool.false_ne_true, if_neg hzero, sub_zero]

/-! ## The commands of a packet -/

theorem finish_congr {q' : ComputeQueue} (h : SameBuffer q q') : q'.finish p = q.finish p := by
  simp only [finish, completion, advanceRptr, h.device, h.writeIndex]

/-- A translator writes some commands, of which those at the end complete the packet. -/
theorem executeAll_kernelCommands (q : ComputeQueue) (h : Host) (p : AqlPacket) (k : KernelCode)
    (words : Words) : executeAll words (q.kernelCommands h p k) = executeAll words (q.finish p) := by
  have hprologue : ∀ c ∈ q.kernelPrologue h p, c.Silent := by
    rw [kernelPrologue]
    exact forall_mem_append (forall_mem_append
      (forall_mem_ite (forall_mem_singleton (silent_copyData _)))
      (forall_mem_ite (forall_mem_singleton silent_barrier)))
      (forall_mem_singleton (silent_acquireMem _))
  have hscratch : ∀ c ∈ q.kernelScratch, c.Silent := by
    rw [kernelScratch]
    exact forall_mem_ite (List.forall_mem_cons.mpr
      ⟨fun _ => rfl, forall_mem_singleton fun _ => rfl⟩)
  have hdispatch : ∀ c ∈ [q.buildDispatch p k], c.Silent := forall_mem_singleton fun _ => rfl
  have hsignal : ∀ c ∈ [Pm4.barrier] ++
      (if h.profilingEnd then [Pm4.copyData (signalEndTs p.completionSignal)] else []) ++
      [Pm4.acquireMem q.device.major], c.Silent :=
    forall_mem_append (forall_mem_append (forall_mem_singleton silent_barrier)
      (forall_mem_ite (forall_mem_singleton (silent_copyData _))))
      (forall_mem_singleton (silent_acquireMem _))
  rw [kernelCommands, executeAll_append, executeAll_append, executeAll_append,
    executeAll_silent hprologue, executeAll_silent hscratch, executeAll_silent hdispatch,
    kernelEpilogue, finish, executeAll_append, executeAll_append]
  split
  next => rw [executeAll_append, executeAll_silent hsignal]
  next => rfl

theorem executeAll_barrierCommands (q : ComputeQueue) (h : Host) (p : AqlPacket) (words : Words) :
    executeAll words (q.barrierCommands h p) = executeAll words (q.finish p) := by
  have hsignal : ∀ c ∈
      (if h.profilingStart then [Pm4.copyData (signalStartTs p.completionSignal)] else []) ++
      (if q.needsBarrier then [Pm4.barrier] else []) ++
      (if h.profilingEnd then [Pm4.copyData (signalEndTs p.completionSignal)] else []) ++
      [Pm4.acquireMem q.device.major], c.Silent :=
    forall_mem_append (forall_mem_append (forall_mem_append
      (forall_mem_ite (forall_mem_singleton (silent_copyData _)))
      (forall_mem_ite (forall_mem_singleton silent_barrier)))
      (forall_mem_ite (forall_mem_singleton (silent_copyData _))))
      (forall_mem_singleton (silent_acquireMem _))
  rw [barrierCommands, finish, executeAll_append, executeAll_append]
  split
  next => rw [executeAll_append, executeAll_silent hsignal]
  next => rfl

/-- A vendor packet that is processed ends like the others. -/
theorem executeAll_vendorCommands (hprocess : q.device.vendorPacketProcess = true) (h : Host)
    (p : AqlPacket) (words : Words) :
    executeAll words (q.vendorCommands h p) = executeAll words (q.finish p) := by
  have hcopied : ∀ c ∈ [Pm4.copied (p.ibJumpCmd2 * 2 ^ 32 + p.ibJumpCmd1 / 4 * 4)
      (p.ibJumpCmd3 % 2 ^ 20)], c.Silent := forall_mem_singleton fun _ => rfl
  have hsignal : ∀ c ∈
      (if h.profilingStart then [Pm4.copyData (signalStartTs p.completionSignal)] else []) ++
      [Pm4.barrier] ++
      (if h.profilingEnd then [Pm4.copyData (signalEndTs p.completionSignal)] else []) ++
      [Pm4.acquireMem q.device.major], c.Silent :=
    forall_mem_append (forall_mem_append (forall_mem_append
      (forall_mem_ite (forall_mem_singleton (silent_copyData _)))
      (forall_mem_singleton silent_barrier))
      (forall_mem_ite (forall_mem_singleton (silent_copyData _))))
      (forall_mem_singleton (silent_acquireMem _))
  rw [vendorCommands, finish, if_pos hprocess, executeAll_append, executeAll_append,
    executeAll_append, executeAll_silent hcopied]
  split
  next => rw [executeAll_append, executeAll_silent hsignal]
  next => rfl

/-- Relocation makes no difference to the words. -/
theorem executeAll_relocate (q : ComputeQueue) (words : Words) :
    executeAll words q.relocateCmdbufScratchBase.ib = executeAll words q.ib := by
  rw [relocateCmdbufScratchBase]
  simp only
  generalize q.ib = ib
  induction q.scratchBaseOffsetArray generalizing ib with
  | nil => rfl
  | cons o os ih =>
      rw [List.foldl_cons, ih]
      exact Pm4.executeAll_patchAt q.scratchBase o ib words

end ComputeQueue

end RocDxg
