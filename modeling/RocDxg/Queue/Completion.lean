import RocDxg.Queue.Consumption
import RocDxg.Queue.Execution

/-!
# The two ways to complete a packet

The processing loop with the memory that it shares with the GPU.  With platform atomics the GPU
advances the read pointer and decrements the signals of an indirect buffer.  Without, `Process`
waits for the indirect buffer and decrements the signal itself: one signal only, so that no indirect
buffer may have two.  It has not, since no packet is merged behind one with a signal.

`modes_agree` says that either way every run gets to the same values, whenever an indirect buffer
is complete and the CPU has done its part.
-/

namespace RocDxg

open Lib (Chain Reach runAll reach_of_runAll)
open ComputeQueue (signalValue ApartFromRptr finish)

/-! ## Runs with memory -/

/-- The machine with the words of the memory, and the packets that it has accepted so far. -/
structure Execution where
  machine : Machine
  words : Words
  packets : List AqlPacket := []

namespace Execution

def init (device : Device) (ringSize : Nat) (ring : Nat → AqlPacket) (cmdbufAddr : Nat)
    (words : Words) : Execution where
  machine := .init device ringSize ring cmdbufAddr
  words := words

/-- The words after a step to `m`.  The GPU executes an indirect buffer, and `Process` decrements
`*signal_addr_` once the wait for the submission is over. -/
def wordsAfter (w : Execution) (m : Machine) : Event → Words
  | .complete =>
      match w.machine.inFlight with
      | [] => w.words
      | ib :: _ => Pm4.executeAll w.words ib.cmds
  | .run _ _ =>
      match w.machine.pc, w.machine.queue.signalAddr with
      | .signal _, some addr =>
          if m.pc = .head then Function.update w.words addr (w.words addr - 1) else w.words
      | _, _ => w.words
  | .write _ _ | .ring _ => w.words

/-- The packet at the write index is accepted if the index moves on. -/
def packetsAfter (w : Execution) (m : Machine) : List AqlPacket :=
  if m.queue.writeIndex = w.machine.queue.writeIndex then w.packets
  else w.packets ++ [w.machine.packet]

/-- One step. -/
def step (w : Execution) (e : Event) : Option Execution :=
  (w.machine.step e).map fun m => ⟨m, w.wordsAfter m e, w.packetsAfter m⟩

/-- The packets are translated with success, those of a vendor are processed, and no completion
signal is the read pointer.  The client does not replace a packet before the test whether to merge
behind it. -/
def Succeeds (w : Execution) : Event → Prop
  | .write slot _ => w.machine.pc ≠ .merge slot
  | .run h _ =>
      w.machine.pc = .switch →
        (w.machine.translation h).status = .success ∧
        (w.machine.packet.type = some .vendorSpecific →
          w.machine.queue.device.vendorPacketProcess = true) ∧
        ApartFromRptr w.machine.queue.device w.machine.packet
  | .ring _ | .complete => True

instance (w : Execution) : (e : Event) → Decidable (Succeeds w e)
  | .write _ _ => inferInstanceAs (Decidable (_ ≠ _))
  | .run _ _ => inferInstanceAs (Decidable (_ → _))
  | .ring _ | .complete => inferInstanceAs (Decidable True)

/-- There is no complete indirect buffer with a signal that the CPU has still to decrement. -/
def SignalsDone (w : Execution) : Prop :=
  w.machine.queue.signalAddr ≠ none → w.machine.syncAddr < w.machine.queue.writeIndex

end Execution

/-- The read pointer and the signals after `n` packets. -/
structure Completed (device : Device) (packets : List AqlPacket) (words₀ : Words) (n : Nat)
    (words : Words) : Prop where
  rptr : words device.ringRptr = (n : BitVec 64)
  signal : ∀ s, s ≠ 0 → signalValue s ≠ device.ringRptr →
    words (signalValue s) = words₀ (signalValue s) - (named packets s n : BitVec 64)

/-! ## What a translator does for the completion -/

namespace ComputeQueue

variable {q : ComputeQueue} {p : AqlPacket} {h : Host}

/-- The packet is accepted, its commands complete it, and its signal is left to the CPU if the GPU
cannot decrement it. -/
structure Translates (q : ComputeQueue) (p : AqlPacket) (t : Translation) : Prop where
  accepts : q.Accepts t.written t.queue
  execute : ∀ words, Pm4.executeAll words t.written = Pm4.executeAll words (q.finish p)
  signal : t.queue.signalAddr =
    if p.completionSignal ≠ 0 ∧ q.device.platformAtomic = false then
      some (signalValue p.completionSignal) else q.signalAddr
  ring : ∀ i, (t.queue.ring i).completionSignal = (q.ring i).completionSignal

@[simp] theorem signalAddr_updateScratch (q : ComputeQueue) (h : Host) (n : Nat) (wave32 : Bool) :
    (q.updateScratch h n wave32).signalAddr = q.signalAddr := by
  rw [updateScratch, reportOverflow]
  cases h.scratch with
  | none =>
      simp only [ite_self]
      split <;> rfl
  | some addr =>
      simp only
      split <;> split <;> rfl

@[simp] theorem signalAddr_accept (q : ComputeQueue) (written : List Pm4) :
    (q.accept written).queue.signalAddr = q.signalAddr := by
  rw [accept]
  split <;> rfl

/-- A signal is left to the CPU, unless there is none or the GPU can decrement it. -/
theorem signalAddr_leave {q q₁ q₂ : ComputeQueue} (hdevice : q₁.device = q.device)
    (hsignal : q₁.signalAddr = q.signalAddr) (hsignal' : q₂.signalAddr = q.signalAddr)
    (signal : Nat) :
    (if signal ≠ 0 then q₁.leaveSignal signal else q₂).signalAddr =
      if signal ≠ 0 ∧ q.device.platformAtomic = false then some (signalValue signal)
      else q.signalAddr := by
  by_cases hs : signal ≠ 0
  · rw [if_pos hs, leaveSignal, hdevice]
    cases q.device.platformAtomic with
    | true =>
        rw [if_pos rfl, if_neg fun h => absurd h.2.symm Bool.false_ne_true]
        exact hsignal
    | false => rw [if_neg Bool.false_ne_true, if_pos ⟨hs, rfl⟩]
  · rw [if_neg hs, if_neg fun h => hs h.1]
    exact hsignal'

theorem signalAddr_kernelDispatch {k : KernelCode} (hk : q.checkKernelDispatch h p = .ok k) :
    (q.kernelDispatchAqlToPm4 h p).queue.signalAddr =
      if p.completionSignal ≠ 0 ∧ q.device.platformAtomic = false then
        some (signalValue p.completionSignal) else q.signalAddr := by
  rw [kernelDispatchAqlToPm4, hk]
  simp only [signalAddr_accept]
  have hscratch := signalAddr_updateScratch q h p.privateSegmentSize k.enableWavefrontSize32
  refine signalAddr_leave ?_ ?_ ?_ _
  · exact (same_updateScratch q h _ _).device
  · exact hscratch
  · exact hscratch

theorem signalAddr_barrierGeneric (q : ComputeQueue) (h : Host) (p : AqlPacket) :
    (q.barrierGenericAqlToPm4 h p).queue.signalAddr =
      if p.completionSignal ≠ 0 ∧ q.device.platformAtomic = false then
        some (signalValue p.completionSignal) else q.signalAddr := by
  rw [barrierGenericAqlToPm4]
  simp only [signalAddr_accept]
  refine signalAddr_leave ?_ ?_ ?_ _ <;> rfl

theorem signalAddr_vendorSpecific (hprocess : q.device.vendorPacketProcess = true) :
    (q.vendorSpecificAqlToPm4 h p).queue.signalAddr =
      if p.completionSignal ≠ 0 ∧ q.device.platformAtomic = false then
        some (signalValue p.completionSignal) else q.signalAddr := by
  rw [vendorSpecificAqlToPm4]
  simp only [signalAddr_accept, hprocess, true_and]
  refine signalAddr_leave ?_ ?_ ?_ _ <;> rfl

end ComputeQueue

namespace Machine

open ComputeQueue

variable {m : Machine} {h : Host}

/-- A translation that reports success is one of the three. -/
theorem translates_of_success (hs : (m.translation h).status = .success)
    (hne : m.packet.type ≠ some .invalid)
    (hvendor : m.packet.type = some .vendorSpecific → m.queue.device.vendorPacketProcess = true) :
    Translates m.queue m.packet (m.translation h) := by
  have hring : ∀ i, ((m.translation h).queue.ring i).completionSignal =
      (m.queue.ring i).completionSignal := by
    intro i
    rw [translation_marks hs hne]
    simp only
    split <;> rfl
  cases htype : m.packet.type with
  | none =>
      rw [translation, htype] at hs
      cases hs
  | some type =>
      cases type with
      | kernelDispatch =>
          have heq := translation_kernel h htype
          rw [heq] at hs ⊢
          obtain ⟨k, hk, hw⟩ := kernelDispatch_success hs
          have hacc := (accepts_kernelDispatch hk).2
          refine ⟨hw ▸ hacc, fun words => ?_, signalAddr_kernelDispatch hk, ?_⟩
          · rw [hw, executeAll_kernelCommands, finish_congr (same_updateScratch ..)]
          · exact heq ▸ hring
      | barrierAnd | barrierOr =>
          have heq := translation_barrier (m := m) h (by simp [htype])
          rw [heq] at hring ⊢
          have hw := (outcome_barrierGeneric m.queue h m.packet).1
          have hacc := (accepts_barrierGeneric m.queue h m.packet).2
          refine ⟨hw ▸ hacc, fun words => ?_, signalAddr_barrierGeneric .., hring⟩
          rw [hw, executeAll_barrierCommands]
      | vendorSpecific =>
          have heq := translation_vendor h htype
          obtain ⟨hw, hend⟩ := outcome_vendorSpecific m.queue h m.packet
          rw [← heq] at hw hend
          refine ⟨hw ▸ hend.of_success hs, fun words => ?_, ?_, hring⟩
          · rw [hw, executeAll_vendorCommands (hvendor htype)]
          · rw [heq]
            exact signalAddr_vendorSpecific (hvendor htype)
      | invalid => exact absurd htype hne
      | agentDispatch =>
          rw [translation, htype] at hs
          cases hs

end Machine

/-! ## The invariant -/

/-- The indirect buffer holds the packets from `a` to `b`. -/
structure Ib.Completes (device : Device) (packets : List AqlPacket) (a : Nat) (ib : Ib) (b : Nat) :
    Prop where
  le : a ≤ b
  length : b ≤ packets.length
  fence : ib.fence = b
  advances : Advances device packets a ib.cmds b

namespace Execution

/-- How often the CPU has still to decrement a signal when the first packets are complete: the one
that is left to it, when these are all. -/
def cpuDecrements (q : ComputeQueue) (signal n : Nat) : Nat :=
  if q.signalAddr = some (signalValue signal) ∧ n = q.writeIndex then 1 else 0

/-- What the loop knows about the signal that it leaves to the CPU. -/
def AtPc (w : Execution) : Prop :=
  match w.machine.pc with
  | .idle | .head | .check | .wait _ | .switch => w.machine.queue.signalAddr = none
  | .merge slot => ∀ p, w.packets.getLast? = some p →
      (w.machine.queue.ring slot).completionSignal = p.completionSignal
  | .signal value => value = w.machine.queue.writeIndex ∧ w.machine.queue.signalAddr ≠ none
  | .submit | .failed _ => True

/-- The packets that were accepted are in the indirect buffers, in order; the last of them is the
only one that may wait for the CPU; and the words are those after the packets that are complete,
except for its signal. -/
structure Counted (device : Device) (words₀ : Words) (w : Execution) : Prop where
  onDevice : w.machine.queue.device = device
  length : w.packets.length = w.machine.queue.writeIndex
  chain : Chain (Ib.Completes device w.packets) w.machine.syncAddr w.machine.inFlight
    w.machine.queue.syncPoint
  le : w.machine.queue.syncPoint ≤ w.machine.queue.writeIndex
  building : Advances device w.packets w.machine.queue.syncPoint w.machine.queue.ib
    w.machine.queue.writeIndex
  pending : ∀ addr, w.machine.queue.signalAddr = some addr →
    device.platformAtomic = false ∧ addr ≠ device.ringRptr ∧
      ∃ p, w.packets.getLast? = some p ∧ addr = signalValue p.completionSignal ∧
        p.completionSignal ≠ 0
  waiting : device.platformAtomic = false → ∀ i p, w.machine.syncAddr ≤ i →
    w.packets[i]? = some p → p.completionSignal ≠ 0 →
      i + 1 = w.packets.length ∧
        w.machine.queue.signalAddr = some (signalValue p.completionSignal)
  rptr : w.words device.ringRptr = (w.machine.syncAddr : BitVec 64)
  signal : ∀ s, s ≠ 0 → signalValue s ≠ device.ringRptr →
    w.words (signalValue s) = words₀ (signalValue s) -
      (named w.packets s w.machine.syncAddr : BitVec 64) +
      (cpuDecrements w.machine.queue s w.machine.syncAddr : BitVec 64)

variable {device : Device} {words₀ : Words} {w : Execution} {a b : Nat}

/-! ## Counting -/

theorem named_succ (packets : List AqlPacket) (s n : Nat) :
    named packets s (n + 1) =
      named packets s n + packets[n]?.toList.countP fun p => p.completionSignal = s := by
  rw [named, named, List.take_add_one, List.countP_append]

/-- Packets that name other signals are not counted. -/
theorem named_eq {packets : List AqlPacket} {s : Nat} (hab : a ≤ b)
    (h : ∀ i p, a ≤ i → i < b → packets[i]? = some p → p.completionSignal ≠ s) :
    named packets s b = named packets s a := by
  induction b, hab using Nat.le_induction with
  | base => rfl
  | succ n hle ih =>
      have hprev := ih fun i p hi hlt => h i p hi (Nat.lt_succ_of_lt hlt)
      rw [named_succ, hprev]
      cases hp : packets[n]? with
      | none => rfl
      | some p =>
          have hne := h n p hle (Nat.lt_succ_self n) hp
          rw [Option.toList_some, List.countP_singleton, decide_eq_false hne]
          rfl

/-- Where the CPU decrements the signals, one at most is named by the packets that are not
complete, and that one is left to the CPU. -/
theorem Counted.named_complete (C : Counted device words₀ w) (hcpu : device.platformAtomic = false)
    {s : Nat} (hs : s ≠ 0) (hle : w.machine.syncAddr < b) (hb : b ≤ w.packets.length) :
    named w.packets s b =
      named w.packets s w.machine.syncAddr + cpuDecrements w.machine.queue s b := by
  have hbefore : ∀ n, w.machine.syncAddr ≤ n → n < w.packets.length →
      named w.packets s n = named w.packets s w.machine.syncAddr := by
    intro n hn hlt
    refine named_eq hn fun i p hi hin hp heq => ?_
    have hlast := (C.waiting hcpu i p hi hp (heq ▸ hs)).1
    omega
  rw [cpuDecrements, ← C.length]
  by_cases hlast : b = w.packets.length
  · obtain ⟨n, rfl⟩ : ∃ n, b = n + 1 := ⟨b - 1, by omega⟩
    have hn : n < w.packets.length := by omega
    have hget : w.packets[n]? = some w.packets[n] := List.getElem?_eq_getElem hn
    have hgetLast : w.packets.getLast? = some w.packets[n] := by
      rw [List.getLast?_eq_getElem?, ← hlast, Nat.add_sub_cancel, hget]
    have hiff : w.machine.queue.signalAddr = some (signalValue s) ↔
        w.packets[n].completionSignal = s := by
      constructor
      · intro haddr
        obtain ⟨_, _, p, hp, heq, _⟩ := C.pending _ haddr
        rw [hgetLast] at hp
        cases hp
        exact (ComputeQueue.signalValue_inj.mp heq).symm
      · intro heq
        rw [← heq]
        exact (C.waiting hcpu n _ (by omega) hget (heq ▸ hs)).2
    rw [named_succ, hbefore n (by omega) hn, hget, Option.toList_some, List.countP_singleton]
    simp only [hiff, hlast, and_true, decide_eq_true_eq]
  · rw [if_neg fun h => hlast h.2]
    exact hbefore b (Nat.le_of_lt hle) (by omega)

/-! ## The steps -/

theorem chain_le {packets : List AqlPacket} {ibs : List Ib}
    (h : Chain (Ib.Completes device packets) a ibs b) : a ≤ b :=
  (h.bounds fun _ _ _ hib => hib.le).1

theorem cpuDecrements_of_ne {q : ComputeQueue} {s n : Nat}
    (h : q.signalAddr ≠ some (signalValue s) ∨ n ≠ q.writeIndex) : cpuDecrements q s n = 0 := by
  rw [cpuDecrements, if_neg fun hand => h.elim (· hand.1) (· hand.2)]

/-- Nothing is left to the CPU if the GPU decrements the signals. -/
theorem Counted.cpuDecrements_atomic (C : Counted device words₀ w)
    (hatomic : device.platformAtomic = true) (s n : Nat) :
    cpuDecrements w.machine.queue s n = 0 := by
  refine cpuDecrements_of_ne (Or.inl fun haddr => ?_)
  have hcpu := (C.pending _ haddr).1
  rw [hatomic] at hcpu
  cases hcpu

/-- The words after an indirect buffer, where the GPU decrements the signals. -/
theorem Counted.execute_atomic (C : Counted device words₀ w)
    (hatomic : device.platformAtomic = true) {cs : List Pm4}
    (hadv : Advances device w.packets w.machine.syncAddr cs b) :
    Completed device w.packets words₀ b (Pm4.executeAll w.words cs) := by
  have hdone : GpuDone device w.packets words₀ w.machine.syncAddr w.words := by
    refine ⟨C.rptr, fun s hs hne => ?_⟩
    rw [C.signal s hs hne, gpuDecrements, if_pos hatomic, C.cpuDecrements_atomic hatomic,
      Nat.cast_zero, add_zero]
  have hafter := hadv words₀ w.words hdone
  refine ⟨hafter.rptr, fun s hs hne => ?_⟩
  rw [hafter.signal s hs hne, gpuDecrements, if_pos hatomic]

/-- Elsewhere the signals are as they were. -/
theorem Counted.execute_cpu (C : Counted device words₀ w) (hcpu : device.platformAtomic = false)
    {cs : List Pm4} (hadv : Advances device w.packets w.machine.syncAddr cs b) :
    Pm4.executeAll w.words cs device.ringRptr = (b : BitVec 64) ∧
      ∀ s, s ≠ 0 → signalValue s ≠ device.ringRptr →
        Pm4.executeAll w.words cs (signalValue s) = w.words (signalValue s) := by
  have hzero : ∀ s n, (gpuDecrements device w.packets s n : BitVec 64) = 0 := by
    intro s n
    rw [gpuDecrements, hcpu, if_neg Bool.false_ne_true, Nat.cast_zero]
  have hdone : GpuDone device w.packets w.words w.machine.syncAddr w.words :=
    ⟨C.rptr, fun s _ _ => by rw [hzero, sub_zero]⟩
  have hafter := hadv w.words w.words hdone
  refine ⟨hafter.rptr, fun s hs hne => ?_⟩
  rw [hafter.signal s hs hne, hzero, sub_zero]

/-- The GPU completes an indirect buffer. -/
theorem Counted.complete (C : Counted device words₀ w) {ib : Ib} {rest : List Ib}
    (hfl : w.machine.inFlight = ib :: rest) :
    Counted device words₀
      ⟨{ w.machine with
          syncAddr := ib.fence
          completed := w.machine.completed ++ [ib]
          inFlight := rest },
        Pm4.executeAll w.words ib.cmds, w.packets⟩ := by
  have hchain := C.chain
  rw [hfl] at hchain
  obtain ⟨c, hib, hrest⟩ := hchain
  have hle := hib.le
  have hlength := hib.length
  have hadv := hib.advances
  rw [← hib.fence] at hrest hle hlength hadv
  refine ⟨C.onDevice, C.length, hrest, C.le, C.building, C.pending, ?_, ?_, ?_⟩
  · exact fun hcpu i p hi => C.waiting hcpu i p (Nat.le_trans hle hi)
  · cases hatomic : device.platformAtomic with
    | true => exact (C.execute_atomic hatomic hadv).rptr
    | false => exact (C.execute_cpu hatomic hadv).1
  · intro s hs hne
    cases hatomic : device.platformAtomic with
    | true =>
        refine ((C.execute_atomic hatomic hadv).signal s hs hne).trans ?_
        rw [C.cpuDecrements_atomic hatomic, Nat.cast_zero, add_zero]
    | false =>
        refine ((C.execute_cpu hatomic hadv).2 s hs hne).trans ?_
        rw [C.signal s hs hne]
        cases Nat.eq_or_lt_of_le hle with
        | inl heq => rw [heq]
        | inr hlt =>
            have hindex := C.length
            have hzero : cpuDecrements w.machine.queue s w.machine.syncAddr = 0 :=
              cpuDecrements_of_ne (Or.inr (by omega))
            rw [C.named_complete hatomic hs hlt hlength, hzero, Nat.cast_add, Nat.cast_zero]
            ring

/-- The ring, the flags and the place in the loop make no difference. -/
theorem Counted.other (C : Counted device words₀ w) (ring : Nat → AqlPacket) (ready : Bool)
    (wptr : Nat) (pc : Pc) (test : Option MergeTest) :
    Counted device words₀
      { w with machine := { w.machine with
          queue := { w.machine.queue with ring := ring, readyToSubmit := ready }
          wptr := wptr
          pc := pc
          lastTest := test } } :=
  ⟨C.onDevice, C.length, C.chain, C.le, C.building, C.pending, C.waiting, C.rptr, C.signal⟩

/-- A packet is accepted behind the others, none of which waits for the CPU. -/
theorem Counted.accept (C : Counted device words₀ w) {t : Translation}
    (hnone : w.machine.queue.signalAddr = none)
    (T : w.machine.queue.Translates w.machine.packet t)
    (hapart : ApartFromRptr device w.machine.packet) :
    Counted device words₀
      ⟨{ w.machine with queue := t.queue }, w.words, w.packets ++ [w.machine.packet]⟩ := by
  have hlength : (w.packets ++ [w.machine.packet]).length = w.machine.queue.writeIndex + 1 := by
    rw [List.length_append, C.length, List.length_singleton]
  have hsync := chain_le C.chain
  have hle := C.le
  have hsignal := T.signal
  rw [C.onDevice, hnone] at hsignal
  refine ⟨T.accepts.device.trans C.onDevice, ?_, ?_, ?_, ?_, ?_, ?_, C.rptr, ?_⟩
  · rw [hlength]
    exact T.accepts.writeIndex.symm
  · show Chain (Ib.Completes device (w.packets ++ [w.machine.packet])) w.machine.syncAddr
      w.machine.inFlight t.queue.syncPoint
    rw [T.accepts.syncPoint]
    refine C.chain.mono fun a ib b _ hib => ⟨hib.le, ?_, hib.fence, ?_⟩
    · rw [List.length_append]
      exact Nat.le_add_right_of_le hib.length
    · exact hib.advances.concat _ (Nat.le_trans hib.le hib.length) hib.length
  · show t.queue.syncPoint ≤ t.queue.writeIndex
    rw [T.accepts.syncPoint, T.accepts.writeIndex]
    exact Nat.le_succ_of_le hle
  · show Advances device _ t.queue.syncPoint t.queue.ib t.queue.writeIndex
    rw [T.accepts.syncPoint, T.accepts.ib, T.accepts.writeIndex]
    have hlast := ComputeQueue.advances_finish (p := w.machine.packet) C.length (C.onDevice ▸ hapart)
    rw [C.onDevice] at hlast
    have hfirst := C.building.concat w.machine.packet (by rw [C.length]; exact hle)
      (Nat.le_of_eq C.length.symm)
    exact hfirst.append (hlast.congr T.execute)
  · intro addr haddr
    have haddr : t.queue.signalAddr = some addr := haddr
    rw [hsignal] at haddr
    split at haddr
    next hcpu =>
      cases haddr
      exact ⟨hcpu.2, hapart hcpu.1, w.machine.packet, List.getLast?_concat, rfl, hcpu.1⟩
    next => cases haddr
  · intro hcpu i p hi hp hne
    by_cases hlast : i < w.packets.length
    · rw [List.getElem?_append_left hlast] at hp
      have haddr := (C.waiting hcpu i p hi hp hne).2
      rw [hnone] at haddr
      cases haddr
    · have hbound := (List.getElem?_eq_some_iff.mp hp).1
      have hi : i = w.packets.length := by
        rw [List.length_append, List.length_singleton] at hbound
        omega
      rw [hi, List.getElem?_concat_length] at hp
      cases hp
      refine ⟨by rw [hi, List.length_append, List.length_singleton], ?_⟩
      show t.queue.signalAddr = _
      rw [hsignal, if_pos ⟨hne, hcpu⟩]
  · intro s hs hne
    have hold : cpuDecrements w.machine.queue s w.machine.syncAddr = 0 :=
      cpuDecrements_of_ne (Or.inl (by rw [hnone]; exact Option.some_ne_none _ |>.symm))
    have hnew : cpuDecrements t.queue s w.machine.syncAddr = 0 :=
      cpuDecrements_of_ne (Or.inr (by rw [T.accepts.writeIndex]; omega))
    have hwords := C.signal s hs hne
    rw [hold] at hwords
    show w.words (signalValue s) = words₀ (signalValue s) -
      (named (w.packets ++ [w.machine.packet]) s w.machine.syncAddr : BitVec 64) +
      (cpuDecrements t.queue s w.machine.syncAddr : BitVec 64)
    rw [hnew, named_concat_of_le (by rw [C.length]; omega)]
    exact hwords

/-- The driver takes the indirect buffer. -/
theorem Counted.launch (C : Counted device words₀ w) :
    Counted device words₀ { w with machine := w.machine.launch } := by
  refine ⟨C.onDevice, C.length, ?_, Nat.le_refl _, fun _ _ h => h, C.pending, C.waiting, C.rptr,
    C.signal⟩
  exact C.chain.concat ⟨C.le, Nat.le_of_eq C.length.symm, rfl,
    C.building.congr (ComputeQueue.executeAll_relocate _)⟩

/-- The CPU decrements the signal that was left to it, when all packets are complete. -/
theorem Counted.decrement (C : Counted device words₀ w) {addr : Nat}
    (haddr : w.machine.queue.signalAddr = some addr)
    (hall : w.machine.syncAddr = w.machine.queue.writeIndex) :
    Counted device words₀
      ⟨{ w.machine with
          queue := { w.machine.queue with signalAddr := none, readyToSubmit := false }
          pc := .head },
        Function.update w.words addr (w.words addr - 1), w.packets⟩ := by
  obtain ⟨hcpu, hne, p, hp, hp', hps⟩ := C.pending addr haddr
  refine ⟨C.onDevice, C.length, C.chain, C.le, C.building, ?_, ?_, ?_, ?_⟩
  · exact fun _ h => absurd h.symm (Option.some_ne_none _)
  · intro _ i p hi hp
    have hbound : i < w.packets.length := (List.getElem?_eq_some_iff.mp hp).1
    have hlength := C.length
    have hi : w.machine.syncAddr ≤ i := hi
    omega
  · exact (Function.update_of_ne hne.symm _ _).trans C.rptr
  · intro s hs hsne
    have hwords := C.signal s hs hsne
    show Function.update w.words addr (w.words addr - 1) (signalValue s) = words₀ (signalValue s) -
      (named w.packets s w.machine.syncAddr : BitVec 64) + ((0 : Nat) : BitVec 64)
    by_cases heq : addr = signalValue s
    · subst heq
      rw [Function.update_self, hwords, cpuDecrements, if_pos ⟨haddr, hall⟩, Nat.cast_one,
        Nat.cast_zero, add_sub_cancel_right, add_zero]
    · rw [Function.update_of_ne (Ne.symm heq), hwords,
        cpuDecrements_of_ne (Or.inl fun h => heq (Option.some.inj (haddr.symm.trans h)))]

/-! ## Runs -/

theorem packetsAfter_of_eq {m : Machine}
    (h : m.queue.writeIndex = w.machine.queue.writeIndex) : w.packetsAfter m = w.packets :=
  if_pos h

theorem packetsAfter_of_succ {m : Machine}
    (h : m.queue.writeIndex = w.machine.queue.writeIndex + 1) :
    w.packetsAfter m = w.packets ++ [w.machine.packet] :=
  if_neg fun heq => Nat.succ_ne_self _ (h.symm.trans heq)

/-- The thread decrements nothing outside of its wait for a submission. -/
theorem wordsAfter_of_pc {m : Machine} {h : Host} {d : Driver} {pc : Pc}
    (hpc : w.machine.pc = pc) (hne : ∀ value, pc ≠ .signal value) :
    w.wordsAfter m (.run h d) = w.words := by
  rw [wordsAfter]
  split
  next value _ hsignal _ => exact absurd (hpc.symm.trans hsignal) (hne value)
  next => rfl

/-- The thread decrements nothing when it ends. -/
theorem wordsAfter_of_failed {m : Machine} {h : Host} {d : Driver} {status : HsaStatus}
    (hpc : m.pc = .failed status) : w.wordsAfter m (.run h d) = w.words := by
  rw [wordsAfter]
  split
  next => rw [if_neg (by rw [hpc]; exact Pc.noConfusion)]
  next => rfl

/-- A translation that reports success does not end the thread. -/
theorem switch_not_failed {m : Machine} {h : Host} (hs : (m.translation h).status = .success)
    (status : HsaStatus) : (m.switchStep h).pc ≠ .failed status := by
  intro hpc
  cases htype : m.packet.type with
  | none =>
      rw [Machine.translation, htype] at hs
      cases hs
  | some type =>
      simp only [Machine.switchStep, htype] at hpc
      cases type with
      | kernelDispatch =>
          simp only at hpc
          rw [if_pos hs] at hpc
          cases hpc
      | barrierAnd | barrierOr | vendorSpecific => cases hpc
      | invalid =>
          simp only [Machine.afterSwitch] at hpc
          split at hpc <;> cases hpc
      | agentDispatch =>
          rw [Machine.translation, htype] at hs
          cases hs

/-- The thread goes on after a submission if there is no signal for the CPU. -/
theorem submit_head {m m' : Machine} {h : Host} {d : Driver} (hpc : m.pc = .submit)
    (hs : m.runStep h d = some m') (hhead : m'.pc = .head)
    (hcpu : m.queue.device.platformAtomic = false) : m.queue.signalAddr = none := by
  rw [Machine.runStep, hpc] at hs
  cases hs
  by_cases haddr : m.queue.signalAddr = none
  · exact haddr
  · have hcond : m.queue.relocateCmdbufScratchBase.endSubmit.device.platformAtomic = false ∧
        m.queue.relocateCmdbufScratchBase.endSubmit.signalAddr ≠ none := ⟨hcpu, haddr⟩
    rw [Machine.submitStep] at hhead
    simp only [if_pos hcond] at hhead
    split at hhead
    · split at hhead <;> cases hhead
    · cases hhead

/-- The condition at the points of the loop where no signal is left to the CPU. -/
theorem atPc_of_none {pc : Pc} {m : Machine} {words : Words} {packets : List AqlPacket}
    (hpc : m.pc = pc) (hnone : m.queue.signalAddr = none)
    (h : pc = .idle ∨ pc = .head ∨ pc = .check ∨ (∃ value, pc = .wait value) ∨ pc = .switch ∨
      pc = .submit) : AtPc ⟨m, words, packets⟩ := by
  rw [AtPc]
  simp only [hpc]
  rcases h with rfl | rfl | rfl | ⟨value, rfl⟩ | rfl | rfl
  · exact hnone
  · exact hnone
  · exact hnone
  · exact hnone
  · exact hnone
  · trivial

theorem after_eq {m : Machine} {e : Event} {words : Words} {packets : List AqlPacket}
    (hwords : w.wordsAfter m e = words) (hpackets : w.packetsAfter m = packets)
    (h : Counted device words₀ ⟨m, words, packets⟩ ∧ AtPc ⟨m, words, packets⟩) :
    Counted device words₀ ⟨m, w.wordsAfter m e, w.packetsAfter m⟩ ∧
      AtPc ⟨m, w.wordsAfter m e, w.packetsAfter m⟩ := by
  rw [hwords, hpackets]
  exact h

theorem switch_counted {m : Machine} {h : Host} {d : Driver} (C : Counted device words₀ w)
    (hnone : w.machine.queue.signalAddr = none) (hok : Succeeds w (.run h d))
    (hpc : w.machine.pc = .switch) (hm : w.machine.runStep h d = some m)
    (hres : Machine.SwitchResult w.machine h m) :
    Counted device words₀ ⟨m, w.wordsAfter m (.run h d), w.packetsAfter m⟩ ∧
      AtPc ⟨m, w.wordsAfter m (.run h d), w.packetsAfter m⟩ := by
  obtain ⟨hs, hvendor, hapart⟩ := hok hpc
  rw [C.onDevice] at hapart
  cases hres with
  | kernel htype _ hacc =>
      have T := Machine.translates_of_success hs (by rw [htype]; nofun) hvendor
      refine after_eq (wordsAfter_of_pc hpc nofun) (packetsAfter_of_succ hacc.writeIndex)
        ⟨(C.accept hnone T hapart).other _ _ _ _ _, fun p hp => ?_⟩
      have heq : w.machine.packet = p := Option.some.inj (List.getLast?_concat.symm.trans hp)
      rw [← heq]
      exact T.ring w.machine.queue.slot
  | accepted hun hacc =>
      have T := Machine.translates_of_success hs hun.ne_invalid hvendor
      exact after_eq (wordsAfter_of_pc hpc nofun) (packetsAfter_of_succ hacc.writeIndex)
        ⟨(C.accept hnone T hapart).other _ _ _ _ _, trivial⟩
  | rejected hun hgt _ =>
      have T := Machine.translates_of_success hs hun.ne_invalid hvendor
      exact absurd T.accepts.fits (Nat.not_le_of_lt hgt)
  | invalid _ =>
      refine after_eq (wordsAfter_of_pc hpc nofun) (packetsAfter_of_eq rfl)
        ⟨C.other _ _ _ _ _, atPc_of_none rfl hnone ?_⟩
      rw [Machine.afterSwitch]
      split <;> simp
  | failed q status _ =>
      rw [Machine.runStep, hpc] at hm
      have heq := congrArg Machine.pc (Option.some.inj hm)
      exact absurd heq (switch_not_failed hs status)

theorem run_counted {m : Machine} {h : Host} {d : Driver} (C : Counted device words₀ w)
    (A : AtPc w) (hok : Succeeds w (.run h d)) (hm : w.machine.runStep h d = some m) :
    Counted device words₀ ⟨m, w.wordsAfter m (.run h d), w.packetsAfter m⟩ ∧
      AtPc ⟨m, w.wordsAfter m (.run h d), w.packetsAfter m⟩ := by
  rw [AtPc] at A
  cases Machine.runStep_result hm with
  | enter hpc | next hpc | leave hpc | full hpc | free hpc | waited value hpc =>
      rw [hpc] at A
      exact after_eq (wordsAfter_of_pc hpc (fun _ h => by cases h)) (packetsAfter_of_eq rfl)
        ⟨C.other _ _ _ _ _, atPc_of_none rfl A (by simp)⟩
  | switch hpc hres =>
      rw [hpc] at A
      exact switch_counted C A hok hpc hm hres
  | merge slot hpc hmerge =>
      rw [hpc] at A
      have hnone : w.machine.queue.signalAddr = none := by
        cases haddr : w.machine.queue.signalAddr with
        | none => rfl
        | some addr =>
            obtain ⟨_, _, p, hp, _, hne⟩ := C.pending addr haddr
            exact absurd ((A p hp).symm.trans hmerge.1) hne
      refine after_eq (wordsAfter_of_pc hpc (fun _ h => by cases h)) (packetsAfter_of_eq rfl)
        ⟨C.other _ _ _ _ _, atPc_of_none rfl hnone ?_⟩
      rw [Machine.afterSwitch]
      split <;> simp
  | close slot hpc =>
      exact after_eq (wordsAfter_of_pc hpc (fun _ h => by cases h)) (packetsAfter_of_eq rfl)
        ⟨C.other _ _ _ _ _, trivial⟩
  | submit hpc =>
      have hnone : w.machine.queue.signalAddr = none := by
        cases haddr : w.machine.queue.signalAddr with
        | none => rfl
        | some addr =>
            have hcpu := (C.pending addr haddr).1
            rw [← C.onDevice] at hcpu
            exact haddr.symm.trans (submit_head hpc hm rfl hcpu)
      exact after_eq (wordsAfter_of_pc hpc (fun _ h => by cases h)) (packetsAfter_of_eq rfl)
        ⟨C.launch.other _ _ _ _ _, hnone⟩
  | submitSignal hpc hne =>
      exact after_eq (wordsAfter_of_pc hpc (fun _ h => by cases h)) (packetsAfter_of_eq rfl)
        ⟨C.launch.other _ _ _ _ _, rfl, hne⟩
  | signalled value hpc hle =>
      rw [hpc] at A
      obtain ⟨hvalue, hne⟩ := A
      obtain ⟨addr, haddr⟩ := Option.ne_none_iff_exists'.mp hne
      have hall : w.machine.syncAddr = w.machine.queue.writeIndex :=
        Nat.le_antisymm (Nat.le_trans (chain_le C.chain) C.le) (hvalue ▸ hle)
      refine after_eq ?_ (packetsAfter_of_eq rfl) ⟨C.decrement haddr hall, rfl⟩
      rw [wordsAfter, hpc, haddr]
      exact if_pos rfl
  | failed status =>
      exact after_eq (wordsAfter_of_failed rfl) (packetsAfter_of_eq rfl)
        ⟨C.other _ _ _ _ _, trivial⟩
  | failedSubmit =>
      have hbuilding := C.building.congr (ComputeQueue.executeAll_relocate w.machine.queue)
      exact after_eq (wordsAfter_of_failed rfl) (packetsAfter_of_eq rfl)
        ⟨⟨C.onDevice, C.length, C.chain, C.le, hbuilding, C.pending, C.waiting, C.rptr, C.signal⟩,
          trivial⟩

theorem step_counted {w' : Execution} {e : Event} (C : Counted device words₀ w) (A : AtPc w)
    (hok : Succeeds w e) (hs : w.step e = some w') : Counted device words₀ w' ∧ AtPc w' := by
  obtain ⟨m', hm, rfl⟩ := Option.map_eq_some_iff.mp hs
  cases Machine.step_result hm with
  | write slot p heq =>
      subst heq
      refine after_eq rfl (packetsAfter_of_eq rfl) ⟨C.other _ _ _ _ _, ?_⟩
      rw [AtPc] at A ⊢
      cases hpc : w.machine.pc with
      | merge slot' =>
          rw [hpc] at A
          intro p' hp'
          have hne : slot' ≠ slot := fun heq => hok (hpc.trans (heq ▸ rfl))
          simp only [if_neg hne]
          exact A p' hp'
      | idle | head | check | wait | switch | submit | signal | failed =>
          rw [hpc] at A
          exact A
  | ring wptr heq =>
      subst heq
      exact after_eq rfl (packetsAfter_of_eq rfl) ⟨C.other _ _ _ _ _, A⟩
  | complete ib rest hfl heq =>
      subst heq
      refine after_eq ?_ (packetsAfter_of_eq rfl) ⟨C.complete hfl, A⟩
      rw [wordsAfter, hfl]
  | run h d hm => exact run_counted C A hok hm

/-- With platform atomics or without, every run in which packets are translated with success gets
to the same values: when an indirect buffer is complete and the CPU has decremented the signal that
was left to it, the read pointer is the index behind its last packet, and every signal has gone down
by the number of complete packets that name it. -/
theorem modes_agree {ringSize : Nat} {ring : Nat → AqlPacket} {cmdbufAddr : Nat}
    (hzero : words₀ device.ringRptr = 0)
    (h : Reach step Succeeds (init device ringSize ring cmdbufAddr words₀) w)
    (hdone : w.SignalsDone) :
    Completed device w.packets words₀ w.machine.syncAddr w.words := by
  have I : Counted device words₀ w ∧ AtPc w := by
    refine h.invariant (I := fun w => Counted device words₀ w ∧ AtPc w)
      ⟨⟨rfl, rfl, rfl, Nat.le_refl _, fun _ _ h => h, ?_, ?_, hzero, ?_⟩, rfl⟩
      fun _ _ _ I hok hs => step_counted I.1 I.2 hok hs
    · exact fun _ haddr => absurd haddr.symm (Option.some_ne_none _)
    · exact fun _ i p _ hp => absurd hp.symm (Option.some_ne_none _)
    · intro s _ _
      show words₀ (signalValue s) = words₀ (signalValue s) - ((0 : Nat) : BitVec 64) +
        ((0 : Nat) : BitVec 64)
      rw [Nat.cast_zero, sub_zero, add_zero]
  obtain ⟨C, _⟩ := I
  refine ⟨C.rptr, fun s hs hne => ?_⟩
  have hleft : cpuDecrements w.machine.queue s w.machine.syncAddr = 0 := by
    by_cases haddr : w.machine.queue.signalAddr = none
    · refine cpuDecrements_of_ne (Or.inl ?_)
      rw [haddr]
      exact (Option.some_ne_none _).symm
    · exact cpuDecrements_of_ne (Or.inr (Nat.ne_of_lt (hdone haddr)))
  rw [C.signal s hs hne, hleft, Nat.cast_zero, add_zero]

/-- A device whose signals the CPU decrements. -/
def cpuDevice : Device := { Machine.sampleDevice with platformAtomic := false }

/-- Words that are zero but for one. -/
def sampleWords (addr : Nat) : Words := fun a => if a = addr then 2 else 0

/-- Two dispatches, of which the second has a signal. -/
theorem modes_agree_run :
    ∃ w, Reach step Succeeds (init cpuDevice 4
        (fun i => Machine.sampleKernel (if i = 1 then 0x9000 else 0) 0) 0x100000
        (sampleWords 0x9008)) w ∧
      w.machine.syncAddr = 2 ∧
      Completed cpuDevice w.packets (sampleWords 0x9008) w.machine.syncAddr w.words := by
  have hrun : (runAll step Succeeds (init cpuDevice 4
      (fun i => Machine.sampleKernel (if i = 1 then 0x9000 else 0) 0) 0x100000
      (sampleWords 0x9008))
      (.ring 2 :: Machine.runs 0 11 ++ [.complete, .complete] ++ Machine.runs 0 1)).map
        (fun w => (w.machine.syncAddr, w.machine.queue.signalAddr)) = some (2, none) := by
    decide
  obtain ⟨w, hw, hproj⟩ := Option.map_eq_some_iff.mp hrun
  simp only [Prod.mk.injEq] at hproj
  have hreach := reach_of_runAll hw
  exact ⟨w, hreach, hproj.1, modes_agree rfl hreach fun h => absurd hproj.2 h⟩

end Execution

end RocDxg
