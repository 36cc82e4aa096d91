import RocDxg.Queue.Completion

/-!
# What the indirect buffers write

Few commands of an indirect buffer change a word of the memory: those that decrement the completion
signals, and those that advance the read pointer of the ring.  They stand at the end of the commands
of a packet, the signal before the read pointer (`finishing`).  The indirect buffers of a run hold
those of all packets, in the order of the packets (`Streams`).

A signal that the GPU cannot decrement is left to the CPU.  There is one such signal at most, and it
is that of the last packet (`Left`).
-/

namespace RocDxg

open Lib (Chain)
open ComputeQueue (signalValue ApartFromRptr)

/-! ## Commands that write -/

namespace Pm4

/-- The command changes a word: a signal, or the read pointer. -/
def writesWord : Pm4 → Bool
  | atomicMem _ _ | writeData64 _ _ => true
  | _ => false

theorem execute_of_not_writesWord {c : Pm4} (h : c.writesWord = false) (words : Words) :
    execute words c = words := by
  cases c with
  | atomicMem | writeData64 => cases h
  | _ => rfl

/-- Another scratch address is no matter of the commands that write. -/
theorem patch_writesWord (c : Pm4) (base : Option Scratch) (offset : Nat) :
    c.patch base offset = c ∨ c.writesWord = false ∧ (c.patch base offset).writesWord = false := by
  cases c with
  | setScratch old =>
      rw [patch]
      split <;> exact Or.inr ⟨rfl, rfl⟩
  | dispatch d => exact Or.inr ⟨rfl, rfl⟩
  | _ => exact Or.inl rfl

theorem writes_patchAt (base : Option Scratch) (offset : Nat) (cs : List Pm4) :
    (patchAt base offset cs).filter writesWord = cs.filter writesWord := by
  induction cs generalizing offset with
  | nil => rfl
  | cons c cs ih =>
      rw [patchAt]
      split
      next =>
        rcases c.patch_writesWord base offset with heq | ⟨hc, hpatched⟩
        · rw [heq]
        · simp [hc, hpatched]
      next => rw [List.filter_cons, List.filter_cons, ih]

end Pm4

namespace Device

/-- The packet is completed by commands: a vendor packet only where these are processed. -/
def processes (d : Device) (p : AqlPacket) : Bool :=
  decide (p.type ≠ some .vendorSpecific) || d.vendorPacketProcess

/-- The signal that is decremented for a packet. -/
def signalOf (d : Device) (p : AqlPacket) : Option Nat :=
  if p.completionSignal ≠ 0 ∧ d.processes p then some p.completionSignal else none

/-- The command that decrements the signal, if the GPU can. -/
def completing (d : Device) (p : AqlPacket) : List Pm4 :=
  if d.platformAtomic then
    (d.signalOf p).toList.map fun s => .atomicMem (signalValue s) (-1)
  else []

/-- The command that moves the read pointer past the packet `i`. -/
def advancing (d : Device) (i : Nat) : Pm4 :=
  if d.platformAtomic then .atomicMem d.ringRptr 1 else .writeData64 d.ringRptr (i + 1)

/-- The commands of the packet `i` that write. -/
def finishing (d : Device) (i : Nat) (p : AqlPacket) : List Pm4 :=
  d.completing p ++ [d.advancing i]

/-- The signal that a packet leaves to the CPU, or the one that was left before. -/
def leaving (d : Device) (p : AqlPacket) (before : Option Nat) : Option Nat :=
  if d.platformAtomic then before else ((d.signalOf p).map signalValue).or before

/-- The commands that write, of the packets from `a` to `b`. -/
def stream (d : Device) (sent : Nat → Option AqlPacket) (a b : Nat) : List Pm4 :=
  (List.range' a (b - a)).flatMap fun i => (sent i).elim [] (d.finishing i)

variable {d : Device} {sent sent' : Nat → Option AqlPacket} {a b c i : Nat} {p : AqlPacket}

theorem signalOf_eq_some {s : Nat} : d.signalOf p = some s ↔
    p.completionSignal = s ∧ s ≠ 0 ∧ d.processes p = true := by
  rw [signalOf]
  constructor
  · intro heq
    split at heq
    next h =>
      cases heq
      exact ⟨rfl, h⟩
    next => cases heq
  · rintro ⟨rfl, h⟩
    rw [if_pos h]

theorem signalOf_eq_none (h : d.processes p = false) : d.signalOf p = none := by
  rw [signalOf, if_neg fun hand => Bool.false_ne_true (h.symm.trans hand.2)]

/-- Only a packet with a signal leaves one. -/
theorem leaving_none (d : Device) (p : AqlPacket) :
    d.leaving p none = none ∨ p.completionSignal ≠ 0 := by
  by_cases hs : p.completionSignal ≠ 0
  · exact Or.inr hs
  · rw [leaving, signalOf, if_neg (not_and_of_not_left _ hs), Option.map_none, Option.or_none,
      ite_self]
    exact Or.inl rfl

theorem advancing_writesWord (d : Device) (i : Nat) : (d.advancing i).writesWord = true := by
  rw [advancing]
  split <;> rfl

theorem stream_self (d : Device) (sent : Nat → Option AqlPacket) (a : Nat) :
    d.stream sent a a = [] := by
  rw [stream, Nat.sub_self]
  rfl

theorem stream_append (hab : a ≤ b) (hbc : b ≤ c) :
    d.stream sent a b ++ d.stream sent b c = d.stream sent a c := by
  have hrange : List.range' a (c - a) = List.range' a (b - a) ++ List.range' b (c - b) := by
    have h := @List.range'_append_1 a (b - a) (c - b)
    rw [Nat.add_sub_cancel' hab] at h
    rw [h]
    congr 1
    omega
  rw [stream, stream, stream, hrange, List.flatMap_append]

theorem stream_one (hp : sent a = some p) : d.stream sent a (a + 1) = d.finishing a p := by
  rw [stream, Nat.add_sub_cancel_left, List.range'_one, List.flatMap_singleton, hp]
  rfl

theorem stream_cons (hab : a < b) (hp : sent a = some p) :
    d.stream sent a b = d.finishing a p ++ d.stream sent (a + 1) b := by
  rw [← stream_one hp, stream_append (Nat.le_succ a) hab]

theorem stream_concat (hab : a ≤ b) (hp : sent b = some p) :
    d.stream sent a (b + 1) = d.stream sent a b ++ d.finishing b p := by
  rw [← stream_one hp, stream_append hab (Nat.le_succ b)]

theorem stream_congr (h : ∀ t, t < b → sent' t = sent t) :
    d.stream sent' a b = d.stream sent a b := by
  rw [stream, stream]
  refine List.flatMap_congr fun i hi => ?_
  rw [h i]
  have := List.mem_range'_1.mp hi
  omega

/-! ### Counting -/

/-- How many of the first `n` packets decrement a signal. -/
def completions (d : Device) (sent : Nat → Option AqlPacket) (s n : Nat) : Nat :=
  (List.range n).countP fun t => (sent t).bind d.signalOf = some s

theorem completions_succ {s : Nat} (hp : sent i = some p) :
    d.completions sent s (i + 1) =
      d.completions sent s i + if d.signalOf p = some s then 1 else 0 := by
  rw [completions, completions, List.range_succ, List.countP_append, List.countP_singleton, hp,
    Option.bind_some]
  simp only [decide_eq_true_eq]

theorem completions_congr {s : Nat} (h : ∀ t, t < i → sent' t = sent t) :
    d.completions sent' s i = d.completions sent s i := by
  rw [completions, completions]
  refine List.countP_congr fun t ht => ?_
  rw [h t (List.mem_range.mp ht)]

/-- Packets that decrement other signals are not counted. -/
theorem completions_eq {s : Nat} (hab : a ≤ b)
    (h : ∀ t p, a ≤ t → t < b → sent t = some p → d.signalOf p ≠ some s) :
    d.completions sent s b = d.completions sent s a := by
  induction b, hab using Nat.le_induction with
  | base => rfl
  | succ n hle ih =>
      have hprev := ih fun t p ht hlt => h t p ht (Nat.lt_succ_of_lt hlt)
      rw [← hprev, completions, completions, List.range_succ, List.countP_append,
        List.countP_singleton]
      cases hp : sent n with
      | none => rfl
      | some p => simp [h n p hle (Nat.lt_succ_self n) hp]

end Device

/-! ## What a translator writes -/

namespace ComputeQueue

open Pm4 (writesWord)

variable {q : ComputeQueue} {p : AqlPacket} {h : Host}

/-- The commands that write are those that finish the packet, and its signal is left to the CPU if
the GPU cannot decrement it. -/
structure Finishes (q : ComputeQueue) (p : AqlPacket) (t : Translation) : Prop where
  writes : t.written.filter writesWord = q.device.finishing q.writeIndex p
  signal : t.queue.signalAddr = q.device.leaving p q.signalAddr

theorem writes_advanceRptr (q : ComputeQueue) :
    [q.advanceRptr].filter writesWord = [q.device.advancing q.writeIndex] :=
  List.filter_cons_of_pos (q.device.advancing_writesWord q.writeIndex)

theorem writes_completion (q : ComputeQueue) (signal : Nat) :
    (q.completion signal).filter writesWord =
      if q.device.platformAtomic then [.atomicMem (signalValue signal) (-1)] else [] := by
  rw [completion]
  split <;> rfl

theorem writes_ite {P : Prop} [Decidable P] {cs : List Pm4} (hcs : cs.filter writesWord = []) :
    (if P then cs else []).filter writesWord = [] := by
  split
  · exact hcs
  · rfl

theorem writes_relocate (q : ComputeQueue) :
    q.relocateCmdbufScratchBase.ib.filter writesWord = q.ib.filter writesWord := by
  rw [relocateCmdbufScratchBase]
  simp only
  generalize q.ib = ib
  induction q.scratchBaseOffsetArray generalizing ib with
  | nil => rfl
  | cons o os ih => rw [List.foldl_cons, ih, Pm4.writes_patchAt]

/-- The end of the commands of a packet that is completed. -/
theorem writes_finish (hprocess : q.device.processes p = true) {cs : List Pm4}
    (hcs : cs.filter writesWord = []) :
    ((if p.completionSignal ≠ 0 then cs ++ q.completion p.completionSignal else []) ++
      [q.advanceRptr]).filter writesWord = q.device.finishing q.writeIndex p := by
  rw [List.filter_append, writes_advanceRptr, Device.finishing, Device.completing]
  congr 1
  by_cases hs : p.completionSignal ≠ 0
  · rw [if_pos hs, List.filter_append, hcs, writes_completion, Device.signalOf,
      if_pos (And.intro hs hprocess)]
    rfl
  · rw [if_neg hs, Device.signalOf, if_neg (not_and_of_not_left _ hs), Option.toList_none,
      List.map_nil, ite_self]
    rfl

theorem processes_of_ne (h : p.type ≠ some .vendorSpecific) (d : Device) :
    d.processes p = true := by
  rw [Device.processes, decide_eq_true h, Bool.true_or]

theorem writes_kernelCommands (htype : p.type ≠ some .vendorSpecific) (k : KernelCode) :
    (q.kernelCommands h p k).filter writesWord = q.device.finishing q.writeIndex p := by
  have hprologue : (q.kernelPrologue h p).filter writesWord = [] := by
    rw [kernelPrologue, List.filter_append, List.filter_append, writes_ite rfl, writes_ite rfl]
    rfl
  have hscratch : q.kernelScratch.filter writesWord = [] := writes_ite rfl
  have hdispatch : [q.buildDispatch p k].filter writesWord = [] := rfl
  have hsignal : ([Pm4.barrier] ++
      (if h.profilingEnd then [Pm4.copyData (signalEndTs p.completionSignal)] else []) ++
      [Pm4.acquireMem q.device.major]).filter writesWord = [] := by
    rw [List.filter_append, List.filter_append, writes_ite rfl]
    rfl
  rw [kernelCommands, List.filter_append, List.filter_append, List.filter_append, hprologue,
    hscratch, hdispatch, List.append_nil, List.append_nil, List.nil_append, kernelEpilogue]
  exact writes_finish (processes_of_ne htype _) hsignal

theorem writes_barrierCommands (htype : p.type ≠ some .vendorSpecific) :
    (q.barrierCommands h p).filter writesWord = q.device.finishing q.writeIndex p := by
  refine writes_finish (processes_of_ne htype _) ?_
  rw [List.filter_append, List.filter_append, List.filter_append, writes_ite rfl, writes_ite rfl,
    writes_ite rfl]
  rfl

theorem writes_vendorCommands (htype : p.type = some .vendorSpecific) :
    (q.vendorCommands h p).filter writesWord = q.device.finishing q.writeIndex p := by
  have hprocesses : q.device.processes p = q.device.vendorPacketProcess := by
    rw [Device.processes, htype]
    rfl
  rw [vendorCommands]
  cases hprocess : q.device.vendorPacketProcess with
  | true =>
      rw [if_pos rfl, List.append_assoc, List.filter_append]
      refine writes_finish (hprocesses.trans hprocess) ?_
      rw [List.filter_append, List.filter_append, List.filter_append, writes_ite rfl,
        writes_ite rfl]
      rfl
  | false =>
      rw [if_neg Bool.false_ne_true, List.nil_append, writes_advanceRptr, Device.finishing,
        Device.completing, Device.signalOf_eq_none (hprocesses.trans hprocess), Option.toList_none,
        List.map_nil, ite_self, List.nil_append]

/-- The signal of a packet that is completed. -/
theorem leaving_of_processes (hprocess : q.device.processes p = true) :
    q.device.leaving p q.signalAddr =
      if p.completionSignal ≠ 0 ∧ q.device.platformAtomic = false then
        some (signalValue p.completionSignal) else q.signalAddr := by
  rw [Device.leaving]
  cases q.device.platformAtomic with
  | true => rw [if_pos rfl, if_neg fun h => absurd h.2.symm Bool.false_ne_true]
  | false =>
      rw [if_neg Bool.false_ne_true]
      by_cases hs : p.completionSignal ≠ 0
      · rw [Device.signalOf_eq_some.mpr ⟨rfl, hs, hprocess⟩, if_pos ⟨hs, rfl⟩]
        rfl
      · rw [Device.signalOf, if_neg (not_and_of_not_left _ hs), if_neg (not_and_of_not_left _ hs)]
        rfl

theorem finishes_kernelDispatch (htype : p.type = some .kernelDispatch)
    (hs : (q.kernelDispatchAqlToPm4 h p).status = .success) :
    Finishes q p (q.kernelDispatchAqlToPm4 h p) := by
  obtain ⟨k, hk, hw⟩ := kernelDispatch_success hs
  have hne : p.type ≠ some .vendorSpecific := by rw [htype]; decide
  have S := same_updateScratch q h p.privateSegmentSize k.enableWavefrontSize32
  refine ⟨?_, ?_⟩
  · rw [hw, writes_kernelCommands hne, S.device, S.writeIndex]
  · rw [signalAddr_kernelDispatch hk, leaving_of_processes (processes_of_ne hne _)]

theorem finishes_barrierGeneric (htype : p.type ≠ some .vendorSpecific) :
    Finishes q p (q.barrierGenericAqlToPm4 h p) := by
  refine ⟨?_, ?_⟩
  · rw [(outcome_barrierGeneric q h p).1, writes_barrierCommands htype]
  · rw [signalAddr_barrierGeneric, leaving_of_processes (processes_of_ne htype _)]

theorem finishes_vendorSpecific (htype : p.type = some .vendorSpecific) :
    Finishes q p (q.vendorSpecificAqlToPm4 h p) := by
  have hprocesses : q.device.processes p = q.device.vendorPacketProcess := by
    rw [Device.processes, htype]
    rfl
  refine ⟨?_, ?_⟩
  · rw [(outcome_vendorSpecific q h p).1, writes_vendorCommands htype]
  · cases hprocess : q.device.vendorPacketProcess with
    | true =>
        rw [signalAddr_vendorSpecific hprocess, leaving_of_processes (hprocesses.trans hprocess)]
    | false =>
        rw [vendorSpecificAqlToPm4, signalAddr_accept, hprocess,
          if_neg fun h => Bool.false_ne_true h.1, Device.leaving,
          Device.signalOf_eq_none (hprocesses.trans hprocess), Option.map_none, Option.none_or,
          ite_self]

end ComputeQueue

/-! ## The indirect buffers of a run -/

/-- The commands of the indirect buffer that write are those of the packets from `a` to `b`. -/
structure Ib.Finishes (device : Device) (sent : Nat → Option AqlPacket) (a : Nat) (ib : Ib)
    (b : Nat) : Prop where
  le : a ≤ b
  fence : ib.fence = b
  writes : ib.cmds.filter Pm4.writesWord = device.stream sent a b

namespace Machine

open ComputeQueue (Finishes)

/-- The indirect buffers in flight and under construction finish the packets that are translated
and not complete. -/
structure Streams (device : Device) (sent : Nat → Option AqlPacket) (m : Machine) : Prop where
  onDevice : m.queue.device = device
  chain : Chain (Ib.Finishes device sent) m.syncAddr m.inFlight m.queue.syncPoint
  le : m.queue.syncPoint ≤ m.queue.writeIndex
  building : m.queue.ib.filter Pm4.writesWord =
    device.stream sent m.queue.syncPoint m.queue.writeIndex

/-- What the place in the loop says about the signal that is left to the CPU. -/
def SignalAt (m : Machine) : Prop :=
  match m.pc with
  | .idle | .head | .check | .wait _ | .switch => m.queue.signalAddr = none
  | .merge slot => m.queue.signalAddr = none ∨ (m.queue.ring slot).completionSignal ≠ 0
  | .signal value => value = m.queue.writeIndex ∧ m.queue.signalAddr ≠ none
  | .submit | .failed _ => True

/-- The signal that is left to the CPU is that of the last packet, and no other packet that is not
complete has one. -/
structure Left (device : Device) (sent : Nat → Option AqlPacket) (m : Machine) : Prop where
  pending : ∀ addr, m.queue.signalAddr = some addr → device.platformAtomic = false ∧
    ∃ i p s, m.queue.writeIndex = i + 1 ∧ sent i = some p ∧ device.signalOf p = some s ∧
      addr = signalValue s
  waiting : device.platformAtomic = false → ∀ t p s, m.syncAddr ≤ t → t < m.queue.writeIndex →
    sent t = some p → device.signalOf p = some s →
      t + 1 = m.queue.writeIndex ∧ m.queue.signalAddr = some (signalValue s)
  atPc : SignalAt m

/-- The packet that is found is the one that was sent, and its commands fit in a frame. -/
structure Finds (sent : Nat → Option AqlPacket) (m : Machine) (h : Host) : Prop where
  sent : sent m.queue.writeIndex = some m.packet
  ne_invalid : m.packet.type ≠ some .invalid
  fits : m.packet.type = some .vendorSpecific → m.queue.VendorFits h m.packet

variable {device : Device} {sent sent' : Nat → Option AqlPacket} {m m' : Machine} {h : Host}
  {d : Driver}

/-- The outcomes of a translation: the packet is accepted, with the commands that finish it, or the
queue is left as it was. -/
inductive Switched (m : Machine) (h : Host) (t : Translation) : Machine → Prop
  | merge : m.queue.Accepts t.written t.queue → Finishes m.queue m.packet t →
      (t.queue.ring m.queue.slot).completionSignal = m.packet.completionSignal →
      Switched m h t { m with queue := t.queue, pc := .merge m.queue.slot }
  | submit : m.queue.Accepts t.written t.queue → Finishes m.queue m.packet t →
      Switched m h t { m with
        queue := { t.queue with readyToSubmit := true }
        pc := .submit
        lastTest := none }
  | failed (status : HsaStatus) : Switched m h t { m with pc := .failed status }

open ComputeQueue in
theorem switchStep_switched (hne : m.packet.type ≠ some .invalid)
    (hfits : m.packet.type = some .vendorSpecific → m.queue.VendorFits h m.packet) :
    Switched m h (m.translation h) (m.switchStep h) := by
  cases htype : m.packet.type with
  | none =>
      simp only [switchStep, htype]
      exact .failed _
  | some type =>
      cases type with
      | kernelDispatch =>
          have htrans := translation_kernel h htype
          simp only [switchStep, htype]
          cases hk : m.queue.checkKernelDispatch h m.packet with
          | error status =>
              have heq : m.translation h = ⟨status, [], m.queue⟩ := by
                rw [htrans, kernelDispatchAqlToPm4, hk]
              rw [heq, if_neg (checkKernelDispatch_error hk)]
              exact .failed status
          | ok k =>
              obtain ⟨hs, hacc⟩ := accepts_kernelDispatch hk
              obtain ⟨k', hk', hw⟩ := kernelDispatch_success hs
              have hsame : k' = k := Except.ok.inj (hk'.symm.trans hk)
              rw [← htrans] at hs hacc hw
              rw [if_pos hs]
              refine .merge ?_ ?_ ?_
              · rw [hw, hsame]
                exact hacc
              · rw [htrans] at hs ⊢
                exact finishes_kernelDispatch htype hs
              · rw [translation_marks hs hne]
                simp only [if_true]
                rfl
      | barrierAnd | barrierOr =>
          have htrans := translation_barrier (m := m) h (by simp [htype])
          have hacc := (accepts_barrierGeneric m.queue h m.packet).2
          have hw := (outcome_barrierGeneric m.queue h m.packet).1
          simp only [switchStep, htype, htrans]
          exact .submit (hw.symm ▸ hacc) (finishes_barrierGeneric (by rw [htype]; decide))
      | vendorSpecific =>
          have htrans := translation_vendor h htype
          obtain ⟨hw, hout⟩ := outcome_vendorSpecific m.queue h m.packet
          have hacc := (hout.of_fits ((m.queue.bytes_vendorCommands_iff h m.packet).mpr
            (hfits htype))).2
          simp only [switchStep, htype, htrans]
          exact .submit (hw.symm ▸ hacc) (finishes_vendorSpecific htype)
      | invalid => exact absurd htype hne
      | agentDispatch =>
          simp only [switchStep, htype]
          exact .failed _

/-- What a step of `Process` does to the signal that is left to the CPU. -/
inductive SignalStep (device : Device) (sent : Nat → Option AqlPacket) (m m' : Machine) : Prop
  | kept : m'.queue.writeIndex = m.queue.writeIndex → m'.queue.signalAddr = m.queue.signalAddr →
      (∀ value, m.pc = .signal value → m'.pc ≠ .head) → SignalStep device sent m m'
  | accepted (p : AqlPacket) : sent m.queue.writeIndex = some p → m.queue.signalAddr = none →
      m'.queue.writeIndex = m.queue.writeIndex + 1 → m'.queue.signalAddr = device.leaving p none →
      SignalStep device sent m m'
  | decremented (value : Nat) : m.pc = .signal value → m'.pc = .head →
      m.queue.signalAddr ≠ none → m'.queue.writeIndex = m.queue.writeIndex →
      m'.queue.signalAddr = none → SignalStep device sent m m'

/-! ### What the steps keep -/

/-- Only packets that are not translated are written. -/
theorem Streams.congr_sent (S : Streams device sent m)
    (hsent : ∀ t, t < m.queue.writeIndex → sent' t = sent t) : Streams device sent' m := by
  have hle := S.le
  refine ⟨S.onDevice, S.chain.mono fun a ib b hib F => ?_, hle, ?_⟩
  · have hb : b ≤ m.queue.syncPoint := by
      obtain ⟨_, hbounds⟩ := S.chain.bounds fun _ _ _ F => F.le
      obtain ⟨_, c, Fc, _, hc⟩ := hbounds ib hib
      rw [← F.fence, Fc.fence]
      exact hc
    exact ⟨F.le, F.fence, F.writes.trans (Device.stream_congr fun t ht => (hsent t (by omega)).symm)⟩
  · rw [S.building]
    exact Device.stream_congr fun t ht => (hsent t ht).symm

theorem Left.congr_sent (L : Left device sent m)
    (hsent : ∀ t, t < m.queue.writeIndex → sent' t = sent t) : Left device sent' m where
  pending addr haddr := by
    obtain ⟨hcpu, i, p, s, hi, hp, hrest⟩ := L.pending addr haddr
    exact ⟨hcpu, i, p, s, hi, (hsent i (by omega)).trans hp, hrest⟩
  waiting hcpu t p s ht hlt hp := L.waiting hcpu t p s ht hlt ((hsent t hlt).symm.trans hp)
  atPc := L.atPc

/-- A packet is accepted behind the others. -/
theorem Streams.accept (S : Streams device sent m) {t : Translation}
    (hp : sent m.queue.writeIndex = some m.packet) (hacc : m.queue.Accepts t.written t.queue)
    (F : Finishes m.queue m.packet t) (ready : Bool) (pc : Pc) (test : Option MergeTest) :
    Streams device sent { m with
      queue := { t.queue with readyToSubmit := ready }, pc := pc, lastTest := test } := by
  refine ⟨hacc.device.trans S.onDevice, ?_, ?_, ?_⟩
  · show Chain _ m.syncAddr m.inFlight t.queue.syncPoint
    rw [hacc.syncPoint]
    exact S.chain
  · show t.queue.syncPoint ≤ t.queue.writeIndex
    rw [hacc.syncPoint, hacc.writeIndex]
    exact Nat.le_succ_of_le S.le
  · show t.queue.ib.filter _ = device.stream sent t.queue.syncPoint t.queue.writeIndex
    rw [hacc.ib, hacc.syncPoint, hacc.writeIndex, List.filter_append, S.building, F.writes,
      S.onDevice, Device.stream_concat S.le hp]

/-- Its signal is the only one that is left to the CPU. -/
theorem Left.accept (L : Left device sent m) (S : Streams device sent m) {t : Translation}
    (hnone : m.queue.signalAddr = none) (hp : sent m.queue.writeIndex = some m.packet)
    (hacc : m.queue.Accepts t.written t.queue) (F : Finishes m.queue m.packet t)
    (ready : Bool) {pc : Pc} (test : Option MergeTest)
    (hat : SignalAt { m with
      queue := { t.queue with readyToSubmit := ready }, pc := pc, lastTest := test }) :
    Left device sent { m with
      queue := { t.queue with readyToSubmit := ready }, pc := pc, lastTest := test } := by
  have hsignal : t.queue.signalAddr = device.leaving m.packet none := by
    rw [F.signal, hnone, S.onDevice]
  refine ⟨fun addr haddr => ?_, fun hcpu i p s hi hlt hsent hs => ?_, hat⟩
  · have haddr : device.leaving m.packet none = some addr := hsignal.symm.trans haddr
    rw [Device.leaving] at haddr
    split at haddr
    next => cases haddr
    next hcpu =>
      rw [Option.or_none] at haddr
      obtain ⟨s, hs, rfl⟩ := Option.map_eq_some_iff.mp haddr
      exact ⟨Bool.eq_false_iff.mpr hcpu, _, _, s, hacc.writeIndex, hp, hs, rfl⟩
  · show i + 1 = t.queue.writeIndex ∧ t.queue.signalAddr = _
    have hlt : i < t.queue.writeIndex := hlt
    rw [hacc.writeIndex] at hlt ⊢
    rcases Nat.lt_succ_iff_lt_or_eq.mp hlt with hold | rfl
    · have haddr := (L.waiting hcpu i p s hi hold hsent hs).2
      rw [hnone] at haddr
      cases haddr
    · cases hp.symm.trans hsent
      refine ⟨rfl, ?_⟩
      rw [hsignal, Device.leaving, hcpu, if_neg Bool.false_ne_true, hs]
      rfl

/-- The driver takes the indirect buffer. -/
theorem Streams.launch (S : Streams device sent m) (ready : Bool) (pc : Pc) :
    Streams device sent { m.launch with
      queue := { m.launch.queue with readyToSubmit := ready }, pc := pc } := by
  have hwrites : (currentIb m.queue.relocateCmdbufScratchBase).cmds.filter Pm4.writesWord =
      m.queue.ib.filter Pm4.writesWord :=
    ComputeQueue.writes_relocate m.queue
  refine ⟨S.onDevice, S.chain.concat ⟨S.le, rfl, hwrites.trans S.building⟩, Nat.le_refl _, ?_⟩
  exact (Device.stream_self _ _ _).symm

/-- The thread goes on after a submission if there is no signal for the CPU. -/
theorem Left.submit_none (L : Left device sent m) (S : Streams device sent m)
    (hpc : m.pc = .submit) (hs : m.runStep h d = some m') (hhead : m'.pc = .head) :
    m.queue.signalAddr = none := by
  cases haddr : m.queue.signalAddr with
  | none => rfl
  | some addr =>
      have hcpu := (L.pending addr haddr).1
      rw [← S.onDevice] at hcpu
      exact haddr.symm.trans (Execution.submit_head hpc hs hhead hcpu)

theorem signalAt_afterSwitch (hnone : m.queue.signalAddr = none) (test : Option MergeTest) :
    SignalAt { m with pc := afterSwitch m.queue, lastTest := test } := by
  rw [SignalAt, afterSwitch]
  cases m.queue.readyToSubmit with
  | true => trivial
  | false => exact hnone

/-- A step of `Process`. -/
theorem run_finishing (S : Streams device sent m) (L : Left device sent m)
    (hs : m.runStep h d = some m') (hfinds : m.pc = .switch → Finds sent m h) :
    Streams device sent m' ∧ Left device sent m' ∧ SignalStep device sent m m' := by
  have A := L.atPc
  rw [SignalAt] at A
  by_cases hpc : m.pc = .switch
  · obtain ⟨hsent, hne, hfits⟩ := hfinds hpc
    rw [hpc] at A
    have hswitched := switchStep_switched hne hfits
    rw [runStep, hpc] at hs
    cases hs
    generalize m.switchStep h = m' at hswitched ⊢
    cases hswitched with
    | merge hacc F hsignal =>
        have hleft : (m.translation h).queue.signalAddr = device.leaving m.packet none := by
          rw [F.signal, A, S.onDevice]
        refine ⟨S.accept hsent hacc F _ _ _, L.accept S A hsent hacc F _ _ ?_,
          .accepted _ hsent A hacc.writeIndex hleft⟩
        show _ = none ∨ _ ≠ 0
        rw [hsignal, hleft]
        exact Device.leaving_none ..
    | submit hacc F =>
        refine ⟨S.accept hsent hacc F _ _ _, L.accept S A hsent hacc F _ _ trivial,
          .accepted _ hsent A hacc.writeIndex ?_⟩
        show (m.translation h).queue.signalAddr = _
        rw [F.signal, A, S.onDevice]
    | failed status =>
        exact ⟨⟨S.onDevice, S.chain, S.le, S.building⟩, ⟨L.pending, L.waiting, trivial⟩,
          .kept rfl rfl fun _ _ => by simp⟩
  · cases runStep_result hs with
    | enter hat | next hat | leave hat | full hat | free hat | waited value hat =>
        rw [hat] at A
        exact ⟨⟨S.onDevice, S.chain, S.le, S.building⟩, ⟨L.pending, L.waiting, A⟩,
          .kept rfl rfl (by simp [hat])⟩
    | switch hat _ => exact absurd hat hpc
    | merge slot hat hmerge =>
        rw [hat] at A
        have hnone : m.queue.signalAddr = none := A.resolve_right fun hne => hne hmerge.1
        exact ⟨⟨S.onDevice, S.chain, S.le, S.building⟩,
          ⟨L.pending, L.waiting, signalAt_afterSwitch hnone _⟩, .kept rfl rfl (by simp [hat])⟩
    | close slot hat _ =>
        exact ⟨⟨S.onDevice, S.chain, S.le, S.building⟩, ⟨L.pending, L.waiting, trivial⟩,
          .kept rfl rfl (by simp)⟩
    | submit hat =>
        have hnone := L.submit_none S hat hs rfl
        exact ⟨S.launch _ _, ⟨L.pending, L.waiting, hnone⟩, .kept rfl rfl (by simp [hat])⟩
    | submitSignal hat hne =>
        exact ⟨S.launch _ _, ⟨L.pending, L.waiting, rfl, hne⟩, .kept rfl rfl (by simp [hat])⟩
    | signalled value hat hle =>
        rw [hat] at A
        obtain ⟨hvalue, hne⟩ := A
        refine ⟨⟨S.onDevice, S.chain, S.le, S.building⟩,
          ⟨fun _ h => (by cases h), fun _ t _ _ ht hlt => ?_, rfl⟩,
          .decremented value hat rfl hne rfl rfl⟩
        have ht : m.syncAddr ≤ t := ht
        have hlt : t < m.queue.writeIndex := hlt
        omega
    | failed status =>
        exact ⟨⟨S.onDevice, S.chain, S.le, S.building⟩, ⟨L.pending, L.waiting, trivial⟩,
          .kept rfl rfl (by simp)⟩
    | failedSubmit =>
        exact ⟨⟨S.onDevice, S.chain, S.le, (ComputeQueue.writes_relocate m.queue).trans S.building⟩,
          ⟨L.pending, L.waiting, trivial⟩, .kept rfl rfl (by simp)⟩

/-- The GPU completes an indirect buffer. -/
theorem Streams.complete (S : Streams device sent m) {ib : Ib} {rest : List Ib}
    (hfl : m.inFlight = ib :: rest) :
    Streams device sent { m with
      syncAddr := ib.fence, completed := m.completed ++ [ib], inFlight := rest } := by
  have hchain := S.chain
  rw [hfl] at hchain
  obtain ⟨b, F, hrest⟩ := hchain
  rw [← F.fence] at hrest
  exact ⟨S.onDevice, hrest, S.le, S.building⟩

theorem Left.complete (L : Left device sent m) (S : Streams device sent m) {ib : Ib}
    {rest : List Ib} (hfl : m.inFlight = ib :: rest) :
    Left device sent { m with
      syncAddr := ib.fence, completed := m.completed ++ [ib], inFlight := rest } := by
  have hchain := S.chain
  rw [hfl] at hchain
  obtain ⟨b, F, _⟩ := hchain
  refine ⟨L.pending, fun hcpu t p s ht => L.waiting hcpu t p s ?_, L.atPc⟩
  have hle := F.le
  rw [← F.fence] at hle
  exact Nat.le_trans hle ht

/-- The indirect buffers of the driver after a step of `Process`. -/
theorem runStep_inFlight (hs : m.runStep h d = some m') : m'.syncAddr = m.syncAddr ∧
    (m'.inFlight = m.inFlight ∨ ∃ ib, m'.inFlight = m.inFlight ++ [ib]) := by
  cases runStep_result hs with
  | switch _ hsw => cases hsw <;> exact ⟨rfl, Or.inl rfl⟩
  | submit | submitSignal => exact ⟨rfl, Or.inr ⟨_, rfl⟩⟩
  | _ => exact ⟨rfl, Or.inl rfl⟩

/-! ## The signals of the CPU -/

/-- The words after a step of `Process`: it decrements `*signal_addr_` when the submission that it
waits for is complete. -/
def settled (m m' : Machine) (words : Words) : Words :=
  match m.pc, m.queue.signalAddr with
  | .signal _, some addr =>
      if m'.pc = .head then Function.update words addr (words addr - 1) else words
  | _, _ => words

/-- The signals of all packets that are translated have been decremented, but for the one that is
left to the CPU. -/
def Due (device : Device) (sent : Nat → Option AqlPacket) (words₀ : Words) (m : Machine)
    (words : Words) : Prop :=
  ∀ s, s ≠ 0 → signalValue s ≠ device.ringRptr →
    words (signalValue s) = words₀ (signalValue s) -
      (device.completions sent s m.queue.writeIndex : BitVec 64) +
      if m.queue.signalAddr = some (signalValue s) then 1 else 0

variable {words words₀ : Words}

theorem settled_of_ne (h : ∀ value, m.pc = .signal value → m'.pc ≠ .head) :
    m.settled m' words = words := by
  rw [settled]
  split
  next value _ hpc _ => rw [if_neg (h value hpc)]
  next => rfl

theorem settled_of_none (h : m.queue.signalAddr = none) : m.settled m' words = words := by
  rw [settled]
  split
  next haddr => rw [h] at haddr; cases haddr
  next => rfl

/-- The CPU decrements no word but the signal that was left to it. -/
theorem settled_apply {addr : Nat} (h : m.queue.signalAddr ≠ some addr) :
    m.settled m' words addr = words addr := by
  cases ha : m.queue.signalAddr with
  | none => rw [settled_of_none ha]
  | some a =>
      rw [ha] at h
      rw [settled, ha]
      cases m.pc with
      | signal value =>
          simp only
          split
          · exact Function.update_of_ne (fun heq => h (congrArg some heq.symm)) _ _
          · rfl
      | _ => rfl

/-- The read pointer is none of the signals. -/
theorem Due.update_rptr (D : Due device sent words₀ m words) (v : BitVec 64) :
    Due device sent words₀ m (Function.update words device.ringRptr v) := by
  intro s hs hne
  rw [Function.update_of_ne hne]
  exact D s hs hne

theorem Due.congr_sent (D : Due device sent words₀ m words)
    (hsent : ∀ t, t < m.queue.writeIndex → sent' t = sent t) :
    Due device sent' words₀ m words := by
  intro s hs hne
  rw [Device.completions_congr hsent]
  exact D s hs hne

theorem Due.run (D : Due device sent words₀ m words)
    (hcpu : device.platformAtomic = false) (hs : SignalStep device sent m m') :
    Due device sent words₀ m' (m.settled m' words) := by
  intro s hs0 hsne
  have hold := D s hs0 hsne
  cases hs with
  | kept hindex haddr hne => rw [settled_of_ne hne, hindex, haddr, hold]
  | accepted p hp hnone hindex haddr =>
      have hiff : device.leaving p none = some (signalValue s) ↔ device.signalOf p = some s := by
        rw [Device.leaving, hcpu, if_neg Bool.false_ne_true, Option.or_none]
        constructor
        · intro h
          obtain ⟨t, ht, heq⟩ := Option.map_eq_some_iff.mp h
          rw [ht, ComputeQueue.signalValue_inj.mp heq]
        · intro h
          rw [h]
          rfl
      rw [hnone, if_neg (by simp), add_zero] at hold
      rw [settled_of_none hnone, hindex, haddr, hold, Device.completions_succ hp]
      by_cases h : device.signalOf p = some s
      · rw [if_pos h, if_pos (hiff.mpr h), Nat.cast_add, Nat.cast_one, sub_add_eq_sub_sub,
          sub_add_cancel]
      · rw [if_neg h, if_neg fun heq => h (hiff.mp heq), Nat.add_zero, add_zero]
  | decremented value hpc hhead hne hindex haddr =>
      obtain ⟨addr, hsome⟩ := Option.ne_none_iff_exists'.mp hne
      rw [hindex, haddr, if_neg (by simp), add_zero]
      by_cases heq : addr = signalValue s
      · subst heq
        rw [hsome, if_pos rfl] at hold
        rw [settled, hpc, hsome]
        simp only [if_pos hhead]
        rw [Function.update_self, hold, add_sub_cancel_right]
      · have hother : m.queue.signalAddr ≠ some (signalValue s) := by
          rw [hsome]
          exact fun h => heq (Option.some.inj h)
        rw [if_neg hother, add_zero] at hold
        rw [settled_apply hother, hold]

end Machine

end RocDxg
