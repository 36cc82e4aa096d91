import RocDxg.Lib.Separated
import RocDxg.Queue.Process

/-!
# The barrier bit

A packet with the `BARRIER` bit orders the kernels before it against the ones from
it on: a partial flush has to stand between them.  The translators leave a flush out
when `needsBarrier` says that none is due.

`stream_ordered_iff` says when this is right.  A kernel dispatch with the bit always
gets its flush.  A barrier packet with the bit but without a completion signal writes
nothing, so its bit is lost unless something else between the two neighbouring kernel
dispatches flushes: the completion signal of the first, the bit of the second, or the
completion signal of some barrier packet between them.
-/

namespace RocDxg

open Lib (Separated dirty bare)

namespace AqlPacket

/-- The packet starts a kernel. -/
def isKernel (p : AqlPacket) : Bool := p.type = some .kernelDispatch

/-- The packet has a completion signal. -/
def signalled (p : AqlPacket) : Bool := p.completionSignal ≠ 0

end AqlPacket

namespace Pm4

/-- The command is an `EVENT_WRITE` of `CS_PARTIAL_FLUSH`. -/
def isFlush : Pm4 → Bool
  | barrier => true
  | _ => false

end Pm4

namespace ComputeQueue

/-- A packet, what the host answers while it is translated, and whether a submission
follows. -/
structure Item where
  packet : AqlPacket
  host : Host
  submit : Bool

/-- The translator of a kernel dispatch or barrier packet. -/
def translateItem (q : ComputeQueue) (i : Item) : Translation :=
  match i.packet.type with
  | some .kernelDispatch => q.kernelDispatchAqlToPm4 i.host i.packet
  | some .barrierAnd | some .barrierOr => q.barrierGenericAqlToPm4 i.host i.packet
  | _ => ⟨.errorInvalidPacketFormat, [], q⟩

/-- The queue after a packet and the submission that may follow it. -/
def afterItem (q : ComputeQueue) (i : Item) : ComputeQueue :=
  if i.submit then q.relocateCmdbufScratchBase.endSubmit else q

/-- The packets of a sequence with the commands written for each, up to the first one
that is refused. -/
def translated : ComputeQueue → List Item → List (AqlPacket × List Pm4)
  | _, [] => []
  | q, i :: is =>
      if (q.translateItem i).status = .success then
        (i.packet, (q.translateItem i).written) ::
          translated ((q.translateItem i).queue.afterItem i) is
      else []

/-- The PM4 stream. -/
def commands (ts : List (AqlPacket × List Pm4)) : List Pm4 := ts.flatMap Prod.snd

/-- For every packet with the `BARRIER` bit a partial flush stands between each kernel
before it and each kernel from it on. -/
def Ordered (ts : List (AqlPacket × List Pm4)) : Prop :=
  ∀ l x r, ts = l ++ x :: r → x.1.barrierBit = true →
    Separated Pm4.isDispatch Pm4.isFlush (commands l) (commands (x :: r))

/-- Whenever a barrier packet with the bit stands between two neighbouring kernel
dispatches, the first has a completion signal, the second has the bit, or some packet
between them has a completion signal. -/
def Fenced (ps : List AqlPacket) : Prop :=
  ∀ l k mid k' r, ps = l ++ k :: (mid ++ k' :: r) → k.isKernel = true → k'.isKernel = true →
    (∀ p ∈ mid, p.isKernel = false) → (∃ p ∈ mid, p.barrierBit = true) →
    k.signalled = true ∨ k'.barrierBit = true ∨ ∃ p ∈ mid, p.signalled = true

/-! ## The commands of one packet -/

/-- What the stream sees of the commands `b` of a packet `p` translated with
`needsBarrier = nb`: the marks they leave and the value of `needsBarrier` after. -/
structure Block (nb : Bool) (p : AqlPacket) (b : List Pm4) (nb' : Bool) : Prop where
  dirty : ∀ s, dirty Pm4.isDispatch Pm4.isFlush s b =
    if p.isKernel then !p.signalled else if p.signalled && nb then false else s
  bare : ∀ B, bare Pm4.isDispatch Pm4.isFlush (b ++ B) =
    if p.isKernel then !(p.barrierBit && nb) else
      if p.signalled && nb then false else bare Pm4.isDispatch Pm4.isFlush B
  next : nb' = if p.isKernel then !p.signalled else if p.signalled then false else nb

theorem needsBarrier_updateScratch (q : ComputeQueue) (h : Host) (n : Nat) (wave32 : Bool) :
    (q.updateScratch h n wave32).needsBarrier = q.needsBarrier := by
  rw [updateScratch, reportOverflow]
  cases h.scratch with
  | none =>
      simp only [ite_self]
      split <;> rfl
  | some addr =>
      simp only
      split <;> split <;> rfl

theorem needsBarrier_leaveSignal (q : ComputeQueue) (signal : Nat) :
    (q.leaveSignal signal).needsBarrier = q.needsBarrier := by
  rw [leaveSignal]
  split <;> rfl

theorem needsBarrier_accept (q : ComputeQueue) (written : List Pm4) :
    (q.accept written).queue.needsBarrier = q.needsBarrier := by
  rw [accept]
  split <;> rfl

/-- A list of commands with neither a kernel nor a flush. -/
def Plain (cs : List Pm4) : Prop := ∀ c ∈ cs, c.isDispatch = false ∧ c.isFlush = false

theorem plain_copyData (c : Prop) [Decidable c] (ts : Nat) :
    Plain (if c then [.copyData ts] else []) :=
  Pm4.forall_mem_ite (Pm4.forall_mem_singleton ⟨rfl, rfl⟩)

theorem plain_acquireMem (major : Gfx) : Plain [.acquireMem major] :=
  Pm4.forall_mem_singleton ⟨rfl, rfl⟩

theorem plain_completion (q : ComputeQueue) (signal : Nat) : Plain (q.completion signal) :=
  Pm4.forall_mem_ite (Pm4.forall_mem_singleton ⟨rfl, rfl⟩)

theorem plain_advanceRptr (q : ComputeQueue) : Plain [q.advanceRptr] := by
  apply Pm4.forall_mem_singleton
  rw [advanceRptr]
  split <;> exact ⟨rfl, rfl⟩

theorem plain_kernelScratch (q : ComputeQueue) : Plain q.kernelScratch :=
  Pm4.forall_mem_ite (Pm4.forall_mem_append (Pm4.forall_mem_singleton ⟨rfl, rfl⟩)
    (Pm4.forall_mem_singleton ⟨rfl, rfl⟩))

theorem signalled_false {p : AqlPacket} (h : p.completionSignal = 0) : p.signalled = false := by
  simp [AqlPacket.signalled, h]

theorem signalled_true {p : AqlPacket} (h : ¬ p.completionSignal = 0) : p.signalled = true := by
  simp [AqlPacket.signalled, h]

theorem dirty_kernelEpilogue (q : ComputeQueue) (h : Host) (p : AqlPacket) (s : Bool) :
    dirty Pm4.isDispatch Pm4.isFlush s (q.kernelEpilogue h p) = (s && !p.signalled) := by
  rw [kernelEpilogue, Lib.dirty_append, Lib.dirty_of_plain (plain_advanceRptr q)]
  by_cases hsig : p.completionSignal = 0
  · rw [if_neg (not_not.mpr hsig), signalled_false hsig, Bool.not_false, Bool.and_true]
    rfl
  · rw [if_pos hsig, signalled_true hsig, Bool.not_true, Bool.and_false, Lib.dirty_append,
      Lib.dirty_append, Lib.dirty_append, Lib.dirty_of_plain (plain_completion q _),
      Lib.dirty_of_plain (plain_acquireMem _), Lib.dirty_of_plain (plain_copyData _ _)]
    rfl

theorem bare_kernelPrologue (q : ComputeQueue) (h : Host) (p : AqlPacket) (B : List Pm4) :
    bare Pm4.isDispatch Pm4.isFlush (q.kernelPrologue h p ++ B) =
      if p.barrierBit && q.needsBarrier then false else bare Pm4.isDispatch Pm4.isFlush B := by
  rw [kernelPrologue, List.append_assoc, List.append_assoc,
    Lib.bare_append_of_plain (plain_copyData _ _)]
  by_cases hbit : p.barrierBit = true ∧ q.needsBarrier = true
  · rw [if_pos hbit, hbit.1, hbit.2]
    rfl
  · rw [if_neg hbit, if_neg (by rwa [Bool.and_eq_true]), List.nil_append,
      Lib.bare_append_of_plain (plain_acquireMem _)]

theorem block_kernelCommands (q : ComputeQueue) (h : Host) (p : AqlPacket) (k : KernelCode)
    (hp : p.isKernel = true) :
    Block q.needsBarrier p (q.kernelCommands h p k) (!p.signalled) := by
  refine ⟨?_, ?_, ?_⟩
  · intro s
    rw [if_pos hp, kernelCommands, Lib.dirty_append, Lib.dirty_append, dirty_kernelEpilogue]
    rfl
  · intro B
    rw [if_pos hp, kernelCommands, List.append_assoc, List.append_assoc, List.append_assoc,
      bare_kernelPrologue, Lib.bare_append_of_plain (plain_kernelScratch q)]
    cases p.barrierBit && q.needsBarrier <;> rfl
  · rw [if_pos hp]

theorem block_barrierCommands (q : ComputeQueue) (h : Host) (p : AqlPacket)
    (hp : p.isKernel = false) : Block q.needsBarrier p (q.barrierCommands h p)
      (if p.signalled then false else q.needsBarrier) := by
  have hkernel : ¬ p.isKernel = true := by rw [hp]; exact Bool.false_ne_true
  refine ⟨?_, ?_, ?_⟩
  · intro s
    rw [if_neg hkernel, barrierCommands, Lib.dirty_append, Lib.dirty_of_plain (plain_advanceRptr q)]
    by_cases hsig : p.completionSignal = 0
    · rw [if_neg (not_not.mpr hsig), signalled_false hsig]
      rfl
    · rw [if_pos hsig, signalled_true hsig, Lib.dirty_append, Lib.dirty_append, Lib.dirty_append,
        Lib.dirty_append, Lib.dirty_of_plain (plain_completion q _),
        Lib.dirty_of_plain (plain_acquireMem _), Lib.dirty_of_plain (plain_copyData _ _),
        Lib.dirty_of_plain (plain_copyData _ _)]
      cases q.needsBarrier <;> rfl
  · intro B
    rw [if_neg hkernel, barrierCommands, List.append_assoc]
    by_cases hsig : p.completionSignal = 0
    · rw [if_neg (not_not.mpr hsig), signalled_false hsig, List.nil_append,
        Lib.bare_append_of_plain (plain_advanceRptr q)]
      rfl
    · rw [if_pos hsig, signalled_true hsig, List.append_assoc, List.append_assoc, List.append_assoc,
        List.append_assoc, Lib.bare_append_of_plain (plain_copyData _ _)]
      cases q.needsBarrier with
      | true => rfl
      | false =>
          rw [if_neg Bool.false_ne_true, List.nil_append,
            Lib.bare_append_of_plain (plain_copyData _ _),
            Lib.bare_append_of_plain (plain_acquireMem _),
            Lib.bare_append_of_plain (plain_completion q _),
            Lib.bare_append_of_plain (plain_advanceRptr q)]
          rfl
  · rw [if_neg hkernel]

theorem needsBarrier_kernelDispatch {q : ComputeQueue} {h : Host} {p : AqlPacket} {k : KernelCode}
    (hk : q.checkKernelDispatch h p = .ok k) :
    (q.kernelDispatchAqlToPm4 h p).queue.needsBarrier = !p.signalled := by
  rw [kernelDispatchAqlToPm4, hk]
  simp only [needsBarrier_accept]
  by_cases hsig : p.completionSignal = 0
  · rw [if_neg (not_not.mpr hsig), signalled_false hsig]
    simp [hsig]
  · rw [if_pos hsig, needsBarrier_leaveSignal, signalled_true hsig]
    simp [hsig]

theorem needsBarrier_barrierGeneric (q : ComputeQueue) (h : Host) (p : AqlPacket) :
    (q.barrierGenericAqlToPm4 h p).queue.needsBarrier =
      if p.signalled then false else q.needsBarrier := by
  simp only [barrierGenericAqlToPm4, needsBarrier_accept]
  by_cases hsig : p.completionSignal = 0
  · rw [if_neg (not_not.mpr hsig), signalled_false hsig]
    rfl
  · rw [if_pos hsig, needsBarrier_leaveSignal, signalled_true hsig]
    rfl

theorem needsBarrier_afterItem (q : ComputeQueue) (i : Item) :
    (q.afterItem i).needsBarrier = q.needsBarrier := by
  rw [afterItem]
  split <;> rfl

theorem block_barrierItem {q : ComputeQueue} {h : Host} {p : AqlPacket} (hp : p.isKernel = false) :
    Block q.needsBarrier p (q.barrierGenericAqlToPm4 h p).written
      (q.barrierGenericAqlToPm4 h p).queue.needsBarrier := by
  rw [(outcome_barrierGeneric q h p).1, needsBarrier_barrierGeneric]
  exact block_barrierCommands q h p hp

/-- The commands of an accepted packet are a block. -/
theorem block_translateItem {q : ComputeQueue} {i : Item}
    (h : (q.translateItem i).status = .success) :
    Block q.needsBarrier i.packet (q.translateItem i).written
      ((q.translateItem i).queue.afterItem i).needsBarrier := by
  rw [needsBarrier_afterItem]
  rw [translateItem] at h ⊢
  cases htype : i.packet.type with
  | none =>
      rw [htype] at h
      cases h
  | some type =>
      rw [htype] at h
      cases type with
      | kernelDispatch =>
          have hp : i.packet.isKernel = true := by simp [AqlPacket.isKernel, htype]
          simp only at h ⊢
          cases kernelDispatch_cases q i.host i.packet with
          | inl hcheck =>
              obtain ⟨status, herr, heq⟩ := hcheck
              rw [heq] at h
              exact absurd h (checkKernelDispatch_error herr)
          | inr hend =>
              obtain ⟨k, hk, hwritten, _⟩ := hend
              have hblock := block_kernelCommands (q.updateScratch i.host i.packet.privateSegmentSize
                k.enableWavefrontSize32) i.host i.packet k hp
              rw [needsBarrier_updateScratch] at hblock
              rw [hwritten, needsBarrier_kernelDispatch hk]
              exact hblock
      | barrierAnd => exact block_barrierItem (by simp [AqlPacket.isKernel, htype])
      | barrierOr => exact block_barrierItem (by simp [AqlPacket.isKernel, htype])
      | vendorSpecific => cases h
      | invalid => cases h
      | agentDispatch => cases h

/-! ## Streams of blocks -/

/-- The blocks follow one another. -/
inductive Stream : Bool → List (AqlPacket × List Pm4) → Prop where
  | nil {nb : Bool} : Stream nb []
  | cons {nb nb' : Bool} {p : AqlPacket} {b : List Pm4} {ts : List (AqlPacket × List Pm4)} :
      Block nb p b nb' → Stream nb' ts → Stream nb ((p, b) :: ts)

theorem stream_translated (q : ComputeQueue) (items : List Item) :
    Stream q.needsBarrier (q.translated items) := by
  induction items generalizing q with
  | nil => exact .nil
  | cons i is ih =>
      rw [translated]
      split
      next h => exact .cons (block_translateItem h) (ih _)
      next => exact .nil

/-- A packet after which a kernel runs unflushed. -/
def leavesRunning (p : AqlPacket) : Bool := p.isKernel && !p.signalled

/-- A packet with the flush of its completion signal. -/
def flushes (p : AqlPacket) : Bool := p.signalled

/-- A packet that starts a kernel without a flush before it. -/
def startsBare (p : AqlPacket) : Bool := p.isKernel && !p.barrierBit

/-- A packet with a flush before any kernel it starts. -/
def flushesFirst (p : AqlPacket) : Bool := p.isKernel || p.signalled

/-- A kernel is running unflushed after the commands of the stream exactly if the
packets say so, and then `needsBarrier` is set. -/
theorem stream_split {nb s : Bool} {l r : List (AqlPacket × List Pm4)} (h : Stream nb (l ++ r))
    (hs : s = true → nb = true) :
    ∃ nb', Stream nb' r ∧
      dirty Pm4.isDispatch Pm4.isFlush s (commands l) =
        dirty leavesRunning flushes s (l.map Prod.fst) ∧
      (dirty leavesRunning flushes s (l.map Prod.fst) = true → nb' = true) := by
  induction l generalizing nb s with
  | nil => exact ⟨nb, h, rfl, hs⟩
  | cons x l ih =>
      obtain ⟨p, b⟩ := x
      cases h with
      | @cons _ next _ _ _ hb hrest =>
          have hstep : dirty Pm4.isDispatch Pm4.isFlush s b =
              if leavesRunning p then true else if flushes p then false else s := by
            rw [hb.dirty, leavesRunning, flushes]
            cases p.isKernel <;> cases p.signalled <;> cases nb <;> cases s <;> simp_all
          have hs' : (if leavesRunning p then true else if flushes p then false else s) = true →
              next = true := by
            rw [hb.next, leavesRunning, flushes]
            cases p.isKernel <;> cases p.signalled <;> cases nb <;> cases s <;> simp_all
          obtain ⟨nb', hr, hd, hn⟩ := ih hrest hs'
          refine ⟨nb', hr, ?_, hn⟩
          show dirty _ _ s (b ++ commands l) = _
          rw [Lib.dirty_append, hstep]
          exact hd

/-- While `needsBarrier` is set, a kernel starts without a flush before it exactly if
the packets say so. -/
theorem stream_bare {r : List (AqlPacket × List Pm4)} (h : Stream true r) :
    bare Pm4.isDispatch Pm4.isFlush (commands r) =
      bare startsBare flushesFirst (r.map Prod.fst) := by
  induction r with
  | nil => rfl
  | cons x r ih =>
      obtain ⟨p, b⟩ := x
      cases h with
      | cons hb hrest =>
          show bare _ _ (b ++ commands r) = bare _ _ (p :: r.map Prod.fst)
          have hn := hb.next
          rw [hb.bare, Lib.bare, startsBare, flushesFirst]
          cases hk : p.isKernel with
          | true => cases p.barrierBit <;> rfl
          | false =>
              cases hsig : p.signalled with
              | true => rfl
              | false =>
                  rw [hk, hsig] at hn
                  simp only [Bool.false_eq_true, if_false] at hn
                  rw [hn] at hrest
                  exact ih hrest

/-- The cut at a packet with the bit is open exactly if a kernel runs unflushed before
it and one starts without a flush after it. -/
theorem separated_cut {l r : List (AqlPacket × List Pm4)} (h : Stream true (l ++ r)) :
    Separated Pm4.isDispatch Pm4.isFlush (commands l) (commands r) ↔
      ¬ (dirty leavesRunning flushes false (l.map Prod.fst) = true ∧
        bare startsBare flushesFirst (r.map Prod.fst) = true) := by
  obtain ⟨nb, hr, hd, hn⟩ := stream_split (s := false) h (fun h => absurd h Bool.false_ne_true)
  rw [Lib.separated_iff, hd]
  refine not_congr (and_congr_right fun hdirty => ?_)
  rw [hn hdirty] at hr
  rw [stream_bare hr]

theorem leavesRunning_eq_true {p : AqlPacket} :
    leavesRunning p = true ↔ p.isKernel = true ∧ p.signalled = false := by
  simp [leavesRunning]

theorem startsBare_eq_true {p : AqlPacket} :
    startsBare p = true ↔ p.isKernel = true ∧ p.barrierBit = false := by
  simp [startsBare]

theorem between_iff {p : AqlPacket} :
    (leavesRunning p = false ∧ flushes p = false) ↔ p.isKernel = false ∧ p.signalled = false := by
  cases h : p.isKernel <;> cases h' : p.signalled <;> simp [leavesRunning, flushes, h, h']

theorem between_iff' {p : AqlPacket} :
    (startsBare p = false ∧ flushesFirst p = false) ↔ p.isKernel = false ∧ p.signalled = false := by
  cases h : p.isKernel <;> cases h' : p.signalled <;> simp [startsBare, flushesFirst, h, h']

/-- A list with an image cut in two is cut in two. -/
theorem split_of_map {ts : List (AqlPacket × List Pm4)} {l : List AqlPacket} {p : AqlPacket}
    {r : List AqlPacket} (h : ts.map Prod.fst = l ++ p :: r) :
    ∃ l' x r', ts = l' ++ x :: r' ∧ l'.map Prod.fst = l ∧ x.1 = p ∧ r'.map Prod.fst = r := by
  obtain ⟨l', r', hts, hl, hr⟩ := List.map_eq_append_iff.mp h
  obtain ⟨x, r'', hr', hx, hr''⟩ := List.map_eq_cons_iff.mp hr
  exact ⟨l', x, r'', by rw [hts, hr'], hl, hx, hr''⟩

/-- For every sequence of packets, the stream keeps the order of every `BARRIER` bit
exactly if every barrier packet with the bit between two neighbouring kernel dispatches
is fenced by one of its neighbours. -/
theorem stream_ordered_iff (device : Device) (ringSize : Nat) (ring : Nat → AqlPacket)
    (cmdbufAddr : Nat) (items : List Item) :
    Ordered ((init device ringSize ring cmdbufAddr).translated items) ↔
      Fenced (((init device ringSize ring cmdbufAddr).translated items).map Prod.fst) := by
  have hstream : Stream true ((init device ringSize ring cmdbufAddr).translated items) :=
    stream_translated (init device ringSize ring cmdbufAddr) items
  generalize (init device ringSize ring cmdbufAddr).translated items = ts at hstream ⊢
  constructor
  · intro hord l k mid k' r hps hk hk' hmid hbit
    by_contra hnot
    simp only [not_or, not_exists, not_and, Bool.not_eq_true] at hnot
    obtain ⟨hksig, hk'bit, hsig⟩ := hnot
    obtain ⟨p, hp, hpbit⟩ := hbit
    obtain ⟨m₁, m₂, rfl⟩ := List.append_of_mem hp
    have hcut : ts.map Prod.fst = (l ++ k :: m₁) ++ p :: (m₂ ++ k' :: r) := by
      rw [hps]
      simp
    obtain ⟨l', x, r', rfl, hl, hx, hr⟩ := split_of_map hcut
    apply (separated_cut hstream).mp (hord l' x r' rfl (hx ▸ hpbit))
    constructor
    · rw [hl, Lib.dirty_iff]
      refine ⟨l, k, m₁, rfl, leavesRunning_eq_true.mpr ⟨hk, hksig⟩, ?_⟩
      intro c hc
      exact between_iff.mpr ⟨hmid c (by simp [hc]), hsig c (by simp [hc])⟩
    · rw [List.map_cons, hx, hr, Lib.bare_iff]
      refine ⟨p :: m₂, k', r, rfl, startsBare_eq_true.mpr ⟨hk', hk'bit⟩, ?_⟩
      intro c hc
      have hc' : c ∈ m₁ ++ p :: m₂ := List.mem_append_right _ hc
      exact between_iff'.mpr ⟨hmid c hc', hsig c hc'⟩
  · intro hfenced l x r hts hbit
    subst hts
    rw [separated_cut hstream]
    intro hopen
    obtain ⟨l₁, k, m₁, hl, hk, hm₁⟩ := Lib.dirty_iff.mp hopen.1
    obtain ⟨m₂, k', r₂, hr, hk', hm₂⟩ := Lib.bare_iff.mp hopen.2
    obtain ⟨hkk, hks⟩ := leavesRunning_eq_true.mp hk
    obtain ⟨hk'k, hk'b⟩ := startsBare_eq_true.mp hk'
    have hplain : ∀ p ∈ m₁ ++ m₂, p.isKernel = false ∧ p.signalled = false := by
      intro p hp
      cases List.mem_append.mp hp with
      | inl hmem => exact between_iff.mp (hm₁ p hmem)
      | inr hmem => exact between_iff'.mp (hm₂ p hmem)
    have hps : (l ++ x :: r).map Prod.fst = l₁ ++ k :: ((m₁ ++ m₂) ++ k' :: r₂) := by
      rw [List.map_append, hl, hr]
      simp
    -- the packet with the bit is not the second kernel, which has none
    have hx : x.1 ∈ m₁ ++ m₂ := by
      rw [List.map_cons] at hr
      cases m₂ with
      | nil =>
          cases hr
          rw [hbit] at hk'b
          cases hk'b
      | cons p m₂ =>
          rw [(List.cons.inj hr).1]
          simp
    have hcases := hfenced l₁ k (m₁ ++ m₂) k' r₂ hps hkk hk'k (fun p hp => (hplain p hp).1)
      ⟨x.1, hx, hbit⟩
    rcases hcases with hsig | hb | ⟨p, hp, hsig⟩
    · rw [hks] at hsig
      cases hsig
    · rw [hk'b] at hb
      cases hb
    · rw [(hplain p hp).2] at hsig
      cases hsig

/-- The order at the packet with a given index. -/
theorem Ordered.cut {ts : List (AqlPacket × List Pm4)} (h : Ordered ts) {n : Nat}
    (hn : n < ts.length) (hbit : ts[n].1.barrierBit = true) :
    Separated Pm4.isDispatch Pm4.isFlush (commands (ts.take n)) (commands (ts.drop n)) := by
  have hdrop : ts.drop n = ts[n] :: ts.drop (n + 1) := List.drop_eq_getElem_cons hn
  rw [hdrop]
  apply h _ _ _ _ hbit
  rw [← hdrop, List.take_append_drop]

/-- An unsignalled kernel dispatch, a barrier-AND packet with the bit, and another
unsignalled kernel dispatch. -/
def lostBarrier : List Item :=
  [⟨Machine.sampleKernel 0 0, Machine.sampleHost 0, false⟩, ⟨{ header := 0x103 }, {}, false⟩,
    ⟨Machine.sampleKernel 0 0, Machine.sampleHost 0, false⟩]

/-- The bit of a barrier packet between two plain kernel dispatches is lost. -/
theorem barrier_bit_lost :
    ¬ Ordered ((init Machine.sampleDevice 4 (fun _ => { header := 1 }) 0x100000).translated
      lostBarrier) := by
  intro hord
  have hsep := hord.cut (n := 1) (by decide) (by decide)
  rw [Lib.separated_iff] at hsep
  revert hsep
  decide

end ComputeQueue

end RocDxg
