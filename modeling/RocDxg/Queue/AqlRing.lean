import RocDxg.Lib.Window
import RocDxg.Queue.AqlThread
import RocDxg.Queue.Consumption

/-!
# The ring of a compute queue

What the submitting threads write and what `Process` reads.  A ticket `t` belongs to the slot
`t % ring_size`, and the slots of the tickets from the read index on, a whole lap of them, are
known: the packet as it was written, the same packet marked `INVALID` if it is translated, or some
`INVALID` packet if nothing was written for the ticket (`Slot`).

So `Process` translates the packets in the order of their tickets, whoever wrote them and in
whatever order, each once and as it was written (`translated_in_order`).  The conditions under
which the machine of `Process` consumes each packet once hold in every run of the whole system
(`machine_reach`): the ring protocol is what it relies on.
-/

namespace RocDxg

open Lib (Reach runAll reach_of_runAll)
open Lib.Window (Holds)

/-! ## What a step of `Process` does to the ring -/

namespace ComputeQueue

/-- The queues agree on the ring and the place in it. -/
structure SamePlace (q q' : ComputeQueue) : Prop where
  ring : q'.ring = q.ring
  writeIndex : q'.writeIndex = q.writeIndex
  ringSize : q'.ringSize = q.ringSize

/-- The ring and the place in it after a step: the same, or with the packet at the write index
marked. -/
inductive Turn (q q' : ComputeQueue) : Prop where
  | kept : SamePlace q q' → Turn q q'
  | consumed : Marks q q' → q'.writeIndex = q.writeIndex + 1 → q'.ringSize = q.ringSize → Turn q q'

variable {q q' q'' : ComputeQueue}

theorem SamePlace.refl (q : ComputeQueue) : SamePlace q q := ⟨rfl, rfl, rfl⟩

theorem SamePlace.trans (h : SamePlace q q') (h' : SamePlace q' q'') : SamePlace q q'' :=
  ⟨h'.ring.trans h.ring, h'.writeIndex.trans h.writeIndex, h'.ringSize.trans h.ringSize⟩

theorem SamePlace.leaveSignal (h : SamePlace q q') (signal : Nat) :
    SamePlace q (q'.leaveSignal signal) := by
  refine h.trans ?_
  rw [ComputeQueue.leaveSignal]
  split <;> exact ⟨rfl, rfl, rfl⟩

theorem samePlace_updateScratch (q : ComputeQueue) (h : Host) (n : Nat) (wave32 : Bool) :
    SamePlace q (q.updateScratch h n wave32) := by
  rw [updateScratch, reportOverflow]
  cases h.scratch with
  | none =>
      simp only [ite_self]
      split <;> exact ⟨rfl, rfl, rfl⟩
  | some addr =>
      simp only
      split <;> split <;> exact ⟨rfl, rfl, rfl⟩

theorem SamePlace.accept (h : SamePlace q q') (written : List Pm4) :
    Turn q (q'.accept written).queue := by
  rw [ComputeQueue.accept]
  split
  next => exact .kept h
  next =>
    refine .consumed ?_ (congrArg (· + 1) h.writeIndex) h.ringSize
    rw [Marks, h.ring]
    simp only [slot, h.writeIndex, h.ringSize]
    rfl

theorem Turn.congr (h : Turn q q') (h' : SamePlace q' q'') : Turn q q'' := by
  cases h with
  | kept hsame => exact .kept (hsame.trans h')
  | consumed hmarks hindex hsize =>
      exact .consumed (h'.ring.trans hmarks) (h'.writeIndex.trans hindex) (h'.ringSize.trans hsize)

theorem kernelDispatch_writeIndex {q : ComputeQueue} {h : Host} {p : AqlPacket}
    (hs : (q.kernelDispatchAqlToPm4 h p).status = .success) :
    (q.kernelDispatchAqlToPm4 h p).queue.writeIndex = q.writeIndex + 1 := by
  cases kernelDispatch_cases q h p with
  | inl hcheck =>
      obtain ⟨status, herr, heq⟩ := hcheck
      rw [heq] at hs
      exact absurd hs (checkKernelDispatch_error herr)
  | inr hend =>
      obtain ⟨_, _, _, hout⟩ := hend
      exact (hout.of_success hs).writeIndex

theorem kernelDispatch_turn (q : ComputeQueue) (h : Host) (p : AqlPacket) :
    Turn q (q.kernelDispatchAqlToPm4 h p).queue := by
  rw [kernelDispatchAqlToPm4]
  cases q.checkKernelDispatch h p with
  | error status => exact .kept (.refl q)
  | ok k =>
      have S := q.samePlace_updateScratch h p.privateSegmentSize k.enableWavefrontSize32
      refine SamePlace.accept ?_ _
      split
      · apply SamePlace.leaveSignal
        exact ⟨S.ring, S.writeIndex, S.ringSize⟩
      · exact ⟨S.ring, S.writeIndex, S.ringSize⟩

theorem barrierGeneric_turn (q : ComputeQueue) (h : Host) (p : AqlPacket) :
    Turn q (q.barrierGenericAqlToPm4 h p).queue := by
  rw [barrierGenericAqlToPm4]
  refine SamePlace.accept ?_ _
  split
  · apply SamePlace.leaveSignal
    exact ⟨rfl, rfl, rfl⟩
  · exact .refl q

theorem vendorSpecific_turn (q : ComputeQueue) (h : Host) (p : AqlPacket) :
    Turn q (q.vendorSpecificAqlToPm4 h p).queue := by
  rw [vendorSpecificAqlToPm4]
  refine SamePlace.accept ?_ _
  split
  · exact (SamePlace.refl q).leaveSignal _
  · exact .refl q

end ComputeQueue

namespace Machine

open ComputeQueue

variable {m m' : Machine} {h : Host} {d : Driver}

theorem translation_turn (m : Machine) (h : Host) : m.queue.Turn (m.translation h).queue := by
  rw [translation]
  cases htype : m.packet.type with
  | none => exact .kept (.refl _)
  | some type =>
      cases type with
      | kernelDispatch => exact m.queue.kernelDispatch_turn h m.packet
      | barrierAnd | barrierOr => exact m.queue.barrierGeneric_turn h m.packet
      | vendorSpecific => exact m.queue.vendorSpecific_turn h m.packet
      | invalid | agentDispatch => exact .kept (.refl _)

/-- What a step of the thread leaves alone, and what it does to the ring. -/
structure Turned (m m' : Machine) : Prop where
  wptr : m'.wptr = m.wptr
  turn : m.queue.Turn m'.queue
  index : m'.queue.writeIndex ≠ m.queue.writeIndex → m.pc = .switch
  fences : ∀ ib ∈ m'.inFlight, ib ∈ m.inFlight ∨ ib.fence = m.queue.writeIndex
  /-- A packet is found at the head of the loop, and stays found until it is translated. -/
  before : m'.Before → m'.queue.writeIndex = m.queue.writeIndex ∧ (m.Before ∨ m.more = true)
  /-- The test whether to merge is about the packet just translated. -/
  merge : ∀ slot, m'.pc = .merge slot → slot = m.queue.slot ∧
    m'.queue.writeIndex = m.queue.writeIndex + 1 ∧ m'.inFlight = m.inFlight

theorem afterSwitch_ne_merge (q : ComputeQueue) (slot : Nat) : afterSwitch q ≠ .merge slot := by
  rw [afterSwitch]
  cases q.readyToSubmit <;> simp

theorem not_before_afterSwitch {q : ComputeQueue} (hpc : m.pc = afterSwitch q) : ¬ m.Before := by
  rw [Before, hpc, afterSwitch]
  cases q.readyToSubmit <;> simp

theorem switch_turned (hpc : m.pc = .switch) (h : Host) : Turned m (m.switchStep h) := by
  have hturn := m.translation_turn h
  have hready : m.queue.Turn { (m.translation h).queue with readyToSubmit := true } :=
    hturn.congr ⟨rfl, rfl, rfl⟩
  rw [switchStep]
  cases htype : m.packet.type with
  | none =>
      exact ⟨rfl, .kept (.refl _), fun _ => hpc, fun _ => Or.inl, False.elim, fun _ h => by cases h⟩
  | some type =>
      cases type with
      | kernelDispatch =>
          simp only
          split
          next hs =>
            refine ⟨rfl, hturn, fun _ => hpc, fun _ => Or.inl, False.elim, fun slot hslot => ?_⟩
            rw [translation_kernel h htype] at hs ⊢
            exact ⟨(Pc.merge.inj hslot).symm, kernelDispatch_writeIndex hs, rfl⟩
          next =>
            exact ⟨rfl, hturn, fun _ => hpc, fun _ => Or.inl, False.elim, fun _ h => by cases h⟩
      | barrierAnd | barrierOr | vendorSpecific =>
          exact ⟨rfl, hready, fun _ => hpc, fun _ => Or.inl, False.elim, fun _ h => by cases h⟩
      | invalid =>
          exact ⟨rfl, .kept (.refl _), fun _ => hpc, fun _ => Or.inl,
            fun hbefore => absurd hbefore (not_before_afterSwitch rfl),
            fun slot hslot => absurd hslot (afterSwitch_ne_merge _ slot)⟩
      | agentDispatch =>
          exact ⟨rfl, .kept (.refl _), fun _ => hpc, fun _ => Or.inl, False.elim,
            fun _ h => by cases h⟩

theorem runStep_turned (hs : m.runStep h d = some m') : Turned m m' := by
  by_cases hpc : m.pc = .switch
  · rw [runStep, hpc] at hs
    cases hs
    exact switch_turned hpc h
  · have hkept : ∀ m' : Machine, m'.wptr = m.wptr → m.queue.SamePlace m'.queue →
        (∀ ib ∈ m'.inFlight, ib ∈ m.inFlight ∨ ib.fence = m.queue.writeIndex) →
        (m'.Before → m.Before ∨ m.more = true) → (∀ slot, m'.pc ≠ .merge slot) → Turned m m' :=
      fun m' hwptr hsame hfences hbefore hmerge => ⟨hwptr, .kept hsame,
        fun hne => absurd hsame.writeIndex hne, hfences,
        fun hb => ⟨hsame.writeIndex, hbefore hb⟩, fun slot hslot => absurd hslot (hmerge slot)⟩
    cases runStep_result hs with
    | enter | leave => exact hkept _ rfl (.refl _) (fun _ => Or.inl) False.elim (by simp)
    | next _ hmore => exact hkept _ rfl (.refl _) (fun _ => Or.inl) (fun _ => Or.inr hmore) (by simp)
    | full hat _ | free hat _ | waited value hat _ =>
        refine hkept _ rfl (.refl _) (fun _ => Or.inl) (fun _ => Or.inl ?_) (by simp)
        rw [Before, hat]
        trivial
    | switch hat _ => exact absurd hat hpc
    | merge slot hat _ =>
        exact hkept _ rfl (.refl _) (fun _ => Or.inl)
          (fun hb => absurd hb (not_before_afterSwitch rfl)) (afterSwitch_ne_merge _)
    | close | failed | failedSubmit | signalled =>
        exact hkept _ rfl ⟨rfl, rfl, rfl⟩ (fun _ => Or.inl) False.elim (by simp)
    | submit | submitSignal =>
        refine hkept _ rfl ⟨rfl, rfl, rfl⟩ (fun ib hib => ?_) False.elim (by simp)
        cases List.mem_append.mp hib with
        | inl hold => exact Or.inl hold
        | inr hnew =>
            rw [List.mem_singleton.mp hnew]
            exact Or.inr rfl

end Machine

/-! ## Tickets and slots -/

namespace AqlThread

open ComputeQueue (Turn Marks)

variable {κ : Type} {s s' : AqlThread κ} {n : Nat}

/-- What the slot of the ticket `t` holds, for the write index `i` of the queue: the packet as it
was written, the packet marked when it is translated, or an `INVALID` packet if nothing was written. -/
def Slot (sent : Nat → Option AqlPacket) (i t : Nat) (y : AqlPacket) : Prop :=
  match sent t with
  | some p => y = if t < i then p.invalidate else p
  | none => y.type = some .invalid

/-- The tickets of the submitting threads. -/
structure Tickets (s : AqlThread κ) : Prop where
  lt : ∀ k t, t ∈ (s.submitters k).tickets → t < s.machine.wptr
  unsent : ∀ k t, t ∈ (s.submitters k).tickets → s.sent t = none
  nodup : ∀ k, (s.submitters k).tickets.Nodup
  one : ∀ k k' t, t ∈ (s.submitters k).tickets → t ∈ (s.submitters k').tickets → k = k'
  /-- A ticket that was reserved is written or with a thread. -/
  held : ∀ t, t < s.machine.wptr → s.sent t = none → ∃ k, t ∈ (s.submitters k).tickets

/-- The ring and the packets that were written and translated. -/
structure Ring (n : Nat) (s : AqlThread κ) : Prop where
  size : s.machine.queue.ringSize = n
  rptr_le : s.rptr ≤ s.machine.queue.writeIndex
  fences : ∀ ib ∈ s.machine.inFlight, ib.fence ≤ s.machine.queue.writeIndex
  sent_lt : ∀ t p, s.sent t = some p → t < s.machine.wptr ∧ t < s.rptr + n
  sent_valid : ∀ t p, s.sent t = some p → p.type ≠ some .invalid
  behind : ∀ t, t < s.machine.queue.writeIndex → s.sent t ≠ none
  slots : Holds n s.rptr (Slot s.sent s.machine.queue.writeIndex) s.machine.queue.ring
  found : s.machine.Before → s.sent s.machine.queue.writeIndex ≠ none
  /-- The packet of the test whether to merge is not submitted, and so not behind the read index. -/
  merge : ∀ slot, s.machine.pc = .merge slot → s.rptr < s.machine.queue.writeIndex ∧
    slot = (s.machine.queue.writeIndex - 1) % n ∧
    ∀ ib ∈ s.machine.inFlight, ib.fence < s.machine.queue.writeIndex
  taken : s.taken.map some = (List.range s.machine.queue.writeIndex).map s.sent

theorem slot_some {sent : Nat → Option AqlPacket} {i t : Nat} {p y : AqlPacket}
    (h : sent t = some p) : Slot sent i t y ↔ y = if t < i then p.invalidate else p := by
  rw [Slot, h]

theorem slot_none {sent : Nat → Option AqlPacket} {i t : Nat} {y : AqlPacket}
    (h : sent t = none) : Slot sent i t y ↔ y.type = some .invalid := by
  rw [Slot, h]

theorem type_invalidate (p : AqlPacket) : p.invalidate.type = some .invalid := rfl

/-- The write index of the queue is in the window, or one lap ahead of its start. -/
theorem Ring.writeIndex_le (R : Ring n s) : s.machine.queue.writeIndex ≤ s.rptr + n := by
  cases hindex : s.machine.queue.writeIndex with
  | zero => exact Nat.zero_le _
  | succ i =>
      have hsent := R.behind i (by omega)
      obtain ⟨p, hp⟩ := Option.ne_none_iff_exists'.mp hsent
      exact (R.sent_lt i p hp).2

/-- The packet at the write index is the one that was written for it. -/
theorem Ring.packet_of_sent (R : Ring n s) {p : AqlPacket}
    (hp : s.sent s.machine.queue.writeIndex = some p) : s.machine.packet = p := by
  have h := (slot_some hp).mp (R.slots _ R.rptr_le (R.sent_lt _ p hp).2)
  rw [if_neg (Nat.lt_irrefl _)] at h
  rw [Machine.packet, ComputeQueue.slot, R.size, h]

/-- Nothing was written for the write index if the packet there is invalid. -/
theorem Ring.invalid_iff (R : Ring n s) (hn : 0 < n) :
    s.machine.queue.isInvalidPacket = true ↔ s.sent s.machine.queue.writeIndex = none := by
  rw [ComputeQueue.isInvalidPacket, decide_eq_true_eq]
  cases hsent : s.sent s.machine.queue.writeIndex with
  | some p =>
      have hpacket : s.machine.queue.ring s.machine.queue.slot = p := R.packet_of_sent hsent
      rw [hpacket]
      simpa using R.sent_valid _ p hsent
  | none =>
      refine iff_of_true ?_ rfl
      rw [ComputeQueue.slot, R.size]
      by_cases hlt : s.machine.queue.writeIndex < s.rptr + n
      · exact (slot_none hsent).mp (R.slots _ R.rptr_le hlt)
      · -- the ring is full, and the slot is that of the packet at the read index
        have heq : s.machine.queue.writeIndex = s.rptr + n :=
          Nat.le_antisymm R.writeIndex_le (Nat.le_of_not_lt hlt)
        obtain ⟨p, hp⟩ := Option.ne_none_iff_exists'.mp (R.behind s.rptr (by omega))
        have h := (slot_some hp).mp (R.slots s.rptr (Nat.le_refl _) (by omega))
        rw [if_pos (by omega)] at h
        rw [heq, Nat.add_mod_right, h, type_invalidate]

/-- A step that leaves the machine and the packets alone. -/
theorem Ring.frame (R : Ring n s) (hmachine : s'.machine = s.machine) (hrptr : s'.rptr = s.rptr)
    (hsent : s'.sent = s.sent) (htaken : s'.taken = s.taken) : Ring n s' := by
  obtain ⟨size, rptr_le, fences, sent_lt, sent_valid, behind, slots, found, merge, taken⟩ := R
  rw [← hmachine] at size rptr_le fences sent_lt behind slots found merge taken
  rw [← hrptr] at rptr_le sent_lt slots merge
  rw [← hsent] at sent_lt sent_valid behind slots found taken
  rw [← htaken] at taken
  exact ⟨size, rptr_le, fences, sent_lt, sent_valid, behind, slots, found, merge, taken⟩

theorem Tickets.frame (T : Tickets s) (hwptr : s'.machine.wptr = s.machine.wptr)
    (hsent : s'.sent = s.sent) (htickets : ∀ k, (s'.submitters k).tickets = (s.submitters k).tickets) :
    Tickets s' where
  lt k t ht := by
    rw [htickets] at ht
    rw [hwptr]
    exact T.lt k t ht
  unsent k t ht := by
    rw [htickets] at ht
    rw [hsent]
    exact T.unsent k t ht
  nodup k := by
    rw [htickets]
    exact T.nodup k
  one k k' t ht ht' := by
    rw [htickets] at ht ht'
    exact T.one k k' t ht ht'
  held t ht hnone := by
    rw [hwptr] at ht
    rw [hsent] at hnone
    obtain ⟨k, hk⟩ := T.held t ht hnone
    exact ⟨k, by rw [htickets]; exact hk⟩

/-! ## A step of `Process` -/

/-- Marking the packet at the write index is what the next write index asks of the slots. -/
theorem Ring.slots_marked (R : Ring n s) {p : AqlPacket}
    (hp : s.sent s.machine.queue.writeIndex = some p) {q : ComputeQueue}
    (hmarks : s.machine.queue.Marks q) :
    Holds n s.rptr (Slot s.sent (s.machine.queue.writeIndex + 1)) q.ring := by
  have hpacket : s.machine.queue.ring s.machine.queue.slot = p := R.packet_of_sent hp
  have hring : q.ring = fun i => if i = s.machine.queue.writeIndex % n then p.invalidate
      else s.machine.queue.ring i := by
    rw [hmarks]
    funext i
    rw [← R.size]
    by_cases hi : i = s.machine.queue.slot
    · rw [if_pos hi, hi, hpacket]
      exact (if_pos rfl).symm
    · rw [if_neg hi]
      exact (if_neg hi).symm
  rw [hring]
  refine R.slots.write ⟨R.rptr_le, (R.sent_lt _ p hp).2⟩ ?_ fun t ht y hy => ?_
  · rw [slot_some hp, if_pos (Nat.lt_succ_self _)]
  · cases hsent : s.sent t with
    | none => exact (slot_none hsent).mpr ((slot_none hsent).mp hy)
    | some p' =>
        have h := (slot_some hsent).mp hy
        rw [slot_some hsent, h]
        exact if_congr (by omega) rfl rfl

/-- A step of `Process` translates the packet at the write index, or leaves the ring as it is. -/
theorem Ring.run (R : Ring n s) (hn : 0 < n) {x : ThreadAnswers} {m : Machine} {pc : AqlPc}
    (hm : s.machine.step (.run x.host x.driver) = some m) :
    Ring n { s with machine := m, taken := s.takenAfter m, pc := pc } := by
  have T : Machine.Turned s.machine m := Machine.runStep_turned hm
  have hfound : m.Before → s.sent s.machine.queue.writeIndex ≠ none := by
    intro hbefore
    rcases (T.before hbefore).2 with hold | hmore
    · exact R.found hold
    · intro hnone
      rw [Machine.more, (R.invalid_iff hn).mpr hnone] at hmore
      simp at hmore
  cases T.turn with
  | kept hsame =>
      have htaken : s.takenAfter m = s.taken := if_pos hsame.writeIndex
      refine ⟨hsame.ringSize.trans R.size, ?_, ?_, ?_, R.sent_valid, ?_, ?_, ?_, ?_, ?_⟩
      · rw [hsame.writeIndex]
        exact R.rptr_le
      · intro ib hib
        rw [hsame.writeIndex]
        rcases T.fences ib hib with hold | hnew
        · exact R.fences ib hold
        · exact Nat.le_of_eq hnew
      · rw [T.wptr]
        exact R.sent_lt
      · rw [hsame.writeIndex]
        exact R.behind
      · rw [hsame.writeIndex, hsame.ring]
        exact R.slots
      · rw [hsame.writeIndex]
        exact hfound
      · intro slot hslot
        obtain ⟨_, hindex, _⟩ := T.merge slot hslot
        rw [hsame.writeIndex] at hindex
        exact absurd hindex (Nat.ne_of_lt (Nat.lt_succ_self _))
      · rw [hsame.writeIndex, htaken]
        exact R.taken
  | consumed hmarks hindex hsize =>
      have hne : m.queue.writeIndex ≠ s.machine.queue.writeIndex := by omega
      have hat : s.machine.Before := by
        rw [Machine.Before, T.index hne]
        trivial
      obtain ⟨p, hp⟩ := Option.ne_none_iff_exists'.mp (R.found hat)
      have htaken : s.takenAfter m = s.taken ++ [p] := by
        rw [takenAfter, if_neg hne, R.packet_of_sent hp]
      refine ⟨hsize.trans R.size, ?_, ?_, ?_, R.sent_valid, ?_, ?_, ?_, ?_, ?_⟩
      · rw [hindex]
        exact Nat.le_succ_of_le R.rptr_le
      · intro ib hib
        rw [hindex]
        rcases T.fences ib hib with hold | hnew
        · exact Nat.le_succ_of_le (R.fences ib hold)
        · rw [hnew]
          exact Nat.le_succ _
      · rw [T.wptr]
        exact R.sent_lt
      · intro t ht
        rw [hindex] at ht
        rcases Nat.lt_succ_iff_lt_or_eq.mp ht with hlt | heq
        · exact R.behind t hlt
        · rw [heq, hp]
          exact Option.some_ne_none p
      · rw [hindex]
        exact R.slots_marked hp hmarks
      · intro hbefore
        exact absurd (T.before hbefore).1 hne
      · intro slot hslot
        obtain ⟨heq, _, hfl⟩ := T.merge slot hslot
        rw [hindex, hfl, heq, ComputeQueue.slot, R.size]
        exact ⟨Nat.lt_succ_of_le R.rptr_le, rfl, fun ib hib => Nat.lt_succ_of_le (R.fences ib hib)⟩
      · rw [hindex, htaken, List.map_append, R.taken, List.range_succ, List.map_append]
        simp [hp]

/-! ## Every step -/

/-- The invariant of the ring. -/
structure Inv (n : Nat) (s : AqlThread κ) : Prop where
  ring : Ring n s
  tickets : Tickets s

theorem inv_start (device : Device) (ring : Nat → AqlPacket) (cmdbufAddr : Nat)
    (hring : ∀ i, (ring i).type = some .invalid) :
    Inv n (start device n ring cmdbufAddr : AqlThread κ) where
  ring :=
    { size := rfl
      rptr_le := Nat.le_refl _
      fences := fun ib hib => absurd hib List.not_mem_nil
      sent_lt := fun t p h => by cases h
      sent_valid := fun t p h => by cases h
      behind := fun t ht => absurd ht (Nat.not_lt_zero t)
      slots := fun t _ _ => hring (t % n)
      found := False.elim
      merge := fun slot h => by cases h
      taken := rfl }
  tickets :=
    { lt := fun k t ht => absurd ht List.not_mem_nil
      unsent := fun k t ht => absurd ht List.not_mem_nil
      nodup := fun k => List.nodup_nil
      one := fun k k' t ht _ => absurd ht List.not_mem_nil
      held := fun t ht => absurd ht (Nat.not_lt_zero t) }

/-- `Process` is never beyond the write index of the submitting threads. -/
theorem Inv.writeIndex_le (I : Inv n s) : s.machine.queue.writeIndex ≤ s.machine.wptr := by
  cases hindex : s.machine.queue.writeIndex with
  | zero => exact Nat.zero_le _
  | succ i =>
      obtain ⟨p, hp⟩ := Option.ne_none_iff_exists'.mp (I.ring.behind i (by omega))
      exact (I.ring.sent_lt i p hp).1

/-- A ticket belongs to a packet that is not translated. -/
theorem Inv.ticket_le (I : Inv n s) {k : κ} {t : Nat} (hmem : t ∈ (s.submitters k).tickets) :
    s.machine.queue.writeIndex ≤ t :=
  Nat.le_of_not_lt fun hlt => I.ring.behind t hlt (I.tickets.unsent k t hmem)

/-- A packet is not written where the test whether to merge looks. -/
theorem Inv.not_merge (I : Inv n s) {k : κ} {t : Nat} (hmem : t ∈ (s.submitters k).tickets)
    (hroom : t < s.rptr + n) : s.machine.pc ≠ .merge (t % n) := by
  intro hmerge
  obtain ⟨hrptr, hslot, _⟩ := I.ring.merge _ hmerge
  have hahead := I.ticket_le hmem
  -- the packet before the write index and the ticket are in the window, with one slot
  have hwindow : s.rptr ≤ t ∧ t < s.rptr + n := ⟨by omega, hroom⟩
  have heq := Lib.Window.eq_of_slot hwindow ⟨by omega, by omega⟩ hslot
  omega

/-- The packet that `Process` translates is the one that was sent. -/
theorem Inv.sent_switch (I : Inv n s) (hpc : s.machine.pc = .switch) :
    s.sent s.machine.queue.writeIndex = some s.machine.packet ∧
      s.machine.packet.type ≠ some .invalid := by
  have hat : s.machine.Before := by
    rw [Machine.Before, hpc]
    trivial
  obtain ⟨p, hp⟩ := Option.ne_none_iff_exists'.mp (I.ring.found hat)
  rw [I.ring.packet_of_sent hp]
  exact ⟨hp, I.ring.sent_valid _ p hp⟩

/-- A step that touches neither the machine nor the packets nor the tickets. -/
theorem Inv.frame (I : Inv n s) (hmachine : s'.machine = s.machine) (hrptr : s'.rptr = s.rptr)
    (hsent : s'.sent = s.sent) (htaken : s'.taken = s.taken)
    (htickets : ∀ k, (s'.submitters k).tickets = (s.submitters k).tickets) : Inv n s' where
  ring := I.ring.frame hmachine hrptr hsent htaken
  tickets := I.tickets.frame (by rw [hmachine]) hsent htickets

/-- The GPU is done with the packet at the read index, and its slot is free for the next lap. -/
theorem Inv.retire (I : Inv n s) (hn : 0 < n) {ib : Ib} {rest : List Ib}
    (hfl : s.machine.inFlight = ib :: rest) (hlt : s.rptr < ib.fence) :
    Inv n { s with rptr := s.rptr + 1 } := by
  obtain ⟨R, T⟩ := I
  have hindex : s.rptr < s.machine.queue.writeIndex :=
    Nat.lt_of_lt_of_le hlt (R.fences ib (hfl ▸ List.mem_cons_self ..))
  refine ⟨⟨R.size, hindex, R.fences, ?_, R.sent_valid, R.behind, ?_, R.found, ?_, R.taken⟩,
    ⟨T.lt, T.unsent, T.nodup, T.one, T.held⟩⟩
  · intro t p hp
    obtain ⟨hwptr, hroom⟩ := R.sent_lt t p hp
    refine ⟨hwptr, Nat.lt_of_lt_of_le hroom ?_⟩
    show s.rptr + n ≤ s.rptr + 1 + n
    omega
  · refine R.slots.slide hn fun hslot => ?_
    obtain ⟨p, hp⟩ := Option.ne_none_iff_exists'.mp (R.behind s.rptr hindex)
    have hnone : s.sent (s.rptr + n) = none := by
      cases hsent : s.sent (s.rptr + n) with
      | none => rfl
      | some p' => exact absurd (R.sent_lt _ p' hsent).2 (Nat.lt_irrefl _)
    rw [slot_some hp, if_pos hindex] at hslot
    rw [slot_none hnone, hslot, type_invalidate]
  · intro slot hslot
    obtain ⟨_, hmerge, hfences⟩ := R.merge slot hslot
    exact ⟨Nat.lt_of_le_of_lt hlt (hfences ib (hfl ▸ List.mem_cons_self ..)), hmerge, hfences⟩

/-- The GPU completes an indirect buffer. -/
theorem Inv.complete (I : Inv n s) {ib : Ib} {rest : List Ib}
    (hfl : s.machine.inFlight = ib :: rest) :
    Inv n { s with machine := { s.machine with
      syncAddr := ib.fence, completed := s.machine.completed ++ [ib], inFlight := rest } } := by
  obtain ⟨R, T⟩ := I
  have hrest : ∀ ib' ∈ rest, ib' ∈ s.machine.inFlight :=
    fun ib' hib => hfl ▸ List.mem_cons_of_mem _ hib
  refine ⟨⟨R.size, R.rptr_le, fun ib' hib => R.fences ib' (hrest ib' hib), R.sent_lt, R.sent_valid,
    R.behind, R.slots, R.found, fun slot hslot => ?_, R.taken⟩,
    ⟨T.lt, T.unsent, T.nodup, T.one, T.held⟩⟩
  obtain ⟨hrptr, hmerge, hfences⟩ := R.merge slot hslot
  exact ⟨hrptr, hmerge, fun ib' hib => hfences ib' (hrest ib' hib)⟩

theorem Inv.thread (I : Inv n s) (hn : 0 < n) {x : ThreadAnswers} (h : ThreadResult s x s') :
    Inv n s' := by
  cases h with
  | keepTime =>
      rw [keepTime]
      split <;> exact I.frame rfl rfl rfl rfl fun _ => rfl
  | run m _ hm =>
      have hwptr : m.wptr = s.machine.wptr := (Machine.runStep_turned hm).wptr
      exact ⟨I.ring.run hn hm, I.tickets.frame hwptr rfl fun _ => rfl⟩
  | _ => exact I.frame rfl rfl rfl rfl fun _ => rfl

section Steps

variable [DecidableEq κ]

theorem tickets_setSubmitter (k : κ) (bell : Bell) (j : κ) :
    ((s.setSubmitter k { s.submitters k with bell := bell }).submitters j).tickets =
      (s.submitters j).tickets := by
  show (Function.update s.submitters k { s.submitters k with bell := bell } j).tickets = _
  by_cases hj : j = k
  · subst hj
    rw [Function.update_self]
  · rw [Function.update_of_ne hj]

/-- The write index moves on, and the thread has one more ticket. -/
theorem Inv.reserve (I : Inv n s) (k : κ) :
    Inv n { s.setSubmitter k
        { tickets := (s.submitters k).tickets ++ [s.machine.wptr], bell := .due } with
      machine := { s.machine with wptr := s.machine.wptr + 1 } } := by
  obtain ⟨R, T⟩ := I
  have hfresh : s.sent s.machine.wptr = none := by
    cases hsent : s.sent s.machine.wptr with
    | none => rfl
    | some p => exact absurd (R.sent_lt _ p hsent).1 (Nat.lt_irrefl _)
  have hnot : ∀ k, s.machine.wptr ∉ (s.submitters k).tickets :=
    fun k hmem => Nat.lt_irrefl _ (T.lt k _ hmem)
  -- the tickets of a thread are those it had, and the new one if it is the thread `k`
  have hmem : ∀ j t,
      t ∈ (Function.update s.submitters k
        { tickets := (s.submitters k).tickets ++ [s.machine.wptr], bell := .due } j).tickets ↔
      t ∈ (s.submitters j).tickets ∨ j = k ∧ t = s.machine.wptr := by
    intro j t
    by_cases hj : j = k
    · subst hj
      simp
    · simp [hj]
  refine ⟨⟨R.size, R.rptr_le, R.fences, ?_, R.sent_valid, R.behind, R.slots, R.found, R.merge,
    R.taken⟩, ⟨?_, ?_, ?_, ?_, ?_⟩⟩
  · exact fun t p hp => ⟨Nat.lt_succ_of_lt (R.sent_lt t p hp).1, (R.sent_lt t p hp).2⟩
  · intro j t ht
    rcases (hmem j t).mp ht with hold | ⟨_, rfl⟩
    · exact Nat.lt_succ_of_lt (T.lt j t hold)
    · exact Nat.lt_succ_self _
  · intro j t ht
    rcases (hmem j t).mp ht with hold | ⟨_, rfl⟩
    · exact T.unsent j t hold
    · exact hfresh
  · intro j
    show (Function.update s.submitters k _ j).tickets.Nodup
    by_cases hj : j = k
    · subst hj
      rw [Function.update_self]
      exact List.nodup_append.mpr ⟨T.nodup j, List.nodup_singleton _, fun a ha b hb => by
        rw [List.mem_singleton.mp hb]
        exact fun heq => hnot j (heq ▸ ha)⟩
    · rw [Function.update_of_ne hj]
      exact T.nodup j
  · intro j j' t ht ht'
    rcases (hmem j t).mp ht with hold | ⟨hj, rfl⟩
    · rcases (hmem j' t).mp ht' with hold' | ⟨_, rfl⟩
      · exact T.one j j' t hold hold'
      · exact absurd hold (hnot j)
    · rcases (hmem j' _).mp ht' with hold' | ⟨hj', _⟩
      · exact absurd hold' (hnot j')
      · rw [hj, hj']
  · intro t ht hnone
    rcases Nat.lt_succ_iff_lt_or_eq.mp ht with hlt | heq
    · obtain ⟨j, hj⟩ := T.held t hlt hnone
      exact ⟨j, (hmem j t).mpr (Or.inl hj)⟩
    · exact ⟨k, (hmem k t).mpr (Or.inr ⟨rfl, heq⟩)⟩

/-- The thread `k` writes the packet of a ticket. -/
def written (s : AqlThread κ) (k : κ) (ticket : Nat) (p : AqlPacket) : AqlThread κ :=
  { s.setSubmitter k { tickets := (s.submitters k).tickets.erase ticket, bell := .due } with
    machine := { s.machine with queue := { s.machine.queue with
      ring := fun i => if i = ticket % s.machine.queue.ringSize then p
        else s.machine.queue.ring i } }
    sent := Function.update s.sent ticket (some p) }

section Write

variable {k : κ} {ticket : Nat} {p : AqlPacket}

theorem sent_written_of_ne {t : Nat} (h : t ≠ ticket) :
    (s.written k ticket p).sent t = s.sent t :=
  Function.update_of_ne h ..

theorem sent_written {t : Nat} {p' : AqlPacket} (hp : (s.written k ticket p).sent t = some p') :
    t = ticket ∧ p' = p ∨ s.sent t = some p' := by
  by_cases ht : t = ticket
  · subst ht
    have hself : (s.written k t p).sent t = some p := Function.update_self ..
    rw [hself] at hp
    exact Or.inl ⟨rfl, (Option.some.inj hp).symm⟩
  · rw [sent_written_of_ne ht] at hp
    exact Or.inr hp

/-- The ticket goes, and all others stay with their threads. -/
theorem Tickets.mem_written (T : Tickets s) (hmem : ticket ∈ (s.submitters k).tickets) (j : κ)
    (t : Nat) :
    t ∈ ((s.written k ticket p).submitters j).tickets ↔
      t ∈ (s.submitters j).tickets ∧ t ≠ ticket := by
  show t ∈ (Function.update s.submitters k
    { tickets := (s.submitters k).tickets.erase ticket, bell := .due } j).tickets ↔ _
  by_cases hj : j = k
  · subst hj
    simp [(T.nodup j).mem_erase_iff, and_comm]
  · simp only [Function.update_of_ne hj]
    exact ⟨fun h => ⟨h, fun heq => hj (T.one j k t h (heq ▸ hmem))⟩, And.left⟩

theorem Tickets.write (T : Tickets s) (hmem : ticket ∈ (s.submitters k).tickets) :
    Tickets (s.written k ticket p) := by
  have htickets := T.mem_written (p := p) hmem
  refine ⟨?_, ?_, ?_, ?_, ?_⟩
  · intro j t ht
    exact T.lt j t ((htickets j t).mp ht).1
  · intro j t ht
    obtain ⟨hold, hne⟩ := (htickets j t).mp ht
    exact (sent_written_of_ne hne).trans (T.unsent j t hold)
  · intro j
    show (Function.update s.submitters k _ j).tickets.Nodup
    by_cases hj : j = k
    · subst hj
      rw [Function.update_self]
      exact (T.nodup j).erase ticket
    · rw [Function.update_of_ne hj]
      exact T.nodup j
  · exact fun j j' t ht ht' => T.one j j' t ((htickets j t).mp ht).1 ((htickets j' t).mp ht').1
  · intro t ht hnone
    have hne : t ≠ ticket := by
      rintro rfl
      have hself : (s.written k t p).sent t = some p := Function.update_self ..
      rw [hself] at hnone
      cases hnone
    obtain ⟨j, hj⟩ := T.held t ht ((sent_written_of_ne hne).symm.trans hnone)
    exact ⟨j, (htickets j t).mpr ⟨hj, hne⟩⟩

/-- The packet goes to a slot of its own. -/
theorem Ring.write (R : Ring n s) (hahead : s.machine.queue.writeIndex ≤ ticket)
    (hroom : ticket < s.rptr + n) (hlt : ticket < s.machine.wptr)
    (htype : p.type ≠ some .invalid) : Ring n (s.written k ticket p) := by
  have hself : (s.written k ticket p).sent ticket = some p := Function.update_self ..
  refine ⟨R.size, R.rptr_le, R.fences, ?_, ?_, ?_, ?_, ?_, R.merge, ?_⟩
  · intro t p' hp'
    rcases sent_written hp' with ⟨rfl, _⟩ | hold
    · exact ⟨hlt, hroom⟩
    · exact R.sent_lt t p' hold
  · intro t p' hp'
    rcases sent_written hp' with ⟨_, rfl⟩ | hold
    · exact htype
    · exact R.sent_valid t p' hold
  · intro t ht
    rw [sent_written_of_ne (Nat.ne_of_lt (Nat.lt_of_lt_of_le ht hahead))]
    exact R.behind t ht
  · show Holds n s.rptr (Slot (s.written k ticket p).sent s.machine.queue.writeIndex)
      fun i => if i = ticket % s.machine.queue.ringSize then p else s.machine.queue.ring i
    rw [R.size]
    refine R.slots.write ⟨Nat.le_trans R.rptr_le hahead, hroom⟩ ?_ fun t ht y hy => ?_
    · rw [slot_some hself, if_neg (Nat.not_lt_of_le hahead)]
    · rw [Slot, sent_written_of_ne ht]
      exact hy
  · intro hbefore
    show (s.written k ticket p).sent s.machine.queue.writeIndex ≠ none
    by_cases ht : s.machine.queue.writeIndex = ticket
    · rw [ht, hself]
      exact Option.some_ne_none p
    · rw [sent_written_of_ne ht]
      exact R.found hbefore
  · show s.taken.map some =
      (List.range s.machine.queue.writeIndex).map (s.written k ticket p).sent
    rw [R.taken]
    refine List.map_congr_left fun t ht => ?_
    rw [sent_written_of_ne (Nat.ne_of_lt (Nat.lt_of_lt_of_le (List.mem_range.mp ht) hahead))]

/-- A packet is written for a ticket that is not translated. -/
theorem Inv.write (I : Inv n s) (hmem : ticket ∈ (s.submitters k).tickets)
    (hroom : ticket < s.rptr + s.machine.queue.ringSize) (htype : p.type ≠ some .invalid) :
    Inv n (s.written k ticket p) := by
  have hroom : ticket < s.rptr + n := I.ring.size ▸ hroom
  exact ⟨I.ring.write (I.ticket_le hmem) hroom (I.tickets.lt k ticket hmem) htype,
    I.tickets.write hmem⟩

end Write

theorem Inv.step (I : Inv n s) (hn : 0 < n) {e : AqlEvent κ} (h : s.step e = some s') :
    Inv n s' := by
  cases step_result h with
  | reserve k _ heq =>
      subst heq
      exact I.reserve k
  | write k ticket p _ hmem hroom htype heq =>
      subst heq
      exact I.write hmem hroom htype
  | lockDoorbell k _ _ heq | unlockDoorbell k _ heq =>
      subst heq
      exact I.frame rfl rfl rfl rfl fun j => tickets_setSubmitter k _ j
  | notifyOne k _ heq =>
      subst heq
      refine I.frame (by simp; rfl) (by simp; rfl) (by simp; rfl) (by simp; rfl) fun j => ?_
      rw [submitters_notifyOne]
      exact tickets_setSubmitter k _ j
  | destroy hdestroy =>
      cases hdestroy with
      | notify => exact I.frame (by simp) (by simp) (by simp) (by simp) fun _ => by simp
      | _ => exact I.frame rfl rfl rfl rfl fun _ => rfl
  | retire ib rest hfl hlt heq =>
      subst heq
      exact I.retire hn hfl hlt
  | complete ib rest hfl _ heq =>
      subst heq
      exact I.complete hfl
  | thread x hthread => exact I.thread hn hthread

/-! ## Whole runs -/

section Runs

variable {device : Device} {ring : Nat → AqlPacket} {cmdbufAddr : Nat}
  {ok : AqlThread κ → AqlEvent κ → Prop}

theorem inv_of_reach (hn : 0 < n) (hring : ∀ i, (ring i).type = some .invalid)
    (h : Reach step ok (start device n ring cmdbufAddr) s) : Inv n s :=
  h.invariant (inv_start device ring cmdbufAddr hring) fun _ _ _ I _ hs => I.step hn hs

/-- The ring is handed over with `INVALID` packets.  Then the packets that `Process` has translated
are those of the tickets below its index, in the order of the tickets and as they were written.  The
read index is never ahead of it, nor it of the write index.  A packet stays in its slot as it is
until it is translated, and marked after that until the read index is past it.  A packet is only
written for a ticket that has none and is not translated. -/
theorem translated_in_order (hn : 0 < n) (hring : ∀ i, (ring i).type = some .invalid)
    (h : Reach step (fun _ _ => True) (start device n ring cmdbufAddr) s) :
    s.taken.map some = (List.range s.machine.queue.writeIndex).map s.sent ∧
    s.rptr ≤ s.machine.queue.writeIndex ∧ s.machine.queue.writeIndex ≤ s.machine.wptr ∧
    (∀ t p, s.rptr ≤ t → s.sent t = some p → s.machine.queue.ring (t % n) =
      if t < s.machine.queue.writeIndex then p.invalidate else p) ∧
    ∀ k t p s', s.step (.write k t p) = some s' →
      s.machine.queue.writeIndex ≤ t ∧ s.sent t = none := by
  have I : Inv n s := inv_of_reach hn hring h
  refine ⟨I.ring.taken, I.ring.rptr_le, I.writeIndex_le, fun t p hlo hp => ?_, fun k t p s' hs => ?_⟩
  · exact (slot_some hp).mp (I.ring.slots t hlo (I.ring.sent_lt t p hp).2)
  · cases step_result hs with
    | write _ _ _ _ hmem _ _ _ =>
        have hunsent := I.tickets.unsent k t hmem
        exact ⟨I.ticket_le hmem, hunsent⟩

/-- Two threads reserve a packet each and write them the other way round, and the queue's thread
takes some steps. -/
def crossed (n : Nat) : List (AqlEvent Bool) :=
  [.reserve false, .reserve true, .write true 1 { header := 3 },
    .write false 0 (Machine.sampleKernel 0x9000 0)] ++
  List.replicate n (.thread { host := Machine.sampleHost 0 })

/-- The packets are translated in the order in which they were reserved. -/
theorem translated_in_order_crossed :
    ∃ s, Reach step (fun _ _ => True)
        (start Machine.sampleDevice 4 (fun _ => { header := 1 }) 0x100000 : AqlThread Bool) s ∧
      s.taken = [Machine.sampleKernel 0x9000 0, { header := 3 }] ∧
      s.taken.map some = (List.range s.machine.queue.writeIndex).map s.sent := by
  have hrun : (runAll step (fun _ _ => True)
      (start Machine.sampleDevice 4 (fun _ => { header := 1 }) 0x100000) (crossed 12)).map taken =
      some [Machine.sampleKernel 0x9000 0, { header := 3 }] := by
    decide
  obtain ⟨s, hs, htaken⟩ := Option.map_eq_some_iff.mp hrun
  have hreach := reach_of_runAll hs
  exact ⟨s, hreach, htaken, (translated_in_order (by decide) (fun _ => rfl) hreach).1⟩

/-! ## What `Process` relies on -/

/-- What the machine of `Process` asks of the steps of the others: the packet that it found is there
when it translates it, and is not replaced before the test whether to merge behind it. -/
def Undisturbed (m : Machine) : Event → Prop
  | .run _ _ => m.pc = .switch → m.packet.type ≠ some .invalid
  | .write slot _ => m.pc ≠ .merge slot
  | .ring _ | .complete => True

/-- A vendor packet fits in its frame when it is translated. -/
def VendorFits (s : AqlThread κ) : AqlEvent κ → Prop
  | .thread x => s.machine.pc = .switch → s.machine.packet.type = some .vendorSpecific →
      s.machine.queue.VendorFits x.host s.machine.packet
  | _ => True

instance (s : AqlThread κ) : (e : AqlEvent κ) → Decidable (VendorFits s e)
  | .thread _ => inferInstanceAs (Decidable (_ → _ → _))
  | .reserve _ | .write _ _ _ | .lockDoorbell _ | .unlockDoorbell _ | .notifyOne _ | .destroy
  | .retire | .complete => inferInstanceAs (Decidable True)

/-- A step of the system is a step of the machine that disturbs nothing, or none. -/
theorem Inv.machine_step (I : Inv n s) {e : AqlEvent κ} (h : s.step e = some s') :
    s'.machine = s.machine ∨ ∃ e', s.machine.step e' = some s'.machine ∧
      Undisturbed s.machine e' ∧ ∀ host d, e' = .run host d → ∃ x, e = .thread x ∧ x.host = host := by
  cases step_result h with
  | reserve k _ heq =>
      subst heq
      exact Or.inr ⟨.ring (s.machine.wptr + 1), rfl, trivial, fun _ _ h => by cases h⟩
  | write k ticket p _ hmem hroom _ heq =>
      subst heq
      refine Or.inr ⟨.write (ticket % s.machine.queue.ringSize) p, rfl, ?_, fun _ _ h => by cases h⟩
      rw [I.ring.size] at hroom
      rw [I.ring.size]
      exact I.not_merge hmem hroom
  | lockDoorbell k _ _ heq | unlockDoorbell k _ heq =>
      subst heq
      exact Or.inl rfl
  | notifyOne k _ heq =>
      subst heq
      exact Or.inl (by simp; rfl)
  | destroy hdestroy =>
      cases hdestroy with
      | notify => exact Or.inl (by simp)
      | _ => exact Or.inl rfl
  | retire ib rest _ _ heq =>
      subst heq
      exact Or.inl rfl
  | complete ib rest hfl _ heq =>
      subst heq
      refine Or.inr ⟨.complete, ?_, trivial, fun _ _ h => by cases h⟩
      rw [Machine.step, hfl]
  | thread x hthread =>
      cases hthread with
      | keepTime =>
          rw [keepTime]
          split <;> exact Or.inl rfl
      | run m _ hm =>
          refine Or.inr ⟨_, hm, fun hpc => (I.sent_switch hpc).2, fun host d heq => ⟨x, rfl, ?_⟩⟩
          cases heq
          rfl
      | _ => exact Or.inl rfl

/-- `Process` runs undisturbed, whatever the threads, the destructor and the GPU do: the runs of the
whole system are runs of its machine in which each packet that is found is still there when it is
translated, and none is replaced at the test whether to merge.  The size of a vendor packet is
left to the one who writes it. -/
theorem machine_reach (hn : 0 < n) (hring : ∀ i, (ring i).type = some .invalid)
    (h : Reach step VendorFits (start device n ring cmdbufAddr) s) :
    Reach Machine.step (fun m e => Undisturbed m e ∧ m.Consumable e)
      (.init device n ring cmdbufAddr) s.machine := by
  refine (h.simulate machine (inv_start device ring cmdbufAddr hring) fun s e s' I hok hs =>
    ⟨I.step hn hs, ?_⟩).2
  rcases I.machine_step hs with hsame | ⟨e', hstep, hund, hhost⟩
  · exact Or.inl hsame
  · refine Or.inr ⟨e', ⟨hund, ?_⟩, hstep⟩
    cases e' with
    | run host d =>
        obtain ⟨x, rfl, rfl⟩ := hhost host d rfl
        exact fun hpc => ⟨hund hpc, hok hpc⟩
    | _ => trivial

/-- The same run, with what the machine has submitted. -/
theorem machine_reach_crossed :
    ∃ s : AqlThread Bool, s.machine.submitted.map Ib.fence = [1, 2] ∧
      Reach Machine.step (fun m e => Undisturbed m e ∧ m.Consumable e)
        (.init Machine.sampleDevice 4 (fun _ => { header := 1 }) 0x100000) s.machine := by
  have hrun : (runAll step VendorFits
      (start Machine.sampleDevice 4 (fun _ => { header := 1 }) 0x100000) (crossed 12)).map
      (fun s => s.machine.submitted.map Ib.fence) = some [1, 2] := by
    decide
  obtain ⟨s, hs, hfences⟩ := Option.map_eq_some_iff.mp hrun
  exact ⟨s, hfences, machine_reach (by decide) (fun _ => rfl) (reach_of_runAll hs)⟩

end Runs

end Steps

end AqlThread

end RocDxg
