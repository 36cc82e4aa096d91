import RocDxg.Lib.Chain
import RocDxg.Queue.Frames

/-!
# How often a packet is consumed

`Process` makes progress because each round of its loop either consumes the packet at the write
index or returns an error.  `SwitchAql2PM4` looks at the status of kernel dispatches only, so a
vendor packet that is rejected is submitted with nothing in it, its signal is decremented all the
same, and the next round finds it again.

`consumed_once` says that nothing else goes wrong: in a run in which every vendor packet fits, and
no packet is taken back between the test of the loop and the translation, a round consumes exactly
one packet, and fence values and signals follow the packets in order.
-/

namespace RocDxg

open Lib (Chain Reach runAll reach_of_runAll)

/-- The command adds to a memory word: a signal, or the read pointer of the ring. -/
def Pm4.isAtomic : Pm4 → Bool
  | .atomicMem _ _ => true
  | _ => false

namespace Pm4

theorem isAtomic_patch (c : Pm4) (base : Option Scratch) (offset : Nat) :
    (c.patch base offset).isAtomic = c.isAtomic ∧
      (c.isAtomic = true → c.patch base offset = c) := by
  cases c with
  | setScratch old =>
      rw [patch]
      split <;> exact ⟨rfl, fun h => absurd h Bool.false_ne_true⟩
  | dispatch d => exact ⟨rfl, fun h => absurd h Bool.false_ne_true⟩
  | _ => exact ⟨rfl, fun _ => rfl⟩

/-- Patching scratch addresses leaves the additions alone. -/
theorem filter_patchAt (base : Option Scratch) (offset : Nat) (cs : List Pm4) :
    (patchAt base offset cs).filter isAtomic = cs.filter isAtomic := by
  induction cs generalizing offset with
  | nil => rfl
  | cons c cs ih =>
      rw [patchAt]
      split
      next =>
        obtain ⟨hsame, heq⟩ := c.isAtomic_patch base offset
        cases hc : c.isAtomic with
        | true => rw [heq hc]
        | false =>
            rw [List.filter_cons, List.filter_cons, hsame, hc]
            rfl
      next => rw [List.filter_cons, List.filter_cons, ih]

theorem filter_relocate (base : Option Scratch) (offsets : List Nat) (cs : List Pm4) :
    (offsets.foldl (fun ib o => patchAt base o ib) cs).filter isAtomic = cs.filter isAtomic := by
  induction offsets generalizing cs with
  | nil => rfl
  | cons o os ih => rw [List.foldl_cons, ih, filter_patchAt]

end Pm4

namespace ComputeQueue

/-- The header of the packet at the write index becomes `INVALID`, and nothing else in the ring
changes. -/
def Marks (q q' : ComputeQueue) : Prop :=
  q'.ring = fun i => if i = q.slot then (q.ring i).invalidate else q.ring i

/-- The queues agree on the ring and the place in it. -/
structure SameRing (q q' : ComputeQueue) : Prop where
  ring : q'.ring = q.ring
  slot : q'.slot = q.slot

theorem marks_accept {q q' : ComputeQueue} (S : SameRing q q') {written : List Pm4}
    (hs : (q'.accept written).status = .success) : Marks q (q'.accept written).queue := by
  rw [accept] at hs ⊢
  split at hs
  next => cases hs
  next hle =>
    rw [if_neg hle, Marks]
    simp only [S.ring, S.slot]

theorem sameRing_leaveSignal {q q' : ComputeQueue} (S : SameRing q q') (signal : Nat) :
    SameRing q (q'.leaveSignal signal) := by
  rw [leaveSignal]
  split
  · exact S
  · exact ⟨S.ring, S.slot⟩

theorem sameRing_updateScratch (q : ComputeQueue) (h : Host) (n : Nat) (wave32 : Bool) :
    SameRing q (q.updateScratch h n wave32) := by
  rw [updateScratch, reportOverflow]
  cases h.scratch with
  | none =>
      simp only [ite_self]
      split <;> exact ⟨rfl, rfl⟩
  | some addr =>
      simp only
      split <;> split <;> exact ⟨rfl, rfl⟩

theorem kernelDispatch_marks {q : ComputeQueue} {h : Host} {p : AqlPacket}
    (hs : (q.kernelDispatchAqlToPm4 h p).status = .success) :
    Marks q (q.kernelDispatchAqlToPm4 h p).queue := by
  rw [kernelDispatchAqlToPm4] at hs ⊢
  cases hk : q.checkKernelDispatch h p with
  | error status =>
      rw [hk] at hs
      exact absurd hs (checkKernelDispatch_error hk)
  | ok k =>
      rw [hk] at hs
      have S := q.sameRing_updateScratch h p.privateSegmentSize k.enableWavefrontSize32
      refine marks_accept ?_ hs
      split
      · apply sameRing_leaveSignal
        exact ⟨S.ring, S.slot⟩
      · exact ⟨S.ring, S.slot⟩

theorem barrierGeneric_marks {q : ComputeQueue} {h : Host} {p : AqlPacket}
    (hs : (q.barrierGenericAqlToPm4 h p).status = .success) :
    Marks q (q.barrierGenericAqlToPm4 h p).queue := by
  rw [barrierGenericAqlToPm4] at hs ⊢
  refine marks_accept ?_ hs
  split
  · apply sameRing_leaveSignal
    exact ⟨rfl, rfl⟩
  · exact ⟨rfl, rfl⟩

theorem vendorSpecific_marks {q : ComputeQueue} {h : Host} {p : AqlPacket}
    (hs : (q.vendorSpecificAqlToPm4 h p).status = .success) :
    Marks q (q.vendorSpecificAqlToPm4 h p).queue := by
  rw [vendorSpecificAqlToPm4] at hs ⊢
  refine marks_accept ?_ hs
  split
  · apply sameRing_leaveSignal
    exact ⟨rfl, rfl⟩
  · exact ⟨rfl, rfl⟩

end ComputeQueue

namespace Machine

open ComputeQueue

variable {m m' : Machine}

/-- The packet that was found is still there at the translation, and a vendor packet fits in its
frame. -/
def Consumable (m : Machine) : Event → Prop
  | .run h _ => m.pc = .switch → m.packet.type ≠ some .invalid ∧
      (m.packet.type = some .vendorSpecific → m.queue.VendorFits h m.packet)
  | _ => True

instance (m : Machine) : (e : Event) → Decidable (Consumable m e)
  | .run _ _ => inferInstanceAs (Decidable (_ → _))
  | .write _ _ | .ring _ | .complete => inferInstanceAs (Decidable True)

/-- The additions in what was submitted and in the indirect buffer under construction. -/
def atomics (m : Machine) : List Pm4 :=
  (m.submitted.flatMap Ib.cmds ++ m.queue.ib).filter Pm4.isAtomic

/-! ## One translation -/

/-- The step from `m` to `m'` translates the packet at the write index. -/
structure Consumes (m : Machine) (h : Host) (m' : Machine) : Prop where
  pc : m.pc = .switch
  marks : m.queue.Marks m'.queue
  writeIndex : m'.queue.writeIndex = m.queue.writeIndex + 1
  atomics : m'.atomics = m.atomics ++ (m.translation h).written.filter Pm4.isAtomic

theorem translation_marks {h : Host} (hs : (m.translation h).status = .success)
    (hne : m.packet.type ≠ some .invalid) : m.queue.Marks (m.translation h).queue := by
  rw [translation] at hs ⊢
  cases htype : m.packet.type with
  | none =>
      rw [htype] at hs
      cases hs
  | some type =>
      rw [htype] at hs
      cases type with
      | kernelDispatch => exact kernelDispatch_marks hs
      | barrierAnd => exact barrierGeneric_marks hs
      | barrierOr => exact barrierGeneric_marks hs
      | vendorSpecific => exact vendorSpecific_marks hs
      | invalid => exact absurd htype hne
      | agentDispatch => cases hs

/-- A packet whose status is not looked at is accepted if it fits. -/
theorem translation_unchecked_fits {h : Host} (hun : Unchecked m.packet)
    (hfits : m.packet.type = some .vendorSpecific → m.queue.VendorFits h m.packet) :
    Pm4.bytes (m.translation h).written ≤ m.queue.frameSize ∧
      (m.translation h).status = .success := by
  have hout : ∃ written, (m.translation h).written = written ∧
      Outcome m.queue written (m.translation h) ∧ Pm4.bytes written ≤ m.queue.frameSize := by
    rcases hun with htype | htype | htype
    · rw [translation_barrier h (Or.inl htype)]
      obtain ⟨hwritten, hout⟩ := m.queue.outcome_barrierGeneric h m.packet
      exact ⟨_, hwritten, hout, m.queue.bytes_barrierCommands h m.packet⟩
    · rw [translation_barrier h (Or.inr htype)]
      obtain ⟨hwritten, hout⟩ := m.queue.outcome_barrierGeneric h m.packet
      exact ⟨_, hwritten, hout, m.queue.bytes_barrierCommands h m.packet⟩
    · rw [translation_vendor h htype]
      obtain ⟨hwritten, hout⟩ := m.queue.outcome_vendorSpecific h m.packet
      exact ⟨_, hwritten, hout, (m.queue.bytes_vendorCommands_iff h m.packet).mpr (hfits htype)⟩
  obtain ⟨written, hwritten, hout, hle⟩ := hout
  exact ⟨hwritten ▸ hle, (hout.of_fits hle).1⟩

theorem consumes_of_accepts {h : Host} (hpc : m.pc = .switch)
    (hs : (m.translation h).status = .success) (hne : m.packet.type ≠ some .invalid)
    (hacc : m.queue.Accepts (m.translation h).written (m.translation h).queue)
    (hring : m'.queue.ring = (m.translation h).queue.ring)
    (hindex : m'.queue.writeIndex = (m.translation h).queue.writeIndex)
    (hib : m'.queue.ib = (m.translation h).queue.ib) (hsub : m'.submitted = m.submitted) :
    Consumes m h m' where
  pc := hpc
  marks := hring.trans (translation_marks hs hne)
  writeIndex := hindex.trans hacc.writeIndex
  atomics := by
    rw [atomics, atomics, hsub, hib, hacc.ib, ← List.append_assoc, List.filter_append]

/-! ## The round -/

/-- The thread has found a packet and has not translated it. -/
def Before (m : Machine) : Prop :=
  match m.pc with
  | .check | .wait _ | .switch => True
  | _ => False

/-- The thread has translated a packet and is not back at the head of the loop. -/
def Behind (m : Machine) : Prop :=
  match m.pc with
  | .merge _ | .submit | .signal _ => True
  | _ => False

/-- What the steps leave alone that translate no packet. -/
structure Kept (m m' : Machine) : Prop where
  writeIndex : m'.queue.writeIndex = m.queue.writeIndex
  atomics : m'.atomics = m.atomics
  before : m.Before → m'.Before
  behind : m.Behind → m'.Behind ∨ m'.pc = .head
  behind_of : m'.Behind → m.Behind

/-- The cases of a step of the thread. -/
inductive RoundStep (m : Machine) (h : Host) (m' : Machine) : Prop where
  | failed (status : HsaStatus) : m'.pc = .failed status → RoundStep m h m'
  | consumed : Consumes m h m' → m'.Behind → RoundStep m h m'
  | kept : m.pc ≠ .switch → Kept m m' → m'.queue.ring = m.queue.ring → RoundStep m h m'

theorem behind_afterSwitch {q : ComputeQueue} (hpc : m'.pc = afterSwitch q) :
    m'.Behind ∨ m'.pc = .head := by
  rw [afterSwitch] at hpc
  cases hready : q.readyToSubmit with
  | true =>
      rw [hready, if_pos rfl] at hpc
      refine Or.inl ?_
      rw [Behind, hpc]
      trivial
  | false =>
      rw [hready, if_neg Bool.false_ne_true] at hpc
      exact Or.inr hpc

theorem atomics_launch (m : Machine) : m.launch.atomics = m.atomics := by
  have hsub : m.launch.submitted = m.submitted ++ [currentIb m.queue.relocateCmdbufScratchBase] := by
    simp only [submitted, launch, List.append_assoc]
  have hcmds : (currentIb m.queue.relocateCmdbufScratchBase).cmds.filter Pm4.isAtomic =
      m.queue.ib.filter Pm4.isAtomic :=
    Pm4.filter_relocate ..
  have hib : m.launch.queue.ib = [] := rfl
  rw [atomics, atomics, hsub, hib, List.append_nil, List.flatMap_append, List.filter_append,
    List.filter_append, List.flatMap_singleton, hcmds]

theorem Kept.of_pc (hqueue : m'.queue = m.queue) (hsub : m'.submitted = m.submitted)
    (hbefore : m.Before → m'.Before) (hbehind : m.Behind → m'.Behind ∨ m'.pc = .head)
    (hof : m'.Behind → m.Behind) : Kept m m' where
  writeIndex := by rw [hqueue]
  atomics := by rw [Machine.atomics, Machine.atomics, hsub, hqueue]
  before := hbefore
  behind := hbehind
  behind_of := hof

theorem run_round {h : Host} {d : Driver} (hok : Consumable m (.run h d))
    (hres : RunResult m h m') : RoundStep m h m' := by
  cases hres with
  | enter hpc | next hpc _ | leave hpc _ | full hpc _ | free hpc _ | waited value hpc _ =>
      refine .kept ?_ (.of_pc rfl rfl ?_ ?_ ?_) rfl <;> simp [Before, Behind, hpc]
  | switch hpc hsw =>
      obtain ⟨hne, hfits⟩ := hok hpc
      cases hsw with
      | kernel htype hs hacc =>
          exact .consumed (consumes_of_accepts hpc hs hne hacc rfl rfl rfl rfl) trivial
      | accepted hun hacc =>
          have hs := (translation_unchecked_fits hun hfits).2
          exact .consumed (consumes_of_accepts hpc hs hne hacc rfl rfl rfl rfl) trivial
      | rejected hun hgt _ =>
          exact absurd hgt (Nat.not_lt.mpr (translation_unchecked_fits hun hfits).1)
      | invalid htype => exact absurd htype hne
      | failed q status _ => exact .failed status rfl
  | merge slot hpc _ =>
      have hbehind : Behind { m with
            pc := afterSwitch m.queue, lastTest := some (m.mergeTest slot) } ∨
          afterSwitch m.queue = .head :=
        behind_afterSwitch rfl
      refine .kept ?_ (.of_pc rfl rfl ?_ (fun _ => hbehind) ?_) rfl <;> simp [Before, Behind, hpc]
  | close slot hpc _ =>
      refine .kept ?_ ⟨rfl, rfl, ?_, ?_, ?_⟩ rfl <;> simp [Before, Behind, hpc]
  | submit hpc =>
      refine .kept ?_ ⟨rfl, m.atomics_launch, ?_, ?_, ?_⟩ rfl <;> simp [Before, Behind, hpc]
  | submitSignal hpc _ =>
      refine .kept ?_ ⟨rfl, m.atomics_launch, ?_, ?_, ?_⟩ rfl <;> simp [Before, Behind, hpc]
  | signalled value hpc _ =>
      refine .kept ?_ ⟨rfl, rfl, ?_, ?_, ?_⟩ rfl <;> simp [Before, Behind, hpc]
  | failed status => exact .failed status rfl
  | failedSubmit => exact .failed .error rfl

/-- What the client and the GPU do between two steps of the thread. -/
theorem other_kept {e : Event} (hs : m.step e = some m') (hother : ∀ h d, e ≠ .run h d) :
    Kept m m' ∧ m'.pc = m.pc := by
  cases step_result hs with
  | write slot p heq =>
      subst heq
      exact ⟨⟨rfl, rfl, id, Or.inl, id⟩, rfl⟩
  | ring wptr heq =>
      subst heq
      exact ⟨⟨rfl, rfl, id, Or.inl, id⟩, rfl⟩
  | complete ib rest hfl heq =>
      subst heq
      have hsub : m.completed ++ [ib] ++ rest = m.submitted := by
        rw [submitted, hfl, List.append_assoc, List.singleton_append]
      refine ⟨⟨rfl, ?_, id, Or.inl, id⟩, rfl⟩
      show ((m.completed ++ [ib] ++ rest).flatMap Ib.cmds ++ m.queue.ib).filter _ = _
      rw [hsub, atomics]
  | run h d => exact absurd rfl (hother h d)

/-- The thread is in a round. -/
def InRound (m : Machine) : Prop := m.Before ∨ m.Behind

/-- A step of a round that translates no packet: the write index and what is signalled stay as they
are, and so does the ring where it is the thread that takes the step. -/
def Keeps (m : Machine) (e : Event) : Prop :=
  ∀ m', m.step e = some m' → m'.queue.writeIndex = m.queue.writeIndex ∧ m'.atomics = m.atomics ∧
    ((∃ h d, e = .run h d) → m'.queue.ring = m.queue.ring)

theorem keeps_of_kept {e : Event} (hs : m.step e = some m') (K : Kept m m')
    (hring : (∃ h d, e = .run h d) → m'.queue.ring = m.queue.ring) : Keeps m e := by
  intro m₁ hm₁
  rw [hs] at hm₁
  cases hm₁
  exact ⟨K.writeIndex, K.atomics, hring⟩

/-- In the round from `m` to `m'` the thread translates exactly one packet, the one at the write
index. -/
structure Consumed (m m' : Machine) : Prop where
  once : ∃ a h d b, Reach step Keeps m a ∧ a.step (.run h d) = some b ∧
    a.queue.writeIndex = m.queue.writeIndex ∧ Consumes a h b ∧ Reach step Keeps b m'
  writeIndex : m'.queue.writeIndex = m.queue.writeIndex + 1

theorem writeIndex_keeps (h : Reach step Keeps m m') :
    m'.queue.writeIndex = m.queue.writeIndex := by
  induction h with
  | start => rfl
  | step _ hkeeps hs ih => exact (hkeeps _ hs).1.trans ih

/-- Where a round that has begun at `m` can be. -/
inductive RoundAt (m m' : Machine) : Prop where
  | before : m'.Before → Reach step Keeps m m' → RoundAt m m'
  | behind (a : Machine) (h : Host) (d : Driver) (b : Machine) : m'.Behind ∨ m'.pc = .head →
      Reach step Keeps m a → a.step (.run h d) = some b → Consumes a h b → Reach step Keeps b m' →
      RoundAt m m'
  | failed (status : HsaStatus) : m'.pc = .failed status → RoundAt m m'

theorem not_behind_of_before (h : m.Before) : ¬ m.Behind := by
  intro h'
  rw [Before] at h
  rw [Behind] at h'
  cases hpc : m.pc <;> rw [hpc] at h h' <;> first | exact h | exact h'

theorem RoundAt.kept {m₀ : Machine} {e : Event} (R : RoundAt m₀ m) (hin : m.InRound)
    (hs : m.step e = some m') (K : Kept m m') (hkeeps : Keeps m e) : RoundAt m₀ m' := by
  cases R with
  | before hbefore hreach => exact .before (K.before hbefore) (.step hreach hkeeps hs)
  | behind a h d b hbehind ha hstep hcons hb =>
      refine .behind a h d b ?_ ha hstep hcons (.step hb hkeeps hs)
      cases hbehind with
      | inl hbehind => exact K.behind hbehind
      | inr hhead =>
          rw [InRound, Before, Behind, hhead] at hin
          exact False.elim (hin.elim id id)
  | failed status hpc =>
      rw [InRound, Before, Behind, hpc] at hin
      exact False.elim (hin.elim id id)

theorem RoundAt.step {m₀ : Machine} {e : Event} (R : RoundAt m₀ m) (hin : m.InRound)
    (hok : Consumable m e) (hs : m.step e = some m') : RoundAt m₀ m' := by
  by_cases hrun : ∃ h d, e = .run h d
  · obtain ⟨h, d, rfl⟩ := hrun
    cases run_round hok (runStep_result hs) with
    | failed status hpc => exact .failed status hpc
    | kept _ K hring => exact R.kept hin hs K (keeps_of_kept hs K fun _ => hring)
    | consumed C hbehind =>
        have hbefore : m.Before := by
          rw [Before, C.pc]
          trivial
        cases R with
        | before _ hreach => exact .behind m h d m' (Or.inl hbehind) hreach hs C .start
        | behind a h' d' b hb _ _ _ _ =>
            cases hb with
            | inl hb => exact absurd hb (not_behind_of_before hbefore)
            | inr hhead =>
                rw [C.pc] at hhead
                cases hhead
        | failed status hpc =>
            rw [C.pc] at hpc
            cases hpc
  · have K := (other_kept hs fun h d heq => hrun ⟨h, d, heq⟩).1
    exact R.kept hin hs K (keeps_of_kept hs K fun h => absurd h hrun)

/-- A round that comes back to the head of the loop has consumed one packet. -/
theorem round_consumed (hpc : m.pc = .check)
    (h : Reach step (fun m e => m.InRound ∧ Consumable m e) m m') (hend : m'.pc = .head) :
    Consumed m m' := by
  have hbefore : m.Before := by
    rw [Before, hpc]
    trivial
  have R : RoundAt m m' :=
    h.invariant (.before hbefore .start) fun _ _ _ R hin hs => R.step hin.1 hin.2 hs
  cases R with
  | before hb _ =>
      rw [Before, hend] at hb
      exact False.elim hb
  | behind a host d b _ ha hs hcons hb =>
      refine ⟨⟨a, host, d, b, ha, hs, writeIndex_keeps ha, hcons, hb⟩, ?_⟩
      rw [writeIndex_keeps hb, hcons.writeIndex, writeIndex_keeps ha]
  | failed status hfailed =>
      rw [hend] at hfailed
      cases hfailed

/-! ## Runs -/

/-- A thread that has ended takes no further step. -/
theorem failed_step {e : Event} {status : HsaStatus} (hpc : m.pc = .failed status)
    (hs : m.step e = some m') : m'.pc = .failed status := by
  by_cases hrun : ∃ h d, e = .run h d
  · obtain ⟨h, d, rfl⟩ := hrun
    have hnone : m.runStep h d = none := by
      rw [runStep, hpc]
    rw [Machine.step, hnone] at hs
    cases hs
  · rw [(other_kept hs fun h d heq => hrun ⟨h, d, heq⟩).2, hpc]

/-- A step moves the write index by one, to a point behind the translation, or leaves it. -/
theorem step_writeIndex {e : Event} (hok : Consumable m e) (hs : m.step e = some m')
    (hne : ∀ status, m'.pc ≠ .failed status) :
    m'.queue.writeIndex = m.queue.writeIndex + 1 ∨
      m'.queue.writeIndex = m.queue.writeIndex ∧ (m'.Behind → m.Behind) := by
  by_cases hrun : ∃ h d, e = .run h d
  · obtain ⟨h, d, rfl⟩ := hrun
    cases run_round hok (runStep_result hs) with
    | failed status hpc => exact absurd hpc (hne status)
    | kept _ K _ => exact Or.inr ⟨K.writeIndex, K.behind_of⟩
    | consumed C _ => exact Or.inl C.writeIndex
  · have K := (other_kept hs fun h d heq => hrun ⟨h, d, heq⟩).1
    exact Or.inr ⟨K.writeIndex, K.behind_of⟩

/-- The write index does not go back, and it has moved on where a further packet is
translated. -/
theorem run_writeIndex (h : Reach step Consumable m m') (hne : ∀ status, m'.pc ≠ .failed status) :
    m.queue.writeIndex ≤ m'.queue.writeIndex ∧
      (¬ m.Behind → m'.Behind → m.queue.writeIndex < m'.queue.writeIndex) := by
  induction h with
  | start => exact ⟨Nat.le_refl _, fun hnot h => absurd h hnot⟩
  | @step m₁ m₂ e _ hok hs ih =>
      obtain ⟨hle, hlt⟩ := ih fun status hpc => hne status (failed_step hpc hs)
      cases step_writeIndex hok hs hne with
      | inl hsucc =>
          rw [hsucc]
          exact ⟨Nat.le_succ_of_le hle, fun _ _ => Nat.lt_succ_of_le hle⟩
      | inr hsame =>
          rw [hsame.1]
          exact ⟨hle, fun hnot hb => hlt hnot (hsame.2 hb)⟩

/-! ## Fence values -/

/-- The indirect buffers hold the packets in order, none of them twice, and the thread waits for
the last of them. -/
structure Ordered (m : Machine) : Prop where
  chain : Chain (fun a ib b => ib.first = a ∧ ib.fence = b ∧ a < b) 0 m.submitted m.queue.syncPoint
  le : m.queue.syncPoint ≤ m.queue.writeIndex
  ahead : (∃ slot, m.pc = .merge slot) ∨ m.pc = .submit → m.queue.syncPoint < m.queue.writeIndex
  signal : ∀ value, m.pc = .signal value → value = m.queue.writeIndex

theorem Ordered.of_pc (O : Ordered m) (hsub : m'.submitted = m.submitted)
    (hsync : m'.queue.syncPoint = m.queue.syncPoint)
    (hindex : m'.queue.writeIndex = m.queue.writeIndex)
    (hahead : (∃ slot, m'.pc = .merge slot) ∨ m'.pc = .submit →
      m.queue.syncPoint < m.queue.writeIndex)
    (hsignal : ∀ value, m'.pc = .signal value → value = m.queue.writeIndex) : Ordered m' where
  chain := by
    rw [hsub, hsync]
    exact O.chain
  le := by
    rw [hsync, hindex]
    exact O.le
  ahead := by
    rw [hsync, hindex]
    exact hahead
  signal := by
    rw [hindex]
    exact hsignal

/-- A packet was accepted. -/
theorem Ordered.accept (O : Ordered m) {written : List Pm4} (hacc : m.queue.Accepts written m'.queue)
    (hsub : m'.submitted = m.submitted) (hsignal : ∀ value, m'.pc ≠ .signal value) : Ordered m' where
  chain := by
    rw [hsub, hacc.syncPoint]
    exact O.chain
  le := by
    rw [hacc.syncPoint, hacc.writeIndex]
    exact Nat.le_succ_of_le O.le
  ahead := fun _ => by
    rw [hacc.syncPoint, hacc.writeIndex]
    exact Nat.lt_succ_of_le O.le
  signal := fun value hpc => absurd hpc (hsignal value)

/-- The indirect buffer is given to the driver. -/
theorem Ordered.launch (O : Ordered m) (hpc : m.pc = .submit)
    (hsub : m'.submitted = m.launch.submitted) (hsync : m'.queue.syncPoint = m.queue.writeIndex)
    (hindex : m'.queue.writeIndex = m.queue.writeIndex)
    (hnot : ¬ ((∃ slot, m'.pc = .merge slot) ∨ m'.pc = .submit))
    (hsignal : ∀ value, m'.pc = .signal value → value = m.queue.writeIndex) : Ordered m' where
  chain := by
    have happ : m.launch.submitted = m.submitted ++ [currentIb m.queue.relocateCmdbufScratchBase] := by
      simp only [submitted, Machine.launch, List.append_assoc]
    rw [hsub, hsync, happ]
    exact O.chain.concat ⟨rfl, rfl, O.ahead (Or.inr hpc)⟩
  le := by rw [hsync, hindex]
  ahead := fun h => absurd h hnot
  signal := by
    rw [hindex]
    exact hsignal

theorem run_ordered {h : Host} {d : Driver} (O : Ordered m) (hok : Consumable m (.run h d))
    (hres : RunResult m h m') : Ordered m' := by
  cases hres with
  | enter | next | leave | full | free | waited | signalled | failed | failedSubmit =>
      exact O.of_pc rfl rfl rfl (by simp) (by simp)
  | switch hpc hsw =>
      obtain ⟨hne, hfits⟩ := hok hpc
      cases hsw with
      | kernel _ _ hacc => exact O.accept hacc rfl (by simp)
      | accepted _ hacc =>
          have hacc' : m.queue.Accepts (m.translation h).written
              { (m.translation h).queue with readyToSubmit := true } :=
            ⟨hacc.fits, hacc.device, hacc.cmdbufAddr, hacc.ibStartAddr, hacc.ibSize, hacc.ib,
              hacc.syncPoint, hacc.writeIndex⟩
          exact O.accept hacc' rfl (by simp)
      | rejected hun hgt _ =>
          exact absurd hgt (Nat.not_lt.mpr (translation_unchecked_fits hun hfits).1)
      | invalid htype => exact absurd htype hne
      | failed q status hsame =>
          exact O.of_pc rfl hsame.syncPoint hsame.writeIndex (by simp) (by simp)
  | merge slot hpc _ =>
      refine O.of_pc rfl rfl rfl (fun _ => O.ahead (Or.inl ⟨slot, hpc⟩)) ?_
      intro value hsignal
      simp only [afterSwitch] at hsignal
      split at hsignal <;> cases hsignal
  | close slot hpc _ =>
      exact O.of_pc rfl rfl rfl (fun _ => O.ahead (Or.inl ⟨slot, hpc⟩)) (by simp)
  | submit hpc => exact O.launch hpc rfl rfl rfl (by simp) (by simp)
  | submitSignal hpc _ => exact O.launch hpc rfl rfl rfl (by simp) (by simp)

theorem step_ordered {e : Event} (O : Ordered m) (hok : Consumable m e) (hs : m.step e = some m') :
    Ordered m' := by
  cases step_result hs with
  | write slot p heq =>
      subst heq
      exact O.of_pc rfl rfl rfl O.ahead O.signal
  | ring wptr heq =>
      subst heq
      exact O.of_pc rfl rfl rfl O.ahead O.signal
  | complete ib rest hfl heq =>
      subst heq
      refine O.of_pc ?_ rfl rfl O.ahead O.signal
      show m.completed ++ [ib] ++ rest = m.submitted
      rw [submitted, hfl, List.append_assoc, List.singleton_append]
  | run h d hs => exact run_ordered O hok (runStep_result hs)

theorem fences_increasing {a b : Nat} {ibs : List Ib}
    (h : Chain (fun a ib b => ib.first = a ∧ ib.fence = b ∧ a < b) a ibs b) :
    (ibs.map Ib.fence).Pairwise (· < ·) ∧ ∀ ib ∈ ibs, a < ib.fence := by
  induction ibs generalizing a with
  | nil => exact ⟨.nil, fun ib hib => absurd hib List.not_mem_nil⟩
  | cons ib ibs ih =>
      obtain ⟨c, ⟨_, hfence, hlt⟩, hrest⟩ := h
      obtain ⟨hpair, hall⟩ := ih hrest
      rw [List.map_cons, List.pairwise_cons, List.forall_mem_map, List.forall_mem_cons, hfence]
      exact ⟨⟨hall, hpair⟩, hlt, fun x hx => Nat.lt_trans hlt (hall x hx)⟩

/-- In every run in which vendor packets fit and no packet is taken back: each round of the loop
that does not end with an error consumes exactly one packet; fence values increase strictly, and
the indirect buffers hold consecutive packets; and no packet is translated, or its signal
decremented, a second time. -/
theorem consumed_once {device : Device} {ringSize : Nat} {ring : Nat → AqlPacket}
    {cmdbufAddr : Nat} (h : Reach step Consumable (init device ringSize ring cmdbufAddr) m) :
    (m.pc = .check → ∀ m', Reach step (fun m e => m.InRound ∧ Consumable m e) m m' →
      m'.pc = .head → Consumed m m') ∧
    (m.submitted.map Ib.fence).Pairwise (· < ·) ∧
    Chain (fun a ib b => ib.first = a ∧ ib.fence = b ∧ a < b) 0 m.submitted m.queue.syncPoint ∧
    (m.pc = .switch → ∀ host d m₁, m.step (.run host d) = some m₁ → Consumable m (.run host d) →
      ∀ m', Reach step Consumable m₁ m' → m'.pc = .switch →
        m.queue.writeIndex < m'.queue.writeIndex) ∧
    ∀ value, m.pc = .signal value → ∀ e m₁, m.step e = some m₁ → m₁.pc = .head →
      ∀ m', Reach step Consumable m₁ m' → ∀ value', m'.pc = .signal value' → value < value' := by
  have horder : ∀ m, Reach step Consumable (init device ringSize ring cmdbufAddr) m → Ordered m := by
    intro m hm
    refine hm.invariant ⟨rfl, Nat.le_refl _, ?_, ?_⟩ fun _ _ _ O hok hs => step_ordered O hok hs
    · simp [init]
    · simp [init]
  have O := horder m h
  refine ⟨fun hpc m' hround hend => round_consumed hpc hround hend, (fences_increasing O.chain).1,
    O.chain, ?_, ?_⟩
  · intro hpc host d m₁ hs hok m' hrun hend
    have hne : ∀ status, m'.pc ≠ .failed status := by
      intro status
      rw [hend]
      exact Pc.noConfusion
    have hle := (run_writeIndex hrun hne).1
    cases run_round hok (runStep_result hs) with
    | consumed C _ =>
        rw [C.writeIndex] at hle
        exact hle
    | kept hnot _ _ => exact absurd hpc hnot
    | failed status hfailed =>
        have hstays : m'.pc = .failed status :=
          hrun.invariant (I := fun m => m.pc = .failed status) hfailed
            fun _ _ _ hI _ hs => failed_step hI hs
        exact absurd hstays (hne status)
  · intro value hpc e m₁ hs hhead m' hrun value' hend
    have hok : Consumable m e := by
      cases e with
      | run host d =>
          intro hswitch
          rw [hpc] at hswitch
          cases hswitch
      | _ => trivial
    have hne : ∀ {m : Machine} {pc : Pc}, m.pc = pc → (∀ status, pc ≠ .failed status) →
        ∀ status, m.pc ≠ .failed status := by
      intro m pc hm hpc status
      rw [hm]
      exact hpc status
    have hlt := (run_writeIndex hrun (hne hend fun _ => Pc.noConfusion)).2 (by simp [Behind, hhead])
      (by simp [Behind, hend])
    have hvalue : m.queue.writeIndex ≤ m₁.queue.writeIndex := by
      cases step_writeIndex hok hs (hne hhead fun _ => Pc.noConfusion) with
      | inl hsucc => omega
      | inr hsame => exact Nat.le_of_eq hsame.1.symm
    rw [O.signal value hpc, (horder m' ((h.step hok hs).trans hrun)).signal value' hend]
    exact Nat.lt_of_le_of_lt hvalue hlt

/-- A kernel dispatch and a barrier packet are consumed one after the other. -/
theorem consumed_once_run :
    ∃ m, Reach step Consumable (init sampleDevice 4
        (fun i => if i = 0 then sampleKernel 0x9000 0 else { header := 3 }) 0x100000) m ∧
      m.submitted.map Ib.fence = [1, 2] ∧ (m.submitted.map Ib.fence).Pairwise (· < ·) := by
  have hrun : (runAll step Consumable (init sampleDevice 4
      (fun i => if i = 0 then sampleKernel 0x9000 0 else { header := 3 }) 0x100000)
      (.ring 2 :: runs 0 10)).map (fun m => m.submitted.map Ib.fence) = some [1, 2] := by
    decide
  obtain ⟨m, hm, hfences⟩ := Option.map_eq_some_iff.mp hrun
  have hreach := reach_of_runAll hm
  exact ⟨m, hreach, hfences, (consumed_once hreach).2.1⟩

/-- A vendor packet whose commands are one dword longer than a frame is submitted again and again,
with the same fence value. -/
theorem vendor_submitted_twice :
    ¬ ∀ (ring : Nat → AqlPacket) (m : Machine),
      Reach step (fun _ _ => True) (init sampleDevice 4 ring 0x100000) m →
      (m.submitted.map Ib.fence).Pairwise (· < ·) := by
  intro hall
  have hrun : (runAll step (fun _ _ => True)
      (init sampleDevice 4 (fun _ => { header := 0, ibJumpCmd1 := 0x2000, ibJumpCmd3 := 128 })
        0x100000)
      (.ring 1 :: runs 0 9)).map (fun m => m.submitted.map Ib.fence) = some [0, 0] := by
    decide
  obtain ⟨m, hm, hfences⟩ := Option.map_eq_some_iff.mp hrun
  have hpair := hall _ m (reach_of_runAll hm)
  rw [hfences] at hpair
  exact absurd hpair (by decide)

end Machine

end RocDxg
