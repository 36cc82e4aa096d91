import RocDxg.Queue.SdmaThread

/-!
# The doorbells of an SDMA queue

What becomes of the pairs that `RingDoorbell` queues.  They are consecutive ranges of ring indices
between one doorbell and the next, and the thread submits them in that order, each once, whether the
driver accepts them or not.  The pairs that are still in the queue when the destructor stops the
thread are dropped: the thread looks at `thread_stop_` before it swaps the queue out.
-/

namespace RocDxg

open Lib (Chain Reach runAll reach_of_runAll)

/-! ## What is rung and what is submitted -/

namespace SdmaQueue

variable {r : SdmaRing} {q q' : SdmaQueue}

/-- The pair of ring indices that an IB was submitted for. -/
def pairOf (ib : SdmaIb) : Nat × Nat := (ib.rptrNext - ib.size, ib.rptrNext)

/-- The pairs that were submitted and those that were not follow one another, and end where the
doorbells were rung.  Each IB starts where its pair does. -/
structure Accounted (r : SdmaRing) (q : SdmaQueue) : Prop where
  submitted : Chain Follows 0 (q.submissions.map pairOf) q.rptrNext
  pending : Chain Follows q.rptrNext q.unsubmitted q.tail
  doorbells : (q.submissions.map pairOf ++ q.unsubmitted).map Prod.snd = q.doorbells
  starts : ∀ ib ∈ q.submissions, ib.startAddr = r.cmdbufAddr + r.wrapIntoRocrRing (pairOf ib).1
  behind : q.wptrPre ≤ q.wptrNext
  bound : q.wptrNext < 2 ^ 64

theorem accounted_new : Accounted r {} :=
  ⟨rfl, rfl, rfl, fun _ h => absurd h List.not_mem_nil, Nat.le_refl 0, by decide⟩

/-- A step that touches neither the pairs nor the submissions. -/
theorem Accounted.frame (A : Accounted r q) (hsub : q'.submissions = q.submissions)
    (hbell : q'.doorbells = q.doorbells) (hrptr : q'.rptrNext = q.rptrNext)
    (hpairs : q'.unsubmitted = q.unsubmitted) (htail : q'.tail = q.tail)
    (hbehind : q'.wptrPre ≤ q'.wptrNext) (hbound : q'.wptrNext < 2 ^ 64) : Accounted r q' where
  submitted := by
    rw [hsub, hrptr]
    exact A.submitted
  pending := by
    rw [hrptr, hpairs, htail]
    exact A.pending
  doorbells := by
    rw [hsub, hpairs, hbell]
    exact A.doorbells
  starts := by
    rw [hsub]
    exact A.starts
  behind := hbehind
  bound := hbound

theorem Accounted.ringDoorbell (A : Accounted r q) (hidle : q.client = .idle) :
    Accounted r q.ringDoorbell where
  submitted := A.submitted
  pending := by
    have htail : q.tail = q.wptrPre := by rw [tail, hidle]
    have h := A.pending
    rw [htail] at h
    have hlist : q.ringDoorbell.unsubmitted = q.unsubmitted ++ [(q.wptrPre, q.wptrNext)] := by
      simp [unsubmitted, SdmaQueue.ringDoorbell]
    rw [hlist]
    exact h.concat ⟨rfl, A.behind, rfl⟩
  doorbells := by
    have h := A.doorbells
    simp only [List.map_append] at h
    simp [unsubmitted, SdmaQueue.ringDoorbell, ← h]
  starts := A.starts
  behind := A.behind
  bound := A.bound

theorem Accounted.tail_le (A : Accounted r q) : q.tail ≤ q.wptrNext := by
  rw [tail]
  split
  · exact A.behind
  · exact Nat.le_refl _

/-- A submission, whether it is accepted or not. -/
theorem Accounted.submitPair (A : Accounted r q) {pkt start finish : Nat} {rest : List (Nat × Nat)}
    (ht : q.thread = .running pkt start finish rest) (ok : Bool) :
    Accounted r (SdmaQueue.submitPair r q start finish rest ok) := by
  have hpending := A.pending
  have hdoorbells := A.doorbells
  rw [unsubmitted, ht] at hpending hdoorbells
  obtain ⟨c, ⟨hstart, hle, hfinish⟩, hrest⟩ := hpending
  have hstart : start = q.rptrNext := hstart
  have hle : start ≤ finish := hle
  have hfinish : finish = c := hfinish
  subst hfinish
  have hend : finish ≤ q.tail := (hrest.bounds fun a x b hx => by
    obtain ⟨ha, hab, hb⟩ := hx
    omega).1
  have hlt : finish < 2 ^ 64 := Nat.lt_of_le_of_lt (Nat.le_trans hend A.tail_le) A.bound
  have hsize : sub64 finish start = finish - start := sub64_of_le hle hlt
  have hnext : u64 (q.rptrNext + (finish - start)) = finish := by
    rw [← hstart, Nat.add_sub_cancel' hle, u64_of_lt hlt]
  have haddr : u64 (r.cmdbufAddr + r.wrapIntoRocrRing start) =
      r.cmdbufAddr + r.wrapIntoRocrRing start := by
    refine u64_of_lt ?_
    have := wrapIntoRocrRing_lt (r := r) start
    have := r.fits
    omega
  have hsubmit : ∀ offset size, ((preparePacket r q offset size).submit ok).submissions =
      q.submissions ++ [⟨u64 (r.cmdbufAddr + offset), size, u64 (q.rptrNext + size), ok⟩] ∧
      ((preparePacket r q offset size).submit ok).rptrNext = u64 (q.rptrNext + size) :=
    fun _ _ => ⟨rfl, rfl⟩
  have hsub : (SdmaQueue.submitPair r q start finish rest ok).submissions = _ :=
    (hsubmit (r.wrapIntoRocrRing start) (sub64 finish start)).1
  have hrptr : (SdmaQueue.submitPair r q start finish rest ok).rptrNext = _ :=
    (hsubmit (r.wrapIntoRocrRing start) (sub64 finish start)).2
  rw [hsize, hnext, haddr] at hsub
  rw [hsize, hnext] at hrptr
  have hpair : pairOf ⟨r.cmdbufAddr + r.wrapIntoRocrRing start, finish - start, finish, ok⟩ =
      (start, finish) := by
    rw [pairOf, Nat.sub_sub_self hle]
  obtain ⟨hpre, hwptr, htail, hbell, hpairs⟩ := submitPair_frame r q start finish rest ok
  refine ⟨?_, ?_, ?_, ?_, ?_, ?_⟩
  · rw [hsub, hrptr, List.map_append, List.map_singleton, hpair]
    exact A.submitted.concat ⟨hstart, hle, rfl⟩
  · rw [hrptr, hpairs, htail]
    exact hrest
  · rw [hsub, hpairs, hbell, ← hdoorbells]
    simp [SdmaThread.pendings, hpair]
  · intro ib hib
    rw [hsub] at hib
    rcases List.mem_append.mp hib with hold | hnew
    · exact A.starts ib hold
    · rw [List.mem_singleton.mp hnew, hpair]
  · rw [hpre, hwptr]
    exact A.behind
  · rw [hwptr]
    exact A.bound

theorem Accounted.step (A : Accounted r q) {e : SdmaEvent} (h : step r q e = some q') :
    Accounted r q' := by
  cases e with
  | store addr value =>
      cases h
      exact A.frame rfl rfl rfl rfl rfl A.behind A.bound
  | writeWptr w =>
      rw [SdmaQueue.step] at h
      split at h
      next hw =>
        cases h
        have htail : ({ q with wptrNext := w } : SdmaQueue).tail = q.tail := by
          simp only [tail, hw.1]
        exact A.frame rfl rfl rfl rfl htail (Nat.le_trans A.behind hw.2.1) hw.2.2.2
      next => cases h
  | ringDoorbell =>
      rw [SdmaQueue.step] at h
      split at h
      next hidle =>
        cases h
        exact A.ringDoorbell hidle
      next => cases h
  | ringReturn =>
      rw [SdmaQueue.step] at h
      split at h
      next hring =>
        cases h
        have htail : q.ringReturn.tail = q.tail := by simp only [tail, ringReturn, hring]
        exact A.frame rfl rfl rfl rfl htail (Nat.le_refl _) A.bound
      next => cases h
  | stop =>
      cases h
      exact A.frame rfl rfl rfl rfl rfl A.behind A.bound
  | swap =>
      rw [SdmaQueue.step] at h
      split at h
      next hswap =>
        cases h
        have hpairs : ({ q with thread := r.thread q.wptrQueue, wptrQueue := [] } :
            SdmaQueue).unsubmitted = q.unsubmitted := by
          simp only [unsubmitted, pendings_thread, hswap.1, List.append_nil]
          rfl
        exact A.frame rfl rfl rfl hpairs rfl A.behind A.bound
      next => cases h
  | poll =>
      rw [SdmaQueue.step] at h
      split at h
      next pkt start finish rest ht =>
        split at h
        next =>
          cases h
          rw [SdmaQueue.poll]
          split
          all_goals
            refine A.frame rfl rfl rfl ?_ rfl A.behind A.bound
            simp only [clear, unsubmitted, ht, SdmaThread.pendings]
        next => cases h
      next => cases h
  | submit ok =>
      rw [SdmaQueue.step] at h
      split at h
      next pkt start finish rest ht =>
        split at h
        next => cases h
        next =>
          cases h
          exact A.submitPair ht ok
      next => cases h
  | exit =>
      rw [SdmaQueue.step] at h
      split at h
      next hexit =>
        cases h
        have hpairs : ({ q with thread := .exited } : SdmaQueue).unsubmitted = q.unsubmitted := by
          simp [unsubmitted, hexit.1, SdmaThread.pendings]
        exact A.frame rfl rfl rfl hpairs rfl A.behind A.bound
      next => cases h
  | complete ib =>
      rw [SdmaQueue.step] at h
      split at h
      next =>
        cases h
        exact A.frame rfl rfl rfl rfl rfl A.behind A.bound
      next => cases h

end SdmaQueue

/-! ## Whole runs -/

namespace SdmaSystem

variable {r : SdmaRing} {s : SdmaSystem}

/-- In every run the pairs that are submitted, in the order of the submissions, and those that are
not, in the order of the queue, are the consecutive ranges between the doorbells that were rung,
each once.  The thread does not wait with a pair unsubmitted, except before the notification for
it, nor while the destructor joins it.  What the destructor leaves is the queue itself: a pair
that was rung and not swapped out is dropped. -/
theorem doorbells_submitted (h : Reach (step r) (fun _ _ => True) {} s) :
    Chain SdmaQueue.Follows 0 (s.queue.submissions.map SdmaQueue.pairOf ++ s.queue.unsubmitted)
      s.queue.tail ∧
    (s.queue.submissions.map SdmaQueue.pairOf ++ s.queue.unsubmitted).map Prod.snd =
      s.queue.doorbells ∧
    (∀ ib ∈ s.queue.submissions,
      ib.startAddr = r.cmdbufAddr + r.wrapIntoRocrRing (SdmaQueue.pairOf ib).1) ∧
    (s.pc = .waiting → s.bell ≠ .queued → s.queue.unsubmitted = []) ∧
    (s.teardown = .joining → s.pc ≠ .waiting) ∧
    (s.teardown = .joined → s.queue.unsubmitted = s.queue.wptrQueue ∧
      ∀ ok, s.step r (.thread ok) = none) := by
  have I := inv_of_reach h
  have hqueue : Reach (SdmaQueue.step r) (fun _ _ => True) {} s.queue :=
    queue_reach (h.mono fun _ _ _ _ _ => trivial)
  have A : SdmaQueue.Accounted r s.queue :=
    hqueue.invariant SdmaQueue.accounted_new fun _ _ _ A _ hs => A.step hs
  have hthread := I.placed.thread
  refine ⟨Chain.append.mpr ⟨_, A.submitted, A.pending⟩, A.doorbells, A.starts,
    fun hpc hbell => ?_, fun htear hpc => ?_, fun htear => ?_⟩
  · rw [hpc] at hthread
    have hat : s.queue.thread = .waiting := hthread
    rw [SdmaQueue.unsubmitted, hat, (I.waits.queued hpc).resolve_right hbell]
    rfl
  · have hstop : s.queue.threadStop = true :=
      I.waits.stop.mpr ⟨by simp [htear], by simp [htear]⟩
    have hcases := I.waits.stopping hpc
    simp [htear, hstop] at hcases
  · have hpc := I.waits.joined htear
    rw [hpc] at hthread
    have hat : s.queue.thread = .exited := hthread
    refine ⟨?_, fun ok => ?_⟩
    · rw [SdmaQueue.unsubmitted, hat]
      rfl
    · simp only [step, threadStep, hpc]

/-- The destructor comes before the thread has taken up the second pair, and the pair is lost. -/
theorem doorbells_submitted_dropped :
    ∃ s, Reach (step SdmaQueue.smallRing) (fun _ _ => True) {} s ∧ s.teardown = .joined ∧
      s.queue.wptrQueue = [(32, 48)] ∧ s.queue.unsubmitted = s.queue.wptrQueue := by
  have hrun : (runAll (step SdmaQueue.smallRing) (fun _ _ => True) {}
      (ringTwice ++ List.replicate 4 .destroy ++ List.replicate 5 (.thread true) ++
        [.destroy])).map (fun s => (s.teardown, s.queue.wptrQueue)) =
      some (.joined, [(32, 48)]) := by
    decide
  obtain ⟨s, hs, heq⟩ := Option.map_eq_some_iff.mp hrun
  obtain ⟨htear, hqueue⟩ := Prod.mk.inj heq
  have hreach := reach_of_runAll hs
  exact ⟨s, hreach, htear, hqueue, ((doorbells_submitted hreach).2.2.2.2.2 htear).1⟩

end SdmaSystem

end RocDxg
