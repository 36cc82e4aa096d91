import RocDxg.Queue.Process

/-!
# Submission of what was translated

A kernel dispatch without a completion signal stays in the indirect buffer when the
GPU still works on an earlier one, in the expectation that a later packet will be
merged behind it.  `Process` does not look at the indirect buffer when it finds no
later packet, so it returns with the dispatch translated, marked `INVALID` and not
submitted.  `idle_submitted_iff` says that this is the only way: at each return the
indirect buffer is empty exactly if the last packet did not pass the test whether to
merge.
-/

namespace RocDxg

namespace Machine

open Lib (Reach runAll reach_of_runAll)

/-- Everything translated has been submitted. -/
def AllSubmitted (q : ComputeQueue) : Prop := q.ibSize = 0 ∧ q.syncPoint = q.writeIndex

/-- The last packet passed the test whether to merge. -/
def Lingers (m : Machine) : Prop := ∃ t, m.lastTest = some t ∧ t.Merges

/-- What the loop knows about the indirect buffer at each point. -/
def Pending (m : Machine) : Prop :=
  match m.pc with
  | .idle | .head | .check | .wait _ | .switch =>
      m.queue.readyToSubmit = false ∧ (AllSubmitted m.queue ↔ ¬ m.Lingers)
  | .merge _ => m.queue.readyToSubmit = false ∧ 0 < m.queue.ibSize
  | .submit => ¬ m.Lingers
  | .signal _ => AllSubmitted m.queue ∧ ¬ m.Lingers
  | .failed _ => True

variable {m m' : Machine}

theorem not_lingers_none (h : m.lastTest = none) : ¬ m.Lingers := by
  intro hl
  obtain ⟨t, ht, _⟩ := hl
  rw [h] at ht
  cases ht

theorem lingers_some {t : MergeTest} (h : m.lastTest = some t) : m.Lingers ↔ t.Merges := by
  constructor
  · intro hl
    obtain ⟨t', ht, hm⟩ := hl
    rw [h] at ht
    cases ht
    exact hm
  · intro hm
    exact ⟨t, h, hm⟩

theorem afterSwitch_head {q : ComputeQueue} (h : q.readyToSubmit = false) :
    afterSwitch q = .head := by
  rw [afterSwitch, h]
  rfl

theorem switch_pending {h : Host} (hready : m.queue.readyToSubmit = false)
    (hiff : AllSubmitted m.queue ↔ ¬ m.Lingers) (hres : SwitchResult m h m') : Pending m' := by
  cases hres with
  | kernel htype hstatus hacc =>
      have htrans := translation_kernel h htype
      refine ⟨?_, ?_⟩
      · show (m.translation h).queue.readyToSubmit = false
        rw [htrans, ComputeQueue.readyToSubmit_kernelDispatch, hready]
      · show 0 < (m.translation h).queue.ibSize
        rw [hacc.ibSize]
        rw [htrans] at hstatus
        obtain ⟨k, _, hwritten⟩ := ComputeQueue.kernelDispatch_success hstatus
        rw [htrans, hwritten]
        exact Nat.lt_add_left _ (ComputeQueue.kernelCommands_pos ..)
  | accepted => exact not_lingers_none rfl
  | rejected => exact not_lingers_none rfl
  | invalid =>
      rw [Pending, afterSwitch_head hready]
      exact ⟨hready, hiff⟩
  | failed => trivial

theorem run_pending {h : Host} (hp : Pending m) (hres : RunResult m h m') : Pending m' := by
  rw [Pending] at hp
  cases hres with
  | enter hpc | next hpc _ | leave hpc _ | full hpc _ | free hpc _ | waited value hpc _ =>
      rw [hpc] at hp
      exact hp
  | switch hpc hsw =>
      rw [hpc] at hp
      exact switch_pending hp.1 hp.2 hsw
  | merge slot hpc hmerge =>
      rw [hpc] at hp
      rw [Pending, afterSwitch_head hp.1]
      refine ⟨hp.1, ?_⟩
      have hling : Lingers { m with
          pc := afterSwitch m.queue, lastTest := some (m.mergeTest slot) } :=
        (lingers_some rfl).mpr hmerge
      constructor
      · intro hall
        exact absurd hall.1 (Nat.ne_of_gt hp.2)
      · intro hnot
        exact absurd hling hnot
  | close slot hpc hclose => exact fun hl => hclose ((lingers_some rfl).mp hl)
  | submit hpc =>
      rw [hpc] at hp
      exact ⟨rfl, fun _ => hp, fun _ => ⟨rfl, rfl⟩⟩
  | submitSignal hpc _ =>
      rw [hpc] at hp
      exact ⟨⟨rfl, rfl⟩, hp⟩
  | signalled value hpc _ =>
      rw [hpc] at hp
      exact ⟨rfl, fun _ => hp.2, fun _ => hp.1⟩
  | failed => trivial
  | failedSubmit => trivial

theorem step_pending {e : Event} (hp : Pending m) (hs : m.step e = some m') : Pending m' := by
  cases step_result hs with
  | write slot p heq =>
      subst heq
      exact hp
  | ring wptr heq =>
      subst heq
      exact hp
  | complete ib rest _ heq =>
      subst heq
      exact hp
  | run h d hs => exact run_pending hp (runStep_result hs)

/-- In every run, when `Process` has returned, everything translated has been
submitted exactly if the last packet translated did not pass the test whether to
merge. -/
theorem idle_submitted_iff {device : Device} {ringSize : Nat} {ring : Nat → AqlPacket}
    {cmdbufAddr : Nat}
    (h : Reach step (fun _ _ => True) (init device ringSize ring cmdbufAddr) m)
    (hpc : m.pc = .idle) :
    (m.queue.ibSize = 0 ∧ m.queue.syncPoint = m.queue.writeIndex) ↔
      ∀ t, m.lastTest = some t →
        ¬ (t.completionSignal = 0 ∧ t.writeIndex % aqlFrameNum ≠ 0 ∧ t.syncAddr ≠ t.syncPoint) := by
  have hp : Pending m := by
    refine h.invariant ?_ fun m e m' hp _ hs => step_pending hp hs
    exact ⟨rfl, fun _ => not_lingers_none rfl, fun _ => ⟨rfl, rfl⟩⟩
  rw [Pending, hpc] at hp
  refine hp.2.trans ?_
  constructor
  · intro hnot t ht hm
    exact hnot ⟨t, ht, hm⟩
  · intro hall hl
    obtain ⟨t, ht, hm⟩ := hl
    exact hall t ht hm

/-- A ring with a signalled kernel dispatch followed by others. -/
def sampleRing (others : AqlPacket) (i : Nat) : AqlPacket :=
  if i = 0 then sampleKernel 0x9000 0 else others

/-- A return after two signalled dispatches. -/
theorem idle_submitted_iff_run :
    ∃ m, Reach step (fun _ _ => True)
        (init sampleDevice 4 (sampleRing (sampleKernel 0x9000 0)) 0x100000) m ∧
      m.pc = .idle ∧ m.inFlight.length = 2 ∧
      m.queue.ibSize = 0 ∧ m.queue.syncPoint = m.queue.writeIndex := by
  have hrun : (runAll step (fun _ _ => True)
      (init sampleDevice 4 (sampleRing (sampleKernel 0x9000 0)) 0x100000)
      (.ring 2 :: runs 0 12)).map (fun m => (m.pc, m.inFlight.length,
        m.lastTest.map fun t => decide t.Merges)) = some (.idle, 2, some false) := by
    decide
  obtain ⟨m, hm, hproj⟩ := Option.map_eq_some_iff.mp hrun
  simp only [Prod.mk.injEq] at hproj
  have hreach := reach_of_runAll hm
  refine ⟨m, hreach, hproj.1, hproj.2.1, (idle_submitted_iff hreach hproj.1).mpr ?_⟩
  intro t ht hmerge
  have hnot := hproj.2.2
  rw [ht] at hnot
  simp only [Option.map_some, Option.some.injEq, decide_eq_false_iff_not] at hnot
  exact hnot hmerge

/-- An unsignalled dispatch after one that is still in flight is not submitted. -/
theorem last_dispatch_not_submitted :
    ¬ ∀ m, Reach step (fun _ _ => True)
        (init sampleDevice 4 (sampleRing (sampleKernel 0 0)) 0x100000) m → m.pc = .idle →
      m.queue.ibSize = 0 ∧ m.queue.syncPoint = m.queue.writeIndex := by
  intro hall
  have hrun : (runAll step (fun _ _ => True)
      (init sampleDevice 4 (sampleRing (sampleKernel 0 0)) 0x100000)
      (.ring 2 :: runs 0 11)).map (fun m => (m.pc, m.queue.ibSize, m.queue.syncPoint,
        m.queue.writeIndex)) = some (.idle, 272, 1, 2) := by
    decide
  obtain ⟨m, hm, hproj⟩ := Option.map_eq_some_iff.mp hrun
  simp only [Prod.mk.injEq] at hproj
  have hempty := (hall m (reach_of_runAll hm) hproj.1).1
  rw [hproj.2.1] at hempty
  cases hempty

end Machine

end RocDxg
