import RocDxg.Lib.Reach
import RocDxg.Queue.Translate

/-!
# The processing loop

`ComputeQueue::Process` as a machine that runs beside the GPU and the client.  One
step of the thread goes from one access to shared state to the next, so that the
GPU may complete an indirect buffer between any two of them.  The GPU completes
indirect buffers in submission order and writes the fence value of the last one to
`*sync_addr`.  The client writes packets into the ring and moves the write pointer.

`Process` returns to `idle` when it finds no further packet, and `AqlToPm4Thread`
calls it again when one is there.  Any other status ends the thread.
-/

namespace RocDxg

/-- An indirect buffer given to the driver: the write indices before its first and
after its last packet, where it lies, and what it holds. -/
structure Ib where
  first : Nat
  fence : Nat
  addr : Nat
  size : Nat
  cmds : List Pm4
deriving DecidableEq, Repr

/-- Where the processing thread is. -/
inductive Pc where
  /-- Outside `Process`. -/
  | idle
  /-- At the condition of the loop. -/
  | head
  /-- At the test for a free slot of the command buffer. -/
  | check
  /-- In `CpuWait` for a slot to become free. -/
  | wait (value : Nat)
  /-- At `SwitchAql2PM4`. -/
  | switch
  /-- At the test whether to merge, after the kernel dispatch from a ring slot. -/
  | merge (slot : Nat)
  /-- At `Submit`. -/
  | submit
  /-- In `CpuWait` for the submission whose signal the CPU decrements. -/
  | signal (value : Nat)
  /-- The thread has ended. -/
  | failed (status : HsaStatus)
deriving DecidableEq, Repr

/-- The operands of a test whether to merge. -/
structure MergeTest where
  completionSignal : Nat
  writeIndex : Nat
  syncAddr : Nat
  syncPoint : Nat
deriving DecidableEq, Repr

/-- The packet stays in the indirect buffer and is not submitted yet. -/
def MergeTest.Merges (t : MergeTest) : Prop :=
  t.completionSignal = 0 ∧ t.writeIndex % aqlFrameNum ≠ 0 ∧ t.syncAddr ≠ t.syncPoint

instance (t : MergeTest) : Decidable t.Merges := inferInstanceAs (Decidable (_ ∧ _ ∧ _))

/-- The answers of the driver. -/
structure Driver where
  cpuWait : Bool := true
  waitPagingFence : Bool := true
  submit : Bool := true
deriving DecidableEq, Repr

/-- The queue, the memory it shares with the client and the GPU, and the state of
the thread.  `lastTest` is a record of the last test whether to merge, if the last
packet was a kernel dispatch. -/
structure Machine where
  queue : ComputeQueue
  wptr : Nat := 0
  syncAddr : Nat := 0
  completed : List Ib := []
  inFlight : List Ib := []
  pc : Pc := .idle
  lastTest : Option MergeTest := none

/-- What can happen next. -/
inductive Event where
  /-- The client writes a packet. -/
  | write (slot : Nat) (p : AqlPacket)
  /-- The client moves the write pointer. -/
  | ring (wptr : Nat)
  /-- The GPU completes the oldest indirect buffer. -/
  | complete
  /-- The thread takes its next step. -/
  | run (h : Host) (d : Driver)

namespace Machine

/-- The machine of a new queue. -/
def init (device : Device) (ringSize : Nat) (ring : Nat → AqlPacket) (cmdbufAddr : Nat) :
    Machine :=
  { queue := .init device ringSize ring cmdbufAddr }

/-- The packet at the write index. -/
def packet (m : Machine) : AqlPacket := m.queue.ring m.queue.slot

/-- All indirect buffers submitted so far, oldest first. -/
def submitted (m : Machine) : List Ib := m.completed ++ m.inFlight

/-- The translator that `SwitchAql2PM4` calls for the packet at the write index. -/
def translation (m : Machine) (h : Host) : Translation :=
  match m.packet.type with
  | some .kernelDispatch => m.queue.kernelDispatchAqlToPm4 h m.packet
  | some .barrierAnd | some .barrierOr => m.queue.barrierGenericAqlToPm4 h m.packet
  | some .vendorSpecific => m.queue.vendorSpecificAqlToPm4 h m.packet
  | some .invalid => ⟨.success, [], m.queue⟩
  | some .agentDispatch | none => ⟨.errorInvalidPacketFormat, [], m.queue⟩

/-- The loop condition of `Process`. -/
def more (m : Machine) : Bool :=
  decide (m.queue.writeIndex < m.wptr) && !m.queue.isInvalidPacket

/-- After `SwitchAql2PM4` has returned success. -/
def afterSwitch (q : ComputeQueue) : Pc := if q.readyToSubmit then .submit else .head

/-- `SwitchAql2PM4` up to the test whether to merge.  Only the status of a kernel
dispatch is looked at. -/
def switchStep (m : Machine) (h : Host) : Machine :=
  let t := m.translation h
  match m.packet.type with
  | some .kernelDispatch =>
      if t.status = .success then { m with queue := t.queue, pc := .merge m.queue.slot }
      else { m with queue := t.queue, pc := .failed t.status }
  | some .barrierAnd | some .barrierOr | some .vendorSpecific =>
      { m with
        queue := { t.queue with readyToSubmit := true }
        pc := .submit
        lastTest := none }
  | some .invalid => { m with pc := afterSwitch m.queue }
  | some .agentDispatch | none => { m with pc := .failed t.status }

/-- The operands of the test whether to merge, after the dispatch from `slot`. -/
def mergeTest (m : Machine) (slot : Nat) : MergeTest where
  completionSignal := (m.queue.ring slot).completionSignal
  writeIndex := m.queue.writeIndex
  syncAddr := m.syncAddr
  syncPoint := m.queue.syncPoint

/-- The end of `SwitchAql2PM4` for a kernel dispatch. -/
def mergeStep (m : Machine) (slot : Nat) : Machine :=
  let t := m.mergeTest slot
  if t.Merges then { m with pc := afterSwitch m.queue, lastTest := some t }
  else { m with
    queue := { m.queue with readyToSubmit := true }
    pc := .submit
    lastTest := some t }

/-- The indirect buffer that `Submit` passes to the driver. -/
def currentIb (q : ComputeQueue) : Ib where
  first := q.syncPoint
  fence := q.writeIndex
  addr := q.ibStartAddr
  size := q.ibSize
  cmds := q.ib

/-- `Submit`, and the test whether the CPU has to update a signal. -/
def submitStep (m : Machine) (d : Driver) : Machine :=
  if d.waitPagingFence then
    let q := m.queue.relocateCmdbufScratchBase
    if d.submit then
      let m := { m with queue := q.endSubmit, inFlight := m.inFlight ++ [currentIb q] }
      if m.queue.device.platformAtomic = false ∧ m.queue.signalAddr ≠ none then
        { m with pc := .signal m.queue.writeIndex }
      else { m with queue := { m.queue with readyToSubmit := false }, pc := .head }
    else { m with queue := q, pc := .failed .error }
  else { m with pc := .failed .error }

/-- One step of the thread.  A wait that has not ended is not a step. -/
def runStep (m : Machine) (h : Host) (d : Driver) : Option Machine :=
  match m.pc with
  | .idle => if m.queue.isInvalidPacket then none else some { m with pc := .head }
  | .head => some { m with pc := if m.more then .check else .idle }
  | .check =>
      some { m with
        pc := if m.syncAddr + aqlFrameNum ≤ m.queue.writeIndex then
          .wait (m.queue.writeIndex - aqlFrameNum + 1) else .switch }
  | .wait value =>
      if d.cpuWait = false then some { m with pc := .failed .error }
      else if value ≤ m.syncAddr then some { m with pc := .switch }
      else none
  | .switch => some (m.switchStep h)
  | .merge slot => some (m.mergeStep slot)
  | .submit => some (m.submitStep d)
  | .signal value =>
      if d.cpuWait = false then some { m with pc := .failed .error }
      else if value ≤ m.syncAddr then
        some { m with
          queue := { m.queue with signalAddr := none, readyToSubmit := false }
          pc := .head }
      else none
  | .failed _ => none

/-- One step of the machine. -/
def step (m : Machine) : Event → Option Machine
  | .write slot p =>
      some { m with queue := { m.queue with
        ring := fun i => if i = slot then p else m.queue.ring i } }
  | .ring wptr => some { m with wptr := wptr }
  | .complete =>
      match m.inFlight with
      | [] => none
      | ib :: rest =>
          some { m with
            syncAddr := ib.fence
            completed := m.completed ++ [ib]
            inFlight := rest }
  | .run h d => m.runStep h d

/-! ## What the translation step does -/

/-- The packet is one whose status `SwitchAql2PM4` does not look at. -/
def Unchecked (p : AqlPacket) : Prop :=
  p.type = some .barrierAnd ∨ p.type = some .barrierOr ∨ p.type = some .vendorSpecific

theorem Unchecked.ne_invalid {p : AqlPacket} (h : Unchecked p) : p.type ≠ some .invalid := by
  rcases h with htype | htype | htype <;> rw [htype] <;> nofun

theorem translation_kernel {m : Machine} (h : Host) (htype : m.packet.type = some .kernelDispatch) :
    m.translation h = m.queue.kernelDispatchAqlToPm4 h m.packet := by
  rw [translation, htype]

theorem translation_barrier {m : Machine} (h : Host)
    (htype : m.packet.type = some .barrierAnd ∨ m.packet.type = some .barrierOr) :
    m.translation h = m.queue.barrierGenericAqlToPm4 h m.packet := by
  cases htype with
  | inl htype | inr htype => rw [translation, htype]

theorem translation_vendor {m : Machine} (h : Host)
    (htype : m.packet.type = some .vendorSpecific) :
    m.translation h = m.queue.vendorSpecificAqlToPm4 h m.packet := by
  rw [translation, htype]

/-- What the translation step does to the machine. -/
inductive SwitchResult (m : Machine) (h : Host) : Machine → Prop where
  | kernel : m.packet.type = some .kernelDispatch → (m.translation h).status = .success →
      m.queue.Accepts (m.translation h).written (m.translation h).queue →
      SwitchResult m h { m with queue := (m.translation h).queue, pc := .merge m.queue.slot }
  | accepted : Unchecked m.packet →
      m.queue.Accepts (m.translation h).written (m.translation h).queue →
      SwitchResult m h { m with
        queue := { (m.translation h).queue with readyToSubmit := true }
        pc := .submit
        lastTest := none }
  | rejected : Unchecked m.packet →
      m.queue.frameSize < Pm4.bytes (m.translation h).written →
      m.queue.SameBuffer (m.translation h).queue →
      SwitchResult m h { m with
        queue := { (m.translation h).queue with readyToSubmit := true }
        pc := .submit
        lastTest := none }
  | invalid : m.packet.type = some .invalid → SwitchResult m h { m with pc := afterSwitch m.queue }
  | failed (q : ComputeQueue) (status : HsaStatus) : m.queue.SameBuffer q →
      SwitchResult m h { m with queue := q, pc := .failed status }

open ComputeQueue in
theorem switchStep_result (m : Machine) (h : Host) : SwitchResult m h (m.switchStep h) := by
  have hunchecked : ∀ {written : List Pm4}, Unchecked m.packet →
      (m.translation h).written = written → Outcome m.queue written (m.translation h) →
      SwitchResult m h { m with
        queue := { (m.translation h).queue with readyToSubmit := true }
        pc := .submit
        lastTest := none } := by
    rintro written htype rfl hout
    cases hout with
    | accepted _ hacc => exact .accepted htype hacc
    | rejected _ hgt hsame => exact .rejected htype hgt hsame
  cases htype : m.packet.type with
  | none =>
      simp only [switchStep, htype]
      exact .failed m.queue _ (.refl _)
  | some type =>
      cases type with
      | kernelDispatch =>
          have htrans := translation_kernel h htype
          simp only [switchStep, htype]
          cases kernelDispatch_cases m.queue h m.packet with
          | inl hcheck =>
              obtain ⟨status, herr, heq⟩ := hcheck
              rw [htrans, heq, if_neg (checkKernelDispatch_error herr)]
              exact .failed m.queue status (.refl _)
          | inr hend =>
              obtain ⟨k, _, _, hout⟩ := hend
              rw [← htrans] at hout
              cases hout with
              | accepted hs hacc =>
                  rw [if_pos hs]
                  exact .kernel htype hs hacc
              | rejected hs _ hsame =>
                  rw [if_neg (by rw [hs]; decide)]
                  exact .failed _ _ hsame
      | barrierAnd =>
          have htrans := translation_barrier h (Or.inl htype)
          obtain ⟨hw, hout⟩ := outcome_barrierGeneric m.queue h m.packet
          simp only [switchStep, htype]
          exact hunchecked (Or.inl htype) (htrans ▸ hw) (htrans ▸ hout)
      | barrierOr =>
          have htrans := translation_barrier h (Or.inr htype)
          obtain ⟨hw, hout⟩ := outcome_barrierGeneric m.queue h m.packet
          simp only [switchStep, htype]
          exact hunchecked (Or.inr (Or.inl htype)) (htrans ▸ hw) (htrans ▸ hout)
      | vendorSpecific =>
          have htrans := translation_vendor h htype
          obtain ⟨hw, hout⟩ := outcome_vendorSpecific m.queue h m.packet
          simp only [switchStep, htype]
          exact hunchecked (Or.inr (Or.inr htype)) (htrans ▸ hw) (htrans ▸ hout)
      | invalid =>
          simp only [switchStep, htype]
          exact .invalid htype
      | agentDispatch =>
          simp only [switchStep, htype]
          exact .failed m.queue _ (.refl _)

/-! ## What one step of the thread does -/

/-- The machine after the driver has taken the indirect buffer under construction. -/
def launch (m : Machine) : Machine :=
  { m with
    queue := m.queue.relocateCmdbufScratchBase.endSubmit
    inFlight := m.inFlight ++ [currentIb m.queue.relocateCmdbufScratchBase] }

/-- The cases of a step of the thread. -/
inductive RunResult (m : Machine) (h : Host) : Machine → Prop where
  | enter : m.pc = .idle → RunResult m h { m with pc := .head }
  | next : m.pc = .head → m.more = true → RunResult m h { m with pc := .check }
  | leave : m.pc = .head → m.more = false → RunResult m h { m with pc := .idle }
  | full : m.pc = .check → m.syncAddr + aqlFrameNum ≤ m.queue.writeIndex →
      RunResult m h { m with pc := .wait (m.queue.writeIndex - aqlFrameNum + 1) }
  | free : m.pc = .check → m.queue.writeIndex < m.syncAddr + aqlFrameNum →
      RunResult m h { m with pc := .switch }
  | waited (value : Nat) : m.pc = .wait value → value ≤ m.syncAddr →
      RunResult m h { m with pc := .switch }
  | switch {m' : Machine} : m.pc = .switch → SwitchResult m h m' → RunResult m h m'
  | merge (slot : Nat) : m.pc = .merge slot → (m.mergeTest slot).Merges →
      RunResult m h { m with pc := afterSwitch m.queue, lastTest := some (m.mergeTest slot) }
  | close (slot : Nat) : m.pc = .merge slot → ¬ (m.mergeTest slot).Merges →
      RunResult m h { m with
        queue := { m.queue with readyToSubmit := true }
        pc := .submit
        lastTest := some (m.mergeTest slot) }
  | submit : m.pc = .submit →
      RunResult m h { m.launch with
        queue := { m.launch.queue with readyToSubmit := false }
        pc := .head }
  | submitSignal : m.pc = .submit → m.queue.signalAddr ≠ none →
      RunResult m h { m.launch with pc := .signal m.queue.writeIndex }
  | signalled (value : Nat) : m.pc = .signal value → value ≤ m.syncAddr →
      RunResult m h { m with
        queue := { m.queue with signalAddr := none, readyToSubmit := false }
        pc := .head }
  | failed (status : HsaStatus) : RunResult m h { m with pc := .failed status }
  | failedSubmit : RunResult m h { m with
      queue := m.queue.relocateCmdbufScratchBase, pc := .failed .error }

theorem submitStep_result (h : Host) (d : Driver) {m : Machine} (hpc : m.pc = .submit) :
    RunResult m h (m.submitStep d) := by
  rw [submitStep]
  simp only
  split
  next =>
    split
    next =>
      split
      next hsig => exact .submitSignal hpc hsig.2
      next => exact .submit hpc
    next => exact .failedSubmit
  next => exact .failed .error

theorem runStep_result {m m' : Machine} {h : Host} {d : Driver} (hs : m.runStep h d = some m') :
    RunResult m h m' := by
  rw [runStep] at hs
  cases hpc : m.pc with
  | idle =>
      simp only [hpc] at hs
      split at hs
      · cases hs
      · cases hs
        exact .enter hpc
  | head =>
      simp only [hpc] at hs
      cases hs
      cases hmore : m.more with
      | true => exact .next hpc hmore
      | false => exact .leave hpc hmore
  | check =>
      simp only [hpc] at hs
      cases hs
      split
      next hle => exact .full hpc hle
      next hlt => exact .free hpc (Nat.lt_of_not_le hlt)
  | wait value =>
      simp only [hpc] at hs
      split at hs
      · cases hs
        exact .failed .error
      · split at hs
        next hle =>
          cases hs
          exact .waited value hpc hle
        next => cases hs
  | switch =>
      simp only [hpc] at hs
      cases hs
      exact .switch hpc (switchStep_result m h)
  | merge slot =>
      simp only [hpc] at hs
      cases hs
      rw [mergeStep]
      simp only
      split
      next hmerge => exact .merge slot hpc hmerge
      next hclose => exact .close slot hpc hclose
  | submit =>
      simp only [hpc] at hs
      cases hs
      exact submitStep_result h d hpc
  | signal value =>
      simp only [hpc] at hs
      split at hs
      · cases hs
        exact .failed .error
      · split at hs
        next hle =>
          cases hs
          exact .signalled value hpc hle
        next => cases hs
  | failed status =>
      simp only [hpc] at hs
      cases hs

/-! ## What one step of the machine does -/

/-- The cases of a step of the machine.  A step of the thread has those of `RunResult`. -/
inductive StepResult (m m' : Machine) : Event → Prop where
  | write (slot : Nat) (p : AqlPacket) :
      m' = { m with queue := { m.queue with
        ring := fun i => if i = slot then p else m.queue.ring i } } →
      StepResult m m' (.write slot p)
  | ring (wptr : Nat) : m' = { m with wptr := wptr } → StepResult m m' (.ring wptr)
  | complete (ib : Ib) (rest : List Ib) : m.inFlight = ib :: rest →
      m' = { m with
        syncAddr := ib.fence
        completed := m.completed ++ [ib]
        inFlight := rest } → StepResult m m' .complete
  | run (h : Host) (d : Driver) : m.runStep h d = some m' → StepResult m m' (.run h d)

theorem step_result {m m' : Machine} {e : Event} (hs : m.step e = some m') : StepResult m m' e := by
  cases e with
  | write slot p => exact .write slot p (Option.some.inj hs).symm
  | ring wptr => exact .ring wptr (Option.some.inj hs).symm
  | complete =>
      rw [step] at hs
      cases hfl : m.inFlight with
      | nil =>
          rw [hfl] at hs
          cases hs
      | cons ib rest =>
          rw [hfl] at hs
          exact .complete ib rest hfl (Option.some.inj hs).symm
  | run h d => exact .run h d hs

/-! ## What a run keeps until the thread ends -/

/-- The thread has ended, or the queue has a property. -/
def Until (P : ComputeQueue → Prop) (m : Machine) : Prop :=
  (∃ status, m.pc = .failed status) ∨ P m.queue

theorem Until.at_pc {P : ComputeQueue → Prop} {m : Machine} (h : Until P m) {pc : Pc}
    (hpc : m.pc = pc) (hne : ∀ status, pc ≠ .failed status) : P m.queue := by
  cases h with
  | inl hfailed =>
      obtain ⟨status, heq⟩ := hfailed
      exact absurd (hpc.symm.trans heq) (hne status)
  | inr hP => exact hP

/-- A property that depends on neither the ring nor the flags of the queue is kept by every step,
if a submission and a translation keep it. -/
theorem Until.step {P : ComputeQueue → Prop} {m m' : Machine} {e : Event} (h : Until P m)
    (hs : m.step e = some m') (hring : ∀ q ring, P q → P { q with ring := ring })
    (hflags : ∀ q ready signal, P q → P { q with readyToSubmit := ready, signalAddr := signal })
    (hlaunch : ∀ h d, e = .run h d → m.pc = .submit → P m.queue → P m.launch.queue)
    (hswitch : ∀ h d, e = .run h d → m.pc = .switch → P m.queue → SwitchResult m h m' →
      Until P m') : Until P m' := by
  cases step_result hs with
  | write slot p heq =>
      subst heq
      exact h.imp_right (hring _ _)
  | ring wptr heq =>
      subst heq
      exact h
  | complete ib rest _ heq =>
      subst heq
      exact h
  | run host d hs =>
      cases runStep_result hs with
      | enter hpc | next hpc | leave hpc | full hpc | free hpc | waited value hpc | merge slot hpc =>
          exact Or.inr (h.at_pc hpc nofun)
      | switch hpc hres => exact hswitch host d rfl hpc (h.at_pc hpc nofun) hres
      | close slot hpc => exact Or.inr (hflags _ true m.queue.signalAddr (h.at_pc hpc nofun))
      | submit hpc =>
          have hP := hlaunch host d rfl hpc (h.at_pc hpc nofun)
          exact Or.inr (hflags _ false m.launch.queue.signalAddr hP)
      | submitSignal hpc => exact Or.inr (hlaunch host d rfl hpc (h.at_pc hpc nofun))
      | signalled value hpc => exact Or.inr (hflags _ false none (h.at_pc hpc nofun))
      | failed status => exact Or.inl ⟨status, rfl⟩
      | failedSubmit => exact Or.inl ⟨.error, rfl⟩

/-! ## A sample queue -/

/-- A device for runs on fixed inputs. -/
def sampleDevice : Device where
  major := .gfx11
  ldsSize := 0x10000
  platformAtomic := true
  scratchWaves := 32
  vendorPacketProcess := true

/-- A kernel dispatch packet. -/
def sampleKernel (completionSignal privateSegmentSize : Nat) : AqlPacket where
  header := 2
  setup := 1
  workgroupSizeX := 64
  workgroupSizeY := 1
  workgroupSizeZ := 1
  gridSizeX := 64
  gridSizeY := 1
  gridSizeZ := 1
  completionSignal := completionSignal
  privateSegmentSize := privateSegmentSize
  kernelObject := 0x7000

/-- A host that knows one kernel object, and has a scratch buffer at an address. -/
def sampleHost (scratch : Nat) : Host where
  kernelCode := fun addr => if addr = 0x7000 then some {} else none
  scratch := some scratch

/-- The thread takes steps with the same answers each time. -/
def runs (scratch : Nat) (n : Nat) : List Event := List.replicate n (.run (sampleHost scratch) {})

end Machine

end RocDxg
