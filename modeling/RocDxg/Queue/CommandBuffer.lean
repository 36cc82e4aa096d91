import RocDxg.Lib.Chain
import RocDxg.Queue.Process

/-!
# The command buffer

The command buffer is a ring of `aqlFrameNum` frames, and the packet with write
index `i` has frame `i % aqlFrameNum`.  Packets that are merged into one indirect
buffer stand one after the other from the frame of the first, so a packet does not
lie in its own frame; but an indirect buffer never needs more bytes than the frames
of its packets have, and never goes past the end of the ring.

The indirect buffers in flight lead from the fence value in `*sync_addr` to the
last one submitted (`Layout.chain`).  At the time of a translation the write index
is less than a lap ahead of `*sync_addr`, so the frames in flight and the frame
written are distinct (`frames_apart`).
-/

namespace RocDxg

open Lib (Chain Reach runAll reach_of_runAll)

/-- The indirect buffer holds the packets from `a` to `b`: it starts at the frame of
`a`, fits in the frames of its packets, and does not go past the end of the ring. -/
structure Ib.Placed (cmdbufAddr frameSize a : Nat) (ib : Ib) (b : Nat) : Prop where
  fence : ib.fence = b
  le : a ≤ b
  addr : ib.addr = cmdbufAddr + a % aqlFrameNum * frameSize
  size : ib.size ≤ (b - a) * frameSize
  lap : a % aqlFrameNum + (b - a) ≤ aqlFrameNum

/-- Two byte ranges, given by address and size, have no byte in common. -/
def Apart (addr size addr' size' : Nat) : Prop := addr + size ≤ addr' ∨ addr' + size' ≤ addr

/-- The indirect buffer lies in the ring of frames. -/
def Ib.Inside (cmdbufAddr frameSize : Nat) (ib : Ib) : Prop :=
  cmdbufAddr ≤ ib.addr ∧ ib.addr + ib.size ≤ cmdbufAddr + aqlFrameNum * frameSize

theorem Ib.Placed.inside {cmdbufAddr frameSize a b : Nat} {ib : Ib}
    (h : ib.Placed cmdbufAddr frameSize a b) : ib.Inside cmdbufAddr frameSize := by
  have hframes : (a % aqlFrameNum + (b - a)) * frameSize ≤ aqlFrameNum * frameSize :=
    Nat.mul_le_mul_right _ h.lap
  rw [Nat.add_mul] at hframes
  have := h.size
  rw [Ib.Inside, h.addr]
  omega

/-- Frames of an indirect buffer in flight and of the one under construction,
including the next frame, are distinct while less than a lap is in use. -/
theorem frames_apart {a b s w f : Nat} (hfa : f ≤ a) (hab : a ≤ b) (hbs : b ≤ s) (hsw : s ≤ w)
    (hfree : w < f + aqlFrameNum) :
    a % aqlFrameNum + (b - a) ≤ s % aqlFrameNum ∨
      s % aqlFrameNum + (w - s) + 1 ≤ a % aqlFrameNum := by
  simp only [aqlFrameNum] at hfree ⊢
  omega

namespace Machine

open ComputeQueue

/-- The indirect buffers and the one under construction. -/
structure Layout (m : Machine) : Prop where
  chain : Chain (Ib.Placed m.queue.cmdbufAddr m.queue.frameSize) m.syncAddr m.inFlight
    m.queue.syncPoint
  inside : ∀ ib ∈ m.submitted, ib.Inside m.queue.cmdbufAddr m.queue.frameSize
  last : (m.submitted.getLast?.map Ib.fence).getD 0 = m.queue.syncPoint
  le : m.queue.syncPoint ≤ m.queue.writeIndex
  start : m.queue.ibStartAddr =
    m.queue.cmdbufAddr + m.queue.syncPoint % aqlFrameNum * m.queue.frameSize
  size : m.queue.ibSize ≤ (m.queue.writeIndex - m.queue.syncPoint) * m.queue.frameSize
  lap : m.queue.syncPoint % aqlFrameNum + (m.queue.writeIndex - m.queue.syncPoint) ≤ aqlFrameNum

/-- The indirect buffer under construction has a frame left before the end of the
ring. -/
def Room (m : Machine) : Prop :=
  m.queue.syncPoint % aqlFrameNum + (m.queue.writeIndex - m.queue.syncPoint) < aqlFrameNum

/-- What holds besides at each point of the loop. -/
def AtPc (m : Machine) : Prop :=
  match m.pc with
  | .idle | .head | .check => m.Room
  | .wait value => m.Room ∧ 0 < value ∧ value + aqlFrameNum = m.queue.writeIndex + 1
  | .switch => m.Room ∧ m.queue.writeIndex < m.syncAddr + aqlFrameNum
  | .signal value => m.Room ∧ value = m.queue.syncPoint ∧ m.submitted ≠ []
  | .merge _ | .submit | .failed _ => True

variable {m m' : Machine}

theorem AtPc.mono (hat : AtPc m) (hq : m'.queue = m.queue) (hpc : m'.pc = m.pc)
    (hsub : m'.submitted = m.submitted) (hs : m.syncAddr ≤ m'.syncAddr) : AtPc m' := by
  have hroom : m'.Room = m.Room := by rw [Room, Room, hq]
  rw [AtPc] at hat ⊢
  rw [hpc, hroom, hq, hsub]
  cases hpc' : m.pc with
  | switch =>
      rw [hpc'] at hat
      exact ⟨hat.1, Nat.lt_of_lt_of_le hat.2 (Nat.add_le_add_right hs _)⟩
  | _ =>
      rw [hpc'] at hat
      exact hat

/-- The layout does not depend on the rest of the queue and of the machine. -/
theorem Layout.same (L : Layout m) (hq : m.queue.SameBuffer m'.queue)
    (hs : m'.syncAddr = m.syncAddr) (hc : m'.completed = m.completed)
    (hf : m'.inFlight = m.inFlight) : Layout m' := by
  have hsub : m'.submitted = m.submitted := by rw [submitted, submitted, hc, hf]
  refine ⟨?_, ?_, ?_, ?_, ?_, ?_, ?_⟩
  · rw [hq.cmdbufAddr, hq.frameSize, hs, hf, hq.syncPoint]
    exact L.chain
  · rw [hsub, hq.cmdbufAddr, hq.frameSize]
    exact L.inside
  · rw [hsub, hq.syncPoint]
    exact L.last
  · rw [hq.syncPoint, hq.writeIndex]
    exact L.le
  · rw [hq.ibStartAddr, hq.cmdbufAddr, hq.syncPoint, hq.frameSize]
    exact L.start
  · rw [hq.ibSize, hq.writeIndex, hq.syncPoint, hq.frameSize]
    exact L.size
  · rw [hq.syncPoint, hq.writeIndex]
    exact L.lap

/-- A packet accepted where there is room. -/
theorem Layout.accept (L : Layout m) (hroom : m.Room) {written : List Pm4}
    (hq : m.queue.Accepts written m'.queue) (hs : m'.syncAddr = m.syncAddr)
    (hc : m'.completed = m.completed) (hf : m'.inFlight = m.inFlight) : Layout m' := by
  have hsub : m'.submitted = m.submitted := by rw [submitted, submitted, hc, hf]
  have hle := L.le
  have hsucc : m.queue.writeIndex + 1 - m.queue.syncPoint =
      m.queue.writeIndex - m.queue.syncPoint + 1 := by omega
  refine ⟨?_, ?_, ?_, ?_, ?_, ?_, ?_⟩
  · rw [hq.cmdbufAddr, hq.frameSize, hs, hf, hq.syncPoint]
    exact L.chain
  · rw [hsub, hq.cmdbufAddr, hq.frameSize]
    exact L.inside
  · rw [hsub, hq.syncPoint]
    exact L.last
  · rw [hq.syncPoint, hq.writeIndex]
    omega
  · rw [hq.ibStartAddr, hq.cmdbufAddr, hq.syncPoint, hq.frameSize]
    exact L.start
  · rw [hq.ibSize, hq.writeIndex, hq.syncPoint, hq.frameSize, hsucc, Nat.add_mul, Nat.one_mul]
    exact Nat.add_le_add L.size hq.fits
  · rw [hq.syncPoint, hq.writeIndex, hsucc]
    exact hroom

/-- The bytes a translation writes are apart from every indirect buffer in flight. -/
theorem Layout.write_apart (L : Layout m)
    (hfree : m.queue.writeIndex < m.syncAddr + aqlFrameNum) {n : Nat} (hn : n ≤ m.queue.frameSize)
    {ib : Ib} (hib : ib ∈ m.inFlight) :
    Apart (m.queue.ibStartAddr + m.queue.ibSize) n ib.addr ib.size := by
  obtain ⟨a, b, P, hfa, hbs⟩ := (Chain.bounds (fun _ _ _ h => h.le) L.chain).2 ib hib
  have hsize := L.size
  have hibsize := P.size
  rw [Apart, L.start, P.addr]
  cases frames_apart hfa P.le hbs L.le hfree with
  | inl h =>
      have hmul := Nat.mul_le_mul_right m.queue.frameSize h
      rw [Nat.add_mul] at hmul
      omega
  | inr h =>
      have hmul := Nat.mul_le_mul_right m.queue.frameSize h
      rw [Nat.add_mul, Nat.add_mul, Nat.one_mul] at hmul
      omega

/-- The indirect buffer under construction is given to the driver. -/
theorem Layout.launch (L : Layout m) : Layout m.launch := by
  have hplaced : (currentIb m.queue.relocateCmdbufScratchBase).Placed m.queue.cmdbufAddr
      m.queue.frameSize m.queue.syncPoint m.queue.writeIndex :=
    ⟨rfl, L.le, L.start, L.size, L.lap⟩
  have hsub : m.launch.submitted = m.submitted ++ [currentIb m.queue.relocateCmdbufScratchBase] := by
    simp only [submitted, Machine.launch, List.append_assoc]
  refine ⟨L.chain.concat hplaced, ?_, ?_, Nat.le_refl _, rfl, Nat.zero_le _, ?_⟩
  · rw [hsub]
    intro x hx
    cases List.mem_append.mp hx with
    | inl hmem => exact L.inside x hmem
    | inr hmem =>
        rw [List.mem_singleton.mp hmem]
        exact hplaced.inside
  · rw [hsub, List.getLast?_concat]
    rfl
  · show m.queue.writeIndex % aqlFrameNum + (m.queue.writeIndex - m.queue.writeIndex) ≤ aqlFrameNum
    rw [Nat.sub_self]
    exact Nat.le_of_lt (Nat.mod_lt _ (by decide))

theorem room_launch (m : Machine) : m.launch.Room := by
  show m.queue.writeIndex % aqlFrameNum + (m.queue.writeIndex - m.queue.writeIndex) < aqlFrameNum
  rw [Nat.sub_self]
  exact Nat.mod_lt _ (by decide)

/-- The oldest indirect buffer completes. -/
theorem Layout.complete (L : Layout m) {ib : Ib} {rest : List Ib} (h : m.inFlight = ib :: rest) :
    m.syncAddr ≤ ib.fence ∧
      Layout { m with syncAddr := ib.fence, completed := m.completed ++ [ib], inFlight := rest } ∧
      submitted { m with syncAddr := ib.fence, completed := m.completed ++ [ib], inFlight := rest } =
        m.submitted := by
  have hchain := L.chain
  rw [h] at hchain
  obtain ⟨c, hplaced, hrest⟩ := hchain
  have hsub : submitted { m with
      syncAddr := ib.fence, completed := m.completed ++ [ib], inFlight := rest } = m.submitted := by
    simp only [submitted, h, List.append_assoc, List.singleton_append]
  refine ⟨hplaced.fence ▸ hplaced.le, ⟨?_, ?_, ?_, L.le, L.start, L.size, L.lap⟩, hsub⟩
  · rw [hplaced.fence]
    exact hrest
  · rw [hsub]
    exact L.inside
  · rw [hsub]
    exact L.last

/-- A translation fits in a frame. -/
def FitsFrame (m : Machine) : Event → Prop
  | .run h _ => m.pc = .switch → Pm4.bytes (m.translation h).written ≤ m.queue.frameSize
  | _ => True

instance (m : Machine) : (e : Event) → Decidable (FitsFrame m e)
  | .run _ _ => inferInstanceAs (Decidable (_ → _))
  | .write _ _ | .ring _ | .complete => inferInstanceAs (Decidable True)

/-- What `afterSwitch` needs. -/
theorem atPc_afterSwitch {q : ComputeQueue} {m : Machine} (hroom : m.Room)
    (hpc : m.pc = afterSwitch q) : AtPc m := by
  rw [AtPc, hpc, afterSwitch]
  cases q.readyToSubmit with
  | true => trivial
  | false => exact hroom

theorem switch_layout (L : Layout m) (hroom : m.Room) {h : Host}
    (hfits : Pm4.bytes (m.translation h).written ≤ m.queue.frameSize) (hres : SwitchResult m h m') :
    Layout m' ∧ AtPc m' := by
  cases hres with
  | kernel _ _ hacc => exact ⟨L.accept hroom hacc rfl rfl rfl, trivial⟩
  | accepted _ hacc =>
      have Lacc : Layout { m with queue := (m.translation h).queue } :=
        L.accept hroom hacc rfl rfl rfl
      exact ⟨Lacc.same ⟨rfl, rfl, rfl, rfl, rfl, rfl, rfl⟩ rfl rfl rfl, trivial⟩
  | rejected _ hgt _ => exact absurd hgt (Nat.not_lt.mpr hfits)
  | invalid _ => exact ⟨L.same (.refl _) rfl rfl rfl, atPc_afterSwitch hroom rfl⟩
  | failed q status hsame => exact ⟨L.same hsame rfl rfl rfl, trivial⟩

/-- An indirect buffer that is not full to the end of the ring has a frame left. -/
theorem Layout.room (L : Layout m) (h : m.queue.writeIndex % aqlFrameNum ≠ 0) : m.Room := by
  have hle := L.le
  have hlap := L.lap
  rw [Room]
  simp only [aqlFrameNum] at h hlap ⊢
  omega

theorem run_layout (L : Layout m) (hat : AtPc m) {h : Host} {d : Driver}
    (hfits : FitsFrame m (.run h d)) (hres : RunResult m h m') : Layout m' ∧ AtPc m' := by
  have hkeep : ∀ pc, Layout { m with pc := pc } := fun _ => L.same (.refl _) rfl rfl rfl
  rw [AtPc] at hat
  cases hres with
  | enter hpc | next hpc _ | leave hpc _ =>
      rw [hpc] at hat
      exact ⟨hkeep _, hat⟩
  | full hpc hle =>
      rw [hpc] at hat
      refine ⟨hkeep _, hat, Nat.succ_pos _, ?_⟩
      show m.queue.writeIndex - aqlFrameNum + 1 + aqlFrameNum = m.queue.writeIndex + 1
      omega
  | free hpc hlt =>
      rw [hpc] at hat
      exact ⟨hkeep _, hat, hlt⟩
  | waited value hpc hle =>
      rw [hpc] at hat
      refine ⟨hkeep _, hat.1, ?_⟩
      have hvalue := hat.2.2
      show m.queue.writeIndex < m.syncAddr + aqlFrameNum
      omega
  | switch hpc hsw =>
      rw [hpc] at hat
      exact switch_layout L hat.1 (hfits hpc) hsw
  | merge slot _ hmerge =>
      have L' : Layout { m with
          pc := afterSwitch m.queue, lastTest := some (m.mergeTest slot) } :=
        L.same (.refl _) rfl rfl rfl
      exact ⟨L', atPc_afterSwitch (L'.room hmerge.2.1) rfl⟩
  | close => exact ⟨L.same ⟨rfl, rfl, rfl, rfl, rfl, rfl, rfl⟩ rfl rfl rfl, trivial⟩
  | submit =>
      exact ⟨L.launch.same ⟨rfl, rfl, rfl, rfl, rfl, rfl, rfl⟩ rfl rfl rfl, room_launch m⟩
  | submitSignal =>
      refine ⟨L.launch.same (.refl _) rfl rfl rfl, room_launch m, rfl, ?_⟩
      show m.completed ++ (m.inFlight ++ [_]) ≠ []
      simp
  | signalled value hpc _ =>
      rw [hpc] at hat
      exact ⟨L.same ⟨rfl, rfl, rfl, rfl, rfl, rfl, rfl⟩ rfl rfl rfl, hat.1⟩
  | failed => exact ⟨hkeep _, trivial⟩
  | failedSubmit =>
      exact ⟨⟨L.chain, L.inside, L.last, L.le, L.start, L.size, L.lap⟩, trivial⟩

theorem step_layout (L : Layout m) (hat : AtPc m) {e : Event} (hfits : FitsFrame m e)
    (hs : m.step e = some m') : Layout m' ∧ AtPc m' := by
  cases step_result hs with
  | write slot p heq =>
      subst heq
      exact ⟨L.same ⟨rfl, rfl, rfl, rfl, rfl, rfl, rfl⟩ rfl rfl rfl, hat⟩
  | ring wptr heq =>
      subst heq
      exact ⟨L.same (.refl _) rfl rfl rfl, hat⟩
  | complete ib rest hfl heq =>
      subst heq
      obtain ⟨hle, L', hsub⟩ := L.complete hfl
      exact ⟨L', hat.mono rfl rfl hsub hle⟩
  | run h d hs => exact run_layout L hat hfits (runStep_result hs)

/-- The invariant of a new queue. -/
theorem layout_init (device : Device) (ringSize : Nat) (ring : Nat → AqlPacket)
    (cmdbufAddr : Nat) : Layout (init device ringSize ring cmdbufAddr) := by
  refine ⟨rfl, ?_, rfl, Nat.le_refl _, ?_, Nat.zero_le _, Nat.zero_le _⟩
  · intro ib hib
    cases hib
  · show cmdbufAddr = cmdbufAddr + 0 % aqlFrameNum * _
    rw [Nat.zero_mod, Nat.zero_mul, Nat.add_zero]

/-- In every run whose translations fit in a frame: a translation writes no byte of an
indirect buffer in flight, every indirect buffer lies in the command buffer, and the
thread waits only for fence values of submitted work. -/
theorem commandBuffer_safe {device : Device} {ringSize : Nat} {ring : Nat → AqlPacket}
    {cmdbufAddr : Nat} (h : Reach step FitsFrame (init device ringSize ring cmdbufAddr) m) :
    (m.pc = .switch → ∀ host, Pm4.bytes (m.translation host).written ≤ m.queue.frameSize →
      ∀ ib ∈ m.inFlight, Apart (m.queue.ibStartAddr + m.queue.ibSize)
        (Pm4.bytes (m.translation host).written) ib.addr ib.size) ∧
    (∀ ib ∈ m.submitted, m.queue.cmdbufAddr ≤ ib.addr ∧
      ib.addr + ib.size ≤ m.queue.cmdbufAddr + aqlFrameNum * m.queue.frameSize) ∧
    ∀ value, m.pc = .wait value ∨ m.pc = .signal value →
      ∃ ib, m.submitted.getLast? = some ib ∧ value ≤ ib.fence := by
  obtain ⟨L, hat⟩ : Layout m ∧ AtPc m := by
    refine h.invariant (I := fun m => Layout m ∧ AtPc m) ⟨layout_init .., ?_⟩ ?_
    · show 0 % aqlFrameNum + (0 - 0) < aqlFrameNum
      decide
    · intro m e m' hI hfits hs
      exact step_layout hI.1 hI.2 hfits hs
  rw [AtPc] at hat
  refine ⟨?_, L.inside, ?_⟩
  · intro hpc host hfits ib hib
    rw [hpc] at hat
    exact L.write_apart hat.2 hfits hib
  · intro value hvalue
    have hlast := L.last
    cases hl : m.submitted.getLast? with
    | none =>
        rw [hl] at hlast
        simp only [Option.map_none, Option.getD_none] at hlast
        cases hvalue with
        | inl hpc =>
            rw [hpc] at hat
            obtain ⟨hroom, hpos, heq⟩ := hat
            rw [Room, ← hlast] at hroom
            omega
        | inr hpc =>
            rw [hpc] at hat
            exact absurd (List.getLast?_eq_none_iff.mp hl) hat.2.2
    | some ib =>
        rw [hl] at hlast
        simp only [Option.map_some, Option.getD_some] at hlast
        refine ⟨ib, rfl, ?_⟩
        cases hvalue with
        | inl hpc =>
            rw [hpc] at hat
            obtain ⟨hroom, hpos, heq⟩ := hat
            rw [Room] at hroom
            omega
        | inr hpc =>
            rw [hpc] at hat
            rw [hlast, hat.2.1]

/-- A second kernel dispatch is about to be translated while the first is in flight. -/
theorem commandBuffer_safe_run :
    ∃ m, Reach step FitsFrame (init sampleDevice 4 (fun _ => sampleKernel 0x9000 0) 0x100000) m ∧
      m.pc = .switch ∧ m.inFlight.map (fun ib => (ib.addr, ib.size)) = [(0x100000, 348)] ∧
      (∀ ib ∈ m.inFlight, Apart (m.queue.ibStartAddr + m.queue.ibSize)
        (Pm4.bytes (m.translation (sampleHost 0)).written) ib.addr ib.size) ∧
      ∀ ib ∈ m.submitted, m.queue.cmdbufAddr ≤ ib.addr ∧
        ib.addr + ib.size ≤ m.queue.cmdbufAddr + aqlFrameNum * m.queue.frameSize := by
  have hrun : (runAll step FitsFrame (init sampleDevice 4 (fun _ => sampleKernel 0x9000 0) 0x100000)
      (.ring 2 :: runs 0 8)).map (fun m => (m.pc, m.inFlight.map fun ib => (ib.addr, ib.size),
        decide (Pm4.bytes (m.translation (sampleHost 0)).written ≤ m.queue.frameSize))) =
      some (.switch, [(0x100000, 348)], true) := by
    decide
  obtain ⟨m, hm, hproj⟩ := Option.map_eq_some_iff.mp hrun
  simp only [Prod.mk.injEq, decide_eq_true_eq] at hproj
  have hreach := reach_of_runAll hm
  have hsafe := commandBuffer_safe hreach
  exact ⟨m, hreach, hproj.1, hproj.2.1, hsafe.1 hproj.1 _ hproj.2.2, hsafe.2.1⟩

end Machine

end RocDxg
