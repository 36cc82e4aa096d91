import RocDxg.Queue.ScratchFields

/-!
# Relocation of the scratch address

`RelocateCmdbufScratchBase` on the dwords of the indirect buffer.  The offsets it patches are
recorded when a dispatch is translated, by `KernelDispatchAqlToPm4` itself for the scratch registers
and by `BuildDispatch` for the user data.

`relocates_exactly` says that in every run the offsets are those of the fields, so that relocation
makes them encode the scratch address of the moment and changes nothing else.  It is for the kernels
that `BuildDispatch` allows: from gfx11 on, an assertion excludes the user data that hold a scratch
address.
-/

namespace RocDxg

open Lib (Reach runAll reach_of_runAll patchAll)

/-! ## Relocation -/

/-- What relocation writes into the first dword of a field. -/
def relocatedLow (major : Gfx) (base : Nat) : UInt32 :=
  if major.ge11 then ptr48Low32 base else ptrLow32 base

/-- What relocation makes of the second dword. -/
def relocatedHigh (major : Gfx) (base : Nat) (hi : UInt32) : UInt32 :=
  if major.ge11 then ptr48High8 base else (hi &&& 0xFFFF0000) ||| ptrHigh32 base

/-- `RelocateCmdbufScratchBase` on the dwords of the indirect buffer. -/
def relocateWords (major : Gfx) (base : Nat) (offsets : List Nat) (ws : List UInt32) :
    List UInt32 :=
  patchAll (relocatedLow major base) (relocatedHigh major base) ws (offsets.map (· / 4))

/-- The dwords that `Submit` passes to the driver. -/
def ComputeQueue.submitWords (e : DwordEnv) (q : ComputeQueue) : List UInt32 :=
  relocateWords q.device.major (scratchAddr q.scratchBase) q.scratchBaseOffsetArray
    (Pm4.ibWords e q.ib)

/-- The fields encode the address, and everything else is as it was built. -/
structure Relocated (base : Nat) (fields : List ScratchField) (built ws : List UInt32) : Prop where
  length : ws.length = built.length
  encodes : ∀ f ∈ fields, ∃ lo hi, ws[f.index]? = some lo ∧ ws[f.index + 1]? = some hi ∧
    f.kind.decode lo hi = base
  shared : ∀ f ∈ fields, f.kind = .buffer → ∃ hi hi', built[f.index + 1]? = some hi ∧
    ws[f.index + 1]? = some hi' ∧ hi'.toNat / 2 ^ 16 = hi.toNat / 2 ^ 16
  frame : ∀ i, (∀ f ∈ fields, i ≠ f.index ∧ i ≠ f.index + 1) → ws[i]? = built[i]?

namespace ComputeQueue

open Pm4

/-! ## What a kernel dispatch records -/

variable {q q' : ComputeQueue} {h : Host} {p : AqlPacket} {k : KernelCode}

theorem field_pointerData : ∀ u ∈ q.pointerData p k, ∀ o, u.field o = none := by
  intro u hu o
  simp only [pointerData, List.mem_append, List.mem_ite_nil_right, List.mem_cons,
    List.not_mem_nil, or_false] at hu
  rcases hu with ((⟨_, rfl | rfl⟩ | ⟨_, rfl | rfl⟩) | ⟨_, rfl | rfl⟩) | ⟨_, rfl | rfl⟩ <;> rfl

/-- The fields in the user data of a dispatch. -/
theorem userFields_userData (q : ComputeQueue) (p : AqlPacket) (k : KernelCode) (i : Nat) :
    userFields i (q.userData p k) =
      (if k.enableSgprPrivateSegmentBuffer then [⟨.buffer, i⟩] else []) ++
      (if k.enableSgprFlatScratchInit then
        [⟨.flat, i + (q.bufferData k ++ q.pointerData p k).length⟩] else []) := by
  have hflat : ∀ i, userFields i (q.flatData k ++ q.sizeData k) =
      if k.enableSgprFlatScratchInit then [⟨.flat, i⟩] else [] := by
    intro i
    rw [flatData, sizeData]
    cases k.enableSgprFlatScratchInit <;> cases k.enableSgprPrivateSegmentSize <;> rfl
  have hrest : ∀ i, userFields i (q.pointerData p k ++ (q.flatData k ++ q.sizeData k)) =
      if k.enableSgprFlatScratchInit then [⟨.flat, i + (q.pointerData p k).length⟩] else [] := by
    intro i
    rw [userFields_append field_pointerData, hflat]
  rw [userData, List.append_assoc, List.append_assoc, List.length_append]
  cases hbuf : k.enableSgprPrivateSegmentBuffer with
  | false =>
      have hnil : q.bufferData k = [] := by
        rw [bufferData, hbuf]
        rfl
      rw [hnil, List.nil_append, hrest, List.length_nil, Nat.zero_add]
      rfl
  | true =>
      have hcons : q.bufferData k = [.scratchLo q.amdQueue.scratchBase,
          .scratchHi q.amdQueue.scratchBase, .srdNumRecords q.amdQueue.scratchSize,
          .srdStride k.enableWavefrontSize32] := by
        rw [bufferData, hbuf]
        rfl
      rw [hcons]
      show ⟨.buffer, i⟩ :: userFields (i + 4)
        (q.pointerData p k ++ (q.flatData k ++ q.sizeData k)) = _
      rw [hrest, Nat.add_assoc]
      rfl

/-- The kernel keeps to the assertions of `BuildDispatch`: from gfx11 on, it has no scratch address
in its user data. -/
def Asserted (major : Gfx) (k : KernelCode) : Prop :=
  major.ge11 = true → k.enableSgprPrivateSegmentBuffer = false ∧ k.enableSgprFlatScratchInit = false

instance (major : Gfx) (k : KernelCode) : Decidable (Asserted major k) :=
  inferInstanceAs (Decidable (_ → _))

/-- A kernel dispatch records the offsets of the fields of its commands, in order. -/
theorem kernelScratchOffsets_eq (hk : Asserted q.device.major k) {n : Nat} (hn : q.ibSize = 4 * n) :
    q.kernelScratchOffsets h p k =
      (ibFields q.device.major n (q.kernelCommands h p k)).map fun f => 4 * f.index := by
  have hpro : ∀ i, ibFields q.device.major i (q.kernelPrologue h p) = [] :=
    fun i => ibFields_of_fieldless (fieldless_kernelPrologue q h p)
  have hepi : ∀ i, ibFields q.device.major i (q.kernelEpilogue h p) = [] :=
    fun i => ibFields_of_fieldless (fieldless_kernelEpilogue q h p)
  have hdvd : bytes (q.kernelPrologue h p) = 4 * (bytes (q.kernelPrologue h p) / 4) :=
    bytes_eq _
  rw [kernelCommands, ibFields_append, ibFields_append, ibFields_append, hpro, hepi,
    List.nil_append, List.append_nil, bytes_append, kernelScratchOffsets, kernelScratch]
  generalize bytes (q.kernelPrologue h p) = b at hdvd ⊢
  cases hge : q.device.major.ge11 with
  | true =>
      obtain ⟨hbuf, hflat⟩ := hk hge
      simp only [scratchBaseOffset, hbuf, hflat, if_true, Bool.false_eq_true, if_false,
        List.append_nil, List.map_nil, buildDispatch, ibFields, scratchFields, hge,
        List.map_cons, scratchLoOffset]
      congr 1
      omega
  | false =>
      simp only [Bool.false_eq_true, if_false, bytes_nil, Nat.add_zero, ibFields, List.nil_append,
        List.append_nil, buildDispatch, scratchFields, hge, userFields_userData, scratchBaseOffset,
        List.map_append, userDataOffset]
      congr 1
      · cases k.enableSgprPrivateSegmentBuffer with
        | false => rfl
        | true =>
            simp only [if_true, List.map_cons, List.map_nil]
            congr 1
            omega
      · cases k.enableSgprFlatScratchInit with
        | false => rfl
        | true =>
            simp only [if_true, List.map_cons, List.map_nil]
            congr 1
            omega

/-! ## The invariant -/

/-- The recorded offsets are those of the fields, and all scratch addresses can be encoded. -/
structure Traced (q : ComputeQueue) : Prop where
  size : bytes q.ib = q.ibSize
  offsets : q.scratchBaseOffsetArray =
    (ibFields q.device.major 0 q.ib).map fun f => 4 * f.index
  scratch : ∀ c ∈ q.ib, ∀ s ∈ c.scratch, Encodable s.addr
  base : ∀ s ∈ q.scratchBase, Encodable s.addr
  srd : ∀ s ∈ q.amdQueue.scratchBase, Encodable s.addr

/-- The scratch addresses of the queue are as good after `UpdateScratch` as the host's. -/
theorem Traced.updateScratch (T : Traced q) (hh : ∀ addr ∈ h.scratch, Encodable addr) (n : Nat)
    (wave32 : Bool) :
    (∀ s ∈ (q.updateScratch h n wave32).scratchBase, Encodable s.addr) ∧
      ∀ s ∈ (q.updateScratch h n wave32).amdQueue.scratchBase, Encodable s.addr := by
  have hover : (q.reportOverflow n wave32).scratchBase = q.scratchBase ∧
      (q.reportOverflow n wave32).amdQueue = q.amdQueue := by
    rw [reportOverflow]
    split <;> exact ⟨rfl, rfl⟩
  have hkeep : (∀ s ∈ (q.reportOverflow n wave32).scratchBase, Encodable s.addr) ∧
      ∀ s ∈ (q.reportOverflow n wave32).amdQueue.scratchBase, Encodable s.addr := by
    rw [hover.1, hover.2]
    exact ⟨T.base, T.srd⟩
  rw [ComputeQueue.updateScratch]
  split
  next => exact hkeep
  next =>
    cases hnew : h.scratch with
    | none => exact hkeep
    | some addr =>
        have haddr := hh addr hnew
        refine ⟨fun s hs => ?_, fun s hs => ?_⟩
        · cases hs
          exact haddr
        · cases hs
          exact haddr

/-- The commands of a kernel dispatch point to the scratch buffers of the queue. -/
theorem scratch_kernelCommands {c : Pm4} {s : Scratch} (hc : c ∈ q.kernelCommands h p k)
    (hs : s ∈ c.scratch) : s ∈ q.scratchBase ∨ s ∈ q.amdQueue.scratchBase := by
  simp only [kernelCommands, List.mem_append, List.mem_singleton] at hc
  rcases hc with ((hpro | hscr) | rfl) | hepi
  · exact absurd hs (scratch_of_fieldless (fieldless_kernelPrologue q h p c hpro) s)
  · rw [kernelScratch] at hscr
    split at hscr
    next =>
      rcases List.mem_pair.mp hscr with rfl | rfl
      · exact Or.inl (Option.mem_toList.mp hs)
      · cases hs
    next => cases hscr
  · obtain ⟨u, hu, hus⟩ := List.mem_filterMap.mp hs
    simp only [userData, List.mem_append] at hu
    rcases hu with ((hbuf | hptr) | hflat) | hsize
    · simp only [bufferData, List.mem_ite_nil_right, List.mem_cons, List.not_mem_nil,
        or_false] at hbuf
      rcases hbuf.2 with rfl | rfl | rfl | rfl
      · exact Or.inr hus
      · exact Or.inr hus
      · cases hus
      · cases hus
    · have hnone := field_pointerData u hptr 0
      cases u with
      | scratchLo b => cases hnone
      | scratchHi b => cases hnone
      | _ => cases hus
    · simp only [flatData, List.mem_ite_nil_right, List.mem_cons, List.not_mem_nil,
        or_false] at hflat
      rcases hflat.2 with rfl | rfl
      · exact Or.inl hus
      · exact Or.inl hus
    · simp only [sizeData, List.mem_ite_nil_right, List.mem_singleton] at hsize
      rw [hsize.2] at hus
      cases hus
  · exact absurd hs (scratch_of_fieldless (fieldless_kernelEpilogue q h p c hepi) s)

/-- What is accepted with the offsets of its fields keeps the invariant. -/
theorem Traced.accept {written : List Pm4} (T : Traced q) (hacc : q.Accepts written q')
    (hoff : q'.scratchBaseOffsetArray = q.scratchBaseOffsetArray ++
      (ibFields q.device.major (q.ibSize / 4) written).map fun f => 4 * f.index)
    (hscr : ∀ c ∈ written, ∀ s ∈ c.scratch, Encodable s.addr)
    (hbase : ∀ s ∈ q'.scratchBase, Encodable s.addr)
    (hsrd : ∀ s ∈ q'.amdQueue.scratchBase, Encodable s.addr) : Traced q' := by
  refine ⟨?_, ?_, fun c hc => ?_, hbase, hsrd⟩
  · rw [hacc.ib, bytes_append, T.size, hacc.ibSize]
  · rw [hoff, T.offsets, hacc.ib, hacc.device, ibFields_append, List.map_append, Nat.zero_add,
      T.size]
  · rw [hacc.ib] at hc
    cases List.mem_append.mp hc with
    | inl hold => exact T.scratch c hold
    | inr hnew => exact hscr c hnew

/-- Relocation at the recorded offsets. -/
theorem Traced.relocated (T : Traced q) (e : DwordEnv) :
    Relocated (scratchAddr q.scratchBase) (ibFields q.device.major 0 q.ib) (ibWords e q.ib)
      (q.submitWords e) := by
  have henc : Encodable (scratchAddr q.scratchBase) := by
    cases hbase : q.scratchBase with
    | none => exact ⟨Nat.dvd_zero _, Nat.two_pow_pos 48⟩
    | some s => exact T.base s hbase
  have hflat : ∀ f ∈ ibFields q.device.major 0 q.ib, f.kind = .flat →
      ∃ hi, (ibWords e q.ib)[f.index + 1 - 0]? = some hi ∧ hi.toNat < 2 ^ 16 :=
    ibFields_flat fun c hc s hs => (T.scratch c hc s hs).2
  have hoff : q.scratchBaseOffsetArray.map (· / 4) =
      (ibFields q.device.major 0 q.ib).map ScratchField.index := by
    rw [T.offsets, List.map_map]
    exact List.map_congr_left fun f _ => Nat.mul_div_cancel_left _ (by decide)
  rw [submitWords, relocateWords, hoff]
  generalize scratchAddr q.scratchBase = base at henc ⊢
  have hat : ∀ f ∈ ibFields q.device.major 0 q.ib, ∃ hi, (ibWords e q.ib)[f.index + 1]? = some hi ∧
      (patchAll (relocatedLow q.device.major base) (relocatedHigh q.device.major base)
        (ibWords e q.ib) ((ibFields q.device.major 0 q.ib).map ScratchField.index))[f.index]? =
          some (relocatedLow q.device.major base) ∧
      (patchAll (relocatedLow q.device.major base) (relocatedHigh q.device.major base)
        (ibWords e q.ib) ((ibFields q.device.major 0 q.ib).map ScratchField.index))[f.index + 1]? =
          some (relocatedHigh q.device.major base hi) := by
    intro f hf
    have hend := (ibFields_bounds (e := e) f hf).2.1
    have hget : (ibWords e q.ib)[f.index + 1]? = some ((ibWords e q.ib)[f.index + 1]) :=
      List.getElem?_eq_getElem (by omega)
    obtain ⟨hlo, hhi⟩ := (spaced_ibFields e q.ib 0).getElem?_patchAll
      (List.mem_map_of_mem hf) (by omega : f.index < (ibWords e q.ib).length)
    rw [hget] at hhi
    exact ⟨_, hget, hlo, hhi⟩
  refine ⟨Lib.length_patchAll, fun f hf => ?_, fun f hf hkind => ?_, fun i hi => ?_⟩
  · obtain ⟨hi, hget, hlo, hhi⟩ := hat f hf
    have hreg := (ibFields_bounds (e := e) f hf).2.2
    refine ⟨_, _, hlo, hhi, ?_⟩
    rw [relocatedLow, relocatedHigh]
    cases hkind : f.kind with
    | register =>
        rw [if_pos (hreg.mp hkind), if_pos (hreg.mp hkind)]
        exact decode_register henc
    | buffer =>
        have hlt : ¬ q.device.major.ge11 = true := fun hge => by
          rw [hreg.mpr hge] at hkind
          cases hkind
        rw [if_neg hlt, if_neg hlt]
        exact decode_buffer henc hi
    | flat =>
        have hlt : ¬ q.device.major.ge11 = true := fun hge => by
          rw [hreg.mpr hge] at hkind
          cases hkind
        obtain ⟨hi', hget', hlow⟩ := hflat f hf hkind
        rw [Nat.sub_zero, hget] at hget'
        cases hget'
        rw [if_neg hlt, if_neg hlt]
        exact decode_flat henc hlow
  · obtain ⟨hi, hget, _, hhi⟩ := hat f hf
    have hreg := (ibFields_bounds (e := e) f hf).2.2
    have hlt : ¬ q.device.major.ge11 = true := fun hge => by
      rw [hreg.mpr hge] at hkind
      cases hkind
    refine ⟨hi, _, hget, hhi, ?_⟩
    have hbase := henc.2
    rw [relocatedHigh, if_neg hlt, toNat_relocatedHigh henc]
    omega
  · refine Lib.getElem?_patchAll_of_apart fun j hj => ?_
    obtain ⟨f, hf, rfl⟩ := List.mem_map.mp hj
    exact hi f hf

theorem amdQueue_accept (q : ComputeQueue) (written : List Pm4) :
    (q.accept written).queue.amdQueue = q.amdQueue := by
  rw [ComputeQueue.accept]
  split <;> rfl

theorem amdQueue_leaveSignal (q : ComputeQueue) (signal : Nat) :
    (q.leaveSignal signal).amdQueue = q.amdQueue := by
  rw [leaveSignal]
  split <;> rfl

theorem amdQueue_barrierGeneric (q : ComputeQueue) (h : Host) (p : AqlPacket) :
    (q.barrierGenericAqlToPm4 h p).queue.amdQueue = q.amdQueue := by
  rw [barrierGenericAqlToPm4]
  simp only [amdQueue_accept]
  split
  · rw [amdQueue_leaveSignal]
  · rfl

theorem amdQueue_vendorSpecific (q : ComputeQueue) (h : Host) (p : AqlPacket) :
    (q.vendorSpecificAqlToPm4 h p).queue.amdQueue = q.amdQueue := by
  rw [vendorSpecificAqlToPm4]
  simp only [amdQueue_accept]
  split
  · rw [amdQueue_leaveSignal]
  · rfl

theorem amdQueue_kernelDispatch (hk : q.checkKernelDispatch h p = .ok k) :
    (q.kernelDispatchAqlToPm4 h p).queue.amdQueue =
      (q.updateScratch h p.privateSegmentSize k.enableWavefrontSize32).amdQueue := by
  rw [kernelDispatchAqlToPm4, hk]
  simp only [amdQueue_accept]
  split
  · rw [amdQueue_leaveSignal]
  · rfl

theorem kernelCode_of_check (hk : q.checkKernelDispatch h p = .ok k) :
    h.kernelCode p.kernelObject = some k := by
  rw [checkKernelDispatch] at hk
  split at hk
  next => cases hk
  next =>
    cases hc : h.kernelCode p.kernelObject with
    | none =>
        rw [hc] at hk
        cases hk
    | some k' =>
        rw [hc] at hk
        simp only at hk
        split at hk
        next => cases hk
        next =>
          split at hk
          next => cases hk
          next =>
            split at hk
            next => cases hk
            next =>
              cases hk
              rfl

/-- An accepted kernel dispatch keeps the invariant. -/
theorem Traced.kernelDispatch (T : Traced q) (hk : q.checkKernelDispatch h p = .ok k)
    (hh : ∀ addr ∈ h.scratch, Encodable addr) (hkernel : Asserted q.device.major k)
    (hacc : q.Accepts (q.kernelDispatchAqlToPm4 h p).written
      (q.kernelDispatchAqlToPm4 h p).queue)
    (hw : (q.kernelDispatchAqlToPm4 h p).written =
      (q.updateScratch h p.privateSegmentSize k.enableWavefrontSize32).kernelCommands h p k) :
    Traced (q.kernelDispatchAqlToPm4 h p).queue := by
  have hsame := same_updateScratch q h p.privateSegmentSize k.enableWavefrontSize32
  have hupd := (updateScratch_change q h p.privateSegmentSize k.enableWavefrontSize32).2
  have hs := sameScratch_kernelDispatch hk
  have hamd := amdQueue_kernelDispatch hk
  obtain ⟨hbase, hsrd⟩ := T.updateScratch hh p.privateSegmentSize k.enableWavefrontSize32
  have hsize : q.ibSize = 4 * (q.ibSize / 4) := by
    rw [← T.size]
    exact bytes_eq _
  generalize q.updateScratch h p.privateSegmentSize k.enableWavefrontSize32 = u at *
  rw [hw] at hacc
  refine T.accept hacc ?_ (fun c hc s hsc => ?_) ?_ ?_
  · have hoff : u.kernelScratchOffsets h p k = _ :=
      kernelScratchOffsets_eq (hsame.device ▸ hkernel) (hsame.ibSize.trans hsize)
    rw [hs.offsets, hoff, hsame.device]
    show u.scratchBaseOffsetArray ++ _ = _
    rw [hupd]
  · cases scratch_kernelCommands hc hsc with
    | inl hb => exact hbase s hb
    | inr hd => exact hsrd s hd
  · rw [hs.base]
    exact hbase
  · rw [hamd]
    exact hsrd

end ComputeQueue

namespace Machine

open ComputeQueue Pm4

variable {m m' : Machine} {h : Host} {d : Driver}

/-- A kernel dispatch gets scratch memory at an address that can be encoded, and its kernel keeps
to the assertions. -/
def Allowed (m : Machine) : Event → Prop
  | .run h _ => m.pc = .switch → m.packet.type = some .kernelDispatch →
      (∀ addr ∈ h.scratch, Encodable addr) ∧
        ∀ k ∈ h.kernelCode m.packet.kernelObject, Asserted m.queue.device.major k
  | _ => True

instance (m : Machine) : (e : Event) → Decidable (Allowed m e)
  | .run _ _ => inferInstanceAs (Decidable (_ → _ → _ ∧ _))
  | .write _ _ | .ring _ | .complete => inferInstanceAs (Decidable True)

theorem amdQueue_unchecked (h : Host) (hp : Unchecked m.packet) :
    (m.translation h).queue.amdQueue = m.queue.amdQueue := by
  rw [translation]
  rcases hp with hp | hp | hp
  · rw [hp]
    exact amdQueue_barrierGeneric ..
  · rw [hp]
    exact amdQueue_barrierGeneric ..
  · rw [hp]
    exact amdQueue_vendorSpecific ..

theorem switch_traced (T : Traced m.queue) (hpc : m.pc = .switch) (hok : Allowed m (.run h d))
    (hres : SwitchResult m h m') : Until Traced m' := by
  cases hres with
  | kernel htype hst hacc =>
      have htrans := translation_kernel h htype
      rw [htrans] at hst hacc
      refine Or.inr ?_
      show Traced (m.translation h).queue
      rw [htrans]
      obtain ⟨hh, hkernel⟩ := hok hpc htype
      obtain ⟨k, hk, hw⟩ := kernelDispatch_success hst
      exact T.kernelDispatch hk hh (hkernel k (kernelCode_of_check hk)) hacc hw
  | accepted hp hacc =>
      obtain ⟨hsame, hfree⟩ := translation_unchecked h hp
      have T' : Traced (m.translation h).queue := by
        refine T.accept hacc ?_ (fun c hc s hs => ?_) ?_ ?_
        · rw [hsame.offsets, ibFields_of_fieldless hfree, List.map_nil, List.append_nil]
        · exact absurd hs (scratch_of_fieldless (hfree c hc) s)
        · rw [hsame.base]
          exact T.base
        · rw [amdQueue_unchecked h hp]
          exact T.srd
      exact Or.inr ⟨T'.size, T'.offsets, T'.scratch, T'.base, T'.srd⟩
  | rejected hp _ hbuf =>
      obtain ⟨hsame, _⟩ := translation_unchecked h hp
      refine Or.inr ⟨?_, ?_, ?_, ?_, ?_⟩
      · show bytes (m.translation h).queue.ib = (m.translation h).queue.ibSize
        rw [hbuf.ib, hbuf.ibSize]
        exact T.size
      · show (m.translation h).queue.scratchBaseOffsetArray =
          (ibFields (m.translation h).queue.device.major 0 (m.translation h).queue.ib).map _
        rw [hsame.offsets, hbuf.ib, hbuf.device]
        exact T.offsets
      · show ∀ c ∈ (m.translation h).queue.ib, _
        rw [hbuf.ib]
        exact T.scratch
      · show ∀ s ∈ (m.translation h).queue.scratchBase, _
        rw [hsame.base]
        exact T.base
      · show ∀ s ∈ (m.translation h).queue.amdQueue.scratchBase, _
        rw [amdQueue_unchecked h hp]
        exact T.srd
  | invalid => exact Or.inr T
  | failed q status => exact Or.inl ⟨status, rfl⟩

theorem step_traced {e : Event} (I : Until Traced m) (hok : Allowed m e) (hs : m.step e = some m') :
    Until Traced m' := by
  refine Until.step I hs (fun _ _ T => ⟨T.size, T.offsets, T.scratch, T.base, T.srd⟩)
    (fun _ _ _ T => ⟨T.size, T.offsets, T.scratch, T.base, T.srd⟩) (fun _ _ _ _ T => ?_) ?_
  · exact ⟨rfl, rfl, fun c hc => absurd hc List.not_mem_nil, T.base, T.srd⟩
  · intro h d he hpc T hres
    subst he
    exact switch_traced T hpc hok hres

theorem step_device {device : Device} {e : Event} (I : Until (·.device = device) m)
    (hs : m.step e = some m') : Until (·.device = device) m' := by
  refine Until.step I hs (fun _ _ hd => hd) (fun _ _ _ hd => hd) (fun _ _ _ _ hd => hd) ?_
  intro h d _ _ hd hres
  cases hres with
  | kernel _ _ hacc => exact Or.inr (hacc.device.trans hd)
  | accepted _ hacc => exact Or.inr (hacc.device.trans hd)
  | rejected _ _ hsame => exact Or.inr (hsame.device.trans hd)
  | invalid => exact Or.inr hd
  | failed q status => exact Or.inl ⟨status, rfl⟩

/-- In every run of kernels that keep to the assertions, whatever is merged and however often the
scratch memory is replaced, relocation makes all scratch fields encode the address of the moment,
and leaves every other dword as its `Build` function wrote it. -/
theorem relocates_exactly {e : DwordEnv} {ringSize : Nat} {ring : Nat → AqlPacket}
    {cmdbufAddr : Nat}
    (h : Reach step Allowed (init e.device ringSize ring cmdbufAddr) m) (hpc : m.pc = .submit) :
    Relocated (scratchAddr m.queue.scratchBase) (ibFields e.device.major 0 m.queue.ib)
      (ibWords e m.queue.ib) (m.queue.submitWords e) := by
  have I : Until Traced m ∧ Until (·.device = e.device) m := by
    refine h.invariant (I := fun m => Until Traced m ∧ Until (·.device = e.device) m) ?_ ?_
    · refine ⟨Or.inr ⟨rfl, rfl, fun c hc => absurd hc List.not_mem_nil, ?_, ?_⟩, Or.inr rfl⟩
      · exact fun s hs => absurd hs (Option.not_mem_none s)
      · exact fun s hs => absurd hs (Option.not_mem_none s)
    · intro m e m' I hok hs
      exact ⟨step_traced I.1 hok hs, step_device I.2 hs⟩
  have hrel := (I.1.at_pc hpc nofun).relocated e
  have hdevice : m.queue.device = e.device := I.2.at_pc hpc nofun
  rw [hdevice] at hrel
  exact hrel

/-- A host whose kernels have a scratch descriptor and a flat scratch base in their user data. -/
def flatHost (scratch : Nat) : Host where
  kernelCode := fun addr =>
    if addr = 0x7000 then some { kernelCodeProperties := 2 ^ 0 + 2 ^ 5 } else none
  scratch := some scratch

/-- The thread takes steps with the answers of that host. -/
def flatRuns (scratch : Nat) (n : Nat) : List Event := List.replicate n (.run (flatHost scratch) {})

/-- Kernel dispatches that each need more scratch than the one before. -/
def mergingRing (slot : Nat) : AqlPacket :=
  sampleKernel (if slot = 2 then 0x9000 else 0) (16 * 2 ^ slot)

/-- The sample device, as one of a generation. -/
def sampleEnv (major : Gfx) : DwordEnv where
  device := { sampleDevice with major := major }

/-- The second and the third dispatch are merged, each with a scratch buffer of its own. -/
theorem relocates_exactly_merged :
    ∃ m, Reach step Allowed (init (sampleEnv .gfx10).device 4 mergingRing 0x100000) m ∧
      m.queue.ib.flatMap Pm4.scratch = [⟨0x20000, 1⟩, ⟨0x20000, 1⟩, ⟨0x20000, 1⟩, ⟨0x20000, 1⟩,
        ⟨0x30000, 2⟩, ⟨0x30000, 2⟩, ⟨0x30000, 2⟩, ⟨0x30000, 2⟩] ∧
      Relocated 0x30000 (ibFields .gfx10 0 m.queue.ib) (ibWords (sampleEnv .gfx10) m.queue.ib)
        (m.queue.submitWords (sampleEnv .gfx10)) := by
  have hrun : (runAll step Allowed (init (sampleEnv .gfx10).device 4 mergingRing 0x100000)
      (.ring 3 :: flatRuns 0x10000 8 ++ flatRuns 0x20000 4 ++ flatRuns 0x30000 2)).map
        (fun m => (m.pc, m.queue.scratchBase, m.queue.ib.flatMap Pm4.scratch)) =
      some (.submit, some ⟨0x30000, 2⟩, [⟨0x20000, 1⟩, ⟨0x20000, 1⟩, ⟨0x20000, 1⟩, ⟨0x20000, 1⟩,
        ⟨0x30000, 2⟩, ⟨0x30000, 2⟩, ⟨0x30000, 2⟩, ⟨0x30000, 2⟩]) := by
    decide
  obtain ⟨m, hm, hproj⟩ := Option.map_eq_some_iff.mp hrun
  simp only [Prod.mk.injEq] at hproj
  obtain ⟨hpc, hbase, hscratch⟩ := hproj
  have hreach := reach_of_runAll hm
  have hrel := relocates_exactly (e := sampleEnv .gfx10) hreach hpc
  rw [hbase] at hrel
  exact ⟨m, hreach, hscratch, hrel⟩

/-- The host's scratch buffers are at addresses that can be encoded. -/
def Placed (_ : Machine) : Event → Prop
  | .run h _ => ∀ addr ∈ h.scratch, Encodable addr
  | _ => True

instance (m : Machine) : (e : Event) → Decidable (Placed m e)
  | .run h _ => inferInstanceAs (Decidable (∀ addr ∈ h.scratch, Encodable addr))
  | .write _ _ | .ring _ | .complete => inferInstanceAs (Decidable True)

/-- Without the assertions of `BuildDispatch`, a kernel on gfx11 may have a scratch descriptor in
its user data, and the first dword of it is overwritten as if it were a scratch register. -/
theorem relocates_other_dwords :
    ¬ ∀ (e : DwordEnv) (ringSize : Nat) (ring : Nat → AqlPacket) (cmdbufAddr : Nat) (m : Machine),
      Reach step Placed (init e.device ringSize ring cmdbufAddr) m → m.pc = .submit →
      Relocated (scratchAddr m.queue.scratchBase) (ibFields e.device.major 0 m.queue.ib)
        (ibWords e m.queue.ib) (m.queue.submitWords e) := by
  intro hall
  have hrun : (runAll step Placed (init (sampleEnv .gfx11).device 4 mergingRing 0x100000)
      (.ring 3 :: flatRuns 0x10000 5)).map (fun m => (m.pc, ibFields .gfx11 0 m.queue.ib,
        (ibWords (sampleEnv .gfx11) m.queue.ib)[38]?,
        (m.queue.submitWords (sampleEnv .gfx11))[38]?)) =
      some (.submit, [⟨.register, 10⟩], some 0x10000, some 0x100) := by
    decide
  obtain ⟨m, hm, hproj⟩ := Option.map_eq_some_iff.mp hrun
  simp only [Prod.mk.injEq] at hproj
  obtain ⟨hpc, hfields, hbuilt, hws⟩ := hproj
  have hrel := hall (sampleEnv .gfx11) 4 mergingRing 0x100000 m (reach_of_runAll hm) hpc
  have hsame := hrel.frame 38 fun f hf => by
    have hone : f ∈ [(⟨.register, 10⟩ : ScratchField)] := hfields ▸ hf
    rw [List.mem_singleton.mp hone]
    decide
  rw [hbuilt, hws] at hsame
  exact absurd hsame (by decide)

end Machine

end RocDxg
