import RocDxg.Queue.Process

/-!
# Scratch memory

A kernel dispatch that needs more scratch memory than there is makes the translator
allocate a larger buffer and delete the old one at once.  The commands of the indirect
buffer under construction are patched before it is submitted, so what is submitted
encodes the buffer of that moment and no other (`relocate_scratch`).  Indirect buffers
that are in flight keep the buffer they were submitted with, and nothing waits for them
before it is deleted.

`scratch_live` gives the exact condition: the buffers in use stay allocated as long as a
buffer is replaced only when no indirect buffer in flight uses it, and a step that
replaces one in use breaks it.
-/

namespace RocDxg

open Lib (Reach runAll reach_of_runAll)

namespace Pm4

/-! ## The fields that hold a scratch address

A field is one dword of a pair that `RelocateCmdbufScratchBase` writes together.  It is
named by the offset of the pair from the start of the indirect buffer. -/

end Pm4

/-- The field a user data dword at an offset is. -/
def UserData.field (offset : Nat) : UserData → Option (Nat × Option Scratch)
  | .scratchLo base => some (offset, base)
  | .scratchHi base => some (offset - 4, base)
  | _ => none

namespace Pm4

/-- The command at byte position `pos` has a field of the pair at `o` with value `v`. -/
def HasField (pos o : Nat) (v : Option Scratch) : Pm4 → Prop
  | setScratch base => o = pos + scratchLoOffset ∧ v = base
  | dispatch d => ∃ (j : Nat) (u : UserData), d.userData[j]? = some u ∧
      u.field (pos + userDataOffset + 4 * j) = some (o, v)
  | _ => False

/-- A command of the list, which starts at byte position `pos`, has the field. -/
def HasFields (o : Nat) (v : Option Scratch) : Nat → List Pm4 → Prop
  | _, [] => False
  | pos, c :: cs => c.HasField pos o v ∨ HasFields o v (pos + c.size) cs

variable {pos o o' : Nat} {v base : Option Scratch} {cs cs' : List Pm4}

theorem hasFields_append :
    HasFields o v pos (cs ++ cs') ↔ HasFields o v pos cs ∨ HasFields o v (pos + bytes cs) cs' := by
  induction cs generalizing pos with
  | nil => simp [HasFields]
  | cons c cs ih =>
      rw [List.cons_append, HasFields, ih, HasFields, bytes_cons, Nat.add_assoc, or_assoc]

theorem field_bounds {j : Nat} {u : UserData} (h : u.field (pos + userDataOffset + 4 * j) = some (o, v)) :
    o = pos + userDataOffset + 4 * j ∨ o = pos + userDataOffset + 4 * j - 4 := by
  cases u with
  | scratchLo b =>
      cases h
      exact Or.inl rfl
  | scratchHi b =>
      cases h
      exact Or.inr rfl
  | _ => cases h

/-- The fields of a command lie inside it. -/
theorem HasField.bounds {c : Pm4} (h : c.HasField pos o v) : pos ≤ o ∧ o < pos + c.size := by
  cases c with
  | setScratch b =>
      obtain ⟨rfl, _⟩ := h
      simp only [scratchLoOffset, size]
      omega
  | dispatch d =>
      obtain ⟨j, u, hj, hu⟩ := h
      have hlen := d.userData_length
      have hlt := (List.getElem?_eq_some_iff.mp hj).1
      simp only [size]
      cases field_bounds hu with
      | inl heq =>
          simp only [userDataOffset] at heq
          omega
      | inr heq =>
          simp only [userDataOffset] at heq
          omega
  | _ => exact False.elim h

theorem HasFields.le (h : HasFields o v pos cs) : pos ≤ o := by
  induction cs generalizing pos with
  | nil => exact False.elim h
  | cons c cs ih =>
      cases h with
      | inl hc => exact hc.bounds.1
      | inr hcs => exact Nat.le_trans (Nat.le_add_right ..) (ih hcs)

/-- After a write at an offset, a field has the value written or is another one. -/
theorem HasField.of_patch {c : Pm4} (hpos : pos ≤ o)
    (h : (c.patch base (o - pos)).HasField pos o' v) :
    v = base ∨ (c.HasField pos o' v ∧ o' ≠ o) := by
  cases c with
  | setScratch b =>
      rw [patch] at h
      split at h
      next => exact Or.inl h.2
      next hne =>
        refine Or.inr ⟨h, ?_⟩
        have := h.1
        omega
  | dispatch d =>
      obtain ⟨j, u, hj, hu⟩ := h
      simp only at hj
      rw [List.getElem?_set] at hj
      split at hj
      next heq =>
        split at hj
        · cases hj
          cases hu
          exact Or.inl rfl
        · cases hj
      next hhi =>
        rw [List.getElem?_set] at hj
        split at hj
        next heq =>
          split at hj
          · cases hj
            cases hu
            exact Or.inl rfl
          · cases hj
        next hlo =>
          refine Or.inr ⟨⟨j, u, hj, hu⟩, ?_⟩
          simp only [userDataOffset] at hhi hlo hu
          cases field_bounds hu with
          | inl heq =>
              simp only [userDataOffset] at heq
              omega
          | inr heq =>
              simp only [userDataOffset] at heq
              omega
  | _ => exact False.elim h

theorem size_patch (c : Pm4) (base : Option Scratch) (offset : Nat) :
    (c.patch base offset).size = c.size := by
  cases c with
  | setScratch b =>
      rw [patch]
      split <;> rfl
  | _ => rfl

theorem HasFields.of_patchAt (hpos : pos ≤ o) (h : HasFields o' v pos (patchAt base (o - pos) cs)) :
    v = base ∨ (HasFields o' v pos cs ∧ o' ≠ o) := by
  induction cs generalizing pos with
  | nil => exact False.elim h
  | cons c cs ih =>
      rw [patchAt] at h
      split at h
      next hlt =>
        cases h with
        | inl hc =>
            cases hc.of_patch hpos with
            | inl heq => exact Or.inl heq
            | inr hold => exact Or.inr ⟨Or.inl hold.1, hold.2⟩
        | inr hcs =>
            -- the rest of the list starts behind the offset
            rw [size_patch] at hcs
            refine Or.inr ⟨Or.inr hcs, ?_⟩
            have := hcs.le
            omega
      next hge =>
        cases h with
        | inl hc =>
            refine Or.inr ⟨Or.inl hc, ?_⟩
            have := hc.bounds.2
            omega
        | inr hcs =>
            rw [Nat.sub_sub] at hcs
            cases ih (by omega : pos + c.size ≤ o) hcs with
            | inl heq => exact Or.inl heq
            | inr hold => exact Or.inr ⟨Or.inr hold.1, hold.2⟩

/-- Relocation leaves no field of a recorded pair with another value. -/
theorem HasFields.of_relocate {offsets : List Nat}
    (h : HasFields o' v 0 (offsets.foldl (fun ib o => patchAt base o ib) cs)) :
    v = base ∨ (HasFields o' v 0 cs ∧ o' ∉ offsets) := by
  induction offsets generalizing cs with
  | nil => exact Or.inr ⟨h, List.not_mem_nil⟩
  | cons o offsets ih =>
      rw [List.foldl_cons] at h
      cases ih h with
      | inl heq => exact Or.inl heq
      | inr hold =>
          have hat : HasFields o' v 0 (patchAt base (o - 0) cs) := hold.1
          cases hat.of_patchAt (Nat.zero_le o) with
          | inl heq => exact Or.inl heq
          | inr hold' =>
              refine Or.inr ⟨hold'.1, ?_⟩
              intro hmem
              cases List.mem_cons.mp hmem with
              | inl heq => exact hold'.2 heq
              | inr hmem => exact hold.2 hmem

/-- Every scratch address of a command is in a field. -/
theorem hasField_of_scratch (pos : Nat) {c : Pm4} {s : Scratch} (h : s ∈ c.scratch) :
    ∃ o, c.HasField pos o (some s) := by
  cases c with
  | setScratch b =>
      rw [scratch, Option.mem_toList] at h
      exact ⟨_, rfl, h.symm⟩
  | dispatch d =>
      obtain ⟨u, hu, hs⟩ := List.mem_filterMap.mp h
      obtain ⟨j, hj⟩ := List.getElem?_of_mem hu
      cases u with
      | scratchLo b =>
          cases hs
          exact ⟨_, j, _, hj, rfl⟩
      | scratchHi b =>
          cases hs
          exact ⟨_, j, _, hj, rfl⟩
      | _ => cases hs
  | _ => cases h

theorem hasFields_of_scratch (pos : Nat) {c : Pm4} {s : Scratch} (hc : c ∈ cs) (hs : s ∈ c.scratch) :
    ∃ o, HasFields o (some s) pos cs := by
  induction cs generalizing pos with
  | nil => cases hc
  | cons c' cs ih =>
      cases List.mem_cons.mp hc with
      | inl heq =>
          obtain ⟨o, ho⟩ := hasField_of_scratch pos (heq ▸ hs)
          exact ⟨o, Or.inl ho⟩
      | inr hmem =>
          obtain ⟨o, ho⟩ := ih (pos + c'.size) hmem
          exact ⟨o, Or.inr ho⟩

/-- The command has no field. -/
def Fieldless (c : Pm4) : Prop := ∀ pos o v, ¬ c.HasField pos o v

theorem not_hasFields (h : ∀ c ∈ cs, c.Fieldless) : ¬ HasFields o v pos cs := by
  induction cs generalizing pos with
  | nil => exact id
  | cons c cs ih =>
      intro hf
      cases hf with
      | inl hc => exact h c (List.mem_cons_self ..) _ _ _ hc
      | inr hcs => exact ih (fun c' hc' => h c' (List.mem_cons_of_mem c hc')) hcs

/-- The dwords from an offset on have a field. -/
def HasUser (o : Nat) (v : Option Scratch) : Nat → List UserData → Prop
  | _, [] => False
  | o₀, u :: ds => u.field o₀ = some (o, v) ∨ HasUser o v (o₀ + 4) ds

theorem hasUser_of_getElem? {o₀ j : Nat} {u : UserData} {ds : List UserData}
    (hj : ds[j]? = some u) (hu : u.field (o₀ + 4 * j) = some (o, v)) : HasUser o v o₀ ds := by
  induction ds generalizing o₀ j with
  | nil => cases hj
  | cons d ds ih =>
      cases j with
      | zero =>
          cases hj
          exact Or.inl hu
      | succ j =>
          refine Or.inr (ih hj ?_)
          rw [← hu]
          congr 1
          omega

theorem hasUser_append {o₀ : Nat} {ds ds' : List UserData} :
    HasUser o v o₀ (ds ++ ds') ↔ HasUser o v o₀ ds ∨ HasUser o v (o₀ + ds.length * 4) ds' := by
  induction ds generalizing o₀ with
  | nil => simp [HasUser]
  | cons d ds ih =>
      rw [List.cons_append, HasUser, ih, HasUser, or_assoc, List.length_cons, Nat.add_mul, Nat.add_assoc,
        Nat.one_mul, Nat.add_comm 4]

theorem hasUser_ite {o₀ : Nat} {c : Bool} {ds : List UserData} :
    HasUser o v o₀ (if c then ds else []) ↔ c = true ∧ HasUser o v o₀ ds := by
  cases c with
  | true => simp
  | false => simp [HasUser]

end Pm4

namespace ComputeQueue

open Pm4

/-- The size of the indirect buffer is that of its commands, and the offset of every
scratch field in it is recorded. -/
structure Recorded (q : ComputeQueue) : Prop where
  size : bytes q.ib = q.ibSize
  fields : ∀ {o v}, HasFields o v 0 q.ib → o ∈ q.scratchBaseOffsetArray

/-- What is submitted encodes the scratch buffer of the moment and no other. -/
theorem relocate_scratch {q : ComputeQueue} (R : Recorded q) {c : Pm4} {s : Scratch}
    (hc : c ∈ q.relocateCmdbufScratchBase.ib) (hs : s ∈ c.scratch) : q.scratchBase = some s := by
  obtain ⟨o, ho⟩ := hasFields_of_scratch 0 hc hs
  cases HasFields.of_relocate ho with
  | inl heq => exact heq.symm
  | inr hold => exact absurd (R.fields hold.1) hold.2

/-! ## Kernel dispatches record their fields -/

/-- The user data of a dispatch has its fields where the offsets say. -/
theorem hasUser_userData {q : ComputeQueue} {p : AqlPacket} {k : KernelCode} {i o : Nat}
    {v : Option Scratch} (h : HasUser o v (i + userDataOffset) (q.userData p k)) :
    o ∈ (q.scratchBaseOffset p k).map (i + ·) := by
  have hpointer : ∀ o₀, ¬ HasUser o v o₀ (q.pointerData p k) := by
    intro o₀
    simp [pointerData, hasUser_append, hasUser_ite, HasUser, UserData.field]
  rw [userData, hasUser_append, hasUser_append, hasUser_append] at h
  rw [scratchBaseOffset, List.map_append, List.mem_append]
  rcases h with ((hbuf | hptr) | hflat) | hsize
  · rw [bufferData, hasUser_ite] at hbuf
    simp only [HasUser, UserData.field, reduceCtorEq, or_false, Option.some.injEq, Prod.mk.injEq] at hbuf
    rw [if_pos hbuf.1]
    refine Or.inl (List.mem_singleton.mpr ?_)
    show o = i + userDataOffset
    omega
  · exact absurd hptr (hpointer _)
  · rw [flatData, hasUser_ite] at hflat
    simp only [HasUser, UserData.field, or_false, Option.some.injEq, Prod.mk.injEq] at hflat
    rw [if_pos hflat.1]
    refine Or.inr (List.mem_singleton.mpr ?_)
    show o = i + (userDataOffset + _ * 4)
    omega
  · simp [sizeData, hasUser_ite, HasUser, UserData.field] at hsize

theorem fieldless_advanceRptr (q : ComputeQueue) : q.advanceRptr.Fieldless := by
  rw [advanceRptr]
  split <;> exact fun _ _ _ => id

theorem fieldless_completion (q : ComputeQueue) (signal : Nat) :
    ∀ c ∈ q.completion signal, c.Fieldless :=
  forall_mem_ite (forall_mem_singleton fun _ _ _ => id)

theorem fieldless_copyData (c : Prop) [Decidable c] (ts : Nat) :
    ∀ x ∈ (if c then [Pm4.copyData ts] else []), x.Fieldless :=
  forall_mem_ite (forall_mem_singleton fun _ _ _ => id)

theorem fieldless_kernelPrologue (q : ComputeQueue) (h : Host) (p : AqlPacket) :
    ∀ c ∈ q.kernelPrologue h p, c.Fieldless :=
  forall_mem_append (forall_mem_append (fieldless_copyData _ _)
    (forall_mem_ite (forall_mem_singleton fun _ _ _ => id)))
    (forall_mem_singleton fun _ _ _ => id)

theorem fieldless_kernelEpilogue (q : ComputeQueue) (h : Host) (p : AqlPacket) :
    ∀ c ∈ q.kernelEpilogue h p, c.Fieldless :=
  forall_mem_append (forall_mem_ite (forall_mem_append (forall_mem_append (forall_mem_append
    (forall_mem_singleton fun _ _ _ => id) (fieldless_copyData _ _))
    (forall_mem_singleton fun _ _ _ => id)) (fieldless_completion q _)))
    (forall_mem_singleton (fieldless_advanceRptr q))

theorem fieldless_barrierCommands (q : ComputeQueue) (h : Host) (p : AqlPacket) :
    ∀ c ∈ q.barrierCommands h p, c.Fieldless :=
  forall_mem_append (forall_mem_ite (forall_mem_append (forall_mem_append (forall_mem_append
    (forall_mem_append (fieldless_copyData _ _) (forall_mem_ite (forall_mem_singleton fun _ _ _ => id)))
    (fieldless_copyData _ _)) (forall_mem_singleton fun _ _ _ => id)) (fieldless_completion q _)))
    (forall_mem_singleton (fieldless_advanceRptr q))

theorem fieldless_vendorCommands (q : ComputeQueue) (h : Host) (p : AqlPacket) :
    ∀ c ∈ q.vendorCommands h p, c.Fieldless :=
  forall_mem_append (forall_mem_ite (forall_mem_append (forall_mem_singleton fun _ _ _ => id)
    (forall_mem_ite (forall_mem_append (forall_mem_append (forall_mem_append (forall_mem_append
      (fieldless_copyData _ _) (forall_mem_singleton fun _ _ _ => id)) (fieldless_copyData _ _))
      (forall_mem_singleton fun _ _ _ => id)) (fieldless_completion q _)))))
    (forall_mem_singleton (fieldless_advanceRptr q))

/-- The fields of a kernel dispatch are the ones it records. -/
theorem hasFields_kernelCommands {q : ComputeQueue} {h : Host} {p : AqlPacket} {k : KernelCode}
    {o : Nat} {v : Option Scratch} (hf : HasFields o v q.ibSize (q.kernelCommands h p k)) :
    o ∈ q.kernelScratchOffsets h p k := by
  rw [kernelCommands, hasFields_append, hasFields_append, hasFields_append] at hf
  rw [kernelScratchOffsets, List.mem_append]
  rcases hf with ((hpro | hscr) | hdisp) | hepi
  · exact absurd hpro (not_hasFields (fieldless_kernelPrologue q h p))
  · left
    rw [kernelScratch] at hscr
    split at hscr
    next hge =>
      rw [if_pos hge]
      rcases hscr with hset | hparams | hnil
      · exact List.mem_singleton.mpr hset.1
      · exact False.elim hparams
      · exact False.elim hnil
    next => exact False.elim hscr
  · right
    rcases hdisp with hd | hnil
    · obtain ⟨j, u, hj, hu⟩ := hd
      have := hasUser_userData (hasUser_of_getElem? hj hu)
      rwa [bytes_append, ← Nat.add_assoc] at this
    · exact False.elim hnil
  · exact absurd hepi (not_hasFields (fieldless_kernelEpilogue q h p))

/-- Offsets that cover the fields of what is accepted keep the record complete. -/
theorem Recorded.accept {q q' : ComputeQueue} {written : List Pm4} {offsets : List Nat}
    (R : Recorded q) (hacc : q.Accepts written q')
    (hoff : q'.scratchBaseOffsetArray = q.scratchBaseOffsetArray ++ offsets)
    (hf : ∀ {o v}, HasFields o v q.ibSize written → o ∈ offsets) : Recorded q' := by
  refine ⟨?_, ?_⟩
  · rw [hacc.ib, bytes_append, R.size, hacc.ibSize]
  · intro o v h
    rw [hacc.ib, hasFields_append, Nat.zero_add, R.size] at h
    rw [hoff, List.mem_append]
    cases h with
    | inl hold => exact Or.inl (R.fields hold)
    | inr hnew => exact Or.inr (hf hnew)

/-! ## The scratch buffers of the queue -/

/-- The queues have the same scratch buffers. -/
structure SameScratch (q q' : ComputeQueue) : Prop where
  base : q'.scratchBase = q.scratchBase
  mems : q'.scratchMems = q.scratchMems
  next : q'.nextMem = q.nextMem
  offsets : q'.scratchBaseOffsetArray = q.scratchBaseOffsetArray

theorem sameScratch_accept (q : ComputeQueue) (written : List Pm4) :
    SameScratch q (q.accept written).queue := by
  rw [accept]
  split <;> exact ⟨rfl, rfl, rfl, rfl⟩

theorem SameScratch.trans {q q' q'' : ComputeQueue} (h : SameScratch q q') (h' : SameScratch q' q'') :
    SameScratch q q'' :=
  ⟨h'.base.trans h.base, h'.mems.trans h.mems, h'.next.trans h.next, h'.offsets.trans h.offsets⟩

theorem SameScratch.leaveSignal {q q' : ComputeQueue} (h : SameScratch q q') (signal : Nat) :
    SameScratch q (q'.leaveSignal signal) := by
  refine h.trans ?_
  rw [ComputeQueue.leaveSignal]
  split <;> exact ⟨rfl, rfl, rfl, rfl⟩

theorem sameScratch_barrierGeneric (q : ComputeQueue) (h : Host) (p : AqlPacket) :
    SameScratch q (q.barrierGenericAqlToPm4 h p).queue := by
  rw [barrierGenericAqlToPm4]
  refine SameScratch.trans ?_ (sameScratch_accept ..)
  split
  · apply SameScratch.leaveSignal
    exact ⟨rfl, rfl, rfl, rfl⟩
  · exact ⟨rfl, rfl, rfl, rfl⟩

theorem sameScratch_vendorSpecific (q : ComputeQueue) (h : Host) (p : AqlPacket) :
    SameScratch q (q.vendorSpecificAqlToPm4 h p).queue := by
  rw [vendorSpecificAqlToPm4]
  refine SameScratch.trans ?_ (sameScratch_accept ..)
  split
  · apply SameScratch.leaveSignal
    exact ⟨rfl, rfl, rfl, rfl⟩
  · exact ⟨rfl, rfl, rfl, rfl⟩

/-- A kernel dispatch that passes the checks has the scratch of `UpdateScratch`, and
records the offsets of its fields. -/
theorem sameScratch_kernelDispatch {q : ComputeQueue} {h : Host} {p : AqlPacket} {k : KernelCode}
    (hk : q.checkKernelDispatch h p = .ok k) :
    let u := q.updateScratch h p.privateSegmentSize k.enableWavefrontSize32
    SameScratch { u with
        scratchBaseOffsetArray := u.scratchBaseOffsetArray ++ u.kernelScratchOffsets h p k }
      (q.kernelDispatchAqlToPm4 h p).queue := by
  rw [kernelDispatchAqlToPm4, hk]
  refine SameScratch.trans ?_ (sameScratch_accept ..)
  split
  · apply SameScratch.leaveSignal
    exact ⟨rfl, rfl, rfl, rfl⟩
  · exact ⟨rfl, rfl, rfl, rfl⟩

/-- The buffer that `UpdateScratch` deletes, if it does. -/
def updateDeletes (q : ComputeQueue) (h : Host) (privateSegmentSize : Nat) (wave32 : Bool) :
    Option Scratch :=
  if q.scratchSize < q.scratchSizeFor privateSegmentSize wave32 ∧ h.scratch ≠ none then q.scratchBase
  else none

/-- The scratch of the queue after it was asked to delete a buffer. -/
inductive ScratchChange (q : ComputeQueue) (deleted : Option Scratch) (q' : ComputeQueue) : Prop where
  | kept : deleted = none → q'.scratchBase = q.scratchBase → q'.scratchMems = q.scratchMems →
      q'.nextMem = q.nextMem → ScratchChange q deleted q'
  | replaced (addr : Nat) : deleted = q.scratchBase →
      q'.scratchBase = some ⟨addr, q.nextMem⟩ →
      q'.scratchMems = q.nextMem :: q.scratchBase.elim q.scratchMems (q.scratchMems.erase ·.mem) →
      q'.nextMem = q.nextMem + 1 → ScratchChange q deleted q'

theorem SameScratch.change {q q' : ComputeQueue} (h : SameScratch q q') : ScratchChange q none q' :=
  .kept rfl h.base h.mems h.next

theorem ScratchChange.of_same {q q' q'' : ComputeQueue} {deleted : Option Scratch}
    (h : ScratchChange q deleted q') (hbase : q''.scratchBase = q'.scratchBase)
    (hmems : q''.scratchMems = q'.scratchMems) (hnext : q''.nextMem = q'.nextMem) :
    ScratchChange q deleted q'' := by
  cases h with
  | kept hd hb hm hn => exact .kept hd (hbase.trans hb) (hmems.trans hm) (hnext.trans hn)
  | replaced addr hd hb hm hn =>
      exact .replaced addr hd (hbase.trans hb) (hmems.trans hm) (hnext.trans hn)

theorem updateScratch_change (q : ComputeQueue) (h : Host) (n : Nat) (wave32 : Bool) :
    ScratchChange q (q.updateDeletes h n wave32) (q.updateScratch h n wave32) ∧
      (q.updateScratch h n wave32).scratchBaseOffsetArray = q.scratchBaseOffsetArray := by
  have hover : SameScratch q (q.reportOverflow n wave32) ∧
      (q.reportOverflow n wave32).scratchSize = q.scratchSize := by
    rw [reportOverflow]
    split <;> exact ⟨⟨rfl, rfl, rfl, rfl⟩, rfl⟩
  obtain ⟨hsame, hsize⟩ := hover
  rw [updateScratch, updateDeletes, hsize]
  by_cases hge : q.scratchSize ≥ q.scratchSizeFor n wave32
  · rw [if_pos hge, if_neg fun hlt => Nat.not_lt.mpr hge hlt.1]
    exact ⟨hsame.change, hsame.offsets⟩
  · rw [if_neg hge]
    cases hh : h.scratch with
    | none =>
        rw [if_neg fun hs => hs.2 rfl]
        exact ⟨hsame.change, hsame.offsets⟩
    | some addr =>
        rw [if_pos ⟨Nat.lt_of_not_le hge, Option.some_ne_none addr⟩]
        refine ⟨.replaced addr rfl ?_ ?_ ?_, hsame.offsets⟩
        · simp only [replaceScratch, hsame.next]
        · simp only [replaceScratch, hsame.base, hsame.mems, hsame.next]
          cases q.scratchBase with
          | none => rfl
          | some old => rfl
        · simp only [replaceScratch, hsame.next]

/-- The queue owns its scratch buffer and no other. -/
structure Owns (q : ComputeQueue) : Prop where
  mems : q.scratchMems = q.scratchBase.toList.map Scratch.mem
  fresh : ∀ s ∈ q.scratchBase, s.mem < q.nextMem

theorem ScratchChange.owns {q q' : ComputeQueue} {deleted : Option Scratch}
    (h : ScratchChange q deleted q') (O : Owns q) : Owns q' := by
  cases h with
  | kept _ hb hm hn =>
      refine ⟨?_, ?_⟩
      · rw [hm, hb]
        exact O.mems
      · rw [hb, hn]
        exact O.fresh
  | replaced addr _ hb hm hn =>
      refine ⟨?_, ?_⟩
      · rw [hm, hb, O.mems]
        cases q.scratchBase with
        | none => rfl
        | some old => simp
      · intro s hs
        rw [hb] at hs
        cases hs
        rw [hn]
        exact Nat.lt_succ_self _

/-- A change of the scratch takes away the deleted buffer and nothing else. -/
theorem ScratchChange.mem_iff {q q' : ComputeQueue} {deleted : Option Scratch}
    (h : ScratchChange q deleted q') (O : Owns q) {mem : Nat} (hmem : mem ∈ q.scratchMems) :
    mem ∈ q'.scratchMems ↔ ∀ s ∈ deleted, mem ≠ s.mem := by
  cases h with
  | kept hd _ hm _ =>
      rw [hd, hm]
      exact ⟨fun _ s hs => absurd hs (Option.not_mem_none s), fun _ => hmem⟩
  | replaced addr hd _ hm _ =>
      rw [O.mems] at hmem hm
      rw [hd, hm]
      cases hb : q.scratchBase with
      | none =>
          rw [hb] at hmem
          cases hmem
      | some old =>
          rw [hb] at hmem
          have hlt := O.fresh old hb
          cases List.mem_singleton.mp hmem
          simp
          omega

end ComputeQueue

/-- The scratch buffers whose address the indirect buffer encodes. -/
def Ib.scratch (ib : Ib) : List Scratch := ib.cmds.flatMap Pm4.scratch

namespace Machine

open ComputeQueue Pm4

/-! ## The condition -/

/-- The scratch buffer that the next step of the thread deletes, if it does. -/
def deletes (m : Machine) (h : Host) : Option Scratch :=
  match m.pc, m.packet.type with
  | .switch, some .kernelDispatch =>
      match m.queue.checkKernelDispatch h m.packet with
      | .ok k => m.queue.updateDeletes h m.packet.privateSegmentSize k.enableWavefrontSize32
      | .error _ => none
  | _, _ => none

/-- No indirect buffer in flight uses the scratch buffer that the step deletes. -/
def Retires (m : Machine) : Event → Prop
  | .run h _ => ∀ s ∈ m.deletes h, ∀ ib ∈ m.inFlight, ∀ s' ∈ ib.scratch, s'.mem ≠ s.mem
  | _ => True

instance (m : Machine) : (e : Event) → Decidable (Retires m e)
  | .run h _ => inferInstanceAs (Decidable (∀ s ∈ m.deletes h, _))
  | .write _ _ | .ring _ | .complete => inferInstanceAs (Decidable True)

/-- The scratch buffers of the indirect buffers in flight are allocated. -/
def ScratchLive (m : Machine) : Prop :=
  ∀ ib ∈ m.inFlight, ∀ s ∈ ib.scratch, s.mem ∈ m.queue.scratchMems

instance (m : Machine) : Decidable m.ScratchLive := inferInstanceAs (Decidable (∀ ib ∈ _, _))

/-! ## The invariant -/

variable {m m' : Machine}

/-- The thread goes on only with a complete record of the scratch fields. -/
def Records (m : Machine) : Prop := (∃ status, m.pc = .failed status) ∨ Recorded m.queue

theorem translation_unchecked (h : Host) (hp : Unchecked m.packet) :
    SameScratch m.queue (m.translation h).queue ∧ ∀ c ∈ (m.translation h).written, c.Fieldless := by
  rw [translation]
  rcases hp with hp | hp | hp
  · rw [hp]
    refine ⟨sameScratch_barrierGeneric .., ?_⟩
    rw [(outcome_barrierGeneric ..).1]
    exact fieldless_barrierCommands _ _ _
  · rw [hp]
    refine ⟨sameScratch_barrierGeneric .., ?_⟩
    rw [(outcome_barrierGeneric ..).1]
    exact fieldless_barrierCommands _ _ _
  · rw [hp]
    refine ⟨sameScratch_vendorSpecific .., ?_⟩
    rw [(outcome_vendorSpecific ..).1]
    exact fieldless_vendorCommands _ _ _

/-- The translation step changes the scratch as `deletes` says. -/
theorem translation_change (h : Host) (hpc : m.pc = .switch) :
    ScratchChange m.queue (m.deletes h) (m.translation h).queue := by
  rw [deletes, translation, hpc]
  cases m.packet.type with
  | none => exact .kept rfl rfl rfl rfl
  | some type =>
      cases type with
      | kernelDispatch =>
          cases hk : m.queue.checkKernelDispatch h m.packet with
          | error status =>
              simp only [kernelDispatchAqlToPm4, hk]
              exact .kept rfl rfl rfl rfl
          | ok k =>
              have hu := (updateScratch_change m.queue h m.packet.privateSegmentSize
                k.enableWavefrontSize32).1
              have hs := sameScratch_kernelDispatch hk
              exact hu.of_same hs.base hs.mems hs.next
      | barrierAnd => exact (sameScratch_barrierGeneric ..).change
      | barrierOr => exact (sameScratch_barrierGeneric ..).change
      | vendorSpecific => exact (sameScratch_vendorSpecific ..).change
      | invalid => exact .kept rfl rfl rfl rfl
      | agentDispatch => exact .kept rfl rfl rfl rfl

theorem switchStep_change (h : Host) (hpc : m.pc = .switch) :
    ScratchChange m.queue (m.deletes h) (m.switchStep h).queue := by
  have hchange := translation_change h hpc
  rw [switchStep]
  cases htype : m.packet.type with
  | none =>
      rw [translation, htype] at hchange
      exact hchange
  | some type =>
      cases type with
      | kernelDispatch =>
          simp only
          split <;> exact hchange
      | barrierAnd => exact hchange.of_same rfl rfl rfl
      | barrierOr => exact hchange.of_same rfl rfl rfl
      | vendorSpecific => exact hchange.of_same rfl rfl rfl
      | invalid =>
          rw [translation, htype] at hchange
          exact hchange
      | agentDispatch =>
          rw [translation, htype] at hchange
          exact hchange

theorem SwitchResult.inFlight {h : Host} (hres : SwitchResult m h m') : m'.inFlight = m.inFlight := by
  cases hres with
  | _ => rfl

theorem deletes_of_ne {h : Host} (hpc : m.pc ≠ .switch) : m.deletes h = none := by
  rw [deletes]
  split
  next heq _ => exact absurd heq hpc
  next => rfl

/-- What a step of the thread does to the scratch buffers and to the work in flight. -/
theorem runStep_change {h : Host} {d : Driver} (hs : m.runStep h d = some m') :
    ScratchChange m.queue (m.deletes h) m'.queue ∧
      (m'.inFlight = m.inFlight ∨
        m.pc = .submit ∧
          m'.inFlight = m.inFlight ++ [currentIb m.queue.relocateCmdbufScratchBase]) := by
  by_cases hpc : m.pc = .switch
  · have hs' : m.switchStep h = m' := by
      rw [runStep, hpc] at hs
      exact Option.some.inj hs
    subst hs'
    exact ⟨switchStep_change h hpc, Or.inl (switchStep_result m h).inFlight⟩
  · rw [deletes_of_ne hpc]
    cases runStep_result hs with
    | switch heq => exact absurd heq hpc
    | submit heq => exact ⟨.kept rfl rfl rfl rfl, Or.inr ⟨heq, rfl⟩⟩
    | submitSignal heq => exact ⟨.kept rfl rfl rfl rfl, Or.inr ⟨heq, rfl⟩⟩
    | _ => exact ⟨.kept rfl rfl rfl rfl, Or.inl rfl⟩

/-- A translation keeps the record complete, or the thread ends. -/
theorem switch_records {h : Host} (R : Recorded m.queue) (hres : SwitchResult m h m') :
    Records m' := by
  cases hres with
  | kernel htype hst hacc =>
      have htrans := translation_kernel h htype
      rw [htrans] at hst hacc
      refine Or.inr ?_
      show Recorded (m.translation h).queue
      rw [htrans]
      obtain ⟨k, hk, hw⟩ := kernelDispatch_success hst
      rw [hw] at hacc
      have hoff := (sameScratch_kernelDispatch hk).offsets
      have hupd := updateScratch_change m.queue h m.packet.privateSegmentSize
        k.enableWavefrontSize32
      have hsame := same_updateScratch m.queue h m.packet.privateSegmentSize
        k.enableWavefrontSize32
      refine R.accept hacc (hoff.trans (congrArg (· ++ _) hupd.2)) ?_
      intro o v hf
      rw [← hsame.ibSize] at hf
      exact hasFields_kernelCommands hf
  | accepted hp hacc =>
      obtain ⟨hsame, hfree⟩ := translation_unchecked h hp
      have hoff : (m.translation h).queue.scratchBaseOffsetArray =
          m.queue.scratchBaseOffsetArray ++ [] := by
        rw [hsame.offsets, List.append_nil]
      have R' := R.accept hacc hoff fun hf => absurd hf (not_hasFields hfree)
      exact Or.inr ⟨R'.size, R'.fields⟩
  | rejected hp _ hsame =>
      obtain ⟨hscratch, _⟩ := translation_unchecked h hp
      refine Or.inr ⟨?_, ?_⟩
      · show bytes (m.translation h).queue.ib = (m.translation h).queue.ibSize
        rw [hsame.ib, hsame.ibSize]
        exact R.size
      · intro o v hf
        show o ∈ (m.translation h).queue.scratchBaseOffsetArray
        rw [hscratch.offsets]
        refine R.fields (v := v) ?_
        rw [← hsame.ib]
        exact hf
  | invalid => exact Or.inr R
  | failed q status => exact Or.inl ⟨status, rfl⟩

/-- The invariant. -/
structure ScratchInv (m : Machine) : Prop where
  records : Records m
  owns : Owns m.queue
  live : m.ScratchLive

theorem step_records {e : Event} (I : Records m) (hs : m.step e = some m') : Records m' :=
  Until.step I hs (fun _ _ R => ⟨R.size, R.fields⟩) (fun _ _ _ R => ⟨R.size, R.fields⟩)
    (fun _ _ _ _ _ => ⟨rfl, fun hf => False.elim hf⟩) (fun _ _ _ _ R hres => switch_records R hres)

theorem step_owns {e : Event} (O : Owns m.queue) (hs : m.step e = some m') : Owns m'.queue := by
  cases step_result hs with
  | write slot p heq =>
      subst heq
      exact ⟨O.mems, O.fresh⟩
  | ring wptr heq =>
      subst heq
      exact O
  | complete ib rest _ heq =>
      subst heq
      exact O
  | run h d hs => exact (runStep_change hs).1.owns O

/-- A step keeps the scratch buffers in use exactly if it meets the condition. -/
theorem live_step_iff (I : ScratchInv m) {e : Event} (hs : m.step e = some m') :
    m'.ScratchLive ↔ m.Retires e := by
  cases step_result hs with
  | write slot p heq =>
      subst heq
      exact iff_of_true I.live trivial
  | ring wptr heq =>
      subst heq
      exact iff_of_true I.live trivial
  | complete ib rest hfl heq =>
      subst heq
      refine iff_of_true ?_ trivial
      intro ib' hib'
      exact I.live ib' (hfl ▸ List.mem_cons_of_mem ib hib')
  | run h d hs =>
      obtain ⟨hchange, hflight⟩ := runStep_change hs
      rw [Retires]
      cases hflight with
      | inl hsame =>
          rw [ScratchLive, hsame]
          refine ⟨?_, ?_⟩
          · intro hlive s hs ib hib s' hs'
            exact (hchange.mem_iff I.owns (I.live ib hib s' hs')).mp (hlive ib hib s' hs') s hs
          · intro hret ib hib s' hs'
            exact (hchange.mem_iff I.owns (I.live ib hib s' hs')).mpr
              fun s hs => hret s hs ib hib s' hs'
      | inr hsub =>
          obtain ⟨hpc, hfl⟩ := hsub
          have hnone : m.deletes h = none := deletes_of_ne (by rw [hpc]; nofun)
          rw [hnone] at hchange ⊢
          refine iff_of_true ?_ (fun s hs => absurd hs (Option.not_mem_none s))
          have hkeep : ∀ {mem}, mem ∈ m.queue.scratchMems → mem ∈ m'.queue.scratchMems :=
            fun hmem => (hchange.mem_iff I.owns hmem).mpr fun s hs => absurd hs (Option.not_mem_none s)
          intro ib hib s hsc
          rw [hfl] at hib
          cases List.mem_append.mp hib with
          | inl hold => exact hkeep (I.live ib hold s hsc)
          | inr hnew =>
              rw [List.mem_singleton.mp hnew] at hsc
              obtain ⟨c, hc, hs'⟩ := List.mem_flatMap.mp hsc
              have hbase := relocate_scratch (Until.at_pc I.records hpc nofun) hc hs'
              refine hkeep ?_
              rw [I.owns.mems, hbase]
              exact List.mem_singleton.mpr rfl

/-- In every run that deletes a scratch buffer only when nothing in flight uses it, the
scratch buffers of the indirect buffers in flight are allocated; and the next step keeps
it so exactly if it meets the condition too. -/
theorem scratch_live {device : Device} {ringSize : Nat} {ring : Nat → AqlPacket} {cmdbufAddr : Nat}
    (h : Reach step Retires (init device ringSize ring cmdbufAddr) m) :
    m.ScratchLive ∧ ∀ e m', m.step e = some m' → (m'.ScratchLive ↔ m.Retires e) := by
  have I : ScratchInv m := by
    refine h.invariant (I := ScratchInv) ⟨Or.inr ⟨rfl, fun hf => False.elim hf⟩, ⟨rfl, ?_⟩, ?_⟩ ?_
    · intro s hs
      cases hs
    · intro ib hib
      cases hib
    · intro m e m' I hret hs
      exact ⟨step_records I.records hs, step_owns I.owns hs, (live_step_iff I hs).mpr hret⟩
  exact ⟨I.live, fun e m' hs => live_step_iff I hs⟩

/-- Two kernel dispatches; the second needs more scratch. -/
def growingRing (slot : Nat) : AqlPacket := sampleKernel 0x9000 (if slot = 0 then 16 else 32)

/-- The second dispatch is translated after the first has completed: the new scratch
buffer takes the place of the old one. -/
theorem scratch_live_run :
    ∃ m, Reach step Retires (init sampleDevice 4 growingRing 0x100000) m ∧
      m.queue.scratchMems = [1] ∧ m.submitted.map Ib.scratch = [[⟨0x10000, 0⟩], [⟨0x20000, 1⟩]] ∧
      m.ScratchLive := by
  have hrun : (runAll step Retires (init sampleDevice 4 growingRing 0x100000)
      (.ring 2 :: runs 0x10000 8 ++ .complete :: runs 0x20000 3)).map
        (fun m => (m.queue.scratchMems, m.submitted.map Ib.scratch)) =
      some ([1], [[⟨0x10000, 0⟩], [⟨0x20000, 1⟩]]) := by
    decide
  obtain ⟨m, hm, hproj⟩ := Option.map_eq_some_iff.mp hrun
  simp only [Prod.mk.injEq] at hproj
  have hreach := reach_of_runAll hm
  exact ⟨m, hreach, hproj.1, hproj.2, (scratch_live hreach).1⟩

/-- The second dispatch is translated while the first is in flight: the scratch buffer
of the first is deleted. -/
theorem scratch_deleted_in_flight :
    ∃ m, Reach step (fun _ _ => True) (init sampleDevice 4 growingRing 0x100000) m ∧
      m.inFlight.map Ib.scratch = [[⟨0x10000, 0⟩]] ∧ m.queue.scratchMems = [1] ∧
      ¬ m.ScratchLive := by
  have hrun : (runAll step (fun _ _ => True) (init sampleDevice 4 growingRing 0x100000)
      (.ring 2 :: runs 0x10000 8 ++ runs 0x20000 1)).map
        (fun m => (m.inFlight.map Ib.scratch, m.queue.scratchMems, decide m.ScratchLive)) =
      some ([[⟨0x10000, 0⟩]], [1], false) := by
    decide
  obtain ⟨m, hm, hproj⟩ := Option.map_eq_some_iff.mp hrun
  simp only [Prod.mk.injEq, decide_eq_false_iff_not] at hproj
  exact ⟨m, reach_of_runAll hm, hproj.1, hproj.2.1, hproj.2.2⟩

end Machine

end RocDxg
