import RocDxg.Lib.Reach
import RocDxg.Memory.Records

/-!
# Who closes a descriptor

Runs of the functions that obtain and close descriptors.  The host gives numbers that are not
open; everything else about it is free.

`FileCore.descriptors_closed_once` says that two things go wrong and nothing else.  Memory that
is a file and was exported is closed twice by `hsaKmtFreeMemory`, once for the entry and once
for the object.  And a descriptor is lost where the destructor cannot unmap the file it closes
after that, or where `hsaKmtDeregisterMemory` erases an entry that was exported.
-/

namespace RocDxg

open Lib (OrdMap Reach runAll reach_of_runAll)
open GpuMemory (Creates Shape describe)
open Memory (ImportArgs importInfo)

namespace FileCore

variable {sp : AddressSpace} {cfg : Config} {s s' : FileCore}

/-! ## The calls -/

/-- `hsaKmtAllocMemory`, `hsaKmtExportDMABufHandle`, `import_dmabuf_fd`, `hsaKmtFreeMemory` and
`hsaKmtDeregisterMemory`, with what the host answers. -/
inductive Call where
  | allocMemory (preferredNode sizeInBytes : Nat) (flags : HsaMemFlags) (memoryAddress : Nat)
      (ram : Bool) (a : Answers) (k : FdAnswers)
  | exportDMABufHandle (addr : Nat) (shared dup : Option Nat)
  | importDmabufFd (args : ImportArgs) (a : Answers) (k : FdAnswers)
  | freeMemory (addr : Nat) (munmap : Bool)
  | deregisterMemory (addr : Nat) (munmap : Bool)

/-- The state after a call. -/
def call (cfg : Config) (s : FileCore) : Call → Except Fault FileCore
  | .allocMemory node size flags addr ram a k =>
      (s.allocDirect cfg ⟨node, size, 0, flags, addr⟩ ram a k).map fun r => r.2.2
  | .exportDMABufHandle addr shared dup =>
      (s.exportDMABufHandle addr shared dup).map fun r => r.2.2.2
  | .importDmabufFd args a k => (s.importDmabufFd cfg args a k).map fun r => r.2.2
  | .freeMemory addr munmap => (s.freeDirect addr munmap).map fun r => r.2
  | .deregisterMemory addr munmap => (s.deregisterMemory addr munmap).map fun r => r.2

/-- The numbers that a call is given for new descriptors are not open. -/
def Numbers (s : FileCore) : Call → Prop
  | .allocMemory _ _ _ _ _ _ k => k.memfd ∉ s.files.owned
  | .exportDMABufHandle _ shared _ => ∀ n ∈ shared, n ∉ s.files.owned
  | .importDmabufFd _ _ k => k.memfd ∉ s.files.owned ∧ k.dup ∉ s.files.owned
  | .freeMemory .. => True
  | .deregisterMemory .. => True

instance (s : FileCore) : (e : Call) → Decidable (s.Numbers e)
  | .allocMemory _ _ _ _ _ _ k => inferInstanceAs (Decidable (k.memfd ∉ s.files.owned))
  | .exportDMABufHandle _ shared _ =>
      inferInstanceAs (Decidable (∀ n ∈ shared, n ∉ s.files.owned))
  | .importDmabufFd _ _ k =>
      inferInstanceAs (Decidable (k.memfd ∉ s.files.owned ∧ k.dup ∉ s.files.owned))
  | .freeMemory .. => isTrue trivial
  | .deregisterMemory .. => isTrue trivial

/-- A call that returns. -/
def step (cfg : Config) (s : FileCore) (e : Call) : Option FileCore := (s.call cfg e).toOption

/-- `hsaKmtFreeMemory` deletes the object. -/
def freed (mem : GpuMemory) : Bool :=
  !mem.flags.isQueueReferenced && (!mem.flags.isImportedVramIpc || mem.decSharedReference.1 = 0)

/-- `hsaKmtDeregisterMemory` deletes the object. -/
def deregistered (mem : GpuMemory) : Bool :=
  mem.flags.isImportedVramIpc && mem.decSharedReference.1 = 0

/-- `hsaKmtFreeMemory` deletes no object with a file that is exported too, unless the destructor
cannot unmap it, and none with a file that is not exported and cannot be unmapped. -/
def FreeRegular (s : FileCore) (addr : Nat) (munmap : Bool) : Prop :=
  ∀ o ∈ s.core.object addr, freed o.2 = true →
    ∀ n ∈ s.files.memFd.find? o.1, (s.files.dmabufFd.find? addr = none ↔ munmap = true)

/-- `hsaKmtDeregisterMemory` deletes no object that is exported, unless it has a file, and none
with a file that cannot be unmapped. -/
def DeregisterRegular (s : FileCore) (addr : Nat) (munmap : Bool) : Prop :=
  ∀ o ∈ s.core.object addr, deregistered o.2 = true →
    if (s.files.memFd.find? o.1).isSome then munmap = true
    else s.files.dmabufFd.find? addr = none

/-- The calls that lose no descriptor and close none twice.  A failed creation unmaps the file
it has made.  Requests for addresses are as in `Memory.Regular`. -/
def Careful (cfg : Config) (s : FileCore) : Call → Prop
  | .allocMemory node size flags addr ram _ k =>
      k.munmap = true ∧ ∀ r ∈ (allocInfo cfg ⟨node, size, 0, flags, addr⟩ ram).toOption,
        (describe r.1 r.2.1).Fits s.core.heaps r.2.1.vaHint r.2.1.alignment
  | .exportDMABufHandle .. => True
  | .importDmabufFd args a k =>
      k.munmap = true ∧ (args.isIpcMemfd = true → args.allocVa = true) ∧
        ∀ dev ∈ cfg.getWddmdev args.nodeId,
          CreateFits s.core.parentPid dev s.core.heaps (importInfo cfg args) a
  | .freeMemory addr munmap => s.FreeRegular addr munmap
  | .deregisterMemory addr munmap => s.DeregisterRegular addr munmap

instance (s : FileCore) (addr : Nat) (munmap : Bool) : Decidable (s.FreeRegular addr munmap) :=
  inferInstanceAs (Decidable (∀ o ∈ s.core.object addr, freed o.2 = true →
    ∀ n ∈ s.files.memFd.find? o.1, (s.files.dmabufFd.find? addr = none ↔ munmap = true)))

instance (s : FileCore) (addr : Nat) (munmap : Bool) :
    Decidable (s.DeregisterRegular addr munmap) :=
  inferInstanceAs (Decidable (∀ o ∈ s.core.object addr, deregistered o.2 = true →
    if (s.files.memFd.find? o.1).isSome then munmap = true
    else s.files.dmabufFd.find? addr = none))

instance (cfg : Config) (s : FileCore) : (e : Call) → Decidable (Careful cfg s e)
  | .allocMemory node size flags addr ram _ k =>
      inferInstanceAs (Decidable (k.munmap = true ∧
        ∀ r ∈ (allocInfo cfg ⟨node, size, 0, flags, addr⟩ ram).toOption, GpuMemory.Fits ..))
  | .exportDMABufHandle .. => isTrue trivial
  | .importDmabufFd args _ k =>
      inferInstanceAs (Decidable (k.munmap = true ∧ (args.isIpcMemfd = true → args.allocVa = true) ∧
        ∀ dev ∈ cfg.getWddmdev args.nodeId, CreateFits ..))
  | .freeMemory addr munmap => inferInstanceAs (Decidable (s.FreeRegular addr munmap))
  | .deregisterMemory addr munmap => inferInstanceAs (Decidable (s.DeregisterRegular addr munmap))

/-- The host gives numbers that are not open, and the call is careful. -/
def Regular (cfg : Config) (s : FileCore) (e : Call) : Prop := s.Numbers e ∧ Careful cfg s e

instance (cfg : Config) (s : FileCore) (e : Call) : Decidable (Regular cfg s e) :=
  inferInstanceAs (Decidable (_ ∧ _))

/-! ## One call -/

/-- An attempt to create an object changes no descriptor, or gives the object its file. -/
theorem Inv.create_cases (I : Inv sp s) {dev : SharedDevice} {info : GpuMemoryCreateInfo}
    {a : Answers} {k : FdAnswers} (hk : k.memfd ∉ s.files.owned)
    (hdup : info.dmabufFd ≠ none → k.dup ∉ s.files.owned)
    (hmunmap : k.munmap = true) (hfits : CreateFits s.core.parentPid dev s.core.heaps info a)
    (halign : info.alignment ≤ 2 ^ 32) {va : Nat} {code : ErrorCode} {o : Option (Nat × GpuMemory)}
    (h : s.create dev info a k = .ok (va, code, o, s')) :
    (o = none ∧ Inv sp s') ∨
    ∃ mem hs mem₀ fd f, o = some (s.core.nextHandle, mem) ∧ code = .success ∧
      Creates sp s.core.heaps mem hs ∧ Shape mem₀ (createsAddress info) mem ∧
      (info.dmabufFd = none → mem₀ = describe dev info) ∧ s.files.Carries mem fd f ∧
      s' = ⟨s.core.withObject hs mem, f.setMemFd s.core.nextHandle fd⟩ := by
  obtain ⟨⟨va', code', o', c⟩, hcreate, h⟩ := ok_of_bind h
  have hspec := Core.create_spec I.memory.consistent hfits (createAdds_of_le halign) hcreate
  rw [Core.create] at hcreate
  split at hcreate
  next => cases hcreate
  next hgpu =>
    have hfiles := Files.create_carries (f := s.files) hk hdup hgpu
    cases hcreate
    simp only [Option.isSome_none, hfiles hmunmap] at h
    cases h
    rcases hspec with ⟨_, _, hs, S, hreserved, hc⟩ | ⟨_, _, _, ho, _⟩
    · rw [hc]
      exact Or.inl ⟨rfl, I.of_heaps S hreserved⟩
    · cases ho
  next hgpu =>
    have C := Files.create_carries (f := s.files) hk hdup hgpu
    cases hcreate
    cases h
    rcases hspec with ⟨ho, _⟩ | ⟨mem, hs, mem₀, ho, hcode, hcreates, hshape, hdescribe, hc⟩
    · cases ho
    · cases ho
      rw [hc]
      exact Or.inr ⟨_, hs, mem₀, _, _, rfl, hcode, hcreates, hshape, hdescribe, C, rfl⟩

theorem Inv.allocMemory (I : Inv sp s) {node size addr : Nat} {flags : HsaMemFlags} {ram : Bool}
    {a : Answers} {k : FdAnswers} (hnumbers : s.Numbers (.allocMemory node size flags addr ram a k))
    (hreg : Careful cfg s (.allocMemory node size flags addr ram a k)) {status : Status} {p : Nat}
    (h : s.allocDirect cfg ⟨node, size, 0, flags, addr⟩ ram a k = .ok (status, p, s')) :
    Inv sp s' := by
  obtain ⟨hmunmap, hfits⟩ := hreg
  rw [allocDirect] at h
  split at h
  next =>
    cases h
    exact I
  next =>
    cases hinfo : allocInfo cfg ⟨node, size, 0, flags, addr⟩ ram with
    | error status =>
        rw [hinfo] at h
        cases h
        exact I
    | ok r =>
        obtain ⟨dev, info, vmm⟩ := r
        obtain ⟨hfd, halign⟩ := Memory.allocInfo_ok hinfo
        have hfits := hfits (dev, info, vmm) (by rw [hinfo]; rfl)
        have hfits : CreateFits s.core.parentPid dev s.core.heaps info a := by
          rw [CreateFits, hfd, if_neg (by simp)]
          exact hfits
        rw [hinfo] at h
        obtain ⟨⟨code, p', s₁⟩, hcreate, h⟩ := ok_of_bind h
        have hs' : s₁ = s' := by
          simp only at h
          split at h <;> cases h <;> rfl
        subst hs'
        obtain ⟨⟨va, code', o, s₂⟩, hcreate, h⟩ := ok_of_bind hcreate
        rcases I.create_cases hnumbers (fun hne => absurd hfd hne) hmunmap hfits
            (by rw [halign]; exact Nat.zero_le _) hcreate with
          ⟨rfl, I'⟩ | ⟨mem, hs, mem₀, fd, f, rfl, rfl, hcreates, hshape, hdescribe, C, rfl⟩
        · cases h
          exact I'
        · rw [createsAddress, hfd, if_neg (by simp)] at hshape
          have hhome := hshape.home_eq hcreates.housed
          have haddr : (if info.flags.physicalOnly ∨ info.dmabufFd.isSome then mem.handleApeAddr
              else mem.gpuAddr) = mem.home := by
            rw [hhome, hfd]
            cases info.flags.physicalOnly <;> rfl
          simp only [haddr] at h
          cases h
          exact I.enter hcreates C rfl rfl

theorem Inv.importDmabufFd (I : Inv sp s) {args : ImportArgs} {a : Answers} {k : FdAnswers}
    (hnumbers : s.Numbers (.importDmabufFd args a k))
    (hreg : Careful cfg s (.importDmabufFd args a k)) {status : Status} {handle : Option Nat}
    (h : s.importDmabufFd cfg args a k = .ok (status, handle, s')) : Inv sp s' := by
  obtain ⟨hmunmap, hipc, hfits⟩ := hreg
  rw [FileCore.importDmabufFd] at h
  split at h
  next =>
    cases h
    exact I
  next =>
    cases hdev : cfg.getWddmdev args.nodeId with
    | none =>
        rw [hdev] at h
        cases h
    | some dev =>
        rw [hdev] at h
        have hfits := hfits dev hdev
        obtain ⟨⟨va, code, o, s₁⟩, hcreate, h⟩ := ok_of_bind h
        rcases I.create_cases hnumbers.1 (fun _ => hnumbers.2) hmunmap hfits (Nat.zero_le _)
            hcreate with
          ⟨rfl, I'⟩ | ⟨mem, hs, mem₀, fd, f, rfl, rfl, hcreates, hshape, _, C, rfl⟩
        · simp only at h
          split at h
          next =>
            split at h
            next =>
              cases h
              exact I'
            next e he =>
              obtain ⟨mem, hm⟩ := I'.memory.consistent.live he
              simp only [hm] at h
              cases h
              exact I'.setFlags hm _
          next =>
            cases h
            exact I'
        · have hhome := Memory.import_home hipc hfits hshape hcreates.housed
          simp only [← hhome] at h
          cases h
          exact I.enter hcreates C rfl rfl

theorem Inv.exportDMABufHandle (I : Inv sp s) {addr : Nat} {shared dup : Option Nat}
    (hnumbers : s.Numbers (.exportDMABufHandle addr shared dup)) {status : Status}
    {fd : Option Nat} {offset : Nat}
    (h : s.exportDMABufHandle addr shared dup = .ok (status, fd, offset, s')) : Inv sp s' := by
  rw [FileCore.exportDMABufHandle] at h
  split at h
  next =>
    cases h
    exact I
  next =>
    split at h
    next =>
      cases h
      exact I
    next b e hfloor =>
      have he : s.core.allocationMap.find? b = some e :=
        OrdMap.find?_eq_some.mpr (OrdMap.floor?_mem hfloor).1
      split at h
      next =>
        cases h
        exact I
      next hd =>
        obtain ⟨mem, hm⟩ := I.memory.consistent.live he
        simp only [hm] at h
        split at h
        next =>
          cases h
          exact I
        next n f hexport =>
          cases h
          exact I.share he hd hnumbers hexport

/-- Nothing is at the null pointer. -/
theorem Inv.object_zero (I : Inv sp s) : s.core.object 0 = none := by
  cases ho : s.core.object 0 with
  | none => rfl
  | some o =>
      obtain ⟨h, mem⟩ := o
      obtain ⟨e, he, rfl, hm⟩ := Core.object_eq_some.mp ho
      have hpos := I.memory.consistent.sound.reserved_bounds (I.memory.consistent.reserved hm)
      rw [I.home he hm] at hpos
      exact absurd hpos.1 (Nat.lt_irrefl 0)

/-- A release that deletes an object. -/
theorem Inv.remove (I : Inv sp s) {addr h : Nat} {mem mem' : GpuMemory}
    (ho : s.core.object addr = some (h, mem)) (hflags : ∃ flags, mem' = { mem with flags := flags })
    (R : Removes s addr h s') (hcore : s'.core = (s.core.eraseEntry addr).deleteObject h mem')
    (N : s'.Neat) : Inv sp s' := by
  obtain ⟨e, he, rfl, hm⟩ := Core.object_eq_some.mp ho
  obtain ⟨flags, rfl⟩ := hflags
  have hmemory := I.memory.frees (.deleted he hm flags) (I.alone addr)
  rw [← hcore] at hmemory
  refine ⟨hmemory, ?_, ?_, R.recorded I ho, N⟩
  · rw [hcore]
    exact I.isOpen
  · intro a e' he'
    rw [R.map, OrdMap.find?_erase] at he'
    split at he'
    next => cases he'
    next => exact I.plain he'

/-- What a release does: nothing, a count, or it deletes the object. -/
inductive Releases (s : FileCore) (deletes : GpuMemory → Bool)
    (remove : Nat → GpuMemory → FileCore) (addr : Nat) : FileCore → Prop
  | kept (h : ∀ o ∈ s.core.object addr, deletes o.2 = false) : Releases s deletes remove addr s
  | counted {h : Nat} {mem mem' : GpuMemory} (ho : s.core.object addr = some (h, mem))
      (hflags : ∃ flags, mem' = { mem with flags := flags }) (hd : deletes mem = false) :
      Releases s deletes remove addr (s.setObject h mem')
  | deleted {h : Nat} {mem mem' : GpuMemory} (ho : s.core.object addr = some (h, mem))
      (hflags : ∃ flags, mem' = { mem with flags := flags }) (hd : deletes mem = true) :
      Releases s deletes remove addr (remove h mem')

theorem Inv.freeMemory_releases (I : Inv sp s) {addr : Nat} {munmap : Bool} {status : Status}
    (h : s.freeDirect addr munmap = .ok (status, s')) :
    Releases s freed (fun h mem => s.free addr h mem munmap) addr s' := by
  rw [freeDirect, I.isOpen, if_neg Bool.noConfusion] at h
  split at h
  next hzero =>
    cases h
    refine .kept fun o ho => ?_
    rw [hzero, I.object_zero] at ho
    cases ho
  next =>
    rw [freeEntry] at h
    cases he : s.core.allocationMap.find? addr with
    | none =>
        rw [he] at h
        cases h
        refine .kept fun o ho => ?_
        simp [Core.object, he] at ho
    | some e =>
        obtain ⟨mem, hm⟩ := I.memory.consistent.live he
        have ho : s.core.object addr = some (e.handle, mem) :=
          Core.object_eq_some.mpr ⟨e, he, rfl, hm⟩
        have hkept : freed mem = false → Releases s freed (fun h mem => s.free addr h mem munmap)
            addr s := by
          intro hd
          refine .kept fun o ho' => ?_
          rw [ho] at ho'
          cases ho'
          exact hd
        simp only [he, hm] at h
        split at h
        next hqueue =>
          cases h
          exact hkept (by simp [freed, hqueue])
        next hqueue =>
          split at h
          next hvram =>
            split at h
            next hcount =>
              cases h
              exact .counted ho (Core.decSharedReference_flags mem) (by simp [freed, hvram, hcount])
            next hcount =>
              cases h
              refine .deleted ho (Core.decSharedReference_flags mem) ?_
              simp only [freed, hqueue, hvram]
              simpa using hcount
          next hvram =>
            cases h
            exact .deleted ho ⟨mem.flags, rfl⟩ (by simp [freed, hqueue, hvram])

theorem Inv.deregisterMemory_releases (I : Inv sp s) {addr : Nat} {munmap : Bool} {status : Status}
    (h : s.deregisterMemory addr munmap = .ok (status, s')) :
    Releases s deregistered (fun h mem => s.drop addr h mem munmap) addr s' := by
  rw [FileCore.deregisterMemory, I.isOpen, if_neg Bool.noConfusion] at h
  split at h
  next hzero =>
    cases h
    refine .kept fun o ho => ?_
    rw [hzero, I.object_zero] at ho
    cases ho
  next =>
    cases he : s.core.allocationMap.find? addr with
    | none =>
        rw [he] at h
        cases h
        refine .kept fun o ho => ?_
        simp [Core.object, he] at ho
    | some e =>
        obtain ⟨mem, hm⟩ := I.memory.consistent.live he
        have ho : s.core.object addr = some (e.handle, mem) :=
          Core.object_eq_some.mpr ⟨e, he, rfl, hm⟩
        simp only [he, hm, I.plain he, Bool.false_eq_true, if_false] at h
        split at h
        next hvram =>
          split at h
          next hcount =>
            cases h
            exact .deleted ho (Core.decSharedReference_flags mem)
              (by simp [deregistered, hvram, hcount])
          next hcount =>
            cases h
            refine .counted ho (Core.decSharedReference_flags mem) ?_
            simp [deregistered, hcount]
        next hvram =>
          cases h
          refine .kept fun o ho' => ?_
          rw [ho] at ho'
          cases ho'
          simp [deregistered, hvram]

/-- A release is neat exactly if what it may delete is neat. -/
theorem Releases.neat_iff {deletes : GpuMemory → Bool} {remove : Nat → GpuMemory → FileCore}
    {addr : Nat} {good : Nat → Prop} (H : Releases s deletes remove addr s') (I : Inv sp s)
    (hremove : ∀ h mem mem', s.core.object addr = some (h, mem) →
      ((remove h mem').Neat ↔ good h)) :
    s'.Neat ↔ ∀ o ∈ s.core.object addr, deletes o.2 = true → good o.1 := by
  cases H with
  | kept hd =>
      refine ⟨fun _ o ho hdel => ?_, fun _ => I.neat⟩
      rw [hd o ho] at hdel
      cases hdel
  | counted ho hflags hd =>
      obtain ⟨flags, rfl⟩ := hflags
      obtain ⟨e, he, rfl, hm⟩ := Core.object_eq_some.mp ho
      refine ⟨fun _ o ho' hdel => ?_, fun _ => (I.setFlags hm flags).neat⟩
      rw [ho] at ho'
      cases ho'
      rw [hd] at hdel
      cases hdel
  | deleted ho hflags hd =>
      rw [hremove _ _ _ ho]
      constructor
      · intro hgood o ho' _
        rw [ho] at ho'
        cases ho'
        exact hgood
      · exact fun hall => hall _ ho hd

/-- A neat release keeps the invariant. -/
theorem Releases.inv {deletes : GpuMemory → Bool} {remove : Nat → GpuMemory → FileCore}
    {addr : Nat} (H : Releases s deletes remove addr s') (I : Inv sp s)
    (hremove : ∀ h mem, Removes s addr h (remove h mem) ∧
      (remove h mem).core = (s.core.eraseEntry addr).deleteObject h mem) (N : s'.Neat) :
    Inv sp s' := by
  cases H with
  | kept => exact I
  | counted ho hflags =>
      obtain ⟨flags, rfl⟩ := hflags
      obtain ⟨e, he, rfl, hm⟩ := Core.object_eq_some.mp ho
      exact I.setFlags hm flags
  | deleted ho hflags => exact I.remove ho hflags (hremove _ _).1 (hremove _ _).2 N

/-! ## Runs -/

/-- A process that has opened the library once. -/
def new (sp : AddressSpace) (pid : Nat) : FileCore := ⟨(Memory.new sp pid).core, {}⟩

theorem Inv.freeMemory_neat_iff (I : Inv sp s) {addr : Nat} {munmap : Bool}
    (h : step cfg s (.freeMemory addr munmap) = some s') : s'.Neat ↔ s.FreeRegular addr munmap := by
  rw [step] at h
  obtain ⟨r, hfree, rfl⟩ := ok_of_map (eq_ok_of_toOption h)
  exact (I.freeMemory_releases hfree).neat_iff I fun h mem mem' ho => I.free_neat_iff ho mem' munmap

theorem Inv.deregisterMemory_neat_iff (I : Inv sp s) {addr : Nat} {munmap : Bool}
    (h : step cfg s (.deregisterMemory addr munmap) = some s') :
    s'.Neat ↔ s.DeregisterRegular addr munmap := by
  rw [step] at h
  obtain ⟨r, hderegister, rfl⟩ := ok_of_map (eq_ok_of_toOption h)
  exact (I.deregisterMemory_releases hderegister).neat_iff I
    fun h mem mem' ho => I.drop_neat_iff ho mem' munmap

/-- A regular call keeps the invariant. -/
theorem step_inv (I : Inv sp s) {e : Call} (hreg : Regular cfg s e) (h : step cfg s e = some s') :
    Inv sp s' := by
  obtain ⟨hnumbers, hcareful⟩ := hreg
  have hneat := h
  rw [step] at h
  cases e with
  | allocMemory node size flags addr ram a k =>
      obtain ⟨r, halloc, rfl⟩ := ok_of_map (eq_ok_of_toOption h)
      exact I.allocMemory hnumbers hcareful halloc
  | exportDMABufHandle addr shared dup =>
      obtain ⟨r, hexport, rfl⟩ := ok_of_map (eq_ok_of_toOption h)
      exact I.exportDMABufHandle hnumbers hexport
  | importDmabufFd args a k =>
      obtain ⟨r, himport, rfl⟩ := ok_of_map (eq_ok_of_toOption h)
      exact I.importDmabufFd hnumbers hcareful himport
  | freeMemory addr munmap =>
      obtain ⟨r, hfree, rfl⟩ := ok_of_map (eq_ok_of_toOption h)
      exact (I.freeMemory_releases hfree).inv I (fun h mem => ⟨removes_free s addr h mem munmap, rfl⟩)
        ((I.freeMemory_neat_iff hneat).mpr hcareful)
  | deregisterMemory addr munmap =>
      obtain ⟨r, hderegister, rfl⟩ := ok_of_map (eq_ok_of_toOption h)
      exact (I.deregisterMemory_releases hderegister).inv I
        (fun h mem => ⟨removes_drop s addr h mem munmap, rfl⟩)
        ((I.deregisterMemory_neat_iff hneat).mpr hcareful)

theorem inv_of_reach {pid : Nat} (h : Reach (step cfg) (Regular cfg) (new sp pid) s) : Inv sp s :=
  h.invariant (inv_new sp pid) fun _ _ _ I hreg hstep => step_inv I hreg hstep

/-- In every run of regular calls each descriptor that the library has obtained and not closed is
the one descriptor of an object or an entry that is there, and no other number was closed.  The
release that comes next keeps this if and only if it is regular. -/
theorem descriptors_closed_once (sp : AddressSpace) (cfg : Config) (pid : Nat)
    (h : Reach (step cfg) (Regular cfg) (new sp pid) s) :
    s.Recorded ∧ s.Neat ∧
      (∀ addr munmap s', step cfg s (.freeMemory addr munmap) = some s' →
        (s'.Neat ↔ s.FreeRegular addr munmap)) ∧
      ∀ addr munmap s', step cfg s (.deregisterMemory addr munmap) = some s' →
        (s'.Neat ↔ s.DeregisterRegular addr munmap) := by
  have I := inv_of_reach h
  exact ⟨I.recorded, I.neat, fun _ _ _ hstep => I.freeMemory_neat_iff hstep,
    fun _ _ _ hstep => I.deregisterMemory_neat_iff hstep⟩

/-- System memory for other processes. -/
def ipcMemory (memfd : Nat) : Call :=
  .allocMemory 0 0x1000 { hostAccess := true, nonPaged := true } 0 true {} { memfd := memfd }

/-- System memory and local memory, the latter exported twice and freed, and the import of a
file. -/
theorem descriptors_closed_once_run :
    ∃ s, Reach (step smallConfig) (Regular smallConfig) (new smallSpace 1) s ∧
      (s.files.memFd.entries, s.files.dmabufFd.entries) = ([(0, 3), (2, 6)], []) ∧ s.Neat := by
  have hrun : (runAll (step smallConfig) (Regular smallConfig) (new smallSpace 1)
      [ipcMemory 3, .allocMemory 1 0x1000 {} 0 true {} { memfd := 9 },
        .exportDMABufHandle 0x10000000 (some 4) (some 5),
        .exportDMABufHandle 0x10000800 (some 7) (some 8),
        .importDmabufFd ⟨some 9, 1, true, true, 0x1000⟩ {} { memfd := 10, dup := 6 },
        .freeMemory 0x10000000 true]).map
          (fun s => (s.files.memFd.entries, s.files.dmabufFd.entries)) =
      some ([(0, 3), (2, 6)], []) := by
    decide +kernel
  obtain ⟨s, hs, hproj⟩ := Option.map_eq_some_iff.mp hrun
  have hreach := reach_of_runAll hs
  exact ⟨s, hreach, hproj, (descriptors_closed_once smallSpace smallConfig 1 hreach).2.1⟩

/-- System memory for other processes that is exported and freed: its number is closed with the
entry and again with the object. -/
theorem exported_file_closed_twice :
    ¬ ∀ s, Reach (step smallConfig) Numbers (new smallSpace 1) s → s.Neat := by
  intro hall
  have hrun : (runAll (step smallConfig) Numbers (new smallSpace 1)
      [ipcMemory 3, .exportDMABufHandle 0x100000000 none (some 4),
        .freeMemory 0x100000000 true]).map (fun s => s.files.strays) = some [3] := by
    decide +kernel
  obtain ⟨s, hs, hproj⟩ := Option.map_eq_some_iff.mp hrun
  have hstrays := (hall s (reach_of_runAll hs)).strays
  rw [hproj] at hstrays
  cases hstrays

end FileCore

end RocDxg
