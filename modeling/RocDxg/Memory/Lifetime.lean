import RocDxg.Lib.Reach
import RocDxg.Memory.Ownership

/-!
# Entries and the lifetime of objects

Runs of the functions that enter objects into the allocation map and take them out
again, with the sub-allocator switched off.  A user pointer has two entries, one under
the user's address and one under the GPU address, and no function takes both out:
`hsaKmtFreeMemory` deletes the object with one of them, and `hsaKmtDeregisterMemory`
reads the entry it has just erased.

`Memory.allocationMap_coherent` says that this is all that can go wrong.  If user
pointers are neither deregistered nor freed while their other entry is there, and if
no user pointer is mapped at the GPU address of an object, then entries and objects
belong together in every run.
-/

namespace RocDxg

open Lib (OrdMap Reach runAll reach_of_runAll)
open GpuMemory (describe)

/-- The managers of a new runtime. -/
def Heaps.new (sp : AddressSpace) : Heaps where
  localHeapMgr := .new (sp.range .localHeap).start (sp.range .localHeap).size defaultGpuPageSize
  systemHeapMgr := .new (sp.range .systemHeap).start (sp.range .systemHeap).size defaultGpuPageSize
  handleApertureMgr :=
    .new (sp.range .handleAperture).start (sp.range .handleAperture).size defaultGpuPageSize

theorem Heaps.sound_new (sp : AddressSpace) : (Heaps.new sp).Sound sp := by
  refine ⟨fun k => ?_, fun k => ?_⟩
  · cases k <;> exact VaMgr.partition_new (sp.managed _) (by decide)
  · cases k <;> rfl

namespace Memory

/-- A process that has opened the library once. -/
def new (sp : AddressSpace) (pid : Nat) : Memory where
  core := { heaps := .new sp, dxgFd := true, dxgOpenCount := 1, parentPid := pid }

/-- The calls that change the allocation map. -/
inductive Call where
  | allocMemory (preferredNode sizeInBytes : Nat) (flags : HsaMemFlags) (memoryAddress : Nat)
      (ans : AllocAnswers)
  | mapMemoryToGPUNodes (addr size node : Nat) (a : Answers)
  | freeMemory (addr : Nat)
  | deregisterMemory (addr : Nat)
  | importDmabufFd (args : ImportArgs) (a : Answers)

/-- The memory after a call. -/
def call (cfg : Config) (m : Memory) : Call → Except Fault Memory
  | .allocMemory node size flags addr ans =>
      (m.allocMemory cfg node size flags addr ans).map fun r => r.2.2
  | .mapMemoryToGPUNodes addr size node a =>
      (m.mapMemoryToGPUNodes cfg addr size node a).map fun r => r.2.2
  | .freeMemory addr => (m.freeMemory cfg addr).map fun r => r.2
  | .deregisterMemory addr => (m.deregisterMemory addr).map fun r => r.2
  | .importDmabufFd args a => (m.importDmabufFd cfg args a).map fun r => r.2.2

/-- A call that returns. -/
def step (cfg : Config) (m : Memory) (e : Call) : Option Memory := (m.call cfg e).toOption

/-- What a user pointer is created from. -/
def userptrInfo (addr size : Nat) : GpuMemoryCreateInfo where
  domain := .kUserMemory
  size := alignedSize addr size

/-- The calls that keep the two entries of a user pointer together: a user pointer is
freed only under its last entry and not deregistered, and none is mapped where another
object is entered.  Requests for addresses must have a size and not be served from the
inside of a fragment, and a file is imported with an address, as its callers do. -/
def Regular (cfg : Config) (m : Memory) : Call → Prop
  | .allocMemory node size flags addr ans =>
      match allocInfo cfg ⟨node, size, 0, flags, addr⟩ ans.ram with
      | .error _ => True
      | .ok (dev, info, _) => (describe dev info).Fits m.core.heaps info.vaHint info.alignment
  | .mapMemoryToGPUNodes addr size node a =>
      match m.mapExisting addr size a, cfg.getWddmdev node with
      | .ok none, some dev =>
          (describe dev (userptrInfo addr size)).Fits m.core.heaps 0 0 ∧ m.core.Vacant addr
      | _, _ => True
  | .freeMemory addr =>
      match m.core.allocationMap.find? addr with
      | none => True
      | some e => e.userptr = true → m.core.Alone addr
  | .deregisterMemory addr =>
      match m.core.allocationMap.find? addr with
      | none => True
      | some e => e.userptr = false
  | .importDmabufFd args a =>
      match cfg.getWddmdev args.nodeId with
      | none => True
      | some dev =>
          (args.isIpcMemfd = true → args.allocVa = true) ∧
            CreateFits m.core.parentPid dev m.core.heaps (importInfo cfg args) a

instance (cfg : Config) (m : Memory) : (e : Call) → Decidable (Regular cfg m e)
  | .allocMemory node size flags addr ans =>
      match h : allocInfo cfg ⟨node, size, 0, flags, addr⟩ ans.ram with
      | .error _ => isTrue (by rw [Regular, h]; trivial)
      | .ok (dev, info, _) =>
          decidable_of_iff ((describe dev info).Fits m.core.heaps info.vaHint info.alignment)
            (by rw [Regular, h])
  | .mapMemoryToGPUNodes addr size node a =>
      match h : m.mapExisting addr size a, h' : cfg.getWddmdev node with
      | .ok none, some dev =>
          decidable_of_iff
            ((describe dev (userptrInfo addr size)).Fits m.core.heaps 0 0 ∧ m.core.Vacant addr)
            (by rw [Regular, h, h'])
      | .ok (some _), _ => isTrue (by rw [Regular, h]; trivial)
      | .error _, _ => isTrue (by rw [Regular, h]; trivial)
      | .ok none, none => isTrue (by rw [Regular, h, h']; trivial)
  | .freeMemory addr =>
      match h : m.core.allocationMap.find? addr with
      | none => isTrue (by rw [Regular, h]; trivial)
      | some e => decidable_of_iff (e.userptr = true → m.core.Alone addr) (by rw [Regular, h])
  | .deregisterMemory addr =>
      match h : m.core.allocationMap.find? addr with
      | none => isTrue (by rw [Regular, h]; trivial)
      | some e => decidable_of_iff (e.userptr = false) (by rw [Regular, h])
  | .importDmabufFd args a =>
      match h : cfg.getWddmdev args.nodeId with
      | none => isTrue (by rw [Regular, h]; trivial)
      | some dev =>
          decidable_of_iff ((args.isIpcMemfd = true → args.allocVa = true) ∧
            CreateFits m.core.parentPid dev m.core.heaps (importInfo cfg args) a)
            (by rw [Regular, h])

/-- Every entry refers to an object that has not been deleted, and every such object has
an entry. -/
def Coherent (m : Memory) : Prop :=
  (∀ a e, m.core.allocationMap.find? a = some e → (m.core.objects.find? e.handle).isSome) ∧
    ∀ h, (m.core.objects.find? h).isSome → ∃ a e, m.core.allocationMap.find? a = some e ∧ e.handle = h

/-- The invariant of the runs. -/
structure Inv (sp : AddressSpace) (m : Memory) : Prop where
  consistent : m.core.Consistent sp
  sole : m.core.Sole
  heap : m.heap = {}

variable {sp : AddressSpace} {cfg : Config} {m m' : Memory}

theorem inv_new (sp : AddressSpace) (pid : Nat) : Inv sp (new sp pid) := by
  refine ⟨⟨Heaps.sound_new sp, ?_, ?_, ?_, ?_, ?_⟩, ?_, rfl⟩
  · intro a e he
    cases he
  · intro h mem hm
    cases hm
  · intro h mem hm
    cases hm
  · intro h mem hm
    cases hm
  · intro h mem hm
    cases hm
  · intro a e he
    cases he

theorem Inv.coherent (I : Inv sp m) : Coherent m := by
  refine ⟨fun a e he => ?_, fun h hm => ?_⟩
  · obtain ⟨mem, hm⟩ := I.consistent.live he
    rw [hm]
    rfl
  · obtain ⟨mem, hm⟩ := Option.isSome_iff_exists.mp hm
    obtain ⟨e, he, hh⟩ := I.consistent.entered hm
    exact ⟨_, e, he, hh⟩

/-- The sub-allocator has nothing to free. -/
theorem Inv.free_eq (I : Inv sp m) {σ : Type u} (A : BlockAllocator σ) (s : σ) {addr : Nat}
    (haddr : addr ≠ 0) : SimpleHeap.free A m.heap s addr = (false, m.heap, s) := by
  rw [I.heap, SimpleHeap.free, if_neg haddr]
  rfl

/-- Memory that is there is found without a fault. -/
theorem Inv.mapExisting_ok (I : Inv sp m) (addr size : Nat) (a : Answers) :
    ∃ r, m.mapExisting addr size a = .ok r := by
  rw [mapExisting]
  split
  next => exact ⟨_, rfl⟩
  next =>
    cases he : m.core.allocationMap.find? (alignDown 64 addr 4096) with
    | none => exact ⟨_, rfl⟩
    | some e =>
        obtain ⟨mem, hm⟩ := I.consistent.live he
        simp only [hm]
        split
        next => exact ⟨_, rfl⟩
        next =>
          split
          next => exact ⟨_, rfl⟩
          next => split <;> exact ⟨_, rfl⟩

/-- The entry that an object gets when it is created is its only one. -/
theorem Inv.enter (I : Inv sp m) {mem : GpuMemory} {hs : Heaps}
    (hcreates : GpuMemory.Creates sp m.core.heaps mem hs) {e : Allocation}
    (he : e.handle = m.core.nextHandle) :
    Inv sp { m with core := (m.core.withObject hs mem).setEntry mem.home e } := by
  refine ⟨I.consistent.enter hcreates he, ?_, I.heap⟩
  have hsole : (m.core.withObject hs mem).Sole := I.sole
  refine hsole.setEntry fun a e' _ he' hh => ?_
  obtain ⟨mem', hm'⟩ := I.consistent.live he'
  rw [he] at hh
  exact absurd hh (I.consistent.handle_ne hm')

/-- The managers have changed, and no address with them. -/
theorem Inv.of_heaps (I : Inv sp m) {hs : Heaps} (S : hs.Sound sp)
    (hreserved : hs.reserved = m.core.heaps.reserved) :
    Inv sp { m with core := { m.core with heaps := hs } } :=
  ⟨I.consistent.of_heaps S hreserved, I.sole, I.heap⟩

/-- A regular release leaves no entry behind. -/
theorem Inv.frees (I : Inv sp m) {addr : Nat} {status : Status} {c : Core}
    (h : m.core.Frees addr status c) (halone : m.core.Alone addr) :
    Inv sp { m with core := c } := by
  refine ⟨h.consistent I.consistent halone, ?_, I.heap⟩
  cases h with
  | refused => exact I.sole
  | counted => exact I.sole
  | deleted =>
      have hsole : (m.core.eraseEntry addr).Sole := I.sole.eraseEntry
      exact hsole

/-! ## One call -/

/-- A call that ends in the invariant, or in a fault that is not about deleted or erased
values. -/
def Safe (sp : AddressSpace) : Except Fault Memory → Prop
  | .ok m => Inv sp m
  | .error f => f ≠ .useAfterErase ∧ f ≠ .useAfterDelete

theorem allocInfo_ok {args : AllocArgs} {ram : Bool} {dev : SharedDevice}
    {info : GpuMemoryCreateInfo} {vmm : Bool} (h : allocInfo cfg args ram = .ok (dev, info, vmm)) :
    info.dmabufFd = none ∧ info.alignment = args.alignment := by
  rw [allocInfo] at h
  split at h
  next => cases h
  next =>
    split at h
    next => cases h
    next =>
      split at h
      next => cases h
      next =>
        cases h
        exact ⟨rfl, rfl⟩

theorem allocMemory_safe (I : Inv sp m) (hcfg : cfg.enableThunkSubAllocator = false)
    {node size addr : Nat} {flags : HsaMemFlags} {ans : AllocAnswers}
    (hreg : Regular cfg m (.allocMemory node size flags addr ans)) :
    Safe sp (m.call cfg (.allocMemory node size flags addr ans)) := by
  rw [call, allocMemory, allocMemoryAlign]
  split
  next => exact I
  next =>
    rw [Regular] at hreg
    cases hinfo : allocInfo cfg ⟨node, size, 0, flags, addr⟩ ans.ram with
    | error status => exact I
    | ok r =>
        obtain ⟨dev, info, vmm⟩ := r
        obtain ⟨hfd, halign⟩ := allocInfo_ok hinfo
        rw [hinfo] at hreg
        simp only [hcfg, Bool.false_eq_true, false_and, if_false]
        cases hcreate : m.core.createAllocation dev info ans.first with
        | error f =>
            have hf := Core.createAllocation_error hcreate
            subst hf
            exact ⟨nofun, nofun⟩
        | ok r =>
            obtain ⟨code, p, c⟩ := r
            have hfits : CreateFits m.core.parentPid dev m.core.heaps info ans.first := by
              rw [CreateFits, hfd, if_neg (by simp)]
              exact hreg
            have hsmall : info.alignment ≤ 2 ^ 32 := by
              rw [halign]
              exact Nat.zero_le _
            have hspec := Core.createAllocation_spec I.consistent hfits
              (GpuMemory.addable_of_le hsmall hsmall) hfd
              hcreate
            rcases hspec with ⟨hcode, _, hs, S, hreserved, rfl⟩ | ⟨mem, hs, hcode, _, hcreates, _, rfl⟩
            · simp only [bind, Except.bind, if_neg hcode]
              exact I.of_heaps S hreserved
            · simp only [bind, Except.bind, if_pos hcode]
              exact I.enter hcreates rfl

theorem freeMemory_safe (I : Inv sp m) {addr : Nat} (hreg : Regular cfg m (.freeMemory addr)) :
    Safe sp (m.call cfg (.freeMemory addr)) := by
  rw [call, freeMemory]
  split
  next => exact I
  next =>
    split
    next => exact I
    next haddr =>
      rw [I.free_eq _ _ haddr]
      obtain ⟨status, c, hfree, hfrees⟩ := Core.freeEntry_spec I.consistent addr
      simp only [hfree]
      refine I.frees hfrees ?_
      intro e he
      rw [Regular, he] at hreg
      cases huser : e.userptr with
      | true => exact hreg huser e he
      | false => exact I.sole addr e he huser e he

theorem deregisterMemory_safe (I : Inv sp m) {addr : Nat}
    (hreg : Regular cfg m (.deregisterMemory addr)) :
    Safe sp (m.call cfg (.deregisterMemory addr)) := by
  rw [call, deregisterMemory]
  split
  next => exact I
  next =>
    split
    next => exact I
    next =>
      cases he : m.core.allocationMap.find? addr with
      | none => exact I
      | some e =>
          rw [Regular, he] at hreg
          have huser : e.userptr = false := hreg
          have halone := I.sole addr e he huser
          obtain ⟨mem, hm⟩ := I.consistent.live he
          obtain ⟨flags, hdec⟩ := Core.decSharedReference_flags mem
          simp only [hm, huser, Bool.false_eq_true, if_false]
          split
          next =>
            rw [hdec]
            split
            next => exact I.frees (.deleted he hm flags) halone
            next => exact I.frees (.counted he hm flags) halone
          next => exact I

/-- A new user pointer is entered under both of its addresses. -/
theorem Inv.enterUserptr (I : Inv sp m) {mem : GpuMemory} {hs : Heaps} {addr : Nat}
    (hcreates : GpuMemory.Creates sp m.core.heaps mem hs) (hvacant : m.core.Vacant addr)
    {e : Allocation} (he : e.handle = m.core.nextHandle) (huser : e.userptr = true) :
    Inv sp { m with core :=
      ((m.core.withObject hs mem).setEntry addr e).setEntry mem.home e } := by
  have hswap : ((m.core.withObject hs mem).setEntry addr e).setEntry mem.home e =
      ((m.core.withObject hs mem).setEntry mem.home e).setEntry addr e := by
    have hmap : (m.core.allocationMap.insert addr e).insert mem.home e =
        (m.core.allocationMap.insert mem.home e).insert addr e := by
      by_cases heq : addr = mem.home
      · rw [heq]
      · exact OrdMap.insert_comm _ _ _ heq
    exact congrArg (fun map => { m.core.withObject hs mem with allocationMap := map }) hmap
  have I' := I.enter hcreates he
  rw [hswap]
  have hnew : ((m.core.withObject hs mem).setEntry mem.home e).objects.find? e.handle = some mem := by
    show (m.core.objects.insert m.core.nextHandle mem).find? e.handle = some mem
    rw [OrdMap.find?_insert, if_pos he]
  refine ⟨I'.consistent.setEntry hnew ?_, I'.sole.setEntry ?_, I.heap⟩
  · intro h mem' hm' hhome
    change (m.core.objects.insert m.core.nextHandle mem).find? h = some mem' at hm'
    rw [OrdMap.find?_insert] at hm'
    split at hm'
    next heq => rw [heq, he]
    next => exact absurd hhome (hvacant h mem' hm')
  · intro a e' _ he' hh
    refine ⟨huser, ?_⟩
    change (m.core.allocationMap.insert mem.home e).find? a = some e' at he'
    rw [OrdMap.find?_insert] at he'
    split at he'
    next =>
      cases he'
      exact huser
    next =>
      obtain ⟨mem', hm'⟩ := I.consistent.live he'
      rw [he] at hh
      exact absurd hh (I.consistent.handle_ne hm')

theorem mapMemoryToGPUNodes_safe (I : Inv sp m) {addr size node : Nat} {a : Answers}
    (hreg : Regular cfg m (.mapMemoryToGPUNodes addr size node a)) :
    Safe sp (m.call cfg (.mapMemoryToGPUNodes addr size node a)) := by
  rw [call, mapMemoryToGPUNodes]
  split
  next => exact I
  next =>
    split
    next => exact I
    next =>
      rw [Regular] at hreg
      obtain ⟨r, hexisting⟩ := I.mapExisting_ok addr size a
      rw [hexisting] at hreg ⊢
      cases r with
      | some r => exact I
      | none =>
          show Safe sp ((m.mapUserptr cfg addr _ _ node a).map fun r => r.2.2)
          rw [mapUserptr]
          cases hdev : cfg.getWddmdev node with
          | none => exact I
          | some dev =>
              rw [hdev] at hreg
              obtain ⟨hfits, hvacant⟩ := hreg
              simp only
              cases hcreate : m.core.create dev (userptrInfo addr size) a with
              | error f =>
                  have hf := Core.create_error hcreate
                  rw [userptrInfo] at hcreate
                  rw [hcreate, hf]
                  exact ⟨nofun, nofun⟩
              | ok r =>
                  obtain ⟨va, code, o, c⟩ := r
                  have hfits : CreateFits m.core.parentPid dev m.core.heaps (userptrInfo addr size) a :=
                    hfits
                  have hspec := Core.create_spec I.consistent hfits
                    (createAdds_of_le (Nat.zero_le _)) hcreate
                  rw [userptrInfo] at hcreate
                  rw [hcreate]
                  rcases hspec with ⟨rfl, _, hs, S, hreserved, rfl⟩ |
                    ⟨mem, hs, mem₀, rfl, _, hcreates, hshape, _, rfl⟩
                  · exact I.of_heaps S hreserved
                  · have hhome : mem.home = mem.gpuAddr := hshape.home_eq hcreates.housed
                    have I' := I.enterUserptr hcreates hvacant
                      (e := ⟨m.core.nextHandle, alignDown 64 addr 4096, mem.gpuAddr,
                        alignedSize addr size, true⟩) rfl rfl
                    rw [hhome] at I'
                    exact I'

/-- An import enters the object under its own address. -/
theorem import_home {args : ImportArgs} {dev : SharedDevice} {hs : Heaps} {pid : Nat} {a : Answers}
    {mem mem₀ : GpuMemory} (hipc : args.isIpcMemfd = true → args.allocVa = true)
    (hfits : CreateFits pid dev hs (importInfo cfg args) a)
    (hshape : GpuMemory.Shape mem₀ (createsAddress (importInfo cfg args)) mem)
    (hhoused : mem.Housed sp) :
    mem.home = if args.allocVa then mem.gpuAddr else mem.handleApeAddr := by
  have hfile : (importInfo cfg args).flags.sysmemIpcSigImporter = true → args.allocVa = true := by
    intro h
    simp only [importInfo, Bool.and_eq_true] at h
    exact hipc h.1.1.1
  have hva : (importInfo cfg args).flags.allocVa = args.allocVa := rfl
  have hfd : (importInfo cfg args).dmabufFd = args.dmabufFd := rfl
  rw [hshape.home_eq hhoused, createsAddress, hfd, hva]
  cases hdm : args.dmabufFd with
  | some fd =>
      cases hallocVa : args.allocVa with
      | true => simp
      | false =>
          have hno : (importInfo cfg args).flags.sysmemIpcSigImporter = false := by
            refine Bool.eq_false_iff.mpr fun h => ?_
            have := hfile h
            rw [hallocVa] at this
            cases this
          simp [hno]
  | none =>
      -- without a descriptor the object is described by a size, which only a file has
      rw [CreateFits, hfd, hdm, if_neg (by simp)] at hfits
      have hfileSize : (importInfo cfg args).flags.sysmemIpcSigImporter = true := by
        refine Bool.of_not_eq_false fun hno => ?_
        have hzero : (importInfo cfg args).size = 0 := by
          simp only [importInfo] at hno ⊢
          rw [hno]
          rfl
        have hpos : 0 < GpuMemory.adjustSize dev _ (importInfo cfg args).size := hfits.1
        rw [hzero, GpuMemory.adjustSize_zero] at hpos
        exact Nat.lt_irrefl 0 hpos
      simp [hfile hfileSize, importInfo]

theorem importDmabufFd_safe (I : Inv sp m) {args : ImportArgs} {a : Answers}
    (hreg : Regular cfg m (.importDmabufFd args a)) :
    Safe sp (m.call cfg (.importDmabufFd args a)) := by
  rw [call, importDmabufFd]
  split
  next => exact I
  next =>
    rw [Regular] at hreg
    cases hdev : cfg.getWddmdev args.nodeId with
    | none => exact ⟨nofun, nofun⟩
    | some dev =>
        rw [hdev] at hreg
        obtain ⟨hipc, hfits⟩ := hreg
        simp only
        cases hcreate : m.core.create dev (importInfo cfg args) a with
        | error f =>
            rw [Core.create_error hcreate]
            exact ⟨nofun, nofun⟩
        | ok r =>
            obtain ⟨va, code, o, c⟩ := r
            simp only [bind, Except.bind]
            rcases Core.create_spec I.consistent hfits (createAdds_of_le (Nat.zero_le _)) hcreate with
              ⟨rfl, _, hs, S, hreserved, rfl⟩ | ⟨mem, hs, mem₀, rfl, hcode, hcreates, hshape, _, rfl⟩
            · have I' := I.of_heaps S hreserved
              split
              next =>
                split
                next => exact I'
                next e he =>
                  obtain ⟨mem, hm⟩ := I'.consistent.live he
                  simp only [hm]
                  exact ⟨I'.consistent.setFlags hm _, I'.sole, I'.heap⟩
              next => exact I'
            · have hhome := import_home hipc hfits hshape hcreates.housed
              rw [if_neg (by rw [hcode]; exact nofun)]
              simp only [← hhome]
              exact I.enter hcreates rfl

/-- A regular call keeps the invariant. -/
theorem call_safe (I : Inv sp m) (hcfg : cfg.enableThunkSubAllocator = false) {e : Call}
    (hreg : Regular cfg m e) : Safe sp (m.call cfg e) := by
  cases e with
  | allocMemory node size flags addr ans => exact allocMemory_safe I hcfg hreg
  | mapMemoryToGPUNodes addr size node a => exact mapMemoryToGPUNodes_safe I hreg
  | freeMemory addr => exact freeMemory_safe I hreg
  | deregisterMemory addr => exact deregisterMemory_safe I hreg
  | importDmabufFd args a => exact importDmabufFd_safe I hreg

/-! ## Runs -/

theorem inv_of_reach {pid : Nat} (hcfg : cfg.enableThunkSubAllocator = false)
    (h : Reach (step cfg) (Regular cfg) (new sp pid) m) : Inv sp m := by
  refine h.invariant (inv_new sp pid) fun m e m' I hreg hstep => ?_
  have hsafe := call_safe I hcfg hreg
  rw [step] at hstep
  cases hcall : m.call cfg e with
  | error f =>
      rw [hcall] at hstep
      cases hstep
  | ok m₁ =>
      rw [hcall] at hstep hsafe
      cases hstep
      exact hsafe

/-- In every run of regular calls, with the sub-allocator switched off, entries and
objects belong together, and no call reads an entry it has erased or an object that was
deleted. -/
theorem allocationMap_coherent (sp : AddressSpace) (cfg : Config) (pid : Nat)
    (hcfg : cfg.enableThunkSubAllocator = false) {m : Memory}
    (h : Reach (step cfg) (Regular cfg) (new sp pid) m) :
    Coherent m ∧ ∀ e, Regular cfg m e →
      m.call cfg e ≠ .error .useAfterErase ∧ m.call cfg e ≠ .error .useAfterDelete := by
  have I := inv_of_reach hcfg h
  refine ⟨I.coherent, fun e hreg => ?_⟩
  have hsafe := call_safe I hcfg hreg
  constructor
  · intro hcall
    rw [hcall] at hsafe
    exact hsafe.1 rfl
  · intro hcall
    rw [hcall] at hsafe
    exact hsafe.2 rfl

/-- A user pointer is mapped twice, the second time with a larger size, and the object of
the first time is freed under its GPU address, which is its last entry. -/
theorem allocationMap_coherent_run :
    ∃ m, Reach (step smallConfig) (Regular smallConfig) (new smallSpace 1) m ∧
      m.core.allocationMap.entries.map (fun p => (p.1, p.2.handle)) =
        [(0x5000, 2), (0x10000000, 0), (0x10020000, 2)] ∧ Coherent m := by
  have hrun : (runAll (step smallConfig) (Regular smallConfig) (new smallSpace 1)
      [.allocMemory 1 0x1000 {} 0 {}, .mapMemoryToGPUNodes 0x5000 0x1000 1 {},
        .mapMemoryToGPUNodes 0x5000 0x2000 1 {}, .freeMemory 0x10010000]).map
          (fun m => m.core.allocationMap.entries.map fun p => (p.1, p.2.handle)) =
      some [(0x5000, 2), (0x10000000, 0), (0x10020000, 2)] := by
    decide +kernel
  obtain ⟨m, hm, hmap⟩ := Option.map_eq_some_iff.mp hrun
  have hreach := reach_of_runAll hm
  exact ⟨m, hreach, hmap, (allocationMap_coherent smallSpace smallConfig 1 rfl hreach).1⟩

/-- A user pointer that is freed under its own address leaves the entry under the GPU
address behind. -/
theorem userptr_entry_dangles :
    ¬ ∀ m, Reach (step smallConfig) (fun _ _ => True) (new smallSpace 1) m → Coherent m := by
  intro hall
  have hrun : (runAll (step smallConfig) (fun _ _ => True) (new smallSpace 1)
      [.mapMemoryToGPUNodes 0x5000 0x1000 1 {}, .freeMemory 0x5000]).map
        (fun m => (m.core.allocationMap.find? 0x10000000, m.core.objects.find? 0)) =
      some (some ⟨0, 0x5000, 0x10000000, 0x1000, true⟩, none) := by
    decide +kernel
  obtain ⟨m, hm, hproj⟩ := Option.map_eq_some_iff.mp hrun
  obtain ⟨hentry, hobject⟩ := Prod.mk.inj hproj
  have hlive := (hall m (reach_of_runAll hm)).1 _ _ hentry
  rw [hobject] at hlive
  cases hlive

end Memory

end RocDxg
