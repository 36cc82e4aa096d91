import RocDxg.Memory.HeapPartition
import RocDxg.Memory.Lifetime

/-!
# Memory that a process imports from itself

An import of memory that the process exported finds the object that is there and counts a
reference to it.  The count is kept by `IncSharedReference` in the object of the exporter.
`hsaKmtFreeMemory` and `hsaKmtDeregisterMemory` look at the count only if the object is
imported, `is_imported_vram_ipc`, and that of the exporter is not: the first deletes the
object whatever the count, the second does nothing.

`SharedReferences.released_at_last_iff` says which orders of releases delete the object at the
last one all the same.
-/

namespace RocDxg

open Lib (OrdMap)
open GpuMemory (refusal)
open Memory (ImportArgs importInfo)

namespace SharedReferences

/-- Memory that was allocated with an object of its own, and is not imported. -/
structure Owned (m : Memory) (addr h : Nat) : Prop where
  isOpen : m.core.isOpen = true
  addr_ne : addr ≠ 0
  heap : m.heap.Sound
  direct : m.heap.live addr = none
  entry : ∃ e, m.core.allocationMap.find? addr = some e ∧ e.handle = h ∧ e.userptr = false
  object : ∃ mem, m.core.objects.find? h = some mem ∧ mem.flags.isImportedVramIpc = false

/-- No queue refers to the object. -/
def Unreferenced (m : Memory) (h : Nat) : Prop :=
  ∀ mem, m.core.objects.find? h = some mem → mem.flags.isQueueReferenced = false

/-! ## Imports -/

/-- An import that finds the memory at `addr` in this process. -/
def SameProcess (cfg : Config) (pid addr : Nat) (i : ImportArgs × Answers) : Prop :=
  (cfg.getWddmdev i.1.nodeId).isSome ∧ (importInfo cfg i.1).dmabufFd.isSome ∧
    (importInfo cfg i.1).flags.sysmemIpcSigImporter = false ∧
    refusal pid (importInfo cfg i.1) i.2 = some (addr, .sameProcessSameDevice)

instance (cfg : Config) (pid addr : Nat) (i : ImportArgs × Answers) :
    Decidable (SameProcess cfg pid addr i) :=
  inferInstanceAs (Decidable (_ ∧ _ ∧ _ ∧ _))

/-- The imports of a list, one after the other. -/
def imports (cfg : Config) (m : Memory) : List (ImportArgs × Answers) → Except Fault Memory
  | [] => .ok m
  | i :: is => do
      let (_, _, m) ← m.importDmabufFd cfg i.1 i.2
      imports cfg m is

variable {cfg : Config} {m m' : Memory} {addr h : Nat}

/-- `CreateGpuMemory` finds the memory that is there. -/
theorem create_same {c : Core} {dev : SharedDevice} {i : ImportArgs × Answers}
    (hsame : SameProcess cfg c.parentPid addr i) :
    c.create dev (importInfo cfg i.1) i.2 = .ok (addr, .sameProcessSameDevice, none, c) := by
  obtain ⟨_, hfd, hfile, hrefusal⟩ := hsame
  have hnone : (importInfo cfg i.1).dmabufFd ≠ none := Option.isSome_iff_ne_none.mp hfd
  have hfile' : ¬ (importInfo cfg i.1).flags.sysmemIpcSigImporter = true := by
    rw [hfile]
    exact Bool.noConfusion
  have himport : GpuMemory.importPhysicalHandle c.parentPid dev c.heaps (importInfo cfg i.1) i.2 =
      some (addr, .sameProcessSameDevice, GpuMemory.blank i.2, c.heaps) := by
    rw [GpuMemory.importPhysicalHandle, if_neg hnone, if_neg hfile', hrefusal]
  have hdestroy : (GpuMemory.blank i.2).destroy c.heaps = c.heaps :=
    GpuMemory.Homeless.destroy ⟨rfl, rfl⟩ c.heaps
  rw [Core.create, createGpuMemory, if_pos hfd, himport, Option.map_some, keepOrDelete,
    if_neg (by decide), hdestroy]

/-- An import counts a reference in the object of the exporter. -/
theorem import_same (O : Owned m addr h) {i : ImportArgs × Answers}
    (hsame : SameProcess cfg m.core.parentPid addr i) :
    ∃ mem, m.core.objects.find? h = some mem ∧
      m.importDmabufFd cfg i.1 i.2 = .ok (.success, some h,
        { m with core := m.core.setObject h mem.incSharedReference }) := by
  obtain ⟨e, he, rfl, _⟩ := O.entry
  obtain ⟨mem, hm, _⟩ := O.object
  obtain ⟨dev, hdev⟩ := Option.isSome_iff_exists.mp hsame.1
  refine ⟨mem, hm, ?_⟩
  rw [Memory.importDmabufFd, O.isOpen, if_neg Bool.noConfusion, hdev]
  simp only [create_same hsame, bind, Except.bind, if_true, he, hm]

/-- The memory is there after an import as before it. -/
theorem Owned.count (O : Owned m addr h) {mem : GpuMemory} (hm : m.core.objects.find? h = some mem) :
    Owned { m with core := m.core.setObject h mem.incSharedReference } addr h := by
  obtain ⟨mem', hm', hvram⟩ := O.object
  rw [hm] at hm'
  cases hm'
  refine ⟨O.isOpen, O.addr_ne, O.heap, O.direct, O.entry, mem.incSharedReference, ?_, hvram⟩
  show (m.core.objects.insert h mem.incSharedReference).find? h = _
  rw [OrdMap.find?_insert, if_pos rfl]

theorem unreferenced_count {mem : GpuMemory} (hm : m.core.objects.find? h = some mem) :
    Unreferenced { m with core := m.core.setObject h mem.incSharedReference } h ↔
      Unreferenced m h := by
  have hfind : (m.core.objects.insert h mem.incSharedReference).find? h =
      some mem.incSharedReference := by
    rw [OrdMap.find?_insert, if_pos rfl]
  constructor
  · intro hall mem' hm'
    rw [hm] at hm'
    cases hm'
    have hqueue := hall mem.incSharedReference hfind
    exact hqueue
  · intro hall mem' hm'
    change (m.core.objects.insert h mem.incSharedReference).find? h = some mem' at hm'
    rw [hfind] at hm'
    cases hm'
    exact hall mem hm

theorem imports_same (O : Owned m addr h) (is : List (ImportArgs × Answers))
    (hsame : ∀ i ∈ is, SameProcess cfg m.core.parentPid addr i) :
    ∃ m', imports cfg m is = .ok m' ∧ Owned m' addr h ∧ (Unreferenced m' h ↔ Unreferenced m h) := by
  induction is generalizing m with
  | nil => exact ⟨m, rfl, O, Iff.rfl⟩
  | cons i is ih =>
      obtain ⟨mem, hm, himport⟩ := import_same O (hsame i (List.mem_cons_self ..))
      obtain ⟨m', hrest, O', hiff⟩ := ih (O.count hm)
        fun j hj => hsame j (List.mem_cons_of_mem _ hj)
      refine ⟨m', ?_, O', hiff.trans (unreferenced_count hm)⟩
      rw [imports, himport]
      exact hrest

/-! ## Releases -/

/-- The two functions that give up a reference. -/
inductive Release where
  | freeMemory
  | deregisterMemory
deriving DecidableEq, Repr

def release (cfg : Config) (m : Memory) (addr : Nat) : Release → Except Fault (Status × Memory)
  | .freeMemory => m.freeMemory cfg addr
  | .deregisterMemory => m.deregisterMemory addr

/-- Every release of the list succeeds, the last deletes the object with its entry, and the
others leave them there. -/
def ReleasedAtLast (cfg : Config) (addr h : Nat) : Memory → List Release → Prop
  | _, [] => False
  | m, [r] => ∃ m', release cfg m addr r = .ok (.success, m') ∧
      m'.core.allocationMap.find? addr = none ∧ m'.core.objects.find? h = none
  | m, r :: rs => ∃ m', release cfg m addr r = .ok (.success, m') ∧
      (m'.core.allocationMap.find? addr = m.core.allocationMap.find? addr ∧
        (m'.core.objects.find? h).isSome) ∧ ReleasedAtLast cfg addr h m' rs

/-- The end of a registration does nothing. -/
theorem deregister_owned (O : Owned m addr h) :
    release cfg m addr .deregisterMemory = .ok (.success, m) := by
  obtain ⟨e, he, rfl, huser⟩ := O.entry
  obtain ⟨mem, hm, hvram⟩ := O.object
  show m.deregisterMemory addr = _
  rw [Memory.deregisterMemory, O.isOpen, if_neg Bool.noConfusion, if_neg O.addr_ne, he]
  simp only [hm, hvram, huser, Bool.false_eq_true, if_false]

/-- The release of the memory deletes the object, whatever the count is. -/
theorem free_owned (cfg : Config) (O : Owned m addr h) (hunref : Unreferenced m h) :
    ∃ m', release cfg m addr .freeMemory = .ok (.success, m') ∧
      m'.core.allocationMap.find? addr = none ∧ m'.core.objects.find? h = none := by
  obtain ⟨e, he, rfl, _⟩ := O.entry
  obtain ⟨mem, hm, hvram⟩ := O.object
  refine ⟨{ m with core := (m.core.eraseEntry addr).deleteObject e.handle mem }, ?_, ?_, ?_⟩
  · show m.freeMemory cfg addr = _
    rw [Memory.freeMemory, O.isOpen, if_neg Bool.noConfusion, if_neg O.addr_ne,
      O.heap.free_of_not_live _ _ O.addr_ne O.direct]
    simp only [Core.freeEntry, he, hm, hunref mem hm, hvram, Bool.false_eq_true, if_false, Except.map]
  · show (m.core.allocationMap.erase addr).find? addr = none
    rw [OrdMap.find?_erase, if_pos rfl]
  · show (m.core.objects.erase e.handle).find? e.handle = none
    rw [OrdMap.find?_erase, if_pos rfl]

theorem free_referenced (cfg : Config) (O : Owned m addr h) (href : ¬ Unreferenced m h) :
    release cfg m addr .freeMemory = .ok (.error, m) := by
  obtain ⟨e, he, rfl, _⟩ := O.entry
  obtain ⟨mem, hm, _⟩ := O.object
  have hqueue : mem.flags.isQueueReferenced = true := by
    refine Bool.of_not_eq_false fun hfalse => href fun mem' hm' => ?_
    rw [hm] at hm'
    cases hm'
    exact hfalse
  show m.freeMemory cfg addr = _
  rw [Memory.freeMemory, O.isOpen, if_neg Bool.noConfusion, if_neg O.addr_ne,
    O.heap.free_of_not_live _ _ O.addr_ne O.direct]
  simp only [Core.freeEntry, he, hm, hqueue, if_true, Except.map]

/-- The object is deleted at the last release if and only if the last is the only
`hsaKmtFreeMemory`, and no queue refers to it. -/
theorem releasedAtLast_iff (O : Owned m addr h) (rs : List Release) :
    ReleasedAtLast cfg addr h m rs ↔
      Unreferenced m h ∧ ∃ n, rs = List.replicate n .deregisterMemory ++ [.freeMemory] := by
  obtain ⟨e, he, _⟩ := O.entry
  induction rs with
  | nil => simp [ReleasedAtLast]
  | cons r rs ih =>
      cases r with
      | deregisterMemory =>
          have hrest : (∃ n, Release.deregisterMemory :: rs =
              List.replicate n .deregisterMemory ++ [.freeMemory]) ↔
              ∃ n, rs = List.replicate n .deregisterMemory ++ [.freeMemory] := by
            constructor
            · rintro ⟨n, hn⟩
              cases n with
              | zero => cases hn
              | succ n => exact ⟨n, (List.cons.inj hn).2⟩
            · rintro ⟨n, rfl⟩
              exact ⟨n + 1, rfl⟩
          rw [hrest, ← ih]
          cases rs with
          | nil =>
              rw [ReleasedAtLast, ReleasedAtLast, deregister_owned O, iff_false]
              rintro ⟨m', hm', hnone, _⟩
              cases hm'
              rw [he] at hnone
              cases hnone
          | cons r' rs' =>
              rw [ReleasedAtLast, deregister_owned O]
              constructor
              · rintro ⟨m', hm', _, hlast⟩
                cases hm'
                exact hlast
              · obtain ⟨mem, hm, _⟩ := O.object
                exact fun hlast => ⟨m, rfl, ⟨rfl, by rw [hm]; rfl⟩, hlast⟩
              · exact List.cons_ne_nil r' rs'
      | freeMemory =>
          have hrest : (∃ n, Release.freeMemory :: rs =
              List.replicate n .deregisterMemory ++ [.freeMemory]) ↔ rs = [] := by
            constructor
            · rintro ⟨n, hn⟩
              cases n with
              | zero => exact (List.cons.inj hn).2
              | succ n => cases hn
            · rintro rfl
              exact ⟨0, rfl⟩
          rw [hrest]
          by_cases hunref : Unreferenced m h
          · obtain ⟨m₁, hfree, hentry, hobject⟩ := free_owned cfg O hunref
            cases rs with
            | nil =>
                rw [ReleasedAtLast]
                exact ⟨fun _ => ⟨hunref, rfl⟩, fun _ => ⟨m₁, hfree, hentry, hobject⟩⟩
            | cons r' rs' =>
                rw [ReleasedAtLast, hfree]
                constructor
                · rintro ⟨m', hm', ⟨hsame, _⟩, _⟩
                  cases hm'
                  rw [hentry, he] at hsame
                  cases hsame
                · rintro ⟨_, hnil⟩
                  cases hnil
                · exact List.cons_ne_nil r' rs'
          · have hfree := free_referenced cfg O hunref
            constructor
            · intro hlast
              cases rs with
              | nil =>
                  rw [ReleasedAtLast, hfree] at hlast
                  obtain ⟨m', hm', _⟩ := hlast
                  cases hm'
              | cons r' rs' =>
                  rw [ReleasedAtLast, hfree] at hlast
                  · obtain ⟨m', hm', _⟩ := hlast
                    cases hm'
                  · exact List.cons_ne_nil r' rs'
            · exact fun hright => absurd hright.1 hunref

/-- Memory that was exported and imported again by its process any number of times: of the
releases that follow, one for each import and one more, the last deletes the object and every
other succeeds and leaves it, if and only if the last is the only `hsaKmtFreeMemory` and no queue
refers to the memory. -/
theorem released_at_last_iff (cfg : Config) {m : Memory} {addr h : Nat} (O : Owned m addr h)
    (is : List (ImportArgs × Answers))
    (hsame : ∀ i ∈ is, SameProcess cfg m.core.parentPid addr i) :
    ∃ m', imports cfg m is = .ok m' ∧ ∀ rs : List Release, rs.length = is.length + 1 →
      (ReleasedAtLast cfg addr h m' rs ↔
        Unreferenced m h ∧ rs = List.replicate is.length .deregisterMemory ++ [.freeMemory]) := by
  obtain ⟨m', himports, O', hunref⟩ := imports_same O is hsame
  refine ⟨m', himports, fun rs hlen => ?_⟩
  rw [releasedAtLast_iff O', hunref]
  refine and_congr_right fun _ => ⟨?_, fun heq => ⟨_, heq⟩⟩
  rintro ⟨n, rfl⟩
  rw [List.length_append, List.length_replicate, List.length_singleton] at hlen
  rw [Nat.succ.inj hlen]

/-! ## Allocated memory -/

/-- What `hsaKmtAllocMemory` returns without the sub-allocator. -/
theorem owned_of_allocMemory {node size hint : Nat} {flags : HsaMemFlags} {ans : AllocAnswers}
    (hcfg : cfg.enableThunkSubAllocator = false) (hheap : m.heap = {})
    (halloc : m.allocMemory cfg node size flags hint ans = .ok (.success, addr, m'))
    (haddr : addr ≠ 0) :
    Owned m' addr m.core.nextHandle ∧ Unreferenced m' m.core.nextHandle := by
  rw [Memory.allocMemory, Memory.allocMemoryAlign] at halloc
  split at halloc
  next => cases halloc
  next hopen =>
    split at halloc
    next hinfo =>
      cases halloc
      exact absurd rfl (allocInfo_ne_success hinfo)
    next dev info vmm hinfo =>
      simp only [hcfg, Bool.false_eq_true, false_and, if_false] at halloc
      obtain ⟨⟨code, p, c⟩, hcreate, halloc⟩ := ok_of_bind halloc
      obtain ⟨⟨va, code', o, c₁⟩, hobject, hcreate⟩ := ok_of_bind hcreate
      rw [Core.create] at hobject
      split at hobject
      next => cases hobject
      next hgpu =>
        cases hobject
        cases hcreate
        simp only at halloc
        split at halloc
        next => cases halloc; exact absurd rfl haddr
        next => cases halloc
      next mem hs hgpu =>
        cases hobject
        cases hcreate
        simp only at halloc
        split at halloc
        next hcode =>
          cases halloc
          subst hcode
          obtain ⟨mem₀, hshape, hdescribe⟩ := createGpuMemory_shape hgpu
          have hflags : mem.flags = (GpuMemory.describe dev info).flags := by
            rw [hshape.flags, hdescribe (Memory.allocInfo_ok hinfo).1]
          have hobject : (m.core.objects.insert m.core.nextHandle mem).find? m.core.nextHandle =
              some mem := by
            rw [OrdMap.find?_insert, if_pos rfl]
          refine ⟨⟨Bool.of_not_eq_false hopen, haddr, ?_, ?_, ?_, mem, hobject, ?_⟩, ?_⟩
          · rw [hheap]
            exact SimpleHeap.sound_new
          · rw [hheap]
            rfl
          · exact ⟨_, by show (OrdMap.insert ..).find? _ = _; rw [OrdMap.find?_insert, if_pos rfl],
              rfl, rfl⟩
          · rw [hflags]
            rfl
          · intro mem' hm'
            change (m.core.objects.insert m.core.nextHandle mem).find? m.core.nextHandle =
              some mem' at hm'
            rw [hobject] at hm'
            cases hm'
            rw [hflags]
            rfl
        next => cases halloc

/-- A page of local memory that was allocated in a new process. -/
def onePage : Except Fault (Status × Nat × Memory) :=
  (Memory.new smallSpace 1).allocMemory smallConfig 1 0x1000 {} 0 {}

/-- The import of that page by its process. -/
def reimport : ImportArgs × Answers :=
  (⟨some 5, 1, true, false, 0⟩,
    { sharedInfo := { size := 0x1000, pid := 1, gpuAddr := 0x10000000 }, isSameAdapter := true })

theorem onePage_owned :
    ∃ m, onePage = .ok (.success, 0x10000000, m) ∧ m.core.parentPid = 1 ∧ Owned m 0x10000000 0 ∧
      Unreferenced m 0 := by
  have hrun : onePage.toOption.map (fun r => (r.1, r.2.1, r.2.2.core.parentPid)) =
      some (.success, 0x10000000, 1) := by
    decide +kernel
  obtain ⟨⟨status, p, m⟩, hm, hproj⟩ := Option.map_eq_some_iff.mp hrun
  simp only [Prod.mk.injEq] at hproj
  obtain ⟨rfl, rfl, hpid⟩ := hproj
  have hok := eq_ok_of_toOption hm
  exact ⟨m, hok, hpid, owned_of_allocMemory rfl rfl hok (by decide)⟩

/-- One import, given back before the memory is freed. -/
theorem released_at_last_run :
    ∃ m m', onePage = .ok (.success, 0x10000000, m) ∧ imports smallConfig m [reimport] = .ok m' ∧
      ReleasedAtLast smallConfig 0x10000000 0 m' [.deregisterMemory, .freeMemory] := by
  obtain ⟨m, hm, hpid, O, hunref⟩ := onePage_owned
  have hsame : ∀ i ∈ [reimport], SameProcess smallConfig m.core.parentPid 0x10000000 i := by
    intro i hi
    rw [List.mem_singleton.mp hi, hpid]
    decide
  obtain ⟨m', himports, hiff⟩ := released_at_last_iff smallConfig O [reimport] hsame
  exact ⟨m, m', hm, himports, (hiff _ rfl).mpr ⟨hunref, rfl⟩⟩

/-- The memory is freed while the import is still there. -/
theorem freed_while_shared :
    ¬ ∀ m m', onePage = .ok (.success, 0x10000000, m) → imports smallConfig m [reimport] = .ok m' →
      ∀ rs : List Release, rs.length = 2 → ReleasedAtLast smallConfig 0x10000000 0 m' rs := by
  intro hall
  obtain ⟨m, hm, hpid, O, _⟩ := onePage_owned
  have hsame : ∀ i ∈ [reimport], SameProcess smallConfig m.core.parentPid 0x10000000 i := by
    intro i hi
    rw [List.mem_singleton.mp hi, hpid]
    decide
  obtain ⟨m', himports, O', _⟩ := imports_same O [reimport] hsame
  have hlast := hall m m' hm himports [.freeMemory, .deregisterMemory] rfl
  obtain ⟨_, n, hn⟩ := (releasedAtLast_iff O' _).mp hlast
  cases n with
  | zero => cases hn
  | succ n => cases hn

end SharedReferences

end RocDxg
