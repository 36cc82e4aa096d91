import RocDxg.Lib.Custody
import RocDxg.Memory.Files
import RocDxg.Memory.Lifetime
import RocDxg.Memory.Resident

/-!
# Who has a descriptor

`FileCore.Neat` says that every descriptor the library has obtained and not closed is recorded
once, in an object or in an entry, and that no other number was closed.  An object that is
made of a file is exported under the number of its own file, so that the number is in both
records; `FileCore.holds` counts it for the object.

Objects are entered and entries exported without harm.  A release closes what the entry
records and, if the destructor can unmap it, the file of the object:
`Inv.free_neat_iff` and `Inv.drop_neat_iff` say when this is one descriptor.
-/

namespace RocDxg

open Lib (OrdMap Custody)
open GpuMemory (Creates Shape describe describeFile describeShared refusal)

namespace Files

variable {f f₁ : Files} {n : Nat}

/-- A number that was obtained and closed again. -/
theorem close_acquire (hn : n ∉ f.owned) : (f.acquire n).close n = f := by
  have hmem : n ∈ (f.acquire n).owned := Finset.mem_insert_self ..
  rw [close, if_pos hmem]
  simp only [acquire, Finset.erase_insert hn]

theorem close_of_mem (hn : n ∈ f.owned) : f.close n = { f with owned := f.owned.erase n } :=
  if_pos hn

@[simp] theorem close_memFd (f : Files) (n : Nat) : (f.close n).memFd = f.memFd := by
  rw [close]
  split <;> rfl

@[simp] theorem close_dmabufFd (f : Files) (n : Nat) : (f.close n).dmabufFd = f.dmabufFd := by
  rw [close]
  split <;> rfl

@[simp] theorem closeEntry_memFd (f : Files) (addr : Nat) : (f.closeEntry addr).memFd = f.memFd := by
  rw [closeEntry]
  split
  next => rfl
  next => exact close_memFd f _

@[simp] theorem closeEntry_dmabufFd (f : Files) (addr : Nat) :
    (f.closeEntry addr).dmabufFd = f.dmabufFd := by
  rw [closeEntry]
  split
  next => rfl
  next => exact close_dmabufFd f _

@[simp] theorem freeGpuVirtualAddress_memFd (f : Files) (fd : Option Nat) (munmap : Bool) :
    (f.freeGpuVirtualAddress fd munmap).2.memFd = f.memFd := by
  cases fd with
  | none => rfl
  | some n => cases munmap <;> simp [freeGpuVirtualAddress, decommitSystemHeapSpaceIPC]

@[simp] theorem freeGpuVirtualAddress_dmabufFd (f : Files) (fd : Option Nat) (munmap : Bool) :
    (f.freeGpuVirtualAddress fd munmap).2.dmabufFd = f.dmabufFd := by
  cases fd with
  | none => rfl
  | some n => cases munmap <;> simp [freeGpuVirtualAddress, decommitSystemHeapSpaceIPC]

/-! ## While an object is created -/

/-- The descriptors together with the file of an object that is not stored yet. -/
def kept (f : Files) : Option Nat → Files
  | none => f
  | some n => f.acquire n

/-- An object is being created that has the file `fd`. -/
structure Carries (f : Files) (mem : GpuMemory) (fd : Option Nat) (f₁ : Files) : Prop where
  kept : f₁ = f.kept fd
  fresh : ∀ {n}, fd = some n → n ∉ f.owned
  agrees : mem.memFd = fd.isSome

variable {mem mem' : GpuMemory} {fd : Option Nat} {hs hs' : Heaps} {a : Answers} {k : FdAnswers}
  {code : ErrorCode}

theorem carries_none (f : Files) (h : mem.memFd = false) : Carries f mem none f := ⟨rfl, nofun, h⟩

theorem Carries.of_memFd (C : Carries f mem fd f₁) (h : mem'.memFd = mem.memFd) :
    Carries f mem' fd f₁ := ⟨C.kept, C.fresh, h.trans C.agrees⟩

/-- The file is given up. -/
theorem Carries.free (C : Carries f mem fd f₁) (hs : Heaps) (munmap : Bool) :
    Carries f (mem.freeGpuVirtualAddress hs munmap).1 (f₁.freeGpuVirtualAddress fd munmap).1
      (f₁.freeGpuVirtualAddress fd munmap).2 := by
  have hkept := C.kept
  have hagrees := C.agrees
  cases fd with
  | none =>
      refine C.of_memFd ?_
      rw [GpuMemory.freeGpuVirtualAddress, if_neg (by rw [hagrees]; exact Bool.noConfusion)]
      split <;> rfl
  | some n =>
      have htrue : mem.memFd = true := hagrees
      rw [GpuMemory.freeGpuVirtualAddress, if_pos htrue]
      cases munmap with
      | false => exact C.of_memFd htrue.symm
      | true =>
          refine ⟨?_, (fun h => by cases h), rfl⟩
          rw [hkept]
          exact close_acquire (C.fresh rfl)

theorem Carries.free_eq (C : Carries f mem fd f₁) : f₁.freeGpuVirtualAddress fd true = (none, f) := by
  cases fd with
  | none =>
      have hkept : f₁ = f := C.kept
      rw [hkept]
      rfl
  | some n =>
      have hkept : f₁ = f.acquire n := C.kept
      rw [hkept, freeGpuVirtualAddress, decommitSystemHeapSpaceIPC, if_pos rfl,
        close_acquire (C.fresh rfl)]

theorem Carries.back (C : Carries f mem fd f₁) (hs : Heaps) (a : Answers) :
    Carries f (mem.back hs a).2.1 (f₁.back fd a).1 (f₁.back fd a).2 := by
  rw [GpuMemory.back, Files.back]
  split
  next => exact C
  next => exact C.free hs a.decommit

/-- A file is made for an object that has none. -/
theorem Carries.commit (C : Carries f mem fd f₁) (hk : k.memfd ∉ f.owned) (commit : Bool)
    (h : mem'.memFd = if commit then true else mem.memFd) :
    Carries f mem' (f₁.commitSystemHeapSpaceIPC fd commit k).1
      (f₁.commitSystemHeapSpaceIPC fd commit k).2 := by
  have hagrees := C.agrees
  cases fd with
  | some n =>
      refine C.of_memFd (h.trans ?_)
      rw [hagrees]
      cases commit <;> rfl
  | none =>
      have hkept : f₁ = f := C.kept
      subst hkept
      cases commit with
      | true => exact ⟨rfl, fun hn => Option.some.inj hn ▸ hk, h⟩
      | false =>
          simp only [commitSystemHeapSpaceIPC, Bool.false_eq_true, if_false]
          split
          next => exact ⟨close_acquire hk, nofun, h.trans hagrees⟩
          next => exact ⟨rfl, nofun, h.trans hagrees⟩

theorem Carries.reserve (C : Carries f mem fd f₁) (hk : k.memfd ∉ f.owned) {hint size align : Nat}
    (h : mem.reserveGpuVirtualAddress hs hint size align a = some (code, mem', hs')) :
    Carries f mem' (f₁.reserveGpuVirtualAddress mem hs fd a k).1
      (f₁.reserveGpuVirtualAddress mem hs fd a k).2 := by
  rw [GpuMemory.reserveGpuVirtualAddress] at h
  rw [reserveGpuVirtualAddress]
  split at h
  next hfile =>
    rw [if_pos hfile]
    rw [Heaps.reserveIPCSysMem, Option.map_map] at h
    obtain ⟨⟨p, m⟩, halloc, h⟩ := Option.map_eq_some_iff.mp h
    simp only [halloc, Function.comp] at h ⊢
    split at h
    next hp =>
      cases h
      rw [if_pos hp]
      exact C
    next hp =>
      rw [if_neg hp]
      cases hcommit : a.commit with
      | true =>
          rw [hcommit] at h
          cases h
          exact C.commit hk true rfl
      | false =>
          rw [hcommit] at h
          cases h
          exact C.commit hk false rfl
  next hfile =>
    rw [if_neg hfile]
    obtain ⟨⟨code', p, hs₁⟩, _, heq⟩ := Option.map_eq_some_iff.mp h
    cases heq
    refine C.of_memFd ?_
    split <;> rfl

/-- `Init` -/
theorem init_carries {dev : SharedDevice} {info : GpuMemoryCreateInfo} (hk : k.memfd ∉ f.owned)
    (h : GpuMemory.init dev hs info a = some (code, mem, hs')) :
    Carries f mem (f.init dev hs info a k).1 (f.init dev hs info a k).2 := by
  have hnone : Carries f (describe dev info) none f := carries_none f rfl
  rw [GpuMemory.init] at h
  rw [init]
  simp only at h ⊢
  split at h
  next hphysical =>
    rw [if_pos hphysical]
    split at h
    next =>
      obtain ⟨r, _, heq⟩ := Option.map_eq_some_iff.mp h
      cases heq
      exact hnone.of_memFd rfl
    next =>
      cases h
      exact hnone
  next hphysical =>
    rw [if_neg hphysical]
    obtain ⟨⟨code', mem₁, hs₁⟩, hreserve, heq⟩ := Option.map_eq_some_iff.mp h
    have C := hnone.reserve hk hreserve
    simp only [hreserve]
    simp only at heq
    split at heq
    next hstop =>
      cases heq
      rw [if_pos hstop]
      exact C
    next hstop =>
      have hmem : (mem₁.back hs₁ a).2.1 = mem := by rw [heq]
      rw [if_neg hstop, ← hmem]
      exact C.back hs₁ a

/-- `ImportPhysicalHandle` -/
theorem importPhysicalHandle_carries {pid : Nat} {dev : SharedDevice} {info : GpuMemoryCreateInfo}
    (hk : k.memfd ∉ f.owned) (hdup : k.dup ∉ f.owned) {va : Nat}
    (h : GpuMemory.importPhysicalHandle pid dev hs info a = some (va, code, mem, hs')) :
    Carries f mem (f.importPhysicalHandle pid dev hs info a k).1
      (f.importPhysicalHandle pid dev hs info a k).2 := by
  rw [GpuMemory.importPhysicalHandle] at h
  rw [importPhysicalHandle]
  split at h
  next hfd =>
    cases h
    rw [if_pos hfd]
    exact carries_none f rfl
  next hfd =>
    rw [if_neg hfd]
    split at h
    next hfile =>
      rw [if_pos hfile]
      have C₀ : Carries f (describeFile dev info a)
          (if a.dup then (some k.dup, f.acquire k.dup) else (none, f)).1
          (if a.dup then (some k.dup, f.acquire k.dup) else (none, f)).2 := by
        cases hd : a.dup with
        | true => exact ⟨rfl, fun hn => Option.some.inj hn ▸ hdup, hd⟩
        | false => exact carries_none f hd
      obtain ⟨⟨code', mem₁, hs₁⟩, hreserve, heq⟩ := Option.map_eq_some_iff.mp h
      have C := C₀.reserve hk hreserve
      simp only [hreserve]
      simp only at heq
      split at heq
      next hcode =>
        cases heq
        rw [if_pos hcode]
        exact C
      next hcode =>
        have hmem : (mem₁.back hs₁ a).2.1 = mem := by rw [(Prod.mk.inj heq).2]
        rw [if_neg hcode, ← hmem]
        exact C.back hs₁ a
    next hfile =>
      rw [if_neg hfile]
      split at h
      next hrefusal =>
        cases h
        simp only [hrefusal]
        exact carries_none f rfl
      next hrefusal =>
        simp only [hrefusal]
        obtain ⟨r, hr, heq⟩ := Option.map_eq_some_iff.mp h
        cases heq
        have hnone : Carries f (describeShared info a.sharedInfo) none f := carries_none f rfl
        split at hr
        next hva =>
          rw [if_pos hva]
          exact hnone.reserve hk hr
        next hva =>
          rw [if_neg hva]
          obtain ⟨r, _, heq⟩ := Option.map_eq_some_iff.mp hr
          cases heq
          exact hnone.of_memFd rfl

/-- `CreateGpuMemory` -/
theorem create_carries {pid : Nat} {dev : SharedDevice} {info : GpuMemoryCreateInfo}
    (hk : k.memfd ∉ f.owned) (hdup : info.dmabufFd ≠ none → k.dup ∉ f.owned) {va : Nat}
    {o : Option GpuMemory} (h : createGpuMemory pid dev hs info a = some (va, code, o, hs')) :
    match o with
    | some mem =>
        Carries f mem (f.create pid dev hs info a k true).1 (f.create pid dev hs info a k true).2
    | none => k.munmap = true → f.create pid dev hs info a k false = (none, f) := by
  have hr : ∃ va' code' mem₁ hs₁, keepOrDelete (va', code', mem₁, hs₁) = (va, code, o, hs') ∧
      Carries f mem₁
        (if info.dmabufFd.isSome then f.importPhysicalHandle pid dev hs info a k
          else f.init dev hs info a k).1
        (if info.dmabufFd.isSome then f.importPhysicalHandle pid dev hs info a k
          else f.init dev hs info a k).2 := by
    rw [createGpuMemory] at h
    split at h
    next hfd =>
      obtain ⟨⟨va', code', mem₁, hs₁⟩, himport, heq⟩ := Option.map_eq_some_iff.mp h
      refine ⟨va', code', mem₁, hs₁, heq, ?_⟩
      rw [if_pos hfd]
      exact importPhysicalHandle_carries hk (hdup (Option.isSome_iff_ne_none.mp hfd)) himport
    next hfd =>
      obtain ⟨⟨code', mem₁, hs₁⟩, hinit, heq⟩ := Option.map_eq_some_iff.mp h
      refine ⟨0, code', mem₁, hs₁, heq, ?_⟩
      rw [if_neg hfd]
      exact init_carries hk hinit
  obtain ⟨va', code', mem₁, hs₁, heq, C⟩ := hr
  rw [keepOrDelete] at heq
  split at heq
  next =>
    cases heq
    exact C
  next =>
    cases heq
    intro hmunmap
    simp only [create, Bool.false_eq_true, if_false, hmunmap, C.free_eq]

/-- A new object is stored with its file. -/
theorem find?_setMemFd {h : Nat} (hh : f.memFd.find? h = none) (fd : Option Nat) :
    ((f.kept fd).setMemFd h fd).memFd.find? = Function.update f.memFd.find? h fd := by
  funext x
  cases fd with
  | none =>
      show f.memFd.find? x = _
      rw [Function.update_eq_self_iff.mpr hh.symm]
  | some n =>
      show (f.memFd.insert h n).find? x = _
      rw [OrdMap.find?_insert, Function.update_apply]

end Files

/-! ## Custody -/

/-- Where a descriptor is recorded. -/
inductive Holder where
  | object (handle : Nat)
  | entry (addr : Nat)
deriving DecidableEq

namespace FileCore

/-- The descriptor that is recorded in a place.  If the object of an entry has a file, the number
in the entry is that of the file, and the object has it. -/
def holds (s : FileCore) : Holder → Option Nat
  | .object h => s.files.memFd.find? h
  | .entry a =>
      (s.core.allocationMap.find? a).bind fun e =>
        if (s.files.memFd.find? e.handle).isSome then none else s.files.dmabufFd.find? a

/-- Every descriptor of the library has one place in which it is recorded, and nothing else was
closed. -/
structure Neat (s : FileCore) : Prop where
  strays : s.files.strays = []
  custody : Custody s.holds s.files.owned

/-- The records are about objects and entries that are there. -/
structure Recorded (s : FileCore) : Prop where
  object : ∀ {h n}, s.files.memFd.find? h = some n → ∃ mem, s.core.objects.find? h = some mem
  agrees : ∀ {h mem}, s.core.objects.find? h = some mem →
    mem.memFd = (s.files.memFd.find? h).isSome
  entry : ∀ {a n}, s.files.dmabufFd.find? a = some n → ∃ e, s.core.allocationMap.find? a = some e ∧
    ∀ m, s.files.memFd.find? e.handle = some m → n = m

/-- The invariant of the runs. -/
structure Inv (sp : AddressSpace) (s : FileCore) : Prop where
  memory : Memory.Inv sp ⟨s.core, {}⟩
  isOpen : s.core.isOpen = true
  plain : ∀ {a e}, s.core.allocationMap.find? a = some e → e.userptr = false
  recorded : s.Recorded
  neat : s.Neat

variable {sp : AddressSpace} {cfg : Config} {s s' : FileCore}

namespace Inv

theorem alone (I : Inv sp s) (a : Nat) : s.core.Alone a :=
  fun e he => I.memory.sole a e he (I.plain he) e he

theorem home (I : Inv sp s) {a : Nat} {e : Allocation} {mem : GpuMemory}
    (he : s.core.allocationMap.find? a = some e) (hm : s.core.objects.find? e.handle = some mem) :
    mem.home = a :=
  I.memory.consistent.home_of_alone (I.alone a) he hm

/-- An address that is not reserved has no entry. -/
theorem no_entry (I : Inv sp s) {a : Nat} (ha : s.core.heaps.reserved a = none) :
    s.core.allocationMap.find? a = none := by
  cases he : s.core.allocationMap.find? a with
  | none => rfl
  | some e =>
      obtain ⟨mem, hm⟩ := I.memory.consistent.live he
      have hreserved := I.memory.consistent.reserved hm
      rw [I.home he hm, ha] at hreserved
      cases hreserved

/-- A handle that was not given out has no file. -/
theorem no_file (I : Inv sp s) : s.files.memFd.find? s.core.nextHandle = none := by
  cases hn : s.files.memFd.find? s.core.nextHandle with
  | none => rfl
  | some n =>
      obtain ⟨mem, hm⟩ := I.recorded.object hn
      exact absurd rfl (I.memory.consistent.handle_ne hm)

end Inv

theorem inv_new (sp : AddressSpace) (pid : Nat) : Inv sp ⟨(Memory.new sp pid).core, {}⟩ := by
  refine ⟨Memory.inv_new sp pid, rfl, nofun, ⟨nofun, nofun, nofun⟩, rfl, ?_⟩
  have hholds : holds ⟨(Memory.new sp pid).core, {}⟩ = fun _ => none := by
    funext x
    cases x <;> rfl
  rw [hholds]
  exact Custody.empty

/-! ## What a call does to the records -/

/-- The managers have changed, and no address with them. -/
theorem Inv.of_heaps (I : Inv sp s) {hs : Heaps} (S : hs.Sound sp)
    (hreserved : hs.reserved = s.core.heaps.reserved) :
    Inv sp { s with core := { s.core with heaps := hs } } :=
  ⟨I.memory.of_heaps S hreserved, I.isOpen, I.plain,
    ⟨I.recorded.object, I.recorded.agrees, I.recorded.entry⟩, I.neat.strays, I.neat.custody⟩

/-- An object has changed in its flags. -/
theorem Inv.setFlags (I : Inv sp s) {h : Nat} {mem : GpuMemory}
    (hm : s.core.objects.find? h = some mem) (flags : GpuMemoryDescFlags) :
    Inv sp (s.setObject h { mem with flags := flags }) := by
  refine ⟨⟨I.memory.consistent.setFlags hm flags, I.memory.sole, rfl⟩, I.isOpen, I.plain,
    ⟨?_, ?_, I.recorded.entry⟩, I.neat.strays, I.neat.custody⟩
  · intro h' n hn
    obtain ⟨mem', hm'⟩ := I.recorded.object hn
    show ∃ mem₁, (s.core.objects.insert h { mem with flags := flags }).find? h' = some mem₁
    rw [OrdMap.find?_insert]
    split
    next => exact ⟨_, rfl⟩
    next => exact ⟨mem', hm'⟩
  · intro h' mem' hm'
    change (s.core.objects.insert h { mem with flags := flags }).find? h' = some mem' at hm'
    rw [OrdMap.find?_insert] at hm'
    split at hm'
    next heq =>
      cases hm'
      have hagrees := I.recorded.agrees hm
      rw [heq]
      exact hagrees
    next => exact I.recorded.agrees hm'

/-- A new object is entered under its address, and its file is the object's. -/
def entered (s : FileCore) (hs : Heaps) (mem : GpuMemory) (fd : Option Nat) (e : Allocation) :
    FileCore :=
  setEntry ⟨s.core.withObject hs mem, (s.files.kept fd).setMemFd s.core.nextHandle fd⟩ mem.home e

section Enter

variable {hs : Heaps} {mem : GpuMemory} {fd : Option Nat} {e : Allocation}

theorem Inv.find?_memFd (I : Inv sp s) (fd : Option Nat) :
    ((s.files.kept fd).setMemFd s.core.nextHandle fd).memFd.find? =
      Function.update s.files.memFd.find? s.core.nextHandle fd :=
  Files.find?_setMemFd I.no_file fd

theorem dmabufFd_kept (f : Files) (h : Nat) (fd : Option Nat) :
    ((f.kept fd).setMemFd h fd).dmabufFd = f.dmabufFd := by
  cases fd <;> rfl

/-- The entries that were there are about other objects. -/
theorem Inv.handle_ne (I : Inv sp s) {a : Nat} {e' : Allocation}
    (he' : s.core.allocationMap.find? a = some e') : e'.handle ≠ s.core.nextHandle := by
  obtain ⟨mem', hm'⟩ := I.memory.consistent.live he'
  exact I.memory.consistent.handle_ne hm'

theorem Inv.holds_entered (I : Inv sp s) (hcreates : Creates sp s.core.heaps mem hs) :
    (s.entered hs mem fd e).holds = Function.update s.holds (.object s.core.nextHandle) fd := by
  have hvacant := I.no_entry hcreates.fresh
  funext x
  cases x with
  | object h =>
      show ((s.files.kept fd).setMemFd s.core.nextHandle fd).memFd.find? h = _
      rw [I.find?_memFd, Function.update_apply, Function.update_apply]
      simp only [Holder.object.injEq]
      rfl
  | entry a =>
      rw [Function.update_of_ne Holder.noConfusion]
      show ((s.core.allocationMap.insert mem.home e).find? a).bind (fun e' =>
        if (((s.files.kept fd).setMemFd s.core.nextHandle fd).memFd.find? e'.handle).isSome then none
        else (((s.files.kept fd).setMemFd s.core.nextHandle fd).dmabufFd.erase mem.home).find? a) =
        (s.core.allocationMap.find? a).bind _
      rw [OrdMap.find?_insert, OrdMap.find?_erase, I.find?_memFd, dmabufFd_kept]
      by_cases heq : a = mem.home
      · simp [heq, hvacant]
      · simp only [if_neg heq]
        cases he' : s.core.allocationMap.find? a with
        | none => rfl
        | some e' =>
            rw [Option.bind_some, Option.bind_some, Function.update_of_ne (I.handle_ne he')]

theorem Inv.recorded_entered (I : Inv sp s) {f : Files} (C : s.files.Carries mem fd f) :
    (s.entered hs mem fd e).Recorded := by
  refine ⟨?_, ?_, ?_⟩
  · intro h n hn
    change ((s.files.kept fd).setMemFd s.core.nextHandle fd).memFd.find? h = some n at hn
    show ∃ mem', (s.core.objects.insert s.core.nextHandle mem).find? h = some mem'
    rw [I.find?_memFd, Function.update_apply] at hn
    rw [OrdMap.find?_insert]
    split at hn
    next heq => exact ⟨mem, if_pos heq⟩
    next hne =>
      rw [if_neg hne]
      exact I.recorded.object hn
  · intro h mem' hm'
    change (s.core.objects.insert s.core.nextHandle mem).find? h = some mem' at hm'
    show mem'.memFd = (((s.files.kept fd).setMemFd s.core.nextHandle fd).memFd.find? h).isSome
    rw [I.find?_memFd, Function.update_apply]
    rw [OrdMap.find?_insert] at hm'
    split at hm'
    next heq =>
      cases hm'
      rw [if_pos heq]
      exact C.agrees
    next hne =>
      rw [if_neg hne]
      exact I.recorded.agrees hm'
  · intro a n hn
    change (((s.files.kept fd).setMemFd s.core.nextHandle fd).dmabufFd.erase mem.home).find? a =
      some n at hn
    rw [dmabufFd_kept, OrdMap.find?_erase] at hn
    split at hn
    next => cases hn
    next hne =>
      obtain ⟨e', he', hsame⟩ := I.recorded.entry hn
      refine ⟨e', ?_, ?_⟩
      · show (s.core.allocationMap.insert mem.home e).find? a = some e'
        rw [OrdMap.find?_insert, if_neg hne]
        exact he'
      · intro m hm
        change ((s.files.kept fd).setMemFd s.core.nextHandle fd).memFd.find? e'.handle = some m at hm
        rw [I.find?_memFd, Function.update_of_ne (I.handle_ne he')] at hm
        exact hsame m hm

theorem Inv.neat_entered (I : Inv sp s) (hcreates : Creates sp s.core.heaps mem hs) {f : Files}
    (C : s.files.Carries mem fd f) : (s.entered hs mem fd e).Neat := by
  refine ⟨?_, ?_⟩
  · cases fd <;> exact I.neat.strays
  · rw [I.holds_entered hcreates]
    cases fd with
    | none => exact I.neat.custody.forget I.no_file
    | some n => exact I.neat.custody.acquire I.no_file (C.fresh rfl)

theorem Inv.enter (I : Inv sp s) (hcreates : Creates sp s.core.heaps mem hs) {f : Files}
    (C : s.files.Carries mem fd f) (he : e.handle = s.core.nextHandle) (huser : e.userptr = false) :
    Inv sp (setEntry ⟨s.core.withObject hs mem, f.setMemFd s.core.nextHandle fd⟩ mem.home e) := by
  have hkept := C.kept
  subst hkept
  refine ⟨I.memory.enter hcreates he, I.isOpen, ?_, I.recorded_entered C, I.neat_entered hcreates C⟩
  intro a e' he'
  change (s.core.allocationMap.insert mem.home e).find? a = some e' at he'
  rw [OrdMap.find?_insert] at he'
  split at he'
  next =>
    cases he'
    exact huser
  next => exact I.plain he'

end Enter

section Share

variable {a n : Nat} {e : Allocation} {f : Files}

/-- The number `n` is recorded for an entry. -/
def shared (s : FileCore) (f : Files) (a n : Nat) : FileCore :=
  { s with files := { f with dmabufFd := f.dmabufFd.insert a n } }

/-- The object of the entry has a file, and the number recorded is that of the file. -/
theorem holds_shared_file {m : Nat} (he : s.core.allocationMap.find? a = some e)
    (hfile : s.files.memFd.find? e.handle = some m) :
    (s.shared s.files a n).holds = s.holds := by
  funext x
  cases x with
  | object h => rfl
  | entry b =>
      show (s.core.allocationMap.find? b).bind (fun e' =>
        if (s.files.memFd.find? e'.handle).isSome then none
        else (s.files.dmabufFd.insert a n).find? b) = (s.core.allocationMap.find? b).bind _
      by_cases heq : b = a
      · rw [heq, he, Option.bind_some, Option.bind_some, hfile]
        rfl
      · simp only [OrdMap.find?_insert, if_neg heq]

/-- The object has no file, and the descriptor is the entry's. -/
theorem holds_shared_acquire (he : s.core.allocationMap.find? a = some e)
    (hfile : s.files.memFd.find? e.handle = none) :
    (s.shared (s.files.acquire n) a n).holds = Function.update s.holds (.entry a) (some n) := by
  funext x
  cases x with
  | object h => rfl
  | entry b =>
      show (s.core.allocationMap.find? b).bind (fun e' =>
        if (s.files.memFd.find? e'.handle).isSome then none
        else (s.files.dmabufFd.insert a n).find? b) = _
      by_cases heq : b = a
      · rw [heq, he, Option.bind_some, hfile, OrdMap.find?_insert, if_pos rfl,
          Function.update_self]
        rfl
      · rw [Function.update_of_ne (fun h => heq (Holder.entry.inj h))]
        simp only [OrdMap.find?_insert, if_neg heq]
        rfl

theorem Inv.recorded_shared (I : Inv sp s) (he : s.core.allocationMap.find? a = some e)
    (hfile : ∀ m, s.files.memFd.find? e.handle = some m → n = m)
    (hmemFd : f.memFd = s.files.memFd) (hdmabuf : f.dmabufFd = s.files.dmabufFd) :
    (s.shared f a n).Recorded := by
  refine ⟨?_, ?_, ?_⟩
  · intro h m hm
    change f.memFd.find? h = some m at hm
    rw [hmemFd] at hm
    exact I.recorded.object hm
  · intro h mem hm
    show mem.memFd = (f.memFd.find? h).isSome
    rw [hmemFd]
    exact I.recorded.agrees hm
  · intro b m hm
    change (f.dmabufFd.insert a n).find? b = some m at hm
    show ∃ e', s.core.allocationMap.find? b = some e' ∧
      ∀ m', f.memFd.find? e'.handle = some m' → m = m'
    rw [hdmabuf, OrdMap.find?_insert] at hm
    rw [hmemFd]
    split at hm
    next heq =>
      cases hm
      exact ⟨e, heq ▸ he, hfile⟩
    next => exact I.recorded.entry hm

/-- An entry is exported that was not before. -/
theorem Inv.share (I : Inv sp s) {mem : GpuMemory} {fd : Option Nat}
    (he : s.core.allocationMap.find? a = some e) (hd : s.files.dmabufFd.find? a = none)
    (hnew : ∀ m, fd = some m → m ∉ s.files.owned)
    (h : s.exportPhysicalHandle e.handle mem fd = some (n, f)) :
    Inv sp { s with files := { f with dmabufFd := f.dmabufFd.insert a n } } := by
  rw [exportPhysicalHandle] at h
  cases hfile : s.files.memFd.find? e.handle with
  | some m =>
      rw [hfile] at h
      cases h
      have hsame : ∀ m, s.files.memFd.find? e.handle = some m → n = m := by
        intro m hm
        rw [hfile] at hm
        exact Option.some.inj hm
      refine ⟨I.memory, I.isOpen, I.plain, I.recorded_shared he hsame rfl rfl, I.neat.strays, ?_⟩
      have C := I.neat.custody
      rw [← holds_shared_file he hfile] at C
      exact C
  | none =>
      rw [hfile] at h
      simp only at h
      split at h
      next =>
        obtain ⟨m, hshared, heq⟩ := Option.map_eq_some_iff.mp h
        cases heq
        have hnone : s.holds (.entry a) = none := by
          show (s.core.allocationMap.find? a).bind _ = none
          rw [he, Option.bind_some, hfile]
          exact hd
        refine ⟨I.memory, I.isOpen, I.plain, I.recorded_shared he ?_ rfl rfl, I.neat.strays, ?_⟩
        · intro m hm
          rw [hfile] at hm
          cases hm
        · have C := I.neat.custody.acquire hnone (hnew n hshared)
          rw [← holds_shared_acquire he hfile] at C
          exact C
      next => cases h

end Share

/-! ## A release -/

/-- The descriptor of the allocation at an address, with the object `h`. -/
def descriptor (s : FileCore) (addr h : Nat) : Option Nat :=
  (s.files.memFd.find? h).or (s.files.dmabufFd.find? addr)

/-- The entry at an address and its object `h` are gone, with their records. -/
structure Removes (s : FileCore) (addr h : Nat) (s' : FileCore) : Prop where
  map : s'.core.allocationMap = s.core.allocationMap.erase addr
  objects : s'.core.objects = s.core.objects.erase h
  memFd : s'.files.memFd = s.files.memFd.erase h
  dmabufFd : s'.files.dmabufFd = s.files.dmabufFd.erase addr

section Removes

variable {addr h : Nat} {mem : GpuMemory}

/-- Another entry has another object. -/
theorem Inv.handle_ne_of_ne (I : Inv sp s) (ho : s.core.object addr = some (h, mem)) {a : Nat}
    {e : Allocation} (he : s.core.allocationMap.find? a = some e) (hne : a ≠ addr) :
    e.handle ≠ h := by
  obtain ⟨e₀, he₀, rfl, _⟩ := Core.object_eq_some.mp ho
  exact fun hh => hne (I.alone addr e₀ he₀ a e he hh)

theorem Removes.holds_eq (R : Removes s addr h s') (I : Inv sp s)
    (ho : s.core.object addr = some (h, mem)) :
    s'.holds = Function.update (Function.update s.holds (.object h) none) (.entry addr) none := by
  funext x
  cases x with
  | object h' =>
      rw [Function.update_of_ne Holder.noConfusion]
      show s'.files.memFd.find? h' = _
      rw [R.memFd, OrdMap.find?_erase, Function.update_apply]
      simp only [Holder.object.injEq]
      rfl
  | entry a =>
      show (s'.core.allocationMap.find? a).bind (fun e =>
        if (s'.files.memFd.find? e.handle).isSome then none else s'.files.dmabufFd.find? a) = _
      rw [R.map, R.memFd, R.dmabufFd, OrdMap.find?_erase]
      by_cases heq : a = addr
      · rw [if_pos heq, heq, Function.update_self]
        rfl
      · rw [if_neg heq, Function.update_of_ne (fun h => heq (Holder.entry.inj h)),
          Function.update_of_ne Holder.noConfusion]
        show _ = (s.core.allocationMap.find? a).bind _
        cases he : s.core.allocationMap.find? a with
        | none => rfl
        | some e =>
            rw [Option.bind_some, Option.bind_some, OrdMap.find?_erase, OrdMap.find?_erase,
              if_neg (I.handle_ne_of_ne ho he heq), if_neg heq]

/-- What is recorded after a release is what was recorded before it, less the descriptor of the
allocation. -/
theorem Removes.custody (R : Removes s addr h s') (I : Inv sp s)
    (ho : s.core.object addr = some (h, mem)) :
    Custody s'.holds ((s.descriptor addr h).elim s.files.owned s.files.owned.erase) := by
  obtain ⟨e, he, rfl, _⟩ := Core.object_eq_some.mp ho
  have hentry : s.holds (.entry addr) =
      if (s.files.memFd.find? e.handle).isSome then none else s.files.dmabufFd.find? addr := by
    show (s.core.allocationMap.find? addr).bind _ = _
    rw [he, Option.bind_some]
  rw [R.holds_eq I ho, descriptor]
  cases hn : s.files.memFd.find? e.handle with
  | some n =>
      have hobject : s.holds (.object e.handle) = some n := hn
      refine (I.neat.custody.release hobject).forget ?_
      rw [Function.update_of_ne Holder.noConfusion, hentry, hn]
      rfl
  | none =>
      have hobject : s.holds (.object e.handle) = none := hn
      rw [hn] at hentry
      rw [Option.none_or]
      have C := I.neat.custody.forget hobject
      cases hm : s.files.dmabufFd.find? addr with
      | some m =>
          refine C.release ?_
          rw [Function.update_of_ne Holder.noConfusion, hentry]
          exact hm
      | none =>
          refine C.forget ?_
          rw [Function.update_of_ne Holder.noConfusion, hentry]
          exact hm

/-- A release is neat if it closes the descriptor of the allocation, and nothing else. -/
theorem Removes.neat_iff (R : Removes s addr h s') (I : Inv sp s)
    (ho : s.core.object addr = some (h, mem)) :
    s'.Neat ↔ s'.files.strays = [] ∧
      s'.files.owned = (s.descriptor addr h).elim s.files.owned s.files.owned.erase := by
  have C := R.custody I ho
  constructor
  · exact fun N => ⟨N.strays, N.custody.opened_eq C⟩
  · rintro ⟨hstrays, howned⟩
    exact ⟨hstrays, howned ▸ C⟩

/-- The records after a release. -/
theorem Removes.recorded (R : Removes s addr h s') (I : Inv sp s)
    (ho : s.core.object addr = some (h, mem)) : s'.Recorded := by
  refine ⟨?_, ?_, ?_⟩
  · intro h' n hn
    rw [R.memFd, OrdMap.find?_erase] at hn
    rw [R.objects, OrdMap.find?_erase]
    split at hn
    next => cases hn
    next hne =>
      rw [if_neg hne]
      exact I.recorded.object hn
  · intro h' mem' hm'
    rw [R.objects, OrdMap.find?_erase] at hm'
    rw [R.memFd, OrdMap.find?_erase]
    split at hm'
    next => cases hm'
    next hne =>
      rw [if_neg hne]
      exact I.recorded.agrees hm'
  · intro a n hn
    rw [R.dmabufFd, OrdMap.find?_erase] at hn
    split at hn
    next => cases hn
    next hne =>
      obtain ⟨e, he, hsame⟩ := I.recorded.entry hn
      refine ⟨e, ?_, fun m hm => hsame m ?_⟩
      · rw [R.map, OrdMap.find?_erase, if_neg hne]
        exact he
      · rw [R.memFd, OrdMap.find?_erase, if_neg (I.handle_ne_of_ne ho he hne)] at hm
        exact hm

/-- The object at an address is deleted with its entry, whose descriptor is closed. -/
def free (s : FileCore) (addr h : Nat) (mem : GpuMemory) (munmap : Bool) : FileCore :=
  ((s.closeEntry addr).eraseEntry addr).deleteObject h mem munmap

/-- The object at an address is deleted with its entry. -/
def drop (s : FileCore) (addr h : Nat) (mem : GpuMemory) (munmap : Bool) : FileCore :=
  (s.eraseEntry addr).deleteObject h mem munmap

theorem removes_free (s : FileCore) (addr h : Nat) (mem : GpuMemory) (munmap : Bool) :
    Removes s addr h (s.free addr h mem munmap) :=
  ⟨rfl, rfl, by simp [free, deleteObject, eraseEntry, closeEntry, Files.deleteObject, Files.eraseEntry],
    by simp [free, deleteObject, eraseEntry, closeEntry, Files.deleteObject, Files.eraseEntry]⟩

theorem removes_drop (s : FileCore) (addr h : Nat) (mem : GpuMemory) (munmap : Bool) :
    Removes s addr h (s.drop addr h mem munmap) :=
  ⟨rfl, rfl, by simp [drop, deleteObject, eraseEntry, Files.deleteObject, Files.eraseEntry],
    by simp [drop, deleteObject, eraseEntry, Files.deleteObject, Files.eraseEntry]⟩

/-- The descriptor of an allocation is the library's, and the only one in its records. -/
theorem Inv.records (I : Inv sp s) (ho : s.core.object addr = some (h, mem)) :
    (∀ n, s.files.memFd.find? h = some n → n ∈ s.files.owned ∧
      ∀ m, s.files.dmabufFd.find? addr = some m → m = n) ∧
    (s.files.memFd.find? h = none → ∀ m, s.files.dmabufFd.find? addr = some m → m ∈ s.files.owned) := by
  obtain ⟨e, he, rfl, _⟩ := Core.object_eq_some.mp ho
  constructor
  · intro n hn
    refine ⟨I.neat.custody.mem (x := .object e.handle) hn, fun m hm => ?_⟩
    obtain ⟨e', he', hsame⟩ := I.recorded.entry hm
    rw [he] at he'
    cases he'
    exact hsame n hn
  · intro hnone m hm
    refine I.neat.custody.mem (x := .entry addr) ?_
    show (s.core.allocationMap.find? addr).bind _ = some m
    rw [he, Option.bind_some, hnone]
    exact hm

/-- The release of memory closes its descriptor once if the object has no file, or if either the
entry has the number too or the destructor unmaps the file. -/
theorem Inv.free_neat_iff (I : Inv sp s) (ho : s.core.object addr = some (h, mem))
    (mem' : GpuMemory) (munmap : Bool) :
    (s.free addr h mem' munmap).Neat ↔
      ∀ n ∈ s.files.memFd.find? h, (s.files.dmabufFd.find? addr = none ↔ munmap = true) := by
  obtain ⟨hfile, hshared⟩ := I.records ho
  have hstrays := I.neat.strays
  have hfiles : (s.free addr h mem' munmap).files =
      { ((s.files.closeEntry addr).eraseEntry addr).deleteObject h munmap with } := rfl
  rw [(removes_free s addr h mem' munmap).neat_iff I ho, descriptor, hfiles, Files.deleteObject]
  have hmemFd : ((s.files.closeEntry addr).eraseEntry addr).memFd = s.files.memFd := by
    simp [Files.eraseEntry]
  rw [hmemFd]
  cases hn : s.files.memFd.find? h with
  | none =>
      cases hm : s.files.dmabufFd.find? addr with
      | none => simp [Files.freeGpuVirtualAddress, Files.eraseEntry, Files.closeEntry, hm, hstrays]
      | some m =>
          have hmem := hshared hn m hm
          simp [Files.freeGpuVirtualAddress, Files.eraseEntry, Files.closeEntry, hm,
            Files.close_of_mem hmem, hstrays]
  | some n =>
      obtain ⟨hmem, hsame⟩ := hfile n hn
      cases hm : s.files.dmabufFd.find? addr with
      | none =>
          cases munmap with
          | true =>
              simp [Files.freeGpuVirtualAddress, Files.decommitSystemHeapSpaceIPC, Files.eraseEntry,
                Files.closeEntry, hm, Files.close, hmem, hstrays]
          | false =>
              simp [Files.freeGpuVirtualAddress, Files.decommitSystemHeapSpaceIPC, Files.eraseEntry,
                Files.closeEntry, hm, hstrays, (Finset.erase_ne_self.mpr hmem).symm]
      | some m =>
          have hmn := hsame m hm
          subst hmn
          cases munmap with
          | true =>
              simp [Files.freeGpuVirtualAddress, Files.decommitSystemHeapSpaceIPC, Files.eraseEntry,
                Files.closeEntry, hm, Files.close, hmem, hstrays]
          | false =>
              simp [Files.freeGpuVirtualAddress, Files.decommitSystemHeapSpaceIPC, Files.eraseEntry,
                Files.closeEntry, hm, Files.close, hmem, hstrays]

/-- The end of a registration closes the descriptor once if the object has a file that the
destructor unmaps, or if it has no file and the entry has no number. -/
theorem Inv.drop_neat_iff (I : Inv sp s) (ho : s.core.object addr = some (h, mem))
    (mem' : GpuMemory) (munmap : Bool) :
    (s.drop addr h mem' munmap).Neat ↔
      if (s.files.memFd.find? h).isSome then munmap = true
      else s.files.dmabufFd.find? addr = none := by
  obtain ⟨hfile, hshared⟩ := I.records ho
  have hstrays := I.neat.strays
  have hfiles : (s.drop addr h mem' munmap).files = (s.files.eraseEntry addr).deleteObject h munmap :=
    rfl
  have hmemFd : (s.files.eraseEntry addr).memFd = s.files.memFd := rfl
  rw [(removes_drop s addr h mem' munmap).neat_iff I ho, descriptor, hfiles, Files.deleteObject, hmemFd]
  cases hn : s.files.memFd.find? h with
  | none =>
      cases hm : s.files.dmabufFd.find? addr with
      | none => simp [Files.freeGpuVirtualAddress, Files.eraseEntry, hstrays]
      | some m =>
          have hmem := hshared hn m hm
          simp [Files.freeGpuVirtualAddress, Files.eraseEntry, hstrays,
            (Finset.erase_ne_self.mpr hmem).symm]
  | some n =>
      obtain ⟨hmem, _⟩ := hfile n hn
      cases munmap with
      | true =>
          simp [Files.freeGpuVirtualAddress, Files.decommitSystemHeapSpaceIPC, Files.eraseEntry,
            Files.close, hmem, hstrays]
      | false =>
          simp [Files.freeGpuVirtualAddress, Files.decommitSystemHeapSpaceIPC, Files.eraseEntry,
            hstrays, (Finset.erase_ne_self.mpr hmem).symm]

end Removes

end FileCore

end RocDxg
