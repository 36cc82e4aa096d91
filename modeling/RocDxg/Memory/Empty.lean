import RocDxg.Memory.Paged
import RocDxg.VaMgr.Empty

/-!
# Requests of no bytes

`hsaKmtAllocMemoryAlign` does not refuse a size of zero, and neither does anything below it.
The address managers return an address that stays free (`VaMgr.alloc_zero`), the allocation
map gets an entry there, and the sub-allocator does the like with its fragments.

What was handed out before is spared, as long as it has a size (`Memory.Spares`).
-/

namespace RocDxg

open Lib (OrdMap MultiMap Node)
open GpuMemory (describe adjustSize Housed Homeless)

/-! ## The address managers -/

namespace Heaps

/-- What is handed out has not changed. -/
structure Keeps (sp : AddressSpace) (hs hs' : Heaps) : Prop where
  sound : Sound sp hs'
  reserved : hs'.reserved = hs.reserved

/-- The address is in no range that is handed out. -/
def Clear (hs : Heaps) (p : Nat) : Prop := ∀ a n, hs.reserved a = some n → p < a ∨ a + n ≤ p

variable {sp : AddressSpace} {hs hs' : Heaps}

theorem Sound.keeps (S : Sound sp hs) : Keeps sp hs hs := ⟨S, rfl⟩

theorem Sound.clear_zero (S : Sound sp hs) : Clear hs 0 := by
  intro a n ha
  exact Or.inl (S.reserved_bounds ha).1

theorem Clear.reserved (S : Sound sp hs) {p : Nat} (h : Clear hs p) : hs.reserved p = none := by
  cases hp : hs.reserved p with
  | none => rfl
  | some n =>
      have := h p n hp
      have := (S.reserved_bounds hp).2.1
      omega

/-- One manager was asked for nothing, and its answer may have been given back. -/
theorem Sound.alloc_zero (S : Sound sp hs) {k : Heap} {align hint p : Nat} {m : VaMgr}
    (halign : align + defaultGpuPageSize ≤ 2 ^ 64)
    (h : (hs.mgr k).alloc 0 align hint = some (p, m)) :
    Keeps sp hs (hs.setMgr m k) ∧ Keeps sp hs (hs.setMgr (m.free p) k) ∧ Clear hs p ∧
      (p ≠ 0 → (sp.range k).Mem p) := by
  have hmiss := VaMgr.alloc_zero (S.partition k) (by rw [S.minAlign]; exact halign) h
  have hset : ∀ {m' : VaMgr} {q : Nat}, VaMgr.Partition (sp.range k).start (sp.range k).size m' →
      m'.minAlign = (hs.mgr k).minAlign → m'.used = (hs.mgr k).used → (sp.range k).Mem q →
      (hs.mgr k).used q = none → Keeps sp hs (hs.setMgr m' k) := by
    intro m' q P hmin hused hq hnone
    have hupdate : m'.used = Function.update (hs.mgr k).used q none := by
      rw [hused]
      exact (Function.update_eq_self_iff.mpr hnone.symm).symm
    obtain ⟨S', hreserved⟩ := S.set P hmin hupdate hq
    refine ⟨S', ?_⟩
    rw [hreserved]
    refine Function.update_eq_self_iff.mpr ?_
    rw [S.reserved_eq hq, hnone]
  rcases hmiss with ⟨rfl, rfl⟩ | T
  · have hsame : hs.setMgr (hs.mgr k) k = hs := by
      cases k <;> rfl
    rw [VaMgr.free, if_pos rfl, hsame]
    exact ⟨S.keeps, S.keeps, S.clear_zero, fun hp => absurd rfl hp⟩
  · have hmem : (sp.range k).Mem p := T.inside
    have hnone : (hs.mgr k).used p = none := by
      cases hp : (hs.mgr k).used p with
      | none => rfl
      | some n =>
          have := T.clear p n hp
          have := ((S.partition k).used_bounds hp).2.1
          omega
    obtain ⟨P', hused, hmin⟩ := VaMgr.Misses.free (S.partition k) (Or.inr T)
    refine ⟨hset T.partition T.minAlign T.used hmem hnone, hset P' hmin hused hmem hnone, ?_,
      fun _ => hmem⟩
    intro a n ha
    obtain ⟨k', hk'⟩ := S.reserved_eq_some.mp ha
    by_cases heq : k' = k
    · subst heq
      exact T.clear a n hk'
    · have hbounds := (S.partition k').used_bounds hk'
      by_contra hin
      exact heq (sp.apart (a := p) ⟨by omega, by omega⟩ hmem)

end Heaps

/-! ## Objects -/

namespace GpuMemory

open Heaps (Sound Keeps Clear reserveAlign)

variable {sp : AddressSpace} {hs hs' : Heaps} {mem mem' : GpuMemory}

/-- The object has an address that stays free, or none. -/
structure Idle (sp : AddressSpace) (hs : Heaps) (mem : GpuMemory) (hs' : Heaps) : Prop where
  keeps : Keeps sp hs hs'
  place : mem.Homeless ∨ mem.Housed sp
  gpuAddr : Clear hs mem.gpuAddr
  handleApeAddr : Clear hs mem.handleApeAddr

theorem Homeless.idle (h : mem.Homeless) (S : Sound sp hs) (K : Keeps sp hs hs') :
    Idle sp hs mem hs' := by
  refine ⟨K, Or.inl h, ?_, ?_⟩
  · rw [h.gpuAddr]
    exact S.clear_zero
  · rw [h.handleApeAddr]
    exact S.clear_zero

/-- A new address of an object that had none. -/
theorem Homeless.idle_at (h : mem.Homeless) (S : Sound sp hs) {p : Nat} (hp : p ≠ 0)
    (hclear : Clear hs p) (K : Keeps sp hs hs') {fd : Bool}
    (hfd : fd = true → mem.domain = .kSystem) (hmem : (sp.range mem.heap).Mem p) :
    Idle sp hs { mem with gpuAddr := p, memFd := fd } hs' := by
  refine ⟨K, Or.inr (.address hp h.handleApeAddr hfd hmem), hclear, ?_⟩
  show Clear hs mem.handleApeAddr
  rw [h.handleApeAddr]
  exact S.clear_zero

/-- A range of no bytes. -/
theorem reserve_idle (S : Sound sp hs) (h₀ : mem.Homeless) (hfd : mem.memFd = false)
    (hzero : mem.size = 0) {hint alignment : Nat}
    (halign : (if mem.isFile then mem.alignment else reserveAlign mem.size alignment) +
      defaultGpuPageSize ≤ 2 ^ 64) {a : Answers} {code : ErrorCode}
    (h : mem.reserveGpuVirtualAddress hs hint mem.size alignment a = some (code, mem', hs')) :
    Idle sp hs mem' hs' ∧ (code = .success → mem'.gpuAddr ≠ 0) := by
  rw [reserveGpuVirtualAddress] at h
  split at h
  next hfile =>
    rw [if_pos hfile] at halign
    have hdom : mem.domain = .kSystem := by
      rw [isFile, Bool.and_eq_true] at hfile
      simpa using hfile.2
    obtain ⟨⟨c, p, hs₁⟩, hreserve, heq⟩ := Option.map_eq_some_iff.mp h
    obtain ⟨⟨q, m⟩, halloc, hres⟩ := Option.map_eq_some_iff.mp hreserve
    rw [hzero] at halloc
    obtain ⟨K, K', hclear, hmem⟩ := S.alloc_zero (k := .systemHeap) halign halloc
    simp only at hres
    split at hres
    next =>
      cases hres
      cases heq
      exact ⟨h₀.idle S K, fun h => by cases h⟩
    next hq =>
      split at hres
      next =>
        cases hres
        cases heq
        refine ⟨h₀.idle_at S hq hclear K (fun _ => hdom) ?_, fun _ => hq⟩
        rw [heap, if_pos hdom]
        exact hmem hq
      next =>
        cases hres
        cases heq
        exact ⟨h₀.idle S K', fun h => by cases h⟩
  next hfile =>
    rw [if_neg hfile] at halign
    have hplain : ∀ p : Nat, ({ mem with gpuAddr := p } : GpuMemory) =
        { mem with gpuAddr := p, memFd := false } := by
      intro p
      rw [← hfd]
    obtain ⟨⟨c, p, hs₁⟩, hreserve, heq⟩ := Option.map_eq_some_iff.mp h
    rw [Heaps.reserveGpuVirtualAddress] at hreserve
    simp only at hreserve
    rw [hzero] at hreserve halign
    split at hreserve
    next hdom =>
      obtain ⟨⟨q, m⟩, halloc, hres⟩ := Option.map_eq_some_iff.mp hreserve
      obtain ⟨K, K', hclear, hmem⟩ := S.alloc_zero (k := .systemHeap) halign halloc
      simp only at hres
      split at hres
      next =>
        cases hres
        cases heq
        by_cases hq : p = 0
        · rw [if_pos hq]
          exact ⟨h₀.idle S K, fun h => by cases h⟩
        · rw [if_neg hq, if_pos rfl, hplain]
          refine ⟨h₀.idle_at S hq hclear K (fun h => by cases h) ?_, fun _ => hq⟩
          rw [heap, if_pos hdom]
          exact hmem hq
      next =>
        cases hres
        cases heq
        exact ⟨h₀.idle S K', fun h => by cases h⟩
    next hdom =>
      obtain ⟨⟨q, m⟩, halloc, hres⟩ := Option.map_eq_some_iff.mp hreserve
      obtain ⟨K, _, hclear, hmem⟩ := S.alloc_zero (k := .localHeap) halign halloc
      cases hres
      cases heq
      by_cases hq : q = 0
      · rw [if_pos hq]
        exact ⟨h₀.idle S K, fun h => by cases h⟩
      · rw [if_neg hq, if_pos rfl, hplain]
        refine ⟨h₀.idle_at S hq hclear K (fun h => by cases h) ?_, fun _ => hq⟩
        rw [heap, if_neg hdom]
        exact hmem hq

/-- A place of no bytes in the handle aperture. -/
theorem takeHandle_idle (S : Sound sp hs) (h₀ : mem.Homeless) (hfd : mem.memFd = false)
    (hzero : mem.size = 0) {code : ErrorCode} (h : mem.takeHandle hs = some (code, mem', hs')) :
    Idle sp hs mem' hs' ∧ (code = .success → mem'.handleApeAddr ≠ 0) := by
  obtain ⟨⟨c, p, hs₁⟩, hape, heq⟩ := Option.map_eq_some_iff.mp h
  obtain ⟨⟨q, m⟩, halloc, hres⟩ := Option.map_eq_some_iff.mp hape
  rw [hzero] at halloc
  obtain ⟨K, _, hclear, hmem⟩ := S.alloc_zero (k := .handleAperture) (by decide) halloc
  cases hres
  cases heq
  refine ⟨⟨K, ?_, ?_, hclear⟩, fun hcode hp => ?_⟩
  · by_cases hp : p = 0
    · exact Or.inl ⟨h₀.gpuAddr, hp⟩
    · exact Or.inr (.handle h₀.gpuAddr hfd (hmem hp))
  · show Clear hs mem.gpuAddr
    rw [h₀.gpuAddr]
    exact S.clear_zero
  · rw [if_pos hp] at hcode
    cases hcode

/-- The range of an idle object is given back, also when it was before. -/
theorem Idle.freeGpuVirtualAddress (I : Idle sp hs mem hs') (S : Sound sp hs) (decommit : Bool) :
    Idle sp hs (mem.freeGpuVirtualAddress hs' decommit).1
      (mem.freeGpuVirtualAddress hs' decommit).2 := by
  have hplace : ∀ fd : Bool, (fd = true → mem.memFd = true) →
      ({ mem with memFd := fd } : GpuMemory).Homeless ∨
        ({ mem with memFd := fd } : GpuMemory).Housed sp := by
    intro fd hfd
    rcases I.place with h | h
    · exact Or.inl ⟨h.gpuAddr, h.handleApeAddr⟩
    · refine Or.inr ?_
      cases h with
      | address hva hape hfile hmem => exact .address hva hape (fun h => hfile (hfd h)) hmem
      | handle hva hfile hmem =>
          refine .handle hva (Bool.eq_false_iff.mpr fun h => ?_) hmem
          rw [hfd h] at hfile
          cases hfile
  have hfst : ∃ fd : Bool, (fd = true → mem.memFd = true) ∧
      (mem.freeGpuVirtualAddress hs' decommit).1 = { mem with memFd := fd } := by
    rw [GpuMemory.freeGpuVirtualAddress]
    split
    next hfile => exact ⟨!decommit, fun _ => hfile, rfl⟩
    next => split <;> exact ⟨mem.memFd, fun h => h, rfl⟩
  have hkeeps : Keeps sp hs (mem.freeGpuVirtualAddress hs' decommit).2 := by
    by_cases hva : mem.gpuAddr = 0
    · have hsame : (mem.freeGpuVirtualAddress hs' decommit).2 = hs' := by
        rw [GpuMemory.freeGpuVirtualAddress, hva]
        split
        next => rw [Heaps.freeIPCSysMem, VaMgr.free, if_pos rfl]
        next => rw [if_neg (by simp)]
      rw [hsame]
      exact I.keeps
    · rcases I.place with h | h
      · exact absurd h.gpuAddr hva
      · cases h with
        | address _ _ hfd hmem =>
            obtain ⟨S', hreserved⟩ := freeGpuVirtualAddress_spec I.keeps.sound hva hfd hmem decommit
            refine ⟨S', ?_⟩
            rw [hreserved, I.keeps.reserved]
            exact Function.update_eq_self_iff.mpr (I.gpuAddr.reserved S).symm
        | handle hva' _ _ => exact absurd hva' hva
  obtain ⟨fd, hfd, heq⟩ := hfst
  rw [heq]
  exact ⟨hkeeps, hplace fd hfd, I.gpuAddr, I.handleApeAddr⟩

theorem Idle.destroy (I : Idle sp hs mem hs') (S : Sound sp hs) : Keeps sp hs (mem.destroy hs') := by
  rcases I.place with h | h
  · rw [h.destroy]
    exact I.keeps
  · obtain ⟨S', hreserved⟩ := destroy_spec I.keeps.sound h
    refine ⟨S', ?_⟩
    have hnone : hs.reserved mem.home = none := by
      rw [home]
      split
      next => exact I.gpuAddr.reserved S
      next => exact I.handleApeAddr.reserved S
    rw [hreserved, I.keeps.reserved]
    exact Function.update_eq_self_iff.mpr hnone.symm

/-- `Init` of an object of no bytes. -/
theorem init_idle (S : Sound sp hs) {dev : SharedDevice} {info : GpuMemoryCreateInfo}
    (hzero : (describe dev info).size = 0)
    (halign : (describe dev info).askedAlign info.alignment + defaultGpuPageSize ≤ 2 ^ 64)
    {a : Answers} {code : ErrorCode} (h : init dev hs info a = some (code, mem', hs')) :
    Idle sp hs mem' hs' ∧ (code = .success →
      (if info.flags.physicalOnly then mem'.handleApeAddr else mem'.gpuAddr) ≠ 0) := by
  have h₀ : (describe dev info).Homeless := ⟨rfl, rfl⟩
  have hphysical : (describe dev info).flags.isPhysicalOnly = info.flags.physicalOnly := rfl
  rw [init] at h
  simp only [hphysical] at h
  split at h
  next hp =>
    rw [if_pos hp]
    split at h
    next => exact takeHandle_idle S h₀ rfl hzero h
    next hcode =>
      cases h
      exact ⟨h₀.idle S S.keeps, fun hsuccess => absurd hsuccess hcode⟩
  next hp =>
    rw [if_neg hp]
    rw [askedAlign, hphysical, if_neg hp] at halign
    obtain ⟨⟨c, mem, hs₁⟩, hreserve, heq⟩ := Option.map_eq_some_iff.mp h
    obtain ⟨I, hva⟩ := reserve_idle S h₀ rfl hzero halign hreserve
    simp only at heq
    split at heq
    next =>
      cases heq
      exact ⟨I, hva⟩
    next hcode =>
      have hc : c = .success := by simpa using (not_or.mp hcode).2
      rw [back] at heq
      split at heq
      next =>
        cases heq
        exact ⟨I, fun _ => hva hc⟩
      next hback =>
        obtain ⟨rfl, hfree⟩ := Prod.mk.inj heq
        have I' := I.freeGpuVirtualAddress S a.decommit
        rw [hfree] at I'
        exact ⟨I', fun hsuccess => absurd hsuccess hback⟩

end GpuMemory

/-! ## Entries -/

namespace Core

open Heaps (Sound Keeps Clear)

/-- An entry was made at an address that is still free. -/
structure Slips (c : Core) (p : Nat) (c' : Core) : Prop where
  pos : p ≠ 0
  clear : Clear c.heaps p
  object : ∀ q, q ≠ p → c'.object q = c.object q
  reserved : c'.heaps.reserved = c.heaps.reserved
  isOpen : c'.isOpen = c.isOpen

variable {sp : AddressSpace} {c c' : Core}

theorem Settled.object_of_clear (C : Settled sp c) {p : Nat} (h : Clear c.heaps p) :
    c.object p = none := by
  cases ho : c.object p with
  | none => rfl
  | some r =>
      obtain ⟨i, mem⟩ := r
      have hreserved := C.reserved ho
      rw [h.reserved C.consistent.sound] at hreserved
      cases hreserved

/-- An attempt of an allocation of no bytes. -/
theorem Settled.createAllocation_zero (C : Settled sp c) {dev : SharedDevice}
    {info : GpuMemoryCreateInfo} (hfd : info.dmabufFd = none) (hzero : (describe dev info).size = 0)
    (halign : (describe dev info).askedAlign info.alignment + defaultGpuPageSize ≤ 2 ^ 64)
    {a : Answers} {code : ErrorCode} {p : Nat}
    (hcreate : c.createAllocation dev info a = .ok (code, p, c')) :
    (code ≠ .success ∧ Becomes sp c c.object c' ∧ c'.heaps.reserved = c.heaps.reserved) ∨
      (code = .success ∧ Slips c p c') := by
  have S := C.consistent.sound
  rw [createAllocation] at hcreate
  obtain ⟨⟨va, code₁, o, c₁⟩, hobject, hcreate⟩ := ok_of_bind hcreate
  rw [create, createGpuMemory, hfd] at hobject
  simp only [Option.isSome_none, Bool.false_eq_true, if_false] at hobject
  cases hinit : GpuMemory.init dev c.heaps info a with
  | none =>
      rw [hinit] at hobject
      cases hobject
  | some r =>
      obtain ⟨code₂, mem, hs⟩ := r
      obtain ⟨I, hpos⟩ := GpuMemory.init_idle S hzero halign hinit
      rw [hinit, Option.map_some, keepOrDelete] at hobject
      by_cases hcode : code₂ = .success
      · rw [if_pos hcode] at hobject
        cases hobject
        simp only [hfd, Option.isSome_none, Bool.false_eq_true, or_false, Except.ok.injEq,
          Prod.mk.injEq] at hcreate
        obtain ⟨rfl, hp, rfl⟩ := hcreate
        have hpos := hpos hcode
        rw [hp] at hpos
        have hclear : Clear c.heaps p := by
          rw [← hp]
          split
          next => exact I.handleApeAddr
          next => exact I.gpuAddr
        refine Or.inr ⟨hcode, hpos, hclear, ?_, I.keeps.reserved, rfl⟩
        intro q hq
        rw [hp]
        show ((c.allocationMap.insert p _).find? q).bind (fun e' =>
          ((c.objects.insert c.nextHandle mem).find? e'.handle).map fun mem' =>
            (e'.handle, mem')) = _
        rw [OrdMap.find?_insert, if_neg hq, object]
        cases he : c.allocationMap.find? q with
        | none => rfl
        | some e =>
            obtain ⟨mem', hm⟩ := C.consistent.live he
            rw [Option.bind_some, Option.bind_some, OrdMap.find?_insert,
              if_neg (C.consistent.handle_ne hm)]
      · rw [if_neg hcode] at hobject
        cases hobject
        simp only [Except.ok.injEq, Prod.mk.injEq] at hcreate
        obtain ⟨rfl, _, rfl⟩ := hcreate
        have K := I.destroy S
        exact Or.inl ⟨hcode, C.of_heaps K.sound K.reserved, K.reserved⟩

end Core

/-! ## The sub-allocator -/

namespace SimpleHeap

variable {h h' : SimpleHeap}

/-- The address is in no block that is in use. -/
def Outside (h : SimpleHeap) (p : Nat) : Prop := ∀ b n, h.lengths b = some n → p < b ∨ b + n ≤ p

theorem Outside.not_listed {base : Nat} (hapart : h.Outside base) (S : Sound h) :
    h.blockList.find? base = none := by
  cases hb : h.blockList.find? base with
  | none => rfl
  | some frags =>
      have hpos : 0 < blockLength frags := S.arenas.pos hb
      have := hapart base _ (lengths_eq_some.mpr ⟨frags, hb, rfl⟩)
      omega

/-- A block that has one fragment, at its base, is put beside the others. -/
theorem Sound.live_insert (S : Sound h) {base : Nat} {fl : MultiMap} {f : HeapFragment}
    (hapart : h.Outside base) {q : Nat} (hq : q ≠ base) :
    (h.withBlock base (fl, OrdMap.empty.insert base f)).live q = h.live q := by
  have hnone := hapart.not_listed S
  cases hold : h.live q with
  | some n =>
      obtain ⟨b, frags, hb, hv⟩ := S.arenas.live_eq_some.mp hold
      obtain ⟨g, hg, hn⟩ := OrdMap.view_eq_some.mp hv
      obtain ⟨hlo, hhi⟩ := S.arenas.bounds hb hg
      have hbase := hapart b _ (lengths_eq_some.mpr ⟨frags, hb, rfl⟩)
      have hne : b ≠ base := by
        rintro rfl
        rw [hnone] at hb
        cases hb
      have hfloor : (h.blockList.insert base (OrdMap.empty.insert base f)).floor? q =
          some (b, frags) := by
        refine OrdMap.floor?_of_gap ?_ hlo ?_
        · rw [OrdMap.find?_insert, if_neg hne]
          exact hb
        · intro e he hlt
          rcases OrdMap.mem_insert.mp he with rfl | ⟨hmem, _⟩
          · have hin : q < b + blockLength frags := hhi
            show q < base
            have hlt : b < base := hlt
            omega
          · have := S.arenas.apart hb (OrdMap.find?_eq_some.mpr hmem) hlt
            omega
      show ((Lib.fragment? (h.blockList.insert base _) q).bind _) = some n
      rw [Lib.fragment?, hfloor, Option.bind_some, hg, Option.bind_some]
      exact hn
  | none =>
      cases hnew : (h.withBlock base (fl, OrdMap.empty.insert base f)).live q with
      | none => rfl
      | some n =>
          obtain ⟨g, hg, hn⟩ := Option.bind_eq_some_iff.mp hnew
          obtain ⟨⟨b, frags⟩, hfloor, hg⟩ := Option.bind_eq_some_iff.mp hg
          rcases OrdMap.mem_insert.mp (OrdMap.floor?_mem hfloor).1 with heq | ⟨hmem, _⟩
          · cases heq
            rw [OrdMap.find?_insert, if_neg hq] at hg
            cases hg
          · have hsome : h.live q = some n :=
              S.arenas.live_eq_some.mpr ⟨b, frags, OrdMap.find?_eq_some.mpr hmem,
                OrdMap.view_eq_some.mpr ⟨g, hg, hn⟩⟩
            rw [hold] at hsome
            cases hsome

/-- A free fragment is cut at its base and written again. -/
theorem Sound.takeBase_zero (S : Sound h) {n : Node} {b : Nat} {frags : OrdMap HeapFragment}
    (hl : h.lookup n.val = some (b, frags, ⟨some n.id, n.key, false, true⟩)) :
    (h.withBlock b (takeBase h.freeList frags 0 n ⟨some n.id, n.key, false, true⟩)).live =
      h.live := by
  obtain ⟨hb, hf⟩ := S.lookup_eq_some.mp hl
  have hsize : n.key < 2 ^ 62 := S.size_lt hb hf
  have hbounds : b ≤ n.val ∧ 0 < n.key ∧ n.val + n.key ≤ b + blockLength frags :=
    (S.arenas.tiles hb).bounds hf
  have hentry : (⟨some n.id, n.key, false, true⟩ : HeapFragment).freeEntry = some (n.key, n.id) := rfl
  have L := (S.arenas.arena hb).openFree hf hentry
  obtain ⟨harena, hview⟩ := L.closeFree (HeapFragment.entry_makeFree hsize)
    (HeapFragment.linked_makeFree _ n.key)
  obtain ⟨S', _⟩ := S.withBlock hb harena
  have heq : takeBase h.freeList frags 0 n ⟨some n.id, n.key, false, true⟩ =
      ((h.freeList.erase n.id).insert n.key n.val,
        frags.insert n.val (.makeFree (h.freeList.erase n.id).next n.key)) := by
    rw [takeBase]
    simp only [gt_iff_lt, if_pos hbounds.2.1, Nat.add_zero, Nat.sub_zero, OrdMap.insert_insert]
  have hnone : frags.view HeapFragment.usedSize n.val = none := by
    rw [OrdMap.view_of_find? hf]
    rfl
  have hlength : blockLength (frags.insert n.val
      (.makeFree (h.freeList.erase n.id).next n.key)) = blockLength frags :=
    (Nat.add_left_cancel harena.tiles.hi_eq).symm
  rw [heq]
  have hlive := S.live_withBlock (x := none) hb S' hbounds.1 (by omega)
    (hview.trans (Function.update_eq_self_iff.mpr hnone.symm).symm)
  rw [hlive]
  refine Function.update_eq_self_iff.mpr ?_
  cases hq : h.live n.val with
  | none => rfl
  | some k =>
      obtain ⟨b', frags', f', hl', hfree, _⟩ := S.live_eq_some.mp hq
      rw [hl] at hl'
      cases hl'
      cases hfree

/-- The search of `alloc` for no bytes. -/
theorem Sound.allocFragment_zero (S : Sound h) (hpaged : Paged h) :
    h.allocFragment 0 = some none ∨
      ∃ p h', h.allocFragment 0 = some (some (p, h')) ∧ p ≠ 0 ∧ h'.live = h.live := by
  have hsmall : ¬ 0 ≥ gpuHugePageSize := by decide
  simp only [allocFragment, if_neg hsmall, allocLoop]
  cases hlb : h.freeList.lowerBound 0 with
  | none => exact Or.inl rfl
  | some n =>
      obtain ⟨hn, _⟩ := MultiMap.lowerBound_mem hlb
      obtain ⟨b, frags, hl⟩ := S.lookup_of_node hn
      obtain ⟨hb, hf⟩ := S.lookup_eq_some.mp hl
      have hpage : n.val % defaultGpuPageSize = 0 :=
        Nat.mod_eq_zero_of_dvd (hpaged b frags hb _ _ hf)
      simp only [hl, Nat.not_lt_zero, ne_eq, not_true_eq_false, or_self, if_false, hpage, if_true]
      refine Or.inr ⟨n.val, _, rfl, ?_, S.takeBase_zero hl⟩
      have hpos := (S.small hb).1
      have hlo : b ≤ n.val := ((S.arenas.tiles hb).bounds hf).1
      omega

/-- A new block, of which nothing is asked. -/
theorem allocBlock_zero {σ : Type u} (A : BlockAllocator σ) (s : σ) {base : Nat} (size : Nat)
    (hnone : h.blockList.find? base = none) :
    ∃ fl n, allocBlock A h s base size 0 =
      some (base, { h with inUseSize := n }.withBlock base
        (fl, OrdMap.empty.insert base (.makeUsed 0)), s) := by
  rw [allocBlock, if_neg (Nat.not_lt_zero _)]
  simp only [hnone, Option.getD_none, if_neg (Nat.not_lt_zero _), gt_iff_lt, blockFragments,
    Nat.add_zero]
  split
  next =>
    rw [OrdMap.insert_insert]
    exact ⟨_, _, rfl⟩
  next => exact ⟨_, _, rfl⟩

end SimpleHeap

/-! ## The call -/

namespace Memory

open SimpleHeap (Paged Holds)
open RocDxg.Core (Settled Becomes Slips)
open Heaps (Clear)

/-- What was handed out is as it was: the fragments and that nothing else is one, the objects,
the blocks among them, and the ranges of the address managers. -/
structure Spares (m m' : Memory) : Prop where
  live : ∀ q, m.Given q → m'.heap.live q = m.heap.live q
  object : ∀ q, m.core.object q ≠ none → m'.core.object q = m.core.object q
  reserved : m'.core.heaps.reserved = m.core.heaps.reserved

variable {sp : AddressSpace} {cfg : Config} {m m' : Memory}

theorem Spares.refl (m : Memory) : Spares m m := ⟨fun _ _ => rfl, fun _ _ => rfl, rfl⟩

/-- A block has an object. -/
theorem Backed.outside_of_clear (B : Backed sp cfg m) {p : Nat} (h : Clear m.core.heaps p) :
    m.heap.Outside p := by
  intro b n hb
  obtain ⟨hn, i, mem, ho, hblock⟩ := B.block (Or.inl hb)
  have := h b mem.size (B.settled.reserved ho)
  have := hblock.size
  omega

/-- Nothing is handed out at an address outside the blocks that has no object of its own. -/
theorem Backed.ne_of_given (B : Backed sp cfg m) {p q : Nat} (hapart : m.heap.Outside p)
    (hdirect : m.direct p = none) (hq : m.Given q) : q ≠ p := by
  rintro rfl
  rcases hq with hq | hq
  · cases hl : m.heap.live q with
    | none => exact hq hl
    | some k =>
        obtain ⟨b, hlen, hlo, hpos, hhi⟩ := B.live_inside hl
        have := hapart b _ hlen
        omega
  · exact hq hdirect

/-- The request of a new block of no bytes. -/
theorem Backed.newBlock_zero (B : Backed sp cfg m) (ram : Bool) (ans : Answers)
    {r : Option (Nat × Nat)} {c' : Core}
    (hnew : (blockAllocator cfg ram ans).alloc (.ok m.core) 0 = (r, .ok c')) :
    (r = none ∧ Becomes sp m.core m.core.object c' ∧
        c'.heaps.reserved = m.core.heaps.reserved) ∨
      ∃ p, r = some (p, 0) ∧ Slips m.core p c' := by
  have hround : alignUp 64 0 subAllocatorBlockSize = 0 := by decide
  simp only [blockAllocator, hround, Except.bind, Core.allocDirect] at hnew
  cases hopen : m.core.isOpen with
  | false =>
      simp only [hopen, if_true, Prod.mk.injEq, Except.ok.injEq] at hnew
      obtain ⟨rfl, rfl⟩ := hnew
      exact Or.inl ⟨rfl, B.settled.keep, rfl⟩
  | true =>
      simp only [hopen, Bool.true_eq_false, if_false] at hnew
      cases hinfo : allocInfo cfg (blockArgs 0) ram with
      | error status =>
          have hne : status ≠ .success := allocInfo_ne_success hinfo
          simp only [hinfo, if_neg hne, Prod.mk.injEq, Except.ok.injEq] at hnew
          obtain ⟨rfl, rfl⟩ := hnew
          exact Or.inl ⟨rfl, B.settled.keep, rfl⟩
      | ok i =>
          obtain ⟨dev, info, vmm⟩ := i
          obtain ⟨_, hsize, halign, _, hfd, _, _⟩ := Core.allocInfo_blockArgs hinfo
          obtain ⟨hphysical, hfile⟩ := Core.allocInfo_block_plain hinfo
          have hzero : (describe dev info).size = 0 := by
            show adjustSize dev info.domain info.size = 0
            rw [hsize]
            exact GpuMemory.adjustSize_zero dev info.domain
          have hasked : (describe dev info).askedAlign info.alignment + defaultGpuPageSize ≤
              2 ^ 64 := by
            have hphysical' : (describe dev info).flags.isPhysicalOnly = false := hphysical
            rw [GpuMemory.askedAlign, hphysical', if_neg Bool.false_ne_true, hfile,
              if_neg Bool.false_ne_true, hzero, halign]
            decide
          simp only [hinfo, bind, Except.bind] at hnew
          cases hcreate : m.core.createAllocation dev info ans with
          | error f =>
              simp [hcreate] at hnew
          | ok r' =>
              obtain ⟨code, addr, c₁⟩ := r'
              rw [hcreate] at hnew
              simp only at hnew
              rcases B.settled.createAllocation_zero hfd hzero hasked hcreate with
                ⟨hcode, K, hreserved⟩ | ⟨hcode, T⟩
              · simp only [if_neg hcode, reduceCtorEq, if_false, Prod.mk.injEq,
                  Except.ok.injEq] at hnew
                obtain ⟨rfl, rfl⟩ := hnew
                exact Or.inl ⟨rfl, K, hreserved⟩
              · simp only [if_pos hcode, if_true, Prod.mk.injEq, Except.ok.injEq] at hnew
                obtain ⟨rfl, rfl⟩ := hnew
                exact Or.inr ⟨addr, rfl, T⟩

/-- A fragment of no bytes: an address inside the heap that stays free, a block of the cache, or
a new block. -/
theorem Backed.alloc_zero (B : Backed sp cfg m) (hpaged : Paged m.heap) {ram : Bool}
    {ans : Answers} {p : Nat} {h' : SimpleHeap} {c' : Core}
    (halloc : SimpleHeap.alloc (blockAllocator cfg ram ans) m.heap (.ok m.core) 0 =
      some (p, h', .ok c')) :
    (p = 0 ∧ h' = m.heap ∧ m.heap.blockCache = [] ∧ Becomes sp m.core m.core.object c' ∧
        c'.heaps.reserved = m.core.heaps.reserved) ∨
      (p ≠ 0 ∧ Spares m ⟨c', h'⟩) := by
  have hblockSize : 0 < (blockAllocator cfg ram ans).blockSize := by
    show 0 < subAllocatorBlockSize
    decide
  rcases SimpleHeap.alloc_cases halloc with
    ⟨hfrag, hc⟩ | ⟨_, ⟨x, hlast, _, hnew⟩ | ⟨hcache, hnone, rfl, rfl, hc⟩ | ⟨base, size, hbase, hnew⟩⟩
  · rcases B.heap.allocFragment_zero hpaged with hnone | ⟨q, h₁, hsome, hq, hlive⟩
    · rw [hfrag] at hnone
      cases hnone
    · rw [hfrag] at hsome
      cases hsome
      cases hc
      refine Or.inr ⟨hq, fun q _ => ?_, fun _ _ => rfl, rfl⟩
      show h'.live q = _
      rw [hlive]
  · have hmem : x ∈ m.heap.blockCache := List.mem_of_getLast? hlast
    obtain ⟨_, i, mem, ho, hb⟩ := B.block (b := x.base) (n := x.length) (Or.inr hmem)
    have hfresh := B.fresh x hmem
    have hfind : m.heap.blockList.find? x.base = none := Option.map_eq_none_iff.mp hfresh
    obtain ⟨fl, n, heq⟩ := SimpleHeap.allocBlock_zero (h := { m.heap with
        blockCache := m.heap.blockCache.dropLast
        cacheSize := sub64 m.heap.cacheSize x.length })
      (blockAllocator cfg ram ans) (.ok m.core) x.length hfind
    rw [heq] at hnew
    cases hnew
    have hapart : m.heap.Outside x.base := by
      intro b k hk
      obtain ⟨hlen, i', mem', ho', hb'⟩ := B.block (Or.inl hk)
      have hne : b ≠ x.base := by
        rintro rfl
        rw [hfresh] at hk
        cases hk
      have := B.settled.apart ho' ho hne
      have := hb'.size
      omega
    have hdirect : m.direct x.base = none :=
      if_pos (SimpleHeap.isBase_iff.mpr ⟨x.length, Or.inr hmem⟩)
    refine Or.inr ⟨Nat.ne_of_gt (B.settled.bounds ho).1, fun q hq => ?_, fun _ _ => rfl, rfl⟩
    exact B.heap.live_insert hapart (B.ne_of_given hapart hdirect hq)
  · rcases B.newBlock_zero ram ans (Prod.ext hnone hc.symm) with ⟨_, K, hreserved⟩ | ⟨p, hp, _⟩
    · refine Or.inl ⟨rfl, rfl, List.getLast?_eq_none_iff.mp ?_, K, hreserved⟩
      refine Option.eq_none_iff_forall_ne_some.mpr fun x hx => ?_
      exact absurd (hcache x hx) (Nat.not_le_of_lt hblockSize)
    · cases hp
  · obtain ⟨_, hc, _⟩ := SimpleHeap.allocBlock_eq (Nat.zero_le _) hnew
    rcases B.newBlock_zero ram ans (Prod.ext hbase hc.symm) with ⟨hr, _⟩ | ⟨q, hr, T⟩
    · cases hr
    · cases hr
      have hapart := B.outside_of_clear T.clear
      obtain ⟨fl, n, heq⟩ := SimpleHeap.allocBlock_zero (blockAllocator cfg ram ans)
        ((blockAllocator cfg ram ans).alloc (.ok m.core) 0).2 0 (hapart.not_listed B.heap)
      simp only [heq, Option.some.injEq, Prod.mk.injEq] at hnew
      obtain ⟨rfl, rfl, _⟩ := hnew
      have hnone := B.settled.object_of_clear T.clear
      have hdirect : m.direct base = none := by
        rw [Memory.direct, hnone, ite_self]
      refine Or.inr ⟨T.pos, fun q hq => ?_, fun q hq => T.object q ?_, T.reserved⟩
      · exact B.heap.live_insert hapart (B.ne_of_given hapart hdirect hq)
      · rintro rfl
        exact hq hnone

/-- An object of no bytes, or none. -/
theorem Backed.createAllocation_spares (B : Backed sp cfg m) {dev : SharedDevice}
    {info : GpuMemoryCreateInfo} (hfd : info.dmabufFd = none) (hzero : (describe dev info).size = 0)
    (halign : (describe dev info).askedAlign info.alignment + defaultGpuPageSize ≤ 2 ^ 64)
    {a : Answers} {code : ErrorCode} {p : Nat} {c : Core}
    (hcreate : m.core.createAllocation dev info a = .ok (code, p, c)) :
    Spares m { m with core := c } ∧ (code ≠ .success → Backed sp cfg { m with core := c } ∧
      c.object = m.core.object) := by
  rcases B.settled.createAllocation_zero hfd hzero halign hcreate with
    ⟨hcode, K, hreserved⟩ | ⟨hcode, T⟩
  · exact ⟨⟨fun _ _ => rfl, fun q _ => congrFun K.object q, hreserved⟩,
      fun _ => ⟨(B.keepCore K).backed, K.object⟩⟩
  · refine ⟨⟨fun _ _ => rfl, fun q hq => T.object q ?_, T.reserved⟩,
      fun hne => absurd hcode hne⟩
    rintro rfl
    exact hq (B.settled.object_of_clear T.clear)

/-- The attempts to create an object of no bytes, with nothing to release between them. -/
theorem Backed.createOrTrim_spares (B : Backed sp cfg m) (hcache : m.heap.blockCache = [])
    {dev : SharedDevice} {info : GpuMemoryCreateInfo} {ans : AllocAnswers}
    (hfd : info.dmabufFd = none) (hzero : (describe dev info).size = 0)
    (halign : (describe dev info).askedAlign info.alignment + defaultGpuPageSize ≤ 2 ^ 64)
    {r : Status × Nat × Memory} (hrun : m.createOrTrim cfg dev info ans = .ok r) :
    Spares m r.2.2 := by
  rw [createOrTrim] at hrun
  obtain ⟨⟨code, addr, c⟩, hcreate, hrun⟩ := ok_of_bind hrun
  obtain ⟨Sp, hfailed⟩ := B.createAllocation_spares hfd hzero halign hcreate
  by_cases hcode : code = .success
  · simp only [if_pos hcode] at hrun
    cases hrun
    exact Sp
  · obtain ⟨B₁, hobject⟩ := hfailed hcode
    simp only [if_neg hcode] at hrun
    obtain ⟨m₁, htrim, hrun⟩ := ok_of_bind hrun
    obtain ⟨⟨code', addr', c'⟩, hcreate', hrun⟩ := ok_of_bind hrun
    have hm₁ : m₁ = { m with core := c, heap := { m.heap with blockCache := [], cacheSize := 0 } } := by
      rw [trim, SimpleHeap.trim, hcache, List.foldl_nil] at htrim
      cases htrim
      rfl
    subst hm₁
    obtain ⟨Sp', _⟩ := B₁.createAllocation_spares hfd hzero halign hcreate'
    have hspares : Spares m { m with
        core := c', heap := { m.heap with blockCache := [], cacheSize := 0 } } := by
      refine ⟨fun _ _ => rfl, fun q hq => ?_, Sp'.reserved.trans Sp.reserved⟩
      have hq' : c.object q ≠ none := by rwa [hobject]
      exact (Sp'.object q hq').trans (congrFun hobject q)
    simp only at hrun
    split at hrun
    next =>
      cases hrun
      exact hspares
    next =>
      cases hrun
      exact hspares

/-- `hsaKmtAllocMemoryAlign` of no bytes. -/
theorem Backed.allocMemoryAlign_spares (B : Backed sp cfg m) (hpaged : Paged m.heap)
    {args : AllocArgs} {ans : AllocAnswers} (hsize : args.sizeInBytes = 0)
    (hpage : 0 < cfg.pageSize)
    (halign : ∀ r ∈ (allocInfo cfg args ans.ram).toOption,
      m.attempted cfg ans r.2.1 r.2.2 = true →
        (describe r.1 r.2.1).askedAlign r.2.1.alignment + defaultGpuPageSize ≤ 2 ^ 64)
    {r : Status × Nat × Memory} (hrun : m.allocMemoryAlign cfg args ans = .ok r) :
    Spares m r.2.2 := by
  rw [allocMemoryAlign] at hrun
  split at hrun
  next =>
    cases hrun
    exact Spares.refl m
  next =>
    cases hinfo : allocInfo cfg args ans.ram with
    | error status =>
        rw [hinfo] at hrun
        cases hrun
        exact Spares.refl m
    | ok i =>
        obtain ⟨dev, info, vmm⟩ := i
        obtain ⟨hfd, _⟩ := allocInfo_ok hinfo
        have hbytes := (allocInfo_size hinfo).trans hsize
        have halign := halign (dev, info, vmm) (by rw [hinfo]; rfl)
        have hzero : (describe dev info).size = 0 := by
          show adjustSize dev info.domain info.size = 0
          rw [hbytes]
          exact GpuMemory.adjustSize_zero dev info.domain
        rw [hinfo] at hrun
        simp only at hrun
        split at hrun
        next =>
          obtain ⟨⟨p, m₁⟩, hsub, hrun⟩ := ok_of_bind hrun
          have hserved := hsub
          have hreal : realSize cfg 0 = 0 := by
            rw [realSize, if_neg (by decide), alignUp, alignDown, Nat.div_eq_of_lt, Nat.zero_mul,
              Nat.zero_mod]
            exact Nat.lt_of_le_of_lt (Nat.mod_le _ _) (by omega)
          rw [subAlloc, hbytes, hreal, if_pos (by decide)] at hsub
          split at hsub
          next => cases hsub
          next => cases hsub
          next p' h' c' halloc =>
            cases hsub
            simp only at hrun
            rcases B.alloc_zero hpaged halloc with ⟨rfl, rfl, hcache, K, hreserved⟩ | ⟨hp, Sp⟩
            · simp only [ne_eq, not_true_eq_false, if_false] at hrun
              have halign := halign (by simp [attempted, hserved, Except.toOption])
              have Q := B.keepCore K
              have Sp := Q.backed.createOrTrim_spares hcache hfd hzero halign hrun
              refine ⟨fun q hq => Sp.live q ((Q.given q).mpr hq), fun q hq => ?_,
                Sp.reserved.trans hreserved⟩
              have hq' : c'.object q ≠ none := by rwa [K.object]
              exact (Sp.object q hq').trans (congrFun K.object q)
            · simp only [ne_eq, hp, not_false_eq_true, if_true] at hrun
              cases hrun
              exact Sp
        next hsub =>
          obtain ⟨⟨code, addr, c⟩, hcreate, hrun⟩ := ok_of_bind hrun
          have hno : subAllocates cfg info vmm = false :=
            Bool.eq_false_iff.mpr fun h => hsub (by simpa [subAllocates, and_assoc] using h)
          have halign := halign (by simp [attempted, hno])
          have Sp := (B.createAllocation_spares hfd hzero halign hcreate).1
          simp only at hrun
          split at hrun
          next =>
            cases hrun
            exact Sp
          next =>
            cases hrun
            exact Sp

end Memory

end RocDxg
