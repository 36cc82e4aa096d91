import RocDxg.Memory.Guarantees
import RocDxg.Memory.Pointers

/-!
# What a request leaves of the memory

With user pointers in the map and no block in the sub-allocator, a request has one of two
effects.  Either no object was created and only the managers have changed (`Memory.Waits`), or
one was, and is entered under its own address (`Memory.Enters`) or under two
(`Memory.EntersUser`).  This holds of all attempts of an allocation taken together.
-/

namespace RocDxg

open Lib (OrdMap)
open GpuMemory (Creates Shape describe)

namespace Memory

variable {sp : AddressSpace} {cfg : Config} {m m₁ m' : Memory}

/-! ## What a request does to the memory -/

/-- The managers have changed, and no address with them. -/
def Waits (sp : AddressSpace) (m m' : Memory) : Prop :=
  ∃ hs, hs.Sound sp ∧ hs.reserved = m.core.heaps.reserved ∧
    m' = { m with core := { m.core with heaps := hs } }

/-- An object was created as it was asked for, and entered under its address. -/
def Enters (sp : AddressSpace) (m : Memory) (info : GpuMemoryCreateInfo) (p : Nat)
    (m' : Memory) : Prop :=
  ∃ dev mem hs, p = mem.home ∧ Creates sp m.core.heaps mem hs ∧
    Shape (describe dev info) (!info.flags.physicalOnly) mem ∧
    m' = { m with core :=
      (m.core.withObject hs mem).setEntry mem.home ⟨m.core.nextHandle, p, p, info.size, false⟩ }

theorem Inv.waits (I : Inv sp m) : Waits sp m m :=
  ⟨m.core.heaps, I.consistent.sound, rfl, rfl⟩

theorem Waits.trans (h : Waits sp m m₁) (h' : Waits sp m₁ m') : Waits sp m m' := by
  obtain ⟨hs, _, hreserved, rfl⟩ := h
  obtain ⟨hs', S, hreserved', rfl⟩ := h'
  exact ⟨hs', S, hreserved'.trans hreserved, rfl⟩

theorem Waits.inv (h : Waits sp m m') (I : Inv sp m) : Inv sp m' := by
  obtain ⟨hs, S, hreserved, rfl⟩ := h
  exact I.of_heaps S hreserved

theorem Waits.enters {info : GpuMemoryCreateInfo} {p : Nat} (h : Waits sp m m₁)
    (h' : Enters sp m₁ info p m') : Enters sp m info p m' := by
  obtain ⟨hs, _, hreserved, rfl⟩ := h
  obtain ⟨dev, mem, hs', hp, hcreates, hshape, rfl⟩ := h'
  refine ⟨dev, mem, hs', hp, ⟨hcreates.sound, hcreates.housed, ?_, ?_⟩, hshape, rfl⟩
  · exact hreserved ▸ hcreates.fresh
  · exact hreserved ▸ hcreates.reserved

/-- One attempt to create an object. -/
theorem Inv.createAllocation_cases (I : Inv sp m) {dev : SharedDevice}
    {info : GpuMemoryCreateInfo} {a : Answers} (hfd : info.dmabufFd = none)
    (halign : info.alignment ≤ 2 ^ 32)
    (hfits : (describe dev info).Fits m.core.heaps info.vaHint info.alignment) {code : ErrorCode}
    {p : Nat} {c : Core} (hcreate : m.core.createAllocation dev info a = .ok (code, p, c)) :
    (code ≠ .success ∧ Waits sp m { m with core := c }) ∨
      (code = .success ∧ Enters sp m info p { m with core := c }) := by
  have hfits' : CreateFits m.core.parentPid dev m.core.heaps info a := by
    rw [CreateFits, hfd, if_neg (by simp)]
    exact hfits
  rcases Core.createAllocation_spec I.consistent hfits'
    (GpuMemory.addable_of_le halign halign) hfd hcreate with
    ⟨hcode, _, hs, S, hreserved, rfl⟩ | ⟨mem, hs, hcode, hp, hcreates, hshape, rfl⟩
  · exact .inl ⟨hcode, hs, S, hreserved, rfl⟩
  · exact .inr ⟨hcode, dev, mem, hs, hp, hcreates, hshape, rfl⟩

/-- Without blocks there is nothing to trim. -/
theorem Inv.trim_eq (I : Inv sp m) : m.trim cfg = .ok m := by
  cases m with
  | mk core heap =>
      obtain rfl : heap = {} := I.heap
      rfl

theorem Inv.createOrTrim_cases (I : Inv sp m) {dev : SharedDevice} {info : GpuMemoryCreateInfo}
    {ans : AllocAnswers} (hfd : info.dmabufFd = none) (halign : info.alignment ≤ 2 ^ 32)
    (hfits : ∀ hs ∈ m.attempts cfg dev info ans,
      (describe dev info).Fits hs info.vaHint info.alignment) {status : Status} {p : Nat}
    (hrun : m.createOrTrim cfg dev info ans = .ok (status, p, m')) :
    (status ≠ .success ∧ Waits sp m m') ∨ (status = .success ∧ Enters sp m info p m') := by
  rw [createOrTrim] at hrun
  obtain ⟨⟨code, q, c⟩, hcreate, hrun⟩ := ok_of_bind hrun
  rcases I.createAllocation_cases hfd halign (hfits _ List.mem_cons_self) hcreate with
    ⟨hcode, hwaits⟩ | ⟨hcode, henters⟩
  · simp only [if_neg hcode] at hrun
    have I₁ := hwaits.inv I
    obtain ⟨m₁, htrim, hrun⟩ := ok_of_bind hrun
    have hsame : Memory.trim cfg { m with core := c } = .ok { m with core := c } := I₁.trim_eq
    rw [hsame] at htrim
    cases htrim
    obtain ⟨⟨code₁, q₁, c₁⟩, hcreate₁, hrun⟩ := ok_of_bind hrun
    have hfits₁ := hfits { m with core := c }.core.heaps (by simp [attempts, hcreate, hcode, hsame])
    rcases I₁.createAllocation_cases hfd halign hfits₁ hcreate₁ with
      ⟨hcode₁, hwaits₁⟩ | ⟨hcode₁, henters₁⟩
    · simp only [if_neg hcode₁] at hrun
      cases hrun
      exact .inl ⟨(fun h => by cases h), hwaits.trans hwaits₁⟩
    · simp only [if_pos hcode₁] at hrun
      cases hrun
      exact .inr ⟨rfl, hwaits.enters henters₁⟩
  · simp only [if_pos hcode] at hrun
    cases hrun
    exact .inr ⟨rfl, henters⟩

/-- The address of an object is not zero. -/
theorem home_ne_zero {mem : GpuMemory} (hhoused : mem.Housed sp) : mem.home ≠ 0 := by
  cases hhoused with
  | address hva => rw [GpuMemory.home, if_pos hva]; exact hva
  | handle hva _ hmem =>
      have hpos := (sp.managed .handleAperture).start_pos
      have hle := hmem.1
      rw [GpuMemory.home, if_neg (not_not_intro hva)]
      omega

/-- The block allocator either reports that it has no block, or has created one. -/
theorem Inv.newBlock_cases (I : Inv sp m) {bytes : Nat} {ram : Bool} {a : Answers}
    (hpos : 0 < bytes) (hle : bytes ≤ subAllocatorBlockSize) {r : Option (Nat × Nat)} {c : Core}
    (halloc : (blockAllocator cfg ram a).alloc (.ok m.core) bytes = (r, .ok c)) :
    (r = none ∧ Waits sp m { m with core := c }) ∨ ∃ base n, r = some (base, n) ∧ base ≠ 0 := by
  simp only [blockAllocator, Core.alignUp_blockSize hpos hle, Except.bind, Core.allocDirect]
    at halloc
  split at halloc
  next f hdirect => cases halloc
  next status base c' hdirect =>
    cases halloc
    split at hdirect
    next =>
      cases hdirect
      exact .inl ⟨rfl, I.waits⟩
    next =>
      cases hinfo : allocInfo cfg (blockArgs subAllocatorBlockSize) ram with
      | error status' =>
          have hne : status' ≠ .success := allocInfo_ne_success hinfo
          rw [hinfo] at hdirect
          cases hdirect
          exact .inl ⟨if_neg hne, I.waits⟩
      | ok q =>
          obtain ⟨dev, info, vmm⟩ := q
          obtain ⟨_, hsize, halign, hhint, hfd, _, _⟩ := Core.allocInfo_blockArgs hinfo
          have hfits : (describe dev info).Fits m.core.heaps info.vaHint info.alignment := by
            have hblock : subAllocatorBlockSize = 2 ^ 27 := rfl
            have hadjusted := GpuMemory.le_adjustSize dev info.domain
              (show info.size < 2 ^ 63 by omega)
            refine ⟨?_, .inr ?_⟩
            · show 0 < GpuMemory.adjustSize dev info.domain info.size
              omega
            · rw [hhint]
              exact VaMgr.takesAtBase_zero _ _ _
          rw [hinfo] at hdirect
          obtain ⟨⟨code, q, c₁⟩, hcreate, hdirect⟩ := ok_of_bind hdirect
          rcases I.createAllocation_cases hfd (by rw [halign]; exact Nat.zero_le _) hfits hcreate
            with ⟨hcode, hwaits⟩ | ⟨hcode, henters⟩
          · simp only [if_neg hcode] at hdirect
            cases hdirect
            exact .inl ⟨if_neg (fun h => by cases h), hwaits⟩
          · simp only [if_pos hcode] at hdirect
            cases hdirect
            obtain ⟨_, mem, hs, rfl, hcreates, _⟩ := henters
            exact .inr ⟨_, _, if_pos rfl, home_ne_zero hcreates.housed⟩

/-- A request that the sub-allocator does not serve. -/
theorem Inv.subAlloc_waits (I : Inv sp m) {size : Nat} {ans : AllocAnswers}
    (hpos : realSize cfg size < subAllocatorBlockSize → 0 < realSize cfg size)
    (hrun : m.subAlloc cfg size ans = .ok (0, m₁)) : Waits sp m m₁ := by
  rw [subAlloc] at hrun
  split at hrun
  next hlt =>
    have hsearch : m.heap.allocFragment (realSize cfg size) = some none := by
      rw [I.heap, SimpleHeap.allocFragment, SimpleHeap.allocLoop]
      rfl
    have hcache : m.heap.blockCache.getLast? = none := by rw [I.heap]; rfl
    simp only [SimpleHeap.alloc, hsearch, hcache, SimpleHeap.alloc.allocNew] at hrun
    split at hrun
    next => cases hrun
    next => cases hrun
    next addr heap core halloc =>
      cases hrun
      split at halloc
      next s hblock =>
        cases halloc
        rcases I.newBlock_cases (hpos hlt) (Nat.le_of_lt hlt) hblock with
          ⟨_, hwaits⟩ | ⟨base, n, hr, _⟩
        · exact hwaits
        · cases hr
      next base n s hblock =>
        obtain ⟨rfl, rfl, _⟩ := SimpleHeap.allocBlock_eq (Nat.le_of_lt hlt) halloc
        rcases I.newBlock_cases (hpos hlt) (Nat.le_of_lt hlt) hblock with
          ⟨hr, _⟩ | ⟨base, n, hr, hne⟩
        · cases hr
        · cases hr
          exact absurd rfl hne
  next =>
    cases hrun
    exact I.waits

/-- What a request for memory does that the sub-allocator does not serve. -/
theorem Inv.allocMemory_cases (I : Inv sp m) (hopen : m.core.isOpen = true)
    {node size addr : Nat} {flags : HsaMemFlags} {ans : AllocAnswers}
    (hreg : AllocRegular cfg m ⟨node, size, 0, flags, addr⟩ ans)
    (hown : Pointers.OwnObject cfg m ⟨node, size, 0, flags, addr⟩ ans) {status : Status} {p : Nat}
    (hrun : m.allocMemory cfg node size flags addr ans = .ok (status, p, m')) :
    (status ≠ .success ∧ Waits sp m m') ∨ (status = .success ∧
      ∃ info, info.size = size ∧ info.flags.virtualAlloc = false ∧ Enters sp m info p m') := by
  rw [allocMemory, allocMemoryAlign, if_neg (by rw [hopen]; exact Bool.noConfusion)] at hrun
  cases hinfo : allocInfo cfg ⟨node, size, 0, flags, addr⟩ ans.ram with
  | error status' =>
      have hne : status' ≠ .success := allocInfo_ne_success hinfo
      rw [hinfo] at hrun
      cases hrun
      exact .inl ⟨hne, I.waits⟩
  | ok q =>
      obtain ⟨dev, info, vmm⟩ := q
      obtain ⟨hfd, halign⟩ := allocInfo_ok hinfo
      have hsize : info.size = size := allocInfo_size hinfo
      have hreg := hreg (dev, info, vmm) (by rw [hinfo]; rfl)
      have hown := hown (dev, info, vmm) (by rw [hinfo]; rfl)
      have halign' : info.alignment ≤ 2 ^ 32 := by rw [halign]; exact Nat.zero_le _
      rw [hinfo] at hrun
      simp only at hrun
      split at hrun
      next hsub =>
        have hsub' : subAllocates cfg info vmm = true := by
          simpa [subAllocates, and_assoc] using hsub
        rw [if_pos hsub', RequestFits, ← halign] at hreg
        obtain ⟨⟨q, m₁⟩, halloc, hrun⟩ := ok_of_bind hrun
        rw [hsize] at halloc
        have hzero : q = 0 := hown.2 hsub' (q, m₁) (by rw [halloc]; rfl)
        subst hzero
        simp only [ne_eq, not_true_eq_false, if_false] at hrun
        have hwaits := I.subAlloc_waits hreg.1 halloc
        have hfits := hreg.2 (0, m₁) (by rw [halloc]; rfl) rfl
        rcases (hwaits.inv I).createOrTrim_cases hfd halign' hfits hrun with
          ⟨hstatus, hwaits₁⟩ | ⟨hstatus, henters⟩
        · exact .inl ⟨hstatus, hwaits.trans hwaits₁⟩
        · exact .inr ⟨hstatus, info, hsize, hown.1, hwaits.enters henters⟩
      next hsub =>
        have hsub' : ¬ subAllocates cfg info vmm = true := by
          simpa [subAllocates, and_assoc] using hsub
        rw [if_neg hsub', ← halign] at hreg
        obtain ⟨⟨code, q, c⟩, hcreate, hrun⟩ := ok_of_bind hrun
        rcases I.createAllocation_cases hfd halign' hreg hcreate with
          ⟨hcode, hwaits⟩ | ⟨hcode, henters⟩
        · simp only [if_neg hcode] at hrun
          cases hrun
          exact .inl ⟨(fun h => by cases h), hwaits⟩
        · simp only [if_pos hcode] at hrun
          cases hrun
          exact .inr ⟨rfl, info, hsize, hown.1, henters⟩

/-- The entry of a new user pointer of whole pages, whose object has its address at `p`. -/
def userEntry (c : Core) (addr size p : Nat) : Allocation := ⟨c.nextHandle, addr, p, size, true⟩

/-- A new object is entered under two addresses. -/
def enterTwice (c : Core) (hs : Heaps) (mem : GpuMemory) (addr : Nat) (e : Allocation) : Core :=
  ((c.withObject hs mem).setEntry addr e).setEntry mem.home e

/-- An object for memory of the user was created, and entered under the address of the user and
under its own. -/
def EntersUser (sp : AddressSpace) (m : Memory) (addr size p : Nat) (m' : Memory) : Prop :=
  ∃ dev mem hs, p = mem.home ∧ Creates sp m.core.heaps mem hs ∧
    Shape (describe dev { domain := .kUserMemory, size := size }) true mem ∧
    m' = { m with core := enterTwice m.core hs mem addr (userEntry m.core addr size p) }

/-- The mapping of whole pages of the user's memory. -/
theorem Inv.mapUserptr_cases (I : Inv sp m) {addr size node : Nat} {a : Answers}
    (hfits : ∀ dev ∈ cfg.getWddmdev node,
      (describe dev { domain := .kUserMemory, size := size }).Fits m.core.heaps 0 0)
    {status : Status} {alternate : Option Nat}
    (hrun : m.mapUserptr cfg addr addr size node a = .ok (status, alternate, m')) :
    (status ≠ .success ∧ Waits sp m m') ∨
      (status = .success ∧ ∃ p, alternate = some p ∧ EntersUser sp m addr size p m') := by
  rw [mapUserptr] at hrun
  cases hdev : cfg.getWddmdev node with
  | none =>
      rw [hdev] at hrun
      cases hrun
      exact .inl ⟨(fun h => by cases h), I.waits⟩
  | some dev =>
      rw [hdev] at hrun
      obtain ⟨⟨va, code, object, c⟩, hcreate, hrun⟩ := ok_of_bind hrun
      have hfits' : CreateFits m.core.parentPid dev m.core.heaps
          { domain := .kUserMemory, size := size } a := hfits dev hdev
      rcases Core.create_spec I.consistent hfits' (createAdds_of_le (Nat.zero_le _)) hcreate with
        ⟨rfl, _, hs, S, hreserved, rfl⟩ | ⟨mem, hs, mem₀, rfl, _, hcreates, hshape, hdesc, rfl⟩
      · cases hrun
        exact .inl ⟨(fun h => by cases h), hs, S, hreserved, rfl⟩
      · cases hrun
        have hhome : mem.home = mem.gpuAddr := hshape.home_eq hcreates.housed
        have hreserved : hs.reserved mem.home = some mem.size := by
          rw [hcreates.reserved, Function.update_self]
        have hlt := (hcreates.sound.reserved_bounds hreserved).2.2
        refine .inr ⟨rfl, mem.home, ?_, dev, mem, hs, rfl, hcreates, ?_, ?_⟩
        · rw [Nat.sub_self, Nat.add_zero, ← hhome, u64_of_lt (by omega)]
        · rw [← hdesc rfl]
          exact hshape
        · rw [enterTwice, userEntry, hhome]

end Memory

end RocDxg
