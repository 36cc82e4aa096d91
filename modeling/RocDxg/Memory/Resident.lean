import RocDxg.Memory.Ownership

/-!
# Objects by address

`Core.object` is what the allocation map says about an address: the object that is
entered there.  Where no memory is shared or mapped for the user, each object is entered
once, under its own address, and an attempt to create or to release an object changes
`Core.object` at that address alone.

The blocks of the sub-allocator are such objects.  `Core.newBlock` and `Core.freeBlocks`
say what the block allocator does to them.
-/

namespace RocDxg

open Lib (OrdMap)
open GpuMemory (Creates Shape describe)

namespace Core

/-- The object that is entered at an address, with its handle. -/
def object (c : Core) (a : Nat) : Option (Nat × GpuMemory) :=
  (c.allocationMap.find? a).bind fun e => (c.objects.find? e.handle).map fun mem => (e.handle, mem)

/-- Every object is entered once, and none is imported. -/
structure Settled (sp : AddressSpace) (c : Core) : Prop where
  consistent : c.Consistent sp
  home : ∀ {a h mem}, c.object a = some (h, mem) → mem.home = a
  unshared : ∀ {a h mem}, c.object a = some (h, mem) → mem.flags.isImportedVramIpc = false

/-- The objects are those of `o`, and the library is as open as before. -/
structure Becomes (sp : AddressSpace) (c : Core) (o : Nat → Option (Nat × GpuMemory)) (c' : Core) :
    Prop where
  settled : c'.Settled sp
  object : c'.object = o
  isOpen : c'.isOpen = c.isOpen

variable {sp : AddressSpace} {c c' : Core} {a h : Nat} {mem : GpuMemory}

theorem object_eq_some : c.object a = some (h, mem) ↔
    ∃ e, c.allocationMap.find? a = some e ∧ e.handle = h ∧ c.objects.find? h = some mem := by
  rw [object, Option.bind_eq_some_iff]
  constructor
  · rintro ⟨e, he, hm⟩
    obtain ⟨mem', hm', heq⟩ := Option.map_eq_some_iff.mp hm
    cases heq
    exact ⟨e, he, rfl, hm'⟩
  · rintro ⟨e, he, rfl, hm⟩
    exact ⟨e, he, by rw [hm]; rfl⟩

namespace Settled

theorem object_eq_none (C : Settled sp c) : c.object a = none ↔ c.allocationMap.find? a = none := by
  cases he : c.allocationMap.find? a with
  | none => simp [object, he]
  | some e =>
      obtain ⟨mem, hm⟩ := C.consistent.live he
      simp [object, he, hm]

theorem alone (C : Settled sp c) (a : Nat) : c.Alone a := by
  intro e he a' e' he' hh
  obtain ⟨mem, hm⟩ := C.consistent.live he
  have hhome := C.home (object_eq_some.mpr ⟨e, he, rfl, hm⟩)
  have hhome' := C.home (object_eq_some.mpr ⟨e', he', rfl, by rw [hh]; exact hm⟩)
  rw [← hhome, ← hhome']

theorem reserved (C : Settled sp c) (ho : c.object a = some (h, mem)) :
    c.heaps.reserved a = some mem.size := by
  obtain ⟨e, _, _, hm⟩ := object_eq_some.mp ho
  rw [← C.home ho]
  exact C.consistent.reserved hm

theorem bounds (C : Settled sp c) (ho : c.object a = some (h, mem)) :
    0 < a ∧ 0 < mem.size ∧ a + mem.size < 2 ^ 63 :=
  C.consistent.sound.reserved_bounds (C.reserved ho)

/-- Two objects have no address in common. -/
theorem apart (C : Settled sp c) {a' h' : Nat} {mem' : GpuMemory}
    (ho : c.object a = some (h, mem)) (ho' : c.object a' = some (h', mem')) (hne : a ≠ a') :
    a + mem.size ≤ a' ∨ a' + mem'.size ≤ a :=
  C.consistent.sound.reserved_apart (C.reserved ho) (C.reserved ho') hne

/-! ## Creating and releasing an object -/

theorem keep (C : Settled sp c) : Becomes sp c c.object c := ⟨C, rfl, rfl⟩

/-- The managers have changed, and no address with them. -/
theorem of_heaps (C : Settled sp c) {hs : Heaps} (S : hs.Sound sp)
    (hreserved : hs.reserved = c.heaps.reserved) :
    Becomes sp c c.object { c with heaps := hs } :=
  ⟨⟨C.consistent.of_heaps S hreserved, C.home, C.unshared⟩, rfl, rfl⟩

/-- A new object is entered under its address. -/
theorem enter (C : Settled sp c) {hs : Heaps} (hcreates : Creates sp c.heaps mem hs)
    (hshared : mem.flags.isImportedVramIpc = false) {e : Allocation} (he : e.handle = c.nextHandle) :
    c.object mem.home = none ∧
      Becomes sp c (Function.update c.object mem.home (some (c.nextHandle, mem)))
        ((c.withObject hs mem).setEntry mem.home e) := by
  have hfresh : c.object mem.home = none := by
    cases ho : c.object mem.home with
    | none => rfl
    | some r =>
        obtain ⟨h', mem'⟩ := r
        have hreserved := C.reserved ho
        rw [hcreates.fresh] at hreserved
        cases hreserved
  have hobject : ((c.withObject hs mem).setEntry mem.home e).object =
      Function.update c.object mem.home (some (c.nextHandle, mem)) := by
    funext a
    show ((c.allocationMap.insert mem.home e).find? a).bind (fun e' =>
      ((c.objects.insert c.nextHandle mem).find? e'.handle).map fun mem' => (e'.handle, mem')) = _
    rw [OrdMap.find?_insert]
    by_cases heq : a = mem.home
    · rw [if_pos heq, heq, Function.update_self, Option.bind_some, he, OrdMap.find?_insert,
        if_pos rfl, Option.map_some]
    · rw [if_neg heq, Function.update_of_ne heq, object]
      cases he' : c.allocationMap.find? a with
      | none => rfl
      | some e' =>
          obtain ⟨mem', hm'⟩ := C.consistent.live he'
          rw [Option.bind_some, Option.bind_some, OrdMap.find?_insert,
            if_neg (C.consistent.handle_ne hm')]
  refine ⟨hfresh, ⟨C.consistent.enter hcreates he, ?_, ?_⟩, hobject, rfl⟩
  · intro a' h' mem' ho
    rw [hobject, Function.update_apply] at ho
    split at ho
    next heq =>
      cases ho
      exact heq.symm
    next => exact C.home ho
  · intro a' h' mem' ho
    rw [hobject, Function.update_apply] at ho
    split at ho
    next =>
      cases ho
      exact hshared
    next => exact C.unshared ho

/-- An attempt of an allocation: no change, or a new object under the address returned. -/
theorem createAllocation_cases (C : Settled sp c) {dev : SharedDevice}
    {info : GpuMemoryCreateInfo} {ans : Answers}
    (hfits : (describe dev info).Fits c.heaps info.vaHint info.alignment)
    (hadd : (describe dev info).Addable info.alignment) (hfd : info.dmabufFd = none)
    {code : ErrorCode} {addr : Nat}
    (hcreate : c.createAllocation dev info ans = .ok (code, addr, c')) :
    (code ≠ .success ∧ Becomes sp c c.object c') ∨
      (code = .success ∧ ∃ mem, Shape (describe dev info) (!info.flags.physicalOnly) mem ∧
        c.object addr = none ∧
        Becomes sp c (Function.update c.object addr (some (c.nextHandle, mem))) c') := by
  have hfits' : CreateFits c.parentPid dev c.heaps info ans := by
    rw [CreateFits, hfd, if_neg (by simp)]
    exact hfits
  rcases createAllocation_spec C.consistent hfits' hadd hfd hcreate with
    ⟨hcode, _, hs, S, hreserved, rfl⟩ | ⟨mem, hs, hcode, haddr, hcreates, hshape, rfl⟩
  · exact Or.inl ⟨hcode, C.of_heaps S hreserved⟩
  · refine Or.inr ⟨hcode, mem, hshape, ?_⟩
    rw [haddr]
    refine C.enter hcreates ?_ rfl
    rw [hshape.flags]
    rfl

/-- An address without an entry cannot be released. -/
theorem freeEntry_none (C : Settled sp c) (ho : c.object a = none) :
    c.freeEntry a = .ok (.error, c) := by
  rw [freeEntry, C.object_eq_none.mp ho]

/-- Nor can an object that a queue refers to. -/
theorem freeEntry_referenced (ho : c.object a = some (h, mem))
    (hqueue : mem.flags.isQueueReferenced = true) : c.freeEntry a = .ok (.error, c) := by
  obtain ⟨e, he, rfl, hm⟩ := object_eq_some.mp ho
  simp only [freeEntry, he, hm, hqueue, if_true]

/-- Every other object is deleted with its entry. -/
theorem freeEntry_object (C : Settled sp c) (ho : c.object a = some (h, mem))
    (hqueue : mem.flags.isQueueReferenced = false) :
    ∃ c', c.freeEntry a = .ok (.success, c') ∧
      Becomes sp c (Function.update c.object a none) c' := by
  obtain ⟨e, he, rfl, hm⟩ := object_eq_some.mp ho
  have C' := C.consistent.delete (C.alone a) he hm mem.flags
  have hobject : ((c.eraseEntry a).deleteObject e.handle mem).object =
      Function.update c.object a none := by
    funext a'
    show ((c.allocationMap.erase a).find? a').bind (fun e' =>
      ((c.objects.erase e.handle).find? e'.handle).map fun mem' => (e'.handle, mem')) = _
    rw [OrdMap.find?_erase]
    by_cases heq : a' = a
    · rw [if_pos heq, heq, Function.update_self, Option.bind_none]
    · rw [if_neg heq, Function.update_of_ne heq, object]
      cases he' : c.allocationMap.find? a' with
      | none => rfl
      | some e' =>
          rw [Option.bind_some, Option.bind_some, OrdMap.find?_erase, if_neg]
          exact fun hh => heq (C.alone a e he a' e' he' hh)
  have hle : ∀ {a' r}, ((c.eraseEntry a).deleteObject e.handle mem).object a' = some r →
      c.object a' = some r := by
    intro a' r ho'
    rw [hobject, Function.update_apply] at ho'
    split at ho'
    next => cases ho'
    next => exact ho'
  refine ⟨(c.eraseEntry a).deleteObject e.handle mem, ?_, ⟨C', fun ho' => C.home (hle ho'),
    fun ho' => C.unshared (hle ho')⟩, hobject, rfl⟩
  simp only [freeEntry, he, hm, hqueue, C.unshared ho, Bool.false_eq_true, if_false]

end Settled

/-! ## Blocks -/

/-- What an object must be to serve as a block: large enough, and created by
`BlockAllocator::alloc`, that is on the first node, coarse grained and cached. -/
structure IsBlock (cfg : Config) (mem : GpuMemory) : Prop where
  size : subAllocatorBlockSize ≤ mem.size
  device : ∃ dev, cfg.getWddmdev 1 = some dev ∧ mem.adapterLuid = dev.luid
  memFlags : mem.memFlags = {}
  unreferenced : mem.flags.isQueueReferenced = false

/-- What `BlockAllocator::alloc` asks for. -/
theorem allocInfo_blockArgs {cfg : Config} {size : Nat} {ram : Bool} {dev : SharedDevice}
    {info : GpuMemoryCreateInfo} {vmm : Bool}
    (hinfo : allocInfo cfg (blockArgs size) ram = .ok (dev, info, vmm)) :
    cfg.getWddmdev 1 = some dev ∧ info.size = size ∧ info.alignment = 0 ∧ info.vaHint = 0 ∧
      info.dmabufFd = none ∧ info.memFlags = {} ∧
      (describe dev info).flags.isQueueReferenced = false := by
  rw [allocInfo] at hinfo
  split at hinfo
  next => cases hinfo
  next =>
    cases hdev : cfg.getWddmdev 1 with
    | none => simp [blockArgs, hdev] at hinfo
    | some dev' =>
        simp only [blockArgs, hdev, Nat.one_ne_zero, if_false] at hinfo
        split at hinfo
        next => cases hinfo
        next =>
          cases hinfo
          exact ⟨rfl, rfl, rfl, rfl, rfl, rfl, rfl⟩

variable {cfg : Config} {bytes : Nat}

/-- A request up to the block size is rounded to it. -/
theorem alignUp_blockSize (hpos : 0 < bytes) (hle : bytes ≤ subAllocatorBlockSize) :
    alignUp 64 bytes subAllocatorBlockSize = subAllocatorBlockSize := by
  have hblock : subAllocatorBlockSize = 2 ^ 27 := rfl
  rw [alignUp_of_lt (by omega), hblock]
  omega

/-- The block allocator either reports that it has no block, or enters one. -/
theorem Settled.newBlock (C : Settled sp c) (cfg : Config) (ram : Bool) (ans : Answers)
    (hpos : 0 < bytes) (hle : bytes ≤ subAllocatorBlockSize) :
    (∃ f, (blockAllocator cfg ram ans).alloc (.ok c) bytes = (none, .error f)) ∨
      (∃ c', (blockAllocator cfg ram ans).alloc (.ok c) bytes = (none, .ok c') ∧
        Becomes sp c c.object c') ∨
      ∃ base mem c', (blockAllocator cfg ram ans).alloc (.ok c) bytes =
          (some (base, subAllocatorBlockSize), .ok c') ∧ IsBlock cfg mem ∧ c.object base = none ∧
        Becomes sp c (Function.update c.object base (some (c.nextHandle, mem))) c' := by
  simp only [blockAllocator, alignUp_blockSize hpos hle, Except.bind, allocDirect]
  cases hopen : c.isOpen with
  | false => exact Or.inr (Or.inl ⟨c, rfl, C.keep⟩)
  | true =>
      simp only [Bool.true_eq_false, if_false]
      cases hinfo : allocInfo cfg (blockArgs subAllocatorBlockSize) ram with
      | error status =>
          refine Or.inr (Or.inl ⟨c, ?_, C.keep⟩)
          have hne : status ≠ .success := allocInfo_ne_success hinfo
          simp only [if_neg hne]
      | ok r =>
          obtain ⟨dev, info, vmm⟩ := r
          obtain ⟨hdev, hsize, halign, hhint, hfd, hflags, hqueue⟩ := allocInfo_blockArgs hinfo
          simp only [bind, Except.bind]
          cases hcreate : c.createAllocation dev info ans with
          | error f => exact Or.inl ⟨f, rfl⟩
          | ok r =>
              obtain ⟨code, addr, c'⟩ := r
              have hblock : subAllocatorBlockSize = 2 ^ 27 := rfl
              have hdescribe : subAllocatorBlockSize ≤ (describe dev info).size := by
                show subAllocatorBlockSize ≤ GpuMemory.adjustSize dev info.domain info.size
                rw [hsize]
                exact GpuMemory.le_adjustSize dev info.domain (by omega)
              have hfits : (describe dev info).Fits c.heaps info.vaHint info.alignment := by
                refine ⟨by omega, Or.inr ?_⟩
                rw [hhint]
                exact VaMgr.takesAtBase_zero _ _ _
              have hsmall : info.alignment ≤ 2 ^ 32 := by
                rw [halign]
                exact Nat.zero_le _
              have hadd : (describe dev info).Addable info.alignment :=
                GpuMemory.addable_of_le hsmall hsmall
              rcases C.createAllocation_cases hfits hadd hfd hcreate with
                ⟨hcode, hkeep⟩ | ⟨hcode, mem, hshape, hfresh, hnew⟩
              · refine Or.inr (Or.inl ⟨c', ?_, hkeep⟩)
                simp [hcode]
              · refine Or.inr (Or.inr ⟨addr, mem, c', ?_, ?_, hfresh, hnew⟩)
                · simp [hcode]
                · refine ⟨by rw [hshape.size]; exact hdescribe, ⟨dev, hdev, hshape.adapterLuid⟩, ?_, ?_⟩
                  · rw [hshape.memFlags]
                    exact hflags
                  · rw [hshape.flags]
                    exact hqueue

/-- The objects of a list of blocks are deleted. -/
theorem Settled.freeBlocks (C : Settled sp c) (ram : Bool) (ans : Answers)
    (hopen : c.isOpen = true) (l : List HeapBlock)
    (hnodup : (l.map HeapBlock.base).Nodup)
    (hblock : ∀ b ∈ l, ∃ h mem, c.object b.base = some (h, mem) ∧ IsBlock cfg mem) :
    ∃ c', l.foldl (fun s b => (blockAllocator cfg ram ans).free s b.base b.length) (.ok c) = .ok c' ∧
      Becomes sp c (fun a => if a ∈ l.map HeapBlock.base then none else c.object a) c' := by
  induction l generalizing c with
  | nil =>
      refine ⟨c, rfl, C, ?_, rfl⟩
      funext a
      rw [if_neg (by simp)]
  | cons b l ih =>
      obtain ⟨h, mem, ho, hb⟩ := hblock b (List.mem_cons_self ..)
      rw [List.map_cons, List.nodup_cons] at hnodup
      have hbase := (C.bounds ho).1
      obtain ⟨c₁, hfree, D⟩ := C.freeEntry_object ho hb.unreferenced
      have hstep : (blockAllocator cfg ram ans).free (.ok c) b.base b.length = .ok c₁ := by
        simp only [blockAllocator, Except.bind, freeDirect, hopen, Bool.true_eq_false, if_false,
          if_neg (Nat.ne_of_gt hbase), hfree]
        rfl
      obtain ⟨c', hfold, D'⟩ := ih D.settled (D.isOpen.trans hopen) hnodup.2 (by
        intro b' hb'
        have hne : b'.base ≠ b.base := by
          intro heq
          exact hnodup.1 (heq ▸ List.mem_map_of_mem hb')
        rw [D.object, Function.update_of_ne hne]
        exact hblock b' (List.mem_cons_of_mem _ hb'))
      refine ⟨c', ?_, D'.settled, ?_, D'.isOpen.trans D.isOpen⟩
      · rw [List.foldl_cons, hstep]
        exact hfold
      · rw [D'.object, D.object]
        funext a
        rw [List.map_cons]
        by_cases heq : a = b.base
        · rw [heq, Function.update_self, if_pos (List.mem_cons_self ..), ite_self]
        · rw [Function.update_of_ne heq]
          simp only [List.mem_cons, heq, false_or]

end Core

end RocDxg
