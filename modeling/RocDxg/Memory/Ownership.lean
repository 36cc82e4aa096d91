import RocDxg.Memory.Allocation
import RocDxg.Memory.Reserved

/-!
# Objects and entries

Every entry of the allocation map refers to an object that has not been deleted, and
every object has an entry under its own address, its `home`.  `Core.Consistent` is this
together with what it needs: the addresses of the objects are the reserved ones.

The moves of the memory functions keep it: an object is created and entered, it is
changed without a change of its address, or it is deleted with its only entry.
-/

namespace RocDxg

open Lib (OrdMap)
open GpuMemory (Creates Housed Shape describe)

/-- A computation that returns has returned in each of its steps. -/
theorem ok_of_bind {ε : Type u} {α β : Type v} {x : Except ε α} {f : α → Except ε β} {b : β}
    (h : x >>= f = .ok b) : ∃ a, x = .ok a ∧ f a = .ok b := by
  cases x with
  | error e => cases h
  | ok a => exact ⟨a, rfl, h⟩

theorem ok_of_map {ε : Type u} {α β : Type v} {x : Except ε α} {f : α → β} {b : β}
    (h : x.map f = .ok b) : ∃ a, x = .ok a ∧ f a = b := by
  cases x with
  | error e => cases h
  | ok a =>
      cases h
      exact ⟨a, rfl, rfl⟩

theorem eq_ok_of_toOption {ε : Type u} {α : Type v} {x : Except ε α} {a : α}
    (h : x.toOption = some a) : x = .ok a := by
  cases x with
  | error e => cases h
  | ok b =>
      cases h
      rfl

namespace Core

/-- Entries and objects belong together. -/
structure Consistent (sp : AddressSpace) (c : Core) : Prop where
  sound : c.heaps.Sound sp
  live : ∀ {a e}, c.allocationMap.find? a = some e → ∃ mem, c.objects.find? e.handle = some mem
  entered : ∀ {h mem}, c.objects.find? h = some mem →
    ∃ e, c.allocationMap.find? mem.home = some e ∧ e.handle = h
  housed : ∀ {h mem}, c.objects.find? h = some mem → mem.Housed sp
  reserved : ∀ {h mem}, c.objects.find? h = some mem → c.heaps.reserved mem.home = some mem.size
  below : ∀ {h mem}, c.objects.find? h = some mem → h < c.nextHandle

variable {sp : AddressSpace} {c c' : Core}

namespace Consistent

theorem handle_ne (C : Consistent sp c) {h : Nat} {mem : GpuMemory}
    (hm : c.objects.find? h = some mem) : h ≠ c.nextHandle :=
  Nat.ne_of_lt (C.below hm)

/-- Objects with one address are one object. -/
theorem handle_unique (C : Consistent sp c) {h h' : Nat} {mem mem' : GpuMemory}
    (hm : c.objects.find? h = some mem) (hm' : c.objects.find? h' = some mem')
    (heq : mem.home = mem'.home) : h = h' := by
  obtain ⟨e, he, hh⟩ := C.entered hm
  obtain ⟨e', he', hh'⟩ := C.entered hm'
  rw [heq, he'] at he
  cases he
  rw [← hh, ← hh']

/-- The managers have changed, and no address with them. -/
theorem of_heaps (C : Consistent sp c) {hs : Heaps} (S : hs.Sound sp)
    (hreserved : hs.reserved = c.heaps.reserved) : Consistent sp { c with heaps := hs } :=
  ⟨S, C.live, C.entered, C.housed, fun hm => by rw [hreserved]; exact C.reserved hm, C.below⟩

/-- A new object is entered under its address. -/
theorem enter (C : Consistent sp c) {mem : GpuMemory} {hs : Heaps}
    (hcreates : Creates sp c.heaps mem hs) {e : Allocation} (he : e.handle = c.nextHandle) :
    Consistent sp ((c.withObject hs mem).setEntry mem.home e) := by
  have hfind : ∀ {h mem'}, (c.objects.insert c.nextHandle mem).find? h = some mem' →
      (h = c.nextHandle ∧ mem' = mem) ∨ (h ≠ c.nextHandle ∧ c.objects.find? h = some mem') := by
    intro h mem' hm
    rw [OrdMap.find?_insert] at hm
    split at hm
    next heq =>
      cases hm
      exact Or.inl ⟨heq, rfl⟩
    next hne => exact Or.inr ⟨hne, hm⟩
  have hother : ∀ {h mem'}, c.objects.find? h = some mem' → mem'.home ≠ mem.home := by
    intro h mem' hm heq
    have hreserved := C.reserved hm
    rw [heq, hcreates.fresh] at hreserved
    cases hreserved
  refine ⟨hcreates.sound, ?_, ?_, ?_, ?_, ?_⟩
  · intro a e' hae
    change (c.allocationMap.insert mem.home e).find? a = some e' at hae
    show ∃ mem', (c.objects.insert c.nextHandle mem).find? e'.handle = some mem'
    rw [OrdMap.find?_insert] at hae
    rw [OrdMap.find?_insert]
    split at hae
    next =>
      cases hae
      exact ⟨mem, if_pos he⟩
    next =>
      obtain ⟨mem', hm⟩ := C.live hae
      exact ⟨mem', by rw [if_neg (C.handle_ne hm)]; exact hm⟩
  · intro h mem' hm
    show ∃ e', (c.allocationMap.insert mem.home e).find? mem'.home = some e' ∧ e'.handle = h
    rw [OrdMap.find?_insert]
    rcases hfind hm with ⟨rfl, rfl⟩ | ⟨_, hold⟩
    · exact ⟨e, if_pos rfl, he⟩
    · rw [if_neg (hother hold)]
      exact C.entered hold
  · intro h mem' hm
    rcases hfind hm with ⟨rfl, rfl⟩ | ⟨_, hold⟩
    · exact hcreates.housed
    · exact C.housed hold
  · intro h mem' hm
    show hs.reserved mem'.home = some mem'.size
    rw [hcreates.reserved]
    rcases hfind hm with ⟨rfl, rfl⟩ | ⟨_, hold⟩
    · exact Function.update_self ..
    · rw [Function.update_of_ne (hother hold)]
      exact C.reserved hold
  · intro h mem' hm
    show h < c.nextHandle + 1
    rcases hfind hm with ⟨rfl, rfl⟩ | ⟨_, hold⟩
    · exact Nat.lt_succ_self _
    · exact Nat.lt_succ_of_lt (C.below hold)

/-- An object has changed in its flags. -/
theorem setFlags (C : Consistent sp c) {h : Nat} {mem : GpuMemory}
    (hm : c.objects.find? h = some mem) (flags : GpuMemoryDescFlags) :
    Consistent sp (c.setObject h { mem with flags := flags }) := by
  have hfind : ∀ {h' mem'}, (c.objects.insert h { mem with flags := flags }).find? h' = some mem' →
      ∃ mem₀, c.objects.find? h' = some mem₀ ∧ ∃ flags', mem' = { mem₀ with flags := flags' } := by
    intro h' mem' hm'
    rw [OrdMap.find?_insert] at hm'
    split at hm'
    next heq =>
      cases hm'
      exact ⟨mem, by rw [heq]; exact hm, flags, rfl⟩
    next => exact ⟨mem', hm', mem'.flags, rfl⟩
  refine ⟨C.sound, ?_, ?_, ?_, ?_, ?_⟩
  · intro a e he
    obtain ⟨mem', hm'⟩ := C.live he
    show ∃ mem'', (c.objects.insert h { mem with flags := flags }).find? e.handle = some mem''
    rw [OrdMap.find?_insert]
    split
    next => exact ⟨_, rfl⟩
    next => exact ⟨mem', hm'⟩
  · intro h' mem' hm'
    obtain ⟨mem₀, hm₀, _, rfl⟩ := hfind hm'
    have hentered := C.entered hm₀
    exact hentered
  · intro h' mem' hm'
    obtain ⟨mem₀, hm₀, _, rfl⟩ := hfind hm'
    cases C.housed hm₀ with
    | address hva hape hfd hmem => exact .address hva hape hfd hmem
    | handle hva hfd hmem => exact .handle hva hfd hmem
  · intro h' mem' hm'
    obtain ⟨mem₀, hm₀, _, rfl⟩ := hfind hm'
    have hreserved := C.reserved hm₀
    exact hreserved
  · intro h' mem' hm'
    obtain ⟨mem₀, hm₀, _⟩ := hfind hm'
    exact C.below hm₀

end Consistent

/-- An entry of an object that is there is assigned, and not in the place where another
object is entered. -/
theorem Consistent.setEntry (C : Consistent sp c) {addr : Nat} {e : Allocation} {mem : GpuMemory}
    (hm : c.objects.find? e.handle = some mem)
    (hhome : ∀ h mem', c.objects.find? h = some mem' → mem'.home = addr → h = e.handle) :
    Consistent sp (c.setEntry addr e) := by
  refine ⟨C.sound, ?_, ?_, C.housed, C.reserved, C.below⟩
  · intro a e' hae
    change (c.allocationMap.insert addr e).find? a = some e' at hae
    rw [OrdMap.find?_insert] at hae
    split at hae
    next =>
      cases hae
      exact ⟨mem, hm⟩
    next => exact C.live hae
  · intro h mem' hm'
    show ∃ e', (c.allocationMap.insert addr e).find? mem'.home = some e' ∧ e'.handle = h
    rw [OrdMap.find?_insert]
    split
    next heq => exact ⟨e, rfl, (hhome h mem' hm' heq).symm⟩
    next => exact C.entered hm'

/-- No other entry refers to the object of the entry at an address. -/
def Alone (c : Core) (addr : Nat) : Prop :=
  ∀ e, c.allocationMap.find? addr = some e →
    ∀ a e', c.allocationMap.find? a = some e' → e'.handle = e.handle → a = addr

instance (c : Core) (addr : Nat) : Decidable (c.Alone addr) :=
  decidable_of_iff (∀ p ∈ c.allocationMap.find? addr, ∀ q ∈ c.allocationMap.entries,
      q.2.handle = p.handle → q.1 = addr) <| by
    constructor
    · intro h e he a e' he' hh
      exact h e he (a, e') (OrdMap.find?_eq_some.mp he') hh
    · intro h e he q hq hh
      exact h e he q.1 q.2 (OrdMap.find?_eq_some.mpr hq) hh

/-- No object has the address for its own. -/
def Vacant (c : Core) (addr : Nat) : Prop :=
  ∀ h mem, c.objects.find? h = some mem → mem.home ≠ addr

instance (c : Core) (addr : Nat) : Decidable (c.Vacant addr) :=
  decidable_of_iff (∀ q ∈ c.objects.entries, q.2.home ≠ addr) <| by
    constructor
    · exact fun h k mem hm => h (k, mem) (OrdMap.find?_eq_some.mp hm)
    · exact fun h q hq => h q.1 q.2 (OrdMap.find?_eq_some.mpr hq)

namespace Consistent

/-- The only entry of an object is the one under its address. -/
theorem home_of_alone (C : Consistent sp c) {addr : Nat} {e : Allocation} {mem : GpuMemory}
    (halone : c.Alone addr) (he : c.allocationMap.find? addr = some e)
    (hm : c.objects.find? e.handle = some mem) : mem.home = addr := by
  obtain ⟨e', he', hh⟩ := C.entered hm
  exact halone e he _ e' he' hh

/-- An object is deleted with its only entry. -/
theorem delete (C : Consistent sp c) {addr : Nat} {e : Allocation} {mem : GpuMemory}
    (halone : c.Alone addr) (he : c.allocationMap.find? addr = some e)
    (hm : c.objects.find? e.handle = some mem) (flags : GpuMemoryDescFlags) :
    Consistent sp ((c.eraseEntry addr).deleteObject e.handle { mem with flags := flags }) := by
  have hhome := C.home_of_alone halone he hm
  obtain ⟨S, hreserved⟩ := GpuMemory.destroy_spec C.sound (C.housed hm)
  have hheaps : ((c.eraseEntry addr).deleteObject e.handle { mem with flags := flags }).heaps =
      mem.destroy c.heaps := mem.destroy_flags flags c.heaps
  have hfind : ∀ {h mem'}, (c.objects.erase e.handle).find? h = some mem' →
      h ≠ e.handle ∧ c.objects.find? h = some mem' := by
    intro h mem' hm'
    rw [OrdMap.find?_erase] at hm'
    split at hm'
    next => cases hm'
    next hne => exact ⟨hne, hm'⟩
  have hother : ∀ {h mem'}, h ≠ e.handle → c.objects.find? h = some mem' → mem'.home ≠ addr := by
    intro h mem' hne hm' heq
    exact hne (C.handle_unique hm' hm (heq.trans hhome.symm))
  refine ⟨by rw [hheaps]; exact S, ?_, ?_, ?_, ?_, ?_⟩
  · intro a e' hae
    change (c.allocationMap.erase addr).find? a = some e' at hae
    rw [OrdMap.find?_erase] at hae
    split at hae
    next => cases hae
    next hne =>
      obtain ⟨mem', hm'⟩ := C.live hae
      refine ⟨mem', ?_⟩
      show (c.objects.erase e.handle).find? e'.handle = some mem'
      rw [OrdMap.find?_erase, if_neg]
      · exact hm'
      · exact fun hh => hne (halone e he a e' hae hh)
  · intro h mem' hm'
    obtain ⟨hne, hold⟩ := hfind hm'
    obtain ⟨e', he', hh⟩ := C.entered hold
    refine ⟨e', ?_, hh⟩
    show (c.allocationMap.erase addr).find? mem'.home = some e'
    rw [OrdMap.find?_erase, if_neg (hother hne hold)]
    exact he'
  · intro h mem' hm'
    exact C.housed (hfind hm').2
  · intro h mem' hm'
    obtain ⟨hne, hold⟩ := hfind hm'
    rw [hheaps, hreserved, hhome, Function.update_of_ne (hother hne hold)]
    exact C.reserved hold
  · intro h mem' hm'
    exact C.below (hfind hm').2

end Consistent

/-- An entry that is not a user pointer is the only one of its object. -/
def Sole (c : Core) : Prop :=
  ∀ a e, c.allocationMap.find? a = some e → e.userptr = false → c.Alone a

/-- An entry is assigned whose object has no other, except perhaps as a user pointer. -/
theorem Sole.setEntry {addr : Nat} {e : Allocation} (hsole : c.Sole)
    (hnew : ∀ a e', a ≠ addr → c.allocationMap.find? a = some e' → e'.handle = e.handle →
      e.userptr = true ∧ e'.userptr = true) : (c.setEntry addr e).Sole := by
  have hfind : ∀ {a e'}, (c.allocationMap.insert addr e).find? a = some e' →
      (a = addr ∧ e' = e) ∨ (a ≠ addr ∧ c.allocationMap.find? a = some e') := by
    intro a e' he
    rw [OrdMap.find?_insert] at he
    split at he
    next heq =>
      cases he
      exact Or.inl ⟨heq, rfl⟩
    next hne => exact Or.inr ⟨hne, he⟩
  intro a e₁ he₁ huser e₁' he₁' b e₂ he₂ hh
  have hsame : e₁' = e₁ := Option.some.inj (he₁'.symm.trans he₁)
  subst hsame
  rcases hfind he₁ with ⟨rfl, rfl⟩ | ⟨hne₁, hold₁⟩
  · rcases hfind he₂ with ⟨rfl, _⟩ | ⟨hne₂, hold₂⟩
    · rfl
    · have := (hnew b e₂ hne₂ hold₂ hh).1
      rw [huser] at this
      cases this
  · rcases hfind he₂ with ⟨rfl, rfl⟩ | ⟨_, hold₂⟩
    · have := (hnew a e₁' hne₁ hold₁ hh.symm).2
      rw [huser] at this
      cases this
    · exact hsole a e₁' hold₁ huser e₁' hold₁ b e₂ hold₂ hh

theorem Sole.eraseEntry {addr : Nat} (hsole : c.Sole) : (c.eraseEntry addr).Sole := by
  have hfind : ∀ {a e'}, (c.allocationMap.erase addr).find? a = some e' →
      c.allocationMap.find? a = some e' := by
    intro a e' he
    rw [OrdMap.find?_erase] at he
    split at he
    next => cases he
    next => exact he
  intro a e he huser e₁ he₁ b e₂ he₂ hh
  exact hsole a e (hfind he) huser e₁ (hfind he₁) b e₂ (hfind he₂) hh

/-! ## The functions -/

/-- The effect of an attempt to create an object. -/
theorem create_spec (C : Consistent sp c) {dev : SharedDevice} {info : GpuMemoryCreateInfo}
    {a : Answers} (hfits : CreateFits c.parentPid dev c.heaps info a) (hadds : CreateAdds dev info)
    {va : Nat} {code : ErrorCode} {o : Option (Nat × GpuMemory)}
    (h : c.create dev info a = .ok (va, code, o, c')) :
    (o = none ∧ code ≠ .success ∧
      ∃ hs, hs.Sound sp ∧ hs.reserved = c.heaps.reserved ∧ c' = { c with heaps := hs }) ∨
    ∃ mem hs mem₀, o = some (c.nextHandle, mem) ∧ code = .success ∧ Creates sp c.heaps mem hs ∧
      Shape mem₀ (createsAddress info) mem ∧ (info.dmabufFd = none → mem₀ = describe dev info) ∧
      c' = c.withObject hs mem := by
  rw [create] at h
  split at h
  next => cases h
  next hcreate =>
    cases h
    rcases createGpuMemory_spec C.sound hfits hadds hcreate with
      ⟨_, ho, _⟩ | ⟨_, hcode, S, hreserved⟩
    · cases ho
    · exact Or.inl ⟨rfl, hcode, _, S, hreserved, rfl⟩
  next mem hs hcreate =>
    cases h
    obtain ⟨mem₀, hshape, hdescribe⟩ := createGpuMemory_shape hcreate
    rcases createGpuMemory_spec C.sound hfits hadds hcreate with
      ⟨_, ho, hcode, hcreates⟩ | ⟨ho, _⟩
    · cases ho
      exact Or.inr ⟨_, _, mem₀, rfl, hcode, hcreates, hshape, hdescribe, rfl⟩
    · cases ho

theorem create_error {dev : SharedDevice} {info : GpuMemoryCreateInfo} {a : Answers} {f : Fault}
    (h : c.create dev info a = .error f) : f = .assertion := by
  rw [create] at h
  split at h
  · cases h
    rfl
  · cases h
  · cases h

theorem createAllocation_error {dev : SharedDevice} {info : GpuMemoryCreateInfo} {a : Answers}
    {f : Fault} (h : c.createAllocation dev info a = .error f) : f = .assertion := by
  rw [createAllocation] at h
  cases hcreate : c.create dev info a with
  | error f' =>
      rw [hcreate] at h
      cases h
      exact create_error hcreate
  | ok r =>
      rw [hcreate] at h
      obtain ⟨va, code, o, c₁⟩ := r
      cases o <;> cases h

/-- An attempt of an allocation: no change, or a new object under the address returned. -/
theorem createAllocation_spec (C : Consistent sp c) {dev : SharedDevice}
    {info : GpuMemoryCreateInfo} {a : Answers}
    (hfits : CreateFits c.parentPid dev c.heaps info a)
    (hadd : (describe dev info).Addable info.alignment)
    (hfd : info.dmabufFd = none) {code : ErrorCode} {addr : Nat}
    (h : c.createAllocation dev info a = .ok (code, addr, c')) :
    (code ≠ .success ∧ addr = 0 ∧
      ∃ hs, hs.Sound sp ∧ hs.reserved = c.heaps.reserved ∧ c' = { c with heaps := hs }) ∨
    ∃ mem hs, code = .success ∧ addr = mem.home ∧ Creates sp c.heaps mem hs ∧
      Shape (describe dev info) (!info.flags.physicalOnly) mem ∧
      c' = (c.withObject hs mem).setEntry mem.home ⟨c.nextHandle, addr, addr, info.size, false⟩ := by
  obtain ⟨⟨va, code', o, c₁⟩, hcreate, h⟩ := ok_of_bind h
  have hadds : CreateAdds dev info := by
    rw [CreateAdds, hfd, if_neg (by simp)]
    exact hadd
  rcases create_spec C hfits hadds hcreate with
    ⟨rfl, hcode, hs, S, hreserved, rfl⟩ | ⟨mem, hs, mem₀, rfl, rfl, hcreates, hshape, hdescribe, rfl⟩
  · cases h
    exact Or.inl ⟨hcode, rfl, hs, S, hreserved, rfl⟩
  · rw [createsAddress, hfd, if_neg (by simp)] at hshape
    rw [hdescribe hfd] at hshape
    have hhome := hshape.home_eq hcreates.housed
    have haddr : (if info.flags.physicalOnly ∨ info.dmabufFd.isSome then mem.handleApeAddr
        else mem.gpuAddr) = mem.home := by
      rw [hhome, hfd]
      cases info.flags.physicalOnly <;> rfl
    simp only [haddr] at h
    cases h
    exact Or.inr ⟨mem, hs, rfl, rfl, hcreates, hshape, rfl⟩

/-- The three things that the release of an entry can do. -/
inductive Frees (c : Core) (addr : Nat) : Status → Core → Prop
  | refused : Frees c addr .error c
  | counted {e : Allocation} {mem : GpuMemory} (he : c.allocationMap.find? addr = some e)
      (hm : c.objects.find? e.handle = some mem) (flags : GpuMemoryDescFlags) :
      Frees c addr .success (c.setObject e.handle { mem with flags := flags })
  | deleted {e : Allocation} {mem : GpuMemory} (he : c.allocationMap.find? addr = some e)
      (hm : c.objects.find? e.handle = some mem) (flags : GpuMemoryDescFlags) :
      Frees c addr .success ((c.eraseEntry addr).deleteObject e.handle { mem with flags := flags })

theorem decSharedReference_flags (mem : GpuMemory) :
    ∃ flags, mem.decSharedReference.2 = { mem with flags := flags } := by
  rw [GpuMemory.decSharedReference]
  dsimp only
  split
  · exact ⟨mem.flags, rfl⟩
  · exact ⟨_, rfl⟩

/-- The release of an entry does not fail. -/
theorem freeEntry_spec (C : Consistent sp c) (addr : Nat) :
    ∃ status c', c.freeEntry addr = .ok (status, c') ∧ Frees c addr status c' := by
  rw [freeEntry]
  cases he : c.allocationMap.find? addr with
  | none => exact ⟨_, _, rfl, .refused⟩
  | some e =>
      obtain ⟨mem, hm⟩ := C.live he
      obtain ⟨flags, hdec⟩ := decSharedReference_flags mem
      simp only [hm]
      split
      next => exact ⟨_, _, rfl, .refused⟩
      next =>
        split
        next =>
          split
          next =>
            refine ⟨_, _, rfl, ?_⟩
            rw [hdec]
            exact .counted he hm flags
          next =>
            refine ⟨_, _, rfl, ?_⟩
            rw [hdec]
            exact .deleted he hm flags
        next => exact ⟨_, _, rfl, .deleted he hm mem.flags⟩

/-- A release keeps the map consistent if it leaves no other entry of the object behind. -/
theorem Frees.consistent {addr : Nat} {status : Status} (h : Frees c addr status c')
    (C : Consistent sp c) (halone : c.Alone addr) : Consistent sp c' := by
  cases h with
  | refused => exact C
  | counted he hm flags => exact C.setFlags hm flags
  | deleted he hm flags => exact C.delete halone he hm flags

end Core

/-! ## A small machine -/

/-- A gigabyte for each of the heaps, and the aperture that the source reserves. -/
def smallRange : Heap → Range
  | .localHeap => ⟨2 ^ 28, 2 ^ 30⟩
  | .systemHeap => ⟨2 ^ 32, 2 ^ 30⟩
  | .handleAperture => ⟨2 ^ 47, 2 ^ 47⟩

theorem smallRange_managed (k : Heap) : VaMgr.Managed (smallRange k).start (smallRange k).size := by
  cases k <;> exact ⟨by decide, by decide, by decide⟩

theorem smallRange_apart {k k' : Heap} {a : Nat} (h : (smallRange k).Mem a)
    (h' : (smallRange k').Mem a) : k = k' := by
  cases k <;> cases k' <;> first | rfl | (simp only [Range.Mem, smallRange] at h h'; omega)

/-- The ranges, which are apart. -/
def smallSpace : AddressSpace where
  range := smallRange
  managed := smallRange_managed
  apart := smallRange_apart

/-- One device, without big pages. -/
def smallConfig : Config where
  getWddmdev n := if n = 1 then some ⟨false, 0, 0, 0, 0⟩ else none
  maxSingleAllocSize := 2 ^ 30
  systemHeapSize := 2 ^ 30

end RocDxg
