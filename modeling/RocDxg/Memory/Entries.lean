import RocDxg.Memory.BlockCalls
import RocDxg.Memory.Lifetime
import RocDxg.Memory.Rings

/-!
# What the entries say

Runs of all the functions that change the allocation map or an object, with any arguments and any
answers, and with opens and closes between them.  A queue marks the object of its ring, and has
objects without an entry.  Entries and objects may lose each other in such a run, but an
entry says the same of its object as long as both are there: memory is entered under its own
address, and a user pointer with the address and the size of its object (`Core.Entered`).
-/

namespace RocDxg

open Lib (OrdMap Reach)

/-! ## Entries -/

/-- What an entry under `k` says of its object. -/
def Allocation.Tells (e : Allocation) (k : Nat) (mem : GpuMemory) : Prop :=
  if e.userptr then e.gpuAddr = mem.gpuAddr ∧ e.size = mem.size ∧ mem.flags.isVirtual = false
  else e.cpuAddr = k

namespace Core

/-- Every entry has a handle that was given out, and says what is so of its object. -/
structure Entered (c : Core) : Prop where
  given : ∀ k e, c.allocationMap.find? k = some e → e.handle < c.nextHandle
  tells : ∀ k e mem, c.allocationMap.find? k = some e → c.objects.find? e.handle = some mem →
    e.Tells k mem

variable {c c' : Core} {mem mem' : GpuMemory} {handle k : Nat} {e : Allocation}

theorem Entered.setEntry (E : Entered c) (hgiven : e.handle < c.nextHandle)
    (htells : ∀ mem, c.objects.find? e.handle = some mem → e.Tells k mem) :
    Entered (c.setEntry k e) := by
  have hfind : ∀ {k' e'}, (c.setEntry k e).allocationMap.find? k' = some e' →
      (k' = k ∧ e' = e) ∨ c.allocationMap.find? k' = some e' := by
    intro k' e' he'
    change (c.allocationMap.insert k e).find? k' = some e' at he'
    rw [OrdMap.find?_insert] at he'
    split at he'
    next heq => exact Or.inl ⟨heq, (Option.some.inj he').symm⟩
    next => exact Or.inr he'
  constructor
  · intro k' e' he'
    rcases hfind he' with ⟨rfl, rfl⟩ | he'
    · exact hgiven
    · exact E.given k' e' he'
  · intro k' e' mem he' hm
    rcases hfind he' with ⟨rfl, rfl⟩ | he'
    · exact htells mem hm
    · exact E.tells k' e' mem he' hm

theorem Entered.eraseEntry (E : Entered c) (k : Nat) : Entered (c.eraseEntry k) := by
  have hfind : ∀ {k' e'}, (c.eraseEntry k).allocationMap.find? k' = some e' →
      c.allocationMap.find? k' = some e' := by
    intro k' e' he'
    change (c.allocationMap.erase k).find? k' = some e' at he'
    rw [OrdMap.find?_erase] at he'
    split at he'
    next => cases he'
    next => exact he'
  exact ⟨fun k' e' he' => E.given k' e' (hfind he'),
    fun k' e' mem he' hm => E.tells k' e' mem (hfind he') hm⟩

theorem Entered.deleteObject (E : Entered c) (handle : Nat) (mem : GpuMemory) :
    Entered (c.deleteObject handle mem) := by
  refine ⟨E.given, fun k e mem' he hm => ?_⟩
  change (c.objects.erase handle).find? e.handle = some mem' at hm
  rw [OrdMap.find?_erase] at hm
  split at hm
  next => cases hm
  next => exact E.tells k e mem' he hm

/-- The references to an object are counted in its flags, which no entry speaks of. -/
theorem Entered.setObject (E : Entered c) (hm : c.objects.find? handle = some mem)
    (haddr : mem'.gpuAddr = mem.gpuAddr) (hsize : mem'.size = mem.size)
    (hvirtual : mem'.flags.isVirtual = mem.flags.isVirtual) : Entered (c.setObject handle mem') := by
  refine ⟨E.given, fun k e mem'' he hm'' => ?_⟩
  change (c.objects.insert handle mem').find? e.handle = some mem'' at hm''
  rw [OrdMap.find?_insert] at hm''
  split at hm''
  next heq =>
    cases hm''
    have htells := E.tells k e mem he (heq ▸ hm)
    rw [Allocation.Tells] at htells ⊢
    rw [haddr, hsize, hvirtual]
    exact htells
  next => exact E.tells k e mem'' he hm''

/-- No entry has the handle of a new object. -/
theorem Entered.withObject (E : Entered c) (hs : Heaps) (mem : GpuMemory) :
    Entered (c.withObject hs mem) := by
  refine ⟨fun k e he => Nat.lt_succ_of_lt (E.given k e he), fun k e mem' he hm => ?_⟩
  change (c.objects.insert c.nextHandle mem).find? e.handle = some mem' at hm
  rw [OrdMap.find?_insert, if_neg (Nat.ne_of_lt (E.given k e he))] at hm
  exact E.tells k e mem' he hm

/-- What `CreateGpuMemory` leaves: no object, or a new one. -/
theorem create_cases {dev : SharedDevice} {info : GpuMemoryCreateInfo} {a : Answers} {va : Nat}
    {code : ErrorCode} {o : Option (Nat × GpuMemory)}
    (h : c.create dev info a = .ok (va, code, o, c')) :
    (o = none ∧ ∃ hs, c' = { c with heaps := hs }) ∨
      ∃ mem hs, o = some (c.nextHandle, mem) ∧ c' = c.withObject hs mem ∧
        createGpuMemory c.parentPid dev c.heaps info a = some (va, code, some mem, hs) := by
  rw [create] at h
  split at h
  next => cases h
  next =>
    cases h
    exact Or.inl ⟨rfl, _, rfl⟩
  next heq =>
    cases h
    exact Or.inr ⟨_, _, rfl, rfl, heq⟩

/-- A new object has no entry yet. -/
theorem Entered.create (E : Entered c) {dev : SharedDevice} {info : GpuMemoryCreateInfo}
    {a : Answers} {va : Nat} {code : ErrorCode} {o : Option (Nat × GpuMemory)}
    (h : c.create dev info a = .ok (va, code, o, c')) : Entered c' := by
  rcases create_cases h with ⟨-, hs, rfl⟩ | ⟨mem, hs, -, rfl, -⟩
  · exact ⟨E.given, E.tells⟩
  · exact E.withObject hs mem

/-- A new object is entered by an entry that says what is so of it. -/
theorem Entered.enter (E : Entered c) {hs : Heaps} (hhandle : e.handle = c.nextHandle)
    (htells : e.Tells k mem) : Entered ((c.withObject hs mem).setEntry k e) := by
  refine (E.withObject hs mem).setEntry (hhandle ▸ Nat.lt_succ_self _) fun mem' hm => ?_
  change (c.objects.insert c.nextHandle mem).find? e.handle = some mem' at hm
  rw [OrdMap.find?_insert, if_pos hhandle] at hm
  cases hm
  exact htells

theorem Entered.createAllocation (E : Entered c) {dev : SharedDevice} {info : GpuMemoryCreateInfo}
    {a : Answers} {r : ErrorCode × Nat × Core} (h : c.createAllocation dev info a = .ok r) :
    Entered r.2.2 := by
  rw [Core.createAllocation] at h
  obtain ⟨⟨va, code, o, c₁⟩, hcreate, h⟩ := ok_of_bind h
  rcases create_cases hcreate with ⟨rfl, hs, rfl⟩ | ⟨mem, hs, rfl, rfl, -⟩
  · cases h
    exact ⟨E.given, E.tells⟩
  · cases h
    exact E.enter rfl rfl

theorem Entered.allocDirect (E : Entered c) {cfg : Config} {args : AllocArgs} {ram : Bool}
    {a : Answers} {r : Status × Nat × Core} (h : c.allocDirect cfg args ram a = .ok r) :
    Entered r.2.2 := by
  rw [Core.allocDirect] at h
  split at h
  next =>
    cases h
    exact E
  next =>
    split at h
    next =>
      cases h
      exact E
    next =>
      obtain ⟨⟨code, p, c₁⟩, hcreate, h⟩ := ok_of_bind h
      have E₁ := E.createAllocation hcreate
      dsimp only at h
      split at h
      next =>
        cases h
        exact E₁
      next =>
        cases h
        exact E₁

/-- A reference to an object is given back, and the object with the last one. -/
theorem Entered.decShared (E : Entered c) (hm : c.objects.find? handle = some mem) :
    Entered (c.setObject handle mem.decSharedReference.2) := by
  rw [GpuMemory.decSharedReference]
  dsimp only
  split
  next => exact E.setObject hm rfl rfl rfl
  next => exact E.setObject hm rfl rfl rfl

theorem Entered.freeEntry (E : Entered c) {addr : Nat} {r : Status × Core}
    (h : c.freeEntry addr = .ok r) : Entered r.2 := by
  rw [Core.freeEntry] at h
  split at h
  next =>
    cases h
    exact E
  next =>
    split at h
    next => cases h
    next hm =>
      split at h
      next =>
        cases h
        exact E
      next =>
        split at h
        next =>
          simp only at h
          split at h
          next =>
            cases h
            exact E.decShared hm
          next =>
            cases h
            exact (E.eraseEntry addr).deleteObject _ _
        next =>
          cases h
          exact (E.eraseEntry addr).deleteObject _ _

theorem Entered.freeDirect (E : Entered c) {addr : Nat} {r : Status × Core}
    (h : c.freeDirect addr = .ok r) : Entered r.2 := by
  rw [Core.freeDirect] at h
  split at h
  next =>
    cases h
    exact E
  next =>
    split at h
    next =>
      cases h
      exact E
    next => exact E.freeEntry h

end Core

namespace Memory

variable {cfg : Config} {m m' : Memory}

/-- What a process does with the library.  A forked child begins with a new memory. -/
inductive Action where
  | call (e : Call)
  | allocMemoryAlign (args : AllocArgs) (ans : AllocAnswers)
  /-- A queue marks the object of its ring, or takes the mark away. -/
  | queueBuffer (addr : Nat) (mark : Bool)
  /-- A queue creates an object for itself. -/
  | createObject (dev : SharedDevice) (info : GpuMemoryCreateInfo) (a : Answers)
  | deleteObject (handle : Nat)
  | openKFD (fd dxcore : Bool)
  | closeKFD

/-- The memory after an action that returns. -/
def act (cfg : Config) (m : Memory) : Action → Option Memory
  | .call e => m.step cfg e
  | .allocMemoryAlign args ans => (m.allocMemoryAlign cfg args ans).toOption.map fun r => r.2.2
  | .queueBuffer addr mark =>
      (m.core.queueBuffer addr mark).toOption.map fun r => { m with core := r.2 }
  | .createObject dev info a =>
      (m.core.create dev info a).toOption.map fun r => { m with core := r.2.2.2 }
  | .deleteObject handle =>
      (m.core.objects.find? handle).map fun mem =>
        { m with core := m.core.deleteObject handle mem }
  | .openKFD fd dxcore => some (m.openKFD fd dxcore).2
  | .closeKFD => some m.closeKFD.2

end Memory

end RocDxg
