import RocDxg.Memory.Descriptors
import RocDxg.Memory.HeapCalls

/-!
# Descriptors and the sub-allocator

`hsaKmtAllocMemory` and `hsaKmtFreeMemory` with their descriptors, where the sub-allocator may
be switched on.  The sub-allocator obtains and releases its blocks through the functions with
`SkipSubAlloc`, so what a call does to the descriptors is a run of `FileCore`:
`FileMemory.allocMemory_made` and `FileMemory.freeMemory_made`.
-/

namespace RocDxg

open Lib (Reach)

/-- The objects with their descriptors, and `fragment_allocator_`. -/
structure FileMemory where
  store : FileCore
  heap : SimpleHeap := {}

namespace FileMemory

/-- `BlockAllocator` -/
def blockAllocator (cfg : Config) (ram : Bool) (a : Answers) (k : FdAnswers) :
    BlockAllocator (Except Fault FileCore) where
  blockSize := subAllocatorBlockSize
  alloc s request :=
    let size := alignUp 64 request subAllocatorBlockSize
    match s.bind fun c => c.allocDirect cfg (blockArgs size) ram a k with
    | .error fault => (none, .error fault)
    | .ok (status, base, c) => (if status = .success then some (base, size) else none, .ok c)
  free s base _ := s.bind fun c => (c.freeDirect base k.munmap).map Prod.snd

/-- The request to the sub-allocator; the address is zero if it was not served. -/
def subAlloc (cfg : Config) (m : FileMemory) (size : Nat) (ans : AllocAnswers) (k : FdAnswers) :
    Except Fault (Nat × FileMemory) :=
  if Memory.realSize cfg size < subAllocatorBlockSize then
    match SimpleHeap.alloc (blockAllocator cfg ans.ram ans.block k) m.heap (.ok m.store)
        (Memory.realSize cfg size) with
    | none => .error .assertion
    | some (_, _, .error fault) => .error fault
    | some (addr, heap, .ok store) => .ok (addr, ⟨store, heap⟩)
  else .ok (0, m)

/-- `trim_suballocator` -/
def trim (cfg : Config) (m : FileMemory) (k : FdAnswers) : Except Fault FileMemory :=
  let r := SimpleHeap.trim (blockAllocator cfg true {} k) m.heap (.ok m.store)
  r.2.map fun store => ⟨store, r.1⟩

/-- Create an object of its own for the request; if that fails, once more with the blocks of
the cache released. -/
def createOrTrim (cfg : Config) (m : FileMemory) (dev : SharedDevice) (info : GpuMemoryCreateInfo)
    (ans : AllocAnswers) (k : FdAnswers) : Except Fault (Status × Nat × FileMemory) := do
  let (code, addr, store) ← m.store.createAllocation dev info ans.first k
  let m := { m with store := store }
  if code = .success then .ok (.success, addr, m)
  else
    let m ← m.trim cfg k
    let (code, addr, store) ← m.store.createAllocation dev info ans.retry k
    let m := { m with store := store }
    if code = .success then .ok (.success, addr, m) else .ok (.error, 0, m)

/-- `hsaKmtAllocMemory` -/
def allocMemory (cfg : Config) (m : FileMemory) (preferredNode sizeInBytes : Nat)
    (flags : HsaMemFlags) (memoryAddress : Nat) (ans : AllocAnswers) (k : FdAnswers) :
    Except Fault (Status × Nat × FileMemory) :=
  if m.store.core.isOpen = false then .ok (.kernelIoChannelNotOpened, 0, m)
  else
    match allocInfo cfg ⟨preferredNode, sizeInBytes, 0, flags, memoryAddress⟩ ans.ram with
    | .error status => .ok (status, 0, m)
    | .ok (dev, info, vmm) =>
        if cfg.enableThunkSubAllocator ∧ ¬ vmm ∧ info.domain = .kLocal then do
          let (addr, m) ← m.subAlloc cfg info.size ans k
          if addr ≠ 0 then .ok (.success, addr, m) else m.createOrTrim cfg dev info ans k
        else do
          let (code, addr, store) ← m.store.createAllocation dev info ans.first k
          let m := { m with store := store }
          if code = .success then .ok (.success, addr, m) else .ok (.error, 0, m)

/-- `hsaKmtFreeMemory` -/
def freeMemory (cfg : Config) (m : FileMemory) (addr : Nat) (k : FdAnswers) :
    Except Fault (Status × FileMemory) :=
  if m.store.core.isOpen = false then .ok (.kernelIoChannelNotOpened, m)
  else if addr = 0 then .ok (.invalidParameter, m)
  else
    match SimpleHeap.free (blockAllocator cfg true {} k) m.heap (.ok m.store) addr with
    | (_, _, .error fault) => .error fault
    | (true, heap, .ok store) => .ok (.success, ⟨store, heap⟩)
    | (false, heap, .ok store) => (store.freeEntry addr k.munmap).map fun r => (r.1, ⟨r.2, heap⟩)

/-! ## The library stays open -/

section IsOpen

variable {cfg : Config} {s s' : FileCore} {k : FdAnswers}

theorem create_isOpen {dev : SharedDevice} {info : GpuMemoryCreateInfo} {a : Answers} {va : Nat}
    {code : ErrorCode} {o : Option (Nat × GpuMemory)}
    (h : s.create dev info a k = .ok (va, code, o, s')) : s'.core.isOpen = s.core.isOpen := by
  obtain ⟨⟨va', code', o', c⟩, hcreate, h⟩ := ok_of_bind h
  have hc : c.isOpen = s.core.isOpen := by
    rw [Core.create] at hcreate
    split at hcreate <;> cases hcreate <;> rfl
  cases o' <;> cases h <;> exact hc

theorem createAllocation_isOpen {dev : SharedDevice} {info : GpuMemoryCreateInfo} {a : Answers}
    {code : ErrorCode} {p : Nat} (h : s.createAllocation dev info a k = .ok (code, p, s')) :
    s'.core.isOpen = s.core.isOpen := by
  obtain ⟨⟨va, code', o, c⟩, hcreate, h⟩ := ok_of_bind h
  rw [← create_isOpen hcreate]
  cases o <;> cases h <;> rfl

theorem allocDirect_isOpen {args : AllocArgs} {ram : Bool} {a : Answers} {status : Status} {p : Nat}
    (h : s.allocDirect cfg args ram a k = .ok (status, p, s')) :
    s'.core.isOpen = s.core.isOpen := by
  rw [FileCore.allocDirect] at h
  split at h
  next =>
    cases h
    rfl
  next =>
    split at h
    next =>
      cases h
      rfl
    next =>
      obtain ⟨⟨code, p', c⟩, hcreate, h⟩ := ok_of_bind h
      rw [← createAllocation_isOpen hcreate]
      simp only at h
      split at h <;> cases h <;> rfl

theorem freeDirect_isOpen {addr : Nat} {munmap : Bool} {status : Status}
    (h : s.freeDirect addr munmap = .ok (status, s')) : s'.core.isOpen = s.core.isOpen := by
  rw [FileCore.freeDirect, FileCore.freeEntry] at h
  repeat' split at h
  all_goals
    cases h
    try rfl

end IsOpen

/-! ## What a call makes of the descriptors -/

/-- The second state is reached from the first by calls with `SkipSubAlloc`. -/
structure Made (cfg : Config) (s c : FileCore) : Prop where
  reach : Reach (FileCore.step cfg) (fun _ _ => True) s c
  isOpen : c.core.isOpen = s.core.isOpen

/-- The state, unless there was a fault, is reached from `s`. -/
def MadeFrom (cfg : Config) (s : FileCore) (x : Except Fault FileCore) : Prop :=
  ∀ c, x = .ok c → Made cfg s c

variable {cfg : Config} {s c c' : FileCore} {m m' : FileMemory} {k : FdAnswers}

theorem made_self (cfg : Config) (s : FileCore) : Made cfg s s := ⟨.start, rfl⟩

theorem madeFrom_self (cfg : Config) (s : FileCore) : MadeFrom cfg s (.ok s) := by
  intro c h
  cases h
  exact made_self cfg s

theorem Made.trans (H : Made cfg s c) (H' : Made cfg c c') : Made cfg s c' :=
  ⟨H.reach.trans H'.reach, H'.isOpen.trans H.isOpen⟩

theorem made_of_allocDirect {node size addr p : Nat} {flags : HsaMemFlags} {ram : Bool} {a : Answers}
    {status : Status} (h : c.allocDirect cfg ⟨node, size, 0, flags, addr⟩ ram a k = .ok (status, p, c')) :
    Made cfg c c' := by
  have hstep : FileCore.step cfg c (.allocMemory node size flags addr ram a k) = some c' := by
    rw [FileCore.step, FileCore.call, h]
    rfl
  exact ⟨.step .start trivial hstep, allocDirect_isOpen h⟩

theorem made_of_freeDirect {addr : Nat} {munmap : Bool} {status : Status}
    (h : c.freeDirect addr munmap = .ok (status, c')) : Made cfg c c' := by
  have hstep : FileCore.step cfg c (.freeMemory addr munmap) = some c' := by
    rw [FileCore.step, FileCore.call, h]
    rfl
  exact ⟨.step .start trivial hstep, freeDirect_isOpen h⟩

/-- An attempt to create an object for a request is the call without the sub-allocator. -/
theorem made_of_createAllocation {node size addr p : Nat} {flags : HsaMemFlags} {ram : Bool}
    {a : Answers} {dev : SharedDevice} {info : GpuMemoryCreateInfo} {vmm : Bool}
    (hopen : ¬ c.core.isOpen = false)
    (hinfo : allocInfo cfg ⟨node, size, 0, flags, addr⟩ ram = .ok (dev, info, vmm))
    {code : ErrorCode} (h : c.createAllocation dev info a k = .ok (code, p, c')) :
    Made cfg c c' := by
  by_cases hcode : code = .success
  · have halloc : c.allocDirect cfg ⟨node, size, 0, flags, addr⟩ ram a k = .ok (.success, p, c') := by
      simp only [FileCore.allocDirect, if_neg hopen, hinfo, h, bind, Except.bind, if_pos hcode]
    exact made_of_allocDirect halloc
  · have halloc : c.allocDirect cfg ⟨node, size, 0, flags, addr⟩ ram a k = .ok (.error, 0, c') := by
      simp only [FileCore.allocDirect, if_neg hopen, hinfo, h, bind, Except.bind, if_neg hcode]
    exact made_of_allocDirect halloc

theorem MadeFrom.free {ram : Bool} {a : Answers} {x : Except Fault FileCore} (b n : Nat)
    (H : MadeFrom cfg s x) : MadeFrom cfg s ((blockAllocator cfg ram a k).free x b n) := by
  intro c' h
  obtain ⟨c, rfl, h⟩ := ok_of_bind h
  obtain ⟨r, hfree, rfl⟩ := ok_of_map h
  exact (H c rfl).trans (made_of_freeDirect hfree)

theorem MadeFrom.alloc {ram : Bool} {a : Answers} {x : Except Fault FileCore} (request : Nat)
    (H : MadeFrom cfg s x) : MadeFrom cfg s ((blockAllocator cfg ram a k).alloc x request).2 := by
  intro c' h
  simp only [blockAllocator] at h
  split at h
  next => cases h
  next status base c hok =>
    cases h
    obtain ⟨c₀, rfl, halloc⟩ := ok_of_bind hok
    exact (H c₀ rfl).trans (made_of_allocDirect halloc)

/-! ## The sub-allocator -/

/-- The heap asks for blocks and gives them back. -/
theorem MadeFrom.heapAlloc {ram : Bool} {a : Answers} {x x' : Except Fault FileCore}
    (H : MadeFrom cfg s x) {h h' : SimpleHeap} {bytes p : Nat}
    (halloc : SimpleHeap.alloc (blockAllocator cfg ram a k) h x bytes = some (p, h', x')) :
    MadeFrom cfg s x' := by
  have hfree : ∀ x b n, MadeFrom cfg s x →
      MadeFrom cfg s ((blockAllocator cfg ram a k).free x b n) := fun _ b n H => H.free b n
  rcases SimpleHeap.alloc_cases halloc with
    ⟨_, rfl⟩ | ⟨_, ⟨_, _, _, hblock⟩ | ⟨_, _, _, _, rfl⟩ | ⟨_, _, _, hblock⟩⟩
  · exact H
  · exact (SimpleHeap.allocBlock_keeps hfree H hblock).2
  · exact H.alloc bytes
  · exact (SimpleHeap.allocBlock_keeps hfree (H.alloc bytes) hblock).2

theorem subAlloc_made {size p : Nat} {ans : AllocAnswers}
    (h : m.subAlloc cfg size ans k = .ok (p, m')) : Made cfg m.store m'.store := by
  rw [subAlloc] at h
  split at h
  next =>
    split at h
    next => cases h
    next => cases h
    next halloc =>
      cases h
      exact (madeFrom_self cfg m.store).heapAlloc halloc _ rfl
  next =>
    cases h
    exact made_self cfg m.store

theorem trim_made (h : m.trim cfg k = .ok m') : Made cfg m.store m'.store := by
  obtain ⟨c, hfold, rfl⟩ := ok_of_map h
  exact SimpleHeap.foldl_free_keeps (fun _ b n H => MadeFrom.free b n H)
    (madeFrom_self cfg m.store) m.heap.blockCache c hfold

/-! ## A call is a run -/

theorem createOrTrim_made {node size addr p : Nat} {flags : HsaMemFlags} {ans : AllocAnswers}
    {dev : SharedDevice} {info : GpuMemoryCreateInfo} {vmm : Bool}
    (hopen : ¬ m.store.core.isOpen = false)
    (hinfo : allocInfo cfg ⟨node, size, 0, flags, addr⟩ ans.ram = .ok (dev, info, vmm))
    {status : Status} (h : m.createOrTrim cfg dev info ans k = .ok (status, p, m')) :
    Made cfg m.store m'.store := by
  rw [createOrTrim] at h
  obtain ⟨⟨code, q, c⟩, hcreate, h⟩ := ok_of_bind h
  have H := made_of_createAllocation hopen hinfo hcreate
  simp only at h
  split at h
  next =>
    cases h
    exact H
  next =>
    obtain ⟨m₁, htrim, h⟩ := ok_of_bind h
    have H₁ : Made cfg m.store m₁.store := H.trans (trim_made htrim)
    obtain ⟨⟨code₁, q₁, c₁⟩, hcreate₁, h⟩ := ok_of_bind h
    have H₂ := H₁.trans (made_of_createAllocation (by rw [H₁.isOpen]; exact hopen) hinfo hcreate₁)
    simp only at h
    split at h <;> cases h <;> exact H₂

/-- What `hsaKmtAllocMemory` does to the objects and the descriptors is a run of calls with
`SkipSubAlloc`, whether the sub-allocator is on or off. -/
theorem allocMemory_made {node size addr p : Nat} {flags : HsaMemFlags} {ans : AllocAnswers}
    {status : Status} (h : m.allocMemory cfg node size flags addr ans k = .ok (status, p, m')) :
    Made cfg m.store m'.store := by
  rw [allocMemory] at h
  split at h
  next =>
    cases h
    exact made_self cfg m.store
  next hopen =>
    cases hinfo : allocInfo cfg ⟨node, size, 0, flags, addr⟩ ans.ram with
    | error status =>
        rw [hinfo] at h
        cases h
        exact made_self cfg m.store
    | ok r =>
        obtain ⟨dev, info, vmm⟩ := r
        rw [hinfo] at h
        simp only at h
        split at h
        next =>
          obtain ⟨⟨q, m₁⟩, hsub, h⟩ := ok_of_bind h
          have H := subAlloc_made hsub
          simp only at h
          split at h
          next =>
            cases h
            exact H
          next => exact H.trans (createOrTrim_made (by rw [H.isOpen]; exact hopen) hinfo h)
        next =>
          obtain ⟨⟨code, q, c⟩, hcreate, h⟩ := ok_of_bind h
          have H := made_of_createAllocation hopen hinfo hcreate
          simp only at h
          split at h <;> cases h <;> exact H

/-- So is what `hsaKmtFreeMemory` does to them. -/
theorem freeMemory_made {addr : Nat} {status : Status}
    (h : m.freeMemory cfg addr k = .ok (status, m')) : Made cfg m.store m'.store := by
  rw [freeMemory] at h
  split at h
  next =>
    cases h
    exact made_self cfg m.store
  next hopen =>
    split at h
    next =>
      cases h
      exact made_self cfg m.store
    next haddr =>
      have hkeeps := SimpleHeap.free_keeps (A := blockAllocator cfg true {} k) (h := m.heap)
        (fun _ b n H => MadeFrom.free b n H) (madeFrom_self cfg m.store) addr
      split at h
      next => cases h
      next hfree =>
        cases h
        rw [hfree] at hkeeps
        exact hkeeps _ rfl
      next heap store hfree =>
        rw [hfree] at hkeeps
        have H := hkeeps store rfl
        obtain ⟨⟨status', c⟩, hentry, heq⟩ := ok_of_map h
        cases heq
        have hdirect : store.freeDirect addr k.munmap = .ok (status', c) := by
          rw [FileCore.freeDirect, if_neg (by rw [H.isOpen]; exact hopen), if_neg haddr, hentry]
        exact H.trans (made_of_freeDirect hdirect)

end FileMemory

end RocDxg
