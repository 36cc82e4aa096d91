import RocDxg.Memory.Client

/-!
# What a request is promised

`hsaKmtAllocMemoryAlign` gives the sub-allocator a size and nothing else of a request.
`Memory.AsAsked` says what the request was for: the device of its node, its coherence and
caching, its alignment, and its address if that is fixed and there is room.

A block of the sub-allocator is memory of the first node, coarse grained and cached, and
begins at a multiple of 2 MiB; `SimpleHeap::alloc` cuts fragments at multiples of `granule`.
A request that asks for no more than that gets what it asks for.
-/

namespace RocDxg

open Lib (OrdMap Reach runAll reach_of_runAll)
open GpuMemory (Shape describe adjustSize)

/-! ## Where blocks begin -/

namespace GpuMemory

variable {hs hs' : Heaps} {mem mem' : GpuMemory}

/-- A range that is reserved without a fixed address is aligned. -/
theorem reserve_aligned {size alignment : Nat} {a : Answers} {code : ErrorCode}
    (hfile : mem.isFile = false) (hdvd : Heaps.reserveAlign size alignment ∣ 2 ^ 64)
    (hreserve : mem.reserveGpuVirtualAddress hs 0 size alignment a = some (code, mem', hs'))
    (hcode : code = .success) : Heaps.reserveAlign size alignment ∣ mem'.gpuAddr := by
  rw [reserveGpuVirtualAddress, hfile, if_neg Bool.false_ne_true] at hreserve
  obtain ⟨⟨code₁, p, hs₁⟩, hheap, heq⟩ := Option.map_eq_some_iff.mp hreserve
  simp only [Prod.mk.injEq] at heq
  obtain ⟨rfl, rfl, rfl⟩ := heq
  rw [if_pos hcode]
  show _ ∣ p
  rw [Heaps.reserveGpuVirtualAddress] at hheap
  simp only at hheap
  split at hheap
  next =>
    obtain ⟨⟨q, m⟩, halloc, heq⟩ := Option.map_eq_some_iff.mp hheap
    have hq := VaMgr.alloc_aligned hdvd halloc
    simp only at heq
    split at heq
    next =>
      cases heq
      exact hq
    next =>
      cases heq
      cases hcode
  next =>
    obtain ⟨⟨q, m⟩, halloc, heq⟩ := Option.map_eq_some_iff.mp hheap
    simp only [Prod.mk.injEq] at heq
    rw [← heq.2.1]
    exact VaMgr.alloc_aligned hdvd halloc

theorem init_aligned {dev : SharedDevice} {info : GpuMemoryCreateInfo} {a : Answers}
    (hfile : (describe dev info).isFile = false) (hphysical : info.flags.physicalOnly = false)
    (hhint : info.vaHint = 0)
    (hdvd : Heaps.reserveAlign (describe dev info).size info.alignment ∣ 2 ^ 64)
    (hinit : init dev hs info a = some (.success, mem, hs')) :
    Heaps.reserveAlign (describe dev info).size info.alignment ∣ mem.gpuAddr := by
  have hphysical' : (describe dev info).flags.isPhysicalOnly = false := hphysical
  rw [init] at hinit
  simp only [hphysical', Bool.false_eq_true, if_false, hhint] at hinit
  obtain ⟨⟨code, mem₁, hs₁⟩, hreserve, heq⟩ := Option.map_eq_some_iff.mp hinit
  simp only at heq
  split at heq
  next =>
    cases heq
    exact reserve_aligned hfile hdvd hreserve rfl
  next hreal =>
    have hcode : code = .success := Decidable.byContradiction fun hne => hreal (Or.inr hne)
    rw [back] at heq
    split at heq
    next =>
      cases heq
      exact reserve_aligned hfile hdvd hreserve hcode
    next hback =>
      simp only [Prod.mk.injEq] at heq
      exact absurd heq.1 hback

end GpuMemory

namespace Core

variable {sp : AddressSpace} {cfg : Config} {c c' : Core}

/-- The address of an object that has one, and was not given a fixed one. -/
theorem createAllocation_aligned {dev : SharedDevice} {info : GpuMemoryCreateInfo} {a : Answers}
    {addr : Nat} (hfd : info.dmabufFd = none) (hfile : (describe dev info).isFile = false)
    (hphysical : info.flags.physicalOnly = false) (hhint : info.vaHint = 0)
    (hdvd : Heaps.reserveAlign (describe dev info).size info.alignment ∣ 2 ^ 64)
    (hcreate : c.createAllocation dev info a = .ok (.success, addr, c')) :
    Heaps.reserveAlign (describe dev info).size info.alignment ∣ addr := by
  rw [createAllocation] at hcreate
  obtain ⟨⟨va, code, object, c₁⟩, hobject, hcreate⟩ := ok_of_bind hcreate
  rw [create, createGpuMemory, hfd] at hobject
  simp only [Option.isSome_none, Bool.false_eq_true, if_false] at hobject
  cases hinit : GpuMemory.init dev c.heaps info a with
  | none =>
      rw [hinit] at hobject
      cases hobject
  | some r =>
      obtain ⟨code₁, mem, hs⟩ := r
      rw [hinit, Option.map_some, keepOrDelete] at hobject
      by_cases hcode : code₁ = .success
      · rw [if_pos hcode] at hobject
        cases hobject
        simp only [hphysical, hfd, Option.isSome_none, Bool.false_eq_true, or_self, if_false,
          Except.ok.injEq, Prod.mk.injEq] at hcreate
        rw [← hcreate.2.1]
        rw [hcode] at hinit
        exact GpuMemory.init_aligned hfile hphysical hhint hdvd hinit
      · rw [if_neg hcode] at hobject
        cases hobject
        simp only [Except.ok.injEq, Prod.mk.injEq] at hcreate
        exact absurd hcreate.1 hcode

/-- A block has an address, and is not a file. -/
theorem allocInfo_block_plain {size : Nat} {ram : Bool} {dev : SharedDevice}
    {info : GpuMemoryCreateInfo} {vmm : Bool}
    (hinfo : allocInfo cfg (blockArgs size) ram = .ok (dev, info, vmm)) :
    info.flags.physicalOnly = false ∧ (describe dev info).isFile = false := by
  rw [allocInfo] at hinfo
  split at hinfo
  next => cases hinfo
  next =>
    split at hinfo
    next => cases hinfo
    next =>
      split at hinfo
      next => cases hinfo
      next =>
        cases hinfo
        refine ⟨rfl, ?_⟩
        simp [GpuMemory.isFile, describe, blockArgs]

/-- A new block begins at a multiple of 2 MiB. -/
theorem newBlock_aligned {ram : Bool} {ans : Answers} {bytes base n : Nat}
    {s : Except Fault Core} (hpos : 0 < bytes) (hle : bytes ≤ subAllocatorBlockSize)
    (hnew : (blockAllocator cfg ram ans).alloc (.ok c) bytes = (some (base, n), s)) :
    gpuHugePageSize ∣ base := by
  simp only [blockAllocator, alignUp_blockSize hpos hle, Except.bind, allocDirect] at hnew
  cases hopen : c.isOpen with
  | false => simp [hopen] at hnew
  | true =>
      simp only [hopen, Bool.true_eq_false, if_false] at hnew
      cases hinfo : allocInfo cfg (blockArgs subAllocatorBlockSize) ram with
      | error status =>
          have hne : status ≠ .success := allocInfo_ne_success hinfo
          simp [hinfo, hne] at hnew
      | ok r =>
          obtain ⟨dev, info, vmm⟩ := r
          obtain ⟨_, hsize, halign, hhint, hfd, _, _⟩ := allocInfo_blockArgs hinfo
          simp only [hinfo, bind, Except.bind] at hnew
          cases hcreate : c.createAllocation dev info ans with
          | error f => simp [hcreate] at hnew
          | ok r =>
              obtain ⟨code, addr, c'⟩ := r
              rw [hcreate] at hnew
              simp only at hnew
              by_cases hcode : code = .success
              · rw [if_pos hcode] at hnew
                simp only [if_true, Prod.mk.injEq, Option.some.injEq] at hnew
                rw [← hnew.1.1]
                rw [hcode] at hcreate
                obtain ⟨hphysical, hfile⟩ := allocInfo_block_plain hinfo
                have hblock : gpuHugePageSize ≤ subAllocatorBlockSize := by decide
                have hsmall : subAllocatorBlockSize = 2 ^ 27 := rfl
                have hhuge : gpuHugePageSize ≤ (describe dev info).size := by
                  refine Nat.le_trans hblock ?_
                  show subAllocatorBlockSize ≤ adjustSize dev info.domain info.size
                  rw [hsize]
                  exact GpuMemory.le_adjustSize dev info.domain (by omega)
                have halign : Heaps.reserveAlign (describe dev info).size info.alignment =
                    gpuHugePageSize := if_pos hhuge
                have hdvd := createAllocation_aligned hfd hfile hphysical hhint
                  (by rw [halign]; exact SimpleHeap.huge_dvd_word) hcreate
                rw [halign] at hdvd
                exact hdvd
              · rw [if_neg hcode] at hnew
                simp at hnew

end Core

namespace SimpleHeap

variable {h h' : SimpleHeap}

/-- Every block begins at a multiple of 2 MiB. -/
def Aligned (h : SimpleHeap) : Prop := ∀ b n, h.Holds b n → gpuHugePageSize ∣ b

theorem Aligned.of_subset (hal : Aligned h) (hsub : ∀ b n, h'.Holds b n → h.Holds b n) :
    Aligned h' :=
  fun b n hn => hal b n (hsub b n hn)

/-- The block of its own that a request is served from. -/
theorem allocBlock_eq {σ : Type u} {A : BlockAllocator σ} {s s' : σ} {base size bytes p : Nat}
    (hle : bytes ≤ A.blockSize) (halloc : allocBlock A h s base size bytes = some (p, h', s')) :
    p = base ∧ s' = s ∧ (h'.lengths base).isSome = true ∧ h'.blockCache = h.blockCache ∧
      ∀ b, b ≠ base → h'.lengths b = h.lengths b := by
  rw [allocBlock] at halloc
  split at halloc
  next => cases halloc
  next =>
    simp only [if_neg (Nat.not_lt.mpr hle)] at halloc
    cases halloc
    refine ⟨rfl, rfl, ?_, rfl, ?_⟩
    · simp only [lengths, SimpleHeap.withBlock, OrdMap.find?_insert, if_pos, Option.map_some,
        Option.isSome_some]
    · intro b hb
      simp only [lengths, SimpleHeap.withBlock, OrdMap.find?_insert, if_neg hb]

end SimpleHeap

namespace Memory

open SimpleHeap (Holds Aligned granule)

variable {sp : AddressSpace} {cfg : Config} {m m' : Memory}

/-- A fragment begins at a multiple of the granule and lies in a block. -/
theorem Backed.alloc_inside (B : Backed sp cfg m) (hal : Aligned m.heap) {ram : Bool} {ans : Answers}
    {bytes p : Nat} {h' : SimpleHeap} {c : Core} (hpos : 0 < bytes)
    (hlt : bytes < subAllocatorBlockSize)
    (halloc : SimpleHeap.alloc (blockAllocator cfg ram ans) m.heap (.ok m.core) bytes =
      some (p, h', .ok c)) :
    Aligned h' ∧ (p ≠ 0 → granule bytes ∣ p ∧
      ∃ b n, h'.lengths b = some n ∧ b ≤ p ∧ p + bytes ≤ b + subAllocatorBlockSize) := by
  have hblock : ∀ {h₁ : SimpleHeap} {x : Except Fault Core} {base size : Nat},
      (∀ b n, h₁.Holds b n → m.heap.Holds b n) → gpuHugePageSize ∣ base →
      SimpleHeap.allocBlock (blockAllocator cfg ram ans) h₁ x base size bytes =
        some (p, h', .ok c) →
      Aligned h' ∧ (p ≠ 0 → granule bytes ∣ p ∧
        ∃ b n, h'.lengths b = some n ∧ b ≤ p ∧ p + bytes ≤ b + subAllocatorBlockSize) := by
    intro h₁ x base size hsub hbase hnew
    obtain ⟨rfl, _, hlisted, hcache, hother⟩ := SimpleHeap.allocBlock_eq (Nat.le_of_lt hlt) hnew
    refine ⟨?_, fun _ => ⟨Nat.dvd_trans (SimpleHeap.granule_dvd_huge bytes) hbase, ?_⟩⟩
    · intro b n hn
      by_cases heq : b = p
      · exact heq ▸ hbase
      · refine hal b n (hsub b n ?_)
        rw [Holds, hother b heq, hcache] at hn
        exact hn
    · obtain ⟨n, hn⟩ := Option.isSome_iff_exists.mp hlisted
      exact ⟨p, n, hn, Nat.le_refl _, Nat.add_le_add_left (Nat.le_of_lt hlt) _⟩
  rcases SimpleHeap.alloc_cases halloc with
    ⟨hfrag, hc⟩ | ⟨_, ⟨x, hlast, _, hnew⟩ | ⟨_, _, rfl, rfl, _⟩ | ⟨base, size, hbase, hnew⟩⟩
  · obtain ⟨r, hr, hserves⟩ := B.heap.allocFragment_serves hpos
    rw [hfrag] at hr
    cases hr
    cases hc
    have S := hserves p h' rfl
    refine ⟨hal.of_subset fun b n hn => ?_,
      fun _ => ⟨SimpleHeap.allocFragment_aligned hfrag, ?_⟩⟩
    · rw [Holds, S.lengths, S.cache] at hn
      exact hn
    · have hlive : h'.live p = some bytes := by rw [S.live, Function.update_self]
      obtain ⟨b, hlen, hlo, _, hhi⟩ := (B.serve S).backed.live_inside hlive
      exact ⟨b, _, hlen, hlo, hhi⟩
  · refine hblock ?_ (hal x.base x.length (Or.inr (List.mem_of_getLast? hlast))) hnew
    rintro b n (hn | hn)
    · exact Or.inl hn
    · exact Or.inr (List.dropLast_subset _ hn)
  · exact ⟨hal, fun hp => absurd rfl hp⟩
  · exact hblock (fun _ _ hn => hn)
      (Core.newBlock_aligned hpos (Nat.le_of_lt hlt) (Prod.ext hbase rfl)) hnew

theorem Backed.subAlloc_inside (B : Backed sp cfg m) (hal : Aligned m.heap) {size p : Nat}
    {ans : AllocAnswers}
    (hpos : realSize cfg size < subAllocatorBlockSize → 0 < realSize cfg size)
    (hsub : m.subAlloc cfg size ans = .ok (p, m')) :
    Aligned m'.heap ∧ (p ≠ 0 → 0 < realSize cfg size ∧ granule (realSize cfg size) ∣ p ∧
      ∃ b n, m'.heap.lengths b = some n ∧ b ≤ p ∧
        p + realSize cfg size ≤ b + subAllocatorBlockSize) := by
  rw [subAlloc] at hsub
  split at hsub
  next hlt =>
    split at hsub
    next => cases hsub
    next => cases hsub
    next p' h' c halloc =>
      cases hsub
      obtain ⟨hal', hinside⟩ := B.alloc_inside hal (hpos hlt) hlt halloc
      exact ⟨hal', fun hp => ⟨hpos hlt, hinside hp⟩⟩
  next =>
    cases hsub
    exact ⟨hal, fun hp => absurd rfl hp⟩

theorem trim_holds (htrim : m.trim cfg = .ok m') (b n : Nat) (hn : m'.heap.Holds b n) :
    m.heap.Holds b n := by
  rw [trim] at htrim
  cases hr : (SimpleHeap.trim (blockAllocator cfg true {}) m.heap (.ok m.core)).2 with
  | error f =>
      rw [hr] at htrim
      cases htrim
  | ok core =>
      rw [hr] at htrim
      cases htrim
      rcases hn with hn | hn
      · exact Or.inl hn
      · cases hn

theorem createOrTrim_holds {dev : SharedDevice} {info : GpuMemoryCreateInfo} {ans : AllocAnswers}
    {r : Status × Nat × Memory} (hrun : m.createOrTrim cfg dev info ans = .ok r) (b n : Nat)
    (hn : r.2.2.heap.Holds b n) : m.heap.Holds b n := by
  rw [createOrTrim] at hrun
  obtain ⟨⟨code, addr, c⟩, _, hrun⟩ := ok_of_bind hrun
  simp only at hrun
  split at hrun
  next =>
    cases hrun
    exact hn
  next =>
    obtain ⟨m₁, htrim, hrun⟩ := ok_of_bind hrun
    obtain ⟨⟨code', addr', c'⟩, _, hrun⟩ := ok_of_bind hrun
    refine trim_holds htrim b n ?_
    simp only at hrun
    split at hrun
    next =>
      cases hrun
      exact hn
    next =>
      cases hrun
      exact hn

/-- The blocks after an allocation. -/
theorem Backed.allocMemoryAlign_aligned (B : Backed sp cfg m) (hal : Aligned m.heap)
    {args : AllocArgs} {ans : AllocAnswers} (hreg : AllocRegular cfg m args ans)
    {r : Status × Nat × Memory} (hrun : m.allocMemoryAlign cfg args ans = .ok r) :
    Aligned r.2.2.heap := by
  rw [allocMemoryAlign] at hrun
  split at hrun
  next =>
    cases hrun
    exact hal
  next =>
    cases hinfo : allocInfo cfg args ans.ram with
    | error status =>
        rw [hinfo] at hrun
        cases hrun
        exact hal
    | ok i =>
        obtain ⟨dev, info, vmm⟩ := i
        rw [hinfo] at hrun
        simp only at hrun
        split at hrun
        next hsub =>
          have hreg' := hreg (dev, info, vmm) (by rw [hinfo]; rfl)
          rw [if_pos (by simpa [subAllocates, and_assoc] using hsub)] at hreg'
          obtain ⟨⟨p, m₁⟩, hserved, hrun⟩ := ok_of_bind hrun
          rw [allocInfo_size hinfo] at hserved
          have hal₁ := (B.subAlloc_inside hal hreg'.1 hserved).1
          simp only at hrun
          split at hrun
          next =>
            cases hrun
            exact hal₁
          next => exact hal₁.of_subset (createOrTrim_holds hrun)
        next =>
          obtain ⟨⟨code, addr, c⟩, _, hrun⟩ := ok_of_bind hrun
          simp only at hrun
          split at hrun
          next =>
            cases hrun
            exact hal
          next =>
            cases hrun
            exact hal

/-! ## The request and what it got -/

/-- The range lies in the memory of an object. -/
def Within (m : Memory) (p n : Nat) (mem : GpuMemory) : Prop :=
  ∃ b h, m.core.object b = some (h, mem) ∧ b ≤ p ∧ p < b + mem.size ∧ p + n ≤ b + mem.size

/-- The local heap has room at the address that is asked for. -/
def Available (m : Memory) (dev : SharedDevice) (info : GpuMemoryCreateInfo) : Prop :=
  (m.core.heaps.localHeapMgr.alloc (adjustSize dev .kLocal info.size)
    (Heaps.reserveAlign (adjustSize dev .kLocal info.size) info.alignment) info.vaHint).map
      Prod.fst = some info.vaHint

instance (m : Memory) (dev : SharedDevice) (info : GpuMemoryCreateInfo) :
    Decidable (Available m dev info) :=
  inferInstanceAs (Decidable (_ = _))

/-- What the flags of a request say about coherence and caching. -/
def requestedFlags (flags : HsaMemFlags) : MemFlags where
  kFineGrain := !flags.coarseGrain
  kKernarg := flags.uncached

/-- The memory at `p` is on the device. -/
def OnDevice (m : Memory) (args : AllocArgs) (dev : SharedDevice) (p : Nat) : Prop :=
  ∃ mem, m.Within p args.sizeInBytes mem ∧ mem.adapterLuid = dev.luid

/-- The memory at `p` has the attributes of the request. -/
def HasAttributes (m : Memory) (args : AllocArgs) (p : Nat) : Prop :=
  ∃ mem, m.Within p args.sizeInBytes mem ∧ mem.memFlags = requestedFlags args.memFlags

/-- Memory at `p` is what the request was for, when it left `m` for `m'`. -/
structure AsAsked (m : Memory) (args : AllocArgs) (dev : SharedDevice) (info : GpuMemoryCreateInfo)
    (p : Nat) (m' : Memory) : Prop where
  device : m'.OnDevice args dev p
  attributes : m'.HasAttributes args p
  alignment : args.alignment ≠ 0 → args.alignment ∣ p
  hint : args.memFlags.fixedAddress = true → m.Available dev info → p = args.memoryAddress

/-- The device is that of the first node. -/
def FirstDevice (cfg : Config) (dev : SharedDevice) : Prop :=
  ∃ dev₁, cfg.getWddmdev 1 = some dev₁ ∧ dev₁.luid = dev.luid

/-- The memory is to be coarse grained and cached. -/
def PlainFlags (flags : HsaMemFlags) : Prop := flags.coarseGrain = true ∧ flags.uncached = false

/-- The request asks for what every block is. -/
structure Plain (cfg : Config) (m : Memory) (args : AllocArgs) (dev : SharedDevice)
    (info : GpuMemoryCreateInfo) : Prop where
  device : FirstDevice cfg dev
  flags : PlainFlags args.memFlags
  alignment : args.alignment ≠ 0 → args.alignment ∣ granule (realSize cfg args.sizeInBytes)
  hint : args.memFlags.fixedAddress = true → ¬ m.Available dev info

/-- An address lies in one object. -/
theorem Backed.within_unique (B : Backed sp cfg m) {p n : Nat} {mem mem' : GpuMemory}
    (h : m.Within p n mem) (h' : m.Within p n mem') : mem = mem' := by
  obtain ⟨b, i, ho, hlo, hhi, _⟩ := h
  obtain ⟨b', i', ho', hlo', hhi', _⟩ := h'
  by_cases heq : b = b'
  · subst heq
    rw [ho] at ho'
    cases ho'
    rfl
  · have := B.settled.apart ho ho' heq
    omega

/-- A request that is served lies in a block. -/
theorem Backed.served_within (B : Backed sp cfg m) (hal : Aligned m.heap) {args : AllocArgs}
    {ans : AllocAnswers} {p : Nat}
    (hpos : realSize cfg args.sizeInBytes < subAllocatorBlockSize →
      0 < realSize cfg args.sizeInBytes)
    (hword : args.sizeInBytes < 2 ^ 64)
    (hserved : m.subAlloc cfg args.sizeInBytes ans = .ok (p, m')) (hp : p ≠ 0) :
    ∃ mem, m'.Within p args.sizeInBytes mem ∧ Core.IsBlock cfg mem := by
  have B' : Backed sp cfg m' := by
    rcases B.subAlloc_cases hpos hserved with ⟨hzero, _⟩ | ⟨_, G⟩
    · exact absurd hzero hp
    · exact G.backed
  obtain ⟨hreal, _, b, n, hlen, hlo, hhi⟩ := (B.subAlloc_inside hal hpos hserved).2 hp
  obtain ⟨_, h, mem, ho, hb⟩ := B'.block (Or.inl hlen)
  have hsize := hb.size
  have hle : args.sizeInBytes ≤ realSize cfg args.sizeInBytes := by
    rw [realSize] at hreal ⊢
    split at hreal
    next hhuge =>
      rw [if_pos hhuge]
      exact le_alignUp_of_pos hword hreal
    next hhuge =>
      rw [if_neg hhuge]
      exact le_alignUp_of_pos hword hreal
  exact ⟨mem, ⟨b, h, ho, hlo, by omega, by omega⟩, hb⟩

end Memory

/-! ## Runs -/

namespace SubAllocated

open Memory (Backed AllocRegular Allocates AsAsked Plain FirstDevice PlainFlags subAllocates
  requestedFlags)
open SimpleHeap (Aligned)

/-- A call of the client. -/
inductive Call where
  | allocMemoryAlign (args : AllocArgs) (ans : AllocAnswers)
  | freeMemory (addr : Nat)

/-- The memory after a call that returns. -/
def step (cfg : Config) (m : Memory) : Call → Option Memory
  | .allocMemoryAlign args ans =>
      (m.allocMemoryAlign cfg args ans).toOption.map fun r => r.2.2
  | .freeMemory p => (m.freeMemory cfg p).toOption.map fun r => r.2

/-- The calls that reach none of the defects of the address managers, and delete no block. -/
def Regular (cfg : Config) (m : Memory) : Call → Prop
  | .allocMemoryAlign args ans => m.AllocAdds cfg args ans ∧ m.AllocRegular cfg args ans
  | .freeMemory p => Client.FreeRegular m p

instance (cfg : Config) (m : Memory) : (e : Call) → Decidable (Regular cfg m e)
  | .allocMemoryAlign .. => inferInstanceAs (Decidable (_ ∧ _))
  | .freeMemory _ => inferInstanceAs (Decidable (Client.FreeRegular ..))

/-- The blocks are objects that begin at a multiple of 2 MiB. -/
structure Inv (sp : AddressSpace) (cfg : Config) (m : Memory) : Prop where
  backed : Backed sp cfg m
  isOpen : m.core.isOpen = true
  aligned : Aligned m.heap

variable {sp : AddressSpace} {cfg : Config} {m m' : Memory}

theorem inv_new (sp : AddressSpace) (cfg : Config) (pid : Nat) : Inv sp cfg (.new sp pid) := by
  have I := Client.inv_new sp cfg pid
  refine ⟨I.backed, I.isOpen, ?_⟩
  rintro b n (hb | hb)
  · cases hb
  · cases hb

theorem step_inv (I : Inv sp cfg m) {e : Call} (hreg : Regular cfg m e)
    (h : step cfg m e = some m') : Inv sp cfg m' := by
  cases e with
  | allocMemoryAlign args ans =>
      obtain ⟨r, hr, rfl⟩ := Option.map_eq_some_iff.mp h
      cases hrun : m.allocMemoryAlign cfg args ans with
      | error f =>
          rw [hrun] at hr
          cases hr
      | ok r' =>
          rw [hrun] at hr
          cases hr
          have A := I.backed.allocMemoryAlign_allocates I.isOpen hreg.1 hreg.2 hrun
          have hal := I.backed.allocMemoryAlign_aligned I.aligned hreg.2 hrun
          rw [Allocates] at A
          split at A
          next => exact ⟨A.backed, A.isOpen.trans I.isOpen, hal⟩
          next => exact ⟨A.backed, A.isOpen.trans I.isOpen, hal⟩
  | freeMemory p =>
      obtain ⟨r, hr, rfl⟩ := Option.map_eq_some_iff.mp h
      cases hrun : m.freeMemory cfg p with
      | error f =>
          rw [hrun] at hr
          cases hr
      | ok r' =>
          rw [hrun] at hr
          cases hr
          rcases Client.freeMemory_cases I.backed I.isOpen hreg with
            ⟨m₁, hfree, _, T, _⟩ | ⟨status, _, hfree, _⟩
          · rw [hfree] at hrun
            cases hrun
            exact ⟨T.backed, T.isOpen.trans I.isOpen,
              I.aligned.of_subset fun b n hn => (T.kept b n hn).1⟩
          · rw [hfree] at hrun
            cases hrun
            exact I

/-- In every run of regular calls: memory of the sub-allocator is on the device of the
request if and only if that is the device of the first node, it has the attributes of the
request if and only if these are coarse grained and cached, and a plain request gets all it
asks for. -/
theorem served_as_asked {pid : Nat} (h : Reach (step cfg) (Regular cfg) (.new sp pid) m)
    {args : AllocArgs} {ans : AllocAnswers} {dev : SharedDevice} {info : GpuMemoryCreateInfo}
    {vmm : Bool} {p : Nat} (hreg : Regular cfg m (.allocMemoryAlign args ans))
    (hword : args.sizeInBytes < 2 ^ 64)
    (hinfo : allocInfo cfg args ans.ram = .ok (dev, info, vmm))
    (hsub : subAllocates cfg info vmm = true)
    (hserved : m.subAlloc cfg info.size ans = .ok (p, m')) (hp : p ≠ 0) :
    (m'.OnDevice args dev p ↔ FirstDevice cfg dev) ∧
      (m'.HasAttributes args p ↔ PlainFlags args.memFlags) ∧
      (Plain cfg m args dev info → AsAsked m args dev info p m') := by
  have I : Inv sp cfg m := by
    refine h.invariant (inv_new sp cfg pid) ?_
    intro m e m' hm hok hstep
    exact step_inv hm hok hstep
  have hfits := hreg.2 (dev, info, vmm) (by rw [hinfo]; rfl)
  rw [if_pos hsub] at hfits
  rw [Memory.allocInfo_size hinfo] at hserved
  have B' : Backed sp cfg m' := by
    rcases I.backed.subAlloc_cases hfits.1 hserved with ⟨hzero, _⟩ | ⟨_, G⟩
    · exact absurd hzero hp
    · exact G.backed
  obtain ⟨mem, hwithin, hb⟩ := I.backed.served_within I.aligned hfits.1 hword hserved hp
  have hdevice : m'.OnDevice args dev p ↔ FirstDevice cfg dev := by
    obtain ⟨dev₁, hdev₁, hluid⟩ := hb.device
    constructor
    · rintro ⟨mem', hwithin', hluid'⟩
      rw [B'.within_unique hwithin' hwithin, hluid] at hluid'
      exact ⟨dev₁, hdev₁, hluid'⟩
    · rintro ⟨dev₂, hdev₂, hluid₂⟩
      rw [hdev₁] at hdev₂
      cases hdev₂
      exact ⟨mem, hwithin, hluid.trans hluid₂⟩
  have hattributes : m'.HasAttributes args p ↔ PlainFlags args.memFlags := by
    have hplain : requestedFlags args.memFlags = {} ↔ PlainFlags args.memFlags := by
      simp [requestedFlags, PlainFlags]
    rw [← hplain]
    constructor
    · rintro ⟨mem', hwithin', hflags⟩
      rw [B'.within_unique hwithin' hwithin, hb.memFlags] at hflags
      exact hflags.symm
    · intro hflags
      exact ⟨mem, hwithin, hb.memFlags.trans hflags.symm⟩
  refine ⟨hdevice, hattributes, fun hplain => ⟨hdevice.mpr hplain.device,
    hattributes.mpr hplain.flags, ?_, ?_⟩⟩
  · intro hne
    obtain ⟨_, hgranule, _⟩ := (I.backed.subAlloc_inside I.aligned hfits.1 hserved).2 hp
    exact Nat.dvd_trans (hplain.alignment hne) hgranule
  · intro hfixed havailable
    exact absurd havailable (hplain.hint hfixed)

/-- A request for a page of the first node. -/
def page (alignment : Nat) : AllocArgs where
  preferredNode := 1
  sizeInBytes := 4096
  alignment := alignment
  memFlags := { coarseGrain := true }

/-- A plain page is as asked. -/
theorem served_as_asked_page :
    ∃ dev info vmm p m', allocInfo Client.subConfig (page 4096) true = .ok (dev, info, vmm) ∧
      (Memory.new smallSpace 1).subAlloc Client.subConfig info.size {} = .ok (p, m') ∧
      AsAsked (.new smallSpace 1) (page 4096) dev info p m' := by
  have hserved : ((allocInfo Client.subConfig (page 4096) true).toOption.bind fun r =>
      ((Memory.new smallSpace 1).subAlloc Client.subConfig r.2.1.size {}).toOption.map fun s =>
        (subAllocates Client.subConfig r.2.1 r.2.2, r.1.luid, s.1)) =
      some (true, 0, 2 ^ 28) := by
    decide
  obtain ⟨⟨dev, info, vmm⟩, hinfo, hserved⟩ := Option.bind_eq_some_iff.mp hserved
  obtain ⟨⟨p, m'⟩, hsubAlloc, heq⟩ := Option.map_eq_some_iff.mp hserved
  simp only [Prod.mk.injEq] at heq
  obtain ⟨hsub, hluid, hp⟩ := heq
  have hinfo := eq_ok_of_toOption hinfo
  have hsubAlloc := eq_ok_of_toOption hsubAlloc
  refine ⟨dev, info, vmm, p, m', hinfo, hsubAlloc, ?_⟩
  have hreg : Regular Client.subConfig (.new smallSpace 1) (.allocMemoryAlign (page 4096) {}) := by
    decide
  refine (served_as_asked .start hreg (by decide) hinfo hsub hsubAlloc
    (by rw [hp]; decide)).2.2 ⟨⟨⟨false, 0, 0, 0, 0⟩, rfl, hluid.symm⟩, ⟨rfl, rfl⟩, ?_, nofun⟩
  intro _
  decide

/-- The second page of a block is not at a multiple of 8 KiB. -/
theorem served_misaligned :
    ¬ ∀ m, Reach (step Client.subConfig) (Regular Client.subConfig) (.new smallSpace 1) m →
      ∀ args ans dev info vmm p m', allocInfo Client.subConfig args ans.ram = .ok (dev, info, vmm) →
        subAllocates Client.subConfig info vmm = true →
        m.subAlloc Client.subConfig info.size ans = .ok (p, m') → p ≠ 0 →
        AsAsked m args dev info p m' := by
  intro hall
  have hrun : (runAll (step Client.subConfig) (Regular Client.subConfig) (.new smallSpace 1)
      [.allocMemoryAlign (page 0) {}]).bind (fun m =>
        (allocInfo Client.subConfig (page 8192) true).toOption.bind fun r =>
          (m.subAlloc Client.subConfig r.2.1.size {}).toOption.map fun s =>
            (subAllocates Client.subConfig r.2.1 r.2.2, s.1)) =
      some (true, 2 ^ 28 + 4096) := by
    decide
  obtain ⟨m, hm, hrun⟩ := Option.bind_eq_some_iff.mp hrun
  obtain ⟨⟨dev, info, vmm⟩, hinfo, hrun⟩ := Option.bind_eq_some_iff.mp hrun
  obtain ⟨⟨p, m'⟩, hsubAlloc, heq⟩ := Option.map_eq_some_iff.mp hrun
  simp only [Prod.mk.injEq] at heq
  obtain ⟨hsub, rfl⟩ := heq
  have hasked := hall m (reach_of_runAll hm) (page 8192) {} dev info vmm _ m'
    (eq_ok_of_toOption hinfo) hsub (eq_ok_of_toOption hsubAlloc) (by decide)
  exact absurd (hasked.alignment (by decide)) (by decide)

end SubAllocated

end RocDxg
