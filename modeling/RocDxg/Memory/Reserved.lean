import RocDxg.Memory.GpuMemory
import RocDxg.VaMgr.Partition

/-!
# Reserved addresses

The three managers of the runtime keep disjoint ranges, so what they have handed out is
one partial function from addresses to sizes.  To create an object adds one address to
it, its `home`, and to destroy it takes the address away again; an object that could
not be created leaves the function as it was.
-/

namespace RocDxg

open VaMgr (Managed Partition Takes TakesAtBase)

/-- An interval of addresses. -/
structure Range where
  start : Nat
  size : Nat

/-- The addresses of the interval. -/
def Range.Mem (r : Range) (a : Nat) : Prop := r.start ≤ a ∧ a < r.start + r.size

/-- The managers of the runtime. -/
inductive Heap where
  | localHeap
  | systemHeap
  | handleAperture
deriving DecidableEq

/-- The ranges that the runtime reserves when it starts. -/
structure AddressSpace where
  range : Heap → Range
  managed : ∀ k, Managed (range k).start (range k).size
  apart : ∀ {k k' a}, (range k).Mem a → (range k').Mem a → k = k'

namespace Heaps

/-- The manager of a heap. -/
def mgr (hs : Heaps) : Heap → VaMgr
  | .localHeap => hs.localHeapMgr
  | .systemHeap => hs.systemHeapMgr
  | .handleAperture => hs.handleApertureMgr

/-- Replace the manager of a heap. -/
def setMgr (hs : Heaps) (m : VaMgr) : Heap → Heaps
  | .localHeap => { hs with localHeapMgr := m }
  | .systemHeap => { hs with systemHeapMgr := m }
  | .handleAperture => { hs with handleApertureMgr := m }

theorem mgr_setMgr (hs : Heaps) (m : VaMgr) (k k' : Heap) :
    (hs.setMgr m k).mgr k' = if k' = k then m else hs.mgr k' := by
  cases k <;> cases k' <;> rfl

/-- The addresses that are handed out, with their sizes. -/
def reserved (hs : Heaps) (a : Nat) : Option Nat :=
  ((hs.mgr .localHeap).used a).or
    (((hs.mgr .systemHeap).used a).or ((hs.mgr .handleAperture).used a))

/-- The sums of an `Alloc` of one of the managers do not wrap around. -/
def Addable (bytes align : Nat) : Prop :=
  align + defaultGpuPageSize ≤ 2 ^ 64 ∧
    (bytes < 2 ^ 63 → bytes + alignUp 64 align defaultGpuPageSize < 2 ^ 64)

instance (bytes align : Nat) : Decidable (Addable bytes align) :=
  inferInstanceAs (Decidable (_ ∧ _))

theorem addable_of_le {bytes align : Nat} (h : align ≤ 2 ^ 32) : Addable bytes align := by
  have hpage : defaultGpuPageSize = 2 ^ 12 := rfl
  have hup : alignUp 64 align defaultGpuPageSize ≤ align + defaultGpuPageSize - 1 := by
    rw [alignUp_of_lt (by omega)]
    exact Nat.div_mul_le_self ..
  exact ⟨by omega, fun _ => by omega⟩

/-- Every manager partitions its range. -/
structure Sound (sp : AddressSpace) (hs : Heaps) : Prop where
  partition : ∀ k, Partition (sp.range k).start (sp.range k).size (hs.mgr k)
  minAlign : ∀ k, (hs.mgr k).minAlign = defaultGpuPageSize

variable {sp : AddressSpace} {hs : Heaps}

namespace Sound

theorem mem_of_used (S : Sound sp hs) {k : Heap} {a n : Nat} (h : (hs.mgr k).used a = some n) :
    (sp.range k).Mem a := by
  have hbounds := (S.partition k).used_bounds h
  refine ⟨hbounds.1, ?_⟩
  omega

theorem used_eq_none (S : Sound sp hs) {k k' : Heap} {a : Nat} (ha : (sp.range k).Mem a)
    (hne : k' ≠ k) : (hs.mgr k').used a = none := by
  cases h : (hs.mgr k').used a with
  | none => rfl
  | some n => exact absurd (sp.apart (S.mem_of_used h) ha) hne

/-- In the range of a heap, its manager decides. -/
theorem reserved_eq (S : Sound sp hs) {k : Heap} {a : Nat} (ha : (sp.range k).Mem a) :
    hs.reserved a = (hs.mgr k).used a := by
  have hnone : ∀ k', k' ≠ k → (hs.mgr k').used a = none := fun k' => S.used_eq_none ha
  cases k with
  | localHeap =>
      rw [reserved, hnone .systemHeap nofun, hnone .handleAperture nofun]
      exact Option.or_none
  | systemHeap =>
      rw [reserved, hnone .localHeap nofun, hnone .handleAperture nofun, Option.or_none]
      exact Option.none_or
  | handleAperture =>
      rw [reserved, hnone .localHeap nofun, hnone .systemHeap nofun]
      exact Option.none_or

theorem reserved_eq_some (S : Sound sp hs) {a n : Nat} :
    hs.reserved a = some n ↔ ∃ k, (hs.mgr k).used a = some n := by
  constructor
  · intro h
    rw [reserved, Option.or_eq_some_iff, Option.or_eq_some_iff] at h
    rcases h with h | ⟨_, h | ⟨_, h⟩⟩
    · exact ⟨_, h⟩
    · exact ⟨_, h⟩
    · exact ⟨_, h⟩
  · rintro ⟨k, h⟩
    rw [S.reserved_eq (S.mem_of_used h), h]

/-- A range that is handed out lies in the address space. -/
theorem reserved_bounds (S : Sound sp hs) {a n : Nat} (h : hs.reserved a = some n) :
    0 < a ∧ 0 < n ∧ a + n < 2 ^ 63 := by
  obtain ⟨k, hk⟩ := S.reserved_eq_some.mp h
  have hbounds := (S.partition k).used_bounds hk
  have hstart := (sp.managed k).start_pos
  have hend := (sp.managed k).end_lt
  omega

/-- Two ranges that are handed out have no address in common. -/
theorem reserved_apart (S : Sound sp hs) {a b n m : Nat} (ha : hs.reserved a = some n)
    (hb : hs.reserved b = some m) (hne : a ≠ b) : a + n ≤ b ∨ b + m ≤ a := by
  obtain ⟨k, hk⟩ := S.reserved_eq_some.mp ha
  obtain ⟨k', hk'⟩ := S.reserved_eq_some.mp hb
  by_cases heq : k = k'
  · subst heq
    exact (S.partition k).used_apart hk hk' hne
  · have hbounds := (S.partition k).used_bounds hk
    have hbounds' := (S.partition k').used_bounds hk'
    rcases Nat.lt_or_ge a (b + m) with hlt | hge
    · left
      rcases Nat.lt_or_ge b (a + n) with hlt' | hge'
      · -- the larger of the two addresses lies in both ranges
        have hmem : (sp.range k).Mem (max a b) := ⟨by omega, by omega⟩
        have hmem' : (sp.range k').Mem (max a b) := ⟨by omega, by omega⟩
        exact absurd (sp.apart hmem hmem') heq
      · exact hge'
    · exact Or.inr hge

/-- One manager has changed at one address of its range. -/
theorem set (S : Sound sp hs) {k : Heap} {m' : VaMgr} {p : Nat} {x : Option Nat}
    (P : Partition (sp.range k).start (sp.range k).size m')
    (hmin : m'.minAlign = (hs.mgr k).minAlign)
    (hused : m'.used = Function.update (hs.mgr k).used p x) (hp : (sp.range k).Mem p) :
    Sound sp (hs.setMgr m' k) ∧ (hs.setMgr m' k).reserved = Function.update hs.reserved p x := by
  have S' : Sound sp (hs.setMgr m' k) := by
    refine ⟨fun k' => ?_, fun k' => ?_⟩
    · rw [mgr_setMgr]
      split
      next heq => exact heq ▸ P
      next => exact S.partition k'
    · rw [mgr_setMgr]
      split
      next => rw [hmin, S.minAlign]
      next => exact S.minAlign k'
  refine ⟨S', ?_⟩
  funext a
  by_cases ha : a = p
  · rw [ha, S'.reserved_eq hp, mgr_setMgr, if_pos rfl, hused, Function.update_self,
      Function.update_self]
  · rw [Function.update_of_ne ha, reserved, reserved]
    have hsame : ∀ k', ((hs.setMgr m' k).mgr k').used a = (hs.mgr k').used a := by
      intro k'
      rw [mgr_setMgr]
      split
      next heq => rw [hused, Function.update_of_ne ha, heq]
      next => rfl
    rw [hsame, hsame, hsame]

theorem noWrap (S : Sound sp hs) (k : Heap) {bytes align : Nat} (hpos : 0 < bytes)
    (hadd : Addable bytes align) : VaMgr.NoWrap (hs.mgr k) bytes align := by
  have hmin := S.minAlign k
  refine ⟨hpos, ?_, ?_⟩
  · have hsum := hadd.1
    have hpage : 0 < defaultGpuPageSize := by decide
    omega
  · rw [hmin]
    exact hadd.2

/-- An `Alloc` of one of the managers. -/
theorem alloc (S : Sound sp hs) {k : Heap} {bytes align hint p : Nat} {m : VaMgr}
    (hpos : 0 < bytes) (hadd : Addable bytes align)
    (hbase : TakesAtBase (hs.mgr k) bytes align hint)
    (h : (hs.mgr k).alloc bytes align hint = some (p, m)) :
    (p = 0 ∧ m = hs.mgr k) ∨
      (p ≠ 0 ∧ (sp.range k).Mem p ∧ Sound sp (hs.setMgr m k) ∧ hs.reserved p = none ∧
        (hs.setMgr m k).reserved = Function.update hs.reserved p (some bytes)) := by
  refine (VaMgr.alloc_returns (S.partition k) (S.noWrap k hpos hadd) hbase h).imp_right
    fun T => ?_
  have hused : m.used p = some bytes := by
    rw [T.used, Function.update_self]
  have hbounds := T.partition.used_bounds hused
  have hmem : (sp.range k).Mem p := ⟨hbounds.1, by omega⟩
  obtain ⟨S', hreserved⟩ := S.set T.partition T.minAlign T.used hmem
  exact ⟨Nat.ne_of_gt T.pos, hmem, S', by rw [S.reserved_eq hmem, T.fresh], hreserved⟩

/-- A `Free` of one of the managers. -/
theorem free (S : Sound sp hs) {k : Heap} {p : Nat} (hp : (sp.range k).Mem p) :
    Sound sp (hs.setMgr ((hs.mgr k).free p) k) ∧
      (hs.setMgr ((hs.mgr k).free p) k).reserved = Function.update hs.reserved p none := by
  obtain ⟨P, hused⟩ := VaMgr.free_spec (S.partition k) p
  exact S.set P (VaMgr.minAlign_free ..) hused hp

/-- A range that is given back at once was never handed out. -/
theorem alloc_free (S : Sound sp hs) {k : Heap} {bytes align hint p : Nat} {m : VaMgr}
    (hpos : 0 < bytes) (hadd : Addable bytes align)
    (hbase : TakesAtBase (hs.mgr k) bytes align hint)
    (h : (hs.mgr k).alloc bytes align hint = some (p, m)) :
    Sound sp (hs.setMgr (m.free p) k) ∧ (hs.setMgr (m.free p) k).reserved = hs.reserved := by
  rcases S.alloc hpos hadd hbase h with ⟨rfl, rfl⟩ | ⟨_, hmem, S', hfresh, hreserved⟩
  · have heq : hs.setMgr ((hs.mgr k).free 0) k = hs := by
      rw [VaMgr.free, if_pos rfl]
      cases k <;> rfl
    rw [heq]
    exact ⟨S, rfl⟩
  · obtain ⟨S'', hreserved'⟩ := S'.free hmem
    have heq : (hs.setMgr m k).setMgr (((hs.setMgr m k).mgr k).free p) k =
        hs.setMgr (m.free p) k := by
      cases k <;> rfl
    rw [heq] at S'' hreserved'
    refine ⟨S'', ?_⟩
    rw [hreserved', hreserved, Function.update_idem]
    exact Function.update_eq_self_iff.mpr hfresh.symm

end Sound

end Heaps

/-! ## Objects -/

namespace GpuMemory

open Heaps (Sound reserveAlign)

theorem bigPageAlignment_lt (dev : SharedDevice) (size : Nat) :
    bigPageAlignment dev size < 2 ^ 32 := by
  have hbig := dev.bigPageAlignmentSize.toNat_lt
  have hmin := dev.hwBigPageMinAlignmentSize.toNat_lt
  have hmax := dev.hwBigPageAlignmentSize.toNat_lt
  simp only [bigPageAlignment]
  split
  · split <;> omega
  · exact hbig

/-- `AdjustSize` rounds up, or leaves the size as it is. -/
theorem adjustSize_cases (dev : SharedDevice) (domain : AllocDomain) (size : Nat) :
    adjustSize dev domain size = size ∨
      ∃ n, 0 < n ∧ n < 2 ^ 32 ∧ adjustSize dev domain size = alignUp 64 size n := by
  rw [adjustSize]
  split
  next =>
    split
    next hpos => exact Or.inr ⟨_, hpos, bigPageAlignment_lt dev size, rfl⟩
    next => exact Or.inl rfl
  next => exact Or.inr ⟨4096, by omega, by omega, rfl⟩

theorem adjustSize_zero (dev : SharedDevice) (domain : AllocDomain) :
    adjustSize dev domain 0 = 0 := by
  rcases adjustSize_cases dev domain 0 with h | ⟨n, hpos, hlt, h⟩
  · exact h
  · rw [h, alignUp_of_lt (by omega), Nat.div_eq_of_lt (by omega), Nat.zero_mul]

theorem le_adjustSize (dev : SharedDevice) (domain : AllocDomain) {size : Nat}
    (h : size < 2 ^ 63) : size ≤ adjustSize dev domain size := by
  rcases adjustSize_cases dev domain size with heq | ⟨n, hpos, hlt, heq⟩
  · exact Nat.le_of_eq heq.symm
  · rw [heq]
    exact le_alignUp hpos (by omega)

/-- The heap that the range of an object is in. -/
def heap (mem : GpuMemory) : Heap :=
  if mem.domain = .kSystem then .systemHeap else .localHeap

/-- The address that an object is known by. -/
def home (mem : GpuMemory) : Nat := if mem.gpuAddr ≠ 0 then mem.gpuAddr else mem.handleApeAddr

/-- The object has one range, in the heap that gets it back. -/
inductive Housed (sp : AddressSpace) (mem : GpuMemory) : Prop
  | address (hva : mem.gpuAddr ≠ 0) (hape : mem.handleApeAddr = 0)
      (hfd : mem.memFd = true → mem.domain = .kSystem) (hmem : (sp.range mem.heap).Mem mem.gpuAddr)
  | handle (hva : mem.gpuAddr = 0) (hfd : mem.memFd = false)
      (hmem : (sp.range .handleAperture).Mem mem.handleApeAddr)

/-- The object has no range. -/
structure Homeless (mem : GpuMemory) : Prop where
  gpuAddr : mem.gpuAddr = 0
  handleApeAddr : mem.handleApeAddr = 0

/-- The request of an object for a range has a size, and is not served from the inside
of a fragment. -/
def Fits (mem : GpuMemory) (hs : Heaps) (hint alignment : Nat) : Prop :=
  0 < mem.size ∧ (mem.isFile = true ∨
    TakesAtBase (hs.mgr mem.heap) mem.size (reserveAlign mem.size alignment) hint)

instance (mem : GpuMemory) (hs : Heaps) (hint alignment : Nat) :
    Decidable (mem.Fits hs hint alignment) :=
  inferInstanceAs (Decidable (_ ∧ _))

/-- The alignment that an address manager is asked for on behalf of an object. -/
def askedAlign (mem : GpuMemory) (alignment : Nat) : Nat :=
  if mem.flags.isPhysicalOnly then
    if mem.size ≥ gpuHugePageSize then gpuHugePageSize else defaultGpuPageSize
  else if mem.isFile then mem.alignment
  else reserveAlign mem.size alignment

/-- The sums of an address manager that serves the object do not wrap around. -/
def Addable (mem : GpuMemory) (alignment : Nat) : Prop :=
  Heaps.Addable mem.size (mem.askedAlign alignment)

instance (mem : GpuMemory) (alignment : Nat) : Decidable (mem.Addable alignment) :=
  inferInstanceAs (Decidable (Heaps.Addable ..))

/-- The effect on the runtime of an object that was created. -/
structure Creates (sp : AddressSpace) (hs : Heaps) (mem : GpuMemory) (hs' : Heaps) : Prop where
  sound : Sound sp hs'
  housed : mem.Housed sp
  fresh : hs.reserved mem.home = none
  reserved : hs'.reserved = Function.update hs.reserved mem.home (some mem.size)

variable {sp : AddressSpace} {hs hs' : Heaps} {mem mem' : GpuMemory}

theorem Homeless.destroy (h : mem.Homeless) (hs : Heaps) : mem.destroy hs = hs := by
  have hfree : (mem.freeGpuVirtualAddress hs true).2 = hs := by
    rw [freeGpuVirtualAddress, h.gpuAddr]
    split
    next => rw [Heaps.freeIPCSysMem, VaMgr.free, if_pos rfl]
    next => rw [if_neg (by simp)]
  rw [GpuMemory.destroy, hfree, h.handleApeAddr, if_neg (Nat.lt_irrefl 0)]

/-- The range of an object is given back, also when it was before. -/
theorem freeGpuVirtualAddress_spec (S : Sound sp hs) (hva : mem.gpuAddr ≠ 0)
    (hfd : mem.memFd = true → mem.domain = .kSystem)
    (hmem : (sp.range mem.heap).Mem mem.gpuAddr) (decommit : Bool) :
    Sound sp (mem.freeGpuVirtualAddress hs decommit).2 ∧
      (mem.freeGpuVirtualAddress hs decommit).2.reserved =
        Function.update hs.reserved mem.gpuAddr none := by
  have hfree := S.free hmem
  rw [freeGpuVirtualAddress]
  rw [heap] at hfree
  split
  next hfile =>
    rw [if_pos (hfd hfile)] at hfree
    exact hfree
  next =>
    rw [Heaps.freeGpuVirtualAddress]
    split
    next hdom =>
      rw [if_pos hdom] at hfree
      exact hfree
    next hdom =>
      rw [if_neg hdom] at hfree
      exact hfree

/-- The destructor takes the address of the object away. -/
theorem destroy_spec (S : Sound sp hs) (h : mem.Housed sp) :
    Sound sp (mem.destroy hs) ∧
      (mem.destroy hs).reserved = Function.update hs.reserved mem.home none := by
  cases h with
  | address hva hape hfd hmem =>
      rw [destroy, hape, if_neg (Nat.lt_irrefl 0), home, if_pos hva]
      exact freeGpuVirtualAddress_spec S hva hfd hmem true
  | handle hva hfd hmem =>
      have hpos : mem.handleApeAddr > 0 :=
        Nat.lt_of_lt_of_le (sp.managed .handleAperture).start_pos hmem.1
      have hsame : (mem.freeGpuVirtualAddress hs true).2 = hs := by
        rw [freeGpuVirtualAddress, hfd, if_neg (by simp), if_neg (not_not_intro hva)]
      rw [destroy, hsame, if_pos hpos, home, if_neg (not_not_intro hva)]
      exact S.free (k := .handleAperture) hmem

/-- The destructor does not read the flags. -/
theorem destroy_flags (mem : GpuMemory) (flags : GpuMemoryDescFlags) (hs : Heaps) :
    ({ mem with flags := flags } : GpuMemory).destroy hs = mem.destroy hs := by
  have hfree : (({ mem with flags := flags } : GpuMemory).freeGpuVirtualAddress hs true).2 =
      (mem.freeGpuVirtualAddress hs true).2 := by
    simp only [freeGpuVirtualAddress]
    split
    · rfl
    · split <;> rfl
  rw [destroy, hfree, destroy]

/-- The state in which an attempt to create an object ends. -/
def Outcome (sp : AddressSpace) (hs : Heaps) (code : ErrorCode) (mem : GpuMemory) (hs' : Heaps) :
    Prop :=
  if code = .success then Creates sp hs mem hs'
  else Sound sp (mem.destroy hs') ∧ (mem.destroy hs').reserved = hs.reserved

theorem outcome_of_homeless {code : ErrorCode} (hcode : code ≠ .success) (h : mem.Homeless)
    (S : Sound sp hs') (hreserved : hs'.reserved = hs.reserved) : Outcome sp hs code mem hs' := by
  rw [Outcome, if_neg hcode, h.destroy]
  exact ⟨S, hreserved⟩

/-- A range that was just reserved is the object's. -/
theorem creates_of_reserved (hva : mem.gpuAddr ≠ 0) (hape : mem.handleApeAddr = 0)
    (hfd : mem.memFd = true → mem.domain = .kSystem) (hmem : (sp.range mem.heap).Mem mem.gpuAddr)
    (S : Sound sp hs') (hfresh : hs.reserved mem.gpuAddr = none)
    (hreserved : hs'.reserved = Function.update hs.reserved mem.gpuAddr (some mem.size)) :
    Creates sp hs mem hs' := by
  have hhome : mem.home = mem.gpuAddr := by rw [home, if_pos hva]
  exact ⟨S, .address hva hape hfd hmem, by rw [hhome, hfresh], by rw [hhome, hreserved]⟩

theorem reserveAlign_le {size alignment : Nat} (h : alignment ≤ 2 ^ 32) :
    reserveAlign size alignment ≤ 2 ^ 32 := by
  have hhuge : gpuHugePageSize = 2 ^ 21 := rfl
  rw [reserveAlign]
  split
  · omega
  · split <;> omega

theorem addable_of_le {alignment : Nat} (h : alignment ≤ 2 ^ 32) (hmem : mem.alignment ≤ 2 ^ 32) :
    mem.Addable alignment := by
  have hhuge : gpuHugePageSize = 2 ^ 21 := rfl
  have hpage : defaultGpuPageSize = 2 ^ 12 := rfl
  refine Heaps.addable_of_le ?_
  rw [askedAlign]
  split
  next => split <;> omega
  next =>
    split
    next => exact hmem
    next => exact reserveAlign_le h

/-- What a request for a range leaves as it was. -/
structure Alike (mem mem' : GpuMemory) : Prop where
  size : mem'.size = mem.size
  domain : mem'.domain = mem.domain
  flags : mem'.flags = mem.flags
  memFlags : mem'.memFlags = mem.memFlags
  adapterLuid : mem'.adapterLuid = mem.adapterLuid
  handleApeAddr : mem'.handleApeAddr = mem.handleApeAddr

theorem alike_of_reserve {hint size alignment : Nat} {a : Answers} {code : ErrorCode}
    (h : mem.reserveGpuVirtualAddress hs hint size alignment a = some (code, mem', hs')) :
    Alike mem mem' := by
  rw [reserveGpuVirtualAddress] at h
  split at h
  · obtain ⟨r, _, heq⟩ := Option.map_eq_some_iff.mp h
    cases heq
    split <;> exact ⟨rfl, rfl, rfl, rfl, rfl, rfl⟩
  · obtain ⟨r, _, heq⟩ := Option.map_eq_some_iff.mp h
    cases heq
    split <;> exact ⟨rfl, rfl, rfl, rfl, rfl, rfl⟩

/-- `ReserveGpuVirtualAddress` of a file. -/
theorem reserveFile_spec (S : Sound sp hs) (h₀ : mem.Homeless) (hdom : mem.domain = .kSystem)
    (hpos : 0 < mem.size) (hadd : Heaps.Addable mem.size mem.alignment) {commit : Bool}
    {code : ErrorCode}
    {p : Nat} (h : hs.reserveIPCSysMem mem.size mem.alignment commit = some (code, p, hs')) :
    Outcome sp hs code (if code = .success then { mem with gpuAddr := p, memFd := true } else mem)
      hs' := by
  obtain ⟨⟨q, m⟩, halloc, heq⟩ := Option.map_eq_some_iff.mp h
  have hbase := VaMgr.takesAtBase_zero (hs.mgr .systemHeap) mem.size mem.alignment
  have halloc : (hs.mgr .systemHeap).alloc mem.size mem.alignment 0 = some (q, m) := halloc
  have hfree := S.alloc_free hpos hadd hbase halloc
  simp only at heq
  split at heq
  next hzero =>
    cases heq
    rw [hzero, VaMgr.free, if_pos rfl] at hfree
    exact outcome_of_homeless (fun h => by cases h) h₀ hfree.1 hfree.2
  next hne =>
    split at heq
    next =>
      cases heq
      rcases S.alloc hpos hadd hbase halloc with ⟨hq, _⟩ | ⟨_, hmem, S', hfresh, hreserved⟩
      · exact absurd hq hne
      · rw [Outcome, if_pos rfl, if_pos rfl]
        refine creates_of_reserved hne h₀.handleApeAddr (fun _ => hdom) ?_ S' hfresh hreserved
        rw [heap, if_pos hdom]
        exact hmem
    next =>
      cases heq
      exact outcome_of_homeless (fun h => by cases h) h₀ hfree.1 hfree.2

/-- `ReserveGpuVirtualAddress` of an object that is not a file. -/
theorem reserveHeap_spec (S : Sound sp hs) (h₀ : mem.Homeless) (hfd : mem.memFd = false)
    (hpos : 0 < mem.size) {hint alignment : Nat}
    (hadd : Heaps.Addable mem.size (reserveAlign mem.size alignment))
    (hbase : TakesAtBase (hs.mgr mem.heap) mem.size (reserveAlign mem.size alignment) hint)
    {commit : Bool} {code : ErrorCode} {p : Nat}
    (h : hs.reserveGpuVirtualAddress mem.domain hint mem.size alignment commit =
      some (code, p, hs')) :
    Outcome sp hs code (if code = .success then { mem with gpuAddr := p } else mem) hs' := by
  have hfile : ∀ n : Nat, ({ mem with gpuAddr := n } : GpuMemory).memFd = true →
      ({ mem with gpuAddr := n } : GpuMemory).domain = .kSystem := by
    intro n hn
    rw [hfd] at hn
    cases hn
  rw [Heaps.reserveGpuVirtualAddress] at h
  rw [heap] at hbase
  split at h
  next hdom =>
    rw [if_pos hdom] at hbase
    obtain ⟨⟨q, m⟩, halloc, heq⟩ := Option.map_eq_some_iff.mp h
    have halloc : (hs.mgr .systemHeap).alloc _ _ _ = some (q, m) := halloc
    simp only at heq
    split at heq
    next =>
      cases heq
      rcases S.alloc hpos hadd hbase halloc with ⟨rfl, rfl⟩ | ⟨hne, hmem, S', hfresh, hreserved⟩
      · exact outcome_of_homeless nofun h₀ S rfl
      · rw [if_neg hne, Outcome, if_pos rfl, if_pos rfl]
        refine creates_of_reserved hne h₀.handleApeAddr (hfile _) ?_ S' hfresh hreserved
        rw [heap, if_pos hdom]
        exact hmem
    next =>
      cases heq
      have hfree := S.alloc_free hpos hadd hbase halloc
      exact outcome_of_homeless nofun h₀ hfree.1 hfree.2
  next hdom =>
    rw [if_neg hdom] at hbase
    obtain ⟨⟨q, m⟩, halloc, heq⟩ := Option.map_eq_some_iff.mp h
    have halloc : (hs.mgr .localHeap).alloc _ _ _ = some (q, m) := halloc
    cases heq
    rcases S.alloc hpos hadd hbase halloc with ⟨rfl, rfl⟩ | ⟨hne, hmem, S', hfresh, hreserved⟩
    · exact outcome_of_homeless nofun h₀ S rfl
    · rw [if_neg hne, Outcome, if_pos rfl, if_pos rfl]
      refine creates_of_reserved hne h₀.handleApeAddr (hfile _) ?_ S' hfresh hreserved
      rw [heap, if_neg hdom]
      exact hmem

/-- `ReserveGpuVirtualAddress` -/
theorem reserveGpuVirtualAddress_spec (S : Sound sp hs) (h₀ : mem.Homeless)
    (hfd : mem.memFd = true → mem.isFile = true) {hint alignment : Nat}
    (hfits : mem.Fits hs hint alignment)
    (hadd : Heaps.Addable mem.size
      (if mem.isFile then mem.alignment else reserveAlign mem.size alignment))
    {a : Answers} {code : ErrorCode}
    (h : mem.reserveGpuVirtualAddress hs hint mem.size alignment a = some (code, mem', hs')) :
    Outcome sp hs code mem' hs' := by
  rw [reserveGpuVirtualAddress] at h
  split at h
  next hfile =>
    rw [if_pos hfile] at hadd
    have hdom : mem.domain = .kSystem := by
      rw [isFile, Bool.and_eq_true] at hfile
      simpa using hfile.2
    obtain ⟨⟨c, p, hs₁⟩, hreserve, heq⟩ := Option.map_eq_some_iff.mp h
    cases heq
    exact reserveFile_spec S h₀ hdom hfits.1 hadd hreserve
  next hfile =>
    rw [if_neg hfile] at hadd
    have hfd : mem.memFd = false := Bool.eq_false_iff.mpr fun hfd' => hfile (hfd hfd')
    obtain ⟨⟨c, p, hs₁⟩, hreserve, heq⟩ := Option.map_eq_some_iff.mp h
    cases heq
    exact reserveHeap_spec S h₀ hfd hfits.1 hadd (hfits.2.resolve_left hfile) hreserve

/-- A place in the handle aperture. -/
theorem takeHandle_spec (S : Sound sp hs) (h₀ : mem.Homeless) (hfd : mem.memFd = false)
    (hpos : 0 < mem.size) {code : ErrorCode} (h : mem.takeHandle hs = some (code, mem', hs')) :
    Outcome sp hs code mem' hs' := by
  have hhuge : gpuHugePageSize = 2 ^ 21 := rfl
  have hpage : defaultGpuPageSize = 2 ^ 12 := rfl
  obtain ⟨⟨c, p, hs₁⟩, hape, heq⟩ := Option.map_eq_some_iff.mp h
  cases heq
  obtain ⟨⟨q, m⟩, halloc, heq⟩ := Option.map_eq_some_iff.mp hape
  cases heq
  have halloc : (hs.mgr .handleAperture).alloc _ _ _ = some (p, m) := halloc
  have halign : (if mem.size ≥ gpuHugePageSize then gpuHugePageSize else defaultGpuPageSize) ≤
      2 ^ 32 := by
    split <;> omega
  rcases S.alloc hpos (Heaps.addable_of_le halign) (VaMgr.takesAtBase_zero _ _ _) halloc with
    ⟨rfl, rfl⟩ | ⟨hne, hmem, S', hfresh, hreserved⟩
  · exact outcome_of_homeless nofun ⟨h₀.gpuAddr, rfl⟩ S rfl
  · have hhome : ({ mem with handleApeAddr := p } : GpuMemory).home = p := by
      rw [home, if_neg (not_not_intro h₀.gpuAddr)]
    rw [if_neg hne, Outcome, if_pos rfl]
    exact ⟨S', .handle h₀.gpuAddr hfd hmem, by rw [hhome, hfresh], by rw [hhome]; exact hreserved⟩

/-- An object that could not be backed has given its range back twice. -/
theorem back_spec (hcreates : Creates sp hs mem hs') (hape : mem.handleApeAddr = 0) (a : Answers) :
    Outcome sp hs (mem.back hs' a).1 (mem.back hs' a).2.1 (mem.back hs' a).2.2 := by
  rw [back]
  split
  next =>
    rw [Outcome, if_pos rfl]
    exact hcreates
  next hcode =>
    rw [Outcome, if_neg hcode]
    cases hcreates.housed with
    | handle _ _ hmem =>
        have := (sp.managed .handleAperture).start_pos
        have := hmem.1
        omega
    | address hva _ hfd hmem =>
        obtain ⟨S₁, hreserved₁⟩ := freeGpuVirtualAddress_spec hcreates.sound hva hfd hmem a.decommit
        have hhouse : (mem.freeGpuVirtualAddress hs' a.decommit).1.Housed sp ∧
            (mem.freeGpuVirtualAddress hs' a.decommit).1.home = mem.gpuAddr := by
          rw [freeGpuVirtualAddress, home]
          split
          next hfile => exact ⟨.address hva hape (fun _ => hfd hfile) hmem, rfl⟩
          next => exact ⟨.address hva hape hfd hmem, rfl⟩
        obtain ⟨S₂, hreserved₂⟩ := destroy_spec S₁ hhouse.1
        have hhome : mem.home = mem.gpuAddr := by rw [home, if_pos hva]
        have hfresh := hcreates.fresh
        refine ⟨S₂, ?_⟩
        rw [hreserved₂, hreserved₁, hcreates.reserved, hhouse.2, hhome, Function.update_idem,
          Function.update_idem]
        rw [hhome] at hfresh
        exact Function.update_eq_self_iff.mpr hfresh.symm

/-- A range is reserved and, unless the object is virtual, backed. -/
theorem reserve_back_spec (S : Sound sp hs) (h₀ : mem.Homeless)
    (hfd : mem.memFd = true → mem.isFile = true) {hint alignment : Nat}
    (hfits : mem.Fits hs hint alignment)
    (hadd : Heaps.Addable mem.size
      (if mem.isFile then mem.alignment else reserveAlign mem.size alignment))
    {a : Answers} {code : ErrorCode}
    (h : mem.reserveGpuVirtualAddress hs hint mem.size alignment a = some (code, mem', hs')) :
    Outcome sp hs code mem' hs' ∧
      (code = .success → Outcome sp hs (mem'.back hs' a).1 (mem'.back hs' a).2.1
        (mem'.back hs' a).2.2) := by
  have houtcome := reserveGpuVirtualAddress_spec S h₀ hfd hfits hadd h
  refine ⟨houtcome, fun hcode => ?_⟩
  rw [Outcome, if_pos hcode] at houtcome
  exact back_spec houtcome ((alike_of_reserve h).handleApeAddr.trans h₀.handleApeAddr) a

/-- `Init` -/
theorem init_spec (S : Sound sp hs) {dev : SharedDevice} {info : GpuMemoryCreateInfo}
    (hfits : (describe dev info).Fits hs info.vaHint info.alignment)
    (hadd : (describe dev info).Addable info.alignment) {a : Answers} {code : ErrorCode}
    (h : init dev hs info a = some (code, mem', hs')) : Outcome sp hs code mem' hs' := by
  have h₀ : (describe dev info).Homeless := ⟨rfl, rfl⟩
  rw [init] at h
  split at h
  next =>
    split at h
    next => exact takeHandle_spec S h₀ rfl hfits.1 h
    next hcode =>
      cases h
      exact outcome_of_homeless hcode h₀ S rfl
  next hphysical =>
    rw [Addable, askedAlign, if_neg hphysical] at hadd
    obtain ⟨⟨c, mem, hs₁⟩, hreserve, heq⟩ := Option.map_eq_some_iff.mp h
    have hspec := reserve_back_spec S h₀ nofun hfits hadd hreserve
    simp only at heq
    split at heq
    next =>
      cases heq
      exact hspec.1
    next hcode =>
      have hback := hspec.2 (by simpa using (not_or.mp hcode).2)
      rw [heq] at hback
      exact hback

/-- What an object keeps of its description, and which kind of address it has. -/
structure Shape (mem₀ : GpuMemory) (va : Bool) (mem : GpuMemory) : Prop where
  size : mem.size = mem₀.size
  domain : mem.domain = mem₀.domain
  flags : mem.flags = mem₀.flags
  memFlags : mem.memFlags = mem₀.memFlags
  adapterLuid : mem.adapterLuid = mem₀.adapterLuid
  address : if va then mem.handleApeAddr = 0 else mem.gpuAddr = 0

/-- The address of a housed object is of its kind. -/
theorem Shape.home_eq {mem₀ : GpuMemory} {va : Bool} (h : Shape mem₀ va mem) (hh : mem.Housed sp) :
    mem.home = if va then mem.gpuAddr else mem.handleApeAddr := by
  have haddress := h.address
  rw [home]
  cases va with
  | true =>
      rw [if_pos rfl] at haddress ⊢
      cases hh with
      | address hva => rw [if_pos hva]
      | handle _ _ hmem =>
          have := (sp.managed .handleAperture).start_pos
          have := hmem.1
          omega
  | false =>
      rw [if_neg Bool.false_ne_true] at haddress ⊢
      rw [if_neg (not_not_intro haddress)]

/-- An object that was reserved, and backed unless it is virtual, is the one reserved. -/
theorem eq_of_kept {mem₁ : GpuMemory} {hs₁ : Heaps} {c : ErrorCode} {a : Answers} {q : Prop}
    [Decidable q] (h : (if q then (c, mem₁, hs₁) else mem₁.back hs₁ a) = (.success, mem, hs')) :
    mem = mem₁ := by
  rw [back] at h
  split at h
  · cases h
    rfl
  · split at h
    next =>
      cases h
      rfl
    next hcode => exact absurd (Prod.mk.inj h).1 hcode

theorem init_shape {dev : SharedDevice} {info : GpuMemoryCreateInfo} {a : Answers}
    (h : init dev hs info a = some (.success, mem, hs')) :
    Shape (describe dev info) (!info.flags.physicalOnly) mem := by
  have hphysical : (describe dev info).flags.isPhysicalOnly = info.flags.physicalOnly := rfl
  rw [init, hphysical] at h
  split at h
  next hp =>
    split at h
    next =>
      obtain ⟨r, _, heq⟩ := Option.map_eq_some_iff.mp h
      have hmem := (Prod.mk.inj (Prod.mk.inj heq).2).1
      rw [← hmem]
      exact ⟨rfl, rfl, rfl, rfl, rfl, by simp [hp, describe]⟩
    next hcode => exact absurd (Prod.mk.inj (Option.some.inj h)).1 hcode
  next hp =>
    obtain ⟨⟨c, mem₁, hs₁⟩, hreserve, heq⟩ := Option.map_eq_some_iff.mp h
    have halike := alike_of_reserve hreserve
    rw [eq_of_kept heq]
    exact ⟨halike.size, halike.domain, halike.flags, halike.memFlags, halike.adapterLuid,
      by simp [hp, halike.handleApeAddr, describe]⟩

theorem refusal_ne_success {pid p : Nat} {info : GpuMemoryCreateInfo} {a : Answers}
    {code : ErrorCode} (h : refusal pid info a = some (p, code)) : code ≠ .success := by
  rw [refusal] at h
  repeat' split at h
  all_goals
    cases h
    try exact nofun

/-- The size that an import is told is positive. -/
def ImportFits (pid : Nat) (dev : SharedDevice) (info : GpuMemoryCreateInfo) (a : Answers) : Prop :=
  if info.flags.sysmemIpcSigImporter then 0 < (describeFile dev info a).size
  else refusal pid info a = none → 0 < a.sharedInfo.size

instance (pid : Nat) (dev : SharedDevice) (info : GpuMemoryCreateInfo) (a : Answers) :
    Decidable (ImportFits pid dev info a) :=
  inferInstanceAs (Decidable (if info.flags.sysmemIpcSigImporter then _ else _ → _))

/-- `ImportPhysicalHandle` -/
theorem importPhysicalHandle_spec (S : Sound sp hs) {pid : Nat} {dev : SharedDevice}
    {info : GpuMemoryCreateInfo} {a : Answers} (hfits : ImportFits pid dev info a)
    (hhint : info.vaHint = 0) (halign : info.alignment ≤ 2 ^ 32) {p : Nat} {code : ErrorCode}
    (h : importPhysicalHandle pid dev hs info a = some (p, code, mem', hs')) :
    Outcome sp hs code mem' hs' := by
  have hblank : ∀ {c : ErrorCode}, c ≠ .success → Outcome sp hs c (blank a) hs :=
    fun hc => outcome_of_homeless hc ⟨rfl, rfl⟩ S rfl
  have hbase : ∀ mem : GpuMemory, TakesAtBase (hs.mgr mem.heap) mem.size
      (reserveAlign mem.size info.alignment) info.vaHint := by
    intro mem
    rw [hhint]
    exact VaMgr.takesAtBase_zero _ _ _
  rw [importPhysicalHandle] at h
  rw [ImportFits] at hfits
  split at h
  next =>
    cases h
    exact hblank nofun
  next =>
    split at h
    next hfile =>
      rw [if_pos hfile] at hfits
      obtain ⟨⟨c, mem, hs₁⟩, hreserve, heq⟩ := Option.map_eq_some_iff.mp h
      have hisFile : (describeFile dev info a).isFile = true := by
        simp [isFile, describeFile, hfile]
      have hadd : Heaps.Addable (describeFile dev info a).size
          (if (describeFile dev info a).isFile then (describeFile dev info a).alignment
            else reserveAlign (describeFile dev info a).size info.alignment) := by
        rw [if_pos hisFile]
        refine Heaps.addable_of_le ?_
        show 0x1000 ≤ 2 ^ 32
        omega
      have hspec := reserve_back_spec S ⟨rfl, rfl⟩ (fun _ => hisFile) ⟨hfits, Or.inl hisFile⟩ hadd
        hreserve
      simp only at heq
      split at heq
      next =>
        cases heq
        exact hspec.1
      next hcode =>
        have hback := hspec.2 (by simpa using hcode)
        rw [(Prod.mk.inj heq).2] at hback
        exact hback
    next hfile =>
      rw [if_neg hfile] at hfits
      split at h
      next hrefusal =>
        cases h
        exact hblank (refusal_ne_success hrefusal)
      next hrefusal =>
        have hpos := hfits hrefusal
        obtain ⟨r, hr, heq⟩ := Option.map_eq_some_iff.mp h
        cases heq
        split at hr
        next =>
          refine reserveGpuVirtualAddress_spec S ⟨rfl, rfl⟩
            (fun hfd => absurd hfd Bool.false_ne_true) ⟨hpos, Or.inr (hbase _)⟩
            (Heaps.addable_of_le ?_) hr
          split
          next => exact Nat.zero_le _
          next => exact reserveAlign_le halign
        next => exact takeHandle_spec S ⟨rfl, rfl⟩ rfl hpos hr

theorem importPhysicalHandle_shape {pid : Nat} {dev : SharedDevice} {info : GpuMemoryCreateInfo}
    {a : Answers} {p : Nat}
    (h : importPhysicalHandle pid dev hs info a = some (p, .success, mem, hs')) :
    ∃ mem₀, Shape mem₀ (info.flags.sysmemIpcSigImporter || info.flags.allocVa) mem := by
  rw [importPhysicalHandle] at h
  split at h
  next => cases h
  next =>
    split at h
    next hfile =>
      obtain ⟨⟨c, mem₁, hs₁⟩, hreserve, heq⟩ := Option.map_eq_some_iff.mp h
      have halike := alike_of_reserve hreserve
      rw [eq_of_kept (Prod.mk.inj heq).2]
      exact ⟨_, halike.size, halike.domain, halike.flags, halike.memFlags, halike.adapterLuid,
        by simp [hfile, halike.handleApeAddr, describeFile]⟩
    next hfile =>
      split at h
      next hrefusal =>
        have hcode := (Prod.mk.inj (Prod.mk.inj (Option.some.inj h)).2).1
        exact absurd hcode (refusal_ne_success hrefusal)
      next =>
        obtain ⟨r, hr, heq⟩ := Option.map_eq_some_iff.mp h
        cases heq
        have hva : (describeShared info a.sharedInfo).flags.isVaRequired = info.flags.allocVa := rfl
        rw [hva] at hr
        split at hr
        next hva =>
          have halike := alike_of_reserve hr
          exact ⟨_, halike.size, halike.domain, halike.flags, halike.memFlags, halike.adapterLuid,
            by simp [hva, halike.handleApeAddr, describeShared]⟩
        next hva =>
          obtain ⟨r, _, heq⟩ := Option.map_eq_some_iff.mp hr
          rw [← (Prod.mk.inj (Prod.mk.inj heq).2).1]
          exact ⟨describeShared info a.sharedInfo, rfl, rfl, rfl, rfl, rfl,
            by simp [hva, hfile, describeShared]⟩

end GpuMemory

/-! ## Creating an object -/

open GpuMemory (Fits ImportFits Creates Outcome Shape describe)

/-- The request reaches none of the defects of the address managers. -/
def CreateFits (pid : Nat) (dev : SharedDevice) (hs : Heaps) (info : GpuMemoryCreateInfo)
    (a : Answers) : Prop :=
  if info.dmabufFd.isSome then ImportFits pid dev info a ∧ info.vaHint = 0
  else (describe dev info).Fits hs info.vaHint info.alignment

instance (pid : Nat) (dev : SharedDevice) (hs : Heaps) (info : GpuMemoryCreateInfo) (a : Answers) :
    Decidable (CreateFits pid dev hs info a) :=
  inferInstanceAs (Decidable (if info.dmabufFd.isSome then _ ∧ _ else GpuMemory.Fits ..))

/-- The sums of the address managers do not wrap around when the object is created. -/
def CreateAdds (dev : SharedDevice) (info : GpuMemoryCreateInfo) : Prop :=
  if info.dmabufFd.isSome then info.alignment ≤ 2 ^ 32
  else (describe dev info).Addable info.alignment

theorem createAdds_of_le {dev : SharedDevice} {info : GpuMemoryCreateInfo}
    (h : info.alignment ≤ 2 ^ 32) : CreateAdds dev info := by
  rw [CreateAdds]
  split
  next => exact h
  next => exact GpuMemory.addable_of_le h h

/-- `CreateGpuMemory`: an object with a new address, or no change. -/
theorem createGpuMemory_spec {sp : AddressSpace} {hs hs' : Heaps} (S : Heaps.Sound sp hs)
    {pid : Nat} {dev : SharedDevice} {info : GpuMemoryCreateInfo} {a : Answers}
    (hfits : CreateFits pid dev hs info a) (hadds : CreateAdds dev info) {p : Nat}
    {code : ErrorCode} {o : Option GpuMemory}
    (h : createGpuMemory pid dev hs info a = some (p, code, o, hs')) :
    (∃ mem, o = some mem ∧ code = .success ∧ Creates sp hs mem hs') ∨
      (o = none ∧ code ≠ .success ∧ Heaps.Sound sp hs' ∧ hs'.reserved = hs.reserved) := by
  have hkeep : ∀ {q : Nat} {c : ErrorCode} {mem : GpuMemory} {hs₁ : Heaps},
      Outcome sp hs c mem hs₁ → keepOrDelete (q, c, mem, hs₁) = (p, code, o, hs') →
      (∃ mem, o = some mem ∧ code = .success ∧ Creates sp hs mem hs') ∨
        (o = none ∧ code ≠ .success ∧ Heaps.Sound sp hs' ∧ hs'.reserved = hs.reserved) := by
    intro q c mem hs₁ houtcome heq
    rw [keepOrDelete] at heq
    rw [Outcome] at houtcome
    split at heq
    next hc =>
      rw [if_pos hc] at houtcome
      cases heq
      exact Or.inl ⟨mem, rfl, hc, houtcome⟩
    next hc =>
      rw [if_neg hc] at houtcome
      cases heq
      exact Or.inr ⟨rfl, hc, houtcome⟩
  rw [createGpuMemory] at h
  rw [CreateFits] at hfits
  rw [CreateAdds] at hadds
  split at h
  next hfd =>
    rw [if_pos hfd] at hfits hadds
    obtain ⟨⟨q, c, mem, hs₁⟩, himport, heq⟩ := Option.map_eq_some_iff.mp h
    exact hkeep (GpuMemory.importPhysicalHandle_spec S hfits.1 hfits.2 hadds himport) heq
  next hfd =>
    rw [if_neg hfd] at hfits hadds
    obtain ⟨⟨c, mem, hs₁⟩, hinit, heq⟩ := Option.map_eq_some_iff.mp h
    exact hkeep (GpuMemory.init_spec S hfits hadds hinit) heq

/-- The kind of address an object gets. -/
def createsAddress (info : GpuMemoryCreateInfo) : Bool :=
  if info.dmabufFd.isSome then info.flags.sysmemIpcSigImporter || info.flags.allocVa
  else !info.flags.physicalOnly

/-- What `CreateGpuMemory` gives an object. -/
theorem createGpuMemory_shape {hs hs' : Heaps} {pid : Nat} {dev : SharedDevice}
    {info : GpuMemoryCreateInfo} {a : Answers} {p : Nat} {code : ErrorCode} {mem : GpuMemory}
    (h : createGpuMemory pid dev hs info a = some (p, code, some mem, hs')) :
    ∃ mem₀, Shape mem₀ (createsAddress info) mem ∧
      (info.dmabufFd = none → mem₀ = describe dev info) := by
  have hkeep : ∀ {r : Nat × ErrorCode × GpuMemory × Heaps}, keepOrDelete r = (p, code, some mem, hs') →
      r = (p, .success, mem, hs') := by
    rintro ⟨q, c, mem₁, hs₁⟩ heq
    rw [keepOrDelete] at heq
    split at heq
    next hc =>
      cases heq
      rw [hc]
    next => cases heq
  rw [createGpuMemory] at h
  rw [createsAddress]
  split at h
  next hfd =>
    obtain ⟨r, himport, heq⟩ := Option.map_eq_some_iff.mp h
    rw [hkeep heq] at himport
    obtain ⟨mem₀, hshape⟩ := GpuMemory.importPhysicalHandle_shape himport
    rw [if_pos hfd]
    refine ⟨mem₀, hshape, fun hnone => ?_⟩
    rw [hnone] at hfd
    cases hfd
  next hfd =>
    obtain ⟨r, hinit, heq⟩ := Option.map_eq_some_iff.mp h
    have hr := hkeep heq
    rw [(Prod.mk.inj hr).2] at hinit
    rw [if_neg hfd]
    exact ⟨_, GpuMemory.init_shape hinit, fun _ => rfl⟩

end RocDxg
