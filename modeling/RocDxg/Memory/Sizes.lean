import RocDxg.Memory.Empty
import RocDxg.VaMgr.Requests

/-!
# How much memory an allocation has

Between `SizeInBytes` and the memory that is handed out lie several roundings: to a page or
to 2 MiB for the sub-allocator, to a page or a big page in `AdjustSize`, to chunks of 2 GiB
in `CalcChunkNumbers`, and that of the alignment in `AllocImpl`.  None of them is checked, and
a size close to 2⁶⁴ is rounded to zero.

`Sizes.sizes_honoured` says that this is all that can go wrong: after regular calls a request gets
what it asks for, and spares what was handed out, if and only if none of its roundings leaves
the 64 bits.
-/

namespace RocDxg

open Lib (OrdMap MultiMap Node Reach runAll reach_of_runAll)
open GpuMemory (describe adjustSize bigPageAlignment)
open Memory (Backed Spares subAllocates attempted realSize)

/-! ## Roundings -/

/-- `AlignUp` gives the next multiple. -/
def Rounded (value alignment : Nat) : Prop :=
  alignUp 64 value alignment = (value + alignment - 1) / alignment * alignment

theorem rounded_iff {value alignment : Nat} (hv : value < 2 ^ 64) (hpos : 0 < alignment)
    (hle : alignment ≤ 2 ^ 64) : Rounded value alignment ↔ value + alignment ≤ 2 ^ 64 := by
  constructor
  · intro hround
    by_contra hwrap
    -- the sum is above the word and less than an alignment above it
    have hmod : (value + alignment - 1) % 2 ^ 64 = value + alignment - 1 - 2 ^ 64 := by
      rw [Nat.mod_eq_sub_mod (by omega), Nat.mod_eq_of_lt (by omega)]
    have hzero : alignUp 64 value alignment = 0 := by
      rw [alignUp, alignDown, hmod, Nat.div_eq_of_lt (by omega), Nat.zero_mul, Nat.zero_mod]
    rw [Rounded, hzero] at hround
    have hdiv : 1 ≤ (value + alignment - 1) / alignment :=
      (Nat.le_div_iff_mul_le hpos).mpr (by omega)
    have := Nat.mul_pos hdiv hpos
    omega
  · intro hfits
    exact alignUp_of_lt (by omega)

theorem u64_eq_iff (n : Nat) : u64 n = n ↔ n < 2 ^ 64 := by
  rw [u64]
  omega

/-- `CalcChunkNumbers` counts every chunk. -/
def Counted (size : Nat) : Prop :=
  calcChunkNumbers size = (size + gpuMemoryChunkSize - 1) / gpuMemoryChunkSize

theorem counted_iff {size : Nat} (hsize : size < 2 ^ 64) :
    Counted size ↔ size + gpuMemoryChunkSize ≤ 2 ^ 64 := by
  rw [Counted, calcChunkNumbers, u64]
  simp only [gpuMemoryChunkSize]
  omega

theorem sum_chunkSizes (n size : Nat) :
    (chunkSizes n size).sum = min size (n * gpuMemoryChunkSize) := by
  induction n generalizing size with
  | zero => simp [chunkSizes]
  | succ n ih =>
      rw [chunkSizes, List.sum_cons, ih, Nat.succ_mul]
      omega

/-- The sizes of the chunks of an object. -/
def GpuMemory.chunks (mem : GpuMemory) : List Nat := chunkSizes (calcChunkNumbers mem.size) mem.size

theorem GpuMemory.sum_chunks {mem : GpuMemory} (h : mem.size + gpuMemoryChunkSize ≤ 2 ^ 64) :
    mem.chunks.sum = mem.size := by
  have hcounted : Counted mem.size := by
    have hchunk : gpuMemoryChunkSize = 2 ^ 31 := rfl
    exact (counted_iff (by omega)).mpr h
  rw [chunks, sum_chunkSizes, hcounted]
  refine Nat.min_eq_left ?_
  simp only [gpuMemoryChunkSize]
  omega

/-- What the size is rounded to for the sub-allocator. -/
def realGranule (cfg : Config) (size : Nat) : Nat :=
  if size > gpuHugePageSize then gpuHugePageSize else cfg.pageSize

theorem realSize_eq (cfg : Config) (size : Nat) :
    realSize cfg size = alignUp 64 size (realGranule cfg size) := by
  rw [realSize, realGranule]
  split <;> rfl

/-- What `AdjustSize` rounds the size to; zero if it leaves the size as it is. -/
def pageGranule (dev : SharedDevice) (domain : AllocDomain) (size : Nat) : Nat :=
  if dev.enableBigPageAlignment ∧ domain = .kLocal then bigPageAlignment dev size else 4096

theorem pageGranule_lt (dev : SharedDevice) (domain : AllocDomain) (size : Nat) :
    pageGranule dev domain size < 2 ^ 32 := by
  rw [pageGranule]
  split
  next => exact GpuMemory.bigPageAlignment_lt dev size
  next => decide

theorem adjustSize_eq (dev : SharedDevice) (domain : AllocDomain) (size : Nat) :
    adjustSize dev domain size = if pageGranule dev domain size = 0 then size
      else alignUp 64 size (pageGranule dev domain size) := by
  rw [adjustSize, pageGranule]
  split
  next =>
    split
    next hpos => rw [if_neg (Nat.ne_of_gt hpos)]
    next hpos => rw [if_pos (Nat.eq_zero_of_not_pos hpos)]
  next => rw [if_neg (by decide)]

/-- The next multiple; a size stays as it is if there is nothing to round to. -/
def roundUp (size granule : Nat) : Nat :=
  if granule = 0 then size else (size + granule - 1) / granule * granule

theorem le_roundUp (size granule : Nat) : size ≤ roundUp size granule := by
  rw [roundUp]
  split
  next => exact Nat.le_refl _
  next hne =>
    have hmod := Nat.mod_lt (size + granule - 1) (Nat.pos_of_ne_zero hne)
    have hdiv := Nat.div_add_mod (size + granule - 1) granule
    rw [Nat.mul_comm] at hdiv
    omega

/-- `sys_va_size` of `ReserveSvmSpace`. -/
def sysVaSize (size align : Nat) : Nat := u64 (size + align)

/-- The alignment with which `ReserveLocalHeapSpace` or `ReserveSystemHeapSpace` reserves. -/
def svmAlign (k : Heap) : Nat := if k = .localHeap then 0x40000000 else 0x100000000

/-- The address manager that is asked for a range of an object. -/
def GpuMemory.askedHeap (mem : GpuMemory) : Heap :=
  if mem.flags.isPhysicalOnly then .handleAperture else mem.heap

/-- The address at which it is asked for the range. -/
def GpuMemory.askedHint (mem : GpuMemory) (hint : Nat) : Nat :=
  if mem.flags.isPhysicalOnly || mem.isFile then 0 else hint

/-- The manager finds no place for the size that is aligned, and adds the alignment to it. -/
def GpuMemory.addsAlignment (mem : GpuMemory) (hs : Heaps) (hint alignment : Nat) : Bool :=
  let m := hs.mgr mem.askedHeap
  (m.fixedFragment mem.size (mem.askedAlign alignment) (mem.askedHint hint)).isNone &&
    m.asksForMore mem.size (mem.askedAlign alignment)

/-- The size that it then searches for. -/
def GpuMemory.searchedSize (mem : GpuMemory) (alignment : Nat) : Nat :=
  mem.size + alignUp 64 (mem.askedAlign alignment) defaultGpuPageSize

/-- The managers at each attempt of a request to create an object of its own. -/
def Memory.tries (cfg : Config) (m : Memory) (ans : AllocAnswers) (dev : SharedDevice)
    (info : GpuMemoryCreateInfo) (vmm : Bool) : List Heaps :=
  if subAllocates cfg info vmm then
    match m.subAlloc cfg info.size ans with
    | .error _ => []
    | .ok r => if r.1 = 0 then r.2.attempts cfg dev info ans else []
  else [m.core.heaps]

/-- The roundings of a request are exact: that for the sub-allocator, if it is asked, and those
for an object, if one is created. -/
structure Unwrapped (sp : AddressSpace) (cfg : Config) (m : Memory) (ans : AllocAnswers)
    (dev : SharedDevice) (info : GpuMemoryCreateInfo) (vmm : Bool) : Prop where
  real : subAllocates cfg info vmm = true → Rounded info.size (realGranule cfg info.size)
  adjusted : m.attempted cfg ans info vmm = true → pageGranule dev info.domain info.size ≠ 0 →
    Rounded info.size (pageGranule dev info.domain info.size)
  chunks : m.attempted cfg ans info vmm = true → Counted (describe dev info).size
  alignment : m.attempted cfg ans info vmm = true →
    Rounded ((describe dev info).askedAlign info.alignment) defaultGpuPageSize
  search : ∀ hs ∈ m.tries cfg ans dev info vmm,
    (describe dev info).addsAlignment hs info.vaHint info.alignment = true →
    u64 ((describe dev info).searchedSize info.alignment) =
      (describe dev info).searchedSize info.alignment
  space : ∀ k, k ≠ .handleAperture →
    sysVaSize (sp.range k).size (svmAlign k) = (sp.range k).size + svmAlign k

/-- The size and the alignment leave room to round them up. -/
structure Roundable (cfg : Config) (m : Memory) (ans : AllocAnswers) (dev : SharedDevice)
    (info : GpuMemoryCreateInfo) (vmm : Bool) : Prop where
  real : subAllocates cfg info vmm = true → info.size + realGranule cfg info.size ≤ 2 ^ 64
  adjusted : m.attempted cfg ans info vmm = true →
    info.size + pageGranule dev info.domain info.size ≤ 2 ^ 64
  chunks : m.attempted cfg ans info vmm = true →
    roundUp info.size (pageGranule dev info.domain info.size) + gpuMemoryChunkSize ≤ 2 ^ 64
  alignment : m.attempted cfg ans info vmm = true → info.flags.physicalOnly = false →
    (describe dev info).isFile = true ∨
      roundUp info.size (pageGranule dev info.domain info.size) < gpuHugePageSize →
    info.alignment + defaultGpuPageSize ≤ 2 ^ 64
  search : ∀ hs ∈ m.tries cfg ans dev info vmm,
    (describe dev info).addsAlignment hs info.vaHint info.alignment = true →
    (describe dev info).searchedSize info.alignment < 2 ^ 64

instance (cfg : Config) (m : Memory) (ans : AllocAnswers) (dev : SharedDevice)
    (info : GpuMemoryCreateInfo) (vmm : Bool) : Decidable (Roundable cfg m ans dev info vmm) :=
  decidable_of_iff (_ ∧ _ ∧ _ ∧ _ ∧ _)
    ⟨fun ⟨real, adjusted, chunks, alignment, search⟩ => ⟨real, adjusted, chunks, alignment, search⟩,
      fun R => ⟨R.real, R.adjusted, R.chunks, R.alignment, R.search⟩⟩

/-- The page size of the machine: a positive `int`, and a multiple of 4 KiB. -/
structure PageSize (cfg : Config) : Prop where
  pos : 0 < cfg.pageSize
  lt : cfg.pageSize < 2 ^ 31
  dvd : defaultGpuPageSize ∣ cfg.pageSize

variable {sp : AddressSpace} {cfg : Config} {m m' : Memory} {ans : AllocAnswers}
  {dev : SharedDevice} {info : GpuMemoryCreateInfo} {vmm : Bool}

theorem PageSize.granule (h : PageSize cfg) (size : Nat) :
    0 < realGranule cfg size ∧ realGranule cfg size < 2 ^ 31 ∧
      defaultGpuPageSize ∣ realGranule cfg size := by
  rw [realGranule]
  split
  next => exact ⟨by decide, by decide, ⟨2 ^ 9, rfl⟩⟩
  next => exact ⟨h.pos, h.lt, h.dvd⟩

/-- Without wrap `AdjustSize` rounds to the next multiple. -/
theorem adjustSize_of_le {domain : AllocDomain} {size : Nat}
    (h : size + pageGranule dev domain size ≤ 2 ^ 64) (hsize : size < 2 ^ 64) :
    adjustSize dev domain size = roundUp size (pageGranule dev domain size) := by
  have hgranule := pageGranule_lt dev domain size
  rw [adjustSize_eq, roundUp]
  split
  next => rfl
  next hne => exact (rounded_iff hsize (Nat.pos_of_ne_zero hne) (by omega)).mpr h

theorem adjustSize_lt {domain : AllocDomain} {size : Nat} (hsize : size < 2 ^ 64) :
    adjustSize dev domain size < 2 ^ 64 := by
  rw [adjustSize_eq]
  split
  next => exact hsize
  next => exact Nat.mod_lt _ (by decide)

/-- The alignment that is asked for is a constant, or that of the request. -/
theorem askedAlign_le_iff (halign : info.alignment < 2 ^ 64) :
    (describe dev info).askedAlign info.alignment + defaultGpuPageSize ≤ 2 ^ 64 ↔
      (info.flags.physicalOnly = false → (describe dev info).isFile = true ∨
        (describe dev info).size < gpuHugePageSize →
        info.alignment + defaultGpuPageSize ≤ 2 ^ 64) := by
  have hhuge : gpuHugePageSize = 2 ^ 21 := rfl
  have hpage : defaultGpuPageSize = 2 ^ 12 := rfl
  have hphysical : (describe dev info).flags.isPhysicalOnly = info.flags.physicalOnly := rfl
  have hfileAlign : (describe dev info).alignment = info.alignment := rfl
  rw [GpuMemory.askedAlign, hphysical, hfileAlign, Heaps.reserveAlign]
  cases info.flags.physicalOnly with
  | true =>
      simp only [if_true, Bool.true_eq_false, false_implies, iff_true]
      split <;> omega
  | false =>
      simp only [Bool.false_eq_true, if_false, true_implies]
      cases (describe dev info).isFile with
      | true => simp
      | false =>
          simp only [Bool.false_eq_true, if_false, false_or]
          split
          next => omega
          next => split <;> omega

theorem Roundable.adjusted_eq (R : Roundable cfg m ans dev info vmm) (hsize : info.size < 2 ^ 64)
    (hatt : m.attempted cfg ans info vmm = true) :
    (describe dev info).size = roundUp info.size (pageGranule dev info.domain info.size) :=
  adjustSize_of_le (R.adjusted hatt) hsize

theorem Roundable.le_realSize (R : Roundable cfg m ans dev info vmm) (hpage : PageSize cfg)
    (hsub : subAllocates cfg info vmm = true) : info.size ≤ realSize cfg info.size := by
  have hpos := (hpage.granule info.size).1
  have hreal := R.real hsub
  rw [realSize_eq]
  exact le_alignUp hpos (by omega)

theorem Roundable.asked (R : Roundable cfg m ans dev info vmm) (hsize : info.size < 2 ^ 64)
    (halign : info.alignment < 2 ^ 64) (hatt : m.attempted cfg ans info vmm = true) :
    (describe dev info).askedAlign info.alignment + defaultGpuPageSize ≤ 2 ^ 64 := by
  refine (askedAlign_le_iff halign).mpr ?_
  rw [R.adjusted_eq hsize hatt]
  exact R.alignment hatt

theorem sysVaSize_eq (sp : AddressSpace) (k : Heap) :
    sysVaSize (sp.range k).size (svmAlign k) = (sp.range k).size + svmAlign k := by
  have hend := (sp.managed k).end_lt
  have halign : svmAlign k ≤ 2 ^ 32 := by
    cases k <;> decide
  exact u64_of_lt (by omega)

/-- The roundings are exact if and only if there is room for them. -/
theorem unwrapped_iff (hpage : PageSize cfg) (hsize : info.size < 2 ^ 64)
    (halign : info.alignment < 2 ^ 64) :
    Unwrapped sp cfg m ans dev info vmm ↔ Roundable cfg m ans dev info vmm := by
  obtain ⟨hpos, hlt, _⟩ := hpage.granule info.size
  have hgranule := pageGranule_lt dev info.domain info.size
  have hdescribe : (describe dev info).size = adjustSize dev info.domain info.size := rfl
  have hadjusted : (describe dev info).size < 2 ^ 64 := adjustSize_lt hsize
  have hasked : (describe dev info).askedAlign info.alignment < 2 ^ 64 := by
    have hhuge : gpuHugePageSize = 2 ^ 21 := rfl
    have hpage : defaultGpuPageSize = 2 ^ 12 := rfl
    have hfileAlign : (describe dev info).alignment = info.alignment := rfl
    rw [GpuMemory.askedAlign, hfileAlign, Heaps.reserveAlign]
    repeat' split
    all_goals omega
  have hrounded : Rounded ((describe dev info).askedAlign info.alignment) defaultGpuPageSize ↔ _ :=
    (rounded_iff hasked (by decide) (by decide)).trans (askedAlign_le_iff halign)
  constructor
  · intro U
    have hroom : m.attempted cfg ans info vmm = true →
        info.size + pageGranule dev info.domain info.size ≤ 2 ^ 64 := by
      intro hatt
      by_cases hne : pageGranule dev info.domain info.size = 0
      · omega
      · exact (rounded_iff hsize (Nat.pos_of_ne_zero hne) (by omega)).mp (U.adjusted hatt hne)
    refine ⟨fun hsub => (rounded_iff hsize hpos (by omega)).mp (U.real hsub), hroom, ?_, ?_,
      fun hs hmem hadds => (u64_eq_iff _).mp (U.search hs hmem hadds)⟩
    · intro hatt
      rw [← adjustSize_of_le (hroom hatt) hsize]
      exact (counted_iff hadjusted).mp (U.chunks hatt)
    · intro hatt
      rw [← adjustSize_of_le (hroom hatt) hsize]
      exact hrounded.mp (U.alignment hatt)
  · intro R
    refine ⟨fun hsub => (rounded_iff hsize hpos (by omega)).mpr (R.real hsub), ?_, ?_, ?_,
      fun hs hmem hadds => (u64_eq_iff _).mpr (R.search hs hmem hadds),
      fun k _ => sysVaSize_eq sp k⟩
    · intro hatt hne
      exact (rounded_iff hsize (Nat.pos_of_ne_zero hne) (by omega)).mpr (R.adjusted hatt)
    · intro hatt
      have hchunks := R.chunks hatt
      rw [← adjustSize_of_le (R.adjusted hatt) hsize] at hchunks
      exact (counted_iff hadjusted).mpr hchunks
    · intro hatt
      have halignment := R.alignment hatt
      rw [← adjustSize_of_le (R.adjusted hatt) hsize] at halignment
      exact hrounded.mpr halignment

/-! ## The range of an object -/

/-- An address manager answered `p` when it was asked for `n` bytes.  If the managers were in
order before, these are in the range of the manager, and no part of them is free. -/
def Heaps.Reserves (sp : AddressSpace) (hs hs' : Heaps) (p n : Nat) : Prop :=
  ∃ k align hint, (hs.mgr k).alloc n align hint = some (p, hs'.mgr k) ∧
    (hs.Sound sp → VaMgr.Took (sp.range k).start (sp.range k).size (hs'.mgr k) p n)

namespace GpuMemory

variable {hs hs' : Heaps} {mem mem' : GpuMemory}

/-- The range of a new object was asked for, and is not given back. -/
structure Asked (mem : GpuMemory) (hs : Heaps) (hint alignment p : Nat) (hs' : Heaps) : Prop where
  alloc : (hs.mgr mem.askedHeap).alloc mem.size (mem.askedAlign alignment) (mem.askedHint hint) =
    some (p, hs'.mgr mem.askedHeap)
  pos : p ≠ 0

theorem reserve_asked (hphysical : mem.flags.isPhysicalOnly = false) {hint alignment : Nat}
    {a : Answers} (h : mem.reserveGpuVirtualAddress hs hint mem.size alignment a =
      some (.success, mem', hs')) : Asked mem hs hint alignment mem'.gpuAddr hs' := by
  have hheap : mem.askedHeap = mem.heap := by rw [askedHeap, hphysical, if_neg Bool.false_ne_true]
  have hplain : mem.askedHint hint = if mem.isFile then 0 else hint := by
    rw [askedHint, hphysical, Bool.false_or]
  have halign : mem.askedAlign alignment =
      if mem.isFile then mem.alignment else Heaps.reserveAlign mem.size alignment := by
    rw [askedAlign, hphysical, if_neg Bool.false_ne_true]
  rw [reserveGpuVirtualAddress] at h
  split at h
  next hfile =>
    have hdom : mem.domain = .kSystem := by
      rw [isFile, Bool.and_eq_true] at hfile
      simpa using hfile.2
    obtain ⟨⟨c, p, hs₁⟩, hreserve, heq⟩ := Option.map_eq_some_iff.mp h
    obtain ⟨⟨q, m⟩, halloc, hres⟩ := Option.map_eq_some_iff.mp hreserve
    rw [if_pos hfile] at hplain halign
    simp only at hres
    split at hres
    next =>
      cases hres
      cases heq
    next hq =>
      split at hres
      next =>
        cases hres
        cases heq
        refine ⟨?_, hq⟩
        rw [hheap, hplain, halign, heap, if_pos hdom]
        exact halloc
      next =>
        cases hres
        cases heq
  next hfile =>
    obtain ⟨⟨c, p, hs₁⟩, hreserve, heq⟩ := Option.map_eq_some_iff.mp h
    rw [if_neg hfile] at hplain halign
    rw [Heaps.reserveGpuVirtualAddress] at hreserve
    simp only at hreserve
    split at hreserve
    next hdom =>
      obtain ⟨⟨q, m⟩, halloc, hres⟩ := Option.map_eq_some_iff.mp hreserve
      simp only at hres
      split at hres
      next =>
        by_cases hq : q = 0
        · rw [if_pos hq] at hres
          cases hres
          cases heq
        · rw [if_neg hq] at hres
          cases hres
          cases heq
          refine ⟨?_, hq⟩
          rw [hheap, hplain, halign, heap, if_pos hdom]
          exact halloc
      next =>
        cases hres
        cases heq
    next hdom =>
      obtain ⟨⟨q, m⟩, halloc, hres⟩ := Option.map_eq_some_iff.mp hreserve
      by_cases hq : q = 0
      · rw [if_pos hq] at hres
        cases hres
        cases heq
      · rw [if_neg hq] at hres
        cases hres
        cases heq
        refine ⟨?_, hq⟩
        rw [hheap, hplain, halign, heap, if_neg hdom]
        exact halloc

theorem takeHandle_asked (hphysical : mem.flags.isPhysicalOnly = true) {hint alignment : Nat}
    (h : mem.takeHandle hs = some (.success, mem', hs')) :
    Asked mem hs hint alignment mem'.handleApeAddr hs' := by
  obtain ⟨⟨c, p, hs₁⟩, hape, heq⟩ := Option.map_eq_some_iff.mp h
  obtain ⟨⟨q, m⟩, halloc, hres⟩ := Option.map_eq_some_iff.mp hape
  simp only [Prod.mk.injEq] at hres heq
  obtain ⟨rfl, rfl, rfl⟩ := hres
  obtain ⟨hcode, rfl, rfl⟩ := heq
  refine ⟨?_, fun hq => ?_⟩
  · rw [askedHeap, askedHint, askedAlign, hphysical, Bool.true_or, if_pos rfl, if_pos rfl,
      if_pos rfl]
    exact halloc
  · rw [if_pos hq] at hcode
    cases hcode

theorem init_asked {dev : SharedDevice} {info : GpuMemoryCreateInfo} {a : Answers}
    (h : init dev hs info a = some (.success, mem, hs')) :
    Asked (describe dev info) hs info.vaHint info.alignment
      (if info.flags.physicalOnly then mem.handleApeAddr else mem.gpuAddr) hs' := by
  have hphysical : (describe dev info).flags.isPhysicalOnly = info.flags.physicalOnly := rfl
  rw [init] at h
  simp only [hphysical] at h
  split at h
  next hp =>
    rw [if_pos hp]
    split at h
    next => exact takeHandle_asked (hphysical.trans hp) h
    next hcode => exact absurd (Prod.mk.inj (Option.some.inj h)).1 hcode
  next hp =>
    rw [if_neg hp]
    have hp : (describe dev info).flags.isPhysicalOnly = false := by simpa [hphysical] using hp
    obtain ⟨⟨c, mem₁, hs₁⟩, hreserve, heq⟩ := Option.map_eq_some_iff.mp h
    simp only at heq
    split at heq
    next =>
      cases heq
      exact reserve_asked hp hreserve
    next hcode =>
      have hc : c = .success := by simpa using (not_or.mp hcode).2
      subst hc
      rw [back] at heq
      split at heq
      next =>
        cases heq
        exact reserve_asked hp hreserve
      next hback => exact absurd (Prod.mk.inj heq).1 hback

/-- The range that was asked for is there. -/
theorem Asked.reserves {sp : AddressSpace} {hint alignment p : Nat}
    (h : Asked mem hs hint alignment p hs') (hpos : 0 < mem.size)
    (halign : mem.askedAlign alignment + defaultGpuPageSize ≤ 2 ^ 64)
    (hsearch : mem.addsAlignment hs hint alignment = true → mem.searchedSize alignment < 2 ^ 64) :
    hs.Reserves sp hs' p mem.size := by
  refine ⟨mem.askedHeap, _, _, h.alloc, fun S => ?_⟩
  have hmin := S.minAlign mem.askedHeap
  refine (S.partition mem.askedHeap).alloc_took hpos (by rw [hmin]; exact halign) ?_ h.alloc h.pos
  intro hfixed hmore
  rw [hmin]
  refine hsearch ?_
  rw [addsAlignment, hfixed, hmore]
  rfl

end GpuMemory

namespace Core

variable {c c' : Core}

/-- An object that was created is entered under its address. -/
theorem createAllocation_reserves {a : Answers} {addr : Nat} (hfd : info.dmabufFd = none)
    (hpos : 0 < (describe dev info).size)
    (halign : (describe dev info).askedAlign info.alignment + defaultGpuPageSize ≤ 2 ^ 64)
    (hsearch : (describe dev info).addsAlignment c.heaps info.vaHint info.alignment = true →
      (describe dev info).searchedSize info.alignment < 2 ^ 64)
    (hcreate : c.createAllocation dev info a = .ok (.success, addr, c')) :
    ∃ i mem, c'.object addr = some (i, mem) ∧ mem.size = (describe dev info).size ∧
      c.heaps.Reserves sp c'.heaps addr mem.size := by
  rw [createAllocation] at hcreate
  obtain ⟨⟨va, code, object, c₁⟩, hobject, hcreate⟩ := ok_of_bind hcreate
  rw [create, createGpuMemory, hfd] at hobject
  simp only [Option.isSome_none, Bool.false_eq_true, if_false] at hobject
  cases hinit : GpuMemory.init dev c.heaps info a with
  | none =>
      rw [hinit] at hobject
      cases hobject
  | some r =>
      obtain ⟨code₁, mem, hs⟩ := r
      rw [hinit, Option.map_some, keepOrDelete] at hobject
      by_cases hcode : code₁ = .success
      · subst hcode
        have A := GpuMemory.init_asked hinit
        have hshape := GpuMemory.init_shape hinit
        rw [if_pos rfl] at hobject
        cases hobject
        simp only [hfd, Option.isSome_none, Bool.false_eq_true, or_false, Except.ok.injEq,
          Prod.mk.injEq, true_and] at hcreate
        obtain ⟨rfl, rfl⟩ := hcreate
        refine ⟨c.nextHandle, mem, ?_, hshape.size, ?_⟩
        · simp [Core.object, setEntry, withObject, OrdMap.find?_insert]
        · rw [hshape.size]
          exact A.reserves hpos halign hsearch
      · rw [if_neg hcode] at hobject
        cases hobject
        simp only [Except.ok.injEq, Prod.mk.injEq] at hcreate
        exact absurd hcreate.1 hcode

end Core

/-! ## The block of a fragment -/

namespace SimpleHeap

variable {h h' : SimpleHeap}

theorem allocBlock_live {σ : Type u} {A : BlockAllocator σ} {s s' : σ} {base size bytes p : Nat}
    (hle : bytes ≤ A.blockSize) (hsmall : bytes < 2 ^ 62)
    (halloc : allocBlock A h s base size bytes = some (p, h', s')) : h'.live p = some bytes := by
  rw [allocBlock] at halloc
  split at halloc
  next => cases halloc
  next =>
    simp only [if_neg (Nat.not_lt.mpr hle)] at halloc
    cases halloc
    have hfirst : ∀ fl frags, (blockFragments fl frags base size bytes).2.find? base =
        some (.makeUsed bytes) := by
      intro fl frags
      rw [blockFragments]
      split <;> simp [OrdMap.find?_insert]
    have hfloor : ∀ frags, (h.blockList.insert base frags).floor? base = some (base, frags) := by
      intro frags
      refine OrdMap.floor?_of_gap ?_ (Nat.le_refl base) fun _ _ hlt => hlt
      rw [OrdMap.find?_insert, if_pos rfl]
    show ((Lib.fragment? (h.blockList.insert base _) base).bind HeapFragment.usedSize) = some bytes
    rw [Lib.fragment?, hfloor, Option.bind_some, hfirst, Option.bind_some]
    exact HeapFragment.used_makeUsed hsmall

theorem alloc_live {σ : Type u} {A : BlockAllocator σ} {s s' : σ} (S : Sound h) {bytes p : Nat}
    (hpos : 0 < bytes) (hle : bytes ≤ A.blockSize) (hsmall : bytes < 2 ^ 62)
    (halloc : alloc A h s bytes = some (p, h', s')) (hp : p ≠ 0) : h'.live p = some bytes := by
  rcases alloc_cases halloc with
    ⟨hfrag, _⟩ | ⟨_, ⟨x, _, _, hblock⟩ | ⟨_, _, hzero, _⟩ | ⟨base, size, _, hblock⟩⟩
  · obtain ⟨r, hr, hserves⟩ := S.allocFragment_serves hpos
    rw [hfrag] at hr
    cases hr
    rw [(hserves p h' rfl).live, Function.update_self]
  · exact allocBlock_live hle hsmall hblock
  · exact absurd hzero hp
  · exact allocBlock_live hle hsmall hblock

end SimpleHeap

namespace Memory

/-- The memory behind an address: the range of an object that one of the attempts has reserved,
with chunks for all of it unless it is virtual, or a fragment in the range and the chunks of a
block. -/
inductive Behind (sp : AddressSpace) (tries : List Heaps) (m : Memory) (p n : Nat) : Prop
  | object {hs : Heaps} {i : Nat} {mem : GpuMemory} (attempt : hs ∈ tries)
      (entry : m.core.object p = some (i, mem))
      (range : hs.Reserves sp m.core.heaps p mem.size) (size : n ≤ mem.size)
      (chunks : mem.flags.isVirtual = false → n ≤ mem.chunks.sum)
  | fragment {b i k : Nat} {mem : GpuMemory} (live : m.heap.live p = some k)
      (entry : m.core.object b = some (i, mem)) (range : m.core.heaps.reserved b = some mem.size)
      (size : n ≤ k) (above : b ≤ p) (below : p + k ≤ b + mem.size)
      (chunks : p + k ≤ b + mem.chunks.sum)

/-- A request that is served from a block. -/
theorem Backed.behind_of_served (B : Backed sp cfg m) (hal : SimpleHeap.Aligned m.heap) {size p : Nat}
    {ans : AllocAnswers} {tries : List Heaps} (hsize : 0 < size) (hle : size ≤ realSize cfg size)
    (hsub : m.subAlloc cfg size ans = .ok (p, m')) (hp : p ≠ 0) : Behind sp tries m' p size := by
  have hpos : realSize cfg size < subAllocatorBlockSize → 0 < realSize cfg size := by
    intro _
    omega
  have B' : Backed sp cfg m' := by
    rcases B.subAlloc_cases hpos hsub with ⟨hzero, _⟩ | ⟨_, G⟩
    · exact absurd hzero hp
    · exact G.backed
  obtain ⟨_, _, b, n, hlen, hlo, hhi⟩ := (B.subAlloc_inside hal hpos hsub).2 hp
  obtain ⟨_, i, mem, ho, hb⟩ := B'.block (Or.inl hlen)
  have hlive : m'.heap.live p = some (realSize cfg size) := by
    rw [subAlloc] at hsub
    split at hsub
    next hlt =>
      split at hsub
      next => cases hsub
      next => cases hsub
      next halloc =>
        cases hsub
        have hsmall : subAllocatorBlockSize < 2 ^ 62 := by decide
        exact SimpleHeap.alloc_live B.heap (hpos hlt) (Nat.le_of_lt hlt) (by omega) halloc hp
    next =>
      cases hsub
      exact absurd rfl hp
  have hblock := hb.size
  have hbounds := B'.settled.bounds ho
  have hchunk : gpuMemoryChunkSize = 2 ^ 31 := rfl
  refine .fragment hlive ho (B'.settled.reserved ho) hle hlo (by omega) ?_
  rw [GpuMemory.sum_chunks (by omega)]
  omega

/-- An object that was created for a request has the size of the request. -/
theorem behind_of_created (hfd : info.dmabufFd = none) (hpos : 0 < info.size)
    (hword : info.size < 2 ^ 64) (halign : info.alignment < 2 ^ 64)
    (R : Roundable cfg m ans dev info vmm) (hatt : m.attempted cfg ans info vmm = true) {c : Core}
    (hc : c.heaps ∈ m.tries cfg ans dev info vmm) {a : Answers} {p : Nat} {c' : Core}
    (hcreate : c.createAllocation dev info a = .ok (.success, p, c')) (h : SimpleHeap) :
    Behind sp (m.tries cfg ans dev info vmm) ⟨c', h⟩ p info.size := by
  have hadjusted := R.adjusted_eq hword hatt
  have hle := le_roundUp info.size (pageGranule dev info.domain info.size)
  obtain ⟨i, mem, ho, hsize, hrange⟩ : ∃ i mem, c'.object p = some (i, mem) ∧
      mem.size = (describe dev info).size ∧ c.heaps.Reserves sp c'.heaps p mem.size :=
    Core.createAllocation_reserves hfd (by omega) (R.asked hword halign hatt) (R.search _ hc) hcreate
  have hchunks := R.chunks hatt
  refine .object hc ho hrange (by omega) fun _ => ?_
  rw [GpuMemory.sum_chunks (by omega)]
  omega

/-- The first attempt finds the managers in order. -/
theorem Backed.sound_of_head (B : Backed sp cfg m)
    (hpos : subAllocates cfg info vmm = true → 0 < realSize cfg info.size) :
    ∀ hs ∈ (m.tries cfg ans dev info vmm).head?, hs.Sound sp := by
  intro hs hhead
  rw [tries] at hhead
  split at hhead
  next hsub =>
    split at hhead
    next => cases hhead
    next r hr =>
      obtain ⟨addr, m₁⟩ := r
      simp only at hhead
      split at hhead
      next hzero =>
        rcases B.subAlloc_cases (fun _ => hpos hsub) hr with ⟨_, Q⟩ | ⟨hne, _⟩
        · cases hhead
          exact Q.backed.settled.consistent.sound
        · exact absurd hzero hne
      next => cases hhead
  next =>
    cases hhead
    exact B.settled.consistent.sound

end Memory

/-! ## Requests -/

namespace Sizes

open SubAllocated (step Regular)
open Memory (Behind behind_of_created)

/-- What a request can expect: that no rounding wraps, that an address stands for as much
memory as was asked for, where the first attempt finds the address managers in order, and that a
request of no bytes changes nothing that was handed out. -/
structure Honoured (sp : AddressSpace) (cfg : Config) (m : Memory) (args : AllocArgs)
    (ans : AllocAnswers) : Prop where
  unwrapped : ∀ r ∈ (allocInfo cfg args ans.ram).toOption, Unwrapped sp cfg m ans r.1 r.2.1 r.2.2
  enough : ∀ p m', m.allocMemoryAlign cfg args ans = .ok (.success, p, m') →
    0 < args.sizeInBytes → ∃ r ∈ (allocInfo cfg args ans.ram).toOption,
      (∀ hs ∈ (m.tries cfg ans r.1 r.2.1 r.2.2).head?, hs.Sound sp) ∧
      Behind sp (m.tries cfg ans r.1 r.2.1 r.2.2) m' p args.sizeInBytes
  spared : args.sizeInBytes = 0 → ∀ r, m.allocMemoryAlign cfg args ans = .ok r → Spares m r.2.2

/-- There is room for the roundings of the request. -/
def InRange (cfg : Config) (m : Memory) (args : AllocArgs) (ans : AllocAnswers) : Prop :=
  ∀ r ∈ (allocInfo cfg args ans.ram).toOption, Roundable cfg m ans r.1 r.2.1 r.2.2

instance (cfg : Config) (m : Memory) (args : AllocArgs) (ans : AllocAnswers) :
    Decidable (InRange cfg m args ans) :=
  inferInstanceAs (Decidable (∀ r ∈ (allocInfo cfg args ans.ram).toOption, Roundable ..))

/-- A request that is in range gets its memory. -/
theorem InRange.enough (R : InRange cfg m args ans) (B : Backed sp cfg m)
    (hal : SimpleHeap.Aligned m.heap) (hpage : PageSize cfg) (hword : args.sizeInBytes < 2 ^ 64)
    (halign : args.alignment < 2 ^ 64) (hpos : 0 < args.sizeInBytes) {p : Nat}
    (hrun : m.allocMemoryAlign cfg args ans = .ok (.success, p, m')) :
    ∃ r ∈ (allocInfo cfg args ans.ram).toOption,
      (∀ hs ∈ (m.tries cfg ans r.1 r.2.1 r.2.2).head?, hs.Sound sp) ∧
      Behind sp (m.tries cfg ans r.1 r.2.1 r.2.2) m' p args.sizeInBytes := by
  rw [Memory.allocMemoryAlign] at hrun
  split at hrun
  next => cases hrun
  next =>
    cases hinfo : allocInfo cfg args ans.ram with
    | error status =>
        rw [hinfo] at hrun
        cases hrun
        exact absurd rfl (allocInfo_ne_success hinfo)
    | ok r =>
        obtain ⟨dev, info, vmm⟩ := r
        obtain ⟨hfd, halignment⟩ := Memory.allocInfo_ok hinfo
        have hsize := Memory.allocInfo_size hinfo
        have R := R (dev, info, vmm) (by rw [hinfo]; rfl)
        rw [← hsize] at hword hpos ⊢
        rw [← halignment] at halign
        rw [hinfo] at hrun
        simp only at hrun
        refine ⟨(dev, info, vmm), rfl, B.sound_of_head fun hsub =>
          Nat.lt_of_lt_of_le hpos (R.le_realSize hpage hsub), ?_⟩
        split at hrun
        next hsub =>
          have hsub : subAllocates cfg info vmm = true := by simpa [subAllocates, and_assoc] using hsub
          obtain ⟨⟨q, m₁⟩, hserved, hrun⟩ := ok_of_bind hrun
          simp only at hrun
          split at hrun
          next hq =>
            cases hrun
            exact B.behind_of_served hal hpos (R.le_realSize hpage hsub) hserved hq
          next hq =>
            have hq : q = 0 := by simpa using hq
            subst hq
            have hatt : m.attempted cfg ans info vmm = true := by
              simp [attempted, hserved, Except.toOption]
            have htries : m.tries cfg ans dev info vmm = m₁.attempts cfg dev info ans := by
              simp [Memory.tries, hsub, hserved]
            rw [Memory.createOrTrim] at hrun
            obtain ⟨⟨code, addr, c⟩, hcreate, hrun⟩ := ok_of_bind hrun
            by_cases hcode : code = .success
            · simp only [if_pos hcode] at hrun
              cases hrun
              rw [hcode] at hcreate
              refine behind_of_created hfd hpos hword halign R hatt ?_ hcreate m₁.heap
              rw [htries]
              exact List.mem_cons_self ..
            · simp only [if_neg hcode] at hrun
              obtain ⟨m₂, htrim, hrun⟩ := ok_of_bind hrun
              obtain ⟨⟨code', addr', c'⟩, hcreate', hrun⟩ := ok_of_bind hrun
              by_cases hcode' : code' = .success
              · simp only [if_pos hcode'] at hrun
                cases hrun
                rw [hcode'] at hcreate'
                refine behind_of_created hfd hpos hword halign R hatt ?_ hcreate' m₂.heap
                rw [htries]
                simp [Memory.attempts, hcreate, hcode, htrim]
              · simp only [if_neg hcode'] at hrun
                cases hrun
        next hsub =>
          have hsub : subAllocates cfg info vmm = false :=
            Bool.eq_false_iff.mpr fun h => hsub (by simpa [subAllocates, and_assoc] using h)
          obtain ⟨⟨code, addr, c⟩, hcreate, hrun⟩ := ok_of_bind hrun
          by_cases hcode : code = .success
          · simp only [if_pos hcode] at hrun
            cases hrun
            rw [hcode] at hcreate
            have hatt : m.attempted cfg ans info vmm = true := by simp [attempted, hsub]
            refine behind_of_created hfd hpos hword halign R hatt ?_ hcreate m.heap
            simp [Memory.tries, hsub]
          · simp only [if_neg hcode] at hrun
            cases hrun

/-- After regular calls a request is honoured if and only if it is in range. -/
theorem sizes_honoured (hpage : PageSize cfg) {pid : Nat}
    (h : Reach (step cfg) (Regular cfg) (.new sp pid) m) {args : AllocArgs} (ans : AllocAnswers)
    (hsize : args.sizeInBytes < 2 ^ 64) (halign : args.alignment < 2 ^ 64) :
    Honoured sp cfg m args ans ↔ InRange cfg m args ans := by
  obtain ⟨I, H⟩ := SubAllocated.paged_of_reach hpage.dvd h
  have hinfo : ∀ r ∈ (allocInfo cfg args ans.ram).toOption,
      r.2.1.size < 2 ^ 64 ∧ r.2.1.alignment < 2 ^ 64 := by
    intro r hr
    have hinfo := eq_ok_of_toOption hr
    rw [Memory.allocInfo_size hinfo, (Memory.allocInfo_ok hinfo).2]
    exact ⟨hsize, halign⟩
  have hwraps : (∀ r ∈ (allocInfo cfg args ans.ram).toOption,
      Unwrapped sp cfg m ans r.1 r.2.1 r.2.2) ↔ InRange cfg m args ans :=
    forall₂_congr fun r hr => unwrapped_iff hpage (hinfo r hr).1 (hinfo r hr).2
  constructor
  · intro H
    exact hwraps.mp H.unwrapped
  · intro R
    refine ⟨hwraps.mpr R, fun p m' hrun hpos => ?_, fun hzero r hrun => ?_⟩
    · exact R.enough I.backed I.aligned hpage hsize halign hpos hrun
    · refine I.backed.allocMemoryAlign_spares H hzero hpage.pos ?_ hrun
      intro r hr hatt
      exact (R r hr).asked (hinfo r hr).1 (hinfo r hr).2 hatt

/-- A request for addresses only. -/
def addresses (size : Nat) : AllocArgs where
  preferredNode := 1
  sizeInBytes := size
  memFlags := { onlyAddress := true }

/-- After a page was handed out, another page and no bytes are in range. -/
theorem sizes_honoured_run :
    ∃ m, runAll (step Client.subConfig) (Regular Client.subConfig) (.new smallSpace 1)
        [.allocMemoryAlign (SubAllocated.page 0) {}] = some m ∧
      Honoured smallSpace Client.subConfig m (SubAllocated.page 0) {} ∧
      Honoured smallSpace Client.subConfig m (addresses 0) {} := by
  have hrun : (runAll (step Client.subConfig) (Regular Client.subConfig) (.new smallSpace 1)
      [.allocMemoryAlign (SubAllocated.page 0) {}]).map (fun m =>
        (decide (InRange Client.subConfig m (SubAllocated.page 0) {}),
          decide (InRange Client.subConfig m (addresses 0) {}))) = some (true, true) := by
    decide
  obtain ⟨m, hm, hrange⟩ := Option.map_eq_some_iff.mp hrun
  simp only [Prod.mk.injEq, decide_eq_true_eq] at hrange
  have hreach := reach_of_runAll hm
  have hpage : PageSize Client.subConfig := ⟨by decide, by decide, by decide⟩
  exact ⟨m, hm, (sizes_honoured hpage hreach {} (by decide) (by decide)).mpr hrange.1,
    (sizes_honoured hpage hreach {} (by decide) (by decide)).mpr hrange.2⟩

/-- The largest size is rounded to zero, and no memory is handed out for it. -/
theorem largest_gets_nothing :
    ¬ ∀ m, Reach (step smallConfig) (Regular smallConfig) (.new smallSpace 1) m →
      ∀ args ans, args.sizeInBytes < 2 ^ 64 → args.alignment < 2 ^ 64 →
        Honoured smallSpace smallConfig m args ans := by
  intro hall
  have hrun : ((Memory.new smallSpace 1).allocMemoryAlign smallConfig
      (addresses (2 ^ 64 - 1)) {}).toOption.map (fun r =>
        (r.1, r.2.1, r.2.2.core.object r.2.1 |>.map fun o => o.2.size, r.2.2.heap.live r.2.1)) =
      some (.success, 2 ^ 28, some 0, none) := by
    decide
  obtain ⟨⟨status, p, m⟩, hrun, heq⟩ := Option.map_eq_some_iff.mp hrun
  simp only [Prod.mk.injEq] at heq
  obtain ⟨rfl, rfl, hobject, hlive⟩ := heq
  obtain ⟨_, _, _, hbehind⟩ := (hall _ .start (addresses (2 ^ 64 - 1)) {} (by decide)
    (by decide)).enough _ m (eq_ok_of_toOption hrun) (by decide)
  cases hbehind with
  | object _ entry _ size _ =>
      rw [entry] at hobject
      simp only [Option.map_some, Option.some.injEq] at hobject
      rw [hobject] at size
      exact absurd size (by decide)
  | fragment live _ _ _ _ _ _ =>
      rw [live] at hlive
      cases hlive

/-- Two requests of no bytes get one address, and the second takes it from the first. -/
example : ((((Memory.new smallSpace 1).allocMemoryAlign smallConfig (addresses 0) {}).bind fun r =>
      (r.2.2.allocMemoryAlign smallConfig (addresses 0) {}).map fun r' =>
        ((r.1, r.2.1, (r.2.2.core.object r.2.1).map Prod.fst),
          (r'.1, r'.2.1, (r'.2.2.core.object r'.2.1).map Prod.fst))).toOption) =
    some ((.success, 2 ^ 28, some 0), (.success, 2 ^ 28, some 1)) := by
  decide

end Sizes

end RocDxg
