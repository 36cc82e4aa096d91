import RocDxg.Util

/-!
# Mapping physical memory

`GpuMemory::CreatePhysicalMemory` splits a memory object into chunks of 2 GiB, each a
driver allocation of its own, and `GpuMemory::MapGpuVirtualAddress` maps a range of the
object with one driver call for each chunk.  The first call starts inside a chunk, at
the rest of the offset, but its size is not cut to what is left of the chunk.

`map_correct_iff` says when that goes wrong: a range that does not start at a chunk
boundary must lie in one chunk.

The driver is a parameter.  It answers each call with a status and, if the status is
`NotReady`, with a paging fence value.  Both of these mean that the pages are mapped.
-/

namespace RocDxg

/-- `WDDMDevice::GpuMemoryChunkSize`, 2 GiB. -/
def gpuMemoryChunkSize : Nat := 2 * 2 ^ 30

/-- `_4K` -/
def pageSize : Nat := 0x1000

/-- `CalcChunkNumbers` -/
def calcChunkNumbers (size : Nat) : Nat := u64 (size + gpuMemoryChunkSize - 1) / gpuMemoryChunkSize

/-- The block sizes that the loop of `CreatePhysicalMemory` gives the chunks. -/
def chunkSizes : (numAllocations size : Nat) → List Nat
  | 0, _ => []
  | n + 1, size => min size gpuMemoryChunkSize :: chunkSizes n (size - min size gpuMemoryChunkSize)

/-- The physical memory of a `GpuMemory`: its size and the driver handles of its
chunks, which hold all of it. -/
structure PhysicalMemory where
  size : Nat
  allocHandles : List Nat
  num_eq : allocHandles.length = calcChunkNumbers size
  covers : size ≤ allocHandles.length * gpuMemoryChunkSize

/-! ## The driver and its page table -/

/-- The arguments of `d3dthunk::MapGpuVirtualAddress`.  `write` tells the protection
`Write` from `NoAccess`. -/
structure MapCall where
  baseAddress : Nat
  allocation : Nat
  offsetInPages : Nat
  sizeInPages : Nat
  write : Bool
deriving DecidableEq, Repr

/-- The answer of the driver: a status and a paging fence value. -/
structure MapAnswer where
  code : ErrorCode := .success
  pagingFenceValue : Nat := 0
deriving DecidableEq, Repr

/-- The GPU page table: the allocation of a page, and the page of the allocation. -/
def PageTable := Nat → Option (Nat × Nat)

/-- How far a page is above another, around the end of the address space. -/
def pageDist (base page : Nat) : Nat := (page + 2 ^ 52 - base) % 2 ^ 52

/-- What a call does to the page table when it is carried out. -/
def MapCall.apply (c : MapCall) (pt : PageTable) : PageTable := fun page =>
  let d := pageDist (c.baseAddress / pageSize) page
  if d < c.sizeInPages then
    if c.write then some (c.allocation, c.offsetInPages + d) else none
  else pt page

/-- The calls are carried out in order. -/
def applyAll (calls : List MapCall) (pt : PageTable) : PageTable :=
  calls.foldl (fun pt c => c.apply pt) pt

@[simp] theorem applyAll_nil (pt : PageTable) : applyAll [] pt = pt := rfl

@[simp] theorem applyAll_cons (c : MapCall) (calls : List MapCall) (pt : PageTable) :
    applyAll (c :: calls) pt = applyAll calls (c.apply pt) := by
  simp only [applyAll, List.foldl_cons]

/-- The allocation and the byte in it that a GPU address is mapped to. -/
def PageTable.translate (pt : PageTable) (addr : Nat) : Option (Nat × Nat) :=
  (pt (addr / pageSize)).map fun e => (e.1, e.2 * pageSize + addr % pageSize)

/-! ## MapGpuVirtualAddress -/

/-- The loop that finds the first chunk: the rest of the offset and the index. -/
def firstChunk (offset i : Nat) : Nat × Nat :=
  if gpuMemoryChunkSize ≤ offset then firstChunk (offset - gpuMemoryChunkSize) (i + 1)
  else (offset, i)
termination_by offset
decreasing_by
  unfold gpuMemoryChunkSize at *
  omega

/-- What a loop over the chunks has done: the calls that were carried out, the paging
fence values passed to `UpdatePageFence`, the status and the index of the chunk it
stopped at. -/
structure MapLoop where
  calls : List MapCall
  fences : List Nat
  code : ErrorCode
  stop : Nat

namespace PhysicalMemory

/-- `GetAllocationHandle` -/
def getAllocationHandle (M : PhysicalMemory) (i : Nat) : Nat := M.allocHandles.getD i 0

/-- The length of a chunk in bytes. -/
def chunkSize (M : PhysicalMemory) (i : Nat) : Nat :=
  (chunkSizes M.allocHandles.length M.size).getD i 0

/-- The call for one chunk. -/
def mapCall (M : PhysicalMemory) (mapAddr mapSize offset i : Nat) : MapCall where
  baseAddress := mapAddr
  allocation := M.getAllocationHandle i
  offsetInPages := offset / pageSize
  sizeInPages := min mapSize gpuMemoryChunkSize / pageSize
  write := true

/-- The loop that maps chunk after chunk.  The driver's answers are given by chunk. -/
def mapLoop (M : PhysicalMemory) (answer : Nat → MapAnswer) (mapAddr mapSize offset i : Nat) :
    MapLoop :=
  if mapSize = 0 then ⟨[], [], .success, i⟩
  else
    let call := M.mapCall mapAddr mapSize offset i
    let blockSize := min mapSize gpuMemoryChunkSize
    let a := answer i
    if a.code = .success ∨ a.code = .notReady then
      let r := M.mapLoop answer (u64 (mapAddr + blockSize)) (mapSize - blockSize) 0 (i + 1)
      { r with
        calls := call :: r.calls
        fences := if a.code = .notReady then a.pagingFenceValue :: r.fences else r.fences }
    else ⟨[], [], a.code, i⟩
termination_by mapSize
decreasing_by
  unfold gpuMemoryChunkSize at *
  omega

/-- The call that takes back one chunk. -/
def undoCall (mapAddr mapSize offset : Nat) : MapCall where
  baseAddress := mapAddr
  allocation := 0
  offsetInPages := offset / pageSize
  sizeInPages := min mapSize gpuMemoryChunkSize / pageSize
  write := false

/-- The loop that takes back the chunks from `j` up to where mapping failed. -/
def undoLoop (answer : Nat → MapAnswer) (offset : Nat) :
    (left j mapAddr mapSize : Nat) → List MapCall × List Nat
  | 0, _, _, _ => ([], [])
  | left + 1, j, mapAddr, mapSize =>
      let call := undoCall mapAddr mapSize offset
      let blockSize := min mapSize gpuMemoryChunkSize
      let a := answer j
      let r := undoLoop answer offset left (j + 1) (u64 (mapAddr + blockSize)) (mapSize - blockSize)
      (if a.code = .success ∨ a.code = .notReady then call :: r.1 else r.1,
        if a.code = .notReady then a.pagingFenceValue :: r.2 else r.2)

/-- `MapGpuVirtualAddress`; `undo` are the driver's answers to the calls that take a
partial mapping back. -/
def mapGpuVirtualAddress (M : PhysicalMemory) (answer undo : Nat → MapAnswer)
    (addr size offset : Nat) : MapLoop :=
  let first := firstChunk offset 0
  let r := M.mapLoop answer addr size first.1 first.2
  if r.code = .success then r
  else
    let u := undoLoop undo first.1 (r.stop - first.2) first.2 addr size
    { r with calls := r.calls ++ u.1, fences := r.fences ++ u.2 }

/-! ## The chunks -/

theorem getD_chunkSizes {n size i : Nat} (h : i < n) :
    (chunkSizes n size).getD i 0 =
      min ((i + 1) * gpuMemoryChunkSize) size - i * gpuMemoryChunkSize := by
  induction n generalizing size i with
  | zero => omega
  | succ n ih =>
      cases i with
      | zero =>
          rw [chunkSizes, List.getD_cons_zero, Nat.zero_add, Nat.one_mul, Nat.zero_mul, Nat.sub_zero,
            Nat.min_comm]
      | succ i =>
          rw [chunkSizes, List.getD_cons_succ, ih (Nat.lt_of_succ_lt_succ h)]
          generalize gpuMemoryChunkSize = c
          rw [Nat.add_mul (i + 1) 1, Nat.add_mul i 1]
          omega

/-- Chunk `i` holds the bytes from `i` times the chunk size up to the next multiple or
the end of the memory. -/
theorem chunkSize_eq (M : PhysicalMemory) {i : Nat} (h : i * gpuMemoryChunkSize < M.size) :
    M.chunkSize i =
      min ((i + 1) * gpuMemoryChunkSize) M.size - i * gpuMemoryChunkSize := by
  refine getD_chunkSizes ?_
  have hlt := Nat.lt_of_lt_of_le h M.covers
  exact Nat.lt_of_mul_lt_mul_right hlt

theorem firstChunk_eq (offset i : Nat) :
    firstChunk offset i = (offset % gpuMemoryChunkSize, i + offset / gpuMemoryChunkSize) := by
  induction offset, i using firstChunk.induct with
  | case1 offset i hle ih =>
      rw [firstChunk, if_pos hle, ih, ← Nat.mod_eq_sub_mod hle, Nat.div_eq_sub_div _ hle,
        Nat.add_right_comm, Nat.add_assoc]
      · decide
  | case2 offset i hgt =>
      have hlt := Nat.lt_of_not_le hgt
      rw [firstChunk, if_neg hgt, Nat.mod_eq_of_lt hlt, Nat.div_eq_of_lt hlt]
      rfl

/-! ## What the loop maps -/

/-- Every call is carried out. -/
def Succeeds (answer : Nat → MapAnswer) : Prop :=
  ∀ i, (answer i).code = .success ∨ (answer i).code = .notReady

theorem mapLoop_zero (M : PhysicalMemory) (answer : Nat → MapAnswer) (mapAddr offset i : Nat) :
    M.mapLoop answer mapAddr 0 offset i = ⟨[], [], .success, i⟩ := by
  rw [mapLoop, if_pos rfl]

theorem mapLoop_step (M : PhysicalMemory) {answer : Nat → MapAnswer} (h : Succeeds answer)
    {mapSize : Nat} (hpos : mapSize ≠ 0) (mapAddr offset i : Nat) :
    (M.mapLoop answer mapAddr mapSize offset i).calls =
      M.mapCall mapAddr mapSize offset i ::
        (M.mapLoop answer (u64 (mapAddr + min mapSize gpuMemoryChunkSize))
          (mapSize - min mapSize gpuMemoryChunkSize) 0 (i + 1)).calls ∧
    (M.mapLoop answer mapAddr mapSize offset i).code =
      (M.mapLoop answer (u64 (mapAddr + min mapSize gpuMemoryChunkSize))
          (mapSize - min mapSize gpuMemoryChunkSize) 0 (i + 1)).code := by
  rw [mapLoop, if_neg hpos]
  simp only [if_pos (h i)]
  exact ⟨trivial, trivial⟩

/-- Pages as seen from behind a block of whole pages, wherever in its page it starts. -/
theorem pageDist_advance {addr b page : Nat} (hlt : addr < 2 ^ 64) (hb : b % pageSize = 0)
    (hle : b ≤ gpuMemoryChunkSize) (hpage : page < 2 ^ 52) :
    (b / pageSize ≤ pageDist (addr / pageSize) page ∧
      pageDist (u64 (addr + b) / pageSize) page + b / pageSize = pageDist (addr / pageSize) page) ∨
    (pageDist (addr / pageSize) page < b / pageSize ∧
      pageDist (u64 (addr + b) / pageSize) page + b / pageSize =
        pageDist (addr / pageSize) page + 2 ^ 52) := by
  simp only [pageDist, u64, pageSize, gpuMemoryChunkSize] at *
  omega

/-- The size of a block. -/
structure IsBlock (mapSize b : Nat) : Prop where
  pos : 0 < b
  aligned : b % pageSize = 0
  le : b ≤ mapSize
  cases : b = mapSize ∧ mapSize ≤ gpuMemoryChunkSize ∨ b = gpuMemoryChunkSize

theorem isBlock_min {mapSize : Nat} (hpos : mapSize ≠ 0) (hsize : mapSize % pageSize = 0) :
    IsBlock mapSize (min mapSize gpuMemoryChunkSize) := by
  by_cases h : mapSize ≤ gpuMemoryChunkSize
  · rw [Nat.min_eq_left h]
    exact ⟨Nat.pos_of_ne_zero hpos, hsize, Nat.le_refl _, Or.inl ⟨rfl, h⟩⟩
  · have hlt := Nat.lt_of_not_le h
    rw [Nat.min_eq_right (Nat.le_of_lt hlt)]
    exact ⟨by decide, by decide, Nat.le_of_lt hlt, Or.inr rfl⟩

theorem IsBlock.le_chunk {mapSize b : Nat} (h : IsBlock mapSize b) : b ≤ gpuMemoryChunkSize := by
  cases h.cases with
  | inl heq => exact heq.1 ▸ heq.2
  | inr heq => exact Nat.le_of_eq heq

theorem u64_add_aligned {a b : Nat} (ha : a % pageSize = 0) (hb : b % pageSize = 0) :
    u64 (a + b) % pageSize = 0 := by
  simp only [u64, pageSize] at *
  omega

theorem sub_aligned {a b : Nat} (ha : a % pageSize = 0) (hb : b % pageSize = 0) :
    (a - b) % pageSize = 0 := by
  simp only [pageSize] at *
  omega

/-- A page inside the block. -/
theorem block_inside {mapSize offset b d : Nat} (hblock : IsBlock mapSize b)
    (hoff : offset % pageSize = 0) (hfit : offset = 0 ∨ offset + mapSize ≤ gpuMemoryChunkSize)
    (hd : d < b / pageSize) :
    d < mapSize / pageSize ∧ (offset + d * pageSize) / gpuMemoryChunkSize = 0 ∧
      (offset + d * pageSize) % gpuMemoryChunkSize / pageSize = offset / pageSize + d := by
  obtain ⟨_, hb, hle, hcases⟩ := hblock
  simp only [pageSize, gpuMemoryChunkSize] at *
  omega

/-- A page behind the block, `d'` pages from its end. -/
theorem block_behind {mapSize offset b d d' : Nat} (hblock : IsBlock mapSize b)
    (hsize : mapSize % pageSize = 0)
    (hfit : offset = 0 ∨ offset + mapSize ≤ gpuMemoryChunkSize) (hd : d' + b / pageSize = d) :
    (d' < (mapSize - b) / pageSize ↔ d < mapSize / pageSize) ∧
      (d < mapSize / pageSize →
        (0 + d' * pageSize) / gpuMemoryChunkSize + 1 = (offset + d * pageSize) / gpuMemoryChunkSize ∧
        (0 + d' * pageSize) % gpuMemoryChunkSize = (offset + d * pageSize) % gpuMemoryChunkSize) := by
  obtain ⟨_, hb, hle, hcases⟩ := hblock
  simp only [pageSize, gpuMemoryChunkSize] at *
  omega

/-- The loop of a range that starts at a chunk boundary, or lies in one chunk. -/
theorem mapLoop_spec (M : PhysicalMemory) {answer : Nat → MapAnswer} (hans : Succeeds answer)
    (mapSize mapAddr offset i : Nat) (pt : PageTable) {page : Nat} (haddr : mapAddr % pageSize = 0)
    (hlt : mapAddr < 2 ^ 64) (hsize : mapSize % pageSize = 0) (hsize' : mapSize ≤ 2 ^ 64)
    (hoff : offset % pageSize = 0) (hfit : offset = 0 ∨ offset + mapSize ≤ gpuMemoryChunkSize)
    (hpage : page < 2 ^ 52) :
    applyAll (M.mapLoop answer mapAddr mapSize offset i).calls pt page =
      if pageDist (mapAddr / pageSize) page < mapSize / pageSize then
        some (M.getAllocationHandle
            (i + (offset + pageDist (mapAddr / pageSize) page * pageSize) / gpuMemoryChunkSize),
          (offset + pageDist (mapAddr / pageSize) page * pageSize) % gpuMemoryChunkSize / pageSize)
      else pt page := by
  induction mapSize using Nat.strong_induction_on generalizing mapAddr offset i pt with
  | _ mapSize ih =>
  by_cases hz : mapSize = 0
  · subst hz
    rw [mapLoop_zero, Nat.zero_div, if_neg (Nat.not_lt_zero _), applyAll_nil]
  rw [(M.mapLoop_step hans hz mapAddr offset i).1, applyAll_cons]
  have hblock := isBlock_min hz hsize
  have hcall : (M.mapCall mapAddr mapSize offset i).apply pt page =
      if pageDist (mapAddr / pageSize) page < min mapSize gpuMemoryChunkSize / pageSize then
        some (M.getAllocationHandle i, offset / pageSize + pageDist (mapAddr / pageSize) page)
      else pt page := rfl
  generalize min mapSize gpuMemoryChunkSize = b at hblock hcall
  have hrest := ih (mapSize - b) (Nat.sub_lt (Nat.pos_of_ne_zero hz) hblock.pos)
    (u64 (mapAddr + b)) 0 (i + 1) ((M.mapCall mapAddr mapSize offset i).apply pt)
    (u64_add_aligned haddr hblock.aligned) (Nat.mod_lt _ (by decide))
    (sub_aligned hsize hblock.aligned) (Nat.le_trans (Nat.sub_le ..) hsize') (Nat.zero_mod _)
    (Or.inl rfl)
  rw [hrest, hcall]
  cases pageDist_advance hlt hblock.aligned hblock.le_chunk hpage with
  | inl hd =>
      obtain ⟨hiff, heq⟩ := block_behind hblock hsize hfit hd.2
      rw [if_neg (Nat.not_lt.mpr hd.1)]
      by_cases hlast : pageDist (mapAddr / pageSize) page < mapSize / pageSize
      · obtain ⟨hdiv, hmod⟩ := heq hlast
        rw [if_pos (hiff.mpr hlast), if_pos hlast, hmod, ← hdiv, Nat.add_right_comm, Nat.add_assoc]
      · rw [if_neg (mt hiff.mp hlast), if_neg hlast]
  | inr hd =>
      obtain ⟨hin, hdiv, hmod⟩ := block_inside hblock hoff hfit hd.1
      have hout : ¬ pageDist (u64 (mapAddr + b) / pageSize) page < (mapSize - b) / pageSize := by
        have := hd.2
        have := hblock.le
        have := hblock.aligned
        simp only [pageSize] at *
        omega
      rw [if_neg hout, if_pos hd.1, if_pos hin, hdiv, hmod, Nat.add_zero]

theorem mapLoop_code (M : PhysicalMemory) {answer : Nat → MapAnswer} (hans : Succeeds answer)
    (mapSize mapAddr offset i : Nat) :
    (M.mapLoop answer mapAddr mapSize offset i).code = .success := by
  induction mapSize using Nat.strong_induction_on generalizing mapAddr offset i with
  | _ mapSize ih =>
  by_cases hz : mapSize = 0
  · rw [hz, mapLoop_zero]
  · rw [(M.mapLoop_step hans hz mapAddr offset i).2]
    refine ih _ ?_ _ _ _
    have hpos := Nat.pos_of_ne_zero hz
    exact Nat.sub_lt hpos (Nat.lt_min.mpr ⟨hpos, by decide⟩)

/-! ## What the calls ask for -/

/-- The call asks for bytes of one chunk. -/
def InChunk (M : PhysicalMemory) (c : MapCall) : Prop :=
  ∃ i, c.allocation = M.getAllocationHandle i ∧
    (c.offsetInPages + c.sizeInPages) * pageSize ≤ M.chunkSize i

theorem aligned_pages {offset b : Nat} (hoff : offset % pageSize = 0) (hb : b % pageSize = 0) :
    (offset / pageSize + b / pageSize) * pageSize = offset + b := by
  simp only [pageSize] at *
  omega

theorem le_chunkSize (M : PhysicalMemory) {i n : Nat} (hpos : 0 < n)
    (hchunk : n ≤ gpuMemoryChunkSize) (hsize : i * gpuMemoryChunkSize + n ≤ M.size) :
    n ≤ M.chunkSize i := by
  rw [chunkSize_eq M (by omega), Nat.add_mul, Nat.one_mul]
  generalize i * gpuMemoryChunkSize = a at hsize
  omega

theorem chunkSize_le (M : PhysicalMemory) (i : Nat) : M.chunkSize i ≤ gpuMemoryChunkSize := by
  rw [chunkSize]
  generalize M.allocHandles.length = n, M.size = size
  induction n generalizing size i with
  | zero => exact Nat.zero_le _
  | succ n ih =>
      cases i with
      | zero => exact Nat.min_le_right ..
      | succ i => exact ih i _

/-- The calls of a range that starts at a chunk boundary, or lies in one chunk. -/
theorem mapLoop_inChunk (M : PhysicalMemory) {answer : Nat → MapAnswer} (hans : Succeeds answer)
    (mapSize mapAddr offset i : Nat) (hsize : mapSize % pageSize = 0)
    (hoff : offset % pageSize = 0) (hfit : offset = 0 ∨ offset + mapSize ≤ gpuMemoryChunkSize)
    (hin : mapSize ≠ 0 → i * gpuMemoryChunkSize + offset + mapSize ≤ M.size) :
    ∀ c ∈ (M.mapLoop answer mapAddr mapSize offset i).calls, M.InChunk c := by
  induction mapSize using Nat.strong_induction_on generalizing mapAddr offset i with
  | _ mapSize ih =>
  by_cases hz : mapSize = 0
  · subst hz
    rw [mapLoop_zero]
    exact fun c hc => absurd hc List.not_mem_nil
  rw [(M.mapLoop_step hans hz mapAddr offset i).1]
  have hblock := isBlock_min hz hsize
  have hin := hin hz
  intro c hc
  cases List.mem_cons.mp hc with
  | inl heq =>
      subst heq
      refine ⟨i, rfl, ?_⟩
      simp only [mapCall]
      rw [aligned_pages hoff hblock.aligned]
      generalize min mapSize gpuMemoryChunkSize = b at hblock
      have hpos := hblock.pos
      have hle := hblock.le
      refine le_chunkSize M (by omega) ?_ (by omega)
      cases hfit with
      | inl hzero => rw [hzero, Nat.zero_add]; exact hblock.le_chunk
      | inr hsum => exact Nat.le_trans (Nat.add_le_add_left hle _) hsum
  | inr hmem =>
      generalize min mapSize gpuMemoryChunkSize = b at hblock hmem
      refine ih (mapSize - b) (Nat.sub_lt (Nat.pos_of_ne_zero hz) hblock.pos) _ _ _
        (sub_aligned hsize hblock.aligned) (Nat.zero_mod _) (Or.inl rfl) ?_ c hmem
      intro hne
      rw [Nat.add_mul, Nat.one_mul]
      generalize i * gpuMemoryChunkSize = a at hin
      have hle := hblock.le
      cases hblock.cases with
      | inl heq => omega
      | inr heq => omega

/-! ## Correctness -/

/-- Every byte of the range is mapped to its chunk, and every call stays in its chunk. -/
def Maps (M : PhysicalMemory) (calls : List MapCall) (pt : PageTable) (addr size offset : Nat) :
    Prop :=
  (∀ k < size, (applyAll calls pt).translate (u64 (addr + k)) =
    some (M.getAllocationHandle ((offset + k) / gpuMemoryChunkSize),
      (offset + k) % gpuMemoryChunkSize)) ∧
  ∀ c ∈ calls, M.InChunk c

theorem size_le (M : PhysicalMemory) : M.size ≤ 2 ^ 64 := by
  have hcovers := M.covers
  rw [M.num_eq, calcChunkNumbers] at hcovers
  have hlt : u64 (M.size + gpuMemoryChunkSize - 1) < 2 ^ 64 := Nat.mod_lt _ (by decide)
  exact Nat.le_trans hcovers (Nat.le_trans (Nat.div_mul_le_self ..) (Nat.le_of_lt hlt))

theorem pageDist_byte {addr k : Nat} (haddr : addr % pageSize = 0) (hlt : addr < 2 ^ 64)
    (hk : k < 2 ^ 64) : pageDist (addr / pageSize) (u64 (addr + k) / pageSize) = k / pageSize := by
  simp only [pageDist, u64, pageSize] at *
  omega

theorem byte_chunk {offset k : Nat} (hoff : offset % pageSize = 0) :
    0 + offset / gpuMemoryChunkSize +
        (offset % gpuMemoryChunkSize + k / pageSize * pageSize) / gpuMemoryChunkSize =
      (offset + k) / gpuMemoryChunkSize := by
  simp only [gpuMemoryChunkSize, pageSize] at *
  omega

theorem byte_offset {addr offset k : Nat} (haddr : addr % pageSize = 0)
    (hoff : offset % pageSize = 0) :
    (offset % gpuMemoryChunkSize + k / pageSize * pageSize) % gpuMemoryChunkSize / pageSize *
        pageSize + u64 (addr + k) % pageSize =
      (offset + k) % gpuMemoryChunkSize := by
  simp only [gpuMemoryChunkSize, pageSize, u64] at *
  omega

theorem mod_aligned {offset : Nat} (hoff : offset % pageSize = 0) :
    offset % gpuMemoryChunkSize % pageSize = 0 := by
  simp only [gpuMemoryChunkSize, pageSize] at *
  omega

theorem page_lt {size k : Nat} (hk : k < size) (hsize : size % pageSize = 0) :
    k / pageSize < size / pageSize := by
  simp only [pageSize] at *
  omega

/-- If the first call stays in its chunk, the range fits. -/
theorem fits_of_inChunk (M : PhysicalMemory) {answer : Nat → MapAnswer} (hans : Succeeds answer)
    {addr size offset i : Nat} (hpos : 0 < size) (hsize : size % pageSize = 0)
    (hoff : offset % pageSize = 0)
    (h : ∀ c ∈ (M.mapLoop answer addr size (offset % gpuMemoryChunkSize) i).calls, M.InChunk c) :
    offset % gpuMemoryChunkSize = 0 ∨
      offset % gpuMemoryChunkSize + size ≤ gpuMemoryChunkSize := by
  have hz : size ≠ 0 := Nat.ne_of_gt hpos
  have hblock := isBlock_min hz hsize
  rw [(M.mapLoop_step hans hz _ _ _).1] at h
  obtain ⟨j, _, hle⟩ := h _ (List.mem_cons_self ..)
  simp only [mapCall] at hle
  rw [aligned_pages (mod_aligned hoff) hblock.aligned] at hle
  have hchunk := Nat.le_trans hle (M.chunkSize_le j)
  generalize offset % gpuMemoryChunkSize = o at hchunk
  cases hblock.cases with
  | inl heq =>
      rw [heq.1] at hchunk
      exact Or.inr hchunk
  | inr heq =>
      rw [heq] at hchunk
      exact Or.inl (by omega)

/-- With a driver that carries out every call, the range is mapped right exactly if it
starts at a chunk boundary or lies in one chunk. -/
theorem map_correct_iff (M : PhysicalMemory) {answer undo : Nat → MapAnswer}
    (hans : Succeeds answer) (pt : PageTable) {addr size offset : Nat} (hpos : 0 < size)
    (haddr : addr % pageSize = 0) (hlt : addr < 2 ^ 64) (hsize : size % pageSize = 0)
    (hoff : offset % pageSize = 0) (hin : offset + size ≤ M.size) :
    (M.mapGpuVirtualAddress answer undo addr size offset).code = .success ∧
    (M.Maps (M.mapGpuVirtualAddress answer undo addr size offset).calls pt addr size offset ↔
      offset % gpuMemoryChunkSize = 0 ∨
        offset % gpuMemoryChunkSize + size ≤ gpuMemoryChunkSize) := by
  have hcode := M.mapLoop_code hans size addr (offset % gpuMemoryChunkSize)
    (0 + offset / gpuMemoryChunkSize)
  rw [mapGpuVirtualAddress, firstChunk_eq]
  simp only [if_pos hcode]
  refine ⟨hcode, ?_, ?_⟩
  · intro hmaps
    exact M.fits_of_inChunk hans hpos hsize hoff hmaps.2
  · intro hfit
    have hoff' := mod_aligned hoff
    refine ⟨?_, ?_⟩
    · intro k hk
      have hk' : k < 2 ^ 64 := by
        have := M.size_le
        omega
      have hpage : u64 (addr + k) / pageSize < 2 ^ 52 := by
        simp only [u64, pageSize]
        omega
      rw [PageTable.translate, M.mapLoop_spec hans size addr _ _ pt haddr hlt hsize
        (Nat.le_trans (Nat.le_trans (Nat.le_add_left ..) hin) M.size_le) hoff' hfit hpage,
        pageDist_byte haddr hlt hk', if_pos (page_lt hk hsize), Option.map_some]
      simp only [byte_chunk hoff, byte_offset haddr hoff]
    · refine M.mapLoop_inChunk hans _ _ _ _ hsize hoff' hfit fun _ => ?_
      rw [Nat.zero_add, Nat.mul_comm, Nat.div_add_mod]
      exact hin

/-- A memory of 4 GiB. -/
def sampleMemory : PhysicalMemory where
  size := 0x100000000
  allocHandles := [7, 9]
  num_eq := by decide
  covers := by decide

/-- All of the memory, with two calls. -/
theorem map_correct_iff_whole :
    Succeeds (fun _ => {}) ∧
    sampleMemory.Maps (sampleMemory.mapGpuVirtualAddress (fun _ => {}) (fun _ => {})
      0x4000000000 0x100000000 0).calls (fun _ => none) 0x4000000000 0x100000000 0 := by
  have hans : Succeeds fun _ => {} := fun _ => Or.inl rfl
  exact ⟨hans, (sampleMemory.map_correct_iff hans _ (by decide) (by decide) (by decide) (by decide)
    (by decide) (by decide)).2.mpr (Or.inl (by decide))⟩

/-- The two middle gigabytes of the memory are asked for in one call, which goes past
the end of the first chunk. -/
theorem middle_range_leaves_chunk :
    Succeeds (fun _ => {}) ∧ 0x40000000 + 0x80000000 ≤ sampleMemory.size ∧
    ¬ sampleMemory.Maps (sampleMemory.mapGpuVirtualAddress (fun _ => {}) (fun _ => {})
      0x4000000000 0x80000000 0x40000000).calls (fun _ => none) 0x4000000000 0x80000000 0x40000000 := by
  have hans : Succeeds fun _ => {} := fun _ => Or.inl rfl
  refine ⟨hans, by decide, ?_⟩
  intro hmaps
  have hcalls := hmaps.2
  rw [mapGpuVirtualAddress, firstChunk_eq] at hcalls
  simp only [if_pos (sampleMemory.mapLoop_code hans _ _ _ _)] at hcalls
  have hfit := sampleMemory.fits_of_inChunk hans (by decide) (by decide) (by decide) hcalls
  revert hfit
  decide

end PhysicalMemory

end RocDxg
