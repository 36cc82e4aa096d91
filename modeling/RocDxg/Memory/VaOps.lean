import RocDxg.Memory.Allocation
import RocDxg.Memory.PartialMapping

/-!
# Mapping and unmapping on request

`hsaKmtMemoryVaMap` and `hsaKmtMemoryVaUnmap` of `memory.cpp`, `amdgpu_bo_va_op_impl` of
`libdrm.cpp`, and the calls of `GpuMemory` below them.  A map makes the object resident once
its pages are mapped, an unmap evicts it once they are not.

The two are not mirror images.  A map that fails to make the object resident leaves the pages
mapped.  An unmap whose last chunk the driver will finish later reports an error and does not
evict.  A map at the address the object has already does nothing, and the unmap that follows
evicts all the same.  `VaOps.va_ops_symmetric_iff` says when none of this happens.
-/

namespace RocDxg

open PhysicalMemory (Carried)

/-- A buffer object: its address, if it has one, and its chunks. -/
structure Bo where
  gpuAddress : Nat
  physical : PhysicalMemory

/-- The range that a request is about. -/
structure VaRange where
  offset : Nat
  size : Nat
  addr : Nat
  size_lt : size < 2 ^ 64
  addr_lt : addr < 2 ^ 64

/-- What the driver answers to the calls of a request. -/
structure VaAnswers where
  /-- The calls for the chunks, by chunk. -/
  chunk : Nat → MapAnswer
  /-- The calls that take a partial mapping back, by chunk. -/
  undo : Nat → MapAnswer
  makeResident : MapAnswer

/-- What the requests have done for one object. -/
structure VaState where
  pageTable : PageTable
  /-- The calls for chunks that the driver has carried out, oldest first. -/
  log : List MapCall := []
  pageFenceValue : Nat := 0
  /-- The calls of `MakeResident`. -/
  makeResidents : Nat := 0
  /-- Those of them that the driver has carried out. -/
  residents : Nat := 0
  /-- The calls of `Evict`. -/
  evicts : Nat := 0

/-! ## The calls of GpuMemory -/

namespace PhysicalMemory

/-- The call that unmaps one chunk. -/
def unmapCall (M : PhysicalMemory) (mapAddr mapSize i : Nat) : MapCall where
  baseAddress := mapAddr
  allocation := M.getAllocationHandle i
  offsetInPages := 0
  sizeInPages := min mapSize gpuMemoryChunkSize / pageSize
  write := false

/-- The loop of `UnmapGpuVirtualAddress`.  `code` is the status of the chunk before. -/
def unmapLoop (M : PhysicalMemory) (answer : Nat → MapAnswer) (mapAddr mapSize i : Nat)
    (code : ErrorCode) : MapLoop :=
  if mapSize = 0 then ⟨[], [], code, i⟩
  else
    let call := M.unmapCall mapAddr mapSize i
    let blockSize := min mapSize gpuMemoryChunkSize
    let a := answer i
    if a.code = .notReady ∨ a.code = .success then
      let r := M.unmapLoop answer (u64 (mapAddr + blockSize)) (mapSize - blockSize) (i + 1) a.code
      { r with
        calls := call :: r.calls
        fences := if a.code = .notReady then a.pagingFenceValue :: r.fences else r.fences }
    else ⟨[], [], a.code, i⟩
termination_by mapSize
decreasing_by
  unfold gpuMemoryChunkSize at *
  omega

/-- `UnmapGpuVirtualAddress` -/
def unmapGpuVirtualAddress (M : PhysicalMemory) (answer : Nat → MapAnswer)
    (addr size offset : Nat) : MapLoop :=
  M.unmapLoop answer addr size (firstChunk offset 0).2 .success

end PhysicalMemory

namespace VaState

/-- The calls of a loop over the chunks. -/
def run (s : VaState) (r : MapLoop) : VaState :=
  { s with
    pageTable := applyAll r.calls s.pageTable
    log := s.log ++ r.calls
    pageFenceValue := updateAll r.fences s.pageFenceValue }

/-- `MakeResident` -/
def makeResident (s : VaState) (a : MapAnswer) : ErrorCode × VaState :=
  let s := { s with makeResidents := s.makeResidents + 1 }
  if a.code = .notReady then
    (.success, { s with
      pageFenceValue := updatePageFence s.pageFenceValue a.pagingFenceValue
      residents := s.residents + 1 })
  else if a.code = .success then (.success, { s with residents := s.residents + 1 })
  else (a.code, s)

/-- `Evict` -/
def evict (s : VaState) : VaState := { s with evicts := s.evicts + 1 }

/-! ## The requests -/

/-- `amdgpu_bo_va_op_impl` with `AMDGPU_VA_OP_MAP`: whether it returns zero. -/
def vaOpMap (s : VaState) (bo : Bo) (r : VaRange) (a : VaAnswers) : Bool × VaState :=
  if bo.gpuAddress = r.addr then (true, s)
  else if bo.gpuAddress ≠ 0 then (false, s)
  else
    let loop := bo.physical.mapGpuVirtualAddress a.chunk a.undo r.addr r.size r.offset
    let s := s.run loop
    if loop.code ≠ .success then (false, s)
    else
      let (code, s) := s.makeResident a.makeResident
      if code ≠ .success then (false, s) else (true, s)

/-- `amdgpu_bo_va_op_impl` with `AMDGPU_VA_OP_UNMAP` -/
def vaOpUnmap (s : VaState) (bo : Bo) (r : VaRange) (a : VaAnswers) : Bool × VaState :=
  let loop := bo.physical.unmapGpuVirtualAddress a.chunk r.addr r.size r.offset
  let s := s.run loop
  if loop.code ≠ .success then (false, s) else (true, s.evict)

/-- `hsaKmtMemoryVaMap` -/
def memoryVaMap (s : VaState) (isOpen : Bool) (handle : Option Bo) (r : VaRange)
    (a : VaAnswers) : Status × VaState :=
  if isOpen = false then (.kernelIoChannelNotOpened, s)
  else
    match handle with
    | none => (.error, s)
    | some bo =>
        let (ok, s) := s.vaOpMap bo r a
        (if ok then .success else .error, s)

/-- `hsaKmtMemoryVaUnmap` -/
def memoryVaUnmap (s : VaState) (isOpen : Bool) (handle : Option Bo) (r : VaRange)
    (a : VaAnswers) : Status × VaState :=
  if isOpen = false then (.kernelIoChannelNotOpened, s)
  else
    match handle with
    | none => (.error, s)
    | some bo =>
        let (ok, s) := s.vaOpUnmap bo r a
        (if ok then .success else .error, s)

/-! ## What the requests promise -/

/-- The state `s'` has nothing of the request behind it: the pages that were mapped since `s`
are not mapped any more, and the object has not been made resident. -/
structure LeavesNothing (s s' : VaState) : Prop where
  unmapped : ∀ c ∈ s'.log.drop s.log.length, c.write = true → ∀ page < 2 ^ 52, c.Covers page →
    s'.pageTable page = none
  notResident : s'.residents = s.residents

/-- A map that reports an error leaves nothing. -/
def MapUndone (s : VaState) (bo : Bo) (r : VaRange) (a : VaAnswers) : Prop :=
  (s.memoryVaMap true (some bo) r a).1 ≠ .success →
    s.LeavesNothing (s.memoryVaMap true (some bo) r a).2

/-- Every call for a chunk of the range is carried out. -/
def ChunksCarried (r : VaRange) (a : VaAnswers) : Prop :=
  ∀ k, k * gpuMemoryChunkSize < r.size → Carried (a.chunk (r.offset / gpuMemoryChunkSize + k))

/-- An unmap for which every call is carried out succeeds and evicts the object. -/
def UnmapReported (s : VaState) (bo : Bo) (r : VaRange) (a : VaAnswers) : Prop :=
  ChunksCarried r a →
    (s.memoryVaUnmap true (some bo) r a).1 = .success ∧
      (s.memoryVaUnmap true (some bo) r a).2.evicts = s.evicts + 1

/-- A map and the unmap of the same range. -/
structure VaPair where
  range : VaRange
  map : VaAnswers
  unmap : VaAnswers

/-- The pairs one after the other, as long as they succeed. -/
def pairs (s : VaState) (bo : Bo) : List VaPair → Option VaState
  | [] => some s
  | p :: ps =>
      if (s.memoryVaMap true (some bo) p.range p.map).1 = .success then
        let s := (s.memoryVaMap true (some bo) p.range p.map).2
        if (s.memoryVaUnmap true (some bo) p.range p.unmap).1 = .success then
          (s.memoryVaUnmap true (some bo) p.range p.unmap).2.pairs bo ps
        else none
      else none

/-! ## When they keep it -/

/-- An object that has been mapped can be made resident, and chunks in front of one that fails
can be taken back. -/
structure MapBacked (r : VaRange) (a : VaAnswers) : Prop where
  resident : ChunksCarried r a → pageSize ≤ r.size → Carried a.makeResident
  undo : ∀ n, n * gpuMemoryChunkSize < r.size →
    ¬ Carried (a.chunk (r.offset / gpuMemoryChunkSize + n)) →
    (∀ k < n, Carried (a.chunk (r.offset / gpuMemoryChunkSize + k))) →
    ∀ k < n, Carried (a.undo (r.offset / gpuMemoryChunkSize + k))

/-- The call for the last chunk is not left for later. -/
def LastFinished (r : VaRange) (a : VaAnswers) : Prop :=
  ∀ k, k * gpuMemoryChunkSize < r.size → r.size ≤ (k + 1) * gpuMemoryChunkSize →
    (a.chunk (r.offset / gpuMemoryChunkSize + k)).code ≠ .notReady

variable {s s' : VaState} {bo : Bo} {r : VaRange} {a : VaAnswers}

theorem memoryVaMap_eq (s : VaState) (bo : Bo) (r : VaRange) (a : VaAnswers) :
    s.memoryVaMap true (some bo) r a =
      (if (s.vaOpMap bo r a).1 then .success else .error, (s.vaOpMap bo r a).2) := rfl

theorem memoryVaUnmap_eq (s : VaState) (bo : Bo) (r : VaRange) (a : VaAnswers) :
    s.memoryVaUnmap true (some bo) r a =
      (if (s.vaOpUnmap bo r a).1 then .success else .error, (s.vaOpUnmap bo r a).2) := rfl

theorem makeResident_carried {m : MapAnswer} (h : Carried m) :
    (s.makeResident m).1 = .success ∧ (s.makeResident m).2.evicts = s.evicts ∧
      (s.makeResident m).2.makeResidents = s.makeResidents + 1 := by
  rw [makeResident]
  rcases h with hsuccess | hnotReady
  · simp [hsuccess]
  · simp [hnotReady]

theorem makeResident_failed {m : MapAnswer} (h : ¬ Carried m) :
    (s.makeResident m).1 ≠ .success ∧
      (s.makeResident m).2 = { s with makeResidents := s.makeResidents + 1 } := by
  simp only [Carried, not_or] at h
  simp [makeResident, h.1, h.2]

end VaState

namespace PhysicalMemory

variable {M : PhysicalMemory} {answer undo : Nat → MapAnswer} {addr size offset i : Nat}

/-- A loop that fails has stopped at the first call that failed. -/
theorem stop_eq (M : PhysicalMemory) (addr offset : Nat) {n : Nat}
    (hn : n * gpuMemoryChunkSize < size) (hfail : ¬ Carried (answer (i + n)))
    (hbefore : ∀ k < n, Carried (answer (i + k))) :
    (M.mapLoop answer addr size offset i).code ≠ .success ∧
      (M.mapLoop answer addr size offset i).stop = i + n := by
  have hle := M.le_stop answer addr size offset i
  have hstop := M.mapLoop_stop answer addr size offset i
  obtain ⟨hcarried, hlast⟩ := M.mapLoop_answers answer addr size offset i
  generalize M.mapLoop answer addr size offset i = r at *
  have hnot : r.stop ≤ i + n := by
    by_contra hgt
    exact hfail (hcarried (i + n) (Nat.le_add_right _ _) (Nat.lt_of_not_le hgt))
  have hcode : r.code ≠ .success := by
    intro h
    have hlt := Nat.lt_of_mul_lt_mul_right (Nat.lt_of_lt_of_le hn (hstop.mp h))
    omega
  refine ⟨hcode, Nat.le_antisymm hnot ?_⟩
  by_contra hgt
  have hk := hbefore (r.stop - i) (by omega)
  rw [Nat.add_sub_cancel' hle] at hk
  exact hlast hcode hk

theorem code_success_iff (M : PhysicalMemory) (answer : Nat → MapAnswer) (addr size offset i : Nat) :
    (M.mapLoop answer addr size offset i).code = .success ↔
      ∀ k, k * gpuMemoryChunkSize < size → Carried (answer (i + k)) := by
  have hle := M.le_stop answer addr size offset i
  have hstop := M.mapLoop_stop answer addr size offset i
  obtain ⟨hcarried, hlast⟩ := M.mapLoop_answers answer addr size offset i
  generalize M.mapLoop answer addr size offset i = r at *
  constructor
  · intro h k hk
    have hlt := Nat.lt_of_mul_lt_mul_right (Nat.lt_of_lt_of_le hk (hstop.mp h))
    exact hcarried (i + k) (Nat.le_add_right _ _) (by omega)
  · intro hall
    by_contra hcode
    have hk := hall (r.stop - i) (Nat.lt_of_not_le (mt hstop.mpr hcode))
    rw [Nat.add_sub_cancel' hle] at hk
    exact hlast hcode hk

/-- The pages of a mapping that fails are unmapped exactly if every chunk can be taken
back. -/
theorem unmapped_iff (undo : Nat → MapAnswer) (pt : PageTable) (hlt : addr < 2 ^ 64)
    (hsize : size ≤ 2 ^ 64) (hcode : (M.mapLoop answer addr size offset i).code ≠ .success)
    {calls : List MapCall} (hcalls : calls = (M.mapLoop answer addr size offset i).calls ++
      (undoLoop undo offset ((M.mapLoop answer addr size offset i).stop - i) i addr size).1) :
    (∀ c ∈ calls, c.write = true → ∀ page < 2 ^ 52, c.Covers page →
        applyAll calls pt page = none) ↔
      ∀ t < (M.mapLoop answer addr size offset i).stop - i, Carried (undo (i + t)) := by
  subst hcalls
  constructor
  · intro hnone t ht
    by_contra hfail
    obtain ⟨hleft, hsame⟩ := mappedSize_of_failed hcode
    obtain ⟨page, hpage, hin, hkept⟩ := undoLoop_kept offset
      ((M.mapLoop answer addr size offset i).stop - i) i
      (applyAll (M.mapLoop answer addr size offset i).calls pt) ht hfail hlt hleft hsize
    rw [← hsame] at hin
    obtain ⟨hsome, _, hcovers⟩ := M.mapLoop_page answer addr size offset i pt hlt hsize hpage
    obtain ⟨c, hc, hc'⟩ := hcovers.mp hin
    have hgone := hnone c (List.mem_append_left _ hc)
      (M.mapLoop_writes answer addr size offset i hc) page hpage hc'
    rw [applyAll_append, hkept] at hgone
    have hthere := hsome hin
    rw [hgone] at hthere
    cases hthere
  · intro hundo c hc hwrite page hpage hcovers
    exact (undone_of_failed pt hlt hsize hpage hcode hundo).unmapped c hc hwrite hcovers

end PhysicalMemory

namespace VaState

variable {s s' : VaState} {bo : Bo} {r : VaRange} {a : VaAnswers}

open PhysicalMemory (mapGpuVirtualAddress_eq code_success_iff)

theorem vaOpMap_same (h : bo.gpuAddress = r.addr) : s.vaOpMap bo r a = (true, s) := by
  rw [vaOpMap, if_pos h]

theorem vaOpMap_elsewhere (h : bo.gpuAddress ≠ r.addr) (hzero : bo.gpuAddress ≠ 0) :
    s.vaOpMap bo r a = (false, s) := by
  rw [vaOpMap, if_neg h, if_pos hzero]

/-- The loop over the chunks of a range. -/
def chunkLoop (bo : Bo) (r : VaRange) (a : VaAnswers) : MapLoop :=
  bo.physical.mapLoop a.chunk r.addr r.size (r.offset % gpuMemoryChunkSize)
    (r.offset / gpuMemoryChunkSize)

theorem chunkLoop_success_iff :
    (chunkLoop bo r a).code = .success ↔ ChunksCarried r a :=
  code_success_iff ..

/-- A map of an object without an address goes over all chunks. -/
theorem vaOpMap_mapped (hzero : bo.gpuAddress = 0) (haddr : r.addr ≠ 0)
    (hcode : (chunkLoop bo r a).code = .success) :
    s.vaOpMap bo r a =
      if Carried a.makeResident then
        (true, ((s.run (chunkLoop bo r a)).makeResident a.makeResident).2)
      else (false, { s.run (chunkLoop bo r a) with makeResidents := s.makeResidents + 1 }) := by
  have hcode' := hcode
  rw [chunkLoop] at hcode'
  rw [vaOpMap, if_neg (by rw [hzero]; exact haddr.symm), if_neg (by simp [hzero]),
    mapGpuVirtualAddress_eq]
  simp only [hcode', if_true]
  rw [← chunkLoop]
  by_cases hresident : Carried a.makeResident
  · obtain ⟨hmade, _⟩ := @makeResident_carried (s.run (chunkLoop bo r a)) _ hresident
    simp [hmade, hresident]
  · obtain ⟨hfailed, hstate⟩ := @makeResident_failed (s.run (chunkLoop bo r a)) _ hresident
    simp [hfailed, hstate, hresident]
    rfl

/-- A map of an object without an address fails at a chunk. -/
theorem vaOpMap_failed (hzero : bo.gpuAddress = 0) (haddr : r.addr ≠ 0)
    (hcode : (chunkLoop bo r a).code ≠ .success) :
    ∃ fences, s.vaOpMap bo r a =
      (false, s.run { chunkLoop bo r a with
        calls := (chunkLoop bo r a).calls ++ (PhysicalMemory.undoLoop a.undo
          (r.offset % gpuMemoryChunkSize)
          ((chunkLoop bo r a).stop - r.offset / gpuMemoryChunkSize)
          (r.offset / gpuMemoryChunkSize) r.addr r.size).1
        fences := fences }) := by
  have hcode' := hcode
  rw [chunkLoop] at hcode'
  rw [vaOpMap, if_neg (by rw [hzero]; exact haddr.symm), if_neg (by simp [hzero]),
    mapGpuVirtualAddress_eq]
  simp only [hcode', if_false]
  rw [← chunkLoop, if_pos hcode]
  exact ⟨_, rfl⟩

/-- The calls of a mapping that succeeds concern the pages of the range. -/
theorem covers_of_success {M : PhysicalMemory} {answer : Nat → MapAnswer}
    {addr size offset i page : Nat} (hlt : addr < 2 ^ 64) (hsize : size ≤ 2 ^ 64)
    (hpage : page < 2 ^ 52) (hcode : (M.mapLoop answer addr size offset i).code = .success) :
    InRange addr size page ↔
      ∃ c ∈ (M.mapLoop answer addr size offset i).calls, c.Covers page := by
  have hwhole : M.mappedSize answer addr size offset i = size :=
    Nat.min_eq_left ((M.mapLoop_stop answer addr size offset i).mp hcode)
  have hcovers := (M.mapLoop_page answer addr size offset i (fun _ => none) hlt hsize hpage).2.2
  rwa [hwhole] at hcovers

/-- Pages that stay mapped are left behind unless there is none. -/
theorem leavesNothing_mapped (n : Nat) (hcode : (chunkLoop bo r a).code = .success) :
    s.LeavesNothing { s.run (chunkLoop bo r a) with makeResidents := n } ↔ r.size < pageSize := by
  have hsize := Nat.le_of_lt r.size_lt
  have hlog : (s.run (chunkLoop bo r a)).log.drop s.log.length = (chunkLoop bo r a).calls := by
    simp [run]
  constructor
  · intro h
    by_contra hge
    have hpage : r.addr / pageSize < 2 ^ 52 := by
      have hlt := r.addr_lt
      rw [pageSize]
      omega
    have hin : InRange r.addr r.size (r.addr / pageSize) := by
      simp only [InRange, pageDist, pageSize] at *
      omega
    obtain ⟨c, hc, hcovers⟩ := (covers_of_success r.addr_lt hsize hpage hcode).mp hin
    have hgone : applyAll (chunkLoop bo r a).calls s.pageTable (r.addr / pageSize) = none :=
      h.unmapped c (by rw [hlog]; exact hc) (bo.physical.mapLoop_writes _ _ _ _ _ hc) _ hpage hcovers
    have hthere := (PhysicalMemory.mapped_of_success s.pageTable r.addr_lt hsize hpage hcode).mapped
      hin
    rw [← chunkLoop, hgone] at hthere
    cases hthere
  · intro hlt
    refine ⟨?_, rfl⟩
    intro c hc _ page hpage hcovers
    rw [hlog] at hc
    have hin := (covers_of_success r.addr_lt hsize hpage hcode).mpr ⟨c, hc, hcovers⟩
    rw [InRange, Nat.div_eq_of_lt hlt] at hin
    exact absurd hin (Nat.not_lt_zero _)

/-- A map that fails at a chunk leaves nothing exactly if the chunks before it can be taken
back. -/
theorem leavesNothing_failed (hcode : (chunkLoop bo r a).code ≠ .success) (fences : List Nat) :
    s.LeavesNothing (s.run { chunkLoop bo r a with
        calls := (chunkLoop bo r a).calls ++ (PhysicalMemory.undoLoop a.undo
          (r.offset % gpuMemoryChunkSize)
          ((chunkLoop bo r a).stop - r.offset / gpuMemoryChunkSize)
          (r.offset / gpuMemoryChunkSize) r.addr r.size).1
        fences := fences }) ↔
      ∀ t < (chunkLoop bo r a).stop - r.offset / gpuMemoryChunkSize,
        Carried (a.undo (r.offset / gpuMemoryChunkSize + t)) := by
  refine Iff.trans ?_ (PhysicalMemory.unmapped_iff a.undo s.pageTable r.addr_lt
    (Nat.le_of_lt r.size_lt) hcode rfl)
  constructor
  · intro h c hc
    exact h.unmapped c (by simpa [run, chunkLoop] using hc)
  · intro h
    refine ⟨?_, rfl⟩
    intro c hc
    exact h c (by simpa [run, chunkLoop] using hc)

/-- Where the loop stops is the first chunk that fails. -/
theorem undo_iff (hcode : (chunkLoop bo r a).code ≠ .success) :
    (∀ t < (chunkLoop bo r a).stop - r.offset / gpuMemoryChunkSize,
        Carried (a.undo (r.offset / gpuMemoryChunkSize + t))) ↔
      MapBacked r a := by
  have hle := bo.physical.le_stop a.chunk r.addr r.size (r.offset % gpuMemoryChunkSize)
    (r.offset / gpuMemoryChunkSize)
  obtain ⟨hcarried, hlast⟩ := bo.physical.mapLoop_answers a.chunk r.addr r.size
    (r.offset % gpuMemoryChunkSize) (r.offset / gpuMemoryChunkSize)
  have hleft := (PhysicalMemory.mappedSize_of_failed hcode).1
  have hfirst : r.offset / gpuMemoryChunkSize +
      ((chunkLoop bo r a).stop - r.offset / gpuMemoryChunkSize) = (chunkLoop bo r a).stop :=
    Nat.add_sub_cancel' hle
  constructor
  · intro h
    refine ⟨fun hall => absurd (chunkLoop_success_iff.mpr hall) hcode, ?_⟩
    intro n hn hfail hbefore k hk
    have hstop := (bo.physical.stop_eq r.addr (r.offset % gpuMemoryChunkSize) hn hfail hbefore).2
    refine h k ?_
    rw [chunkLoop, hstop, Nat.add_sub_cancel_left]
    exact hk
  · intro h t ht
    refine h.undo ((chunkLoop bo r a).stop - r.offset / gpuMemoryChunkSize) hleft ?_ ?_ t ht
    · rw [hfirst]
      exact hlast hcode
    · intro k hk
      exact hcarried _ (Nat.le_add_right _ _) (by rw [← chunkLoop]; omega)

/-- A map that reports an error leaves nothing exactly if the object could be made resident
and what was mapped could be taken back. -/
theorem mapUndone_iff (s : VaState) (bo : Bo) (r : VaRange) (a : VaAnswers) :
    s.MapUndone bo r a ↔ (bo.gpuAddress = 0 → r.addr ≠ 0 → MapBacked r a) := by
  rw [MapUndone, memoryVaMap_eq]
  by_cases hsame : bo.gpuAddress = r.addr
  · rw [vaOpMap_same hsame]
    exact ⟨fun _ hzero haddr => absurd (hsame.symm.trans hzero) haddr, fun _ h => absurd rfl h⟩
  by_cases hzero : bo.gpuAddress = 0
  · have haddr : r.addr ≠ 0 := fun h => hsame (hzero.trans h.symm)
    by_cases hcode : (chunkLoop bo r a).code = .success
    · have hall := chunkLoop_success_iff.mp hcode
      have hbacked : MapBacked r a ↔ (pageSize ≤ r.size → Carried a.makeResident) :=
        ⟨fun h => h.resident hall, fun h => ⟨fun _ => h, fun n hn hfail => absurd (hall n hn) hfail⟩⟩
      rw [vaOpMap_mapped hzero haddr hcode]
      by_cases hresident : Carried a.makeResident
      · simp [hbacked, hresident]
      · have hleaves := leavesNothing_mapped (s := s) (s.makeResidents + 1) hcode
        simp [hbacked, hresident, hleaves, hzero, haddr]
    · obtain ⟨fences, heq⟩ := vaOpMap_failed (s := s) hzero haddr hcode
      have hleaves := (leavesNothing_failed (s := s) hcode fences).trans (undo_iff hcode)
      rw [heq]
      simp [hleaves, hzero, haddr]
  · rw [vaOpMap_elsewhere hsame hzero]
    refine ⟨fun _ h => absurd h hzero, fun _ _ => ⟨?_, rfl⟩⟩
    intro c hc
    simp at hc

/-- The status of an unmap for which every call is carried out is that of the last one. -/
theorem unmapLoop_code (M : PhysicalMemory) (answer : Nat → MapAnswer) (mapAddr mapSize i : Nat)
    (code : ErrorCode)
    (hall : ∀ k, k * gpuMemoryChunkSize < mapSize → Carried (answer (i + k))) :
    (M.unmapLoop answer mapAddr mapSize i code).code = .success ↔
      (mapSize = 0 → code = .success) ∧
        ∀ k, k * gpuMemoryChunkSize < mapSize → mapSize ≤ (k + 1) * gpuMemoryChunkSize →
          (answer (i + k)).code ≠ .notReady := by
  induction mapAddr, mapSize, i, code using PhysicalMemory.unmapLoop.induct M answer with
  | case1 mapAddr i code =>
      rw [PhysicalMemory.unmapLoop, if_pos rfl]
      simp
  | case2 mapAddr mapSize i code hpos b a hans ih =>
      have hb : b = min mapSize gpuMemoryChunkSize := rfl
      have hmul : ∀ k, (k + 1) * gpuMemoryChunkSize = k * gpuMemoryChunkSize + gpuMemoryChunkSize :=
        fun k => by rw [Nat.add_mul, Nat.one_mul]
      have hrest : ∀ k, k * gpuMemoryChunkSize < mapSize - b ↔
          (k + 1) * gpuMemoryChunkSize < mapSize := by
        intro k
        rw [hmul]
        generalize k * gpuMemoryChunkSize = n
        omega
      have hnext : ∀ k, i + 1 + k = i + (k + 1) := fun k => by omega
      have hans' : (answer i).code = .notReady ∨ (answer i).code = .success := hans
      rw [PhysicalMemory.unmapLoop, if_neg hpos]
      simp only [if_pos hans']
      refine (ih ?_).trans ?_
      · intro k hk
        rw [hnext]
        exact hall (k + 1) ((hrest k).mp hk)
      · have hfirst : a.code = .success ↔ a.code ≠ .notReady := by
          rcases hans with h | h
          · simp [h]
          · simp [h]
        simp only [hrest, hnext]
        constructor
        · rintro ⟨hlast, hlater⟩
          refine ⟨fun h => absurd h hpos, ?_⟩
          intro k hk hend
          cases k with
          | zero => exact hfirst.mp (hlast (by omega))
          | succ k =>
              have hend' := hmul (k + 1)
              have hk' := hmul k
              exact hlater k hk (by omega)
        · rintro ⟨_, hlater⟩
          refine ⟨?_, ?_⟩
          · intro hzero
            exact hfirst.mpr (hlater 0 (by omega) (by omega))
          · intro k hk hend
            have hend' := hmul (k + 1)
            have hk' := hmul k
            exact hlater (k + 1) hk (by omega)
  | case3 mapAddr mapSize i code hpos a hans =>
      have hfirst := hall 0 (by omega)
      exact absurd hfirst.symm hans

theorem vaOpUnmap_eq (s : VaState) (bo : Bo) (r : VaRange) (a : VaAnswers) :
    s.vaOpUnmap bo r a =
      let loop := bo.physical.unmapLoop a.chunk r.addr r.size (r.offset / gpuMemoryChunkSize) .success
      if loop.code ≠ .success then (false, s.run loop) else (true, (s.run loop).evict) := by
  rw [vaOpUnmap, PhysicalMemory.unmapGpuVirtualAddress, PhysicalMemory.firstChunk_eq, Nat.zero_add]

/-- An unmap reports what it has done exactly if the call for the last chunk is not left for
later. -/
theorem unmapReported_iff (s : VaState) (bo : Bo) (r : VaRange) (a : VaAnswers) :
    s.UnmapReported bo r a ↔ (ChunksCarried r a → LastFinished r a) := by
  refine imp_congr_right fun hall => ?_
  have hcode := unmapLoop_code bo.physical a.chunk r.addr r.size (r.offset / gpuMemoryChunkSize)
    .success hall
  rw [memoryVaUnmap_eq, vaOpUnmap_eq]
  by_cases hlast : LastFinished r a
  · have hsuccess := hcode.mpr ⟨fun _ => rfl, hlast⟩
    simp [hsuccess, hlast, run, evict]
  · have hfailed := mt (fun h => (hcode.mp h).2) hlast
    simp [hfailed, hlast]

/-! ## Pairs -/

/-- A map that succeeds makes the object resident, unless it is at the address the object
has. -/
theorem makeResidents_vaMap (h : (s.memoryVaMap true (some bo) r a).1 = .success) :
    (s.memoryVaMap true (some bo) r a).2.evicts = s.evicts ∧
      (s.memoryVaMap true (some bo) r a).2.makeResidents =
        s.makeResidents + if bo.gpuAddress = r.addr then 0 else 1 := by
  rw [memoryVaMap_eq] at h ⊢
  by_cases hsame : bo.gpuAddress = r.addr
  · rw [vaOpMap_same hsame]
    simp [hsame]
  by_cases hzero : bo.gpuAddress = 0
  · have haddr : r.addr ≠ 0 := fun h => hsame (hzero.trans h.symm)
    by_cases hcode : (chunkLoop bo r a).code = .success
    · rw [vaOpMap_mapped hzero haddr hcode] at h ⊢
      by_cases hresident : Carried a.makeResident
      · obtain ⟨_, hevicts, hcalls⟩ := @makeResident_carried (s.run (chunkLoop bo r a)) _ hresident
        simp only [hresident, if_true, hevicts, hcalls, hsame, if_false]
        exact ⟨rfl, rfl⟩
      · simp [hresident] at h
    · obtain ⟨fences, heq⟩ := vaOpMap_failed (s := s) hzero haddr hcode
      rw [heq] at h
      cases h
  · rw [vaOpMap_elsewhere hsame hzero] at h
    cases h

/-- An unmap that succeeds evicts the object. -/
theorem evicts_vaUnmap (h : (s.memoryVaUnmap true (some bo) r a).1 = .success) :
    (s.memoryVaUnmap true (some bo) r a).2.evicts = s.evicts + 1 ∧
      (s.memoryVaUnmap true (some bo) r a).2.makeResidents = s.makeResidents := by
  rw [memoryVaUnmap_eq, vaOpUnmap_eq] at h ⊢
  by_cases hcode : (bo.physical.unmapLoop a.chunk r.addr r.size (r.offset / gpuMemoryChunkSize)
      .success).code = .success
  · simp [hcode, run, evict]
  · simp [hcode] at h

/-- After pairs that succeed there are as many evictions as pairs, and as many calls to make
the object resident as maps at another address. -/
theorem pairs_counts {ps : List VaPair} (h : s.pairs bo ps = some s') :
    s'.evicts = s.evicts + ps.length ∧
      s'.makeResidents =
        s.makeResidents + (ps.filter fun p => bo.gpuAddress ≠ p.range.addr).length := by
  induction ps generalizing s with
  | nil =>
      cases h
      exact ⟨rfl, rfl⟩
  | cons p ps ih =>
      rw [pairs] at h
      split at h
      next hmap =>
        simp only at h
        split at h
        next hunmap =>
          obtain ⟨hevicts, hcalls⟩ := makeResidents_vaMap hmap
          obtain ⟨hevicts', hcalls'⟩ := evicts_vaUnmap hunmap
          obtain ⟨hrest, hrest'⟩ := ih h
          rw [hrest, hrest', hevicts', hcalls', hevicts, hcalls, List.length_cons, List.filter_cons]
          refine ⟨by omega, ?_⟩
          by_cases hsame : bo.gpuAddress = p.range.addr
          · simp [hsame]
          · simp [hsame]
            omega
        next => cases h
      next => cases h

/-- Requests for one object are symmetric exactly if an object that was mapped can be made
resident and what was mapped of one that fails can be taken back, the call for the last chunk
of an unmap is not left for later, and no map is at the address the object has. -/
theorem va_ops_symmetric_iff (s : VaState) (bo : Bo) :
    (∀ r a, s.MapUndone bo r a ↔ (bo.gpuAddress = 0 → r.addr ≠ 0 → MapBacked r a)) ∧
      (∀ r a, s.UnmapReported bo r a ↔ (ChunksCarried r a → LastFinished r a)) ∧
      ∀ ps s', s.pairs bo ps = some s' →
        (s'.makeResidents + s.evicts = s.makeResidents + s'.evicts ↔
          ∀ p ∈ ps, bo.gpuAddress ≠ p.range.addr) := by
  refine ⟨s.mapUndone_iff bo, s.unmapReported_iff bo, ?_⟩
  intro ps s' h
  obtain ⟨hevicts, hcalls⟩ := pairs_counts h
  have hall := List.length_filter_eq_length_iff (l := ps)
    (p := fun p => decide (bo.gpuAddress ≠ p.range.addr))
  simp only [decide_eq_true_eq] at hall
  rw [hevicts, hcalls, ← hall]
  omega

/-- Nothing is mapped. -/
def fresh : VaState where
  pageTable := fun _ => none

/-- The first page of an object at an address. -/
def onePageAt (addr : Nat) (h : addr < 2 ^ 64) : VaRange := ⟨0, 0x1000, addr, by decide, h⟩

/-- A driver that gives one status for chunks and one for residency. -/
def answering (chunk makeResident : ErrorCode) : VaAnswers where
  chunk := fun _ => ⟨chunk, 1⟩
  undo := fun _ => {}
  makeResident := ⟨makeResident, 1⟩

/-- A page is mapped and unmapped again. -/
def onePair : VaPair where
  range := onePageAt 0x4000000000 (by decide)
  map := answering .notReady .success
  unmap := answering .success .success

theorem vaUnmap_onePage (s : VaState) (bo : Bo) :
    (s.memoryVaUnmap true (some bo) onePair.range onePair.unmap).1 = .success := by
  have hreported := (s.unmapReported_iff bo onePair.range onePair.unmap).mpr
    fun _ _ _ _ => by simp [onePair, answering]
  exact (hreported fun _ _ => .inl rfl).1

/-- The pair leaves the counts equal. -/
theorem va_ops_symmetric_page :
    ∃ s', fresh.pairs ⟨0, PhysicalMemory.sampleMemory⟩ [onePair] = some s' ∧
      s'.makeResidents + fresh.evicts = fresh.makeResidents + s'.evicts := by
  have hmap : (fresh.memoryVaMap true (some ⟨0, PhysicalMemory.sampleMemory⟩) onePair.range
      onePair.map).1 = .success := by
    have hcode : (chunkLoop ⟨0, PhysicalMemory.sampleMemory⟩ onePair.range onePair.map).code =
        .success := chunkLoop_success_iff.mpr fun _ _ => .inr rfl
    rw [memoryVaMap_eq, vaOpMap_mapped rfl (by decide) hcode, if_pos (by decide)]
  have hpairs : ∃ s', fresh.pairs ⟨0, PhysicalMemory.sampleMemory⟩ [onePair] = some s' := by
    simp only [pairs, hmap, vaUnmap_onePage, if_true]
    exact ⟨_, rfl⟩
  obtain ⟨s', hs'⟩ := hpairs
  refine ⟨s', hs', ((va_ops_symmetric_iff _ _).2.2 _ _ hs').mpr ?_⟩
  simp [onePair, onePageAt]

/-- A page that cannot be made resident stays mapped, an unmap that the driver finishes later
reports an error, and a map at the address of the object is evicted and was never made
resident. -/
theorem va_ops_not_symmetric :
    (¬ ∀ r a, fresh.MapUndone ⟨0, PhysicalMemory.sampleMemory⟩ r a) ∧
      (¬ ∀ r a, fresh.UnmapReported ⟨0, PhysicalMemory.sampleMemory⟩ r a) ∧
      ¬ ∀ ps s', fresh.pairs ⟨0x4000000000, PhysicalMemory.sampleMemory⟩ ps = some s' →
        s'.makeResidents + fresh.evicts = fresh.makeResidents + s'.evicts := by
  refine ⟨?_, ?_, ?_⟩
  · intro hall
    have hundone := hall onePair.range (answering .success .outOfMemory)
    rw [mapUndone_iff] at hundone
    have hresident := (hundone rfl (by decide)).resident (fun _ _ => .inl rfl) (by decide)
    revert hresident
    decide
  · intro hall
    have hreported := hall onePair.range (answering .notReady .success)
    rw [unmapReported_iff] at hreported
    exact hreported (fun _ _ => .inr rfl) 0 (by decide) (by decide) rfl
  · intro hall
    have hpairs : fresh.pairs ⟨0x4000000000, PhysicalMemory.sampleMemory⟩ [onePair] =
        some (fresh.memoryVaUnmap true (some ⟨0x4000000000, PhysicalMemory.sampleMemory⟩)
          onePair.range onePair.unmap).2 := by
      simp only [pairs, vaUnmap_onePage, if_true]
      rfl
    have hcounts := hall _ _ hpairs
    obtain ⟨hevicts, hcalls⟩ := evicts_vaUnmap
      (fresh.vaUnmap_onePage ⟨0x4000000000, PhysicalMemory.sampleMemory⟩)
    rw [hevicts, hcalls] at hcounts
    revert hcounts
    decide

end VaState

end RocDxg
