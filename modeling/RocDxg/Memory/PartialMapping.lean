import RocDxg.Memory.Mapping

/-!
# A mapping that fails half way

`GpuMemory::MapGpuVirtualAddress` maps a range with one driver call for each chunk.  When a
call fails, a second loop runs over the chunks that were mapped and takes them back.  It cuts
the range into blocks again, from the first chunk to the one that failed.

Here the driver may answer each call as it likes.  If the mapping fails, no page that was
mapped stays mapped and no other page has changed; if it succeeds, the whole range is mapped
and the fence of the device covers every call that was not finished
(`PhysicalMemory.partial_mapping_undone`).
-/

namespace RocDxg

/-! ## Pages -/

/-- The call concerns the page. -/
def MapCall.Covers (c : MapCall) (page : Nat) : Prop :=
  pageDist (c.baseAddress / pageSize) page < c.sizeInPages

/-- The page lies in the range of addresses. -/
def InRange (addr size page : Nat) : Prop := pageDist (addr / pageSize) page < size / pageSize

instance (addr size page : Nat) : Decidable (InRange addr size page) :=
  inferInstanceAs (Decidable (_ < _))

theorem not_inRange_zero (addr page : Nat) : ¬ InRange addr 0 page := by
  simp [InRange]

/-- A page of a range lies in its first block or behind it, and not in both. -/
theorem inRange_add {addr b size page : Nat} (hlt : addr < 2 ^ 64)
    (hb : b % pageSize = 0 ∨ size = 0) (hchunk : b ≤ gpuMemoryChunkSize)
    (hle : b + size ≤ 2 ^ 64) (hpage : page < 2 ^ 52) :
    (InRange addr (b + size) page ↔
        InRange addr b page ∨ InRange (u64 (addr + b)) size page) ∧
      (InRange addr b page → ¬ InRange (u64 (addr + b)) size page) := by
  rcases hb with hb | rfl
  · have hadv := PhysicalMemory.pageDist_advance hlt hb hchunk hpage
    simp only [InRange]
    generalize pageDist (addr / pageSize) page = d at hadv
    generalize pageDist (u64 (addr + b) / pageSize) page = d' at hadv
    simp only [pageSize] at *
    omega
  · simp [not_inRange_zero]

/-- A block is as long as what is left, or a chunk. -/
theorem block_min {mapSize b : Nat} (hpos : mapSize ≠ 0) (hb : b = min mapSize gpuMemoryChunkSize) :
    0 < b ∧ b ≤ mapSize ∧ b ≤ gpuMemoryChunkSize ∧ (b % pageSize = 0 ∨ mapSize - b = 0) := by
  simp only [gpuMemoryChunkSize, pageSize] at *
  omega

theorem applyAll_append (calls calls' : List MapCall) (pt : PageTable) :
    applyAll (calls ++ calls') pt = applyAll calls' (applyAll calls pt) := by
  simp [applyAll, List.foldl_append]

/-! ## The fence of the device -/

/-- `UpdatePageFence`: the new value of `page_fence_value_`.  An exchange that fails reads the
value again. -/
def updatePageFence (current fenceValue : Nat) : Nat :=
  if fenceValue ≤ current then current else fenceValue

/-- The value after a list of updates. -/
def updateAll (fences : List Nat) (current : Nat) : Nat := fences.foldl updatePageFence current

theorem updatePageFence_eq_max (current fenceValue : Nat) :
    updatePageFence current fenceValue = max current fenceValue := by
  rw [updatePageFence]
  split
  next hle => exact (Nat.max_eq_left hle).symm
  next hgt => exact (Nat.max_eq_right (Nat.le_of_not_le hgt)).symm

theorem le_updateAll (fences : List Nat) (current : Nat) : current ≤ updateAll fences current := by
  induction fences generalizing current with
  | nil => exact Nat.le_refl _
  | cons f fences ih =>
      have hle := Nat.le_max_left current f
      rw [← updatePageFence_eq_max] at hle
      exact Nat.le_trans hle (ih _)

theorem mem_le_updateAll {fences : List Nat} {f : Nat} (h : f ∈ fences) (current : Nat) :
    f ≤ updateAll fences current := by
  induction fences generalizing current with
  | nil => cases h
  | cons g fences ih =>
      cases h with
      | head =>
          have hle := Nat.le_max_right current f
          rw [← updatePageFence_eq_max] at hle
          exact Nat.le_trans hle (le_updateAll fences _)
      | tail _ hmem => exact ih hmem _

namespace PhysicalMemory

variable {M : PhysicalMemory} {answer undo : Nat → MapAnswer} {pt : PageTable}
  {mapAddr mapSize offset i page : Nat}

/-! ## The loop that maps -/

/-- The call was carried out, at once or later. -/
def Carried (a : MapAnswer) : Prop := a.code = .success ∨ a.code = .notReady

instance (a : MapAnswer) : Decidable (Carried a) := inferInstanceAs (Decidable (_ ∨ _))

/-- The blocks that the loop has mapped, in bytes. -/
def mappedSize (M : PhysicalMemory) (answer : Nat → MapAnswer) (mapAddr mapSize offset i : Nat) :
    Nat :=
  min mapSize (((M.mapLoop answer mapAddr mapSize offset i).stop - i) * gpuMemoryChunkSize)

theorem mapLoop_carried (hpos : mapSize ≠ 0) (h : Carried (answer i)) {b : Nat}
    (hb : b = min mapSize gpuMemoryChunkSize) :
    M.mapLoop answer mapAddr mapSize offset i =
      let r := M.mapLoop answer (u64 (mapAddr + b)) (mapSize - b) 0 (i + 1)
      { r with
        calls := M.mapCall mapAddr mapSize offset i :: r.calls
        fences :=
          if (answer i).code = .notReady then (answer i).pagingFenceValue :: r.fences
          else r.fences } := by
  subst hb
  rw [Carried] at h
  rw [mapLoop, if_neg hpos]
  simp only [if_pos h]

theorem mapLoop_failed (hpos : mapSize ≠ 0) (h : ¬ Carried (answer i)) :
    M.mapLoop answer mapAddr mapSize offset i = ⟨[], [], (answer i).code, i⟩ := by
  rw [Carried] at h
  rw [mapLoop, if_neg hpos]
  simp only [if_neg h]

theorem le_stop (M : PhysicalMemory) (answer : Nat → MapAnswer) (mapAddr mapSize offset i : Nat) :
    i ≤ (M.mapLoop answer mapAddr mapSize offset i).stop := by
  induction mapAddr, mapSize, offset, i using mapLoop.induct M answer with
  | case1 mapAddr offset i => rw [mapLoop_zero]
  | case2 mapAddr mapSize offset i hpos b a hans ih =>
      rw [mapLoop_carried hpos hans rfl]
      exact Nat.le_of_succ_le ih
  | case3 mapAddr mapSize offset i hpos a hans => rw [mapLoop_failed hpos hans]

/-- The chunks that the loop has passed, behind a first one. -/
theorem stop_sub (M : PhysicalMemory) (answer : Nat → MapAnswer) (mapAddr mapSize i : Nat) :
    ((M.mapLoop answer mapAddr mapSize 0 (i + 1)).stop - i) * gpuMemoryChunkSize =
      gpuMemoryChunkSize +
        ((M.mapLoop answer mapAddr mapSize 0 (i + 1)).stop - (i + 1)) * gpuMemoryChunkSize := by
  have hle := M.le_stop answer mapAddr mapSize 0 (i + 1)
  generalize (M.mapLoop answer mapAddr mapSize 0 (i + 1)).stop = stop at hle
  obtain ⟨k, rfl⟩ := Nat.exists_eq_add_of_le hle
  rw [Nat.add_sub_cancel_left, Nat.add_assoc, Nat.add_sub_cancel_left, Nat.add_mul, Nat.one_mul]

/-- The loop passes one chunk for each call, and stops before the end only if a call
failed. -/
theorem mapLoop_stop (M : PhysicalMemory) (answer : Nat → MapAnswer)
    (mapAddr mapSize offset i : Nat) :
    (M.mapLoop answer mapAddr mapSize offset i).code = .success ↔
      mapSize ≤ ((M.mapLoop answer mapAddr mapSize offset i).stop - i) * gpuMemoryChunkSize := by
  induction mapAddr, mapSize, offset, i using mapLoop.induct M answer with
  | case1 mapAddr offset i => simp [mapLoop_zero]
  | case2 mapAddr mapSize offset i hpos b a hans ih =>
      rw [mapLoop_carried hpos hans rfl]
      refine ih.trans ?_
      simp only [stop_sub]
      generalize (_ - (i + 1)) * gpuMemoryChunkSize = n
      omega
  | case3 mapAddr mapSize offset i hpos a hans =>
      rw [mapLoop_failed hpos hans]
      have hcode : (answer i).code ≠ .success := fun h => hans (.inl h)
      simp [hcode, hpos]

/-- The calls before the stop were carried out, and the one at it was not unless the loop has
come to the end. -/
theorem mapLoop_answers (M : PhysicalMemory) (answer : Nat → MapAnswer)
    (mapAddr mapSize offset i : Nat) :
    (∀ j, i ≤ j → j < (M.mapLoop answer mapAddr mapSize offset i).stop → Carried (answer j)) ∧
      ((M.mapLoop answer mapAddr mapSize offset i).code ≠ .success →
        ¬ Carried (answer (M.mapLoop answer mapAddr mapSize offset i).stop)) := by
  induction mapAddr, mapSize, offset, i using mapLoop.induct M answer with
  | case1 mapAddr offset i =>
      rw [mapLoop_zero]
      exact ⟨fun j hij hj => absurd hj (Nat.not_lt.mpr hij), fun h => absurd rfl h⟩
  | case2 mapAddr mapSize offset i hpos b a hans ih =>
      rw [mapLoop_carried hpos hans rfl]
      refine ⟨?_, ih.2⟩
      intro j hij hj
      rcases Nat.eq_or_lt_of_le hij with rfl | hlater
      · exact hans
      · exact ih.1 j hlater hj
  | case3 mapAddr mapSize offset i hpos a hans =>
      rw [mapLoop_failed hpos hans]
      exact ⟨fun j hij hj => absurd hj (Nat.not_lt.mpr hij), fun _ => hans⟩

/-- The blocks that were mapped are the first one and those of the rest of the loop. -/
theorem mappedSize_carried (hpos : mapSize ≠ 0) (h : Carried (answer i)) {b : Nat}
    (hb : b = min mapSize gpuMemoryChunkSize) :
    M.mappedSize answer mapAddr mapSize offset i =
      b + M.mappedSize answer (u64 (mapAddr + b)) (mapSize - b) 0 (i + 1) := by
  rw [mappedSize, mappedSize, mapLoop_carried hpos h hb]
  simp only [stop_sub]
  generalize (_ - (i + 1)) * gpuMemoryChunkSize = n
  omega

theorem mappedSize_le (M : PhysicalMemory) (answer : Nat → MapAnswer)
    (mapAddr mapSize offset i : Nat) : M.mappedSize answer mapAddr mapSize offset i ≤ mapSize :=
  Nat.min_le_left ..

/-- The calls that were carried out map the pages of their blocks and no others. -/
theorem mapLoop_page (M : PhysicalMemory) (answer : Nat → MapAnswer)
    (mapAddr mapSize offset i : Nat) (pt : PageTable) (hlt : mapAddr < 2 ^ 64)
    (hsize : mapSize ≤ 2 ^ 64) (hpage : page < 2 ^ 52) :
    (InRange mapAddr (M.mappedSize answer mapAddr mapSize offset i) page →
        (applyAll (M.mapLoop answer mapAddr mapSize offset i).calls pt page).isSome) ∧
      (¬ InRange mapAddr (M.mappedSize answer mapAddr mapSize offset i) page →
        applyAll (M.mapLoop answer mapAddr mapSize offset i).calls pt page = pt page) ∧
      (InRange mapAddr (M.mappedSize answer mapAddr mapSize offset i) page ↔
        ∃ c ∈ (M.mapLoop answer mapAddr mapSize offset i).calls, c.Covers page) := by
  induction mapAddr, mapSize, offset, i using mapLoop.induct M answer generalizing pt with
  | case1 mapAddr offset i =>
      rw [mappedSize, mapLoop_zero, Nat.zero_min]
      simp [not_inRange_zero]
  | case2 mapAddr mapSize offset i hpos b a hans ih =>
      have hb : b = min mapSize gpuMemoryChunkSize := rfl
      obtain ⟨_, hle, hchunk, hwhole⟩ := block_min hpos hb
      have hcovers : (M.mapCall mapAddr mapSize offset i).Covers page ↔ InRange mapAddr b page :=
        Iff.rfl
      have happly : ∀ pt : PageTable, (M.mapCall mapAddr mapSize offset i).apply pt page =
          if InRange mapAddr b page then
            some ((M.mapCall mapAddr mapSize offset i).allocation,
              (M.mapCall mapAddr mapSize offset i).offsetInPages +
                pageDist (mapAddr / pageSize) page)
          else pt page := fun _ => rfl
      rw [mapLoop_carried hpos hans hb, mappedSize_carried hpos hans hb]
      generalize M.mapCall mapAddr mapSize offset i = call at hcovers happly
      have hrest := ih (call.apply pt) (Nat.mod_lt _ (by decide))
        (Nat.le_trans (Nat.sub_le ..) hsize)
      have hmapped := M.mappedSize_le answer (u64 (mapAddr + b)) (mapSize - b) 0 (i + 1)
      generalize M.mappedSize answer (u64 (mapAddr + b)) (mapSize - b) 0 (i + 1) = m at *
      have hempty : mapSize - b = 0 → m = 0 := by omega
      obtain ⟨hadd, hnot⟩ := @inRange_add mapAddr b m page hlt (hwhole.imp_right hempty) hchunk
        (by omega) hpage
      obtain ⟨hin, hout, hcalls⟩ := hrest
      simp only [applyAll_cons, hadd, List.mem_cons, exists_eq_or_imp, hcovers, ← hcalls]
      refine ⟨?_, ?_, trivial⟩
      · rintro (hfirst | hlater)
        · rw [hout (hnot hfirst), happly, if_pos hfirst]
          rfl
        · exact hin hlater
      · intro h
        rw [not_or] at h
        rw [hout h.2, happly, if_neg h.1]
  | case3 mapAddr mapSize offset i hpos a hans =>
      have hzero : M.mappedSize answer mapAddr mapSize offset i = 0 := by
        rw [mappedSize, mapLoop_failed hpos hans, Nat.sub_self, Nat.zero_mul, Nat.min_zero]
      rw [hzero, mapLoop_failed hpos hans]
      simp [not_inRange_zero]

theorem mapLoop_writes (M : PhysicalMemory) (answer : Nat → MapAnswer)
    (mapAddr mapSize offset i : Nat) {c : MapCall}
    (hc : c ∈ (M.mapLoop answer mapAddr mapSize offset i).calls) : c.write = true := by
  induction mapAddr, mapSize, offset, i using mapLoop.induct M answer with
  | case1 mapAddr offset i =>
      rw [mapLoop_zero] at hc
      cases hc
  | case2 mapAddr mapSize offset i hpos b a hans ih =>
      rw [mapLoop_carried hpos hans rfl] at hc
      rcases List.mem_cons.mp hc with rfl | hmem
      · rfl
      · exact ih hmem
  | case3 mapAddr mapSize offset i hpos a hans =>
      rw [mapLoop_failed hpos hans] at hc
      cases hc

/-- A fence is kept for every chunk whose call was not finished. -/
theorem mapLoop_fences (M : PhysicalMemory) (answer : Nat → MapAnswer)
    (mapAddr mapSize offset i : Nat) {j : Nat} (hij : i ≤ j)
    (hj : j < (M.mapLoop answer mapAddr mapSize offset i).stop)
    (hcode : (answer j).code = .notReady) :
    (answer j).pagingFenceValue ∈ (M.mapLoop answer mapAddr mapSize offset i).fences := by
  induction mapAddr, mapSize, offset, i using mapLoop.induct M answer with
  | case1 mapAddr offset i =>
      rw [mapLoop_zero] at hj
      exact absurd hj (Nat.not_lt.mpr hij)
  | case2 mapAddr mapSize offset i hpos b a hans ih =>
      rw [mapLoop_carried hpos hans rfl] at hj ⊢
      simp only at hj ⊢
      rcases Nat.eq_or_lt_of_le hij with rfl | hlater
      · rw [if_pos hcode]
        exact List.mem_cons_self ..
      · have hmem := ih hlater hj
        split
        next => exact List.mem_cons_of_mem _ hmem
        next => exact hmem
  | case3 mapAddr mapSize offset i hpos a hans =>
      rw [mapLoop_failed hpos hans] at hj
      exact absurd hj (Nat.not_lt.mpr hij)

/-! ## The loop that takes back -/

/-- The first block of a range that is taken back is a chunk. -/
theorem undoLoop_cons {left : Nat} (hleft : (left + 1) * gpuMemoryChunkSize < mapSize)
    (undo : Nat → MapAnswer) (offset j : Nat) (mapAddr : Nat) :
    left * gpuMemoryChunkSize < mapSize - gpuMemoryChunkSize ∧
      undoLoop undo offset (left + 1) j mapAddr mapSize =
        let r := undoLoop undo offset left (j + 1) (u64 (mapAddr + gpuMemoryChunkSize))
          (mapSize - gpuMemoryChunkSize)
        (if Carried (undo j) then undoCall mapAddr mapSize offset :: r.1 else r.1,
          if (undo j).code = .notReady then (undo j).pagingFenceValue :: r.2 else r.2) := by
  rw [Nat.add_mul, Nat.one_mul] at hleft
  have hfull : min mapSize gpuMemoryChunkSize = gpuMemoryChunkSize := by omega
  refine ⟨by omega, ?_⟩
  simp only [undoLoop, hfull]
  rfl

theorem undoCall_apply (hfull : gpuMemoryChunkSize ≤ mapSize) (pt : PageTable) :
    (undoCall mapAddr mapSize offset).apply pt page =
      if InRange mapAddr gpuMemoryChunkSize page then none else pt page := by
  simp only [MapCall.apply, undoCall, InRange, Nat.min_eq_right hfull]
  rfl

/-- The calls that take blocks back concern no page outside of them. -/
theorem undoLoop_outside (undo : Nat → MapAnswer) (offset left j : Nat) (pt : PageTable)
    (hlt : mapAddr < 2 ^ 64) (hleft : left * gpuMemoryChunkSize < mapSize)
    (hsize : mapSize ≤ 2 ^ 64) (hpage : page < 2 ^ 52) :
    (¬ InRange mapAddr (left * gpuMemoryChunkSize) page →
        applyAll (undoLoop undo offset left j mapAddr mapSize).1 pt page = pt page) ∧
      ∀ c ∈ (undoLoop undo offset left j mapAddr mapSize).1, c.write = false ∧
        (c.Covers page → InRange mapAddr (left * gpuMemoryChunkSize) page) := by
  induction left generalizing j mapAddr mapSize pt with
  | zero => simp [undoLoop]
  | succ left ih =>
      obtain ⟨hrest, hcons⟩ := undoLoop_cons hleft undo offset j mapAddr
      rw [hcons]
      rw [Nat.add_mul, Nat.one_mul] at hleft ⊢
      have hcovers : (undoCall mapAddr mapSize offset).Covers page →
          InRange mapAddr gpuMemoryChunkSize page := by
        simp only [MapCall.Covers, undoCall, InRange]
        rw [Nat.min_eq_right (by omega)]
        exact id
      obtain ⟨hadd, _⟩ := @inRange_add mapAddr gpuMemoryChunkSize (left * gpuMemoryChunkSize) page
        hlt (.inl (by decide)) (Nat.le_refl _) (by omega) hpage
      rw [Nat.add_comm (left * gpuMemoryChunkSize), hadd, not_or]
      have hlt' : u64 (mapAddr + gpuMemoryChunkSize) < 2 ^ 64 := Nat.mod_lt _ (by decide)
      have ih := fun pt => ih (j + 1) pt hlt' hrest (by omega)
      split
      next =>
        refine ⟨?_, ?_⟩
        · rintro ⟨hfirst, hlater⟩
          rw [applyAll_cons, (ih _).1 hlater, undoCall_apply (by omega), if_neg hfirst]
        · intro c hc
          rcases List.mem_cons.mp hc with rfl | hmem
          · exact ⟨rfl, fun h => .inl (hcovers h)⟩
          · exact ⟨((ih pt).2 c hmem).1, fun h => .inr (((ih pt).2 c hmem).2 h)⟩
      next =>
        refine ⟨fun h => (ih pt).1 h.2, ?_⟩
        intro c hc
        exact ⟨((ih pt).2 c hc).1, fun h => .inr (((ih pt).2 c hc).2 h)⟩

/-- The pages of the blocks are unmapped if each call is carried out. -/
theorem undoLoop_page (offset left j : Nat) (pt : PageTable)
    (hundo : ∀ t < left, Carried (undo (j + t))) (hlt : mapAddr < 2 ^ 64)
    (hleft : left * gpuMemoryChunkSize < mapSize) (hsize : mapSize ≤ 2 ^ 64)
    (hpage : page < 2 ^ 52) (hin : InRange mapAddr (left * gpuMemoryChunkSize) page) :
    applyAll (undoLoop undo offset left j mapAddr mapSize).1 pt page = none := by
  induction left generalizing j mapAddr mapSize pt with
  | zero =>
      rw [Nat.zero_mul] at hin
      exact absurd hin (not_inRange_zero _ _)
  | succ left ih =>
      obtain ⟨hrest, hcons⟩ := undoLoop_cons hleft undo offset j mapAddr
      have hfirst : Carried (undo j) := hundo 0 (Nat.succ_pos left)
      have hundo' : ∀ t < left, Carried (undo (j + 1 + t)) := by
        intro t ht
        have hcarried := hundo (t + 1) (Nat.succ_lt_succ ht)
        rwa [Nat.add_comm t 1, ← Nat.add_assoc] at hcarried
      rw [hcons]
      simp only [if_pos hfirst, applyAll_cons]
      rw [Nat.add_mul, Nat.one_mul] at hleft hin
      rw [Nat.add_comm (left * gpuMemoryChunkSize)] at hin
      obtain ⟨hadd, hnot⟩ := @inRange_add mapAddr gpuMemoryChunkSize (left * gpuMemoryChunkSize)
        page hlt (.inl (by decide)) (Nat.le_refl _) (by omega) hpage
      have hlt' : u64 (mapAddr + gpuMemoryChunkSize) < 2 ^ 64 := Nat.mod_lt _ (by decide)
      rcases hadd.mp hin with hblock | hlater
      · rw [(undoLoop_outside undo offset left (j + 1) _ hlt' hrest (by omega) hpage).1
          (hnot hblock), undoCall_apply (by omega), if_pos hblock]
      · exact ih (j + 1) _ hundo' hlt' hrest (by omega) hlater

/-- A block whose call is not carried out keeps its pages. -/
theorem undoLoop_kept (offset left j : Nat) (pt : PageTable) {t : Nat} (ht : t < left)
    (hfail : ¬ Carried (undo (j + t))) (hlt : mapAddr < 2 ^ 64)
    (hleft : left * gpuMemoryChunkSize < mapSize) (hsize : mapSize ≤ 2 ^ 64) :
    ∃ page < 2 ^ 52, InRange mapAddr (left * gpuMemoryChunkSize) page ∧
      applyAll (undoLoop undo offset left j mapAddr mapSize).1 pt page = pt page := by
  induction left generalizing j mapAddr mapSize pt t with
  | zero => exact absurd ht (Nat.not_lt_zero _)
  | succ left ih =>
      obtain ⟨hrest, hcons⟩ := undoLoop_cons hleft undo offset j mapAddr
      rw [hcons]
      rw [Nat.add_mul, Nat.one_mul] at hleft ⊢
      rw [Nat.add_comm (left * gpuMemoryChunkSize)]
      have hlt' : u64 (mapAddr + gpuMemoryChunkSize) < 2 ^ 64 := Nat.mod_lt _ (by decide)
      have hadd : ∀ {page : Nat}, page < 2 ^ 52 → _ := fun {page} hpage =>
        @inRange_add mapAddr gpuMemoryChunkSize (left * gpuMemoryChunkSize) page hlt
          (.inl (by decide)) (Nat.le_refl _) (by omega) hpage
      cases t with
      | zero =>
          -- the first page of the range, which the later calls do not concern
          have hpage : mapAddr / pageSize < 2 ^ 52 := by
            rw [pageSize]
            omega
          have hblock : InRange mapAddr gpuMemoryChunkSize (mapAddr / pageSize) := by
            simp only [InRange, pageDist, pageSize, gpuMemoryChunkSize]
            omega
          refine ⟨mapAddr / pageSize, hpage, (hadd hpage).1.mpr (.inl hblock), ?_⟩
          rw [Nat.add_zero] at hfail
          simp only [if_neg hfail]
          exact (undoLoop_outside undo offset left (j + 1) pt hlt' hrest (by omega) hpage).1
            ((hadd hpage).2 hblock)
      | succ t =>
          rw [Nat.add_comm t 1, ← Nat.add_assoc] at hfail
          have ih := fun pt => ih (j + 1) pt (Nat.lt_of_succ_lt_succ ht) hfail hlt' hrest (by omega)
          split
          next =>
            obtain ⟨page, hpage, hin, hkept⟩ := ih ((undoCall mapAddr mapSize offset).apply pt)
            have hfirst : ¬ InRange mapAddr gpuMemoryChunkSize page :=
              fun h => (hadd hpage).2 h hin
            refine ⟨page, hpage, (hadd hpage).1.mpr (.inr hin), ?_⟩
            rw [applyAll_cons, hkept, undoCall_apply (by omega), if_neg hfirst]
          next =>
            obtain ⟨page, hpage, hin, hkept⟩ := ih pt
            exact ⟨page, hpage, (hadd hpage).1.mpr (.inr hin), hkept⟩

/-! ## A mapping and its failure -/

/-- The mapping has left the pages it mapped unmapped, and others alone. -/
structure Undone (calls : List MapCall) (pt : PageTable) (addr size page : Nat) : Prop where
  unmapped : ∀ c ∈ calls, c.write = true → c.Covers page → applyAll calls pt page = none
  inside : ∀ c ∈ calls, c.Covers page → InRange addr size page
  untouched : ¬ InRange addr size page → applyAll calls pt page = pt page

/-- The mapping has mapped the range, and left other pages alone. -/
structure Mapped (calls : List MapCall) (pt : PageTable) (addr size page : Nat) : Prop where
  mapped : InRange addr size page → (applyAll calls pt page).isSome
  inside : ∀ c ∈ calls, c.Covers page → InRange addr size page
  untouched : ¬ InRange addr size page → applyAll calls pt page = pt page

theorem mapGpuVirtualAddress_eq (M : PhysicalMemory) (answer undo : Nat → MapAnswer)
    (addr size offset : Nat) :
    M.mapGpuVirtualAddress answer undo addr size offset =
      let first := offset / gpuMemoryChunkSize
      let rest := offset % gpuMemoryChunkSize
      let r := M.mapLoop answer addr size rest first
      if r.code = .success then r
      else
        let u := undoLoop undo rest (r.stop - first) first addr size
        { r with calls := r.calls ++ u.1, fences := r.fences ++ u.2 } := by
  rw [mapGpuVirtualAddress, firstChunk_eq, Nat.zero_add]

/-- The blocks of a failed mapping are chunks. -/
theorem mappedSize_of_failed {addr size : Nat}
    (hcode : (M.mapLoop answer addr size offset i).code ≠ .success) :
    ((M.mapLoop answer addr size offset i).stop - i) * gpuMemoryChunkSize < size ∧
      M.mappedSize answer addr size offset i =
        ((M.mapLoop answer addr size offset i).stop - i) * gpuMemoryChunkSize := by
  have hleft := Nat.lt_of_not_le (mt (M.mapLoop_stop answer addr size offset i).mpr hcode)
  exact ⟨hleft, Nat.min_eq_right (Nat.le_of_lt hleft)⟩

theorem inRange_mono {addr size size' : Nat} (hle : size ≤ size') (h : InRange addr size page) :
    InRange addr size' page :=
  Nat.lt_of_lt_of_le h (Nat.div_le_div_right hle)

/-- A failed mapping stops before the end, and the second loop finds its blocks. -/
theorem undone_of_failed {addr size : Nat} (pt : PageTable) (hlt : addr < 2 ^ 64)
    (hsize : size ≤ 2 ^ 64) (hpage : page < 2 ^ 52)
    (hcode : (M.mapLoop answer addr size offset i).code ≠ .success)
    (hundo : ∀ t < (M.mapLoop answer addr size offset i).stop - i, Carried (undo (i + t))) :
    Undone ((M.mapLoop answer addr size offset i).calls ++
      (undoLoop undo offset ((M.mapLoop answer addr size offset i).stop - i) i addr size).1)
      pt addr size page := by
  obtain ⟨hleft, hsame⟩ := mappedSize_of_failed hcode
  obtain ⟨_, hout, hcovers⟩ := M.mapLoop_page answer addr size offset i pt hlt hsize hpage
  obtain ⟨hkept, hback⟩ := undoLoop_outside undo offset
    ((M.mapLoop answer addr size offset i).stop - i) i
    (applyAll (M.mapLoop answer addr size offset i).calls pt) hlt hleft hsize hpage
  have hnone := fun hin => undoLoop_page offset
    ((M.mapLoop answer addr size offset i).stop - i) i
    (applyAll (M.mapLoop answer addr size offset i).calls pt) hundo hlt hleft hsize hpage hin
  rw [← hsame] at hkept hback hnone
  have hinside : InRange addr (M.mappedSize answer addr size offset i) page →
      InRange addr size page :=
    inRange_mono (M.mappedSize_le answer addr size offset i)
  refine ⟨?_, ?_, ?_⟩
  · intro c hc hwrite hc'
    rw [applyAll_append]
    rcases List.mem_append.mp hc with hmem | hmem
    · exact hnone (hcovers.mpr ⟨c, hmem, hc'⟩)
    · rw [(hback c hmem).1] at hwrite
      cases hwrite
  · intro c hc hc'
    rcases List.mem_append.mp hc with hmem | hmem
    · exact hinside (hcovers.mpr ⟨c, hmem, hc'⟩)
    · exact hinside ((hback c hmem).2 hc')
  · intro h
    have hnot := mt hinside h
    rw [applyAll_append, hkept hnot, hout hnot]

/-- A mapping that succeeds has gone over the whole range. -/
theorem mapped_of_success {addr size : Nat} (pt : PageTable) (hlt : addr < 2 ^ 64)
    (hsize : size ≤ 2 ^ 64) (hpage : page < 2 ^ 52)
    (hcode : (M.mapLoop answer addr size offset i).code = .success) :
    Mapped (M.mapLoop answer addr size offset i).calls pt addr size page := by
  have hwhole : M.mappedSize answer addr size offset i = size :=
    Nat.min_eq_left ((M.mapLoop_stop answer addr size offset i).mp hcode)
  have hpages := M.mapLoop_page answer addr size offset i pt hlt hsize hpage
  rw [hwhole] at hpages
  obtain ⟨hin, hout, hcovers⟩ := hpages
  exact ⟨hin, fun c hc h => hcovers.mpr ⟨c, hc, h⟩, hout⟩

/-- A mapping that fails leaves nothing of what it mapped and touches no page outside the
range.  One that succeeds maps the whole range, and the fence of the device is at least that
of every call that was not finished. -/
theorem partial_mapping_undone (M : PhysicalMemory) {answer undo : Nat → MapAnswer}
    (hundo : Succeeds undo) (pt : PageTable) (pageFenceValue : Nat) {addr size : Nat}
    (offset : Nat) (hlt : addr < 2 ^ 64) (hsize : size < 2 ^ 64) :
    let r := M.mapGpuVirtualAddress answer undo addr size offset
    (r.code ≠ .success → ∀ page < 2 ^ 52, Undone r.calls pt addr size page) ∧
      (r.code = .success →
        (∀ page < 2 ^ 52, Mapped r.calls pt addr size page) ∧
          ∀ k, k * gpuMemoryChunkSize < size →
            (answer (offset / gpuMemoryChunkSize + k)).code = .notReady →
            (answer (offset / gpuMemoryChunkSize + k)).pagingFenceValue ≤
              updateAll r.fences pageFenceValue) := by
  have hle := Nat.le_of_lt hsize
  simp only [mapGpuVirtualAddress_eq]
  generalize offset % gpuMemoryChunkSize = rest
  generalize offset / gpuMemoryChunkSize = first
  by_cases hcode : (M.mapLoop answer addr size rest first).code = .success
  · rw [if_pos hcode]
    refine ⟨fun h => absurd hcode h, fun _ => ⟨?_, ?_⟩⟩
    · intro page hpage
      exact mapped_of_success pt hlt hle hpage hcode
    · intro k hk hnotReady
      have hstop := (M.mapLoop_stop answer addr size rest first).mp hcode
      have hlt := Nat.lt_of_mul_lt_mul_right (Nat.lt_of_lt_of_le hk hstop)
      exact mem_le_updateAll (M.mapLoop_fences answer addr size rest first
        (Nat.le_add_right _ _) (by omega) hnotReady) _
  · rw [if_neg hcode]
    refine ⟨fun _ => ?_, fun h => absurd h hcode⟩
    intro page hpage
    exact undone_of_failed pt hlt hle hpage hcode fun t _ => hundo (first + t)

/-- The first chunk is mapped, not yet finished, and the second one fails. -/
def secondFails : Nat → MapAnswer
  | 0 => ⟨.notReady, 5⟩
  | _ => ⟨.outOfMemory, 0⟩

/-- The mapping of two chunks fails at the second one and the first one is taken back. -/
theorem partial_mapping_undone_second :
    let r := sampleMemory.mapGpuVirtualAddress secondFails (fun _ => {}) 0x4000000000 0x100000000 0
    r.code = .outOfMemory ∧ r.calls.length = 2 ∧
      ∀ page < 2 ^ 52, Undone r.calls (fun _ => none) 0x4000000000 0x100000000 page := by
  have hrun : (sampleMemory.mapGpuVirtualAddress secondFails (fun _ => {})
      0x4000000000 0x100000000 0).code = .outOfMemory ∧
      (sampleMemory.mapGpuVirtualAddress secondFails (fun _ => {})
        0x4000000000 0x100000000 0).calls.length = 2 := by
    have hfirst : Carried (secondFails 0) := by decide
    have hsecond : ¬ Carried (secondFails 1) := by decide
    have hloop : sampleMemory.mapLoop secondFails 0x4000000000 0x100000000 0 0 =
        ⟨[sampleMemory.mapCall 0x4000000000 0x100000000 0 0], [5], .outOfMemory, 1⟩ := by
      rw [mapLoop_carried (by decide) hfirst rfl, mapLoop_failed (by decide) hsecond]
      rfl
    simp [mapGpuVirtualAddress_eq, gpuMemoryChunkSize, hloop, undoLoop]
  refine ⟨hrun.1, hrun.2, ?_⟩
  refine (sampleMemory.partial_mapping_undone (fun _ => .inl rfl) (fun _ => none) 0 0 (by decide)
    (by decide)).1 ?_
  rw [hrun.1]
  decide

end PhysicalMemory

end RocDxg
