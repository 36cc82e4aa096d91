import RocDxg.Lib.Reach
import RocDxg.Memory.GpuMemory
import RocDxg.VaMgr.Partition

/-!
# The reserved range of the system heap

`ReserveSystemHeapSpace` maps a range of the address space without access, and the
commit and decommit functions of `hsakmtRuntime` in `openclose.cpp` map parts of it
again.  The state is the manager of the range and the mapping of each page of the
process.  Other components of the process map pages that are not mapped.

As long as no release of memory with a file unmaps a page of the range, every page of
it stays mapped by the library (`SystemHeap.stays_reserved`).
`DecommitSystemHeapSpaceIPC` does unmap, where `DecommitSystemHeapSpace` maps the range
without access again (`SystemHeap.ipc_free_leaves_hole`).
-/

namespace RocDxg

open Lib (Reach runAll reach_of_runAll)

/-- How a page is mapped. -/
inductive Page where
  | unmapped
  /-- By the library, without access. -/
  | reserved
  /-- By the library, for use. -/
  | committed
  /-- By another component of the process. -/
  | foreign
deriving DecidableEq, Repr

/-- The page has an address of the range. -/
def InPages (addr len p : Nat) : Prop := addr / pageSize ≤ p ∧ p * pageSize < addr + len

instance (addr len p : Nat) : Decidable (InPages addr len p) := inferInstanceAs (Decidable (_ ∧ _))

/-- The system heap of `hsakmtRuntime` and the pages of the process. -/
structure SystemHeap where
  /-- `system_heap_space_start_` -/
  start : Nat
  /-- `system_heap_space_size_` -/
  size : Nat
  /-- `system_heap_mgr_` -/
  mgr : VaMgr
  pages : Nat → Page

namespace SystemHeap

/-- `mmap` with `MAP_FIXED`, or `munmap`: it fails for an address that is not a page or
an empty range, and otherwise as the host answers. -/
def setPages (s : SystemHeap) (addr len : Nat) (x : Page) (answer : Bool) : Bool × SystemHeap :=
  if addr % pageSize = 0 ∧ 0 < len ∧ answer then
    (true, { s with pages := fun p => if InPages addr len p then x else s.pages p })
  else (false, s)

/-- The state after `ReserveSystemHeapSpace` and `InitSystemHeapMgr`.  The rest of the
address space is as `pages` says. -/
def new (start size : Nat) (pages : Nat → Page) : SystemHeap where
  start := start
  size := size
  mgr := .new start size defaultGpuPageSize
  pages := fun p => if InPages start size p then .reserved else pages p

/-- `CommitSystemHeapSpace` -/
def commitSystemHeapSpace (s : SystemHeap) (addr size : Nat) (mmap : Bool) : Bool × SystemHeap :=
  s.setPages addr size .committed mmap

/-- `DecommitSystemHeapSpace` -/
def decommitSystemHeapSpace (s : SystemHeap) (addr size : Nat) (mmap : Bool) : Bool × SystemHeap :=
  s.setPages addr size .reserved mmap

/-- `CommitSystemHeapSpaceIPC`, which makes a file unless it is given one.  The second
result is the descriptor. -/
def commitSystemHeapSpaceIPC (s : SystemHeap) (addr size : Nat) (memfd memfdCreate : Int)
    (mmap : Bool) : Bool × Int × SystemHeap :=
  let fd := if memfd = -1 then memfdCreate else memfd
  if memfd = -1 ∧ fd < 0 then (false, memfd, s)
  else
    let r := s.setPages addr size .committed mmap
    (r.1, if r.1 then fd else memfd, r.2)

/-- `DecommitSystemHeapSpaceIPC` -/
def decommitSystemHeapSpaceIPC (s : SystemHeap) (addr size : Nat) (memfd : Int) (munmap : Bool) :
    Bool × Int × SystemHeap :=
  let r := s.setPages addr size .unmapped munmap
  (r.1, if r.1 then -1 else memfd, r.2)

/-- `ReserveGpuVirtualAddress` in the system domain.  The commit is also made for the
address zero, when the manager has none. -/
def reserveGpuVirtualAddress (s : SystemHeap) (hitBaseAddr size alignment : Nat) (mmap : Bool) :
    Option (ErrorCode × Nat × SystemHeap) :=
  (s.mgr.alloc size (Heaps.reserveAlign size alignment) hitBaseAddr).map fun (p, m) =>
    let r := { s with mgr := m }.commitSystemHeapSpace p size mmap
    if r.1 then (if p = 0 then .outOfMemory else .success, p, r.2)
    else (.syscallFail, 0, { r.2 with mgr := m.free p })

/-- `FreeGpuVirtualAddress` in the system domain -/
def freeGpuVirtualAddress (s : SystemHeap) (gpuAddr size : Nat) (mmap : Bool) : SystemHeap :=
  let s := (s.decommitSystemHeapSpace gpuAddr size mmap).2
  { s with mgr := s.mgr.free gpuAddr }

/-- `ReserveIPCSysMem` -/
def reserveIPCSysMem (s : SystemHeap) (size alignment : Nat) (memfd memfdCreate : Int)
    (mmap : Bool) : Option (ErrorCode × Nat × Int × SystemHeap) :=
  (s.mgr.alloc size alignment 0).map fun (p, m) =>
    if p = 0 then (.outOfMemory, 0, memfd, { s with mgr := m })
    else
      let r := { s with mgr := m }.commitSystemHeapSpaceIPC p size memfd memfdCreate mmap
      if r.1 then (.success, p, r.2.1, r.2.2)
      else (.syscallFail, 0, r.2.1, { r.2.2 with mgr := m.free p })

/-- `FreeIPCSysMem` -/
def freeIPCSysMem (s : SystemHeap) (gpuAddr size : Nat) (memfd : Int) (munmap : Bool) :
    Int × SystemHeap :=
  let r := s.decommitSystemHeapSpaceIPC gpuAddr size memfd munmap
  (r.2.1, { r.2.2 with mgr := r.2.2.mgr.free gpuAddr })

/-- A call, with what the host answers, or a mapping by another component. -/
inductive Call where
  | reserveGpuVirtualAddress (hitBaseAddr size alignment : Nat) (mmap : Bool)
  | freeGpuVirtualAddress (gpuAddr size : Nat) (mmap : Bool)
  | reserveIPCSysMem (size alignment : Nat) (memfd memfdCreate : Int) (mmap : Bool)
  | freeIPCSysMem (gpuAddr size : Nat) (memfd : Int) (munmap : Bool)
  | foreign (page : Nat)
deriving DecidableEq, Repr

/-- One call; `none` when the manager fails an assertion, or the page is not free for
another component. -/
def step (s : SystemHeap) : Call → Option SystemHeap
  | .reserveGpuVirtualAddress hitBaseAddr size alignment mmap =>
      (s.reserveGpuVirtualAddress hitBaseAddr size alignment mmap).map fun r => r.2.2
  | .freeGpuVirtualAddress gpuAddr size mmap => some (s.freeGpuVirtualAddress gpuAddr size mmap)
  | .reserveIPCSysMem size alignment memfd memfdCreate mmap =>
      (s.reserveIPCSysMem size alignment memfd memfdCreate mmap).map fun r => r.2.2.2
  | .freeIPCSysMem gpuAddr size memfd munmap => some (s.freeIPCSysMem gpuAddr size memfd munmap).2
  | .foreign page =>
      if s.pages page = .unmapped then
        some { s with pages := Function.update s.pages page .foreign }
      else none

/-! ## What a call does to the pages -/

theorem setPages_mgr (s : SystemHeap) (addr len : Nat) (x : Page) (answer : Bool) :
    (s.setPages addr len x answer).2.mgr = s.mgr := by
  rw [setPages]
  split <;> rfl

/-- The manager changes as the model of the allocation says, with the outcome of the
commit. -/
theorem reserve_heaps (s : SystemHeap) (hs : Heaps) (hmgr : hs.systemHeapMgr = s.mgr)
    (hitBaseAddr size alignment : Nat) (mmap : Bool) :
    ∃ commit, (s.reserveGpuVirtualAddress hitBaseAddr size alignment mmap).map
        (fun r => (r.1, r.2.1, r.2.2.mgr)) =
      (hs.reserveGpuVirtualAddress .kSystem hitBaseAddr size alignment commit).map
        fun r => (r.1, r.2.1, r.2.2.systemHeapMgr) := by
  simp only [reserveGpuVirtualAddress, Heaps.reserveGpuVirtualAddress, hmgr, if_true]
  cases s.mgr.alloc size (Heaps.reserveAlign size alignment) hitBaseAddr with
  | none => exact ⟨true, rfl⟩
  | some r =>
      obtain ⟨p, m⟩ := r
      refine ⟨({ s with mgr := m }.commitSystemHeapSpace p size mmap).1, ?_⟩
      simp only [Option.map_some]
      split
      next => simp only [commitSystemHeapSpace, setPages_mgr]
      next => rfl

/-- What a call can do to the pages: nothing, map a range for the library, unmap one, or
map a free page for another component. -/
inductive Remaps (s : SystemHeap) (c : Call) : (Nat → Page) → Prop
  | keep : Remaps s c s.pages
  | map {addr len : Nat} {x : Page} : x = .reserved ∨ x = .committed →
      Remaps s c fun p => if InPages addr len p then x else s.pages p
  | unmap {addr len : Nat} {memfd : Int} : c = .freeIPCSysMem addr len memfd true →
      addr % pageSize = 0 → 0 < len →
      Remaps s c fun p => if InPages addr len p then .unmapped else s.pages p
  | foreign {page : Nat} : s.pages page = .unmapped →
      Remaps s c (Function.update s.pages page .foreign)

theorem setPages_keeps (s : SystemHeap) (addr len : Nat) (x : Page) (answer : Bool) :
    (s.setPages addr len x answer).2.start = s.start ∧
      (s.setPages addr len x answer).2.size = s.size := by
  rw [setPages]
  split <;> exact ⟨rfl, rfl⟩

theorem setPages_remaps {s t : SystemHeap} (c : Call) (ht : t.pages = s.pages) {addr len : Nat}
    {x : Page} (hx : x = .reserved ∨ x = .committed) (answer : Bool) :
    Remaps s c (t.setPages addr len x answer).2.pages := by
  rw [setPages]
  split
  next =>
    simp only [ht]
    exact .map hx
  next =>
    rw [ht]
    exact .keep

/-- The state after a commit to a range of the manager, and the manager in it. -/
structure Commits (s : SystemHeap) (p bytes : Nat) (m : VaMgr) (mmap : Bool) (s' : SystemHeap) :
    Prop where
  start : s'.start = s.start
  size : s'.size = s.size
  mgr : s'.mgr = m ∨ s'.mgr = m.free p
  pages : s'.pages = s.pages ∨ s'.pages = (s.setPages p bytes .committed mmap).2.pages

theorem setPages_withMgr (s : SystemHeap) (m : VaMgr) (addr len : Nat) (x : Page) (answer : Bool) :
    ({ s with mgr := m }.setPages addr len x answer).2.pages =
      (s.setPages addr len x answer).2.pages := by
  rw [setPages, setPages]
  split <;> rfl

theorem commits_reserve {s s' : SystemHeap} {hitBaseAddr size alignment : Nat} {mmap : Bool}
    (h : s.step (.reserveGpuVirtualAddress hitBaseAddr size alignment mmap) = some s') :
    ∃ p m, s.mgr.alloc size (Heaps.reserveAlign size alignment) hitBaseAddr = some (p, m) ∧
      Commits s p size m mmap s' := by
  obtain ⟨r, hr, heq⟩ := Option.map_eq_some_iff.mp h
  obtain ⟨⟨p, m⟩, halloc, hr⟩ := Option.map_eq_some_iff.mp hr
  have hkeeps := setPages_keeps { s with mgr := m } p size .committed mmap
  have hpages := setPages_withMgr s m p size .committed mmap
  have hmgr := setPages_mgr { s with mgr := m } p size .committed mmap
  refine ⟨p, m, halloc, ?_⟩
  rw [← heq, ← hr]
  dsimp only [commitSystemHeapSpace]
  split
  next => exact ⟨hkeeps.1, hkeeps.2, Or.inl hmgr, Or.inr hpages⟩
  next => exact ⟨hkeeps.1, hkeeps.2, Or.inr rfl, Or.inr hpages⟩

theorem commits_reserveIPC {s s' : SystemHeap} {size alignment : Nat} {memfd memfdCreate : Int}
    {mmap : Bool} (h : s.step (.reserveIPCSysMem size alignment memfd memfdCreate mmap) = some s') :
    ∃ p m, s.mgr.alloc size alignment 0 = some (p, m) ∧ Commits s p size m mmap s' ∧
      (p = 0 → s'.pages = s.pages) := by
  obtain ⟨r, hr, heq⟩ := Option.map_eq_some_iff.mp h
  obtain ⟨⟨p, m⟩, halloc, hr⟩ := Option.map_eq_some_iff.mp hr
  have hkeeps := setPages_keeps { s with mgr := m } p size .committed mmap
  have hpages := setPages_withMgr s m p size .committed mmap
  have hmgr := setPages_mgr { s with mgr := m } p size .committed mmap
  refine ⟨p, m, halloc, ?_⟩
  rw [← heq, ← hr]
  simp only [commitSystemHeapSpaceIPC]
  by_cases hzero : p = 0
  · simp only [if_pos hzero]
    exact ⟨⟨rfl, rfl, Or.inl rfl, Or.inl rfl⟩, fun _ => trivial⟩
  · simp only [if_neg hzero]
    by_cases hfile : memfd = -1 ∧ (if memfd = -1 then memfdCreate else memfd) < 0
    · simp only [if_pos hfile, Bool.false_eq_true, if_false]
      exact ⟨⟨rfl, rfl, Or.inr rfl, Or.inl rfl⟩, fun h => absurd h hzero⟩
    · simp only [if_neg hfile]
      refine ⟨?_, fun h => absurd h hzero⟩
      by_cases hok : ({ s with mgr := m }.setPages p size .committed mmap).1 = true
      · rw [if_pos hok]
        exact ⟨hkeeps.1, hkeeps.2, Or.inl hmgr, Or.inr hpages⟩
      · rw [if_neg hok]
        exact ⟨hkeeps.1, hkeeps.2, Or.inr rfl, Or.inr hpages⟩

theorem Commits.remaps {s s' : SystemHeap} {c : Call} {p size : Nat} {m : VaMgr} {mmap : Bool}
    (C : Commits s p size m mmap s') : Remaps s c s'.pages := by
  rcases C.pages with hpages | hpages
  · rw [hpages]
    exact .keep
  · rw [hpages]
    exact setPages_remaps c rfl (Or.inr rfl) mmap

/-- The pages after a call, and the range that stays. -/
theorem step_remaps {s s' : SystemHeap} {c : Call} (h : s.step c = some s') :
    s'.start = s.start ∧ s'.size = s.size ∧ Remaps s c s'.pages := by
  cases c with
  | reserveGpuVirtualAddress hitBaseAddr size alignment mmap =>
      obtain ⟨p, m, _, C⟩ := commits_reserve h
      exact ⟨C.start, C.size, C.remaps⟩
  | freeGpuVirtualAddress gpuAddr size mmap =>
      cases h
      have hkeeps := setPages_keeps s gpuAddr size .reserved mmap
      exact ⟨hkeeps.1, hkeeps.2, setPages_remaps _ rfl (Or.inl rfl) _⟩
  | reserveIPCSysMem size alignment memfd memfdCreate mmap =>
      obtain ⟨p, m, _, C, _⟩ := commits_reserveIPC h
      exact ⟨C.start, C.size, C.remaps⟩
  | freeIPCSysMem gpuAddr size memfd munmap =>
      cases h
      have hkeeps := setPages_keeps s gpuAddr size .unmapped munmap
      refine ⟨hkeeps.1, hkeeps.2, ?_⟩
      show Remaps s _ (s.setPages gpuAddr size .unmapped munmap).2.pages
      rw [setPages]
      split
      next hcond =>
        obtain ⟨haddr, hlen, hok⟩ := hcond
        exact .unmap (by rw [hok]) haddr hlen
      next => exact .keep
  | foreign page =>
      rw [step] at h
      split at h
      next hpage =>
        cases h
        exact ⟨rfl, rfl, .foreign hpage⟩
      next => cases h

/-! ## The range stays mapped -/

/-- The page belongs to the range of the heap. -/
def InHeap (s : SystemHeap) (p : Nat) : Prop := InPages s.start s.size p

/-- Every page of the range is mapped by the library. -/
def Mapped (s : SystemHeap) : Prop :=
  ∀ p, s.InHeap p → s.pages p = .reserved ∨ s.pages p = .committed

/-- The call is a release that unmaps a page of the range. -/
def Unmaps (s : SystemHeap) : Call → Prop
  | .freeIPCSysMem gpuAddr size _ munmap =>
      munmap = true ∧ gpuAddr % pageSize = 0 ∧ 0 < size ∧ gpuAddr < s.start + s.size ∧
        s.start / pageSize * pageSize < gpuAddr + size
  | _ => False

instance (s : SystemHeap) : (c : Call) → Decidable (s.Unmaps c)
  | .freeIPCSysMem .. => inferInstanceAs (Decidable (_ ∧ _))
  | .reserveGpuVirtualAddress .. => inferInstanceAs (Decidable False)
  | .freeGpuVirtualAddress .. => inferInstanceAs (Decidable False)
  | .reserveIPCSysMem .. => inferInstanceAs (Decidable False)
  | .foreign _ => inferInstanceAs (Decidable False)

/-- Two ranges that overlap have a page in common. -/
theorem exists_page {start size addr len : Nat} (haddr : addr % pageSize = 0) (hsize : 0 < size)
    (hlen : 0 < len) :
    (∃ p, InPages start size p ∧ InPages addr len p) ↔
      addr < start + size ∧ start / pageSize * pageSize < addr + len := by
  have hdiv := Nat.div_mul_le_self start pageSize
  have hdiv' : addr / pageSize * pageSize = addr :=
    Nat.div_mul_cancel (Nat.dvd_of_mod_eq_zero haddr)
  constructor
  · rintro ⟨p, ⟨hlo, hhi⟩, hlo', hhi'⟩
    have hstart := Nat.mul_le_mul_right pageSize hlo
    have haddr' := Nat.mul_le_mul_right pageSize hlo'
    constructor <;> omega
  · rintro ⟨hlt, hlt'⟩
    rcases Nat.le_total (addr / pageSize) (start / pageSize) with hle | hle
    · exact ⟨start / pageSize, ⟨Nat.le_refl _, by omega⟩, hle, hlt'⟩
    · exact ⟨addr / pageSize, ⟨hle, by omega⟩, Nat.le_refl _, by omega⟩

variable {s s' : SystemHeap} {c : Call}

/-- A call keeps the range mapped exactly if it does not unmap a page of it. -/
theorem step_mapped (hsize : 0 < s.size) (hm : s.Mapped) (h : s.step c = some s') :
    s'.Mapped ↔ ¬ s.Unmaps c := by
  obtain ⟨hstart, hsz, hr⟩ := step_remaps h
  constructor
  · intro hm' hun
    cases c with
    | freeIPCSysMem gpuAddr size memfd munmap =>
        obtain ⟨rfl, haddr, hlen, hlt, hlt'⟩ := hun
        obtain ⟨p, hp, hp'⟩ := (exists_page haddr hsize hlen).mpr ⟨hlt, hlt'⟩
        have hpages : s'.pages p = .unmapped := by
          cases h
          show (s.setPages gpuAddr size .unmapped true).2.pages p = _
          rw [setPages, if_pos ⟨haddr, hlen, rfl⟩]
          exact if_pos hp'
        have := hm' p (by rw [InHeap, hstart, hsz]; exact hp)
        rw [hpages] at this
        rcases this with hno | hno <;> cases hno
    | reserveGpuVirtualAddress => exact hun
    | freeGpuVirtualAddress => exact hun
    | reserveIPCSysMem => exact hun
    | foreign => exact hun
  · intro hun p hp
    rw [InHeap, hstart, hsz] at hp
    have hold := hm p hp
    generalize s'.pages = pages at hr ⊢
    cases hr with
    | keep => exact hold
    | map hx =>
        dsimp only
        split
        next => exact hx
        next => exact hold
    | unmap heq haddr hlen =>
        dsimp only
        split
        next hin =>
          subst heq
          obtain ⟨hlt, hlt'⟩ := (exists_page haddr hsize hlen).mp ⟨p, hp, hin⟩
          exact absurd ⟨rfl, haddr, hlen, hlt, hlt'⟩ hun
        next => exact hold
    | foreign hpage =>
        rename_i page
        rw [Function.update_of_ne]
        · exact hold
        · intro heq
          rw [heq, hpage] at hold
          rcases hold with hno | hno <;> cases hno

theorem mapped_new (start size : Nat) (pages : Nat → Page) : (new start size pages).Mapped :=
  fun _ hp => Or.inl (if_pos hp)

/-! ## The commits stay in the range -/

/-- The manager serves the call as it should: the size is positive and nothing wraps,
a fixed address is the base of a fragment, and the host refuses to map the address
zero. -/
def Regular (s : SystemHeap) : Call → Prop
  | .reserveGpuVirtualAddress hitBaseAddr size alignment mmap =>
      let align := Heaps.reserveAlign size alignment
      (0 < size ∧ align + s.mgr.minAlign - 1 < 2 ^ 64 ∧
        size + alignUp 64 align s.mgr.minAlign < 2 ^ 64) ∧
      VaMgr.TakesAtBase s.mgr size align hitBaseAddr ∧
      ((s.mgr.alloc size align hitBaseAddr).map Prod.fst = some 0 → mmap = false)
  | .reserveIPCSysMem size alignment _ _ _ =>
      0 < size ∧ alignment + s.mgr.minAlign - 1 < 2 ^ 64 ∧
        size + alignUp 64 alignment s.mgr.minAlign < 2 ^ 64
  | _ => True

instance (s : SystemHeap) : (c : Call) → Decidable (s.Regular c)
  | .reserveGpuVirtualAddress .. => inferInstanceAs (Decidable (_ ∧ _ ∧ _))
  | .reserveIPCSysMem .. => inferInstanceAs (Decidable (_ ∧ _))
  | .freeGpuVirtualAddress .. => inferInstanceAs (Decidable True)
  | .freeIPCSysMem .. => inferInstanceAs (Decidable True)
  | .foreign _ => inferInstanceAs (Decidable True)

/-- The manager partitions the range. -/
def Partitioned (s : SystemHeap) : Prop := VaMgr.Partition s.start s.size s.mgr

/-- A range of the manager is a range of the heap. -/
theorem inHeap_of_takes {m' : VaMgr} {bytes q p : Nat}
    (T : VaMgr.Takes s.start s.size s.mgr bytes q m') (hp : InPages q bytes p) : s.InHeap p := by
  have hbounds := T.partition.used_bounds (a := q) (n := bytes)
    (by rw [T.used]; exact Function.update_self ..)
  have hdiv := Nat.div_le_div_right (c := pageSize) hbounds.1
  obtain ⟨hlo, hhi⟩ := hp
  exact ⟨Nat.le_trans hdiv hlo, by omega⟩

/-- A commit inside the range replaces nothing of another component. -/
theorem Commits.foreign (hm : s.Mapped) {q size p : Nat} {m : VaMgr} {mmap : Bool}
    (C : Commits s q size m mmap s') (hin : mmap = true → InPages q size p → s.InHeap p)
    (hp : s.pages p = .foreign) : s'.pages p = .foreign := by
  rcases C.pages with hpages | hpages
  · rw [hpages, hp]
  · rw [hpages, setPages]
    split
    next hcond =>
      show (if InPages q size p then Page.committed else s.pages p) = _
      split
      next hin' =>
        have := hm p (hin hcond.2.2 hin')
        rw [hp] at this
        rcases this with hno | hno <;> cases hno
      next => exact hp
    next => exact hp

/-- The call commits memory. -/
def Call.commits : Call → Bool
  | .reserveGpuVirtualAddress .. => true
  | .reserveIPCSysMem .. => true
  | _ => false

/-- A regular commit replaces nothing of another component. -/
theorem commit_foreign (hm : s.Mapped) (hpart : s.Partitioned) (hreg : s.Regular c)
    (hc : c.commits = true) (h : s.step c = some s') {p : Nat} (hp : s.pages p = .foreign) :
    s'.pages p = .foreign := by
  cases c with
  | reserveGpuVirtualAddress hitBaseAddr size alignment mmap =>
      obtain ⟨⟨hpos, halign, htotal⟩, hbase, hzero⟩ := hreg
      obtain ⟨q, m, halloc, C⟩ := commits_reserve h
      refine C.foreign hm ?_ hp
      intro hmmap hpages
      rcases VaMgr.alloc_returns hpart ⟨hpos, halign, fun _ => htotal⟩ hbase halloc with
        ⟨rfl, _⟩ | T
      · rw [hzero (by rw [halloc]; rfl)] at hmmap
        cases hmmap
      · exact inHeap_of_takes T hpages
  | reserveIPCSysMem size alignment memfd memfdCreate mmap =>
      obtain ⟨hpos, halign, htotal⟩ := hreg
      obtain ⟨q, m, halloc, C, hzero⟩ := commits_reserveIPC h
      rcases VaMgr.alloc_returns hpart ⟨hpos, halign, fun _ => htotal⟩
        (VaMgr.takesAtBase_zero _ _ _) halloc with ⟨hq, _⟩ | T
      · rw [hzero hq, hp]
      · exact C.foreign hm (fun _ hpages => inHeap_of_takes T hpages) hp
  | freeGpuVirtualAddress => cases hc
  | freeIPCSysMem => cases hc
  | foreign => cases hc

/-- Every regular call leaves a partition. -/
theorem step_partitioned (hpart : s.Partitioned) (hreg : s.Regular c) (h : s.step c = some s') :
    s'.Partitioned := by
  obtain ⟨hstart, hsize, _⟩ := step_remaps h
  rw [Partitioned, hstart, hsize]
  have hcommit : ∀ {p m bytes mmap}, Commits s p bytes m mmap s' →
      ((p = 0 ∧ m = s.mgr) ∨ VaMgr.Takes s.start s.size s.mgr bytes p m) →
      VaMgr.Partition s.start s.size s'.mgr := by
    intro p m bytes mmap C hcase
    have hm : VaMgr.Partition s.start s.size m := by
      rcases hcase with ⟨_, rfl⟩ | T
      · exact hpart
      · exact T.partition
    rcases C.mgr with hmgr | hmgr
    · rw [hmgr]
      exact hm
    · rw [hmgr]
      exact (VaMgr.free_spec hm p).1
  cases c with
  | reserveGpuVirtualAddress hitBaseAddr size alignment mmap =>
      obtain ⟨⟨hpos, halign, htotal⟩, hbase, _⟩ := hreg
      obtain ⟨q, m, halloc, C⟩ := commits_reserve h
      exact hcommit C (VaMgr.alloc_returns hpart ⟨hpos, halign, fun _ => htotal⟩ hbase halloc)
  | reserveIPCSysMem size alignment memfd memfdCreate mmap =>
      obtain ⟨hpos, halign, htotal⟩ := hreg
      obtain ⟨q, m, halloc, C, _⟩ := commits_reserveIPC h
      exact hcommit C (VaMgr.alloc_returns hpart ⟨hpos, halign, fun _ => htotal⟩
        (VaMgr.takesAtBase_zero _ _ _) halloc)
  | freeGpuVirtualAddress gpuAddr size mmap =>
      cases h
      show VaMgr.Partition _ _ ((s.setPages gpuAddr size .reserved mmap).2.mgr.free gpuAddr)
      rw [setPages_mgr]
      exact (VaMgr.free_spec hpart gpuAddr).1
  | freeIPCSysMem gpuAddr size memfd munmap =>
      cases h
      show VaMgr.Partition _ _ ((s.setPages gpuAddr size .unmapped munmap).2.mgr.free gpuAddr)
      rw [setPages_mgr]
      exact (VaMgr.free_spec hpart gpuAddr).1
  | foreign page =>
      rw [step] at h
      split at h
      next =>
        cases h
        exact hpart
      next => cases h

/-! ## Runs -/

variable {start size : Nat} {pages : Nat → Page}

/-- In every run that unmaps no page of the range every page of it is mapped by the
library, and the next call keeps it so exactly if it unmaps none.  If the manager was
used as it should, no commit replaces a mapping of another component. -/
theorem stays_reserved (hrange : VaMgr.Managed start size)
    (h : Reach step (fun s c => ¬ s.Unmaps c) (new start size pages) s) :
    s.Mapped ∧ (∀ c s', s.step c = some s' → (s'.Mapped ↔ ¬ s.Unmaps c)) ∧
      (Reach step (fun s c => ¬ s.Unmaps c ∧ s.Regular c) (new start size pages) s →
        ∀ c s', s.Regular c → c.commits = true → s.step c = some s' →
          ∀ p, s.pages p = .foreign → s'.pages p = .foreign) := by
  have hinv : s.Mapped ∧ 0 < s.size := by
    refine h.invariant (I := fun s => s.Mapped ∧ 0 < s.size)
      ⟨mapped_new start size pages, hrange.size_pos⟩ ?_
    intro s c s' hs hok hstep
    refine ⟨(step_mapped hs.2 hs.1 hstep).mpr hok, ?_⟩
    rw [(step_remaps hstep).2.1]
    exact hs.2
  refine ⟨hinv.1, fun c s' hstep => step_mapped hinv.2 hinv.1 hstep, ?_⟩
  intro hreg c s' hc hcommits hstep p hp
  have hpart : s.Partitioned := by
    refine hreg.invariant (I := Partitioned)
      (VaMgr.partition_new hrange (Nat.two_pow_pos 12)) ?_
    intro s c s' hs hok hstep
    exact step_partitioned hs hok.2 hstep
  exact commit_foreign hinv.1 hpart hc hcommits hstep hp

/-- A run with a commit, a commit of a file and a release. -/
theorem stays_reserved_run :
    ∃ s, Reach step (fun s c => ¬ s.Unmaps c) (new 0x100000 0x100000 fun _ => .unmapped) s ∧
      s.pages 0x100 = .reserved ∧ s.pages 0x110 = .committed ∧ s.Mapped := by
  have hrun : (runAll step (fun s c => ¬ s.Unmaps c) (new 0x100000 0x100000 fun _ => .unmapped)
      [.reserveGpuVirtualAddress 0 0x2000 0 true, .reserveIPCSysMem 0x1000 0x10000 (-1) 3 true,
        .foreign 0x50, .freeGpuVirtualAddress 0x100000 0x2000 true]).map
        (fun s => (s.pages 0x100, s.pages 0x110)) = some (.reserved, .committed) := by
    decide
  obtain ⟨s, hs, heq⟩ := Option.map_eq_some_iff.mp hrun
  have hreach := reach_of_runAll hs
  simp only [Prod.mk.injEq] at heq
  exact ⟨s, hreach, heq.1, heq.2, (stays_reserved ⟨by decide, by decide, by decide⟩ hreach).1⟩

/-- A release of memory with a file leaves a hole, another component maps it, and the
next commit replaces that mapping. -/
theorem ipc_free_leaves_hole :
    (¬ ∀ s, Reach step (fun _ _ => True) (new 0x100000 0x100000 fun _ => .unmapped) s → s.Mapped) ∧
      ∃ s s', Reach step (fun s c => s.Regular c) (new 0x100000 0x100000 fun _ => .unmapped) s ∧
        s.step (.reserveGpuVirtualAddress 0 0x1000 0 true) = some s' ∧
        s.pages 0x100 = .foreign ∧ s'.pages 0x100 = .committed := by
  refine ⟨?_, ?_⟩
  · intro hall
    have hrun : (runAll step (fun _ _ => True) (new 0x100000 0x100000 fun _ => .unmapped)
        [.reserveIPCSysMem 0x1000 0x10000 (-1) 3 true, .freeIPCSysMem 0x100000 0x1000 3 true]).map
          (fun s => (s.start, s.size, s.pages 0x100)) = some (0x100000, 0x100000, .unmapped) := by
      decide
    obtain ⟨s, hs, heq⟩ := Option.map_eq_some_iff.mp hrun
    simp only [Prod.mk.injEq] at heq
    have hmapped := hall s (reach_of_runAll hs) 0x100 (by rw [InHeap, heq.1, heq.2.1]; decide)
    rw [heq.2.2] at hmapped
    rcases hmapped with hno | hno <;> cases hno
  · have hrun : ((runAll step (fun s c => s.Regular c) (new 0x100000 0x100000 fun _ => .unmapped)
        [.reserveIPCSysMem 0x1000 0x10000 (-1) 3 true, .freeIPCSysMem 0x100000 0x1000 3 true,
          .foreign 0x100]).bind fun s =>
          (s.step (.reserveGpuVirtualAddress 0 0x1000 0 true)).map fun s' =>
            (s.pages 0x100, s'.pages 0x100)) = some (.foreign, .committed) := by
      decide
    obtain ⟨s, hs, heq⟩ := Option.bind_eq_some_iff.mp hrun
    obtain ⟨s', hs', heq⟩ := Option.map_eq_some_iff.mp heq
    simp only [Prod.mk.injEq] at heq
    exact ⟨s, s', reach_of_runAll hs, hs', heq.1, heq.2⟩

end SystemHeap

end RocDxg
