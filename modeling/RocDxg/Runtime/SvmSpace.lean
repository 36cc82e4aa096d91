import RocDxg.Memory.Sizes

/-!
# One range for the processor and all adapters

`hsakmtRuntime::ReserveSvmSpace` looks for a range of addresses that is free in the process
and on every adapter.  It maps a range of the process that is larger by the alignment, asks the
adapters one after the other for a range inside it, and tries again, sixteen times at most.
`FreeSvmSpace` gives the range back.

What one adapter has reserved is the range the next one is asked for, in the same try and in
those behind it, and no reservation is ever taken back.  So the first try in which any adapter
reserves a range decides: the call leaves one common range, or nothing, exactly if in that try
every adapter reserves the same range from the first of a page on (`svm_space_common_iff`).
-/

namespace RocDxg

/-- A range that is asked for: its size, and the alignment by which the mapping is larger.  The
callers ask for whole pages. -/
structure SvmRequest where
  size : Nat
  align : Nat
  size_page : size % 4096 = 0
  align_page : align % 4096 = 0
  align_pos : 0 < align
  sum_lt : size + align < 2 ^ 64

/-- `sys_va_size` -/
def SvmRequest.sysVaSize (r : SvmRequest) : Nat := RocDxg.sysVaSize r.size r.align

/-- What `ReserveLocalHeapSpace` reads of a device. -/
structure DeviceHeaps where
  isDgpu : Bool
  localHeapSize : Nat
  nonLocalHeapSize : Nat

/-- The memory of a device that counts: a device without memory of its own uses the shared. -/
def DeviceHeaps.usable (d : DeviceHeaps) : Nat :=
  if d.isDgpu then d.localHeapSize else u64 (d.localHeapSize + d.nonLocalHeapSize)

theorem svmAlign_page (heap : Heap) : svmAlign heap % 4096 = 0 := by
  cases heap <;> decide

theorem svmAlign_pos (heap : Heap) : 0 < svmAlign heap := by
  cases heap <;> decide

theorem localHeapSize_page (total : Nat) :
    u64 (alignUp 64 total (svmAlign .localHeap) * 4) % 4096 = 0 := by
  simp only [u64, alignUp, alignDown, svmAlign, if_true]
  omega

theorem localHeapSum_lt (total : Nat) :
    u64 (alignUp 64 total (svmAlign .localHeap) * 4) + svmAlign .localHeap < 2 ^ 64 := by
  simp only [u64, alignUp, alignDown, svmAlign, if_true]
  omega

theorem systemHeapSize_page (totalram : Nat) :
    min (u64 (alignUp 64 totalram (svmAlign .systemHeap) * 2)) 0x10000000000 % 4096 = 0 := by
  simp only [u64, alignUp, alignDown, svmAlign, reduceCtorEq, if_false]
  omega

theorem systemHeapSum_lt (totalram : Nat) :
    min (u64 (alignUp 64 totalram (svmAlign .systemHeap) * 2)) 0x10000000000 +
      svmAlign .systemHeap < 2 ^ 64 := by
  simp only [svmAlign, reduceCtorEq, if_false]
  omega

/-- The request of `ReserveLocalHeapSpace` -/
def localHeapRequest (devices : List DeviceHeaps) : SvmRequest where
  size := u64 (alignUp 64 (devices.foldl (fun total d => max d.usable total) 0)
    (svmAlign .localHeap) * 4)
  align := svmAlign .localHeap
  size_page := localHeapSize_page _
  align_page := svmAlign_page .localHeap
  align_pos := svmAlign_pos .localHeap
  sum_lt := localHeapSum_lt _

/-- The request of `ReserveSystemHeapSpace`: twice the memory of the machine, and 1 TiB at
most. -/
def systemHeapRequest (totalram : Nat) : SvmRequest where
  size := min (u64 (alignUp 64 totalram (svmAlign .systemHeap) * 2)) 0x10000000000
  align := svmAlign .systemHeap
  size_page := systemHeapSize_page totalram
  align_page := svmAlign_page .systemHeap
  align_pos := svmAlign_pos .systemHeap
  sum_lt := systemHeapSum_lt totalram

/-- The host: what `mmap` answers at each try, and what the driver answers at try `i` to adapter
`j` that asks for a range between two addresses. -/
structure SvmHost (r : SvmRequest) where
  /-- The end of the addresses of a process. -/
  taskSize : Nat
  taskSize_lt : taskSize < 2 ^ 63
  mmap : Nat → Option Nat
  reserve : (i j start stop : Nat) → Option Nat
  page : ∀ {i p}, mmap i = some p → p % 4096 = 0
  pos : ∀ {i p}, mmap i = some p → 0 < p
  fits : ∀ {i p}, mmap i = some p → p + r.sysVaSize ≤ taskSize
  /-- A mapping does not overlap one that is there. -/
  apart : ∀ {i k p q}, i < k → mmap i = some p → mmap k = some q →
    p + r.sysVaSize ≤ q ∨ q + r.sysVaSize ≤ p
  /-- A range that is reserved lies in the window. -/
  inside : ∀ {i j start stop va}, reserve i j start stop = some va →
    start ≤ va ∧ va + r.size ≤ stop

/-- The addresses in a range. -/
def inSpan (start size a : Nat) : Bool := start ≤ a && a < start + size

/-- The length of whole pages. -/
def pageAlign (len : Nat) : Nat := (len + 4095) / 4096 * 4096

/-- `munmap`, on the addresses that the call has mapped.  It fails for an address inside a page
and for a length that goes beyond the addresses of a process. -/
def munmap (taskSize start len : Nat) (cpu : Nat → Bool) : Nat → Bool :=
  if start % 4096 = 0 ∧ start + len ≤ taskSize then
    fun a => cpu a && !inSpan start (pageAlign len) a
  else cpu

/-- The variables of the search, the addresses that are mapped, and the adapters with the
addresses that they have reserved, in the order of the replies. -/
structure SvmSearch where
  base : Nat := 0
  localVa : Nat := 0
  matchCnt : Nat := 0
  /-- `sys_va` up to the try at hand -/
  sysVa : List Nat := []
  cpu : Nat → Bool := fun _ => false
  gpu : List (Nat × Nat) := []

/-- The state at the start of a try, with the mapping that it has made. -/
def SvmSearch.enter (s : SvmSearch) (sysVaSize p : Nat) : SvmSearch :=
  { s with localVa := 0, matchCnt := 0, sysVa := s.sysVa ++ [p],
           cpu := fun a => s.cpu a || inSpan p (pageAlign sysVaSize) a }

/-- What the call leaves: what it returns, its two results, and what is held. -/
structure SvmResult where
  ok : Bool
  base : Nat
  size : Nat
  cpu : Nat → Bool
  gpu : List (Nat × Nat)

namespace SvmHost

variable {r : SvmRequest}

/-- One adapter is asked, in the window of the mapping or in that of the range at hand. -/
def askAdapter (h : SvmHost r) (i p : Nat) (s : SvmSearch) (j : Nat) : SvmSearch :=
  let start := if s.base = 0 then p else s.base
  let stop := u64 (start + (if s.base = 0 then r.sysVaSize else r.size) + 1)
  match h.reserve i j start stop with
  | some va => { s with base := va, localVa := va, matchCnt := s.matchCnt + 1,
                        gpu := s.gpu ++ [(j, va)] }
  | none => s

/-- One try: the loop over the adapters. -/
def tryOnce (h : SvmHost r) (n p : Nat) (s : SvmSearch) : SvmSearch :=
  (List.range n).foldl (h.askAdapter s.sysVa.length p) (s.enter r.sysVaSize p)

/-- The tries that are left, until one matches or a mapping fails. -/
def search (h : SvmHost r) (n : Nat) : Nat → SvmSearch → Option Nat × SvmSearch
  | 0, s => (none, s)
  | left + 1, s =>
    match h.mmap s.sysVa.length with
    | none => (none, s)
    | some p =>
      if (h.tryOnce n p s).matchCnt = n then (some p, h.tryOnce n p s)
      else search h n left (h.tryOnce n p s)

/-- The mappings of tries that did not match are removed. -/
def unmapAll (h : SvmHost r) (qs : List Nat) (cpu : Nat → Bool) : Nat → Bool :=
  qs.foldl (fun cpu q => munmap h.taskSize q r.sysVaSize cpu) cpu

/-- What is done after the loop. -/
def conclude (h : SvmHost r) : Option Nat × SvmSearch → SvmResult
  | (some p, s) =>
    let leftSize := sub64 s.localVa p
    let rightSize := sub64 r.align leftSize
    let cpu := munmap h.taskSize (u64 (s.localVa + r.size)) rightSize
      (munmap h.taskSize p leftSize s.cpu)
    { ok := true, base := s.base, size := r.size, gpu := s.gpu,
      cpu := h.unmapAll s.sysVa.dropLast cpu }
  | (none, s) =>
    { ok := false, base := 0, size := 0, gpu := s.gpu, cpu := h.unmapAll s.sysVa s.cpu }

/-- `ReserveSvmSpace`, with `n` adapters -/
def reserveSvmSpace (h : SvmHost r) (n : Nat) : SvmResult :=
  h.conclude (h.search n 16 {})

end SvmHost

/-- `FreeSvmSpace`: each adapter releases the range, and it is unmapped. -/
def SvmResult.freeSvmSpace (taskSize n : Nat) (res : SvmResult) : SvmResult where
  ok := res.size ≠ 0 && res.base % 4096 = 0 && res.base + res.size ≤ taskSize
  base := 0
  size := 0
  cpu := munmap taskSize res.base res.size res.cpu
  gpu := (List.range n).foldl (fun gpu j => gpu.erase (j, res.base)) res.gpu

/-! ## What the call is to leave -/

/-- Each adapter has reserved the range once, nothing else is reserved, and of the addresses that
were mapped those of the range are left. -/
structure SvmResult.Common (n : Nat) (res : SvmResult) : Prop where
  gpu : res.gpu.Perm ((List.range n).map fun j => (j, res.base))
  cpu : ∀ a, res.cpu a = inSpan res.base res.size a

/-- There is no range, and nothing is reserved. -/
structure SvmResult.Nothing (res : SvmResult) : Prop where
  base : res.base = 0
  size : res.size = 0
  gpu : res.gpu = []
  cpu : ∀ a, res.cpu a = false

/-- One common range, or nothing. -/
def SvmResult.Right (n : Nat) (res : SvmResult) : Prop :=
  if res.ok = true then res.Common n else res.Nothing

/-! ## The condition on the answers -/

namespace SvmHost

variable {r : SvmRequest}

/-- No adapter reserves a range inside a mapping. -/
def Refused (h : SvmHost r) (n i p : Nat) : Prop :=
  ∀ j < n, h.reserve i j p (p + r.sysVaSize + 1) = none

/-- The first adapter reserves the range at `b` inside a mapping, and the others the same. -/
def Shared (h : SvmHost r) (n i p b : Nat) : Prop :=
  h.reserve i 0 p (p + r.sysVaSize + 1) = some b ∧
    ∀ j < n, 0 < j → h.reserve i j b (b + r.size + 1) = some b

/-- A range that begins with a page; an empty one may also begin inside the last page of the
mapping. -/
def Trims (h : SvmHost r) (p b : Nat) : Prop :=
  b % 4096 = 0 ∨ r.size = 0 ∧ p + r.align < b + 4096 ∧ b ≤ h.taskSize

/-- All adapters reserve one range inside a mapping. -/
def Agreed (h : SvmHost r) (n i p : Nat) : Prop := ∃ b, h.Shared n i p b ∧ h.Trims p b

/-- In the first try in which some adapter reserves a range, all of them reserve the same one.
Without adapters there is no mapping, or the range is empty. -/
def Settled (h : SvmHost r) (n : Nat) : Prop :=
  if n = 0 then h.mmap 0 = none ∨ r.size = 0
  else ∀ i < 16, ∀ p, h.mmap i = some p →
    (∀ k < i, ∃ q, h.mmap k = some q ∧ h.Refused n k q) → h.Refused n i p ∨ h.Agreed n i p

end SvmHost

/-! ## Pages and mappings -/

theorem pageAlign_of_page {len : Nat} (h : len % 4096 = 0) : pageAlign len = len := by
  rw [pageAlign]
  omega

theorem SvmRequest.sysVaSize_eq (r : SvmRequest) : r.sysVaSize = r.size + r.align :=
  u64_of_lt r.sum_lt

theorem SvmRequest.pageAlign_sysVaSize (r : SvmRequest) :
    pageAlign r.sysVaSize = r.sysVaSize := by
  have hsize := r.size_page
  have halign := r.align_page
  refine pageAlign_of_page ?_
  rw [r.sysVaSize_eq]
  omega

theorem inSpan_iff {start size a : Nat} :
    inSpan start size a = true ↔ start ≤ a ∧ a < start + size := by
  simp [inSpan]

theorem inSpan_eq_false {start size a : Nat} :
    inSpan start size a = false ↔ ¬ (start ≤ a ∧ a < start + size) := by
  rw [← inSpan_iff, Bool.not_eq_true]

section Munmap

variable {taskSize start len a : Nat} {cpu : Nat → Bool}

theorem munmap_eq_true : munmap taskSize start len cpu a = true ↔ cpu a = true ∧
    (start % 4096 = 0 ∧ start + len ≤ taskSize →
      ¬ (start ≤ a ∧ a < start + pageAlign len)) := by
  rw [munmap]
  split
  next hfits =>
    simp only [Bool.and_eq_true, Bool.not_eq_true', inSpan_eq_false, forall_prop_of_true hfits]
  next hfails => simp only [hfails, false_implies, and_true]

end Munmap

namespace SvmHost

variable {r : SvmRequest} {h : SvmHost r}

theorem unmapAll_eq_true {qs : List Nat} (cpu : Nat → Bool) (a : Nat)
    (hqs : ∀ q ∈ qs, q % 4096 = 0 ∧ q + r.sysVaSize ≤ h.taskSize) :
    h.unmapAll qs cpu a = true ↔
      cpu a = true ∧ ∀ q ∈ qs, ¬ (q ≤ a ∧ a < q + r.sysVaSize) := by
  induction qs generalizing cpu with
  | nil => simp [unmapAll]
  | cons q qs ih =>
      obtain ⟨hpage, hend⟩ := hqs q List.mem_cons_self
      have hrest := ih (munmap h.taskSize q r.sysVaSize cpu)
        fun q' hq' => hqs q' (List.mem_cons_of_mem q hq')
      rw [unmapAll, List.foldl_cons, ← unmapAll, hrest, munmap_eq_true, r.pageAlign_sysVaSize,
        forall_prop_of_true ⟨hpage, hend⟩, List.forall_mem_cons, and_assoc]

theorem stop_lt {i p : Nat} (hp : h.mmap i = some p) : p + r.sysVaSize + 2 < 2 ^ 64 := by
  have hfits := h.fits hp
  have hlt := h.taskSize_lt
  omega

theorem right_some (h : SvmHost r) (n p : Nat) (s : SvmSearch) :
    (h.conclude (some p, s)).Right n ↔ (h.conclude (some p, s)).Common n := by
  rw [SvmResult.Right, if_pos (show (h.conclude (some p, s)).ok = true from rfl)]

theorem right_none (h : SvmHost r) (n : Nat) (s : SvmSearch) :
    (h.conclude (none, s)).Right n ↔ (h.conclude (none, s)).Nothing := by
  rw [SvmResult.Right, if_neg (show ¬ (h.conclude (none, s)).ok = true from Bool.false_ne_true)]

/-! ## One try -/

/-- What a part of the loop over the adapters leaves alone, and what it adds. -/
structure Grows (s s' : SvmSearch) : Prop where
  sysVa : s'.sysVa = s.sysVa
  cpu : s'.cpu = s.cpu
  gpu : s.gpu <+: s'.gpu
  count : s'.matchCnt + s.gpu.length = s.matchCnt + s'.gpu.length

theorem Grows.refl (s : SvmSearch) : Grows s s := ⟨rfl, rfl, List.prefix_rfl, rfl⟩

theorem Grows.trans {s s' s'' : SvmSearch} (h₁ : Grows s s') (h₂ : Grows s' s'') :
    Grows s s'' where
  sysVa := h₂.sysVa.trans h₁.sysVa
  cpu := h₂.cpu.trans h₁.cpu
  gpu := h₁.gpu.trans h₂.gpu
  count := by
    have hfirst := h₁.count
    have hsecond := h₂.count
    omega

variable {i p : Nat} {s : SvmSearch}

theorem askAdapter_grows (h : SvmHost r) (i p : Nat) (s : SvmSearch) (j : Nat) :
    Grows s (h.askAdapter i p s j) := by
  simp only [askAdapter]
  split
  next => exact ⟨rfl, rfl, List.prefix_append _ _, by simp; omega⟩
  next => exact .refl s

theorem loop_grows (h : SvmHost r) (i p : Nat) (js : List Nat) (s : SvmSearch) :
    Grows s (js.foldl (h.askAdapter i p) s) := by
  induction js generalizing s with
  | nil => exact .refl s
  | cons j js ih => exact (askAdapter_grows h i p s j).trans (ih _)

theorem askAdapter_count_le (h : SvmHost r) (i p : Nat) (s : SvmSearch) (j : Nat) :
    (h.askAdapter i p s j).matchCnt ≤ s.matchCnt + 1 := by
  simp only [askAdapter]
  split
  next => exact Nat.le_refl _
  next => exact Nat.le_succ _

theorem loop_count_le (h : SvmHost r) (i p : Nat) (js : List Nat) (s : SvmSearch) :
    (js.foldl (h.askAdapter i p) s).matchCnt ≤ s.matchCnt + js.length := by
  induction js generalizing s with
  | nil => exact Nat.le_refl _
  | cons j js ih =>
      have hhead := askAdapter_count_le h i p s j
      have hrest := ih (h.askAdapter i p s j)
      rw [List.foldl_cons, List.length_cons]
      omega

/-- Without a range at hand an adapter is asked in the window of the mapping. -/
theorem askAdapter_fresh (hp : h.mmap i = some p) (hbase : s.base = 0) (j : Nat) :
    h.askAdapter i p s j = match h.reserve i j p (p + r.sysVaSize + 1) with
      | some va => { s with base := va, localVa := va, matchCnt := s.matchCnt + 1,
                            gpu := s.gpu ++ [(j, va)] }
      | none => s := by
  have hstop := h.stop_lt hp
  rw [askAdapter, if_pos hbase, if_pos hbase, u64_of_lt (by omega)]

/-- With one it is asked for that range. -/
theorem askAdapter_again (hbase : s.base ≠ 0) (hlt : s.base + r.size + 1 < 2 ^ 64) (j : Nat) :
    h.askAdapter i p s j = match h.reserve i j s.base (s.base + r.size + 1) with
      | some va => { s with base := va, localVa := va, matchCnt := s.matchCnt + 1,
                            gpu := s.gpu ++ [(j, va)] }
      | none => s := by
  rw [askAdapter, if_neg hbase, if_neg hbase, u64_of_lt hlt]

theorem loop_refused {js : List Nat} (hp : h.mmap i = some p) (hbase : s.base = 0)
    (hall : ∀ j ∈ js, h.reserve i j p (p + r.sysVaSize + 1) = none) :
    js.foldl (h.askAdapter i p) s = s := by
  induction js with
  | nil => rfl
  | cons j js ih =>
      rw [List.foldl_cons, askAdapter_fresh hp hbase, hall j List.mem_cons_self]
      exact ih fun j' hj' => hall j' (List.mem_cons_of_mem j hj')

/-- If no adapter has reserved anything, all have refused. -/
theorem loop_nothing {js : List Nat} (hp : h.mmap i = some p) (hbase : s.base = 0)
    (hgpu : (js.foldl (h.askAdapter i p) s).gpu = s.gpu) :
    ∀ j ∈ js, h.reserve i j p (p + r.sysVaSize + 1) = none := by
  induction js with
  | nil => exact fun j hj => absurd hj List.not_mem_nil
  | cons j js ih =>
      have hstep := askAdapter_fresh hp hbase j
      rw [List.foldl_cons] at hgpu
      cases hreply : h.reserve i j p (p + r.sysVaSize + 1) with
      | none =>
          simp only [hreply] at hstep
          rw [hstep] at hgpu
          exact List.forall_mem_cons.mpr ⟨hreply, ih hgpu⟩
      | some va =>
          simp only [hreply] at hstep
          have hgrows := (loop_grows h i p js (h.askAdapter i p s j)).gpu.length_le
          rw [hgpu, hstep, List.length_append, List.length_singleton] at hgrows
          omega

theorem loop_agreed {js : List Nat} (hbase : s.base ≠ 0) (hlocal : s.localVa = s.base)
    (hlt : s.base + r.size + 1 < 2 ^ 64)
    (hall : ∀ j ∈ js, h.reserve i j s.base (s.base + r.size + 1) = some s.base) :
    js.foldl (h.askAdapter i p) s =
      { s with matchCnt := s.matchCnt + js.length,
               gpu := s.gpu ++ js.map fun j => (j, s.base) } := by
  induction js generalizing s with
  | nil => simp
  | cons j js ih =>
      have hstep : h.askAdapter i p s j =
          { s with matchCnt := s.matchCnt + 1, gpu := s.gpu ++ [(j, s.base)] } := by
        rw [askAdapter_again hbase hlt, hall j List.mem_cons_self]
        simp only [← hlocal]
      rw [List.foldl_cons, hstep]
      refine Eq.trans (ih ?_ ?_ ?_ ?_) ?_
      · exact hbase
      · exact hlocal
      · exact hlt
      · exact fun j' hj' => hall j' (List.mem_cons_of_mem j hj')
      · simp [Nat.add_assoc, Nat.add_comm 1]

/-- If all adapters reserve a range, and all the same one, it is the one at hand. -/
theorem loop_same {js : List Nat} (hbase : s.base ≠ 0) (hlt : s.base + r.size + 1 < 2 ^ 64)
    (hheld : ∃ j, (j, s.base) ∈ s.gpu)
    (hcount : (js.foldl (h.askAdapter i p) s).matchCnt = s.matchCnt + js.length)
    (hsame : ∀ e ∈ (js.foldl (h.askAdapter i p) s).gpu,
      e.2 = (js.foldl (h.askAdapter i p) s).base) :
    ∀ j ∈ js, h.reserve i j s.base (s.base + r.size + 1) = some s.base := by
  induction js generalizing s with
  | nil => exact fun j hj => absurd hj List.not_mem_nil
  | cons j js ih =>
      obtain ⟨j₀, hheld⟩ := hheld
      rw [List.foldl_cons] at hcount hsame
      have hstep := askAdapter_again (h := h) (i := i) (p := p) hbase hlt j
      cases hreply : h.reserve i j s.base (s.base + r.size + 1) with
      | none =>
          simp only [hreply] at hstep
          have hle := loop_count_le h i p js s
          rw [hstep, List.length_cons] at hcount
          omega
      | some va =>
          simp only [hreply] at hstep
          rw [hstep] at hcount hsame
          have hgrows := (loop_grows h i p js
            { s with base := va, localVa := va, matchCnt := s.matchCnt + 1,
                     gpu := s.gpu ++ [(j, va)] }).gpu.subset
          have hnew := hsame (j, va) (hgrows (by simp))
          have hold := hsame (j₀, s.base) (hgrows (by simp [hheld]))
          have hva : va = s.base := hnew.trans hold.symm
          subst hva
          intro j' hj'
          rcases List.mem_cons.mp hj' with rfl | hj'
          · exact hreply
          · refine @ih { s with base := s.base, localVa := s.base, matchCnt := s.matchCnt + 1,
                                gpu := s.gpu ++ [(j, s.base)] } hbase hlt ⟨j, by simp⟩ ?_ hsame j' hj'
            rw [hcount, List.length_cons]
            show _ = s.matchCnt + 1 + js.length
            omega

/-! ## The tries before any adapter has reserved a range -/

/-- No adapter has reserved anything, and what is mapped are the mappings of the tries. -/
structure Clean (h : SvmHost r) (s : SvmSearch) : Prop where
  base : s.base = 0
  gpu : s.gpu = []
  tried : ∀ q ∈ s.sysVa, ∃ k < s.sysVa.length, h.mmap k = some q
  mapped : ∀ a, s.cpu a = true ↔ ∃ q ∈ s.sysVa, q ≤ a ∧ a < q + r.sysVaSize

theorem Clean.start (h : SvmHost r) : h.Clean {} :=
  ⟨rfl, rfl, fun _ hq => absurd hq List.not_mem_nil, fun _ => by simp⟩

theorem Clean.enter (hclean : h.Clean s) (hp : h.mmap s.sysVa.length = some p) :
    h.Clean (s.enter r.sysVaSize p) where
  base := hclean.base
  gpu := hclean.gpu
  tried := by
    intro q hq
    rw [SvmSearch.enter, List.length_append, List.length_singleton]
    rcases List.mem_append.mp hq with hq | hq
    · obtain ⟨k, hk, hmmap⟩ := hclean.tried q hq
      exact ⟨k, Nat.lt_succ_of_lt hk, hmmap⟩
    · obtain rfl := List.mem_singleton.mp hq
      exact ⟨_, Nat.lt_succ_self _, hp⟩
  mapped := by
    intro a
    simp only [SvmSearch.enter, Bool.or_eq_true, hclean.mapped a, r.pageAlign_sysVaSize,
      inSpan_iff, List.mem_append, List.mem_singleton, or_and_right, exists_or,
      exists_eq_left]

/-- Each mapping is one of whole pages. -/
theorem Clean.pages (hclean : h.Clean s) :
    ∀ q ∈ s.sysVa, q % 4096 = 0 ∧ q + r.sysVaSize ≤ h.taskSize := by
  intro q hq
  obtain ⟨k, _, hmmap⟩ := hclean.tried q hq
  exact ⟨h.page hmmap, h.fits hmmap⟩

/-- A call that ends there leaves nothing. -/
theorem Clean.nothing (hclean : h.Clean s) : (h.conclude (none, s)).Nothing where
  base := rfl
  size := rfl
  gpu := hclean.gpu
  cpu := by
    intro a
    rw [← Bool.not_eq_true]
    intro hheld
    obtain ⟨hmapped, hout⟩ := (unmapAll_eq_true s.cpu a hclean.pages).mp hheld
    obtain ⟨q, hq, hin⟩ := (hclean.mapped a).mp hmapped
    exact hout q hq hin

theorem tryOnce_refused {n : Nat} (hclean : h.Clean s) (hp : h.mmap s.sysVa.length = some p)
    (href : h.Refused n s.sysVa.length p) :
    h.tryOnce n p s = s.enter r.sysVaSize p :=
  loop_refused hp hclean.base fun j hj => href j (List.mem_range.mp hj)

/-- The bounds of a range inside a mapping. -/
theorem Shared.bounds {n b : Nat} (hb : h.Shared n i p b) :
    p ≤ b ∧ b ≤ p + r.align + 1 := by
  have hinside := h.inside hb.1
  rw [r.sysVaSize_eq] at hinside
  omega

theorem Shared.again_lt {n b : Nat} (hb : h.Shared n i p b) (hp : h.mmap i = some p) :
    b + r.size + 1 < 2 ^ 64 := by
  have hinside := h.inside hb.1
  have hstop := h.stop_lt hp
  omega

/-- The state when all adapters have reserved the range at `b`. -/
def reserved (s : SvmSearch) (n b : Nat) : SvmSearch :=
  { s with base := b, localVa := b, matchCnt := n, gpu := (List.range n).map fun j => (j, b) }

/-- What a try leaves in which all adapters reserve one range. -/
theorem tryOnce_shared {n b : Nat} (hclean : h.Clean s) (hn : 0 < n)
    (hp : h.mmap s.sysVa.length = some p) (hb : h.Shared n s.sysVa.length p b) :
    h.tryOnce n p s = reserved (s.enter r.sysVaSize p) n b := by
  obtain ⟨m, rfl⟩ := Nat.exists_eq_succ_of_ne_zero (Nat.ne_of_gt hn)
  have hne : b ≠ 0 := Nat.ne_of_gt (Nat.lt_of_lt_of_le (h.pos hp) hb.bounds.1)
  have hfirst : h.askAdapter s.sysVa.length p (s.enter r.sysVaSize p) 0 =
      { s.enter r.sysVaSize p with base := b, localVa := b, matchCnt := 1, gpu := [(0, b)] } := by
    refine (askAdapter_fresh (s := s.enter r.sysVaSize p) hp hclean.base 0).trans ?_
    rw [hb.1]
    simp [SvmSearch.enter, hclean.gpu]
  rw [tryOnce, Nat.succ_eq_add_one, List.range_succ_eq_map, List.foldl_cons, hfirst]
  refine (loop_agreed hne rfl (hb.again_lt hp) ?_).trans ?_
  · intro j hj
    obtain ⟨k, hk, rfl⟩ := List.mem_map.mp hj
    exact hb.2 _ (Nat.succ_lt_succ (List.mem_range.mp hk)) (Nat.succ_pos k)
  · simp [reserved, List.range_succ_eq_map, Nat.add_comm 1]

/-- If all adapters reserve a range, and all the same one, it is one inside the mapping. -/
theorem shared_of_same {n : Nat} (hclean : h.Clean s) (hn : 0 < n)
    (hp : h.mmap s.sysVa.length = some p) (hcount : (h.tryOnce n p s).matchCnt = n)
    (hsame : ∀ e ∈ (h.tryOnce n p s).gpu, e.2 = (h.tryOnce n p s).base) :
    ∃ b, h.Shared n s.sysVa.length p b := by
  obtain ⟨m, rfl⟩ := Nat.exists_eq_succ_of_ne_zero (Nat.ne_of_gt hn)
  have hstep := askAdapter_fresh (s := s.enter r.sysVaSize p) hp hclean.base 0
  rw [tryOnce, Nat.succ_eq_add_one, List.range_succ_eq_map, List.foldl_cons] at hcount hsame
  cases hreply : h.reserve s.sysVa.length 0 p (p + r.sysVaSize + 1) with
  | none =>
      simp only [hreply] at hstep
      rw [hstep] at hcount
      have hle := loop_count_le h s.sysVa.length p ((List.range m).map Nat.succ)
        (s.enter r.sysVaSize p)
      have hzero : (s.enter r.sysVaSize p).matchCnt = 0 := rfl
      rw [List.length_map, List.length_range] at hle
      omega
  | some b =>
      simp only [hreply] at hstep
      rw [hstep] at hcount hsame
      have hinside := h.inside hreply
      have hpos := h.pos hp
      have hstop := h.stop_lt hp
      have hall := loop_same (by show b ≠ 0; omega) (by show b + r.size + 1 < 2 ^ 64; omega)
        ⟨0, by simp⟩ (hcount.trans (by simp [SvmSearch.enter, Nat.add_comm])) hsame
      refine ⟨b, hreply, ?_⟩
      intro j hj hpos
      refine hall j (List.mem_map.mpr ⟨j - 1, List.mem_range.mpr (by omega), by omega⟩)

/-! ## The end of the call -/

/-- What is unmapped of one mapping leaves a range inside it exactly if the range can be cut
out by pages. -/
theorem trims_iff {b : Nat} (hp : h.mmap i = some p) (hle : p ≤ b)
    (hub : b ≤ p + r.align + 1) :
    (∀ a, (p ≤ a ∧ a < p + r.sysVaSize) ∧
      (p % 4096 = 0 ∧ p + (b - p) ≤ h.taskSize → ¬ (p ≤ a ∧ a < p + pageAlign (b - p))) ∧
      ((b + r.size) % 4096 = 0 ∧ b + r.size + sub64 r.align (b - p) ≤ h.taskSize →
        ¬ (b + r.size ≤ a ∧ a < b + r.size + pageAlign (sub64 r.align (b - p)))) ↔
      b ≤ a ∧ a < b + r.size) ↔ h.Trims p b := by
  have hpage := h.page hp
  have hfits := h.fits hp
  have hsize := r.size_page
  have halign := r.align_page
  have hpos := r.align_pos
  have hsum := r.sum_lt
  rw [r.sysVaSize_eq] at hfits ⊢
  by_cases hb : b % 4096 = 0
  · -- the mapping ends behind the range, as both are made of pages
    have hlast : b ≤ p + r.align := by omega
    have hleft : pageAlign (b - p) = b - p := pageAlign_of_page (by omega)
    have hright : sub64 r.align (b - p) = r.align - (b - p) :=
      sub64_of_le (by omega) (by omega)
    have hrightPage : pageAlign (r.align - (b - p)) = r.align - (b - p) :=
      pageAlign_of_page (by omega)
    refine iff_of_true ?_ (.inl hb)
    intro a
    rw [hright, hleft, hrightPage]
    omega
  · -- the last part is not unmapped, and the first one up to the end of a page
    have hnot : ¬ (b + r.size) % 4096 = 0 := by omega
    simp only [Trims, hb, hnot, false_and, false_or, false_implies, and_true, pageAlign]
    constructor
    · intro hall
      have hfirst := hall b
      have hlast := hall (p + (r.size + r.align) - 1)
      omega
    · rintro ⟨hempty, hnear, htask⟩ a
      omega

/-- What is mapped at the end of a call that matches. -/
theorem conclude_cpu {b : Nat} (s' : SvmSearch) (hclean : h.Clean s)
    (hp : h.mmap s.sysVa.length = some p) (hle : p ≤ b) (hub : b ≤ p + r.align + 1)
    (hcpu : s'.cpu = (s.enter r.sysVaSize p).cpu) (hsysVa : s'.sysVa = s.sysVa ++ [p])
    (hlocal : s'.localVa = b) :
    (∀ a, (h.conclude (some p, s')).cpu a = inSpan b r.size a) ↔ h.Trims p b := by
  have hstop := h.stop_lt hp
  have hsum := r.sysVaSize_eq
  have hleft : sub64 b p = b - p := sub64_of_le hle (by omega)
  have hend : u64 (b + r.size) = b + r.size := u64_of_lt (by omega)
  rw [← trims_iff hp hle hub]
  refine forall_congr' fun a => ?_
  have hcases : (h.conclude (some p, s')).cpu a = inSpan b r.size a ↔
      ((h.conclude (some p, s')).cpu a = true ↔ inSpan b r.size a = true) := Bool.eq_iff_iff
  rw [hcases, inSpan_iff]
  refine iff_congr ?_ Iff.rfl
  simp only [conclude, hlocal, hleft, hend, hsysVa, List.dropLast_concat, hcpu]
  rw [unmapAll_eq_true _ _ hclean.pages, munmap_eq_true, munmap_eq_true,
    (hclean.enter hp).mapped a]
  constructor
  · rintro ⟨⟨⟨⟨q, hq, hin⟩, hcut⟩, hcut'⟩, hout⟩
    rcases List.mem_append.mp hq with hq | hq
    · exact absurd hin (hout q hq)
    · obtain rfl := List.mem_singleton.mp hq
      exact ⟨hin, hcut, hcut'⟩
  · rintro ⟨hin, hcut, hcut'⟩
    refine ⟨⟨⟨⟨p, List.mem_append.mpr (.inr (List.mem_singleton.mpr rfl)), hin⟩, hcut⟩,
      hcut'⟩, ?_⟩
    intro q hq hin'
    obtain ⟨k, hk, hmmap⟩ := hclean.tried q hq
    rcases h.apart hk hmmap hp with hapart | hapart
    · omega
    · omega

/-- A try in which some adapter reserves a range, and all of them do. -/
theorem conclude_common_iff {n : Nat} (hclean : h.Clean s) (hn : 0 < n)
    (hp : h.mmap s.sysVa.length = some p) (hcount : (h.tryOnce n p s).matchCnt = n) :
    (h.conclude (some p, h.tryOnce n p s)).Common n ↔ h.Agreed n s.sysVa.length p := by
  constructor
  · intro hcommon
    have hsame : ∀ e ∈ (h.tryOnce n p s).gpu, e.2 = (h.tryOnce n p s).base := by
      intro e he
      obtain ⟨j, _, rfl⟩ := List.mem_map.mp (hcommon.gpu.subset he)
      rfl
    obtain ⟨b, hb⟩ := shared_of_same hclean hn hp hcount hsame
    have hend := tryOnce_shared hclean hn hp hb
    refine ⟨b, hb, ?_⟩
    have hcpu := hcommon.cpu
    rw [hend] at hcpu
    refine (conclude_cpu (reserved _ n b) hclean hp hb.bounds.1 hb.bounds.2 rfl rfl rfl).mp hcpu
  · rintro ⟨b, hb, htrims⟩
    rw [tryOnce_shared hclean hn hp hb]
    refine ⟨List.Perm.refl _, ?_⟩
    exact (conclude_cpu (reserved _ n b) hclean hp hb.bounds.1 hb.bounds.2 rfl rfl rfl).mpr htrims

/-! ## All tries -/

theorem tryOnce_grows (h : SvmHost r) (n p : Nat) (s : SvmSearch) :
    Grows (s.enter r.sysVaSize p) (h.tryOnce n p s) := loop_grows h _ p _ _

/-- A range that an adapter has reserved in a try that did not match stays reserved. -/
theorem not_right_of_leak {n : Nat} (left : Nat) (hleak : s.gpu ≠ []) :
    ¬ (h.conclude (h.search n left s)).Right n := by
  induction left generalizing s with
  | zero =>
      rw [search, right_none]
      exact fun hnothing => hleak hnothing.gpu
  | succ left ih =>
      rw [search]
      split
      next =>
        rw [right_none]
        exact fun hnothing => hleak hnothing.gpu
      next p hp =>
        have hgrows := tryOnce_grows h n p s
        have hlength := List.length_pos_iff.mpr hleak
        split
        next hmatch =>
          rw [right_some]
          intro hcommon
          have hgpu := hcommon.gpu.length_eq
          have hcount := hgrows.count
          rw [List.length_map, List.length_range] at hgpu
          rw [hmatch] at hcount
          simp only [SvmSearch.enter, conclude] at hcount hgpu
          omega
        next =>
          refine ih fun hnil => ?_
          have hle := hgrows.gpu.length_le
          rw [hnil, List.length_nil] at hle
          exact absurd hlength (Nat.not_lt.mpr hle)

/-- One try after others that were all refused, with adapters: it is refused as well, or it
decides. -/
theorem try_right_iff {n left : Nat} (hclean : h.Clean s) (hn : 0 < n)
    (hp : h.mmap s.sysVa.length = some p) (hnot : ¬ h.Refused n s.sysVa.length p) :
    (h.conclude (h.search n (left + 1) s)).Right n ↔ h.Agreed n s.sysVa.length p := by
  rw [search, hp]
  simp only
  by_cases hmatch : (h.tryOnce n p s).matchCnt = n
  · rw [if_pos hmatch, right_some]
    exact conclude_common_iff hclean hn hp hmatch
  · rw [if_neg hmatch]
    refine iff_of_false (not_right_of_leak left ?_) ?_
    · intro hnil
      have hall : ∀ j ∈ List.range n, h.reserve _ j p (p + r.sysVaSize + 1) = none :=
        loop_nothing (s := s.enter r.sysVaSize p) hp hclean.base (hnil.trans hclean.gpu.symm)
      exact hnot fun j hj => hall j (List.mem_range.mpr hj)
    · rintro ⟨b, hb, _⟩
      rw [tryOnce_shared hclean hn hp hb] at hmatch
      exact hmatch rfl

/-- The tries from one on, if there are adapters and all have refused before. -/
theorem search_right_iff {n : Nat} (left : Nat) (hclean : h.Clean s) (hn : 0 < n) :
    (h.conclude (h.search n left s)).Right n ↔
      ∀ i, s.sysVa.length ≤ i → i < s.sysVa.length + left → ∀ p, h.mmap i = some p →
        (∀ k, s.sysVa.length ≤ k → k < i → ∃ q, h.mmap k = some q ∧ h.Refused n k q) →
        h.Refused n i p ∨ h.Agreed n i p := by
  induction left generalizing s with
  | zero =>
      rw [search, right_none]
      refine iff_of_true hclean.nothing ?_
      intro i hle hlt
      omega
  | succ left ih =>
      cases hp : h.mmap s.sysVa.length with
      | none =>
          rw [search, hp, right_none]
          refine iff_of_true hclean.nothing ?_
          intro i hle hlt p hmmap hbefore
          rcases Nat.eq_or_lt_of_le hle with rfl | hlater
          · exact absurd (hp.symm.trans hmmap) nofun
          · obtain ⟨q, hq, _⟩ := hbefore _ (Nat.le_refl _) hlater
            exact absurd (hp.symm.trans hq) nofun
      | some p =>
          by_cases href : h.Refused n s.sysVa.length p
          · have hsame := tryOnce_refused hclean hp href
            have hlength : (s.enter r.sysVaSize p).sysVa.length = s.sysVa.length + 1 := by
              simp [SvmSearch.enter]
            have hnext := ih (hclean.enter hp)
            rw [hlength] at hnext
            rw [search, hp]
            simp only [hsame]
            rw [if_neg (show (s.enter r.sysVaSize p).matchCnt ≠ n from Nat.ne_of_lt hn), hnext]
            constructor
            · intro hall i hle hlt p' hmmap hbefore
              rcases Nat.eq_or_lt_of_le hle with rfl | hlater
              · obtain rfl := Option.some.inj (hp.symm.trans hmmap)
                exact .inl href
              · exact hall i hlater (by omega) p' hmmap
                  fun k hk hki => hbefore k (Nat.le_of_succ_le hk) hki
            · intro hall i hle hlt p' hmmap hbefore
              refine hall i (Nat.le_of_succ_le hle) (by omega) p' hmmap ?_
              intro k hk hki
              rcases Nat.eq_or_lt_of_le hk with rfl | hlater
              · exact ⟨p, hp, href⟩
              · exact hbefore k hlater hki
          · rw [try_right_iff hclean hn hp href]
            constructor
            · intro hagreed i hle hlt p' hmmap hbefore
              rcases Nat.eq_or_lt_of_le hle with rfl | hlater
              · obtain rfl := Option.some.inj (hp.symm.trans hmmap)
                exact .inr hagreed
              · obtain ⟨q, hq, hrefq⟩ := hbefore _ (Nat.le_refl _) hlater
                obtain rfl := Option.some.inj (hp.symm.trans hq)
                exact absurd hrefq href
            · intro hall
              exact (hall _ (Nat.le_refl _) (by omega) p hp (by omega)).resolve_left href

/-- What is left of the mapping of a call without adapters. -/
theorem no_adapter_cpu (hp : h.mmap 0 = some p) (a : Nat) :
    (h.conclude (some p, SvmSearch.enter {} r.sysVaSize p)).cpu a = true ↔
      (p ≤ a ∧ a < p + r.sysVaSize) ∧
        ¬ (r.size ≤ a ∧ a < r.size + pageAlign (r.align + p)) := by
  have hpos := h.pos hp
  have hfits := h.fits hp
  have htask := h.taskSize_lt
  have hsize := r.size_page
  have hsum := r.sum_lt
  have hsys := r.sysVaSize_eq
  have hleft : sub64 0 p = 2 ^ 64 - p := by
    rw [sub64, u64]
    omega
  have hright : sub64 r.align (2 ^ 64 - p) = r.align + p := by
    rw [sub64, u64]
    omega
  have hend : u64 (0 + r.size) = r.size := by rw [Nat.zero_add, u64_of_lt (by omega)]
  have hfail : ¬ p + (2 ^ 64 - p) ≤ h.taskSize := by omega
  have hmapped := ((Clean.start h).enter hp).mapped a
  have hdrop : (SvmSearch.enter {} r.sysVaSize p).sysVa.dropLast = [] := rfl
  have hlocal : (SvmSearch.enter {} r.sysVaSize p).localVa = 0 := rfl
  simp only [conclude, hdrop, hlocal, hleft, hright, hend, unmapAll, List.foldl_nil]
  rw [munmap_eq_true, munmap_eq_true, hmapped]
  simp only [SvmSearch.enter, List.nil_append, List.mem_singleton, exists_eq_left]
  constructor
  · rintro ⟨⟨hin, _⟩, hcut⟩
    exact ⟨hin, hcut ⟨hsize, by omega⟩⟩
  · rintro ⟨hin, hcut⟩
    exact ⟨⟨hin, fun hfits => absurd hfits.2 hfail⟩, fun _ => hcut⟩

/-- Without adapters the first mapping counts as a match, and the range begins at zero. -/
theorem no_adapter_right_iff (h : SvmHost r) :
    (h.reserveSvmSpace 0).Right 0 ↔ h.mmap 0 = none ∨ r.size = 0 := by
  have hzero : h.mmap (List.length ({} : SvmSearch).sysVa) = h.mmap 0 := rfl
  rw [reserveSvmSpace, search, hzero]
  cases hp : h.mmap 0 with
  | none =>
      rw [right_none]
      exact iff_of_true (Clean.start h).nothing (.inl rfl)
  | some p =>
      have htry : h.tryOnce 0 p {} = SvmSearch.enter {} r.sysVaSize p := rfl
      have hmatch : (SvmSearch.enter {} r.sysVaSize p).matchCnt = 0 := rfl
      have hpos := h.pos hp
      simp only [htry, hmatch, if_pos]
      rw [right_some]
      constructor
      · intro hcommon
        refine .inr ?_
        by_contra hsize
        have hzero : inSpan 0 r.size 0 = true := inSpan_iff.mpr (by omega)
        have hheld := (no_adapter_cpu hp 0).mp ((hcommon.cpu 0).trans hzero)
        omega
      · rintro (hnone | hsize)
        · exact absurd hnone (Option.some_ne_none p)
        · refine ⟨List.Perm.refl _, fun a => Bool.eq_iff_iff.mpr ?_⟩
          have hcut : r.align + p ≤ pageAlign (r.align + p) := by
            rw [pageAlign]
            omega
          rw [no_adapter_cpu hp, r.sysVaSize_eq]
          show _ ↔ inSpan 0 r.size a = true
          rw [inSpan_iff]
          omega

/-- A call leaves one common range or nothing exactly if in the first try in which some adapter
reserves a range all adapters reserve the same one. -/
theorem svm_space_common_iff (h : SvmHost r) (n : Nat) :
    (h.reserveSvmSpace n).Right n ↔ h.Settled n := by
  rw [Settled]
  split
  next hn =>
    subst hn
    exact no_adapter_right_iff h
  next hn =>
    refine (search_right_iff 16 (Clean.start h) (Nat.pos_of_ne_zero hn)).trans ?_
    simp

end SvmHost

/-! ## Partial success -/

/-- A range of 1 MiB, in a mapping that is larger by 64 KiB. -/
def oneMegabyte : SvmRequest := ⟨0x100000, 0x10000, by decide, by decide, by decide, by decide⟩

/-- Adapter 0 reserves the start of the first mapping and has no room for the same range again,
and adapter 1 has no range free. -/
def fullAdapter : SvmHost oneMegabyte where
  taskSize := 2 ^ 47 - 4096
  taskSize_lt := by decide
  mmap i := if i < 16 then some (0x7F0000000000 + i * 0x1000000) else none
  reserve i j start stop :=
    if i = 0 ∧ j = 0 ∧ start + oneMegabyte.size ≤ stop then some start else none
  page := by
    intro i p hp
    split at hp
    · obtain rfl := Option.some.inj hp
      omega
    · cases hp
  pos := by
    intro i p hp
    split at hp
    · obtain rfl := Option.some.inj hp
      omega
    · cases hp
  fits := by
    intro i p hp
    have hsys : oneMegabyte.sysVaSize = 0x110000 := by decide
    split at hp
    · obtain rfl := Option.some.inj hp
      omega
    · cases hp
  apart := by
    intro i k p q hik hp hq
    have hsys : oneMegabyte.sysVaSize = 0x110000 := by decide
    split at hp
    · split at hq
      · obtain rfl := Option.some.inj hp
        obtain rfl := Option.some.inj hq
        omega
      · cases hq
    · cases hp
  inside := by
    intro i j start stop va hva
    split at hva
    next hroom =>
      obtain rfl := Option.some.inj hva
      exact ⟨Nat.le_refl _, hroom.2.2⟩
    next => cases hva

/-- The call fails, and the range that the first adapter has reserved is never released. -/
theorem partial_success_leaks : ¬ ∀ (r : SvmRequest) (h : SvmHost r) (n : Nat),
    (h.reserveSvmSpace n).Right n := by
  intro hall
  have hright := hall oneMegabyte fullAdapter 2
  have hok : (fullAdapter.reserveSvmSpace 2).ok = false := by decide +kernel
  have hgpu : (fullAdapter.reserveSvmSpace 2).gpu = [(0, 0x7F0000000000)] := by decide +kernel
  rw [SvmResult.Right, if_neg (by simp [hok])] at hright
  exact absurd (hgpu.symm.trans hright.gpu) (by decide)

/-! ## Giving the range back -/

theorem eraseAll_nil {base : Nat} {js : List Nat} {gpu : List (Nat × Nat)}
    (hperm : gpu.Perm (js.map fun j => (j, base))) :
    js.foldl (fun gpu j => gpu.erase (j, base)) gpu = [] := by
  induction js generalizing gpu with
  | nil => exact hperm.eq_nil
  | cons j js ih =>
      refine ih ?_
      have herase := hperm.erase (j, base)
      rwa [List.map_cons, List.erase_cons_head] at herase

/-- `FreeSvmSpace` leaves nothing of a common range of whole pages. -/
theorem SvmResult.Common.free {taskSize n : Nat} {res : SvmResult} (hcommon : res.Common n)
    (hbase : res.base % 4096 = 0) (hsize : res.size % 4096 = 0)
    (hend : res.base + res.size ≤ taskSize) : (res.freeSvmSpace taskSize n).Nothing where
  base := rfl
  size := rfl
  gpu := eraseAll_nil hcommon.gpu
  cpu := by
    intro a
    rw [← Bool.not_eq_true]
    intro hheld
    obtain ⟨hmapped, hcut⟩ := munmap_eq_true.mp hheld
    rw [hcommon.cpu, inSpan_iff] at hmapped
    rw [pageAlign_of_page hsize] at hcut
    exact hcut ⟨hbase, hend⟩ hmapped

end RocDxg
