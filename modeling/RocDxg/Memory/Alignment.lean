import RocDxg.Memory.Sizes
import RocDxg.VaMgr.Undone

/-!
# The alignment that is asked for

A request of `hsaKmtAllocMemoryAlign` reaches the address managers in one of two ways.  Memory
that is a file is reserved with the alignment of the request.  Other memory is reserved with it
below the size of a huge page, and with the size of a huge page from there on, whatever the
request says.

A manager serves an alignment whose sums fit in a word (`Within.alloc_aligned`).  Where they
wrap it returns the alignment itself, which is no address of its range.  `aligned_iff` says for
which sizes and alignments every address is a multiple of the alignment and in the range.
-/

namespace RocDxg

open Lib (OrdMap MultiMap Node)
open GpuMemory (describe)

namespace VaMgr

variable {start size : Nat} {m m' : VaMgr}

/-- A request whose sums fit in a word gets an aligned range of the manager, also where a range
was lost. -/
theorem Within.alloc_aligned (W : Within start size m) (hrange : Managed start size)
    (hmin : 0 < m.minAlign) {bytes align addr p : Nat} (halign : align ≠ 0)
    (hfits : bytes ≤ size → Fits m bytes align)
    (h : m.alloc bytes align addr = some (p, m')) (hp : p ≠ 0) :
    align ∣ p ∧ start ≤ p ∧ p + bytes ≤ start + size := by
  have hend := hrange.end_lt
  rcases alloc_fixed_or h with ⟨base, frag, hfixed, rfl, _⟩ | ⟨_, himpl⟩
  · obtain ⟨I, _⟩ := W.fixed_inside hend hfixed
    rw [fixedFragment] at hfixed
    split at hfixed
    next hguard =>
      have hbounds := W base frag I.find
      have hlo := I.base_le
      have hhi := I.end_le
      refine ⟨Nat.dvd_of_mod_eq_zero (hguard.2.resolve_left halign), by omega, by omega⟩
    next => cases hfixed
  · rcases allocImpl_cases halign himpl with
      ⟨_, hzero, _⟩ | ⟨n, frag, hsome, hfind, hkey, hcut, a, f, hf, hle⟩
    · exact absurd hzero hp
    · have hbounds := W n.val frag hfind
      have hlarge := W a f hf
      have hfits := hfits (by omega)
      obtain ⟨_, hslack, _⟩ := chosen_mem hsome
      rw [u64_of_lt hfits.2] at hslack
      cases hcut with
      | base hdelta =>
          exact ⟨Nat.dvd_of_mod_eq_zero hdelta, hbounds.1, by omega⟩
      | aligned hdelta =>
          obtain ⟨hlo, hhi⟩ := chosen_inside hsome hdelta halign hfits hmin (by omega)
          have hmod := Nat.mod_lt n.val (Nat.pos_of_ne_zero halign)
          refine ⟨?_, by omega, by omega⟩
          have hup : align ≤ alignUp 64 align m.minAlign := le_alignUp hmin hfits.1
          have hword := hfits.2
          have hslack := chosen_slack hsome hdelta
          rw [u64_of_lt hfits.2] at hslack
          rw [u64_of_lt (by omega)]
          exact dvd_next align n.val

/-- The search in a new manager. -/
theorem new_lowerBound {minAlign bytes : Nat} (hle : bytes ≤ size) :
    (new start size minAlign).freeList.lowerBound bytes =
      some ⟨MultiMap.empty.next, size, start⟩ := by
  simp [new, MultiMap.insert, MultiMap.lowerBound, hle]

/-- The fragment of a new manager. -/
theorem new_find? {minAlign : Nat} (hrange : Managed start size) :
    (new start size minAlign).fragMap.find? start =
      some ⟨some MultiMap.empty.next, size, true⟩ := by
  have hend := hrange.end_lt
  rw [new, OrdMap.find?_insert, if_pos rfl, Fragment.makeFree,
    Fragment.sizeField_of_lt (by omega)]

/-- The only fragment of a new manager is taken at its base if that is aligned. -/
theorem new_alloc_base {minAlign bytes align : Nat} (hrange : Managed start size)
    (hle : bytes ≤ size) (hdelta : start % align = 0) :
    ∃ m', (new start size minAlign).alloc bytes align 0 = some (start, m') := by
  rw [alloc, if_neg (by simp), allocImpl, allocLoop]
  simp only [new_lowerBound hle, new_find? hrange, hdelta, ne_eq, not_true_eq_false, if_false,
    ite_self, if_true]
  exact ⟨_, rfl⟩

/-- Behind the base of the only fragment a sum that wraps gives the alignment itself. -/
theorem new_alloc_wrapped {bytes align : Nat} (hrange : Managed start size)
    (hle : bytes ≤ size) (hword : align < 2 ^ 64)
    (hwrap : ¬ Fits (new start size defaultGpuPageSize) bytes align) :
    ∃ m', (new start size defaultGpuPageSize).alloc bytes align 0 = some (align, m') := by
  have hend := hrange.end_lt
  have hstart := hrange.start_pos
  have hlarge : 2 ^ 63 < align := lt_of_not_fits rfl (by omega) hwrap
  have hsum : u64 (bytes + alignUp 64 align defaultGpuPageSize) ≤ size := by
    have hpage : defaultGpuPageSize = 4096 := rfl
    have hmin : (new start size defaultGpuPageSize).minAlign = 4096 := rfl
    rw [Fits, hmin, alignUp, alignDown] at hwrap
    rw [hpage, alignUp, alignDown, u64]
    omega
  have hdelta : start % align = start := Nat.mod_eq_of_lt (by omega)
  have halign : align ≠ 0 := by omega
  have hmin : (new start size defaultGpuPageSize).minAlign = defaultGpuPageSize := rfl
  rw [alloc, if_neg (by simp), allocImpl, allocLoop]
  simp only [new_lowerBound hle, new_find? hrange, hdelta, if_neg halign, if_neg (Nat.ne_of_gt hstart),
    ne_eq, not_true_eq_false, if_false, if_true]
  rw [allocLoop, hmin]
  simp only [new_lowerBound hsum, new_find? hrange, hdelta, if_neg halign,
    if_neg (Nat.ne_of_gt hstart), ne_eq, not_true_eq_false, if_false, Nat.zero_add, Nat.one_ne_zero,
    Nat.add_sub_cancel_left, u64_of_lt hword]
  exact ⟨_, rfl⟩

end VaMgr

open VaMgr (Managed Within)

namespace GpuMemory

/-- The sums that are made of a size and an alignment fit in a word. -/
def FitsWord (size alignment : Nat) : Prop :=
  alignment + defaultGpuPageSize - 1 < 2 ^ 64 ∧
    size + alignUp 64 alignment defaultGpuPageSize < 2 ^ 64

instance (size alignment : Nat) : Decidable (FitsWord size alignment) :=
  inferInstanceAs (Decidable (_ ∧ _))

/-- Whatever the state of its address manager and whatever the hint, an address that the object
is given is a multiple of the alignment, and the object lies in the managed range. -/
def AlwaysAligned (mem : GpuMemory) (alignment : Nat) : Prop :=
  ∀ (hs : Heaps) (start size hint : Nat) (a : Answers) (mem' : GpuMemory) (hs' : Heaps),
    Managed start size → Within start size (hs.mgr mem.heap) →
    (hs.mgr mem.heap).minAlign = defaultGpuPageSize →
    mem.reserveGpuVirtualAddress hs hint mem.size alignment a = some (.success, mem', hs') →
    alignment ∣ mem'.gpuAddr ∧ start ≤ mem'.gpuAddr ∧ mem'.gpuAddr + mem.size ≤ start + size

/-- The sums of a request fit in a word, and that of a huge page divides the size of one.  This
is asked of sizes for which there can be room. -/
def Alignable (mem : GpuMemory) (alignment : Nat) : Prop :=
  if mem.isFile then mem.size + 1 < 2 ^ 63 → FitsWord mem.size alignment
  else if mem.size ≥ gpuHugePageSize then
    mem.size + gpuHugePageSize < 2 ^ 63 → alignment ∣ gpuHugePageSize
  else FitsWord mem.size alignment

instance (mem : GpuMemory) (alignment : Nat) : Decidable (Alignable mem alignment) := by
  rw [Alignable]
  infer_instance

variable {mem mem' : GpuMemory} {hs hs' : Heaps} {alignment : Nat}

/-- An object is given the address that its manager returns. -/
theorem reserve_of_alloc {hint p : Nat} {m' : VaMgr}
    (h : (hs.mgr mem.heap).alloc mem.size
      (if mem.isFile then mem.alignment else Heaps.reserveAlign mem.size alignment)
      (if mem.isFile then 0 else hint) = some (p, m')) (hp : p ≠ 0) :
    ∃ mem' hs', mem.reserveGpuVirtualAddress hs hint mem.size alignment {} =
      some (.success, mem', hs') ∧ mem'.gpuAddr = p := by
  rw [reserveGpuVirtualAddress]
  cases hfile : mem.isFile with
  | true =>
      have hdom : mem.domain = .kSystem := by
        rw [isFile, Bool.and_eq_true] at hfile
        simpa using hfile.2
      rw [heap, if_pos hdom, hfile] at h
      have h : hs.systemHeapMgr.alloc mem.size mem.alignment 0 = some (p, m') := h
      simp only [if_true, Heaps.reserveIPCSysMem, h, Option.map_some, if_neg hp]
      exact ⟨_, _, rfl, rfl⟩
  | false =>
      simp only [Bool.false_eq_true, if_false, Heaps.reserveGpuVirtualAddress]
      rw [hfile] at h
      by_cases hdom : mem.domain = .kSystem
      · rw [heap, if_pos hdom] at h
        have h : hs.systemHeapMgr.alloc mem.size (Heaps.reserveAlign mem.size alignment) hint =
          some (p, m') := h
        simp only [if_pos hdom, h, Option.map_some, if_true, if_neg hp]
        exact ⟨_, _, rfl, rfl⟩
      · rw [heap, if_neg hdom] at h
        have h : hs.localHeapMgr.alloc mem.size (Heaps.reserveAlign mem.size alignment) hint =
          some (p, m') := h
        simp only [if_neg hdom, h, Option.map_some, if_neg hp, if_true]
        exact ⟨_, _, rfl, rfl⟩

/-- Three new managers of one range. -/
def newHeaps (start size : Nat) : Heaps where
  localHeapMgr := .new start size defaultGpuPageSize
  systemHeapMgr := .new start size defaultGpuPageSize
  handleApertureMgr := .new start size defaultGpuPageSize

theorem newHeaps_mgr (start size : Nat) (k : Heap) :
    (newHeaps start size).mgr k = .new start size defaultGpuPageSize := by
  cases k <;> rfl

/-- What a new manager returns is aligned and in its range. -/
theorem AlwaysAligned.new (h : AlwaysAligned mem alignment) {start size p : Nat}
    (hrange : Managed start size)
    (halloc : ∃ m', (VaMgr.new start size defaultGpuPageSize).alloc mem.size
      (if mem.isFile then mem.alignment else Heaps.reserveAlign mem.size alignment) 0 =
        some (p, m')) (hp : p ≠ 0) :
    alignment ∣ p ∧ start ≤ p ∧ p + mem.size ≤ start + size := by
  obtain ⟨m', halloc⟩ := halloc
  rw [← newHeaps_mgr start size mem.heap, ← ite_self (c := mem.isFile = true) (0 : Nat)] at halloc
  obtain ⟨mem', hs', hreserve, rfl⟩ := reserve_of_alloc halloc hp
  refine h (newHeaps start size) start size 0 {} mem' hs' hrange ?_ ?_ hreserve
  · rw [newHeaps_mgr]
    exact (VaMgr.partition_new hrange (by decide)).within
  · rw [newHeaps_mgr]
    rfl

/-- A new manager with room for a size of which a sum wraps. -/
theorem AlwaysAligned.fitsWord (h : AlwaysAligned mem alignment) (hsize : mem.size + 1 < 2 ^ 63)
    (halign : (if mem.isFile then mem.alignment else Heaps.reserveAlign mem.size alignment) =
      alignment) (hword : alignment < 2 ^ 64) : FitsWord mem.size alignment := by
  by_contra hnot
  have hlarge : 2 ^ 63 < alignment :=
    VaMgr.lt_of_not_fits (m := .new 1 1 defaultGpuPageSize) rfl (by omega) hnot
  have hrange : Managed 1 (max mem.size 1) := ⟨by omega, by omega, by omega⟩
  have halloc := VaMgr.new_alloc_wrapped hrange (Nat.le_max_left mem.size 1) hword hnot
  rw [← halign] at halloc
  obtain ⟨_, _, hhi⟩ := h.new hrange halloc (by omega)
  omega

/-- The alignment of the request is met in every state and for every hint exactly if the object
is alignable. -/
theorem always_aligned_iff (hphysical : mem.flags.isPhysicalOnly = false)
    (hsame : mem.alignment = alignment) (hpos : 0 < alignment) (hword : alignment < 2 ^ 64) :
    AlwaysAligned mem alignment ↔ Alignable mem alignment := by
  have hhuge : gpuHugePageSize = 2 ^ 21 := rfl
  have hpage : defaultGpuPageSize = 2 ^ 12 := rfl
  have hne : alignment ≠ 0 := Nat.ne_of_gt hpos
  constructor
  · intro h
    rw [Alignable]
    split
    next hfile =>
      intro hsize
      exact h.fitsWord hsize (by rw [if_pos hfile, hsame]) hword
    next hfile =>
      split
      next hlarge =>
        intro hsize
        have hrange : Managed gpuHugePageSize mem.size := ⟨by omega, by omega, by omega⟩
        have halign : (if mem.isFile then mem.alignment else Heaps.reserveAlign mem.size alignment) =
            gpuHugePageSize := by
          rw [if_neg hfile, Heaps.reserveAlign, if_pos hlarge]
        refine (h.new hrange ?_ (by omega)).1
        rw [halign]
        exact VaMgr.new_alloc_base hrange (Nat.le_refl _) (Nat.mod_self _)
      next hsmall =>
        refine h.fitsWord (by omega) ?_ hword
        rw [if_neg hfile, Heaps.reserveAlign, if_neg hsmall, if_neg hne]
  · intro h hs start size hint a mem' hs' hrange hwithin hmin hreserve
    have hend := hrange.end_lt
    have hstart := hrange.start_pos
    obtain ⟨halloc, hp⟩ := reserve_asked hphysical hreserve
    have hheap : mem.askedHeap = mem.heap := by
      rw [askedHeap, hphysical, if_neg Bool.false_ne_true]
    rw [hheap] at halloc
    have hserves : mem.askedAlign alignment ≠ 0 →
        (mem.size ≤ size → FitsWord mem.size (mem.askedAlign alignment)) →
        mem.askedAlign alignment ∣ mem'.gpuAddr ∧ start ≤ mem'.gpuAddr ∧
          mem'.gpuAddr + mem.size ≤ start + size := by
      intro hzero hfits
      refine hwithin.alloc_aligned hrange (by omega) hzero (fun hle => ?_) halloc hp
      rw [VaMgr.Fits, hmin]
      exact hfits hle
    rw [Alignable] at h
    have hasked : mem.askedAlign alignment =
        if mem.isFile then mem.alignment else Heaps.reserveAlign mem.size alignment := by
      rw [askedAlign, hphysical, if_neg Bool.false_ne_true]
    split at h
    next hfile =>
      rw [if_pos hfile, hsame] at hasked
      rw [hasked] at hserves
      exact hserves hne fun hle => h (by omega)
    next hfile =>
      rw [if_neg hfile, Heaps.reserveAlign] at hasked
      split at h
      next hlarge =>
        rw [if_pos hlarge] at hasked
        rw [hasked] at hserves
        obtain ⟨hdvd, hlo, hhi⟩ := hserves (by omega) fun hle => by
          rw [FitsWord, hhuge, hpage]
          refine ⟨by omega, ?_⟩
          have hup : alignUp 64 (2 ^ 21) (2 ^ 12) = 2 ^ 21 := rfl
          omega
        have hle := Nat.le_of_dvd (Nat.pos_of_ne_zero hp) hdvd
        exact ⟨Nat.dvd_trans (h (by omega)) hdvd, hlo, hhi⟩
      next hsmall =>
        rw [if_neg hsmall, if_neg hne] at hasked
        rw [hasked] at hserves
        exact hserves hne fun _ => h

end GpuMemory

/-- What a request asks for is physical memory only if its flags say so. -/
theorem allocInfo_physicalOnly {cfg : Config} {args : AllocArgs} {ram : Bool} {dev : SharedDevice}
    {info : GpuMemoryCreateInfo} {vmm : Bool} (h : allocInfo cfg args ram = .ok (dev, info, vmm)) :
    info.flags.physicalOnly = args.memFlags.noAddress := by
  rw [allocInfo] at h
  split at h
  next => cases h
  next =>
    split at h
    next => cases h
    next =>
      split at h
      next => cases h
      next =>
        cases h
        rfl

/-- The alignment that `hsaKmtAllocMemoryAlign` is called with is met, in every state of the
address managers and for every hint, exactly for sizes and alignments that are alignable. -/
theorem requested_alignment_met_iff {cfg : Config} {args : AllocArgs} {ram : Bool}
    {dev : SharedDevice} {info : GpuMemoryCreateInfo} {vmm : Bool}
    (h : allocInfo cfg args ram = .ok (dev, info, vmm)) (haddr : args.memFlags.noAddress = false)
    (hpos : 0 < args.alignment) (hword : args.alignment < 2 ^ 64) :
    (describe dev info).AlwaysAligned args.alignment ↔
      (describe dev info).Alignable args.alignment := by
  refine GpuMemory.always_aligned_iff ?_ (Memory.allocInfo_ok h).2 hpos hword
  have hphysical : (describe dev info).flags.isPhysicalOnly = info.flags.physicalOnly := rfl
  rw [hphysical, allocInfo_physicalOnly h, haddr]

/-- A page at a multiple of 64 KiB. -/
theorem requested_alignment_met_page :
    ∃ r, allocInfo smallConfig { preferredNode := 1, sizeInBytes := 0x1000, alignment := 0x10000 }
        true = .ok r ∧ (describe r.1 r.2.1).AlwaysAligned 0x10000 := by
  refine ⟨_, rfl, ?_⟩
  have hmet := @requested_alignment_met_iff smallConfig
    { preferredNode := 1, sizeInBytes := 0x1000, alignment := 0x10000 } true _ _ _ rfl rfl
    (by decide) (by decide)
  exact hmet.mpr (by decide)

/-- Two megabytes may be asked for at a multiple of four and get one of two. -/
theorem huge_page_overrides :
    ¬ ∀ cfg args ram dev info vmm, allocInfo cfg args ram = .ok (dev, info, vmm) →
      args.memFlags.noAddress = false → 0 < args.alignment → args.alignment < 2 ^ 64 →
      (describe dev info).AlwaysAligned args.alignment := by
  intro hall
  have haligned := hall smallConfig
    { preferredNode := 1, sizeInBytes := 0x200000, alignment := 0x400000 } true _ _ _ rfl rfl
    (by decide) (by decide)
  have hok := (GpuMemory.always_aligned_iff rfl rfl (by decide) (by decide)).mp haligned
  exact absurd hok (by decide)

end RocDxg
