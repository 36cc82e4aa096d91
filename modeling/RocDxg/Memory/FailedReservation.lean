import RocDxg.Memory.Lifetime
import RocDxg.VaMgr.Undone

/-!
# Reservations that fail

`ReserveGpuVirtualAddress` of `hsakmtRuntime` again, here with the ranges over which it maps
memory.  In the system heap the range is committed by a mapping at a fixed address, which
replaces whatever is there.

The manager returns zero when it has no room.  The status is then set, but the range is
committed all the same, at the address zero; and if that fails, the status is set once more.
A commit that fails for a range of the heap gives the range back, which restores the manager
where the request is `Restorable`.  `failed_reservation_clean_iff` says that nothing else goes
wrong.
-/

namespace RocDxg

namespace Heaps

open VaMgr (Same Finds Restorable Merged)

/-- The outcome of a reservation. -/
structure Reservation where
  code : ErrorCode
  outGpuVirtAddr : Nat
  heaps : Heaps
  /-- The address and the size of every mapping. -/
  mapped : List (Nat × Nat)

/-- `CommitSystemHeapSpace`: whether the mapping succeeds, and the range it is for. -/
def commitSystemHeapSpace (addr size : Nat) (answer : Bool) : Bool × List (Nat × Nat) :=
  (answer, [(addr, size)])

/-- `ReserveGpuVirtualAddress`, with the mappings. -/
def reserveAndMap (hs : Heaps) (domain : AllocDomain) (hitBaseAddr size alignment : Nat)
    (commit : Bool) : Option Reservation :=
  let align := reserveAlign size alignment
  if domain = .kSystem then
    (hs.systemHeapMgr.alloc size align hitBaseAddr).map fun (gpuAddr, m) =>
      let code : ErrorCode := if gpuAddr = 0 then .outOfMemory else .success
      let c := commitSystemHeapSpace gpuAddr size commit
      let m := if c.1 then m else m.free gpuAddr
      let code := if c.1 then code else .syscallFail
      ⟨code, if code = .success then gpuAddr else 0, { hs with systemHeapMgr := m }, c.2⟩
  else
    (hs.localHeapMgr.alloc size align hitBaseAddr).map fun (gpuAddr, m) =>
      let code : ErrorCode := if gpuAddr = 0 then .outOfGpuMemory else .success
      ⟨code, if code = .success then gpuAddr else 0, { hs with localHeapMgr := m }, []⟩

/-- The mappings aside, this is the reservation of the memory objects. -/
theorem reserveAndMap_eq (hs : Heaps) (domain : AllocDomain)
    (hitBaseAddr size alignment : Nat) (commit : Bool) :
    (hs.reserveAndMap domain hitBaseAddr size alignment commit).map
      (fun r => (r.code, r.outGpuVirtAddr, r.heaps)) =
    hs.reserveGpuVirtualAddress domain hitBaseAddr size alignment commit := by
  rw [reserveAndMap, reserveGpuVirtualAddress]
  split
  next =>
    rw [Option.map_map]
    refine congrArg (fun f => Option.map f _) (funext fun r => ?_)
    obtain ⟨p, m⟩ := r
    cases commit with
    | true => by_cases hp : p = 0 <;> simp [commitSystemHeapSpace, hp]
    | false => simp [commitSystemHeapSpace]
  next =>
    rw [Option.map_map]
    refine congrArg (fun f => Option.map f _) (funext fun r => ?_)
    obtain ⟨p, m⟩ := r
    by_cases hp : p = 0 <;> simp [hp]

/-- The manager that serves a domain. -/
def domainHeap (domain : AllocDomain) : Heap :=
  if domain = .kSystem then .systemHeap else .localHeap

/-- The status for a manager without room. -/
def noRoom (domain : AllocDomain) : ErrorCode :=
  if domain = .kSystem then .outOfMemory else .outOfGpuMemory

/-- The address that the manager of the domain returns. -/
def allocated (hs : Heaps) (domain : AllocDomain) (hitBaseAddr size alignment : Nat) : Option Nat :=
  ((hs.mgr (domainHeap domain)).alloc size (reserveAlign size alignment) hitBaseAddr).map Prod.fst

/-- A reservation that failed left nothing behind, and its status says why. -/
structure FailedClean (sp : AddressSpace) (hs : Heaps) (domain : AllocDomain)
    (hitBaseAddr size alignment : Nat) (commit : Bool) (r : Reservation) : Prop where
  heaps : ∀ k, Same (hs.mgr k) (r.heaps.mgr k)
  mapped : ∀ c ∈ r.mapped, (sp.range .systemHeap).start ≤ c.1 ∧
    c.1 + c.2 ≤ (sp.range .systemHeap).start + (sp.range .systemHeap).size
  out : r.outGpuVirtAddr = 0
  room : r.code = noRoom domain ↔ hs.allocated domain hitBaseAddr size alignment = some 0
  syscall : r.code = .syscallFail →
    hs.allocated domain hitBaseAddr size alignment ≠ some 0 ∧ commit = false

/-- Every manager partitions its range, and no two of its free fragments are neighbours. -/
structure Tidy (sp : AddressSpace) (hs : Heaps) : Prop extends Sound sp hs where
  merged : ∀ k, Merged (hs.mgr k)

variable {sp : AddressSpace} {hs : Heaps} {domain : AllocDomain} {hitBaseAddr size alignment : Nat}
  {commit : Bool} {r : Reservation}

theorem tidy_new (sp : AddressSpace) : Tidy sp (Heaps.new sp) := by
  refine ⟨sound_new sp, fun k => ?_⟩
  cases k <;> exact VaMgr.merged_new (sp.managed _)

theorem reserveAlign_ne_zero (size alignment : Nat) : reserveAlign size alignment ≠ 0 := by
  rw [reserveAlign]
  split
  next => decide
  next =>
    split
    next => decide
    next hne => exact hne

theorem reserveAlign_lt (size : Nat) (h : alignment < 2 ^ 64) :
    reserveAlign size alignment < 2 ^ 64 := by
  rw [reserveAlign]
  split
  next => decide
  next =>
    split
    next => decide
    next => exact h

/-- A reservation in another domain maps nothing, and fails where its manager has no room. -/
theorem Tidy.failed_local (T : Tidy sp hs) (hword : alignment < 2 ^ 64) (hd : domain ≠ .kSystem)
    (h : hs.reserveAndMap domain hitBaseAddr size alignment commit = some r)
    (herr : r.code ≠ .success) :
    FailedClean sp hs domain hitBaseAddr size alignment commit r := by
  rw [reserveAndMap, if_neg hd] at h
  obtain ⟨⟨p, m⟩, halloc, rfl⟩ := Option.map_eq_some_iff.mp h
  have hp : p = 0 := by
    by_contra hne
    simp only [if_neg hne, ne_eq, not_true_eq_false] at herr
  subst hp
  obtain ⟨_, hkept⟩ := (T.partition .localHeap).alloc_eq_zero_iff (reserveAlign_ne_zero size alignment)
    (reserveAlign_lt size hword) halloc
  have hm : m = hs.localHeapMgr := hkept rfl
  have hallocated : hs.allocated domain hitBaseAddr size alignment = some 0 := by
    rw [allocated, domainHeap, if_neg hd]
    exact congrArg (Option.map Prod.fst) halloc
  refine ⟨fun k => ?_, nofun, rfl, ?_, nofun⟩
  · rw [hm]
    exact Same.refl _
  · rw [noRoom, if_neg hd]
    exact iff_of_true rfl hallocated

/-- A reservation that fails leaves nothing behind exactly if it is not in the system heap, or
the manager of the system heap has room for it and can take it back. -/
theorem failed_reservation_clean_iff (T : Tidy sp hs) (hword : alignment < 2 ^ 64)
    (h : hs.reserveAndMap domain hitBaseAddr size alignment commit = some r)
    (herr : r.code ≠ .success) :
    FailedClean sp hs domain hitBaseAddr size alignment commit r ↔
      (domain = .kSystem →
        Finds hs.systemHeapMgr size (reserveAlign size alignment) hitBaseAddr ∧
        Restorable hs.systemHeapMgr size (reserveAlign size alignment) hitBaseAddr) := by
  by_cases hd : domain = .kSystem
  · subst hd
    simp only [true_implies]
    have hstart := (sp.managed .systemHeap).start_pos
    have halign := reserveAlign_ne_zero size alignment
    have hlt := reserveAlign_lt size hword
    rw [reserveAndMap, if_pos rfl] at h
    obtain ⟨⟨p, m⟩, halloc, rfl⟩ := Option.map_eq_some_iff.mp h
    obtain ⟨hzero, _⟩ := (T.partition .systemHeap).alloc_eq_zero_iff halign hlt halloc
    have hallocated : hs.allocated .kSystem hitBaseAddr size alignment = some p :=
      congrArg (Option.map Prod.fst) halloc
    by_cases hp : p = 0
    · refine iff_of_false (fun C => ?_) fun hcond => hzero.mp hp hcond.1
      have hmapped := (C.mapped (p, size) (List.mem_singleton_self _)).1
      have hmapped : (sp.range .systemHeap).start ≤ p := hmapped
      omega
    · have hcommit : commit = false := by
        cases commit with
        | false => rfl
        | true =>
            simp only [commitSystemHeapSpace, if_true, if_neg hp, ne_eq, not_true_eq_false] at herr
      subst hcommit
      have hfinds : Finds hs.systemHeapMgr size (reserveAlign size alignment) hitBaseAddr := by
        by_contra hnot
        exact hp (hzero.mpr hnot)
      have hne : hs.allocated .kSystem hitBaseAddr size alignment ≠ some 0 := by
        rw [hallocated]
        exact fun heq => hp (Option.some.inj heq)
      have hrestored := (T.partition .systemHeap).restored_iff (T.merged .systemHeap)
        (T.minAlign .systemHeap) halign hlt halloc hp
      constructor
      · intro C
        have hrange := C.mapped (p, size) (List.mem_singleton_self _)
        exact ⟨hfinds, hrestored.mp ⟨hrange, C.heaps .systemHeap⟩⟩
      · rintro ⟨_, hok⟩
        obtain ⟨hrange, hsame⟩ := hrestored.mpr hok
        refine ⟨fun k => ?_, fun c hc => ?_, rfl, iff_of_false nofun hne, fun _ => ⟨hne, rfl⟩⟩
        · cases k with
          | localHeap => exact Same.refl _
          | systemHeap => exact hsame
          | handleAperture => exact Same.refl _
        · rw [List.mem_singleton.mp hc]
          exact hrange
  · exact iff_of_true (T.failed_local hword hd h herr) fun heq => absurd heq hd

/-- A page of the system heap that cannot be committed. -/
theorem failed_reservation_clean_page :
    ∃ r, (Heaps.new smallSpace).reserveAndMap .kSystem 0 0x1000 0 false = some r ∧
      r.code = .syscallFail ∧ FailedClean smallSpace (Heaps.new smallSpace) .kSystem 0 0x1000 0 false r := by
  obtain ⟨r, hr, hcode⟩ : ∃ r, (Heaps.new smallSpace).reserveAndMap .kSystem 0 0x1000 0 false =
      some r ∧ r.code = .syscallFail := ⟨_, rfl, rfl⟩
  have hclean := failed_reservation_clean_iff (tidy_new smallSpace) (by decide) hr
    (by rw [hcode]; decide)
  exact ⟨r, hr, hcode, hclean.mpr fun _ => by decide⟩

/-- A request that is larger than the system heap maps its size at the address zero. -/
theorem exhausted_maps_at_zero :
    ¬ ∀ sp hs domain hitBaseAddr size alignment commit r, Tidy sp hs → alignment < 2 ^ 64 →
      hs.reserveAndMap domain hitBaseAddr size alignment commit = some r → r.code ≠ .success →
      FailedClean sp hs domain hitBaseAddr size alignment commit r := by
  intro hall
  obtain ⟨r, hr, hcode, hmapped⟩ : ∃ r, (Heaps.new smallSpace).reserveAndMap .kSystem 0 0x80000000 0
      true = some r ∧ r.code = .outOfMemory ∧ r.mapped = [(0, 0x80000000)] :=
    ⟨_, rfl, rfl, rfl⟩
  have C := hall _ _ _ _ _ _ _ r (tidy_new smallSpace) (by decide) hr (by rw [hcode]; decide)
  have hlow := (C.mapped (0, 0x80000000) (by rw [hmapped]; exact List.mem_singleton_self _)).1
  exact absurd hlow (by decide)

end Heaps

end RocDxg
