import RocDxg.Memory.Client

/-!
# Nested opens

Runs of `hsaKmtOpenKFD`, `hsaKmtCloseKFD`, `hsaKmtAllocMemory` and `hsaKmtFreeMemory` in a
process that does not fork.  An open that finds the library open takes the same way out
as one that has opened it, and resets the sub-allocator.

`Library.nested_open` says when such an open leaves the sub-allocator as it was: when
there is no block in use and none in the cache.
-/

namespace RocDxg

open Lib (Reach runAll reach_of_runAll)
open Memory (Backed AllocRegular Allocates)
open Client (FreeRegular)
open RocDxg.Core (Settled)

namespace Library

/-- A call of one of the components of the process. -/
inductive Call where
  | openKFD (fd dxcore : Bool)
  | closeKFD
  | allocMemory (preferredNode sizeInBytes : Nat) (flags : HsaMemFlags) (memoryAddress : Nat)
      (ans : AllocAnswers)
  | freeMemory (addr : Nat)

/-- The state before the first open. -/
def new (sp : AddressSpace) (pid : Nat) : Memory where
  core := { heaps := .new sp, parentPid := pid }

/-- A call that returns. -/
def step (cfg : Config) (m : Memory) : Call → Option Memory
  | .openKFD fd dxcore => some (m.openKFD fd dxcore).2
  | .closeKFD => some m.closeKFD.2
  | .allocMemory node size flags addr ans =>
      (m.allocMemory cfg node size flags addr ans).toOption.map fun r => r.2.2
  | .freeMemory p => (m.freeMemory cfg p).toOption.map fun r => r.2

/-- While the library is open, allocations and releases reach none of their defects. -/
def Regular (cfg : Config) (m : Memory) : Call → Prop
  | .openKFD _ _ => True
  | .closeKFD => True
  | .allocMemory node size flags addr ans =>
      m.core.isOpen = true → m.AllocRegular cfg ⟨node, size, 0, flags, addr⟩ ans
  | .freeMemory p => m.core.isOpen = true → FreeRegular m p

instance (cfg : Config) (m : Memory) : (e : Call) → Decidable (Regular cfg m e)
  | .openKFD _ _ => inferInstanceAs (Decidable True)
  | .closeKFD => inferInstanceAs (Decidable True)
  | .allocMemory .. => inferInstanceAs (Decidable (_ → _))
  | .freeMemory _ => inferInstanceAs (Decidable (_ → _))

/-- The sub-allocator is what it was: what was allocated from it can be freed, and its
blocks are accounted for. -/
structure Undisturbed (cfg : Config) (m m' : Memory) : Prop where
  heap : m'.heap = m.heap
  freed : ∀ q n, m.heap.live q = some n → ∃ m'', m'.freeMemory cfg q = .ok (.success, m'')
  blocks : ∀ b n, m.heap.Holds b n → m'.heap.Holds b n

variable {sp : AddressSpace} {cfg : Config} {m m' : Memory}

theorem backed_new (sp : AddressSpace) (cfg : Config) (pid : Nat) : Backed sp cfg (new sp pid) := by
  have B := (Client.inv_new sp cfg pid).backed
  have C := B.settled.consistent
  exact ⟨⟨⟨C.sound, C.live, C.entered, C.housed, C.reserved, C.below⟩, B.settled.home,
    B.settled.unshared⟩, B.heap, B.block, B.fresh, B.distinct, B.inUse, B.cached⟩

/-- Opening and closing change the counts of the runtime. -/
theorem settled_counts (C : m.core.Settled sp) (fd : Bool) (n : Nat) :
    ({ m.core with dxgFd := fd, dxgOpenCount := n } : Core).Settled sp :=
  ⟨⟨C.consistent.sound, C.consistent.live, C.consistent.entered, C.consistent.housed,
    C.consistent.reserved, C.consistent.below⟩, C.home, C.unshared⟩

/-- An empty sub-allocator accounts for nothing. -/
theorem backed_reset {c : Core} (C : c.Settled sp) (h : SimpleHeap) :
    Backed sp cfg ⟨c, h.reset⟩ := by
  refine ⟨C, SimpleHeap.sound_new.of_nodes (fun n => Iff.rfl) rfl, ?_, ?_, List.nodup_nil, rfl, rfl⟩
  · rintro b n (hb | hb)
    · cases hb
    · cases hb
  · intro x hx
    cases hx

theorem backed_openKFD (B : Backed sp cfg m) (fd dxcore : Bool) :
    Backed sp cfg (m.openKFD fd dxcore).2 := by
  rw [Memory.openKFD]
  split
  next =>
    split
    next => exact B
    next =>
      split
      next =>
        exact ⟨settled_counts B.settled true m.core.dxgOpenCount, B.heap, B.block, B.fresh,
          B.distinct, B.inUse, B.cached⟩
      next => exact backed_reset (settled_counts B.settled true 1) m.heap
  next => exact backed_reset (settled_counts B.settled m.core.dxgFd _) m.heap

theorem backed_closeKFD (B : Backed sp cfg m) : Backed sp cfg m.closeKFD.2 := by
  rw [Memory.closeKFD]
  split
  next =>
    exact ⟨settled_counts B.settled _ _, B.heap, B.block, B.fresh, B.distinct, B.inUse, B.cached⟩
  next => exact B

theorem backed_allocMemory (B : Backed sp cfg m) {node size addr : Nat} {flags : HsaMemFlags}
    {ans : AllocAnswers} (hreg : Regular cfg m (.allocMemory node size flags addr ans))
    {r : Status × Nat × Memory} (hrun : m.allocMemory cfg node size flags addr ans = .ok r) :
    Backed sp cfg r.2.2 := by
  cases hopen : m.core.isOpen with
  | false =>
      rw [Memory.allocMemory, Memory.allocMemoryAlign, if_pos hopen] at hrun
      cases hrun
      exact B
  | true =>
      have A := B.allocMemoryAlign_allocates hopen (Memory.allocAdds_of_le (Nat.zero_le _) _)
        (hreg hopen) hrun
      rw [Allocates] at A
      split at A
      next => exact A.backed
      next => exact A.backed

theorem backed_freeMemory (B : Backed sp cfg m) {p : Nat} (hreg : Regular cfg m (.freeMemory p))
    {r : Status × Memory} (hrun : m.freeMemory cfg p = .ok r) : Backed sp cfg r.2 := by
  cases hopen : m.core.isOpen with
  | false =>
      rw [Memory.freeMemory, if_pos hopen] at hrun
      cases hrun
      exact B
  | true =>
      by_cases hpos : p = 0
      · rw [Memory.freeMemory, if_neg (by rw [hopen]; exact Bool.noConfusion), if_pos hpos] at hrun
        cases hrun
        exact B
      · cases hl : m.heap.live p with
        | some n =>
            obtain ⟨m', hfree, T⟩ := B.freeMemory_live hopen hl
            rw [hfree] at hrun
            cases hrun
            exact T.backed
        | none =>
            rw [B.freeMemory_eq hopen hpos hl] at hrun
            have hbase : m.heap.isBase p = false := by
              cases hb : m.heap.isBase p with
              | false => rfl
              | true => exact absurd hl (hreg hopen hb)
            cases ho : m.core.object p with
            | none =>
                rw [B.settled.freeEntry_none ho] at hrun
                cases hrun
                exact B
            | some r =>
                obtain ⟨h, mem⟩ := r
                cases hqueue : mem.flags.isQueueReferenced with
                | true =>
                    rw [Settled.freeEntry_referenced ho hqueue] at hrun
                    cases hrun
                    exact B
                | false =>
                    obtain ⟨core, hfree, K⟩ := B.settled.freeEntry_object ho hqueue
                    rw [hfree] at hrun
                    cases hrun
                    exact (B.drop hl hbase K).backed

theorem step_backed (B : Backed sp cfg m) {e : Call} (hreg : Regular cfg m e)
    (h : step cfg m e = some m') : Backed sp cfg m' := by
  cases e with
  | openKFD fd dxcore =>
      cases h
      exact backed_openKFD B fd dxcore
  | closeKFD =>
      cases h
      exact backed_closeKFD B
  | allocMemory node size flags addr ans =>
      obtain ⟨r, hr, rfl⟩ := Option.map_eq_some_iff.mp h
      cases hrun : m.allocMemory cfg node size flags addr ans with
      | error f =>
          rw [hrun] at hr
          cases hr
      | ok r' =>
          rw [hrun] at hr
          cases hr
          exact backed_allocMemory B hreg hrun
  | freeMemory p =>
      obtain ⟨r, hr, rfl⟩ := Option.map_eq_some_iff.mp h
      cases hrun : m.freeMemory cfg p with
      | error f =>
          rw [hrun] at hr
          cases hr
      | ok r' =>
          rw [hrun] at hr
          cases hr
          exact backed_freeMemory B hreg hrun

/-- Without blocks there is nothing to reset. -/
theorem reset_eq (B : Backed sp cfg m) (hlist : m.heap.blockList = .empty)
    (hcache : m.heap.blockCache = []) : m.heap.reset = m.heap := by
  have hnodes : m.heap.freeList.nodes = [] := by
    rw [List.eq_nil_iff_forall_not_mem]
    intro n hn
    obtain ⟨b, frags, f, hb, _⟩ := B.heap.arenas.nodes.mp hn
    rw [hlist] at hb
    cases hb
  have hinUse := B.inUse
  have hcached := B.cached
  rw [hlist] at hinUse
  rw [hcache] at hcached
  have hclear : m.heap.freeList.clear = m.heap.freeList := by
    generalize m.heap.freeList = fl at hnodes
    cases fl
    cases hnodes
    rfl
  obtain ⟨core, freeList, blockList, blockCache, inUseSize, cacheSize⟩ := m
  simp only at hlist hcache hinUse hcached hclear
  rw [SimpleHeap.reset, hclear, hlist, hcache, hinUse, hcached]
  rfl

/-- In every run whose allocations and releases are regular, an open of an open library
reports that, and leaves the sub-allocator undisturbed if and only if it has no block in
use and none in its cache. -/
theorem nested_open {pid : Nat} (h : Reach (step cfg) (Regular cfg) (new sp pid) m)
    (hopen : m.core.dxgOpenCount ≠ 0) (fd dxcore : Bool) :
    (m.openKFD fd dxcore).1 = .kernelAlreadyOpened ∧
      (Undisturbed cfg m (m.openKFD fd dxcore).2 ↔
        m.heap.blockList = .empty ∧ m.heap.blockCache = []) := by
  have B : Backed sp cfg m := by
    refine h.invariant (backed_new sp cfg pid) ?_
    intro m e m' hm hok hstep
    exact step_backed hm hok hstep
  have hheap : (m.openKFD fd dxcore).2.heap = m.heap.reset := by
    rw [Memory.openKFD, if_neg hopen]
  refine ⟨by rw [Memory.openKFD, if_neg hopen], ?_, ?_⟩
  · intro U
    have hreset := hheap.symm.trans U.heap
    exact ⟨(congrArg SimpleHeap.blockList hreset).symm, (congrArg SimpleHeap.blockCache hreset).symm⟩
  · rintro ⟨hlist, hcache⟩
    have hreset := hheap.trans (reset_eq B hlist hcache)
    refine ⟨hreset, ?_, fun b n hn => by rw [hreset]; exact hn⟩
    intro q n hl
    obtain ⟨b, hlen, _⟩ := B.live_inside hl
    rw [SimpleHeap.lengths, hlist] at hlen
    cases hlen

/-- Memory that is too large for the sub-allocator. -/
def largeRequest : Call := .allocMemory 1 (2 ^ 28) {} 0 {}

theorem nested_open_run :
    ∃ m, Reach (step Client.subConfig) (Regular Client.subConfig) (new smallSpace 1) m ∧
      m.core.dxgOpenCount ≠ 0 ∧ m.heap.blockList = .empty ∧ m.heap.blockCache = [] ∧
      Undisturbed Client.subConfig m (m.openKFD true true).2 := by
  have hrun : (runAll (step Client.subConfig) (Regular Client.subConfig) (new smallSpace 1)
      [.openKFD true true, largeRequest]).map
        (fun m => (m.core.dxgOpenCount, m.heap.blockList.entries.isEmpty, m.heap.blockCache)) =
        some (1, true, []) := by
    decide
  obtain ⟨m, hm, heq⟩ := Option.map_eq_some_iff.mp hrun
  simp only [Prod.mk.injEq] at heq
  have hreach := reach_of_runAll hm
  have hopen : m.core.dxgOpenCount ≠ 0 := by rw [heq.1]; decide
  have hlist : m.heap.blockList = .empty := Lib.OrdMap.ext (List.isEmpty_iff.mp heq.2.1)
  exact ⟨m, hreach, hopen, hlist, heq.2.2,
    (nested_open hreach hopen true true).2.mpr ⟨hlist, heq.2.2⟩⟩

/-- A page that was sub-allocated before a nested open cannot be freed after it. -/
theorem nested_open_forgets :
    ¬ ∀ m, Reach (step Client.subConfig) (fun _ _ => True) (new smallSpace 1) m →
      m.core.dxgOpenCount ≠ 0 → Undisturbed Client.subConfig m (m.openKFD true true).2 := by
  intro hall
  have hrun : (runAll (step Client.subConfig) (fun _ _ => True) (new smallSpace 1)
      [.openKFD true true, .allocMemory 1 4096 {} 0 {}, .allocMemory 1 4096 {} 0 {}]).map
        (fun m => (m.core.dxgOpenCount, m.heap.live (2 ^ 28 + 4096),
          ((m.openKFD true true).2.freeMemory Client.subConfig (2 ^ 28 + 4096)).toOption.map (·.1))) =
        some (1, some 4096, some .error) := by
    decide
  obtain ⟨m, hm, heq⟩ := Option.map_eq_some_iff.mp hrun
  simp only [Prod.mk.injEq] at heq
  have U := hall m (reach_of_runAll hm) (by rw [heq.1]; decide)
  obtain ⟨m'', hfree⟩ := U.freed _ _ heq.2.1
  have hfailed := heq.2.2
  rw [hfree] at hfailed
  cases hfailed

end Library

end RocDxg
