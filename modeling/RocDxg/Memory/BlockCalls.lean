import RocDxg.Memory.HeapPartition

/-!
# Calls of the block allocator

The heap changes the state of its block allocator by nothing but `alloc` and `free` of that
allocator.  A property of the state that these keep is kept by the operations of the heap.
-/

namespace RocDxg

namespace SimpleHeap

variable {σ : Type u} {A : BlockAllocator σ} {R : σ → Prop} {h h' : SimpleHeap} {x x' : σ}

theorem foldl_free_keeps (hR : ∀ x b n, R x → R (A.free x b n)) (hx : R x) (old : List HeapBlock) :
    R (old.foldl (fun x b => A.free x b.base b.length) x) := by
  induction old generalizing x with
  | nil => exact hx
  | cons c old ih => exact ih (hR x c.base c.length hx)

theorem balance_keeps (hR : ∀ x b n, R x → R (A.free x b n)) (hx : R x) :
    R (balance A h x).2 := by
  obtain ⟨old, _, hold⟩ := balanceLoop_spec (s := x) A h.inUseSize h.blockCache h.cacheSize
  show R (balanceLoop A h.inUseSize h.blockCache h.cacheSize x).2.2
  rw [hold]
  exact foldl_free_keeps hR hx old

theorem free_keeps (hR : ∀ x b n, R x → R (A.free x b n)) (hx : R x) (p : Nat) :
    R (free A h x p).2.2 := by
  rw [free]
  split
  next => exact hx
  next =>
    split
    next => exact hx
    next =>
      split
      next => exact hx
      next =>
        simp only [release]
        split
        next =>
          split
          next => exact balance_keeps hR (hR _ _ _ hx)
          next => exact balance_keeps hR hx
        next =>
          split
          next => exact hx
          next => exact hx

theorem discardBlock_keeps (hR : ∀ x b n, R x → R (A.free x b n)) (hx : R x) (addr : Nat) :
    R (discardBlock A h x addr).2.2 := by
  rw [discardBlock]
  split
  next => exact hx
  next =>
    split
    next => exact hx
    next =>
      split
      next =>
        split
        next => exact hx
        next =>
          split
          next => exact hx
          next => exact balance_keeps hR hx
      next => exact hx

theorem allocBlock_keeps (hR : ∀ x b n, R x → R (A.free x b n)) (hx : R x)
    {base size bytes p : Nat} (halloc : allocBlock A h x base size bytes = some (p, h', x')) :
    p = base ∧ R x' := by
  rw [allocBlock] at halloc
  split at halloc
  next => cases halloc
  next =>
    simp only at halloc
    split at halloc
    next =>
      split at halloc
      next =>
        simp only [Option.some.injEq, Prod.mk.injEq] at halloc
        obtain ⟨hbase, hr⟩ := halloc
        refine ⟨hbase.symm, ?_⟩
        have hstate := discardBlock_keeps (h := SimpleHeap.withBlock
          { h with inUseSize := u64 (h.inUseSize + size) } base (blockFragments h.freeList
            ((h.blockList.find? base).getD .empty) base size bytes)) hR hx base
        rwa [hr] at hstate
      next => cases halloc
    next =>
      cases halloc
      exact ⟨rfl, hx⟩

end SimpleHeap

end RocDxg
