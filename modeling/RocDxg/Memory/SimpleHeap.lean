import RocDxg.Lib.MultiMap
import RocDxg.Lib.OrdMap
import RocDxg.Util

/-!
# The sub-allocator

`SimpleHeap` of `util/simple_heap.h`.  The heap obtains blocks from an allocator and
hands out fragments of them.  Each block of `blockList` has its own map of fragments;
`freeList` holds the free fragments of all blocks by size, and `blockCache` the blocks
that have become free as a whole.

The block allocator is the template parameter of the source.  It is a record of
functions on a state that is not the heap's, and the operations that call it pass the
state along.  `alloc` returns `none` where the source asserts, or goes back from the
begin iterator of `block_list_`.
-/

namespace RocDxg

open Lib (OrdMap MultiMap Node)

/-- `Fragment_T`: the iterator into the free list, and the 62-bit size and the two bits
that share a word. -/
structure HeapFragment where
  /-- The iterator of the fragment's free list entry, `none` for `end()`. -/
  freeListEntry : Option Nat
  /-- The size in bytes. -/
  size : Nat
  /-- The discard bit. -/
  discard : Bool
  /-- The free bit. -/
  isFree : Bool
deriving DecidableEq, Repr

namespace HeapFragment

/-- A value stored in the `size` bit-field. -/
def sizeField (n : Nat) : Nat := n % 2 ^ 62

/-- `makeFragment` with an iterator: a free fragment. -/
def makeFree (iter len : Nat) : HeapFragment := ⟨some iter, sizeField len, false, true⟩

/-- `makeFragment` without one: a used fragment. -/
def makeUsed (len : Nat) : HeapFragment := ⟨none, sizeField len, false, false⟩

/-- Assign the size. -/
def setSize (f : HeapFragment) (n : Nat) : HeapFragment := { f with size := sizeField n }

/-- `setUsed` -/
def setUsed (f : HeapFragment) : HeapFragment := { f with isFree := false, freeListEntry := none }

/-- `setFree` -/
def setFree (f : HeapFragment) (iter : Nat) : HeapFragment :=
  { f with freeListEntry := some iter, isFree := true }

theorem sizeField_of_lt {n : Nat} (h : n < 2 ^ 62) : sizeField n = n := Nat.mod_eq_of_lt h

end HeapFragment

/-- `Block` -/
structure HeapBlock where
  base : Nat
  length : Nat
deriving DecidableEq, Repr

/-- The template parameter `Allocator`, over the state its functions change. -/
structure BlockAllocator (σ : Type u) where
  /-- `block_size` -/
  blockSize : Nat
  /-- `alloc`: the block and its size, if there is one. -/
  alloc : σ → Nat → Option (Nat × Nat) × σ
  /-- `free` -/
  free : σ → Nat → Nat → σ

/-- The containers and the counters of the heap. -/
structure SimpleHeap where
  freeList : MultiMap := .empty
  blockList : OrdMap (OrdMap HeapFragment) := .empty
  blockCache : List HeapBlock := []
  inUseSize : Nat := 0
  cacheSize : Nat := 0

namespace SimpleHeap

/-- `free_list_.erase` of an iterator, or `removeFreeListEntry`, which skips `end()`. -/
def eraseEntry (fl : MultiMap) : Option Nat → MultiMap
  | some i => fl.erase i
  | none => fl

/-- The block below an address, and the fragment at the address in it. -/
def lookup (h : SimpleHeap) (addr : Nat) : Option (Nat × OrdMap HeapFragment × HeapFragment) :=
  match h.blockList.floor? addr with
  | none => none
  | some (b, frags) => (frags.find? addr).map fun f => (b, frags, f)

/-- The free list and the fragments of one block have changed. -/
def withBlock (h : SimpleHeap) (b : Nat) (r : MultiMap × OrdMap HeapFragment) : SimpleHeap :=
  { h with freeList := r.1, blockList := h.blockList.insert b r.2 }

/-! ## The block cache -/

/-- The loop of `balance`. -/
def balanceLoop (A : BlockAllocator σ) (inUseSize : Nat) :
    List HeapBlock → Nat → σ → List HeapBlock × Nat × σ
  | b :: c :: rest, cacheSize, s =>
      if cacheSize > u64 (inUseSize * 2) then
        balanceLoop A inUseSize (c :: rest) (sub64 cacheSize b.length) (A.free s b.base b.length)
      else (b :: c :: rest, cacheSize, s)
  | cache, cacheSize, s => (cache, cacheSize, s)

/-- `balance` -/
def balance (A : BlockAllocator σ) (h : SimpleHeap) (s : σ) : SimpleHeap × σ :=
  let r := balanceLoop A h.inUseSize h.blockCache h.cacheSize s
  ({ h with blockCache := r.1, cacheSize := r.2.1 }, r.2.2)

/-- `trim` -/
def trim (A : BlockAllocator σ) (h : SimpleHeap) (s : σ) : SimpleHeap × σ :=
  ({ h with blockCache := [], cacheSize := 0 },
    h.blockCache.foldl (fun s b => A.free s b.base b.length) s)

/-- `reset` -/
def reset (h : SimpleHeap) : SimpleHeap where
  freeList := h.freeList.clear

/-! ## Discarding a block -/

/-- `discard` on every fragment of a block. -/
def discardAll (fl : MultiMap) (frags : OrdMap HeapFragment) : MultiMap × OrdMap HeapFragment :=
  frags.entries.foldl
    (fun r e => (eraseEntry r.1 e.2.freeListEntry,
      r.2.insert e.1 { e.2 with freeListEntry := none, discard := true }))
    (fl, frags)

/-- `discardBlock` -/
def discardBlock (A : BlockAllocator σ) (h : SimpleHeap) (s : σ) (addr : Nat) :
    Bool × SimpleHeap × σ :=
  if addr = 0 then (true, h, s)
  else
    match h.blockList.floor? addr with
    | none => (false, h, s)
    | some (b, frags) =>
        match frags.entries.head?, frags.entries.getLast? with
        | some first, some last =>
            if addr < first.1 ∨ last.1 + last.2.size ≤ addr then (false, h, s)
            else if first.2.discard then (true, h, s)
            else
              let h' := h.withBlock b (discardAll h.freeList frags)
              let size := (frags.entries.map fun e => e.2.size).sum
              let r := balance A { h' with inUseSize := sub64 h'.inUseSize size } s
              (true, r.1, r.2)
        | _, _ => (false, h, s)

/-! ## Allocation -/

/-- Sub-allocate at the base of a free fragment. -/
def takeBase (fl : MultiMap) (frags : OrdMap HeapFragment) (bytes : Nat) (n : Node)
    (frag : HeapFragment) : MultiMap × OrdMap HeapFragment :=
  let fl := fl.erase n.id
  let frags := frags.insert n.val (frag.setSize bytes).setUsed
  if n.key > bytes then
    (fl.insert (n.key - bytes) (n.val + bytes),
      frags.insert (n.val + bytes) (.makeFree fl.next (n.key - bytes)))
  else (fl, frags)

/-- Sub-allocate inside a free fragment, from the aligned base on. -/
def takeAligned (fl : MultiMap) (frags : OrdMap HeapFragment) (bytes alignedBase : Nat) (n : Node) :
    MultiMap × OrdMap HeapFragment :=
  let fl := fl.erase n.id
  -- fragment 1, free
  let frags := frags.insert n.val (.makeFree fl.next (alignedBase - n.val))
  let fl := fl.insert (alignedBase - n.val) n.val
  -- fragment 2, used
  let frags := frags.insert alignedBase (.makeUsed bytes)
  -- fragment 3, free
  if n.key > alignedBase - n.val + bytes then
    (fl.insert (n.key - (alignedBase - n.val) - bytes) (alignedBase + bytes),
      frags.insert (alignedBase + bytes)
        (.makeFree fl.next (n.key - (alignedBase - n.val) - bytes)))
  else (fl, frags)

/-- The loop of `alloc`: `left` iterations remain, the counter is at `i`.  The result is
the address, if a fragment was found. -/
def allocLoop (h : SimpleHeap) (bytes align : Nat) :
    (left i alignBytes : Nat) → Option (Option (Nat × SimpleHeap))
  | 0, _, _ => some none
  | left + 1, i, alignBytes =>
      match h.freeList.lowerBound alignBytes with
      | none => some none
      | some n =>
          match h.lookup n.val with
          -- assert(fragment != frag_map.end())
          | none => none
          | some (b, frags, frag) =>
              -- assert(size >= bytes), assert(size == fragment->second.size)
              if n.key < bytes ∨ n.key ≠ frag.size then none
              else
                let delta := n.val % align
                if delta = 0 then
                  some (some (n.val, h.withBlock b (takeBase h.freeList frags bytes n frag)))
                else if i = 0 ∧ n.key < u64 (bytes + align - delta) then
                  allocLoop h bytes align left (i + 1) (u64 (alignBytes + align))
                else
                  let alignedBase := u64 (n.val + align - delta)
                  some (some (alignedBase,
                    h.withBlock b (takeAligned h.freeList frags bytes alignedBase n)))

/-- The search of `alloc` for a free fragment. -/
def allocFragment (h : SimpleHeap) (bytes : Nat) : Option (Option (Nat × SimpleHeap)) :=
  let retry := if bytes ≥ gpuHugePageSize then 1 else 0
  let align := if bytes ≥ gpuHugePageSize then gpuHugePageSize else defaultGpuPageSize
  h.allocLoop bytes align (retry + 1) 0 bytes

/-- The fragments of a new block. -/
def blockFragments (fl : MultiMap) (frags : OrdMap HeapFragment) (base size bytes : Nat) :
    MultiMap × OrdMap HeapFragment :=
  if size > bytes then
    (fl.insert (size - bytes) (base + bytes),
      (frags.insert (base + bytes) (.makeFree fl.next (size - bytes))).insert base
        (.makeUsed bytes))
  else (fl, frags.insert base (.makeUsed bytes))

/-- The end of `alloc`, with a block of its own. -/
def allocBlock (A : BlockAllocator σ) (h : SimpleHeap) (s : σ) (base size bytes : Nat) :
    Option (Nat × SimpleHeap × σ) :=
  -- assert(size >= bytes)
  if size < bytes then none
  else
    let frags := (h.blockList.find? base).getD .empty
    let h := { h with inUseSize := u64 (h.inUseSize + size) }
    let h := h.withBlock base (blockFragments h.freeList frags base size bytes)
    if bytes > A.blockSize then
      let r := discardBlock A h s base
      -- assert(err)
      if r.1 then some (base, r.2) else none
    else some (base, h, s)

/-- `alloc`; the address is zero when the block allocator fails. -/
def alloc (A : BlockAllocator σ) (h : SimpleHeap) (s : σ) (bytes : Nat) :
    Option (Nat × SimpleHeap × σ) :=
  match h.allocFragment bytes with
  | none => none
  | some (some (p, h)) => some (p, h, s)
  | some none =>
      match h.blockCache.getLast? with
      | some block =>
          if bytes < A.blockSize then
            allocBlock A { h with
              blockCache := h.blockCache.dropLast
              cacheSize := sub64 h.cacheSize block.length } s block.base block.length bytes
          else allocNew A h s bytes
      | none => allocNew A h s bytes
where
  /-- A new block is obtained. -/
  allocNew (A : BlockAllocator σ) (h : SimpleHeap) (s : σ) (bytes : Nat) :
      Option (Nat × SimpleHeap × σ) :=
    match A.alloc s bytes with
    | (none, s) => some (0, h, s)
    | (some (base, size), s) => allocBlock A h s base size bytes

/-! ## Release -/

/-- The position of `free` in a block while it merges: the key and the value of the
fragment the iterator is at. -/
structure Merge where
  freeList : MultiMap
  frags : OrdMap HeapFragment
  key : Nat
  frag : HeapFragment

/-- Merge with a free lower neighbour. -/
def mergeLower (fl : MultiMap) (frags : OrdMap HeapFragment) (addr : Nat) (frag : HeapFragment) :
    Merge :=
  match frags.prev? addr with
  | none => ⟨fl, frags, addr, frag⟩
  | some (key, lower) =>
      if lower.isFree then
        let merged := ({ lower with freeListEntry := none } : HeapFragment).setSize
          (lower.size + frag.size)
        ⟨eraseEntry fl lower.freeListEntry, (frags.erase addr).insert key merged, key, merged⟩
      else ⟨fl, frags, addr, frag⟩

/-- Merge with a free upper neighbour. -/
def mergeUpper (g : Merge) : Merge :=
  match g.frags.next? g.key with
  | none => g
  | some (key, upper) =>
      if upper.isFree then
        let merged := g.frag.setSize (g.frag.size + upper.size)
        ⟨eraseEntry g.freeList upper.freeListEntry, (g.frags.erase key).insert g.key merged, g.key,
          merged⟩
      else g

/-- The end of `free`, after merging in block `b`. -/
def release (A : BlockAllocator σ) (h : SimpleHeap) (s : σ) (b : Nat) (discard : Bool) (g : Merge) :
    SimpleHeap × σ :=
  if g.frags.entries.length = 1 then
    let h := { h with freeList := g.freeList, blockList := h.blockList.erase b }
    if discard then balance A h (A.free s g.key g.frag.size)
    else
      balance A { h with
        blockCache := h.blockCache ++ [⟨g.key, g.frag.size⟩]
        cacheSize := u64 (h.cacheSize + g.frag.size)
        inUseSize := sub64 h.inUseSize g.frag.size } s
  else if discard then (h.withBlock b (g.freeList, g.frags), s)
  else
    (h.withBlock b (g.freeList.insert g.frag.size g.key,
      g.frags.insert g.key (g.frag.setFree g.freeList.next)), s)

/-- `free` -/
def free (A : BlockAllocator σ) (h : SimpleHeap) (s : σ) (addr : Nat) : Bool × SimpleHeap × σ :=
  if addr = 0 then (true, h, s)
  else
    match h.lookup addr with
    | none => (false, h, s)
    | some (b, frags, frag) =>
        if frag.isFree then (false, h, s)
        else (true, release A h s b frag.discard (mergeUpper (mergeLower h.freeList frags addr frag)))

/-- `block_base`; zero is the null pointer. -/
def blockBase (h : SimpleHeap) (addr : Nat) : Nat :=
  if addr = 0 then 0
  else
    match h.lookup addr with
    | none => 0
    | some (b, _, frag) => if frag.isFree then 0 else b

end SimpleHeap

end RocDxg
