import RocDxg.Memory.Shelved

/-!
# Blocks of one allocation

A request for more than the default size gets a block that `discardBlock` takes out of
the free list.  Such a block keeps the two fragments it is made with until its one
allocation is released, and then goes back to the block allocator.  In a heap whose
discarded blocks are all of this kind every release of an allocation in one is the last
(`Whole.free_large`).
-/

namespace RocDxg

open Lib (OrdMap MultiMap Node TileMap Coalesced total)

namespace SimpleHeap

/-- A block with one allocation: how much of it is used, and its size. -/
structure Large where
  bytes : Nat
  size : Nat

namespace Large

/-- The fragments of a discarded block. -/
def frags (L : Large) (b : Nat) : OrdMap HeapFragment :=
  if L.bytes < L.size then
    (OrdMap.empty.insert (b + L.bytes) ⟨none, L.size - L.bytes, true, true⟩).insert b
      ⟨none, L.bytes, true, false⟩
  else OrdMap.empty.insert b ⟨none, L.bytes, true, false⟩

/-- The block is a range of the address space. -/
structure Fits (L : Large) (b : Nat) : Prop where
  base_pos : 0 < b
  bytes_pos : 0 < L.bytes
  le : L.bytes ≤ L.size
  size_lt : L.size < 2 ^ 62
  end_le : b + L.size ≤ 2 ^ 64

variable {L : Large} {b : Nat}

theorem entries_pair {x y : HeapFragment} {u : Nat} (hu : 0 < u) :
    ((OrdMap.empty.insert (b + u) y).insert b x).entries = [(b, x), (b + u, y)] := by
  have hcut : (OrdMap.empty.insert (b + u) y).entries = [] ++ [(b + u, y)] := rfl
  refine OrdMap.insert_of_cut x hcut (fun e he => by cases he) ?_
  intro e he
  rw [List.mem_singleton.mp he]
  exact Nat.lt_add_of_pos_right hu

theorem find?_base : (L.frags b).find? b = some ⟨none, L.bytes, true, false⟩ := by
  rw [frags]
  split <;> exact (OrdMap.find?_insert ..).trans (if_pos rfl)

theorem tiles (F : L.Fits b) : TileMap HeapFragment.size b (b + L.size) (L.frags b) := by
  have hpos := F.bytes_pos
  have hle := F.le
  rw [frags, TileMap]
  split
  next hlt =>
    rw [entries_pair hpos]
    refine Lib.Tiles.cons.mpr ⟨rfl, hpos, Lib.Tiles.cons.mpr ⟨rfl, ?_, Lib.Tiles.nil.mpr ?_⟩⟩
    · show 0 < L.size - L.bytes
      omega
    · show b + L.bytes + (L.size - L.bytes) = b + L.size
      omega
  next hge =>
    refine Lib.Tiles.cons.mpr ⟨rfl, hpos, Lib.Tiles.nil.mpr ?_⟩
    show b + L.bytes = b + L.size
    omega

theorem blockLength_frags (F : L.Fits b) : blockLength (L.frags b) = L.size := by
  have heq := (tiles F).hi_eq
  exact (Nat.add_left_cancel heq).symm

/-- The only used fragment of a discarded block is the one at its base. -/
theorem eq_base_of_used {a : Nat} {f : HeapFragment} (hf : (L.frags b).find? a = some f)
    (hused : f.isFree = false) : a = b ∧ f = ⟨none, L.bytes, true, false⟩ := by
  by_cases ha : a = b
  · subst ha
    rw [find?_base] at hf
    cases hf
    exact ⟨rfl, rfl⟩
  · rw [frags] at hf
    split at hf
    · rw [OrdMap.find?_insert, if_neg ha, OrdMap.find?_insert] at hf
      split at hf
      · cases hf
        cases hused
      · cases hf
    · rw [OrdMap.find?_insert, if_neg ha] at hf
      cases hf

theorem marked_of_find? {a : Nat} {f : HeapFragment} (hf : (L.frags b).find? a = some f) :
    f.discard = true ∧ f.freeListEntry = none := by
  rw [frags] at hf
  split at hf
  · rw [OrdMap.find?_insert, OrdMap.find?_insert] at hf
    split at hf
    · cases hf
      exact ⟨rfl, rfl⟩
    · split at hf
      · cases hf
        exact ⟨rfl, rfl⟩
      · cases hf
  · rw [OrdMap.find?_insert] at hf
    split at hf
    · cases hf
      exact ⟨rfl, rfl⟩
    · cases hf

/-- A discarded block has no two free neighbours, and its allocation is not free. -/
theorem tidy (F : L.Fits b) : Tidy (L.frags b) := by
  refine ⟨?_, b, _, find?_base, rfl⟩
  rw [frags]
  split
  next hlt =>
    have hmerged : Coalesced HeapFragment.size HeapFragment.isFree
        (OrdMap.empty.insert (b + L.bytes) ⟨none, L.size - L.bytes, true, true⟩) :=
      Coalesced.singleton (b + L.bytes) (Nat.sub_pos_of_lt hlt)
    exact (hmerged.parted b).closeUsed rfl
  next => exact Coalesced.singleton b F.bytes_pos

theorem dropped (F : L.Fits b) : Dropped b (L.frags b) := by
  have hpos := F.bytes_pos
  have hle := F.le
  have hlen := blockLength_frags F
  refine ⟨F.base_pos, ?_, ?_, ?_, ?_, tidy F, ?_⟩
  · rw [hlen]
    omega
  · rw [hlen]
    exact F.size_lt
  · rw [hlen]
    exact F.end_le
  · rw [hlen]
    exact tiles F
  · exact fun a f hf => marked_of_find? hf

/-- The fragments of a new block, once they are marked. -/
theorem mapVal_blockFragments (fl : MultiMap) (base : Nat) {size bytes : Nat} (hpos : 0 < bytes)
    (hle : bytes ≤ size) (hsmall : size < 2 ^ 62) :
    (blockFragments fl .empty base size bytes).2.mapVal marked = frags ⟨bytes, size⟩ base := by
  have hused : HeapFragment.sizeField bytes = bytes := HeapFragment.sizeField_of_lt (by omega)
  have hrest : HeapFragment.sizeField (size - bytes) = size - bytes :=
    HeapFragment.sizeField_of_lt (by omega)
  refine OrdMap.ext ?_
  show (blockFragments fl .empty base size bytes).2.entries.map (fun e => (e.1, marked e.2)) =
    (frags ⟨bytes, size⟩ base).entries
  by_cases hgt : bytes < size
  · simp only [blockFragments, frags, gt_iff_lt, if_pos hgt, entries_pair hpos, List.map_cons,
      List.map_nil, marked, HeapFragment.makeUsed, HeapFragment.makeFree, hused, hrest]
  · simp only [blockFragments, frags, gt_iff_lt, if_neg hgt]
    show [(base, marked (.makeUsed bytes))] = [(base, _)]
    simp only [marked, HeapFragment.makeUsed, hused]

end Large

/-! ## The invariant -/

/-- The blocks that are kept satisfy the invariant, the others are large ones, and all
are disjoint. -/
structure Whole (h : SimpleHeap) : Prop where
  sound : Sound (kept h)
  tidy : AllTidy (kept h)
  large : ∀ b frags, h.blockList.find? b = some frags → keeps frags = false →
    ∃ L : Large, L.Fits b ∧ frags = L.frags b
  apart : ∀ b n b' n', h.lengths b = some n → h.lengths b' = some n' → b < b' → b + n ≤ b'

/-- The effect of an operation on the blocks of the list and on what is live. -/
structure Effect (h' : SimpleHeap) (live lengths : Nat → Option Nat) (cache : List HeapBlock) :
    Prop where
  whole : Whole h'
  live : h'.live = live
  lengths : h'.lengths = lengths
  cache : h'.blockCache = cache

namespace Whole

variable {h h' : SimpleHeap}

theorem shelved (W : Whole h) : Shelved h := by
  refine ⟨W.sound, W.tidy, ?_, W.apart⟩
  intro b frags hd
  obtain ⟨hb, hk⟩ := dropped_eq_some.mp hd
  obtain ⟨L, F, rfl⟩ := W.large b frags hb hk
  exact Large.dropped F

/-- A heap whose discarded blocks are blocks of one allocation. -/
theorem of_shelved (S : Shelved h)
    (hlarge : ∀ b frags, h.dropped b = some frags → ∃ L : Large, L.Fits b ∧ frags = L.frags b) :
    Whole h :=
  ⟨S.sound, S.tidy, fun b frags hb hk => hlarge b frags (dropped_eq_some.mpr ⟨hb, hk⟩), S.apart⟩

theorem large_of_dropped (W : Whole h) {b : Nat} {frags : OrdMap HeapFragment}
    (hd : h.dropped b = some frags) : ∃ L : Large, L.Fits b ∧ frags = L.frags b := by
  obtain ⟨hb, hk⟩ := dropped_eq_some.mp hd
  exact W.large b frags hb hk

/-- An operation that leaves the discarded blocks as they are. -/
theorem effect (W : Whole h) {live lengths : Nat → Option Nat} {cache : List HeapBlock}
    (B : Becomes h' live lengths h.dropped) (hcache : h'.blockCache = cache) :
    Effect h' live lengths cache := by
  refine ⟨of_shelved B.shelved ?_, B.live, B.lengths, hcache⟩
  intro b frags hd
  rw [B.dropped] at hd
  exact W.large_of_dropped hd

/-- An operation after which there is at most one discarded block more. -/
theorem effect_update (W : Whole h) {live lengths : Nat → Option Nat} {cache : List HeapBlock}
    {b : Nat} {x : Option (OrdMap HeapFragment)}
    (B : Becomes h' live lengths (Function.update h.dropped b x)) (hcache : h'.blockCache = cache)
    (hx : ∀ frags, x = some frags → ∃ L : Large, L.Fits b ∧ frags = L.frags b) :
    Effect h' live lengths cache := by
  refine ⟨of_shelved B.shelved ?_, B.live, B.lengths, hcache⟩
  intro b' frags hd
  rw [B.dropped, Function.update_apply] at hd
  split at hd
  next heq =>
    rw [heq]
    exact hx frags hd
  next => exact W.large_of_dropped hd

/-- The effect of a search that finds a fragment. -/
theorem choose (W : Whole h) {bytes : Nat} (hpos : 0 < bytes) {c : Nat × SimpleHeap}
    (hc : Chooses h bytes c) :
    0 < c.1 ∧ h.live c.1 = none ∧
      Effect c.2 (Function.update h.live c.1 (some bytes)) h.lengths h.blockCache := by
  obtain ⟨hp, hfresh, B⟩ := W.shelved.choose hpos hc
  refine ⟨hp, hfresh, W.effect B ?_⟩
  cases hc with
  | base => rfl
  | aligned => rfl

variable {σ : Type u} (A : BlockAllocator σ) (s : σ)

/-- An allocation from a block of its own, before the cache is balanced. -/
theorem allocBlock_spec (W : Whole h) {base size bytes : Nat} (hpos : 0 < bytes) (hle : bytes ≤ size)
    (B : Beside h base size) :
    ∃ h₁, (allocBlock A h s base size bytes = some (base, h₁, s) ∨
        allocBlock A h s base size bytes = some (base, balance A h₁ s)) ∧
      Effect h₁ (Function.update h.live base (some bytes))
        (Function.update h.lengths base (some size)) h.blockCache := by
  rcases W.shelved.allocBlock_spec A s hpos hle B with
    ⟨h₁, halloc, hcache, _, _, E⟩ | ⟨h₁, halloc, hcache, _, _, E⟩
  · exact ⟨h₁, Or.inl halloc, W.effect E hcache⟩
  · refine ⟨h₁, Or.inr halloc, W.effect_update E hcache ?_⟩
    intro frags hfrags
    cases hfrags
    exact ⟨⟨bytes, size⟩, ⟨B.base_pos, hpos, hle, B.size_lt, B.end_le⟩,
      Large.mapVal_blockFragments h.freeList base hpos hle B.size_lt⟩

/-- The allocation of a discarded block is at its base, and is the only one. -/
theorem droppedLive_iff (W : Whole h) {p n : Nat} :
    DroppedLive h p n ↔ ∃ L : Large, h.dropped p = some (L.frags p) ∧ L.Fits p ∧ L.bytes = n := by
  constructor
  · rintro ⟨b, frags, f, hd, hf, hused, hn⟩
    obtain ⟨L, F, rfl⟩ := W.large_of_dropped hd
    obtain ⟨rfl, rfl⟩ := Large.eq_base_of_used hf hused
    exact ⟨L, hd, F, hn⟩
  · rintro ⟨L, hd, _, hn⟩
    exact ⟨p, _, _, hd, Large.find?_base, rfl, hn⟩

/-- `free` of an allocation of a discarded block gives the block back. -/
theorem free_large (W : Whole h) {p n : Nat} (hl : DroppedLive h p n) :
    ∃ m h₁, free A h s p = (true, balance A h₁ (A.free s p m)) ∧ h.lengths p = some m ∧
      h₁.inUseSize = h.inUseSize ∧ h₁.cacheSize = h.cacheSize ∧
      (h.dropped p).isSome = true ∧ h₁.dropped = Function.update h.dropped p none ∧
      Effect h₁ (Function.update h.live p none) (Function.update h.lengths p none)
        h.blockCache := by
  obtain ⟨L, hd, F, _⟩ := W.droppedLive_iff.mp hl
  obtain ⟨hfree, B⟩ := W.shelved.free_last A s hd Large.find?_base rfl
    fun a f hf hused => (Large.eq_base_of_used hf hused).1
  refine ⟨_, _, hfree, lengths_eq_some.mpr ⟨_, (dropped_eq_some.mp hd).1, rfl⟩, rfl, rfl, ?_,
    B.dropped, W.effect_update B rfl nofun⟩
  rw [hd]
  rfl

/-- `free` of an allocation of a kept block. -/
theorem free_kept (W : Whole h) {p n : Nat} (hl : (kept h).live p = some n) :
    (∃ h', free A h s p = (true, h', s) ∧
        Effect h' (Function.update h.live p none) h.lengths h.blockCache) ∨
      ∃ b m h₁, free A h s p = (true, balance A h₁ s) ∧ h.lengths b = some m ∧
        Effect h₁ (Function.update h.live p none) (Function.update h.lengths b none)
          (h.blockCache ++ [⟨b, m⟩]) := by
  rcases W.shelved.free_kept A s hl with
    ⟨h', heq, hcache, _, _, B⟩ | ⟨b, m, h₁, heq, hb, _, hcache, _, _, B⟩
  · exact Or.inl ⟨h', heq, W.effect B hcache⟩
  · exact Or.inr ⟨b, m, h₁, heq, hb, W.effect B hcache⟩

end Whole

end SimpleHeap

end RocDxg
