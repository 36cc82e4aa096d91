import RocDxg.Lib.Reach
import RocDxg.Memory.HeapPartition
import RocDxg.Memory.Lifetime
import RocDxg.Memory.Resident

/-!
# Allocations with and without the sub-allocator

What `hsaKmtAllocMemory` and `hsaKmtFreeMemory` do when the sub-allocator may be switched
on.  `Memory.Backed` ties the two structures together: every block the sub-allocator holds, in
use or in its cache, is an object that is entered under the base of the block.

The first fragment of a block has the address of the block itself.  `hsaKmtFreeMemory`
asks the sub-allocator first and then the allocation map, so a base that is not the
address of a live fragment names the block.
-/

namespace RocDxg

open Lib (OrdMap Reach runAll reach_of_runAll)
open GpuMemory (Shape describe)
open RocDxg.Core (Settled Becomes IsBlock)

namespace SimpleHeap

/-- A block of the heap, in use or in the cache. -/
def Holds (h : SimpleHeap) (b n : Nat) : Prop := h.lengths b = some n ∨ ⟨b, n⟩ ∈ h.blockCache

/-- The base of a block of the heap. -/
def isBase (h : SimpleHeap) (p : Nat) : Bool :=
  (h.lengths p).isSome || h.blockCache.any fun x => x.base = p

variable {h h' : SimpleHeap}

theorem isBase_iff {p : Nat} : h.isBase p = true ↔ ∃ n, h.Holds p n := by
  simp only [isBase, Holds, Bool.or_eq_true, List.any_eq_true, decide_eq_true_eq,
    Option.isSome_iff_exists]
  constructor
  · rintro (⟨n, hn⟩ | ⟨x, hx, rfl⟩)
    · exact ⟨n, Or.inl hn⟩
    · exact ⟨x.length, Or.inr hx⟩
  · rintro ⟨n, hn | hx⟩
    · exact Or.inl ⟨n, hn⟩
    · exact Or.inr ⟨_, hx, rfl⟩

theorem isBase_eq_false {p : Nat} : h.isBase p = false ↔ ∀ n, ¬ h.Holds p n := by
  rw [← Bool.not_eq_true, isBase_iff, not_exists]

theorem isBase_congr {p : Nat} (hholds : ∀ n, h'.Holds p n ↔ h.Holds p n) :
    h'.isBase p = h.isBase p := by
  rw [Bool.eq_iff_iff, isBase_iff, isBase_iff]
  exact exists_congr hholds

theorem counts_eq {h h' : SimpleHeap} : h'.counts = h.counts ↔
    h'.blockList.entries.length = h.blockList.entries.length ∧ h'.inUseSize = h.inUseSize ∧
      h'.cacheSize = h.cacheSize := by
  simp only [counts, Prod.mk.injEq]

end SimpleHeap

namespace Memory

open SimpleHeap (Holds isBase isBase_iff isBase_eq_false isBase_congr)

/-- Every block of the sub-allocator is an object of the block size, no block is held
twice, and the counters are right. -/
structure Backed (sp : AddressSpace) (cfg : Config) (m : Memory) : Prop where
  settled : m.core.Settled sp
  heap : m.heap.Sound
  block : ∀ {b n}, m.heap.Holds b n → n = subAllocatorBlockSize ∧
    ∃ h mem, m.core.object b = some (h, mem) ∧ IsBlock cfg mem
  fresh : ∀ x ∈ m.heap.blockCache, m.heap.lengths x.base = none
  distinct : (m.heap.blockCache.map HeapBlock.base).Nodup
  inUse : m.heap.inUseSize = u64 (subAllocatorBlockSize * m.heap.blockList.entries.length)
  cached : m.heap.cacheSize = u64 (subAllocatorBlockSize * m.heap.blockCache.length)

/-- The object at an address, unless it is a block. -/
def direct (m : Memory) (q : Nat) : Option (Nat × GpuMemory) :=
  if m.heap.isBase q then none else m.core.object q

/-- An address that has been handed out and not been freed. -/
def Given (m : Memory) (q : Nat) : Prop := m.heap.live q ≠ none ∨ m.direct q ≠ none

variable {sp : AddressSpace} {cfg : Config} {m m' : Memory}

namespace Backed

/-- A live fragment lies in a block. -/
theorem live_inside (B : Backed sp cfg m) {q n : Nat} (hq : m.heap.live q = some n) :
    ∃ b, m.heap.lengths b = some subAllocatorBlockSize ∧ b ≤ q ∧ 0 < n ∧
      q + n ≤ b + subAllocatorBlockSize := by
  obtain ⟨b, frags, f, hl, _, rfl⟩ := B.heap.live_eq_some.mp hq
  obtain ⟨hb, hf⟩ := B.heap.lookup_eq_some.mp hl
  have hbounds : b ≤ q ∧ 0 < f.size ∧ q + f.size ≤ b + SimpleHeap.blockLength frags :=
    (B.heap.arenas.tiles hb).bounds hf
  have hlen : m.heap.lengths b = some (SimpleHeap.blockLength frags) :=
    SimpleHeap.lengths_eq_some.mpr ⟨frags, hb, rfl⟩
  have hsize := (B.block (Or.inl hlen)).1
  rw [hsize] at hlen hbounds
  exact ⟨b, hlen, hbounds⟩

/-- No object but a block is at the address of a live fragment. -/
theorem direct_of_live (B : Backed sp cfg m) {q n : Nat} (hq : m.heap.live q = some n) :
    m.direct q = none := by
  rw [direct]
  split
  next => rfl
  next hbase =>
    cases ho : m.core.object q with
    | none => rfl
    | some r =>
        obtain ⟨h, mem⟩ := r
        obtain ⟨b, hlen, hlo, hpos', hhi⟩ := B.live_inside hq
        obtain ⟨_, h', mem', ho', hb⟩ := B.block (Or.inl hlen)
        have hsize := hb.size
        have hpos := (B.settled.bounds ho).2.1
        have hne : b ≠ q := by
          intro heq
          exact hbase (isBase_iff.mpr ⟨_, Or.inl (heq ▸ hlen)⟩)
        have := B.settled.apart ho' ho hne
        omega

/-- The null pointer is never handed out. -/
theorem given_ne_zero (B : Backed sp cfg m) {q : Nat} (hq : m.Given q) : q ≠ 0 := by
  rintro rfl
  rcases hq with hq | hq
  · cases hl : m.heap.live 0 with
    | none => exact hq hl
    | some n =>
        obtain ⟨b, hlen, hlo, _⟩ := B.live_inside hl
        obtain ⟨_, h, mem, ho, _⟩ := B.block (Or.inl hlen)
        have := (B.settled.bounds ho).1
        omega
  · rw [direct] at hq
    split at hq
    next => exact hq rfl
    next =>
      cases ho : m.core.object 0 with
      | none => exact hq ho
      | some r =>
          obtain ⟨h, mem⟩ := r
          have := (B.settled.bounds ho).1
          omega

/-- A block lies beside the ones in use. -/
theorem beside (B : Backed sp cfg m) {c : Core} {b h : Nat} {mem : GpuMemory}
    (C : c.Settled sp) (ho : c.object b = some (h, mem)) (hb : IsBlock cfg mem)
    (hother : ∀ b' n, m.heap.lengths b' = some n → c.object b' = m.core.object b')
    (hfresh : m.heap.lengths b = none) : SimpleHeap.Beside m.heap b subAllocatorBlockSize := by
  have hblock : subAllocatorBlockSize = 2 ^ 27 := rfl
  have hsize := hb.size
  have hbounds := C.bounds ho
  refine ⟨hbounds.1, by omega, by omega, ?_⟩
  intro b' n hlen
  obtain ⟨hn, h', mem', ho', hb'⟩ := B.block (Or.inl hlen)
  rw [← hother b' n hlen] at ho'
  have hsize' := hb'.size
  have hne : b' ≠ b := by
    intro heq
    rw [heq, hfresh] at hlen
    cases hlen
  have := C.apart ho' ho hne
  omega

end Backed

/-! ## The steps of an allocation -/

/-- Nothing was handed out or taken back. -/
structure Quiet (sp : AddressSpace) (cfg : Config) (m m' : Memory) : Prop where
  backed : Backed sp cfg m'
  live : m'.heap.live = m.heap.live
  direct : m'.direct = m.direct
  isOpen : m'.core.isOpen = m.core.isOpen

/-- The address `p` was handed out. -/
structure Grants (sp : AddressSpace) (cfg : Config) (m : Memory) (p : Nat) (m' : Memory) :
    Prop where
  backed : Backed sp cfg m'
  fresh : m.direct p = none
  given : ∀ q, m'.Given q ↔ q = p ∨ m.Given q
  live : ∀ q, q ≠ p → m'.heap.live q = m.heap.live q
  direct : ∀ q, q ≠ p → m'.direct q = m.direct q
  new : ∀ h mem, m'.direct p = some (h, mem) → mem.flags.isQueueReferenced = false
  isOpen : m'.core.isOpen = m.core.isOpen

/-- The objects are the same. -/
theorem Backed.keepCore (B : Backed sp cfg m) {c : Core} (K : Becomes sp m.core m.core.object c) :
    Quiet sp cfg m { m with core := c } where
  backed := ⟨K.settled, B.heap, fun hn => by rw [K.object]; exact B.block hn, B.fresh, B.distinct,
    B.inUse, B.cached⟩
  live := rfl
  direct := by
    funext q
    simp only [Memory.direct, K.object]
  isOpen := K.isOpen

theorem Quiet.given (Q : Quiet sp cfg m m') (q : Nat) : m'.Given q ↔ m.Given q := by
  rw [Given, Given, Q.live, Q.direct]

theorem Quiet.trans {m'' : Memory} (Q : Quiet sp cfg m m') (Q' : Quiet sp cfg m' m'') :
    Quiet sp cfg m m'' :=
  ⟨Q'.backed, Q'.live.trans Q.live, Q'.direct.trans Q.direct, Q'.isOpen.trans Q.isOpen⟩

theorem Backed.quiet (B : Backed sp cfg m) : Quiet sp cfg m m := ⟨B, rfl, rfl, rfl⟩

theorem Quiet.grants {m'' : Memory} {p : Nat} (Q : Quiet sp cfg m m') (G : Grants sp cfg m' p m'') :
    Grants sp cfg m p m'' where
  backed := G.backed
  fresh := by rw [← Q.direct]; exact G.fresh
  given q := by rw [G.given, Q.given]
  live q hq := by rw [G.live q hq, Q.live]
  direct q hq := by rw [G.direct q hq, Q.direct]
  new := G.new
  isOpen := G.isOpen.trans Q.isOpen

/-- A fragment of a block at hand was handed out. -/
theorem Backed.serve (B : Backed sp cfg m) {bytes p : Nat} {h' : SimpleHeap}
    (S : SimpleHeap.Serves m.heap bytes p h') : Grants sp cfg m p { m with heap := h' } := by
  have hholds : ∀ b n, h'.Holds b n ↔ m.heap.Holds b n := by
    intro b n
    rw [Holds, Holds, S.lengths, S.cache]
  have hdirect : ∀ q, ({ m with heap := h' } : Memory).direct q = m.direct q := by
    intro q
    simp only [direct, isBase_congr (hholds q)]
  have B' : Backed sp cfg { m with heap := h' } := by
    obtain ⟨hblocks, hinUse, hcached⟩ := SimpleHeap.counts_eq.mp S.counts
    refine ⟨B.settled, S.sound, fun hn => B.block ((hholds _ _).mp hn), ?_, ?_, ?_, ?_⟩
    · show ∀ x ∈ h'.blockCache, h'.lengths x.base = none
      rw [S.cache, S.lengths]
      exact B.fresh
    · show (h'.blockCache.map HeapBlock.base).Nodup
      rw [S.cache]
      exact B.distinct
    · show h'.inUseSize = u64 (_ * h'.blockList.entries.length)
      rw [hinUse, hblocks]
      exact B.inUse
    · show h'.cacheSize = u64 (_ * h'.blockCache.length)
      rw [hcached, S.cache]
      exact B.cached
  have hp : h'.live p = some bytes := by rw [S.live, Function.update_self]
  have hfresh : m.direct p = none := by
    rw [← hdirect p]
    exact B'.direct_of_live hp
  refine ⟨B', hfresh, ?_, ?_, fun q _ => hdirect q, ?_, rfl⟩
  · intro q
    rw [Given, hdirect q]
    show h'.live q ≠ none ∨ _ ↔ _
    rw [S.live, Function.update_apply]
    by_cases heq : q = p
    · simp [heq]
    · simp only [heq, if_false, false_or]
      rfl
  · intro q hq
    show h'.live q = _
    rw [S.live, Function.update_of_ne hq]
  · intro h mem ho
    rw [B'.direct_of_live hp] at ho
    cases ho

/-- A block was put to use and its first fragment handed out. -/
theorem Backed.adds (B : Backed sp cfg m) {base bytes h : Nat} {mem : GpuMemory} {c : Core}
    {h₁ h' : SimpleHeap} (A : SimpleHeap.Adds h₁ base subAllocatorBlockSize bytes h')
    (hlive : h₁.live = m.heap.live) (C : c.Settled sp) (hopen : c.isOpen = m.core.isOpen)
    (ho : c.object base = some (h, mem)) (hb : IsBlock cfg mem)
    (hother : ∀ q, q ≠ base → c.object q = m.core.object q) (hdirect₀ : m.direct base = none)
    (hholds : ∀ b n, h'.Holds b n ↔ b = base ∧ n = subAllocatorBlockSize ∨ m.heap.Holds b n)
    (hfresh : ∀ x ∈ h₁.blockCache, h₁.lengths x.base = none ∧ x.base ≠ base)
    (hdistinct : (h₁.blockCache.map HeapBlock.base).Nodup)
    (hcounts : h₁.counts.1 = m.heap.counts.1 ∧ h₁.counts.2.1 = m.heap.counts.2.1)
    (hcached : h₁.cacheSize = u64 (subAllocatorBlockSize * h₁.blockCache.length)) :
    Grants sp cfg m base ⟨c, h'⟩ := by
  have hdirect : ∀ q, q ≠ base → (⟨c, h'⟩ : Memory).direct q = m.direct q := by
    intro q hq
    have hbase : h'.isBase q = m.heap.isBase q := by
      refine isBase_congr fun n => ?_
      rw [hholds]
      exact or_iff_right fun heq => hq heq.1
    simp only [direct, hbase, hother q hq]
  have hlive' : h'.live = Function.update m.heap.live base (some bytes) := by rw [A.live, hlive]
  have hbase : h'.isBase base = true :=
    isBase_iff.mpr ⟨_, (hholds _ _).mpr (Or.inl ⟨rfl, rfl⟩)⟩
  have hcounts' := A.counts
  rw [hcounts.1, hcounts.2] at hcounts'
  simp only [SimpleHeap.counts, Prod.mk.injEq] at hcounts'
  obtain ⟨hblocks, hinUse, hcache⟩ := hcounts'
  refine ⟨⟨C, A.sound, ?_, ?_, ?_, ?_, ?_⟩, hdirect₀, ?_, ?_, hdirect, ?_, hopen⟩
  · intro b n hn
    by_cases heq : b = base
    · refine ⟨?_, h, mem, heq ▸ ho, hb⟩
      rcases (hholds b n).mp hn with ⟨_, hsize⟩ | hn
      · exact hsize
      · exact (B.block hn).1
    · rcases (hholds b n).mp hn with ⟨heq', _⟩ | hn
      · exact absurd heq' heq
      · show n = _ ∧ ∃ h mem, c.object b = some (h, mem) ∧ _
        rw [hother b heq]
        exact B.block hn
  · intro x hx
    change x ∈ h'.blockCache at hx
    rw [A.cache] at hx
    show h'.lengths x.base = none
    rw [A.lengths, Function.update_of_ne (hfresh x hx).2]
    exact (hfresh x hx).1
  · show (h'.blockCache.map HeapBlock.base).Nodup
    rw [A.cache]
    exact hdistinct
  · show h'.inUseSize = u64 (_ * h'.blockList.entries.length)
    rw [hinUse, hblocks, B.inUse]
    exact u64_mul_succ _ _
  · show h'.cacheSize = u64 (_ * h'.blockCache.length)
    rw [hcache, A.cache]
    exact hcached
  · intro q
    rw [Given]
    show h'.live q ≠ none ∨ _ ↔ _
    rw [hlive', Function.update_apply]
    by_cases heq : q = base
    · simp [heq]
    · simp only [heq, if_false, false_or, hdirect q heq]
      rfl
  · intro q hq
    show h'.live q = _
    rw [hlive', Function.update_of_ne hq]
  · intro h mem ho'
    rw [direct, if_pos hbase] at ho'
    cases ho'

section Alloc

variable (ram : Bool) (ans : Answers) {bytes : Nat}

/-- The last block of the cache was put to use. -/
theorem Backed.alloc_cached (B : Backed sp cfg m) (hpos : 0 < bytes)
    (hlt : bytes < subAllocatorBlockSize) {x : HeapBlock} (hx : m.heap.blockCache.getLast? = some x)
    {cacheSize : Nat} (hsize : cacheSize = sub64 m.heap.cacheSize x.length) :
    ∃ h', SimpleHeap.allocBlock (blockAllocator cfg ram ans)
        { m.heap with blockCache := m.heap.blockCache.dropLast, cacheSize := cacheSize }
        (.ok m.core) x.base x.length bytes = some (x.base, h', .ok m.core) ∧ 0 < x.base ∧
      Grants sp cfg m x.base ⟨m.core, h'⟩ := by
  have hcache : m.heap.blockCache.dropLast ++ [x] = m.heap.blockCache :=
    List.dropLast_append_getLast? x hx
  have hmem : x ∈ m.heap.blockCache := List.mem_of_getLast? hx
  obtain ⟨hlen, h, mem, ho, hb⟩ := B.block (b := x.base) (n := x.length) (Or.inr hmem)
  have hnone := B.fresh x hmem
  have hdistinct := B.distinct
  rw [← hcache, List.map_append, List.nodup_append] at hdistinct
  obtain ⟨hnodup, _, hsep⟩ := hdistinct
  have S : SimpleHeap.Sound { m.heap with
      blockCache := m.heap.blockCache.dropLast, cacheSize := cacheSize } :=
    B.heap.of_lists rfl rfl
  have hbeside := B.beside B.settled ho hb (fun _ _ _ => rfl) hnone
  obtain ⟨h', halloc, A⟩ := S.allocBlock_adds (blockAllocator cfg ram ans) (.ok m.core) hpos
    (Nat.le_of_lt hlt) (Nat.le_of_lt hlt)
    ⟨hbeside.base_pos, hbeside.size_lt, hbeside.end_le, hbeside.apart⟩
  have hcount : m.heap.blockCache.length = m.heap.blockCache.dropLast.length + 1 := by
    rw [← hcache]
    simp
  rw [hlen] at hsize ⊢
  have hbase : m.heap.isBase x.base = true := isBase_iff.mpr ⟨x.length, Or.inr hmem⟩
  refine ⟨h', halloc, (B.settled.bounds ho).1, ?_⟩
  refine B.adds A rfl B.settled rfl ho hb (fun _ _ => rfl) (if_pos hbase) ?_ ?_ hnodup ⟨rfl, rfl⟩ ?_
  · intro b n
    rw [Holds, Holds, A.lengths, A.cache]
    show Function.update m.heap.lengths x.base (some subAllocatorBlockSize) b = some n ∨
      ⟨b, n⟩ ∈ m.heap.blockCache.dropLast ↔ _
    rw [Function.update_apply]
    constructor
    · rintro (hb' | hb')
      · split at hb'
        next heq => exact Or.inl ⟨heq, (Option.some.inj hb').symm⟩
        next => exact Or.inr (Or.inl hb')
      · exact Or.inr (Or.inr (List.dropLast_subset _ hb'))
    · rintro (⟨heq, hn⟩ | hb' | hb')
      · rw [if_pos heq, hn]
        exact Or.inl rfl
      · refine Or.inl ?_
        rw [if_neg]
        · exact hb'
        · intro heq
          rw [heq, hnone] at hb'
          cases hb'
      · have hn : n = subAllocatorBlockSize := (B.block (Or.inr hb')).1
        rw [← hcache] at hb'
        rcases List.mem_append.mp hb' with hinit | hlast
        · exact Or.inr hinit
        · have heq : b = x.base := congrArg HeapBlock.base (List.mem_singleton.mp hlast)
          rw [if_pos heq, hn]
          exact Or.inl rfl
  · intro y hy
    refine ⟨B.fresh y (List.dropLast_subset _ hy), ?_⟩
    exact hsep _ (List.mem_map_of_mem hy) _ (List.mem_singleton_self _)
  · show cacheSize = _
    rw [hsize, B.cached, hcount]
    exact sub64_mul_succ (by decide) _

/-- A new block was obtained. -/
theorem Backed.alloc_new (B : Backed sp cfg m) (hpos : 0 < bytes)
    (hlt : bytes < subAllocatorBlockSize) {base : Nat} {mem : GpuMemory} {c : Core}
    (hb : IsBlock cfg mem) (hfresh : m.core.object base = none)
    (K : Becomes sp m.core (Function.update m.core.object base (some (m.core.nextHandle, mem))) c) :
    ∃ h', SimpleHeap.allocBlock (blockAllocator cfg ram ans) m.heap (.ok c) base
        subAllocatorBlockSize bytes = some (base, h', .ok c) ∧ 0 < base ∧
      Grants sp cfg m base ⟨c, h'⟩ := by
  have ho : c.object base = some (m.core.nextHandle, mem) := by
    rw [K.object, Function.update_self]
  have hother : ∀ q, q ≠ base → c.object q = m.core.object q := by
    intro q hq
    rw [K.object, Function.update_of_ne hq]
  have hheld : ∀ {b n}, m.heap.Holds b n → b ≠ base := by
    rintro b n hn rfl
    obtain ⟨_, _, _, ho', _⟩ := B.block hn
    rw [hfresh] at ho'
    cases ho'
  have hnone : m.heap.lengths base = none := by
    cases hlen : m.heap.lengths base with
    | none => rfl
    | some n => exact absurd rfl (hheld (Or.inl hlen))
  have hbeside := B.beside K.settled ho hb (fun b n hlen => hother b (hheld (Or.inl hlen))) hnone
  obtain ⟨h', halloc, A⟩ := B.heap.allocBlock_adds (blockAllocator cfg ram ans) (.ok c) hpos
    (Nat.le_of_lt hlt) (Nat.le_of_lt hlt) hbeside
  have hdirect : m.direct base = none := by
    rw [direct, hfresh, ite_self]
  refine ⟨h', halloc, (K.settled.bounds ho).1, ?_⟩
  refine B.adds A rfl K.settled K.isOpen ho hb hother hdirect ?_ ?_ B.distinct ⟨rfl, rfl⟩ B.cached
  · intro b n
    rw [Holds, Holds, A.lengths, A.cache, Function.update_apply]
    constructor
    · rintro (hb' | hb')
      · split at hb'
        next heq => exact Or.inl ⟨heq, (Option.some.inj hb').symm⟩
        next => exact Or.inr (Or.inl hb')
      · exact Or.inr (Or.inr hb')
    · rintro (⟨heq, hn⟩ | hb' | hb')
      · rw [if_pos heq, hn]
        exact Or.inl rfl
      · rw [if_neg (hheld (Or.inl hb'))]
        exact Or.inl hb'
      · exact Or.inr hb'
  · exact fun x hx => ⟨B.fresh x hx, hheld (n := x.length) (Or.inr hx)⟩

/-- The allocation of a fragment. -/
theorem Backed.alloc_cases (B : Backed sp cfg m) (hpos : 0 < bytes)
    (hlt : bytes < subAllocatorBlockSize) :
    (∃ p h' f, SimpleHeap.alloc (blockAllocator cfg ram ans) m.heap (.ok m.core) bytes =
        some (p, h', .error f)) ∨
      (∃ c, SimpleHeap.alloc (blockAllocator cfg ram ans) m.heap (.ok m.core) bytes =
          some (0, m.heap, .ok c) ∧ Becomes sp m.core m.core.object c) ∨
      ∃ p h' c, SimpleHeap.alloc (blockAllocator cfg ram ans) m.heap (.ok m.core) bytes =
          some (p, h', .ok c) ∧ 0 < p ∧ Grants sp cfg m p ⟨c, h'⟩ := by
  obtain ⟨r, hr, hserves⟩ := B.heap.allocFragment_serves hpos
  rw [SimpleHeap.alloc, hr]
  cases r with
  | some r =>
      obtain ⟨p, h'⟩ := r
      have S := hserves p h' rfl
      exact Or.inr (Or.inr ⟨p, h', m.core, rfl, S.pos, B.serve S⟩)
  | none =>
      simp only
      cases hx : m.heap.blockCache.getLast? with
      | some x =>
          obtain ⟨h', halloc, hp, G⟩ := B.alloc_cached ram ans hpos hlt hx rfl
          have hblock : bytes < (blockAllocator cfg ram ans).blockSize := hlt
          simp only [if_pos hblock]
          exact Or.inr (Or.inr ⟨x.base, h', m.core, halloc, hp, G⟩)
      | none =>
          simp only [SimpleHeap.alloc.allocNew]
          rcases B.settled.newBlock cfg ram ans hpos (Nat.le_of_lt hlt) with
            ⟨f, hf⟩ | ⟨c, hnone, K⟩ | ⟨base, mem, c, hnew, hb, hfresh, K⟩
          · rw [hf]
            exact Or.inl ⟨0, m.heap, f, rfl⟩
          · rw [hnone]
            exact Or.inr (Or.inl ⟨c, rfl, K⟩)
          · obtain ⟨h', halloc, hp, G⟩ := B.alloc_new ram ans hpos hlt hb hfresh K
            rw [hnew]
            exact Or.inr (Or.inr ⟨base, h', c, halloc, hp, G⟩)

end Alloc

/-- The request to the sub-allocator. -/
theorem Backed.subAlloc_cases (B : Backed sp cfg m) {size addr : Nat} {ans : AllocAnswers}
    (hpos : realSize cfg size < subAllocatorBlockSize → 0 < realSize cfg size)
    (hsub : m.subAlloc cfg size ans = .ok (addr, m')) :
    (addr = 0 ∧ Quiet sp cfg m m') ∨ (addr ≠ 0 ∧ Grants sp cfg m addr m') := by
  rw [subAlloc] at hsub
  split at hsub
  next hlt =>
    rcases B.alloc_cases ans.ram ans.block (hpos hlt) hlt with
      ⟨p, h', f, halloc⟩ | ⟨c, halloc, K⟩ | ⟨p, h', c, halloc, hp, G⟩
    · rw [halloc] at hsub
      cases hsub
    · rw [halloc] at hsub
      cases hsub
      exact Or.inl ⟨rfl, B.keepCore K⟩
    · rw [halloc] at hsub
      cases hsub
      exact Or.inr ⟨Nat.ne_of_gt hp, G⟩
  next =>
    cases hsub
    exact Or.inl ⟨rfl, B.quiet⟩

/-- Blocks of the cache are given back to the allocation map. -/
theorem Backed.release (B : Backed sp cfg m) (hopen : m.core.isOpen = true) (h' : SimpleHeap)
    {old : List HeapBlock} (hcache : m.heap.blockCache = old ++ h'.blockCache)
    (hsound : h'.Sound) (hlist : h'.blockList = m.heap.blockList)
    (hinUse : h'.inUseSize = m.heap.inUseSize)
    (hcached : h'.cacheSize = u64 (subAllocatorBlockSize * h'.blockCache.length)) :
    ∃ c, old.foldl (fun s b => (blockAllocator cfg true {}).free s b.base b.length) (.ok m.core) =
        .ok c ∧
      Quiet sp cfg m ⟨c, h'⟩ ∧ ∀ b n, h'.Holds b n → c.object b = m.core.object b := by
  have hlive : h'.live = m.heap.live := by rw [SimpleHeap.live, hlist, SimpleHeap.live]
  have hlengths : h'.lengths = m.heap.lengths := by
    funext b
    rw [SimpleHeap.lengths, hlist, SimpleHeap.lengths]
  have hdistinct := B.distinct
  rw [hcache, List.map_append, List.nodup_append] at hdistinct
  obtain ⟨hnodup, hnodup', hsep⟩ := hdistinct
  have hheld : ∀ {b n}, h'.Holds b n → m.heap.Holds b n := by
    rintro b n (hb | hb)
    · exact Or.inl (hlengths ▸ hb)
    · refine Or.inr ?_
      rw [hcache]
      exact List.mem_append_right _ hb
  have hold : ∀ {b n}, h'.Holds b n → b ∉ old.map HeapBlock.base := by
    rintro b n (hb | hb) hmem
    · obtain ⟨x, hx, rfl⟩ := List.mem_map.mp hmem
      have hnone := B.fresh x (by rw [hcache]; exact List.mem_append_left _ hx)
      rw [hlengths, hnone] at hb
      cases hb
    · exact hsep b hmem b (List.mem_map_of_mem hb) rfl
  obtain ⟨c, hfold, K⟩ := B.settled.freeBlocks true {} hopen old hnodup (by
    intro x hx
    exact (B.block (n := x.length) (Or.inr (by rw [hcache]; exact List.mem_append_left _ hx))).2)
  have hkeep : ∀ {b n}, h'.Holds b n → c.object b = m.core.object b := by
    intro b n hb
    rw [K.object]
    exact if_neg (hold hb)
  refine ⟨c, hfold, ⟨⟨K.settled, hsound, ?_, ?_, hnodup', ?_, hcached⟩, hlive, ?_, K.isOpen⟩,
    fun b n hb => hkeep hb⟩
  · intro b n hb
    show n = _ ∧ ∃ h mem, c.object b = some (h, mem) ∧ _
    rw [hkeep hb]
    exact B.block (hheld hb)
  · intro x hx
    show h'.lengths x.base = none
    rw [hlengths]
    exact B.fresh x (by rw [hcache]; exact List.mem_append_right _ hx)
  · show h'.inUseSize = u64 (_ * h'.blockList.entries.length)
    rw [hinUse, hlist]
    exact B.inUse
  · funext q
    show (if h'.isBase q then none else c.object q) = m.direct q
    have hobject : c.object q =
        if q ∈ old.map HeapBlock.base then none else m.core.object q := by rw [K.object]
    rw [Memory.direct, hobject]
    by_cases hq : q ∈ old.map HeapBlock.base
    · obtain ⟨x, hx, rfl⟩ := List.mem_map.mp hq
      have hbase : m.heap.isBase x.base = true :=
        isBase_iff.mpr ⟨x.length, Or.inr (by rw [hcache]; exact List.mem_append_left _ hx)⟩
      rw [if_pos hq, if_pos hbase]
      split <;> rfl
    · have hbase : h'.isBase q = m.heap.isBase q := by
        refine isBase_congr fun n => ⟨hheld, ?_⟩
        rintro (hb | hb)
        · exact Or.inl (hlengths.symm ▸ hb)
        · rw [hcache] at hb
          rcases List.mem_append.mp hb with hb | hb
          · exact absurd (List.mem_map_of_mem hb) hq
          · exact Or.inr hb
      rw [hbase, if_neg hq]

/-- `trim_suballocator` -/
theorem Backed.trim_quiet (B : Backed sp cfg m) (hopen : m.core.isOpen = true) :
    ∃ m', m.trim cfg = .ok m' ∧ Quiet sp cfg m m' := by
  have hsound : SimpleHeap.Sound { m.heap with blockCache := [], cacheSize := 0 } :=
    B.heap.of_lists rfl rfl
  obtain ⟨c, hfold, Q, _⟩ := B.release hopen { m.heap with blockCache := [], cacheSize := 0 }
    (List.append_nil _).symm hsound rfl rfl rfl
  refine ⟨⟨c, { m.heap with blockCache := [], cacheSize := 0 }⟩, ?_, Q⟩
  simp only [trim, SimpleHeap.trim, hfold]
  rfl

/-- An object of its own was created. -/
theorem Backed.create (B : Backed sp cfg m) {c : Core} {addr h : Nat} {mem : GpuMemory}
    (hfresh : m.core.object addr = none) (hqueue : mem.flags.isQueueReferenced = false)
    (K : Becomes sp m.core (Function.update m.core.object addr (some (h, mem))) c) :
    Grants sp cfg m addr { m with core := c } := by
  have hheld : ∀ {b n}, m.heap.Holds b n → b ≠ addr := by
    rintro b n hn rfl
    obtain ⟨_, _, _, ho, _⟩ := B.block hn
    rw [hfresh] at ho
    cases ho
  have hbase : m.heap.isBase addr = false :=
    isBase_eq_false.mpr fun n hn => hheld hn rfl
  have hdirect : ({ m with core := c } : Memory).direct =
      Function.update m.direct addr (some (h, mem)) := by
    funext q
    rw [Function.update_apply]
    show (if m.heap.isBase q then none else c.object q) = _
    rw [K.object, Function.update_apply]
    by_cases heq : q = addr
    · rw [if_pos heq, heq, hbase, if_neg Bool.false_ne_true, if_pos rfl]
    · rw [if_neg heq, if_neg heq, direct]
  refine ⟨⟨K.settled, B.heap, ?_, B.fresh, B.distinct, B.inUse, B.cached⟩,
    by rw [direct, hfresh, ite_self], ?_, fun q _ => rfl, ?_, ?_, K.isOpen⟩
  · intro b n hn
    rw [K.object, Function.update_of_ne (hheld hn)]
    exact B.block hn
  · intro q
    rw [Given, Given, hdirect, Function.update_apply]
    by_cases heq : q = addr
    · simp [heq]
    · simp [heq]
  · intro q hq
    rw [hdirect, Function.update_of_ne hq]
  · intro h' mem' ho
    rw [hdirect, Function.update_self] at ho
    cases ho
    exact hqueue

/-- The managers of the runtime at each attempt of a call to create an object. -/
def attempts (cfg : Config) (m : Memory) (dev : SharedDevice) (info : GpuMemoryCreateInfo)
    (ans : AllocAnswers) : List Heaps :=
  m.core.heaps :: match m.core.createAllocation dev info ans.first with
    | .error _ => []
    | .ok (code, _, core) =>
        if code = .success then []
        else match ({ m with core := core } : Memory).trim cfg with
          | .error _ => []
          | .ok m => [m.core.heaps]

/-- An attempt to create an object. -/
theorem Backed.createAllocation_cases (B : Backed sp cfg m) {dev : SharedDevice}
    {info : GpuMemoryCreateInfo} {a : Answers} (hfd : info.dmabufFd = none)
    (hadd : (describe dev info).Addable info.alignment)
    (hfits : (describe dev info).Fits m.core.heaps info.vaHint info.alignment) {code : ErrorCode}
    {addr : Nat} {c : Core} (hcreate : m.core.createAllocation dev info a = .ok (code, addr, c)) :
    (code ≠ .success ∧ Quiet sp cfg m { m with core := c }) ∨
      (code = .success ∧ Grants sp cfg m addr { m with core := c }) := by
  rcases B.settled.createAllocation_cases hfits hadd hfd hcreate with
    ⟨hcode, K⟩ | ⟨hcode, mem, hshape, hfresh, K⟩
  · exact Or.inl ⟨hcode, B.keepCore K⟩
  · refine Or.inr ⟨hcode, B.create hfresh ?_ K⟩
    rw [hshape.flags]
    rfl

/-- The outcome of a call that allocates: an address, or none. -/
def Allocates (sp : AddressSpace) (cfg : Config) (m : Memory) (r : Status × Nat × Memory) : Prop :=
  if r.1 = .success then Grants sp cfg m r.2.1 r.2.2 else Quiet sp cfg m r.2.2

theorem Backed.createOrTrim_allocates (B : Backed sp cfg m) (hopen : m.core.isOpen = true)
    {dev : SharedDevice} {info : GpuMemoryCreateInfo} {ans : AllocAnswers}
    (hfd : info.dmabufFd = none) (hadd : (describe dev info).Addable info.alignment)
    (hfits : ∀ hs ∈ m.attempts cfg dev info ans,
      (describe dev info).Fits hs info.vaHint info.alignment) {r : Status × Nat × Memory}
    (hrun : m.createOrTrim cfg dev info ans = .ok r) : Allocates sp cfg m r := by
  rw [createOrTrim] at hrun
  obtain ⟨⟨code, addr, c⟩, hcreate, hrun⟩ := ok_of_bind hrun
  rcases B.createAllocation_cases hfd hadd (hfits _ (List.mem_cons_self ..)) hcreate with
    ⟨hcode, Q⟩ | ⟨hcode, G⟩
  · simp only [if_neg hcode] at hrun
    obtain ⟨m₁, htrim, Q₁⟩ := Q.backed.trim_quiet (Q.isOpen.trans hopen)
    have hfits₁ := hfits m₁.core.heaps (by simp [attempts, hcreate, hcode, htrim])
    obtain ⟨m₂, hm₂, hrun⟩ := ok_of_bind hrun
    rw [htrim] at hm₂
    cases hm₂
    obtain ⟨⟨code₁, addr₁, c₁⟩, hcreate₁, hrun⟩ := ok_of_bind hrun
    rcases Q₁.backed.createAllocation_cases hfd hadd hfits₁ hcreate₁ with
      ⟨hcode₁, Q₂⟩ | ⟨hcode₁, G₂⟩
    · simp only [if_neg hcode₁] at hrun
      cases hrun
      exact (Q.trans Q₁).trans Q₂
    · simp only [if_pos hcode₁] at hrun
      cases hrun
      exact (Q.trans Q₁).grants G₂
  · simp only [if_pos hcode] at hrun
    cases hrun
    exact G

/-- The request is one for the sub-allocator. -/
def subAllocates (cfg : Config) (info : GpuMemoryCreateInfo) (vmm : Bool) : Bool :=
  cfg.enableThunkSubAllocator && !vmm && info.domain = .kLocal

/-- The sub-allocator is not asked, or does not serve the request, so that an object of its own
is created for it. -/
def attempted (cfg : Config) (m : Memory) (ans : AllocAnswers) (info : GpuMemoryCreateInfo)
    (vmm : Bool) : Bool :=
  !subAllocates cfg info vmm || (m.subAlloc cfg info.size ans).toOption.any fun r => r.1 = 0

/-- The attempts to create an object for a request have a size and are not served from the
inside of a fragment; the sub-allocator is not asked for nothing. -/
def RequestFits (cfg : Config) (m : Memory) (args : AllocArgs) (ans : AllocAnswers)
    (dev : SharedDevice) (info : GpuMemoryCreateInfo) : Prop :=
  (realSize cfg args.sizeInBytes < subAllocatorBlockSize → 0 < realSize cfg args.sizeInBytes) ∧
    ∀ s ∈ (m.subAlloc cfg args.sizeInBytes ans).toOption, s.1 = 0 →
      ∀ hs ∈ s.2.attempts cfg dev info ans, (describe dev info).Fits hs info.vaHint args.alignment

instance (cfg : Config) (m : Memory) (args : AllocArgs) (ans : AllocAnswers)
    (dev : SharedDevice) (info : GpuMemoryCreateInfo) :
    Decidable (RequestFits cfg m args ans dev info) :=
  inferInstanceAs (Decidable (_ ∧ _))

/-- A request that reaches none of the defects of the address managers. -/
def AllocRegular (cfg : Config) (m : Memory) (args : AllocArgs) (ans : AllocAnswers) : Prop :=
  ∀ r ∈ (allocInfo cfg args ans.ram).toOption,
    if subAllocates cfg r.2.1 r.2.2 then RequestFits cfg m args ans r.1 r.2.1
    else (describe r.1 r.2.1).Fits m.core.heaps r.2.1.vaHint args.alignment

instance (cfg : Config) (m : Memory) (args : AllocArgs) (ans : AllocAnswers) :
    Decidable (AllocRegular cfg m args ans) :=
  inferInstanceAs (Decidable (∀ r ∈ (allocInfo cfg args ans.ram).toOption,
    if subAllocates cfg r.2.1 r.2.2 then RequestFits cfg m args ans r.1 r.2.1
    else (describe r.1 r.2.1).Fits m.core.heaps r.2.1.vaHint args.alignment))

theorem allocInfo_size {args : AllocArgs} {ram : Bool} {dev : SharedDevice}
    {info : GpuMemoryCreateInfo} {vmm : Bool}
    (hinfo : allocInfo cfg args ram = .ok (dev, info, vmm)) : info.size = args.sizeInBytes := by
  rw [allocInfo] at hinfo
  split at hinfo
  next => cases hinfo
  next =>
    split at hinfo
    next => cases hinfo
    next =>
      split at hinfo
      next => cases hinfo
      next =>
        cases hinfo
        rfl

/-- The sums of the address managers do not wrap around when an object is created for a request. -/
def AllocAdds (cfg : Config) (m : Memory) (args : AllocArgs) (ans : AllocAnswers) : Prop :=
  ∀ r ∈ (allocInfo cfg args ans.ram).toOption, m.attempted cfg ans r.2.1 r.2.2 = true →
    (describe r.1 r.2.1).Addable args.alignment

instance (cfg : Config) (m : Memory) (args : AllocArgs) (ans : AllocAnswers) :
    Decidable (AllocAdds cfg m args ans) :=
  inferInstanceAs (Decidable (∀ r ∈ (allocInfo cfg args ans.ram).toOption, _ → _))

theorem allocAdds_of_le {args : AllocArgs} (h : args.alignment ≤ 2 ^ 32) (ans : AllocAnswers) :
    AllocAdds cfg m args ans := by
  rintro ⟨dev, info, vmm⟩ hinfo _
  obtain ⟨_, halign⟩ := allocInfo_ok (eq_ok_of_toOption hinfo)
  refine GpuMemory.addable_of_le h ?_
  show info.alignment ≤ 2 ^ 32
  rw [halign]
  exact h

/-- A regular request hands out one address or none. -/
theorem Backed.allocMemoryAlign_allocates (B : Backed sp cfg m) (hopen : m.core.isOpen = true)
    {args : AllocArgs} {ans : AllocAnswers} (hadds : AllocAdds cfg m args ans)
    (hreg : AllocRegular cfg m args ans) {r : Status × Nat × Memory}
    (hrun : m.allocMemoryAlign cfg args ans = .ok r) : Allocates sp cfg m r := by
  rw [allocMemoryAlign, if_neg (by rw [hopen]; exact Bool.noConfusion)] at hrun
  cases hinfo : allocInfo cfg args ans.ram with
  | error status =>
      have hne : status ≠ .success := allocInfo_ne_success hinfo
      rw [hinfo] at hrun
      cases hrun
      rw [Allocates, if_neg hne]
      exact B.quiet
  | ok r' =>
      obtain ⟨dev, info, vmm⟩ := r'
      obtain ⟨hfd, halign'⟩ := allocInfo_ok hinfo
      have hsize := allocInfo_size hinfo
      have hreg := hreg (dev, info, vmm) (by rw [hinfo]; rfl)
      have hadd := hadds (dev, info, vmm) (by rw [hinfo]; rfl)
      rw [← halign'] at hadd
      rw [hinfo] at hrun
      simp only at hrun
      split at hrun
      next hsub =>
        rw [if_pos (by simpa [subAllocates, and_assoc] using hsub), RequestFits, ← halign'] at hreg
        obtain ⟨⟨addr, m₁⟩, halloc, hrun⟩ := ok_of_bind hrun
        rw [hsize] at halloc
        rcases B.subAlloc_cases hreg.1 halloc with ⟨haddr, Q⟩ | ⟨haddr, G⟩
        · subst haddr
          simp only [ne_eq, not_true_eq_false, if_false] at hrun
          have hadd := hadd (by simp [attempted, hsize, halloc, Except.toOption])
          have h₁ := Q.backed.createOrTrim_allocates (Q.isOpen.trans hopen) hfd hadd
            (hreg.2 (0, m₁) (by rw [halloc]; rfl) rfl) hrun
          rw [Allocates] at h₁ ⊢
          split
          next hs =>
            rw [if_pos hs] at h₁
            exact Q.grants h₁
          next hs =>
            rw [if_neg hs] at h₁
            exact Q.trans h₁
        · simp only [ne_eq, haddr, not_false_eq_true, if_true] at hrun
          cases hrun
          exact G
      next hsub =>
        rw [if_neg (by simpa [subAllocates, and_assoc] using hsub), ← halign'] at hreg
        obtain ⟨⟨code, addr, c⟩, hcreate, hrun⟩ := ok_of_bind hrun
        have hno : subAllocates cfg info vmm = false :=
          Bool.eq_false_iff.mpr fun h => hsub (by simpa [subAllocates, and_assoc] using h)
        have hadd := hadd (by simp [attempted, hno])
        rcases B.createAllocation_cases hfd hadd hreg hcreate with ⟨hcode, Q⟩ | ⟨hcode, G⟩
        · simp only [if_neg hcode] at hrun
          cases hrun
          exact Q
        · simp only [if_pos hcode] at hrun
          cases hrun
          exact G

/-! ## The release of an address -/

/-- The address `p` was taken back, and no block that is still held was touched. -/
structure Takes (sp : AddressSpace) (cfg : Config) (m : Memory) (p : Nat) (m' : Memory) :
    Prop where
  backed : Backed sp cfg m'
  given : ∀ q, m'.Given q ↔ q ≠ p ∧ m.Given q
  live : ∀ q, q ≠ p → m'.heap.live q = m.heap.live q
  direct : ∀ q, q ≠ p → m'.direct q = m.direct q
  kept : ∀ b n, m'.heap.Holds b n → m.heap.Holds b n ∧ m'.core.object b = m.core.object b
  isOpen : m'.core.isOpen = m.core.isOpen

/-- A fragment was taken back, and the heap holds the blocks it has held. -/
theorem Backed.take (B : Backed sp cfg m) {p n : Nat} (hp : m.heap.live p = some n)
    {h' : SimpleHeap} (hsound : h'.Sound) (hlive : h'.live = Function.update m.heap.live p none)
    (hholds : ∀ b n, h'.Holds b n ↔ m.heap.Holds b n)
    (hfresh : ∀ x ∈ h'.blockCache, h'.lengths x.base = none)
    (hdistinct : (h'.blockCache.map HeapBlock.base).Nodup)
    (hinUse : h'.inUseSize = u64 (subAllocatorBlockSize * h'.blockList.entries.length))
    (hcached : h'.cacheSize = u64 (subAllocatorBlockSize * h'.blockCache.length)) :
    Takes sp cfg m p { m with heap := h' } := by
  have hdirect : ∀ q, ({ m with heap := h' } : Memory).direct q = m.direct q := by
    intro q
    simp only [Memory.direct, isBase_congr (hholds q)]
  refine ⟨⟨B.settled, hsound, fun hn => B.block ((hholds _ _).mp hn), hfresh, hdistinct, hinUse,
    hcached⟩, ?_, ?_, fun q _ => hdirect q, fun b n hn => ⟨(hholds b n).mp hn, rfl⟩, rfl⟩
  · intro q
    rw [Given, hdirect q]
    show h'.live q ≠ none ∨ _ ↔ _
    rw [hlive, Function.update_apply]
    by_cases heq : q = p
    · simp [heq, B.direct_of_live hp]
    · simp only [heq, if_false, ne_eq, not_false_eq_true, true_and]
      rfl
  · intro q hq
    show h'.live q = _
    rw [hlive, Function.update_of_ne hq]

theorem Takes.quiet {m'' : Memory} {p : Nat} (T : Takes sp cfg m p m') (Q : Quiet sp cfg m' m'')
    (hkept : ∀ b n, m''.heap.Holds b n → m'.heap.Holds b n ∧ m''.core.object b = m'.core.object b) :
    Takes sp cfg m p m'' where
  backed := Q.backed
  given q := by rw [Q.given, T.given]
  live q hq := by rw [Q.live, T.live q hq]
  direct q hq := by rw [Q.direct, T.direct q hq]
  kept b n hn := by
    obtain ⟨hn', ho⟩ := hkept b n hn
    obtain ⟨hn'', ho'⟩ := T.kept b n hn'
    exact ⟨hn'', ho.trans ho'⟩
  isOpen := Q.isOpen.trans T.isOpen

/-- A release that leaves the block in use. -/
theorem Backed.take_returns (B : Backed sp cfg m) {p n : Nat} (hp : m.heap.live p = some n)
    {h' : SimpleHeap} (R : SimpleHeap.Returns m.heap p h') :
    Takes sp cfg m p { m with heap := h' } := by
  obtain ⟨hblocks, hinUse, hcached⟩ := SimpleHeap.counts_eq.mp R.counts
  refine B.take hp R.sound R.live ?_ ?_ ?_ ?_ ?_
  · intro b n
    rw [Holds, Holds, R.lengths, R.cache]
  · rw [R.cache, R.lengths]
    exact B.fresh
  · rw [R.cache]
    exact B.distinct
  · rw [hinUse, hblocks]
    exact B.inUse
  · rw [hcached, R.cache]
    exact B.cached

/-- A block that is emptied moves to the cache, and is held as before. -/
theorem holds_of_empties {p b len : Nat} {h₁ : SimpleHeap}
    (E : SimpleHeap.Empties m.heap p b len h₁) (b' n' : Nat) :
    h₁.Holds b' n' ↔ m.heap.Holds b' n' := by
  rw [Holds, Holds, E.lengths, E.cache, Function.update_apply, List.mem_append,
    List.mem_singleton, HeapBlock.mk.injEq]
  constructor
  · rintro (hb' | hb' | ⟨rfl, rfl⟩)
    · split at hb'
      next => cases hb'
      next => exact Or.inl hb'
    · exact Or.inr hb'
    · exact Or.inl E.listed
  · rintro (hb' | hb')
    · by_cases heq : b' = b
      · subst heq
        have hsame := E.listed
        rw [hb'] at hsame
        exact Or.inr (Or.inr ⟨rfl, Option.some.inj hsame⟩)
      · rw [if_neg heq]
        exact Or.inl hb'
    · exact Or.inr (Or.inl hb')

/-- A release that empties its block, before the cache is balanced. -/
theorem Backed.take_empties (B : Backed sp cfg m) {p n : Nat} (hp : m.heap.live p = some n)
    {b len : Nat} {h₁ : SimpleHeap} (E : SimpleHeap.Empties m.heap p b len h₁) :
    Takes sp cfg m p { m with heap := h₁ } := by
  have hlen : len = subAllocatorBlockSize := (B.block (Or.inl E.listed)).1
  have hblocks : h₁.blockList.entries.length + 1 = m.heap.blockList.entries.length := E.blocks
  have hcounters := E.counters
  simp only [SimpleHeap.counts, Prod.mk.injEq, hlen] at hcounters
  refine B.take hp E.sound E.live (holds_of_empties E) ?_ ?_ ?_ ?_
  · intro x hx
    rw [E.cache] at hx
    rw [E.lengths, Function.update_apply]
    split
    next => rfl
    next hne =>
      rcases List.mem_append.mp hx with hx | hx
      · exact B.fresh x hx
      · rw [List.mem_singleton.mp hx] at hne
        exact absurd rfl hne
  · rw [E.cache, List.map_append, List.nodup_append]
    refine ⟨B.distinct, List.nodup_singleton _, ?_⟩
    intro b' hb' b'' hb''
    obtain ⟨x, hx, rfl⟩ := List.mem_map.mp hb'
    have hb'' : b'' = b := List.mem_singleton.mp hb''
    rintro rfl
    have hnone := B.fresh x hx
    rw [hb'', E.listed] at hnone
    cases hnone
  · rw [hcounters.1, B.inUse, ← hblocks]
    exact sub64_mul_succ (by decide) _
  · rw [hcounters.2, B.cached, E.cache, List.length_append]
    exact u64_mul_succ _ _

/-- `hsaKmtFreeMemory` of the address of a live fragment. -/
theorem Backed.freeMemory_live (B : Backed sp cfg m) (hopen : m.core.isOpen = true) {p n : Nat}
    (hp : m.heap.live p = some n) :
    ∃ m', m.freeMemory cfg p = .ok (.success, m') ∧ Takes sp cfg m p m' := by
  have hpos : p ≠ 0 := by
    obtain ⟨b, hlen, hlo, _⟩ := B.live_inside hp
    obtain ⟨_, h, mem, ho, _⟩ := B.block (Or.inl hlen)
    have := (B.settled.bounds ho).1
    omega
  rw [freeMemory, if_neg (by rw [hopen]; exact Bool.noConfusion), if_neg hpos]
  rcases B.heap.free_of_live (blockAllocator cfg true {}) (.ok m.core) hp with
    ⟨h', hfree, R⟩ | ⟨b, len, h₁, hfree, E⟩
  · rw [hfree]
    exact ⟨⟨m.core, h'⟩, rfl, B.take_returns hp R⟩
  · have T := B.take_empties hp E
    obtain ⟨old, hcache, hfold⟩ := SimpleHeap.balanceLoop_spec (blockAllocator cfg true {})
      (.ok m.core) h₁.inUseSize h₁.blockCache h₁.cacheSize
    obtain ⟨c, hrel, Q, hkept⟩ := T.backed.release (T.isOpen.trans hopen)
      (SimpleHeap.balance (blockAllocator cfg true {}) h₁ (.ok m.core)).1 hcache
      (E.sound.of_lists rfl rfl) rfl rfl
      (SimpleHeap.balanceLoop_size _ _ _ _ _ (by decide)
        (fun x hx => (T.backed.block (Or.inr hx)).1) T.backed.cached)
    refine ⟨⟨c, (SimpleHeap.balance (blockAllocator cfg true {}) h₁ (.ok m.core)).1⟩, ?_,
      T.quiet Q ?_⟩
    · have hbalance : SimpleHeap.balance (blockAllocator cfg true {}) h₁ (.ok m.core) =
          ((SimpleHeap.balance (blockAllocator cfg true {}) h₁ (.ok m.core)).1, .ok c) :=
        Prod.ext rfl (hfold.trans hrel)
      rw [hfree, hbalance]
    · intro b' n' hn
      refine ⟨?_, hkept b' n' hn⟩
      rcases hn with hn | hn
      · exact Or.inl hn
      · refine Or.inr ?_
        show _ ∈ h₁.blockCache
        rw [hcache]
        exact List.mem_append_right _ hn

/-- `hsaKmtFreeMemory` of any other address leaves it to the allocation map. -/
theorem Backed.freeMemory_eq (B : Backed sp cfg m) (hopen : m.core.isOpen = true) {p : Nat}
    (hpos : p ≠ 0) (hp : m.heap.live p = none) :
    m.freeMemory cfg p = (m.core.freeEntry p).map fun r => (r.1, { m with core := r.2 }) := by
  rw [freeMemory, if_neg (by rw [hopen]; exact Bool.noConfusion), if_neg hpos,
    B.heap.free_of_not_live _ _ hpos hp]

/-- An object that is not a block was deleted. -/
theorem Backed.drop (B : Backed sp cfg m) {p : Nat} (hp : m.heap.live p = none)
    (hbase : m.heap.isBase p = false) {c : Core}
    (K : Becomes sp m.core (Function.update m.core.object p none) c) :
    Takes sp cfg m p { m with core := c } := by
  have hheld : ∀ {b n}, m.heap.Holds b n → b ≠ p := by
    rintro b n hn rfl
    exact isBase_eq_false.mp hbase n hn
  have hdirect : ({ m with core := c } : Memory).direct = Function.update m.direct p none := by
    funext q
    rw [Function.update_apply]
    show (if m.heap.isBase q then none else c.object q) = _
    rw [K.object, Function.update_apply]
    by_cases heq : q = p
    · rw [if_pos heq, if_pos heq, ite_self]
    · rw [if_neg heq, if_neg heq, direct]
  refine ⟨⟨K.settled, B.heap, ?_, B.fresh, B.distinct, B.inUse, B.cached⟩,
    ?_, fun q _ => rfl, ?_, ?_, K.isOpen⟩
  · intro b n hn
    rw [K.object, Function.update_of_ne (hheld hn)]
    exact B.block hn
  · intro q
    rw [Given, Given, hdirect, Function.update_apply]
    by_cases heq : q = p
    · simp [heq, hp]
    · simp [heq]
  · intro q hq
    rw [hdirect, Function.update_of_ne hq]
  · intro b n hn
    refine ⟨hn, ?_⟩
    show c.object b = _
    rw [K.object, Function.update_of_ne (hheld hn)]

end Memory

end RocDxg
