import RocDxg.Lib.Arenas
import RocDxg.Memory.SimpleHeap

/-!
# The invariant of the sub-allocator

The fragments of each block tile it, the blocks are disjoint, the free list is the index
by size of the free fragments, and no fragment is marked for discard.  `SimpleHeap.live`
is what the invariant says about the outside: the partial function from the addresses of
the used fragments to their sizes.

Blocks are discarded only when they are larger than the default size.  The results here
are about requests up to that size.
-/

namespace RocDxg

open Lib (OrdMap MultiMap Node TileMap Account Arena Arenas Limbo total elsewhere)

namespace HeapFragment

/-- The key and the iterator a free fragment has in the free list. -/
def freeEntry (f : HeapFragment) : Option (Nat × Nat) :=
  if f.isFree then f.freeListEntry.map fun i => (f.size, i) else none

/-- The size of a used fragment. -/
def usedSize (f : HeapFragment) : Option Nat := if f.isFree then none else some f.size

/-- A fragment stores an iterator exactly when it is free, and is not discarded. -/
def Linked (f : HeapFragment) : Prop := f.isFree = f.freeListEntry.isSome ∧ f.discard = false

/-- How the fragments of the heap count. -/
@[reducible]
def account : Account HeapFragment where
  size := HeapFragment.size
  entry := freeEntry
  used := usedSize
  ok := Linked
  key_eq {f k i} h := by
    cases hf : f.isFree <;> cases he : f.freeListEntry <;> simp_all [freeEntry]
  used_of_entry {f e} h := by
    cases hf : f.isFree <;> simp_all [freeEntry, usedSize]
  size_of_used {f n} h := by
    cases hf : f.isFree <;> simp_all [usedSize]
  entry_of_used {f n} h := by
    cases hf : f.isFree <;> simp_all [usedSize, freeEntry]

/-- A linked fragment with an entry is determined by it. -/
theorem eq_of_entry {f : HeapFragment} {k i : Nat} (hok : f.Linked)
    (h : f.freeEntry = some (k, i)) : f = ⟨some i, k, false, true⟩ := by
  obtain ⟨entry, size, discard, isFree⟩ := f
  have hdiscard : discard = false := hok.2
  subst hdiscard
  cases isFree with
  | false => simp [freeEntry] at h
  | true =>
      cases entry with
      | none => simp [freeEntry] at h
      | some j =>
          simp only [freeEntry, if_true, Option.map_some, Option.some.injEq, Prod.mk.injEq] at h
          rw [h.1, h.2]

/-- A linked free fragment has an entry. -/
theorem entry_of_free {f : HeapFragment} (hok : f.Linked) (hf : f.isFree = true) :
    ∃ i, f.freeListEntry = some i ∧ f.freeEntry = some (f.size, i) := by
  have hlink := hok.1
  rw [hf] at hlink
  obtain ⟨i, hi⟩ := Option.isSome_iff_exists.mp hlink.symm
  exact ⟨i, hi, by simp [freeEntry, hf, hi]⟩

theorem entry_makeFree {i n : Nat} (h : n < 2 ^ 62) : (makeFree i n).freeEntry = some (n, i) := by
  simp [freeEntry, makeFree, sizeField_of_lt h]

theorem used_makeUsed {n : Nat} (h : n < 2 ^ 62) : (makeUsed n).usedSize = some n := by
  simp [usedSize, makeUsed, sizeField_of_lt h]

theorem linked_makeFree (i n : Nat) : (makeFree i n).Linked := ⟨rfl, rfl⟩

theorem linked_makeUsed (n : Nat) : (makeUsed n).Linked := ⟨rfl, rfl⟩

end HeapFragment

namespace SimpleHeap

open HeapFragment (account)

/-- The size of the used fragment at an address. -/
def live (h : SimpleHeap) : Nat → Option Nat := Lib.live account h.blockList

/-- The length of a block. -/
def blockLength (frags : OrdMap HeapFragment) : Nat := total HeapFragment.size frags

/-- The lengths of the blocks, by base. -/
def lengths (h : SimpleHeap) (b : Nat) : Option Nat := (h.blockList.find? b).map blockLength

/-- The invariant. -/
structure Sound (h : SimpleHeap) : Prop where
  arenas : Arenas account h.freeList h.blockList
  small : ∀ {b frags}, h.blockList.find? b = some frags →
    0 < b ∧ blockLength frags < 2 ^ 62 ∧ b + blockLength frags ≤ 2 ^ 64

/-- How many blocks are in use, and the two counters. -/
def counts (h : SimpleHeap) : Nat × Nat × Nat :=
  (h.blockList.entries.length, h.inUseSize, h.cacheSize)

/-- The effect of an allocation from the blocks at hand that returns `p`. -/
structure Serves (h : SimpleHeap) (bytes p : Nat) (h' : SimpleHeap) : Prop where
  sound : Sound h'
  pos : 0 < p
  fresh : h.live p = none
  live : h'.live = Function.update h.live p (some bytes)
  lengths : h'.lengths = h.lengths
  cache : h'.blockCache = h.blockCache
  counts : h'.counts = h.counts

variable {h : SimpleHeap}

theorem sound_new : Sound {} := by
  refine ⟨⟨?_, ?_, ?_, ?_, ?_⟩, ?_⟩
  · intro b fm hb
    cases hb
  · intro b fm hb
    cases hb
  · intro b fm a f hb
    cases hb
  · intro b fm b' fm' hb
    cases hb
  · intro n
    constructor
    · intro hn
      cases hn
    · rintro ⟨b, fm, f, hb, _⟩
      cases hb
  · intro b fm hb
    cases hb

namespace Sound

theorem lookup_eq_some (S : Sound h) {a b : Nat} {frags : OrdMap HeapFragment} {f : HeapFragment} :
    h.lookup a = some (b, frags, f) ↔
      h.blockList.find? b = some frags ∧ frags.find? a = some f := by
  rw [lookup]
  constructor
  · intro hl
    split at hl
    next => cases hl
    next b' frags' hfloor =>
      obtain ⟨f', hf, heq⟩ := Option.map_eq_some_iff.mp hl
      cases heq
      exact ⟨OrdMap.find?_eq_some.mpr (OrdMap.floor?_mem hfloor).1, hf⟩
  · rintro ⟨hb, hf⟩
    rw [S.arenas.floor?_eq hb hf]
    simp [hf]

theorem live_eq_some (S : Sound h) {a n : Nat} :
    h.live a = some n ↔
      ∃ b frags f, h.lookup a = some (b, frags, f) ∧ f.isFree = false ∧ f.size = n := by
  rw [live, S.arenas.live_eq_some]
  constructor
  · rintro ⟨b, frags, hb, hv⟩
    obtain ⟨f, hf, hn⟩ := OrdMap.view_eq_some.mp hv
    refine ⟨b, frags, f, S.lookup_eq_some.mpr ⟨hb, hf⟩, ?_⟩
    cases hfree : f.isFree <;> simp_all [HeapFragment.usedSize]
  · rintro ⟨b, frags, f, hl, hfree, hn⟩
    obtain ⟨hb, hf⟩ := S.lookup_eq_some.mp hl
    refine ⟨b, frags, hb, OrdMap.view_eq_some.mpr ⟨f, hf, ?_⟩⟩
    simp [HeapFragment.usedSize, hfree, hn]

theorem size_lt (S : Sound h) {b a : Nat} {frags : OrdMap HeapFragment} {f : HeapFragment}
    (hb : h.blockList.find? b = some frags) (hf : frags.find? a = some f) : f.size < 2 ^ 62 := by
  have hbounds : b ≤ a ∧ 0 < f.size ∧ a + f.size ≤ b + blockLength frags :=
    (S.arenas.tiles hb).bounds hf
  have := (S.small hb).2.1
  omega

theorem counts_withBlock {b : Nat} {frags : OrdMap HeapFragment}
    (hb : h.blockList.find? b = some frags) (r : MultiMap × OrdMap HeapFragment) :
    (h.withBlock b r).counts = h.counts := by
  simp only [counts, withBlock, OrdMap.length_insert, OrdMap.length_erase hb]

/-- An operation on one block that keeps its arena. -/
theorem withBlock (S : Sound h) {b : Nat} {frags frags' : OrdMap HeapFragment} {fl' : MultiMap}
    (hb : h.blockList.find? b = some frags)
    (ha : Arena account b (b + blockLength frags) (elsewhere h.freeList b (b + blockLength frags))
      fl' frags') :
    Sound (h.withBlock b (fl', frags')) ∧ (h.withBlock b (fl', frags')).lengths = h.lengths := by
  obtain ⟨harenas, htotal⟩ := S.arenas.restore hb ha
  have hlength : blockLength frags' = blockLength frags := htotal
  refine ⟨⟨harenas, ?_⟩, ?_⟩
  · intro b' frags'' hf
    change (h.blockList.insert b frags').find? b' = some frags'' at hf
    rw [OrdMap.find?_insert] at hf
    split at hf
    next heq =>
      cases hf
      rw [hlength, heq]
      exact S.small hb
    next => exact S.small hf
  · funext b'
    show ((h.blockList.insert b frags').find? b').map blockLength = _
    rw [OrdMap.find?_insert, lengths]
    split
    next heq => rw [heq, hb, Option.map_some, Option.map_some, hlength]
    next => rfl

/-- The used fragments after an operation on one block. -/
theorem live_withBlock (S : Sound h) {b p : Nat} {frags frags' : OrdMap HeapFragment}
    {fl' : MultiMap} {x : Option Nat} (hb : h.blockList.find? b = some frags)
    (S' : Sound (h.withBlock b (fl', frags'))) (hlo : b ≤ p) (hhi : p < b + blockLength frags')
    (hview : frags'.view HeapFragment.usedSize =
      Function.update (frags.view HeapFragment.usedSize) p x) :
    (h.withBlock b (fl', frags')).live = Function.update h.live p x := by
  refine S.arenas.live_put S'.arenas ?_ ⟨hlo, hhi⟩ hview
  intro a n
  rw [hb]
  constructor
  · exact fun hv => ⟨frags, rfl, hv⟩
  · rintro ⟨frags'', heq, hv⟩
    cases heq
    exact hv

end Sound

/-! ## Allocation -/

/-- Close a fragment out of account as the result of an allocation. -/
theorem Sound.serves (S : Sound h) {b k len : Nat} {frags frags' : OrdMap HeapFragment}
    {fl' : MultiMap} (hb : h.blockList.find? b = some frags)
    (L : Limbo account b (b + blockLength frags) (elsewhere h.freeList b (b + blockLength frags))
      fl' frags' k len (frags.view HeapFragment.usedSize)) :
    Serves h len k (h.withBlock b (fl', frags'.insert k (.makeUsed len))) := by
  have hbounds := L.bounds
  have hsmall := S.small hb
  have hused : (HeapFragment.makeUsed len).usedSize = some len :=
    HeapFragment.used_makeUsed (by omega)
  obtain ⟨harena, hview⟩ := L.closeUsed (g := .makeUsed len) hused (HeapFragment.linked_makeUsed len)
  obtain ⟨S', hblocks⟩ := S.withBlock hb harena
  have hlength : blockLength (frags'.insert k (.makeUsed len)) = blockLength frags := by
    have heq := harena.tiles.hi_eq
    exact (Nat.add_left_cancel heq).symm
  refine ⟨S', by omega, ?_, ?_, hblocks, rfl, counts_withBlock hb _⟩
  · cases hl : h.live k with
    | none => rfl
    | some n =>
        obtain ⟨b', frags'', hb', hv⟩ := S.arenas.live_eq_some.mp hl
        obtain ⟨f, hf, _⟩ := OrdMap.view_eq_some.mp hv
        obtain ⟨hlo, hhi⟩ := S.arenas.bounds hb' hf
        have heq := S.arenas.unique hb' hb hlo hhi hbounds.1
          (show k < b + blockLength frags by omega)
        subst heq
        rw [hb] at hb'
        cases hb'
        have hfresh := L.fresh
        rw [show frags.view HeapFragment.usedSize k = some n from hv] at hfresh
        cases hfresh
  · exact S.live_withBlock hb S' hbounds.1 (by omega) hview

/-- A node of the free list leads to its fragment. -/
theorem Sound.lookup_of_node (S : Sound h) {n : Node} (hn : n ∈ h.freeList.nodes) :
    ∃ b frags, h.lookup n.val = some (b, frags, ⟨some n.id, n.key, false, true⟩) := by
  obtain ⟨b, frags, f, hb, hf, he⟩ := S.arenas.nodes.mp hn
  refine ⟨b, frags, S.lookup_eq_some.mpr ⟨hb, ?_⟩⟩
  rw [hf, HeapFragment.eq_of_entry (S.arenas.ok hb hf) he]

theorem Sound.takeBase_serves (S : Sound h) {n : Node} {b : Nat} {frags : OrdMap HeapFragment}
    (hl : h.lookup n.val = some (b, frags, ⟨some n.id, n.key, false, true⟩))
    {bytes : Nat} (hpos : 0 < bytes) (hle : bytes ≤ n.key) :
    Serves h bytes n.val
      (h.withBlock b (takeBase h.freeList frags bytes n ⟨some n.id, n.key, false, true⟩)) := by
  obtain ⟨hb, hf⟩ := S.lookup_eq_some.mp hl
  have hsize : n.key < 2 ^ 62 := S.size_lt hb hf
  have hentry : (⟨some n.id, n.key, false, true⟩ : HeapFragment).freeEntry = some (n.key, n.id) := rfl
  have L := (S.arenas.arena hb).openFree hf hentry
  have hset : (HeapFragment.setSize ⟨some n.id, n.key, false, true⟩ bytes).setUsed =
      .makeUsed bytes := rfl
  rw [takeBase, hset]
  split
  next hgt =>
    have hne : n.val ≠ n.val + bytes := by omega
    have hback := L.cutBack (g := .makeUsed bytes)
      (f := .makeFree (h.freeList.erase n.id).next (n.key - bytes)) hpos hgt
      (HeapFragment.sizeField_of_lt (by omega)) (HeapFragment.entry_makeFree (by omega))
      (HeapFragment.linked_makeFree ..)
    have hserves := S.serves hb hback
    rw [OrdMap.insert_comm _ _ _ hne.symm, OrdMap.insert_insert] at hserves
    exact hserves
  next hgt =>
    have heq : n.key = bytes := by omega
    rw [heq] at L
    exact S.serves hb L

theorem Sound.takeAligned_serves (S : Sound h) {n : Node} {b : Nat} {frags : OrdMap HeapFragment}
    (hl : h.lookup n.val = some (b, frags, ⟨some n.id, n.key, false, true⟩))
    {bytes p : Nat} (hpos : 0 < bytes) (hp : n.val < p) (hle : p + bytes ≤ n.val + n.key) :
    Serves h bytes p (h.withBlock b (takeAligned h.freeList frags bytes p n)) := by
  obtain ⟨d, rfl⟩ := Nat.exists_eq_add_of_le (Nat.le_of_lt hp)
  obtain ⟨hb, hf⟩ := S.lookup_eq_some.mp hl
  have hsize : n.key < 2 ^ 62 := S.size_lt hb hf
  have hentry : (⟨some n.id, n.key, false, true⟩ : HeapFragment).freeEntry = some (n.key, n.id) := rfl
  have L := (S.arenas.arena hb).openFree hf hentry
  have hfront := L.cutFront (n := d) (g := .makeUsed (n.key - d))
    (f := .makeFree (h.freeList.erase n.id).next d) (by omega) (by omega)
    (HeapFragment.sizeField_of_lt (by omega)) (HeapFragment.entry_makeFree (by omega))
    (HeapFragment.linked_makeFree ..)
  have hne : n.val ≠ n.val + d := by omega
  rw [takeAligned, Nat.add_sub_cancel_left]
  split
  next hgt =>
    have hne' : n.val + d ≠ n.val + d + bytes := by omega
    have hback := hfront.cutBack (g := .makeUsed bytes)
      (f := .makeFree ((h.freeList.erase n.id).insert d n.val).next (n.key - d - bytes)) hpos
      (by omega) (HeapFragment.sizeField_of_lt (by omega)) (HeapFragment.entry_makeFree (by omega))
      (HeapFragment.linked_makeFree ..)
    have hserves := S.serves hb hback
    rw [OrdMap.insert_comm _ _ _ hne'.symm, OrdMap.insert_insert, OrdMap.insert_comm _ _ _ hne.symm,
      OrdMap.insert_insert] at hserves
    exact hserves
  next hgt =>
    have heq : n.key - d = bytes := by omega
    have hserves := S.serves hb hfront
    rw [OrdMap.insert_comm _ _ _ hne.symm, OrdMap.insert_insert, heq] at hserves
    exact hserves

/-- What the search of `alloc` can do: take a free fragment at its base, or from an
aligned address on. -/
inductive Chooses (h : SimpleHeap) (bytes : Nat) : Nat × SimpleHeap → Prop
  | base {n : Node} {b : Nat} {frags : OrdMap HeapFragment} :
      h.lookup n.val = some (b, frags, ⟨some n.id, n.key, false, true⟩) → bytes ≤ n.key →
      Chooses h bytes (n.val,
        h.withBlock b (takeBase h.freeList frags bytes n ⟨some n.id, n.key, false, true⟩))
  | aligned {n : Node} {b p : Nat} {frags : OrdMap HeapFragment} :
      h.lookup n.val = some (b, frags, ⟨some n.id, n.key, false, true⟩) → n.val < p →
      p + bytes ≤ n.val + n.key →
      Chooses h bytes (p, h.withBlock b (takeAligned h.freeList frags bytes p n))

/-- Every node of the free list leads to its fragment. -/
def Listed (h : SimpleHeap) : Prop :=
  ∀ n ∈ h.freeList.nodes, n.key < 2 ^ 62 ∧ n.val + n.key ≤ 2 ^ 64 ∧
    ∃ b frags, h.lookup n.val = some (b, frags, ⟨some n.id, n.key, false, true⟩)

theorem Sound.listed (S : Sound h) : Listed h := by
  intro n hn
  obtain ⟨b, frags, hl⟩ := S.lookup_of_node hn
  obtain ⟨hb, hf⟩ := S.lookup_eq_some.mp hl
  have hsize : n.key < 2 ^ 62 := S.size_lt hb hf
  have hbounds : b ≤ n.val ∧ 0 < n.key ∧ n.val + n.key ≤ b + blockLength frags :=
    (S.arenas.tiles hb).bounds hf
  have := (S.small hb).2.2
  exact ⟨hsize, by omega, b, frags, hl⟩

/-- The loop of `alloc` asks for `bytes` first and for `bytes + align` after. -/
theorem Listed.allocLoop_chooses (H : Listed h) {bytes align : Nat} (hpos : 0 < bytes)
    (halign : 0 < align) (hsmall : align ≤ 2 ^ 62) (left i alignBytes : Nat)
    (hi : alignBytes = if i = 0 then bytes else bytes + align) :
    ∃ r, h.allocLoop bytes align left i alignBytes = some r ∧ ∀ c, r = some c → Chooses h bytes c := by
  induction left generalizing i alignBytes with
  | zero => exact ⟨none, rfl, fun _ hr => by cases hr⟩
  | succ left ih =>
      rw [allocLoop]
      cases hbound : h.freeList.lowerBound alignBytes with
      | none => exact ⟨none, rfl, fun _ hr => by cases hr⟩
      | some n =>
          obtain ⟨hn, hkey⟩ := MultiMap.lowerBound_mem hbound
          obtain ⟨hsize, hend, b, frags, hl⟩ := H n hn
          have hle : bytes ≤ n.key := by
            rw [hi] at hkey
            split at hkey <;> omega
          simp only [hl]
          rw [if_neg (by simp; omega)]
          have hdelta := Nat.mod_lt n.val halign
          split
          next =>
            refine ⟨_, rfl, fun c hr => ?_⟩
            cases hr
            exact .base hl hle
          next hne =>
            split
            next hretry =>
              refine ih (i + 1) _ ?_
              rw [hi, if_pos hretry.1, if_neg (Nat.succ_ne_zero i)]
              exact u64_of_lt (by omega)
            next hfits =>
              have hroom : bytes + align - n.val % align ≤ n.key := by
                rw [hi] at hkey
                rw [u64_of_lt (by omega)] at hfits
                split at hkey
                next hzero => exact Nat.le_of_not_lt fun hlt => hfits ⟨hzero, hlt⟩
                next => omega
              have hbase : u64 (n.val + align - n.val % align) = n.val + align - n.val % align :=
                u64_of_lt (by omega)
              refine ⟨_, rfl, fun c hr => ?_⟩
              rw [hbase] at hr
              cases hr
              exact .aligned hl (by omega) (by omega)

theorem Chooses.serves (S : Sound h) {bytes : Nat} (hpos : 0 < bytes) {c : Nat × SimpleHeap}
    (hc : Chooses h bytes c) : Serves h bytes c.1 c.2 := by
  cases hc with
  | base hl hle => exact S.takeBase_serves hl hpos hle
  | aligned hl hp hle => exact S.takeAligned_serves hl hpos hp hle

/-- The search of `alloc` never fails an assertion. -/
theorem Listed.allocFragment_chooses (H : Listed h) {bytes : Nat} (hpos : 0 < bytes) :
    ∃ r, h.allocFragment bytes = some r ∧ ∀ c, r = some c → Chooses h bytes c := by
  have hhuge : gpuHugePageSize = 2 ^ 21 := rfl
  have hpage : defaultGpuPageSize = 2 ^ 12 := rfl
  refine H.allocLoop_chooses hpos ?_ ?_ _ 0 bytes rfl
  · split <;> omega
  · split <;> omega

theorem Sound.allocFragment_serves (S : Sound h) {bytes : Nat} (hpos : 0 < bytes) :
    ∃ r, h.allocFragment bytes = some r ∧ ∀ p h', r = some (p, h') → Serves h bytes p h' := by
  obtain ⟨r, hr, hchoice⟩ := S.listed.allocFragment_chooses hpos
  exact ⟨r, hr, fun p h' heq => (hchoice (p, h') heq).serves S hpos⟩

/-- The block an allocation adds: it is not listed, and lies beside those that are. -/
structure Beside (h : SimpleHeap) (base size : Nat) : Prop where
  base_pos : 0 < base
  size_lt : size < 2 ^ 62
  end_le : base + size ≤ 2 ^ 64
  apart : ∀ b n, h.lengths b = some n → b + n ≤ base ∨ base + size ≤ b

theorem lengths_eq_some {b n : Nat} :
    h.lengths b = some n ↔ ∃ frags, h.blockList.find? b = some frags ∧ blockLength frags = n :=
  Option.map_eq_some_iff

theorem Beside.not_listed {base size : Nat} (B : Beside h base size) (S : Sound h)
    (hpos : 0 < size) : h.blockList.find? base = none := by
  cases hb : h.blockList.find? base with
  | none => rfl
  | some frags =>
      have := B.apart base _ (lengths_eq_some.mpr ⟨frags, hb, rfl⟩)
      have : 0 < blockLength frags := S.arenas.pos hb
      omega

/-- The effect of an allocation from a block of its own. -/
structure Adds (h : SimpleHeap) (base size bytes : Nat) (h' : SimpleHeap) : Prop where
  sound : Sound h'
  fresh : h.live base = none
  live : h'.live = Function.update h.live base (some bytes)
  lengths : h'.lengths = Function.update h.lengths base (some size)
  cache : h'.blockCache = h.blockCache
  counts : h'.counts = (h.counts.1 + 1, u64 (h.counts.2.1 + size), h.counts.2.2)

/-- The fragments of a new block. -/
theorem Sound.blockFragments_limbo (S : Sound h) {base size bytes : Nat} (hpos : 0 < bytes)
    (hle : bytes ≤ size) (B : Beside h base size) :
    ∃ fl' frags', Limbo account base (base + size) (elsewhere h.freeList base (base + size)) fl'
      frags' base bytes (fun _ => none) ∧
      blockFragments h.freeList .empty base size bytes =
        (fl', frags'.insert base (.makeUsed bytes)) := by
  have hsmall := B.size_lt
  have hvacant : ∀ m ∈ h.freeList.nodes, ¬ (base ≤ m.val ∧ m.val < base + size) := by
    rintro m hm ⟨hlo, hhi⟩
    obtain ⟨b, frags, f, hb, hf, _⟩ := S.arenas.nodes.mp hm
    have hbounds : b ≤ m.val ∧ m.val < b + blockLength frags := S.arenas.bounds hb hf
    have := B.apart b _ (lengths_eq_some.mpr ⟨frags, hb, rfl⟩)
    omega
  have hsize : (HeapFragment.makeUsed size).size = size := HeapFragment.sizeField_of_lt hsmall
  have L := Limbo.whole S.arenas (f := .makeUsed size) (by omega) hsize hvacant
  rw [blockFragments]
  split
  next hgt =>
    have hback := L.cutBack (g := .makeUsed bytes)
      (f := .makeFree h.freeList.next (size - bytes)) hpos hgt
      (HeapFragment.sizeField_of_lt (by omega)) (HeapFragment.entry_makeFree (by omega))
      (HeapFragment.linked_makeFree ..)
    have hne : base ≠ base + bytes := by omega
    refine ⟨_, _, hback, ?_⟩
    rw [OrdMap.insert_insert, OrdMap.insert_comm _ _ _ hne, OrdMap.insert_insert]
  next hgt =>
    have heq : size = bytes := by omega
    subst heq
    exact ⟨_, _, L, by rw [OrdMap.insert_insert]⟩

/-- A request up to the default size gets a block of its own without a discard. -/
theorem Sound.allocBlock_adds {σ : Type u} (A : BlockAllocator σ) (s : σ) (S : Sound h)
    {base size bytes : Nat} (hpos : 0 < bytes) (hle : bytes ≤ size) (hblock : bytes ≤ A.blockSize)
    (B : Beside h base size) :
    ∃ h', allocBlock A h s base size bytes = some (base, h', s) ∧ Adds h base size bytes h' := by
  have hnew := B.not_listed S (by omega)
  obtain ⟨fl', frags', L, hfrags⟩ := S.blockFragments_limbo hpos hle B
  have hused : (HeapFragment.makeUsed bytes).usedSize = some bytes :=
    HeapFragment.used_makeUsed (by have := B.size_lt; omega)
  obtain ⟨harena, hview⟩ :=
    L.closeUsed (g := .makeUsed bytes) hused (HeapFragment.linked_makeUsed bytes)
  obtain ⟨harenas, htotal⟩ := S.arenas.put (b := base) (by omega)
    (fun hb => by rw [hnew] at hb; cases hb)
    (fun _ hb => B.apart _ _ (lengths_eq_some.mpr ⟨_, hb, rfl⟩)) harena
  have hlength : blockLength (frags'.insert base (.makeUsed bytes)) = size := htotal
  refine ⟨({ h with inUseSize := u64 (h.inUseSize + size) } : SimpleHeap).withBlock base
    (fl', frags'.insert base (.makeUsed bytes)), ?_, ?_⟩
  · simp only [allocBlock, hnew, Option.getD_none, hfrags]
    rw [if_neg (by omega), if_neg (by omega)]
  · refine ⟨⟨harenas, ?_⟩, ?_, ?_, ?_, rfl, ?_⟩
    · intro b frags hb
      change (h.blockList.insert base _).find? b = some frags at hb
      rw [OrdMap.find?_insert] at hb
      split at hb
      next heq =>
        cases hb
        rw [heq, hlength]
        exact ⟨B.base_pos, B.size_lt, B.end_le⟩
      next => exact S.small hb
    · cases hl : h.live base with
      | none => rfl
      | some n =>
          obtain ⟨b, frags, hb, hv⟩ := S.arenas.live_eq_some.mp hl
          obtain ⟨f, hf, _⟩ := OrdMap.view_eq_some.mp hv
          have hbounds : b ≤ base ∧ base < b + blockLength frags := S.arenas.bounds hb hf
          have := B.apart b _ (lengths_eq_some.mpr ⟨frags, hb, rfl⟩)
          omega
    · refine S.arenas.live_put harenas (v := fun _ => none) ?_ ?_ hview
      · intro a n
        rw [hnew]
        simp
      · show base ≤ base ∧ base < base + total account.size _
        rw [htotal]
        omega
    · funext b
      show ((h.blockList.insert base _).find? b).map blockLength = _
      rw [OrdMap.find?_insert]
      by_cases heq : b = base
      · rw [if_pos heq, heq, Function.update_self, Option.map_some, hlength]
      · rw [if_neg heq, Function.update_of_ne heq, lengths]
    · simp only [counts, SimpleHeap.withBlock, OrdMap.length_insert, OrdMap.erase_of_none hnew]

/-! ## Release -/

/-- The state of `free` while it merges in block `b`. -/
structure Merging (h : SimpleHeap) (b n : Nat) (u : Nat → Option Nat) (g : Merge) : Prop where
  limbo : Limbo account b (b + n) (elsewhere h.freeList b (b + n)) g.freeList g.frags g.key
    g.frag.size u
  kept : g.frag.discard = false

theorem mergeLower_merging {b n addr : Nat} {u : Nat → Option Nat} {fl : MultiMap}
    {frags : OrdMap HeapFragment} {frag : HeapFragment} (hn : n < 2 ^ 62)
    (hdiscard : frag.discard = false)
    (L : Limbo account b (b + n) (elsewhere h.freeList b (b + n)) fl frags addr frag.size u) :
    Merging h b n u (mergeLower fl frags addr frag) := by
  rw [mergeLower]
  cases hp : frags.prev? addr with
  | none => exact ⟨L, hdiscard⟩
  | some e =>
      obtain ⟨key, lower⟩ := e
      simp only
      split
      next hfree =>
        obtain ⟨f, hf, _⟩ := L.stored
        obtain ⟨hlower, hlt⟩ := OrdMap.mem_of_prev? hp
        have hok := L.ok (Nat.ne_of_lt hlt) hlower
        obtain ⟨i, hi, hentry⟩ := HeapFragment.entry_of_free hok hfree
        have hkey : addr = key + lower.size :=
          L.tiles.next_eq hlower (OrdMap.next?_of_prev? hf hp)
        have hbounds : b ≤ key ∧ 0 < lower.size ∧ key + lower.size ≤ b + n := L.tiles.bounds hlower
        have := L.bounds
        have hsize : HeapFragment.sizeField (lower.size + frag.size) = lower.size + frag.size :=
          HeapFragment.sizeField_of_lt (by omega)
        simp only [HeapFragment.setSize, hsize, hi]
        exact ⟨L.joinLower (w := ⟨none, lower.size + frag.size, lower.discard, lower.isFree⟩) hp
          hentry rfl, hok.2⟩
      next => exact ⟨L, hdiscard⟩

theorem mergeUpper_merging {b n : Nat} {u : Nat → Option Nat} {g : Merge} (hn : n < 2 ^ 62)
    (M : Merging h b n u g) : Merging h b n u (mergeUpper g) := by
  rw [mergeUpper]
  cases hnext : g.frags.next? g.key with
  | none => exact M
  | some e =>
      obtain ⟨key, upper⟩ := e
      simp only
      split
      next hfree =>
        obtain ⟨f, hf, hlen⟩ := M.limbo.stored
        obtain ⟨hupper, hlt⟩ := OrdMap.mem_of_next? hnext
        obtain ⟨i, hi, hentry⟩ := HeapFragment.entry_of_free
          (M.limbo.ok (Nat.ne_of_gt hlt) hupper) hfree
        have hkey := M.limbo.tiles.next_eq hf hnext
        have hbounds : b ≤ key ∧ 0 < upper.size ∧ key + upper.size ≤ b + n :=
          M.limbo.tiles.bounds hupper
        have := M.limbo.bounds
        have hsize : HeapFragment.sizeField (g.frag.size + upper.size) = g.frag.size + upper.size :=
          HeapFragment.sizeField_of_lt (by omega)
        simp only [HeapFragment.setSize, hsize, hi]
        exact ⟨M.limbo.joinUpper (w := { g.frag with size := g.frag.size + upper.size }) hnext
          hentry rfl, M.kept⟩
      next => exact M

/-- The effect of a release that leaves the block of the fragment in use. -/
structure Returns (h : SimpleHeap) (p : Nat) (h' : SimpleHeap) : Prop where
  sound : Sound h'
  live : h'.live = Function.update h.live p none
  lengths : h'.lengths = h.lengths
  cache : h'.blockCache = h.blockCache
  counts : h'.counts = h.counts

/-- The effect of a release that empties block `b`, before the cache is balanced. -/
structure Empties (h : SimpleHeap) (p b n : Nat) (h' : SimpleHeap) : Prop where
  sound : Sound h'
  listed : h.lengths b = some n
  live : h'.live = Function.update h.live p none
  lengths : h'.lengths = Function.update h.lengths b none
  cache : h'.blockCache = h.blockCache ++ [⟨b, n⟩]
  blocks : h'.counts.1 + 1 = h.counts.1
  counters : h'.counts.2 = (sub64 h.counts.2.1 n, u64 (h.counts.2.2 + n))

/-- The merged fragment goes back to its block. -/
theorem Sound.returns (S : Sound h) {b p : Nat} {frags : OrdMap HeapFragment} {f : HeapFragment}
    (hb : h.blockList.find? b = some frags) (hf : frags.find? p = some f) {g : Merge}
    (M : Merging h b (blockLength frags)
      (Function.update (frags.view HeapFragment.usedSize) p none) g) :
    Returns h p (h.withBlock b (g.freeList.insert g.frag.size g.key,
      g.frags.insert g.key (g.frag.setFree g.freeList.next))) := by
  obtain ⟨harena, hview⟩ := M.limbo.closeFree (g := g.frag.setFree g.freeList.next) rfl
    ⟨rfl, M.kept⟩
  obtain ⟨S', hlengths⟩ := S.withBlock hb harena
  have hlength := (S.arenas.restore hb harena).2
  have hbounds := S.arenas.bounds hb hf
  refine ⟨S', S.live_withBlock hb S' hbounds.1 ?_ hview, hlengths, rfl, counts_withBlock hb _⟩
  show p < b + total account.size _
  rw [hlength]
  exact hbounds.2

/-- A block whose only fragment was merged goes to the cache. -/
theorem Sound.empties (S : Sound h) {b p : Nat} {frags : OrdMap HeapFragment} {f : HeapFragment}
    (hb : h.blockList.find? b = some frags) (hf : frags.find? p = some f) {g : Merge}
    (M : Merging h b (blockLength frags)
      (Function.update (frags.view HeapFragment.usedSize) p none) g)
    (hone : g.frags.entries.length = 1) :
    Empties h p b (blockLength frags) ⟨g.freeList, h.blockList.erase b,
      h.blockCache ++ [⟨g.key, g.frag.size⟩], sub64 h.inUseSize g.frag.size,
      u64 (h.cacheSize + g.frag.size)⟩ := by
  obtain ⟨w, hw, hlen⟩ := M.limbo.stored
  obtain ⟨hkey, hsize⟩ := M.limbo.tiles.alone hw hone
  have hsize : g.frag.size = blockLength frags := by
    rw [hlen] at hsize
    omega
  have L := M.limbo
  rw [hkey, hsize] at L
  obtain ⟨harenas, hnone⟩ := S.arenas.remove hb L
  refine ⟨⟨harenas, ?_⟩, lengths_eq_some.mpr ⟨frags, hb, rfl⟩, ?_, ?_, ?_, OrdMap.length_erase hb,
    by simp only [counts, hsize]⟩
  · intro b' frags' hb'
    change (h.blockList.erase b).find? b' = some frags' at hb'
    rw [OrdMap.find?_erase] at hb'
    split at hb'
    next => cases hb'
    next => exact S.small hb'
  · refine S.arenas.live_remove harenas hb hf ?_
    intro a ha
    have := hnone a
    rwa [Function.update_of_ne ha] at this
  · funext b'
    show ((h.blockList.erase b).find? b').map blockLength = _
    rw [OrdMap.find?_erase]
    by_cases heq : b' = b
    · rw [if_pos heq, heq, Function.update_self, Option.map_none]
    · rw [if_neg heq, Function.update_of_ne heq, lengths]
  · rw [hkey, hsize]

variable {σ : Type u} (A : BlockAllocator σ) (s : σ)

/-- `free` refuses an address that is not the base of a used fragment. -/
theorem Sound.free_of_not_live (S : Sound h) {p : Nat} (hp : p ≠ 0) (hl : h.live p = none) :
    free A h s p = (false, h, s) := by
  rw [free, if_neg hp]
  cases hlookup : h.lookup p with
  | none => rfl
  | some r =>
      obtain ⟨b, frags, f⟩ := r
      cases hfree : f.isFree with
      | true => simp [hfree]
      | false =>
          have := S.live_eq_some.mpr ⟨b, frags, f, hlookup, hfree, rfl⟩
          rw [hl] at this
          cases this

/-- `free` of the base of a used fragment. -/
theorem Sound.free_of_live (S : Sound h) {p n : Nat} (hl : h.live p = some n) :
    (∃ h', free A h s p = (true, h', s) ∧ Returns h p h') ∨
      ∃ b m h₁, free A h s p = (true, balance A h₁ s) ∧ Empties h p b m h₁ := by
  obtain ⟨b, frags, f, hlookup, hfree, hn⟩ := S.live_eq_some.mp hl
  obtain ⟨hb, hf⟩ := S.lookup_eq_some.mp hlookup
  have hok := S.arenas.ok hb hf
  have hp : p ≠ 0 := by
    have := S.arenas.bounds hb hf
    have := (S.small hb).1
    omega
  have hused : f.usedSize = some f.size := by simp [HeapFragment.usedSize, hfree]
  have hlength := (S.small hb).2.1
  have M := mergeUpper_merging hlength
    (mergeLower_merging hlength hok.2 ((S.arenas.arena hb).openUsed hf hused))
  rw [free, if_neg hp, hlookup]
  simp only [hfree, Bool.false_eq_true, if_false, release, hok.2]
  split
  next hone =>
    right
    exact ⟨b, blockLength frags, _, rfl, S.empties hb hf M hone⟩
  next =>
    left
    exact ⟨_, rfl, S.returns hb hf M⟩

/-! ## The block cache -/

/-- `balance` frees the oldest blocks of the cache. -/
theorem balanceLoop_spec (inUseSize : Nat) (cache : List HeapBlock) (cacheSize : Nat) :
    ∃ old, cache = old ++ (balanceLoop A inUseSize cache cacheSize s).1 ∧
      (balanceLoop A inUseSize cache cacheSize s).2.2 =
        old.foldl (fun s b => A.free s b.base b.length) s := by
  induction cache generalizing cacheSize s with
  | nil => exact ⟨[], rfl, rfl⟩
  | cons b rest ih =>
      cases rest with
      | nil => exact ⟨[], rfl, rfl⟩
      | cons c rest =>
          rw [balanceLoop]
          split
          next =>
            obtain ⟨old, hcache, hs⟩ := ih (A.free s b.base b.length) (sub64 cacheSize b.length)
            exact ⟨b :: old, by rw [List.cons_append, ← hcache], hs⟩
          next => exact ⟨[], rfl, rfl⟩

/-- If all blocks of the cache have one length, its size stays a multiple of it. -/
theorem balanceLoop_size {n : Nat} (inUseSize : Nat) (cache : List HeapBlock) (cacheSize : Nat)
    (hn : n < 2 ^ 64) (hlength : ∀ b ∈ cache, b.length = n)
    (hsize : cacheSize = u64 (n * cache.length)) :
    (balanceLoop A inUseSize cache cacheSize s).2.1 =
      u64 (n * (balanceLoop A inUseSize cache cacheSize s).1.length) := by
  induction cache generalizing cacheSize s with
  | nil => exact hsize
  | cons b rest ih =>
      cases rest with
      | nil => exact hsize
      | cons c rest =>
          rw [balanceLoop]
          split
          next =>
            refine ih _ (sub64 cacheSize b.length)
              (fun b' hb' => hlength b' (List.mem_cons_of_mem _ hb')) ?_
            have hb := hlength b (List.mem_cons_self ..)
            rw [hsize, hb]
            exact sub64_mul_succ hn (c :: rest).length
          next => exact hsize

/-- The invariant depends on which nodes the free list has, not on their order, and not
on the cache. -/
theorem Sound.of_nodes {h' : SimpleHeap} (S : Sound h)
    (hfree : ∀ n, n ∈ h'.freeList.nodes ↔ n ∈ h.freeList.nodes)
    (hlist : h'.blockList = h.blockList) : Sound h' := by
  obtain ⟨⟨htiles, hpos, hok, hapart, hnodes⟩, hsmall⟩ := S
  rw [← hlist] at htiles hpos hok hapart hnodes hsmall
  exact ⟨⟨htiles, hpos, hok, hapart, (hfree _).trans hnodes⟩, hsmall⟩

theorem Sound.of_lists {h' : SimpleHeap} (S : Sound h) (hfree : h'.freeList = h.freeList)
    (hlist : h'.blockList = h.blockList) : Sound h' :=
  S.of_nodes (fun n => by rw [hfree]) hlist

/-- The ways of `alloc`: a free fragment, a block of the cache, no block, a new block. -/
theorem alloc_cases {σ : Type u} {A : BlockAllocator σ} {x x' : σ} {h' : SimpleHeap} {bytes p : Nat}
    (halloc : alloc A h x bytes = some (p, h', x')) :
    (h.allocFragment bytes = some (some (p, h')) ∧ x' = x) ∨
      (h.allocFragment bytes = some none ∧
        ((∃ c, h.blockCache.getLast? = some c ∧ bytes < A.blockSize ∧
          allocBlock A { h with
            blockCache := h.blockCache.dropLast
            cacheSize := sub64 h.cacheSize c.length } x c.base c.length bytes = some (p, h', x')) ∨
        ((∀ c, h.blockCache.getLast? = some c → A.blockSize ≤ bytes) ∧
          (A.alloc x bytes).1 = none ∧ p = 0 ∧ h' = h ∧ x' = (A.alloc x bytes).2) ∨
        ∃ base size, (A.alloc x bytes).1 = some (base, size) ∧
          allocBlock A h (A.alloc x bytes).2 base size bytes = some (p, h', x'))) := by
  have hnew : alloc.allocNew A h x bytes = some (p, h', x') →
      ((A.alloc x bytes).1 = none ∧ p = 0 ∧ h' = h ∧ x' = (A.alloc x bytes).2) ∨
        ∃ base size, (A.alloc x bytes).1 = some (base, size) ∧
          allocBlock A h (A.alloc x bytes).2 base size bytes = some (p, h', x') := by
    intro hnew
    rw [alloc.allocNew] at hnew
    split at hnew
    next heq =>
      cases hnew
      rw [heq]
      exact Or.inl ⟨rfl, rfl, rfl, rfl⟩
    next base size _ heq =>
      rw [heq]
      exact Or.inr ⟨base, size, rfl, hnew⟩
  rw [alloc] at halloc
  split at halloc
  next => cases halloc
  next heq =>
    cases halloc
    exact Or.inl ⟨heq, rfl⟩
  next hfrag =>
    refine Or.inr ⟨hfrag, ?_⟩
    split at halloc
    next c hlast =>
      split at halloc
      next hlt => exact Or.inl ⟨c, hlast, hlt, halloc⟩
      next hle =>
        refine Or.inr ((hnew halloc).imp_left fun hfail => ⟨fun c' hc' => ?_, hfail⟩)
        exact Nat.le_of_not_lt hle
    next hlast =>
      refine Or.inr ((hnew halloc).imp_left fun hfail => ⟨fun c hc => ?_, hfail⟩)
      rw [hlast] at hc
      cases hc

/-! ## Alignment -/

/-- What `alloc` aligns a request to. -/
def granule (bytes : Nat) : Nat :=
  if bytes ≥ gpuHugePageSize then gpuHugePageSize else defaultGpuPageSize

theorem granule_dvd_huge (bytes : Nat) : granule bytes ∣ gpuHugePageSize := by
  rw [granule]
  split
  next => exact Nat.dvd_refl _
  next => exact ⟨2 ^ 9, rfl⟩

theorem page_dvd_granule (bytes : Nat) : defaultGpuPageSize ∣ granule bytes := by
  rw [granule]
  split
  next => exact ⟨2 ^ 9, rfl⟩
  next => exact Nat.dvd_refl _

theorem huge_dvd_word : gpuHugePageSize ∣ 2 ^ 64 := ⟨2 ^ 43, rfl⟩

theorem allocLoop_aligned {h' : SimpleHeap} {bytes align p left i alignBytes : Nat} (hdvd : align ∣ 2 ^ 64)
    (hloop : h.allocLoop bytes align left i alignBytes = some (some (p, h'))) : align ∣ p := by
  induction left generalizing i alignBytes with
  | zero => cases hloop
  | succ left ih =>
      rw [allocLoop] at hloop
      split at hloop
      next => cases hloop
      next n _ =>
        split at hloop
        next => cases hloop
        next =>
          split at hloop
          next => cases hloop
          next =>
            simp only at hloop
            split at hloop
            next hdelta =>
              cases hloop
              exact Nat.dvd_of_mod_eq_zero hdelta
            next =>
              split at hloop
              next => exact ih hloop
              next =>
                cases hloop
                exact dvd_u64_next hdvd n.val

theorem allocFragment_aligned {h' : SimpleHeap} {bytes p : Nat}
    (halloc : h.allocFragment bytes = some (some (p, h'))) : granule bytes ∣ p :=
  allocLoop_aligned (Nat.dvd_trans (granule_dvd_huge bytes) huge_dvd_word) halloc

end SimpleHeap

end RocDxg
