import RocDxg.Memory.HeapCoalesced

/-!
# Blocks out of the free list

`discardBlock` marks the fragments of a block and takes the free ones out of the free list.
Until it is given back the block stays in the list of blocks.  `kept` is the heap without
these blocks, to which the invariant of the partition applies, and `dropped` are the blocks
themselves.

The operations of the heap either leave the dropped blocks as they are and act on the others
as they act on `kept`, or change one of the dropped blocks and leave the others as they are.
`Becomes` says what an operation makes of the heap.
-/

namespace RocDxg

open Lib (OrdMap MultiMap Node TileMap Coalesced total)

namespace SimpleHeap

/-- No fragment of the block is marked for discard. -/
def keeps (frags : OrdMap HeapFragment) : Bool := frags.entries.all fun e => !e.2.discard

/-- The heap without its discarded blocks. -/
def kept (h : SimpleHeap) : SimpleHeap := { h with blockList := h.blockList.filter keeps }

theorem keeps_iff {frags : OrdMap HeapFragment} :
    keeps frags = true ↔ ∀ a f, frags.find? a = some f → f.discard = false := by
  simp only [keeps, List.all_eq_true, Bool.not_eq_eq_eq_not, Bool.not_true, Prod.forall]
  exact forall_congr' fun a => forall_congr' fun f => by rw [OrdMap.find?_eq_some]

/-- The discarded blocks. -/
def dropped (h : SimpleHeap) (b : Nat) : Option (OrdMap HeapFragment) :=
  (h.blockList.find? b).filter fun frags => !keeps frags

/-- The fragments of a discarded block tile it as those of any other block do, and all of them
are marked and out of the free list. -/
structure Dropped (b : Nat) (frags : OrdMap HeapFragment) : Prop where
  base_pos : 0 < b
  length_pos : 0 < blockLength frags
  length_lt : blockLength frags < 2 ^ 62
  end_le : b + blockLength frags ≤ 2 ^ 64
  tiles : TileMap HeapFragment.size b (b + blockLength frags) frags
  tidy : Tidy frags
  marked : ∀ a f, frags.find? a = some f → f.discard = true ∧ f.freeListEntry = none

/-- The blocks that are kept satisfy the invariant, the others are discarded ones, and all are
disjoint. -/
structure Shelved (h : SimpleHeap) : Prop where
  sound : Sound (kept h)
  tidy : AllTidy (kept h)
  dropped : ∀ b frags, h.dropped b = some frags → Dropped b frags
  apart : ∀ b n b' n', h.lengths b = some n → h.lengths b' = some n' → b < b' → b + n ≤ b'

/-- The allocation is one of a discarded block. -/
def DroppedLive (h : SimpleHeap) (a n : Nat) : Prop :=
  ∃ b frags f, h.dropped b = some frags ∧ frags.find? a = some f ∧ f.isFree = false ∧ f.size = n

/-- What an operation makes of the heap. -/
structure Becomes (h' : SimpleHeap) (live lengths : Nat → Option Nat)
    (dropped : Nat → Option (OrdMap HeapFragment)) : Prop where
  shelved : Shelved h'
  live : h'.live = live
  lengths : h'.lengths = lengths
  dropped : h'.dropped = dropped

variable {h h' : SimpleHeap}

theorem find?_kept {b : Nat} {frags : OrdMap HeapFragment} :
    (kept h).blockList.find? b = some frags ↔ h.blockList.find? b = some frags ∧ keeps frags = true :=
  OrdMap.find?_filter_eq_some

theorem dropped_eq_some {b : Nat} {frags : OrdMap HeapFragment} :
    h.dropped b = some frags ↔ h.blockList.find? b = some frags ∧ keeps frags = false := by
  simp [dropped, Option.filter_eq_some_iff]

theorem dropped_of_keeps {b : Nat} {frags : OrdMap HeapFragment}
    (hb : h.blockList.find? b = some frags) (hk : keeps frags = true) : h.dropped b = none := by
  refine Option.eq_none_iff_forall_ne_some.mpr fun frags' hd => ?_
  obtain ⟨hb', hdrop⟩ := dropped_eq_some.mp hd
  rw [hb] at hb'
  cases hb'
  rw [hk] at hdrop
  cases hdrop

theorem dropped_of_none {b : Nat} (hb : h.blockList.find? b = none) : h.dropped b = none := by
  rw [dropped, hb]
  rfl

/-- A change to one block leaves the other discarded blocks as they are. -/
theorem dropped_insert {b : Nat} {frags : OrdMap HeapFragment}
    (hlist : h'.blockList = h.blockList.insert b frags) :
    h'.dropped = Function.update h.dropped b (if keeps frags then none else some frags) := by
  funext b'
  rw [Function.update_apply]
  split
  next heq =>
    have hself : h'.blockList.find? b' = some frags := by
      rw [hlist, OrdMap.find?_insert, if_pos heq]
    split
    next hk => exact dropped_of_keeps hself hk
    next hk => exact dropped_eq_some.mpr ⟨hself, Bool.eq_false_iff.mpr hk⟩
  next hne => rw [dropped, dropped, hlist, OrdMap.find?_insert, if_neg hne]

/-- What is live is the used fragment that the lookup finds. -/
theorem live_eq_lookup {a n : Nat} :
    h.live a = some n ↔
      ∃ b frags f, h.lookup a = some (b, frags, f) ∧ f.isFree = false ∧ f.size = n := by
  have hlive : h.live a = (h.lookup a).bind fun r => r.2.2.usedSize := by
    rw [live, Lib.live, Lib.fragment?, lookup]
    cases h.blockList.floor? a with
    | none => rfl
    | some e =>
        simp only [Option.bind_some]
        cases e.2.find? a <;> rfl
  rw [hlive, Option.bind_eq_some_iff]
  constructor
  · rintro ⟨⟨b, frags, f⟩, hl, hn⟩
    refine ⟨b, frags, f, hl, ?_⟩
    cases hfree : f.isFree <;> simp_all [HeapFragment.usedSize]
  · rintro ⟨b, frags, f, hl, hfree, hn⟩
    exact ⟨(b, frags, f), hl, by simp [HeapFragment.usedSize, hfree, hn]⟩

/-- `free` refuses an address that is not the base of a used fragment. -/
theorem free_of_not_live {σ : Type u} (A : BlockAllocator σ) (s : σ) {p : Nat} (hp : p ≠ 0)
    (hl : h.live p = none) : free A h s p = (false, h, s) := by
  rw [free, if_neg hp]
  cases hlookup : h.lookup p with
  | none => rfl
  | some r =>
      obtain ⟨b, frags, f⟩ := r
      cases hfree : f.isFree with
      | true => simp [hfree]
      | false =>
          have := live_eq_lookup.mpr ⟨b, frags, f, hlookup, hfree, rfl⟩
          rw [hl] at this
          cases this

namespace Shelved

/-! ## One state -/

theorem kept_or_dropped (S : Shelved h) {b : Nat} {frags : OrdMap HeapFragment}
    (hb : h.blockList.find? b = some frags) :
    (kept h).blockList.find? b = some frags ∨ h.dropped b = some frags ∧ Dropped b frags := by
  cases hk : keeps frags with
  | true => exact Or.inl (find?_kept.mpr ⟨hb, hk⟩)
  | false =>
      have hd := dropped_eq_some.mpr ⟨hb, hk⟩
      exact Or.inr ⟨hd, S.dropped b frags hd⟩

/-- Every block of the list is tiled by its fragments. -/
theorem tiles (S : Shelved h) {b : Nat} {frags : OrdMap HeapFragment}
    (hb : h.blockList.find? b = some frags) :
    0 < b ∧ 0 < blockLength frags ∧ TileMap HeapFragment.size b (b + blockLength frags) frags := by
  rcases S.kept_or_dropped hb with hk | ⟨_, D⟩
  · exact ⟨(S.sound.small hk).1, S.sound.arenas.pos hk, S.sound.arenas.tiles hk⟩
  · exact ⟨D.base_pos, D.length_pos, D.tiles⟩

/-- Every block of the list is tidy. -/
theorem tidyBlock (S : Shelved h) {b : Nat} {frags : OrdMap HeapFragment}
    (hb : h.blockList.find? b = some frags) : Tidy frags := by
  rcases S.kept_or_dropped hb with hk | ⟨_, D⟩
  · exact S.tidy b frags hk
  · exact D.tidy

theorem lookup_eq_some (S : Shelved h) {a b : Nat} {frags : OrdMap HeapFragment}
    {f : HeapFragment} :
    h.lookup a = some (b, frags, f) ↔
      h.blockList.find? b = some frags ∧ frags.find? a = some f := by
  rw [lookup]
  constructor
  · intro hl
    split at hl
    next => cases hl
    next b' frags' hfloor =>
      obtain ⟨f', hf, heq⟩ := Option.map_eq_some_iff.mp hl
      cases heq
      exact ⟨OrdMap.find?_eq_some.mpr (OrdMap.floor?_mem hfloor).1, hf⟩
  · rintro ⟨hb, hf⟩
    have hbounds := (S.tiles hb).2.2.bounds hf
    have hfloor : h.blockList.floor? a = some (b, frags) := by
      refine OrdMap.floor?_of_gap hb hbounds.1 ?_
      intro e he hlt
      have := S.apart b _ e.1 _ (lengths_eq_some.mpr ⟨frags, hb, rfl⟩)
        (lengths_eq_some.mpr ⟨e.2, OrdMap.find?_eq_some.mpr he, rfl⟩) hlt
      omega
    rw [hfloor]
    simp [hf]

/-- An address lies in one block only. -/
theorem unique (S : Shelved h) {a b b' : Nat} {frags frags' : OrdMap HeapFragment}
    {f f' : HeapFragment} (hb : h.blockList.find? b = some frags) (hf : frags.find? a = some f)
    (hb' : h.blockList.find? b' = some frags') (hf' : frags'.find? a = some f') :
    b = b' ∧ frags = frags' ∧ f = f' := by
  have hl := S.lookup_eq_some.mpr ⟨hb, hf⟩
  rw [S.lookup_eq_some.mpr ⟨hb', hf'⟩] at hl
  cases hl
  exact ⟨rfl, rfl, rfl⟩

/-- A fragment of a kept block is found in `kept`. -/
theorem lookup_kept (S : Shelved h) {a b : Nat} {frags : OrdMap HeapFragment} {f : HeapFragment}
    (hl : h.lookup a = some (b, frags, f)) (hk : keeps frags = true) :
    (kept h).lookup a = some (b, frags, f) := by
  obtain ⟨hb, hf⟩ := S.lookup_eq_some.mp hl
  exact S.sound.lookup_eq_some.mpr ⟨find?_kept.mpr ⟨hb, hk⟩, hf⟩

theorem lookup_of_kept (S : Shelved h) {a b : Nat} {frags : OrdMap HeapFragment} {f : HeapFragment}
    (hl : (kept h).lookup a = some (b, frags, f)) :
    h.lookup a = some (b, frags, f) ∧ keeps frags = true := by
  obtain ⟨hb, hf⟩ := S.sound.lookup_eq_some.mp hl
  obtain ⟨hb, hk⟩ := find?_kept.mp hb
  exact ⟨S.lookup_eq_some.mpr ⟨hb, hf⟩, hk⟩

theorem listed (S : Shelved h) : Listed h := by
  intro n hn
  obtain ⟨hsize, hend, b, frags, hl⟩ := S.sound.listed n hn
  exact ⟨hsize, hend, b, frags, (S.lookup_of_kept hl).1⟩

/-- A block with a fragment that is not marked is kept. -/
theorem keeps_of_find? (S : Shelved h) {a b : Nat} {frags : OrdMap HeapFragment} {f : HeapFragment}
    (hl : h.lookup a = some (b, frags, f)) (hf : f.discard = false) : keeps frags = true := by
  obtain ⟨hb, hfind⟩ := S.lookup_eq_some.mp hl
  rcases S.kept_or_dropped hb with hk | ⟨_, D⟩
  · exact (find?_kept.mp hk).2
  · rw [(D.marked a f hfind).1] at hf
    cases hf

/-- What is live is live in a kept block or in a discarded one. -/
theorem live_iff (S : Shelved h) {a n : Nat} :
    h.live a = some n ↔ (kept h).live a = some n ∨ DroppedLive h a n := by
  rw [live_eq_lookup, S.sound.live_eq_some]
  constructor
  · rintro ⟨b, frags, f, hl, hfree, hn⟩
    obtain ⟨hb, hf⟩ := S.lookup_eq_some.mp hl
    rcases S.kept_or_dropped hb with hk | ⟨hd, _⟩
    · exact Or.inl ⟨b, frags, f, S.sound.lookup_eq_some.mpr ⟨hk, hf⟩, hfree, hn⟩
    · exact Or.inr ⟨b, frags, f, hd, hf, hfree, hn⟩
  · rintro (⟨b, frags, f, hl, hfree, hn⟩ | ⟨b, frags, f, hd, hf, hfree, hn⟩)
    · exact ⟨b, frags, f, (S.lookup_of_kept hl).1, hfree, hn⟩
    · exact ⟨b, frags, f, S.lookup_eq_some.mpr ⟨(dropped_eq_some.mp hd).1, hf⟩, hfree, hn⟩

theorem not_droppedLive (S : Shelved h) {a n m : Nat} (hlive : (kept h).live a = some n) :
    ¬ DroppedLive h a m := by
  rintro ⟨b, frags, f, hd, hf, _⟩
  obtain ⟨b', frags', f', hl, _⟩ := S.sound.live_eq_some.mp hlive
  obtain ⟨hl, hk⟩ := S.lookup_of_kept hl
  obtain ⟨hb', hf'⟩ := S.lookup_eq_some.mp hl
  obtain ⟨hb, hdrop⟩ := dropped_eq_some.mp hd
  obtain ⟨_, heq, _⟩ := S.unique hb' hf' hb hf
  rw [heq, hdrop] at hk
  cases hk

theorem live_pos (S : Shelved h) {a n : Nat} (hlive : h.live a = some n) : 0 < a := by
  obtain ⟨b, frags, f, hl, _⟩ := live_eq_lookup.mp hlive
  obtain ⟨hb, hf⟩ := S.lookup_eq_some.mp hl
  obtain ⟨hpos, _, ht⟩ := S.tiles hb
  have := (ht.bounds hf).1
  omega

/-- What is live lies in a block of the list. -/
theorem live_inside (S : Shelved h) {a n : Nat} (hlive : h.live a = some n) :
    ∃ b m, h.lengths b = some m ∧ b ≤ a ∧ a + n ≤ b + m := by
  obtain ⟨b, frags, f, hl, _, rfl⟩ := live_eq_lookup.mp hlive
  obtain ⟨hb, hf⟩ := S.lookup_eq_some.mp hl
  have hbounds := (S.tiles hb).2.2.bounds hf
  exact ⟨b, _, lengths_eq_some.mpr ⟨frags, hb, rfl⟩, hbounds.1, hbounds.2.2⟩

/-- Two live ranges have no address in common. -/
theorem live_apart (S : Shelved h) {a n a' n' : Nat} (hlive : h.live a = some n)
    (hlive' : h.live a' = some n') (hne : a ≠ a') : a + n ≤ a' ∨ a' + n' ≤ a := by
  obtain ⟨b, frags, f, hl, _, rfl⟩ := live_eq_lookup.mp hlive
  obtain ⟨b', frags', f', hl', _, rfl⟩ := live_eq_lookup.mp hlive'
  obtain ⟨hb, hf⟩ := S.lookup_eq_some.mp hl
  obtain ⟨hb', hf'⟩ := S.lookup_eq_some.mp hl'
  have ht := (S.tiles hb).2.2
  have ht' := (S.tiles hb').2.2
  have hbounds := ht.bounds hf
  have hbounds' := ht'.bounds hf'
  rcases Nat.lt_trichotomy b b' with hlt | heq | hlt
  · have := S.apart _ _ _ _ (lengths_eq_some.mpr ⟨frags, hb, rfl⟩)
      (lengths_eq_some.mpr ⟨frags', hb', rfl⟩) hlt
    exact Or.inl (by omega)
  · subst heq
    rw [hb] at hb'
    cases hb'
    exact ht.apart hf hf' hne
  · have := S.apart _ _ _ _ (lengths_eq_some.mpr ⟨frags', hb', rfl⟩)
      (lengths_eq_some.mpr ⟨frags, hb, rfl⟩) hlt
    exact Or.inr (by omega)

/-! ## Changes to the kept blocks -/

/-- A change that leaves the discarded blocks as they are. -/
theorem live_update (S : Shelved h) (S' : Shelved h') (hsame : h'.dropped = h.dropped) {p : Nat}
    {x : Option Nat} (hlive : (kept h').live = Function.update (kept h).live p x)
    (hp : ∀ n, ¬ DroppedLive h p n) : h'.live = Function.update h.live p x := by
  have hdropped : ∀ a n, DroppedLive h' a n ↔ DroppedLive h a n := by
    intro a n
    rw [DroppedLive, DroppedLive, hsame]
  funext a
  refine Option.ext fun n => ?_
  rw [S'.live_iff, hlive, hdropped]
  by_cases ha : a = p
  · subst ha
    rw [Function.update_self, Function.update_self]
    exact or_iff_left (hp n)
  · rw [Function.update_of_ne ha, Function.update_of_ne ha, S.live_iff]

/-- The blocks of the list are as long as before, or gone. -/
theorem apart_of_lengths (S : Shelved h)
    (hsub : ∀ b n, h'.lengths b = some n → h.lengths b = some n) :
    ∀ b n b' n', h'.lengths b = some n → h'.lengths b' = some n' → b < b' → b + n ≤ b' :=
  fun b n b' n' hb hb' => S.apart b n b' n' (hsub b n hb) (hsub b' n' hb')

/-- A block that is kept has changed, and is as long as before. -/
theorem withBlock (S : Shelved h) {b : Nat} {frags : OrdMap HeapFragment}
    {r : MultiMap × OrdMap HeapFragment} (hb : h.blockList.find? b = some frags)
    (hk : keeps frags = true) (S' : Sound ((kept h).withBlock b r))
    (ht : AllTidy ((kept h).withBlock b r))
    (hlengths : ((kept h).withBlock b r).lengths = (kept h).lengths) :
    kept (h.withBlock b r) = (kept h).withBlock b r ∧ Shelved (h.withBlock b r) ∧
      (h.withBlock b r).dropped = h.dropped ∧ (h.withBlock b r).lengths = h.lengths := by
  have hself : ((kept h).withBlock b r).blockList.find? b = some r.2 :=
    (OrdMap.find?_insert ..).trans (if_pos rfl)
  have hkr : keeps r.2 = true := keeps_iff.mpr fun a f hf => (S'.arenas.ok hself hf).2
  have hkept : kept (h.withBlock b r) = (kept h).withBlock b r := by
    simp only [kept, SimpleHeap.withBlock, OrdMap.filter_insert _ _ hkr]
  have hsame : (h.withBlock b r).dropped = h.dropped := by
    have hlist : (h.withBlock b r).blockList = h.blockList.insert b r.2 := rfl
    rw [dropped_insert hlist, if_pos hkr]
    exact Function.update_eq_self_iff.mpr (dropped_of_keeps hb hk).symm
  have hlen : (h.withBlock b r).lengths = h.lengths := by
    funext b'
    show ((h.blockList.insert b r.2).find? b').map blockLength = _
    rw [OrdMap.find?_insert, lengths]
    split
    next heq =>
      have hat := congrFun hlengths b
      rw [lengths, lengths, hself, find?_kept.mpr ⟨hb, hk⟩] at hat
      rw [heq, hb]
      exact hat
    next => rfl
  refine ⟨hkept, ⟨?_, ?_, ?_, ?_⟩, hsame, hlen⟩
  · rw [hkept]
    exact S'
  · rw [hkept]
    exact ht
  · rw [hsame]
    exact S.dropped
  · refine S.apart_of_lengths fun b' n hb' => ?_
    rwa [hlen] at hb'

/-- The effect of a search that finds a fragment. -/
theorem choose (S : Shelved h) {bytes : Nat} (hpos : 0 < bytes) {c : Nat × SimpleHeap}
    (hc : Chooses h bytes c) :
    0 < c.1 ∧ h.live c.1 = none ∧
      Becomes c.2 (Function.update h.live c.1 (some bytes)) h.lengths h.dropped := by
  have hframe : ∀ {p b frags r}, h.blockList.find? b = some frags → keeps frags = true →
      Chooses (kept h) bytes (p, (kept h).withBlock b r) →
      0 < p ∧ h.live p = none ∧ Becomes (h.withBlock b r)
        (Function.update h.live p (some bytes)) h.lengths h.dropped := by
    intro p b frags r hb hk hck
    have T := hck.serves S.sound hpos
    obtain ⟨hkept, S', hsame, hlen⟩ :=
      S.withBlock hb hk T.sound (hck.tidy S.sound S.tidy hpos) T.lengths
    have hlive : (kept (h.withBlock b r)).live p = some bytes := by
      rw [hkept, T.live, Function.update_self]
    have hnot : ∀ n, ¬ DroppedLive h p n := by
      intro n hn
      refine S'.not_droppedLive (m := n) hlive ?_
      rwa [DroppedLive, hsame]
    refine ⟨T.pos, ?_, S', S.live_update S' hsame (by rw [hkept]; exact T.live) hnot, hlen, hsame⟩
    refine Option.eq_none_iff_forall_ne_some.mpr fun n hn => ?_
    rcases S.live_iff.mp hn with hkl | hll
    · rw [T.fresh] at hkl
      cases hkl
    · exact hnot n hll
  cases hc with
  | base hl hle =>
      have hk := S.keeps_of_find? hl rfl
      exact hframe (S.lookup_eq_some.mp hl).1 hk (.base (S.lookup_kept hl hk) hle)
  | aligned hl hp hle =>
      have hk := S.keeps_of_find? hl rfl
      exact hframe (S.lookup_eq_some.mp hl).1 hk (.aligned (S.lookup_kept hl hk) hp hle)

/-! ## A block more -/

theorem lengths_kept {b n : Nat} (hb : (kept h).lengths b = some n) : h.lengths b = some n := by
  obtain ⟨frags, hf, hn⟩ := lengths_eq_some.mp hb
  exact lengths_eq_some.mpr ⟨frags, (find?_kept.mp hf).1, hn⟩

theorem not_listed (S : Shelved h) {base size : Nat} (B : Beside h base size) (hpos : 0 < size) :
    h.blockList.find? base = none := by
  cases hb : h.blockList.find? base with
  | none => rfl
  | some frags =>
      have := B.apart base _ (lengths_eq_some.mpr ⟨frags, hb, rfl⟩)
      have := (S.tiles hb).2.1
      omega

theorem not_live (S : Shelved h) {base size : Nat} (B : Beside h base size) (hpos : 0 < size) :
    h.live base = none := by
  refine Option.eq_none_iff_forall_ne_some.mpr fun n hn => ?_
  obtain ⟨b, frags, f, hl, _⟩ := live_eq_lookup.mp hn
  obtain ⟨hb, hf⟩ := S.lookup_eq_some.mp hl
  have := (S.tiles hb).2.2.bounds hf
  have := B.apart b _ (lengths_eq_some.mpr ⟨frags, hb, rfl⟩)
  omega

/-- The blocks stay apart when one is added beside them. -/
theorem apart_of_beside (S : Shelved h) {base size : Nat} (B : Beside h base size)
    (hlen : h'.lengths = Function.update h.lengths base (some size)) :
    ∀ b n b' n', h'.lengths b = some n → h'.lengths b' = some n' → b < b' → b + n ≤ b' := by
  intro b n b' n' hb hb' hlt
  rw [hlen, Function.update_apply] at hb hb'
  split at hb
  next heq =>
    cases hb
    rw [if_neg (by omega)] at hb'
    have := B.apart b' n' hb'
    omega
  next =>
    split at hb'
    next heq =>
      cases hb'
      have := B.apart b n hb
      omega
    next => exact S.apart b n b' n' hb hb' hlt

theorem lengths_insert {bl : OrdMap (OrdMap HeapFragment)} {base size : Nat}
    {frags : OrdMap HeapFragment} (hlist : h'.blockList = bl.insert base frags)
    (hbl : bl = h.blockList) (hsize : blockLength frags = size) :
    h'.lengths = Function.update h.lengths base (some size) := by
  funext b
  rw [lengths, hlist, hbl, OrdMap.find?_insert, Function.update_apply]
  split
  next => rw [Option.map_some, hsize]
  next => rfl

/-- The heap with a new block for one allocation. -/
theorem addKept (S : Shelved h) (inUse : Nat) {base size bytes : Nat} (hpos : 0 < bytes)
    (hle : bytes ≤ size) (B : Beside h base size) :
    Becomes ({ h with inUseSize := inUse }.withBlock base
        (blockFragments h.freeList .empty base size bytes))
      (Function.update h.live base (some bytes)) (Function.update h.lengths base (some size))
      h.dropped := by
  have hnew := S.not_listed B (by omega)
  have Bk : Beside (kept h) base size :=
    ⟨B.base_pos, B.size_lt, B.end_le, fun b n hb => B.apart b n (lengths_kept hb)⟩
  have hnewk : (kept h).blockList.find? base = none := OrdMap.find?_filter_of_none hnew
  -- an allocator whose blocks are as large as the request
  obtain ⟨k', hk', T⟩ := S.sound.allocBlock_adds
    (⟨bytes, fun s _ => (none, s), fun s _ _ => s⟩ : BlockAllocator Unit) () hpos hle
    (Nat.le_refl bytes) Bk
  simp only [allocBlock, hnewk, Option.getD_none, Nat.lt_irrefl, gt_iff_lt, if_false,
    if_neg (Nat.not_lt.mpr hle), Option.some.injEq, Prod.mk.injEq, true_and, and_true] at hk'
  have hfl : k'.freeList = (blockFragments h.freeList .empty base size bytes).1 := by
    rw [← hk']
    rfl
  have hbl : k'.blockList = (h.blockList.filter keeps).insert base
      (blockFragments h.freeList .empty base size bytes).2 := by
    rw [← hk']
    rfl
  have hself : k'.blockList.find? base =
      some (blockFragments h.freeList .empty base size bytes).2 := by
    rw [hbl, OrdMap.find?_insert, if_pos rfl]
  have hkr : keeps (blockFragments h.freeList .empty base size bytes).2 = true :=
    keeps_iff.mpr fun a f hf => (T.sound.arenas.ok hself hf).2
  have hkl : (h.blockList.insert base
      (blockFragments h.freeList .empty base size bytes).2).filter keeps = k'.blockList := by
    rw [OrdMap.filter_insert _ _ hkr, hbl]
  have hlen : blockLength (blockFragments h.freeList .empty base size bytes).2 = size := by
    have hat := congrFun T.lengths base
    rw [Function.update_self, lengths, hself] at hat
    exact Option.some.inj hat
  have hlengths : ({ h with inUseSize := inUse }.withBlock base
      (blockFragments h.freeList .empty base size bytes)).lengths =
        Function.update h.lengths base (some size) := lengths_insert rfl rfl hlen
  have hsame : ({ h with inUseSize := inUse }.withBlock base
      (blockFragments h.freeList .empty base size bytes)).dropped = h.dropped := by
    rw [dropped_insert (h := h) (b := base) rfl, if_pos hkr]
    exact Function.update_eq_self_iff.mpr (dropped_of_none hnew).symm
  have S' : Shelved ({ h with inUseSize := inUse }.withBlock base
      (blockFragments h.freeList .empty base size bytes)) := by
    refine ⟨T.sound.of_lists hfl.symm hkl, ?_, ?_, S.apart_of_beside B hlengths⟩
    · intro b frags hb
      change ((h.blockList.insert base _).filter keeps).find? b = some frags at hb
      rw [OrdMap.filter_insert _ _ hkr, OrdMap.find?_insert] at hb
      split at hb
      next =>
        cases hb
        exact blockFragments_tidy _ hpos B.size_lt
      next => exact S.tidy b frags hb
    · rw [hsame]
      exact S.dropped
  refine ⟨S', ?_, hlengths, hsame⟩
  refine S.live_update S' hsame ?_ ?_
  · show Lib.live _ ((h.blockList.insert base _).filter keeps) = _
    rw [hkl]
    exact T.live
  · rintro n ⟨b, frags, f, hd, hf, hfree, hn⟩
    have hlive := S.live_iff.mpr (Or.inr ⟨b, frags, f, hd, hf, hfree, hn⟩)
    rw [S.not_live B (by omega)] at hlive
    cases hlive

/-! ## Release in a kept block -/

theorem lengths_erase {b : Nat} (hlist : h'.blockList = h.blockList.erase b) :
    h'.lengths = Function.update h.lengths b none := by
  funext b'
  rw [lengths, hlist, OrdMap.find?_erase, Function.update_apply]
  split
  next => rfl
  next => rfl

theorem lengths_of_erase {b b' n : Nat} (hlen : h'.lengths = Function.update h.lengths b none)
    (hb : h'.lengths b' = some n) : h.lengths b' = some n := by
  rw [hlen, Function.update_apply] at hb
  split at hb
  next => cases hb
  next => exact hb

theorem dropped_erase {b : Nat} (hlist : h'.blockList = h.blockList.erase b) :
    h'.dropped = Function.update h.dropped b none := by
  funext b'
  rw [SimpleHeap.dropped, hlist, OrdMap.find?_erase, Function.update_apply]
  split
  next => rfl
  next => rfl

/-- A kept block has left the list. -/
theorem eraseKept (S : Shelved h) {b p : Nat} {frags : OrdMap HeapFragment}
    (hb : h.blockList.find? b = some frags) (hk : keeps frags = true)
    (hlist : h'.blockList = h.blockList.erase b) {k : SimpleHeap} (Sk : Sound k)
    (hfl : h'.freeList = k.freeList) (hkl : k.blockList = (kept h).blockList.erase b)
    (hlive : k.live = Function.update (kept h).live p none) (hnot : ∀ n, ¬ DroppedLive h p n) :
    Becomes h' (Function.update h.live p none) (Function.update h.lengths b none) h.dropped := by
  have hkept : (kept h').blockList = k.blockList := by
    show h'.blockList.filter keeps = _
    rw [hlist, OrdMap.filter_erase, hkl]
    rfl
  have hlengths := lengths_erase hlist
  have hsame : h'.dropped = h.dropped := by
    rw [dropped_erase hlist]
    exact Function.update_eq_self_iff.mpr (dropped_of_keeps hb hk).symm
  have S' : Shelved h' := by
    refine ⟨Sk.of_lists hfl hkept, ?_, ?_,
      S.apart_of_lengths fun b n hbn => lengths_of_erase hlengths hbn⟩
    · intro b' frags' hf
      rw [hkept, hkl, OrdMap.find?_erase] at hf
      split at hf
      next => cases hf
      next => exact S.tidy b' frags' hf
    · rw [hsame]
      exact S.dropped
  refine ⟨S', S.live_update S' hsame ?_ hnot, hlengths, hsame⟩
  rw [live, hkept]
  exact hlive

variable {σ : Type u} (A : BlockAllocator σ) (s : σ)

/-- `free` of an allocation of a kept block. -/
theorem free_kept (S : Shelved h) {p n : Nat} (hl : (kept h).live p = some n) :
    (∃ h', free A h s p = (true, h', s) ∧ h'.blockCache = h.blockCache ∧
        h'.inUseSize = h.inUseSize ∧ h'.cacheSize = h.cacheSize ∧
        Becomes h' (Function.update h.live p none) h.lengths h.dropped) ∨
      ∃ b m h₁, free A h s p = (true, balance A h₁ s) ∧ h.lengths b = some m ∧
        h.dropped b = none ∧ h₁.blockCache = h.blockCache ++ [⟨b, m⟩] ∧
        h₁.inUseSize = sub64 h.inUseSize m ∧ h₁.cacheSize = u64 (h.cacheSize + m) ∧
        Becomes h₁ (Function.update h.live p none) (Function.update h.lengths b none)
          h.dropped := by
  have hnot := fun m => S.not_droppedLive (m := m) hl
  obtain ⟨b, frags, f, hlk, hfree, _⟩ := S.sound.live_eq_some.mp hl
  obtain ⟨hlookup, hk⟩ := S.lookup_of_kept hlk
  obtain ⟨hb, hf⟩ := S.lookup_eq_some.mp hlookup
  have hbk := find?_kept.mpr ⟨hb, hk⟩
  have hp : p ≠ 0 := Nat.ne_of_gt (S.live_pos (S.live_iff.mpr (Or.inl hl)))
  have hok := S.sound.arenas.ok hbk hf
  have hused : f.usedSize = some f.size := by simp [HeapFragment.usedSize, hfree]
  have hlength := (S.sound.small hbk).2.1
  have M := mergeUpper_merging hlength
    (mergeLower_merging hlength hok.2 ((S.sound.arenas.arena hbk).openUsed hf hused))
  have htidy := S.sound.free_tidy A s S.tidy p
  rw [free, if_neg hp, hlk] at htidy
  simp only [hfree, Bool.false_eq_true, if_false, release, hok.2] at htidy
  rw [free, if_neg hp, hlookup]
  simp only [hfree, Bool.false_eq_true, if_false, release, hok.2]
  split
  next hone =>
    right
    have E := S.sound.empties hbk hf M hone
    have hinUse := congrArg Prod.fst E.counters
    have hcacheSize := congrArg Prod.snd E.counters
    refine ⟨b, blockLength frags, _, rfl, lengths_eq_some.mpr ⟨frags, hb, rfl⟩,
      dropped_of_keeps hb hk, E.cache, hinUse, hcacheSize, ?_⟩
    exact S.eraseKept hb hk rfl (k := ⟨_, _, _, _, _⟩) E.sound rfl rfl E.live hnot
  next hmany =>
    left
    have hmany' : ¬ (mergeUpper (mergeLower (kept h).freeList frags p f)).frags.entries.length = 1 :=
      hmany
    rw [if_neg hmany'] at htidy
    have R := S.sound.returns hbk hf M
    obtain ⟨hkept, S', hsame, hlen⟩ := S.withBlock hb hk R.sound htidy R.lengths
    exact ⟨_, rfl, rfl, rfl, rfl, S', S.live_update S' hsame (by rw [hkept]; exact R.live) hnot, hlen,
      hsame⟩

end Shelved

/-! ## Release in a discarded block -/

/-- The fragment below an address is free. -/
def lowerFree (frags : OrdMap HeapFragment) (p : Nat) : Bool :=
  match frags.prev? p with
  | some (_, lower) => lower.isFree
  | none => false

theorem lowerFree_eq_true {frags : OrdMap HeapFragment} {p : Nat} :
    lowerFree frags p = true ↔ ∃ key lower, frags.prev? p = some (key, lower) ∧ lower.isFree = true := by
  rw [lowerFree]
  cases frags.prev? p with
  | none => simp
  | some e => exact ⟨fun hfree => ⟨e.1, e.2, rfl, hfree⟩, by
      rintro ⟨key, lower, heq, hfree⟩
      cases heq
      exact hfree⟩

theorem mergeLower_of_used {fl : MultiMap} {frags : OrdMap HeapFragment} {p : Nat}
    {f : HeapFragment} (hlow : lowerFree frags p = false) :
    mergeLower fl frags p f = ⟨fl, frags, p, f⟩ := by
  rw [lowerFree] at hlow
  rw [mergeLower]
  split at hlow
  next heq =>
    rw [heq]
    simp [hlow]
  next heq => rw [heq]

/-- `free` of the fragment at `p` has merged in a discarded block. -/
structure Joined (b : Nat) (frags : OrdMap HeapFragment) (fl : MultiMap) (p : Nat) (g : Merge)
    (upper : Bool) : Prop where
  isolated : Isolated g upper
  tiles : TileMap HeapFragment.size b (b + blockLength frags) g.frags
  freeList : g.freeList = fl
  marked : ∀ a f, g.frags.find? a = some f → f.discard = true ∧ f.freeListEntry = none
  isFree : g.frag.isFree = lowerFree frags p
  sub : ∀ a f, g.frags.find? a = some f → a = g.key ∨ a ≠ p ∧ frags.find? a = some f
  used : ∀ a f, frags.find? a = some f → f.isFree = false → a ≠ p →
    a ≠ g.key ∧ g.frags.find? a = some f

namespace Dropped

variable {b p : Nat} {frags : OrdMap HeapFragment} {f : HeapFragment}

theorem mergeLower_joined (D : Dropped b frags) (fl : MultiMap) (hf : frags.find? p = some f)
    (hused : f.isFree = false) : Joined b frags fl p (mergeLower fl frags p f) false := by
  have I := mergeLower_isolated fl D.tidy.merged D.tiles (Nat.add_lt_add_left D.length_lt b) hf
  cases hlow : lowerFree frags p with
  | false =>
      rw [mergeLower_of_used hlow] at I ⊢
      refine ⟨I, D.tiles, rfl, D.marked, hused.trans hlow.symm, ?_, fun a f' hf' _ hne => ⟨hne, hf'⟩⟩
      intro a f' hf'
      by_cases ha : a = p
      · exact Or.inl ha
      · exact Or.inr ⟨ha, hf'⟩
  | true =>
      obtain ⟨key, lower, hp, hfree⟩ := lowerFree_eq_true.mp hlow
      obtain ⟨hlower, hlt⟩ := OrdMap.mem_of_prev? hp
      obtain ⟨hmark, hentry⟩ := D.marked key lower hlower
      have hnext := OrdMap.next?_of_prev? hf hp
      have hmeet := D.tiles.next_eq hlower hnext
      have hbounds := D.tiles.bounds hlower
      have hbounds' := D.tiles.bounds hf
      have hlt' := D.length_lt
      have hsize : HeapFragment.sizeField (lower.size + f.size) = lower.size + f.size :=
        HeapFragment.sizeField_of_lt (by omega)
      have heq : mergeLower fl frags p f = ⟨fl, (frags.erase p).insert key
          ⟨none, lower.size + f.size, true, true⟩, key,
          ⟨none, lower.size + f.size, true, true⟩⟩ := by
        simp [mergeLower, hp, hfree, HeapFragment.setSize, hsize, hentry, hmark, eraseEntry]
      rw [heq] at I ⊢
      have hfind : ∀ a, ((frags.erase p).insert key
          ⟨none, lower.size + f.size, true, true⟩).find? a =
          if a = key then some ⟨none, lower.size + f.size, true, true⟩
          else if a = p then none else frags.find? a := by
        intro a
        rw [OrdMap.find?_insert, OrdMap.find?_erase]
      refine ⟨I, D.tiles.join hlower hnext rfl, rfl, ?_, ?_, ?_, ?_⟩
      · intro a f' hf'
        rw [hfind] at hf'
        split at hf'
        next =>
          cases hf'
          exact ⟨rfl, rfl⟩
        next =>
          split at hf'
          next => cases hf'
          next => exact D.marked a f' hf'
      · exact hlow.symm
      · intro a f' hf'
        rw [hfind] at hf'
        split at hf'
        next ha => exact Or.inl ha
        next =>
          split at hf'
          next => cases hf'
          next ha => exact Or.inr ⟨ha, hf'⟩
      · intro a f' hf' hused' hne
        have hkey : a ≠ key := by
          rintro rfl
          rw [hlower] at hf'
          cases hf'
          rw [hfree] at hused'
          cases hused'
        rw [hfind, if_neg hkey, if_neg hne]
        exact ⟨hkey, hf'⟩

/-- The fragment above is merged too. -/
theorem mergeUpper_joined (D : Dropped b frags) {fl : MultiMap} {g : Merge}
    (J : Joined b frags fl p g false) : Joined b frags fl p (mergeUpper g) true := by
  have I := mergeUpper_isolated J.tiles (Nat.add_lt_add_left D.length_lt b) J.isolated
  rw [mergeUpper] at I ⊢
  cases hn : g.frags.next? g.key with
  | none =>
      rw [hn] at I
      exact ⟨I, J.tiles, J.freeList, J.marked, J.isFree, J.sub, J.used⟩
  | some e =>
      obtain ⟨key, upper⟩ := e
      rw [hn] at I
      simp only at I ⊢
      cases hfree : upper.isFree with
      | false =>
          simp only [hfree, Bool.false_eq_true, if_false] at I ⊢
          exact ⟨I, J.tiles, J.freeList, J.marked, J.isFree, J.sub, J.used⟩
      | true =>
          simp only [hfree, if_true] at I ⊢
          obtain ⟨hupper, hlt⟩ := OrdMap.mem_of_next? hn
          have hstored := J.isolated.stored
          obtain ⟨hmark, hentry⟩ := J.marked g.key g.frag hstored
          have hbounds := J.tiles.bounds hupper
          have hbounds' := J.tiles.bounds hstored
          have hmeet := J.tiles.next_eq hstored hn
          have hlt' := D.length_lt
          have hsize : HeapFragment.sizeField (g.frag.size + upper.size) = g.frag.size + upper.size :=
            HeapFragment.sizeField_of_lt (by omega)
          have hfind : ∀ a w, ((g.frags.erase key).insert g.key w).find? a =
              if a = g.key then some w else if a = key then none else g.frags.find? a := by
            intro a w
            rw [OrdMap.find?_insert, OrdMap.find?_erase]
          refine ⟨I, J.tiles.join hstored hn hsize, ?_, ?_, J.isFree, ?_, ?_⟩
          · show eraseEntry g.freeList upper.freeListEntry = fl
            rw [(J.marked key upper hupper).2]
            exact J.freeList
          · intro a f' hf'
            rw [hfind] at hf'
            split at hf'
            next =>
              cases hf'
              exact ⟨hmark, hentry⟩
            next =>
              split at hf'
              next => cases hf'
              next => exact J.marked a f' hf'
          · intro a f' hf'
            rw [hfind] at hf'
            split at hf'
            next ha => exact Or.inl ha
            next =>
              split at hf'
              next => cases hf'
              next => exact J.sub a f' hf'
          · intro a f' hf' hused' hne
            obtain ⟨hself, hold⟩ := J.used a f' hf' hused' hne
            have hkey : a ≠ key := by
              rintro rfl
              rw [hupper] at hold
              cases hold
              rw [hfree] at hused'
              cases hused'
            rw [hfind, if_neg hself, if_neg hkey]
            exact ⟨hself, hold⟩

theorem mergeUpper_mergeLower (D : Dropped b frags) (fl : MultiMap) (hf : frags.find? p = some f)
    (hused : f.isFree = false) :
    Joined b frags fl p (mergeUpper (mergeLower fl frags p f)) true :=
  D.mergeUpper_joined (D.mergeLower_joined fl hf hused)

theorem keeps_eq_false (D : Dropped b frags) : keeps frags = false := by
  obtain ⟨a, g, hg, _⟩ := D.tidy.busy
  refine Bool.eq_false_iff.mpr fun hk => ?_
  have hmark := keeps_iff.mp hk a g hg
  rw [(D.marked a g hg).1] at hmark
  cases hmark

end Dropped

namespace Joined

variable {b p : Nat} {frags : OrdMap HeapFragment} {fl : MultiMap} {g : Merge}

/-- The last used fragment of a block takes in all of it. -/
theorem whole (J : Joined b frags fl p g true) (hpos : 0 < blockLength frags)
    (hlast : ∀ a f, frags.find? a = some f → f.isFree = false → a = p) :
    g.frags.entries.length = 1 ∧ g.key = b ∧ g.frag.size = blockLength frags := by
  have hstored := J.isolated.stored
  have hbounds := J.tiles.bounds hstored
  have hfree : ∀ a f, g.frags.find? a = some f → a ≠ g.key → f.isFree = true := by
    intro a f hf hne
    rcases J.sub a f hf with heq | ⟨hp, hold⟩
    · exact absurd heq hne
    · by_contra hused
      exact hp (hlast a f hold (Bool.eq_false_iff.mpr hused))
  have hkey : g.key = b := by
    by_contra hne
    obtain ⟨k, v, hv, hlo, hhi⟩ := J.tiles.cover (a := g.key - 1) (by omega) (by omega)
    have hpart := J.tiles.apart hv hstored (by omega)
    have hlow := J.isolated.lower hv (by omega)
    rw [hfree k v hv (by omega)] at hlow
    cases hlow
  have hend : g.key + g.frag.size = b + blockLength frags := by
    by_contra hne
    obtain ⟨k, v, hv, hlo, hhi⟩ := J.tiles.cover (a := g.key + g.frag.size) (by omega) (by omega)
    have hk : k ≠ g.key := by
      rintro rfl
      rw [hstored] at hv
      cases hv
      omega
    have hpart := J.tiles.apart hv hstored hk
    have heq : k = g.key + g.frag.size := by omega
    have hup := J.isolated.upper rfl (heq ▸ hv)
    rw [hfree k v hv hk] at hup
    cases hup
  refine ⟨?_, hkey, by omega⟩
  have hcut := OrdMap.entries_of_find? hstored
  have hothers : ∀ e ∈ g.frags.entries, e.1 = g.key := by
    intro e he
    by_contra hne
    have hv := OrdMap.find?_eq_some.mpr he
    have := J.tiles.bounds hv
    have := J.tiles.apart hv hstored hne
    omega
  have hbelow : g.frags.below g.key = [] := by
    refine List.eq_nil_iff_forall_not_mem.mpr fun e he => ?_
    obtain ⟨hmem, hlt⟩ := OrdMap.mem_below.mp he
    have := hothers e hmem
    omega
  have habove : g.frags.above g.key = [] := by
    refine List.eq_nil_iff_forall_not_mem.mpr fun e he => ?_
    obtain ⟨hmem, hlt⟩ := OrdMap.mem_above.mp he
    have := hothers e hmem
    omega
  rw [hcut, hbelow, habove]
  rfl

/-- The block stays a discarded one while another fragment is used. -/
theorem dropped (J : Joined b frags fl p g true) (D : Dropped b frags) {a : Nat} {f : HeapFragment}
    (hf : frags.find? a = some f)
    (hused : f.isFree = false) (hne : a ≠ p) :
    Dropped b g.frags ∧ blockLength g.frags = blockLength frags ∧
      g.frags.entries.length ≠ 1 := by
  have hstored := J.isolated.stored
  have hlen : blockLength g.frags = blockLength frags := by
    have := J.tiles.hi_eq
    rw [blockLength]
    omega
  obtain ⟨hkey, hold⟩ := J.used a f hf hused hne
  have hmany : g.frags.entries.length ≠ 1 := by
    intro hone
    obtain ⟨e, he⟩ := List.length_eq_one_iff.mp hone
    have h₁ := OrdMap.find?_eq_some.mp hold
    have h₂ := OrdMap.find?_eq_some.mp hstored
    rw [he, List.mem_singleton] at h₁ h₂
    rw [← h₁] at h₂
    exact hkey (congrArg Prod.fst h₂).symm
  have hmerged : Coalesced HeapFragment.size HeapFragment.isFree g.frags := by
    have hclose := J.isolated.parted.closeFree (g := g.frag) J.isolated.lower
      (J.isolated.upper rfl) (J.tiles.bounds hstored).2.1
    have hself : g.frags.insert g.key g.frag = g.frags := by
      refine OrdMap.ext_find? fun k => ?_
      rw [OrdMap.find?_insert]
      split
      next heq => rw [heq, hstored]
      next => rfl
    rwa [hself] at hclose
  refine ⟨⟨D.base_pos, ?_, ?_, ?_, ?_, ⟨hmerged, a, f, hold, hused⟩, J.marked⟩, hlen, hmany⟩
  · rw [hlen]
    exact D.length_pos
  · rw [hlen]
    exact D.length_lt
  · rw [hlen]
    exact D.end_le
  · rw [hlen]
    exact J.tiles

end Joined

namespace Shelved

variable {b p : Nat} {frags frags' : OrdMap HeapFragment} {f : HeapFragment}

/-- A discarded block has changed, or has left the list. -/
theorem kept_insert (hd : h.dropped b = some frags) (hk : keeps frags' = false) :
    (h.blockList.insert b frags').filter keeps = h.blockList.filter keeps := by
  refine OrdMap.ext_find? fun b' => ?_
  obtain ⟨hb, hdrop⟩ := dropped_eq_some.mp hd
  by_cases heq : b' = b
  · subst heq
    rw [OrdMap.find?_filter_of_find? (by rw [OrdMap.find?_insert, if_pos rfl]),
      OrdMap.find?_filter_of_find? hb, hk, hdrop]
    rfl
  · cases hb' : h.blockList.find? b' with
    | none =>
        rw [OrdMap.find?_filter_of_none hb', OrdMap.find?_filter_of_none (by
          rw [OrdMap.find?_insert, if_neg heq, hb'])]
    | some x =>
        rw [OrdMap.find?_filter_of_find? hb', OrdMap.find?_filter_of_find? (by
          rw [OrdMap.find?_insert, if_neg heq, hb'])]

/-- A discarded block has changed, and is as long as before. -/
theorem setDropped (S : Shelved h) (hd : h.dropped b = some frags) (D' : Dropped b frags')
    (hlen : blockLength frags' = blockLength frags) :
    Shelved (h.withBlock b (h.freeList, frags')) ∧
      (kept (h.withBlock b (h.freeList, frags'))).live = (kept h).live ∧
      (h.withBlock b (h.freeList, frags')).lengths = h.lengths ∧
      (h.withBlock b (h.freeList, frags')).dropped = Function.update h.dropped b (some frags') := by
  obtain ⟨hb, _⟩ := dropped_eq_some.mp hd
  have hk := D'.keeps_eq_false
  have hlist : (h.withBlock b (h.freeList, frags')).blockList = h.blockList.insert b frags' := rfl
  have hkept : (kept (h.withBlock b (h.freeList, frags'))).blockList = (kept h).blockList :=
    kept_insert hd hk
  have hdropped : (h.withBlock b (h.freeList, frags')).dropped =
      Function.update h.dropped b (some frags') := by
    rw [dropped_insert hlist, if_neg (by rw [hk]; decide)]
  have hlengths : (h.withBlock b (h.freeList, frags')).lengths = h.lengths := by
    rw [lengths_insert hlist rfl hlen]
    exact Function.update_eq_self_iff.mpr (lengths_eq_some.mpr ⟨frags, hb, rfl⟩).symm
  refine ⟨⟨S.sound.of_lists rfl hkept, ?_, ?_, ?_⟩, by rw [live, live, hkept], hlengths, hdropped⟩
  · intro b' fm hf
    rw [hkept] at hf
    exact S.tidy b' fm hf
  · intro b' fm hf
    rw [hdropped, Function.update_apply] at hf
    split at hf
    next heq =>
      cases hf
      exact heq ▸ D'
    next => exact S.dropped b' fm hf
  · refine S.apart_of_lengths fun b' n hb' => ?_
    rwa [hlengths] at hb'

/-- What is live is told by the kept blocks and the discarded ones. -/
theorem live_congr (S : Shelved h) (S' : Shelved h') {p : Nat}
    (hkept : (kept h').live = (kept h).live) (hp : (kept h).live p = none)
    (hdropped : ∀ a n, DroppedLive h' a n ↔ a ≠ p ∧ DroppedLive h a n) :
    h'.live = Function.update h.live p none := by
  funext a
  refine Option.ext fun n => ?_
  rw [S'.live_iff, hkept, hdropped]
  by_cases ha : a = p
  · subst ha
    rw [Function.update_self, hp]
    simp
  · rw [Function.update_of_ne ha, S.live_iff]
    exact or_congr_right (and_iff_right ha)

/-- An address of a discarded block is not live in a kept one. -/
theorem kept_live_eq_none (S : Shelved h) (hd : h.dropped b = some frags)
    (hf : frags.find? p = some f) (hused : f.isFree = false) : (kept h).live p = none := by
  refine Option.eq_none_iff_forall_ne_some.mpr fun n hn => ?_
  exact S.not_droppedLive hn ⟨b, frags, f, hd, hf, hused, rfl⟩

/-- Which allocations a change to a discarded block leaves. -/
theorem droppedLive_update {x : Option (OrdMap HeapFragment)} (S : Shelved h)
    (hd : h.dropped b = some frags) (hf : frags.find? p = some f)
    (hdropped : h'.dropped = Function.update h.dropped b x)
    (hx : ∀ a g, (∃ fm, x = some fm ∧ fm.find? a = some g ∧ g.isFree = false) ↔
      a ≠ p ∧ frags.find? a = some g ∧ g.isFree = false) (a n : Nat) :
    DroppedLive h' a n ↔ a ≠ p ∧ DroppedLive h a n := by
  obtain ⟨hb, _⟩ := dropped_eq_some.mp hd
  rw [DroppedLive, hdropped]
  constructor
  · rintro ⟨b', fm, g, hd', hg, hused, hn⟩
    rw [Function.update_apply] at hd'
    split at hd'
    next heq =>
      obtain ⟨hne, hg, hused⟩ := (hx a g).mp ⟨fm, hd', hg, hused⟩
      exact ⟨hne, b, frags, g, hd, hg, hused, hn⟩
    next hne =>
      refine ⟨?_, b', fm, g, hd', hg, hused, hn⟩
      rintro rfl
      exact hne (S.unique (dropped_eq_some.mp hd').1 hg hb hf).1
  · rintro ⟨hne, b', fm, g, hd', hg, hused, hn⟩
    by_cases heq : b' = b
    · subst heq
      rw [hd] at hd'
      cases hd'
      obtain ⟨fm, hfm, hg, hused⟩ := (hx a g).mpr ⟨hne, hg, hused⟩
      exact ⟨b', fm, g, by rw [Function.update_self, hfm], hg, hused, hn⟩
    · exact ⟨b', fm, g, by rw [Function.update_of_ne heq, hd'], hg, hused, hn⟩

variable {σ : Type u} (A : BlockAllocator σ) (s : σ)

/-- `free` of the last allocation of a discarded block gives the block back. -/
theorem free_last (S : Shelved h) (hd : h.dropped b = some frags) (hf : frags.find? p = some f)
    (hused : f.isFree = false)
    (hlast : ∀ a f, frags.find? a = some f → f.isFree = false → a = p) :
    free A h s p = (true, balance A { h with blockList := h.blockList.erase b }
        (A.free s b (blockLength frags))) ∧
      Becomes { h with blockList := h.blockList.erase b } (Function.update h.live p none)
        (Function.update h.lengths b none) (Function.update h.dropped b none) := by
  have D := S.dropped b frags hd
  obtain ⟨hb, hk⟩ := dropped_eq_some.mp hd
  have hlookup := S.lookup_eq_some.mpr ⟨hb, hf⟩
  have J := D.mergeUpper_mergeLower h.freeList hf hused
  obtain ⟨hone, hkey, hsize⟩ := J.whole D.length_pos hlast
  have hp : p ≠ 0 := by
    have := (D.tiles.bounds hf).1
    have := D.base_pos
    omega
  refine ⟨?_, ?_⟩
  · rw [free, if_neg hp, hlookup]
    simp only [hused, Bool.false_eq_true, if_false, release, hone, if_true, (D.marked p f hf).1,
      J.freeList, hkey, hsize]
  · have hlist : ({ h with blockList := h.blockList.erase b } : SimpleHeap).blockList =
        h.blockList.erase b := rfl
    have hkept : (kept { h with blockList := h.blockList.erase b }).blockList =
        (kept h).blockList := by
      show (h.blockList.erase b).filter keeps = h.blockList.filter keeps
      rw [OrdMap.filter_erase]
      refine OrdMap.erase_of_none ?_
      rw [OrdMap.find?_filter_of_find? hb, hk]
      rfl
    have hlengths := lengths_erase hlist
    have hdropped := dropped_erase hlist
    have S' : Shelved { h with blockList := h.blockList.erase b } := by
      refine ⟨S.sound.of_lists rfl hkept, ?_, ?_,
        S.apart_of_lengths fun b n hbn => lengths_of_erase hlengths hbn⟩
      · intro b' fm hfm
        rw [hkept] at hfm
        exact S.tidy b' fm hfm
      · intro b' fm hfm
        rw [hdropped, Function.update_apply] at hfm
        split at hfm
        next => cases hfm
        next => exact S.dropped b' fm hfm
    refine ⟨S', ?_, hlengths, hdropped⟩
    refine S.live_congr S' (by rw [live, live, hkept]) (S.kept_live_eq_none hd hf hused)
      (S.droppedLive_update hd hf hdropped ?_)
    intro a g
    constructor
    · rintro ⟨fm, hfm, _⟩
      cases hfm
    · rintro ⟨hne, hg, hfree⟩
      exact absurd (hlast a g hg hfree) hne

/-- `free` of an allocation of a discarded block with a free fragment below it. -/
theorem free_lower (S : Shelved h) (hd : h.dropped b = some frags) (hf : frags.find? p = some f)
    (hused : f.isFree = false) (hlow : lowerFree frags p = true) {a : Nat} {g : HeapFragment}
    (hg : frags.find? a = some g) (hother : g.isFree = false) (hne : a ≠ p) :
    ∃ frags', free A h s p = (true, h.withBlock b (h.freeList, frags'), s) ∧
      Becomes (h.withBlock b (h.freeList, frags')) (Function.update h.live p none) h.lengths
        (Function.update h.dropped b (some frags')) := by
  have D := S.dropped b frags hd
  obtain ⟨hb, hk⟩ := dropped_eq_some.mp hd
  have hlookup := S.lookup_eq_some.mpr ⟨hb, hf⟩
  have J := D.mergeUpper_mergeLower h.freeList hf hused
  obtain ⟨D', hlen, hmany⟩ := J.dropped D hg hother hne
  have hp : p ≠ 0 := by
    have := (D.tiles.bounds hf).1
    have := D.base_pos
    omega
  refine ⟨(mergeUpper (mergeLower h.freeList frags p f)).frags, ?_, ?_⟩
  · rw [free, if_neg hp, hlookup]
    simp only [hused, Bool.false_eq_true, if_false, release, if_neg hmany, (D.marked p f hf).1,
      if_true, J.freeList]
  · obtain ⟨S', hkept, hlengths, hdropped⟩ := S.setDropped hd D' hlen
    refine ⟨S', ?_, hlengths, hdropped⟩
    refine S.live_congr S' hkept (S.kept_live_eq_none hd hf hused)
      (S.droppedLive_update hd hf hdropped ?_)
    intro a g
    have hfree := J.isFree.trans hlow
    constructor
    · rintro ⟨fm, hfm, hg, hused'⟩
      cases hfm
      rcases J.sub a g hg with heq | ⟨hne, hold⟩
      · rw [heq, J.isolated.stored] at hg
        cases hg
        rw [hfree] at hused'
        cases hused'
      · exact ⟨hne, hold, hused'⟩
    · rintro ⟨hne, hg, hused'⟩
      exact ⟨_, rfl, (J.used a g hg hused' hne).2, hused'⟩

end Shelved

/-! ## Discarding a block -/

/-- `discard` on one fragment. -/
def marked (f : HeapFragment) : HeapFragment := { f with freeListEntry := none, discard := true }

/-- The loop of `discardBlock` over a list of fragments. -/
theorem discard_foldl (l : List (Nat × HeapFragment)) (fl : MultiMap) (m : OrdMap HeapFragment)
    (hl : ∀ e ∈ l, (m.find? e.1).map marked = some (marked e.2)) :
    (∀ a, (l.foldl (fun r e => (eraseEntry r.1 e.2.freeListEntry, r.2.insert e.1 (marked e.2)))
        (fl, m)).2.find? a =
        if a ∈ l.map Prod.fst then (m.find? a).map marked else m.find? a) ∧
      ∀ n, n ∈ (l.foldl (fun r e => (eraseEntry r.1 e.2.freeListEntry, r.2.insert e.1 (marked e.2)))
        (fl, m)).1.nodes ↔ n ∈ fl.nodes ∧ ∀ e ∈ l, e.2.freeListEntry ≠ some n.id := by
  induction l generalizing fl m with
  | nil => simp
  | cons e l ih =>
      have hself := hl e List.mem_cons_self
      have hnext : ∀ e' ∈ l,
          ((m.insert e.1 (marked e.2)).find? e'.1).map marked = some (marked e'.2) := by
        intro e' he'
        have hold := hl e' (List.mem_cons_of_mem _ he')
        rw [OrdMap.find?_insert]
        split
        next heq =>
          rw [heq, hself] at hold
          exact hold
        next => exact hold
      obtain ⟨hfind, hnodes⟩ := ih (eraseEntry fl e.2.freeListEntry) (m.insert e.1 (marked e.2)) hnext
      refine ⟨?_, ?_⟩
      · intro a
        rw [List.foldl_cons, hfind, List.map_cons, OrdMap.find?_insert]
        by_cases ha : a = e.1
        · subst ha
          simp only [if_true, List.mem_cons, true_or, hself, Option.map_some]
          split <;> rfl
        · rw [if_neg ha]
          simp only [List.mem_cons, ha, false_or]
      · intro n
        rw [List.foldl_cons, hnodes, List.forall_mem_cons]
        cases hentry : e.2.freeListEntry with
        | none => simp [eraseEntry]
        | some i =>
            simp only [eraseEntry, MultiMap.mem_erase, ne_eq, Option.some.injEq]
            constructor
            · rintro ⟨⟨hn, hid⟩, hrest⟩
              exact ⟨hn, fun heq => hid heq.symm, hrest⟩
            · rintro ⟨hn, hid, hrest⟩
              exact ⟨⟨hn, fun heq => hid heq.symm⟩, hrest⟩

/-- What `discard` on every fragment of a block does. -/
theorem discardAll_spec (fl : MultiMap) (frags : OrdMap HeapFragment) :
    (discardAll fl frags).2 = frags.mapVal marked ∧
      ∀ n, n ∈ (discardAll fl frags).1.nodes ↔
        n ∈ fl.nodes ∧ ∀ a f, frags.find? a = some f → f.freeListEntry ≠ some n.id := by
  obtain ⟨hfind, hnodes⟩ := discard_foldl frags.entries fl frags (by
    intro e he
    rw [OrdMap.find?_eq_some.mpr he]
    rfl)
  refine ⟨OrdMap.ext_find? fun a => ?_, fun n => ?_⟩
  · rw [OrdMap.find?_mapVal]
    refine (hfind a).trans ?_
    split
    next => rfl
    next hout =>
      have hnone : frags.find? a = none := by
        refine Option.eq_none_iff_forall_ne_some.mpr fun f hf => hout ?_
        exact List.mem_map.mpr ⟨(a, f), OrdMap.find?_eq_some.mp hf, rfl⟩
      rw [hnone]
      rfl
  · refine (hnodes n).trans (and_congr_right fun _ => ?_)
    constructor
    · exact fun hall a f hf => hall (a, f) (OrdMap.find?_eq_some.mp hf)
    · exact fun hall e he => hall e.1 e.2 (OrdMap.find?_eq_some.mpr he)

/-- A block of the partition, once it is marked. -/
theorem Sound.dropped_mapVal (S : Sound h) (ht : AllTidy h) {b : Nat} {frags : OrdMap HeapFragment}
    (hb : h.blockList.find? b = some frags) :
    Dropped b (frags.mapVal marked) ∧ blockLength (frags.mapVal marked) = blockLength frags := by
  have htiles : TileMap HeapFragment.size b (b + blockLength frags) frags := S.arenas.tiles hb
  obtain ⟨hmap, hlen⟩ := htiles.mapVal (g := marked) fun _ => rfl
  have hlen : blockLength (frags.mapVal marked) = blockLength frags := hlen
  obtain ⟨hpos, hlt, hend⟩ := S.small hb
  obtain ⟨hmerged, a, f, hf, hused⟩ := ht b frags hb
  refine ⟨⟨hpos, ?_, ?_, ?_, ?_, ⟨?_, a, marked f, ?_, hused⟩, ?_⟩, hlen⟩
  · rw [hlen]
    exact S.arenas.pos hb
  · rw [hlen]
    exact hlt
  · rw [hlen]
    exact hend
  · rw [hlen]
    exact hmap
  · intro k g g' hg hfree hg'
    rw [OrdMap.find?_mapVal, Option.map_eq_some_iff] at hg hg'
    obtain ⟨x, hx, rfl⟩ := hg
    obtain ⟨x', hx', rfl⟩ := hg'
    show x'.isFree = false
    exact hmerged hx hfree hx'
  · rw [OrdMap.find?_mapVal, hf]
    rfl
  · intro k g hg
    rw [OrdMap.find?_mapVal, Option.map_eq_some_iff] at hg
    obtain ⟨x, _, rfl⟩ := hg
    exact ⟨rfl, rfl⟩

namespace Shelved

variable {b : Nat} {frags : OrdMap HeapFragment}

/-- A block that is marked leaves `kept`. -/
theorem kept_dropped {marks : OrdMap HeapFragment} (hdrop : keeps marks = false)
    (hlist : h'.blockList = h.blockList.insert b marks) :
    (kept h').blockList = (kept h).blockList.erase b := by
  show h'.blockList.filter keeps = _
  rw [hlist]
  refine OrdMap.ext_find? fun b' => ?_
  rw [OrdMap.find?_erase]
  split
  next heq =>
    rw [OrdMap.find?_filter_of_find? (by rw [OrdMap.find?_insert, if_pos heq]), hdrop]
    rfl
  next hne =>
    refine Option.ext fun fm => ?_
    rw [find?_kept, OrdMap.find?_filter_eq_some, OrdMap.find?_insert, if_neg hne]

/-- A node of the free list is the entry of a fragment of the block, or lies outside the block. -/
theorem no_entry_iff (S : Shelved h) (hb : (kept h).blockList.find? b = some frags) {n : Node}
    (hn : n ∈ h.freeList.nodes) :
    (∀ a f, frags.find? a = some f → f.freeListEntry ≠ some n.id) ↔ frags.find? n.val = none := by
  constructor
  · intro hall
    refine Option.eq_none_iff_forall_ne_some.mpr fun f hf => ?_
    obtain ⟨b', fm, hl⟩ := S.sound.lookup_of_node hn
    obtain ⟨hb', hf'⟩ := S.sound.lookup_eq_some.mp hl
    obtain ⟨_, heq, _⟩ := S.unique (find?_kept.mp hb).1 hf (find?_kept.mp hb').1 hf'
    subst heq
    exact hall n.val _ hf' rfl
  · intro hnone a f hf hentry
    have hok := S.sound.arenas.ok hb hf
    have hfree : f.isFree = true := by
      rw [hok.1, hentry]
      rfl
    obtain ⟨i, hi, he⟩ := HeapFragment.entry_of_free hok hfree
    have hnode : (⟨i, f.size, a⟩ : Node) ∈ h.freeList.nodes :=
      S.sound.arenas.nodes.mpr ⟨b, frags, f, hb, hf, he⟩
    rw [hentry] at hi
    have hid : n.id = i := Option.some.inj hi
    have hsame := MultiMap.eq_of_id hn hnode hid
    rw [hsame] at hnone
    rw [hnone] at hf
    cases hf

/-- The heap is as before, but for a block whose fragments are now marked. -/
structure Marks (h : SimpleHeap) (b : Nat) (frags : OrdMap HeapFragment) (h' : SimpleHeap) :
    Prop where
  block : (kept h).blockList.find? b = some frags
  blockList : h'.blockList = h.blockList.insert b (frags.mapVal marked)
  freeList : ∀ n, n ∈ h'.freeList.nodes ↔
    n ∈ h.freeList.nodes ∧ ∀ a f, frags.find? a = some f → f.freeListEntry ≠ some n.id

namespace Marks

theorem marks (M : Marks h b frags h') (S : Shelved h) :
    Dropped b (frags.mapVal marked) ∧ blockLength (frags.mapVal marked) = blockLength frags :=
  S.sound.dropped_mapVal S.tidy M.block

theorem kept (M : Marks h b frags h') (S : Shelved h) :
    (SimpleHeap.kept h').blockList = (SimpleHeap.kept h).blockList.erase b :=
  kept_dropped (M.marks S).1.keeps_eq_false M.blockList

theorem find?_of_kept (M : Marks h b frags h') (S : Shelved h) {b' : Nat}
    {fm : OrdMap HeapFragment} (hf : (SimpleHeap.kept h').blockList.find? b' = some fm) :
    (SimpleHeap.kept h).blockList.find? b' = some fm := by
  rw [M.kept S, OrdMap.find?_erase] at hf
  split at hf
  next => cases hf
  next => exact hf

theorem dropped (M : Marks h b frags h') (S : Shelved h) :
    h'.dropped = Function.update h.dropped b (some (frags.mapVal marked)) := by
  rw [dropped_insert M.blockList, if_neg (by rw [(M.marks S).1.keeps_eq_false]; decide)]

theorem lengths (M : Marks h b frags h') (S : Shelved h) : h'.lengths = h.lengths := by
  rw [lengths_insert M.blockList rfl (M.marks S).2]
  exact Function.update_eq_self_iff.mpr
    (lengths_eq_some.mpr ⟨frags, (find?_kept.mp M.block).1, rfl⟩).symm

theorem sound (M : Marks h b frags h') (S : Shelved h) : Sound (SimpleHeap.kept h') := by
  refine ⟨?_, fun hf => S.sound.small (M.find?_of_kept S hf)⟩
  rw [M.kept S]
  exact S.sound.arenas.leaveOut M.block fun n =>
    (M.freeList n).trans (and_congr_right fun hn => S.no_entry_iff M.block hn)

theorem shelved (M : Marks h b frags h') (S : Shelved h) : Shelved h' := by
  refine ⟨M.sound S, fun b' fm hf => S.tidy b' fm (M.find?_of_kept S hf), ?_, ?_⟩
  · intro b' fm hf
    rw [M.dropped S, Function.update_apply] at hf
    split at hf
    next heq =>
      cases hf
      exact heq ▸ (M.marks S).1
    next => exact S.dropped b' fm hf
  · refine S.apart_of_lengths fun b' n hb' => ?_
    rwa [M.lengths S] at hb'

/-- The marks change nothing about what is live. -/
theorem live (M : Marks h b frags h') (S : Shelved h) : h'.live = h.live := by
  have hb := (find?_kept.mp M.block).1
  funext a
  refine Option.ext fun n => ?_
  rw [live_eq_lookup, live_eq_lookup]
  simp only [(M.shelved S).lookup_eq_some, S.lookup_eq_some, M.blockList, OrdMap.find?_insert]
  constructor
  · rintro ⟨b', fm, f, ⟨hb', hf⟩, hfree, hn⟩
    split at hb'
    next heq =>
      cases hb'
      rw [OrdMap.find?_mapVal, Option.map_eq_some_iff] at hf
      obtain ⟨x, hx, rfl⟩ := hf
      exact ⟨b, frags, x, ⟨hb, hx⟩, hfree, hn⟩
    next => exact ⟨b', fm, f, ⟨hb', hf⟩, hfree, hn⟩
  · rintro ⟨b', fm, f, ⟨hb', hf⟩, hfree, hn⟩
    by_cases heq : b' = b
    · subst heq
      rw [hb] at hb'
      cases hb'
      refine ⟨b', frags.mapVal marked, marked f, ⟨by rw [if_pos rfl], ?_⟩, hfree, hn⟩
      rw [OrdMap.find?_mapVal, hf]
      rfl
    · exact ⟨b', fm, f, ⟨by rw [if_neg heq, hb'], hf⟩, hfree, hn⟩

end Marks

/-- Marking a kept block moves it to the discarded ones and changes nothing else. -/
theorem drop (S : Shelved h) (M : Marks h b frags h') :
    Becomes h' h.live h.lengths (Function.update h.dropped b (some (frags.mapVal marked))) :=
  ⟨M.shelved S, M.live S, M.lengths S, M.dropped S⟩

/-- The block of the list around an address is the floor of the address. -/
theorem floor?_around (S : Shelved h) {p : Nat} (hb : h.blockList.find? b = some frags)
    (hlo : b ≤ p) (hhi : p < b + blockLength frags) : h.blockList.floor? p = some (b, frags) := by
  refine OrdMap.floor?_of_gap hb hlo ?_
  intro e he hlt
  have := S.apart b _ e.1 _ (lengths_eq_some.mpr ⟨frags, hb, rfl⟩)
    (lengths_eq_some.mpr ⟨e.2, OrdMap.find?_eq_some.mpr he, rfl⟩) hlt
  omega

variable {σ : Type u} (A : BlockAllocator σ) (s : σ)

/-- `discardBlock` of an address in a discarded block does nothing. -/
theorem discardBlock_of_dropped (S : Shelved h) {p : Nat} (hd : h.dropped b = some frags)
    (hlo : b ≤ p) (hhi : p < b + blockLength frags) : discardBlock A h s p = (true, h, s) := by
  have D := S.dropped b frags hd
  have hbase := D.base_pos
  have hpos := D.length_pos
  have hfloor := S.floor?_around (dropped_eq_some.mp hd).1 hlo hhi
  obtain ⟨⟨v, hhead⟩, e, hlast, hend⟩ := D.tiles.ends (by omega)
  have hv : frags.find? b = some v :=
    OrdMap.find?_eq_some.mpr (List.mem_of_mem_head? (by rw [hhead]; rfl))
  have hin : ¬ (p < b ∨ e.1 + e.2.size ≤ p) := by omega
  have hp : p ≠ 0 := by omega
  simp only [discardBlock, if_neg hp, hfloor, hhead, hlast, if_neg hin, (D.marked b v hv).1, if_true]

/-- `discardBlock` of an address in a kept block. -/
theorem discardBlock_of_kept (S : Shelved h) {p : Nat}
    (hb : (kept h).blockList.find? b = some frags) (hlo : b ≤ p)
    (hhi : p < b + blockLength frags) :
    ∃ h₁, discardBlock A h s p = (true, balance A h₁ s) ∧ h₁.blockCache = h.blockCache ∧
      h₁.inUseSize = sub64 h.inUseSize (blockLength frags) ∧ h₁.cacheSize = h.cacheSize ∧
      Becomes h₁ h.live h.lengths (Function.update h.dropped b (some (frags.mapVal marked))) := by
  obtain ⟨hb', hk⟩ := find?_kept.mp hb
  obtain ⟨hfrags, hnodes⟩ := discardAll_spec h.freeList frags
  obtain ⟨hbase, hpos, ht⟩ := S.tiles hb'
  have hfloor := S.floor?_around hb' hlo hhi
  obtain ⟨⟨v, hhead⟩, e, hlast, hend⟩ := ht.ends (by omega)
  have hv : frags.find? b = some v :=
    OrdMap.find?_eq_some.mpr (List.mem_of_mem_head? (by rw [hhead]; rfl))
  have hdiscard : v.discard = false := keeps_iff.mp hk b v hv
  have hin : ¬ (p < b ∨ e.1 + e.2.size ≤ p) := by omega
  have hp : p ≠ 0 := by omega
  refine ⟨{ h.withBlock b (discardAll h.freeList frags) with
    inUseSize := sub64 h.inUseSize (blockLength frags) }, ?_, rfl, rfl, rfl,
      S.drop ⟨hb, ?_, hnodes⟩⟩
  · simp only [discardBlock, if_neg hp, hfloor, hhead, hlast, if_neg hin, hdiscard,
      Bool.false_eq_true, if_false]
    rfl
  · rw [← hfrags]
    rfl

/-- `discardBlock` fails on an address that no block of the list has. -/
theorem discardBlock_outside (S : Shelved h) {p : Nat} (hp : p ≠ 0)
    (hout : ∀ b n, h.lengths b = some n → ¬ (b ≤ p ∧ p < b + n)) :
    discardBlock A h s p = (false, h, s) := by
  rw [discardBlock, if_neg hp]
  cases hfloor : h.blockList.floor? p with
  | none => rfl
  | some e =>
      obtain ⟨b, frags⟩ := e
      obtain ⟨hmem, hle⟩ := OrdMap.floor?_mem hfloor
      have hb := OrdMap.find?_eq_some.mpr hmem
      obtain ⟨_, hpos, ht⟩ := S.tiles hb
      have hnot := hout b _ (lengths_eq_some.mpr ⟨frags, hb, rfl⟩)
      obtain ⟨⟨v, hhead⟩, e, hlast, hend⟩ := ht.ends (by omega)
      have hle : b ≤ p := hle
      have hafter : p < b ∨ e.1 + e.2.size ≤ p := by omega
      simp only [hhead, hlast, if_pos hafter]

/-! ## A block of its own -/

/-- An allocation from a block of its own, before the cache is balanced.  A block for more than
the default size is marked at once. -/
theorem allocBlock_spec (S : Shelved h) {base size bytes : Nat} (hpos : 0 < bytes)
    (hle : bytes ≤ size) (B : Beside h base size) :
    (∃ h₁, allocBlock A h s base size bytes = some (base, h₁, s) ∧ h₁.blockCache = h.blockCache ∧
        h₁.inUseSize = u64 (h.inUseSize + size) ∧ h₁.cacheSize = h.cacheSize ∧
        Becomes h₁ (Function.update h.live base (some bytes))
          (Function.update h.lengths base (some size)) h.dropped) ∨
      ∃ h₁, allocBlock A h s base size bytes = some (base, balance A h₁ s) ∧
        h₁.blockCache = h.blockCache ∧
        h₁.inUseSize = sub64 (u64 (h.inUseSize + size)) size ∧ h₁.cacheSize = h.cacheSize ∧
        Becomes h₁ (Function.update h.live base (some bytes))
          (Function.update h.lengths base (some size)) (Function.update h.dropped base
            (some ((blockFragments h.freeList .empty base size bytes).2.mapVal marked))) := by
  have hnew := S.not_listed B (by omega)
  have E := S.addKept (u64 (h.inUseSize + size)) hpos hle B
  by_cases hlarge : bytes > A.blockSize
  · right
    have hself : (SimpleHeap.withBlock { h with inUseSize := u64 (h.inUseSize + size) } base
        (blockFragments h.freeList .empty base size bytes)).blockList.find? base =
          some (blockFragments h.freeList .empty base size bytes).2 := by
      rw [SimpleHeap.withBlock, OrdMap.find?_insert, if_pos rfl]
    have hlen : blockLength (blockFragments h.freeList .empty base size bytes).2 = size := by
      have hat := congrFun E.lengths base
      rw [Function.update_self, lengths, hself] at hat
      exact Option.some.inj hat
    have hkept : (kept (SimpleHeap.withBlock { h with inUseSize := u64 (h.inUseSize + size) } base
        (blockFragments h.freeList .empty base size bytes))).blockList.find? base =
          some (blockFragments h.freeList .empty base size bytes).2 := by
      rcases E.shelved.kept_or_dropped hself with hk | ⟨hd, _⟩
      · exact hk
      · rw [E.dropped, dropped_of_none hnew] at hd
        cases hd
    obtain ⟨h₁, hdiscard, hcache, hinUse, hcacheSize, E₁⟩ := E.shelved.discardBlock_of_kept A s hkept
      (Nat.le_refl base) (by rw [hlen]; omega)
    rw [hlen] at hinUse
    rw [E.live, E.lengths, E.dropped] at E₁
    refine ⟨h₁, ?_, hcache, hinUse, hcacheSize, E₁⟩
    simp only [allocBlock, hnew, Option.getD_none, if_neg (Nat.not_lt.mpr hle), if_pos hlarge,
      hdiscard, if_true]
  · left
    refine ⟨SimpleHeap.withBlock { h with inUseSize := u64 (h.inUseSize + size) } base
      (blockFragments h.freeList .empty base size bytes), ?_, rfl, rfl, rfl, E⟩
    simp only [allocBlock, hnew, Option.getD_none, if_neg (Nat.not_lt.mpr hle), if_neg hlarge]

end Shelved

end SimpleHeap

end RocDxg
