import RocDxg.Lib.Coalesced
import RocDxg.Memory.HeapPartition

/-!
# The blocks of the sub-allocator are coalesced

Beside the invariant of the partition, every block of the list has no two free
neighbours and at least one used fragment: `alloc` takes a free fragment between used
ones, and `free` merges and then sends a block with one fragment to the cache.
-/

namespace RocDxg

open Lib (OrdMap MultiMap Node TileMap Arena Limbo Coalesced Parted LowerUsed UpperUsed elsewhere)

namespace SimpleHeap

open HeapFragment (account)

/-- No two neighbours of the block are both free, and not all of it is free. -/
structure Tidy (frags : OrdMap HeapFragment) : Prop where
  merged : Coalesced HeapFragment.size HeapFragment.isFree frags
  busy : ∃ a f, frags.find? a = some f ∧ f.isFree = false

/-- Every block of the list is tidy. -/
def AllTidy (h : SimpleHeap) : Prop := ∀ b frags, h.blockList.find? b = some frags → Tidy frags

variable {h : SimpleHeap}

theorem AllTidy.withBlock (ht : AllTidy h) {b : Nat} {r : MultiMap × OrdMap HeapFragment}
    (hr : Tidy r.2) : AllTidy (h.withBlock b r) := by
  intro b' frags hb'
  change (h.blockList.insert b r.2).find? b' = some frags at hb'
  rw [OrdMap.find?_insert] at hb'
  split at hb'
  next =>
    cases hb'
    exact hr
  next => exact ht b' frags hb'

/-- Closing the fragment out of account as a used one leaves a tidy block. -/
theorem tidy_closeUsed {frags : OrdMap HeapFragment} {k : Nat} (bytes : Nat)
    (h : Parted HeapFragment.size HeapFragment.isFree frags k) :
    Tidy (frags.insert k (.makeUsed bytes)) :=
  ⟨h.closeUsed rfl, k, _, (OrdMap.find?_insert ..).trans (if_pos rfl), rfl⟩

/-! ## Allocation -/

theorem takeBase_tidy (S : Sound h) (ht : AllTidy h) {n : Node} {b : Nat}
    {frags : OrdMap HeapFragment} {bytes : Nat} (hpos : 0 < bytes)
    (hl : h.lookup n.val = some (b, frags, ⟨some n.id, n.key, false, true⟩)) :
    Tidy (takeBase h.freeList frags bytes n ⟨some n.id, n.key, false, true⟩).2 := by
  obtain ⟨hb, hf⟩ := S.lookup_eq_some.mp hl
  have hsize : n.key < 2 ^ 62 := S.size_lt hb hf
  have hmerged := (ht b frags hb).merged
  obtain ⟨_, hup⟩ := hmerged.of_free hf rfl
  have hset : (HeapFragment.setSize ⟨some n.id, n.key, false, true⟩ bytes).setUsed =
      .makeUsed bytes := rfl
  rw [takeBase, hset]
  split
  next hgt =>
    have hne : n.val + bytes ≠ n.val := by omega
    have hparted := (hmerged.parted n.val).cutBack (g := .makeUsed bytes)
      (f := .makeFree (h.freeList.erase n.id).next (n.key - bytes)) (S.arenas.tiles hb) hf hup hpos
      hgt (HeapFragment.sizeField_of_lt (by omega))
    have htidy := tidy_closeUsed bytes hparted
    rw [OrdMap.insert_comm _ _ _ hne, OrdMap.insert_insert] at htidy
    exact htidy
  next => exact tidy_closeUsed bytes (hmerged.parted n.val)

theorem takeAligned_tidy (S : Sound h) (ht : AllTidy h) {n : Node} {b : Nat}
    {frags : OrdMap HeapFragment} {bytes p : Nat} (hpos : 0 < bytes)
    (hl : h.lookup n.val = some (b, frags, ⟨some n.id, n.key, false, true⟩)) (hp : n.val < p)
    (hle : p + bytes ≤ n.val + n.key) : Tidy (takeAligned h.freeList frags bytes p n).2 := by
  obtain ⟨d, rfl⟩ := Nat.exists_eq_add_of_le (Nat.le_of_lt hp)
  obtain ⟨hb, hf⟩ := S.lookup_eq_some.mp hl
  have hsize : n.key < 2 ^ 62 := S.size_lt hb hf
  have hmerged := (ht b frags hb).merged
  have htiles : TileMap HeapFragment.size b (b + blockLength frags) frags := S.arenas.tiles hb
  obtain ⟨hlow, hup⟩ := hmerged.of_free hf rfl
  have hup : UpperUsed HeapFragment.isFree frags (n.val + n.key) := hup
  have hne : n.val ≠ n.val + d := by omega
  have hrest : (HeapFragment.makeUsed (n.key - d)).size = n.key - d :=
    HeapFragment.sizeField_of_lt (by omega)
  have hfrontSize : (HeapFragment.makeFree (h.freeList.erase n.id).next d).size = d :=
    HeapFragment.sizeField_of_lt (by omega)
  obtain ⟨hfront, hup⟩ := (hmerged.parted n.val).cutFront (g := .makeUsed (n.key - d))
    (f := .makeFree (h.freeList.erase n.id).next d) hlow hup (by omega) (by omega) hfrontSize
  rw [takeAligned, Nat.add_sub_cancel_left]
  split
  next hgt =>
    have hne' : n.val + d + bytes ≠ n.val + d := by omega
    have htiles := TileMap.cut (HeapFragment.makeFree (h.freeList.erase n.id).next d)
      (.makeUsed (n.key - d)) htiles hf (by rw [hfrontSize]; omega)
      (by rw [hrest]; omega) (by rw [hfrontSize, hrest]; show d + (n.key - d) = n.key; omega)
    rw [hfrontSize, OrdMap.insert_comm _ _ _ hne] at htiles
    have hstored : ((frags.insert (n.val + d) (.makeUsed (n.key - d))).insert n.val
        (.makeFree (h.freeList.erase n.id).next d)).find? (n.val + d) =
          some (.makeUsed (n.key - d)) := by
      rw [OrdMap.find?_insert, if_neg hne.symm, OrdMap.find?_insert, if_pos rfl]
    have hsplit : n.val + n.key = n.val + d + (n.key - d) := by omega
    have hback := hfront.cutBack (g := .makeUsed bytes)
      (f := .makeFree ((h.freeList.erase n.id).insert d n.val).next (n.key - d - bytes)) htiles
      hstored (by rw [hrest, ← hsplit]; exact hup) hpos (by rw [hrest]; omega)
      (by rw [hrest]; exact HeapFragment.sizeField_of_lt (by omega))
    have htidy := tidy_closeUsed bytes hback
    rw [OrdMap.insert_comm _ _ _ hne', OrdMap.insert_insert, OrdMap.insert_comm _ _ _ hne.symm,
      OrdMap.insert_insert] at htidy
    exact htidy
  next =>
    have htidy := tidy_closeUsed bytes hfront
    rw [OrdMap.insert_comm _ _ _ hne.symm, OrdMap.insert_insert] at htidy
    exact htidy

theorem Chooses.tidy (S : Sound h) (ht : AllTidy h) {bytes : Nat} (hpos : 0 < bytes)
    {c : Nat × SimpleHeap} (hc : Chooses h bytes c) : AllTidy c.2 := by
  cases hc with
  | base hl _ => exact ht.withBlock (takeBase_tidy S ht hpos hl)
  | aligned hl hp hle => exact ht.withBlock (takeAligned_tidy S ht hpos hl hp hle)

/-- The fragments of a new block are tidy. -/
theorem blockFragments_tidy (fl : MultiMap) {base size bytes : Nat} (hpos : 0 < bytes)
    (hsmall : size < 2 ^ 62) : Tidy (blockFragments fl .empty base size bytes).2 := by
  rw [blockFragments]
  split
  next hgt =>
    refine ⟨?_, base, .makeUsed bytes, (OrdMap.find?_insert ..).trans (if_pos rfl), rfl⟩
    have hsize : (HeapFragment.makeFree fl.next (size - bytes)).size = size - bytes :=
      HeapFragment.sizeField_of_lt (by omega)
    have hmerged : Coalesced HeapFragment.size HeapFragment.isFree
        (OrdMap.empty.insert (base + bytes) (.makeFree fl.next (size - bytes))) :=
      Coalesced.singleton (base + bytes) (by rw [hsize]; omega)
    exact (hmerged.parted base).closeUsed rfl
  next => exact tidy_closeUsed bytes (Coalesced.parted (fun _ _ _ h => by cases h) base)

/-! ## Release -/

/-- The fragment that `free` is at, with the neighbours it has merged. -/
structure Isolated (g : Merge) (upper : Bool) : Prop where
  parted : Parted HeapFragment.size HeapFragment.isFree g.frags g.key
  lower : LowerUsed HeapFragment.size HeapFragment.isFree g.frags g.key
  upper : upper = true → UpperUsed HeapFragment.isFree g.frags (g.key + g.frag.size)
  stored : g.frags.find? g.key = some g.frag

theorem mergeLower_isolated (fl : MultiMap) {lo hi addr : Nat} {frags : OrdMap HeapFragment}
    {frag : HeapFragment} (hm : Coalesced HeapFragment.size HeapFragment.isFree frags)
    (htiles : TileMap HeapFragment.size lo hi frags) (hsmall : hi < lo + 2 ^ 62)
    (hfind : frags.find? addr = some frag) : Isolated (mergeLower fl frags addr frag) false := by
  rw [mergeLower]
  cases hp : frags.prev? addr with
  | none =>
      refine ⟨hm.parted addr, LowerUsed.of_prev htiles hfind ?_, (fun h => by cases h), hfind⟩
      intro k' g hp'
      rw [hp] at hp'
      cases hp'
  | some e =>
      obtain ⟨key, lower⟩ := e
      simp only
      split
      next hfree =>
        obtain ⟨hlower, _⟩ := OrdMap.mem_of_prev? hp
        have hmeet := htiles.next_eq hlower (OrdMap.next?_of_prev? hfind hp)
        have hbounds := htiles.bounds hlower
        have hbounds' := htiles.bounds hfind
        have hsize : HeapFragment.sizeField (lower.size + frag.size) = lower.size + frag.size :=
          HeapFragment.sizeField_of_lt (by omega)
        obtain ⟨hparted, hlow⟩ := hm.joinLower hp hfree
          (w := ({ lower with freeListEntry := none } : HeapFragment).setSize
            (lower.size + frag.size))
          (by show 0 < HeapFragment.sizeField _; rw [hsize]; omega)
        exact ⟨hparted, hlow, (fun h => by cases h), (OrdMap.find?_insert ..).trans (if_pos rfl)⟩
      next hfree =>
        refine ⟨hm.parted addr, LowerUsed.of_prev htiles hfind ?_, (fun h => by cases h), hfind⟩
        intro k' g hp'
        rw [hp] at hp'
        cases hp'
        simpa using hfree

theorem mergeUpper_isolated {lo hi : Nat} {g : Merge}
    (htiles : TileMap HeapFragment.size lo hi g.frags) (hsmall : hi < lo + 2 ^ 62)
    (I : Isolated g false) : Isolated (mergeUpper g) true := by
  rw [mergeUpper]
  cases hn : g.frags.next? g.key with
  | none =>
      refine ⟨I.parted, I.lower, fun _ => UpperUsed.of_next htiles I.stored ?_, I.stored⟩
      intro k' f hn'
      rw [hn] at hn'
      cases hn'
  | some e =>
      obtain ⟨key, upper⟩ := e
      simp only
      split
      next hfree =>
        have hkey := htiles.next_eq I.stored hn
        have hbounds := htiles.bounds (OrdMap.mem_of_next? hn).1
        have hbounds' := htiles.bounds I.stored
        have hsize : HeapFragment.sizeField (g.frag.size + upper.size) = g.frag.size + upper.size :=
          HeapFragment.sizeField_of_lt (by omega)
        obtain ⟨hparted, hlow, hup⟩ := I.parted.joinUpper htiles I.lower I.stored hn hfree
          (w := g.frag.setSize (g.frag.size + upper.size)) hsize
        exact ⟨hparted, hlow, fun _ => hup, (OrdMap.find?_insert ..).trans (if_pos rfl)⟩
      next hfree =>
        refine ⟨I.parted, I.lower, fun _ => UpperUsed.of_next htiles I.stored ?_, I.stored⟩
        intro k' f hn'
        rw [hn] at hn'
        cases hn'
        simpa using hfree

/-- A coalesced block of several fragments is not all free. -/
theorem tidy_of_merged {lo hi : Nat} {frags : OrdMap HeapFragment}
    (hm : Coalesced HeapFragment.size HeapFragment.isFree frags)
    (htiles : TileMap HeapFragment.size lo hi frags) (hlt : lo < hi)
    (hmany : frags.entries.length ≠ 1) : Tidy frags := by
  refine ⟨hm, ?_⟩
  by_contra hnone
  have hall : ∀ a f, frags.find? a = some f → f.isFree = true := by
    intro a f hf
    cases hfree : f.isFree with
    | true => rfl
    | false => exact absurd ⟨a, f, hf, hfree⟩ hnone
  obtain ⟨f, hentries, _⟩ := hm.alone htiles hlt hall
  rw [hentries] at hmany
  exact hmany rfl

/-- A set value at a key that is there keeps the number of entries. -/
theorem length_insert_of_find? {frags : OrdMap HeapFragment} {k : Nat} {f g : HeapFragment}
    (hk : frags.find? k = some f) :
    (frags.insert k g).entries.length = frags.entries.length := by
  have hcut := OrdMap.entries_of_find? hk
  rw [OrdMap.insert_of_entry g hcut]
  conv_rhs => rw [hcut]
  simp

variable {σ : Type u} (A : BlockAllocator σ) (s : σ)

theorem Sound.free_tidy (S : Sound h) (ht : AllTidy h) (p : Nat) : AllTidy (free A h s p).2.1 := by
  rw [free]
  split
  next => exact ht
  next =>
    cases hlookup : h.lookup p with
    | none => exact ht
    | some r =>
        obtain ⟨b, frags, f⟩ := r
        simp only
        split
        next => exact ht
        next hfree =>
          obtain ⟨hb, hf⟩ := S.lookup_eq_some.mp hlookup
          have hused : f.usedSize = some f.size := by
            simp [HeapFragment.usedSize, Bool.eq_false_iff.mpr hfree]
          have hok := S.arenas.ok hb hf
          have hlength := (S.small hb).2.1
          have M := mergeLower_merging hlength hok.2 ((S.arenas.arena hb).openUsed hf hused)
          have M' := mergeUpper_merging hlength M
          have I := mergeUpper_isolated M.limbo.tiles (Nat.add_lt_add_left hlength b)
            (mergeLower_isolated h.freeList (ht b frags hb).merged (S.arenas.tiles hb)
              (Nat.add_lt_add_left hlength b) hf)
          simp only [release, hok.2, Bool.false_eq_true, if_false]
          split
          next =>
            intro b' frags' hb'
            change (h.blockList.erase b).find? b' = some frags' at hb'
            rw [OrdMap.find?_erase] at hb'
            split at hb'
            next => cases hb'
            next => exact ht b' frags' hb'
          next hmany =>
            refine ht.withBlock ?_
            have hclosed := M'.limbo.closeFree
              (g := (mergeUpper (mergeLower h.freeList frags p f)).frag.setFree
                (mergeUpper (mergeLower h.freeList frags p f)).freeList.next) rfl ⟨rfl, M'.kept⟩
            refine tidy_of_merged (I.parted.closeFree I.lower (I.upper rfl) M'.limbo.bounds.2.1)
              hclosed.1.tiles (Nat.lt_add_of_pos_right (S.arenas.pos hb)) ?_
            rw [length_insert_of_find? I.stored]
            exact hmany

end SimpleHeap

end RocDxg
