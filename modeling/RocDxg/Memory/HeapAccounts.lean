import Mathlib.Algebra.Order.BigOperators.Group.List
import Mathlib.Algebra.Order.Group.Nat
import Mathlib.Data.List.Count
import Mathlib.Data.List.Perm.Subperm
import RocDxg.Memory.HeapRuns

/-!
# The accounts of the sub-allocator

The heap counts the bytes of its cached blocks and of the blocks that are in use and not
discarded, and evicts cached blocks by comparing the two.  A register of the block allocator
keeps the blocks it has handed out and those it got back, each with its length.

In every run whose blocks fit the size field the counters are exact, every block that was
handed out is in one place, and the cache is bounded (`HeapAccount.accounted`).
-/

namespace RocDxg

open Lib (OrdMap MultiMap Node TileMap Reach runAll reach_of_runAll)

/-- The answer a block allocator will give, and all blocks it has handed out and got back. -/
structure Register where
  answer : Option (Nat × Nat) := none
  obtained : List HeapBlock := []
  returned : List HeapBlock := []

/-- A block allocator that answers as it is told and forgets nothing. -/
def register (blockSize : Nat) : BlockAllocator Register where
  blockSize := blockSize
  alloc s _ :=
    match s.answer with
    | some (base, size) => (s.answer, { s with obtained := ⟨base, size⟩ :: s.obtained })
    | none => (none, s)
  free s base length := { s with returned := ⟨base, length⟩ :: s.returned }

/-- The blocks that were handed out and not got back. -/
def Register.outstanding (s : Register) : List HeapBlock := s.obtained.diff s.returned

namespace HeapBlock

/-- The addresses of a block. -/
def cells (c : HeapBlock) : List Nat := List.range' c.base c.length

theorem mem_cells {c : HeapBlock} {a : Nat} : a ∈ c.cells ↔ c.base ≤ a ∧ a < c.base + c.length := by
  simp [cells, List.mem_range'_1]

/-- Disjoint blocks of the address space have fewer bytes than the space. -/
theorem sum_lt {l : List HeapBlock} (happart : l.Pairwise Apart)
    (hbound : ∀ c ∈ l, 0 < c.base ∧ c.base + c.length ≤ 2 ^ 64) :
    (l.map length).sum < 2 ^ 64 := by
  have hnodup : (l.flatMap cells).Nodup := by
    refine List.nodup_flatMap.mpr ⟨fun c _ => List.nodup_range' .., happart.imp ?_⟩
    intro c c' happart a ha ha'
    have := mem_cells.mp ha
    have := mem_cells.mp ha'
    rw [Apart] at happart
    omega
  have hsub : l.flatMap cells ⊆ List.range' 1 (2 ^ 64 - 1) := by
    intro a ha
    obtain ⟨c, hc, hmem⟩ := List.mem_flatMap.mp ha
    have := hbound c hc
    have := mem_cells.mp hmem
    rw [List.mem_range'_1]
    omega
  have hlen := (hnodup.subperm hsub).length_le
  rw [List.length_flatMap, List.length_range'] at hlen
  have hmap : l.map (fun c => c.cells.length) = l.map length := by
    simp [cells]
  rw [hmap] at hlen
  omega

end HeapBlock

namespace SimpleHeap

/-- The blocks of the list with their lengths. -/
def lengthMap (h : SimpleHeap) : OrdMap Nat := h.blockList.mapVal blockLength

/-- The blocks of the list. -/
def listed (h : SimpleHeap) : List HeapBlock := h.lengthMap.entries.map fun e => ⟨e.1, e.2⟩

/-- The bytes of the blocks of the list that are not discarded. -/
def usedTotal (h : SimpleHeap) : Nat := ((kept h).listed.map HeapBlock.length).sum

variable {h h' : SimpleHeap}

theorem find?_lengthMap (b : Nat) : h.lengthMap.find? b = h.lengths b :=
  OrdMap.find?_mapVal ..

theorem mem_listed {c : HeapBlock} : c ∈ h.listed ↔ h.lengths c.base = some c.length := by
  rw [← find?_lengthMap, OrdMap.find?_eq_some, listed, List.mem_map]
  constructor
  · rintro ⟨e, he, rfl⟩
    exact he
  · exact fun hmem => ⟨_, hmem, rfl⟩

theorem listed_congr (hlen : h'.lengths = h.lengths) : h'.listed = h.listed := by
  have heq : h'.lengthMap = h.lengthMap := by
    refine OrdMap.ext_find? fun b => ?_
    rw [find?_lengthMap, find?_lengthMap, hlen]
  rw [listed, listed, heq]

theorem listed_insert {b n : Nat} (hlen : h'.lengths = Function.update h.lengths b (some n))
    (hnew : h.lengths b = none) : h'.listed.Perm (⟨b, n⟩ :: h.listed) := by
  have heq : h'.lengthMap = h.lengthMap.insert b n := by
    refine OrdMap.ext_find? fun b' => ?_
    rw [find?_lengthMap, hlen, OrdMap.find?_insert, Function.update_apply, find?_lengthMap]
  have hself : h.lengthMap.erase b = h.lengthMap :=
    OrdMap.erase_of_none (by rw [find?_lengthMap, hnew])
  have hperm := (OrdMap.insert_perm h.lengthMap b n).map fun e => (⟨e.1, e.2⟩ : HeapBlock)
  rw [hself] at hperm
  rw [listed, heq]
  exact hperm

theorem listed_erase {b n : Nat} (hlen : h'.lengths = Function.update h.lengths b none)
    (hold : h.lengths b = some n) : h.listed.Perm (⟨b, n⟩ :: h'.listed) := by
  have heq : h'.lengthMap = h.lengthMap.erase b := by
    refine OrdMap.ext_find? fun b' => ?_
    rw [find?_lengthMap, hlen, OrdMap.find?_erase, Function.update_apply, find?_lengthMap]
  have hfind : h.lengthMap.find? b = some n := by rw [find?_lengthMap, hold]
  have hperm := (OrdMap.perm_erase hfind).map fun e => (⟨e.1, e.2⟩ : HeapBlock)
  rw [listed, listed, heq]
  exact hperm

/-- A block is kept if it is listed and not discarded. -/
theorem lengths_kept_eq (b : Nat) :
    (kept h).lengths b = if (h.dropped b).isSome then none else h.lengths b := by
  cases hb : h.blockList.find? b with
  | none =>
      have hnone : (kept h).blockList.find? b = none := OrdMap.find?_filter_of_none hb
      rw [dropped_of_none hb, lengths, lengths, hnone, hb]
      rfl
  | some frags =>
      cases hk : keeps frags with
      | true =>
          rw [dropped_of_keeps hb hk, lengths, lengths, find?_kept.mpr ⟨hb, hk⟩, hb]
          rfl
      | false =>
          have hnone : (kept h).blockList.find? b = none := by
            show (h.blockList.filter keeps).find? b = none
            rw [OrdMap.find?_filter_of_find? hb, hk]
            rfl
          rw [dropped_eq_some.mpr ⟨hb, hk⟩, lengths, hnone]
          rfl

/-- The kept blocks are among the listed ones. -/
theorem usedTotal_le (h : SimpleHeap) : h.usedTotal ≤ (h.listed.map HeapBlock.length).sum := by
  have hsub : (kept h).listed.Sublist h.listed := by
    refine List.Sublist.map _ (List.Sublist.map _ ?_)
    exact List.filter_sublist
  exact (hsub.map HeapBlock.length).sum_le_sum (fun _ _ => Nat.zero_le _)

/-! ## The bytes in use -/

/-- Blocks of the list and discarded blocks determine the bytes in use. -/
theorem usedTotal_congr (hkept : (kept h').lengths = (kept h).lengths) :
    h'.usedTotal = h.usedTotal := by
  rw [usedTotal, usedTotal, listed_congr hkept]

theorem usedTotal_same (hlen : h'.lengths = h.lengths)
    (hdropped : ∀ b, (h'.dropped b).isSome = (h.dropped b).isSome) :
    h'.usedTotal = h.usedTotal := by
  refine usedTotal_congr ?_
  funext b
  rw [lengths_kept_eq, lengths_kept_eq, hlen, hdropped]

theorem usedTotal_insert {b n : Nat} (hkept : (kept h').lengths =
      Function.update (kept h).lengths b (some n)) (hnew : (kept h).lengths b = none) :
    h'.usedTotal = n + h.usedTotal := by
  have hperm := (listed_insert hkept hnew).map HeapBlock.length
  rw [usedTotal, hperm.sum_eq, List.map_cons, List.sum_cons]
  rfl

theorem usedTotal_erase {b n : Nat} (hkept : (kept h').lengths =
      Function.update (kept h).lengths b none) (hold : (kept h).lengths b = some n) :
    h.usedTotal = n + h'.usedTotal := by
  have hperm := (listed_erase hkept hold).map HeapBlock.length
  rw [usedTotal, hperm.sum_eq, List.map_cons, List.sum_cons]
  rfl

/-- A block that is not discarded joins the list. -/
theorem usedTotal_add {b n : Nat} (hlen : h'.lengths = Function.update h.lengths b (some n))
    (hdropped : h'.dropped = h.dropped) (hnew : h.lengths b = none) (hnot : h.dropped b = none) :
    h'.usedTotal = n + h.usedTotal := by
  refine usedTotal_insert (b := b) ?_ (by rw [lengths_kept_eq, hnew, ite_self])
  funext b'
  rw [lengths_kept_eq, hlen, hdropped, Function.update_apply, Function.update_apply,
    lengths_kept_eq]
  by_cases heq : b' = b
  · rw [heq, hnot, if_pos rfl, if_pos rfl]
    rfl
  · rw [if_neg heq, if_neg heq]

/-- A block that is not discarded leaves the list. -/
theorem usedTotal_leave {b n : Nat} (hlen : h'.lengths = Function.update h.lengths b none)
    (hdropped : h'.dropped = h.dropped) (hold : h.lengths b = some n) (hnot : h.dropped b = none) :
    h.usedTotal = n + h'.usedTotal := by
  refine usedTotal_erase (b := b) ?_ (by rw [lengths_kept_eq, hold, hnot]; rfl)
  funext b'
  rw [lengths_kept_eq, hlen, hdropped, Function.update_apply, Function.update_apply,
    lengths_kept_eq]
  by_cases heq : b' = b
  · rw [if_pos heq, if_pos heq, ite_self]
  · rw [if_neg heq, if_neg heq]

/-- A block of the list is discarded. -/
theorem usedTotal_discard {b n : Nat} {frags : OrdMap HeapFragment} (hlen : h'.lengths = h.lengths)
    (hdropped : h'.dropped = Function.update h.dropped b (some frags))
    (hold : h.lengths b = some n) (hnot : h.dropped b = none) :
    h.usedTotal = n + h'.usedTotal := by
  refine usedTotal_erase (b := b) ?_ (by rw [lengths_kept_eq, hold, hnot]; rfl)
  funext b'
  rw [lengths_kept_eq, hlen, hdropped, Function.update_apply, Function.update_apply,
    lengths_kept_eq]
  by_cases heq : b' = b
  · rw [if_pos heq, if_pos heq]
    rfl
  · rw [if_neg heq, if_neg heq]

/-- A discarded block joins the list or leaves it. -/
theorem usedTotal_dropped {b : Nat} {x : Option Nat} {y : Option (OrdMap HeapFragment)}
    (hlen : h'.lengths = Function.update h.lengths b x)
    (hdropped : h'.dropped = Function.update h.dropped b y)
    (hold : h.lengths b = none ∨ (h.dropped b).isSome = true)
    (hnew : x = none ∨ y.isSome = true) : h'.usedTotal = h.usedTotal := by
  refine usedTotal_congr ?_
  funext b'
  rw [lengths_kept_eq, lengths_kept_eq, hlen, hdropped, Function.update_apply,
    Function.update_apply]
  by_cases heq : b' = b
  · subst heq
    rcases hold with hold | hold <;> rcases hnew with hnew | hnew <;> simp [hold, hnew]
  · rw [if_neg heq, if_neg heq]

/-! ## The counters -/

/-- The blocks at hand: those of the list and those of the cache. -/
def blocks (h : SimpleHeap) : List HeapBlock := h.listed ++ h.blockCache

/-- The counters are the bytes they stand for. -/
structure Counted (h : SimpleHeap) : Prop where
  cacheSize : h.cacheSize = (h.blockCache.map HeapBlock.length).sum
  inUseSize : h.inUseSize = h.usedTotal

/-- The cache has one block, or no more than twice the bytes in use. -/
def Bounded (h : SimpleHeap) : Prop := h.blockCache.length ≤ 1 ∨ h.cacheSize ≤ 2 * h.inUseSize

instance (h : SimpleHeap) : Decidable h.Bounded := inferInstanceAs (Decidable (_ ∨ _))

/-- A block of one allocation. -/
def Single (frags : OrdMap HeapFragment) : Prop :=
  ∀ a f a' f', frags.find? a = some f → f.isFree = false → frags.find? a' = some f' →
    f'.isFree = false → a = a'

/-- The discarded blocks of a heap are so in another one, and each block more has one
allocation. -/
structure Drops (h h' : SimpleHeap) : Prop where
  old : ∀ b frags, h.dropped b = some frags → h'.dropped b = some frags
  new : ∀ b frags, h'.dropped b = some frags → h.dropped b = some frags ∨ Single frags

/-- A discarded block and its length. -/
def Discarded (h : SimpleHeap) (b n : Nat) : Prop :=
  ∃ frags, h.dropped b = some frags ∧ blockLength frags = n

/-- Every discarded block has one allocation. -/
def AllSingle (h : SimpleHeap) : Prop := ∀ b frags, h.dropped b = some frags → Single frags

/-- What `free` makes of the discarded blocks: each is as it was or gone, and then it is not
in the cache. -/
structure Frees (h h' : SimpleHeap) : Prop where
  lengths : ∀ b n, h'.lengths b = some n → h.lengths b = some n
  discarded : ∀ b n, Discarded h b n → Discarded h' b n ∨
    h'.lengths b = none ∧ ∀ c ∈ h'.blockCache, c ∈ h.blockCache
  single : AllSingle h → AllSingle h'

theorem discarded_iff {b n : Nat} :
    Discarded h b n ↔ (h.dropped b).isSome = true ∧ h.lengths b = some n := by
  constructor
  · rintro ⟨frags, hd, hn⟩
    refine ⟨?_, lengths_eq_some.mpr ⟨frags, (dropped_eq_some.mp hd).1, hn⟩⟩
    rw [hd]
    rfl
  · rintro ⟨hsome, hlen⟩
    obtain ⟨frags, hd⟩ := Option.isSome_iff_exists.mp hsome
    refine ⟨frags, hd, ?_⟩
    rw [lengths, (dropped_eq_some.mp hd).1] at hlen
    exact Option.some.inj hlen

theorem Drops.discarded (D : Drops h h') {b n : Nat} (hd : Discarded h b n) : Discarded h' b n := by
  obtain ⟨frags, hd, hn⟩ := hd
  exact ⟨frags, D.old b frags hd, hn⟩

theorem Drops.single (D : Drops h h') (hsingle : AllSingle h) : AllSingle h' := by
  intro b frags hd
  rcases D.new b frags hd with hd | hs
  · exact hsingle b frags hd
  · exact hs

theorem Drops.frees (D : Drops h h')
    (hlen : ∀ b n, h'.lengths b = some n → h.lengths b = some n) : Frees h h' :=
  ⟨hlen, fun _ _ hd => Or.inl (D.discarded hd), D.single⟩

theorem drops_of_eq (heq : h'.dropped = h.dropped) : Drops h h' := by
  refine ⟨?_, ?_⟩
  · rw [heq]
    exact fun b frags hd => hd
  · rw [heq]
    exact fun b frags hd => Or.inl hd

theorem drops_insert {b : Nat} {frags : OrdMap HeapFragment}
    (heq : h'.dropped = Function.update h.dropped b (some frags)) (hnone : h.dropped b = none)
    (hsingle : Single frags) : Drops h h' := by
  refine ⟨?_, ?_⟩
  · intro b' frags' hd
    have hne : b' ≠ b := by
      rintro rfl
      rw [hnone] at hd
      cases hd
    rw [heq, Function.update_of_ne hne, hd]
  · intro b' frags' hd
    rw [heq, Function.update_apply] at hd
    split at hd
    next =>
      cases hd
      exact Or.inr hsingle
    next => exact Or.inl hd

/-- A large block is marked when it has its one allocation. -/
theorem single_marked (fl : MultiMap) (base : Nat) {size bytes : Nat} (hpos : 0 < bytes)
    (hle : bytes ≤ size) (hlt : size < 2 ^ 62) :
    Single ((blockFragments fl .empty base size bytes).2.mapVal marked) := by
  rw [Large.mapVal_blockFragments fl base hpos hle hlt]
  intro a f a' f' hf hfree hf' hfree'
  rw [(Large.eq_base_of_used hf hfree).1, (Large.eq_base_of_used hf' hfree').1]

/-- `balance` takes each block it gives back off the counter, and stops within the bound. -/
theorem balanceLoop_exact {σ : Type u} (A : BlockAllocator σ) (s : σ) (inUseSize : Nat)
    (cache : List HeapBlock) (cacheSize : Nat)
    (hsize : cacheSize = (cache.map HeapBlock.length).sum) (hlt : cacheSize < 2 ^ 64) :
    (balanceLoop A inUseSize cache cacheSize s).2.1 =
        ((balanceLoop A inUseSize cache cacheSize s).1.map HeapBlock.length).sum ∧
      ((balanceLoop A inUseSize cache cacheSize s).1.length ≤ 1 ∨
        (balanceLoop A inUseSize cache cacheSize s).2.1 ≤ 2 * inUseSize) := by
  induction cache generalizing cacheSize s with
  | nil => exact ⟨hsize, Or.inl (Nat.zero_le 1)⟩
  | cons b rest ih =>
      cases rest with
      | nil => exact ⟨hsize, Or.inl (Nat.le_refl 1)⟩
      | cons c rest =>
          rw [balanceLoop]
          split
          next =>
            rw [List.map_cons, List.sum_cons] at hsize
            have hsub : sub64 cacheSize b.length = ((c :: rest).map HeapBlock.length).sum := by
              rw [sub64_of_le (by omega) hlt]
              omega
            exact ih (A.free s b.base b.length) (sub64 cacheSize b.length) hsub (by omega)
          next hle =>
            have hdouble : u64 (inUseSize * 2) ≤ inUseSize * 2 := Nat.mod_le ..
            refine ⟨hsize, Or.inr ?_⟩
            show cacheSize ≤ 2 * inUseSize
            omega

end SimpleHeap

/-! ## The places of the blocks -/

/-- Every block that was handed out is at hand or was given back, with its length. -/
structure Housed (blockSize : Nat) (blocks : List HeapBlock) (reg : Register) : Prop where
  places : reg.obtained.Perm (blocks ++ reg.returned)
  apart : blocks.Pairwise HeapBlock.Apart
  sized : ∀ c ∈ blocks, HeapSession.Sized blockSize c

namespace Housed

variable {blockSize : Nat} {blocks blocks' : List HeapBlock} {reg : Register}

theorem perm (H : Housed blockSize blocks reg) (hperm : blocks.Perm blocks') :
    Housed blockSize blocks' reg :=
  ⟨H.places.trans (hperm.append_right _), H.apart.perm hperm fun h => h.symm,
    fun c hc => H.sized c (hperm.mem_iff.mpr hc)⟩

theorem outstanding (H : Housed blockSize blocks reg) : reg.outstanding.Perm blocks := by
  refine List.perm_iff_count.mpr fun c => ?_
  rw [Register.outstanding, List.count_diff, H.places.count_eq c, List.count_append,
    Nat.add_sub_cancel]

/-- The block allocator hands out one block more. -/
theorem add (H : Housed blockSize blocks reg) {c : HeapBlock} (hc : HeapSession.Sized blockSize c)
    (happart : ∀ c' ∈ reg.outstanding, c'.Apart c) :
    Housed blockSize (c :: blocks) { reg with obtained := c :: reg.obtained } := by
  refine ⟨H.places.cons c, List.pairwise_cons.mpr ⟨?_, H.apart⟩, ?_⟩
  · intro c' hc'
    exact (happart c' (H.outstanding.mem_iff.mpr hc')).symm
  · intro c' hc'
    rcases List.mem_cons.mp hc' with rfl | hc'
    · exact hc
    · exact H.sized c' hc'

/-- A block is given back. -/
theorem give {c : HeapBlock} (H : Housed blockSize (c :: blocks) reg) :
    Housed blockSize blocks ((RocDxg.register blockSize).free reg c.base c.length) := by
  refine ⟨H.places.trans ?_, (List.pairwise_cons.mp H.apart).2,
    fun c' hc' => H.sized c' (List.mem_cons_of_mem _ hc')⟩
  exact List.perm_middle.symm

theorem giveAll {old : List HeapBlock} (H : Housed blockSize (old ++ blocks) reg) :
    Housed blockSize blocks
      (old.foldl (fun s b => (RocDxg.register blockSize).free s b.base b.length) reg) := by
  induction old generalizing reg with
  | nil => exact H
  | cons c old ih => exact ih H.give

theorem sum_lt (H : Housed blockSize blocks reg) :
    (blocks.map HeapBlock.length).sum < 2 ^ 64 :=
  HeapBlock.sum_lt H.apart fun c hc => ⟨(H.sized c hc).base_pos, (H.sized c hc).end_le⟩

end Housed

/-! ## Runs with a register -/

/-- A call on the heap, with the answer of the block allocator should it be asked. -/
inductive HeapCall where
  | alloc (bytes : Nat) (answer : Option (Nat × Nat))
  | free (p : Nat)
  | trim
  | discard (p : Nat)
deriving DecidableEq, Repr

/-- A heap, the register of its block allocator and the ranges it has handed out. -/
structure HeapAccount where
  heap : SimpleHeap := {}
  register : Register := {}
  live : List (Nat × Nat) := []

namespace HeapAccount

/-- One call; `none` when an assertion of the source fails. -/
def step (blockSize : Nat) (s : HeapAccount) : HeapCall → Option HeapAccount
  | .alloc bytes answer =>
      (SimpleHeap.alloc (RocDxg.register blockSize) s.heap { s.register with answer := answer }
        bytes).map fun (p, h, reg) => ⟨h, reg, if p = 0 then s.live else (p, bytes) :: s.live⟩
  | .free p =>
      let r := SimpleHeap.free (RocDxg.register blockSize) s.heap s.register p
      some ⟨r.2.1, r.2.2, if r.1 then s.live.filter fun x => x.1 ≠ p else s.live⟩
  | .trim =>
      let r := SimpleHeap.trim (RocDxg.register blockSize) s.heap s.register
      some ⟨r.1, r.2, s.live⟩
  | .discard p =>
      let r := SimpleHeap.discardBlock (RocDxg.register blockSize) s.heap s.register p
      some ⟨r.2.1, r.2.2, s.live⟩

/-- A request is positive and does not wrap with its alignment, and an answer is a block
of the address space that is large enough and disjoint from the outstanding ones. -/
def Assumed (blockSize : Nat) (s : HeapAccount) : HeapCall → Prop
  | .alloc bytes answer =>
      0 < bytes ∧ bytes + gpuHugePageSize < 2 ^ 64 ∧
        ∀ r ∈ answer, 0 < r.1 ∧ max bytes blockSize ≤ r.2 ∧ r.1 + r.2 ≤ 2 ^ 64 ∧
          ∀ c ∈ s.register.outstanding, c.Apart ⟨r.1, r.2⟩
  | .free _ => True
  | .trim => True
  | .discard _ => True

/-- An answer fits the size field of a fragment. -/
def Narrow : HeapCall → Prop
  | .alloc _ answer => ∀ r ∈ answer, r.2 < 2 ^ 62
  | .free _ => True
  | .trim => True
  | .discard _ => True

instance (blockSize : Nat) (s : HeapAccount) :
    (c : HeapCall) → Decidable (Assumed blockSize s c)
  | .alloc _ _ => inferInstanceAs (Decidable (_ ∧ _))
  | .free _ => inferInstanceAs (Decidable True)
  | .trim => inferInstanceAs (Decidable True)
  | .discard _ => inferInstanceAs (Decidable True)

instance : (c : HeapCall) → Decidable (Narrow c)
  | .alloc _ answer => inferInstanceAs (Decidable (∀ r ∈ answer, r.2 < 2 ^ 62))
  | .free _ => inferInstanceAs (Decidable True)
  | .trim => inferInstanceAs (Decidable True)
  | .discard _ => inferInstanceAs (Decidable True)

/-- An allocation that is released from a discarded block has a free fragment just below it, or
is the last of its block. -/
def clean (h : SimpleHeap) (p : Nat) : Bool :=
  match h.lookup p with
  | none => true
  | some (_, frags, f) =>
      SimpleHeap.keeps frags || f.isFree || SimpleHeap.lowerFree frags p ||
        frags.entries.all fun e => e.2.isFree || e.1 == p

/-- The call releases nothing in a discarded block, or does so cleanly. -/
def Clean (s : HeapAccount) : HeapCall → Prop
  | .free p => clean s.heap p = true
  | .alloc _ _ => True
  | .trim => True
  | .discard _ => True

instance (s : HeapAccount) : (c : HeapCall) → Decidable (Clean s c)
  | .free p => inferInstanceAs (Decidable (clean s.heap p = true))
  | .alloc _ _ => inferInstanceAs (Decidable True)
  | .trim => inferInstanceAs (Decidable True)
  | .discard _ => inferInstanceAs (Decidable True)

theorem clean_eq_true {h : SimpleHeap} (S : h.Shelved) {p b : Nat} {frags : OrdMap HeapFragment}
    {f : HeapFragment} (hd : h.dropped b = some frags) (hf : frags.find? p = some f)
    (hused : f.isFree = false) :
    clean h p = true ↔ SimpleHeap.lowerFree frags p = true ∨
      ∀ a g, frags.find? a = some g → g.isFree = false → a = p := by
  obtain ⟨hb, hk⟩ := SimpleHeap.dropped_eq_some.mp hd
  rw [clean, S.lookup_eq_some.mpr ⟨hb, hf⟩]
  simp only [hk, hused, Bool.false_or, Bool.or_eq_true, List.all_eq_true, beq_iff_eq]
  refine or_congr_right ⟨?_, ?_⟩
  · intro hall a g hg hfree
    have hor := hall (a, g) (OrdMap.find?_eq_some.mp hg)
    rw [hfree] at hor
    simpa using hor
  · intro hlast e he
    cases hfree : e.2.isFree with
    | true => exact Or.inl rfl
    | false => exact Or.inr (hlast e.1 e.2 (OrdMap.find?_eq_some.mpr he) hfree)

/-- The blocks are where the register says, but for those a call has in hand, the counters are
exact and the live ranges are the used fragments. -/
structure Exact (blockSize : Nat) (spare : List HeapBlock) (s : HeapAccount) : Prop where
  shelved : s.heap.Shelved
  housed : Housed blockSize (spare ++ s.heap.blocks) s.register
  counted : s.heap.Counted
  names : HeapSession.Names s.live s.heap

variable {blockSize : Nat} {spare : List HeapBlock} {s : HeapAccount} {h h' : SimpleHeap}
  {reg : Register} {live live' : List (Nat × Nat)}

namespace Exact

/-- The list is as before, and so are the cache and the counters. -/
theorem frame (E : Exact blockSize spare ⟨h, reg, live⟩) (hshelved : h'.Shelved)
    (hlen : h'.lengths = h.lengths) (hused : h'.usedTotal = h.usedTotal)
    (hcache : h'.blockCache = h.blockCache) (hinUse : h'.inUseSize = h.inUseSize)
    (hsize : h'.cacheSize = h.cacheSize) (hnames : HeapSession.Names live' h') :
    Exact blockSize spare ⟨h', reg, live'⟩ := by
  refine ⟨hshelved, ?_, ⟨?_, ?_⟩, hnames⟩
  · show Housed blockSize (spare ++ h'.blocks) reg
    rw [SimpleHeap.blocks, SimpleHeap.listed_congr hlen, hcache]
    exact E.housed
  · rw [hsize, hcache]
    exact E.counted.cacheSize
  · rw [hinUse, hused]
    exact E.counted.inUseSize

/-- The blocks at hand fit the address space. -/
theorem sum_lt (E : Exact blockSize spare s) :
    (spare.map HeapBlock.length).sum + (s.heap.inUseSize + s.heap.cacheSize) < 2 ^ 64 := by
  have hsum := E.housed.sum_lt
  have hused := s.heap.usedTotal_le
  have hcache := E.counted.cacheSize
  have hinUse := E.counted.inUseSize
  rw [SimpleHeap.blocks, List.map_append, List.map_append, List.sum_append, List.sum_append] at hsum
  omega

/-! ## The cache -/

/-- The first blocks of the cache are given back. -/
theorem drop (E : Exact blockSize spare ⟨h, reg, live⟩) {old rest : List HeapBlock}
    (hcache : h.blockCache = old ++ rest) :
    Exact blockSize spare ⟨{ h with blockCache := rest, cacheSize := (rest.map HeapBlock.length).sum },
      old.foldl (fun s b => (RocDxg.register blockSize).free s b.base b.length) reg, live⟩ := by
  refine ⟨⟨E.shelved.sound.of_lists rfl rfl, E.shelved.tidy, E.shelved.dropped, E.shelved.apart⟩, ?_,
    ⟨rfl, E.counted.inUseSize⟩, E.names.congr rfl⟩
  refine Housed.giveAll (E.housed.perm ?_)
  show (spare ++ (h.listed ++ h.blockCache)).Perm (old ++ (spare ++ (h.listed ++ rest)))
  rw [hcache, ← List.append_assoc, ← List.append_assoc, ← List.append_assoc, ← List.append_assoc]
  refine List.Perm.append_right rest ?_
  rw [List.append_assoc old]
  exact List.perm_append_comm

theorem balance (E : Exact blockSize [] ⟨h, reg, live⟩) :
    Exact blockSize [] ⟨(SimpleHeap.balance (RocDxg.register blockSize) h reg).1,
        (SimpleHeap.balance (RocDxg.register blockSize) h reg).2, live⟩ ∧
      (SimpleHeap.balance (RocDxg.register blockSize) h reg).1.Bounded := by
  have hlt := E.sum_lt
  obtain ⟨old, hcache, hreg⟩ := SimpleHeap.balanceLoop_spec (RocDxg.register blockSize) reg
    h.inUseSize h.blockCache h.cacheSize
  obtain ⟨hsize, hbound⟩ := SimpleHeap.balanceLoop_exact (RocDxg.register blockSize) reg
    h.inUseSize h.blockCache h.cacheSize E.counted.cacheSize (by simp only at hlt; omega)
  refine ⟨?_, hbound⟩
  have E' := E.drop hcache
  rw [← hreg, ← hsize] at E'
  exact E'

theorem trim (E : Exact blockSize [] ⟨h, reg, live⟩) :
    Exact blockSize [] ⟨(SimpleHeap.trim (RocDxg.register blockSize) h reg).1,
      (SimpleHeap.trim (RocDxg.register blockSize) h reg).2, live⟩ :=
  E.drop (List.append_nil _).symm

/-! ## Allocation -/

theorem answer (E : Exact blockSize [] ⟨h, reg, live⟩) (a : Option (Nat × Nat)) :
    Exact blockSize [] ⟨h, { reg with answer := a }, live⟩ :=
  ⟨E.shelved, ⟨E.housed.places, E.housed.apart, E.housed.sized⟩, E.counted, E.names⟩

/-- An allocation from a block at hand. -/
theorem choose (E : Exact blockSize [] ⟨h, reg, live⟩) (hbound : h.Bounded) {bytes : Nat}
    (hpos : 0 < bytes) {c : Nat × SimpleHeap} (hc : SimpleHeap.Chooses h bytes c) :
    c.1 ≠ 0 ∧ h.live c.1 = none ∧ Exact blockSize [] ⟨c.2, reg, (c.1, bytes) :: live⟩ ∧
      c.2.Bounded ∧ SimpleHeap.Drops h c.2 := by
  have S : h.Shelved := E.shelved
  obtain ⟨hp, hfresh, B⟩ := S.choose hpos hc
  have hused := SimpleHeap.usedTotal_same B.lengths fun b => by rw [B.dropped]
  have hnames := E.names.cons hfresh B.live
  have hdrops := SimpleHeap.drops_of_eq B.dropped
  refine ⟨Nat.ne_of_gt hp, hfresh, ?_⟩
  cases hc with
  | base => exact ⟨E.frame B.shelved B.lengths hused rfl rfl rfl hnames, hbound, hdrops⟩
  | aligned => exact ⟨E.frame B.shelved B.lengths hused rfl rfl rfl hnames, hbound, hdrops⟩

theorem beside {base size : Nat} (E : Exact blockSize [⟨base, size⟩] s) :
    s.heap.Beside base size := by
  have hsized := E.housed.sized ⟨base, size⟩ (List.mem_cons_self ..)
  refine ⟨hsized.base_pos, hsized.length_lt, hsized.end_le, ?_⟩
  intro b n hb
  have hmem : ⟨b, n⟩ ∈ s.heap.blocks := List.mem_append_left _ (SimpleHeap.mem_listed.mpr hb)
  exact ((List.pairwise_cons.mp E.housed.apart).1 ⟨b, n⟩ hmem).symm

/-- The last block of the cache may be taken. -/
theorem popCache (E : Exact blockSize [] ⟨h, reg, live⟩) (hbound : h.Bounded) {c : HeapBlock}
    (hc : h.blockCache.getLast? = some c) :
    Exact blockSize [c] ⟨{ h with
        blockCache := h.blockCache.dropLast
        cacheSize := sub64 h.cacheSize c.length }, reg, live⟩ ∧
      SimpleHeap.Bounded { h with
        blockCache := h.blockCache.dropLast
        cacheSize := sub64 h.cacheSize c.length } := by
  have hsplit : h.blockCache.dropLast ++ [c] = h.blockCache := List.dropLast_append_getLast? c hc
  have hlt := E.sum_lt
  have hsum := E.counted.cacheSize
  rw [← hsplit, List.map_append, List.sum_append, List.map_singleton, List.sum_singleton] at hsum
  simp only at hlt hsum
  have hsub : sub64 h.cacheSize c.length = h.cacheSize - c.length :=
    sub64_of_le (by omega) (by omega)
  refine ⟨⟨⟨E.shelved.sound.of_lists rfl rfl, E.shelved.tidy, E.shelved.dropped, E.shelved.apart⟩,
    E.housed.perm ?_, ⟨?_, E.counted.inUseSize⟩, E.names.congr rfl⟩, ?_⟩
  · show (h.listed ++ h.blockCache).Perm ([c] ++ (h.listed ++ h.blockCache.dropLast))
    rw [← hsplit, List.dropLast_concat, ← List.append_assoc]
    exact List.perm_append_comm
  · show sub64 h.cacheSize c.length = (h.blockCache.dropLast.map HeapBlock.length).sum
    omega
  · show h.blockCache.dropLast.length ≤ 1 ∨ sub64 h.cacheSize c.length ≤ 2 * h.inUseSize
    rw [SimpleHeap.Bounded] at hbound
    rw [List.length_dropLast]
    omega

/-- The block allocator hands out a block. -/
theorem obtain (E : Exact blockSize [] ⟨h, reg, live⟩) {c : HeapBlock}
    (hc : HeapSession.Sized blockSize c) (happart : ∀ c' ∈ reg.outstanding, c'.Apart c) :
    Exact blockSize [c] ⟨h, { reg with obtained := c :: reg.obtained }, live⟩ :=
  ⟨E.shelved, E.housed.add hc happart, E.counted, E.names⟩

/-- The block in hand joins the list. -/
theorem join {c : HeapBlock} (E : Exact blockSize [c] ⟨h, reg, live⟩)
    (hshelved : h'.Shelved) (hlen : h'.lengths = Function.update h.lengths c.base (some c.length))
    (hnew : h.lengths c.base = none) (hcache : h'.blockCache = h.blockCache)
    (hsize : h'.cacheSize = h.cacheSize) (hinUse : h'.inUseSize = h'.usedTotal)
    (hnames : HeapSession.Names live' h') : Exact blockSize [] ⟨h', reg, live'⟩ := by
  refine ⟨hshelved, E.housed.perm ?_, ⟨?_, hinUse⟩, hnames⟩
  · show (c :: (h.listed ++ h.blockCache)).Perm (h'.listed ++ h'.blockCache)
    rw [hcache, ← List.cons_append]
    exact (SimpleHeap.listed_insert hlen hnew).symm.append_right _
  · rw [hsize, hcache]
    exact E.counted.cacheSize

/-- An allocation from a block of its own. -/
theorem allocBlock {base size bytes : Nat} (E : Exact blockSize [⟨base, size⟩] ⟨h, reg, live⟩)
    (hbound : h.Bounded) (hpos : 0 < bytes) (hle : bytes ≤ size) :
    base ≠ 0 ∧ h.live base = none ∧ ∃ h' reg',
      SimpleHeap.allocBlock (RocDxg.register blockSize) h reg base size bytes =
        some (base, h', reg') ∧
      Exact blockSize [] ⟨h', reg', (base, bytes) :: live⟩ ∧ h'.Bounded ∧
      SimpleHeap.Drops h h' := by
  have S : h.Shelved := E.shelved
  have B : h.Beside base size := E.beside
  have hfresh := S.not_live B (Nat.lt_of_lt_of_le hpos hle)
  have hnot := S.not_listed B (Nat.lt_of_lt_of_le hpos hle)
  have hnew : h.lengths base = none := by
    rw [SimpleHeap.lengths, hnot]
    rfl
  have hdropped := SimpleHeap.dropped_of_none hnot
  have hlt := E.sum_lt
  have hinUse : h.inUseSize = h.usedTotal := E.counted.inUseSize
  simp only [List.map_cons, List.map_nil, List.sum_cons, List.sum_nil] at hlt
  have hwrap : u64 (h.inUseSize + size) = h.inUseSize + size := Nat.mod_eq_of_lt (by omega)
  refine ⟨Nat.ne_of_gt B.base_pos, hfresh, ?_⟩
  rcases S.allocBlock_spec (RocDxg.register blockSize) reg hpos hle B with
    ⟨h₁, heq, hcache, hin, hsize, E₁⟩ | ⟨h₁, heq, hcache, hin, hsize, E₁⟩
  · have hused := SimpleHeap.usedTotal_add E₁.lengths E₁.dropped hnew hdropped
    refine ⟨h₁, reg, heq, E.join E₁.shelved E₁.lengths hnew hcache hsize ?_
      (E.names.cons hfresh E₁.live), ?_, SimpleHeap.drops_of_eq E₁.dropped⟩
    · omega
    · rw [SimpleHeap.Bounded] at hbound ⊢
      rw [hcache, hsize, hin, hwrap]
      omega
  · have hused := SimpleHeap.usedTotal_dropped E₁.lengths E₁.dropped (Or.inl hnew) (Or.inr rfl)
    have hsub : sub64 (h.inUseSize + size) size = h.inUseSize := by
      rw [sub64_of_le (by omega) (by omega)]
      omega
    rw [hwrap, hsub] at hin
    obtain ⟨E', hbound'⟩ := (E.join E₁.shelved E₁.lengths hnew hcache hsize (by omega)
      (E.names.cons hfresh E₁.live)).balance
    exact ⟨_, _, heq, E', hbound', SimpleHeap.drops_insert E₁.dropped hdropped
      (SimpleHeap.single_marked _ _ hpos hle B.size_lt)⟩

/-- The answer of the block allocator is asked for. -/
theorem allocNew (E : Exact blockSize [] ⟨h, reg, live⟩) (hbound : h.Bounded) {bytes : Nat}
    (hpos : 0 < bytes)
    (hans : ∀ r ∈ reg.answer, 0 < r.1 ∧ max bytes blockSize ≤ r.2 ∧ r.1 + r.2 ≤ 2 ^ 64 ∧
      ∀ c ∈ reg.outstanding, c.Apart ⟨r.1, r.2⟩)
    (hnarrow : ∀ r ∈ reg.answer, r.2 < 2 ^ 62) :
    ∃ p h' reg', SimpleHeap.alloc.allocNew (RocDxg.register blockSize) h reg bytes =
        some (p, h', reg') ∧ (p ≠ 0 → h.live p = none) ∧
      Exact blockSize [] ⟨h', reg', if p = 0 then live else (p, bytes) :: live⟩ ∧ h'.Bounded ∧
      SimpleHeap.Drops h h' := by
  cases ha : reg.answer with
  | none =>
      refine ⟨0, h, reg, ?_, fun hne => absurd rfl hne, by simpa using E, hbound,
        SimpleHeap.drops_of_eq rfl⟩
      simp only [SimpleHeap.alloc.allocNew, RocDxg.register, ha]
  | some r =>
      obtain ⟨base, size⟩ := r
      obtain ⟨hbase, hmax, hend, happart⟩ := hans (base, size) (by rw [ha]; rfl)
      have hlt := hnarrow (base, size) (by rw [ha]; rfl)
      simp only at hbase hmax hend happart hlt
      have hsized : HeapSession.Sized blockSize ⟨base, size⟩ :=
        ⟨hbase, by show 0 < size; omega, by show blockSize ≤ size; omega, hlt, hend⟩
      obtain ⟨hne, hfresh, h', reg', halloc, E'⟩ :=
        (E.obtain hsized happart).allocBlock hbound hpos (by omega)
      refine ⟨base, h', reg', ?_, fun _ => hfresh, by rw [if_neg hne]; exact E'⟩
      rw [← halloc, SimpleHeap.alloc.allocNew]
      simp only [RocDxg.register, ha]

theorem alloc (E : Exact blockSize [] ⟨h, reg, live⟩) (hbound : h.Bounded) {bytes : Nat}
    (hpos : 0 < bytes)
    (hans : ∀ r ∈ reg.answer, 0 < r.1 ∧ max bytes blockSize ≤ r.2 ∧ r.1 + r.2 ≤ 2 ^ 64 ∧
      ∀ c ∈ reg.outstanding, c.Apart ⟨r.1, r.2⟩)
    (hnarrow : ∀ r ∈ reg.answer, r.2 < 2 ^ 62) :
    ∃ p h' reg', SimpleHeap.alloc (RocDxg.register blockSize) h reg bytes = some (p, h', reg') ∧
      (p ≠ 0 → h.live p = none) ∧
      Exact blockSize [] ⟨h', reg', if p = 0 then live else (p, bytes) :: live⟩ ∧ h'.Bounded ∧
      SimpleHeap.Drops h h' := by
  have S : h.Shelved := E.shelved
  obtain ⟨r, hr, hchoice⟩ := S.listed.allocFragment_chooses hpos
  rw [SimpleHeap.alloc, hr]
  cases r with
  | some c =>
      obtain ⟨hne, hfresh, E'⟩ := E.choose hbound hpos (hchoice c rfl)
      exact ⟨c.1, c.2, reg, rfl, fun _ => hfresh, by rw [if_neg hne]; exact E'⟩
  | none =>
      cases hlast : h.blockCache.getLast? with
      | none =>
          simp only
          exact E.allocNew hbound hpos hans hnarrow
      | some c =>
          simp only
          split
          next hlt =>
            obtain ⟨E₁, hbound₁⟩ := E.popCache hbound hlast
            have hlen := (E₁.housed.sized c (List.mem_cons_self ..)).le
            obtain ⟨hne, hfresh, h', reg', halloc, E', hbound', hdrops⟩ := E₁.allocBlock hbound₁ hpos
              (Nat.le_trans (Nat.le_of_lt hlt) hlen)
            refine ⟨c.base, h', reg', halloc, fun _ => hfresh, ?_, hbound', hdrops.old, hdrops.new⟩
            rw [if_neg hne]
            exact E'
          next => exact E.allocNew hbound hpos hans hnarrow

/-! ## Release -/

/-- A block of the list has been emptied and joins the cache. -/
theorem cached (E : Exact blockSize [] ⟨h, reg, live⟩) {b m : Nat} (hb : h.lengths b = some m)
    (hnot : h.dropped b = none) (hshelved : h'.Shelved)
    (hlen : h'.lengths = Function.update h.lengths b none) (hdropped : h'.dropped = h.dropped)
    (hcache : h'.blockCache = h.blockCache ++ [⟨b, m⟩]) (hin : h'.inUseSize = sub64 h.inUseSize m)
    (hsize : h'.cacheSize = u64 (h.cacheSize + m)) (hnames : HeapSession.Names live' h') :
    Exact blockSize [] ⟨h', reg, live'⟩ := by
  have hlt := E.sum_lt
  have hinUse : h.inUseSize = h.usedTotal := E.counted.inUseSize
  have hcacheSize : h.cacheSize = _ := E.counted.cacheSize
  have hused := SimpleHeap.usedTotal_leave hlen hdropped hb hnot
  simp only at hlt
  refine ⟨hshelved, E.housed.perm ?_, ⟨?_, ?_⟩, hnames⟩
  · show (h.listed ++ h.blockCache).Perm (h'.listed ++ h'.blockCache)
    rw [hcache, ← List.append_assoc]
    refine ((SimpleHeap.listed_erase hlen hb).append_right _).trans ?_
    exact (List.perm_append_singleton _ _).symm
  · rw [hcache, List.map_append, List.sum_append, List.map_singleton, List.sum_singleton, hsize,
      ← hcacheSize]
    exact Nat.mod_eq_of_lt (by omega)
  · rw [hin, sub64_of_le (by omega) (by omega)]
    show h.inUseSize - m = h'.usedTotal
    omega

/-- A discarded block has been emptied and is given back. -/
theorem returned (E : Exact blockSize [] ⟨h, reg, live⟩) {b m : Nat} (hb : SimpleHeap.Discarded h b m)
    (hshelved : h'.Shelved) (hlen : h'.lengths = Function.update h.lengths b none)
    (hdropped : h'.dropped = Function.update h.dropped b none)
    (hcache : h'.blockCache = h.blockCache) (hin : h'.inUseSize = h.inUseSize)
    (hsize : h'.cacheSize = h.cacheSize) (hnames : HeapSession.Names live' h') :
    Exact blockSize [] ⟨h', (RocDxg.register blockSize).free reg b m, live'⟩ := by
  obtain ⟨hsome, hb⟩ := SimpleHeap.discarded_iff.mp hb
  have hused := SimpleHeap.usedTotal_dropped hlen hdropped (Or.inr hsome) (Or.inl rfl)
  refine ⟨hshelved, Housed.give (c := ⟨b, m⟩) (E.housed.perm ?_), ⟨?_, ?_⟩, hnames⟩
  · show (h.listed ++ h.blockCache).Perm (⟨b, m⟩ :: (h'.listed ++ h'.blockCache))
    rw [hcache, ← List.cons_append]
    exact (SimpleHeap.listed_erase hlen hb).append_right _
  · rw [hsize, hcache]
    exact E.counted.cacheSize
  · rw [hin, hused]
    exact E.counted.inUseSize

/-- The first blocks of the cache may be gone after `balance`. -/
theorem mem_of_balance {σ : Type u} {A : BlockAllocator σ} {s : σ} {c : HeapBlock}
    (hc : c ∈ (SimpleHeap.balance A h s).1.blockCache) : c ∈ h.blockCache := by
  obtain ⟨old, hcache, _⟩ := SimpleHeap.balanceLoop_spec A s h.inUseSize h.blockCache h.cacheSize
  rw [hcache]
  exact List.mem_append_right _ hc

/-- `free` of an allocation of a discarded block. -/
theorem freeDropped (E : Exact blockSize [] ⟨h, reg, live⟩) (hbound : h.Bounded) {p b : Nat}
    (hclean : clean h p = true) {frags : OrdMap HeapFragment} {f : HeapFragment}
    (hd : h.dropped b = some frags) (hf : frags.find? p = some f) (hused : f.isFree = false) :
    ∃ h' reg', SimpleHeap.free (RocDxg.register blockSize) h reg p = (true, h', reg') ∧
      Exact blockSize [] ⟨h', reg', live.filter fun x => x.1 ≠ p⟩ ∧ h'.Bounded ∧
      SimpleHeap.Frees h h' := by
  have S : h.Shelved := E.shelved
  by_cases hlast : ∀ a g, frags.find? a = some g → g.isFree = false → a = p
  · obtain ⟨heq, B⟩ := S.free_last (RocDxg.register blockSize) reg hd hf hused hlast
    obtain ⟨E', hbound'⟩ := (E.returned ⟨frags, hd, rfl⟩ B.shelved B.lengths B.dropped rfl rfl rfl
      (E.names.filter B.live)).balance
    refine ⟨_, _, heq, E', hbound',
      fun _ _ hb => SimpleHeap.Shelved.lengths_of_erase B.lengths hb, ?_, ?_⟩
    · rintro b' n ⟨frags', hd', hn⟩
      by_cases hne : b' = b
      · right
        refine ⟨?_, fun c hc => mem_of_balance hc⟩
        refine (congrFun B.lengths b').trans ?_
        rw [hne, Function.update_self]
      · left
        refine ⟨frags', (congrFun B.dropped b').trans ?_, hn⟩
        rw [Function.update_of_ne hne, hd']
    · intro hsingle b' frags' hd'
      have hd'' := (congrFun B.dropped b').symm.trans hd'
      rw [Function.update_apply] at hd''
      split at hd''
      next => cases hd''
      next => exact hsingle b' frags' hd''
  · simp only [not_forall] at hlast
    obtain ⟨a, g, hg, hother, hne⟩ := hlast
    have hlow : SimpleHeap.lowerFree frags p = true := by
      rcases (clean_eq_true S hd hf hused).mp hclean with hlow | hlast
      · exact hlow
      · exact absurd (hlast a g hg hother) hne
    obtain ⟨frags', heq, B⟩ :=
      S.free_lower (RocDxg.register blockSize) reg hd hf hused hlow hg hother hne
    have hsame : ∀ b', ((h.withBlock b (h.freeList, frags')).dropped b').isSome =
        (h.dropped b').isSome := by
      intro b'
      rw [B.dropped, Function.update_apply]
      split
      next hb' =>
        rw [hb', hd]
        rfl
      next => rfl
    refine ⟨_, _, heq, ?_, hbound, ?_, ?_, ?_⟩
    · exact E.frame B.shelved B.lengths (SimpleHeap.usedTotal_same B.lengths hsame) rfl rfl rfl
        (E.names.filter B.live)
    · rw [B.lengths]
      exact fun _ _ hb => hb
    · intro b' n hd'
      left
      rw [SimpleHeap.discarded_iff] at hd' ⊢
      rw [hsame, B.lengths]
      exact hd'
    · intro hsingle
      exact absurd (hsingle b frags hd a g p f hg hother hf hused) hne

theorem free (E : Exact blockSize [] ⟨h, reg, live⟩) (hbound : h.Bounded) {p : Nat}
    (hclean : clean h p = true) :
    ∃ r h' reg', SimpleHeap.free (RocDxg.register blockSize) h reg p = (r, h', reg') ∧
      (r = true ↔ p = 0 ∨ (h.live p).isSome = true) ∧
      Exact blockSize [] ⟨h', reg', if r then live.filter fun x => x.1 ≠ p else live⟩ ∧
      h'.Bounded ∧ SimpleHeap.Frees h h' := by
  have S : h.Shelved := E.shelved
  by_cases hp : p = 0
  · subst hp
    have hlive : h.live 0 = none := by
      refine Option.eq_none_iff_forall_ne_some.mpr fun n hn => ?_
      exact absurd (S.live_pos hn) (Nat.lt_irrefl 0)
    have hself : h.live = Function.update h.live 0 none :=
      (Function.update_eq_self_iff.mpr hlive.symm).symm
    refine ⟨true, h, reg, rfl, by simp, ?_, hbound, (SimpleHeap.drops_of_eq rfl).frees fun _ _ hb => hb⟩
    exact E.frame S rfl rfl rfl rfl rfl (E.names.filter hself)
  · cases hl : h.live p with
    | none =>
        refine ⟨false, h, reg, SimpleHeap.free_of_not_live _ reg hp hl, by simp [hp], E, hbound,
          (SimpleHeap.drops_of_eq rfl).frees fun _ _ hb => hb⟩
    | some n =>
        rcases S.live_iff.mp hl with hk | ⟨b, frags, f, hd, hf, hused, _⟩
        · rcases S.free_kept (RocDxg.register blockSize) reg hk with
            ⟨h', heq, hcache, hin, hsize, B⟩ | ⟨b, m, h₁, heq, hb, hnot, hcache, hin, hsize, B⟩
          · have hused := SimpleHeap.usedTotal_same B.lengths fun b => by rw [B.dropped]
            refine ⟨true, h', reg, heq, by simp, ?_, ?_, (SimpleHeap.drops_of_eq B.dropped).frees ?_⟩
            · exact E.frame B.shelved B.lengths hused hcache hin hsize (E.names.filter B.live)
            · rw [SimpleHeap.Bounded, hcache, hin, hsize]
              exact hbound
            · rw [B.lengths]
              exact fun _ _ hb => hb
          · obtain ⟨E', hbound'⟩ := (E.cached hb hnot B.shelved B.lengths B.dropped hcache hin hsize
              (E.names.filter B.live)).balance
            have hdrops : SimpleHeap.Drops h
                (SimpleHeap.balance (RocDxg.register blockSize) h₁ reg).1 :=
              SimpleHeap.drops_of_eq B.dropped
            exact ⟨true, _, _, heq, by simp, E', hbound',
              hdrops.frees fun _ _ hb => SimpleHeap.Shelved.lengths_of_erase B.lengths hb⟩
        · obtain ⟨h', reg', heq, E', hbound', hfrees⟩ := E.freeDropped hbound hclean hd hf hused
          exact ⟨true, h', reg', heq, by simp, E', hbound', hfrees⟩

/-! ## Discarding a block -/

theorem discard (E : Exact blockSize [] ⟨h, reg, live⟩) (hbound : h.Bounded) (p : Nat) :
    ∃ r h' reg', SimpleHeap.discardBlock (RocDxg.register blockSize) h reg p = (r, h', reg') ∧
      Exact blockSize [] ⟨h', reg', live⟩ ∧ h'.Bounded ∧
      (∀ b n, SimpleHeap.Discarded h b n → SimpleHeap.Discarded h' b n) ∧
      (r = true → p ≠ 0 → ∃ b n, SimpleHeap.Discarded h' b n ∧ b ≤ p ∧ p < b + n) := by
  have S : h.Shelved := E.shelved
  by_cases hp : p = 0
  · subst hp
    exact ⟨true, h, reg, rfl, E, hbound, fun _ _ hd => hd, fun _ hne => absurd rfl hne⟩
  by_cases hout : ∀ b n, h.lengths b = some n → ¬ (b ≤ p ∧ p < b + n)
  · exact ⟨false, h, reg, S.discardBlock_outside _ reg hp hout, E, hbound, fun _ _ hd => hd, nofun⟩
  simp only [not_forall, not_not] at hout
  obtain ⟨b, n, hb, hlo, hhi⟩ := hout
  obtain ⟨frags, hfind, hn⟩ := SimpleHeap.lengths_eq_some.mp hb
  rw [← hn] at hhi
  rcases S.kept_or_dropped hfind with hk | ⟨hd, _⟩
  · obtain ⟨h₁, heq, hcache, hin, hsize, B⟩ :=
      S.discardBlock_of_kept (RocDxg.register blockSize) reg hk hlo hhi
    have hnot : h.dropped b = none :=
      SimpleHeap.dropped_of_keeps hfind (SimpleHeap.find?_kept.mp hk).2
    have hlt := E.sum_lt
    have hinUse : h.inUseSize = h.usedTotal := E.counted.inUseSize
    have hused := SimpleHeap.usedTotal_discard B.lengths B.dropped hb hnot
    simp only at hlt
    have E₁ : Exact blockSize [] ⟨h₁, reg, live⟩ := by
      refine ⟨B.shelved, ?_, ⟨?_, ?_⟩, E.names.congr B.live⟩
      · show Housed blockSize (h₁.listed ++ h₁.blockCache) reg
        rw [SimpleHeap.listed_congr B.lengths, hcache]
        exact E.housed
      · rw [hsize, hcache]
        exact E.counted.cacheSize
      · rw [hin, hn, sub64_of_le (by omega) (by omega)]
        show h.inUseSize - n = h₁.usedTotal
        omega
    obtain ⟨E', hbound'⟩ := E₁.balance
    refine ⟨true, _, _, heq, E', hbound', ?_, ?_⟩
    · intro b' n' hd'
      show SimpleHeap.Discarded h₁ b' n'
      obtain ⟨hsome, hlen⟩ := SimpleHeap.discarded_iff.mp hd'
      refine SimpleHeap.discarded_iff.mpr ⟨?_, by rw [B.lengths, hlen]⟩
      rw [B.dropped, Function.update_apply]
      split
      next => rfl
      next => exact hsome
    · intro _ _
      refine ⟨b, n, ?_, hlo, by omega⟩
      show SimpleHeap.Discarded h₁ b n
      refine SimpleHeap.discarded_iff.mpr ⟨?_, by rw [B.lengths, hb]⟩
      rw [B.dropped, Function.update_self]
      rfl
  · refine ⟨true, h, reg, S.discardBlock_of_dropped _ reg hd hlo hhi, E, hbound, fun _ _ hd => hd,
      fun _ _ => ⟨b, _, ⟨frags, hd, rfl⟩, hlo, hhi⟩⟩

end Exact

/-! ## Runs -/

theorem exact_new : Exact blockSize [] {} := by
  have hnone : ({} : SimpleHeap).dropped = fun _ => none := rfl
  refine ⟨⟨SimpleHeap.sound_new, nofun, ?_, nofun⟩, ⟨List.Perm.refl _, List.Pairwise.nil, nofun⟩,
    ⟨rfl, rfl⟩, ⟨?_, List.Pairwise.nil⟩⟩
  · show ∀ b frags, ({} : SimpleHeap).dropped b = some frags → _
    rw [hnone]
    nofun
  · intro a n
    constructor
    · nofun
    · nofun

/-- What a call keeps. -/
theorem step_exact (E : Exact blockSize [] s) (hbound : s.heap.Bounded) {c : HeapCall}
    (hassumed : Assumed blockSize s c) (hnarrow : Narrow c) (hclean : Clean s c) :
    ∃ s', s.step blockSize c = some s' ∧ Exact blockSize [] s' ∧ s'.heap.Bounded := by
  obtain ⟨h, reg, live⟩ := s
  cases c with
  | alloc bytes answer =>
      obtain ⟨hpos, _, hans⟩ := hassumed
      obtain ⟨p, h', reg', halloc, _, E', hbound', _⟩ :=
        (E.answer answer).alloc hbound hpos hans hnarrow
      exact ⟨_, by rw [step, halloc]; rfl, E', hbound'⟩
  | free p =>
      obtain ⟨r, h', reg', hfree, _, E', hbound', _⟩ := E.free hbound hclean
      exact ⟨_, by rw [step, hfree], E', hbound'⟩
  | trim => exact ⟨_, rfl, E.trim, Or.inl (Nat.zero_le 1)⟩
  | discard p =>
      obtain ⟨r, h', reg', hdiscard, E', hbound', _⟩ := E.discard hbound p
      exact ⟨_, by rw [step, hdiscard], E', hbound'⟩

/-! ## The accounts -/

/-- The accounts are exact and the cache is bounded. -/
structure Accounted (s : HeapAccount) : Prop where
  cacheSize : s.heap.cacheSize = (s.heap.blockCache.map HeapBlock.length).sum
  /-- The bytes of the listed blocks that are not discarded. -/
  inUseSize : s.heap.inUseSize = s.heap.usedTotal
  /-- A block that leaves the cache or the bytes in use is covered by the counter. -/
  cacheCovers : ∀ c ∈ s.heap.blockCache, c.length ≤ s.heap.cacheSize
  inUseCovers : ∀ b n, s.heap.lengths b = some n → s.heap.dropped b = none → n ≤ s.heap.inUseSize
  bounded : s.heap.blockCache.length ≤ 1 ∨ s.heap.cacheSize ≤ 2 * s.heap.inUseSize
  /-- Every block handed out is listed, cached or given back, with its length. -/
  places : s.register.obtained.Perm (s.heap.listed ++ s.heap.blockCache ++ s.register.returned)
  /-- No block is in two of the places. -/
  apart : (s.heap.listed ++ s.heap.blockCache).Pairwise HeapBlock.Apart

theorem Exact.accounts (E : Exact blockSize [] s) (hbound : s.heap.Bounded) : Accounted s := by
  refine ⟨E.counted.cacheSize, E.counted.inUseSize, ?_, ?_, hbound, E.housed.places,
    E.housed.apart⟩
  · intro c hc
    rw [E.counted.cacheSize]
    exact List.single_le_sum (fun _ _ => Nat.zero_le _) _ (List.mem_map_of_mem hc)
  · intro b n hb hnot
    rw [E.counted.inUseSize]
    have hmem : ⟨b, n⟩ ∈ (SimpleHeap.kept s.heap).listed := by
      rw [SimpleHeap.mem_listed, SimpleHeap.lengths_kept_eq, hnot]
      exact hb
    exact List.single_le_sum (fun _ _ => Nat.zero_le _) _ (List.mem_map_of_mem hmem)

/-- The call is not `discardBlock`. -/
def Internal : HeapCall → Prop
  | .discard _ => False
  | .alloc _ _ => True
  | .free _ => True
  | .trim => True

instance : (c : HeapCall) → Decidable (Internal c)
  | .discard _ => inferInstanceAs (Decidable False)
  | .alloc _ _ => inferInstanceAs (Decidable True)
  | .free _ => inferInstanceAs (Decidable True)
  | .trim => inferInstanceAs (Decidable True)

theorem clean_of_single (S : h.Shelved) (hsingle : h.AllSingle) (p : Nat) : clean h p = true := by
  cases hl : h.lookup p with
  | none => rw [clean, hl]
  | some e =>
      obtain ⟨b, frags, f⟩ := e
      obtain ⟨hb, hf⟩ := S.lookup_eq_some.mp hl
      rcases S.kept_or_dropped hb with hk | ⟨hd, _⟩
      · simp [clean, hl, (SimpleHeap.find?_kept.mp hk).2]
      · cases hused : f.isFree with
        | true => simp [clean, hl, hused]
        | false =>
            rw [clean_eq_true S hd hf hused]
            exact Or.inr fun a g hg hother => hsingle b frags hd a g p f hg hother hf hused

theorem Clean.of_single (S : s.heap.Shelved) (hsingle : s.heap.AllSingle) (c : HeapCall) :
    Clean s c := by
  cases c with
  | free p => exact clean_of_single S hsingle p
  | alloc _ _ => trivial
  | trim => trivial
  | discard _ => trivial

/-- A block that the heap discards has one allocation, so no release leaves a mark behind. -/
theorem step_single (E : Exact blockSize [] s) (hbound : s.heap.Bounded)
    (hsingle : s.heap.AllSingle) {c : HeapCall} {s' : HeapAccount}
    (hassumed : Assumed blockSize s c) (hnarrow : Narrow c) (hinternal : Internal c)
    (hstep : s.step blockSize c = some s') : s'.heap.AllSingle := by
  obtain ⟨h, reg, live⟩ := s
  cases c with
  | alloc bytes answer =>
      obtain ⟨hpos, _, hans⟩ := hassumed
      obtain ⟨p, h', reg', halloc, _, _, _, hdrops⟩ :=
        (E.answer answer).alloc hbound hpos hans hnarrow
      rw [step, halloc] at hstep
      cases hstep
      exact hdrops.single hsingle
  | free p =>
      obtain ⟨r, h', reg', hfree, _, _, _, hfrees⟩ :=
        E.free hbound (clean_of_single E.shelved hsingle p)
      rw [step, hfree] at hstep
      cases hstep
      exact hfrees.single hsingle
  | trim =>
      cases hstep
      exact hsingle
  | discard p => exact absurd hinternal not_false

/-- In every run of `alloc`, `free` and `trim` whose blocks fit the size field the counters are
exact, the cache is bounded and every block is in one place; and no call fails an assertion. -/
theorem accounted (blockSize : Nat)
    (h : Reach (step blockSize) (fun s c => Assumed blockSize s c ∧ Narrow c ∧ Internal c) {} s) :
    Accounted s ∧ ∀ c, Assumed blockSize s c → Narrow c → Internal c →
      (s.step blockSize c).isSome = true := by
  have hinv : Exact blockSize [] s ∧ s.heap.Bounded ∧ s.heap.AllSingle := by
    refine h.invariant (I := fun s => Exact blockSize [] s ∧ s.heap.Bounded ∧ s.heap.AllSingle)
      ⟨exact_new, Or.inl (Nat.zero_le 1), nofun⟩ ?_
    rintro s c s' ⟨E, hbound, hsingle⟩ ⟨hassumed, hnarrow, hinternal⟩ hstep
    have hclean := Clean.of_single E.shelved hsingle c
    obtain ⟨s'', hstep', E', hbound'⟩ := step_exact E hbound hassumed hnarrow hclean
    rw [hstep] at hstep'
    cases hstep'
    exact ⟨E', hbound', step_single E hbound hsingle hassumed hnarrow hinternal hstep⟩
  obtain ⟨E, hbound, hsingle⟩ := hinv
  refine ⟨E.accounts hbound, ?_⟩
  intro c hassumed hnarrow hinternal
  have hclean := Clean.of_single E.shelved hsingle c
  obtain ⟨s', hstep, _⟩ := step_exact E hbound hassumed hnarrow hclean
  rw [hstep]
  rfl

/-- A run that caches two blocks, discards a large one and gives the first block back. -/
theorem accounted_run :
    ∃ s, Reach (step 0x4000) (fun s c => Assumed 0x4000 s c ∧ Narrow c ∧ Internal c) {} s ∧
      s.register.returned = [⟨0x1000, 0x4000⟩, ⟨0x20000, 0x5000⟩] ∧ Accounted s := by
  have hrun : (runAll (step 0x4000) (fun s c => Assumed 0x4000 s c ∧ Narrow c ∧ Internal c) {}
      [.alloc 0x4000 (some (0x1000, 0x4000)), .alloc 0x4000 (some (0x10000, 0x4000)),
        .alloc 0x5000 (some (0x20000, 0x5000)), .free 0x1000, .free 0x20000, .free 0x10000]).map
        (fun s => s.register.returned) = some [⟨0x1000, 0x4000⟩, ⟨0x20000, 0x5000⟩] := by
    decide
  obtain ⟨s, hs, hreturned⟩ := Option.map_eq_some_iff.mp hrun
  have hreach := reach_of_runAll hs
  exact ⟨s, hreach, hreturned, (accounted 0x4000 hreach).1⟩

/-- A block whose size does not fit the field leaves bytes in use that no block has. -/
theorem wide_block_not_accounted :
    ¬ ∀ s, Reach (step 0x4000) (fun s c => Assumed 0x4000 s c ∧ Internal c) {} s →
      Accounted s := by
  intro hall
  have hrun : (runAll (step 0x4000) (fun s c => Assumed 0x4000 s c ∧ Internal c) {}
      [.alloc 1 (some (0x1000, 2 ^ 62 + 1)), .free 0x1000]).map
        (fun s => (s.heap.inUseSize, s.heap.usedTotal)) = some (2 ^ 62, 0) := by
    decide
  obtain ⟨s, hs, heq⟩ := Option.map_eq_some_iff.mp hrun
  have hinUse := (hall s (reach_of_runAll hs)).inUseSize
  simp only [Prod.mk.injEq] at heq
  omega

end HeapAccount

end RocDxg
