import RocDxg.Memory.BlockCalls
import RocDxg.Memory.HeapRuns

/-!
# What the calls on the sub-allocator answer

`free` and `block_base` decide whether an address is live by a look-up in the nearest block
below it and by the free bit of the fragment they find.  In every run of the heap that is
right: they accept the results of `alloc` that have not been released, and no other address
(`HeapSession.recognised`).

`alloc` aligns a request of 2 MiB or more to 2 MiB and a smaller one to a page.  For sizes of
whole pages it is served without a new block while a free fragment has 2 MiB to spare, and it leaves
the heap as it is when it gets none (`HeapSession.thrifty`).
-/

namespace RocDxg

open Lib (OrdMap MultiMap Node TileMap Reach runAll reach_of_runAll)

namespace HeapSession

variable {blockSize : Nat} {s s' : HeapSession}

/-- An address that `alloc` returned and that has not been released. -/
def Live (s : HeapSession) (p : Nat) : Prop := ∃ n, (p, n) ∈ s.live

/-- A call of `alloc` that returns `p`. -/
def Returns (blockSize : Nat) (s : HeapSession) (p : Nat) : HeapRequest → Prop
  | .alloc bytes answer =>
      ∃ r, SimpleHeap.alloc (RocDxg.ledger blockSize) s.heap { s.ledger with answer := answer } bytes =
        some (p, r)
  | .free _ => False
  | .trim => False

/-- `free` on the heap of a session. -/
def callFree (blockSize : Nat) (s : HeapSession) (p : Nat) : Bool × SimpleHeap × Ledger :=
  SimpleHeap.free (RocDxg.ledger blockSize) s.heap s.ledger p

/-! ## One state -/

theorem Inv.live_iff (I : Inv blockSize s) {p : Nat} : s.Live p ↔ ∃ n, s.heap.live p = some n :=
  exists_congr fun n => I.live p n

theorem Inv.not_live_zero (I : Inv blockSize s) : ¬ s.Live 0 := by
  intro hlive
  obtain ⟨n, hn⟩ := I.live_iff.mp hlive
  exact absurd (I.whole.shelved.live_pos hn) (Nat.lt_irrefl 0)

/-- What is not live is refused, and the heap stays as it is. -/
theorem Inv.free_of_not_live (I : Inv blockSize s) {p : Nat} (hp : p ≠ 0) (hlive : ¬ s.Live p) :
    callFree blockSize s p = (false, s.heap, s.ledger) := by
  refine SimpleHeap.free_of_not_live _ _ hp ?_
  refine Option.eq_none_iff_forall_ne_some.mpr fun n hn => hlive ?_
  exact I.live_iff.mpr ⟨n, hn⟩

theorem Inv.free_of_live (I : Inv blockSize s) {p : Nat} (hlive : s.Live p) :
    (callFree blockSize s p).1 = true := by
  have hp : p ≠ 0 := by
    rintro rfl
    exact I.not_live_zero hlive
  obtain ⟨n, hn⟩ := I.live_iff.mp hlive
  obtain ⟨b, frags, f, hl, hused, _⟩ := SimpleHeap.live_eq_lookup.mp hn
  rw [callFree, SimpleHeap.free, if_neg hp, hl]
  simp [hused]

theorem Inv.free_iff (I : Inv blockSize s) (p : Nat) :
    (callFree blockSize s p).1 = true ↔ p = 0 ∨ s.Live p := by
  constructor
  · intro hfree
    by_contra hno
    obtain ⟨hp, hlive⟩ := not_or.mp hno
    rw [I.free_of_not_live hp hlive] at hfree
    cases hfree
  · rintro (rfl | hlive)
    · rfl
    · exact I.free_of_live hlive

/-- `block_base` of a live address is the base of the block around it. -/
theorem Inv.blockBase_of_live (I : Inv blockSize s) {p : Nat} (hlive : s.Live p) :
    s.heap.blockBase p ≠ 0 ∧ ∃ n, ⟨s.heap.blockBase p, n⟩ ∈ s.ledger.outstanding ∧
      s.heap.blockBase p ≤ p ∧ p < s.heap.blockBase p + n := by
  have hp : p ≠ 0 := by
    rintro rfl
    exact I.not_live_zero hlive
  obtain ⟨n, hn⟩ := I.live_iff.mp hlive
  obtain ⟨b, frags, f, hl, hused, _⟩ := SimpleHeap.live_eq_lookup.mp hn
  obtain ⟨hb, hf⟩ := I.whole.shelved.lookup_eq_some.mp hl
  obtain ⟨hpos, _, ht⟩ := I.whole.shelved.tiles hb
  have hbounds := ht.bounds hf
  have hbase : s.heap.blockBase p = b := by
    rw [SimpleHeap.blockBase, if_neg hp, hl]
    simp [hused]
  rw [hbase]
  refine ⟨Nat.ne_of_gt hpos, _, I.listed b _ (SimpleHeap.lengths_eq_some.mpr ⟨frags, hb, rfl⟩),
    hbounds.1, ?_⟩
  omega

theorem Inv.blockBase_of_not_live (I : Inv blockSize s) {p : Nat} (hlive : ¬ s.Live p) :
    s.heap.blockBase p = 0 := by
  rw [SimpleHeap.blockBase]
  split
  next => rfl
  next =>
    cases hl : s.heap.lookup p with
    | none => rfl
    | some r =>
        obtain ⟨b, frags, f⟩ := r
        cases hfree : f.isFree with
        | true => simp [hfree]
        | false =>
            have hn := SimpleHeap.live_eq_lookup.mpr ⟨b, frags, f, hl, hfree, rfl⟩
            exact absurd (I.live_iff.mpr ⟨_, hn⟩) hlive

/-! ## Runs -/

/-- A released address is not live. -/
theorem Inv.not_live_of_free (I : Inv blockSize s) {p : Nat} (hp : p ≠ 0)
    (hstep : s.step blockSize (.free p) = some s') : ¬ s'.Live p := by
  rintro ⟨n, hn⟩
  cases hstep
  by_cases hlive : s.Live p
  · have hfree := I.free_of_live hlive
    rw [callFree] at hfree
    simp [hfree] at hn
  · have hfree := I.free_of_not_live hp hlive
    rw [callFree] at hfree
    simp only [hfree, Bool.false_eq_true, if_false] at hn
    exact hlive ⟨n, hn⟩

/-- Only a call of `alloc` that returns an address makes it live. -/
theorem step_not_live {p : Nat} {r : HeapRequest} (hlive : ¬ s.Live p)
    (hret : ¬ Returns blockSize s p r) (hstep : s.step blockSize r = some s') : ¬ s'.Live p := by
  rintro ⟨n, hn⟩
  cases r with
  | alloc bytes answer =>
      obtain ⟨⟨q, h, led⟩, halloc, rfl⟩ := Option.map_eq_some_iff.mp hstep
      have hn : (p, n) ∈ if q = 0 then s.live else (q, bytes) :: s.live := hn
      split at hn
      next => exact hlive ⟨n, hn⟩
      next =>
        rcases List.mem_cons.mp hn with heq | hmem
        · cases heq
          exact hret ⟨_, halloc⟩
        · exact hlive ⟨n, hmem⟩
  | free q =>
      cases hstep
      have hn : (p, n) ∈ if (callFree blockSize s q).1 then s.live.filter (fun x => x.1 ≠ q) else s.live :=
        hn
      split at hn
      next => exact hlive ⟨n, (List.mem_filter.mp hn).1⟩
      next => exact hlive ⟨n, hn⟩
  | trim =>
      cases hstep
      exact hlive ⟨n, hn⟩

/-- In every run `free` and `block_base` recognise the live addresses: what `free` refuses
changes nothing, and what it has released it refuses until `alloc` returns it again. -/
theorem recognised (blockSize : Nat)
    (h : Reach (step blockSize) (fun s r => Assumed blockSize s r ∧ Narrow r) {} s) (p : Nat) :
    ((callFree blockSize s p).1 = true ↔ p = 0 ∨ s.Live p) ∧
      ((callFree blockSize s p).1 = false → (callFree blockSize s p).2 = (s.heap, s.ledger)) ∧
      (p ≠ 0 → ∀ s₁ s₂, s.step blockSize (.free p) = some s₁ →
        Reach (step blockSize) (fun s r => (Assumed blockSize s r ∧ Narrow r) ∧
          ¬ Returns blockSize s p r) s₁ s₂ → (callFree blockSize s₂ p).1 = false) ∧
      (s.heap.blockBase p ≠ 0 ↔ s.Live p) ∧
      (s.Live p → ∃ n, ⟨s.heap.blockBase p, n⟩ ∈ s.ledger.outstanding ∧
        s.heap.blockBase p ≤ p ∧ p < s.heap.blockBase p + n) := by
  have I := inv_of_reach inv_new h
  refine ⟨I.free_iff p, ?_, ?_, ?_, fun hlive => (I.blockBase_of_live hlive).2⟩
  · intro hfree
    have hno : ¬ (p = 0 ∨ s.Live p) := by
      rw [← I.free_iff p, hfree]
      exact Bool.false_ne_true
    obtain ⟨hp, hlive⟩ := not_or.mp hno
    rw [I.free_of_not_live hp hlive]
  · intro hp s₁ s₂ hstep hrun
    have hreach : Reach (step blockSize) (fun s r => Assumed blockSize s r ∧ Narrow r) s s₁ :=
      .step (e := .free p) .start ⟨trivial, trivial⟩ hstep
    have I₂ := inv_of_reach (inv_of_reach I hreach) (hrun.mono fun _ _ hok => hok.1)
    have hlive : ¬ s₂.Live p := by
      refine hrun.invariant (I := fun s => ¬ s.Live p) (I.not_live_of_free hp hstep) ?_
      intro s r s' hs hok hstep'
      exact step_not_live hs hok.2 hstep'
    rw [I₂.free_of_not_live hp hlive]
  · constructor
    · intro hbase
      by_contra hlive
      exact hbase (I.blockBase_of_not_live hlive)
    · exact fun hlive => (I.blockBase_of_live hlive).1

/-- In a run with a large block and a merge, an address that was released is refused. -/
theorem recognised_run :
    ∃ s, Reach (step 0x4000) (fun s r => Assumed 0x4000 s r ∧ Narrow r) {} s ∧
      (callFree 0x4000 s 0x2000).1 = true ∧ (callFree 0x4000 s 0x1000).1 = false := by
  have hrun : (runAll (step 0x4000) (fun s r => Assumed 0x4000 s r ∧ Narrow r) {}
      [.alloc 0x1000 (some (0x1000, 0x4000)), .alloc 0x800 none,
        .alloc 0x5000 (some (0x9000, 0x8000)), .free 0x1000]).map live =
        some [(0x9000, 0x5000), (0x2000, 0x800)] := by
    decide
  obtain ⟨s, hs, hlive⟩ := Option.map_eq_some_iff.mp hrun
  have hreach := reach_of_runAll hs
  refine ⟨s, hreach, (recognised 0x4000 hreach 0x2000).1.mpr (Or.inr ⟨0x800, ?_⟩), ?_⟩
  · rw [hlive]
    decide
  · refine Bool.eq_false_iff.mpr fun hfree => ?_
    rcases (recognised 0x4000 hreach 0x1000).1.mp hfree with hzero | ⟨n, hn⟩
    · cases hzero
    · rw [hlive] at hn
      simp at hn

end HeapSession

/-! ## The block allocator in the calls -/

namespace SimpleHeap

variable {σ : Type u} {A : BlockAllocator σ} {h h' : SimpleHeap} {x x' : σ}

/-- The heap serves a request without its block allocator. -/
def Unasked (blockSize : Nat) (h : SimpleHeap) (bytes p : Nat) (h' : SimpleHeap) : Prop :=
  ∀ (τ : Type) (B : BlockAllocator τ) (y : τ), B.blockSize = blockSize →
    alloc B h y bytes = some (p, h', y)

theorem unasked_of_fragment {bytes p : Nat} (blockSize : Nat)
    (hfrag : h.allocFragment bytes = some (some (p, h'))) : Unasked blockSize h bytes p h' := by
  intro τ B y _
  rw [alloc, hfrag]

theorem unasked_of_cache {bytes p : Nat} {c : HeapBlock}
    (hfrag : h.allocFragment bytes = some none) (hlast : h.blockCache.getLast? = some c)
    (hlt : bytes < A.blockSize)
    (halloc : allocBlock A { h with
      blockCache := h.blockCache.dropLast
      cacheSize := sub64 h.cacheSize c.length } x c.base c.length bytes = some (p, h', x')) :
    Unasked A.blockSize h bytes p h' := by
  intro τ B y hsize
  rw [alloc, hfrag, hlast]
  simp only [hsize, if_pos hlt]
  rw [allocBlock] at halloc ⊢
  split at halloc
  next => cases halloc
  next hle =>
    simp only [if_neg hle, hsize, if_neg (Nat.lt_asymm hlt)] at halloc ⊢
    cases halloc
    rfl

end SimpleHeap

/-! ## Requests of whole pages -/

namespace SimpleHeap

variable {h : SimpleHeap}

/-- A free fragment with 2 MiB to spare is enough, if the free fragments begin at pages. -/
theorem Listed.allocFragment_found (H : Listed h) {bytes : Nat}
    (hwrap : bytes + gpuHugePageSize < 2 ^ 64)
    (hpage : ∀ n ∈ h.freeList.nodes, defaultGpuPageSize ∣ n.val) {n : Node}
    (hn : n ∈ h.freeList.nodes) (hle : bytes + gpuHugePageSize ≤ n.key) :
    ∃ c, h.allocFragment bytes = some (some c) := by
  have hsome : ∀ k, k ≤ n.key → ∃ m, h.freeList.lowerBound k = some m := by
    intro k hk
    cases hlb : h.freeList.lowerBound k with
    | none => exact absurd (MultiMap.lowerBound_eq_none.mp hlb n hn) (Nat.not_lt.mpr hk)
    | some m => exact ⟨m, rfl⟩
  obtain ⟨m, hm⟩ := hsome bytes (by omega)
  obtain ⟨hmem, hkey⟩ := MultiMap.lowerBound_mem hm
  obtain ⟨_, _, b, frags, hl⟩ := H m hmem
  have hfits : ¬ (m.key < bytes ∨ m.key ≠ m.key) := by
    rintro (hlt | hne)
    · omega
    · exact hne rfl
  by_cases hhuge : bytes ≥ gpuHugePageSize
  · simp only [allocFragment, if_pos hhuge, allocLoop, hm, hl, if_neg hfits, true_and]
    split
    next => exact ⟨_, rfl⟩
    next =>
      split
      next =>
        rw [u64_of_lt hwrap]
        obtain ⟨m', hm'⟩ := hsome (bytes + gpuHugePageSize) hle
        obtain ⟨hmem', hkey'⟩ := MultiMap.lowerBound_mem hm'
        obtain ⟨_, _, b', frags', hl'⟩ := H m' hmem'
        have hfits' : ¬ (m'.key < bytes ∨ m'.key ≠ m'.key) := by
          rintro (hlt | hne)
          · omega
          · exact hne rfl
        simp only [hm', hl', if_neg hfits', Nat.zero_add, Nat.one_ne_zero, false_and, if_false]
        split
        next => exact ⟨_, rfl⟩
        next => exact ⟨_, rfl⟩
      next => exact ⟨_, rfl⟩
  · have hdelta : m.val % defaultGpuPageSize = 0 := Nat.mod_eq_zero_of_dvd (hpage m hmem)
    simp only [allocFragment, if_neg hhuge, allocLoop, hm, hl, if_neg hfits, hdelta, if_true]
    exact ⟨_, rfl⟩

end SimpleHeap

namespace HeapSession

open SimpleHeap (granule Unasked)

variable {blockSize : Nat} {s s' : HeapSession}

/-- A request of whole pages, and a block of whole pages at a multiple of 2 MiB. -/
def Paged : HeapRequest → Prop
  | .alloc bytes answer =>
      defaultGpuPageSize ∣ bytes ∧ ∀ r ∈ answer, gpuHugePageSize ∣ r.1 ∧ defaultGpuPageSize ∣ r.2
  | .free _ => True
  | .trim => True

instance : (r : HeapRequest) → Decidable (Paged r)
  | .alloc _ _ => inferInstanceAs (Decidable (_ ∧ _))
  | .free _ => inferInstanceAs (Decidable True)
  | .trim => inferInstanceAs (Decidable True)

/-- The outstanding blocks begin at multiples of 2 MiB. -/
def Huge (led : Ledger) : Prop := ∀ c ∈ led.outstanding, gpuHugePageSize ∣ c.base

/-- Blocks begin at multiples of 2 MiB, and live ranges are whole pages. -/
structure Pages (s : HeapSession) : Prop where
  blocks : Huge s.ledger
  live : ∀ r ∈ s.live, defaultGpuPageSize ∣ r.1 ∧ defaultGpuPageSize ∣ r.2

/-- A free fragment begins with its block, or where a live range ends. -/
theorem Pages.node (P : Pages s) (I : Inv blockSize s) {n : Node}
    (hn : n ∈ s.heap.freeList.nodes) : defaultGpuPageSize ∣ n.val := by
  have hrep := I.represents
  obtain ⟨b, frags, hb, hf⟩ := hrep.listed n hn
  obtain ⟨len, hout, ht⟩ := hrep.tiles b frags hb
  have hbounds := ht.bounds hf
  cases hprev : frags.prev? n.val with
  | none =>
      have hval : n.val = b := by
        by_contra hne
        obtain ⟨g, hg⟩ := ht.first (by omega)
        have hmem : (b, g) ∈ frags.below n.val :=
          OrdMap.mem_below.mpr ⟨OrdMap.find?_eq_some.mp hg, by omega⟩
        rw [OrdMap.prev?, List.getLast?_eq_none_iff] at hprev
        rw [hprev] at hmem
        cases hmem
      rw [hval]
      exact Nat.dvd_trans ⟨2 ^ 9, rfl⟩ (P.blocks _ hout)
  | some e =>
      obtain ⟨key, lower⟩ := e
      obtain ⟨hlower, _⟩ := OrdMap.mem_of_prev? hprev
      have hnext := OrdMap.next?_of_prev? hf hprev
      have hused : lower.isFree = false := by
        refine Bool.eq_false_iff.mpr fun hfree => ?_
        exact hrep.merged b frags key lower n.val _ hb hlower hnext ⟨hfree, rfl⟩
      have hlive : (key, lower.size) ∈ s.live :=
        (I.live key lower.size).mpr (SimpleHeap.live_eq_lookup.mpr
          ⟨b, frags, lower, I.whole.shelved.lookup_eq_some.mpr ⟨hb, hlower⟩, hused, rfl⟩)
      obtain ⟨hkey, hsize⟩ := P.live _ hlive
      rw [ht.next_eq hlower hnext]
      exact Nat.dvd_add hkey hsize

/-- `alloc` in a session, with the answer its block allocator will give. -/
def callAlloc (blockSize : Nat) (s : HeapSession) (bytes : Nat) (answer : Option (Nat × Nat)) :
    Option (Nat × SimpleHeap × Ledger) :=
  SimpleHeap.alloc (RocDxg.ledger blockSize) s.heap { s.ledger with answer := answer } bytes

theorem huge_free (blockSize : Nat) (led : Ledger) (b n : Nat) (h : Huge led) :
    Huge ((RocDxg.ledger blockSize).free led b n) :=
  fun c hc => h c (List.mem_filter.mp hc).1

/-- The result of `alloc` is aligned, and no block is outstanding but those that were and the
answer. -/
theorem Pages.alloc (P : Pages s) (I : Inv blockSize s) {bytes p : Nat}
    {answer : Option (Nat × Nat)} {h' : SimpleHeap} {led' : Ledger}
    (hpaged : ∀ r ∈ answer, gpuHugePageSize ∣ r.1)
    (halloc : callAlloc blockSize s bytes answer = some (p, h', led')) :
    granule bytes ∣ p ∧ Huge led' := by
  have hgranule := SimpleHeap.granule_dvd_huge bytes
  have hblocks : Huge { s.ledger with answer := answer } := P.blocks
  rcases SimpleHeap.alloc_cases halloc with
    ⟨hfrag, rfl⟩ | ⟨_, ⟨c, hlast, _, hblock⟩ | ⟨_, hnone, rfl, rfl, rfl⟩ | ⟨base, size, hnew, hblock⟩⟩
  · exact ⟨SimpleHeap.allocFragment_aligned hfrag, hblocks⟩
  · obtain ⟨rfl, hout⟩ := SimpleHeap.allocBlock_keeps (huge_free blockSize) hblocks hblock
    exact ⟨Nat.dvd_trans hgranule (P.blocks c (I.cached c (List.mem_of_getLast? hlast))), hout⟩
  · cases answer with
    | none => exact ⟨Nat.dvd_zero _, hblocks⟩
    | some r => cases hnone
  · cases answer with
    | none => cases hnew
    | some r =>
        cases hnew
        have hbase := hpaged _ rfl
        have hnew : Huge ⟨some (base, size), ⟨base, size⟩ :: s.ledger.outstanding⟩ := by
          intro c hc
          rcases List.mem_cons.mp hc with heq | hmem
          · rw [heq]
            exact hbase
          · exact P.blocks c hmem
        obtain ⟨rfl, hout⟩ := SimpleHeap.allocBlock_keeps (huge_free blockSize) hnew hblock
        exact ⟨Nat.dvd_trans hgranule hbase, hout⟩

theorem step_pages (P : Pages s) (I : Inv blockSize s) {r : HeapRequest} (hpaged : Paged r)
    (hstep : s.step blockSize r = some s') : Pages s' := by
  cases r with
  | alloc bytes answer =>
      obtain ⟨⟨p, h', led'⟩, halloc, rfl⟩ := Option.map_eq_some_iff.mp hstep
      obtain ⟨hbytes, hanswer⟩ := hpaged
      obtain ⟨haligned, hout⟩ := P.alloc I (fun r hr => (hanswer r hr).1) halloc
      refine ⟨hout, ?_⟩
      show ∀ r ∈ (if p = 0 then s.live else (p, bytes) :: s.live), _
      split
      next => exact P.live
      next =>
        intro r hr
        rcases List.mem_cons.mp hr with heq | hmem
        · rw [heq]
          exact ⟨Nat.dvd_trans (SimpleHeap.page_dvd_granule bytes) haligned, hbytes⟩
        · exact P.live r hmem
  | free p =>
      cases hstep
      refine ⟨SimpleHeap.free_keeps (huge_free blockSize) P.blocks p, ?_⟩
      show ∀ r ∈ (if (callFree blockSize s p).1 then s.live.filter (fun x => x.1 ≠ p) else s.live),
        defaultGpuPageSize ∣ r.1 ∧ defaultGpuPageSize ∣ r.2
      split
      next => exact fun r hr => P.live r (List.mem_filter.mp hr).1
      next => exact P.live
  | trim =>
      cases hstep
      exact ⟨SimpleHeap.foldl_free_keeps (huge_free blockSize) P.blocks s.heap.blockCache, P.live⟩

/-- A request is served at `p`: the range was not live, it is now, and so is what was. -/
structure Served (s : HeapSession) (bytes p : Nat) (h' : SimpleHeap) : Prop where
  ne_zero : p ≠ 0
  fresh : ¬ s.Live p
  live : ∀ a n, h'.live a = some n ↔ (a = p ∧ n = bytes) ∨ (a, n) ∈ s.live

theorem Inv.served {bytes p : Nat} {h' : SimpleHeap} {led' : Ledger} (hp : p ≠ 0)
    (I : Inv blockSize ⟨h', led', (p, bytes) :: s.live⟩) : Served s bytes p h' := by
  refine ⟨hp, ?_, ?_⟩
  · rintro ⟨n, hn⟩
    exact (List.pairwise_cons.mp I.distinct).1 _ hn rfl
  · intro a n
    rw [← I.live a n, List.mem_cons, Prod.mk.injEq]

/-- A call that returns zero was refused a block, and had none at hand. -/
theorem Inv.refused (I : Inv blockSize s) {bytes p : Nat} {answer : Option (Nat × Nat)}
    {h' : SimpleHeap} {led' : Ledger} (hpos : 0 < bytes) (hanswer : ∀ r ∈ answer, 0 < r.1)
    (halloc : callAlloc blockSize s bytes answer = some (p, h', led')) (hp : p = 0) :
    answer = none ∧ h' = s.heap ∧ s.heap.allocFragment bytes = some none ∧
      ∀ c, s.heap.blockCache.getLast? = some c → blockSize ≤ bytes := by
  rcases SimpleHeap.alloc_cases halloc with
    ⟨hfrag, _⟩ | ⟨hfrag, ⟨c, hlast, _, hblock⟩ | ⟨hlast, hnone, _, hh, _⟩ | ⟨base, size, hnew, hblock⟩⟩
  · obtain ⟨r, hr, hchoice⟩ := I.whole.shelved.listed.allocFragment_chooses hpos
    rw [hfrag] at hr
    cases hr
    exact absurd hp (I.choose hpos (hchoice _ rfl)).1
  · obtain ⟨hbase, _⟩ := SimpleHeap.allocBlock_keeps (R := fun _ => True) (fun _ _ _ _ => trivial)
      trivial hblock
    have hcpos := (I.sized c (I.cached c (List.mem_of_getLast? hlast))).base_pos
    omega
  · refine ⟨?_, hh, hfrag, hlast⟩
    cases answer with
    | none => rfl
    | some r => cases hnone
  · obtain ⟨hbase, _⟩ := SimpleHeap.allocBlock_keeps (R := fun _ => True) (fun _ _ _ _ => trivial)
      trivial hblock
    cases answer with
    | none => cases hnew
    | some r =>
        cases hnew
        have hrpos : 0 < base := hanswer (base, size) rfl
        omega

/-- In every run of whole pages `alloc` aligns its result to 2 MiB or to a page.  While a free
fragment has 2 MiB to spare it serves the request and asks for no block.  It serves it, too, when
the cache has a block for it or the block allocator gives one.  When it is refused a block it
leaves the heap as it is, or serves the request without. -/
theorem thrifty (blockSize : Nat)
    (h : Reach (step blockSize) (fun s r => (Assumed blockSize s r ∧ Narrow r) ∧ Paged r) {} s)
    (bytes : Nat) (answer : Option (Nat × Nat)) (hassumed : Assumed blockSize s (.alloc bytes answer))
    (hnarrow : Narrow (.alloc bytes answer)) (hpaged : Paged (.alloc bytes answer)) :
    ∃ p h' led', callAlloc blockSize s bytes answer = some (p, h', led') ∧
      (gpuHugePageSize ≤ bytes → gpuHugePageSize ∣ p) ∧
      (bytes < gpuHugePageSize → defaultGpuPageSize ∣ p) ∧
      (∀ n ∈ s.heap.freeList.nodes, bytes + gpuHugePageSize ≤ n.key →
        Served s bytes p h' ∧ Unasked blockSize s.heap bytes p h') ∧
      (answer ≠ none ∨ (s.heap.blockCache ≠ [] ∧ bytes < blockSize) → Served s bytes p h') ∧
      (answer = none → (p = 0 ∧ h' = s.heap) ∨
        Served s bytes p h' ∧ Unasked blockSize s.heap bytes p h') := by
  have hinv : Inv blockSize s ∧ Pages s := by
    refine h.invariant (I := fun s => Inv blockSize s ∧ Pages s) ⟨inv_new, ⟨nofun, nofun⟩⟩ ?_
    intro s r s' hs hok hstep
    have hreach : Reach (step blockSize) (fun s r => Assumed blockSize s r ∧ Narrow r) s s' :=
      .step .start hok.1 hstep
    exact ⟨inv_of_reach hs.1 hreach, step_pages hs.2 hs.1 hok.2 hstep⟩
  obtain ⟨I, P⟩ := hinv
  obtain ⟨hpos, hwrap, hans⟩ := hassumed
  obtain ⟨p, h', led', halloc, I'⟩ := (I.answer answer).alloc hpos hans hnarrow
  obtain ⟨haligned, _⟩ := P.alloc I (fun r hr => (hpaged.2 r hr).1) halloc
  have hserved : p ≠ 0 → Served s bytes p h' := by
    intro hp
    rw [if_neg hp] at I'
    exact I'.served hp
  have hrefused := I.refused hpos (fun r hr => (hans r hr).1) halloc
  refine ⟨p, h', led', halloc, ?_, ?_, ?_, ?_, ?_⟩
  · intro hhuge
    rwa [granule, if_pos hhuge] at haligned
  · intro hsmall
    rwa [granule, if_neg (Nat.not_le.mpr hsmall)] at haligned
  · intro n hn hle
    obtain ⟨c, hc⟩ := I.whole.shelved.listed.allocFragment_found hwrap (fun n hn => P.node I hn) hn hle
    have hfrag : s.heap.allocFragment bytes = some (some (p, h')) := by
      rcases SimpleHeap.alloc_cases halloc with ⟨hfrag, _⟩ | ⟨hnone, _⟩
      · exact hfrag
      · rw [hc] at hnone
        cases hnone
    refine ⟨hserved fun hp => ?_, SimpleHeap.unasked_of_fragment blockSize hfrag⟩
    obtain ⟨_, _, hnone, _⟩ := hrefused hp
    rw [hc] at hnone
    cases hnone
  · intro havail
    refine hserved fun hp => ?_
    obtain ⟨hnone, _, _, hcache⟩ := hrefused hp
    rcases havail with hsome | ⟨hne, hlt⟩
    · exact hsome hnone
    · exact absurd (hcache _ (List.getLast?_eq_some_getLast hne)) (Nat.not_le.mpr hlt)
  · intro hnone
    by_cases hp : p = 0
    · exact Or.inl ⟨hp, (hrefused hp).2.1⟩
    · refine Or.inr ⟨hserved hp, ?_⟩
      rcases SimpleHeap.alloc_cases halloc with
        ⟨hfrag, _⟩ | ⟨hfrag, ⟨c, hlast, hlt, hblock⟩ | ⟨_, _, hzero, _⟩ | ⟨base, size, hnew, _⟩⟩
      · exact SimpleHeap.unasked_of_fragment blockSize hfrag
      · exact SimpleHeap.unasked_of_cache hfrag hlast hlt hblock
      · exact absurd hzero hp
      · rw [hnone] at hnew
        cases hnew

/-- After a page and a request of 2 MiB in a block of 8 MiB, the heap has room for another
2 MiB, at the next multiple. -/
theorem thrifty_run :
    ∃ s, Reach (step 0x800000) (fun s r => (Assumed 0x800000 s r ∧ Narrow r) ∧ Paged r) {} s ∧
      ∃ p h' led', callAlloc 0x800000 s 0x200000 none = some (p, h', led') ∧
        gpuHugePageSize ∣ p ∧ Served s 0x200000 p h' ∧
        Unasked 0x800000 s.heap 0x200000 p h' := by
  have hrun : (runAll (step 0x800000)
      (fun s r => (Assumed 0x800000 s r ∧ Narrow r) ∧ Paged r) {}
      [.alloc 0x1000 (some (0x800000, 0x800000)), .alloc 0x200000 none]).map
        (fun s => s.heap.freeList.nodes.map fun n => (n.key, n.val)) =
        some [(0x1FF000, 0x801000), (0x400000, 0xC00000)] := by
    decide
  obtain ⟨s, hs, hnodes⟩ := Option.map_eq_some_iff.mp hrun
  have hreach := reach_of_runAll hs
  obtain ⟨p, h', led', halloc, hhuge, _, hfound, _⟩ := thrifty 0x800000 hreach 0x200000 none
    ⟨by decide, by decide, nofun⟩ nofun ⟨by decide, nofun⟩
  have hmem : (0x400000, 0xC00000) ∈ s.heap.freeList.nodes.map fun n => (n.key, n.val) := by
    rw [hnodes]
    decide
  obtain ⟨n, hn, heq⟩ := List.mem_map.mp hmem
  have hkey : n.key = 0x400000 := congrArg Prod.fst heq
  exact ⟨s, hreach, p, h', led', halloc, hhuge (by decide),
    hfound n hn (by rw [hkey]; decide)⟩

end HeapSession

end RocDxg
