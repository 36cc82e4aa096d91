import Mathlib.Data.List.Pairwise
import RocDxg.Lib.Reach
import RocDxg.Memory.Discard

/-!
# Runs of the sub-allocator

A run is a sequence of `alloc`, `free` and `trim` with a block allocator that answers
each request as the run says and keeps account of the blocks it has handed out.  The
state of the run also holds the results of `alloc` that have not been released.

In every run whose blocks are disjoint, as large as asked for and smaller than the
62-bit size field of a fragment can hold, the containers of the heap represent the
blocks (`HeapSession.represented`).  A larger block loses the upper bits of its size
(`HeapSession.wide_block_not_represented`).
-/

namespace RocDxg

open Lib (OrdMap MultiMap Node TileMap Reach runAll reach_of_runAll)

/-- The answer a block allocator will give, and the blocks it has handed out. -/
structure Ledger where
  answer : Option (Nat × Nat) := none
  outstanding : List HeapBlock := []

/-- A block allocator that answers as it is told and keeps account. -/
def ledger (blockSize : Nat) : BlockAllocator Ledger where
  blockSize := blockSize
  alloc s _ :=
    match s.answer with
    | some (base, size) => (s.answer, { s with outstanding := ⟨base, size⟩ :: s.outstanding })
    | none => (none, s)
  free s base length := { s with outstanding := s.outstanding.filter fun c => c ≠ ⟨base, length⟩ }

/-- A call on the heap, with the answer of the block allocator should it be asked. -/
inductive HeapRequest where
  | alloc (bytes : Nat) (answer : Option (Nat × Nat))
  | free (p : Nat)
  | trim
deriving DecidableEq, Repr

/-- A heap, the account of its block allocator and the ranges it has handed out. -/
structure HeapSession where
  heap : SimpleHeap := {}
  ledger : Ledger := {}
  live : List (Nat × Nat) := []

/-- The two blocks have no address in common. -/
def HeapBlock.Apart (c c' : HeapBlock) : Prop :=
  c.base + c.length ≤ c'.base ∨ c'.base + c'.length ≤ c.base

instance : Std.Symm HeapBlock.Apart := ⟨fun _ _ h => h.symm⟩

instance (c c' : HeapBlock) : Decidable (c.Apart c') := inferInstanceAs (Decidable (_ ∨ _))

namespace HeapSession

/-- One call; `none` when an assertion of the source fails. -/
def step (blockSize : Nat) (s : HeapSession) : HeapRequest → Option HeapSession
  | .alloc bytes answer =>
      (SimpleHeap.alloc (RocDxg.ledger blockSize) s.heap { s.ledger with answer := answer } bytes).map
        fun (p, h, led) => ⟨h, led, if p = 0 then s.live else (p, bytes) :: s.live⟩
  | .free p =>
      let r := SimpleHeap.free (RocDxg.ledger blockSize) s.heap s.ledger p
      some ⟨r.2.1, r.2.2, if r.1 then s.live.filter fun x => x.1 ≠ p else s.live⟩
  | .trim =>
      let r := SimpleHeap.trim (RocDxg.ledger blockSize) s.heap s.ledger
      some ⟨r.1, r.2, s.live⟩

/-- A request is positive and does not wrap with its alignment, and an answer is a block
of the address space that is large enough and disjoint from the outstanding ones. -/
def Assumed (blockSize : Nat) (s : HeapSession) : HeapRequest → Prop
  | .alloc bytes answer =>
      0 < bytes ∧ bytes + gpuHugePageSize < 2 ^ 64 ∧
        ∀ r ∈ answer, 0 < r.1 ∧ max bytes blockSize ≤ r.2 ∧ r.1 + r.2 ≤ 2 ^ 64 ∧
          ∀ c ∈ s.ledger.outstanding, c.Apart ⟨r.1, r.2⟩
  | .free _ => True
  | .trim => True

/-- An answer fits the size field of a fragment. -/
def Narrow : HeapRequest → Prop
  | .alloc _ answer => ∀ r ∈ answer, r.2 < 2 ^ 62
  | .free _ => True
  | .trim => True

instance (blockSize : Nat) (s : HeapSession) :
    (r : HeapRequest) → Decidable (Assumed blockSize s r)
  | .alloc _ _ => inferInstanceAs (Decidable (_ ∧ _))
  | .free _ => inferInstanceAs (Decidable True)
  | .trim => inferInstanceAs (Decidable True)

instance : (r : HeapRequest) → Decidable (Narrow r)
  | .alloc _ answer => inferInstanceAs (Decidable (∀ r ∈ answer, r.2 < 2 ^ 62))
  | .free _ => inferInstanceAs (Decidable True)
  | .trim => inferInstanceAs (Decidable True)

/-- The containers of the heap represent the outstanding blocks and the live ranges. -/
structure Represented (s : HeapSession) : Prop where
  /-- The fragments of a block tile the block that the allocator handed out. -/
  tiles : ∀ b frags, s.heap.blockList.find? b = some frags →
    ∃ n, ⟨b, n⟩ ∈ s.ledger.outstanding ∧ TileMap HeapFragment.size b (b + n) frags
  /-- An entry of the free list stands for a free fragment that stores its iterator. -/
  listed : ∀ n ∈ s.heap.freeList.nodes, ∃ b frags, s.heap.blockList.find? b = some frags ∧
    frags.find? n.val = some ⟨some n.id, n.key, false, true⟩
  /-- A free fragment that is not discarded has an entry. -/
  indexed : ∀ b frags a f, s.heap.blockList.find? b = some frags → frags.find? a = some f →
    f.isFree = true → f.discard = false →
    ∃ i, f.freeListEntry = some i ∧ ⟨i, f.size, a⟩ ∈ s.heap.freeList.nodes
  /-- No fragment has two entries. -/
  once : s.heap.freeList.nodes.Pairwise fun n n' => n.val ≠ n'.val
  merged : ∀ b frags a f a' f', s.heap.blockList.find? b = some frags → frags.find? a = some f →
    frags.next? a = some (a', f') → ¬ (f.isFree = true ∧ f'.isFree = true)
  /-- No block is wholly free. -/
  busy : ∀ b frags, s.heap.blockList.find? b = some frags →
    ∃ a f, frags.find? a = some f ∧ f.isFree = false
  cache : ∀ c ∈ s.heap.blockCache, ∀ b n, s.heap.lengths b = some n → c.Apart ⟨b, n⟩
  separate : s.live.Pairwise fun r r' => r.1 + r.2 ≤ r'.1 ∨ r'.1 + r'.2 ≤ r.1
  inside : ∀ r ∈ s.live, ∃ b n, s.heap.lengths b = some n ∧ b ≤ r.1 ∧ r.1 + r.2 ≤ b + n

/-! ## The invariant -/

/-- A block the assumptions allow. -/
structure Sized (blockSize : Nat) (c : HeapBlock) : Prop where
  base_pos : 0 < c.base
  length_pos : 0 < c.length
  le : blockSize ≤ c.length
  length_lt : c.length < 2 ^ 62
  end_le : c.base + c.length ≤ 2 ^ 64

/-- The list names the allocations of the heap, each once. -/
structure Names (live : List (Nat × Nat)) (h : SimpleHeap) : Prop where
  mem : ∀ a n, (a, n) ∈ live ↔ h.live a = some n
  distinct : live.Pairwise fun r r' => r.1 ≠ r'.1

namespace Names

variable {live : List (Nat × Nat)} {h h' : SimpleHeap}

theorem congr (N : Names live h) (hlive : h'.live = h.live) : Names live h' := by
  refine ⟨?_, N.distinct⟩
  rw [hlive]
  exact N.mem

/-- One more range is live. -/
theorem cons (N : Names live h) {p bytes : Nat} (hfresh : h.live p = none)
    (hlive : h'.live = Function.update h.live p (some bytes)) : Names ((p, bytes) :: live) h' := by
  refine ⟨?_, List.pairwise_cons.mpr ⟨?_, N.distinct⟩⟩
  · intro a n
    rw [hlive, List.mem_cons, N.mem a n]
    by_cases ha : a = p
    · subst ha
      rw [Function.update_self, hfresh]
      simp [eq_comm]
    · rw [Function.update_of_ne ha]
      simp [ha]
  · intro r hr heq
    have hmem := (N.mem r.1 r.2).mp hr
    rw [← heq, hfresh] at hmem
    cases hmem

/-- A range is no longer live. -/
theorem filter (N : Names live h) {p : Nat} (hlive : h'.live = Function.update h.live p none) :
    Names (live.filter fun x => x.1 ≠ p) h' := by
  refine ⟨?_, N.distinct.filter _⟩
  intro a n
  rw [hlive, List.mem_filter, N.mem a n]
  by_cases ha : a = p
  · subst ha
    simp
  · rw [Function.update_of_ne ha]
    simp [ha]

end Names

/-- The blocks of the heap, listed or cached, are outstanding, and the live ranges are
its used fragments. -/
structure Inv (blockSize : Nat) (s : HeapSession) : Prop where
  whole : s.heap.Whole
  listed : ∀ b n, s.heap.lengths b = some n → ⟨b, n⟩ ∈ s.ledger.outstanding
  cached : ∀ c ∈ s.heap.blockCache, c ∈ s.ledger.outstanding
  exclusive : ∀ c ∈ s.heap.blockCache, s.heap.lengths c.base = none
  nodup : s.heap.blockCache.Nodup
  sized : ∀ c ∈ s.ledger.outstanding, Sized blockSize c
  apart : s.ledger.outstanding.Pairwise HeapBlock.Apart
  live : ∀ a n, (a, n) ∈ s.live ↔ s.heap.live a = some n
  distinct : s.live.Pairwise fun r r' => r.1 ≠ r'.1

variable {blockSize : Nat} {s : HeapSession} {h h' : SimpleHeap} {led led' : Ledger}
  {live : List (Nat × Nat)}

theorem inv_new : Inv blockSize {} := by
  have hnone : ∀ b n, ({} : SimpleHeap).lengths b ≠ some n := nofun
  refine ⟨⟨SimpleHeap.sound_new, nofun, nofun, nofun⟩, nofun, nofun, nofun, List.nodup_nil, nofun,
    List.Pairwise.nil, ?_, List.Pairwise.nil⟩
  intro a n
  constructor
  · nofun
  · nofun

namespace Inv

theorem apart_of_ne (I : Inv blockSize s) {c c' : HeapBlock} (hc : c ∈ s.ledger.outstanding)
    (hc' : c' ∈ s.ledger.outstanding) (hne : c ≠ c') : c.Apart c' :=
  I.apart.forall hc hc' hne

theorem represents (I : Inv blockSize s) : Represented s := by
  have W := I.whole.shelved
  refine ⟨?_, ?_, ?_, ?_, ?_, ?_, ?_, ?_, ?_⟩
  · intro b frags hb
    exact ⟨_, I.listed b _ (SimpleHeap.lengths_eq_some.mpr ⟨frags, hb, rfl⟩), (W.tiles hb).2.2⟩
  · intro n hn
    obtain ⟨_, _, b, frags, hl⟩ := W.listed n hn
    exact ⟨b, frags, W.lookup_eq_some.mp hl⟩
  · intro b frags a f hb hf hfree hdiscard
    have hk := W.keeps_of_find? (W.lookup_eq_some.mpr ⟨hb, hf⟩) hdiscard
    have hbk := SimpleHeap.find?_kept.mpr ⟨hb, hk⟩
    obtain ⟨i, hi, hentry⟩ := HeapFragment.entry_of_free (W.sound.arenas.ok hbk hf) hfree
    exact ⟨i, hi, W.sound.arenas.nodes.mpr ⟨b, frags, f, hbk, hf, hentry⟩⟩
  · refine s.heap.freeList.distinct.imp_of_mem fun {n n'} hn hn' hne hval => hne ?_
    exact congrArg Node.id (W.sound.arenas.node_unique hn hn' hval)
  · intro b frags a f a' f' hb hf hn
    exact (W.tidyBlock hb).merged.next (W.tiles hb).2.2 hf hn
  · intro b frags hb
    exact (W.tidyBlock hb).busy
  · intro c hc b n hb
    refine I.apart_of_ne (I.cached c hc) (I.listed b n hb) ?_
    intro heq
    have hnone := I.exclusive c hc
    rw [heq, hb] at hnone
    cases hnone
  · refine I.distinct.imp_of_mem fun {r r'} hr hr' hne => ?_
    exact W.live_apart ((I.live _ _).mp hr) ((I.live _ _).mp hr') hne
  · intro r hr
    exact W.live_inside ((I.live _ _).mp hr)

/-! ## The cache -/

theorem outstanding_foldl_free (old : List HeapBlock) (led : Ledger) :
    (old.foldl (fun s b => (RocDxg.ledger blockSize).free s b.base b.length) led).outstanding =
      led.outstanding.filter fun c => c ∉ old := by
  induction old generalizing led with
  | nil => simp
  | cons c old ih =>
      rw [List.foldl_cons, ih, RocDxg.ledger, List.filter_filter]
      refine List.filter_congr fun c' _ => ?_
      simp only [List.mem_cons, not_or, ne_eq, Bool.decide_and]
      exact Bool.and_comm ..

/-- The first blocks of the cache are given back. -/
theorem drop (I : Inv blockSize ⟨h, led, live⟩) {old rest : List HeapBlock} {n : Nat}
    (hcache : h.blockCache = old ++ rest)
    (hout : led'.outstanding = led.outstanding.filter fun c => c ∉ old) :
    Inv blockSize ⟨{ h with blockCache := rest, cacheSize := n }, led', live⟩ := by
  have hnodup : (old ++ rest).Nodup := hcache ▸ I.nodup
  have hin : ∀ c, c ∈ rest → c ∈ h.blockCache := by
    intro c hc
    rw [hcache]
    exact List.mem_append_right _ hc
  have hkeep : ∀ c ∈ led.outstanding, c ∉ old → c ∈ led'.outstanding := by
    intro c hc hold
    rw [hout]
    exact List.mem_filter.mpr ⟨hc, by simpa using hold⟩
  have hsub : ∀ c ∈ led'.outstanding, c ∈ led.outstanding := by
    intro c hc
    rw [hout] at hc
    exact (List.mem_filter.mp hc).1
  refine ⟨⟨I.whole.sound.of_lists rfl rfl, I.whole.tidy, I.whole.large, I.whole.apart⟩, ?_, ?_, ?_,
    (List.nodup_append.mp hnodup).2.1, fun c hc => I.sized c (hsub c hc), ?_, I.live, I.distinct⟩
  · intro b m hb
    refine hkeep _ (I.listed b m hb) fun hold => ?_
    have hnone : h.lengths b = none := I.exclusive ⟨b, m⟩ (by
      show _ ∈ h.blockCache
      rw [hcache]
      exact List.mem_append_left _ hold)
    change h.lengths b = some m at hb
    rw [hnone] at hb
    cases hb
  · intro c hc
    refine hkeep _ (I.cached c (hin c hc)) fun hold => ?_
    exact (List.nodup_append.mp hnodup).2.2 c hold c hc rfl
  · exact fun c hc => I.exclusive c (hin c hc)
  · show led'.outstanding.Pairwise _
    rw [hout]
    exact I.apart.filter _

theorem balance (I : Inv blockSize ⟨h, led, live⟩) :
    Inv blockSize ⟨(SimpleHeap.balance (RocDxg.ledger blockSize) h led).1,
      (SimpleHeap.balance (RocDxg.ledger blockSize) h led).2, live⟩ := by
  obtain ⟨old, hcache, hs⟩ := SimpleHeap.balanceLoop_spec (RocDxg.ledger blockSize) led h.inUseSize
    h.blockCache h.cacheSize
  refine I.drop hcache ?_
  show (SimpleHeap.balanceLoop _ _ _ _ led).2.2.outstanding = _
  rw [hs]
  exact outstanding_foldl_free old led

theorem trim (I : Inv blockSize ⟨h, led, live⟩) :
    Inv blockSize ⟨(SimpleHeap.trim (RocDxg.ledger blockSize) h led).1,
      (SimpleHeap.trim (RocDxg.ledger blockSize) h led).2, live⟩ :=
  I.drop (List.append_nil _).symm (outstanding_foldl_free h.blockCache led)

/-! ## Allocation -/

/-- An answer that is not used changes nothing. -/
theorem answer (I : Inv blockSize ⟨h, led, live⟩) (a : Option (Nat × Nat)) :
    Inv blockSize ⟨h, { led with answer := a }, live⟩ :=
  ⟨I.whole, I.listed, I.cached, I.exclusive, I.nodup, I.sized, I.apart, I.live, I.distinct⟩

theorem names (I : Inv blockSize ⟨h, led, live⟩) : Names live h := ⟨I.live, I.distinct⟩

/-- An allocation from a block at hand. -/
theorem choose (I : Inv blockSize ⟨h, led, live⟩) {bytes : Nat} (hpos : 0 < bytes)
    {c : Nat × SimpleHeap} (hc : SimpleHeap.Chooses h bytes c) :
    c.1 ≠ 0 ∧ Inv blockSize ⟨c.2, led, (c.1, bytes) :: live⟩ := by
  obtain ⟨hp, hfresh, E⟩ := I.whole.choose hpos hc
  obtain ⟨hlive, hdistinct⟩ := I.names.cons hfresh E.live
  refine ⟨Nat.ne_of_gt hp, E.whole, ?_, ?_, ?_, ?_, I.sized, I.apart, hlive, hdistinct⟩
  · show ∀ b n, c.2.lengths b = some n → _
    rw [E.lengths]
    exact I.listed
  · show ∀ x ∈ c.2.blockCache, _
    rw [E.cache]
    exact I.cached
  · show ∀ x ∈ c.2.blockCache, c.2.lengths x.base = none
    rw [E.cache, E.lengths]
    exact I.exclusive
  · show c.2.blockCache.Nodup
    rw [E.cache]
    exact I.nodup

/-- A block that is outstanding and neither listed nor cached. -/
structure Spare (s : HeapSession) (c : HeapBlock) : Prop where
  mem : c ∈ s.ledger.outstanding
  not_cached : c ∉ s.heap.blockCache
  not_listed : s.heap.lengths c.base = none

theorem beside (I : Inv blockSize s) {base size : Nat} (hs : Spare s ⟨base, size⟩) :
    s.heap.Beside base size := by
  have hsized := I.sized _ hs.mem
  refine ⟨hsized.base_pos, hsized.length_lt, hsized.end_le, ?_⟩
  intro b n hb
  refine (I.apart_of_ne (I.listed b n hb) hs.mem ?_)
  intro heq
  cases heq
  rw [hs.not_listed] at hb
  cases hb

/-- An allocation from a block of its own. -/
theorem allocBlock (I : Inv blockSize ⟨h, led, live⟩) {base size bytes : Nat}
    (hs : Spare ⟨h, led, live⟩ ⟨base, size⟩) (hpos : 0 < bytes) (hle : bytes ≤ size) :
    base ≠ 0 ∧ ∃ h' led', SimpleHeap.allocBlock (RocDxg.ledger blockSize) h led base size bytes =
        some (base, h', led') ∧ Inv blockSize ⟨h', led', (base, bytes) :: live⟩ := by
  have B := I.beside hs
  have hfresh := I.whole.shelved.not_live B (Nat.lt_of_lt_of_le hpos hle)
  obtain ⟨h₁, hcase, E⟩ := I.whole.allocBlock_spec (RocDxg.ledger blockSize) led hpos hle B
  have I₁ : Inv blockSize ⟨h₁, led, (base, bytes) :: live⟩ := by
    obtain ⟨hlive, hdistinct⟩ := I.names.cons hfresh E.live
    refine ⟨E.whole, ?_, ?_, ?_, ?_, I.sized, I.apart, hlive, hdistinct⟩
    · show ∀ b n, h₁.lengths b = some n → _
      rw [E.lengths]
      intro b n hb
      rw [Function.update_apply] at hb
      split at hb
      next heq =>
        cases hb
        rw [heq]
        exact hs.mem
      next => exact I.listed b n hb
    · show ∀ c ∈ h₁.blockCache, _
      rw [E.cache]
      exact I.cached
    · show ∀ c ∈ h₁.blockCache, h₁.lengths c.base = none
      rw [E.cache, E.lengths]
      intro c hc
      rw [Function.update_of_ne]
      · exact I.exclusive c hc
      · intro heq
        have hlen := (I.sized c (I.cached c hc)).length_pos
        have hspare := (I.sized _ hs.mem).length_pos
        have happart := I.apart_of_ne (I.cached c hc) hs.mem fun h => hs.not_cached (h ▸ hc)
        simp only [HeapBlock.Apart] at happart hspare
        omega
    · show h₁.blockCache.Nodup
      rw [E.cache]
      exact I.nodup
  refine ⟨Nat.ne_of_gt B.base_pos, ?_⟩
  rcases hcase with heq | heq
  · exact ⟨h₁, led, heq, I₁⟩
  · exact ⟨_, _, heq, I₁.balance⟩

/-- The last block of the cache may be taken. -/
theorem popCache (I : Inv blockSize ⟨h, led, live⟩) {c : HeapBlock} {n : Nat}
    (hc : h.blockCache.getLast? = some c) :
    Inv blockSize ⟨{ h with blockCache := h.blockCache.dropLast, cacheSize := n }, led, live⟩ ∧
      Spare ⟨{ h with blockCache := h.blockCache.dropLast, cacheSize := n }, led, live⟩ c := by
  have hsplit : h.blockCache.dropLast ++ [c] = h.blockCache := List.dropLast_append_getLast? c hc
  have hnodup : (h.blockCache.dropLast ++ [c]).Nodup := by
    rw [hsplit]
    exact I.nodup
  have hmem : c ∈ h.blockCache := List.mem_of_getLast? hc
  have hin : ∀ x ∈ h.blockCache.dropLast, x ∈ h.blockCache := fun x hx => List.dropLast_subset _ hx
  refine ⟨⟨⟨I.whole.sound.of_lists rfl rfl, I.whole.tidy, I.whole.large, I.whole.apart⟩, I.listed,
    fun x hx => I.cached x (hin x hx), fun x hx => I.exclusive x (hin x hx),
    (List.nodup_append.mp hnodup).1, I.sized, I.apart, I.live, I.distinct⟩, ?_⟩
  refine ⟨I.cached c hmem, ?_, I.exclusive c hmem⟩
  intro hx
  exact (List.nodup_append.mp hnodup).2.2 c hx c (List.mem_singleton_self c) rfl

/-- A new block joins the outstanding ones. -/
theorem addOutstanding (I : Inv blockSize ⟨h, led, live⟩) {base size : Nat}
    (hs : Sized blockSize ⟨base, size⟩)
    (happart : ∀ c ∈ led.outstanding, c.Apart ⟨base, size⟩) :
    Inv blockSize ⟨h, { led with outstanding := ⟨base, size⟩ :: led.outstanding }, live⟩ ∧
      Spare ⟨h, { led with outstanding := ⟨base, size⟩ :: led.outstanding }, live⟩ ⟨base, size⟩ := by
  have hnot : ∀ n, ⟨base, n⟩ ∉ led.outstanding := by
    intro n hn
    have := happart _ hn
    have := (I.sized _ hn).length_pos
    have := hs.length_pos
    simp only [HeapBlock.Apart] at *
    omega
  refine ⟨⟨I.whole, fun b n hb => List.mem_cons_of_mem _ (I.listed b n hb),
    fun c hc => List.mem_cons_of_mem _ (I.cached c hc), I.exclusive, I.nodup, ?_, ?_, I.live,
    I.distinct⟩, ?_⟩
  · intro c hc
    cases List.mem_cons.mp hc with
    | inl heq => exact heq ▸ hs
    | inr hmem => exact I.sized c hmem
  · exact List.pairwise_cons.mpr ⟨fun c hc => (happart c hc).symm, I.apart⟩
  · refine ⟨List.mem_cons_self .., fun hc => hnot size (I.cached _ hc), ?_⟩
    refine Option.eq_none_iff_forall_ne_some.mpr fun n hn => ?_
    exact hnot n (I.listed base n hn)

/-- The answer of the block allocator is asked for. -/
theorem allocNew (I : Inv blockSize ⟨h, led, live⟩) {bytes : Nat} (hpos : 0 < bytes)
    (hans : ∀ r ∈ led.answer, 0 < r.1 ∧ max bytes blockSize ≤ r.2 ∧ r.1 + r.2 ≤ 2 ^ 64 ∧
      ∀ c ∈ led.outstanding, c.Apart ⟨r.1, r.2⟩)
    (hnarrow : ∀ r ∈ led.answer, r.2 < 2 ^ 62) :
    ∃ p h' led', SimpleHeap.alloc.allocNew (RocDxg.ledger blockSize) h led bytes =
        some (p, h', led') ∧
      Inv blockSize ⟨h', led', if p = 0 then live else (p, bytes) :: live⟩ := by
  cases ha : led.answer with
  | none =>
      refine ⟨0, h, led, ?_, by simpa using I⟩
      simp only [SimpleHeap.alloc.allocNew, RocDxg.ledger, ha]
  | some r =>
      obtain ⟨base, size⟩ := r
      obtain ⟨hbase, hmax, hend, happart⟩ := hans (base, size) (by rw [ha]; rfl)
      have hlt := hnarrow (base, size) (by rw [ha]; rfl)
      simp only at hbase hmax hend happart hlt
      have hsized : Sized blockSize ⟨base, size⟩ :=
        ⟨hbase, by show 0 < size; omega, by show blockSize ≤ size; omega, hlt, hend⟩
      obtain ⟨I', hs⟩ := I.addOutstanding hsized happart
      obtain ⟨hne, h', led', halloc, I''⟩ := I'.allocBlock hs hpos (by omega)
      refine ⟨base, h', led', ?_, by rw [if_neg hne]; exact I''⟩
      rw [← halloc, SimpleHeap.alloc.allocNew]
      simp only [RocDxg.ledger, ha]

theorem alloc (I : Inv blockSize ⟨h, led, live⟩) {bytes : Nat} (hpos : 0 < bytes)
    (hans : ∀ r ∈ led.answer, 0 < r.1 ∧ max bytes blockSize ≤ r.2 ∧ r.1 + r.2 ≤ 2 ^ 64 ∧
      ∀ c ∈ led.outstanding, c.Apart ⟨r.1, r.2⟩)
    (hnarrow : ∀ r ∈ led.answer, r.2 < 2 ^ 62) :
    ∃ p h' led', SimpleHeap.alloc (RocDxg.ledger blockSize) h led bytes = some (p, h', led') ∧
      Inv blockSize ⟨h', led', if p = 0 then live else (p, bytes) :: live⟩ := by
  obtain ⟨r, hr, hchoice⟩ := I.whole.shelved.listed.allocFragment_chooses hpos
  rw [SimpleHeap.alloc, hr]
  cases r with
  | some c =>
      obtain ⟨hne, I'⟩ := I.choose hpos (hchoice c rfl)
      exact ⟨c.1, c.2, led, rfl, by rw [if_neg hne]; exact I'⟩
  | none =>
      cases hlast : h.blockCache.getLast? with
      | none =>
          simp only
          exact I.allocNew hpos hans hnarrow
      | some c =>
          simp only
          split
          next hlt =>
            obtain ⟨I', hs⟩ := I.popCache (n := sub64 h.cacheSize c.length) hlast
            have hlen := (I.sized c hs.mem).le
            obtain ⟨hne, h', led', halloc, I''⟩ := I'.allocBlock hs hpos
              (Nat.le_trans (Nat.le_of_lt hlt) hlen)
            exact ⟨c.base, h', led', halloc, by rw [if_neg hne]; exact I''⟩
          next => exact I.allocNew hpos hans hnarrow

/-! ## Release -/

/-- A block leaves the list; it goes to the end of the cache, or is given back. -/
theorem emptied (I : Inv blockSize ⟨h, led, live⟩) {p b m : Nat} {cache : List HeapBlock}
    (hb : h.lengths b = some m)
    (E : SimpleHeap.Effect h' (Function.update h.live p none) (Function.update h.lengths b none)
      cache)
    (hcase : (cache = h.blockCache ++ [⟨b, m⟩] ∧ led' = led) ∨
      (cache = h.blockCache ∧ led' = (RocDxg.ledger blockSize).free led b m)) :
    Inv blockSize ⟨h', led', live.filter fun x => x.1 ≠ p⟩ := by
  obtain ⟨hlive, hdistinct⟩ := I.names.filter E.live
  have hmem : ⟨b, m⟩ ∈ led.outstanding := I.listed b m hb
  have hlisted : ∀ b' n, h'.lengths b' = some n → b' ≠ b ∧ h.lengths b' = some n := by
    intro b' n hb'
    rw [E.lengths, Function.update_apply] at hb'
    split at hb'
    next => cases hb'
    next hne => exact ⟨hne, hb'⟩
  have hexclusive : ∀ c ∈ h.blockCache, h'.lengths c.base = none := by
    intro c hc
    rw [E.lengths, Function.update_apply, I.exclusive c hc, ite_self]
  have hnotin : ⟨b, m⟩ ∉ h.blockCache := by
    intro hc
    have := I.exclusive _ hc
    change h.lengths b = none at this
    rw [hb] at this
    cases this
  rcases hcase with ⟨rfl, rfl⟩ | ⟨rfl, rfl⟩
  · refine ⟨E.whole, fun b' n hb' => I.listed b' n (hlisted b' n hb').2, ?_, ?_, ?_, I.sized, I.apart,
      hlive, hdistinct⟩
    · show ∀ c ∈ h'.blockCache, _
      rw [E.cache]
      intro c hc
      rcases List.mem_append.mp hc with hc | hc
      · exact I.cached c hc
      · rw [List.mem_singleton.mp hc]
        exact hmem
    · show ∀ c ∈ h'.blockCache, h'.lengths c.base = none
      rw [E.cache]
      intro c hc
      rcases List.mem_append.mp hc with hc | hc
      · exact hexclusive c hc
      · rw [List.mem_singleton.mp hc, E.lengths]
        exact Function.update_self ..
    · show h'.blockCache.Nodup
      rw [E.cache]
      exact List.nodup_append.mpr ⟨I.nodup, List.nodup_singleton _, fun c hc c' hc' heq =>
        hnotin (by rw [← List.mem_singleton.mp hc', ← heq]; exact hc)⟩
  · have hkeep : ∀ c ∈ led.outstanding, c ≠ ⟨b, m⟩ →
        c ∈ ((RocDxg.ledger blockSize).free led b m).outstanding :=
      fun c hc hne => List.mem_filter.mpr ⟨hc, by simpa using hne⟩
    refine ⟨E.whole, ?_, ?_, ?_, ?_, fun c hc => I.sized c (List.mem_filter.mp hc).1,
      I.apart.filter _, hlive, hdistinct⟩
    · intro b' n hb'
      obtain ⟨hne, hb'⟩ := hlisted b' n hb'
      exact hkeep _ (I.listed b' n hb') fun heq => hne (congrArg HeapBlock.base heq)
    · show ∀ c ∈ h'.blockCache, _
      rw [E.cache]
      exact fun c hc => hkeep c (I.cached c hc) fun heq => hnotin (heq ▸ hc)
    · show ∀ c ∈ h'.blockCache, h'.lengths c.base = none
      rw [E.cache]
      exact hexclusive
    · show h'.blockCache.Nodup
      rw [E.cache]
      exact I.nodup

theorem free (I : Inv blockSize s) (p : Nat) :
    ∃ s', s.step blockSize (.free p) = some s' ∧ Inv blockSize s' := by
  obtain ⟨h, led, live⟩ := s
  refine ⟨_, rfl, ?_⟩
  by_cases hp : p = 0
  · subst hp
    have hlive : h.live 0 = none := by
      refine Option.eq_none_iff_forall_ne_some.mpr fun n hn => ?_
      exact absurd (I.whole.shelved.live_pos hn) (Nat.lt_irrefl 0)
    have hself : h.live = Function.update h.live 0 none :=
      (Function.update_eq_self_iff.mpr hlive.symm).symm
    obtain ⟨hl, hd⟩ := I.names.filter hself
    exact ⟨I.whole, I.listed, I.cached, I.exclusive, I.nodup, I.sized, I.apart, hl, hd⟩
  · cases hl : h.live p with
    | none =>
        simp only [SimpleHeap.free_of_not_live (RocDxg.ledger blockSize) led hp hl]
        exact I
    | some n =>
        rcases I.whole.shelved.live_iff.mp hl with hk | hlarge
        · rcases I.whole.free_kept (RocDxg.ledger blockSize) led hk with
            ⟨h', heq, E⟩ | ⟨b, m, h₁, heq, hb, E⟩
          · simp only [heq, if_true]
            obtain ⟨hlive, hdistinct⟩ := I.names.filter E.live
            refine ⟨E.whole, ?_, ?_, ?_, ?_, I.sized, I.apart, hlive, hdistinct⟩
            · show ∀ b n, h'.lengths b = some n → _
              rw [E.lengths]
              exact I.listed
            · show ∀ c ∈ h'.blockCache, _
              rw [E.cache]
              exact I.cached
            · show ∀ c ∈ h'.blockCache, h'.lengths c.base = none
              rw [E.cache, E.lengths]
              exact I.exclusive
            · show h'.blockCache.Nodup
              rw [E.cache]
              exact I.nodup
          · simp only [heq, if_true]
            exact (I.emptied hb E (Or.inl ⟨rfl, rfl⟩)).balance
        · obtain ⟨m, h₁, heq, hb, _, _, _, _, E⟩ := I.whole.free_large (RocDxg.ledger blockSize) led hlarge
          simp only [heq, if_true]
          exact (I.emptied hb E (Or.inr ⟨rfl, rfl⟩)).balance

end Inv

/-! ## Runs -/

theorem step_inv (I : Inv blockSize s) {r : HeapRequest} (hassumed : Assumed blockSize s r)
    (hnarrow : Narrow r) : ∃ s', s.step blockSize r = some s' ∧ Inv blockSize s' := by
  cases r with
  | alloc bytes answer =>
      obtain ⟨hpos, _, hans⟩ := hassumed
      obtain ⟨p, h', led', halloc, I'⟩ := (I.answer answer).alloc hpos hans hnarrow
      exact ⟨_, by rw [step, halloc]; rfl, I'⟩
  | free p => exact I.free p
  | trim => exact ⟨_, rfl, I.trim⟩

/-- The invariant holds in every state that a run reaches. -/
theorem inv_of_reach {s' : HeapSession} (I : Inv blockSize s)
    (h : Reach (step blockSize) (fun s r => Assumed blockSize s r ∧ Narrow r) s s') :
    Inv blockSize s' := by
  refine h.invariant I ?_
  intro s r s' hs hok hstep
  obtain ⟨s'', hstep', hs''⟩ := step_inv hs hok.1 hok.2
  rw [hstep] at hstep'
  cases hstep'
  exact hs''

/-- In every run whose blocks fit the size field the containers represent the blocks,
and no call fails an assertion. -/
theorem represented (blockSize : Nat)
    (h : Reach (step blockSize) (fun s r => Assumed blockSize s r ∧ Narrow r) {} s) :
    Represented s ∧
      ∀ r, Assumed blockSize s r → Narrow r → (s.step blockSize r).isSome = true := by
  have hinv := inv_of_reach inv_new h
  refine ⟨hinv.represents, ?_⟩
  intro r hassumed hnarrow
  obtain ⟨s', hstep, _⟩ := step_inv hinv hassumed hnarrow
  rw [hstep]
  rfl

/-- A run with a split, a large block that is discarded, a merge and a cached block. -/
theorem represented_run :
    ∃ s, Reach (step 0x4000) (fun s r => Assumed 0x4000 s r ∧ Narrow r) {} s ∧
      s.live = [(0x9000, 0x5000), (0x2000, 0x800)] ∧ Represented s := by
  have hrun : (runAll (step 0x4000) (fun s r => Assumed 0x4000 s r ∧ Narrow r) {}
      [.alloc 0x1000 (some (0x1000, 0x4000)), .alloc 0x800 none,
        .alloc 0x5000 (some (0x9000, 0x8000)), .free 0x1000]).map live =
        some [(0x9000, 0x5000), (0x2000, 0x800)] := by
    decide
  obtain ⟨s, hs, hlive⟩ := Option.map_eq_some_iff.mp hrun
  have hreach := reach_of_runAll hs
  exact ⟨s, hreach, hlive, (represented 0x4000 hreach).1⟩

/-- A block whose size does not fit the field is not tiled by its fragments. -/
theorem wide_block_not_represented :
    ¬ ∀ s, Reach (step 0x4000) (Assumed 0x4000) {} s → Represented s := by
  intro hall
  have hrun : (runAll (step 0x4000) (Assumed 0x4000) {}
      [.alloc 1 (some (0x1000, 2 ^ 62 + 1))]).map
        (fun s => s.heap.blockList.entries.map fun e => (e.1, e.2.entries.map fun f => f.2.size)) =
        some [(0x1000, [1, 0])] := by
    decide
  obtain ⟨s, hs, heq⟩ := Option.map_eq_some_iff.mp hrun
  have hrep := hall s (reach_of_runAll hs)
  obtain ⟨e, hentries⟩ : ∃ e, s.heap.blockList.entries = [e] :=
    List.length_eq_one_iff.mp (by
      have := congrArg List.length heq
      simpa using this)
  rw [hentries] at heq
  simp only [List.map_cons, List.map_nil, List.cons.injEq, Prod.mk.injEq, and_true] at heq
  have hfind : s.heap.blockList.find? e.1 = some e.2 := by
    rw [OrdMap.find?_eq_some, hentries]
    exact List.mem_singleton_self _
  obtain ⟨n, _, htiles⟩ := hrep.tiles e.1 e.2 hfind
  have hmem : 0 ∈ e.2.entries.map fun f => f.2.size := by
    rw [heq.2]
    simp
  obtain ⟨f, hf, hzero⟩ := List.mem_map.mp hmem
  have := (htiles.bounds (OrdMap.find?_eq_some.mpr hf)).2.1
  omega

end HeapSession

end RocDxg
