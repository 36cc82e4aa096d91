import RocDxg.Memory.HeapAccounts
import RocDxg.Memory.HeapCalls

/-!
# Discarded blocks

`discardBlock` takes a block out of use: nothing more is allocated from it, it never joins the
cache, and it is given back when its last allocation is released.

`free` of a marked fragment returns before `setFree`.  The fragment is then free only if it was
merged with a free one below it, or if the block goes with it.  In every run whose releases in
discarded blocks are of these two kinds the contract holds (`HeapAccount.discards_honoured`).
Otherwise an allocation can be released twice, and its block may stay in the list for ever
(`HeapAccount.released_twice`).
-/

namespace RocDxg

open Lib (OrdMap Reach runAll reach_of_runAll)

namespace HeapAccount

/-- The address is one of the block. -/
def Within (b n p : Nat) : Prop := b ≤ p ∧ p < b + n

/-- The times the block was given back. -/
def timesReturned (s : HeapAccount) (b n : Nat) : Nat := s.register.returned.count ⟨b, n⟩

/-- The contract of `discardBlock` in a state of a run whose calls meet the condition. -/
structure Honoured (blockSize : Nat) (ok : HeapAccount → HeapCall → Prop) (s : HeapAccount) :
    Prop where
  /-- When the call succeeds the block of the address is discarded. -/
  discards : ∀ p, p ≠ 0 →
    (SimpleHeap.discardBlock (RocDxg.register blockSize) s.heap s.register p).1 = true →
    ∀ s', s.step blockSize (.discard p) = some s' →
      ∃ b n, s'.heap.Discarded b n ∧ Within b n p
  /-- No allocation is served from a discarded block. -/
  unserved : ∀ b n, s.heap.Discarded b n → ∀ bytes answer, ok s (.alloc bytes answer) →
    ∀ p h reg, SimpleHeap.alloc (RocDxg.register blockSize) s.heap
      { s.register with answer := answer } bytes = some (p, h, reg) → ¬ Within b n p
  uncached : ∀ b n, s.heap.Discarded b n → ∀ c ∈ s.heap.blockCache, c.Apart ⟨b, n⟩
  /-- `free` succeeds on what is live, and on nothing else. -/
  once : ∀ p, p ≠ 0 →
    ((SimpleHeap.free (RocDxg.register blockSize) s.heap s.register p).1 = true ↔
      ∃ n, (p, n) ∈ s.live)
  /-- A discarded block has a live allocation. -/
  busy : ∀ b n, s.heap.Discarded b n → ∃ r ∈ s.live, Within b n r.1
  /-- A discarded block stays so until its last allocation is released; then it is given back
  once, with its length. -/
  stays : ∀ b n, s.heap.Discarded b n → ∀ c s', ok s c → s.step blockSize c = some s' →
    (s'.heap.Discarded b n ∧ s'.timesReturned b n = s.timesReturned b n) ∨
      (∃ p, c = .free p ∧ Within b n p ∧ ∃ m, (p, m) ∈ s.live) ∧
        (∀ r ∈ s'.live, ¬ Within b n r.1) ∧ s'.heap.lengths b = none ∧
        (∀ c ∈ s'.heap.blockCache, c.base ≠ b) ∧
        s'.timesReturned b n = s.timesReturned b n + 1

variable {blockSize : Nat} {s s' : HeapAccount} {h h' : SimpleHeap} {reg : Register}

/-! ## Where a block is -/

theorem mem_blocks {b n : Nat} (hb : h.lengths b = some n) : ⟨b, n⟩ ∈ h.blocks :=
  List.mem_append_left _ (SimpleHeap.mem_listed.mpr hb)

namespace Exact

theorem count (E : Exact blockSize [] s) (c : HeapBlock) :
    s.register.obtained.count c = s.heap.blocks.count c + s.register.returned.count c := by
  rw [E.housed.places.count_eq c, List.nil_append, List.count_append]

theorem nodup (E : Exact blockSize [] s) : s.heap.blocks.Nodup := by
  have hapart : s.heap.blocks.Pairwise HeapBlock.Apart := E.housed.apart
  refine hapart.imp_of_mem ?_
  intro c c' hc _ happart heq
  have hpos := (E.housed.sized c hc).length_pos
  rw [← heq, HeapBlock.Apart] at happart
  omega

theorem cached_apart (E : Exact blockSize [] s) {b n : Nat} (hb : s.heap.lengths b = some n) :
    ∀ c ∈ s.heap.blockCache, c.Apart ⟨b, n⟩ := by
  intro c hc
  have hapart : (s.heap.listed ++ s.heap.blockCache).Pairwise HeapBlock.Apart := E.housed.apart
  exact ((List.pairwise_append.mp hapart).2.2 ⟨b, n⟩ (SimpleHeap.mem_listed.mpr hb) c hc).symm

theorem length_pos (E : Exact blockSize [] s) {b n : Nat} (hb : s.heap.lengths b = some n) :
    0 < n :=
  (E.housed.sized ⟨b, n⟩ (mem_blocks hb)).length_pos

/-- A block that stays in the list is not given back. -/
theorem timesReturned_listed (E : Exact blockSize [] s) (E' : Exact blockSize [] s') {b n : Nat}
    (hobtained : s'.register.obtained.count ⟨b, n⟩ = s.register.obtained.count ⟨b, n⟩)
    (hb : s.heap.lengths b = some n) (hb' : s'.heap.lengths b = some n) :
    s'.timesReturned b n = s.timesReturned b n := by
  have hcount := E.count ⟨b, n⟩
  have hcount' := E'.count ⟨b, n⟩
  rw [List.count_eq_one_of_mem E.nodup (mem_blocks hb)] at hcount
  rw [List.count_eq_one_of_mem E'.nodup (mem_blocks hb')] at hcount'
  rw [timesReturned, timesReturned]
  omega

/-- A block that leaves the list and is not in the cache is given back. -/
theorem timesReturned_gone (E : Exact blockSize [] s) (E' : Exact blockSize [] s') {b n : Nat}
    (hobtained : s'.register.obtained.count ⟨b, n⟩ = s.register.obtained.count ⟨b, n⟩)
    (hb : s.heap.lengths b = some n) (hb' : s'.heap.lengths b = none)
    (hcache : ∀ c ∈ s'.heap.blockCache, c.base ≠ b) :
    s'.timesReturned b n = s.timesReturned b n + 1 := by
  have hcount := E.count ⟨b, n⟩
  have hcount' := E'.count ⟨b, n⟩
  have hnot : ⟨b, n⟩ ∉ s'.heap.blocks := by
    intro hmem
    rcases List.mem_append.mp hmem with hl | hc
    · have hlen := SimpleHeap.mem_listed.mp hl
      rw [hb'] at hlen
      cases hlen
    · exact hcache _ hc rfl
  rw [List.count_eq_one_of_mem E.nodup (mem_blocks hb)] at hcount
  rw [List.count_eq_zero_of_not_mem hnot] at hcount'
  rw [timesReturned, timesReturned]
  omega

end Exact

/-- The block was handed out so many times. -/
def TimesObtained (c : HeapBlock) (k : Nat) (x : Register) : Prop := x.obtained.count c = k

theorem timesObtained_free (blockSize : Nat) (c : HeapBlock) (k : Nat) :
    ∀ x base length, TimesObtained c k x →
      TimesObtained c k ((RocDxg.register blockSize).free x base length) :=
  fun _ _ _ hx => hx

/-- A call obtains no block that is at hand already. -/
theorem step_obtained (E : Exact blockSize [] s) {c : HeapCall} {b n : Nat}
    (hassumed : Assumed blockSize s c) (hb : s.heap.lengths b = some n)
    (hstep : s.step blockSize c = some s') :
    TimesObtained ⟨b, n⟩ (s.register.obtained.count ⟨b, n⟩) s'.register := by
  have hfree := timesObtained_free blockSize ⟨b, n⟩ (s.register.obtained.count ⟨b, n⟩)
  cases c with
  | alloc bytes answer =>
      obtain ⟨⟨p, h', reg'⟩, halloc, rfl⟩ := Option.map_eq_some_iff.mp hstep
      have hasked : TimesObtained ⟨b, n⟩ (s.register.obtained.count ⟨b, n⟩)
        { s.register with answer := answer } := rfl
      rcases SimpleHeap.alloc_cases halloc with
        ⟨_, rfl⟩ | ⟨_, ⟨c, _, _, hblock⟩ | ⟨_, hnone, _, _, rfl⟩ | ⟨base, size, hnew, hblock⟩⟩
      · rfl
      · exact (SimpleHeap.allocBlock_keeps hfree hasked hblock).2
      · cases answer with
        | none => rfl
        | some r => cases hnone
      · cases answer with
        | none => cases hnew
        | some r =>
            cases hnew
            refine (SimpleHeap.allocBlock_keeps hfree ?_ hblock).2
            refine List.count_cons_of_ne ?_
            intro heq
            cases heq
            have happart := (hassumed.2.2 _ rfl).2.2.2 ⟨b, n⟩
              (E.housed.outstanding.mem_iff.mpr (mem_blocks hb))
            have hpos := E.length_pos hb
            simp only [HeapBlock.Apart] at happart
            omega
  | free p =>
      cases hstep
      exact SimpleHeap.free_keeps hfree rfl p
  | trim =>
      cases hstep
      exact SimpleHeap.foldl_free_keeps hfree rfl _
  | discard p =>
      cases hstep
      exact SimpleHeap.discardBlock_keeps hfree rfl p

/-! ## What is live in a block -/

namespace Exact

/-- What is live at an address of a discarded block is a fragment of it. -/
theorem live_within (E : Exact blockSize [] s) {b : Nat} {frags : OrdMap HeapFragment} {p m : Nat}
    (hd : s.heap.dropped b = some frags) (hp : Within b (SimpleHeap.blockLength frags) p)
    (hl : s.heap.live p = some m) :
    ∃ f, frags.find? p = some f ∧ f.isFree = false ∧ f.size = m := by
  have S : s.heap.Shelved := E.shelved
  obtain ⟨b', frags', f, hlookup, hused, hm⟩ := SimpleHeap.live_eq_lookup.mp hl
  obtain ⟨hb', hf⟩ := S.lookup_eq_some.mp hlookup
  have hfloor := S.floor?_around (SimpleHeap.dropped_eq_some.mp hd).1 hp.1 hp.2
  rw [SimpleHeap.lookup, hfloor] at hlookup
  obtain ⟨f', hf', heq⟩ := Option.map_eq_some_iff.mp hlookup
  cases heq
  exact ⟨f, hf, hused, hm⟩

/-- A discarded block has a live allocation. -/
theorem busy (E : Exact blockSize [] s) {b n : Nat} (hd : s.heap.Discarded b n) :
    ∃ r ∈ s.live, Within b n r.1 := by
  obtain ⟨frags, hd, rfl⟩ := hd
  have D := E.shelved.dropped b frags hd
  obtain ⟨a, f, hf, hused⟩ := D.tidy.busy
  have hbounds := D.tiles.bounds hf
  have hlive : s.heap.live a = some f.size :=
    E.shelved.live_iff.mpr (Or.inr ⟨b, frags, f, hd, hf, hused, rfl⟩)
  refine ⟨(a, f.size), (E.names.mem a f.size).mpr hlive, hbounds.1, ?_⟩
  show a < b + SimpleHeap.blockLength frags
  omega

/-- What is live is in a block of the list. -/
theorem apart_of_live (E : Exact blockSize [] s) {b n p m : Nat} (hl : (p, m) ∈ s.live)
    (happart : ∀ b' n', s.heap.lengths b' = some n' → HeapBlock.Apart ⟨b', n'⟩ ⟨b, n⟩) :
    ¬ Within b n p := by
  rintro ⟨hlo, hhi⟩
  obtain ⟨b', frags', f, hlookup, _⟩ := SimpleHeap.live_eq_lookup.mp ((E.names.mem p m).mp hl)
  obtain ⟨hb', hf⟩ := E.shelved.lookup_eq_some.mp hlookup
  have hbounds := (E.shelved.tiles hb').2.2.bounds hf
  have hap := happart b' _ (SimpleHeap.lengths_eq_some.mpr ⟨frags', hb', rfl⟩)
  simp only [HeapBlock.Apart] at hap
  omega

end Exact

/-! ## The contract -/

/-- `free` succeeds on the allocations of the heap. -/
theorem free_eq_true {σ : Type u} (A : BlockAllocator σ) (x : σ) {p : Nat} (hp : p ≠ 0) :
    (SimpleHeap.free A h x p).1 = true ↔ ∃ n, h.live p = some n := by
  rw [SimpleHeap.free, if_neg hp]
  constructor
  · intro hfree
    split at hfree
    next => cases hfree
    next b frags f hl =>
      split at hfree
      next => cases hfree
      next hused =>
        exact ⟨f.size, SimpleHeap.live_eq_lookup.mpr ⟨b, frags, f, hl, by simpa using hused, rfl⟩⟩
  · rintro ⟨n, hn⟩
    obtain ⟨b, frags, f, hl, hused, _⟩ := SimpleHeap.live_eq_lookup.mp hn
    simp [hl, hused]

/-- A call leaves a discarded block as it is, or gives it back. -/
theorem step_discarded (E : Exact blockSize [] s) (hbound : s.heap.Bounded) {c : HeapCall}
    (hassumed : Assumed blockSize s c) (hnarrow : Narrow c) (hclean : Clean s c) {b n : Nat}
    (hd : s.heap.Discarded b n) (hstep : s.step blockSize c = some s') :
    s'.heap.Discarded b n ∨ (∃ p, c = .free p) ∧ s'.heap.lengths b = none ∧
      (∀ b' n', s'.heap.lengths b' = some n' → s.heap.lengths b' = some n') ∧
      ∀ c ∈ s'.heap.blockCache, c ∈ s.heap.blockCache := by
  obtain ⟨h, reg, live⟩ := s
  cases c with
  | alloc bytes answer =>
      obtain ⟨hpos, _, hans⟩ := hassumed
      obtain ⟨p, h', reg', halloc, _, _, _, hdrops⟩ :=
        (E.answer answer).alloc hbound hpos hans hnarrow
      rw [step, halloc] at hstep
      cases hstep
      exact Or.inl (hdrops.discarded hd)
  | free p =>
      obtain ⟨r, h', reg', hfree, _, _, _, hfrees⟩ := E.free hbound hclean
      rw [step, hfree] at hstep
      cases hstep
      refine (hfrees.discarded b n hd).imp_right fun hgone => ?_
      exact ⟨⟨p, rfl⟩, hgone.1, hfrees.lengths, hgone.2⟩
  | trim =>
      cases hstep
      exact Or.inl hd
  | discard p =>
      obtain ⟨r, h', reg', hdiscard, _, _, hkeep, _⟩ := E.discard hbound p
      rw [step, hdiscard] at hstep
      cases hstep
      exact Or.inl (hkeep b n hd)

namespace Exact

theorem apart_of_ne (E : Exact blockSize [] s) {b n b' n' : Nat} (hb : s.heap.lengths b = some n)
    (hb' : s.heap.lengths b' = some n') (hne : b ≠ b') : HeapBlock.Apart ⟨b, n⟩ ⟨b', n'⟩ := by
  rcases Nat.lt_or_gt_of_ne hne with hlt | hlt
  · exact Or.inl (E.shelved.apart b n b' n' hb hb' hlt)
  · exact Or.inr (E.shelved.apart b' n' b n hb' hb hlt)

/-- No allocation is served from a discarded block. -/
theorem unserved (E : Exact blockSize [] s) (hbound : s.heap.Bounded) {b n bytes : Nat}
    {answer : Option (Nat × Nat)} (hassumed : Assumed blockSize s (.alloc bytes answer))
    (hnarrow : Narrow (.alloc bytes answer)) (hd : s.heap.Discarded b n) {p : Nat}
    (halloc : SimpleHeap.alloc (RocDxg.register blockSize) s.heap
      { s.register with answer := answer } bytes = some (p, h', reg)) : ¬ Within b n p := by
  intro hwithin
  obtain ⟨h, reg₀, live⟩ := s
  obtain ⟨hpos, _, hans⟩ := hassumed
  obtain ⟨q, h₁, reg₁, halloc₁, hfresh, E', _, hdrops⟩ :=
    (E.answer answer).alloc hbound hpos hans hnarrow
  rw [halloc₁] at halloc
  cases halloc
  obtain ⟨frags, hd, rfl⟩ := hd
  have hp : p ≠ 0 := by
    have := (E.shelved.dropped b frags hd).base_pos
    have := hwithin.1
    omega
  rw [if_neg hp] at E'
  have hlive := (E'.names.mem p bytes).mp (List.mem_cons_self ..)
  obtain ⟨f, hf, hused, hsize⟩ := E'.live_within (hdrops.old b frags hd) hwithin hlive
  have hold : h.live p = some bytes :=
    E.shelved.live_iff.mpr (Or.inr ⟨b, frags, f, hd, hf, hused, hsize⟩)
  rw [hfresh hp] at hold
  cases hold

end Exact

theorem live_free {p : Nat} (hstep : s.step blockSize (.free p) = some s') :
    s'.live = if (SimpleHeap.free (RocDxg.register blockSize) s.heap s.register p).1 then
      s.live.filter (fun x => x.1 ≠ p) else s.live := by
  cases hstep
  rfl

/-- The contract holds in a state whose accounts are exact. -/
theorem Exact.honoured (E : Exact blockSize [] s) (hbound : s.heap.Bounded) :
    Honoured blockSize (fun s c => (Assumed blockSize s c ∧ Narrow c) ∧ Clean s c) s := by
  refine ⟨?_, ?_, ?_, ?_, fun b n hd => E.busy hd, ?_⟩
  · intro p hp hsuccess s' hstep
    obtain ⟨r, h', reg', hdiscard, _, _, _, hwithin⟩ := E.discard hbound p
    rw [hdiscard] at hsuccess
    rw [step, hdiscard] at hstep
    cases hstep
    obtain ⟨b, n, hd, hlo, hhi⟩ := hwithin hsuccess hp
    exact ⟨b, n, hd, hlo, hhi⟩
  · rintro b n hd bytes answer ⟨⟨hassumed, hnarrow⟩, _⟩ p h reg halloc hwithin
    exact E.unserved hbound hassumed hnarrow hd halloc hwithin
  · intro b n hd
    exact E.cached_apart (SimpleHeap.discarded_iff.mp hd).2
  · intro p hp
    rw [free_eq_true _ _ hp]
    exact exists_congr fun n => (E.names.mem p n).symm
  · rintro b n hd c s' ⟨⟨hassumed, hnarrow⟩, hclean⟩ hstep
    obtain ⟨s'', hstep', E', _⟩ := step_exact E hbound hassumed hnarrow hclean
    rw [hstep] at hstep'
    cases hstep'
    have hb := (SimpleHeap.discarded_iff.mp hd).2
    have hobtained := step_obtained E hassumed hb hstep
    rcases step_discarded E hbound hassumed hnarrow hclean hd hstep with
      hd' | ⟨⟨p, rfl⟩, hnone, hsub, hcache⟩
    · left
      exact ⟨hd', E.timesReturned_listed E' hobtained hb (SimpleHeap.discarded_iff.mp hd').2⟩
    · right
      have hgone : ∀ r ∈ s'.live, ¬ Within b n r.1 := by
        intro r hr
        refine E'.apart_of_live hr fun b' n' hb' => ?_
        refine E.apart_of_ne (hsub b' n' hb') hb ?_
        rintro rfl
        rw [hnone] at hb'
        cases hb'
      have hout : ∀ c ∈ s'.heap.blockCache, c.base ≠ b := by
        intro c hc heq
        have happart := E.cached_apart hb c (hcache c hc)
        have hpos := E.length_pos hb
        have hmem : c ∈ s.heap.blocks := List.mem_append_right _ (hcache c hc)
        have hlen := (E.housed.sized c hmem).length_pos
        rw [HeapBlock.Apart] at happart
        simp only at happart
        omega
      refine ⟨?_, hgone, hnone, hout, E.timesReturned_gone E' hobtained hb hnone hout⟩
      -- the live allocation of the block is not live any more
      obtain ⟨r, hr, hwithin⟩ := E.busy hd
      have hp : r.1 = p := by
        refine Classical.byContradiction fun hne => hgone r ?_ hwithin
        rw [live_free hstep]
        split
        next => exact List.mem_filter.mpr ⟨hr, by simpa using hne⟩
        next => exact hr
      exact ⟨p, rfl, hp ▸ hwithin, r.2, hp ▸ hr⟩

/-! ## Runs -/

/-- In every run whose releases in discarded blocks are clean the contract of `discardBlock`
holds in every state. -/
theorem discards_honoured (blockSize : Nat)
    (h : Reach (step blockSize) (fun s c => (Assumed blockSize s c ∧ Narrow c) ∧ Clean s c) {} s) :
    Honoured blockSize (fun s c => (Assumed blockSize s c ∧ Narrow c) ∧ Clean s c) s := by
  have hinv : Exact blockSize [] s ∧ s.heap.Bounded := by
    refine h.invariant (I := fun s => Exact blockSize [] s ∧ s.heap.Bounded)
      ⟨exact_new, Or.inl (Nat.zero_le 1)⟩ ?_
    rintro s c s' ⟨E, hbound⟩ ⟨⟨hassumed, hnarrow⟩, hclean⟩ hstep
    obtain ⟨s'', hstep', E', hbound'⟩ := step_exact E hbound hassumed hnarrow hclean
    rw [hstep] at hstep'
    cases hstep'
    exact ⟨E', hbound'⟩
  exact hinv.1.honoured hinv.2

/-- A block of two allocations is discarded and given back when the lower one has been released,
then the upper one, which is the last. -/
theorem discards_honoured_run :
    ∃ s, Reach (step 0x4000) (fun s c => (Assumed 0x4000 s c ∧ Narrow c) ∧ Clean s c) {} s ∧
      s.register.returned = [⟨0x1000, 0x4000⟩] ∧ s.live = [] ∧
      Honoured 0x4000 (fun s c => (Assumed 0x4000 s c ∧ Narrow c) ∧ Clean s c) s := by
  have hrun : (runAll (step 0x4000)
      (fun s c => (Assumed 0x4000 s c ∧ Narrow c) ∧ Clean s c) {}
      [.alloc 0x1000 (some (0x1000, 0x4000)), .alloc 0x1000 none, .alloc 0x1000 none,
        .free 0x1000, .discard 0x2000, .free 0x2000, .free 0x3000]).map
        (fun s => (s.register.returned, s.live)) = some ([⟨0x1000, 0x4000⟩], []) := by
    decide
  obtain ⟨s, hs, heq⟩ := Option.map_eq_some_iff.mp hrun
  have hreach := reach_of_runAll hs
  exact ⟨s, hreach, congrArg Prod.fst heq, congrArg Prod.snd heq,
    discards_honoured 0x4000 hreach⟩

/-- An allocation at the base of a discarded block is released twice. -/
theorem released_twice :
    ¬ ∀ s, Reach (step 0x4000) (fun s c => Assumed 0x4000 s c ∧ Narrow c) {} s →
      Honoured 0x4000 (fun s c => Assumed 0x4000 s c ∧ Narrow c) s := by
  intro hall
  have hrun : (runAll (step 0x4000) (fun s c => Assumed 0x4000 s c ∧ Narrow c) {}
      [.alloc 0x1000 (some (0x1000, 0x4000)), .alloc 0x1000 none, .discard 0x1000,
        .free 0x1000]).map
        (fun s => ((SimpleHeap.free (RocDxg.register 0x4000) s.heap s.register 0x1000).1, s.live)) =
        some (true, [(0x2000, 0x1000)]) := by
    decide
  obtain ⟨s, hs, heq⟩ := Option.map_eq_some_iff.mp hrun
  simp only [Prod.mk.injEq] at heq
  have honoured := hall s (reach_of_runAll hs)
  obtain ⟨n, hn⟩ := (honoured.once 0x1000 (by decide)).mp heq.1
  rw [heq.2] at hn
  simp at hn

end HeapAccount

end RocDxg
