import RocDxg.Lib.Coalesced
import RocDxg.VaMgr.Runs

/-!
# The partition is coalesced

`Alloc` cuts a used fragment out of a free one, whose neighbours are used, and `Free`
merges the fragment it releases with its free neighbours.  So over every run of calls
without an address hint no two neighbours are both free, and once nothing is live the
managed range is one free fragment again (`Session.exact_partition`).
-/

namespace RocDxg

namespace VaMgr

open Lib (OrdMap MultiMap Node TileMap Coalesced Parted LowerUsed UpperUsed Reach runAll
  reach_of_runAll)

/-- No two neighbours are both free. -/
def Merged (m : VaMgr) : Prop := Coalesced Fragment.size Fragment.isFree m.fragMap

variable {start size : Nat} {m : VaMgr}

theorem merged_new {minAlign : Nat} (hrange : Managed start size) :
    Merged (new start size minAlign) := by
  have hsize := hrange.size_pos
  have hend := hrange.end_lt
  refine Coalesced.singleton start ?_
  rw [Fragment.size_makeFree, Fragment.sizeField_of_lt (by omega)]
  exact hsize

/-! ## Allocation -/

theorem takeBase_merged (P : Partition start size m) (hm : Merged m) {n : Node}
    (hn : n ∈ m.freeList.nodes) {bytes : Nat} (hpos : 0 < bytes) (frag : Fragment) :
    Merged (m.takeBase bytes n frag) := by
  have hfind := P.find?_of_node hn
  have hsmall := (P.openFree hn).sizeField (Nat.le_refl n.key)
  obtain ⟨_, hup⟩ := Coalesced.of_free hm hfind rfl
  rw [takeBase, Fragment.setUsed_setSize]
  split
  next hgt =>
    have hfield := (P.openFree hn).sizeField (Nat.sub_le n.key bytes)
    have hne : n.val + bytes ≠ n.val := by omega
    have hparted := (hm.parted n.val).cutBack (g := .makeUsed bytes)
      (f := .makeFree (m.freeList.erase n.id).next (n.key - bytes)) P.arena.tiles hfind hup hpos hgt
      hfield
    have hclosed := hparted.closeUsed (g := .makeUsed bytes) rfl
    rw [OrdMap.insert_comm _ _ _ hne, OrdMap.insert_insert] at hclosed
    exact hclosed
  next => exact (hm.parted n.val).closeUsed rfl

theorem takeAligned_merged (P : Partition start size m) (hm : Merged m) {n : Node}
    (hn : n ∈ m.freeList.nodes) {bytes p : Nat} (hpos : 0 < bytes) (hp : n.val < p)
    (hle : p + bytes ≤ n.val + n.key) : Merged (m.takeAligned bytes p n) := by
  obtain ⟨d, rfl⟩ := Nat.exists_eq_add_of_le (Nat.le_of_lt hp)
  have L := P.openFree hn
  have hfind := P.find?_of_node hn
  obtain ⟨hlow, hup⟩ := Coalesced.of_free hm hfind rfl
  have hup : UpperUsed Fragment.isFree m.fragMap (n.val + n.key) := hup
  have hne : n.val ≠ n.val + d := by omega
  have hrest : Fragment.sizeField (n.key - d) = n.key - d := L.sizeField (Nat.sub_le ..)
  obtain ⟨hfront, hup⟩ := (hm.parted n.val).cutFront (g := .makeUsed (n.key - d))
    (f := .makeFree (m.freeList.erase n.id).next d) hlow hup (by omega) (by omega)
    (L.sizeField (by omega))
  have htiles := (L.cutFront (n := d) (g := .makeUsed (n.key - d)) (by omega) (by omega)
    hrest).limbo.tiles
  have hsplit : n.val + n.key = n.val + d + (n.key - d) := by omega
  rw [takeAligned_add P hn (by omega)]
  split
  next hgt =>
    have hne' : n.val + d + bytes ≠ n.val + d := by omega
    have hstored : (OrdMap.insert (m.fragMap.insert (n.val + d) (.makeUsed (n.key - d))) n.val
        (.makeFree (m.freeList.erase n.id).next d)).find? (n.val + d) =
          some (.makeUsed (n.key - d)) := by
      rw [OrdMap.find?_insert, if_neg hne.symm, OrdMap.find?_insert, if_pos rfl]
    have hback := hfront.cutBack (g := .makeUsed bytes)
      (f := .makeFree ((m.freeList.erase n.id).insert d n.val).next (n.key - d - bytes)) htiles
      hstored (by rw [Fragment.size_makeUsed, hrest, ← hsplit]; exact hup) hpos
      (by rw [Fragment.size_makeUsed, hrest]; omega)
      (by rw [Fragment.size_makeUsed, hrest]; exact L.sizeField (by omega))
    have hclosed := hback.closeUsed (g := .makeUsed bytes) rfl
    rw [OrdMap.insert_comm _ _ _ hne', OrdMap.insert_insert, OrdMap.insert_comm _ _ _ hne,
      OrdMap.insert_insert] at hclosed
    exact hclosed
  next =>
    have hclosed := hfront.closeUsed (g := .makeUsed bytes) rfl
    rw [OrdMap.insert_comm _ _ _ hne, OrdMap.insert_insert] at hclosed
    exact hclosed

theorem Chooses.merged (P : Partition start size m) (hm : Merged m) {bytes : Nat}
    (hpos : 0 < bytes) {r : Nat × VaMgr} (h : Chooses m bytes r) : Merged r.2 := by
  cases h with
  | zero => exact hm
  | base hn _ => exact takeBase_merged P hm hn hpos _
  | aligned hn hp hle => exact takeAligned_merged P hm hn hpos hp hle

/-! ## Release -/

/-- The fragment that `Free` is at, with the neighbours it has merged. -/
structure Isolated (g : Merge) (upper : Bool) : Prop where
  parted : Parted Fragment.size Fragment.isFree g.mgr.fragMap g.key
  lower : LowerUsed Fragment.size Fragment.isFree g.mgr.fragMap g.key
  upper : upper = true → UpperUsed Fragment.isFree g.mgr.fragMap (g.key + g.frag.size)

theorem mergeLower_isolated {addr : Nat} {frag : Fragment} {u : Nat → Option Nat} (hm : Merged m)
    (L : InLimbo start size m addr frag.size u) (hfind : m.fragMap.find? addr = some frag) :
    Isolated (m.mergeLower addr frag) false := by
  have htiles := L.limbo.tiles
  rw [mergeLower]
  cases hp : m.fragMap.prev? addr with
  | none =>
      refine ⟨hm.parted addr, LowerUsed.of_prev htiles hfind ?_, fun h => by cases h⟩
      intro k' g hp'
      rw [hp] at hp'
      cases hp'
  | some e =>
      obtain ⟨key, lower⟩ := e
      simp only
      split
      next hfree =>
        have hlower := (OrdMap.mem_of_prev? hp).1
        have hmeet := htiles.next_eq hlower (OrdMap.next?_of_prev? hfind hp)
        have hpos : start ≤ key ∧ 0 < lower.size ∧ key + lower.size ≤ start + size :=
          htiles.bounds hlower
        have hbounds := L.limbo.bounds
        have hend := L.range.end_lt
        have hsize : Fragment.sizeField (lower.size + frag.size) = lower.size + frag.size := by
          have hmeet : addr = key + lower.size := hmeet
          exact Fragment.sizeField_of_lt (by omega)
        obtain ⟨hparted, hlow⟩ := Coalesced.joinLower hm hp hfree
          (w := ({ lower with freeListEntry := none } : Fragment).setSize (lower.size + frag.size))
          (by show 0 < Fragment.sizeField _; rw [hsize]; omega)
        obtain ⟨i, hi, _⟩ := Fragment.freeEntry_of_linked
          (L.limbo.ok (Nat.ne_of_lt (OrdMap.mem_of_prev? hp).2) hlower) hfree
        rw [hi]
        exact ⟨hparted, hlow, fun h => by cases h⟩
      next hfree =>
        refine ⟨hm.parted addr, LowerUsed.of_prev htiles hfind ?_, fun h => by cases h⟩
        intro k' g hp'
        rw [hp] at hp'
        cases hp'
        simpa using hfree

theorem mergeUpper_isolated {u : Nat → Option Nat} {g : Merge} (M : Merging start size u g)
    (hstored : g.mgr.fragMap.find? g.key = some g.frag) (I : Isolated g false) :
    Isolated (mergeUpper g) true := by
  have htiles := M.limbo.limbo.tiles
  rw [mergeUpper]
  cases hn : g.mgr.fragMap.next? g.key with
  | none =>
      refine ⟨I.parted, I.lower, fun _ => UpperUsed.of_next htiles hstored ?_⟩
      intro k' f hn'
      rw [hn] at hn'
      cases hn'
  | some e =>
      obtain ⟨key, upper⟩ := e
      simp only
      split
      next hfree =>
        obtain ⟨hupper, hlt⟩ := OrdMap.mem_of_next? hn
        have hkey : key = g.key + g.frag.size := htiles.next_eq hstored hn
        have hbounds : start ≤ key ∧ 0 < upper.size ∧ key + upper.size ≤ start + size :=
          htiles.bounds hupper
        have hend := M.limbo.range.end_lt
        have hsize : Fragment.sizeField (g.frag.size + upper.size) = g.frag.size + upper.size :=
          Fragment.sizeField_of_lt (by omega)
        obtain ⟨hparted, hlow, hup⟩ := I.parted.joinUpper htiles I.lower hstored hn hfree
          (w := g.frag.setSize (g.frag.size + upper.size)) hsize
        obtain ⟨i, hi, _⟩ := Fragment.freeEntry_of_linked
          (M.limbo.limbo.ok (Nat.ne_of_gt hlt) hupper) hfree
        rw [hi]
        exact ⟨hparted, hlow, fun _ => hup⟩
      next hfree =>
        refine ⟨I.parted, I.lower, fun _ => UpperUsed.of_next htiles hstored ?_⟩
        intro k' f hn'
        rw [hn] at hn'
        cases hn'
        simpa using hfree

/-- The iterator of `Free` stays at the fragment it has merged. -/
theorem mergeLower_stored {addr : Nat} {frag : Fragment}
    (hfind : m.fragMap.find? addr = some frag) :
    (m.mergeLower addr frag).mgr.fragMap.find? (m.mergeLower addr frag).key =
      some (m.mergeLower addr frag).frag := by
  rw [mergeLower]
  split
  next => exact hfind
  next =>
    split
    next => exact (OrdMap.find?_insert ..).trans (if_pos rfl)
    next => exact hfind

theorem publish_merged {u : Nat → Option Nat} {g : Merge} (M : Merging start size u g)
    (I : Isolated g true) : Merged (publish g) := by
  refine I.parted.closeFree (g := g.frag.setFree g.mgr.freeList.next) I.lower (I.upper rfl) ?_
  exact M.limbo.limbo.bounds.2.1

theorem free_merged (P : Partition start size m) (hm : Merged m) (addr : Nat) :
    Merged (m.free addr) := by
  rw [free]
  split
  next => exact hm
  next =>
    cases hf : m.fragMap.find? addr with
    | none => exact hm
    | some frag =>
        simp only
        split
        next => exact hm
        next hused =>
          have hlive : m.used addr = some frag.size :=
            used_eq_some.mpr ⟨frag, hf, Bool.eq_false_iff.mpr hused, rfl⟩
          have L := P.openUsed hlive
          have M := mergeLower_merging L
          exact publish_merged (mergeUpper_merging M)
            (mergeUpper_isolated M (mergeLower_stored hf) (mergeLower_isolated hm L hf))

/-! ## Runs -/

/-- The map tiles the range, the free list holds one entry for each free fragment and
the fragment stores its iterator, and no two neighbours are both free. -/
structure Exact (start size : Nat) (m : VaMgr) : Prop where
  tiles : TileMap Fragment.size start (start + size) m.fragMap
  /-- An entry of the free list stands for a free fragment that stores its iterator. -/
  listed : ∀ n ∈ m.freeList.nodes, m.fragMap.find? n.val = some ⟨some n.id, n.key, true⟩
  /-- A free fragment has an entry. -/
  indexed : ∀ a f, m.fragMap.find? a = some f → f.isFree = true →
    ∃ i, f.freeListEntry = some i ∧ ⟨i, f.size, a⟩ ∈ m.freeList.nodes
  /-- No fragment has two entries. -/
  once : m.freeList.nodes.Pairwise fun n n' => n.val ≠ n'.val
  merged : ∀ a f b g, m.fragMap.find? a = some f → m.fragMap.next? a = some (b, g) →
    ¬ (f.isFree = true ∧ g.isFree = true)

theorem Partition.exact (P : Partition start size m) (hm : Merged m) : Exact start size m := by
  refine ⟨P.arena.tiles, fun n hn => P.find?_of_node hn, ?_, ?_, ?_⟩
  · intro a f hf hfree
    obtain ⟨i, hfrag, hnode⟩ := P.node_of_free hf hfree
    exact ⟨i, by rw [hfrag], hnode⟩
  · refine m.freeList.distinct.imp_of_mem fun {n n'} hn hn' hne hval => hne ?_
    have hf := P.find?_of_node hn
    rw [hval, P.find?_of_node hn'] at hf
    cases n
    cases n'
    simp only [Option.some.injEq, Fragment.mk.injEq] at hf
    exact hf.1.symm
  · intro a f b g hf hn
    exact Coalesced.next hm P.arena.tiles hf hn

/-- The calls in scope: an `Alloc` has a positive size and no hint, and nothing wraps in
`bytes + AlignUp(align, min_align)`; a `Free` may have any address. -/
def Unhinted (m : VaMgr) : Call → Prop
  | .alloc bytes align addr =>
      0 < bytes ∧ addr = 0 ∧ align + m.minAlign - 1 < 2 ^ 64 ∧
        bytes + alignUp 64 align m.minAlign < 2 ^ 64
  | .free _ => True

instance (m : VaMgr) : (c : Call) → Decidable (Unhinted m c)
  | .alloc _ _ _ => inferInstanceAs (Decidable (_ ∧ _))
  | .free _ => inferInstanceAs (Decidable True)

namespace Session

variable {minAlign : Nat} {s : Session}

/-- The live ranges are all the used fragments, and the fragments are coalesced. -/
structure Tight (start size : Nat) (s : Session) : Prop where
  partition : Partition start size s.mgr
  merged : Merged s.mgr
  live : ∀ a n, s.mgr.used a = some n ↔ (a, n) ∈ s.live

theorem tight_new (hrange : Managed start size) (halign : 0 < minAlign) :
    Tight start size (new start size minAlign) := by
  refine ⟨partition_new hrange halign, merged_new hrange, ?_⟩
  intro a n
  rw [used_eq_some]
  constructor
  · rintro ⟨f, hf, hfree, _⟩
    simp only [new, VaMgr.new, OrdMap.find?_insert, OrdMap.find?_empty] at hf
    split at hf
    · cases hf
      cases hfree
    · cases hf
  · intro hmem
    cases hmem

theorem Tight.take {bytes p : Nat} {m' : VaMgr} (h : Tight start size s)
    (T : Takes start size s.mgr bytes p m') (hm : Merged m') :
    Tight start size ⟨m', (p, bytes) :: s.live⟩ := by
  refine ⟨T.partition, hm, ?_⟩
  intro a n
  rw [T.used, List.mem_cons, ← h.live]
  by_cases ha : a = p
  · subst ha
    rw [Function.update_self, T.fresh]
    simp [eq_comm]
  · rw [Function.update_of_ne ha]
    simp [ha]

theorem Tight.release (h : Tight start size s) (addr : Nat) :
    Tight start size ⟨s.mgr.free addr, s.live.filter fun r => r.1 ≠ addr⟩ := by
  obtain ⟨hpart, hused⟩ := free_spec h.partition addr
  refine ⟨hpart, free_merged h.partition h.merged addr, ?_⟩
  intro a n
  rw [hused, List.mem_filter, ← h.live]
  by_cases ha : a = addr
  · subst ha
    simp
  · rw [Function.update_of_ne ha]
    simp [ha]

theorem step_tight (h : Tight start size s) {c : Call} (hok : Unhinted s.mgr c) :
    ∃ s', s.step c = some s' ∧ Tight start size s' := by
  cases c with
  | alloc bytes align addr =>
      obtain ⟨hpos, rfl, halign, htotal⟩ := hok
      have hwrap : NoWrap s.mgr bytes align := ⟨hpos, halign, fun _ => htotal⟩
      obtain ⟨r, hr, hchoice⟩ := allocImpl_chooses h.partition hwrap
      have hmerged := hchoice.merged h.partition h.merged hpos
      obtain ⟨p, m', heq, hcase⟩ := hchoice.serves h.partition hpos
      cases heq
      have halloc : s.mgr.alloc bytes align 0 = some (p, m') := hr
      refine ⟨_, by rw [step, halloc]; rfl, ?_⟩
      cases hcase with
      | inl hzero =>
          obtain ⟨rfl, rfl⟩ := hzero
          exact h
      | inr T =>
          simp only [if_neg (Nat.ne_of_gt T.pos)]
          exact h.take T hmerged
  | free addr => exact ⟨_, rfl, h.release addr⟩

/-- Once nothing is live, the range is one free fragment. -/
theorem Tight.whole (h : Tight start size s) (hlive : s.live = []) :
    ∃ i, s.mgr.fragMap.entries = [(start, ⟨some i, size, true⟩)] := by
  have hfree : ∀ a f, s.mgr.fragMap.find? a = some f → f.isFree = true := by
    intro a f hf
    cases hfree : f.isFree with
    | true => rfl
    | false =>
        have := (h.live a f.size).mp (used_eq_some.mpr ⟨f, hf, hfree, rfl⟩)
        rw [hlive] at this
        cases this
  have hlt := h.partition.range.size_pos
  obtain ⟨f, hentries, hff, hend⟩ := Coalesced.alone h.merged h.partition.arena.tiles (by omega) hfree
  have hsize : f.size = size := by
    have hend : start + f.size = start + size := hend
    omega
  have hfind : s.mgr.fragMap.find? start = some f := by
    rw [OrdMap.find?_eq_some, hentries]
    exact List.mem_singleton_self _
  obtain ⟨i, hfrag, _⟩ := h.partition.node_of_free hfind hff
  refine ⟨i, ?_⟩
  rw [hentries, hfrag, hsize]

/-- In every run without hints the map and the free list are an exact, coalesced
partition, which is one free fragment when nothing is live, and no call fails an
assertion. -/
theorem exact_partition (hrange : Managed start size) (halign : 0 < minAlign)
    (h : Reach step (fun s c => Unhinted s.mgr c) (new start size minAlign) s) :
    Exact start size s.mgr ∧
      (s.live = [] → ∃ i, s.mgr.fragMap.entries = [(start, ⟨some i, size, true⟩)]) ∧
      ∀ c, Unhinted s.mgr c → (s.step c).isSome = true := by
  have htight : Tight start size s := by
    refine h.invariant (tight_new hrange halign) ?_
    intro s c s' hs hok hstep
    obtain ⟨s'', hstep', hs''⟩ := step_tight hs hok
    rw [hstep] at hstep'
    cases hstep'
    exact hs''
  refine ⟨htight.partition.exact htight.merged, htight.whole, ?_⟩
  intro c hok
  obtain ⟨s', hstep, _⟩ := step_tight htight hok
  rw [hstep]
  rfl

/-- A run with an aligned split and a merge on both sides. -/
theorem exact_partition_run :
    ∃ s, Reach step (fun s c => Unhinted s.mgr c) (new 0x1000 0x10000 0x1000) s ∧
      s.live = [(0x4000, 0x800)] ∧ s.mgr.fragMap.entries.length = 3 ∧
      Exact 0x1000 0x10000 s.mgr := by
  have hrun : (runAll step (fun s c => Unhinted s.mgr c) (new 0x1000 0x10000 0x1000)
      [.alloc 0x1000 0 0, .alloc 0x800 0x4000 0, .alloc 0x1000 0 0, .free 0x1000, .free 0x2000]).map
        (fun s => (s.live, s.mgr.fragMap.entries.length)) = some ([(0x4000, 0x800)], 3) := by
    decide
  obtain ⟨s, hs, heq⟩ := Option.map_eq_some_iff.mp hrun
  have hreach := reach_of_runAll hs
  simp only [Prod.mk.injEq] at heq
  exact ⟨s, hreach, heq.1, heq.2,
    (exact_partition ⟨by decide, by decide, by decide⟩ (by decide) hreach).1⟩

end Session

end VaMgr

end RocDxg
