import RocDxg.VaMgr.Coalesced
import RocDxg.VaMgr.Empty
import RocDxg.VaMgr.Requests

/-!
# An allocation that is taken back

`AllocImpl` cuts the range out of one free fragment, `chosen`: the smallest for the size if
its base is aligned, else the smallest for the size and the rounded alignment.  `Free` then
merges the range with what was left of the fragment.  So the manager has the fragments it had
before (`Partition.undone`), up to the iterators and the order of the fragments of one size in
the free list.

Three kinds of requests leave something behind.  A fixed address inside a fragment loses its
range, a request of no bytes at such a place cuts the fragment in two, and where a sum wraps
the range is not in the fragment at all (`chosen_outside`).
-/

namespace RocDxg

open Lib (OrdMap MultiMap Node TileMap Coalesced FreePoint)

namespace VaMgr

/-- The free fragment that `AllocImpl` takes for an alignment that is not zero. -/
def chosen (m : VaMgr) (bytes align : Nat) : Option Node :=
  match m.freeList.lowerBound bytes with
  | none => none
  | some n =>
      if n.val % align = 0 then some n
      else m.freeList.lowerBound (u64 (bytes + alignUp 64 align m.minAlign))

/-- The alignment, and the size with the rounded alignment, fit in a word. -/
def Fits (m : VaMgr) (bytes align : Nat) : Prop :=
  align + m.minAlign - 1 < 2 ^ 64 ∧ bytes + alignUp 64 align m.minAlign < 2 ^ 64

instance (m : VaMgr) (bytes align : Nat) : Decidable (Fits m bytes align) :=
  inferInstanceAs (Decidable (_ ∧ _))

/-- How `AllocImpl` takes the range out of the fragment. -/
inductive Cuts (m : VaMgr) (bytes align : Nat) (n : Node) (frag : Fragment) : Nat × VaMgr → Prop
  | base : n.val % align = 0 → Cuts m bytes align n frag (n.val, m.takeBase bytes n frag)
  | aligned : n.val % align ≠ 0 →
      Cuts m bytes align n frag (u64 (n.val + align - n.val % align),
        m.takeAligned bytes (u64 (n.val + align - n.val % align)) n)

variable {start size : Nat} {m m' : VaMgr}

/-- `AllocImpl` finds no fragment and changes nothing, or cuts the one that is chosen. -/
theorem allocImpl_cases {bytes align p : Nat} (halign : align ≠ 0)
    (h : m.allocImpl bytes align = some (p, m')) :
    (m.chosen bytes align = none ∧ p = 0 ∧ m' = m) ∨
      ∃ n frag, m.chosen bytes align = some n ∧ m.fragMap.find? n.val = some frag ∧
        n.key = frag.size ∧ Cuts m bytes align n frag (p, m') ∧
        ∃ a f, m.fragMap.find? a = some f ∧ bytes ≤ f.size := by
  simp only [allocImpl, if_neg halign, allocLoop, chosen] at h ⊢
  cases hlb : m.freeList.lowerBound bytes with
  | none =>
      rw [hlb] at h
      cases h
      exact Or.inl ⟨rfl, rfl, rfl⟩
  | some n =>
      simp only [hlb] at h
      cases hf : m.fragMap.find? n.val with
      | none =>
          rw [hf] at h
          cases h
      | some frag =>
          simp only [hf] at h
          split at h
          next => cases h
          next hkey =>
            have hkey := not_not.mp hkey
            have hfits : bytes ≤ frag.size := hkey ▸ (MultiMap.lowerBound_mem hlb).2
            split at h
            next hdelta =>
              cases h
              exact Or.inr ⟨n, frag, if_pos hdelta, hf, hkey, .base hdelta, n.val, frag, hf, hfits⟩
            next hdelta =>
              simp only [if_neg hdelta]
              simp only [if_true] at h
              cases hlb' : m.freeList.lowerBound (u64 (bytes + alignUp 64 align m.minAlign)) with
              | none =>
                  rw [hlb'] at h
                  cases h
                  exact Or.inl ⟨rfl, rfl, rfl⟩
              | some n' =>
                  simp only [hlb'] at h
                  cases hf' : m.fragMap.find? n'.val with
                  | none =>
                      rw [hf'] at h
                      cases h
                  | some frag' =>
                      simp only [hf'] at h
                      split at h
                      next => cases h
                      next hkey' =>
                        split at h
                        next hdelta' =>
                          cases h
                          exact Or.inr ⟨n', frag', rfl, hf', not_not.mp hkey', .base hdelta', n.val,
                            frag, hf, hfits⟩
                        next hdelta' =>
                          simp only [Nat.zero_add, Nat.one_ne_zero, if_false] at h
                          cases h
                          exact Or.inr ⟨n', frag', rfl, hf', not_not.mp hkey', .aligned hdelta',
                            n.val, frag, hf, hfits⟩

/-! ## Same fragments -/

/-- The size of a fragment and whether it is free. -/
def extent (f : Fragment) : Nat × Bool := (f.size, f.isFree)

/-- The managers have the same fragments, and list the same ones as free. -/
structure Same (m m' : VaMgr) : Prop where
  minAlign : m'.minAlign = m.minAlign
  fragments : ∀ a, (m'.fragMap.find? a).map extent = (m.fragMap.find? a).map extent
  listed : ∀ k a, (∃ i, ⟨i, k, a⟩ ∈ m'.freeList.nodes) ↔ ∃ i, ⟨i, k, a⟩ ∈ m.freeList.nodes

theorem Same.refl (m : VaMgr) : Same m m := ⟨rfl, fun _ => rfl, fun _ _ => Iff.rfl⟩

theorem Partition.listed_iff (P : Partition start size m) (k a : Nat) :
    (∃ i, ⟨i, k, a⟩ ∈ m.freeList.nodes) ↔ (m.fragMap.find? a).map extent = some (k, true) := by
  constructor
  · rintro ⟨i, hn⟩
    rw [P.find?_of_node hn]
    rfl
  · intro h
    obtain ⟨f, hf, hext⟩ := Option.map_eq_some_iff.mp h
    obtain ⟨hsize, hfree⟩ := Prod.mk.inj hext
    obtain ⟨i, _, hnode⟩ := P.node_of_free hf hfree
    exact ⟨i, hsize ▸ hnode⟩

/-- Partitions with the same used fragments have the same free fragments, if neither has two
that are neighbours. -/
theorem Partition.free_extent (P : Partition start size m) (P' : Partition start size m')
    (hm : Merged m) (hm' : Merged m') (hused : m'.used = m.used) {a k : Nat}
    (h : (m.fragMap.find? a).map extent = some (k, true)) :
    (m'.fragMap.find? a).map extent = some (k, true) := by
  obtain ⟨f, hf, hext⟩ := Option.map_eq_some_iff.mp h
  obtain ⟨hsize, hfree⟩ := Prod.mk.inj hext
  have hsame : ∀ x, FreePoint Fragment.size Fragment.isFree m.fragMap x ↔
      FreePoint Fragment.size Fragment.isFree m'.fragMap x := by
    intro x
    have h₁ : FreePoint Fragment.size Fragment.isFree m.fragMap x ↔ _ := P.freeAt_iff
    have h₂ : FreePoint Fragment.size Fragment.isFree m'.fragMap x ↔ _ := P'.freeAt_iff
    rw [h₁, h₂, hused]
  obtain ⟨f', hf', hfree', hsize'⟩ :=
    Coalesced.free_tile hm hm' P.arena.tiles P'.arena.tiles hsame hf hfree
  rw [hf', Option.map_some, extent, hfree', hsize', hsize]

theorem used_extent {a k : Nat} :
    (m.fragMap.find? a).map extent = some (k, false) ↔ m.used a = some k := by
  rw [used_eq_some, Option.map_eq_some_iff]
  refine exists_congr fun f => and_congr_right fun _ => ?_
  rw [extent, Prod.mk.injEq, and_comm]

theorem Partition.same (P : Partition start size m) (P' : Partition start size m')
    (hm : Merged m) (hm' : Merged m') (hused : m'.used = m.used)
    (hmin : m'.minAlign = m.minAlign) : Same m m' := by
  have hfragments : ∀ a, (m'.fragMap.find? a).map extent = (m.fragMap.find? a).map extent := by
    intro a
    refine Option.ext fun e => ?_
    obtain ⟨k, free⟩ := e
    cases free with
    | true => exact ⟨P'.free_extent P hm' hm hused.symm, P.free_extent P' hm hm' hused⟩
    | false => rw [used_extent, used_extent, hused]
  refine ⟨hmin, hfragments, fun k a => ?_⟩
  rw [P'.listed_iff, P.listed_iff, hfragments]

/-! ## What is restored -/

/-- Releasing what an allocation took gives the fragments from before. -/
theorem Takes.undone {bytes p : Nat} (P : Partition start size m) (hm : Merged m)
    (T : Takes start size m bytes p m') (hm' : Merged m') : Same m (m'.free p) := by
  obtain ⟨P', hused⟩ := free_spec T.partition p
  refine P.same P' hm (free_merged T.partition hm' p) ?_ (by rw [minAlign_free, T.minAlign])
  rw [hused, T.used, Function.update_idem]
  exact Function.update_eq_self_iff.mpr T.fresh.symm

/-- An address that is not taken is not released. -/
theorem free_of_unused {p : Nat} (h : m.used p = none) : m.free p = m := by
  rw [free]
  split
  next => rfl
  next =>
    cases hf : m.fragMap.find? p with
    | none => rfl
    | some f =>
        have hfree : f.isFree = true := by
          by_contra hused
          have hsome := used_eq_some.mpr ⟨f, hf, Bool.eq_false_iff.mpr hused, rfl⟩
          rw [h] at hsome
          cases hsome
        simp only [if_pos hfree]

/-- Taking no bytes at the base of a fragment keeps the fragments. -/
theorem takeBase_zero_same (P : Partition start size m) (hm : Merged m) {n : Node}
    (hn : n ∈ m.freeList.nodes) (frag : Fragment) : Same m ((m.takeBase 0 n frag).free n.val) := by
  have T := takeBase_zero P hn frag
  rw [free_of_unused (T.unused P)]
  refine P.same T.partition hm ?_ T.used T.minAlign
  have hfind := P.find?_of_node hn
  obtain ⟨hlow, hup⟩ := Coalesced.of_free hm hfind rfl
  have hfield : Fragment.sizeField n.key = n.key := (P.openFree hn).sizeField (Nat.le_refl n.key)
  have hpos : 0 < n.key := (P.arena.tiles.bounds hfind).2.1
  rw [takeBase_zero_eq P hn]
  refine (hm.parted n.val).closeFree (g := .makeFree (m.freeList.erase n.id).next n.key) hlow ?_ ?_
  · rw [Fragment.size_makeFree, hfield]
    exact hup
  · rw [Fragment.size_makeFree, hfield]
    exact hpos

/-- A range above the base of a fragment is not put back. -/
theorem takeFixed_not_same {bytes addr base : Nat} {f : Fragment}
    (hf : m.fragMap.find? base = some f) (hlo : base < addr) (hhi : addr < base + f.size)
    (hunused : (m.takeFixed bytes addr base f).used addr = none) :
    ¬ Same m ((m.takeFixed bytes addr base f).free addr) := by
  rw [free_of_unused hunused]
  intro S
  have hfragments := S.fragments base
  rw [hf, Option.map_some] at hfragments
  obtain ⟨g, hg, hext⟩ := Option.map_eq_some_iff.mp hfragments
  have hsize : g.size = f.size := (Prod.mk.inj hext).1
  rcases takeFixed_find? hlo hg with hafter | ⟨_, hle⟩ | ⟨hne, _⟩
  · omega
  · omega
  · exact hne rfl

/-! ## The fragment that is chosen -/

theorem chosen_mem {bytes align : Nat} {n : Node} (h : m.chosen bytes align = some n) :
    n ∈ m.freeList.nodes ∧ (bytes ≤ n.key ∨ u64 (bytes + alignUp 64 align m.minAlign) ≤ n.key) ∧
      ∃ n' ∈ m.freeList.nodes, bytes ≤ n'.key := by
  rw [chosen] at h
  cases hlb : m.freeList.lowerBound bytes with
  | none =>
      rw [hlb] at h
      cases h
  | some n' =>
      obtain ⟨hn', hge⟩ := MultiMap.lowerBound_mem hlb
      simp only [hlb] at h
      split at h
      next =>
        cases h
        exact ⟨hn', Or.inl hge, _, hn', hge⟩
      next =>
        obtain ⟨hn, hge'⟩ := MultiMap.lowerBound_mem h
        exact ⟨hn, Or.inr hge', n', hn', hge⟩

theorem chosen_slack {bytes align : Nat} {n : Node} (h : m.chosen bytes align = some n)
    (hdelta : n.val % align ≠ 0) : u64 (bytes + alignUp 64 align m.minAlign) ≤ n.key := by
  rw [chosen] at h
  cases hlb : m.freeList.lowerBound bytes with
  | none =>
      rw [hlb] at h
      cases h
  | some n' =>
      simp only [hlb] at h
      split at h
      next hdelta' =>
        cases h
        exact absurd hdelta' hdelta
      next => exact (MultiMap.lowerBound_mem h).2

/-- Where a sum wraps, the alignment is larger than every address. -/
theorem lt_of_not_fits (hmin : m.minAlign = defaultGpuPageSize) {bytes align : Nat}
    (hbytes : bytes < 2 ^ 63) (h : ¬ Fits m bytes align) : 2 ^ 63 < align := by
  have hpage : defaultGpuPageSize = 4096 := rfl
  rw [Fits, hmin, hpage, alignUp, alignDown] at h
  omega

/-- An alignment above every address is returned in place of an address. -/
theorem next_of_lt {align n : Nat} (hn : n < 2 ^ 63) (halign : 2 ^ 63 < align)
    (hword : align < 2 ^ 64) : u64 (n + align - n % align) = align := by
  rw [Nat.mod_eq_of_lt (by omega), Nat.add_sub_cancel_left, u64_of_lt hword]

/-- A range that fits lies in the fragment that is chosen, behind its base. -/
theorem chosen_inside {bytes align : Nat} {n : Node} (h : m.chosen bytes align = some n)
    (hdelta : n.val % align ≠ 0) (halign : align ≠ 0) (hfits : Fits m bytes align)
    (hmin : 0 < m.minAlign) (hhi : n.val + n.key < 2 ^ 63) :
    n.val < u64 (n.val + align - n.val % align) ∧
      u64 (n.val + align - n.val % align) + bytes < n.val + n.key := by
  have hslack := chosen_slack h hdelta
  have hup : align ≤ alignUp 64 align m.minAlign := le_alignUp hmin hfits.1
  have hmod := Nat.mod_lt n.val (Nat.pos_of_ne_zero halign)
  rw [u64_of_lt hfits.2] at hslack
  rw [u64_of_lt (by omega)]
  omega

theorem Partition.chosen_base (P : Partition start size m) (hmin : m.minAlign = defaultGpuPageSize)
    {bytes align : Nat} {n : Node} (h : m.chosen bytes align = some n)
    (hdelta : n.val % align = 0) (hword : align < 2 ^ 64) : bytes ≤ n.key := by
  obtain ⟨hn, hkey, n', hn', hge⟩ := chosen_mem h
  have hend := P.range.end_lt
  have hbounds : start ≤ n.val ∧ 0 < n.key ∧ n.val + n.key ≤ start + size :=
    P.arena.tiles.bounds (P.find?_of_node hn)
  have hbounds' : n'.val + n'.key ≤ start + size :=
    (P.arena.tiles.bounds (P.find?_of_node hn')).2.2
  have hstart := P.range.start_pos
  rcases hkey with hkey | hkey
  · exact hkey
  · by_cases hfits : Fits m bytes align
    · rw [u64_of_lt hfits.2] at hkey
      omega
    · have hlt := lt_of_not_fits hmin (by omega) hfits
      rw [Nat.mod_eq_of_lt (by omega)] at hdelta
      omega

/-- The manager has room for the request: around the address, or in a free fragment. -/
def Finds (m : VaMgr) (bytes align addr : Nat) : Prop :=
  (m.fixedFragment bytes align addr).isSome = true ∨ (m.chosen bytes align).isSome = true

instance (m : VaMgr) (bytes align addr : Nat) : Decidable (Finds m bytes align addr) :=
  inferInstanceAs (Decidable (_ ∨ _))

/-- An address of the free fragment is its base.  Behind the base of the fragment that is
chosen a request has bytes, and its sums fit in a word. -/
def Restorable (m : VaMgr) (bytes align addr : Nat) : Prop :=
  match m.fixedFragment bytes align addr with
  | some (base, _) => base = addr
  | none => ∀ n ∈ m.chosen bytes align, n.val % align ≠ 0 → 0 < bytes ∧ Fits m bytes align

instance (m : VaMgr) (bytes align addr : Nat) : Decidable (Restorable m bytes align addr) :=
  match h : m.fixedFragment bytes align addr with
  | some (base, _) => decidable_of_iff (base = addr) (by rw [Restorable, h])
  | none =>
      match h' : m.chosen bytes align with
      | none => isTrue (by rw [Restorable, h]; intro n hn; rw [h'] at hn; cases hn)
      | some n =>
          decidable_of_iff (n.val % align ≠ 0 → 0 < bytes ∧ Fits m bytes align) (by
            rw [Restorable, h, h']
            simp)

/-- A call that returns zero found nothing and changed nothing. -/
theorem Partition.alloc_eq_zero_iff (P : Partition start size m)
    {bytes align addr p : Nat} (halign : align ≠ 0) (hword : align < 2 ^ 64)
    (h : m.alloc bytes align addr = some (p, m')) :
    (p = 0 ↔ ¬ Finds m bytes align addr) ∧ (p = 0 → m' = m) := by
  have hend := P.range.end_lt
  have hstart := P.range.start_pos
  rcases alloc_fixed_or h with ⟨base, frag, hfixed, rfl, _⟩ | ⟨hfixed, himpl⟩
  · have hpos : p ≠ 0 := by
      rintro rfl
      rw [fixedFragment, if_neg (by simp)] at hfixed
      cases hfixed
    refine ⟨⟨fun hp => absurd hp hpos, fun hnot => ?_⟩, fun hp => absurd hp hpos⟩
    exact absurd (Or.inl (by rw [hfixed]; rfl)) hnot
  · rcases allocImpl_cases halign himpl with ⟨hnone, rfl, rfl⟩ | ⟨n, frag, hsome, _, _, hcut, _⟩
    · refine ⟨⟨fun _ => ?_, fun _ => rfl⟩, fun _ => rfl⟩
      rintro (hf | hc)
      · rw [hfixed] at hf
        cases hf
      · rw [hnone] at hc
        cases hc
    · have hbounds : start ≤ n.val ∧ 0 < n.key ∧ n.val + n.key ≤ start + size :=
        P.arena.tiles.bounds (P.find?_of_node (chosen_mem hsome).1)
      have hpos : p ≠ 0 := by
        cases hcut with
        | base _ => omega
        | aligned hdelta =>
            have hmod := Nat.mod_lt n.val (Nat.pos_of_ne_zero halign)
            have hmod' := Nat.mod_le n.val align
            by_cases hlt : n.val < align
            · rw [Nat.mod_eq_of_lt hlt, Nat.add_sub_cancel_left, u64_of_lt hword]
              exact halign
            · rw [u64_of_lt (by omega)]
              omega
      refine ⟨⟨fun hp => absurd hp hpos, fun hnot => ?_⟩, fun hp => absurd hp hpos⟩
      exact absurd (Or.inr (by rw [hsome]; rfl)) hnot

/-! ## Requests that are undone -/

/-- What is taken at the base of a fragment can be put back. -/
theorem Partition.takeBase_restored (P : Partition start size m) (hm : Merged m) {n : Node}
    (hn : n ∈ m.freeList.nodes) {bytes : Nat} (hle : bytes ≤ n.key) (frag : Fragment) :
    (start ≤ n.val ∧ n.val + bytes ≤ start + size) ∧
      Same m ((m.takeBase bytes n frag).free n.val) := by
  have hbounds : start ≤ n.val ∧ 0 < n.key ∧ n.val + n.key ≤ start + size :=
    P.arena.tiles.bounds (P.find?_of_node hn)
  refine ⟨by omega, ?_⟩
  cases bytes with
  | zero => exact takeBase_zero_same P hm hn frag
  | succ b =>
      have hpos := Nat.succ_pos b
      exact (takeBase_spec P hn hpos hle frag).undone P hm (takeBase_merged P hm hn hpos frag)

/-- What is taken above the base of the fragment around an address is lost. -/
theorem Partition.takeFixed_lost (P : Partition start size m) {bytes addr base : Nat}
    {frag : Fragment} (I : Inside m bytes addr base frag) (hin : addr < base + frag.size)
    (hlt : base < addr) : ¬ Same m ((m.takeFixed bytes addr base frag).free addr) := by
  refine takeFixed_not_same I.find hlt hin ?_
  cases bytes with
  | zero =>
      obtain ⟨i, hfrag, hnode⟩ := P.node_of_free I.find I.isFree
      have T := takeAligned_zero P hnode hlt hin
      rw [← takeFixed_zero_eq P hnode hlt hin, ← hfrag] at T
      exact T.unused P
  | succ b =>
      exact OrdMap.view_of_none (P.takeFixed_inside (Nat.succ_pos b) I hlt).1

/-- What is cut out of the fragment that is chosen, behind its base, can be put back if it has
bytes and its sums fit in a word, and only then. -/
theorem Partition.takeAligned_restored_iff (P : Partition start size m) (hm : Merged m)
    (hmin : m.minAlign = defaultGpuPageSize) {bytes align : Nat} (halign : align ≠ 0)
    (hword : align < 2 ^ 64) {n : Node} (h : m.chosen bytes align = some n)
    (hdelta : n.val % align ≠ 0) :
    let p := u64 (n.val + align - n.val % align)
    ((start ≤ p ∧ p + bytes ≤ start + size) ∧ Same m ((m.takeAligned bytes p n).free p)) ↔
      0 < bytes ∧ Fits m bytes align := by
  intro p
  obtain ⟨hn, _, n', hn', hge⟩ := chosen_mem h
  have hend := P.range.end_lt
  have hbounds : start ≤ n.val ∧ 0 < n.key ∧ n.val + n.key ≤ start + size :=
    P.arena.tiles.bounds (P.find?_of_node hn)
  have hbounds' : n'.val + n'.key ≤ start + size :=
    (P.arena.tiles.bounds (P.find?_of_node hn')).2.2
  constructor
  · rintro ⟨hrange, hsame⟩
    have hfits : Fits m bytes align := by
      by_contra hnot
      have hlarge := lt_of_not_fits hmin (by omega) hnot
      have hp : p = align := next_of_lt (by omega) hlarge hword
      omega
    refine ⟨?_, hfits⟩
    refine Nat.pos_of_ne_zero ?_
    rintro rfl
    obtain ⟨hlo, hhi⟩ := chosen_inside h hdelta halign hfits P.minAlign_pos (by omega)
    rw [← takeFixed_zero_eq P hn hlo hhi] at hsame
    exact P.takeFixed_lost (P.inside_of_node hn (Nat.le_of_lt hlo) (Nat.le_of_lt hhi)) hhi hlo hsame
  · rintro ⟨hpos, hfits⟩
    obtain ⟨hlo, hhi⟩ := chosen_inside h hdelta halign hfits P.minAlign_pos (by omega)
    have T := takeAligned_spec P hn hpos hlo (Nat.le_of_lt hhi)
    exact ⟨by omega, T.undone P hm (takeAligned_merged P hm hn hpos hlo (Nat.le_of_lt hhi))⟩

/-- A range that was taken is in the managed range and can be put back exactly when it is
restorable. -/
theorem Partition.restored_iff (P : Partition start size m) (hm : Merged m)
    (hmin : m.minAlign = defaultGpuPageSize) {bytes align addr p : Nat} (halign : align ≠ 0)
    (hword : align < 2 ^ 64) (h : m.alloc bytes align addr = some (p, m')) (hp : p ≠ 0) :
    ((start ≤ p ∧ p + bytes ≤ start + size) ∧ Same m (m'.free p)) ↔
      Restorable m bytes align addr := by
  rcases alloc_fixed_or h with ⟨base, frag, hfixed, rfl, rfl⟩ | ⟨hfixed, himpl⟩
  · obtain ⟨I, hin⟩ := P.fixed_inside hfixed
    rw [Restorable, hfixed]
    constructor
    · rintro ⟨_, hsame⟩
      by_contra hne
      exact P.takeFixed_lost I hin (Nat.lt_of_le_of_ne I.base_le hne) hsame
    · rintro rfl
      obtain ⟨i, hfrag, hnode⟩ := P.node_of_free I.find I.isFree
      have hle : bytes ≤ frag.size := Nat.le_of_add_le_add_left I.end_le
      rw [hfrag, takeFixed_eq_takeBase]
      exact P.takeBase_restored hm hnode hle _
  · rcases allocImpl_cases halign himpl with ⟨_, rfl, _⟩ | ⟨n, frag, hsome, _, _, hcut, _⟩
    · exact absurd rfl hp
    · have hrestorable : Restorable m bytes align addr ↔
          (n.val % align ≠ 0 → 0 < bytes ∧ Fits m bytes align) := by
        rw [Restorable, hfixed, hsome]
        simp
      rw [hrestorable]
      cases hcut with
      | base hdelta =>
          have hle := P.chosen_base hmin hsome hdelta hword
          exact iff_of_true (P.takeBase_restored hm (chosen_mem hsome).1 hle frag)
            fun hne => absurd hdelta hne
      | aligned hdelta =>
          have hcond := P.takeAligned_restored_iff hm hmin halign hword hsome hdelta
          exact hcond.trans ⟨fun hok _ => hok, fun hok => hok hdelta⟩

end VaMgr

end RocDxg
