import RocDxg.VaMgr.Requests

/-!
# Requests of no bytes

`Alloc` does not refuse a size of zero.  It finds a free fragment, marks its base or an
address inside it as used, and at once writes the rest of the fragment, which is all of it,
over the mark.  The address that is returned is still free, and what is handed out to others
has not changed (`alloc_zero`).
-/

namespace RocDxg

open Lib (OrdMap MultiMap Node)

namespace VaMgr

/-- The address `p` was returned and not taken. -/
structure Points (start size : Nat) (m : VaMgr) (p : Nat) (m' : VaMgr) : Prop where
  partition : Partition start size m'
  minAlign : m'.minAlign = m.minAlign
  used : m'.used = m.used
  inside : start ≤ p ∧ p < start + size
  clear : ∀ a n, m.used a = some n → p < a ∨ a + n ≤ p

variable {start size : Nat} {m m' : VaMgr}

/-- The addresses of a free fragment are in no range that is handed out. -/
theorem Partition.clear_of_node (P : Partition start size m) {n : Node} (hn : n ∈ m.freeList.nodes)
    {p : Nat} (hlo : n.val ≤ p) (hhi : p < n.val + n.key) :
    (start ≤ p ∧ p < start + size) ∧ ∀ a k, m.used a = some k → p < a ∨ a + k ≤ p := by
  have hfind := P.find?_of_node hn
  have hbounds : start ≤ n.val ∧ 0 < n.key ∧ n.val + n.key ≤ start + size :=
    P.arena.tiles.bounds hfind
  refine ⟨by omega, ?_⟩
  intro a k ha
  obtain ⟨f, hf, hfree, rfl⟩ := used_eq_some.mp ha
  have hne : a ≠ n.val := by
    rintro rfl
    rw [hfind] at hf
    cases hf
    cases hfree
  have hapart : a + f.size ≤ n.val ∨ n.val + n.key ≤ a := P.arena.tiles.apart hf hfind hne
  omega

/-- A fragment out of account is published as it is. -/
theorem InLimbo.published {k len : Nat} {u : Nat → Option Nat} (L : InLimbo start size m k len u) :
    Partition start size (m.addFreeFragment len k) ∧ (m.addFreeFragment len k).used = u := by
  have hentry : (Fragment.makeFree m.freeList.next len).freeEntry = some (len, m.freeList.next) := by
    rw [Fragment.freeEntry_makeFree, L.sizeField (Nat.le_refl len)]
  obtain ⟨harena, hused⟩ := L.limbo.closeFree hentry (Fragment.linked_makeFree ..)
  exact ⟨⟨harena, L.range, L.minAlign_pos⟩, hused⟩

/-- Taking no bytes of a fragment publishes it again. -/
theorem takeBase_zero_eq (P : Partition start size m) {n : Node} (hn : n ∈ m.freeList.nodes)
    (frag : Fragment) : m.takeBase 0 n frag =
      ({ m with freeList := m.freeList.erase n.id } : VaMgr).addFreeFragment n.key n.val := by
  have hpos : 0 < n.key := (P.arena.tiles.bounds (P.find?_of_node hn)).2.1
  rw [takeBase]
  simp only [removeFreeListEntry, if_pos hpos, gt_iff_lt, addFreeFragment, Nat.add_zero,
    Nat.sub_zero, OrdMap.insert_insert]

theorem takeBase_zero (P : Partition start size m) {n : Node} (hn : n ∈ m.freeList.nodes)
    (frag : Fragment) : Points start size m n.val (m.takeBase 0 n frag) := by
  have hpos : 0 < n.key := (P.arena.tiles.bounds (P.find?_of_node hn)).2.1
  obtain ⟨hinside, hclear⟩ := P.clear_of_node hn (Nat.le_refl _) (Nat.lt_add_of_pos_right hpos)
  obtain ⟨P', hused⟩ := (P.openFree hn).published
  rw [takeBase_zero_eq P hn]
  exact ⟨P', rfl, hused, hinside, hclear⟩

theorem takeAligned_zero (P : Partition start size m) {n : Node} (hn : n ∈ m.freeList.nodes)
    {p : Nat} (hlo : n.val < p) (hhi : p < n.val + n.key) :
    Points start size m p (m.takeAligned 0 p n) := by
  obtain ⟨hinside, hclear⟩ := P.clear_of_node hn (Nat.le_of_lt hlo) hhi
  obtain ⟨d, rfl⟩ := Nat.exists_eq_add_of_le (Nat.le_of_lt hlo)
  have L := P.openFree hn
  have hfront := L.cutFront (n := d) (g := .makeUsed (n.key - d)) (by omega) (by omega)
    (L.sizeField (by omega))
  obtain ⟨P', hused⟩ := hfront.published
  have hne : n.val ≠ n.val + d := by omega
  have hgt : n.key > d := by omega
  have heq : m.takeAligned 0 (n.val + d) n =
      ((({ m with
        freeList := m.freeList.erase n.id
        fragMap := m.fragMap.insert (n.val + d) (.makeUsed (n.key - d)) } : VaMgr).addFreeFragment d
          n.val).addFreeFragment (n.key - d) (n.val + d)) := by
    rw [takeAligned_add P hn (Nat.le_of_lt hgt)]
    simp only [removeFreeListEntry, addUsedFragment, addFreeFragment, Nat.add_zero, Nat.sub_zero,
      if_pos hgt]
    rw [OrdMap.insert_comm _ _ _ hne, OrdMap.insert_insert, OrdMap.insert_comm _ _ _ hne,
      OrdMap.insert_insert]
  rw [heq]
  exact ⟨P', rfl, hused, hinside, hclear⟩

/-- Inside a fragment the fixed-address path does what `AllocImpl` would. -/
theorem takeFixed_zero_eq (P : Partition start size m) {addr base i len : Nat}
    (hn : ⟨i, len, base⟩ ∈ m.freeList.nodes) (hlo : base < addr) (hhi : addr < base + len) :
    m.takeFixed 0 addr base ⟨some i, len, true⟩ = m.takeAligned 0 addr ⟨i, len, base⟩ := by
  obtain ⟨d, rfl⟩ := Nat.exists_eq_add_of_le (Nat.le_of_lt hlo)
  have hgt : len > d := by omega
  have hsub : base + len - (base + d) = len - d := by omega
  rw [takeAligned_add P hn (Nat.le_of_lt hgt)]
  simp only [takeFixed, removeFreeListEntry, addUsedFragment, addFreeFragment, Nat.add_zero,
    Nat.sub_zero, gt_iff_lt, if_pos hlo, if_pos hhi, hsub, if_pos hgt, Nat.add_sub_cancel_left,
    OrdMap.insert_insert]
  rw [OrdMap.insert_comm _ _ _ (Nat.ne_of_gt hlo), OrdMap.insert_insert]

/-- What a request of no bytes does: nothing, or it returns an address that stays free. -/
def Misses (start size : Nat) (m : VaMgr) (p : Nat) (m' : VaMgr) : Prop :=
  (p = 0 ∧ m' = m) ∨ Points start size m p m'

theorem allocLoop_zero (P : Partition start size m) {align newAlign left i alignBytes p : Nat}
    (halign : align ≤ newAlign) (hword : align ≠ 0 → newAlign < 2 ^ 64)
    (hb : i ≠ 0 → alignBytes = newAlign) (hi : i = 0 → alignBytes = 0)
    (h : m.allocLoop 0 align newAlign left i alignBytes = some (p, m')) :
    Misses start size m p m' := by
  induction left generalizing i alignBytes with
  | zero =>
      cases h
      exact Or.inl ⟨rfl, rfl⟩
  | succ left ih =>
      rw [allocLoop] at h
      cases hlb : m.freeList.lowerBound alignBytes with
      | none =>
          rw [hlb] at h
          cases h
          exact Or.inl ⟨rfl, rfl⟩
      | some n =>
          obtain ⟨hn, hge⟩ := MultiMap.lowerBound_mem hlb
          have hend := P.range.end_lt
          have hhi : n.val + n.key ≤ start + size :=
            (P.arena.tiles.bounds (P.find?_of_node hn)).2.2
          simp only [hlb, P.find?_of_node hn, ne_eq, not_true_eq_false, if_false] at h
          split at h
          next =>
            cases h
            exact Or.inr (takeBase_zero P hn _)
          next hzero =>
            split at h
            next =>
              cases h
              exact Or.inr (takeBase_zero P hn _)
            next hdelta =>
              split at h
              next hfirst =>
                refine ih (fun _ => ?_) (fun hi' => absurd hi' (Nat.succ_ne_zero i)) h
                rw [hi hfirst, Nat.zero_add, u64_of_lt (hword hzero)]
              next hsecond =>
                rw [hb hsecond] at hge
                have hmod := Nat.mod_lt n.val (Nat.pos_of_ne_zero hzero)
                rw [u64_of_lt (by omega)] at h
                cases h
                exact Or.inr (takeAligned_zero P hn (by omega) (by omega))

theorem allocImpl_zero (P : Partition start size m) {align p : Nat}
    (halign : align + m.minAlign ≤ 2 ^ 64) (h : m.allocImpl 0 align = some (p, m')) :
    Misses start size m p m' := by
  rw [allocImpl] at h
  have hpos := P.minAlign_pos
  refine allocLoop_zero P ?_ ?_ (fun hne => absurd rfl hne) (fun _ => rfl) h
  · split
    next hzero =>
      rw [hzero]
      exact Nat.zero_le _
    next => exact le_alignUp hpos (by omega)
  · intro hzero
    rw [if_neg hzero]
    exact Nat.mod_lt _ (by decide)

/-- `Alloc` of no bytes. -/
theorem alloc_zero (P : Partition start size m) {align addr p : Nat}
    (halign : align + m.minAlign ≤ 2 ^ 64) (h : m.alloc 0 align addr = some (p, m')) :
    Misses start size m p m' := by
  rcases alloc_fixed_or h with ⟨base, frag, hfixed, rfl, rfl⟩ | ⟨_, himpl⟩
  · obtain ⟨I, hlt⟩ := P.fixed_inside hfixed
    obtain ⟨i, hfrag, hnode⟩ := P.node_of_free I.find I.isFree
    rcases Nat.lt_or_eq_of_le I.base_le with hlo | rfl
    · rw [hfrag, takeFixed_zero_eq P hnode hlo hlt]
      exact Or.inr (takeAligned_zero P hnode hlo hlt)
    · rw [hfrag, takeFixed_eq_takeBase]
      exact Or.inr (takeBase_zero P hnode _)
  · exact allocImpl_zero P halign himpl

theorem Points.unused {p : Nat} (P : Partition start size m) (T : Points start size m p m') :
    m'.used p = none := by
  rw [T.used]
  cases hp : m.used p with
  | none => rfl
  | some n =>
      have := T.clear p n hp
      have := (P.used_bounds hp).2.1
      omega

/-- An address that stays free is not there to be released. -/
theorem Misses.free (P : Partition start size m) {p : Nat} (h : Misses start size m p m') :
    Partition start size (m'.free p) ∧ (m'.free p).used = m.used ∧
      (m'.free p).minAlign = m.minAlign := by
  rcases h with ⟨rfl, rfl⟩ | T
  · rw [VaMgr.free, if_pos rfl]
    exact ⟨P, rfl, rfl⟩
  · obtain ⟨P', hused⟩ := free_spec T.partition p
    refine ⟨P', ?_, by rw [minAlign_free, T.minAlign]⟩
    have hnone := T.unused P
    rw [hused, T.used] at *
    exact Function.update_eq_self_iff.mpr hnone.symm

end VaMgr

end RocDxg
