import RocDxg.Lib.Arena
import RocDxg.VaMgr.Model

/-!
# The partition invariant

The fragments of the map tile the managed range, the free list is the index by
size of the free ones, and a fragment stores an iterator exactly when it is free.
`used` is what the invariant says about the outside: the partial function from
the addresses of the used fragments to their sizes.  An allocation that succeeds
adds one address to `used` and a release removes one, and nothing else changes
(`Takes`, `free_used`).

The exception is an allocation at a fixed address inside a free fragment, which
breaks the tiling.  The lemma for the fixed-address path, `takeFixed_eq_takeBase`,
therefore asks for the address to be the base of the fragment.
-/

namespace RocDxg

open Lib (OrdMap MultiMap Node TileMap Indexes Account Arena Limbo)

namespace Fragment

/-- The key and the iterator a free fragment has in the free list. -/
def freeEntry (f : Fragment) : Option (Nat × Nat) :=
  if f.isFree then f.freeListEntry.map fun i => (f.size, i) else none

/-- The size of a used fragment. -/
def usedSize (f : Fragment) : Option Nat := if f.isFree then none else some f.size

/-- A fragment stores an iterator exactly when it is free. -/
def Linked (f : Fragment) : Prop := f.isFree = f.freeListEntry.isSome

theorem freeEntry_eq_some {f : Fragment} {k i : Nat} :
    f.freeEntry = some (k, i) ↔ f = ⟨some i, k, true⟩ := by
  obtain ⟨entry, size, isFree⟩ := f
  cases isFree <;> cases entry <;> simp [freeEntry, and_comm]

theorem freeEntry_of_linked {f : Fragment} (h : f.Linked) (hf : f.isFree = true) :
    ∃ i, f.freeListEntry = some i ∧ f.freeEntry = some (f.size, i) := by
  rw [Linked, hf] at h
  obtain ⟨i, hi⟩ := Option.isSome_iff_exists.mp h.symm
  exact ⟨i, hi, by simp [freeEntry, hf, hi]⟩

@[simp] theorem freeEntry_makeFree (i n : Nat) : (makeFree i n).freeEntry = some (sizeField n, i) :=
  rfl

@[simp] theorem usedSize_makeFree (i n : Nat) : (makeFree i n).usedSize = none := rfl

@[simp] theorem size_makeFree (i n : Nat) : (makeFree i n).size = sizeField n := rfl

@[simp] theorem linked_makeFree (i n : Nat) : (makeFree i n).Linked := rfl

@[simp] theorem freeEntry_makeUsed (n : Nat) : (makeUsed n).freeEntry = none := rfl

@[simp] theorem usedSize_makeUsed (n : Nat) : (makeUsed n).usedSize = some (sizeField n) := rfl

@[simp] theorem size_makeUsed (n : Nat) : (makeUsed n).size = sizeField n := rfl

@[simp] theorem linked_makeUsed (n : Nat) : (makeUsed n).Linked := rfl

/-- Marking a fragment used while its size is set gives a new used fragment. -/
@[simp] theorem setUsed_setSize (f : Fragment) (n : Nat) : (f.setSize n).setUsed = makeUsed n := rfl

/-- How the fragments of the manager count. -/
@[reducible]
def account : Account Fragment where
  size := Fragment.size
  entry := freeEntry
  used := usedSize
  ok := Linked
  key_eq h := by rw [freeEntry_eq_some.mp h]
  used_of_entry h := by
    rw [freeEntry_eq_some.mp h]
    rfl
  size_of_used {f n} h := by
    cases hf : f.isFree <;> simp_all [usedSize]
  entry_of_used {f n} h := by
    cases hf : f.isFree <;> simp_all [usedSize, freeEntry]

end Fragment

namespace VaMgr

/-- The size of the used fragment at an address. -/
def used (m : VaMgr) : Nat → Option Nat := m.fragMap.view Fragment.usedSize

/-- A range a manager can be built for. -/
structure Managed (start size : Nat) : Prop where
  start_pos : 0 < start
  size_pos : 0 < size
  end_lt : start + size < 2 ^ 63

/-- The fragments partition `[start, start + size)`, and the free list is the
index of the free ones. -/
structure Partition (start size : Nat) (m : VaMgr) : Prop where
  arena : Arena Fragment.account start (start + size) (fun _ => none) m.freeList m.fragMap
  range : Managed start size
  minAlign_pos : 0 < m.minAlign

/-- The effect of an allocation that returns `p`. -/
structure Takes (start size : Nat) (m : VaMgr) (bytes p : Nat) (m' : VaMgr) : Prop where
  partition : Partition start size m'
  minAlign : m'.minAlign = m.minAlign
  pos : 0 < p
  fresh : m.used p = none
  used : m'.used = Function.update m.used p (some bytes)

/-- A fragment of the manager is out of account. -/
structure InLimbo (start size : Nat) (m : VaMgr) (k len : Nat) (u : Nat → Option Nat) : Prop where
  limbo : Limbo Fragment.account start (start + size) (fun _ => none) m.freeList m.fragMap k len u
  range : Managed start size
  minAlign_pos : 0 < m.minAlign

variable {start size : Nat} {m : VaMgr}

/-! ## Facts about a partition -/

/-- The constructor makes a partition with no used fragment. -/
theorem partition_new {minAlign : Nat} (hrange : Managed start size) (halign : 0 < minAlign) :
    Partition start size (new start size minAlign) := by
  have hsize := hrange.size_pos
  have hend := hrange.end_lt
  have hfield : Fragment.sizeField size = size := Fragment.sizeField_of_lt (by omega)
  have hpos : 0 < (Fragment.makeFree MultiMap.empty.next size).size := by simpa [hfield]
  refine ⟨⟨?_, fun _ _ _ => rfl, ?_, ?_⟩, hrange, halign⟩
  · have := TileMap.singleton start hpos
    rwa [Fragment.size_makeFree, hfield] at this
  · show Indexes (Lib.beside (fun _ => none) ((OrdMap.empty.insert start _).view Fragment.freeEntry))
      (MultiMap.empty.insert size start)
    rw [OrdMap.view_insert, Lib.beside_update rfl, Fragment.freeEntry_makeFree, hfield]
    exact Indexes.empty.insert size rfl
  · intro a f hf
    simp only [new, OrdMap.find?_insert, OrdMap.find?_empty] at hf
    split at hf
    · cases hf
      exact Fragment.linked_makeFree ..
    · cases hf

theorem used_eq_some {a n : Nat} :
    m.used a = some n ↔ ∃ f, m.fragMap.find? a = some f ∧ f.isFree = false ∧ f.size = n := by
  rw [used, OrdMap.view_eq_some]
  refine exists_congr fun f => and_congr_right fun _ => ?_
  cases hf : f.isFree <;> simp [Fragment.usedSize, hf]

namespace Partition

/-- A used fragment lies in the range. -/
theorem used_bounds (P : Partition start size m) {a n : Nat} (h : m.used a = some n) :
    start ≤ a ∧ 0 < n ∧ a + n ≤ start + size :=
  P.arena.used_bounds h

/-- Two used fragments have no address in common. -/
theorem used_apart (P : Partition start size m) {a n b k : Nat} (ha : m.used a = some n)
    (hb : m.used b = some k) (hne : a ≠ b) : a + n ≤ b ∨ b + k ≤ a :=
  P.arena.used_apart ha hb hne

/-- A node of the free list stands for a free fragment. -/
theorem find?_of_node (P : Partition start size m) {n : Node} (hn : n ∈ m.freeList.nodes) :
    m.fragMap.find? n.val = some ⟨some n.id, n.key, true⟩ := by
  have hview := (P.arena.indexed n.val n.key n.id).mpr hn
  rw [Lib.beside, Option.or_none] at hview
  obtain ⟨f, hf, hentry⟩ := OrdMap.view_eq_some.mp hview
  rw [hf, Fragment.freeEntry_eq_some.mp hentry]

/-- A free fragment has its node in the free list. -/
theorem node_of_free (P : Partition start size m) {a : Nat} {f : Fragment}
    (hf : m.fragMap.find? a = some f) (hfree : f.isFree = true) :
    ∃ i, f = ⟨some i, f.size, true⟩ ∧ ⟨i, f.size, a⟩ ∈ m.freeList.nodes := by
  obtain ⟨i, hi, hentry⟩ := Fragment.freeEntry_of_linked (P.arena.ok hf) hfree
  exact ⟨i, Fragment.freeEntry_eq_some.mp hentry, P.arena.node_of_entry hf hentry⟩

/-- Erasing the node of a free fragment takes the fragment out of account. -/
theorem openFree (P : Partition start size m) {n : Node} (hn : n ∈ m.freeList.nodes) :
    InLimbo start size { m with freeList := m.freeList.erase n.id } n.val n.key m.used :=
  ⟨P.arena.openFree (P.find?_of_node hn) rfl, P.range, P.minAlign_pos⟩

/-- A used fragment may be taken out of account as it is. -/
theorem openUsed (P : Partition start size m) {a len : Nat} (h : m.used a = some len) :
    InLimbo start size m a len (Function.update m.used a none) := by
  obtain ⟨f, hf, hused⟩ := OrdMap.view_eq_some.mp h
  exact ⟨P.arena.openUsed hf hused, P.range, P.minAlign_pos⟩

end Partition

namespace InLimbo

variable {k len : Nat} {u : Nat → Option Nat}

theorem sizeField (L : InLimbo start size m k len u) {n : Nat} (hn : n ≤ len) :
    Fragment.sizeField n = n := by
  have := L.limbo.bounds
  have := L.range.end_lt
  exact Fragment.sizeField_of_lt (by omega)

/-- Give the back of the fragment, from `n` bytes on, to the free list. -/
theorem cutBack (L : InLimbo start size m k len u) {n : Nat} (hn : 0 < n) (hlt : n < len)
    {g : Fragment} (hg : g.size = n) :
    InLimbo start size
      (({ m with fragMap := m.fragMap.insert k g } : VaMgr).addFreeFragment (len - n) (k + n))
      k n u := by
  have hentry : (Fragment.makeFree m.freeList.next (len - n)).freeEntry =
      some (len - n, m.freeList.next) := by
    rw [Fragment.freeEntry_makeFree, L.sizeField (Nat.sub_le len n)]
  exact ⟨L.limbo.cutBack hn hlt hg hentry (Fragment.linked_makeFree ..), L.range, L.minAlign_pos⟩

/-- Give the first `n` bytes of the fragment to the free list. -/
theorem cutFront (L : InLimbo start size m k len u) {n : Nat} (hn : 0 < n) (hlt : n < len)
    {g : Fragment} (hg : g.size = len - n) :
    InLimbo start size
      (({ m with fragMap := m.fragMap.insert (k + n) g } : VaMgr).addFreeFragment n k)
      (k + n) (len - n) u := by
  have hentry : (Fragment.makeFree m.freeList.next n).freeEntry = some (n, m.freeList.next) := by
    rw [Fragment.freeEntry_makeFree, L.sizeField (Nat.le_of_lt hlt)]
  exact ⟨L.limbo.cutFront hn hlt hg hentry (Fragment.linked_makeFree ..), L.range, L.minAlign_pos⟩

end InLimbo

/-! ## Allocation -/

/-- Close a fragment out of account as the result of an allocation. -/
theorem InLimbo.takes {m₀ : VaMgr} {k len : Nat} (L : InLimbo start size m k len m₀.used)
    (halign : m.minAlign = m₀.minAlign) :
    Takes start size m₀ len k { m with fragMap := m.fragMap.insert k (.makeUsed len) } := by
  have hfield : (Fragment.makeUsed len).usedSize = some len := by
    rw [Fragment.usedSize_makeUsed, L.sizeField (Nat.le_refl len)]
  obtain ⟨harena, hused⟩ := L.limbo.closeUsed (g := .makeUsed len) hfield (Fragment.linked_makeUsed len)
  have := L.limbo.bounds
  have := L.range.start_pos
  exact ⟨⟨harena, L.range, L.minAlign_pos⟩, halign, by omega, L.limbo.fresh, hused⟩

theorem takeBase_spec (P : Partition start size m) {n : Node} (hn : n ∈ m.freeList.nodes)
    {bytes : Nat} (hpos : 0 < bytes) (hle : bytes ≤ n.key) (frag : Fragment) :
    Takes start size m bytes n.val (m.takeBase bytes n frag) := by
  have L := P.openFree hn
  rw [takeBase, Fragment.setUsed_setSize]
  split
  next hgt =>
    have hfield := L.sizeField hle
    have hback := L.cutBack hpos hgt (g := .makeUsed bytes) hfield
    have hne : n.val ≠ n.val + bytes := by omega
    have htake := hback.takes rfl
    simp only [addFreeFragment] at htake
    rw [OrdMap.insert_comm _ _ _ hne.symm, OrdMap.insert_insert] at htake
    exact htake
  next hgt =>
    have heq : n.key = bytes := by omega
    rw [← heq]
    exact L.takes rfl

/-- From an address inside the fragment on, nothing of `takeAligned` wraps. -/
theorem takeAligned_add (P : Partition start size m) {n : Node} (hn : n ∈ m.freeList.nodes)
    {bytes d : Nat} (hle : d + bytes ≤ n.key) :
    m.takeAligned bytes (n.val + d) n =
      let m := ((m.removeFreeListEntry (some n.id)).addUsedFragment bytes
        (n.val + d)).addFreeFragment d n.val
      if n.key > d + bytes then
        m.addFreeFragment (n.key - d - bytes) (n.val + d + bytes)
      else m := by
  have hend := P.range.end_lt
  have hhi : n.val + n.key ≤ start + size := (P.arena.tiles.bounds (P.find?_of_node hn)).2.2
  have hfront : sub64 (n.val + d) n.val = d := by
    rw [sub64_of_le (Nat.le_add_right ..) (by omega), Nat.add_sub_cancel_left]
  have hrest : sub64 (sub64 n.key d) bytes = n.key - d - bytes := by
    have hback : sub64 n.key d = n.key - d := sub64_of_le (by omega) (by omega)
    rw [hback]
    exact sub64_of_le (by omega) (by omega)
  rw [takeAligned, hfront, hrest, u64_of_lt (by omega), u64_of_lt (by omega)]

theorem takeAligned_spec (P : Partition start size m) {n : Node} (hn : n ∈ m.freeList.nodes)
    {bytes p : Nat} (hpos : 0 < bytes) (hp : n.val < p) (hle : p + bytes ≤ n.val + n.key) :
    Takes start size m bytes p (m.takeAligned bytes p n) := by
  obtain ⟨d, rfl⟩ := Nat.exists_eq_add_of_le (Nat.le_of_lt hp)
  have L := P.openFree hn
  have hfront := L.cutFront (n := d) (g := .makeUsed (n.key - d)) (by omega) (by omega)
    (L.sizeField (by omega))
  have hne : n.val ≠ n.val + d := by omega
  rw [takeAligned_add P hn (by omega)]
  split
  next hgt =>
    have hback := hfront.cutBack hpos (by omega) (g := .makeUsed bytes) (L.sizeField (by omega))
    have htake := hback.takes rfl
    have hne' : n.val + d ≠ n.val + d + bytes := by omega
    simp only [addFreeFragment] at htake
    rw [OrdMap.insert_comm _ _ _ hne'.symm, OrdMap.insert_insert,
      OrdMap.insert_comm _ _ _ hne, OrdMap.insert_insert] at htake
    exact htake
  next hgt =>
    have heq : n.key - d = bytes := by omega
    have htake := hfront.takes rfl
    simp only [addFreeFragment] at htake
    rw [OrdMap.insert_comm _ _ _ hne, OrdMap.insert_insert, heq] at htake
    exact htake

/-- At the base of a fragment the fixed-address path takes it as `AllocImpl` would. -/
theorem takeFixed_eq_takeBase {bytes base i len : Nat} :
    m.takeFixed bytes base base ⟨some i, len, true⟩ =
      m.takeBase bytes ⟨i, len, base⟩ ⟨some i, len, true⟩ := by
  have hsub : base + len - base - bytes = len - bytes := by omega
  simp only [takeFixed, takeBase, Nat.lt_irrefl, gt_iff_lt, if_false, hsub,
    Nat.add_lt_add_iff_left]

/-- A call either returns zero and changes nothing, or takes a fragment. -/
def Serves (start size : Nat) (m : VaMgr) (bytes : Nat) (r : Option (Nat × VaMgr)) : Prop :=
  ∃ p m', r = some (p, m') ∧ ((p = 0 ∧ m' = m) ∨ Takes start size m bytes p m')

theorem serves_zero {bytes : Nat} : Serves start size m bytes (some (0, m)) :=
  ⟨0, m, rfl, Or.inl ⟨rfl, rfl⟩⟩

/-- What `AllocImpl` can do: find no fragment, take one at its base, or take one from an
aligned address on. -/
inductive Chooses (m : VaMgr) (bytes : Nat) : Nat × VaMgr → Prop
  | zero : Chooses m bytes (0, m)
  | base {n : Node} : n ∈ m.freeList.nodes → bytes ≤ n.key →
      Chooses m bytes (n.val, m.takeBase bytes n ⟨some n.id, n.key, true⟩)
  | aligned {n : Node} {p : Nat} : n ∈ m.freeList.nodes → n.val < p →
      p + bytes ≤ n.val + n.key → Chooses m bytes (p, m.takeAligned bytes p n)

/-- The loop of `AllocImpl` asks for `bytes` first and for `bytes + newAlign` after. -/
theorem allocLoop_chooses (P : Partition start size m) {bytes align newAlign : Nat}
    (halign : align ≤ newAlign)
    (hwrap : align ≠ 0 → bytes < 2 ^ 63 → bytes + newAlign < 2 ^ 64) (left i alignBytes : Nat)
    (hb : alignBytes = if i = 0 then bytes else bytes + newAlign) :
    ∃ r, m.allocLoop bytes align newAlign left i alignBytes = some r ∧ Chooses m bytes r := by
  induction left generalizing i alignBytes with
  | zero => exact ⟨_, rfl, .zero⟩
  | succ left ih =>
      rw [allocLoop]
      cases hlb : m.freeList.lowerBound alignBytes with
      | none => exact ⟨_, rfl, .zero⟩
      | some n =>
          obtain ⟨hn, hge⟩ := MultiMap.lowerBound_mem hlb
          have hbytes : bytes ≤ n.key := by
            split at hb <;> omega
          have hend := P.range.end_lt
          have hhi : n.val + n.key ≤ start + size :=
            (P.arena.tiles.bounds (P.find?_of_node hn)).2.2
          simp only [P.find?_of_node hn, ne_eq, not_true_eq_false, if_false]
          split
          next => exact ⟨_, rfl, .base hn hbytes⟩
          next hzero =>
            split
            next => exact ⟨_, rfl, .base hn hbytes⟩
            next hdelta =>
              split
              next hi =>
                subst hi
                apply ih
                rw [if_neg (Nat.succ_ne_zero 0), hb, if_pos rfl, u64_of_lt (hwrap hzero (by omega))]
              next hi =>
                rw [if_neg hi] at hb
                have hmod := Nat.mod_lt n.val (Nat.pos_of_ne_zero hzero)
                rw [u64_of_lt (by omega)]
                exact ⟨_, rfl, .aligned hn (by omega) (by omega)⟩

theorem Chooses.serves (P : Partition start size m) {bytes : Nat} (hpos : 0 < bytes)
    {r : Nat × VaMgr} (h : Chooses m bytes r) : Serves start size m bytes (some r) := by
  cases h with
  | zero => exact serves_zero
  | base hn hle => exact ⟨_, _, rfl, Or.inr (takeBase_spec P hn hpos hle _)⟩
  | aligned hn hp hle => exact ⟨_, _, rfl, Or.inr (takeAligned_spec P hn hpos hp hle)⟩

/-- The arguments of a call whose sizes do not wrap: `bytes` is positive, and
neither the sum inside `AlignUp` nor, for a size that a fragment can have,
`bytes + AlignUp(align, minAlign)` wraps. -/
structure NoWrap (m : VaMgr) (bytes align : Nat) : Prop where
  pos : 0 < bytes
  alignUp : align + m.minAlign - 1 < 2 ^ 64
  total : bytes < 2 ^ 63 → bytes + RocDxg.alignUp 64 align m.minAlign < 2 ^ 64

theorem allocImpl_chooses (P : Partition start size m) {bytes align : Nat}
    (h : NoWrap m bytes align) : ∃ r, m.allocImpl bytes align = some r ∧ Chooses m bytes r := by
  rw [allocImpl]
  apply allocLoop_chooses P
  · split
    next hzero =>
      rw [hzero]
      exact Nat.zero_le _
    next => exact le_alignUp P.minAlign_pos h.alignUp
  · intro hne
    rw [if_neg hne]
    exact h.total
  · rfl

theorem allocImpl_serves (P : Partition start size m) {bytes align : Nat}
    (h : NoWrap m bytes align) : Serves start size m bytes (m.allocImpl bytes align) := by
  obtain ⟨r, hr, hchoice⟩ := allocImpl_chooses P h
  rw [hr]
  exact hchoice.serves P h.pos

/-! ## The fixed-address path -/

/-- A fragment the scan takes is a free entry of the list that holds the range. -/
theorem fixedScan_some {bytes addr base : Nat} {frag : Fragment} {l : List (Nat × Fragment)}
    (h : fixedScan bytes addr l = some (base, frag)) :
    (base, frag) ∈ l ∧ bytes ≤ frag.size ∧ base ≤ addr ∧ frag.isFree = true := by
  induction l with
  | nil => cases h
  | cons e l ih =>
      cases l with
      | nil => cases h
      | cons e' l =>
          rw [fixedScan] at h
          split at h
          next =>
            obtain ⟨hmem, hrest⟩ := ih h
            exact ⟨List.mem_cons_of_mem _ hmem, hrest⟩
          next hno =>
            split at h
            · cases h
            · cases h
              simp only [not_or, Nat.not_lt, Bool.not_eq_false] at hno
              exact ⟨List.mem_cons_self .., by omega, by omega, hno.2.2.2⟩

/-- A fragment that the scan takes reaches beyond the address. -/
theorem lt_of_fixedScan {bytes addr base : Nat} {frag : Fragment} {l : List (Nat × Fragment)}
    (h : fixedScan bytes addr l = some (base, frag)) : addr < u64 (base + frag.size) := by
  induction l with
  | nil => cases h
  | cons e l ih =>
      cases l with
      | nil => cases h
      | cons e' l =>
          rw [fixedScan] at h
          split at h
          next => exact ih h
          next =>
            split at h
            next => cases h
            next hlt =>
              cases h
              exact Nat.lt_of_not_le hlt

/-- `Alloc` takes the fragment around the address, or does what `AllocImpl` does. -/
theorem alloc_fixed_or {bytes align addr p : Nat} (h : m.alloc bytes align addr = some (p, m')) :
    (∃ base frag, m.fixedFragment bytes align addr = some (base, frag) ∧ p = addr ∧
      m' = m.takeFixed bytes addr base frag) ∨
    (m.fixedFragment bytes align addr = none ∧ m.allocImpl bytes align = some (p, m')) := by
  rw [alloc] at h
  rw [fixedFragment]
  split at h
  next hfix =>
    rw [if_pos hfix]
    cases hup : (m.fragMap.upto addr).reverse with
    | nil =>
        rw [hup] at h
        cases h
    | cons e rest =>
        simp only [hup] at h
        cases hscan : fixedScan bytes addr (e :: rest) with
        | none =>
            rw [hscan] at h
            exact Or.inr ⟨rfl, h⟩
        | some r =>
            obtain ⟨base, frag⟩ := r
            simp only [hscan] at h
            split at h
            next => cases h
            next =>
              cases h
              exact Or.inl ⟨base, frag, rfl, rfl, rfl⟩
  next hfix => exact Or.inr ⟨if_neg hfix, h⟩

/-- The fixed-address path, if it takes a fragment, takes it at its base. -/
def TakesAtBase (m : VaMgr) (bytes align addr : Nat) : Prop :=
  ∀ base frag, m.fixedFragment bytes align addr = some (base, frag) → base = addr

/-- Without a hint there is no fixed-address path. -/
theorem takesAtBase_zero (m : VaMgr) (bytes align : Nat) : TakesAtBase m bytes align 0 := nofun

instance (m : VaMgr) (bytes align addr : Nat) : Decidable (TakesAtBase m bytes align addr) :=
  match h : m.fixedFragment bytes align addr with
  | none => isTrue fun _ _ h' => by rw [h] at h'; cases h'
  | some (base, _) =>
      if heq : base = addr then isTrue fun _ _ h' => by rw [h] at h'; cases h'; exact heq
      else isFalse fun hall => heq (hall _ _ h)

/-- `Alloc` serves every call that does not wrap and that takes no fragment from
the inside. -/
theorem alloc_serves (P : Partition start size m) {bytes align addr : Nat}
    (h : NoWrap m bytes align) (hbase : TakesAtBase m bytes align addr)
    (haddr : addr = 0 ∨ start ≤ addr) :
    Serves start size m bytes (m.alloc bytes align addr) := by
  rw [alloc]
  split
  next hfix =>
    have hin : start ≤ addr := by omega
    cases hup : (m.fragMap.upto addr).reverse with
    | nil =>
        obtain ⟨f, hf⟩ := P.arena.tiles.first (Nat.lt_add_of_pos_right P.range.size_pos)
        have hmem : (start, f) ∈ m.fragMap.upto addr :=
          OrdMap.mem_upto.mpr ⟨OrdMap.find?_eq_some.mp hf, hin⟩
        rw [List.reverse_eq_nil_iff.mp hup] at hmem
        cases hmem
    | cons e rest =>
        simp only
        cases hscan : fixedScan bytes addr (e :: rest) with
        | none => exact allocImpl_serves P h
        | some r =>
            obtain ⟨base, frag⟩ := r
            obtain ⟨hmem, hle, _, hfree⟩ := fixedScan_some hscan
            have heq : base = addr := by
              apply hbase base frag
              rw [fixedFragment, if_pos hfix, hup, hscan]
            subst heq
            have hfind : m.fragMap.find? base = some frag := by
              rw [← hup, List.mem_reverse] at hmem
              exact OrdMap.find?_eq_some.mpr (OrdMap.mem_upto.mp hmem).1
            obtain ⟨i, hfrag, hnode⟩ := P.node_of_free hfind hfree
            rw [hfrag]
            simp only [reduceCtorEq, if_false, takeFixed_eq_takeBase]
            exact ⟨_, _, rfl, Or.inr (takeBase_spec P hnode h.pos hle _)⟩
  next => exact allocImpl_serves P h

/-- An `Alloc` that returns.  A hint below the range fails an assertion. -/
theorem alloc_returns (P : Partition start size m) {bytes align addr p : Nat} {m' : VaMgr}
    (hwrap : NoWrap m bytes align) (hbase : TakesAtBase m bytes align addr)
    (h : m.alloc bytes align addr = some (p, m')) :
    (p = 0 ∧ m' = m) ∨ Takes start size m bytes p m' := by
  have hserves : Serves start size m bytes (m.alloc bytes align addr) := by
    by_cases haddr : addr = 0 ∨ start ≤ addr
    · exact alloc_serves P hwrap hbase haddr
    · have hnone : m.fragMap.upto addr = [] := by
        refine List.eq_nil_iff_forall_not_mem.mpr fun e he => ?_
        obtain ⟨hmem, hle⟩ := OrdMap.mem_upto.mp he
        have := (P.arena.tiles.bounds (OrdMap.find?_eq_some.mpr hmem)).1
        omega
      rw [alloc] at h ⊢
      split at h
      next =>
        rw [hnone] at h
        cases h
      next hfix =>
        rw [if_neg hfix]
        exact allocImpl_serves P hwrap
  obtain ⟨q, m'', heq, hcases⟩ := hserves
  rw [h] at heq
  cases heq
  exact hcases

/-! ## Release -/

/-- The state of `Free` while it merges. -/
structure Merging (start size : Nat) (u : Nat → Option Nat) (g : Merge) : Prop where
  limbo : InLimbo start size g.mgr g.key g.frag.size u
  base : g.base = g.key

theorem mergeLower_merging {addr : Nat} {frag : Fragment} {u : Nat → Option Nat}
    (L : InLimbo start size m addr frag.size u) :
    Merging start size u (m.mergeLower addr frag) := by
  rw [mergeLower]
  cases hp : m.fragMap.prev? addr with
  | none => exact ⟨L, rfl⟩
  | some e =>
      obtain ⟨key, lower⟩ := e
      simp only
      split
      next hfree =>
        obtain ⟨f, hf, _⟩ := L.limbo.stored
        obtain ⟨hlower, hlt⟩ := OrdMap.mem_of_prev? hp
        obtain ⟨i, hi, hentry⟩ := Fragment.freeEntry_of_linked
          (L.limbo.ok (Nat.ne_of_lt hlt) hlower) hfree
        have hkey : addr = key + lower.size :=
          L.limbo.tiles.next_eq hlower (OrdMap.next?_of_prev? hf hp)
        have := L.limbo.bounds
        have := L.range.end_lt
        have hsize : Fragment.sizeField (lower.size + frag.size) = lower.size + frag.size :=
          Fragment.sizeField_of_lt (by omega)
        refine ⟨?_, ?_⟩
        · simp only [Fragment.setSize, hsize, hi]
          exact ⟨L.limbo.joinLower (w := ⟨none, lower.size + frag.size, lower.isFree⟩) hp hentry rfl,
            L.range, L.minAlign_pos⟩
        · show sub64 addr lower.size = key
          rw [sub64_of_le (by omega) (by omega)]
          omega
      next => exact ⟨L, rfl⟩

theorem mergeUpper_merging {u : Nat → Option Nat} {g : Merge} (M : Merging start size u g) :
    Merging start size u (mergeUpper g) := by
  rw [mergeUpper]
  cases hn : g.mgr.fragMap.next? g.key with
  | none => exact M
  | some e =>
      obtain ⟨key, upper⟩ := e
      simp only
      split
      next hfree =>
        obtain ⟨f, hf, hlen⟩ := M.limbo.limbo.stored
        obtain ⟨hupper, hlt⟩ := OrdMap.mem_of_next? hn
        obtain ⟨i, hi, hentry⟩ := Fragment.freeEntry_of_linked
          (M.limbo.limbo.ok (Nat.ne_of_gt hlt) hupper) hfree
        have hkey := M.limbo.limbo.tiles.next_eq hf hn
        have hbounds : start ≤ key ∧ 0 < upper.size ∧ key + upper.size ≤ start + size :=
          M.limbo.limbo.tiles.bounds hupper
        have := M.limbo.range.end_lt
        have hsize : Fragment.sizeField (g.frag.size + upper.size) = g.frag.size + upper.size :=
          Fragment.sizeField_of_lt (by omega)
        refine ⟨?_, M.base⟩
        simp only [Fragment.setSize, hsize, hi]
        exact ⟨M.limbo.limbo.joinUpper (w := { g.frag with size := g.frag.size + upper.size }) hn
          hentry rfl, M.limbo.range, M.limbo.minAlign_pos⟩
      next => exact M

theorem publish_spec {u : Nat → Option Nat} {g : Merge} (M : Merging start size u g) :
    Partition start size (publish g) ∧ (publish g).used = u := by
  rw [publish, M.base]
  have hclose := M.limbo.limbo.closeFree (g := g.frag.setFree g.mgr.freeList.next) rfl rfl
  exact ⟨⟨hclose.1, M.limbo.range, M.limbo.minAlign_pos⟩, hclose.2⟩

@[simp] theorem minAlign_removeFreeListEntry (m : VaMgr) (i : Option Nat) :
    (m.removeFreeListEntry i).minAlign = m.minAlign := by
  cases i <;> rfl

theorem minAlign_free (m : VaMgr) (addr : Nat) : (m.free addr).minAlign = m.minAlign := by
  simp only [free, publish, mergeUpper, mergeLower]
  split
  · rfl
  · split
    · rfl
    · split
      · rfl
      · split <;> split <;> (try split) <;> (try split) <;> simp

/-- A release removes the used fragment at its address, if there is one. -/
theorem free_spec (P : Partition start size m) (addr : Nat) :
    Partition start size (m.free addr) ∧ (m.free addr).used = Function.update m.used addr none := by
  have hkeep : m.used addr = none → m.used = Function.update m.used addr none :=
    fun h => (Function.update_eq_self_iff.mpr h.symm).symm
  rw [free]
  split
  next hzero =>
    refine ⟨P, hkeep ?_⟩
    cases hu : m.used addr with
    | none => rfl
    | some n =>
        have := P.used_bounds hu
        have := P.range.start_pos
        omega
  next =>
    cases hf : m.fragMap.find? addr with
    | none => exact ⟨P, hkeep (OrdMap.view_of_none hf)⟩
    | some frag =>
        simp only
        split
        next hfree =>
          refine ⟨P, hkeep ?_⟩
          rw [used, OrdMap.view_of_find? hf, Fragment.usedSize, if_pos hfree]
        next hused =>
          have hlive : m.used addr = some frag.size :=
            used_eq_some.mpr ⟨frag, hf, Bool.eq_false_iff.mpr hused, rfl⟩
          exact publish_spec (mergeUpper_merging (mergeLower_merging (P.openUsed hlive)))

/-! ## Alignment -/

/-- A search that is not given an address finds a multiple of the alignment. -/
theorem allocLoop_aligned {bytes align newAlign p left i alignBytes : Nat}
    (hdvd : align ∣ 2 ^ 64)
    (h : m.allocLoop bytes align newAlign left i alignBytes = some (p, m')) : align ∣ p := by
  induction left generalizing i alignBytes with
  | zero =>
      cases h
      exact Nat.dvd_zero _
  | succ left ih =>
      have hzero : align ≠ 0 := by
        rintro rfl
        exact absurd (Nat.eq_zero_of_zero_dvd hdvd) (by decide)
      rw [allocLoop] at h
      split at h
      next =>
        cases h
        exact Nat.dvd_zero _
      next n _ =>
        split at h
        next => cases h
        next =>
          simp only [if_neg hzero] at h
          split at h
          next => cases h
          next =>
            split at h
            next hdelta =>
              cases h
              exact Nat.dvd_of_mod_eq_zero hdelta
            next =>
              split at h
              next => exact ih h
              next =>
                cases h
                exact dvd_u64_next hdvd n.val

theorem alloc_aligned {bytes align p : Nat} (hdvd : align ∣ 2 ^ 64)
    (h : m.alloc bytes align 0 = some (p, m')) : align ∣ p := by
  rw [alloc, if_neg (by simp)] at h
  exact allocLoop_aligned hdvd h

end VaMgr

end RocDxg
