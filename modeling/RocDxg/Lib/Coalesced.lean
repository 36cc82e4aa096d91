import RocDxg.Lib.TileMap

/-!
# Coalesced maps

A map of tiles is coalesced when no free tile is followed by a free one.  An allocator
keeps its map so by merging a tile with its free neighbours before it marks the tile
free.

`Parted` is what holds while the tile at `k` is out of account: the other tiles are
coalesced.  `LowerUsed` and `UpperUsed` say that the tile has no free neighbour on one
side.  The moves follow those of `Limbo`: taking a free tile out gives both sides,
cutting a piece off the tile uses one of them up, and joining a free neighbour gives
one back.
-/

namespace Lib

variable {α : Type u} (size : α → Nat) (free : α → Bool)

/-- No free tile is followed by a free one. -/
def Coalesced (m : OrdMap α) : Prop :=
  ∀ ⦃a f g⦄, m.find? a = some f → free f = true → m.find? (a + size f) = some g → free g = false

/-- The tiles other than the one at `k` are coalesced. -/
def Parted (m : OrdMap α) (k : Nat) : Prop :=
  ∀ ⦃a f g⦄, a ≠ k → a + size f ≠ k → m.find? a = some f → free f = true →
    m.find? (a + size f) = some g → free g = false

/-- The tile that ends at `k` is not free. -/
def LowerUsed (m : OrdMap α) (k : Nat) : Prop :=
  ∀ ⦃a f⦄, m.find? a = some f → a + size f = k → free f = false

/-- The tile that starts at `e` is not free. -/
def UpperUsed (m : OrdMap α) (e : Nat) : Prop := ∀ ⦃g⦄, m.find? e = some g → free g = false

variable {size free} {lo hi k : Nat} {m : OrdMap α} {f g w : α}

namespace Coalesced

/-- A map with one tile is coalesced. -/
theorem singleton (k : Nat) (hpos : 0 < size f) :
    Coalesced size free (OrdMap.empty.insert k f) := by
  intro a f₁ g₁ hf _ hg
  simp only [OrdMap.find?_insert, OrdMap.find?_empty] at hf hg
  split at hf
  next hak =>
    cases hf
    rw [if_neg (by omega)] at hg
    cases hg
  next => cases hf

theorem parted (h : Coalesced size free m) (k : Nat) : Parted size free m k :=
  fun _ _ _ _ _ hf hfree hg => h hf hfree hg

/-- A free tile has no free neighbour. -/
theorem of_free (h : Coalesced size free m) (hk : m.find? k = some f) (hfree : free f = true) :
    LowerUsed size free m k ∧ UpperUsed free m (k + size f) := by
  refine ⟨?_, fun g hg => h hk hfree hg⟩
  intro a g hg hend
  cases hf : free g with
  | false => rfl
  | true =>
      have := h hg hf (hend ▸ hk)
      rw [hfree] at this
      cases this

/-- Neighbours of a coalesced map are not both free. -/
theorem next (h : Coalesced size free m) (ht : TileMap size lo hi m) {k' : Nat}
    (hk : m.find? k = some f) (hn : m.next? k = some (k', g)) :
    ¬ (free f = true ∧ free g = true) := by
  rintro ⟨hf, hg⟩
  have hnext := (OrdMap.mem_of_next? hn).1
  rw [ht.next_eq hk hn] at hnext
  rw [h hk hf hnext] at hg
  cases hg

/-- A coalesced map all of whose tiles are free has one tile. -/
theorem alone (h : Coalesced size free m) (ht : TileMap size lo hi m) (hlt : lo < hi)
    (hall : ∀ a f, m.find? a = some f → free f = true) :
    ∃ f, m.entries = [(lo, f)] ∧ free f = true ∧ lo + size f = hi := by
  obtain ⟨f, hf⟩ := ht.first hlt
  have hcut := OrdMap.entries_of_find? hf
  have hbelow : m.below lo = [] := by
    refine List.eq_nil_iff_forall_not_mem.mpr fun e he => ?_
    obtain ⟨hmem, hbelow⟩ := OrdMap.mem_below.mp he
    have := (ht.bounds (OrdMap.find?_eq_some.mpr hmem)).1
    omega
  have habove : m.above lo = [] := by
    cases hn : m.next? lo with
    | none => exact List.head?_eq_none_iff.mp hn
    | some e =>
        obtain ⟨k', g⟩ := e
        exact absurd ⟨hall lo f hf, hall k' g (OrdMap.mem_of_next? hn).1⟩ (h.next ht hf hn)
  rw [hbelow, habove] at hcut
  refine ⟨f, hcut, hall lo f hf, ?_⟩
  exact (ht.alone hf (by rw [hcut]; rfl)).2

end Coalesced

namespace Parted

/-- Close the tile as one that is not free. -/
theorem closeUsed (h : Parted size free m k) (hg : free g = false) :
    Coalesced size free (m.insert k g) := by
  intro a f₁ g₁ hf hfree hg₁
  rw [OrdMap.find?_insert] at hf hg₁
  split at hf
  next =>
    cases hf
    rw [hg] at hfree
    cases hfree
  next hak =>
    split at hg₁
    next =>
      cases hg₁
      exact hg
    next hend => exact h hak hend hf hfree hg₁

/-- Close the tile as a free one. -/
theorem closeFree (h : Parted size free m k) (hlow : LowerUsed size free m k)
    (hup : UpperUsed free m (k + size g)) (hpos : 0 < size g) :
    Coalesced size free (m.insert k g) := by
  intro a f₁ g₁ hf hfree hg₁
  rw [OrdMap.find?_insert] at hf hg₁
  split at hf
  next hak =>
    cases hf
    subst hak
    rw [if_neg (by omega)] at hg₁
    exact hup hg₁
  next hak =>
    split at hg₁
    next hend =>
      rw [hlow hf hend] at hfree
      cases hfree
    next hend => exact h hak hend hf hfree hg₁

/-- No other tile ends inside the tile at `k`, or at its end. -/
theorem end_ne (ht : TileMap size lo hi m) (hk : m.find? k = some f) {a n : Nat} {f₁ : α}
    (hf : m.find? a = some f₁) (hak : a ≠ k) (hn : 0 < n) (hlt : n ≤ size f) :
    a + size f₁ ≠ k + n := by
  have hpos := (ht.bounds hf).2.1
  cases ht.apart hf hk hak with
  | inl hle => omega
  | inr hle => omega

/-- Give the back of the tile away as a free tile. -/
theorem cutBack (h : Parted size free m k) (ht : TileMap size lo hi m) (hk : m.find? k = some w)
    (hup : UpperUsed free m (k + size w)) {n : Nat} (hn : 0 < n) (hlt : n < size w)
    (hf : size f = size w - n) :
    Parted size free ((m.insert k g).insert (k + n) f) k := by
  intro a f₁ g₁ hak hend hf₁ hfree hg₁
  rw [OrdMap.find?_insert] at hf₁
  split at hf₁
  next ha =>
    cases hf₁
    have hwhole : a + size f = k + size w := by omega
    rw [hwhole, OrdMap.find?_insert, if_neg (by omega), OrdMap.find?_insert, if_neg (by omega)] at hg₁
    exact hup hg₁
  next ha =>
    rw [OrdMap.find?_insert, if_neg hak] at hf₁
    have hne := end_ne ht hk hf₁ hak hn (Nat.le_of_lt hlt)
    rw [OrdMap.find?_insert, if_neg hne, OrdMap.find?_insert, if_neg hend] at hg₁
    exact h hak hend hf₁ hfree hg₁

/-- Give the front of the tile away as a free tile. -/
theorem cutFront (h : Parted size free m k) (hlow : LowerUsed size free m k) {len n : Nat}
    (hup : UpperUsed free m (k + len)) (hn : 0 < n) (hlt : n < len) (hf : size f = n) :
    Parted size free ((m.insert (k + n) g).insert k f) (k + n) ∧
      UpperUsed free ((m.insert (k + n) g).insert k f) (k + len) := by
  refine ⟨?_, ?_⟩
  · intro a f₁ g₁ hak hend hf₁ hfree hg₁
    rw [OrdMap.find?_insert] at hf₁
    split at hf₁
    next ha =>
      cases hf₁
      omega
    next ha =>
      rw [OrdMap.find?_insert, if_neg hak] at hf₁
      rw [OrdMap.find?_insert] at hg₁
      split at hg₁
      next hend' =>
        rw [hlow hf₁ hend'] at hfree
        cases hfree
      next hend' =>
        rw [OrdMap.find?_insert, if_neg hend] at hg₁
        exact h ha hend' hf₁ hfree hg₁
  · intro g₁ hg₁
    rw [OrdMap.find?_insert, if_neg (by omega), OrdMap.find?_insert, if_neg (by omega)] at hg₁
    exact hup hg₁

end Parted

/-- A tile whose lower neighbour is not free, or is missing. -/
theorem LowerUsed.of_prev (ht : TileMap size lo hi m) (hk : m.find? k = some f)
    (hprev : ∀ k' g, m.prev? k = some (k', g) → free g = false) : LowerUsed size free m k := by
  intro a g hg hend
  have hpos := (ht.bounds hg).2.1
  cases hp : m.prev? k with
  | none =>
      have hmem : (a, g) ∈ m.below k :=
        OrdMap.mem_below.mpr ⟨OrdMap.find?_eq_some.mp hg, by show a < k; omega⟩
      rw [List.getLast?_eq_none_iff.mp hp] at hmem
      cases hmem
  | some e =>
      obtain ⟨k', g'⟩ := e
      have hg' := (OrdMap.mem_of_prev? hp).1
      have hmeet := ht.next_eq hg' (OrdMap.next?_of_prev? hk hp)
      have hpos' := (ht.bounds hg').2.1
      have hsame : a = k' := by
        by_contra hne
        cases ht.apart hg hg' hne with
        | inl hle => omega
        | inr hle => omega
      subst hsame
      rw [hg] at hg'
      cases hg'
      exact hprev a g hp

/-- A tile whose upper neighbour is not free, or is missing. -/
theorem UpperUsed.of_next (ht : TileMap size lo hi m) (hk : m.find? k = some f)
    (hnext : ∀ k' g, m.next? k = some (k', g) → free g = false) :
    UpperUsed free m (k + size f) := by
  intro g hg
  have hpos := (ht.bounds hk).2.1
  cases hn : m.next? k with
  | none =>
      have hmem : (k + size f, g) ∈ m.above k :=
        OrdMap.mem_above.mpr ⟨OrdMap.find?_eq_some.mp hg, by show k < k + size f; omega⟩
      rw [List.head?_eq_none_iff.mp hn] at hmem
      cases hmem
  | some e =>
      obtain ⟨k', g'⟩ := e
      have hg' := (OrdMap.mem_of_next? hn).1
      rw [ht.next_eq hk hn, hg] at hg'
      cases hg'
      exact hnext k' g hn

/-- Take the free tile below into the one out of account. -/
theorem Coalesced.joinLower (h : Coalesced size free m) {k' : Nat}
    (hprev : m.prev? k = some (k', g)) (hfree : free g = true) (hw : 0 < size w) :
    Parted size free ((m.erase k).insert k' w) k' ∧
      LowerUsed size free ((m.erase k).insert k' w) k' := by
  have hlow := (h.of_free (OrdMap.mem_of_prev? hprev).1 hfree).1
  refine ⟨?_, ?_⟩
  · intro a f₁ g₁ hak hend hf₁ hfree₁ hg₁
    rw [OrdMap.find?_insert, if_neg hak, OrdMap.find?_erase] at hf₁
    rw [OrdMap.find?_insert, if_neg hend, OrdMap.find?_erase] at hg₁
    split at hf₁
    next => cases hf₁
    next =>
      split at hg₁
      next => cases hg₁
      next => exact h hf₁ hfree₁ hg₁
  · intro a f₁ hf₁ hend
    rw [OrdMap.find?_insert] at hf₁
    split at hf₁
    next =>
      cases hf₁
      omega
    next =>
      rw [OrdMap.find?_erase] at hf₁
      split at hf₁
      next => cases hf₁
      next => exact hlow hf₁ hend

/-- Take the free tile above into the one out of account. -/
theorem Parted.joinUpper (h : Parted size free m k) (ht : TileMap size lo hi m)
    (hlow : LowerUsed size free m k) {k' : Nat} (hk : m.find? k = some f)
    (hnext : m.next? k = some (k', g)) (hfree : free g = true) (hw : size w = size f + size g) :
    Parted size free ((m.erase k').insert k w) k ∧
      LowerUsed size free ((m.erase k').insert k w) k ∧
      UpperUsed free ((m.erase k').insert k w) (k + size w) := by
  obtain ⟨hg, hlt⟩ := OrdMap.mem_of_next? hnext
  have hmeet := ht.next_eq hk hnext
  have hpos := (ht.bounds hg).2.1
  refine ⟨?_, ?_, ?_⟩
  · intro a f₁ g₁ hak hend hf₁ hfree₁ hg₁
    rw [OrdMap.find?_insert, if_neg hak, OrdMap.find?_erase] at hf₁
    rw [OrdMap.find?_insert, if_neg hend, OrdMap.find?_erase] at hg₁
    split at hf₁
    next => cases hf₁
    next =>
      split at hg₁
      next => cases hg₁
      next => exact h hak hend hf₁ hfree₁ hg₁
  · intro a f₁ hf₁ hend
    rw [OrdMap.find?_insert] at hf₁
    split at hf₁
    next =>
      cases hf₁
      omega
    next =>
      rw [OrdMap.find?_erase] at hf₁
      split at hf₁
      next => cases hf₁
      next => exact hlow hf₁ hend
  · intro g₁ hg₁
    have hend : k + size w = k' + size g := by omega
    rw [hend, OrdMap.find?_insert, if_neg (by omega), OrdMap.find?_erase, if_neg (by omega)] at hg₁
    exact h (Nat.ne_of_gt hlt) (by omega) hg hfree hg₁

/-! ## Free points -/

section FreePoints

variable (size free) in
/-- A point of a free tile. -/
def FreePoint (m : OrdMap α) (x : Nat) : Prop :=
  ∃ a f, m.find? a = some f ∧ free f = true ∧ a ≤ x ∧ x < a + size f

variable {m' : OrdMap α} {a x : Nat}

/-- The point before a free tile is not free. -/
theorem Coalesced.not_free_before (h : Coalesced size free m) (ht : TileMap size lo hi m)
    (ha : m.find? a = some f) (hfree : free f = true) (hx : x + 1 = a) :
    ¬ FreePoint size free m x := by
  rintro ⟨k, g, hk, hg, hlo, hhi⟩
  cases ht.apart hk ha (by omega) with
  | inl hle =>
      have hmeet : k + size g = a := by omega
      rw [h hk hg (hmeet ▸ ha)] at hfree
      cases hfree
  | inr hle => omega

/-- The point after a free tile is not free. -/
theorem Coalesced.not_free_after (h : Coalesced size free m) (ht : TileMap size lo hi m)
    (ha : m.find? a = some f) (hfree : free f = true) : ¬ FreePoint size free m (a + size f) := by
  rintro ⟨k, g, hk, hg, hlo, hhi⟩
  have hne : k ≠ a := by
    rintro rfl
    rw [ha] at hk
    cases hk
    omega
  cases ht.apart hk ha hne with
  | inl hle =>
      have := (ht.bounds ha).2.1
      omega
  | inr hle =>
      have hmeet : a + size f = k := by omega
      rw [h ha hfree (hmeet ▸ hk)] at hg
      cases hg

/-- Coalesced maps of one range that have the same free points have the same free tiles. -/
theorem Coalesced.free_tile (h : Coalesced size free m) (h' : Coalesced size free m')
    (ht : TileMap size lo hi m) (ht' : TileMap size lo hi m')
    (hsame : ∀ x, FreePoint size free m x ↔ FreePoint size free m' x)
    (ha : m.find? a = some f) (hfree : free f = true) :
    ∃ f', m'.find? a = some f' ∧ free f' = true ∧ size f' = size f := by
  have hpos := (ht.bounds ha).2.1
  obtain ⟨k, f', hk, hf', hlo, hhi⟩ := (hsame a).mp ⟨a, f, ha, hfree, Nat.le_refl a, by omega⟩
  have hstart : k = a := by
    by_contra hne
    have hx : a - 1 + 1 = a := by omega
    exact h.not_free_before ht ha hfree hx ((hsame _).mpr ⟨k, f', hk, hf', by omega, by omega⟩)
  subst hstart
  refine ⟨f', hk, hf', ?_⟩
  rcases Nat.lt_trichotomy (size f') (size f) with hlt | heq | hgt
  · exact absurd ((hsame _).mp ⟨k, f, ha, hfree, Nat.le_add_right .., by omega⟩)
      (h'.not_free_after ht' hk hf')
  · exact heq
  · exact absurd ((hsame _).mpr ⟨k, f', hk, hf', Nat.le_add_right .., by omega⟩)
      (h.not_free_after ht ha hfree)

end FreePoints

end Lib
