import RocDxg.Lib.MultiMap
import RocDxg.Lib.TileMap

/-!
# Arenas

An allocator keeps the fragments of an interval in a `TileMap` and the free ones, by
size, in an index.  `Arena` is what holds between two of its operations.  The index may
hold fragments of other intervals too; `W` is what it says about them.

Every operation takes one fragment out of account, reshapes it, and closes it again as
a used or a free one.  `Limbo` is the state in between: the stored value of the
fragment at `k` is not trusted for anything but its size.  The operations of an
allocator are sequences of `openFree`, `openUsed`, `cutBack`, `cutFront`, `joinUpper`,
`joinLower`, `closeUsed` and `closeFree`.

How a fragment counts is a parameter: its size, the key and the iterator it has in the
index when it is free, and its size when it is used.
-/

namespace Lib

variable {φ : Type u}

/-- How fragments count. -/
structure Account (φ : Type u) where
  size : φ → Nat
  entry : φ → Option (Nat × Nat)
  used : φ → Option Nat
  /-- What else holds of every fragment. -/
  ok : φ → Prop
  key_eq : ∀ {f k i}, entry f = some (k, i) → k = size f
  used_of_entry : ∀ {f e}, entry f = some e → used f = none
  size_of_used : ∀ {f n}, used f = some n → size f = n
  entry_of_used : ∀ {f n}, used f = some n → entry f = none

/-- The index says `v` about an interval and `W` about the rest. -/
def beside (W v : Nat → Option β) (a : Nat) : Option β := (v a).or (W a)

theorem beside_update {W v : Nat → Option β} {k : Nat} (hW : W k = none) (x : Option β) :
    beside W (Function.update v k x) = Function.update (beside W v) k x := by
  funext a
  by_cases ha : a = k
  · subst ha
    rw [beside, Function.update_self, Function.update_self, hW, Option.or_none]
  · rw [beside, Function.update_of_ne ha, Function.update_of_ne ha, beside]

variable (A : Account φ)

/-- The fragments tile `[lo, hi)`, and the free ones are indexed. -/
structure Arena (lo hi : Nat) (W : Nat → Option (Nat × Nat)) (fl : MultiMap) (fm : OrdMap φ) :
    Prop where
  tiles : TileMap A.size lo hi fm
  outside : ∀ a, lo ≤ a → a < hi → W a = none
  indexed : Indexes (beside W (fm.view A.entry)) fl
  ok : ∀ {a f}, fm.find? a = some f → A.ok f

/-- The fragment at `k`, of `len` bytes, is out of account; `u` are the used fragments
beside it. -/
structure Limbo (lo hi : Nat) (W : Nat → Option (Nat × Nat)) (fl : MultiMap) (fm : OrdMap φ)
    (k len : Nat) (u : Nat → Option Nat) : Prop where
  tiles : TileMap A.size lo hi fm
  outside : ∀ a, lo ≤ a → a < hi → W a = none
  stored : ∃ f, fm.find? k = some f ∧ A.size f = len
  indexed : Indexes (beside W (Function.update (fm.view A.entry) k none)) fl
  ok : ∀ {a f}, a ≠ k → fm.find? a = some f → A.ok f
  used : Function.update (fm.view A.used) k none = u

variable {A} {lo hi : Nat} {W : Nat → Option (Nat × Nat)} {fl : MultiMap} {fm : OrdMap φ}

namespace Arena

/-- An indexed fragment has its node. -/
theorem node_of_entry (h : Arena A lo hi W fl fm) {a k i : Nat} {f : φ}
    (hf : fm.find? a = some f) (hentry : A.entry f = some (k, i)) : ⟨i, k, a⟩ ∈ fl.nodes := by
  refine (h.indexed a k i).mp ?_
  rw [beside, OrdMap.view_of_find? hf, hentry]
  rfl

/-- Two used fragments have no address in common. -/
theorem used_apart (h : Arena A lo hi W fl fm) {a n b m : Nat} (ha : fm.view A.used a = some n)
    (hb : fm.view A.used b = some m) (hne : a ≠ b) : a + n ≤ b ∨ b + m ≤ a := by
  obtain ⟨f, hf, hn⟩ := OrdMap.view_eq_some.mp ha
  obtain ⟨g, hg, hm⟩ := OrdMap.view_eq_some.mp hb
  have := h.tiles.apart hf hg hne
  rwa [A.size_of_used hn, A.size_of_used hm] at this

/-- A used fragment lies in the interval. -/
theorem used_bounds (h : Arena A lo hi W fl fm) {a n : Nat} (ha : fm.view A.used a = some n) :
    lo ≤ a ∧ 0 < n ∧ a + n ≤ hi := by
  obtain ⟨f, hf, hn⟩ := OrdMap.view_eq_some.mp ha
  have := h.tiles.bounds hf
  rwa [A.size_of_used hn] at this

/-- Erasing the node of a free fragment takes the fragment out of account. -/
theorem openFree (h : Arena A lo hi W fl fm) {k len i : Nat} {f : φ} (hf : fm.find? k = some f)
    (hentry : A.entry f = some (len, i)) :
    Limbo A lo hi W (fl.erase i) fm k len (fm.view A.used) := by
  obtain ⟨hlo, hpos, hhi⟩ := h.tiles.bounds hf
  have hW := h.outside k hlo (by omega)
  refine ⟨h.tiles, h.outside, ⟨f, hf, (A.key_eq hentry).symm⟩, ?_, fun _ => h.ok, ?_⟩
  · rw [beside_update hW]
    apply h.indexed.erase
    rw [beside, OrdMap.view_of_find? hf, hentry]
    rfl
  · have hview : fm.view A.used k = none := by
      rw [OrdMap.view_of_find? hf, A.used_of_entry hentry]
    exact Function.update_eq_self_iff.mpr hview.symm

/-- A used fragment may be taken out of account as it is. -/
theorem openUsed (h : Arena A lo hi W fl fm) {k len : Nat} {f : φ} (hf : fm.find? k = some f)
    (hused : A.used f = some len) :
    Limbo A lo hi W fl fm k len (Function.update (fm.view A.used) k none) := by
  refine ⟨h.tiles, h.outside, ⟨f, hf, A.size_of_used hused⟩, ?_, fun _ => h.ok, rfl⟩
  have hview : fm.view A.entry k = none := by
    rw [OrdMap.view_of_find? hf, A.entry_of_used hused]
  rw [Function.update_eq_self_iff.mpr hview.symm]
  exact h.indexed

end Arena

namespace Limbo

variable {k len : Nat} {u : Nat → Option Nat} {f g : φ}

theorem fresh (L : Limbo A lo hi W fl fm k len u) : u k = none := by
  rw [← L.used]
  exact Function.update_self ..

theorem bounds (L : Limbo A lo hi W fl fm k len u) : lo ≤ k ∧ 0 < len ∧ k + len ≤ hi := by
  obtain ⟨f, hf, rfl⟩ := L.stored
  exact L.tiles.bounds hf

theorem outside_of_le (L : Limbo A lo hi W fl fm k len u) {n : Nat} (hn : n < len) :
    W (k + n) = none := by
  have := L.bounds
  exact L.outside _ (by omega) (by omega)

theorem outside_self (L : Limbo A lo hi W fl fm k len u) : W k = none :=
  L.outside_of_le (n := 0) L.bounds.2.1

theorem ok_insert (L : Limbo A lo hi W fl fm k len u) {b : Nat} (hg : b ≠ k → A.ok g) {a : Nat}
    (ha : a ≠ k) (hf : (fm.insert b g).find? a = some f) : A.ok f := by
  rw [OrdMap.find?_insert] at hf
  split at hf
  next heq =>
    cases hf
    exact hg (heq ▸ ha)
  next => exact L.ok ha hf

/-- The fragment is closed, as a used or as a free one. -/
theorem ok_close (L : Limbo A lo hi W fl fm k len u) (hg : A.ok g) {a : Nat}
    (hf : (fm.insert k g).find? a = some f) : A.ok f := by
  by_cases ha : a = k
  · rw [ha, OrdMap.find?_insert, if_pos rfl] at hf
    cases hf
    exact hg
  · exact L.ok_insert (fun h => absurd rfl h) ha hf

/-- Close the fragment as a used one. -/
theorem closeUsed (L : Limbo A lo hi W fl fm k len u) (hused : A.used g = some len)
    (hok : A.ok g) :
    Arena A lo hi W fl (fm.insert k g) ∧
      (fm.insert k g).view A.used = Function.update u k (some len) := by
  obtain ⟨f, hf, hlen⟩ := L.stored
  refine ⟨⟨?_, L.outside, ?_, L.ok_close hok⟩, ?_⟩
  · exact L.tiles.set hf (by rw [A.size_of_used hused, hlen])
  · rw [OrdMap.view_insert, A.entry_of_used hused]
    exact L.indexed
  · rw [OrdMap.view_insert, hused, ← L.used, Function.update_idem]

/-- Close the fragment as a free one and index it. -/
theorem closeFree (L : Limbo A lo hi W fl fm k len u) (hentry : A.entry g = some (len, fl.next))
    (hok : A.ok g) :
    Arena A lo hi W (fl.insert len k) (fm.insert k g) ∧ (fm.insert k g).view A.used = u := by
  obtain ⟨f, hf, hlen⟩ := L.stored
  have hindexed := L.indexed
  rw [beside_update L.outside_self] at hindexed
  refine ⟨⟨?_, L.outside, ?_, L.ok_close hok⟩, ?_⟩
  · exact L.tiles.set hf (by rw [← A.key_eq hentry, hlen])
  · have := hindexed.insert len (Function.update_self ..)
    rw [Function.update_idem] at this
    rw [OrdMap.view_insert, hentry, beside_update L.outside_self]
    exact this
  · rw [OrdMap.view_insert, A.used_of_entry hentry]
    exact L.used

/-- Give the back of the fragment, from `n` bytes on, to the index. -/
theorem cutBack (L : Limbo A lo hi W fl fm k len u) {n : Nat} (hn : 0 < n) (hlt : n < len)
    (hg : A.size g = n) (hentry : A.entry f = some (len - n, fl.next)) (hok : A.ok f) :
    Limbo A lo hi W (fl.insert (len - n) (k + n)) ((fm.insert k g).insert (k + n) f) k n u := by
  obtain ⟨f₀, hf, hlen⟩ := L.stored
  have hsize := A.key_eq hentry
  have hvacant : fm.find? (k + n) = none := L.tiles.vacant hf (by omega) (by omega)
  have hne : k + n ≠ k := by omega
  have hW := L.outside_of_le hlt
  refine ⟨?_, L.outside, ⟨g, ?_, hg⟩, ?_, ?_, ?_⟩
  · have := TileMap.cut g f L.tiles hf (by omega) (by omega) (by omega)
    rwa [hg] at this
  · rw [OrdMap.find?_insert, if_neg hne.symm, OrdMap.find?_insert, if_pos rfl]
  · rw [OrdMap.view_insert, OrdMap.view_insert, Function.update_comm hne, Function.update_idem,
      hentry, beside_update hW]
    apply L.indexed.insert
    rw [beside, Function.update_of_ne hne, OrdMap.view_of_none hvacant, hW]
    rfl
  · intro a h ha hh
    rw [OrdMap.find?_insert] at hh
    split at hh
    · cases hh
      exact hok
    · exact L.ok_insert (fun h => absurd rfl h) ha hh
  · rw [OrdMap.view_insert, OrdMap.view_insert, Function.update_comm hne, Function.update_idem,
      A.used_of_entry hentry, L.used, Function.update_eq_self_iff, ← L.used,
      Function.update_of_ne hne]
    exact (OrdMap.view_of_none hvacant).symm

/-- Give the first `n` bytes of the fragment to the index. -/
theorem cutFront (L : Limbo A lo hi W fl fm k len u) {n : Nat} (hn : 0 < n) (hlt : n < len)
    (hg : A.size g = len - n) (hentry : A.entry f = some (n, fl.next)) (hok : A.ok f) :
    Limbo A lo hi W (fl.insert n k) ((fm.insert (k + n) g).insert k f) (k + n) (len - n) u := by
  obtain ⟨f₀, hf, hlen⟩ := L.stored
  have hsize := A.key_eq hentry
  have hvacant : fm.find? (k + n) = none := L.tiles.vacant hf (by omega) (by omega)
  have hne : k + n ≠ k := by omega
  have hW := L.outside_self
  refine ⟨?_, L.outside, ⟨g, ?_, hg⟩, ?_, ?_, ?_⟩
  · have := TileMap.cut f g L.tiles hf (by omega) (by omega) (by omega)
    rw [← hsize, OrdMap.insert_comm _ _ _ hne.symm] at this
    exact this
  · rw [OrdMap.find?_insert, if_neg hne, OrdMap.find?_insert, if_pos rfl]
  · have hsame : Function.update (fm.view A.entry) (k + n) none = fm.view A.entry :=
      Function.update_eq_self_iff.mpr (OrdMap.view_of_none hvacant).symm
    have hidx := L.indexed
    rw [beside_update hW] at hidx
    replace hidx := hidx.insert n (Function.update_self ..)
    rw [Function.update_idem, ← beside_update hW] at hidx
    rw [OrdMap.view_insert, OrdMap.view_insert, Function.update_comm hne.symm, Function.update_idem,
      hentry, hsame]
    exact hidx
  · intro a h ha hh
    rw [OrdMap.find?_insert] at hh
    split at hh
    next =>
      cases hh
      exact hok
    next hk =>
      rw [OrdMap.find?_insert, if_neg ha] at hh
      exact L.ok hk hh
  · rw [OrdMap.view_insert, OrdMap.view_insert, Function.update_comm hne.symm, Function.update_idem,
      A.used_of_entry hentry, Function.update_comm hne, L.used, Function.update_eq_self_iff,
      ← L.used, Function.update_of_ne hne]
    exact (OrdMap.view_of_none hvacant).symm

/-- Take the free fragment above into the one out of account. -/
theorem joinUpper (L : Limbo A lo hi W fl fm k len u) {k' n i : Nat} {w : φ}
    (hnext : fm.next? k = some (k', f)) (hentry : A.entry f = some (n, i))
    (hw : A.size w = len + n) :
    Limbo A lo hi W (fl.erase i) ((fm.erase k').insert k w) k (len + n) u := by
  obtain ⟨f₀, hf, hlen⟩ := L.stored
  obtain ⟨hf', hlt⟩ := OrdMap.mem_of_next? hnext
  have hne : k' ≠ k := Nat.ne_of_gt hlt
  have hsize := A.key_eq hentry
  have hbounds := L.tiles.bounds hf'
  have hW : W k' = none := L.outside k' hbounds.1 (by omega)
  refine ⟨?_, L.outside, ⟨w, ?_, hw⟩, ?_, ?_, ?_⟩
  · exact L.tiles.join hf hnext (by rw [hw, hlen, hsize])
  · rw [OrdMap.find?_insert, if_pos rfl]
  · rw [OrdMap.view_insert, OrdMap.view_erase, Function.update_idem, Function.update_comm hne,
      beside_update hW]
    apply L.indexed.erase
    rw [beside, Function.update_of_ne hne, OrdMap.view_of_find? hf', hentry]
    rfl
  · intro a h ha hh
    rw [OrdMap.find?_insert, if_neg ha, OrdMap.find?_erase] at hh
    split at hh
    · cases hh
    · exact L.ok ha hh
  · rw [OrdMap.view_insert, OrdMap.view_erase, Function.update_idem, Function.update_comm hne, L.used,
      Function.update_eq_self_iff, ← L.used, Function.update_of_ne hne, OrdMap.view_of_find? hf',
      A.used_of_entry hentry]

/-- Take the free fragment below into the one out of account. -/
theorem joinLower (L : Limbo A lo hi W fl fm k len u) {k' n i : Nat} {w : φ}
    (hprev : fm.prev? k = some (k', f)) (hentry : A.entry f = some (n, i))
    (hw : A.size w = n + len) :
    Limbo A lo hi W (fl.erase i) ((fm.erase k).insert k' w) k' (n + len) u := by
  obtain ⟨f₀, hf, hlen⟩ := L.stored
  obtain ⟨hf', hlt⟩ := OrdMap.mem_of_prev? hprev
  have hnext := OrdMap.next?_of_prev? hf hprev
  have hne : k' ≠ k := Nat.ne_of_lt hlt
  have hsize := A.key_eq hentry
  have hbounds := L.tiles.bounds hf'
  have hW : W k' = none := L.outside k' hbounds.1 (by omega)
  refine ⟨?_, L.outside, ⟨w, ?_, hw⟩, ?_, ?_, ?_⟩
  · exact L.tiles.join hf' hnext (by rw [hw, hlen, hsize])
  · rw [OrdMap.find?_insert, if_pos rfl]
  · rw [OrdMap.view_insert, OrdMap.view_erase, Function.update_idem, beside_update hW]
    apply L.indexed.erase
    rw [beside, Function.update_of_ne hne, OrdMap.view_of_find? hf', hentry]
    rfl
  · intro a h ha hh
    rw [OrdMap.find?_insert, if_neg ha, OrdMap.find?_erase] at hh
    split at hh
    next => cases hh
    next hk => exact L.ok hk hh
  · rw [OrdMap.view_insert, OrdMap.view_erase, Function.update_idem, L.used,
      Function.update_eq_self_iff, ← L.used, Function.update_of_ne hne, OrdMap.view_of_find? hf',
      A.used_of_entry hentry]

end Limbo

end Lib
