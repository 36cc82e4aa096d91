import RocDxg.Lib.Chain
import RocDxg.Lib.OrdMap

/-!
# Maps whose values tile an interval

An ordered map from addresses whose value at `k` stands for the interval of
`size v` addresses from `k`.  `TileMap` says that these intervals tile `[lo, hi)`.
An allocator keeps such a map by three moves: it changes a value without changing
its size (`set`), it cuts an interval in two (`cut`), and it joins an interval
with the next one (`join`).
-/

namespace Lib

variable {α : Type u}

/-- The intervals of the map tile `[lo, hi)`. -/
def TileMap (size : α → Nat) (lo hi : Nat) (m : OrdMap α) : Prop :=
  Tiles Prod.fst (fun e => size e.2) lo m.entries hi

/-- The length of all intervals of the map together. -/
def total (size : α → Nat) (m : OrdMap α) : Nat := (m.entries.map fun e => size e.2).sum

namespace TileMap

variable {size : α → Nat} {lo hi : Nat} {m : OrdMap α} {k k' : Nat} {v v' : α}

theorem singleton (lo : Nat) {v : α} (hv : 0 < size v) :
    TileMap size lo (lo + size v) (OrdMap.empty.insert lo v) :=
  Tiles.cons.mpr ⟨rfl, hv, Tiles.nil.mpr rfl⟩

theorem hi_eq (h : TileMap size lo hi m) : hi = lo + total size m := Tiles.hi_eq h

theorem bounds (h : TileMap size lo hi m) (hk : m.find? k = some v) :
    lo ≤ k ∧ 0 < size v ∧ k + size v ≤ hi :=
  Tiles.bounds h (OrdMap.find?_eq_some.mp hk)

/-- Every point of the range lies in an interval. -/
theorem cover (h : TileMap size lo hi m) {a : Nat} (hlo : lo ≤ a) (hhi : a < hi) :
    ∃ k v, m.find? k = some v ∧ k ≤ a ∧ a < k + size v := by
  obtain ⟨e, he, hbounds⟩ := Tiles.cover h hlo hhi
  exact ⟨e.1, e.2, OrdMap.find?_eq_some.mpr he, hbounds⟩

theorem apart (h : TileMap size lo hi m) (hk : m.find? k = some v) (hk' : m.find? k' = some v')
    (hne : k ≠ k') : k + size v ≤ k' ∨ k' + size v' ≤ k :=
  Tiles.apart h (OrdMap.find?_eq_some.mp hk) (OrdMap.find?_eq_some.mp hk') hne

/-- An interval that is alone is the whole. -/
theorem alone (h : TileMap size lo hi m) (hk : m.find? k = some v) (hone : m.entries.length = 1) :
    k = lo ∧ k + size v = hi := by
  obtain ⟨e, he⟩ := List.length_eq_one_iff.mp hone
  have hmem := OrdMap.find?_eq_some.mp hk
  rw [he, List.mem_singleton] at hmem
  rw [TileMap, he, ← hmem] at h
  obtain ⟨hbase, _, hend⟩ := Tiles.cons.mp h
  have hbase : k = lo := hbase
  rw [hbase]
  exact ⟨rfl, Tiles.nil.mp hend⟩

/-- An interval starts at the lower end. -/
theorem first (h : TileMap size lo hi m) (hlt : lo < hi) : ∃ v, m.find? lo = some v := by
  rw [TileMap] at h
  cases hl : m.entries with
  | nil =>
      rw [hl] at h
      exact absurd h (Nat.ne_of_lt hlt)
  | cons e l =>
      rw [hl] at h
      have hbase : e.1 = lo := (Tiles.cons.mp h).1
      refine ⟨e.2, OrdMap.find?_eq_some.mpr ?_⟩
      rw [hl, ← hbase]
      exact List.mem_cons_self ..

/-- No interval starts strictly inside another. -/
theorem vacant (h : TileMap size lo hi m) (hk : m.find? k = some v) (hlt : k < k')
    (hlt' : k' < k + size v) : m.find? k' = none := by
  cases hf : m.find? k' with
  | none => rfl
  | some v' =>
      have := (h.bounds hf).2.1
      cases h.apart hk hf (Nat.ne_of_lt hlt) with
      | inl hle => omega
      | inr hle => omega

/-- A value may change as long as its size does not. -/
theorem set (h : TileMap size lo hi m) (hk : m.find? k = some v) (hs : size v' = size v) :
    TileMap size lo hi (m.insert k v') := by
  have hcut := OrdMap.entries_of_find? hk
  rw [TileMap, hcut] at h
  rw [TileMap, OrdMap.insert_of_entry v' hcut]
  obtain ⟨hl, hpos, hr⟩ := Tiles.split.mp h
  refine Tiles.split.mpr ⟨hl, ?_, ?_⟩
  · show 0 < size v'
    rw [hs]
    exact hpos
  · show Tiles _ _ (k + size v') _ _
    rw [hs]
    exact hr

/-- An interval may be cut in two. -/
theorem cut (v₁ v₂ : α) (h : TileMap size lo hi m) (hk : m.find? k = some v) (h₁ : 0 < size v₁)
    (h₂ : 0 < size v₂) (hs : size v₁ + size v₂ = size v) :
    TileMap size lo hi ((m.insert k v₁).insert (k + size v₁) v₂) := by
  have hcut := OrdMap.entries_of_find? hk
  have hafter : ∀ e ∈ m.above k, k + size v₁ < e.1 := by
    intro e he
    obtain ⟨hmem, hlt⟩ := OrdMap.mem_above.mp he
    cases h.apart hk (OrdMap.find?_eq_some.mpr hmem) (Nat.ne_of_lt hlt) with
    | inl hle => omega
    | inr hle => omega
  have hbefore : ∀ e ∈ m.below k ++ [(k, v₁)], e.1 < k + size v₁ := by
    intro e he
    cases List.mem_append.mp he with
    | inl hmem =>
        have := (OrdMap.mem_below.mp hmem).2
        omega
    | inr hmem =>
        rw [List.mem_singleton.mp hmem]
        exact Nat.lt_add_of_pos_right h₁
  have hins : (m.insert k v₁).entries = (m.below k ++ [(k, v₁)]) ++ m.above k := by
    rw [OrdMap.insert_of_entry v₁ hcut, List.append_assoc]
    rfl
  rw [TileMap, OrdMap.insert_of_cut v₂ hins hbefore hafter, List.append_assoc]
  rw [TileMap, hcut] at h
  obtain ⟨hl, _, hr⟩ := Tiles.split.mp h
  refine Tiles.split.mpr ⟨hl, h₁, Tiles.cons.mpr ⟨rfl, h₂, ?_⟩⟩
  show Tiles _ _ (k + size v₁ + size v₂) _ _
  rw [Nat.add_assoc, hs]
  exact hr

/-- The next interval starts where the one before ends. -/
theorem next_eq (h : TileMap size lo hi m) (hk : m.find? k = some v)
    (hn : m.next? k = some (k', v')) : k' = k + size v := by
  obtain ⟨post, hcut⟩ := OrdMap.entries_of_next? hk hn
  rw [TileMap, hcut] at h
  exact (Tiles.adjacent h).symm

/-- An interval may be joined with the next one. -/
theorem join {w : α} (h : TileMap size lo hi m) (hk : m.find? k = some v)
    (hn : m.next? k = some (k', v')) (hw : size w = size v + size v') :
    TileMap size lo hi ((m.erase k').insert k w) := by
  obtain ⟨post, hcut⟩ := OrdMap.entries_of_next? hk hn
  have hcut' : m.entries = (m.below k ++ [(k, v)]) ++ (k', v') :: post := by
    rw [hcut, List.append_assoc]
    rfl
  have hmid : (m.erase k').entries = m.below k ++ (k, v) :: post := by
    rw [OrdMap.erase_of_entry hcut', List.append_assoc]
    rfl
  rw [TileMap, OrdMap.insert_of_entry w hmid]
  rw [TileMap, hcut] at h
  exact Tiles.merge h rfl hw

/-- The first interval starts at the lower end, and the last one ends at the upper end. -/
theorem ends (h : TileMap size lo hi m) (hlt : lo < hi) :
    (∃ v, m.entries.head? = some (lo, v)) ∧
      ∃ e, m.entries.getLast? = some e ∧ e.1 + size e.2 = hi := by
  refine ⟨?_, ?_⟩
  · rw [TileMap] at h
    cases hl : m.entries with
    | nil =>
        rw [hl] at h
        exact absurd h (Nat.ne_of_lt hlt)
    | cons e l =>
        rw [hl] at h
        have hbase : e.1 = lo := (Tiles.cons.mp h).1
        exact ⟨e.2, by rw [List.head?_cons, ← hbase]⟩
  · rw [TileMap] at h
    cases hl : m.entries.getLast? with
    | none =>
        rw [List.getLast?_eq_none_iff.mp hl] at h
        exact absurd h (Nat.ne_of_lt hlt)
    | some e =>
        refine ⟨e, rfl, ?_⟩
        rw [← List.dropLast_append_getLast? e hl] at h
        exact Tiles.nil.mp (Tiles.split.mp h).2.2

/-- Change of values that keeps the sizes. -/
theorem mapVal {g : α → α} (h : TileMap size lo hi m) (hg : ∀ v, size (g v) = size v) :
    TileMap size lo hi (m.mapVal g) ∧ total size (m.mapVal g) = total size m := by
  have hsize : (fun e : Nat × α => size (g e.2)) = fun e => size e.2 := by
    funext e
    exact hg e.2
  refine ⟨?_, ?_⟩
  · refine Tiles.map.mpr ?_
    show Tiles Prod.fst (fun e : Nat × α => size (g e.2)) lo m.entries hi
    rw [hsize]
    exact h
  · rw [total, total, OrdMap.mapVal, List.map_map]
    exact congrArg (fun f => (m.entries.map f).sum) hsize

end TileMap

end Lib
