import RocDxg.Lib.OrdMap

/-!
# Ranges and the nearest start

A map from numbers to numbers stands for a set of ranges, each under its start and with its
length.  The ranges may overlap.

To find a range that covers a number, a search can look at the range with the greatest start up
to that number, and at no other.  It finds one whenever there is one exactly if the ranges are
`Stacked`: where a range ends before one that starts below it, a third one starts inside it or
at its end (`stacked_iff`).  A range that lies apart from all others can come and go.
-/

namespace Lib

open OrdMap (find?_eq_some find?_insert find?_erase mem_upto floor?_mem floor?_of_gap)

/-- The range at `k` is one of the ranges, and the number lies in it. -/
def Covers (m : OrdMap Nat) (k n p : Nat) : Prop := m.find? k = some n ∧ k ≤ p ∧ p < k + n

/-- Where a range ends before one that starts below it, a third one starts inside it or at its
end. -/
def Stacked (m : OrdMap Nat) : Prop :=
  ∀ x ∈ m.entries, ∀ y ∈ m.entries, x.1 < y.1 → y.1 + y.2 < x.1 + x.2 →
    ∃ z ∈ m.entries, y.1 < z.1 ∧ z.1 ≤ y.1 + y.2

instance (m : OrdMap Nat) : Decidable (Stacked m) :=
  inferInstanceAs (Decidable (∀ x ∈ m.entries, ∀ y ∈ m.entries, x.1 < y.1 →
    y.1 + y.2 < x.1 + x.2 → ∃ z ∈ m.entries, y.1 < z.1 ∧ z.1 ≤ y.1 + y.2))

variable {m : OrdMap Nat} {a k l n p : Nat}

/-- The entry with the greatest key up to a number. -/
theorem floor?_eq_some {α : Type u} {m : OrdMap α} {v : α} :
    m.floor? p = some (k, v) ↔
      m.find? k = some v ∧ k ≤ p ∧ ∀ j w, m.find? j = some w → j ≤ p → j ≤ k := by
  constructor
  · intro h
    obtain ⟨hmem, hle⟩ := floor?_mem h
    refine ⟨find?_eq_some.mpr hmem, hle, ?_⟩
    intro j w hj hjp
    -- the keys up to the number are in order, and the floor is the last of them
    obtain ⟨pre, hpre⟩ := List.getLast?_eq_some_iff.mp h
    have hmemj : (j, w) ∈ m.upto p := mem_upto.mpr ⟨find?_eq_some.mp hj, hjp⟩
    have hsorted : (m.upto p).Pairwise fun x y => x.1 < y.1 :=
      m.sorted.sublist List.filter_sublist
    rw [hpre] at hmemj hsorted
    rcases List.mem_append.mp hmemj with hmemj | hmemj
    · exact Nat.le_of_lt ((List.pairwise_append.mp hsorted).2.2 _ hmemj _ List.mem_cons_self)
    · exact Nat.le_of_eq (congrArg Prod.fst (List.mem_singleton.mp hmemj))
  · rintro ⟨hfind, hle, hgreatest⟩
    refine floor?_of_gap hfind hle ?_
    intro e he hlt
    by_contra hge
    have hback := hgreatest e.1 e.2 (find?_eq_some.mpr he) (Nat.le_of_not_lt hge)
    exact absurd hlt (Nat.not_lt.mpr hback)

theorem floor?_mapVal {α : Type u} {g : α → Nat} {m : OrdMap α} :
    (m.mapVal g).floor? p = some (k, n) ↔ ∃ v, m.floor? p = some (k, v) ∧ g v = n := by
  simp only [floor?_eq_some, OrdMap.find?_mapVal, Option.map_eq_some_iff]
  constructor
  · rintro ⟨⟨v, hv, hn⟩, hle, hgreatest⟩
    exact ⟨v, ⟨hv, hle, fun j w hj => hgreatest j (g w) ⟨w, hj, rfl⟩⟩, hn⟩
  · rintro ⟨v, ⟨hv, hle, hgreatest⟩, hn⟩
    refine ⟨⟨v, hv, hn⟩, hle, ?_⟩
    rintro j _ ⟨w, hj, rfl⟩
    exact hgreatest j w hj

/-- Below the start of a range there is a nearest one. -/
theorem exists_floor {α : Type u} {m : OrdMap α} {v : α} (h : m.find? k = some v) (hle : k ≤ p) :
    ∃ j w, m.floor? p = some (j, w) ∧ k ≤ j := by
  have hne : m.upto p ≠ [] := List.ne_nil_of_mem (mem_upto.mpr ⟨find?_eq_some.mp h, hle⟩)
  obtain ⟨e, he⟩ := Option.isSome_iff_exists.mp (List.getLast?_isSome.mpr hne)
  exact ⟨e.1, e.2, he, (floor?_eq_some.mp he).2.2 k v h hle⟩

/-- The nearest range covers what any range covers, exactly if the ranges are stacked. -/
theorem stacked_iff : Stacked m ↔
    ∀ k n p, Covers m k n p → ∃ j l, m.floor? p = some (j, l) ∧ p < j + l := by
  constructor
  · rintro hstacked k n p ⟨hfind, hle, hlt⟩
    obtain ⟨j, l, hfloor, hkj⟩ := exists_floor hfind hle
    obtain ⟨hj, hjp, hgreatest⟩ := floor?_eq_some.mp hfloor
    refine ⟨j, l, hfloor, ?_⟩
    by_contra hbehind
    rcases Nat.eq_or_lt_of_le hkj with rfl | hkj
    · rw [hj] at hfind
      cases hfind
      exact hbehind hlt
    · obtain ⟨z, hz, hjz, hzl⟩ := hstacked (k, n) (find?_eq_some.mp hfind) (j, l)
        (find?_eq_some.mp hj) hkj (by show j + l < k + n; omega)
      have hback := hgreatest z.1 z.2 (find?_eq_some.mpr hz) (by show z.1 ≤ p; omega)
      exact absurd hjz (Nat.not_lt.mpr hback)
  · intro hcovers x hx y hy hxy hend
    obtain ⟨j, l, hfloor, hlt⟩ := hcovers x.1 x.2 (y.1 + y.2)
      ⟨find?_eq_some.mpr hx, by omega, hend⟩
    obtain ⟨hj, hle, hgreatest⟩ := floor?_eq_some.mp hfloor
    have hyj := hgreatest y.1 y.2 (find?_eq_some.mpr hy) (Nat.le_add_right ..)
    refine ⟨(j, l), find?_eq_some.mp hj, ?_, hle⟩
    refine Nat.lt_of_le_of_ne hyj ?_
    rintro rfl
    rw [find?_eq_some.mpr hy] at hj
    cases hj
    exact Nat.lt_irrefl _ hlt

/-- A range lies apart from all others. -/
def Apart (m : OrdMap Nat) (a n : Nat) : Prop :=
  ∀ k l, m.find? k = some l → k ≠ a → k + l ≤ a ∨ a + n ≤ k

theorem Stacked.insert (h : Stacked m) (hapart : Apart m a n) : Stacked (m.insert a n) := by
  have hold : ∀ {e}, e ∈ (m.insert a n).entries →
      e = (a, n) ∨ e.1 ≠ a ∧ e ∈ m.entries := by
    intro e he
    rcases OrdMap.mem_insert.mp he with heq | ⟨hmem, hne⟩
    · exact .inl heq
    · exact .inr ⟨hne, hmem⟩
  intro x hx y hy hxy hend
  rcases hold hx with rfl | ⟨hxa, hx⟩
  · -- the new range is the lower one, and the other starts inside it
    rcases hold hy with rfl | ⟨hya, hy⟩
    · exact absurd hxy (Nat.lt_irrefl _)
    · rcases hapart y.1 y.2 (find?_eq_some.mpr hy) hya with hbefore | hbehind
      · omega
      · simp only at hxy hend
        omega
  · rcases hold hy with rfl | ⟨hya, hy⟩
    · rcases hapart x.1 x.2 (find?_eq_some.mpr hx) hxa with hbefore | hbehind
      · simp only at hxy hend
        omega
      · simp only at hxy
        omega
    · obtain ⟨z, hz, hyz, hzy⟩ := h x hx y hy hxy hend
      by_cases hza : z.1 = a
      · exact ⟨(a, n), OrdMap.mem_insert.mpr (.inl rfl), hza ▸ hyz, hza ▸ hzy⟩
      · exact ⟨z, OrdMap.mem_insert.mpr (.inr ⟨hz, hza⟩), hyz, hzy⟩

theorem Stacked.erase (h : Stacked m) (hapart : Apart m a n) : Stacked (m.erase a) := by
  intro x hx y hy hxy hend
  obtain ⟨hx, hxa⟩ := OrdMap.mem_erase.mp hx
  obtain ⟨hy, hya⟩ := OrdMap.mem_erase.mp hy
  obtain ⟨z, hz, hyz, hzy⟩ := h x hx y hy hxy hend
  refine ⟨z, OrdMap.mem_erase.mpr ⟨hz, ?_⟩, hyz, hzy⟩
  -- the range that is gone lies apart from the one around the start of it
  intro hza
  rcases hapart x.1 x.2 (find?_eq_some.mpr hx) hxa with hbefore | hbehind
  · omega
  · omega

end Lib
