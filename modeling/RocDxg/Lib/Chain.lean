import Mathlib.Algebra.GroupWithZero.Nat
import Mathlib.Data.List.Basic
import Mathlib.Order.Basic

/-!
# Chains and tilings

A chain leads from one point to another through a list of labels, each label
taking one step of a relation.  Chains append, so a chain through
`pre ++ x :: post` opens at `x` and closes again around whatever replaces it.

A tiling is the chain of half-open intervals: each interval starts where the one
before ends, and none is empty.  `Tiles.apart` is what tilings are for: two
different intervals of a tiling have no point in common.
-/

namespace Lib

variable {ι : Type u} {α : Type v}

/-- The labels of a list lead from one point to another by steps of `R`. -/
def Chain (R : ι → α → ι → Prop) : ι → List α → ι → Prop
  | a, [], b => a = b
  | a, x :: l, b => ∃ c, R a x c ∧ Chain R c l b

namespace Chain

variable {R : ι → α → ι → Prop}

@[simp] theorem nil {a b : ι} : Chain R a [] b ↔ a = b := Iff.rfl

@[simp] theorem cons {a b : ι} {x : α} {l : List α} :
    Chain R a (x :: l) b ↔ ∃ c, R a x c ∧ Chain R c l b := Iff.rfl

/-- Chains compose and decompose along the list. -/
theorem append {l₁ l₂ : List α} :
    ∀ {a b : ι}, Chain R a (l₁ ++ l₂) b ↔ ∃ c, Chain R a l₁ c ∧ Chain R c l₂ b := by
  induction l₁ with
  | nil =>
      intro a b
      simp
  | cons x l ih =>
      intro a b
      simp only [List.cons_append, cons, ih]
      constructor
      · rintro ⟨c, hx, d, hl, hr⟩
        exact ⟨d, ⟨c, hx, hl⟩, hr⟩
      · rintro ⟨d, ⟨c, hx, hl⟩, hr⟩
        exact ⟨c, hx, d, hl, hr⟩

theorem mono {S : ι → α → ι → Prop} {l : List α} :
    ∀ {a b : ι}, (∀ a x b, x ∈ l → R a x b → S a x b) → Chain R a l b → Chain S a l b := by
  induction l with
  | nil => exact fun _ h => h
  | cons x l ih =>
      rintro a b hRS ⟨c, hx, hl⟩
      exact ⟨c, hRS _ _ _ (List.mem_cons_self ..) hx,
        ih (fun a y b hy => hRS a y b (List.mem_cons_of_mem _ hy)) hl⟩

/-- Along a chain of increasing steps every label stands between the two ends. -/
theorem bounds [Preorder ι] {l : List α} (hle : ∀ a x b, R a x b → a ≤ b) :
    ∀ {a b : ι}, Chain R a l b → a ≤ b ∧ ∀ x ∈ l, ∃ c d, R c x d ∧ a ≤ c ∧ d ≤ b := by
  induction l with
  | nil =>
      rintro a b rfl
      exact ⟨le_refl a, fun x hx => absurd hx List.not_mem_nil⟩
  | cons y l ih =>
      rintro a b ⟨c, hy, hl⟩
      obtain ⟨hcb, hrest⟩ := ih hl
      have hac := hle a y c hy
      refine ⟨le_trans hac hcb, ?_⟩
      intro x hx
      cases List.mem_cons.mp hx with
      | inl heq => exact ⟨a, c, heq ▸ hy, le_refl a, hcb⟩
      | inr hmem =>
          obtain ⟨d, e, hR, hcd, heb⟩ := hrest x hmem
          exact ⟨d, e, hR, le_trans hac hcd, heb⟩

/-- A chain may be continued by one step. -/
theorem concat {l : List α} {x : α} {a b c : ι} (h : Chain R a l b) (hx : R b x c) :
    Chain R a (l ++ [x]) c :=
  append.mpr ⟨b, h, c, hx, rfl⟩

end Chain

/-! ## Tilings -/

section Tiles

variable (base size : α → Nat)

/-- The intervals `[base x, base x + size x)` of a list tile `[lo, hi)`. -/
def Tiles (lo : Nat) (l : List α) (hi : Nat) : Prop :=
  Chain (fun a x b => base x = a ∧ 0 < size x ∧ b = a + size x) lo l hi

namespace Tiles

variable {base size} {lo hi : Nat} {l : List α}

@[simp] theorem nil : Tiles base size lo [] hi ↔ lo = hi := Iff.rfl

theorem cons {x : α} : Tiles base size lo (x :: l) hi ↔
    base x = lo ∧ 0 < size x ∧ Tiles base size (lo + size x) l hi := by
  constructor
  · rintro ⟨c, ⟨hb, hs, rfl⟩, hl⟩
    exact ⟨hb, hs, hl⟩
  · rintro ⟨hb, hs, hl⟩
    exact ⟨_, ⟨hb, hs, rfl⟩, hl⟩

theorem append {l₁ l₂ : List α} : Tiles base size lo (l₁ ++ l₂) hi ↔
    ∃ mid, Tiles base size lo l₁ mid ∧ Tiles base size mid l₂ hi :=
  Chain.append

/-- A tiling opened at one of its intervals. -/
theorem split {pre post : List α} {x : α} : Tiles base size lo (pre ++ x :: post) hi ↔
    Tiles base size lo pre (base x) ∧ 0 < size x ∧
      Tiles base size (base x + size x) post hi := by
  rw [append]
  constructor
  · rintro ⟨mid, hl, hr⟩
    obtain ⟨rfl, hs, hr⟩ := cons.mp hr
    exact ⟨hl, hs, hr⟩
  · rintro ⟨hl, hs, hr⟩
    exact ⟨_, hl, cons.mpr ⟨rfl, hs, hr⟩⟩

/-- A tiling by the images of a list. -/
theorem map {β : Type w} {g : β → α} {l : List β} :
    Tiles base size lo (l.map g) hi ↔ Tiles (fun y => base (g y)) (fun y => size (g y)) lo l hi := by
  induction l generalizing lo with
  | nil => exact Iff.rfl
  | cons y l ih => rw [List.map_cons, cons, cons, ih]

theorem le (h : Tiles base size lo l hi) : lo ≤ hi := by
  induction l generalizing lo with
  | nil => exact Nat.le_of_eq h
  | cons x l ih =>
      obtain ⟨_, _, hl⟩ := cons.mp h
      have := ih hl
      omega

/-- A tiled interval is as long as its parts together. -/
theorem hi_eq (h : Tiles base size lo l hi) : hi = lo + (l.map size).sum := by
  induction l generalizing lo with
  | nil => exact h.symm
  | cons x l ih =>
      obtain ⟨_, _, hl⟩ := cons.mp h
      rw [ih hl, List.map_cons, List.sum_cons, Nat.add_assoc]

/-- Every point of the range lies in an interval. -/
theorem cover (h : Tiles base size lo l hi) {a : Nat} (hlo : lo ≤ a) (hhi : a < hi) :
    ∃ x ∈ l, base x ≤ a ∧ a < base x + size x := by
  induction l generalizing lo with
  | nil =>
      have := nil.mp h
      omega
  | cons x l ih =>
      obtain ⟨hbase, _, hl⟩ := cons.mp h
      by_cases ha : a < lo + size x
      · exact ⟨x, List.mem_cons_self .., by omega, by omega⟩
      · obtain ⟨y, hy, hya⟩ := ih hl (by omega)
        exact ⟨y, List.mem_cons_of_mem _ hy, hya⟩

/-- Every interval lies inside the tiled one. -/
theorem bounds (h : Tiles base size lo l hi) {x : α} (hx : x ∈ l) :
    lo ≤ base x ∧ 0 < size x ∧ base x + size x ≤ hi := by
  obtain ⟨pre, post, rfl⟩ := List.append_of_mem hx
  obtain ⟨hl, hs, hr⟩ := split.mp h
  exact ⟨hl.le, hs, hr.le⟩

/-- Two intervals that start at different points have no point in common. -/
theorem apart (h : Tiles base size lo l hi) {x y : α} (hx : x ∈ l) (hy : y ∈ l)
    (hne : base x ≠ base y) :
    base x + size x ≤ base y ∨ base y + size y ≤ base x := by
  obtain ⟨pre, post, rfl⟩ := List.append_of_mem hx
  obtain ⟨hl, _, hr⟩ := split.mp h
  rcases List.mem_append.mp hy with hmem | hmem
  · exact Or.inr (hl.bounds hmem).2.2
  · rcases List.mem_cons.mp hmem with heq | hmem
    · exact absurd (congrArg base heq).symm hne
    · exact Or.inl (hr.bounds hmem).1

/-- Neighbours of a tiling meet. -/
theorem adjacent {pre post : List α} {x y : α}
    (h : Tiles base size lo (pre ++ x :: y :: post) hi) : base x + size x = base y := by
  obtain ⟨_, _, hr⟩ := split.mp h
  exact (cons.mp hr).1.symm

/-- Two neighbours may be replaced by their union. -/
theorem merge {pre post : List α} {x y z : α}
    (h : Tiles base size lo (pre ++ x :: y :: post) hi) (hb : base z = base x)
    (hs : size z = size x + size y) : Tiles base size lo (pre ++ z :: post) hi := by
  obtain ⟨hl, hx, hr⟩ := split.mp h
  obtain ⟨_, hy, hr⟩ := cons.mp hr
  refine split.mpr ⟨by rw [hb]; exact hl, by omega, ?_⟩
  rw [hb, hs, ← Nat.add_assoc]
  exact hr

end Tiles

end Tiles

end Lib
