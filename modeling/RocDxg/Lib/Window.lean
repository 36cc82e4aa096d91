import Mathlib.Order.Interval.Finset.Nat

/-!
# A window on a ring

A ring of `n` slots carries an unbounded sequence of items, the item `t` in the slot `t % n`.  At
any time only the items of a window of `n` consecutive numbers are in the ring.  `Holds` says of
each item in the window what its slot contains.  Writing an item touches no other item of the
window, and the window slides when its first slot is ready for the item one lap later.
-/

namespace Lib.Window

variable {α : Type u} {n lo t t' : Nat} {P P' : Nat → α → Prop} {slots : Nat → α} {x : α}

/-- The slots of the window from `lo` contain what `P` says of its items. -/
def Holds (n lo : Nat) (P : Nat → α → Prop) (slots : Nat → α) : Prop :=
  ∀ t, lo ≤ t → t < lo + n → P t (slots (t % n))

/-- Two items of a window have different slots. -/
theorem eq_of_slot (ht : lo ≤ t ∧ t < lo + n) (ht' : lo ≤ t' ∧ t' < lo + n)
    (heq : t % n = t' % n) : t = t' :=
  Nat.mod_injOn_Ico lo n (Finset.mem_coe.mpr (Finset.mem_Ico.mpr ht))
    (Finset.mem_coe.mpr (Finset.mem_Ico.mpr ht')) heq

/-- An item of the window is written. -/
theorem Holds.write (h : Holds n lo P slots) (ht : lo ≤ t ∧ t < lo + n) (hx : P' t x)
    (hother : ∀ t', t' ≠ t → ∀ y, P t' y → P' t' y) :
    Holds n lo P' fun i => if i = t % n then x else slots i := by
  intro t' hlo hhi
  show P' t' (if t' % n = t % n then x else slots (t' % n))
  by_cases heq : t' % n = t % n
  · rw [if_pos heq, eq_of_slot ⟨hlo, hhi⟩ ht heq]
    exact hx
  · rw [if_neg heq]
    exact hother t' (fun hne => heq (congrArg (· % n) hne)) _ (h t' hlo hhi)

/-- The window slides by one. -/
theorem Holds.slide (h : Holds n lo P slots) (hn : 0 < n)
    (hnext : P lo (slots (lo % n)) → P (lo + n) (slots (lo % n))) : Holds n (lo + 1) P slots := by
  intro t hlo hhi
  by_cases hlast : t = lo + n
  · subst hlast
    rw [Nat.add_mod_right]
    exact hnext (h lo (Nat.le_refl _) (Nat.lt_add_of_pos_right hn))
  · exact h t (by omega) (by omega)

end Lib.Window
