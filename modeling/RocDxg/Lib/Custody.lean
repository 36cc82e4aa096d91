import Mathlib.Data.Finset.Basic
import Mathlib.Logic.Function.Basic

/-!
# Custody of resources

Resources that are open, and holders that each record at most one of them.  `Custody` says that
the records are right: a resource is open exactly when it has a holder, and then it has one.

A resource changes hands in three ways: it is opened for a holder that had none, it is closed
by its holder, and it is given to another.
-/

namespace Lib

/-- Every open resource has one holder, and nothing else is held. -/
structure Custody {ι : Type u} {ν : Type v} (holds : ι → Option ν) (opened : Finset ν) : Prop where
  held : ∀ n, n ∈ opened ↔ ∃ x, holds x = some n
  unique : ∀ {x y n}, holds x = some n → holds y = some n → x = y

namespace Custody

variable {ι : Type u} {ν : Type v} {holds : ι → Option ν} {opened : Finset ν}

theorem empty : Custody (fun _ : ι => (none : Option ν)) ∅ := by
  refine ⟨fun n => ?_, nofun⟩
  simp

theorem mem (C : Custody holds opened) {x : ι} {n : ν} (h : holds x = some n) : n ∈ opened :=
  (C.held n).mpr ⟨x, h⟩

/-- The holders say what is open. -/
theorem opened_eq {opened' : Finset ν} (C : Custody holds opened) (C' : Custody holds opened') :
    opened = opened' := by
  ext n
  rw [C.held, C'.held]

variable [DecidableEq ι] [DecidableEq ν]

/-- A resource is opened for a holder that had none. -/
theorem acquire (C : Custody holds opened) {x : ι} {n : ν} (hx : holds x = none)
    (hn : n ∉ opened) : Custody (Function.update holds x (some n)) (insert n opened) := by
  have hother : ∀ {y m}, holds y = some m → m ≠ n ∧ y ≠ x := by
    intro y m hy
    constructor
    · rintro rfl
      exact hn (C.mem hy)
    · rintro rfl
      rw [hx] at hy
      cases hy
  refine ⟨fun m => ?_, ?_⟩
  · rw [Finset.mem_insert, C.held]
    constructor
    · rintro (rfl | ⟨y, hy⟩)
      · exact ⟨x, Function.update_self ..⟩
      · exact ⟨y, by rw [Function.update_of_ne (hother hy).2, hy]⟩
    · rintro ⟨y, hy⟩
      rw [Function.update_apply] at hy
      split at hy
      next =>
        cases hy
        exact Or.inl rfl
      next => exact Or.inr ⟨y, hy⟩
  · intro y z m hy hz
    rw [Function.update_apply] at hy hz
    split at hy
    next heq =>
      cases hy
      split at hz
      next heq' => rw [heq, heq']
      next => exact absurd rfl (hother hz).1
    next =>
      split at hz
      next =>
        cases hz
        exact absurd rfl (hother hy).1
      next => exact C.unique hy hz

/-- A resource is closed by its holder. -/
theorem release (C : Custody holds opened) {x : ι} {n : ν} (hx : holds x = some n) :
    Custody (Function.update holds x none) (opened.erase n) := by
  refine ⟨fun m => ?_, ?_⟩
  · rw [Finset.mem_erase, C.held]
    constructor
    · rintro ⟨hne, y, hy⟩
      have hyx : y ≠ x := by
        rintro rfl
        rw [hx] at hy
        cases hy
        exact hne rfl
      exact ⟨y, by rw [Function.update_of_ne hyx, hy]⟩
    · rintro ⟨y, hy⟩
      rw [Function.update_apply] at hy
      split at hy
      next => cases hy
      next hyx =>
        refine ⟨?_, y, hy⟩
        rintro rfl
        exact hyx (C.unique hy hx)
  · intro y z m hy hz
    rw [Function.update_apply] at hy hz
    split at hy
    next => cases hy
    next =>
      split at hz
      next => cases hz
      next => exact C.unique hy hz

omit [DecidableEq ν] in
/-- A holder that had nothing is gone. -/
theorem forget (C : Custody holds opened) {x : ι} (hx : holds x = none) :
    Custody (Function.update holds x none) opened := by
  rw [Function.update_eq_self_iff.mpr hx.symm]
  exact C

end Custody

end Lib
