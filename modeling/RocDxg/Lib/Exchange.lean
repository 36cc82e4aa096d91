import Mathlib.Data.List.Nodup
import Mathlib.Logic.Function.Basic
import RocDxg.Lib.Reach

/-!
# Loops around a compare-exchange

A shared value, and any number of calls that each change it by a loop.  A call loads the value
into a copy of its own.  From the copy it either leaves the loop or finds a value to store, and
the exchange stores it if the shared value is still equal to the copy.  An exchange that fails
loads the shared value into the copy, and it may fail although the two are equal.

`Linearized` is the meaning of such a state: there is an order of the calls that took effect in
which the value is that of the same changes made one after the other, each at once.  A call that
took effect is not yet one that returned: it takes effect when it loads a copy with which it will
leave the loop.  A run only adds calls at the end of the order (`Linearized.run`).
-/

namespace Lib.Exchange

open Function (update update_self update_of_ne)

variable {ι : Type u} {α : Type v}

/-- Where a call is. -/
inductive Stage (α : Type v) where
  | start
  /-- In the loop, with its copy of the value. -/
  | loop (current : α)
  | returned
deriving DecidableEq, Repr

/-- The shared value and the calls. -/
structure State (ι : Type u) (α : Type v) where
  value : α
  stage : ι → Stage α

/-- An atomic step of a call. -/
inductive Action where
  | load
  /-- The test in the loop ends it. -/
  | leave
  /-- The compare-exchange; a spurious failure is one with equal values. -/
  | exchange (spurious : Bool)
deriving DecidableEq, Repr

/-- No call has begun. -/
def State.initial (a : α) : State ι α := ⟨a, fun _ => .start⟩

variable {next : ι → α → Option α} {s s' : State ι α} {a₀ : α} {order : List ι}

/-! ## One order of the changes -/

/-- The change of a call, made at once. -/
def apply (next : ι → α → Option α) (a : α) (i : ι) : α := (next i a).getD a

/-- The call made its change: it returned, or leaves with the copy it has. -/
def TookEffect (next : ι → α → Option α) (s : State ι α) (i : ι) : Prop :=
  match s.stage i with
  | .start => False
  | .loop current => next i current = none
  | .returned => True

/-- The calls that took effect, in the order in which they did. -/
structure Linearized (next : ι → α → Option α) (a₀ : α) (s : State ι α) (order : List ι) :
    Prop where
  nodup : order.Nodup
  mem : ∀ i, i ∈ order ↔ TookEffect next s i
  value : s.value = order.foldl (apply next) a₀

theorem linearized_initial : Linearized next a₀ (State.initial a₀) [] where
  nodup := .nil
  mem i := by simp [TookEffect, State.initial]
  value := rfl

/-- The effect of a call is a matter of its own stage. -/
theorem tookEffect_congr {j : ι} (hst : s'.stage j = s.stage j) :
    TookEffect next s' j ↔ TookEffect next s j := by
  rw [TookEffect, TookEffect, hst]

namespace Linearized

variable {i : ι}

/-- A step that changes nothing but where the call is. -/
theorem stay (h : Linearized next a₀ s order) (hvalue : s'.value = s.value)
    (htook : ∀ j, TookEffect next s' j ↔ TookEffect next s j) : Linearized next a₀ s' order where
  nodup := h.nodup
  mem j := by rw [h.mem, htook]
  value := by rw [hvalue, h.value]

/-- A step with which a call makes its change. -/
theorem push (h : Linearized next a₀ s order) (hnot : ¬ TookEffect next s i)
    (htook : TookEffect next s' i) (hvalue : s'.value = apply next s.value i)
    (hothers : ∀ j, j ≠ i → s'.stage j = s.stage j) :
    Linearized next a₀ s' (order ++ [i]) where
  nodup := by
    rw [List.nodup_append_comm]
    exact h.nodup.cons fun hmem => hnot ((h.mem i).mp hmem)
  mem j := by
    rw [List.mem_append, List.mem_singleton]
    by_cases hj : j = i
    · subst hj
      simp [htook]
    · rw [tookEffect_congr (hothers j hj), h.mem]
      simp [hj]
  value := by simp [List.foldl_append, hvalue, h.value]

end Linearized

/-! ## The steps -/

namespace State

variable [DecidableEq ι]

/-- A call goes on. -/
def enter (s : State ι α) (i : ι) (stage : Stage α) : State ι α :=
  { s with stage := update s.stage i stage }

@[simp] theorem value_enter (s : State ι α) (i : ι) (stage : Stage α) :
    (s.enter i stage).value = s.value := rfl

@[simp] theorem stage_enter_self (s : State ι α) (i : ι) (stage : Stage α) :
    (s.enter i stage).stage i = stage := update_self ..

theorem stage_enter_of_ne (s : State ι α) {i j : ι} (h : j ≠ i) (stage : Stage α) :
    (s.enter i stage).stage j = s.stage j := update_of_ne h ..

end State

variable [DecidableEq ι] [DecidableEq α]

/-- One step, where `next i` is the value that the call `i` wants to store when it sees another
one, or nothing if it leaves. -/
def step (next : ι → α → Option α) (s : State ι α) : ι × Action → Option (State ι α)
  | (i, .load) =>
      match s.stage i with
      | .start => some (s.enter i (.loop s.value))
      | _ => none
  | (i, .leave) =>
      match s.stage i with
      | .loop current => if (next i current).isNone then some (s.enter i .returned) else none
      | _ => none
  | (i, .exchange spurious) =>
      match s.stage i with
      | .loop current =>
          (next i current).map fun desired =>
            if s.value = current ∧ spurious = false then
              { s.enter i .returned with value := desired }
            else s.enter i (.loop s.value)
      | _ => none

variable {e : ι × Action}

/-- The three things a step can do. -/
theorem step_cases (h : step next s e = some s') :
    (¬ TookEffect next s e.1 ∧ s' = s.enter e.1 (.loop s.value)) ∨
    (TookEffect next s e.1 ∧ s' = s.enter e.1 .returned) ∨
    (¬ TookEffect next s e.1 ∧ ∃ desired, next e.1 s.value = some desired ∧
      s' = { s.enter e.1 .returned with value := desired }) := by
  obtain ⟨i, act⟩ := e
  cases hs : s.stage i with
  | start =>
      have hnot : ¬ TookEffect next s i := by simp [TookEffect, hs]
      cases act with
      | load =>
          simp only [step, hs, Option.some.injEq] at h
          exact .inl ⟨hnot, h.symm⟩
      | leave => simp [step, hs] at h
      | exchange spurious => simp [step, hs] at h
  | returned => cases act <;> simp [step, hs] at h
  | loop current =>
      have htook : TookEffect next s i ↔ next i current = none := by simp [TookEffect, hs]
      cases act with
      | load => simp [step, hs] at h
      | leave =>
          simp only [step, hs] at h
          split at h
          next hnone =>
            cases h
            exact .inr (.inl ⟨htook.mpr (Option.isNone_iff_eq_none.mp hnone), rfl⟩)
          next => cases h
      | exchange spurious =>
          simp only [step, hs] at h
          obtain ⟨desired, hnext, hd⟩ := Option.map_eq_some_iff.mp h
          have hnot : ¬ TookEffect next s i := by simp [htook, hnext]
          split at hd
          next heq =>
            rw [← heq.1] at hnext
            exact .inr (.inr ⟨hnot, desired, hnext, hd.symm⟩)
          next => exact .inl ⟨hnot, hd.symm⟩

namespace Linearized

/-- A step adds at most its own call to the order. -/
theorem step (h : Linearized next a₀ s order) (hs : step next s e = some s') :
    Linearized next a₀ s' order ∨ Linearized next a₀ s' (order ++ [e.1]) := by
  rcases step_cases hs with ⟨hnot, rfl⟩ | ⟨htook, rfl⟩ | ⟨hnot, desired, hnext, rfl⟩
  · -- a copy is loaded; with some copies the call has nothing to store
    cases hnext : next e.1 s.value with
    | none =>
        refine .inr (h.push hnot ?_ ?_ fun j hj => s.stage_enter_of_ne hj _)
        · simp [TookEffect, hnext]
        · simp [apply, hnext]
    | some desired =>
        refine .inl (h.stay rfl fun j => ?_)
        by_cases hj : j = e.1
        · subst hj
          simp [TookEffect, hnext] at hnot ⊢
          exact hnot
        · exact tookEffect_congr (s.stage_enter_of_ne hj _)
  · refine .inl (h.stay rfl fun j => ?_)
    by_cases hj : j = e.1
    · subst hj
      exact iff_of_true (by simp [TookEffect]) htook
    · exact tookEffect_congr (s.stage_enter_of_ne hj _)
  · refine .inr (h.push hnot ?_ ?_ fun j hj => s.stage_enter_of_ne hj _)
    · simp [TookEffect]
    · simp [apply, hnext]

/-- A run adds calls at the end of the order, whatever the interleaving. -/
theorem run {ok : State ι α → ι × Action → Prop} (h : Linearized next a₀ s order)
    (hr : Reach (Exchange.step next) ok s s') :
    ∃ rest, Linearized next a₀ s' (order ++ rest) := by
  induction hr with
  | start => exact ⟨[], by simpa using h⟩
  | step _ _ hs ih =>
      obtain ⟨rest, hrest⟩ := ih
      cases hrest.step hs with
      | inl hstay => exact ⟨rest, hstay⟩
      | inr hpush => exact ⟨_, by simpa using hpush⟩

end Linearized

end Lib.Exchange
