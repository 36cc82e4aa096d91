import Mathlib.Algebra.Group.Nat.Defs
import Mathlib.Data.List.Induction
import Mathlib.Order.Bounds.Basic
import Mathlib.Order.Fin.Basic
import RocDxg.Lib.Exchange

/-!
# The paging fence

`UpdatePageFence` and `WaitOnPagingFenceFromCpu` of `wddm/device.cpp`.  `page_fence_value_` is an
atomic word.  A paging operation gives the fence value it will signal to `UpdatePageFence`, which
stores the value in a loop with a compare-exchange if it is above the present one, and a thread
that has to wait for the paging operations waits for the value it finds.

In every interleaving the word is the maximum of its first value and the values of the calls that
took effect (`PagingFence.Reached.isGreatest`), so a wait covers every call that returned before
it (`PagingFence.fence_le_of_returned`).
-/

namespace RocDxg

open Lib (Reach)
open Lib.Exchange (Action Linearized Stage TookEffect linearized_initial)

namespace PagingFence

/-- `uint64_t` -/
abbrev Fence := Fin (2 ^ 64)

/-- `UpdatePageFence` in its loop: with the copy `current` it breaks, or tries to store. -/
def updatePageFence (fenceValue current : Fence) : Option Fence :=
  if current ≥ fenceValue then none else some fenceValue

/-- `page_fence_value_` and the calls of `UpdatePageFence`, a call for each `i`. -/
abbrev State (ι : Type u) := Lib.Exchange.State ι Fence

/-- One atomic step of a call, where the call `i` has the argument `fenceValue i`. -/
def step [DecidableEq ι] (fenceValue : ι → Fence) : State ι → ι × Action → Option (State ι) :=
  Lib.Exchange.step fun i => updatePageFence (fenceValue i)

/-- The value is that of the state when the wait begins, and `cpuWait` is what `CpuWait` answers
for the value it is given. -/
def waitOnPagingFenceFromCpu (cpuWait : Fence → Bool) (s : State ι) : Bool :=
  let pageFenceValue := s.value
  if cpuWait pageFenceValue then true else false

/-- The states that the calls reach in any interleaving. -/
abbrev Reached [DecidableEq ι] (fenceValue : ι → Fence) (s s' : State ι) : Prop :=
  Reach (step fenceValue) (fun _ _ => True) s s'

variable {fenceValue : ι → Fence} {s s' : State ι} {initial : Fence}

/-- The change of a call is to take the larger value. -/
theorem apply_updatePageFence (a : Fence) (i : ι) :
    Lib.Exchange.apply (fun i => updatePageFence (fenceValue i)) a i = max a (fenceValue i) := by
  rw [Lib.Exchange.apply, updatePageFence]
  split
  next hle => exact (max_eq_left hle).symm
  next hlt => exact (max_eq_right (le_of_not_ge hlt)).symm

/-- Changes made one after the other. -/
theorem isGreatest_foldl (order : List ι) :
    IsGreatest (insert initial (fenceValue '' {i | i ∈ order}))
      (order.foldl (Lib.Exchange.apply fun i => updatePageFence (fenceValue i)) initial) := by
  induction order using List.reverseRecOn with
  | nil => simp
  | append_singleton order i ih =>
      rw [List.foldl_append, List.foldl_cons, List.foldl_nil, apply_updatePageFence]
      have hmem : {j | j ∈ order ++ [i]} = insert i {j | j ∈ order} := by
        ext j
        simp [or_comm]
      rw [hmem, Set.image_insert_eq, Set.insert_comm, max_comm]
      exact ih.insert (fenceValue i)

variable [DecidableEq ι]

/-- In every interleaving the word is the maximum of its first value and the values of the calls
that took effect. -/
theorem Reached.isGreatest (h : Reached fenceValue (.initial initial) s) :
    IsGreatest (insert initial
      (fenceValue '' {i | TookEffect (fun i => updatePageFence (fenceValue i)) s i})) s.value := by
  obtain ⟨order, hlin⟩ := linearized_initial.run h
  rw [List.nil_append] at hlin
  have hmem : {i | TookEffect (fun i => updatePageFence (fenceValue i)) s i} = {i | i ∈ order} := by
    ext i
    exact (hlin.mem i).symm
  rw [hmem, hlin.value]
  exact isGreatest_foldl order

/-- A call that returned is covered by every wait that begins after it. -/
theorem fence_le_of_returned (h : Reached fenceValue (.initial initial) s) {i : ι}
    (hi : s.stage i = .returned) : fenceValue i ≤ s.value := by
  have htook : TookEffect (fun i => updatePageFence (fenceValue i)) s i := by
    simp [TookEffect, hi]
  exact h.isGreatest.2 (.inr ⟨i, htook, rfl⟩)

/-- No step stores a smaller value. -/
theorem value_le_of_step {e : ι × Action} (h : step fenceValue s e = some s') :
    s.value ≤ s'.value := by
  rcases Lib.Exchange.step_cases h with ⟨-, rfl⟩ | ⟨-, rfl⟩ | ⟨-, desired, hnext, rfl⟩
  · exact le_refl _
  · exact le_refl _
  · rw [updatePageFence] at hnext
    split at hnext
    next => cases hnext
    next hlt =>
      cases hnext
      exact le_of_not_ge hlt

theorem Reached.value_le (h : Reached fenceValue s s') : s.value ≤ s'.value :=
  h.invariant (I := fun s' => s.value ≤ s'.value) (le_refl _)
    fun _ _ _ hle _ hs => le_trans hle (value_le_of_step hs)

/-- The paging fence is a maximum register.  For any number of calls with any values and in any
interleaving of their steps the word never decreases, and once all calls have returned it is the
maximum of its first value and all values passed. -/
theorem maximum_register (fenceValue : ι → Fence) (initial : Fence) :
    (∀ s s', Reached fenceValue (.initial initial) s → Reached fenceValue s s' →
      s.value ≤ s'.value) ∧
    ∀ s, Reached fenceValue (.initial initial) s → (∀ i, s.stage i = .returned) →
      IsGreatest (insert initial (Set.range fenceValue)) s.value := by
  refine ⟨fun _ _ _ h => h.value_le, fun s h hall => ?_⟩
  have hevery : {i | TookEffect (fun i => updatePageFence (fenceValue i)) s i} = Set.univ := by
    ext i
    simp [TookEffect, hall i]
  have hgreatest := h.isGreatest
  rw [hevery, Set.image_univ] at hgreatest
  exact hgreatest

/-- Two calls load the first value, one of them stores its own after an exchange that fails for no
reason, and the other one finds a larger value than its own. -/
def sampleInterleaving : List (Bool × Action) :=
  [(false, .load), (true, .load), (true, .exchange true), (true, .exchange false),
    (false, .exchange false), (false, .leave)]

/-- The values that the two calls pass. -/
def sampleFences (i : Bool) : Fence := if i then 9 else 5

theorem maximum_register_two :
    ∃ s : State Bool, (∀ i, s.stage i = .returned) ∧
      IsGreatest (insert 4 (Set.range sampleFences)) s.value ∧ (4 : Fence) ≤ s.value := by
  have hsome : (Lib.runAll (step sampleFences) (fun _ _ => True) (.initial 4)
      sampleInterleaving).isSome := by decide
  have hreach : Reached sampleFences (.initial 4) (Option.get _ hsome) :=
    Lib.reach_of_runAll (Option.some_get hsome).symm
  have hall : ∀ i, (Option.get _ hsome).stage i = .returned := by
    intro i
    cases i with
    | false => rfl
    | true => rfl
  obtain ⟨hmono, hmax⟩ := maximum_register sampleFences 4
  exact ⟨_, hall, hmax _ hreach hall, hmono _ _ .start hreach⟩

end PagingFence

end RocDxg
