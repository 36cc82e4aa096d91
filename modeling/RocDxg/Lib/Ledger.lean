import Mathlib.Data.List.Count
import Mathlib.Data.List.Perm.Basic

/-!
# A ledger of what is taken and given back

A sequence of events, each of which acquires or releases a resource.  It is balanced if nothing
is released that is not held at that moment and nothing is held at the end.

The ledger carries the resources that are held through the sequence, and stops at a release
that has nothing to release.  A sequence is balanced exactly if the ledger comes to its end
empty (`balanced_iff`), so that releasing a list balances what was acquired exactly if that
list is what is held (`balanced_append_release`).
-/

namespace Lib

/-- A resource is acquired or released. -/
inductive Event (α : Type u) where
  | acquire (x : α)
  | release (x : α)
deriving DecidableEq, Repr

variable {α : Type u} [DecidableEq α]

/-- Nothing is released that is not held, and everything is released. -/
structure Balanced (events : List (Event α)) : Prop where
  held : ∀ l x, l <+: events → l.count (.release x) ≤ l.count (.acquire x)
  released : ∀ x, events.count (.release x) = events.count (.acquire x)

/-- What is held after the events, if nothing is released that is not held. -/
def settle : List (Event α) → List α → Option (List α)
  | [], held => some held
  | .acquire x :: events, held => settle events (x :: held)
  | .release x :: events, held => if x ∈ held then settle events (held.erase x) else none

theorem settle_append (events events' : List (Event α)) (held : List α) :
    settle (events ++ events') held = (settle events held).bind (settle events') := by
  induction events generalizing held with
  | nil => rfl
  | cons e events ih =>
      cases e with
      | acquire x => exact ih (x :: held)
      | release x =>
          rw [List.cons_append, settle, settle]
          split
          next => exact ih (held.erase x)
          next => rfl

/-- An event counts for its resource alone. -/
theorem count_acquire_cons (events : List (Event α)) (x y : α) :
    (Event.acquire y :: events).count (.acquire x) =
        events.count (.acquire x) + (if y = x then 1 else 0) ∧
      (Event.acquire y :: events).count (.release x) = events.count (.release x) := by
  simp [List.count_cons]

theorem count_release_cons (events : List (Event α)) (x y : α) :
    (Event.release y :: events).count (.release x) =
        events.count (.release x) + (if y = x then 1 else 0) ∧
      (Event.release y :: events).count (.acquire x) = events.count (.acquire x) := by
  simp [List.count_cons]

/-- What is held counts one more than without a resource that is held. -/
theorem count_erase_add {held : List α} {y : α} (hy : y ∈ held) (x : α) :
    (held.erase y).count x + (if y = x then 1 else 0) = held.count x := by
  rw [(List.perm_cons_erase hy).count_eq, List.count_cons]
  simp

/-- The counts that the ledger keeps. -/
theorem count_settle {events : List (Event α)} {held held' : List α}
    (h : settle events held = some held') (x : α) :
    held'.count x + events.count (.release x) = held.count x + events.count (.acquire x) := by
  induction events generalizing held with
  | nil =>
      cases h
      rfl
  | cons e events ih =>
      cases e with
      | acquire y =>
          have hrest := ih h
          obtain ⟨hacquire, hrelease⟩ := count_acquire_cons events x y
          rw [hacquire, hrelease, hrest, List.count_cons]
          simp only [beq_iff_eq]
          omega
      | release y =>
          rw [settle] at h
          split at h
          next hy =>
            have hrest := ih h
            have herase := count_erase_add hy x
            obtain ⟨hrelease, hacquire⟩ := count_release_cons events x y
            rw [hacquire, hrelease]
            omega
          next => cases h

/-- The ledger comes to its end exactly if every release finds what it releases. -/
theorem settle_isSome_iff (events : List (Event α)) (held : List α) :
    (settle events held).isSome = true ↔
      ∀ l x, l <+: events → l.count (.release x) ≤ held.count x + l.count (.acquire x) := by
  constructor
  · intro h l x hl
    obtain ⟨rest, rfl⟩ := hl
    rw [settle_append] at h
    cases hs : settle l held with
    | none =>
        rw [hs] at h
        cases h
    | some held' =>
        have hcount := count_settle hs x
        omega
  · intro h
    induction events generalizing held with
    | nil => rfl
    | cons e events ih =>
        cases e with
        | acquire y =>
            refine ih (y :: held) fun l x hl => ?_
            have hcount := h (.acquire y :: l) x ((List.prefix_cons_inj _).mpr hl)
            obtain ⟨hacquire, hrelease⟩ := count_acquire_cons l x y
            rw [hacquire, hrelease] at hcount
            simp only [List.count_cons, beq_iff_eq]
            omega
        | release y =>
            have hy : y ∈ held := by
              have hcount := h [.release y] y ((List.prefix_cons_inj _).mpr (List.nil_prefix ..))
              obtain ⟨hrelease, hacquire⟩ := count_release_cons ([] : List (Event α)) y y
              rw [hacquire, hrelease, if_pos rfl] at hcount
              exact List.count_pos_iff.mp hcount
            rw [settle, if_pos hy]
            refine ih (held.erase y) fun l x hl => ?_
            have hcount := h (.release y :: l) x ((List.prefix_cons_inj _).mpr hl)
            have herase := count_erase_add hy x
            obtain ⟨hrelease, hacquire⟩ := count_release_cons l x y
            rw [hacquire, hrelease] at hcount
            omega

/-- A sequence is balanced exactly if the ledger comes to its end empty. -/
theorem balanced_iff (events : List (Event α)) :
    Balanced events ↔ settle events [] = some [] := by
  constructor
  · intro B
    have hsome := (settle_isSome_iff events []).mpr fun l x hl => by
      rw [List.count_nil, Nat.zero_add]
      exact B.held l x hl
    obtain ⟨held, hs⟩ := Option.isSome_iff_exists.mp hsome
    rw [hs]
    refine congrArg some (List.eq_nil_iff_forall_not_mem.mpr fun x hx => ?_)
    have hpos := List.count_pos_iff.mpr hx
    have hcount := count_settle hs x
    rw [B.released x, List.count_nil] at hcount
    omega
  · intro h
    refine ⟨fun l x hl => ?_, fun x => ?_⟩
    · have hcount := (settle_isSome_iff events []).mp (by rw [h]; rfl) l x hl
      rwa [List.count_nil, Nat.zero_add] at hcount
    · have hcount := count_settle h x
      rwa [List.count_nil, Nat.zero_add, Nat.zero_add] at hcount

/-- Releasing a list leaves nothing exactly if the list is what was held. -/
theorem settle_release (l held : List α) :
    settle (l.map .release) held = some [] ↔ l.Perm held := by
  induction l generalizing held with
  | nil =>
      rw [List.map_nil, settle, Option.some.injEq]
      exact ⟨fun h => h ▸ List.Perm.refl _, fun h => List.nil_perm.mp h⟩
  | cons x l ih =>
      rw [List.map_cons, settle, List.cons_perm_iff_perm_erase]
      split
      next hx => exact (ih _).trans ⟨fun h => ⟨hx, h⟩, And.right⟩
      next hx => exact iff_of_false nofun fun h => hx h.1

/-- What was acquired is balanced by the release of what is held. -/
theorem balanced_append_release {events : List (Event α)} {held : List α}
    (h : settle events [] = some held) (l : List α) :
    Balanced (events ++ l.map .release) ↔ l.Perm held := by
  rw [balanced_iff, settle_append, h]
  exact settle_release l held

end Lib
