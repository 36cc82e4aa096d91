import Mathlib.Data.List.GetD
import Mathlib.Logic.Function.Basic

/-!
# Buffers of a caller

The memory behind a pointer, entry by entry, without an end of its own: whoever writes has to keep
to the size that the caller gave.  `put` writes entries one behind the other, and `fill` is the
loop that writes the entries of a list until there are as many as the buffer holds.
-/

namespace Lib

/-- The entries from a pointer on. -/
abbrev Buffer (α : Type u) := Nat → α

namespace Buffer

variable {α : Type u} {b : Buffer α} {off i cap : Nat} {xs ys zs : List α}

/-- Write some entries, the first one at an offset. -/
def put (b : Buffer α) (off : Nat) (xs : List α) : Buffer α := fun i =>
  if off ≤ i then xs.getD (i - off) (b i) else b i

/-- The first entries. -/
def read (b : Buffer α) (n : Nat) : List α := (List.range n).map b

theorem put_of_lt (h : i < off) : b.put off xs i = b i := if_neg (Nat.not_le.mpr h)

theorem put_of_le (h : off + xs.length ≤ i) : b.put off xs i = b i := by
  rw [put]
  split
  next => exact List.getD_eq_default _ _ (by omega)
  next => rfl

theorem put_add (h : i < xs.length) : b.put off xs (off + i) = xs[i] := by
  rw [put, if_pos (Nat.le_add_right _ _), Nat.add_sub_cancel_left]
  exact List.getD_eq_getElem _ _ h

theorem put_zero (h : i < xs.length) : b.put 0 xs i = xs[i] := by
  have hput : b.put 0 xs (0 + i) = xs[i] := put_add h
  rwa [Nat.zero_add] at hput

@[simp] theorem put_nil : b.put off [] = b := by
  funext i
  simp [put]

/-- A write that begins inside another one, and reaches behind it. -/
theorem put_put (h : zs.length ≤ ys.length) :
    (b.put off (xs ++ zs)).put (off + xs.length) ys = b.put off (xs ++ ys) := by
  funext i
  by_cases hi : i < off + xs.length
  · rw [put_of_lt hi]
    by_cases hoff : off ≤ i
    · obtain ⟨k, rfl⟩ := Nat.exists_eq_add_of_le hoff
      have hk : k < xs.length := by omega
      rw [put_add (by simp; omega), put_add (by simp; omega), List.getElem_append_left hk,
        List.getElem_append_left hk]
    · rw [put_of_lt (Nat.not_le.mp hoff), put_of_lt (Nat.not_le.mp hoff)]
  · obtain ⟨k, rfl⟩ := Nat.exists_eq_add_of_le (Nat.not_lt.mp hi)
    by_cases hk : k < ys.length
    · rw [put_add hk, Nat.add_assoc, put_add (by simp; omega),
        List.getElem_append_right (Nat.le_add_right _ _)]
      simp
    · rw [put_of_le (by omega), put_of_le (by simp; omega), put_of_le (by simp; omega)]

theorem put_zero_put (h : zs.length ≤ ys.length) :
    (b.put 0 (xs ++ zs)).put xs.length ys = b.put 0 (xs ++ ys) := by
  have hput : (b.put 0 (xs ++ zs)).put (0 + xs.length) ys = b.put 0 (xs ++ ys) := put_put h
  rwa [Nat.zero_add] at hput

/-- What was written at the front is read. -/
theorem read_put_append : (b.put 0 (xs ++ ys)).read xs.length = xs := by
  refine List.ext_getElem (by simp [read]) fun i hi hxs => ?_
  have happend : i < (xs ++ ys).length := by
    rw [List.length_append]
    exact Nat.lt_add_right _ hxs
  simp only [read, List.getElem_map, List.getElem_range, put_zero happend]
  exact List.getElem_append_left hxs

theorem read_put : (b.put 0 xs).read xs.length = xs := by
  have hread : (b.put 0 (xs ++ [])).read xs.length = xs := read_put_append
  rwa [List.append_nil] at hread

/-- One entry more. -/
theorem put_cons {x : α} :
    Buffer.put (Function.update b off x) (off + 1) xs = b.put off (x :: xs) := by
  funext i
  rcases Nat.lt_trichotomy i off with hlt | rfl | hgt
  · rw [put_of_lt (Nat.lt_succ_of_lt hlt), put_of_lt hlt, Function.update_of_ne (Nat.ne_of_lt hlt)]
  · have hfirst : b.put i (x :: xs) (i + 0) = x := put_add (Nat.succ_pos _)
    rw [put_of_lt (Nat.lt_succ_self i), Function.update_self]
    exact hfirst.symm
  · obtain ⟨k, rfl⟩ := Nat.exists_eq_add_of_lt hgt
    by_cases hk : k < xs.length
    · have hnext : b.put off (x :: xs) (off + (k + 1)) = xs[k] := put_add (Nat.succ_lt_succ hk)
      rw [Nat.add_right_comm, put_add hk, Nat.add_assoc, Nat.add_comm 1 k, hnext]
    · rw [put_of_le (by omega), put_of_le (by simp; omega),
        Function.update_of_ne (by omega)]

/-- The loop over a list that writes its entries while fewer than `cap` are `written`. -/
def fill (cap : Nat) : List α → Nat → Buffer α → Buffer α
  | [], _, b => b
  | x :: xs, written, b =>
      if written ≥ cap then b else fill cap xs (written + 1) (Function.update b written x)

/-- As many entries as there is room for. -/
theorem fill_eq_put (written : Nat) :
    fill cap xs written b = b.put written (xs.take (cap - written)) := by
  induction xs generalizing written b with
  | nil => simp [fill]
  | cons x xs ih =>
      rw [fill]
      split
      next hfull => simp [Nat.sub_eq_zero_of_le hfull]
      next hroom =>
        have hsub : cap - written = cap - (written + 1) + 1 := by omega
        rw [ih, hsub, List.take_succ_cons, put_cons]

theorem read_fill (h : xs.length ≤ cap) : (fill cap xs 0 b).read xs.length = xs := by
  rw [fill_eq_put, Nat.sub_zero, List.take_of_length_le h]
  exact read_put

/-- Nothing is written behind the last entry that there is room for. -/
theorem fill_of_le (h : cap ≤ i) : fill cap xs 0 b i = b i := by
  rw [fill_eq_put, Nat.sub_zero]
  refine put_of_le (Nat.le_trans ?_ h)
  rw [Nat.zero_add]
  exact List.length_take_le _ _

end Buffer

end Lib
