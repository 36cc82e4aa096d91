import Mathlib.Data.List.AList
import Mathlib.Data.List.Dedup

/-!
# Tallies

A table of amounts, one for each key that was seen: adding an amount under a key creates the entry
at zero if there is none.  After a run of additions the table has one entry for each key, with the
running total of its amounts (`lookup_addAll`, `Iteration.filter_addAll`, `Iteration.keys_addAll`),
in whatever order the table is gone through.
-/

namespace Lib

/-- One amount for each key. -/
abbrev Tally (κ : Type u) (M : Type v) := AList fun _ : κ => M

namespace Tally

variable {κ : Type u} {M : Type v} {k : κ} {x : κ × M} {xs : List (κ × M)}

/-- Whether a key has an amount. -/
def Reported (xs : List (κ × M)) (k : κ) : Prop := k ∈ xs.map Prod.fst

instance [DecidableEq κ] : Decidable (Reported xs k) :=
  inferInstanceAs (Decidable (k ∈ xs.map Prod.fst))

theorem reported_cons : Reported (x :: xs) k ↔ x.1 = k ∨ Reported xs k := by
  rw [Reported, List.map_cons, List.mem_cons, eq_comm]
  rfl

/-! ## Going through a table -/

/-- An order to go through tables, which nothing is known about. -/
structure Iteration (κ : Type u) (M : Type v) where
  run : Tally κ M → List (κ × M)
  perm (t : Tally κ M) : (run t).Perm (t.entries.map fun e => (e.1, e.2))

/-- The keys that are met. -/
theorem Iteration.keys_run (order : Iteration κ M) (t : Tally κ M) :
    ((order.run t).map Prod.fst).Perm t.keys := by
  have hperm := (order.perm t).map Prod.fst
  rw [List.map_map] at hperm
  exact hperm

variable [DecidableEq κ]

/-- The entries with a key, where no key has two. -/
theorem filter_entries {l : List (Σ _ : κ, M)} (h : l.NodupKeys) :
    (l.map fun e => (e.1, e.2)).filter (fun x => x.1 = k) =
      (l.dlookup k).toList.map fun m => (k, m) := by
  induction l with
  | nil => rfl
  | cons e l ih =>
      obtain ⟨a, m⟩ := e
      obtain ⟨hfresh, hrest⟩ := List.nodupKeys_cons.mp h
      rw [List.map_cons, List.filter_cons, ih hrest]
      by_cases ha : a = k
      · subst ha
        have hnone : l.dlookup a = none := List.dlookup_eq_none.mpr hfresh
        simp [hnone, List.dlookup_cons_eq]
      · rw [List.dlookup_cons_ne _ _ fun hk => ha hk.symm]
        simp [ha]

/-- A key is met once if it has an entry, and otherwise never. -/
theorem Iteration.filter_run (order : Iteration κ M) (t : Tally κ M) (k : κ) :
    (order.run t).filter (fun x => x.1 = k) = (t.lookup k).toList.map fun m => (k, m) := by
  have hperm := (order.perm t).filter fun x => x.1 = k
  rw [filter_entries t.nodupKeys] at hperm
  have hlookup : t.entries.dlookup k = t.lookup k := rfl
  rw [hlookup] at hperm
  cases hk : t.lookup k with
  | none =>
      rw [hk] at hperm
      exact List.perm_nil.mp hperm
  | some m =>
      rw [hk] at hperm
      exact List.perm_singleton.mp hperm

/-! ## Additions -/

/-- The running total of the amounts of a key. -/
def runningTotal [Add M] (k : κ) : M → List (κ × M) → M
  | total, [] => total
  | total, x :: xs => runningTotal k (if x.1 = k then total + x.2 else total) xs

theorem runningTotal_of_not_reported [Add M] {total : M} (h : ¬ Reported xs k) :
    runningTotal k total xs = total := by
  induction xs with
  | nil => rfl
  | cons x xs ih =>
      rw [reported_cons, not_or] at h
      rw [runningTotal, if_neg h.1, ih h.2]

variable [Zero M] [Add M] {t : Tally κ M}

/-- Add an amount under a key. -/
def add (t : Tally κ M) (x : κ × M) : Tally κ M := t.insert x.1 ((t.lookup x.1).getD 0 + x.2)

/-- Add amounts one after the other. -/
def addAll (t : Tally κ M) (xs : List (κ × M)) : Tally κ M := xs.foldl add t

/-- The entry of a key is its running total. -/
theorem lookup_addAll :
    (addAll t xs).lookup k =
      if Reported xs k then some (runningTotal k ((t.lookup k).getD 0) xs) else t.lookup k := by
  induction xs generalizing t with
  | nil => rfl
  | cons x xs ih =>
      have hstep : addAll t (x :: xs) = addAll (add t x) xs := rfl
      rw [hstep, ih, runningTotal]
      by_cases hx : x.1 = k
      · subst hx
        have hlookup : (add t x).lookup x.1 = some ((t.lookup x.1).getD 0 + x.2) :=
          AList.lookup_insert t
        rw [hlookup, Option.getD_some, if_pos rfl, if_pos (reported_cons.mpr (.inl rfl))]
        split
        next => rfl
        next hxs => rw [runningTotal_of_not_reported hxs]
      · have hlookup : (add t x).lookup k = t.lookup k :=
          AList.lookup_insert_ne fun hk => hx hk.symm
        have hiff : Reported (x :: xs) k ↔ Reported xs k := by
          rw [reported_cons, or_iff_right hx]
        simp only [hlookup, if_neg hx, hiff]

theorem mem_addAll : k ∈ addAll t xs ↔ Reported xs k ∨ k ∈ t := by
  rw [← AList.lookup_isSome, lookup_addAll, ← AList.lookup_isSome]
  split
  next h => simp [h]
  next h => simp [h]

namespace Iteration

variable (order : Iteration κ M)

/-- The keys of a run of additions, each of them once. -/
theorem keys_addAll (xs : List (κ × M)) :
    ((order.run (addAll ∅ xs)).map Prod.fst).Perm (xs.map Prod.fst).dedup := by
  refine (order.keys_run _).trans ?_
  refine (List.perm_ext_iff_of_nodup (AList.keys_nodup _) (List.nodup_dedup _)).mpr fun k => ?_
  rw [← AList.mem_keys, mem_addAll, List.mem_dedup, or_iff_left (AList.notMem_empty k)]
  rfl

/-- A key of a run of additions is met once, with its running total. -/
theorem filter_addAll (xs : List (κ × M)) (k : κ) :
    (order.run (addAll ∅ xs)).filter (fun x => x.1 = k) =
      if Reported xs k then [(k, runningTotal k 0 xs)] else [] := by
  rw [filter_run, lookup_addAll]
  split
  next => rfl
  next => rfl

end Iteration

end Tally

end Lib
