import Mathlib.Data.List.Basic

/-!
# Patches of two entries

A patch overwrites an entry of a list and rewrites the one behind it.  Patches that keep apart do
not disturb one another, whatever their number: `getElem?_patchAll_fst` and
`getElem?_patchAll_snd` say what each leaves behind, and `getElem?_patchAll_of_apart` that nothing
else changes.
-/

namespace Lib

variable {α : Type u} (a : α) (f : α → α)

/-- Overwrite the entry at an index, and rewrite the next one. -/
def patch (l : List α) (i : Nat) : List α := (l.set i a).modify (i + 1) f

/-- The patches at some indices, one after the other. -/
def patchAll (l : List α) (is : List Nat) : List α := is.foldl (patch a f) l

variable {a f} {l : List α} {i j : Nat} {is : List Nat}

theorem length_patch : (patch a f l i).length = l.length := by
  rw [patch, List.length_modify, List.length_set]

theorem length_patchAll : (patchAll a f l is).length = l.length := by
  induction is generalizing l with
  | nil => rfl
  | cons i is ih =>
      rw [patchAll, List.foldl_cons, ← patchAll, ih, length_patch]

theorem getElem?_patch_fst (h : i < l.length) : (patch a f l i)[i]? = some a := by
  rw [patch, List.getElem?_modify_ne _ _ (Nat.succ_ne_self i)]
  exact List.getElem?_set_self h

theorem getElem?_patch_snd : (patch a f l i)[i + 1]? = l[i + 1]?.map f := by
  rw [patch, List.getElem?_modify_eq, List.getElem?_set_ne (Nat.ne_of_lt (Nat.lt_succ_self i))]
  rfl

theorem getElem?_patch_of_ne (hfst : j ≠ i) (hsnd : j ≠ i + 1) : (patch a f l i)[j]? = l[j]? := by
  rw [patch, List.getElem?_modify_ne _ _ hsnd.symm, List.getElem?_set_ne hfst.symm]

/-- Entries that no patch touches are as they were. -/
theorem getElem?_patchAll_of_apart (h : ∀ i ∈ is, j ≠ i ∧ j ≠ i + 1) :
    (patchAll a f l is)[j]? = l[j]? := by
  induction is generalizing l with
  | nil => rfl
  | cons i is ih =>
      rw [patchAll, List.foldl_cons, ← patchAll, ih fun i hi => h i (List.mem_cons_of_mem _ hi)]
      obtain ⟨hfst, hsnd⟩ := h i (List.mem_cons_self ..)
      exact getElem?_patch_of_ne hfst hsnd

/-- The patches are spaced, in the order of their indices. -/
def Spaced (is : List Nat) : Prop := is.Pairwise fun i j => i + 2 ≤ j

theorem Spaced.getElem?_patchAll (h : Spaced is) (hi : i ∈ is) (hlt : i < l.length) :
    (patchAll a f l is)[i]? = some a ∧ (patchAll a f l is)[i + 1]? = l[i + 1]?.map f := by
  induction is generalizing l with
  | nil => cases hi
  | cons i' is ih =>
      obtain ⟨hhead, htail⟩ := List.pairwise_cons.mp h
      rw [patchAll, List.foldl_cons, ← patchAll]
      cases List.mem_cons.mp hi with
      | inl heq =>
          -- the later patches are behind this one
          subst heq
          have hfst : ∀ j ∈ is, i ≠ j ∧ i ≠ j + 1 := fun j hj => by
            have hle := hhead j hj
            omega
          have hsnd : ∀ j ∈ is, i + 1 ≠ j ∧ i + 1 ≠ j + 1 := fun j hj => by
            have hle := hhead j hj
            omega
          rw [getElem?_patchAll_of_apart hfst, getElem?_patchAll_of_apart hsnd]
          exact ⟨getElem?_patch_fst hlt, getElem?_patch_snd⟩
      | inr hmem =>
          have hle := hhead i hmem
          have hrest := ih htail hmem (l := patch a f l i') (by
            rw [length_patch]
            exact hlt)
          rw [getElem?_patch_of_ne (j := i + 1) (by omega) (by omega)] at hrest
          exact hrest

theorem spaced_append {is' : List Nat} (h : Spaced is) (h' : Spaced is')
    (hle : ∀ i ∈ is, ∀ j ∈ is', i + 2 ≤ j) : Spaced (is ++ is') :=
  List.pairwise_append.mpr ⟨h, h', hle⟩

end Lib
