import Mathlib.Data.List.Induction

/-!
# Separators in a sequence

A sequence of items, some of which are marks and some of which are separators.
Two parts `A` and `B` of it that follow one another are separated when a separator
stands between each mark of `A` and each mark of `B`.  That is so exactly if `A` has
a separator after its last mark, or `B` one before its first, or one of them has no
mark.  `dirty` and `bare` compute the two halves in one pass.
-/

namespace Lib

variable {α : Type u} (mark sep : α → Bool)

/-- Between each mark of `A` and each mark of `B` stands a separator. -/
def Separated (A B : List α) : Prop :=
  ∀ A₁ a A₂ B₁ b B₂, A = A₁ ++ a :: A₂ → B = B₁ ++ b :: B₂ → mark a = true → mark b = true →
    ∃ c, (c ∈ A₂ ∨ c ∈ B₁) ∧ sep c = true

/-- A mark has been seen and no separator after it, from a state `s`. -/
def dirty (s : Bool) : List α → Bool
  | [] => s
  | a :: as => dirty (if mark a then true else if sep a then false else s) as

/-- A mark comes before any separator. -/
def bare : List α → Bool
  | [] => false
  | a :: as => if mark a then true else if sep a then false else bare as

variable {mark sep}

theorem dirty_append (s : Bool) (A B : List α) :
    dirty mark sep s (A ++ B) = dirty mark sep (dirty mark sep s A) B := by
  induction A generalizing s with
  | nil => rfl
  | cons a A ih => exact ih _

/-- Items that are neither marks nor separators change nothing. -/
theorem dirty_of_plain {s : Bool} {A : List α} (hA : ∀ a ∈ A, mark a = false ∧ sep a = false) :
    dirty mark sep s A = s := by
  induction A with
  | nil => rfl
  | cons a A ih =>
      obtain ⟨hm, hs⟩ := hA a (List.mem_cons_self ..)
      rw [dirty, hm, hs]
      exact ih fun b hb => hA b (List.mem_cons_of_mem a hb)

theorem bare_append_of_plain {A B : List α} (hA : ∀ a ∈ A, mark a = false ∧ sep a = false) :
    bare mark sep (A ++ B) = bare mark sep B := by
  induction A with
  | nil => rfl
  | cons a A ih =>
      obtain ⟨hm, hs⟩ := hA a (List.mem_cons_self ..)
      rw [List.cons_append, bare, hm, hs]
      exact ih fun b hb => hA b (List.mem_cons_of_mem a hb)

/-- Without a separator a mark that was seen stays in sight. -/
theorem dirty_of_no_sep {A : List α} (hA : ∀ a ∈ A, sep a = false) :
    dirty mark sep true A = true := by
  induction A with
  | nil => rfl
  | cons a A ih =>
      rw [dirty, hA a (List.mem_cons_self ..)]
      simp only [Bool.false_eq_true, if_false, ite_self]
      exact ih fun b hb => hA b (List.mem_cons_of_mem a hb)

/-- Without a separator before it a mark is the first or after another. -/
theorem bare_of_no_sep {B₁ B₂ : List α} {b : α} (hB : ∀ a ∈ B₁, sep a = false)
    (hb : mark b = true) : bare mark sep (B₁ ++ b :: B₂) = true := by
  induction B₁ with
  | nil =>
      rw [List.nil_append, bare, if_pos hb]
  | cons a B₁ ih =>
      rw [List.cons_append, bare, hB a (List.mem_cons_self ..)]
      split
      · rfl
      · exact ih fun c hc => hB c (List.mem_cons_of_mem a hc)

/-- `dirty` finds the last mark. -/
theorem dirty_iff {A : List α} :
    dirty mark sep false A = true ↔ ∃ A₁ a A₂, A = A₁ ++ a :: A₂ ∧ mark a = true ∧
      ∀ c ∈ A₂, mark c = false ∧ sep c = false := by
  constructor
  · -- by induction from the end: the last item decides, or leaves it to the ones before
    induction A using List.reverseRecOn with
    | nil => exact fun h => absurd h Bool.false_ne_true
    | append_singleton A x ih =>
        intro h
        rw [dirty_append, dirty, dirty] at h
        split at h
        next hm => exact ⟨A, x, [], rfl, hm, fun c hc => absurd hc List.not_mem_nil⟩
        next hm =>
          split at h
          next => exact absurd h Bool.false_ne_true
          next hs =>
            obtain ⟨A₁, a, A₂, rfl, ha, hplain⟩ := ih h
            refine ⟨A₁, a, A₂ ++ [x], by simp, ha, ?_⟩
            intro c hc
            cases List.mem_append.mp hc with
            | inl hmem => exact hplain c hmem
            | inr hmem =>
                rw [List.mem_singleton.mp hmem]
                exact ⟨Bool.eq_false_iff.mpr hm, Bool.eq_false_iff.mpr hs⟩
  · intro h
    obtain ⟨A₁, a, A₂, rfl, ha, hplain⟩ := h
    rw [dirty_append, dirty, if_pos ha]
    exact dirty_of_no_sep fun c hc => (hplain c hc).2

/-- `bare` finds the first mark. -/
theorem bare_iff {B : List α} :
    bare mark sep B = true ↔ ∃ B₁ b B₂, B = B₁ ++ b :: B₂ ∧ mark b = true ∧
      ∀ c ∈ B₁, mark c = false ∧ sep c = false := by
  constructor
  · induction B with
    | nil => exact fun h => absurd h Bool.false_ne_true
    | cons x B ih =>
        intro h
        rw [bare] at h
        split at h
        next hm => exact ⟨[], x, B, rfl, hm, fun c hc => absurd hc List.not_mem_nil⟩
        next hm =>
          split at h
          next => exact absurd h Bool.false_ne_true
          next hs =>
            obtain ⟨B₁, b, B₂, rfl, hb, hplain⟩ := ih h
            refine ⟨x :: B₁, b, B₂, rfl, hb, ?_⟩
            intro c hc
            cases List.mem_cons.mp hc with
            | inl heq =>
                rw [heq]
                exact ⟨Bool.eq_false_iff.mpr hm, Bool.eq_false_iff.mpr hs⟩
            | inr hmem => exact hplain c hmem
  · intro h
    obtain ⟨B₁, b, B₂, rfl, hb, hplain⟩ := h
    exact bare_of_no_sep (fun c hc => (hplain c hc).2) hb

/-- Two parts are separated unless a mark is in sight across the cut. -/
theorem separated_iff {A B : List α} : Separated mark sep A B ↔
    ¬ (dirty mark sep false A = true ∧ bare mark sep B = true) := by
  constructor
  · intro hsep h
    obtain ⟨A₁, a, A₂, hA, ha, hA₂⟩ := dirty_iff.mp h.1
    obtain ⟨B₁, b, B₂, hB, hb, hB₁⟩ := bare_iff.mp h.2
    obtain ⟨c, hc, hs⟩ := hsep A₁ a A₂ B₁ b B₂ hA hB ha hb
    cases hc with
    | inl hmem => exact Bool.false_ne_true ((hA₂ c hmem).2.symm.trans hs)
    | inr hmem => exact Bool.false_ne_true ((hB₁ c hmem).2.symm.trans hs)
  · intro h A₁ a A₂ B₁ b B₂ hA hB ha hb
    by_contra hno
    have hnone : ∀ c, c ∈ A₂ ∨ c ∈ B₁ → sep c = false := by
      intro c hc
      cases hs : sep c with
      | false => rfl
      | true => exact absurd ⟨c, hc, hs⟩ hno
    apply h
    constructor
    · rw [hA, dirty_append, dirty, if_pos ha]
      exact dirty_of_no_sep fun c hc => hnone c (Or.inl hc)
    · rw [hB]
      exact bare_of_no_sep (fun c hc => hnone c (Or.inr hc)) hb

end Lib
