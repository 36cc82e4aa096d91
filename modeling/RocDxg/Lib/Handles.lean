import Mathlib.Data.List.Nodup
import Mathlib.Data.List.Perm.Basic

/-!
# Objects behind handles

Two sides speak about objects by their handles.  One gives a handle to each object that it makes,
perhaps with other objects, and the client uses the objects and destroys them.

The giving side is `Honest` if it gives no handle of an object that is open.  The client is
`Orderly` if it names open objects only and destroys none that another one was made with.

What is open is a list of entries, and its order does not matter (`along_perm`).  Clients with
objects of their own do not notice each other: what is orderly among the objects of one client is
orderly among those of all, and leaves those of the others as they are (`frame`).
-/

namespace Lib

/-- A call about objects, with the handle that a new object gets. -/
inductive HandleCall (α : Type u) where
  | create (x : α) (uses : List α)
  | use (xs : List α)
  | destroy (x : α)
deriving DecidableEq, Repr

/-- The objects that are open, each with those it was made with. -/
abbrev OpenObjects (α : Type u) := List (α × List α)

namespace OpenObjects

variable {α : Type u}

/-- The handles of what is open. -/
def handles (s : OpenObjects α) : List α := s.map Prod.fst

/-- Each object has a handle of its own, and what it was made with is open. -/
structure Sound (s : OpenObjects α) : Prop where
  nodup : s.handles.Nodup
  closed : ∀ e ∈ s, ∀ u ∈ e.2, u ∈ s.handles

@[simp] theorem handles_nil : handles ([] : OpenObjects α) = [] := rfl

@[simp] theorem handles_cons (e : α × List α) (s : OpenObjects α) :
    handles (e :: s) = e.1 :: s.handles := rfl

@[simp] theorem handles_append (s t : OpenObjects α) :
    handles (s ++ t) = s.handles ++ t.handles := List.map_append

theorem sound_nil : Sound ([] : OpenObjects α) :=
  ⟨List.nodup_nil, fun _ he => absurd he List.not_mem_nil⟩

/-- Some of the objects are sound if they were made with each other only. -/
theorem Sound.of_append_right {s t : OpenObjects α} (S : Sound (s ++ t))
    (ht : ∀ e ∈ t, ∀ u ∈ e.2, u ∈ t.handles) : Sound t :=
  ⟨((handles_append s t) ▸ S.nodup).of_append_right, ht⟩

theorem Sound.of_append_left {s t : OpenObjects α} (S : Sound (s ++ t))
    (hs : ∀ e ∈ s, ∀ u ∈ e.2, u ∈ s.handles) : Sound s :=
  ⟨((handles_append s t) ▸ S.nodup).of_append_left, hs⟩

variable {s t L R : OpenObjects α} {calls : List (HandleCall α)}

theorem handles_perm (h : s.Perm t) : s.handles.Perm t.handles := h.map _

theorem Sound.perm (S : Sound s) (h : s.Perm t) : Sound t :=
  ⟨(handles_perm h).nodup_iff.mp S.nodup,
    fun e he u hu => (handles_perm h).mem_iff.mp (S.closed e (h.mem_iff.mpr he) u hu)⟩

/-- The handle that is given is not one of an open object. -/
def Fresh (s : OpenObjects α) : HandleCall α → Prop
  | .create x _ => x ∉ s.handles
  | .use _ => True
  | .destroy _ => True

theorem Fresh.of_append {s t : OpenObjects α} {c : HandleCall α} (h : Fresh (s ++ t) c) :
    Fresh s c := by
  cases c with
  | create x uses =>
      rw [Fresh, handles_append] at h
      exact fun hmem => h (List.mem_append_left _ hmem)
  | use xs => exact h
  | destroy x => exact h

/-- The call names open objects, and destroys none that another one was made with. -/
def Allowed (s : OpenObjects α) : HandleCall α → Prop
  | .create _ uses => ∀ u ∈ uses, u ∈ s.handles
  | .use xs => ∀ x ∈ xs, x ∈ s.handles
  | .destroy x => x ∈ s.handles ∧ ∀ e ∈ s, x ∉ e.2

theorem fresh_perm (h : s.Perm t) (c : HandleCall α) : Fresh s c → Fresh t c := by
  cases c with
  | create x uses => exact fun hx hmem => hx ((handles_perm h).mem_iff.mpr hmem)
  | use xs => exact id
  | destroy x => exact id

theorem allowed_perm (h : s.Perm t) (c : HandleCall α) : Allowed s c → Allowed t c := by
  have hmem : ∀ x, x ∈ s.handles ↔ x ∈ t.handles := fun x => (handles_perm h).mem_iff
  cases c with
  | create x uses => exact fun huses u hu => (hmem u).mp (huses u hu)
  | use xs => exact fun hxs x hx => (hmem x).mp (hxs x hx)
  | destroy x =>
      exact fun hx => ⟨(hmem x).mp hx.1, fun e he => hx.2 e (h.mem_iff.mpr he)⟩

variable [DecidableEq α]

/-- What is open after a call. -/
def after (s : OpenObjects α) : HandleCall α → OpenObjects α
  | .create x uses => (x, uses) :: s
  | .use _ => s
  | .destroy x => s.filter fun e => e.1 ≠ x

/-- What is open after some calls. -/
def afterAll (s : OpenObjects α) (calls : List (HandleCall α)) : OpenObjects α :=
  calls.foldl after s

instance (s : OpenObjects α) : (c : HandleCall α) → Decidable (Fresh s c)
  | .create x _ => inferInstanceAs (Decidable (x ∉ s.handles))
  | .use _ => instDecidableTrue
  | .destroy _ => instDecidableTrue

instance (s : OpenObjects α) : (c : HandleCall α) → Decidable (Allowed s c)
  | .create _ uses => inferInstanceAs (Decidable (∀ u ∈ uses, u ∈ s.handles))
  | .use xs => inferInstanceAs (Decidable (∀ x ∈ xs, x ∈ s.handles))
  | .destroy x => inferInstanceAs (Decidable (x ∈ s.handles ∧ ∀ e ∈ s, x ∉ e.2))

/-- Every call meets a condition on what is open at its moment. -/
def Along (P : OpenObjects α → HandleCall α → Prop) :
    OpenObjects α → List (HandleCall α) → Prop
  | _, [] => True
  | s, c :: calls => P s c ∧ Along P (s.after c) calls

instance (P : OpenObjects α → HandleCall α → Prop) [∀ s c, Decidable (P s c)] :
    (s : OpenObjects α) → (calls : List (HandleCall α)) → Decidable (Along P s calls)
  | _, [] => instDecidableTrue
  | s, c :: calls =>
      let _ := instDecidableAlong P (s.after c) calls
      inferInstanceAs (Decidable (_ ∧ _))

/-- No handle of an open object is given. -/
abbrev Honest (s : OpenObjects α) (calls : List (HandleCall α)) : Prop := Along Fresh s calls

/-- Every call is allowed. -/
abbrev Orderly (s : OpenObjects α) (calls : List (HandleCall α)) : Prop := Along Allowed s calls

/-! ## Calls after calls -/

theorem afterAll_append (s : OpenObjects α) (calls calls' : List (HandleCall α)) :
    s.afterAll (calls ++ calls') = (s.afterAll calls).afterAll calls' := List.foldl_append

theorem along_append {P : OpenObjects α → HandleCall α → Prop} {s : OpenObjects α}
    {calls calls' : List (HandleCall α)} :
    Along P s (calls ++ calls') ↔ Along P s calls ∧ Along P (s.afterAll calls) calls' := by
  induction calls generalizing s with
  | nil => exact ⟨fun h => ⟨trivial, h⟩, And.right⟩
  | cons c calls ih =>
      rw [List.cons_append, Along, ih, Along, and_assoc]
      rfl

theorem honest_append {s : OpenObjects α} {calls calls' : List (HandleCall α)} :
    Honest s (calls ++ calls') ↔ Honest s calls ∧ Honest (s.afterAll calls) calls' := along_append

/-- The calls are orderly, and `t` is open after them. -/
structure Leads (s : OpenObjects α) (calls : List (HandleCall α)) (t : OpenObjects α) : Prop where
  orderly : Orderly s calls
  after : s.afterAll calls = t

theorem Leads.nil (s : OpenObjects α) : Leads s [] s := ⟨trivial, rfl⟩

theorem Leads.append {s t u : OpenObjects α} {calls calls' : List (HandleCall α)}
    (h : Leads s calls t) (h' : Leads t calls' u) : Leads s (calls ++ calls') u := by
  obtain ⟨horderly, rfl⟩ := h
  exact ⟨along_append.mpr ⟨horderly, h'.orderly⟩, (afterAll_append ..).trans h'.after⟩

/-- An object is made with open ones. -/
theorem leads_create {s : OpenObjects α} (x : α) {uses : List α} (h : ∀ u ∈ uses, u ∈ s.handles) :
    Leads s [.create x uses] ((x, uses) :: s) := ⟨⟨h, trivial⟩, rfl⟩

/-- An object is made with no other. -/
theorem leads_create_alone (s : OpenObjects α) (x : α) : Leads s [.create x []] ((x, []) :: s) :=
  leads_create x fun _ hu => absurd hu List.not_mem_nil

theorem leads_use {s : OpenObjects α} {xs : List α} (h : ∀ x ∈ xs, x ∈ s.handles) :
    Leads s [.use xs] s := ⟨⟨h, trivial⟩, rfl⟩

/-! ## The order of the entries -/

theorem after_perm (h : s.Perm t) (c : HandleCall α) : (s.after c).Perm (t.after c) := by
  cases c with
  | create x uses => exact h.cons _
  | use xs => exact h
  | destroy x => exact h.filter _

theorem afterAll_perm (h : s.Perm t) (calls : List (HandleCall α)) :
    (s.afterAll calls).Perm (t.afterAll calls) := by
  induction calls generalizing s t with
  | nil => exact h
  | cons c calls ih => exact ih (after_perm h c)

/-- A condition that does not see the order of the entries holds along the same calls. -/
theorem along_perm {P : OpenObjects α → HandleCall α → Prop}
    (hP : ∀ {s t : OpenObjects α}, s.Perm t → ∀ c, P s c → P t c) (h : s.Perm t)
    (hcalls : Along P s calls) : Along P t calls := by
  induction calls generalizing s t with
  | nil => trivial
  | cons c calls ih => exact ⟨hP h c hcalls.1, ih (after_perm h c) hcalls.2⟩

/-! ## Soundness -/

theorem mem_handles_destroy {x u : α} :
    u ∈ handles (s.after (.destroy x)) ↔ u ∈ s.handles ∧ u ≠ x := by
  simp only [handles, after, List.mem_map, List.mem_filter, decide_eq_true_eq]
  constructor
  · rintro ⟨e, ⟨he, hne⟩, rfl⟩
    exact ⟨⟨e, he, rfl⟩, hne⟩
  · rintro ⟨⟨e, he, rfl⟩, hne⟩
    exact ⟨e, ⟨he, hne⟩, rfl⟩

theorem Sound.after (S : Sound s) {c : HandleCall α} (hfresh : Fresh s c) (hallowed : Allowed s c) :
    Sound (s.after c) := by
  cases c with
  | create x uses =>
      refine ⟨List.nodup_cons.mpr ⟨hfresh, S.nodup⟩, fun e he u hu => ?_⟩
      cases List.mem_cons.mp he with
      | inl heq =>
          subst heq
          exact List.mem_cons_of_mem _ (hallowed u hu)
      | inr he => exact List.mem_cons_of_mem _ (S.closed e he u hu)
  | use xs => exact S
  | destroy x =>
      refine ⟨S.nodup.sublist (List.filter_sublist.map _), fun e he u hu => ?_⟩
      have he' := List.mem_of_mem_filter he
      refine mem_handles_destroy.mpr ⟨S.closed e he' u hu, ?_⟩
      rintro rfl
      exact hallowed.2 e he' hu

theorem Sound.afterAll (S : Sound s) (hhonest : Honest s calls) (horderly : Orderly s calls) :
    Sound (s.afterAll calls) := by
  induction calls generalizing s with
  | nil => exact S
  | cons c calls ih => exact ih (S.after hhonest.1 horderly.1) hhonest.2 horderly.2

/-! ## Others -/

theorem destroy_append {x : α} (hx : x ∉ R.handles) :
    after (L ++ R) (.destroy x) = after L (.destroy x) ++ R := by
  have hrest : R.filter (fun e => e.1 ≠ x) = R := by
    refine List.filter_eq_self.mpr fun e he => decide_eq_true ?_
    rintro rfl
    exact hx (List.mem_map_of_mem he)
  rw [after, after, List.filter_append, hrest]

/-- What a client does among its own objects it does among those of all. -/
theorem frame (hR : Sound R) (hdisjoint : ∀ x ∈ L.handles, x ∉ R.handles)
    (hhonest : Honest (L ++ R) calls) (h : Leads L calls t) : Leads (L ++ R) calls (t ++ R) := by
  obtain ⟨horderly, rfl⟩ := h
  induction calls generalizing L with
  | nil => exact .nil _
  | cons c calls ih =>
      obtain ⟨hfresh, hhonest⟩ := hhonest
      obtain ⟨hallowed, horderly⟩ := horderly
      cases c with
      | create x uses =>
          rw [Fresh, handles_append, List.mem_append, not_or] at hfresh
          have hown : ∀ y ∈ handles ((x, uses) :: L), y ∉ R.handles := by
            intro y hy
            cases List.mem_cons.mp hy with
            | inl heq => exact heq ▸ hfresh.2
            | inr hy => exact hdisjoint y hy
          obtain ⟨horderly', hafter⟩ := ih hown hhonest horderly
          refine ⟨⟨fun u hu => ?_, horderly'⟩, hafter⟩
          rw [handles_append]
          exact List.mem_append_left _ (hallowed u hu)
      | use xs =>
          obtain ⟨horderly', hafter⟩ := ih hdisjoint hhonest horderly
          refine ⟨⟨fun x hx => ?_, horderly'⟩, hafter⟩
          rw [handles_append]
          exact List.mem_append_left _ (hallowed x hx)
      | destroy x =>
          have hx := hdisjoint x hallowed.1
          rw [destroy_append hx] at hhonest
          have hown : ∀ y ∈ handles (L.after (.destroy x)), y ∉ R.handles :=
            fun y hy => hdisjoint y (mem_handles_destroy.mp hy).1
          obtain ⟨horderly', hafter⟩ := ih hown hhonest horderly
          refine ⟨⟨⟨?_, fun e he hxe => ?_⟩, ?_⟩, ?_⟩
          · rw [handles_append]
            exact List.mem_append_left _ hallowed.1
          · cases List.mem_append.mp he with
            | inl he => exact hallowed.2 e he hxe
            | inr he => exact hx (hR.closed e he x hxe)
          · rw [destroy_append hx]
            exact horderly'
          · show afterAll (after (L ++ R) (.destroy x)) calls = _
            rw [destroy_append hx]
            exact hafter

/-- The objects of one client change as they would alone, among those of the others. -/
theorem Sound.act (S : Sound s) (hsplit : s.Perm (L ++ R)) (hR : ∀ e ∈ R, ∀ u ∈ e.2, u ∈ R.handles)
    (hhonest : Honest s calls) (h : Leads L calls t) :
    Orderly s calls ∧ (s.afterAll calls).Perm (t ++ R) := by
  have S' := S.perm hsplit
  have hdisjoint : ∀ x ∈ L.handles, x ∉ R.handles := by
    have hnodup := S'.nodup
    rw [handles_append] at hnodup
    exact fun x hx hx' => (List.nodup_append.mp hnodup).2.2 x hx x hx' rfl
  obtain ⟨horderly, hafter⟩ :=
    frame (S'.of_append_right hR) hdisjoint (along_perm fresh_perm hsplit hhonest) h
  exact ⟨along_perm allowed_perm hsplit.symm horderly, hafter ▸ afterAll_perm hsplit calls⟩

/-! ## Giving everything back -/

theorem honest_destroy (s : OpenObjects α) (xs : List α) : Honest s (xs.map .destroy) := by
  induction xs generalizing s with
  | nil => trivial
  | cons x xs ih => exact ⟨trivial, ih _⟩

theorem afterAll_destroy (s : OpenObjects α) (xs : List α) :
    s.afterAll (xs.map .destroy) = s.filter fun e => e.1 ∉ xs := by
  induction xs generalizing s with
  | nil => exact (List.filter_eq_self.mpr fun e _ => by simp).symm
  | cons x xs ih =>
      show (s.after (.destroy x)).afterAll (xs.map .destroy) = _
      rw [ih, after, List.filter_filter]
      refine List.filter_congr fun e _ => ?_
      simp [Bool.and_comm]

/-- Open objects may be destroyed one after the other if each comes after those that were made
with it. -/
theorem orderly_destroy {xs : List α} (hnodup : xs.Nodup) (hopen : ∀ x ∈ xs, x ∈ s.handles)
    (hfirst : ∀ e ∈ s, ∀ u ∈ e.2, ∀ pre post, xs = pre ++ u :: post → e.1 ∈ pre) :
    Orderly s (xs.map .destroy) := by
  induction xs generalizing s with
  | nil => trivial
  | cons x xs ih =>
      obtain ⟨hx, hnodup⟩ := List.nodup_cons.mp hnodup
      refine ⟨⟨hopen x List.mem_cons_self, fun e he hxe => ?_⟩, ih hnodup ?_ ?_⟩
      · exact absurd (hfirst e he x hxe [] xs rfl) List.not_mem_nil
      · intro y hy
        refine mem_handles_destroy.mpr ⟨hopen y (List.mem_cons_of_mem _ hy), ?_⟩
        rintro rfl
        exact hx hy
      · rintro e he u hu pre post rfl
        obtain ⟨he, hne⟩ := List.mem_filter.mp he
        have hmem := hfirst e he u hu (x :: pre) post rfl
        exact (List.mem_cons.mp hmem).resolve_left (of_decide_eq_true hne)

/-- Everything is given back. -/
theorem leads_destroy {xs : List α} (hnodup : xs.Nodup) (hopen : ∀ x, x ∈ xs ↔ x ∈ s.handles)
    (hfirst : ∀ e ∈ s, ∀ u ∈ e.2, ∀ pre post, xs = pre ++ u :: post → e.1 ∈ pre) :
    Leads s (xs.map .destroy) [] := by
  refine ⟨orderly_destroy hnodup (fun x hx => (hopen x).mp hx) hfirst, ?_⟩
  rw [afterAll_destroy]
  refine List.filter_eq_nil_iff.mpr fun e he => ?_
  have hmem := (hopen e.1).mpr (List.mem_map_of_mem he)
  simp [hmem]

end OpenObjects

end Lib
