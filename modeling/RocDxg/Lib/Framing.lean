import Mathlib.Data.List.Basic

/-!
# Streams that frame themselves

The first entry of a frame tells how many entries follow it, so a stream of frames needs nothing
else to be taken apart.  `frames_flatten` says that a stream is read as the frames it was made of,
and `flatten_of_frames` that a stream which can be read at all is read to its end.
-/

namespace Lib

variable {α : Type u} (body : α → Option Nat)

/-- A list whose first entry gives the number of the others. -/
def IsFrame (f : List α) : Prop :=
  match f with
  | [] => False
  | a :: rest => body a = some rest.length

/-- Take frames from the front until nothing is left. -/
def frames : List α → Option (List (List α))
  | [] => some []
  | a :: rest =>
      match body a with
      | none => none
      | some n =>
          if n ≤ rest.length then (frames (rest.drop n)).map (fun fs => (a :: rest.take n) :: fs)
          else none
  termination_by l => l.length
  decreasing_by simp only [List.length_drop, List.length_cons]; omega

variable {body} {f : List α} {fs : List (List α)} {l : List α}

theorem isFrame_cons {a : α} {rest : List α} (h : body a = some rest.length) :
    IsFrame body (a :: rest) := h

theorem frames_nil : frames body ([] : List α) = some [] := by rw [frames]

theorem frames_append (h : IsFrame body f) (l : List α) :
    frames body (f ++ l) = (frames body l).map (fun fs => f :: fs) := by
  cases f with
  | nil => exact absurd h id
  | cons a rest =>
      have hbody : body a = some rest.length := h
      rw [List.cons_append, frames, hbody]
      simp only [List.length_append, Nat.le_add_right, if_true, List.drop_left', List.take_left']

/-- A stream of frames is read as these frames. -/
theorem frames_flatten (h : ∀ f ∈ fs, IsFrame body f) : frames body fs.flatten = some fs := by
  induction fs with
  | nil => exact frames_nil
  | cons f fs ih =>
      rw [List.flatten_cons, frames_append (h f (List.mem_cons_self ..)),
        ih fun f' hf' => h f' (List.mem_cons_of_mem _ hf')]
      rfl

/-- The frames that were read are all of the stream. -/
theorem flatten_of_frames (h : frames body l = some fs) : fs.flatten = l := by
  fun_induction frames body l generalizing fs with
  | case1 =>
      cases h
      rfl
  | case2 => cases h
  | case3 a rest n _ hle ih =>
      obtain ⟨fs', hfs', rfl⟩ := Option.map_eq_some_iff.mp h
      rw [List.flatten_cons, ih hfs', List.cons_append, List.take_append_drop]
  | case4 => cases h

end Lib
