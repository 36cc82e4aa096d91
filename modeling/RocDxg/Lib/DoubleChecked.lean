import Mathlib.Logic.Function.Basic
import RocDxg.Lib.Monitor
import RocDxg.Lib.Reach

/-!
# Double-checked lookup

Threads look a value up on its first use, and keep it in a cell that they share.  A thread tests
the cell without the lock.  If it is empty, the thread takes the lock, tests the cell again, looks
the value up and stores it.  In the end it tests the cell once more, and uses what is there or falls
back.  One lock is for all cells.

A lookup may fail, and the next thread tries again.  `Once` is what this comes to for a cell in
every interleaving: some lookups that fail and calls that fall back, one lookup that does not
fail, and after that only uses of its value.  Nobody uses an empty cell, although the last test
and the use are two accesses.
-/

namespace Lib.DoubleChecked

open Lib.Monitor (Held)

/-- What a lookup comes to: something to store, which may again be nothing, or the call is given
up. -/
inductive Answer (α : Type w) where
  | stored (v : Option α)
  | abandoned
deriving DecidableEq, Repr

/-- Where a thread is with its call. -/
inductive Stage (σ : Type v) where
  | idle
  /-- At the test without the lock. -/
  | test (c : σ)
  | acquire (c : σ)
  /-- At the test under the lock. -/
  | retest (c : σ)
  | lookup (c : σ)
  /-- At the release of the lock, after which the call may be over. -/
  | release (c : σ) (goOn : Bool)
  /-- At the last test. -/
  | exec (c : σ)
  | use (c : σ)
deriving DecidableEq, Repr

/-- The thread has the lock. -/
def Stage.Inside {σ : Type v} : Stage σ → Prop
  | .retest _ | .lookup _ | .release _ _ => True
  | _ => False

/-- What happens to a cell. -/
inductive Entry (κ : Type u) (σ : Type v) (α : Type w) where
  | looked (k : κ) (c : σ) (v : Option α)
  /-- The call goes through what is in the cell. -/
  | used (k : κ) (c : σ) (v : Option α)
  | fellBack (k : κ) (c : σ)
deriving DecidableEq, Repr

variable {κ : Type u} {σ : Type v} {α : Type w}

/-- The cell that an entry is about. -/
def Entry.cell : Entry κ σ α → σ
  | .looked _ c _ | .used _ c _ | .fellBack _ c => c

/-- The cells, the lock and the threads, with what has happened so far. -/
structure State (κ : Type u) (σ : Type v) (α : Type w) where
  cell : σ → Option α := fun _ => none
  owner : Option κ := none
  stage : κ → Stage σ := fun _ => .idle
  trace : List (Entry κ σ α) := []

/-- A thread begins a call, or takes the next step of its call.  The answer is for the lookup. -/
inductive Event (κ : Type u) (σ : Type v) (α : Type w) where
  | call (k : κ) (c : σ)
  | run (k : κ) (a : Answer α)

namespace State

section Steps

variable [DecidableEq κ] [DecidableEq σ]

/-- The thread goes on. -/
def go (s : State κ σ α) (k : κ) (stage : Stage σ) : State κ σ α :=
  { s with stage := Function.update s.stage k stage }

/-- The thread looks a value up. -/
def look (s : State κ σ α) (k : κ) (c : σ) : Answer α → State κ σ α
  | .stored v => { s.go k (.release c true) with
      cell := Function.update s.cell c v
      trace := s.trace ++ [.looked k c v] }
  | .abandoned => { s.go k (.release c false) with
      trace := s.trace ++ [.looked k c none, .fellBack k c] }

/-- The next step of a call. -/
def run (s : State κ σ α) (k : κ) (a : Answer α) : Option (State κ σ α) :=
  match s.stage k with
  | .idle => none
  | .test c => some (s.go k (if (s.cell c).isNone then .acquire c else .exec c))
  | .acquire c => if s.owner.isNone then some { s.go k (.retest c) with owner := some k } else none
  | .retest c => some (s.go k (if (s.cell c).isNone then .lookup c else .release c true))
  | .lookup c => some (s.look k c a)
  | .release c goOn => some { s.go k (if goOn then .exec c else .idle) with owner := none }
  | .exec c =>
      if (s.cell c).isNone then some { s.go k .idle with trace := s.trace ++ [.fellBack k c] }
      else some (s.go k (.use c))
  | .use c => some { s.go k .idle with trace := s.trace ++ [.used k c (s.cell c)] }

/-- One step. -/
def step (s : State κ σ α) : Event κ σ α → Option (State κ σ α)
  | .call k c => if s.stage k = .idle then some (s.go k (.test c)) else none
  | .run k a => s.run k a

end Steps

end State

/-! ## What happens to a cell -/

/-- Nothing comes of it. -/
def Entry.Futile : Entry κ σ α → Prop
  | .looked _ _ v => v = none
  | .used _ _ _ => False
  | .fellBack _ _ => True

/-- As long as the cell is empty, nothing has come of anything.  A full cell was filled by one
lookup, and everything after that is a use of its value. -/
def Once (c : σ) : Option α → List (Entry κ σ α) → Prop
  | none, l => ∀ e ∈ l, e.Futile
  | some v, l => ∃ before k after, l = before ++ .looked k c (some v) :: after ∧
      (∀ e ∈ before, e.Futile) ∧ ∀ e ∈ after, ∃ k', e = .used k' c (some v)

section Once

variable {c : σ} {l : List (Entry κ σ α)} {v : α}

theorem Once.futile {e : Entry κ σ α} (h : Once c none l) (he : e.Futile) :
    Once c none (l ++ [e]) := by
  intro x hx
  rcases List.mem_append.mp hx with hold | hnew
  · exact h x hold
  · rw [List.mem_singleton.mp hnew]
    exact he

theorem Once.fill (h : Once c none l) (k : κ) (v : Option α) : Once c v (l ++ [.looked k c v]) := by
  cases v with
  | none => exact h.futile rfl
  | some v => exact ⟨l, k, [], rfl, h, fun _ he => absurd he List.not_mem_nil⟩

theorem Once.use (h : Once c (some v) l) (k : κ) : Once c (some v) (l ++ [.used k c (some v)]) := by
  obtain ⟨before, k', after, rfl, hbefore, hafter⟩ := h
  refine ⟨before, k', after ++ [.used k c (some v)], by simp, hbefore, fun e he => ?_⟩
  rcases List.mem_append.mp he with hold | hnew
  · exact hafter e hold
  · exact ⟨k, List.mem_singleton.mp hnew⟩

end Once

/-- More happens to one cell, and the rest of the trace is as before. -/
theorem once_append [DecidableEq σ] {cell : σ → Option α} {trace new : List (Entry κ σ α)} {c : σ}
    (h : ∀ c, Once c (cell c) (trace.filter fun e => e.cell = c)) (hnew : ∀ e ∈ new, e.cell = c)
    {v : Option α} (hc : Once c v ((trace.filter fun e => e.cell = c) ++ new)) (c' : σ) :
    Once c' (Function.update cell c v c') ((trace ++ new).filter fun e => e.cell = c') := by
  rw [List.filter_append]
  by_cases hcc : c' = c
  · subst hcc
    rw [Function.update_self, List.filter_eq_self.mpr fun e he => decide_eq_true (hnew e he)]
    exact hc
  · have hnone : new.filter (fun e => e.cell = c') = [] := by
      refine List.filter_eq_nil_iff.mpr fun e he => ?_
      rw [hnew e he, decide_eq_true_eq]
      exact fun heq => hcc heq.symm
    rw [Function.update_of_ne hcc, hnone, List.append_nil]
    exact h c'

/-! ## The invariant -/

/-- The lock is held by the thread that is inside, which is the only one that fills a cell; and a
cell that was found full stays as it is. -/
structure Sound [DecidableEq σ] (s : State κ σ α) : Prop where
  held : Held s.owner fun k => (s.stage k).Inside
  empty : ∀ k c, s.stage k = .lookup c → s.cell c = none
  full : ∀ k c, s.stage k = .use c → s.cell c ≠ none
  once : ∀ c, Once c (s.cell c) (s.trace.filter fun e => e.cell = c)

theorem sound_start [DecidableEq σ] : Sound ({} : State κ σ α) where
  held := fun k => iff_of_false (fun h => by cases h) id
  empty := fun k c h => by cases h
  full := fun k c h => by cases h
  once := fun c e he => absurd he List.not_mem_nil

theorem go_stage [DecidableEq κ] (s : State κ σ α) (k j : κ) (stage : Stage σ) :
    (s.go k stage).stage j = if j = k then stage else s.stage j := by
  by_cases hj : j = k
  · rw [if_pos hj, hj]
    exact Function.update_self ..
  · rw [if_neg hj]
    exact Function.update_of_ne hj ..

section Sound

variable [DecidableEq κ] [DecidableEq σ] {s s' : State κ σ α} {k : κ}

/-- The thread goes on without the lock or with it. -/
theorem Sound.go (S : Sound s) {stage : Stage σ} (hinside : (s.stage k).Inside ↔ stage.Inside)
    (hempty : ∀ c, stage = .lookup c → s.cell c = none)
    (hfull : ∀ c, stage = .use c → s.cell c ≠ none) : Sound (s.go k stage) where
  held := by
    refine S.held.congr fun j => ?_
    rw [go_stage]
    split
    next hj => rw [hj, hinside]
    next => exact Iff.rfl
  empty j c h := by
    rw [go_stage] at h
    split at h
    · exact hempty c h
    · exact S.empty j c h
  full j c h := by
    rw [go_stage] at h
    split at h
    · exact hfull c h
    · exact S.full j c h
  once := S.once

/-- The thread goes on, and something has happened to a cell that keeps its value. -/
theorem Sound.log (S : Sound s) {stage : Stage σ} (hinside : (s.stage k).Inside ↔ stage.Inside)
    (hempty : ∀ c, stage ≠ .lookup c) (hfull : ∀ c, stage ≠ .use c)
    {new : List (Entry κ σ α)} {c : σ} (hnew : ∀ e ∈ new, e.cell = c)
    (hc : Once c (s.cell c) ((s.trace.filter fun e => e.cell = c) ++ new)) :
    Sound { s.go k stage with trace := s.trace ++ new } := by
  have S' := S.go hinside (fun c h => absurd h (hempty c)) fun c h => absurd h (hfull c)
  refine ⟨S'.held, S'.empty, S'.full, fun c' => ?_⟩
  have hall := once_append S.once hnew hc c'
  rw [Function.update_eq_self] at hall
  exact hall

/-- The thread with the lock fills the cell, which nobody uses yet. -/
theorem Sound.fill (S : Sound s) {c : σ} (hstage : s.stage k = .lookup c) (v : Option α) :
    Sound { s.go k (.release c true) with
      cell := Function.update s.cell c v, trace := s.trace ++ [.looked k c v] } := by
  have hcell := S.empty k c hstage
  have hinside : (s.stage k).Inside := by
    rw [hstage]
    trivial
  have S' : Sound (s.go k (.release c true)) :=
    S.go (iff_of_true hinside trivial) (fun c h => (by cases h)) fun c h => by cases h
  refine ⟨S'.held, fun j c' hj => ?_, fun j c' hj => ?_, once_append S.once ?_ ?_⟩
  · -- another thread at its lookup would have the lock as well
    have hj' : (s.go k (.release c true)).stage j = .lookup c' := hj
    rw [go_stage] at hj'
    split at hj'
    next => cases hj'
    next hne =>
      have hother : (s.stage j).Inside := by
        rw [hj']
        trivial
      exact absurd (S.held.exclusive hother hinside) hne
  · have hfull := S'.full j c' hj
    show Function.update s.cell c v c' ≠ none
    by_cases hcc : c' = c
    · exact absurd (hcc ▸ hcell) hfull
    · rw [Function.update_of_ne hcc]
      exact hfull
  · exact fun e he => by rw [List.mem_singleton.mp he]; rfl
  · have honce := S.once c
    rw [hcell] at honce
    exact honce.fill k v

theorem Sound.look (S : Sound s) {c : σ} (hstage : s.stage k = .lookup c) (a : Answer α) :
    Sound (s.look k c a) := by
  cases a with
  | stored v => exact S.fill hstage v
  | abandoned =>
      have honce := S.once c
      rw [S.empty k c hstage] at honce
      refine S.log (by rw [hstage]; exact Iff.rfl) (by simp) (by simp) (c := c) ?_ ?_
      · intro e he
        rcases List.mem_cons.mp he with rfl | he
        · rfl
        · rw [List.mem_singleton.mp he]
          rfl
      · rw [S.empty k c hstage]
        have hlooked := honce.futile (e := .looked k c none) rfl
        have hboth := hlooked.futile (e := .fellBack k c) trivial
        rw [List.append_assoc] at hboth
        exact hboth

/-- The test without the lock. -/
theorem Sound.test (S : Sound s) {c : σ} (hstage : s.stage k = .test c) :
    Sound (s.go k (if (s.cell c).isNone then .acquire c else .exec c)) := by
  refine S.go ?_ (fun c' => ?_) fun c' => ?_
  · rw [hstage]
    split <;> exact Iff.rfl
  · split <;> simp
  · split <;> simp

/-- The thread takes the lock, which nobody has. -/
theorem Sound.acquire (S : Sound s) {c : σ} (hfree : s.owner = none) :
    Sound { s.go k (.retest c) with owner := some k } := by
  have H := S.held
  rw [hfree] at H
  refine ⟨H.take fun j => ?_, fun j c' hj => ?_, fun j c' hj => ?_, S.once⟩
  · rw [go_stage]
    by_cases hj : j = k
    · rw [if_pos hj]
      exact iff_of_true trivial (Or.inr hj)
    · rw [if_neg hj, or_iff_left hj]
  · have hj : (s.go k (.retest c)).stage j = .lookup c' := hj
    rw [go_stage] at hj
    split at hj
    · cases hj
    · exact S.empty j c' hj
  · have hj : (s.go k (.retest c)).stage j = .use c' := hj
    rw [go_stage] at hj
    split at hj
    · cases hj
    · exact S.full j c' hj

/-- The test under the lock. -/
theorem Sound.retest (S : Sound s) {c : σ} (hstage : s.stage k = .retest c) :
    Sound (s.go k (if (s.cell c).isNone then .lookup c else .release c true)) := by
  refine S.go ?_ (fun c' h => ?_) fun c' => ?_
  · rw [hstage]
    split <;> exact Iff.rfl
  · split at h
    next hnone =>
      cases h
      exact Option.isNone_iff_eq_none.mp hnone
    next => cases h
  · split <;> simp

/-- The thread gives the lock back. -/
theorem Sound.release (S : Sound s) {c : σ} {goOn : Bool} (hstage : s.stage k = .release c goOn) :
    Sound { s.go k (if goOn then .exec c else .idle) with owner := none } := by
  have hinside : (s.stage k).Inside := by
    rw [hstage]
    trivial
  refine ⟨S.held.give hinside fun j => ?_, fun j c' hj => ?_, fun j c' hj => ?_, S.once⟩
  · rw [go_stage]
    by_cases hj : j = k
    · rw [if_pos hj]
      refine iff_of_false ?_ fun h => h.2 hj
      cases goOn <;> exact id
    · rw [if_neg hj, and_iff_left hj]
  · have hj : (s.go k (if goOn then .exec c else .idle)).stage j = .lookup c' := hj
    rw [go_stage] at hj
    split at hj
    · cases goOn <;> cases hj
    · exact S.empty j c' hj
  · have hj : (s.go k (if goOn then .exec c else .idle)).stage j = .use c' := hj
    rw [go_stage] at hj
    split at hj
    · cases goOn <;> cases hj
    · exact S.full j c' hj

/-- The last test finds the cell empty. -/
theorem Sound.fallBack (S : Sound s) {c : σ} (hstage : s.stage k = .exec c)
    (hnone : s.cell c = none) :
    Sound { s.go k .idle with trace := s.trace ++ [.fellBack k c] } := by
  refine S.log (by rw [hstage]; exact Iff.rfl) (by simp) (by simp) (c := c)
    (fun e he => by rw [List.mem_singleton.mp he]; rfl) ?_
  have honce := S.once c
  rw [hnone] at honce ⊢
  exact honce.futile trivial

/-- The call goes through the cell, which is full. -/
theorem Sound.use (S : Sound s) {c : σ} (hstage : s.stage k = .use c) :
    Sound { s.go k .idle with trace := s.trace ++ [.used k c (s.cell c)] } := by
  obtain ⟨v, hv⟩ := Option.ne_none_iff_exists'.mp (S.full k c hstage)
  refine S.log (by rw [hstage]; exact Iff.rfl) (by simp) (by simp) (c := c)
    (fun e he => by rw [List.mem_singleton.mp he]; rfl) ?_
  have honce := S.once c
  rw [hv] at honce ⊢
  exact honce.use k

theorem Sound.run (S : Sound s) {a : Answer α} (hs : s.run k a = some s') : Sound s' := by
  rw [State.run] at hs
  cases hstage : s.stage k with
  | idle =>
      rw [hstage] at hs
      cases hs
  | test c =>
      rw [hstage] at hs
      cases hs
      exact S.test hstage
  | acquire c =>
      rw [hstage] at hs
      simp only at hs
      split at hs
      next hfree =>
        cases hs
        exact S.acquire (Option.isNone_iff_eq_none.mp hfree)
      next => cases hs
  | retest c =>
      rw [hstage] at hs
      cases hs
      exact S.retest hstage
  | lookup c =>
      rw [hstage] at hs
      cases hs
      exact S.look hstage a
  | release c goOn =>
      rw [hstage] at hs
      cases hs
      exact S.release hstage
  | exec c =>
      rw [hstage] at hs
      simp only at hs
      split at hs
      next hnone =>
        cases hs
        exact S.fallBack hstage (Option.isNone_iff_eq_none.mp hnone)
      next hsome =>
        cases hs
        refine S.go (by rw [hstage]; exact Iff.rfl) (fun c' h => (by cases h)) fun c' h => ?_
        cases h
        exact fun hnone => hsome (Option.isNone_iff_eq_none.mpr hnone)
  | use c =>
      rw [hstage] at hs
      cases hs
      exact S.use hstage

theorem Sound.step (S : Sound s) {e : Event κ σ α} (hs : s.step e = some s') : Sound s' := by
  cases e with
  | call k c =>
      rw [State.step] at hs
      split at hs
      next hidle =>
        cases hs
        exact S.go (by rw [hidle]; exact Iff.rfl) (fun c' h => (by cases h)) fun c' h => by cases h
      next => cases hs
  | run k a => exact S.run hs

/-- Whatever the order of the accesses, each cell is filled once at most. -/
theorem sound_of_reach {ok : State κ σ α → Event κ σ α → Prop} (h : Reach State.step ok {} s) :
    Sound s :=
  h.invariant sound_start fun _ _ _ S _ hs => S.step hs

end Sound

end Lib.DoubleChecked
