import RocDxg.Lib.Reach
import RocDxg.VaMgr.Partition

/-!
# Runs of the address manager

A session is a manager together with the results of `Alloc` that have not been
passed to `Free`.  Over every run in which the fixed-address path takes fragments
only at their base, the results are the used fragments of the map, so their
ranges are disjoint and lie in the managed range (`Session.live_separate`).

The condition is needed.  `takeFixed` on the inside of a fragment stores the used
size at the base of the fragment and then overwrites it, so the map has no entry
for the address it returns, and a later merge runs over the gap
(`Session.interior_hint_overlaps`).
-/

namespace RocDxg

namespace VaMgr

open Lib (Reach runAll reach_of_runAll)

/-- A call of the public interface. -/
inductive Call where
  | alloc (bytes align addr : Nat)
  | free (addr : Nat)
deriving DecidableEq, Repr

/-- The calls in scope: sizes and addresses of the managed range, and a size and
alignment whose sum does not wrap. -/
def Admissible (start size : Nat) (m : VaMgr) : Call → Prop
  | .alloc bytes align addr =>
      0 < bytes ∧ bytes ≤ size ∧ bytes + alignUp 64 align m.minAlign < 2 ^ 64 ∧
        (addr = 0 ∨ start ≤ addr ∧ addr < start + size)
  | .free _ => True

/-- The sum inside `AlignUp` does not wrap, and the fixed-address path takes a
fragment only at its base. -/
def Regular (m : VaMgr) : Call → Prop
  | .alloc bytes align addr => align + m.minAlign - 1 < 2 ^ 64 ∧ TakesAtBase m bytes align addr
  | .free _ => True

instance (start size : Nat) (m : VaMgr) : (c : Call) → Decidable (Admissible start size m c)
  | .alloc _ _ _ => inferInstanceAs (Decidable (_ ∧ _))
  | .free _ => inferInstanceAs (Decidable True)

instance (m : VaMgr) : (c : Call) → Decidable (Regular m c)
  | .alloc _ _ _ => inferInstanceAs (Decidable (_ ∧ _))
  | .free _ => inferInstanceAs (Decidable True)

/-- A manager and the ranges it has handed out. -/
structure Session where
  mgr : VaMgr
  live : List (Nat × Nat)

namespace Session

/-- The session of a new manager. -/
def new (start size minAlign : Nat) : Session := ⟨.new start size minAlign, []⟩

/-- One call; `none` when an assertion of the source fails. -/
def step (s : Session) : Call → Option Session
  | .alloc bytes align addr =>
      (s.mgr.alloc bytes align addr).map fun (p, m) =>
        ⟨m, if p = 0 then s.live else (p, bytes) :: s.live⟩
  | .free addr => some ⟨s.mgr.free addr, s.live.filter fun r => r.1 ≠ addr⟩

/-- The ranges are pairwise disjoint and inside `[start, start + size)`. -/
def Separate (start size : Nat) (live : List (Nat × Nat)) : Prop :=
  live.Pairwise (fun r r' => r.1 + r.2 ≤ r'.1 ∨ r'.1 + r'.2 ≤ r.1) ∧
    ∀ r ∈ live, start ≤ r.1 ∧ r.1 + r.2 ≤ start + size

/-- The live ranges are the used fragments of a partition. -/
structure Sound (start size : Nat) (s : Session) : Prop where
  partition : Partition start size s.mgr
  used : ∀ r ∈ s.live, s.mgr.used r.1 = some r.2
  distinct : s.live.Pairwise fun r r' => r.1 ≠ r'.1

variable {start size minAlign : Nat} {s s' : Session}

theorem sound_new (hrange : Managed start size) (halign : 0 < minAlign) :
    Sound start size (new start size minAlign) :=
  ⟨partition_new hrange halign, fun _ h => absurd h List.not_mem_nil, List.Pairwise.nil⟩

theorem Sound.separate (h : Sound start size s) : Separate start size s.live := by
  refine ⟨?_, ?_⟩
  · refine h.distinct.imp_of_mem fun {r r'} hr hr' hne => ?_
    exact h.partition.used_apart (h.used r hr) (h.used r' hr') hne
  · intro r hr
    have := h.partition.used_bounds (h.used r hr)
    exact ⟨this.1, this.2.2⟩

/-- A range that was handed out is not the one an allocation takes. -/
theorem Sound.live_ne {bytes p : Nat} {m' : VaMgr} (h : Sound start size s)
    (T : Takes start size s.mgr bytes p m') {r : Nat × Nat} (hr : r ∈ s.live) : r.1 ≠ p := by
  intro heq
  have hused := h.used r hr
  rw [heq, T.fresh] at hused
  cases hused

theorem Sound.take {bytes p : Nat} {m' : VaMgr} (h : Sound start size s)
    (T : Takes start size s.mgr bytes p m') : Sound start size ⟨m', (p, bytes) :: s.live⟩ := by
  refine ⟨T.partition, ?_, ?_⟩
  · intro r hr
    rw [T.used]
    cases List.mem_cons.mp hr with
    | inl heq =>
        rw [heq]
        exact Function.update_self ..
    | inr hmem =>
        rw [Function.update_of_ne (h.live_ne T hmem)]
        exact h.used r hmem
  · refine List.pairwise_cons.mpr ⟨?_, h.distinct⟩
    intro r hr
    exact (h.live_ne T hr).symm

theorem Sound.release (h : Sound start size s) (addr : Nat) :
    Sound start size ⟨s.mgr.free addr, s.live.filter fun r => r.1 ≠ addr⟩ := by
  obtain ⟨hpart, hused⟩ := free_spec h.partition addr
  refine ⟨hpart, ?_, h.distinct.filter _⟩
  intro r hr
  obtain ⟨hmem, hne⟩ := List.mem_filter.mp hr
  rw [hused, Function.update_of_ne (by simpa using hne)]
  exact h.used r hmem

/-- A regular call is answered, and the session stays sound. -/
theorem step_sound (h : Sound start size s) {c : Call} (hadm : Admissible start size s.mgr c)
    (hreg : Regular s.mgr c) : ∃ s', s.step c = some s' ∧ Sound start size s' := by
  cases c with
  | alloc bytes align addr =>
      obtain ⟨hpos, _, htotal, haddr⟩ := hadm
      have hserve := alloc_serves h.partition ⟨hpos, hreg.1, fun _ => htotal⟩ hreg.2
        (haddr.imp_right And.left)
      obtain ⟨p, m', halloc, hcase⟩ := hserve
      refine ⟨_, by rw [step, halloc]; rfl, ?_⟩
      cases hcase with
      | inl hzero =>
          obtain ⟨rfl, rfl⟩ := hzero
          exact h
      | inr T =>
          simp only [if_neg (Nat.ne_of_gt T.pos)]
          exact h.take T
  | free addr => exact ⟨_, rfl, h.release addr⟩

/-- In every run of regular calls the live ranges are disjoint and inside the
managed range, and no regular call fails an assertion. -/
theorem live_separate (hrange : Managed start size) (halign : 0 < minAlign)
    (h : Reach step (fun s c => Admissible start size s.mgr c ∧ Regular s.mgr c)
      (new start size minAlign) s) :
    Separate start size s.live ∧
      ∀ c, Admissible start size s.mgr c → Regular s.mgr c → (s.step c).isSome = true := by
  have hsound : Sound start size s := by
    refine h.invariant (sound_new hrange halign) ?_
    intro s c s' hs hok hstep
    obtain ⟨s'', hstep', hs''⟩ := step_sound hs hok.1 hok.2
    rw [hstep] at hstep'
    cases hstep'
    exact hs''
  refine ⟨hsound.separate, ?_⟩
  intro c hadm hreg
  obtain ⟨s', hstep, _⟩ := step_sound hsound hadm hreg
  rw [hstep]
  rfl

/-- A run with a split, a fixed address at the base of a fragment and a merge. -/
theorem live_separate_run :
    ∃ s, Reach step (fun s c => Admissible 0x1000 0x10000 s.mgr c ∧ Regular s.mgr c)
        (new 0x1000 0x10000 0x1000) s ∧
      s.live = [(0x3000, 0x800), (0x2000, 0x1000)] ∧ Separate 0x1000 0x10000 s.live := by
  have hrun : (runAll step (fun s c => Admissible 0x1000 0x10000 s.mgr c ∧ Regular s.mgr c)
      (new 0x1000 0x10000 0x1000)
      [.alloc 0x1000 0 0, .alloc 0x1000 0 0x2000, .free 0x1000, .alloc 0x800 0x3000 0]).map live =
        some [(0x3000, 0x800), (0x2000, 0x1000)] := by
    decide
  obtain ⟨s, hs, hlive⟩ := Option.map_eq_some_iff.mp hrun
  have hreach := reach_of_runAll hs
  exact ⟨s, hreach, hlive, (live_separate ⟨by decide, by decide, by decide⟩ (by decide) hreach).1⟩

/-- A fixed address inside a free fragment leads to two live ranges that overlap. -/
theorem interior_hint_overlaps :
    ¬ ∀ s, Reach step (fun s c => Admissible 0x1000 0x10000 s.mgr c) (new 0x1000 0x10000 0x1000) s →
      Separate 0x1000 0x10000 s.live := by
  intro hall
  have hrun : (runAll step (fun s c => Admissible 0x1000 0x10000 s.mgr c)
      (new 0x1000 0x10000 0x1000)
      [.alloc 0x1000 0 0, .alloc 0x1000 0 0x4000, .alloc 0x2000 0 0, .free 0x2000,
        .alloc 0xE000 0 0]).map live =
        some [(0x2000, 0xE000), (0x4000, 0x1000), (0x1000, 0x1000)] := by
    decide
  obtain ⟨s, hs, hlive⟩ := Option.map_eq_some_iff.mp hrun
  have hsep := (hall s (reach_of_runAll hs)).1
  rw [hlive] at hsep
  revert hsep
  decide

end Session

end VaMgr

end RocDxg
