import Mathlib.Logic.Function.Basic
import Mathlib.Logic.Relation

/-!
# A worker that sleeps under a lock

A worker and its clients share a state, a mutex and a condition variable.  The worker takes the
mutex, looks at the state piece by piece, and goes to sleep when what it has seen is enough to
say that there is nothing to do.  A client changes the state with or without the mutex, and
notifies later.

The classical argument against a lost notification is in `Sound`.  While the worker looks, only a
client that has not held the mutex since its change can have spoilt what was seen.  While the
worker sleeps, every client that has something to tell is still on its way to the notification.
So a client that changes the state without the mutex must take it once, even if only to release it
again, before it notifies.

The state and the evidence of the worker are arbitrary.  A system instantiates the module by a
view of its states as `State`s under which each of its steps is a `Step` or changes nothing.
-/

namespace Lib.Monitor

variable {κ : Type u} {σ : Type v} {E : Type w}

/-- What a client still has to do about its changes. -/
inductive Stage where
  /-- All of them have been announced. -/
  | quiet
  /-- It has not held the mutex since the last one. -/
  | stale
  /-- It holds or held the mutex after the last one, and has not notified. -/
  | owes
deriving DecidableEq, Repr

/-- Where the worker is: without the mutex, looking at the state with it, or asleep. -/
inductive Phase (E : Type w) where
  | away
  | looking (seen : E)
  | asleep
deriving DecidableEq, Repr

/-- Who holds the mutex. -/
inductive Owner (κ : Type u) where
  | worker
  | client (k : κ)
deriving DecidableEq, Repr

/-- The shared state, the mutex, the clients and the worker. -/
structure State (κ : Type u) (σ : Type v) (E : Type w) where
  shared : σ
  owner : Option (Owner κ)
  stage : κ → Stage
  phase : Phase E

/-- What the worker looks for.  `Shows e s` says that the evidence `e` is right about the state,
and `Enough e` that it lets the worker sleep. -/
structure Watch (σ : Type v) (E : Type w) where
  Idle : σ → Prop
  Shows : E → σ → Prop
  Enough : E → Prop
  nothing : E
  shows_nothing : ∀ s, Shows nothing s
  idle : ∀ e s, Shows e s → Enough e → Idle s

/-- A client that gets the mutex has its changes before every later look. -/
def Stage.lock : Stage → Stage
  | .stale => .owes
  | stage => stage

/-- A notification announces the changes before the mutex was last held. -/
def Stage.notify : Stage → Stage
  | .owes => .quiet
  | stage => stage

/-- The worker changes the state itself, and forgets what it saw. -/
def Phase.forget (W : Watch σ E) : Phase E → Phase E
  | .looking _ => .looking W.nothing
  | phase => phase

/-- A notification wakes the worker. -/
def Phase.wake : Phase E → Phase E
  | .asleep => .away
  | phase => phase

/-! ## The mutex -/

/-- The mutex is with the one who is in its critical section. -/
def Held {ι : Type u} (owner : Option ι) (Inside : ι → Prop) : Prop :=
  ∀ o, owner = some o ↔ Inside o

section Mutex

variable {ι : Type u} {owner : Option ι} {Inside Inside' : ι → Prop} {o o' : ι}

/-- Two are never inside at once. -/
theorem Held.exclusive (H : Held owner Inside) (h : Inside o) (h' : Inside o') : o = o' :=
  Option.some.inj (((H o).mpr h).symm.trans ((H o').mpr h'))

theorem Held.congr (H : Held owner Inside) (hsame : ∀ o, Inside' o ↔ Inside o) :
    Held owner Inside' := fun o => (H o).trans (hsame o).symm

/-- Somebody takes the mutex. -/
theorem Held.take (H : Held none Inside) (htake : ∀ o', Inside' o' ↔ Inside o' ∨ o' = o) :
    Held (some o) Inside' := by
  intro o'
  have hfree : ¬ Inside o' := fun h => by cases (H o').mpr h
  rw [htake, Option.some.injEq, or_iff_right hfree]
  exact eq_comm

/-- The one inside gives it back. -/
theorem Held.give (H : Held owner Inside) (h : Inside o)
    (hgive : ∀ o', Inside' o' ↔ Inside o' ∧ o' ≠ o) : Held none Inside' := by
  intro o'
  rw [hgive]
  exact iff_of_false (fun h => by cases h) fun ⟨h', hne⟩ => hne (H.exclusive h' h)

end Mutex

/-! ## What is known -/

/-- What is known where the worker is. -/
def Known (W : Watch σ E) (s : State κ σ E) : Phase E → Prop
  | .away => True
  | .looking e => (∀ k, s.stage k ≠ .stale) → W.Shows e s.shared
  | .asleep => (∀ k, s.stage k = .quiet) → W.Idle s.shared

/-- The mutex is the worker's while it looks, and no notification is lost. -/
structure Sound (W : Watch σ E) (s : State κ σ E) : Prop where
  held : s.owner = some .worker ↔ ∃ e, s.phase = .looking e
  known : Known W s s.phase

variable {W : Watch σ E} {s s' : State κ σ E}

/-- The worker has not begun, and nobody has the mutex. -/
theorem sound_away (hfree : s.owner = none) (haway : s.phase = .away) : Sound W s where
  held := by simp [hfree, haway]
  known := by
    rw [haway]
    trivial

/-- The worker does not look while another has the mutex. -/
theorem Sound.not_looking (S : Sound W s) (hother : s.owner ≠ some .worker) (e : E) :
    s.phase ≠ .looking e := fun he => hother (S.held.mpr ⟨e, he⟩)

/-- A notification takes no stage to `stale` and none from it. -/
theorem Stage.notify_eq_stale {stage : Stage} : stage.notify = .stale ↔ stage = .stale := by
  cases stage <;> simp [Stage.notify]

theorem Phase.wake_eq_looking {phase : Phase E} {e : E} :
    phase.wake = .looking e ↔ phase = .looking e := by
  cases phase <;> simp [Phase.wake]

theorem Phase.forget_eq_looking {phase : Phase E} :
    (∃ e, phase.forget W = .looking e) ↔ ∃ e, phase = .looking e := by
  cases phase <;> simp [Phase.forget]

/-- What is known stays known if the clients and the state change so that it may. -/
theorem Known.mono {phase : Phase E} (h : Known W s phase)
    (hlook : ∀ e, phase = .looking e → (∀ k, s'.stage k ≠ .stale) →
      (∀ k, s.stage k ≠ .stale) ∧ (W.Shows e s.shared → W.Shows e s'.shared))
    (hsleep : phase = .asleep → (∀ k, s'.stage k = .quiet) →
      (∀ k, s.stage k = .quiet) ∧ (W.Idle s.shared → W.Idle s'.shared)) : Known W s' phase := by
  cases phase with
  | away => trivial
  | looking e =>
      intro hstale
      obtain ⟨hbefore, hshows⟩ := hlook e rfl hstale
      exact hshows (h hbefore)
  | asleep =>
      intro hquiet
      obtain ⟨hbefore, hidle⟩ := hsleep rfl hquiet
      exact hidle (h hbefore)

/-- A client that has something to tell excuses everything. -/
theorem Known.of_change {k : κ} {phase : Phase E} {stage : Stage} (hk : s'.stage k = stage)
    (hne : stage ≠ .quiet) (hlook : (∃ e, phase = .looking e) → stage = .stale) :
    Known W s' phase := by
  cases phase with
  | away => trivial
  | looking e => exact fun h => absurd (hk.trans (hlook ⟨e, rfl⟩)) (h k)
  | asleep => exact fun h => absurd (hk.symm.trans (h k)) hne

/-- No notification is lost: if the worker sleeps although there is something to do, a client is
on its way to the notification. -/
theorem Sound.idle (S : Sound W s) (hasleep : s.phase = .asleep) (hquiet : ∀ k, s.stage k = .quiet) :
    W.Idle s.shared := by
  have hknown := S.known
  rw [hasleep] at hknown
  exact hknown hquiet

/-! ## The steps -/

section Steps

variable [DecidableEq κ]

/-- A step of the worker, of a client or of the environment. -/
inductive Step (W : Watch σ E) : State κ σ E → State κ σ E → Prop
  | work {s : State κ σ E} (shared : σ) : s.phase ≠ .asleep →
      Step W s { s with shared := shared, phase := s.phase.forget W }
  | acquire {s : State κ σ E} : s.phase = .away → s.owner = none →
      Step W s { s with owner := some .worker, phase := .looking W.nothing }
  | look {s : State κ σ E} {e : E} (e' : E) : s.phase = .looking e →
      (W.Shows e s.shared → W.Shows e' s.shared) → Step W s { s with phase := .looking e' }
  | release {s : State κ σ E} {e : E} : s.phase = .looking e →
      Step W s { s with owner := none, phase := .away }
  | sleep {s : State κ σ E} {e : E} : s.phase = .looking e → W.Enough e →
      Step W s { s with owner := none, phase := .asleep }
  /-- The worker wakes up without being notified. -/
  | spurious {s : State κ σ E} : s.phase = .asleep → Step W s { s with phase := .away }
  | environment {s : State κ σ E} (shared : σ) :
      (∀ e, W.Shows e s.shared → W.Shows e shared) → (W.Idle s.shared → W.Idle shared) →
      Step W s { s with shared := shared }
  | change {s : State κ σ E} (k : κ) (shared : σ) :
      Step W s { s with
        shared := shared
        stage := Function.update s.stage k
          (if s.owner = some (.client k) then .owes else .stale) }
  | lock {s : State κ σ E} (k : κ) : s.owner = none →
      Step W s { s with
        owner := some (.client k)
        stage := Function.update s.stage k (s.stage k).lock }
  | unlock {s : State κ σ E} (k : κ) : s.owner = some (.client k) →
      Step W s { s with owner := none }
  | notify {s : State κ σ E} (k : κ) :
      Step W s { s with
        stage := Function.update s.stage k (s.stage k).notify
        phase := s.phase.wake }

/-- A worker that does not look may do anything. -/
theorem Step.of_away (haway : s.phase = .away) (shared : σ) :
    Step W s { s with shared := shared } := by
  obtain ⟨shared₀, owner, stage, phase⟩ := s
  subst haway
  exact .work shared fun h => by cases h

/-- A step keeps the invariant. -/
theorem Sound.step (S : Sound W s) (h : Step W s s') : Sound W s' := by
  cases h with
  | work shared hawake =>
      refine ⟨S.held.trans Phase.forget_eq_looking.symm, ?_⟩
      show Known W _ (s.phase.forget W)
      cases hphase : s.phase with
      | away => trivial
      | looking e => exact fun _ => W.shows_nothing shared
      | asleep => exact absurd hphase hawake
  | acquire haway hfree => exact ⟨by simp, fun _ => W.shows_nothing _⟩
  | look e' hlooking hshows =>
      have hknown := S.known
      rw [hlooking] at hknown
      exact ⟨by simp [S.held.mpr ⟨_, hlooking⟩], fun hstale => hshows (hknown hstale)⟩
  | release hlooking => exact ⟨by simp, trivial⟩
  | sleep hlooking henough =>
      have hknown := S.known
      rw [hlooking] at hknown
      refine ⟨by simp, fun hquiet => W.idle _ _ (hknown fun k => ?_) henough⟩
      rw [show s.stage k = .quiet from hquiet k]
      exact Stage.noConfusion
  | spurious hasleep =>
      refine ⟨⟨fun howner => ?_, by simp⟩, trivial⟩
      obtain ⟨e, he⟩ := S.held.mp howner
      rw [hasleep] at he
      cases he
  | environment shared hshows hidle =>
      exact ⟨S.held, S.known.mono (fun e _ hstale => ⟨hstale, hshows e⟩)
        fun _ hquiet => ⟨hquiet, hidle⟩⟩
  | change k shared =>
      refine ⟨S.held, Known.of_change (Function.update_self ..) ?_ fun hlooking => ?_⟩
      · split <;> exact Stage.noConfusion
      · rw [S.held.mpr hlooking]
        simp
  | lock k hfree =>
      have hnot := S.not_looking (by simp [hfree])
      refine ⟨⟨by simp, fun ⟨e, he⟩ => absurd he (hnot e)⟩, S.known.mono ?_ fun _ hquiet => ⟨?_, id⟩⟩
      · exact fun e he => absurd he (hnot e)
      · intro j
        have hj := hquiet j
        by_cases hjk : j = k
        · subst hjk
          simp only [Function.update_self] at hj
          cases hstage : s.stage j with
          | quiet => rfl
          | stale => rw [hstage] at hj; cases hj
          | owes => rw [hstage] at hj; cases hj
        · simpa only [Function.update_of_ne hjk] using hj
  | unlock k howner =>
      have hnot := S.not_looking (by simp [howner])
      exact ⟨⟨by simp, fun ⟨e, he⟩ => absurd he (hnot e)⟩,
        S.known.mono (fun e he => absurd he (hnot e)) fun _ hquiet => ⟨hquiet, id⟩⟩
  | notify k =>
      refine ⟨S.held.trans (exists_congr fun e => Phase.wake_eq_looking.symm), ?_⟩
      show Known W _ s.phase.wake
      cases hphase : s.phase with
      | away => trivial
      | asleep => trivial
      | looking e =>
          have hknown := S.known
          rw [hphase] at hknown
          refine fun hstale => hknown fun j hj => hstale j ?_
          by_cases hjk : j = k
          · subst hjk
            simp only [Function.update_self]
            exact Stage.notify_eq_stale.mpr hj
          · simpa only [Function.update_of_ne hjk] using hj

/-- Several steps, as a view of a single one may be. -/
theorem Sound.steps (S : Sound W s) (h : Relation.ReflTransGen (Step W) s s') : Sound W s' := by
  induction h with
  | refl => exact S
  | tail _ hstep ih => exact ih.step hstep

end Steps

end Lib.Monitor
