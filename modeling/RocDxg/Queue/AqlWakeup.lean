import RocDxg.Queue.AqlRing

/-!
# The wake-ups of the thread of a compute queue

`RingDoorbell` takes the lock of the thread and releases it at once, and notifies the thread then.
The empty critical section is what makes the wait safe.  The submitting thread moves the write index
and writes the packet without the lock, so the thread may have compared the indices before and
wait after, and a notification in between would be lost.  With the lock taken after the change,
either the thread compares again, or it waits already when it is notified.

`no_lost_wakeup` states this for any number of submitting threads.  `shutdown` does for the
destructor, whose flag is set under the lock, and says what the thread leaves behind when it ends.
-/

namespace RocDxg

open Lib (Reach runAll reach_of_runAll)
open Lib.Monitor (Held Known Owner Phase Sound Stage State Step Watch sound_away)
open Relation (ReflTransGen)

/-- The thread is in its critical section. -/
def AqlPc.Locked : AqlPc → Prop
  | .test _ | .testPacket | .idle | .release => True
  | _ => False

namespace AqlThread

variable {κ : Type} {s s' : AqlThread κ} {n : Nat}

/-! ## Who has the lock -/

/-- Who is in a critical section. -/
def Inside (s : AqlThread κ) : Owner (QueueClient κ) → Prop
  | .worker => s.pc.Locked
  | .client (.submitter k) => (s.submitters k).bell = .locked
  | .client .destructor => s.teardown = .locked ∨ s.teardown = .stopping

/-- The lock is with the one who is in a critical section. -/
def Locks (s : AqlThread κ) : Prop := Held s.owner s.Inside

theorem locks_start (device : Device) (ringSize : Nat) (ring : Nat → AqlPacket)
    (cmdbufAddr : Nat) : Locks (start device ringSize ring cmdbufAddr : AqlThread κ) := by
  intro o
  cases o with
  | worker => simp [start, Inside, AqlPc.Locked]
  | client c => cases c <;> simp [start, Inside]

/-- A step that enters and leaves no critical section. -/
theorem Locks.congr (H : Locks s) (howner : s'.owner = s.owner)
    (hpc : s'.pc.Locked ↔ s.pc.Locked)
    (hbell : ∀ k, (s'.submitters k).bell = .locked ↔ (s.submitters k).bell = .locked)
    (htear : s'.Inside (.client .destructor) ↔ s.Inside (.client .destructor)) : Locks s' := by
  rw [Locks, howner]
  refine Held.congr H fun o => ?_
  cases o with
  | worker => exact hpc
  | client c =>
      cases c with
      | submitter k => exact hbell k
      | destructor => exact htear

/-- The thread has the lock, or had it. -/
theorem inside_worker_iff (hsubmitters : s'.submitters = s.submitters)
    (htear : s'.teardown = s.teardown) {o : Owner (QueueClient κ)} (ho : o ≠ .worker) :
    s'.Inside o ↔ s.Inside o := by
  cases o with
  | worker => exact absurd rfl ho
  | client c =>
      cases c with
      | submitter k => rw [Inside, Inside, hsubmitters]
      | destructor => rw [Inside, Inside, htear]

/-- The thread gets the lock. -/
theorem Locks.take_worker (H : Locks s) (hfree : s.owner = none) (howner : s'.owner = some .worker)
    (hpc : s'.pc.Locked) (hsubmitters : s'.submitters = s.submitters)
    (htear : s'.teardown = s.teardown) : Locks s' := by
  rw [Locks, hfree] at H
  rw [Locks, howner]
  refine H.take fun o => ?_
  by_cases ho : o = .worker
  · subst ho
    exact iff_of_true hpc (Or.inr rfl)
  · rw [inside_worker_iff hsubmitters htear ho, or_iff_left ho]

/-- The thread leaves the lock. -/
theorem Locks.give_worker (H : Locks s) (hpc : s.pc.Locked) (howner : s'.owner = none)
    (hnot : ¬ s'.pc.Locked) (hsubmitters : s'.submitters = s.submitters)
    (htear : s'.teardown = s.teardown) : Locks s' := by
  rw [Locks, howner]
  refine Held.give H (o := .worker) hpc fun o => ?_
  by_cases ho : o = .worker
  · subst ho
    exact iff_of_false hnot fun h => h.2 rfl
  · rw [inside_worker_iff hsubmitters htear ho, and_iff_left ho]

theorem Locks.thread (H : Locks s) {x : ThreadAnswers} (h : ThreadResult s x s') : Locks s' := by
  -- a step between two places without the lock, or two with it
  have hkept : ∀ s' : AqlThread κ, s'.owner = s.owner → s'.submitters = s.submitters →
      s'.teardown = s.teardown → (s'.pc.Locked ↔ s.pc.Locked) → Locks s' := by
    intro s' howner hsubmitters htear hpc
    refine H.congr howner hpc (fun k => by rw [hsubmitters]) ?_
    rw [Inside, Inside, htear]
  cases h with
  | keepTime hpc =>
      rw [keepTime]
      split <;> exact hkept _ rfl rfl rfl (by rw [hpc]; exact Iff.rfl)
  | run m hpc =>
      refine hkept _ rfl rfl rfl ?_
      rcases hpc with hpc | hpc
      · rw [hpc]
        exact Iff.rfl
      · rw [hpc]
  | acquire hpc hfree | relock hpc hfree => exact H.take_worker hfree rfl trivial rfl rfl
  | exit hpc | wait hpc | release hpc =>
      exact H.give_worker (by rw [hpc]; trivial) rfl id rfl rfl
  | returned hpc | failed hpc | load seen hpc | again seen hpc | toLock seen hpc
  | loadLocked seen hpc | nothing w r hpc | toPacket seen hpc | indices seen hpc | invalid hpc
  | valid hpc | spurious hpc => exact hkept _ rfl rfl rfl (by rw [hpc]; exact Iff.rfl)

theorem locked_notifyOne : s.notifyOne.pc.Locked ↔ s.pc.Locked := by
  rcases s.notifyOne_cases with ⟨heq, _⟩ | ⟨heq, hpc⟩
  · rw [heq]
  · rw [heq, hpc]
    exact Iff.rfl

@[simp] theorem owner_notifyOne : s.notifyOne.owner = s.owner := by
  rw [notifyOne]
  split <;> rfl

@[simp] theorem teardown_notifyOne : s.notifyOne.teardown = s.teardown := by
  rw [notifyOne]
  split <;> rfl

@[simp] theorem threadStop_notifyOne : s.notifyOne.threadStop = s.threadStop := by
  rw [notifyOne]
  split <;> rfl

theorem Locks.notifyOne (H : Locks s) : Locks s.notifyOne :=
  H.congr owner_notifyOne locked_notifyOne (fun k => by rw [submitters_notifyOne])
    (by rw [Inside, Inside, teardown_notifyOne])

/-- The destructor gets or leaves the lock, and everyone else is where they were. -/
theorem inside_destructor_iff (hpc : s'.pc = s.pc) (hsubmitters : s'.submitters = s.submitters)
    {o : Owner (QueueClient κ)} (ho : o ≠ .client .destructor) : s'.Inside o ↔ s.Inside o := by
  cases o with
  | worker => rw [Inside, Inside, hpc]
  | client c =>
      cases c with
      | submitter k => rw [Inside, Inside, hsubmitters]
      | destructor => exact absurd rfl ho

theorem Locks.destroy (H : Locks s) (h : DestroyResult s s') : Locks s' := by
  have hkept : ∀ s' : AqlThread κ, s'.owner = s.owner → s'.submitters = s.submitters →
      s'.pc = s.pc → (s'.Inside (.client .destructor) ↔ s.Inside (.client .destructor)) →
      Locks s' := by
    intro s' howner hsubmitters hpc htear
    exact H.congr howner (by rw [hpc]) (fun k => by rw [hsubmitters]) htear
  cases h with
  | lock _ hfree =>
      rw [Locks, hfree] at H
      refine H.take fun o => ?_
      by_cases ho : o = .client .destructor
      · subst ho
        exact iff_of_true (Or.inl rfl) (Or.inr rfl)
      · rw [or_iff_left ho]
        refine inside_destructor_iff ?_ ?_ ho <;> rfl
  | stop htear => exact hkept _ rfl rfl rfl (iff_of_true (Or.inr rfl) (Or.inl htear))
  | unlock htear =>
      refine Held.give H (o := .client .destructor) (Or.inr htear) fun o => ?_
      by_cases ho : o = .client .destructor
      · subst ho
        exact iff_of_false (by simp [Inside]) fun h => h.2 rfl
      · rw [and_iff_left ho]
        refine inside_destructor_iff ?_ ?_ ho <;> rfl
  | notify htear =>
      refine Locks.notifyOne (hkept _ rfl rfl rfl (iff_of_false ?_ ?_))
      · simp [Inside]
      · simp [Inside, htear]
  | join htear =>
      refine hkept _ rfl rfl rfl (iff_of_false ?_ ?_)
      · simp [Inside]
      · simp [Inside, htear]

theorem Free.not_locked {k : κ} (h : s.Free k) : (s.submitters k).bell ≠ .locked := by
  intro heq
  rw [Free, heq] at h
  rcases h with h | h <;> cases h

section Steps

variable [DecidableEq κ]

theorem bell_setSubmitter (k j : κ) (x : Submitter) :
    ((s.setSubmitter k x).submitters j).bell = if j = k then x.bell else (s.submitters j).bell := by
  show (Function.update s.submitters k x j).bell = _
  by_cases hj : j = k
  · subst hj
    rw [Function.update_self, if_pos rfl]
  · rw [Function.update_of_ne hj, if_neg hj]

/-- A thread goes from one place outside `RingDoorbell`'s critical section to another. -/
theorem locked_setSubmitter {k : κ} {x : Submitter} (hbefore : (s.submitters k).bell ≠ .locked)
    (hafter : x.bell ≠ .locked) (j : κ) :
    ((s.setSubmitter k x).submitters j).bell = .locked ↔ (s.submitters j).bell = .locked := by
  rw [bell_setSubmitter]
  split
  next hj =>
    subst hj
    exact iff_of_false hafter hbefore
  next => rfl

theorem Locks.step (H : Locks s) {e : AqlEvent κ} (h : s.step e = some s') : Locks s' := by
  have hclient : ∀ {k : κ} (x : Submitter) {s' : AqlThread κ}, s'.pc = s.pc →
      s'.submitters = (s.setSubmitter k x).submitters → s'.teardown = s.teardown →
      ∀ o : Owner (QueueClient κ), o ≠ .client (.submitter k) → (s'.Inside o ↔ s.Inside o) := by
    intro k x s' hpc hsubmitters htear o ho
    cases o with
    | worker => rw [Inside, Inside, hpc]
    | client c =>
        cases c with
        | submitter j =>
            rw [Inside, Inside, hsubmitters, bell_setSubmitter, if_neg fun hj => ho (by rw [hj])]
        | destructor => rw [Inside, Inside, htear]
  cases step_result h with
  | reserve k hfree heq | write k _ _ hfree _ _ _ heq =>
      subst heq
      exact H.congr rfl Iff.rfl
        (locked_setSubmitter (s := s) hfree.not_locked fun h => by cases h) Iff.rfl
  | lockDoorbell k hfree howner heq =>
      subst heq
      rw [Locks, howner] at H
      refine H.take fun o => ?_
      by_cases ho : o = .client (.submitter k)
      · subst ho
        refine iff_of_true ?_ (Or.inr rfl)
        show ((s.setSubmitter k _).submitters k).bell = .locked
        rw [bell_setSubmitter, if_pos rfl]
      · rw [or_iff_left ho]
        refine hclient { s.submitters k with bell := .locked } ?_ ?_ ?_ o ho <;> rfl
  | unlockDoorbell k hbell heq =>
      subst heq
      refine Held.give H (o := .client (.submitter k)) hbell fun o => ?_
      by_cases ho : o = .client (.submitter k)
      · subst ho
        refine iff_of_false ?_ fun h => h.2 rfl
        show ¬ ((s.setSubmitter k _).submitters k).bell = .locked
        rw [bell_setSubmitter, if_pos rfl]
        exact fun h => by cases h
      · rw [and_iff_left ho]
        refine hclient { s.submitters k with bell := .unlocked } ?_ ?_ ?_ o ho <;> rfl
  | notifyOne k hbell heq =>
      subst heq
      refine Locks.notifyOne (H.congr rfl Iff.rfl (locked_setSubmitter (s := s) ?_ ?_) Iff.rfl)
      · rw [hbell]
        exact fun h => by cases h
      · exact fun h => by cases h
  | destroy hdestroy => exact H.destroy hdestroy
  | retire _ _ _ _ heq | complete _ _ _ _ heq =>
      subst heq
      exact H.congr rfl Iff.rfl (fun _ => Iff.rfl) Iff.rfl
  | thread x hthread => exact H.thread hthread

end Steps

end AqlThread

/-! ## What the thread looks at -/

/-- The indices, and whether the packet at that of the queue is invalid. -/
structure Glance where
  wptr : Nat
  rptr : Nat
  invalid : Bool

/-- What the thread has seen of them. -/
inductive Seen where
  | loads (seen : Loads)
  | nothingToDo

namespace Glance

/-- There is nothing to translate. -/
def Idle (g : Glance) : Prop := g.wptr ≤ g.rptr ∨ g.invalid = true

/-- Only the submitting threads move the write index, and the read index only grows. -/
def Shows : Seen → Glance → Prop
  | .loads seen, g => (∀ w, seen.wptr = some w → g.wptr = w) ∧ ∀ r, seen.rptr = some r → r ≤ g.rptr
  | .nothingToDo, g => g.Idle

/-- The thread waits when it has seen that there is nothing to do. -/
def watch : Watch Glance Seen where
  Idle := Idle
  Shows := Shows
  Enough e := e = .nothingToDo
  nothing := .loads {}
  shows_nothing _ := And.intro (fun _ h => by cases h) (fun _ h => by cases h)
  idle e g hshows henough := by
    subst henough
    exact hshows

variable {g g' : Glance} {seen : Loads}

theorem Shows.load (h : Shows (.loads seen) g) (rptrFirst : Bool) :
    Shows (.loads (seen.load rptrFirst g.wptr g.rptr)) g := by
  rw [Loads.load]
  split
  · exact ⟨h.1, fun r hr => Nat.le_of_eq (Option.some.inj hr).symm⟩
  · exact ⟨fun w hw => Option.some.inj hw, h.2⟩

/-- The thread has compared the indices. -/
theorem Shows.compare {w r : Nat} (h : Shows (.loads ⟨some w, some r⟩) g) (hle : w ≤ r) :
    Shows .nothingToDo g := by
  refine Or.inl ?_
  rw [h.1 w rfl]
  exact Nat.le_trans hle (h.2 r rfl)

/-- The GPU moves the read index. -/
theorem Shows.grow (hwptr : g'.wptr = g.wptr) (hrptr : g.rptr ≤ g'.rptr)
    (hinvalid : g'.invalid = g.invalid) (e : Seen) (h : Shows e g) : Shows e g' := by
  cases e with
  | loads seen =>
      refine ⟨fun w hw => hwptr.trans (h.1 w hw), fun r hr => Nat.le_trans (h.2 r hr) hrptr⟩
  | nothingToDo =>
      refine h.imp (fun hle => ?_) fun hi => hinvalid.trans hi
      rw [hwptr]
      exact Nat.le_trans hle hrptr

end Glance

/-- Where the thread is, as it looks at something. -/
def AqlPc.phase {E : Type} (evidence : AqlPc → E) (pc : AqlPc) : Phase E :=
  match pc with
  | .test _ | .testPacket | .idle | .release => .looking (evidence pc)
  | .waiting => .asleep
  | _ => .away

/-- What the thread knows of the indices. -/
def AqlPc.seen : AqlPc → Seen
  | .test seen => .loads seen
  | .idle => .nothingToDo
  | _ => .loads {}

/-- What a submitting thread still has to do about its changes. -/
def Bell.stage : Bell → Stage
  | .silent => .quiet
  | .due => .stale
  | .locked | .unlocked => .owes

namespace AqlThread

variable {κ : Type} {s s' : AqlThread κ} {n : Nat}

/-! ## The thread as a worker -/

def glance (s : AqlThread κ) : Glance :=
  ⟨s.machine.wptr, s.rptr, s.machine.queue.isInvalidPacket⟩

/-- The stages of the clients, for the indices. -/
def stages (s : AqlThread κ) : QueueClient κ → Stage
  | .submitter k => (s.submitters k).bell.stage
  | .destructor => .quiet

/-- The thread watches the indices, and the submitting threads move them. -/
def view (s : AqlThread κ) : State (QueueClient κ) Glance Seen where
  shared := s.glance
  owner := s.owner
  stage := s.stages
  phase := s.pc.phase AqlPc.seen

/-- A step that shows on the indices only. -/
theorem view_congr (howner : s'.owner = s.owner) (hsubmitters : s'.submitters = s.submitters)
    (hphase : s'.pc.phase AqlPc.seen = s.pc.phase AqlPc.seen) :
    s'.view = { s.view with shared := s'.glance } := by
  have hstages : s'.stages = s.stages := by
    funext c
    cases c with
    | submitter k => rw [stages, stages, hsubmitters]
    | destructor => rfl
  rw [view, view, howner, hstages, hphase]

theorem phase_eq {E : Type} {evidence : AqlPc → E} {pc : AqlPc} (hpc : s.pc = pc) :
    s.pc.phase evidence = pc.phase evidence := by rw [hpc]

theorem phase_notifyOne {E : Type} (evidence : AqlPc → E) :
    s.notifyOne.pc.phase evidence = (s.pc.phase evidence).wake := by
  rcases s.notifyOne_cases with ⟨heq, hpc⟩ | ⟨heq, hpc⟩
  · rw [heq]
    cases hs : s.pc with
    | waiting => exact absurd hs hpc
    | _ => rfl
  · rw [heq, hpc]
    rfl

theorem view_notifyOne : s.notifyOne.view = { s.view with phase := s.view.phase.wake } := by
  have hglance : s.notifyOne.glance = s.glance := by
    rw [glance, glance, machine_notifyOne, rptr_notifyOne]
  have hstages : s.notifyOne.stages = s.stages := by
    funext c
    cases c with
    | submitter k => rw [stages, stages, submitters_notifyOne]
    | destructor => rfl
  rw [view, hglance, owner_notifyOne, hstages, phase_notifyOne]
  rfl

section Steps

variable [DecidableEq κ]

/-- The thread does something without the lock. -/
theorem view_work {pc : AqlPc} (hpc : s.pc = pc) (haway : pc.phase AqlPc.seen = .away)
    (howner : s'.owner = s.owner) (hsubmitters : s'.submitters = s.submitters)
    (hphase : s'.pc.phase AqlPc.seen = .away) :
    ReflTransGen (Step Glance.watch) s.view s'.view := by
  have hbefore : s.pc.phase AqlPc.seen = .away := (phase_eq hpc).trans haway
  rw [view_congr howner hsubmitters (hphase.trans hbefore.symm)]
  exact .single (.of_away hbefore _)

/-- The thread sees something with the lock. -/
theorem view_look {pc : AqlPc} {e e' : Seen} (he : s.pc.phase AqlPc.seen = .looking e)
    (he' : pc.phase AqlPc.seen = .looking e')
    (hshows : Glance.Shows e s.glance → Glance.Shows e' s.glance) :
    ReflTransGen (Step Glance.watch) s.view (view { s with pc := pc }) := by
  have hview : view { s with pc := pc } = { s.view with phase := .looking e' } := by
    rw [← he']
    rfl
  rw [hview]
  exact .single (.look e' he hshows)

theorem view_thread {x : ThreadAnswers} (h : ThreadResult s x s') :
    ReflTransGen (Step Glance.watch) s.view s'.view := by
  cases h with
  | keepTime hpc =>
      rw [keepTime]
      split <;> exact view_work hpc rfl rfl rfl rfl
  | run m hpc => rcases hpc with hpc | hpc <;> exact view_work hpc rfl rfl rfl rfl
  | returned hpc | failed hpc | load seen hpc | again seen hpc | toLock seen hpc =>
      exact view_work hpc rfl rfl rfl rfl
  | acquire hpc hfree | relock hpc hfree => exact .single (.acquire (phase_eq hpc) hfree)
  | loadLocked seen hpc => exact view_look (phase_eq hpc) rfl fun h => h.load x.rptrFirst
  | nothing w r hpc hle => exact view_look (phase_eq hpc) rfl fun h => h.compare hle
  | toPacket seen hpc | indices seen hpc | valid hpc =>
      exact view_look (phase_eq hpc) rfl fun _ => Glance.watch.shows_nothing _
  | invalid hpc hinvalid => exact view_look (phase_eq hpc) rfl fun _ => Or.inr hinvalid
  | exit hpc => exact .single (.release (phase_eq hpc))
  | wait hpc => exact .single (.sleep (phase_eq hpc) rfl)
  | spurious hpc => exact .single (.spurious (phase_eq hpc))
  | release hpc => exact .single (.release (phase_eq hpc))

/-- The stages when a submitting thread goes on. -/
theorem stages_setSubmitter (k : κ) (x : Submitter) :
    (s.setSubmitter k x).stages = Function.update s.stages (.submitter k) x.bell.stage := by
  funext c
  cases c with
  | submitter j =>
      show ((s.setSubmitter k x).submitters j).bell.stage = _
      rw [bell_setSubmitter]
      by_cases hj : j = k
      · subst hj
        rw [if_pos rfl, Function.update_self]
      · rw [if_neg hj, Function.update_of_ne fun h => hj (QueueClient.submitter.inj h)]
        rfl
  | destructor =>
      rw [Function.update_of_ne fun h => by cases h]
      rfl

/-- A submitting thread moves the write index or writes a packet. -/
theorem view_change (H : Locks s) {k : κ} {x : Submitter} (hfree : s.Free k) (hdue : x.bell = .due)
    (howner : s'.owner = s.owner) (hstages : s'.stages = (s.setSubmitter k x).stages)
    (hpc : s'.pc = s.pc) : ReflTransGen (Step Glance.watch) s.view s'.view := by
  have hout : s.owner ≠ some (.client (.submitter k)) :=
    fun h => hfree.not_locked ((H (.client (.submitter k))).mp h)
  have hstep : Step Glance.watch s.view { s.view with
      shared := s'.glance
      stage := Function.update s.stages (.submitter k)
        (if s.owner = some (.client (.submitter k)) then .owes else .stale) } :=
    .change (QueueClient.submitter k) s'.glance
  rw [if_neg hout] at hstep
  have hview : s'.view = { s.view with
      shared := s'.glance
      stage := Function.update s.stages (.submitter k) .stale } := by
    rw [view, view, howner, hstages, hpc, stages_setSubmitter, hdue]
    rfl
  rw [hview]
  exact .single hstep

/-- A submitting thread takes the lock for its changes, or as if it had made one. -/
theorem view_lock {k : κ} {x : Submitter} (hfree : s.owner = none) (hbell : x.bell = .locked)
    (hglance : s'.glance = s.glance) (howner : s'.owner = some (.client (.submitter k)))
    (hstages : s'.stages = (s.setSubmitter k x).stages) (hpc : s'.pc = s.pc) :
    ReflTransGen (Step Glance.watch) s.view s'.view := by
  have hchange : Step Glance.watch s.view { s.view with
      shared := s.glance
      stage := Function.update s.stages (.submitter k)
        (if s.owner = some (.client (.submitter k)) then .owes else .stale) } :=
    .change (QueueClient.submitter k) s.glance
  rw [hfree, if_neg fun h => by cases h] at hchange
  have hlock := Step.lock (W := Glance.watch) (s := { s.view with
    shared := s.glance, stage := Function.update s.stages (.submitter k) .stale })
    (.submitter k) hfree
  simp only [Function.update_self, Function.update_idem, Stage.lock] at hlock
  rw [show s'.view = { s.view with
      owner := some (.client (.submitter k))
      stage := Function.update s.stages (.submitter k) .owes } by
    rw [view, view, hglance, howner, hstages, hpc, stages_setSubmitter, hbell]
    rfl]
  exact (ReflTransGen.single hchange).tail hlock

/-- A submitting thread leaves the lock, and has still to notify. -/
theorem view_unlock {k : κ} {x : Submitter} (H : Locks s) (hlocked : (s.submitters k).bell = .locked)
    (hbell : x.bell = .unlocked) (hglance : s'.glance = s.glance) (howner : s'.owner = none)
    (hstages : s'.stages = (s.setSubmitter k x).stages) (hpc : s'.pc = s.pc) :
    ReflTransGen (Step Glance.watch) s.view s'.view := by
  have hsame : Function.update s.stages (.submitter k) x.bell.stage = s.stages := by
    have hk : x.bell.stage = s.stages (.submitter k) := by
      rw [stages, hlocked, hbell]
      rfl
    rw [hk, Function.update_eq_self]
  have hview : s'.view = { s.view with owner := none } := by
    rw [view, view, hglance, howner, hstages, hpc, stages_setSubmitter, hsame]
  rw [hview]
  exact .single (.unlock (.submitter k) ((H (.client (.submitter k))).mpr hlocked))

/-- A submitting thread notifies. -/
theorem view_notify {k : κ} {x : Submitter} (hunlocked : (s.submitters k).bell = .unlocked)
    (hbell : x.bell = .silent) :
    ReflTransGen (Step Glance.watch) s.view (s.setSubmitter k x).notifyOne.view := by
  have hnotify := Step.notify (W := Glance.watch) (s := s.view) (.submitter k)
  have hk : (s.view.stage (.submitter k)).notify = .quiet := by
    show ((s.submitters k).bell.stage).notify = .quiet
    rw [hunlocked]
    rfl
  rw [hk] at hnotify
  have hview : (s.setSubmitter k x).view = { s.view with
      stage := Function.update s.stages (.submitter k) .quiet } := by
    rw [view, stages_setSubmitter, hbell]
    rfl
  rw [view_notifyOne, hview]
  exact .single hnotify

/-- The destructor has nothing to say about the indices. -/
theorem view_destroy (H : Locks s) (h : DestroyResult s s') :
    ReflTransGen (Step Glance.watch) s.view s'.view := by
  cases h with
  | lock _ hfree =>
      have hlock := Step.lock (W := Glance.watch) (s := s.view) .destructor hfree
      have hk : (s.view.stage .destructor).lock = s.stages .destructor := rfl
      rw [hk, show s.view.stage = s.stages from rfl, Function.update_eq_self] at hlock
      exact .single hlock
  | stop | join => exact .refl
  | unlock htear =>
      exact .single (.unlock .destructor ((H (.client .destructor)).mpr (Or.inr htear)))
  | notify =>
      have hnotify := Step.notify (W := Glance.watch) (s := s.view) .destructor
      have hk : (s.view.stage .destructor).notify = s.stages .destructor := rfl
      rw [hk, show s.view.stage = s.stages from rfl, Function.update_eq_self] at hnotify
      rw [view_notifyOne]
      exact .single hnotify

/-- A step of the system is one of the worker and its clients, or several. -/
theorem view_step (H : Locks s) {e : AqlEvent κ} (h : s.step e = some s') :
    ReflTransGen (Step Glance.watch) s.view s'.view := by
  cases step_result h with
  | reserve k hfree heq | write k _ _ hfree _ _ _ heq =>
      subst heq
      exact view_change H hfree rfl rfl rfl rfl
  | lockDoorbell k _ hfree heq =>
      subst heq
      exact view_lock hfree rfl rfl rfl rfl rfl
  | unlockDoorbell k hlocked heq =>
      subst heq
      exact view_unlock H hlocked rfl rfl rfl rfl rfl
  | notifyOne k hunlocked heq =>
      subst heq
      exact view_notify hunlocked rfl
  | destroy hdestroy => exact view_destroy H hdestroy
  | retire ib rest _ _ heq =>
      subst heq
      have hgrow : ∀ e, Glance.Shows e s.glance →
          Glance.Shows e (glance { s with rptr := s.rptr + 1 }) :=
        Glance.Shows.grow rfl (Nat.le_succ _) rfl
      exact .single (.environment _ hgrow (hgrow .nothingToDo))
  | complete _ _ _ _ heq =>
      subst heq
      exact .refl
  | thread x hthread => exact view_thread hthread

end Steps

/-! ## The flag of the destructor -/

/-- The destructor sets the flag and has not notified yet while the thread waits, and waits itself
for the thread to end. -/
structure Stopping (s : AqlThread κ) : Prop where
  waiting : s.pc = .waiting →
    s.threadStop = false ∨ s.teardown = .stopping ∨ s.teardown = .unlocked
  stop : s.threadStop = true ↔ s.teardown ≠ .notBegun ∧ s.teardown ≠ .locked
  joined : s.teardown = .joined → s.pc = .exited ∨ s.pc = .failed

theorem Stopping.thread (D : Stopping s) {x : ThreadAnswers} (h : ThreadResult s x s') :
    Stopping s' := by
  have hjoined : ∀ {pc : AqlPc}, s.pc = pc → pc ≠ .exited → pc ≠ .failed →
      s.teardown ≠ .joined := by
    intro pc hpc hexited hfailed htear
    rcases D.joined htear with hend | hend
    · exact hexited (hpc.symm.trans hend)
    · exact hfailed (hpc.symm.trans hend)
  have hkept : ∀ {pc : AqlPc} (s' : AqlThread κ), s.pc = pc → pc ≠ .exited → pc ≠ .failed →
      s'.threadStop = s.threadStop → s'.teardown = s.teardown → s'.pc ≠ .waiting →
      Stopping s' := by
    intro pc s' hpc hexited hfailed hstop htear hnot
    refine ⟨fun hwait => absurd hwait hnot, ?_, fun hj => ?_⟩
    · rw [hstop, htear]
      exact D.stop
    · exact absurd (htear ▸ hj) (hjoined hpc hexited hfailed)
  cases h with
  | keepTime hpc =>
      rw [keepTime]
      split <;> exact hkept _ hpc (by simp) (by simp) rfl rfl (by simp)
  | run m hpc =>
      rcases hpc with hpc | hpc <;> exact hkept _ hpc (by simp) (by simp) rfl rfl (by simp)
  | wait hpc hstop =>
      exact ⟨fun _ => Or.inl hstop, D.stop,
        fun hj => absurd hj (hjoined hpc (by simp) (by simp))⟩
  | returned hpc | failed hpc | load seen hpc | again seen hpc | toLock seen hpc | acquire hpc
  | loadLocked seen hpc | nothing w r hpc | toPacket seen hpc | indices seen hpc | invalid hpc
  | valid hpc | exit hpc | spurious hpc | relock hpc | release hpc =>
      exact hkept _ hpc (by simp) (by simp) rfl rfl (by simp)

theorem Stopping.destroy (D : Stopping s) (h : DestroyResult s s') : Stopping s' := by
  cases h with
  | lock htear =>
      have hstop : ¬ s.threadStop = true := fun h => (D.stop.mp h).1 htear
      exact ⟨fun _ => Or.inl (Bool.eq_false_iff.mpr hstop),
        iff_of_false hstop fun h => h.2 rfl, fun hj => by cases hj⟩
  | stop =>
      exact ⟨fun _ => Or.inr (Or.inl rfl), iff_of_true rfl ⟨by simp, by simp⟩, fun hj => by cases hj⟩
  | unlock htear =>
      have hstop : s.threadStop = true := D.stop.mpr ⟨by simp [htear], by simp [htear]⟩
      exact ⟨fun _ => Or.inr (Or.inr rfl), iff_of_true hstop ⟨by simp, by simp⟩,
        fun hj => by cases hj⟩
  | notify htear =>
      have hstop : s.threadStop = true := D.stop.mpr ⟨by simp [htear], by simp [htear]⟩
      refine ⟨fun hwait => ?_, ?_, fun hj => ?_⟩
      · rcases notifyOne_cases { s with teardown := .joining } with ⟨heq, hpc⟩ | ⟨heq, _⟩
        · rw [heq] at hwait
          exact absurd hwait hpc
        · rw [heq] at hwait
          cases hwait
      · rw [threadStop_notifyOne, teardown_notifyOne]
        exact iff_of_true hstop ⟨by simp, by simp⟩
      · rw [teardown_notifyOne] at hj
        cases hj
  | join htear hended =>
      have hstop : s.threadStop = true := D.stop.mpr ⟨by simp [htear], by simp [htear]⟩
      refine ⟨fun hwait => ?_, iff_of_true hstop ⟨by simp, by simp⟩, fun _ => hended⟩
      have hwait : s.pc = .waiting := hwait
      rw [hwait] at hended
      rcases hended with h | h <;> cases h

/-- A step that does not concern the flag. -/
theorem Stopping.congr (D : Stopping s) (hstop : s'.threadStop = s.threadStop)
    (htear : s'.teardown = s.teardown) (hpc : s'.pc = s.pc) : Stopping s' where
  waiting h := by
    rw [hstop, htear]
    exact D.waiting (hpc ▸ h)
  stop := by
    rw [hstop, htear]
    exact D.stop
  joined h := by
    rw [hpc]
    exact D.joined (htear ▸ h)

theorem Stopping.notifyOne (D : Stopping s) : Stopping s.notifyOne := by
  rcases s.notifyOne_cases with ⟨heq, _⟩ | ⟨heq, hpc⟩
  · rw [heq]
    exact D
  · rw [heq]
    refine ⟨(fun h => by cases h), D.stop, fun hj => ?_⟩
    have hended := D.joined hj
    rw [hpc] at hended
    rcases hended with h | h <;> cases h

/-! ## Whole runs -/

/-- There is nothing at the index of the queue if there is nothing to do. -/
theorem Inv.unsent_of_idle (I : Inv n s) (hn : 0 < n) (hidle : s.glance.Idle) :
    s.sent s.machine.queue.writeIndex = none := by
  rcases hidle with hle | hinvalid
  · cases hsent : s.sent s.machine.queue.writeIndex with
    | none => rfl
    | some p =>
        have hlt := (I.ring.sent_lt _ p hsent).1
        have hle : s.machine.wptr ≤ s.rptr := hle
        have hrptr := I.ring.rptr_le
        omega
  · exact (I.ring.invalid_iff hn).mp hinvalid

/-- The tickets up to the write index are written, if there is nothing for the index and no thread
has a ticket. -/
theorem Inv.writeIndex_eq (I : Inv n s) (hunsent : s.sent s.machine.queue.writeIndex = none)
    (htickets : ∀ k, s.machine.queue.writeIndex ∉ (s.submitters k).tickets) :
    s.machine.queue.writeIndex = s.machine.wptr := by
  refine Nat.le_antisymm I.writeIndex_le (Nat.le_of_not_lt fun hlt => ?_)
  obtain ⟨k, hk⟩ := I.tickets.held _ hlt hunsent
  exact htickets k hk

section Runs

variable [DecidableEq κ] {device : Device} {ring : Nat → AqlPacket} {cmdbufAddr : Nat}
  {ok : AqlThread κ → AqlEvent κ → Prop}

theorem Stopping.step (D : Stopping s) {e : AqlEvent κ} (h : s.step e = some s') : Stopping s' := by
  cases step_result h with
  | reserve _ _ heq | write _ _ _ _ _ _ _ heq | lockDoorbell _ _ _ heq | unlockDoorbell _ _ heq
  | retire _ _ _ _ heq | complete _ _ _ _ heq =>
      subst heq
      exact D.congr rfl rfl rfl
  | notifyOne k _ heq =>
      subst heq
      have D' : Stopping (s.setSubmitter k { s.submitters k with bell := .silent }) :=
        D.congr rfl rfl rfl
      exact D'.notifyOne
  | destroy hdestroy => exact D.destroy hdestroy
  | thread x hthread => exact D.thread hthread

/-- What holds of the lock, the wait and the flag in every run. -/
structure Waits (s : AqlThread κ) : Prop where
  locks : Locks s
  sound : Sound Glance.watch s.view
  stopping : Stopping s

theorem waits_of_reach (h : Reach step ok (start device n ring cmdbufAddr) s) : Waits s := by
  have hstart : Waits (start device n ring cmdbufAddr : AqlThread κ) := by
    refine ⟨locks_start device n ring cmdbufAddr, sound_away rfl rfl, ?_⟩
    exact ⟨(fun h => by cases h), iff_of_false Bool.false_ne_true fun h => h.1 rfl,
      fun h => by cases h⟩
  refine h.invariant hstart fun s e s' W _ hs => ?_
  exact ⟨W.locks.step hs, W.sound.steps (view_step W.locks hs), W.stopping.step hs⟩

/-- No wake-up is lost.  If the thread waits and every submitting thread has rung for what it did,
then no packet is written for the index of the queue: all tickets are translated, or a thread has
the ticket at the index and has yet to write its packet. -/
theorem no_lost_wakeup (hn : 0 < n) (hring : ∀ i, (ring i).type = some .invalid)
    (h : Reach step (fun _ _ => True) (start device n ring cmdbufAddr) s) (hwait : s.pc = .waiting)
    (hbells : ∀ k, (s.submitters k).bell = .silent) :
    s.sent s.machine.queue.writeIndex = none ∧
      (s.taken.map some = (List.range s.machine.wptr).map s.sent ∨
        ∃ k, s.machine.queue.writeIndex ∈ (s.submitters k).tickets) := by
  have I : Inv n s := inv_of_reach hn hring h
  have hquiet : ∀ c, s.view.stage c = .quiet := by
    intro c
    cases c with
    | submitter k =>
        show (s.submitters k).bell.stage = .quiet
        rw [hbells k]
        rfl
    | destructor => rfl
  have hidle : s.glance.Idle := (waits_of_reach h).sound.idle (phase_eq hwait) hquiet
  have hunsent := I.unsent_of_idle hn hidle
  refine ⟨hunsent, ?_⟩
  by_cases hheld : ∃ k, s.machine.queue.writeIndex ∈ (s.submitters k).tickets
  · exact Or.inr hheld
  · refine Or.inl ?_
    rw [← I.writeIndex_eq hunsent fun k hk => hheld ⟨k, hk⟩]
    exact I.ring.taken

/-- A thread that has reserved a packet and rung without writing it leaves the queue's thread
waiting. -/
theorem no_lost_wakeup_reserved :
    ∃ s, Reach step (fun _ _ => True)
        (start Machine.sampleDevice 4 (fun _ => { header := 1 }) 0x100000 : AqlThread Bool) s ∧
      s.pc = .waiting ∧ s.machine.wptr = 1 ∧ s.sent s.machine.queue.writeIndex = none := by
  have hrun : (runAll step (fun _ _ => True)
      (start Machine.sampleDevice 4 (fun _ => { header := 1 }) 0x100000 : AqlThread Bool)
      ([.reserve true, .lockDoorbell true, .unlockDoorbell true, .notifyOne true] ++
        List.replicate 10 (.thread { elapsed := true }))).map
      (fun s => (s.pc, s.machine.wptr, (s.submitters true).bell, (s.submitters false).bell)) =
      some (.waiting, 1, .silent, .silent) := by
    decide
  obtain ⟨s, hs, heq⟩ := Option.map_eq_some_iff.mp hrun
  simp only [Prod.mk.injEq] at heq
  obtain ⟨hwait, hwptr, htrue, hfalse⟩ := heq
  have hreach := reach_of_runAll hs
  refine ⟨s, hreach, hwait, hwptr, (no_lost_wakeup (by decide) (fun _ => rfl) hreach hwait ?_).1⟩
  intro k
  cases k with
  | true => exact htrue
  | false => exact hfalse

/-- The destructor joins a thread that does not wait, and goes on when the thread has ended.  The
thread ends only when it is asked to or for an error.  If every thread that submits has begun to
ring when it ends, it leaves no packet at the index of the queue; if no ticket is left unwritten
either, then every packet that was ever submitted is translated. -/
theorem shutdown (hn : 0 < n) (hring : ∀ i, (ring i).type = some .invalid)
    (h : Reach step (fun _ _ => True) (start device n ring cmdbufAddr) s) :
    (s.teardown = .joining → s.pc ≠ .waiting) ∧
    (s.teardown = .joined → s.pc = .exited ∨ s.pc = .failed) ∧
    ∀ x s', s.step (.thread x) = some s' → s'.pc = .exited → s.threadStop = true ∧
      ((∀ k, (s.submitters k).bell ≠ .due) → s.sent s.machine.queue.writeIndex = none ∧
        ((∀ k, (s.submitters k).tickets = []) →
          s'.taken.map some = (List.range s'.machine.wptr).map s'.sent)) := by
  have I : Inv n s := inv_of_reach hn hring h
  have W := waits_of_reach h
  refine ⟨fun htear hwait => ?_, W.stopping.joined, fun x s' hs hexited => ?_⟩
  · have hstop : s.threadStop = true := W.stopping.stop.mpr ⟨by simp [htear], by simp [htear]⟩
    have hcases := W.stopping.waiting hwait
    simp [htear, hstop] at hcases
  · cases step_result hs with
    | thread _ hthread =>
        cases hthread with
        | exit hpc hstop =>
            refine ⟨hstop, fun hbells => ?_⟩
            have hknown := W.sound.known
            rw [show s.view.phase = .looking .nothingToDo from phase_eq hpc] at hknown
            have hidle : s.glance.Idle := by
              refine hknown fun c hc => ?_
              cases c with
              | submitter k =>
                  have hstage : (s.submitters k).bell.stage = .stale := hc
                  cases hbell : (s.submitters k).bell with
                  | due => exact hbells k hbell
                  | silent | locked | unlocked =>
                      rw [hbell] at hstage
                      cases hstage
              | destructor => cases hc
            have hunsent := I.unsent_of_idle hn hidle
            refine ⟨hunsent, fun htickets => ?_⟩
            show s.taken.map some = (List.range s.machine.wptr).map s.sent
            rw [← I.writeIndex_eq hunsent fun k => by simp [htickets k]]
            exact I.ring.taken
        | keepTime =>
            rw [keepTime] at hexited
            split at hexited <;> cases hexited
        | _ => cases hexited

/-- The threads of `crossed` ring for their packets and the destructor begins, before the queue's
thread goes on to the test of the flag. -/
def stopped : List (AqlEvent Bool) :=
  crossed 12 ++
  [.lockDoorbell true, .unlockDoorbell true, .notifyOne true,
    .lockDoorbell false, .unlockDoorbell false, .notifyOne false,
    .destroy, .destroy, .destroy, .destroy] ++
  List.replicate 16 (.thread { elapsed := true })

/-- The thread ends with both packets translated, and the destructor goes on. -/
theorem shutdown_crossed :
    ∃ s s' s'' : AqlThread Bool, Reach step (fun _ _ => True)
        (start Machine.sampleDevice 4 (fun _ => { header := 1 }) 0x100000) s ∧
      s.teardown = .joining ∧ s.pc ≠ .waiting ∧
      s.step (.thread {}) = some s' ∧ s'.pc = .exited ∧
      s.sent s.machine.queue.writeIndex = none ∧
      s'.taken = [Machine.sampleKernel 0x9000 0, { header := 3 }] ∧
      s'.taken.map some = (List.range s'.machine.wptr).map s'.sent ∧
      s'.step .destroy = some s'' ∧ (s''.pc = .exited ∨ s''.pc = .failed) := by
  have hrun : (runAll step (fun _ _ => True)
      (start Machine.sampleDevice 4 (fun _ => { header := 1 }) 0x100000) stopped).map
        (fun s => (s.pc, s.teardown, s.threadStop, [s.submitters true, s.submitters false],
          s.taken)) =
      some (.idle, .joining, true, [{}, {}],
        [Machine.sampleKernel 0x9000 0, { header := 3 }]) := by
    decide
  obtain ⟨s, hs, hend⟩ := Option.map_eq_some_iff.mp hrun
  simp only [Prod.mk.injEq, List.cons.injEq, and_true] at hend
  obtain ⟨hpc, htear, hstop, ⟨htrue, hfalse⟩, htaken⟩ := hend
  have hreach := reach_of_runAll hs
  have hquiet : ∀ k, s.submitters k = {} := by
    intro k
    cases k with
    | true => exact htrue
    | false => exact hfalse
  obtain ⟨hjoining, _, hexit⟩ := shutdown (by decide) (fun _ => rfl) hreach
  have hthread : s.step (.thread {}) = some { s with owner := none, pc := .exited } := by
    simp [step, threadStep, hpc, hstop]
  obtain ⟨_, hlast⟩ := hexit {} _ hthread rfl
  obtain ⟨hunsent, hall⟩ := hlast fun k => by simp [hquiet k]
  have hdestroy : AqlThread.step { s with owner := none, pc := .exited } .destroy =
      some { s with owner := none, pc := .exited, teardown := .joined } := by
    simp [step, destroy, htear]
  have hreach' := (hreach.step trivial hthread).step trivial hdestroy
  refine ⟨s, _, _, hreach, htear, hjoining htear, hthread, rfl, hunsent, htaken, ?_, hdestroy, ?_⟩
  · exact hall fun k => by simp [hquiet k]
  · exact (shutdown (by decide) (fun _ => rfl) hreach').2.1 rfl

end Runs

end AqlThread

end RocDxg
