import RocDxg.Queue.AqlThread
import RocDxg.Queue.Sdma

/-!
# The thread of an SDMA queue

`SdmaThread`, `RingDoorbell` and `~SDMAQueue` of `wddm/queue.cpp` with the lock and the condition
variable between them.  `SdmaQueue` takes the locked part of each as one step.  Here each locked
access is a step, and `queue_reach` says that the runs are runs of `SdmaQueue` all the same: the
lock is what makes the larger steps right.  Outside the lock a poll (its reads, the wait and the
`memset`) is one step and so is a submission, as in `SdmaQueue`.

`RingDoorbell` queues its pair and notifies under the lock, so the thread does not wait while a pair
is queued or the queue is to be destroyed, but for the moment before the notification (`Waits`).
-/

namespace RocDxg

open Lib (Reach runAll reach_of_runAll)
open Lib.Monitor (Held Owner)

/-- Who takes the lock besides the thread. -/
inductive SdmaParty where
  | client
  | destructor
deriving DecidableEq, Repr

/-- Where the client is in `RingDoorbell`. -/
inductive SdmaBell where
  | idle
  | locked
  /-- It has queued the pair. -/
  | queued
  | notified
  /-- It has left the lock, and has still to move `wptr_pre_`. -/
  | unlocked
deriving DecidableEq, Repr

/-- Where `SdmaThread` is. -/
inductive SdmaPc where
  /-- At the lock. -/
  | acquire
  /-- At the test of the inner loop, with the lock. -/
  | test
  /-- In the wait. -/
  | waiting
  /-- Notified, and without the lock. -/
  | woken
  /-- At the test of `thread_stop_`. -/
  | checkStop
  | swap
  | unlock
  /-- In the loop over the pairs. -/
  | running
  | exited
deriving DecidableEq, Repr

/-- `SDMAQueue` with its thread, its client and its destructor. -/
structure SdmaSystem where
  queue : SdmaQueue := {}
  owner : Option (Owner SdmaParty) := none
  bell : SdmaBell := .idle
  teardown : Teardown := .notBegun
  pc : SdmaPc := .acquire

/-- A step of one of the parties. -/
inductive SdmaStep where
  | store (addr : Nat) (value : UInt32)
  | writeWptr (w : Nat)
  | ringDoorbell
  | destroy
  | thread (ok : Bool)
  | complete (ib : SdmaIb)
deriving DecidableEq, Repr

namespace SdmaSystem

/-- The lock is free. -/
def lock (s : SdmaSystem) (o : Owner SdmaParty) : Option SdmaSystem :=
  if s.owner = none then some { s with owner := some o } else none

/-- `notify_one` -/
def notifyOne (s : SdmaSystem) : SdmaSystem :=
  if s.pc = .waiting then { s with pc := .woken } else s

/-- The next step of `RingDoorbell`. -/
def ringDoorbell (s : SdmaSystem) : Option SdmaSystem :=
  match s.bell with
  | .idle => { s with bell := .locked }.lock (.client .client)
  | .locked => some { s with queue := s.queue.ringDoorbell, bell := .queued }
  | .queued => some { s with bell := .notified }.notifyOne
  | .notified => some { s with bell := .unlocked, owner := none }
  | .unlocked => some { s with queue := s.queue.ringReturn, bell := .idle }

/-- The next step of `~SDMAQueue` up to the end of `join`. -/
def destroy (s : SdmaSystem) : Option SdmaSystem :=
  match s.teardown with
  | .notBegun => { s with teardown := .locked }.lock (.client .destructor)
  | .locked => some { s with queue := { s.queue with threadStop := true }, teardown := .stopping }
  | .stopping => some { s with teardown := .unlocked, owner := none }
  | .unlocked => some { s with teardown := .joining }.notifyOne
  | .joining => if s.pc = .exited then some { s with teardown := .joined } else none
  | .joined => none

/-- The next step in the loop over the pairs.  A wait for a signal takes as long as it does. -/
def pairStep (r : SdmaRing) (s : SdmaSystem) (ok : Bool) : SdmaSystem :=
  match s.queue.thread with
  | .running pkt start finish rest =>
      if s.queue.isPollPacket pkt then { s with queue := s.queue.poll pkt start finish rest }
      else { s with queue := SdmaQueue.submitPair r s.queue start finish rest ok }
  | _ => { s with pc := .acquire }

/-- The next step of `SdmaThread`.  In the wait it is a spurious wake-up. -/
def threadStep (r : SdmaRing) (s : SdmaSystem) (ok : Bool) : Option SdmaSystem :=
  match s.pc with
  | .acquire => { s with pc := .test }.lock .worker
  | .test =>
      if s.queue.wptrQueue = [] ∧ s.queue.threadStop = false then
        some { s with pc := .waiting, owner := none }
      else some { s with pc := .checkStop }
  | .waiting => some { s with pc := .woken }
  | .woken => { s with pc := .test }.lock .worker
  | .checkStop =>
      if s.queue.threadStop then
        some { s with queue := { s.queue with thread := .exited }, pc := .exited, owner := none }
      else some { s with pc := .swap }
  | .swap =>
      some { s with
        queue := { s.queue with thread := r.thread s.queue.wptrQueue, wptrQueue := [] }
        pc := .unlock }
  | .unlock => some { s with pc := .running, owner := none }
  | .running => some (s.pairStep r ok)
  | .exited => none

/-- One step.  The client writes its write pointer outside `RingDoorbell` only. -/
def step (r : SdmaRing) (s : SdmaSystem) : SdmaStep → Option SdmaSystem
  | .store addr value => (s.queue.step r (.store addr value)).map fun q => { s with queue := q }
  | .writeWptr w =>
      if s.bell = .idle then (s.queue.step r (.writeWptr w)).map fun q => { s with queue := q }
      else none
  | .ringDoorbell => s.ringDoorbell
  | .destroy => s.destroy
  | .thread ok => s.threadStep r ok
  | .complete ib => (s.queue.step r (.complete ib)).map fun q => { s with queue := q }

/-! ## What a step does -/

/-- The cases of a step of `RingDoorbell`. -/
inductive BellResult (s : SdmaSystem) : SdmaSystem → Prop
  | lock : s.bell = .idle → s.owner = none →
      BellResult s { s with bell := .locked, owner := some (.client .client) }
  | queue : s.bell = .locked →
      BellResult s { s with queue := s.queue.ringDoorbell, bell := .queued }
  | notify : s.bell = .queued → BellResult s { s with bell := .notified }.notifyOne
  | unlock : s.bell = .notified → BellResult s { s with bell := .unlocked, owner := none }
  | back : s.bell = .unlocked →
      BellResult s { s with queue := s.queue.ringReturn, bell := .idle }

/-- The cases of a step of the destructor. -/
inductive DestroyResult (s : SdmaSystem) : SdmaSystem → Prop
  | lock : s.teardown = .notBegun → s.owner = none →
      DestroyResult s { s with teardown := .locked, owner := some (.client .destructor) }
  | stop : s.teardown = .locked →
      DestroyResult s
        { s with queue := { s.queue with threadStop := true }, teardown := .stopping }
  | unlock : s.teardown = .stopping → DestroyResult s { s with teardown := .unlocked, owner := none }
  | notify : s.teardown = .unlocked → DestroyResult s { s with teardown := .joining }.notifyOne
  | join : s.teardown = .joining → s.pc = .exited → DestroyResult s { s with teardown := .joined }

/-- The cases of a step of the thread. -/
inductive ThreadResult (r : SdmaRing) (s : SdmaSystem) (ok : Bool) : SdmaSystem → Prop
  | lock : s.pc = .acquire ∨ s.pc = .woken → s.owner = none →
      ThreadResult r s ok { s with pc := .test, owner := some .worker }
  | wait : s.pc = .test → s.queue.wptrQueue = [] → s.queue.threadStop = false →
      ThreadResult r s ok { s with pc := .waiting, owner := none }
  | found : s.pc = .test → s.queue.wptrQueue ≠ [] ∨ s.queue.threadStop = true →
      ThreadResult r s ok { s with pc := .checkStop }
  | spurious : s.pc = .waiting → ThreadResult r s ok { s with pc := .woken }
  | exit : s.pc = .checkStop → s.queue.threadStop = true →
      ThreadResult r s ok
        { s with queue := { s.queue with thread := .exited }, pc := .exited, owner := none }
  | goOn : s.pc = .checkStop → s.queue.threadStop = false →
      ThreadResult r s ok { s with pc := .swap }
  | swap : s.pc = .swap →
      ThreadResult r s ok { s with
        queue := { s.queue with thread := r.thread s.queue.wptrQueue, wptrQueue := [] }
        pc := .unlock }
  | unlock : s.pc = .unlock → ThreadResult r s ok { s with pc := .running, owner := none }
  | poll (pkt start finish : Nat) (rest : List (Nat × Nat)) : s.pc = .running →
      s.queue.thread = .running pkt start finish rest → s.queue.isPollPacket pkt = true →
      ThreadResult r s ok { s with queue := s.queue.poll pkt start finish rest }
  | submit (pkt start finish : Nat) (rest : List (Nat × Nat)) : s.pc = .running →
      s.queue.thread = .running pkt start finish rest → s.queue.isPollPacket pkt = false →
      ThreadResult r s ok { s with queue := SdmaQueue.submitPair r s.queue start finish rest ok }
  | done : s.pc = .running → (∀ pkt start finish rest, s.queue.thread ≠ .running pkt start finish rest) →
      ThreadResult r s ok { s with pc := .acquire }

variable {r : SdmaRing} {s s' : SdmaSystem}

theorem lock_eq_some {o : Owner SdmaParty} (h : s.lock o = some s') :
    s.owner = none ∧ s' = { s with owner := some o } := by
  rw [lock] at h
  split at h
  next hfree => exact ⟨hfree, (Option.some.inj h).symm⟩
  next => cases h

theorem ringDoorbell_result (h : s.ringDoorbell = some s') : BellResult s s' := by
  rw [ringDoorbell] at h
  cases hbell : s.bell with
  | idle =>
      simp only [hbell] at h
      obtain ⟨hfree, rfl⟩ := lock_eq_some h
      exact .lock hbell hfree
  | locked =>
      simp only [hbell] at h
      cases h
      exact .queue hbell
  | queued =>
      simp only [hbell] at h
      cases h
      exact .notify hbell
  | notified =>
      simp only [hbell] at h
      cases h
      exact .unlock hbell
  | unlocked =>
      simp only [hbell] at h
      cases h
      exact .back hbell

theorem destroy_result (h : s.destroy = some s') : DestroyResult s s' := by
  rw [destroy] at h
  cases htear : s.teardown with
  | notBegun =>
      simp only [htear] at h
      obtain ⟨hfree, rfl⟩ := lock_eq_some h
      exact .lock htear hfree
  | locked =>
      simp only [htear] at h
      cases h
      exact .stop htear
  | stopping =>
      simp only [htear] at h
      cases h
      exact .unlock htear
  | unlocked =>
      simp only [htear] at h
      cases h
      exact .notify htear
  | joining =>
      simp only [htear] at h
      split at h
      next hended =>
        cases h
        exact .join htear hended
      next => cases h
  | joined =>
      simp only [htear] at h
      cases h

theorem pairStep_result {ok : Bool} (hpc : s.pc = .running) :
    ThreadResult r s ok (s.pairStep r ok) := by
  rw [pairStep]
  cases hthread : s.queue.thread with
  | running pkt start finish rest =>
      simp only
      split
      next hpoll => exact .poll pkt start finish rest hpc hthread hpoll
      next hpoll =>
        exact .submit pkt start finish rest hpc hthread (Bool.eq_false_iff.mpr hpoll)
  | waiting | exited =>
      exact .done hpc fun _ _ _ _ h => by
        rw [hthread] at h
        cases h

theorem threadStep_result {ok : Bool} (h : s.threadStep r ok = some s') :
    ThreadResult r s ok s' := by
  rw [threadStep] at h
  cases hpc : s.pc with
  | acquire =>
      simp only [hpc] at h
      obtain ⟨hfree, rfl⟩ := lock_eq_some h
      exact .lock (Or.inl hpc) hfree
  | test =>
      simp only [hpc] at h
      split at h
      next hwait =>
        cases h
        exact .wait hpc hwait.1 hwait.2
      next hfound =>
        cases h
        rw [not_and_or, Bool.not_eq_false] at hfound
        exact .found hpc hfound
  | waiting =>
      simp only [hpc] at h
      cases h
      exact .spurious hpc
  | woken =>
      simp only [hpc] at h
      obtain ⟨hfree, rfl⟩ := lock_eq_some h
      exact .lock (Or.inr hpc) hfree
  | checkStop =>
      simp only [hpc] at h
      split at h
      next hstop =>
        cases h
        exact .exit hpc hstop
      next hstop =>
        cases h
        exact .goOn hpc (Bool.eq_false_iff.mpr hstop)
  | swap =>
      simp only [hpc] at h
      cases h
      exact .swap hpc
  | unlock =>
      simp only [hpc] at h
      cases h
      exact .unlock hpc
  | running =>
      simp only [hpc] at h
      cases h
      exact pairStep_result hpc
  | exited =>
      simp only [hpc] at h
      cases h

/-! ## Who has the lock -/

/-- Who is in a critical section. -/
def Inside (s : SdmaSystem) : Owner SdmaParty → Prop
  | .worker => s.pc = .test ∨ s.pc = .checkStop ∨ s.pc = .swap ∨ s.pc = .unlock
  | .client .client => s.bell = .locked ∨ s.bell = .queued ∨ s.bell = .notified
  | .client .destructor => s.teardown = .locked ∨ s.teardown = .stopping

/-- The lock is with the one who is in a critical section. -/
def Locks (s : SdmaSystem) : Prop := Held s.owner s.Inside

theorem notifyOne_cases (s : SdmaSystem) : s.notifyOne = s ∧ s.pc ≠ .waiting ∨
    s.notifyOne = { s with pc := .woken } ∧ s.pc = .waiting := by
  rw [notifyOne]
  split
  next h => exact Or.inr ⟨rfl, h⟩
  next h => exact Or.inl ⟨rfl, h⟩

/-- The critical sections are those of three parties. -/
theorem forall_owner {P : Owner SdmaParty → Prop} (hworker : P .worker)
    (hclient : P (.client .client)) (hdestructor : P (.client .destructor)) : ∀ o, P o := by
  intro o
  cases o with
  | worker => exact hworker
  | client c =>
      cases c with
      | client => exact hclient
      | destructor => exact hdestructor

theorem Locks.notifyOne (H : Locks s) : Locks s.notifyOne := by
  rcases s.notifyOne_cases with ⟨heq, _⟩ | ⟨heq, hpc⟩
  · rw [heq]
    exact H
  · rw [heq]
    refine H.congr (forall_owner ?_ Iff.rfl Iff.rfl)
    simp [Inside, hpc]

theorem Locks.queue (H : Locks s) (q : SdmaQueue) : Locks { s with queue := q } :=
  H.congr (forall_owner Iff.rfl Iff.rfl Iff.rfl)

theorem Locks.bell (H : Locks s) (h : BellResult s s') : Locks s' := by
  cases h with
  | lock hbell hfree =>
      rw [Locks, hfree] at H
      exact H.take (forall_owner (by simp [Inside]) (by simp [Inside]) (by simp [Inside]))
  | queue hbell => exact H.congr (forall_owner Iff.rfl (by simp [Inside, hbell]) Iff.rfl)
  | notify hbell =>
      exact Locks.notifyOne (H.congr (forall_owner Iff.rfl (by simp [Inside, hbell]) Iff.rfl))
  | unlock hbell =>
      exact Held.give H (o := .client .client) (Or.inr (Or.inr hbell))
        (forall_owner (by simp [Inside]) (by simp [Inside]) (by simp [Inside]))
  | back hbell => exact H.congr (forall_owner Iff.rfl (by simp [Inside, hbell]) Iff.rfl)

theorem Locks.destroy (H : Locks s) (h : DestroyResult s s') : Locks s' := by
  cases h with
  | lock _ hfree =>
      rw [Locks, hfree] at H
      exact H.take (forall_owner (by simp [Inside]) (by simp [Inside]) (by simp [Inside]))
  | stop htear => exact H.congr (forall_owner Iff.rfl Iff.rfl (by simp [Inside, htear]))
  | unlock htear =>
      exact Held.give H (o := .client .destructor) (Or.inr htear)
        (forall_owner (by simp [Inside]) (by simp [Inside]) (by simp [Inside]))
  | notify htear =>
      exact Locks.notifyOne (H.congr (forall_owner Iff.rfl Iff.rfl (by simp [Inside, htear])))
  | join htear => exact H.congr (forall_owner Iff.rfl Iff.rfl (by simp [Inside, htear]))

theorem Locks.thread (H : Locks s) {ok : Bool} (h : ThreadResult r s ok s') : Locks s' := by
  cases h with
  | lock _ hfree =>
      rw [Locks, hfree] at H
      exact H.take (forall_owner (by simp [Inside]) (by simp [Inside]) (by simp [Inside]))
  | wait hpc | exit hpc | unlock hpc =>
      exact Held.give H (o := .worker) (by simp [Inside, hpc])
        (forall_owner (by simp [Inside]) (by simp [Inside]) (by simp [Inside]))
  | found hpc | spurious hpc | goOn hpc | swap hpc | done hpc =>
      exact H.congr (forall_owner (by simp [Inside, hpc]) Iff.rfl Iff.rfl)
  | poll | submit => exact H.queue _

end SdmaSystem

/-! ## The places of the larger steps -/

/-- Where `SdmaQueue` has the client. -/
def SdmaBell.client : SdmaBell → SdmaClient
  | .idle | .locked => .idle
  | .queued | .notified | .unlocked => .ringing

/-- Where `SdmaQueue` has the thread. -/
def SdmaPc.Matches (pc : SdmaPc) (thread : SdmaThread) : Prop :=
  match pc with
  | .unlock | .running => thread ≠ .exited
  | .exited => thread = .exited
  | _ => thread = .waiting

/-- What the thread has found out under the lock. -/
def SdmaPc.Knows (pc : SdmaPc) (q : SdmaQueue) : Prop :=
  match pc with
  | .checkStop => q.wptrQueue ≠ [] ∨ q.threadStop = true
  | .swap => q.wptrQueue ≠ [] ∧ q.threadStop = false
  | _ => True

namespace SdmaSystem

variable {r : SdmaRing} {s s' : SdmaSystem}

/-- The parties are where `SdmaQueue` has them. -/
structure Placed (s : SdmaSystem) : Prop where
  client : s.queue.client = s.bell.client
  thread : s.pc.Matches s.queue.thread
  knows : s.pc.Knows s.queue

theorem Placed.notifyOne (L : Placed s) : Placed s.notifyOne := by
  rcases s.notifyOne_cases with ⟨heq, _⟩ | ⟨heq, hpc⟩
  · rw [heq]
    exact L
  · have hthread := L.thread
    rw [hpc] at hthread
    rw [heq]
    exact ⟨L.client, hthread, trivial⟩

/-- What the client queues does not change what the thread has found. -/
theorem knows_ringDoorbell {pc : SdmaPc} {q : SdmaQueue} (h : pc.Knows q) :
    pc.Knows q.ringDoorbell := by
  have hne : q.ringDoorbell.wptrQueue ≠ [] := by simp [SdmaQueue.ringDoorbell]
  cases pc with
  | checkStop => exact Or.inl hne
  | swap => exact ⟨hne, h.2⟩
  | _ => trivial

theorem Placed.bell (L : Placed s) (h : BellResult s s') : Placed s' := by
  have hclient := L.client
  cases h with
  | lock hbell =>
      rw [hbell] at hclient
      exact ⟨hclient, L.thread, L.knows⟩
  | queue => exact ⟨rfl, L.thread, knows_ringDoorbell L.knows⟩
  | notify hbell =>
      rw [hbell] at hclient
      exact Placed.notifyOne ⟨hclient, L.thread, L.knows⟩
  | unlock hbell =>
      rw [hbell] at hclient
      exact ⟨hclient, L.thread, L.knows⟩
  | back =>
      refine ⟨rfl, L.thread, ?_⟩
      have hknows := L.knows
      revert hknows
      cases s.pc <;> exact id

/-- The destructor sets the flag with the lock, so the thread is not about to swap. -/
theorem Placed.destroy (L : Placed s) (H : Locks s) (h : DestroyResult s s') : Placed s' := by
  cases h with
  | lock | unlock | join => exact ⟨L.client, L.thread, L.knows⟩
  | stop htear =>
      refine ⟨L.client, L.thread, ?_⟩
      have hnot : ¬ s.Inside .worker := by
        intro hin
        have hdestructor : s.Inside (.client .destructor) := Or.inl htear
        cases H.exclusive hin hdestructor
      have hknows := L.knows
      cases hpc : s.pc with
      | checkStop => exact Or.inr rfl
      | swap => exact absurd (Or.inr (Or.inr (Or.inl hpc))) hnot
      | _ => trivial
  | notify => exact Placed.notifyOne ⟨L.client, L.thread, L.knows⟩

theorem thread_ne_exited (l : List (Nat × Nat)) : r.thread l ≠ .exited := by
  cases l with
  | nil => exact fun h => by cases h
  | cons x l => exact fun h => by cases h

theorem poll_frame (q : SdmaQueue) (pkt start finish : Nat) (rest : List (Nat × Nat)) :
    (q.poll pkt start finish rest).client = q.client ∧
      (q.poll pkt start finish rest).threadStop = q.threadStop ∧
      (q.poll pkt start finish rest).thread ≠ .exited := by
  rw [SdmaQueue.poll]
  split
  · exact ⟨rfl, rfl, fun h => by cases h⟩
  · exact ⟨rfl, rfl, fun h => by cases h⟩

theorem submitPair_frame (q : SdmaQueue) (start finish : Nat) (rest : List (Nat × Nat))
    (ok : Bool) : (SdmaQueue.submitPair r q start finish rest ok).client = q.client ∧
      (SdmaQueue.submitPair r q start finish rest ok).threadStop = q.threadStop ∧
      (SdmaQueue.submitPair r q start finish rest ok).thread = r.thread rest := by
  have hframe : ∀ offset size,
      ((SdmaQueue.preparePacket r q offset size).submit ok).client = q.client ∧
        ((SdmaQueue.preparePacket r q offset size).submit ok).threadStop = q.threadStop :=
    fun _ _ => ⟨rfl, rfl⟩
  obtain ⟨hclient, hstop⟩ := hframe (r.wrapIntoRocrRing start) (sub64 finish start)
  simp only [SdmaQueue.submitPair, hclient, hstop, and_self]

theorem Placed.thread_step (L : Placed s) {ok : Bool} (h : ThreadResult r s ok s') : Placed s' := by
  have hthread := L.thread
  cases h with
  | lock hpc =>
      refine ⟨L.client, ?_, trivial⟩
      rcases hpc with hpc | hpc
      · rw [hpc] at hthread
        exact hthread
      · rw [hpc] at hthread
        exact hthread
  | wait hpc | spurious hpc =>
      rw [hpc] at hthread
      exact ⟨L.client, hthread, trivial⟩
  | found hpc hfound =>
      rw [hpc] at hthread
      exact ⟨L.client, hthread, hfound⟩
  | exit => exact ⟨L.client, rfl, trivial⟩
  | goOn hpc hstop =>
      have hknows := L.knows
      rw [hpc] at hthread hknows
      have hne : s.queue.wptrQueue ≠ [] := by
        rcases hknows with hne | hset
        · exact hne
        · rw [hset] at hstop
          cases hstop
      exact ⟨L.client, hthread, hne, hstop⟩
  | swap => exact ⟨L.client, thread_ne_exited _, trivial⟩
  | unlock hpc =>
      rw [hpc] at hthread
      exact ⟨L.client, hthread, trivial⟩
  | poll pkt start finish rest hpc =>
      obtain ⟨hclient, _, hne⟩ := poll_frame s.queue pkt start finish rest
      refine ⟨hclient.trans L.client, ?_, ?_⟩
      · rw [show SdmaSystem.pc _ = _ from hpc]
        exact hne
      · rw [show SdmaSystem.pc _ = _ from hpc]
        trivial
  | submit pkt start finish rest hpc =>
      obtain ⟨hclient, _, hrest⟩ := submitPair_frame s.queue start finish rest ok
      refine ⟨hclient.trans L.client, ?_, ?_⟩
      · rw [show SdmaSystem.pc _ = _ from hpc, hrest]
        exact thread_ne_exited rest
      · rw [show SdmaSystem.pc _ = _ from hpc]
        trivial
  | done hpc hnot =>
      rw [hpc] at hthread
      refine ⟨L.client, ?_, trivial⟩
      cases hat : s.queue.thread with
      | waiting => rfl
      | running pkt start finish rest => exact absurd hat (hnot pkt start finish rest)
      | exited => exact absurd hat hthread

/-! ## The wait and the flag -/

/-- The thread waits while nothing is queued and nobody asks it to stop, but for the moment before
a notification. -/
structure Waits (s : SdmaSystem) : Prop where
  queued : s.pc = .waiting → s.queue.wptrQueue = [] ∨ s.bell = .queued
  stopping : s.pc = .waiting →
    s.queue.threadStop = false ∨ s.teardown = .stopping ∨ s.teardown = .unlocked
  stop : s.queue.threadStop = true ↔ s.teardown ≠ .notBegun ∧ s.teardown ≠ .locked
  joined : s.teardown = .joined → s.pc = .exited

/-- The notification wakes the thread, so what was true while it waited need not be any more. -/
theorem Waits.notifyOne (hstop : s.queue.threadStop = true ↔
      s.teardown ≠ .notBegun ∧ s.teardown ≠ .locked)
    (hjoined : s.teardown = .joined → s.pc = .exited) : Waits s.notifyOne := by
  rcases s.notifyOne_cases with ⟨heq, hpc⟩ | ⟨heq, hpc⟩
  · rw [heq]
    exact ⟨fun h => absurd h hpc, fun h => absurd h hpc, hstop, hjoined⟩
  · rw [heq]
    refine ⟨(fun h => by cases h), (fun h => by cases h), hstop, fun hj => ?_⟩
    have hended := hjoined hj
    rw [hpc] at hended
    cases hended

theorem Waits.bell (W : Waits s) (h : BellResult s s') : Waits s' := by
  have hempty : s.bell ≠ .queued → s.pc = .waiting → s.queue.wptrQueue = [] :=
    fun hne hpc => (W.queued hpc).resolve_right hne
  cases h with
  | lock hbell | unlock hbell | back hbell =>
      exact ⟨fun hpc => Or.inl (hempty (by simp [hbell]) hpc), W.stopping, W.stop, W.joined⟩
  | queue => exact ⟨fun _ => Or.inr rfl, W.stopping, W.stop, W.joined⟩
  | notify => exact Waits.notifyOne W.stop W.joined

theorem Waits.destroy (W : Waits s) (h : DestroyResult s s') : Waits s' := by
  cases h with
  | lock htear =>
      have hstop : ¬ s.queue.threadStop = true := fun h => (W.stop.mp h).1 htear
      exact ⟨W.queued, fun _ => Or.inl (Bool.eq_false_iff.mpr hstop),
        iff_of_false hstop fun h => h.2 rfl, fun hj => by cases hj⟩
  | stop =>
      exact ⟨W.queued, fun _ => Or.inr (Or.inl rfl), iff_of_true rfl ⟨by simp, by simp⟩,
        fun hj => by cases hj⟩
  | unlock htear =>
      have hstop := W.stop.mpr ⟨by simp [htear], by simp [htear]⟩
      exact ⟨W.queued, fun _ => Or.inr (Or.inr rfl), iff_of_true hstop ⟨by simp, by simp⟩,
        fun hj => by cases hj⟩
  | notify htear =>
      have hstop := W.stop.mpr ⟨by simp [htear], by simp [htear]⟩
      exact Waits.notifyOne (iff_of_true hstop ⟨by simp, by simp⟩) fun hj => by cases hj
  | join htear hended =>
      have hstop := W.stop.mpr ⟨by simp [htear], by simp [htear]⟩
      have hnot : s.pc ≠ .waiting := by simp [hended]
      exact ⟨fun h => absurd h hnot, fun h => absurd h hnot,
        iff_of_true hstop ⟨by simp, by simp⟩, fun _ => hended⟩

/-- The thread is in its loop over the pairs. -/
theorem Waits.queue (W : Waits s) {q : SdmaQueue} (hpc : s.pc = .running)
    (hstop : q.threadStop = s.queue.threadStop) : Waits { s with queue := q } := by
  have hnot : s.pc ≠ .waiting := by simp [hpc]
  refine ⟨fun h => absurd h hnot, fun h => absurd h hnot, ?_, W.joined⟩
  rw [hstop]
  exact W.stop

theorem Waits.thread (W : Waits s) {ok : Bool} (h : ThreadResult r s ok s') : Waits s' := by
  have hkept : ∀ s' : SdmaSystem, s.pc ≠ .exited → s'.queue.threadStop = s.queue.threadStop →
      s'.teardown = s.teardown → s'.pc ≠ .waiting → Waits s' := by
    intro s' hne hstop htear hnot
    refine ⟨fun h => absurd h hnot, fun h => absurd h hnot, ?_, fun hj => ?_⟩
    · rw [hstop, htear]
      exact W.stop
    · exact absurd (W.joined (htear ▸ hj)) hne
  cases h with
  | lock hpc =>
      refine hkept _ ?_ rfl rfl (by simp)
      rcases hpc with hpc | hpc <;> simp [hpc]
  | wait hpc hempty hstop =>
      refine ⟨fun _ => Or.inl hempty, fun _ => Or.inl hstop, W.stop, fun hj => ?_⟩
      have hended := W.joined hj
      rw [hpc] at hended
      cases hended
  | found hpc | spurious hpc | exit hpc | goOn hpc | swap hpc | unlock hpc | done hpc =>
      exact hkept _ (by simp [hpc]) rfl rfl (by simp)
  | poll pkt start finish rest hpc =>
      exact W.queue hpc (poll_frame s.queue pkt start finish rest).2.1
  | submit pkt start finish rest hpc =>
      exact W.queue hpc (submitPair_frame s.queue start finish rest ok).2.1

/-! ## The larger steps -/

/-- The step of `SdmaQueue` that a step stands for, if any. -/
def event (s : SdmaSystem) : SdmaStep → Option SdmaEvent
  | .store addr value => some (.store addr value)
  | .writeWptr w => some (.writeWptr w)
  | .ringDoorbell =>
      match s.bell with
      | .locked => some .ringDoorbell
      | .unlocked => some .ringReturn
      | _ => none
  | .destroy => if s.teardown = .locked then some .stop else none
  | .thread ok =>
      match s.pc with
      | .checkStop => if s.queue.threadStop then some .exit else none
      | .swap => some .swap
      | .running =>
          match s.queue.thread with
          | .running pkt _ _ _ => some (if s.queue.isPollPacket pkt then .poll else .submit ok)
          | _ => none
      | _ => none
  | .complete ib => some (.complete ib)

/-- The step stands for none of `SdmaQueue`, or for one that does the same to the queue. -/
def StandsFor (r : SdmaRing) (s s' : SdmaSystem) (e : SdmaStep) : Prop :=
  s.event e = none ∧ s'.queue = s.queue ∨
    ∃ e', s.event e = some e' ∧ s.queue.step r e' = some s'.queue

@[simp] theorem queue_notifyOne (s : SdmaSystem) : s.notifyOne.queue = s.queue := by
  rw [notifyOne]
  split <;> rfl

theorem bell_standsFor (L : Placed s) (h : BellResult s s') : StandsFor r s s' .ringDoorbell := by
  have hclient := L.client
  cases h with
  | lock hbell | unlock hbell => exact Or.inl ⟨by simp only [event, hbell], rfl⟩
  | queue hbell =>
      rw [hbell] at hclient
      refine Or.inr ⟨.ringDoorbell, by simp only [event, hbell], ?_⟩
      rw [SdmaQueue.step, if_pos (show s.queue.client = .idle from hclient)]
  | notify hbell => exact Or.inl ⟨by simp only [event, hbell], queue_notifyOne _⟩
  | back hbell =>
      rw [hbell] at hclient
      refine Or.inr ⟨.ringReturn, by simp only [event, hbell], ?_⟩
      rw [SdmaQueue.step, if_pos (show s.queue.client = .ringing from hclient)]

theorem destroy_standsFor (h : DestroyResult s s') : StandsFor r s s' .destroy := by
  cases h with
  | lock htear | unlock htear | join htear => exact Or.inl ⟨by simp [event, htear], rfl⟩
  | stop htear => exact Or.inr ⟨.stop, by simp [event, htear], rfl⟩
  | notify htear => exact Or.inl ⟨by simp [event, htear], queue_notifyOne _⟩

theorem thread_standsFor (L : Placed s) {ok : Bool} (h : ThreadResult r s ok s') :
    StandsFor r s s' (.thread ok) := by
  have hthread := L.thread
  have hknows := L.knows
  cases h with
  | lock hpc => rcases hpc with hpc | hpc <;> exact Or.inl ⟨by simp only [event, hpc], rfl⟩
  | wait hpc | found hpc | spurious hpc | unlock hpc =>
      exact Or.inl ⟨by simp only [event, hpc], rfl⟩
  | exit hpc hstop =>
      rw [hpc] at hthread
      refine Or.inr ⟨.exit, by simp only [event, hpc, hstop, if_pos], ?_⟩
      rw [SdmaQueue.step, if_pos ⟨show s.queue.thread = .waiting from hthread, hstop⟩]
  | goOn hpc hstop =>
      exact Or.inl ⟨by simp only [event, hpc, hstop, Bool.false_eq_true, if_false], rfl⟩
  | swap hpc =>
      rw [hpc] at hthread hknows
      refine Or.inr ⟨.swap, by simp only [event, hpc], ?_⟩
      rw [SdmaQueue.step, if_pos ⟨show s.queue.thread = .waiting from hthread, hknows.1, hknows.2⟩]
  | poll pkt start finish rest hpc hat hpoll =>
      refine Or.inr ⟨.poll, by simp only [event, hpc, hat, hpoll, if_pos], ?_⟩
      simp only [SdmaQueue.step, hat, hpoll, if_pos]
  | submit pkt start finish rest hpc hat hpoll =>
      refine Or.inr ⟨.submit ok, ?_, ?_⟩
      · simp only [event, hpc, hat, hpoll, Bool.false_eq_true, if_false]
      · simp only [SdmaQueue.step, hat, hpoll, Bool.false_eq_true, if_false]
  | done hpc hnot =>
      refine Or.inl ⟨?_, rfl⟩
      cases hat : s.queue.thread with
      | running pkt start finish rest => exact absurd hat (hnot pkt start finish rest)
      | waiting | exited => simp only [event, hpc, hat]

/-- What holds in every run. -/
structure Inv (s : SdmaSystem) : Prop where
  locks : Locks s
  placed : Placed s
  waits : Waits s

theorem inv_start : Inv {} where
  locks := forall_owner (by simp [Inside]) (by simp [Inside]) (by simp [Inside])
  placed := ⟨rfl, rfl, trivial⟩
  waits := ⟨(fun h => by cases h), (fun h => by cases h), by simp, fun h => by cases h⟩

/-- What the steps of the threads and of the destructor look at. -/
structure SameControl (q q' : SdmaQueue) : Prop where
  client : q'.client = q.client
  thread : q'.thread = q.thread
  wptrQueue : q'.wptrQueue = q.wptrQueue
  threadStop : q'.threadStop = q.threadStop

theorem Inv.queue (I : Inv s) {q : SdmaQueue} (hsame : SameControl s.queue q) :
    Inv { s with queue := q } := by
  obtain ⟨hclient, hthread, hqueue, hstop⟩ := hsame
  have hknows : s.pc.Knows q := by
    have hknows := I.placed.knows
    cases hpc : s.pc with
    | checkStop | swap =>
        rw [hpc] at hknows
        rw [SdmaPc.Knows, hqueue, hstop]
        exact hknows
    | _ => trivial
  refine ⟨I.locks.queue q, ⟨hclient.trans I.placed.client, ?_, hknows⟩, ?_⟩
  · show s.pc.Matches q.thread
    rw [hthread]
    exact I.placed.thread
  · obtain ⟨hqueued, hstopping, hflag, hjoined⟩ := I.waits
    rw [← hqueue] at hqueued
    rw [← hstop] at hstopping hflag
    exact ⟨hqueued, hstopping, hflag, hjoined⟩

/-- The client writes the ring or its write pointer, or the GPU completes an IB. -/
theorem Inv.outside (I : Inv s) {e : SdmaEvent} {q : SdmaQueue} (h : s.queue.step r e = some q)
    (he : (∃ addr value, e = .store addr value) ∨ (∃ w, e = .writeWptr w) ∨ ∃ ib, e = .complete ib) :
    Inv { s with queue := q } := by
  refine I.queue ?_
  rcases he with ⟨addr, value, rfl⟩ | ⟨w, rfl⟩ | ⟨ib, rfl⟩
  · cases h
    exact ⟨rfl, rfl, rfl, rfl⟩
  · rw [SdmaQueue.step] at h
    split at h
    next =>
      cases h
      exact ⟨rfl, rfl, rfl, rfl⟩
    next => cases h
  · rw [SdmaQueue.step] at h
    split at h
    next =>
      cases h
      exact ⟨rfl, rfl, rfl, rfl⟩
    next => cases h

theorem Inv.step (I : Inv s) {e : SdmaStep} (h : s.step r e = some s') :
    Inv s' ∧ StandsFor r s s' e := by
  cases e with
  | store addr value =>
      rw [SdmaSystem.step] at h
      obtain ⟨q, hq, rfl⟩ := Option.map_eq_some_iff.mp h
      exact ⟨I.outside hq (Or.inl ⟨addr, value, rfl⟩), Or.inr ⟨_, rfl, hq⟩⟩
  | writeWptr w =>
      rw [SdmaSystem.step] at h
      split at h
      next =>
        obtain ⟨q, hq, rfl⟩ := Option.map_eq_some_iff.mp h
        exact ⟨I.outside hq (Or.inr (Or.inl ⟨w, rfl⟩)), Or.inr ⟨_, rfl, hq⟩⟩
      next => cases h
  | ringDoorbell =>
      have hcases := ringDoorbell_result h
      exact ⟨⟨I.locks.bell hcases, I.placed.bell hcases, I.waits.bell hcases⟩,
        bell_standsFor I.placed hcases⟩
  | destroy =>
      have hcases := destroy_result h
      exact ⟨⟨I.locks.destroy hcases, I.placed.destroy I.locks hcases, I.waits.destroy hcases⟩,
        destroy_standsFor hcases⟩
  | thread ok =>
      have hcases := threadStep_result h
      exact ⟨⟨I.locks.thread hcases, I.placed.thread_step hcases, I.waits.thread hcases⟩,
        thread_standsFor I.placed hcases⟩
  | complete ib =>
      rw [SdmaSystem.step] at h
      obtain ⟨q, hq, rfl⟩ := Option.map_eq_some_iff.mp h
      exact ⟨I.outside hq (Or.inr (Or.inr ⟨ib, rfl⟩)), Or.inr ⟨_, rfl, hq⟩⟩

/-! ## Whole runs -/

/-- The step of `SdmaQueue` that a step stands for meets a condition. -/
def Conforms (ok : SdmaQueue → SdmaEvent → Prop) (s : SdmaSystem) (e : SdmaStep) : Prop :=
  ∀ e', s.event e = some e' → ok s.queue e'

theorem inv_of_reach {ok : SdmaSystem → SdmaStep → Prop} (h : Reach (step r) ok {} s) : Inv s :=
  h.invariant inv_start fun _ _ _ I _ hs => (I.step hs).1

/-- The locked parts of `RingDoorbell`, of the thread and of the destructor are as good as single
steps: whatever the order of the accesses, a run of the threads is a run of `SdmaQueue`, under
the same condition on its steps. -/
theorem queue_reach {ok : SdmaQueue → SdmaEvent → Prop} (h : Reach (step r) (Conforms ok) {} s) :
    Reach (SdmaQueue.step r) ok {} s.queue := by
  refine (h.simulate queue inv_start fun s e s' I hok hs => ?_).2
  obtain ⟨I', hstep⟩ := I.step hs
  rcases hstep with ⟨_, hsame⟩ | ⟨e', he', hstep⟩
  · exact ⟨I', Or.inl hsame⟩
  · exact ⟨I', Or.inr ⟨e', hok e' he', hstep⟩⟩

/-- The client rings with half of the ring written, and again before the thread is done. -/
def ringTwice : List SdmaStep :=
  [.writeWptr 32] ++ List.replicate 5 .ringDoorbell ++ [.writeWptr 48] ++
    List.replicate 5 (.thread true) ++ List.replicate 5 .ringDoorbell

/-- The second pair is in the queue while the first one is submitted. -/
theorem queue_reach_twice :
    ∃ s : SdmaSystem, s.queue.wptrQueue = [(32, 48)] ∧
      Reach (SdmaQueue.step SdmaQueue.smallRing) (fun _ _ => True) {} s.queue := by
  have hrun : (runAll (step SdmaQueue.smallRing) (fun _ _ => True) {} ringTwice).map
      (fun s => s.queue.wptrQueue) = some [(32, 48)] := by
    decide
  obtain ⟨s, hs, hqueue⟩ := Option.map_eq_some_iff.mp hrun
  have hreach : Reach (step SdmaQueue.smallRing) (Conforms fun _ _ => True) {} s :=
    (reach_of_runAll hs).mono fun _ _ _ _ _ => trivial
  exact ⟨s, hqueue, queue_reach hreach⟩

end SdmaSystem

end RocDxg
