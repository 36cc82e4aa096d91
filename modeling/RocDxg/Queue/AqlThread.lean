import Mathlib.Logic.Function.Basic
import RocDxg.Lib.Monitor
import RocDxg.Queue.Process

/-!
# The thread of a compute queue

`AqlToPm4Thread` of `wddm/queue.cpp` with everyone it shares the queue with: the threads that
submit packets and ring the doorbell, the destructor of the queue, and the GPU.

A submitting thread follows `hsa.h`.  It moves the write index to reserve a packet, its ticket,
waits until the packet that was in the slot before is behind the read index, writes the packet
with a valid header, and rings the doorbell.  Tickets may be written in any order, by any number of
threads.

The thread of the queue runs `Process`, which is the machine of `Queue.Process`, whenever the packet
at its index is valid.  It polls while the read index is behind the write index, for two
seconds if the packet stays invalid.  Then it looks again under the lock and waits.  The GPU moves
the read index packet by packet, as it executes the indirect buffers.
-/

namespace RocDxg

open Lib (Reach)
open Lib.Monitor (Owner)

/-- How far a submitting thread is with the doorbell. -/
inductive Bell where
  /-- It has done nothing since it last rang. -/
  | silent
  /-- It has moved the write index or written a packet, and has not begun to ring. -/
  | due
  /-- In `RingDoorbell`, with the lock. -/
  | locked
  /-- In `RingDoorbell`, before `notify_one`. -/
  | unlocked
deriving DecidableEq, Repr

/-- A submitting thread, with the tickets that it has reserved and not yet written. -/
structure Submitter where
  tickets : List Nat := []
  bell : Bell := .silent
deriving DecidableEq, Repr

/-- Where `~ComputeQueue` is. -/
inductive Teardown where
  | notBegun
  | locked
  /-- It has set `thread_stop_`. -/
  | stopping
  | unlocked
  /-- It has notified the thread, and is in `join`. -/
  | joining
  | joined
deriving DecidableEq, Repr

/-- Who takes the lock besides the thread. -/
inductive QueueClient (κ : Type) where
  | submitter (k : κ)
  | destructor
deriving DecidableEq, Repr

/-- What the thread has loaded of the two operands of a comparison. -/
structure Loads where
  wptr : Option Nat := none
  rptr : Option Nat := none
deriving DecidableEq, Repr

/-- Where `AqlToPm4Thread` is. -/
inductive AqlPc where
  /-- At the head of the loop. -/
  | top
  /-- In `Process`. -/
  | process
  /-- At the test whether to go on without the lock. -/
  | poll (seen : Loads)
  /-- At the lock. -/
  | acquire
  /-- At the comparison of the indices under the lock. -/
  | test (seen : Loads)
  /-- At `IsInvalidPacket` under the lock, with `sleep` set. -/
  | testPacket
  /-- There is nothing to do: at the test of `thread_stop_`. -/
  | idle
  /-- In the wait. -/
  | waiting
  /-- Notified, and without the lock. -/
  | woken
  /-- At the end of the round, with the lock. -/
  | release
  /-- Ended by `thread_stop_`. -/
  | exited
  /-- Ended by an error of `Process`. -/
  | failed
deriving DecidableEq, Repr

/-- `ComputeQueue` with its thread, its submitting threads and its destructor.  `sent` records the
packets by ticket, and `taken` those that `Process` has accepted. -/
structure AqlThread (κ : Type) where
  machine : Machine
  rptr : Nat := 0
  threadStop : Bool := false
  owner : Option (Owner (QueueClient κ)) := none
  submitters : κ → Submitter := fun _ => {}
  teardown : Teardown := .notBegun
  pc : AqlPc := .top
  currentPosition : Nat := 0
  sleep : Bool := false
  sent : Nat → Option AqlPacket := fun _ => none
  taken : List AqlPacket := []

/-- What decides the next step of the thread: which operand it loads first, whether the two
seconds are over, and the answers to `Process`. -/
structure ThreadAnswers where
  rptrFirst : Bool := false
  elapsed : Bool := false
  host : Host := {}
  driver : Driver := {}

/-- A step of one of the parties. -/
inductive AqlEvent (κ : Type) where
  | reserve (k : κ)
  | write (k : κ) (ticket : Nat) (p : AqlPacket)
  | lockDoorbell (k : κ)
  | unlockDoorbell (k : κ)
  | notifyOne (k : κ)
  | destroy
  /-- The GPU is done with a packet. -/
  | retire
  /-- The GPU is done with an indirect buffer. -/
  | complete
  | thread (x : ThreadAnswers)

/-- One more load. -/
def Loads.load (l : Loads) (rptrFirst : Bool) (wptr rptr : Nat) : Loads :=
  if l.rptr = none ∧ (rptrFirst ∨ l.wptr ≠ none) then { l with rptr := some rptr }
  else { l with wptr := some wptr }

namespace AqlThread

variable {κ : Type}

/-- The queue as its constructor leaves it. -/
def start (device : Device) (ringSize : Nat) (ring : Nat → AqlPacket) (cmdbufAddr : Nat) :
    AqlThread κ where
  machine := .init device ringSize ring cmdbufAddr

/-- The lock is free. -/
def lock (s : AqlThread κ) (o : Owner (QueueClient κ)) : Option (AqlThread κ) :=
  if s.owner = none then some { s with owner := some o } else none

/-- `notify_one` -/
def notifyOne (s : AqlThread κ) : AqlThread κ :=
  if s.pc = .waiting then { s with pc := .woken } else s

section NotifyOne

variable (s : AqlThread κ)

theorem notifyOne_cases : s.notifyOne = s ∧ s.pc ≠ .waiting ∨
    s.notifyOne = { s with pc := .woken } ∧ s.pc = .waiting := by
  rw [notifyOne]
  split
  next h => exact Or.inr ⟨rfl, h⟩
  next h => exact Or.inl ⟨rfl, h⟩

@[simp] theorem machine_notifyOne : s.notifyOne.machine = s.machine := by
  rw [notifyOne]
  split <;> rfl

@[simp] theorem rptr_notifyOne : s.notifyOne.rptr = s.rptr := by
  rw [notifyOne]
  split <;> rfl

@[simp] theorem sent_notifyOne : s.notifyOne.sent = s.sent := by
  rw [notifyOne]
  split <;> rfl

@[simp] theorem taken_notifyOne : s.notifyOne.taken = s.taken := by
  rw [notifyOne]
  split <;> rfl

@[simp] theorem submitters_notifyOne : s.notifyOne.submitters = s.submitters := by
  rw [notifyOne]
  split <;> rfl

end NotifyOne

/-! ## The submitting threads -/

section Submitters

variable [DecidableEq κ]

def setSubmitter (s : AqlThread κ) (k : κ) (x : Submitter) : AqlThread κ :=
  { s with submitters := Function.update s.submitters k x }

/-- The thread is not in `RingDoorbell`. -/
def Free (s : AqlThread κ) (k : κ) : Prop :=
  (s.submitters k).bell = .silent ∨ (s.submitters k).bell = .due

instance (s : AqlThread κ) (k : κ) : Decidable (s.Free k) := inferInstanceAs (Decidable (_ ∨ _))

/-- The write index moves on. -/
def reserve (s : AqlThread κ) (k : κ) : Option (AqlThread κ) :=
  if s.Free k then
    (s.machine.step (.ring (s.machine.wptr + 1))).map fun m =>
      { s.setSubmitter k
          { tickets := (s.submitters k).tickets ++ [s.machine.wptr], bell := .due } with
        machine := m }
  else none

/-- A packet that has a ticket is written when its slot is free. -/
def write (s : AqlThread κ) (k : κ) (ticket : Nat) (p : AqlPacket) : Option (AqlThread κ) :=
  if s.Free k ∧ ticket ∈ (s.submitters k).tickets ∧
      ticket < s.rptr + s.machine.queue.ringSize ∧ p.type ≠ some .invalid then
    (s.machine.step (.write (ticket % s.machine.queue.ringSize) p)).map fun m =>
      { s.setSubmitter k { tickets := (s.submitters k).tickets.erase ticket, bell := .due } with
        machine := m
        sent := Function.update s.sent ticket (some p) }
  else none

/-- `RingDoorbell` gets the lock. -/
def lockDoorbell (s : AqlThread κ) (k : κ) : Option (AqlThread κ) :=
  if s.Free k then
    (s.setSubmitter k { s.submitters k with bell := .locked }).lock (.client (.submitter k))
  else none

/-- `RingDoorbell` leaves the lock. -/
def unlockDoorbell (s : AqlThread κ) (k : κ) : Option (AqlThread κ) :=
  if (s.submitters k).bell = .locked then
    some { s.setSubmitter k { s.submitters k with bell := .unlocked } with owner := none }
  else none

/-- The end of `RingDoorbell`. -/
def ringDoorbell (s : AqlThread κ) (k : κ) : Option (AqlThread κ) :=
  if (s.submitters k).bell = .unlocked then
    some (s.setSubmitter k { s.submitters k with bell := .silent }).notifyOne
  else none

end Submitters

/-! ## The destructor and the GPU -/

/-- The next step of `~ComputeQueue` up to the end of `join`. -/
def destroy (s : AqlThread κ) : Option (AqlThread κ) :=
  match s.teardown with
  | .notBegun => { s with teardown := .locked }.lock (.client .destructor)
  | .locked => some { s with teardown := .stopping, threadStop := true }
  | .stopping => some { s with teardown := .unlocked, owner := none }
  | .unlocked => some { s with teardown := .joining }.notifyOne
  | .joining =>
      if s.pc = .exited ∨ s.pc = .failed then some { s with teardown := .joined } else none
  | .joined => none

/-- The GPU moves the read index past a packet of the indirect buffer it executes. -/
def retire (s : AqlThread κ) : Option (AqlThread κ) :=
  match s.machine.inFlight with
  | [] => none
  | ib :: _ => if s.rptr < ib.fence then some { s with rptr := s.rptr + 1 } else none

/-- The GPU completes the indirect buffer after its last packet. -/
def complete (s : AqlThread κ) : Option (AqlThread κ) :=
  match s.machine.inFlight with
  | [] => none
  | ib :: _ =>
      if ib.fence ≤ s.rptr then
        (s.machine.step .complete).map fun m => { s with machine := m }
      else none

/-! ## The thread -/

/-- The packets that were accepted, after a step of `Process` to `m`. -/
def takenAfter (s : AqlThread κ) (m : Machine) : List AqlPacket :=
  if m.queue.writeIndex = s.machine.queue.writeIndex then s.taken
  else s.taken ++ [s.machine.packet]

/-- A step of `Process`. -/
def run (s : AqlThread κ) (x : ThreadAnswers) : Option (AqlThread κ) :=
  (s.machine.step (.run x.host x.driver)).map fun m =>
    { s with machine := m, taken := s.takenAfter m, pc := .process }

/-- The round in which the packet is invalid. -/
def keepTime (s : AqlThread κ) (elapsed : Bool) : AqlThread κ :=
  if s.currentPosition = s.machine.queue.writeIndex then
    { s with sleep := s.sleep || elapsed, pc := .poll {} }
  else
    { s with currentPosition := s.machine.queue.writeIndex, sleep := false, pc := .poll {} }

/-- The next step of `AqlToPm4Thread`.  In the wait it is a spurious wake-up. -/
def threadStep (s : AqlThread κ) (x : ThreadAnswers) : Option (AqlThread κ) :=
  match s.pc with
  | .top =>
      if s.machine.queue.isInvalidPacket then some (s.keepTime x.elapsed) else s.run x
  | .process =>
      match s.machine.pc with
      | .idle => some { s with sleep := false, pc := .poll {} }
      | .failed _ => some { s with pc := .failed }
      | _ => s.run x
  | .poll seen =>
      match seen.wptr, seen.rptr with
      | some w, some r =>
          some { s with pc := if r < w ∧ s.sleep = false then .top else .acquire }
      | _, _ => some { s with pc := .poll (seen.load x.rptrFirst s.machine.wptr s.rptr) }
  | .acquire => { s with pc := .test {} }.lock .worker
  | .test seen =>
      match seen.wptr, seen.rptr with
      | some w, some r =>
          some { s with pc := if w ≤ r then .idle else if s.sleep then .testPacket else .release }
      | _, _ => some { s with pc := .test (seen.load x.rptrFirst s.machine.wptr s.rptr) }
  | .testPacket =>
      some { s with pc := if s.machine.queue.isInvalidPacket then .idle else .release }
  | .idle => some { s with owner := none, pc := if s.threadStop then .exited else .waiting }
  | .waiting => some { s with pc := .woken }
  | .woken => { s with pc := .release }.lock .worker
  | .release => some { s with owner := none, pc := .top }
  | .exited | .failed => none

/-- One step. -/
def step [DecidableEq κ] (s : AqlThread κ) : AqlEvent κ → Option (AqlThread κ)
  | .reserve k => s.reserve k
  | .write k ticket p => s.write k ticket p
  | .lockDoorbell k => s.lockDoorbell k
  | .unlockDoorbell k => s.unlockDoorbell k
  | .notifyOne k => s.ringDoorbell k
  | .destroy => s.destroy
  | .retire => s.retire
  | .complete => s.complete
  | .thread x => s.threadStep x

/-! ## What a step does -/

/-- The cases of a step of the thread. -/
inductive ThreadResult (s : AqlThread κ) (x : ThreadAnswers) : AqlThread κ → Prop
  | keepTime : s.pc = .top → s.machine.queue.isInvalidPacket = true →
      ThreadResult s x (s.keepTime x.elapsed)
  | run (m : Machine) : s.pc = .top ∨ s.pc = .process →
      s.machine.step (.run x.host x.driver) = some m →
      ThreadResult s x { s with machine := m, taken := s.takenAfter m, pc := .process }
  | returned : s.pc = .process → ThreadResult s x { s with sleep := false, pc := .poll {} }
  | failed : s.pc = .process → ThreadResult s x { s with pc := .failed }
  | load (seen : Loads) : s.pc = .poll seen →
      ThreadResult s x { s with pc := .poll (seen.load x.rptrFirst s.machine.wptr s.rptr) }
  | again (seen : Loads) : s.pc = .poll seen → ThreadResult s x { s with pc := .top }
  | toLock (seen : Loads) : s.pc = .poll seen → ThreadResult s x { s with pc := .acquire }
  | acquire : s.pc = .acquire → s.owner = none →
      ThreadResult s x { s with owner := some .worker, pc := .test {} }
  | loadLocked (seen : Loads) : s.pc = .test seen →
      ThreadResult s x { s with pc := .test (seen.load x.rptrFirst s.machine.wptr s.rptr) }
  | nothing (w r : Nat) : s.pc = .test ⟨some w, some r⟩ → w ≤ r →
      ThreadResult s x { s with pc := .idle }
  | toPacket (seen : Loads) : s.pc = .test seen → ThreadResult s x { s with pc := .testPacket }
  | indices (seen : Loads) : s.pc = .test seen → ThreadResult s x { s with pc := .release }
  | invalid : s.pc = .testPacket → s.machine.queue.isInvalidPacket = true →
      ThreadResult s x { s with pc := .idle }
  | valid : s.pc = .testPacket → ThreadResult s x { s with pc := .release }
  | exit : s.pc = .idle → s.threadStop = true →
      ThreadResult s x { s with owner := none, pc := .exited }
  | wait : s.pc = .idle → s.threadStop = false →
      ThreadResult s x { s with owner := none, pc := .waiting }
  | spurious : s.pc = .waiting → ThreadResult s x { s with pc := .woken }
  | relock : s.pc = .woken → s.owner = none →
      ThreadResult s x { s with owner := some .worker, pc := .release }
  | release : s.pc = .release → ThreadResult s x { s with owner := none, pc := .top }

variable {s s' : AqlThread κ} {x : ThreadAnswers}

theorem lock_eq_some {o : Owner (QueueClient κ)} (h : s.lock o = some s') :
    s.owner = none ∧ s' = { s with owner := some o } := by
  rw [lock] at h
  split at h
  next hfree => exact ⟨hfree, (Option.some.inj h).symm⟩
  next => cases h

theorem run_result (hpc : s.pc = .top ∨ s.pc = .process) (h : s.run x = some s') :
    ThreadResult s x s' := by
  obtain ⟨m, hm, rfl⟩ := Option.map_eq_some_iff.mp h
  exact .run m hpc hm

theorem threadStep_result (h : s.threadStep x = some s') : ThreadResult s x s' := by
  rw [threadStep] at h
  cases hpc : s.pc with
  | top =>
      simp only [hpc] at h
      split at h
      next hinvalid =>
        cases h
        exact .keepTime hpc hinvalid
      next => exact run_result (Or.inl hpc) h
  | process =>
      simp only [hpc] at h
      split at h
      · cases h
        exact .returned hpc
      · cases h
        exact .failed hpc
      · exact run_result (Or.inr hpc) h
  | poll seen =>
      simp only [hpc] at h
      split at h
      · cases h
        split
        · exact .again seen hpc
        · exact .toLock seen hpc
      · cases h
        exact .load seen hpc
  | acquire =>
      simp only [hpc] at h
      obtain ⟨hfree, rfl⟩ := lock_eq_some h
      exact .acquire hpc hfree
  | test seen =>
      simp only [hpc] at h
      split at h
      next w r hw hr =>
        cases h
        split
        next hle =>
          refine .nothing w r ?_ hle
          rw [hpc, ← hw, ← hr]
        next =>
          split
          · exact .toPacket seen hpc
          · exact .indices seen hpc
      next =>
        cases h
        exact .loadLocked seen hpc
  | testPacket =>
      simp only [hpc] at h
      cases h
      split
      next hinvalid => exact .invalid hpc hinvalid
      next => exact .valid hpc
  | idle =>
      simp only [hpc] at h
      cases h
      split
      next hstop => exact .exit hpc hstop
      next hstop => exact .wait hpc (Bool.eq_false_iff.mpr hstop)
  | waiting =>
      simp only [hpc] at h
      cases h
      exact .spurious hpc
  | woken =>
      simp only [hpc] at h
      obtain ⟨hfree, rfl⟩ := lock_eq_some h
      exact .relock hpc hfree
  | release =>
      simp only [hpc] at h
      cases h
      exact .release hpc
  | exited | failed =>
      simp only [hpc] at h
      cases h

/-- The cases of a step of the destructor. -/
inductive DestroyResult (s : AqlThread κ) : AqlThread κ → Prop
  | lock : s.teardown = .notBegun → s.owner = none →
      DestroyResult s { s with teardown := .locked, owner := some (.client .destructor) }
  | stop : s.teardown = .locked →
      DestroyResult s { s with teardown := .stopping, threadStop := true }
  | unlock : s.teardown = .stopping → DestroyResult s { s with teardown := .unlocked, owner := none }
  | notify : s.teardown = .unlocked → DestroyResult s { s with teardown := .joining }.notifyOne
  | join : s.teardown = .joining → s.pc = .exited ∨ s.pc = .failed →
      DestroyResult s { s with teardown := .joined }

theorem destroy_result (h : s.destroy = some s') : DestroyResult s s' := by
  rw [destroy] at h
  cases htear : s.teardown with
  | notBegun =>
      simp only [htear] at h
      obtain ⟨hfree, rfl⟩ := lock_eq_some h
      exact .lock htear hfree
  | locked =>
      simp only [htear] at h
      cases h
      exact .stop htear
  | stopping =>
      simp only [htear] at h
      cases h
      exact .unlock htear
  | unlocked =>
      simp only [htear] at h
      cases h
      exact .notify htear
  | joining =>
      simp only [htear] at h
      split at h
      next hended =>
        cases h
        exact .join htear hended
      next => cases h
  | joined =>
      simp only [htear] at h
      cases h

/-- The cases of a step. -/
inductive StepResult [DecidableEq κ] (s s' : AqlThread κ) : AqlEvent κ → Prop
  | reserve (k : κ) : s.Free k →
      s' = { s.setSubmitter k
          { tickets := (s.submitters k).tickets ++ [s.machine.wptr], bell := .due } with
        machine := { s.machine with wptr := s.machine.wptr + 1 } } →
      StepResult s s' (.reserve k)
  | write (k : κ) (ticket : Nat) (p : AqlPacket) : s.Free k →
      ticket ∈ (s.submitters k).tickets → ticket < s.rptr + s.machine.queue.ringSize →
      p.type ≠ some .invalid →
      s' = { s.setSubmitter k { tickets := (s.submitters k).tickets.erase ticket, bell := .due } with
        machine := { s.machine with queue := { s.machine.queue with
          ring := fun i => if i = ticket % s.machine.queue.ringSize then p
            else s.machine.queue.ring i } }
        sent := Function.update s.sent ticket (some p) } →
      StepResult s s' (.write k ticket p)
  | lockDoorbell (k : κ) : s.Free k → s.owner = none →
      s' = { s.setSubmitter k { s.submitters k with bell := .locked } with
        owner := some (.client (.submitter k)) } → StepResult s s' (.lockDoorbell k)
  | unlockDoorbell (k : κ) : (s.submitters k).bell = .locked →
      s' = { s.setSubmitter k { s.submitters k with bell := .unlocked } with owner := none } →
      StepResult s s' (.unlockDoorbell k)
  | notifyOne (k : κ) : (s.submitters k).bell = .unlocked →
      s' = (s.setSubmitter k { s.submitters k with bell := .silent }).notifyOne →
      StepResult s s' (.notifyOne k)
  | destroy : DestroyResult s s' → StepResult s s' .destroy
  | retire (ib : Ib) (rest : List Ib) : s.machine.inFlight = ib :: rest → s.rptr < ib.fence →
      s' = { s with rptr := s.rptr + 1 } → StepResult s s' .retire
  | complete (ib : Ib) (rest : List Ib) : s.machine.inFlight = ib :: rest → ib.fence ≤ s.rptr →
      s' = { s with machine := { s.machine with
        syncAddr := ib.fence
        completed := s.machine.completed ++ [ib]
        inFlight := rest } } → StepResult s s' .complete
  | thread (x : ThreadAnswers) : ThreadResult s x s' → StepResult s s' (.thread x)

theorem step_result [DecidableEq κ] {e : AqlEvent κ} (h : s.step e = some s') :
    StepResult s s' e := by
  cases e with
  | reserve k =>
      rw [step, reserve] at h
      split at h
      next hfree =>
        cases h
        exact .reserve k hfree rfl
      next => cases h
  | write k ticket p =>
      rw [step, write] at h
      split at h
      next hw =>
        obtain ⟨hfree, hmem, hroom, htype⟩ := hw
        cases h
        exact .write k ticket p hfree hmem hroom htype rfl
      next => cases h
  | lockDoorbell k =>
      rw [step, lockDoorbell] at h
      split at h
      next hfree =>
        obtain ⟨howner, rfl⟩ := lock_eq_some h
        exact .lockDoorbell k hfree howner rfl
      next => cases h
  | unlockDoorbell k =>
      rw [step, unlockDoorbell] at h
      split at h
      next hbell => exact .unlockDoorbell k hbell (Option.some.inj h).symm
      next => cases h
  | notifyOne k =>
      rw [step, ringDoorbell] at h
      split at h
      next hbell => exact .notifyOne k hbell (Option.some.inj h).symm
      next => cases h
  | destroy => exact .destroy (destroy_result h)
  | retire =>
      rw [step, retire] at h
      cases hfl : s.machine.inFlight with
      | nil => simp only [hfl] at h; cases h
      | cons ib rest =>
          simp only [hfl] at h
          split at h
          next hlt => exact .retire ib rest hfl hlt (Option.some.inj h).symm
          next => cases h
  | complete =>
      rw [step, complete] at h
      cases hfl : s.machine.inFlight with
      | nil => simp only [hfl] at h; cases h
      | cons ib rest =>
          simp only [hfl] at h
          split at h
          next hle =>
            rw [Machine.step, hfl] at h
            exact .complete ib rest hfl hle (Option.some.inj h).symm
          next => cases h
  | thread x => exact .thread x (threadStep_result h)

end AqlThread

end RocDxg
