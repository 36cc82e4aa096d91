import RocDxg.Queue.AqlRing
import RocDxg.Queue.Finishing

/-!
# The GPU at a compute queue

`AqlThread` lets the GPU move the read index past a packet of the indirect buffer that it executes,
at any time.  Here the GPU executes the commands of the indirect buffers one by one, and the read
index is the word of the memory that these commands write.

`gpu_reach` says that this is what `AqlThread` assumes: whatever the parties do in between, each
command moves the read index by one packet or not at all, and no indirect buffer is complete before
the read index is behind its last packet.  `signals_decremented` is about the signals: the
read index never passes a packet whose signal the GPU has still to decrement, and no signal
is decremented twice or ahead of its packet.
-/

namespace RocDxg

open Lib (Reach runAll reach_of_runAll)
open ComputeQueue (signalValue ApartFromRptr)
open Machine (Streams Left Due SignalStep settled)

/-- The queue with the words of the memory.  The GPU has executed some commands of the oldest
indirect buffer. -/
structure GpuQueue (κ : Type) where
  thread : AqlThread κ
  words : Words
  executed : Nat := 0

/-- A step of one of the parties, or of the GPU. -/
inductive GpuEvent (κ : Type) where
  | cpu (e : AqlEvent κ)
  /-- The GPU executes the next command. -/
  | execute
  /-- The GPU signals the end of an indirect buffer. -/
  | complete

/-- The step is one of the GPU. -/
def AqlEvent.ofGpu {κ : Type} : AqlEvent κ → Bool
  | .retire | .complete => true
  | _ => false

namespace GpuQueue

variable {κ : Type}

/-- The queue as its constructor leaves it. -/
def start (device : Device) (ringSize : Nat) (ring : Nat → AqlPacket) (cmdbufAddr : Nat)
    (words : Words) : GpuQueue κ where
  thread := .start device ringSize ring cmdbufAddr
  words := words

/-- The parties read the read index from the memory. -/
def look (t : AqlThread κ) (words : Words) : AqlThread κ :=
  { t with rptr := (words t.machine.queue.device.ringRptr).toNat }

/-- A step of a party. -/
def cpu [DecidableEq κ] (g : GpuQueue κ) (e : AqlEvent κ) : Option (GpuQueue κ) :=
  if e.ofGpu then none
  else
    (g.thread.step e).map fun t =>
      let words := g.thread.machine.settled t.machine g.words
      { g with thread := look t words, words := words }

/-- The next command of the oldest indirect buffer. -/
def execute (g : GpuQueue κ) : Option (GpuQueue κ) :=
  match g.thread.machine.inFlight with
  | [] => none
  | ib :: _ =>
      ib.cmds[g.executed]?.map fun c =>
        let words := c.execute g.words
        { thread := look g.thread words, words := words, executed := g.executed + 1 }

/-- The oldest indirect buffer is complete when all its commands are executed. -/
def complete (g : GpuQueue κ) : Option (GpuQueue κ) :=
  match g.thread.machine.inFlight with
  | [] => none
  | ib :: _ =>
      if g.executed = ib.cmds.length then
        (g.thread.machine.step .complete).map fun m =>
          { g with thread := { g.thread with machine := m }, executed := 0 }
      else none

/-- One step. -/
def step [DecidableEq κ] (g : GpuQueue κ) : GpuEvent κ → Option (GpuQueue κ)
  | .cpu e => g.cpu e
  | .execute => g.execute
  | .complete => g.complete

/-- What the parties keep to: the write index stays in 64 bits, no completion signal is the read
index, and vendor packets are processed and fit in their frames.  The signal of one that is not
processed would be set to zero while it is translated. -/
def Obeys (g : GpuQueue κ) : GpuEvent κ → Prop
  | .cpu (.reserve _) => g.thread.machine.wptr + 1 < 2 ^ 64
  | .cpu (.write _ _ p) => ApartFromRptr g.thread.machine.queue.device p ∧
      g.thread.machine.queue.device.processes p = true
  | .cpu (.thread x) => AqlThread.VendorFits g.thread (.thread x)
  | _ => True

instance (g : GpuQueue κ) : (e : GpuEvent κ) → Decidable (Obeys g e)
  | .cpu (.reserve _) => inferInstanceAs (Decidable (_ < _))
  | .cpu (.write _ _ _) => inferInstanceAs (Decidable (_ ∧ _))
  | .cpu (.thread x) => inferInstanceAs (Decidable (AqlThread.VendorFits g.thread (.thread x)))
  | .cpu (.lockDoorbell _) | .cpu (.unlockDoorbell _) | .cpu (.notifyOne _) | .cpu .destroy
  | .cpu .retire | .cpu .complete | .execute | .complete => inferInstanceAs (Decidable True)

/-! ## Where the GPU is -/

/-- The commands that write which are left of an indirect buffer.  The read index is at the packet
`n`, and `done` signals are decremented. -/
inductive Rest (device : Device) (sent : Nat → Option AqlPacket) (n b : Nat) :
    Nat → List Pm4 → Prop
  | before : n ≤ b → Rest device sent n b n (device.stream sent n b)
  | between : n < b →
      Rest device sent n b (n + 1) (device.advancing n :: device.stream sent (n + 1) b)

/-- The place of the GPU in the oldest indirect buffer. -/
def Placed (device : Device) (g : GpuQueue κ) (done : Nat) : Prop :=
  match g.thread.machine.inFlight with
  | [] => g.executed = 0 ∧ g.thread.rptr = g.thread.machine.syncAddr ∧ done = g.thread.rptr
  | ib :: _ => Rest device g.thread.sent g.thread.rptr ib.fence done
      ((ib.cmds.drop g.executed).filter Pm4.writesWord)

/-- The signals of the first packets are decremented. -/
def Counts (device : Device) (sent : Nat → Option AqlPacket) (words₀ words : Words) (n : Nat) :
    Prop :=
  ∀ s, s ≠ 0 → signalValue s ≠ device.ringRptr →
    words (signalValue s) =
      words₀ (signalValue s) - (device.completions sent s n : BitVec 64)

/-- The invariant. -/
structure Inv (device : Device) (n : Nat) (words₀ : Words) (g : GpuQueue κ) : Prop where
  ring : AqlThread.Inv n g.thread
  streams : Streams device g.thread.sent g.thread.machine
  left : Left device g.thread.sent g.thread.machine
  apart : ∀ t p, g.thread.sent t = some p → ApartFromRptr device p
  bound : g.thread.machine.wptr < 2 ^ 64
  rptr : g.words device.ringRptr = (g.thread.rptr : BitVec 64)
  sync_le : g.thread.machine.syncAddr ≤ g.thread.rptr
  placed : ∃ done, Placed device g done ∧
    (device.platformAtomic = true → Counts device g.thread.sent words₀ g.words done)
  due : device.platformAtomic = false →
    Due device g.thread.sent words₀ g.thread.machine g.words

variable {device : Device} {n : Nat} {words₀ : Words} {g g' : GpuQueue κ}
  {sent sent' : Nat → Option AqlPacket}

theorem Inv.rptr_lt (I : Inv device n words₀ g) : g.thread.rptr < 2 ^ 64 :=
  Nat.lt_of_le_of_lt I.ring.ring.rptr_le (Nat.lt_of_le_of_lt I.ring.writeIndex_le I.bound)

/-- A read index of 64 bits is the one in the memory. -/
theorem look_eq_self {t : AqlThread κ} {words : Words} (hlt : t.rptr < 2 ^ 64)
    (hrptr : words t.machine.queue.device.ringRptr = (t.rptr : BitVec 64)) : look t words = t := by
  have hnat : (words t.machine.queue.device.ringRptr).toNat = t.rptr := by
    rw [hrptr, BitVec.natCast_eq_ofNat, BitVec.toNat_ofNat, Nat.mod_eq_of_lt hlt]
  rw [look, hnat]

theorem Rest.congr {n b done : Nat} {cs : List Pm4} (h : Rest device sent n b done cs)
    (hsent : ∀ t, t < b → sent' t = sent t) : Rest device sent' n b done cs := by
  cases h with
  | before hle =>
      rw [← Device.stream_congr hsent]
      exact .before hle
  | between hlt =>
      rw [← Device.stream_congr hsent]
      exact .between hlt

theorem Counts.congr {words : Words} {n : Nat} (h : Counts device sent words₀ words n)
    (hsent : ∀ t, t < n → sent' t = sent t) : Counts device sent' words₀ words n := by
  intro s hs hne
  rw [h s hs hne, Device.completions_congr hsent]

/-! ## The commands -/

/-- The next command that writes decrements the signal of the packet at the read index, or moves the
read index past it. -/
theorem Rest.cons {n b done : Nat} {c : Pm4} {cs : List Pm4}
    (h : Rest device sent n b done (c :: cs)) (hsent : ∀ t, t < b → sent t ≠ none) :
    (device.platformAtomic = true ∧ done = n ∧ ∃ p s, sent n = some p ∧
      device.signalOf p = some s ∧ c = .atomicMem (signalValue s) (-1) ∧
      Rest device sent n b (n + 1) cs) ∨
    (c = device.advancing n ∧ n < b ∧ Rest device sent (n + 1) b (n + 1) cs ∧
      (done = n + 1 ∨ done = n ∧ ∀ p, sent n = some p → device.completing p = [])) := by
  generalize hcs : c :: cs = all at h
  cases h with
  | before hle =>
      rcases Nat.eq_or_lt_of_le hle with rfl | hlt
      · rw [Device.stream_self] at hcs
        cases hcs
      · obtain ⟨p, hp⟩ := Option.ne_none_iff_exists'.mp (hsent n hlt)
        rw [Device.stream_cons hlt hp, Device.finishing] at hcs
        cases hcompleting : device.completing p with
        | nil =>
            rw [hcompleting] at hcs
            cases hcs
            refine Or.inr ⟨rfl, hlt, .before hlt, Or.inr ⟨rfl, fun p' hp' => ?_⟩⟩
            cases hp.symm.trans hp'
            exact hcompleting
        | cons d ds =>
            rw [hcompleting] at hcs
            rw [Device.completing] at hcompleting
            split at hcompleting
            next hatomic =>
              cases hsignal : device.signalOf p with
              | none =>
                  rw [hsignal] at hcompleting
                  cases hcompleting
              | some s =>
                  rw [hsignal] at hcompleting
                  cases hcompleting
                  cases hcs
                  exact Or.inl ⟨hatomic, rfl, p, s, hp, hsignal, rfl, .between hlt⟩
            next => cases hcompleting
  | between hlt =>
      cases hcs
      exact Or.inr ⟨rfl, hlt, .before hlt, Or.inl rfl⟩

/-- Nothing is left when the read index is behind the last packet. -/
theorem Rest.nil {n b done : Nat} (h : Rest device sent n b done [])
    (hsent : ∀ t, t < b → sent t ≠ none) : n = b ∧ done = b := by
  generalize hcs : [] = all at h
  cases h with
  | before hle =>
      rcases Nat.eq_or_lt_of_le hle with rfl | hlt
      · exact ⟨rfl, rfl⟩
      · obtain ⟨p, hp⟩ := Option.ne_none_iff_exists'.mp (hsent n hlt)
        rw [Device.stream_cons hlt hp, Device.finishing] at hcs
        simp at hcs
  | between hlt => cases hcs

theorem Rest.le {n b done : Nat} {cs : List Pm4} (h : Rest device sent n b done cs) :
    n ≤ done ∧ done ≤ n + 1 ∧ done ≤ b := by
  cases h with
  | before hle => exact ⟨Nat.le_refl _, Nat.le_succ _, hle⟩
  | between hlt => exact ⟨Nat.le_succ _, Nat.le_refl _, hlt⟩

theorem execute_advancing {words : Words} {n : Nat}
    (hrptr : words device.ringRptr = (n : BitVec 64)) :
    (device.advancing n).execute words =
      Function.update words device.ringRptr ((n + 1 : Nat) : BitVec 64) := by
  rw [Device.advancing]
  split
  · show Function.update words device.ringRptr (words device.ringRptr + _) = _
    rw [hrptr]
    push_cast
    rfl
  · rfl

/-- The signal of a packet is decremented. -/
theorem Counts.decrement {words : Words} {n s : Nat} {p : AqlPacket}
    (h : Counts device sent words₀ words n) (hp : sent n = some p)
    (hs : device.signalOf p = some s) :
    Counts device sent words₀ ((Pm4.atomicMem (signalValue s) (-1)).execute words) (n + 1) := by
  intro t ht hne
  have hold := h t ht hne
  rw [Device.completions_succ hp, hs]
  show Function.update words (signalValue s) (words (signalValue s) + ((-1 : Int) : BitVec 64))
    (signalValue t) = _
  by_cases heq : s = t
  · subst heq
    rw [Function.update_self, hold, if_pos rfl, Nat.cast_add, Nat.cast_one, Int.cast_neg,
      Int.cast_one, ← sub_eq_add_neg, sub_sub]
  · rw [Function.update_of_ne fun h => heq (ComputeQueue.signalValue_inj.mp h).symm,
      if_neg fun h => heq (Option.some.inj h), Nat.add_zero, hold]

/-- A packet without a signal of its own is passed. -/
theorem Counts.pass {words : Words} {n : Nat} {p : AqlPacket}
    (h : Counts device sent words₀ words n) (hp : sent n = some p)
    (hs : device.signalOf p = none) : Counts device sent words₀ words (n + 1) := by
  intro t ht hne
  rw [Device.completions_succ hp, hs, if_neg (by simp), Nat.add_zero]
  exact h t ht hne

/-- The read pointer is none of the signals. -/
theorem Counts.update_rptr {words : Words} {n : Nat} (h : Counts device sent words₀ words n)
    (v : BitVec 64) : Counts device sent words₀ (Function.update words device.ringRptr v) n := by
  intro t ht hne
  rw [Function.update_of_ne hne]
  exact h t ht hne

/-- The packets up to the fence of an indirect buffer in flight were sent. -/
theorem Inv.sent_of_lt (I : Inv device n words₀ g) {ib : Ib} (hib : ib ∈ g.thread.machine.inFlight)
    (t : Nat) (ht : t < ib.fence) : g.thread.sent t ≠ none :=
  I.ring.ring.behind t (Nat.lt_of_lt_of_le ht (I.ring.ring.fences ib hib))

/-- The read index moves on. -/
theorem Inv.advance (I : Inv device n words₀ g) {ib : Ib} {rest : List Ib} {words : Words}
    (hn : 0 < n) (hfl : g.thread.machine.inFlight = ib :: rest) (hlt : g.thread.rptr < ib.fence)
    (hwords : words = Function.update g.words device.ringRptr ((g.thread.rptr + 1 : Nat) : BitVec 64))
    (hrest : Rest device g.thread.sent (g.thread.rptr + 1) ib.fence (g.thread.rptr + 1)
      ((ib.cmds.drop (g.executed + 1)).filter Pm4.writesWord))
    (hcounts : device.platformAtomic = true →
      Counts device g.thread.sent words₀ g.words (g.thread.rptr + 1)) :
    look g.thread words = { g.thread with rptr := g.thread.rptr + 1 } ∧
      Inv device n words₀
        ⟨{ g.thread with rptr := g.thread.rptr + 1 }, words, g.executed + 1⟩ := by
  have hring := I.ring.retire hn hfl hlt
  have hbound : g.thread.rptr + 1 < 2 ^ 64 :=
    Nat.lt_of_le_of_lt hring.ring.rptr_le (Nat.lt_of_le_of_lt hring.writeIndex_le I.bound)
  have hrptr : words device.ringRptr = ((g.thread.rptr + 1 : Nat) : BitVec 64) := by
    rw [hwords, Function.update_self]
  refine ⟨?_, hring, I.streams, I.left, I.apart, I.bound, hrptr,
    Nat.le_succ_of_le I.sync_le, ⟨g.thread.rptr + 1, ?_, ?_⟩, ?_⟩
  · have hsame : look g.thread words =
        look { g.thread with rptr := g.thread.rptr + 1 } words := rfl
    rw [hsame]
    refine look_eq_self hbound ?_
    show words g.thread.machine.queue.device.ringRptr = _
    rw [I.streams.onDevice, hrptr]
  · rw [Placed]
    simp only [hfl]
    exact hrest
  · intro hatomic
    rw [hwords]
    exact (hcounts hatomic).update_rptr _
  · intro hcpu
    rw [hwords]
    exact (I.due hcpu).update_rptr _

/-- The GPU executes a command: the read index moves on by one packet, or stays. -/
theorem Inv.execute [DecidableEq κ] (I : Inv device n words₀ g) (hn : 0 < n)
    (hs : g.execute = some g') : Inv device n words₀ g' ∧
      (g'.thread = g.thread ∨ g.thread.step .retire = some g'.thread) := by
  rw [GpuQueue.execute] at hs
  cases hfl : g.thread.machine.inFlight with
  | nil =>
      rw [hfl] at hs
      cases hs
  | cons ib rest =>
      rw [hfl] at hs
      obtain ⟨c, hc, rfl⟩ := Option.map_eq_some_iff.mp hs
      obtain ⟨done, hplaced, hcounts⟩ := I.placed
      rw [Placed, hfl] at hplaced
      have hsent := I.sent_of_lt (hfl ▸ List.mem_cons_self ..)
      have hdrop : ib.cmds.drop g.executed = c :: ib.cmds.drop (g.executed + 1) := by
        obtain ⟨hlt, rfl⟩ := List.getElem?_eq_some_iff.mp hc
        exact List.drop_eq_getElem_cons hlt
      simp only [hdrop] at hplaced
      have hstay : look g.thread g.words = g.thread := by
        refine look_eq_self I.rptr_lt ?_
        rw [I.streams.onDevice]
        exact I.rptr
      cases hwrites : c.writesWord with
      | false =>
          rw [List.filter_cons, hwrites, if_neg Bool.false_ne_true] at hplaced
          simp only [Pm4.execute_of_not_writesWord hwrites, hstay]
          refine ⟨⟨I.ring, I.streams, I.left, I.apart, I.bound, I.rptr, I.sync_le,
            ⟨done, ?_, hcounts⟩, I.due⟩, Or.inl trivial⟩
          rw [Placed]
          simp only [hfl]
          exact hplaced
      | true =>
          rw [List.filter_cons, hwrites, if_pos rfl] at hplaced
          rcases hplaced.cons hsent with ⟨hatomic, rfl, p, s, hp, hsignal, rfl, hrest⟩ |
            ⟨rfl, hlt, hrest, hdone⟩
          · obtain ⟨hps, hs0, _⟩ := Device.signalOf_eq_some.mp hsignal
            have hne : signalValue s ≠ device.ringRptr := hps ▸ I.apart _ p hp (hps.symm ▸ hs0)
            have hrptr : (Pm4.atomicMem (signalValue s) (-1)).execute g.words device.ringRptr =
                (g.thread.rptr : BitVec 64) :=
              (Function.update_of_ne hne.symm _ _).trans I.rptr
            have hlook : look g.thread ((Pm4.atomicMem (signalValue s) (-1)).execute g.words) =
                g.thread := by
              refine look_eq_self I.rptr_lt ?_
              rw [I.streams.onDevice]
              exact hrptr
            simp only [hlook]
            refine ⟨⟨I.ring, I.streams, I.left, I.apart, I.bound, hrptr, I.sync_le,
              ⟨g.thread.rptr + 1, ?_, fun _ => (hcounts hatomic).decrement hp hsignal⟩,
              fun hcpu => ?_⟩, Or.inl trivial⟩
            · rw [Placed]
              simp only [hfl]
              exact hrest
            · rw [hatomic] at hcpu
              cases hcpu
          · have hwords := execute_advancing I.rptr
            obtain ⟨hlook, hinv⟩ := I.advance hn hfl hlt hwords hrest fun hatomic => by
              rcases hdone with rfl | ⟨rfl, hnone⟩
              · exact hcounts hatomic
              · obtain ⟨p, hp⟩ := Option.ne_none_iff_exists'.mp (hsent _ hlt)
                refine (hcounts hatomic).pass hp ?_
                have hempty := hnone p hp
                rw [Device.completing, if_pos hatomic, List.map_eq_nil_iff] at hempty
                exact Option.toList_eq_nil_iff.mp hempty
            simp only [hlook]
            refine ⟨hinv, Or.inr ?_⟩
            rw [AqlThread.step, AqlThread.retire, hfl]
            exact if_pos hlt

/-- The GPU completes an indirect buffer, and the read index is behind its last packet. -/
theorem Inv.complete [DecidableEq κ] (I : Inv device n words₀ g) (hs : g.complete = some g') :
    Inv device n words₀ g' ∧ g.thread.step .complete = some g'.thread := by
  rw [GpuQueue.complete] at hs
  cases hfl : g.thread.machine.inFlight with
  | nil =>
      rw [hfl] at hs
      cases hs
  | cons ib rest =>
      rw [hfl, Machine.step, hfl] at hs
      simp only at hs
      split at hs
      next hexecuted =>
        cases hs
        obtain ⟨done, hplaced, hcounts⟩ := I.placed
        rw [Placed, hfl] at hplaced
        simp only [hexecuted, List.drop_length] at hplaced
        have hsent := I.sent_of_lt (hfl ▸ List.mem_cons_self ..)
        obtain ⟨hrptr, rfl⟩ := hplaced.nil hsent
        have hchain := I.streams.chain
        rw [hfl] at hchain
        obtain ⟨b, F, hrest⟩ := hchain
        refine ⟨⟨I.ring.complete hfl, I.streams.complete hfl, I.left.complete I.streams hfl, I.apart,
          I.bound, I.rptr, Nat.le_of_eq hrptr.symm, ⟨ib.fence, ?_, hcounts⟩, I.due⟩, ?_⟩
        · rw [Placed]
          cases rest with
          | nil => exact ⟨rfl, hrptr, hrptr.symm⟩
          | cons ib' rest' =>
              obtain ⟨b', F', _⟩ := hrest
              simp only
              rw [List.drop_zero, F'.writes, hrptr, ← F.fence, F'.fence]
              rw [← F.fence] at F'
              exact .before F'.le
        · rw [AqlThread.step, AqlThread.complete, hfl]
          simp only [Machine.step, hfl]
          exact if_pos (Nat.le_of_eq hrptr.symm)
      next => cases hs

/-! ## The other parties -/

/-- What a step of another party leaves alone, and what it adds. -/
structure CpuStep (device : Device) (s t : AqlThread κ) : Prop where
  streams : Streams device t.sent t.machine
  left : Left device t.sent t.machine
  apart : ∀ i p, t.sent i = some p → ApartFromRptr device p
  bound : t.machine.wptr < 2 ^ 64
  rptr : t.rptr = s.rptr
  sent : ∀ i, i < t.machine.queue.writeIndex → t.sent i = s.sent i
  syncAddr : t.machine.syncAddr = s.machine.syncAddr
  inFlight : t.machine.inFlight = s.machine.inFlight ∨
    ∃ ib, t.machine.inFlight = s.machine.inFlight ++ [ib]
  signal : SignalStep device s.sent s.machine t.machine

theorem signalStep_of_eq {m m' : Machine} (hpc : m'.pc = m.pc)
    (hindex : m'.queue.writeIndex = m.queue.writeIndex)
    (haddr : m'.queue.signalAddr = m.queue.signalAddr) : SignalStep device sent m m' :=
  .kept hindex haddr fun value hat => by
    rw [hpc, hat]
    exact Pc.noConfusion

/-- A step of another party that touches neither the machine nor the packets. -/
theorem CpuStep.frame (I : Inv device n words₀ g) {t : AqlThread κ}
    (hmachine : t.machine = g.thread.machine) (hrptr : t.rptr = g.thread.rptr)
    (hsent : t.sent = g.thread.sent) : CpuStep device g.thread t := by
  refine ⟨?_, ?_, ?_, ?_, hrptr, fun i _ => by rw [hsent], by rw [hmachine],
    Or.inl (by rw [hmachine]), signalStep_of_eq ?_ ?_ ?_⟩
  · rw [hmachine, hsent]
    exact I.streams
  · rw [hmachine, hsent]
    exact I.left
  · rw [hsent]
    exact I.apart
  · rw [hmachine]
    exact I.bound
  all_goals rw [hmachine]

/-- A step of `Process`. -/
theorem CpuStep.run (I : Inv device n words₀ g) {x : ThreadAnswers} {m : Machine} {pc : AqlPc}
    (hm : g.thread.machine.step (.run x.host x.driver) = some m)
    (hfits : g.thread.machine.pc = .switch →
      g.thread.machine.packet.type = some .vendorSpecific →
        g.thread.machine.queue.VendorFits x.host g.thread.machine.packet) :
    CpuStep device g.thread
      { g.thread with machine := m, taken := g.thread.takenAfter m, pc := pc } := by
  have hfinds : g.thread.machine.pc = .switch →
      Machine.Finds g.thread.sent g.thread.machine x.host := by
    intro hpc
    obtain ⟨hsent, hne⟩ := I.ring.sent_switch hpc
    exact ⟨hsent, hne, hfits hpc⟩
  obtain ⟨S, L, hsignal⟩ := Machine.run_finishing I.streams I.left hm hfinds
  obtain ⟨hsync, hfl⟩ := Machine.runStep_inFlight hm
  have hwptr : m.wptr = g.thread.machine.wptr := (Machine.runStep_turned hm).wptr
  exact ⟨S, L, I.apart, hwptr ▸ I.bound, rfl, fun _ _ => rfl, hsync, hfl, hsignal⟩

/-- A packet is written behind those that are translated. -/
theorem CpuStep.write [DecidableEq κ] (I : Inv device n words₀ g) {k : κ} {ticket : Nat}
    {p : AqlPacket} (hmem : ticket ∈ (g.thread.submitters k).tickets)
    (hroom : ticket < g.thread.rptr + g.thread.machine.queue.ringSize)
    (hapart : ApartFromRptr device p) :
    CpuStep device g.thread { g.thread.setSubmitter k
        { tickets := (g.thread.submitters k).tickets.erase ticket, bell := .due } with
      machine := { g.thread.machine with queue := { g.thread.machine.queue with
        ring := fun i => if i = ticket % g.thread.machine.queue.ringSize then p
          else g.thread.machine.queue.ring i } }
      sent := Function.update g.thread.sent ticket (some p) } := by
  have hle := I.ring.ticket_le hmem
  have hsent : ∀ i, i < g.thread.machine.queue.writeIndex →
      Function.update g.thread.sent ticket (some p) i = g.thread.sent i :=
    fun i hi => Function.update_of_ne (by omega) _ _
  have S := I.streams.congr_sent hsent
  have L := I.left.congr_sent hsent
  refine ⟨⟨S.onDevice, S.chain, S.le, S.building⟩, ⟨L.pending, L.waiting, ?_⟩, ?_, I.bound, rfl,
    hsent, rfl, Or.inl rfl, signalStep_of_eq rfl rfl rfl⟩
  · have hat := I.left.atPc
    rw [Machine.SignalAt] at hat ⊢
    cases hpc : g.thread.machine.pc with
    | merge slot =>
        rw [hpc] at hat
        have hne : slot ≠ ticket % g.thread.machine.queue.ringSize := by
          rintro rfl
          rw [I.ring.ring.size] at hroom hpc
          exact I.ring.not_merge hmem hroom hpc
        simp only [if_neg hne]
        exact hat
    | _ =>
        rw [hpc] at hat
        exact hat
  · intro i q hq
    by_cases hi : i = ticket
    · subst hi
      cases (Function.update_self i (some p) g.thread.sent).symm.trans hq
      exact hapart
    · exact I.apart i q ((Function.update_of_ne hi _ _).symm.trans hq)

theorem cpuStep [DecidableEq κ] (I : Inv device n words₀ g) {e : AqlEvent κ} {t : AqlThread κ}
    (hgpu : e.ofGpu = false) (hok : Obeys g (.cpu e)) (hs : g.thread.step e = some t) :
    CpuStep device g.thread t := by
  cases AqlThread.step_result hs with
  | reserve k _ heq =>
      subst heq
      have S := I.streams
      have L := I.left
      exact ⟨⟨S.onDevice, S.chain, S.le, S.building⟩, ⟨L.pending, L.waiting, L.atPc⟩, I.apart, hok,
        rfl, fun _ _ => rfl, rfl, Or.inl rfl, signalStep_of_eq rfl rfl rfl⟩
  | write k ticket p _ hmem hroom _ heq =>
      subst heq
      exact .write I hmem hroom (I.streams.onDevice ▸ hok.1)
  | lockDoorbell k _ _ heq | unlockDoorbell k _ heq =>
      subst heq
      exact .frame I rfl rfl rfl
  | notifyOne k _ heq =>
      subst heq
      exact .frame I (by simp; rfl) (by simp; rfl) (by simp; rfl)
  | destroy hdestroy =>
      cases hdestroy with
      | notify => exact .frame I (by simp) (by simp) (by simp)
      | _ => exact .frame I rfl rfl rfl
  | retire | complete => cases hgpu
  | thread x hthread =>
      cases hthread with
      | keepTime =>
          rw [AqlThread.keepTime]
          split <;> exact .frame I rfl rfl rfl
      | run m _ hm => exact .run I hm hok
      | _ => exact .frame I rfl rfl rfl

/-- One signal at most is decremented before its packet is behind the read index. -/
theorem Inv.done_le (I : Inv device n words₀ g) {done : Nat} (h : Placed device g done) :
    g.thread.rptr ≤ done ∧ done ≤ g.thread.rptr + 1 ∧ done ≤ g.thread.machine.queue.writeIndex := by
  rw [Placed] at h
  cases hfl : g.thread.machine.inFlight with
  | nil =>
      rw [hfl] at h
      obtain ⟨_, _, rfl⟩ := h
      exact ⟨Nat.le_refl _, Nat.le_succ _, I.ring.ring.rptr_le⟩
  | cons ib rest =>
      rw [hfl] at h
      obtain ⟨hlo, hhi, hfence⟩ := h.le
      exact ⟨hlo, hhi, Nat.le_trans hfence (I.ring.ring.fences ib (hfl ▸ List.mem_cons_self ..))⟩

/-- Nothing is left to the CPU if the GPU decrements the signals. -/
theorem Inv.signalAddr_none (I : Inv device n words₀ g) (hatomic : device.platformAtomic = true) :
    g.thread.machine.queue.signalAddr = none := by
  cases haddr : g.thread.machine.queue.signalAddr with
  | none => rfl
  | some addr =>
      have hcpu := (I.left.pending addr haddr).1
      rw [hatomic] at hcpu
      cases hcpu

/-- The place of the GPU is the same, or it begins with the indirect buffer just submitted. -/
theorem Placed.cpu (I : Inv device n words₀ g) {t : AqlThread κ} {words : Words} {done : Nat}
    (C : CpuStep device g.thread t) (h : Placed device g done) :
    Placed device ⟨t, words, g.executed⟩ done := by
  have hsent : ∀ {b}, b ≤ g.thread.machine.queue.writeIndex → ∀ i, i < b →
      t.sent i = g.thread.sent i := by
    intro b hb i hi
    refine C.sent i ?_
    cases C.signal with
    | kept hindex | decremented _ _ _ _ hindex => omega
    | accepted _ _ _ hindex => omega
  rw [Placed] at h ⊢
  simp only
  cases hfl : g.thread.machine.inFlight with
  | nil =>
      rw [hfl] at h
      obtain ⟨hexecuted, hrptr, rfl⟩ := h
      rcases C.inFlight with hsame | ⟨ib, happend⟩
      · rw [hsame, hfl]
        exact ⟨hexecuted, by rw [C.rptr, C.syncAddr, hrptr], C.rptr.symm⟩
      · have hchain := C.streams.chain
        rw [happend, hfl] at hchain ⊢
        obtain ⟨b, F, _⟩ := hchain
        simp only [List.nil_append]
        rw [hexecuted, List.drop_zero, F.writes, F.fence, C.syncAddr, ← hrptr, C.rptr]
        have hle := F.le
        rw [C.syncAddr, ← hrptr] at hle
        exact .before hle
  | cons ib rest =>
      rw [hfl] at h
      have hfence := I.ring.ring.fences ib (hfl ▸ List.mem_cons_self ..)
      have hrest : Rest device t.sent t.rptr ib.fence done
          ((ib.cmds.drop g.executed).filter Pm4.writesWord) := by
        rw [C.rptr]
        exact h.congr (hsent hfence)
      rcases C.inFlight with hsame | ⟨ib', happend⟩
      · rw [hsame, hfl]
        exact hrest
      · rw [happend, hfl]
        exact hrest

/-- A step of another party. -/
theorem Inv.cpu [DecidableEq κ] (I : Inv device n words₀ g) (hn : 0 < n) {e : AqlEvent κ}
    (hok : Obeys g (.cpu e)) (hs : g.cpu e = some g') :
    Inv device n words₀ g' ∧ g.thread.step e = some g'.thread := by
  rw [GpuQueue.cpu] at hs
  split at hs
  next => cases hs
  next hgpu =>
    obtain ⟨t, ht, rfl⟩ := Option.map_eq_some_iff.mp hs
    have C := cpuStep I (Bool.eq_false_iff.mpr hgpu) hok ht
    have hring := I.ring.step hn ht
    have hne : g.thread.machine.queue.signalAddr ≠ some device.ringRptr := by
      intro haddr
      obtain ⟨_, i, p, s, _, hp, hsignal, heq⟩ := I.left.pending _ haddr
      obtain ⟨hps, hs0, _⟩ := Device.signalOf_eq_some.mp hsignal
      exact I.apart i p hp (hps.symm ▸ hs0) (hps ▸ heq.symm)
    have hrptr : g.thread.machine.settled t.machine g.words device.ringRptr =
        (t.rptr : BitVec 64) := by
      rw [Machine.settled_apply hne, C.rptr]
      exact I.rptr
    have hlook : look t (g.thread.machine.settled t.machine g.words) = t := by
      refine look_eq_self (C.rptr ▸ I.rptr_lt) ?_
      rw [C.streams.onDevice]
      exact hrptr
    simp only [hlook]
    obtain ⟨done, hplaced, hcounts⟩ := I.placed
    refine ⟨⟨hring, C.streams, C.left, C.apart, C.bound, hrptr, ?_,
      ⟨done, Placed.cpu I C hplaced, fun hatomic => ?_⟩, fun hcpu => ?_⟩, ht⟩
    · rw [C.syncAddr, C.rptr]
      exact I.sync_le
    · rw [Machine.settled_of_none (I.signalAddr_none hatomic)]
      refine (hcounts hatomic).congr fun i hi => C.sent i ?_
      have hle := (I.done_le hplaced).2.2
      cases C.signal with
      | kept hindex | decremented _ _ _ _ hindex => omega
      | accepted _ _ _ hindex => omega
    · exact ((I.due hcpu).run hcpu C.signal).congr_sent C.sent

/-! ## Every step -/

/-- What a step of the GPU is among the other parties: the read index moves by one packet or stays,
and an indirect buffer is complete when the read index is behind it. -/
theorem Inv.step [DecidableEq κ] (I : Inv device n words₀ g) (hn : 0 < n) {e : GpuEvent κ}
    (hok : Obeys g e) (hs : g.step e = some g') : Inv device n words₀ g' ∧
      (g'.thread = g.thread ∨
        ∃ e', AqlThread.VendorFits g.thread e' ∧ g.thread.step e' = some g'.thread) := by
  cases e with
  | cpu e =>
      obtain ⟨I', hstep⟩ := I.cpu hn hok hs
      refine ⟨I', Or.inr ⟨e, ?_, hstep⟩⟩
      cases e with
      | thread x => exact hok
      | _ => trivial
  | execute =>
      obtain ⟨I', hsame | hstep⟩ := I.execute hn hs
      · exact ⟨I', Or.inl hsame⟩
      · exact ⟨I', Or.inr ⟨.retire, trivial, hstep⟩⟩
  | complete =>
      obtain ⟨I', hstep⟩ := I.complete hs
      exact ⟨I', Or.inr ⟨.complete, trivial, hstep⟩⟩

/-! ## Whole runs -/

theorem inv_start (ring : Nat → AqlPacket) (cmdbufAddr : Nat)
    (hring : ∀ i, (ring i).type = some .invalid) (hzero : words₀ device.ringRptr = 0) :
    Inv device n words₀ (start device n ring cmdbufAddr words₀ : GpuQueue κ) where
  ring := AqlThread.inv_start device ring cmdbufAddr hring
  streams := ⟨rfl, rfl, Nat.le_refl _, (Device.stream_self _ _ _).symm⟩
  left := ⟨fun _ h => (by cases h), fun _ t _ _ _ hlt => absurd hlt (Nat.not_lt_zero t), rfl⟩
  apart := fun _ _ h => by cases h
  bound := Nat.two_pow_pos 64
  rptr := hzero
  sync_le := Nat.le_refl _
  placed := ⟨0, ⟨rfl, rfl, rfl⟩, fun _ s _ _ => (sub_zero _).symm⟩
  due := fun _ s _ _ => by
    show words₀ (signalValue s) = words₀ (signalValue s) - 0 + 0
    rw [sub_zero, add_zero]

/-- Where the CPU decrements the signals, those of the packets that are complete are decremented, but
for the one that `Process` waits for. -/
theorem Inv.counts_cpu (I : Inv device n words₀ g) (hcpu : device.platformAtomic = false) :
    ∃ done, done ≤ g.thread.rptr ∧ Counts device g.thread.sent words₀ g.words done ∧
      ∀ t p s, done ≤ t → t < g.thread.rptr → g.thread.sent t = some p →
        device.signalOf p = some s →
          g.thread.machine.queue.signalAddr = some (signalValue s) := by
  have hwaiting := I.left.waiting hcpu
  have hrptr := I.ring.ring.rptr_le
  cases haddr : g.thread.machine.queue.signalAddr with
  | none =>
      rw [haddr] at hwaiting
      have hno : ∀ t p s, g.thread.machine.syncAddr ≤ t → t < g.thread.machine.queue.writeIndex →
          g.thread.sent t = some p → device.signalOf p ≠ some s :=
        fun t p s ht hlt hp hs => by cases (hwaiting t p s ht hlt hp hs).2
      refine ⟨_, I.sync_le, fun s hs hne => ?_, fun t p s ht hlt hp hs => ?_⟩
      · have hdue := I.due hcpu s hs hne
        rw [haddr, if_neg (by simp), add_zero,
          Device.completions_eq (Nat.le_trans I.sync_le hrptr) fun t p ht hlt hp =>
            hno t p s ht hlt hp] at hdue
        exact hdue
      · exact absurd hs (hno t p s ht (by omega) hp)
  | some addr =>
      obtain ⟨_, i, p, s, hi, hp, hsignal, rfl⟩ := I.left.pending _ haddr
      -- of the packets before the last none has a signal, from the complete ones on
      have hno : ∀ t q s, min g.thread.machine.syncAddr i ≤ t → t < i →
          g.thread.sent t = some q → device.signalOf q ≠ some s := by
        intro t q s ht hlt hq hs
        have hlast := (hwaiting t q s (by omega) (by omega) hq hs).1
        omega
      have hsync := I.sync_le
      refine ⟨min g.thread.machine.syncAddr i, by omega, fun s' hs hne => ?_,
        fun t q s' ht hlt hq hs => ?_⟩
      · have hdue := I.due hcpu s' hs hne
        rw [hi, Device.completions_succ hp, hsignal,
          Device.completions_eq (Nat.min_le_right _ _) fun t q ht hlt hq => hno t q s' ht hlt hq,
          haddr] at hdue
        simp only [Option.some.injEq, ComputeQueue.signalValue_inj] at hdue
        rw [hdue]
        by_cases heq : s = s'
        · rw [if_pos heq, if_pos heq, Nat.cast_add, Nat.cast_one, sub_add_eq_sub_sub,
            sub_add_cancel]
        · rw [if_neg heq, if_neg heq, Nat.add_zero, add_zero]
      · by_cases hlast : t < i
        · exact absurd hs (hno t q s' ht hlast hq)
        · have heq : t = i := by omega
          subst heq
          cases hp.symm.trans hq
          rw [Option.some.inj (hsignal.symm.trans hs)]

section Runs

variable [DecidableEq κ] {ring : Nat → AqlPacket} {cmdbufAddr : Nat}

/-- The runs in which the GPU executes commands are runs of `AqlThread`: the read index, which is
the word that the commands write, moves by one packet at a time, and not before the packet is in
an indirect buffer that the GPU executes; and an indirect buffer is not complete before the read
index is behind its last packet. -/
theorem gpu_reach (hn : 0 < n) (hring : ∀ i, (ring i).type = some .invalid)
    (hzero : words₀ device.ringRptr = 0)
    (h : Reach step Obeys (start device n ring cmdbufAddr words₀ : GpuQueue κ) g) :
    Reach AqlThread.step AqlThread.VendorFits (.start device n ring cmdbufAddr) g.thread ∧
      g.words device.ringRptr = (g.thread.rptr : BitVec 64) := by
  obtain ⟨I, hreach⟩ := h.simulate thread (inv_start ring cmdbufAddr hring hzero)
    fun _ _ _ I hok hs => I.step hn hok hs
  exact ⟨hreach, I.rptr⟩

/-- In every state some number of packets, `done`, have had their signals decremented, each as often
as a packet names it, and no other signal has changed.  Where the GPU does it, these are the
packets behind the read index, and at most the one at the read index.  Where the CPU does it, they
are behind the read index, and of the others behind it none has a signal but the one that
`Process` waits for. -/
theorem signals_decremented (hn : 0 < n) (hring : ∀ i, (ring i).type = some .invalid)
    (hzero : words₀ device.ringRptr = 0)
    (h : Reach step Obeys (start device n ring cmdbufAddr words₀ : GpuQueue κ) g) :
    ∃ done, done ≤ g.thread.machine.queue.writeIndex ∧
      Counts device g.thread.sent words₀ g.words done ∧
      (device.platformAtomic = true → g.thread.rptr ≤ done ∧ done ≤ g.thread.rptr + 1) ∧
      (device.platformAtomic = false → done ≤ g.thread.rptr ∧
        ∀ t p s, done ≤ t → t < g.thread.rptr → g.thread.sent t = some p →
          device.signalOf p = some s →
            g.thread.machine.queue.signalAddr = some (signalValue s)) := by
  have I : Inv device n words₀ g :=
    h.invariant (inv_start ring cmdbufAddr hring hzero) fun _ _ _ I hok hs => (I.step hn hok hs).1
  cases hmode : device.platformAtomic with
  | true =>
      obtain ⟨done, hplaced, hcounts⟩ := I.placed
      obtain ⟨hlo, hhi, hle⟩ := I.done_le hplaced
      exact ⟨done, hle, hcounts hmode, fun _ => ⟨hlo, hhi⟩, fun hcpu => (by cases hcpu)⟩
  | false =>
      obtain ⟨done, hle, hcounts, hrest⟩ := I.counts_cpu hmode
      exact ⟨done, Nat.le_trans hle I.ring.ring.rptr_le, hcounts, fun hatomic => (by cases hatomic),
        fun _ => ⟨hle, hrest⟩⟩

/-- Two packets are written and translated, as in `AqlThread.crossed`, and the GPU executes `m`
commands of the first one, of which the last two write. -/
def crossed (m : Nat) : List (GpuEvent Bool) :=
  (AqlThread.crossed 12).map .cpu ++ List.replicate m .execute

/-- The queue for these runs. -/
def sampleQueue : GpuQueue Bool :=
  start Machine.sampleDevice 4 (fun _ => { header := 1 }) 0x100000 (Execution.sampleWords 0x9008)

/-- The read index after the first packet. -/
theorem gpu_reach_crossed : ∃ g, Reach step Obeys sampleQueue g ∧ g.thread.rptr = 1 ∧
    Reach AqlThread.step AqlThread.VendorFits
      (.start Machine.sampleDevice 4 (fun _ => { header := 1 }) 0x100000) g.thread := by
  have hrun : (runAll step Obeys sampleQueue (crossed 8)).map (fun g => g.thread.rptr) = some 1 := by
    decide
  obtain ⟨g, hg, hrptr⟩ := Option.map_eq_some_iff.mp hrun
  have hreach := reach_of_runAll hg
  exact ⟨g, hreach, hrptr, (gpu_reach (by decide) (fun _ => rfl) (by decide) hreach).1⟩

/-- The signal of the first packet is decremented, and the read index has not moved. -/
theorem signals_decremented_crossed : ∃ g, Reach step Obeys sampleQueue g ∧ g.thread.rptr = 0 ∧
    g.words 0x9008 = 1 ∧ ∃ done, done ≤ g.thread.machine.queue.writeIndex ∧
      Counts Machine.sampleDevice g.thread.sent (Execution.sampleWords 0x9008) g.words done := by
  have hrun : (runAll step Obeys sampleQueue (crossed 7)).map
      (fun g => (g.thread.rptr, g.words 0x9008)) = some (0, 1) := by
    decide
  obtain ⟨g, hg, hproj⟩ := Option.map_eq_some_iff.mp hrun
  simp only [Prod.mk.injEq] at hproj
  have hreach := reach_of_runAll hg
  obtain ⟨done, hle, hcounts, _⟩ := signals_decremented (by decide) (fun _ => rfl) (by decide) hreach
  exact ⟨g, hreach, hproj.1, hproj.2, done, hle, hcounts⟩

end Runs

end GpuQueue

end RocDxg
