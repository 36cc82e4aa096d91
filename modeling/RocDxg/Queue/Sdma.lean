import Mathlib.Data.List.Basic
import RocDxg.Lib.Chain
import RocDxg.Lib.Reach
import RocDxg.Util

/-!
# The SDMA queue

`SDMAQueue` of `wddm/queue.cpp` as a system of three parties.  The client writes packets
into the ring, moves the write pointer and rings the doorbell, which queues a pair of
ring indices.  `SdmaThread` swaps the queued pairs out, waits for the poll packets at the
front of each and submits it as one IB.  The GPU completes accepted IBs.

Each pair becomes one IB that starts at its wrapped start and is as long as the pair,
and `rptr_next` moves on before the driver has answered.  So a pair that crosses the end
of the ring leaves it, and a refused IB is never repaired.  `SdmaQueue.submits_in_order`
says that nothing else goes wrong.
-/

namespace RocDxg

open Lib (Chain Reach runAll reach_of_runAll)

/-- The buffer of the queue, whose size is a power of two. -/
structure SdmaRing where
  cmdbufAddr : Nat
  cmdbufSize : Nat
  power : ∃ k, cmdbufSize = 2 ^ k
  fits : cmdbufAddr + cmdbufSize ≤ 2 ^ 64

/-- An IB as it is passed to `Submit`, with the fence value and the answer of the driver. -/
structure SdmaIb where
  startAddr : Nat
  size : Nat
  rptrNext : Nat
  accepted : Bool
deriving DecidableEq, Repr

/-- Where the client is: `RingDoorbell` moves `wptr_pre_` after it has left the lock. -/
inductive SdmaClient where
  | idle
  | ringing
deriving DecidableEq, Repr

/-- Where `SdmaThread` is: at the wait, at a pair of the ones swapped out with the packet
it looks at, or past its loop. -/
inductive SdmaThread where
  | waiting
  | running (pollPkt start finish : Nat) (rest : List (Nat × Nat))
  | exited
deriving DecidableEq, Repr

/-- `SDMAQueue`, the memory behind its ring, the completed fence value, and what has
happened so far. -/
structure SdmaQueue where
  wptrNext : Nat := 0
  wptrPre : Nat := 0
  rptrNext : Nat := 0
  wptrQueue : List (Nat × Nat) := []
  ibSize : Nat := 0
  ibStartAddr : Nat := 0
  threadStop : Bool := false
  client : SdmaClient := .idle
  thread : SdmaThread := .waiting
  /-- The double word at an address. -/
  memory : Nat → UInt32 := fun _ => 0
  /-- The value behind `GetSyncAddr`, the read pointer of the client. -/
  sync : Nat := 0
  submissions : List SdmaIb := []
  /-- The values of the write pointer at which the doorbell was rung. -/
  doorbells : List Nat := []
  /-- The addresses and values `SdmaThread` has waited for. -/
  waits : List (Nat × Nat) := []

/-- A step of the client, of `SdmaThread` or of the GPU. -/
inductive SdmaEvent where
  | store (addr : Nat) (value : UInt32)
  | writeWptr (w : Nat)
  | ringDoorbell
  | ringReturn
  | stop
  | swap
  | poll
  | submit (ok : Bool)
  | exit
  | complete (ib : SdmaIb)
deriving DecidableEq, Repr

/-- `WrapIntoRocrRing` -/
def SdmaRing.wrapIntoRocrRing (r : SdmaRing) (idx : Nat) : Nat := u32 (idx &&& (r.cmdbufSize - 1))

/-- The thread takes up the first of the pairs. -/
def SdmaRing.thread (r : SdmaRing) : List (Nat × Nat) → SdmaThread
  | [] => .waiting
  | (start, finish) :: rest =>
      .running (u64 (r.cmdbufAddr + r.wrapIntoRocrRing start)) start finish rest

/-- The pairs the thread has not submitted. -/
def SdmaThread.pendings : SdmaThread → List (Nat × Nat)
  | .running _ start finish rest => (start, finish) :: rest
  | _ => []

namespace SdmaQueue

/-! ## The client -/

/-- `RingDoorbell` up to the end of its locked part -/
def ringDoorbell (q : SdmaQueue) : SdmaQueue :=
  { q with
    wptrQueue := q.wptrQueue ++ [(q.wptrPre, q.wptrNext)]
    client := .ringing
    doorbells := q.doorbells ++ [q.wptrNext] }

/-- The last line of `RingDoorbell` -/
def ringReturn (q : SdmaQueue) : SdmaQueue := { q with wptrPre := q.wptrNext, client := .idle }

/-! ## The thread -/

/-- `sizeof(SDMA_PKT_POLL_REGMEM)` -/
def pollSize : Nat := 24

/-- `IsPollPacket` -/
def isPollPacket (q : SdmaQueue) (pkt : Nat) : Bool :=
  let header := (q.memory pkt).toNat
  header % 2 ^ 8 = 8 && header / 2 ^ 31 % 2 = 1 && header / 2 ^ 28 % 8 = 3

/-- The address a poll packet names. -/
def pollAddr (q : SdmaQueue) (pkt : Nat) : Nat :=
  (q.memory (pkt + 4)).toNat + (q.memory (pkt + 8)).toNat * 2 ^ 32

/-- The value a poll packet waits for. -/
def pollValue (q : SdmaQueue) (pkt : Nat) : Nat := (q.memory (pkt + 12)).toNat

/-- Two poll packets in a row are the halves of one 64-bit wait. -/
def pollsPair (q : SdmaQueue) (pkt : Nat) : Bool :=
  q.isPollPacket (pkt + pollSize) && u64 (q.pollAddr (pkt + pollSize) + 4) = q.pollAddr pkt

/-- `memset` of `n` bytes to zero -/
def clear (q : SdmaQueue) (pkt n : Nat) : SdmaQueue :=
  { q with memory := fun a => if pkt ≤ a ∧ a < pkt + n then 0 else q.memory a }

/-- One round of the loop over poll packets, once the wait has returned. -/
def poll (q : SdmaQueue) (pkt start finish : Nat) (rest : List (Nat × Nat)) : SdmaQueue :=
  if q.pollsPair pkt then
    { q.clear pkt (2 * pollSize) with
      waits := q.waits ++ [(q.pollAddr (pkt + pollSize),
        q.pollValue (pkt + pollSize) + q.pollValue pkt * 2 ^ 32)]
      thread := .running (pkt + 2 * pollSize) start finish rest }
  else
    { q.clear pkt pollSize with
      waits := q.waits ++ [(q.pollAddr pkt, q.pollValue pkt)]
      thread := .running (pkt + pollSize) start finish rest }

/-- `PreparePacket` -/
def preparePacket (r : SdmaRing) (q : SdmaQueue) (offset size : Nat) : SdmaQueue :=
  { q with
    ibStartAddr := u64 (r.cmdbufAddr + offset)
    ibSize := size
    rptrNext := u64 (q.rptrNext + size) }

/-- `Submit`, whose answer the thread drops.  It fails when the paging fence cannot be
waited for or the driver refuses the IB. -/
def submit (q : SdmaQueue) (ok : Bool) : SdmaQueue :=
  { q with submissions := q.submissions ++ [⟨q.ibStartAddr, q.ibSize, q.rptrNext, ok⟩] }

/-- The end of the loop over the pairs. -/
def submitPair (r : SdmaRing) (q : SdmaQueue) (start finish : Nat) (rest : List (Nat × Nat))
    (ok : Bool) : SdmaQueue :=
  { (preparePacket r q (r.wrapIntoRocrRing start) (sub64 finish start)).submit ok with
    thread := r.thread rest }

/-- One step.  The write pointer does not go back, and stays within `cmdbuf_size` bytes of
what the GPU has completed. -/
def step (r : SdmaRing) (q : SdmaQueue) : SdmaEvent → Option SdmaQueue
  | .store addr value =>
      some { q with memory := fun a => if a = addr then value else q.memory a }
  | .writeWptr w =>
      if q.client = .idle ∧ q.wptrNext ≤ w ∧ w ≤ q.sync + r.cmdbufSize ∧ w < 2 ^ 64 then
        some { q with wptrNext := w }
      else none
  | .ringDoorbell => if q.client = .idle then some q.ringDoorbell else none
  | .ringReturn => if q.client = .ringing then some q.ringReturn else none
  | .stop => some { q with threadStop := true }
  | .swap =>
      if q.thread = .waiting ∧ q.wptrQueue ≠ [] ∧ q.threadStop = false then
        some { q with thread := r.thread q.wptrQueue, wptrQueue := [] }
      else none
  | .poll =>
      match q.thread with
      | .running pkt start finish rest =>
          if q.isPollPacket pkt then some (q.poll pkt start finish rest) else none
      | _ => none
  | .submit ok =>
      match q.thread with
      | .running pkt start finish rest =>
          if q.isPollPacket pkt then none else some (submitPair r q start finish rest ok)
      | _ => none
  | .exit =>
      if q.thread = .waiting ∧ q.threadStop = true then some { q with thread := .exited } else none
  | .complete ib =>
      if ib ∈ q.submissions ∧ ib.accepted = true ∧ q.sync ≤ ib.rptrNext then
        some { q with sync := ib.rptrNext }
      else none

/-! ## What the driver sees -/

/-- The IBs the driver has accepted, in order. -/
def accepted (q : SdmaQueue) : List SdmaIb := q.submissions.filter (·.accepted)

/-- The ring positions of an IB, byte by byte. -/
def positions (r : SdmaRing) (ib : SdmaIb) : List Nat :=
  (List.range ib.size).map fun i => (ib.startAddr - r.cmdbufAddr + i) % r.cmdbufSize

/-- The accepted IBs are a prefix of the ring as the client has filled it, up to one of
its doorbells, each inside the ring and with the right fence value. -/
structure InOrder (r : SdmaRing) (q : SdmaQueue) : Prop where
  stream : ∃ w ∈ 0 :: q.doorbells,
    q.accepted.flatMap (positions r) = (List.range w).map (· % r.cmdbufSize)
  inside : ∀ ib ∈ q.accepted,
    r.cmdbufAddr ≤ ib.startAddr ∧ ib.startAddr + ib.size ≤ r.cmdbufAddr + r.cmdbufSize
  fences : ∀ pre ib post, q.accepted = pre ++ ib :: post →
    ib.rptrNext = (pre.map (·.size)).sum + ib.size

/-- An IB with something in it has been refused. -/
def lost (q : SdmaQueue) : Bool := q.submissions.any fun ib => !ib.accepted && 0 < ib.size

/-- A pair does not leave the ring, nor start past what 32 bits can say. -/
def Fits (r : SdmaRing) (start finish : Nat) : Prop :=
  start % r.cmdbufSize < 2 ^ 32 ∧ start % r.cmdbufSize + (finish - start) ≤ r.cmdbufSize

instance (r : SdmaRing) (start finish : Nat) : Decidable (Fits r start finish) :=
  inferInstanceAs (Decidable (_ ∧ _))

/-- Nothing was lost, and the pair at hand stays in the ring. -/
def Steady (r : SdmaRing) (q : SdmaQueue) : SdmaThread → Prop
  | .running _ start finish _ => q.lost = false ∧ (start = finish ∨ Fits r start finish)
  | _ => True

instance (r : SdmaRing) (q : SdmaQueue) : (t : SdmaThread) → Decidable (Steady r q t)
  | .running .. => inferInstanceAs (Decidable (_ ∧ _))
  | .waiting | .exited => inferInstanceAs (Decidable True)

/-- The driver accepts no IB after it has refused one, and none of a pair that leaves
the ring. -/
def Regular (r : SdmaRing) (q : SdmaQueue) : SdmaEvent → Prop
  | .submit true => Steady r q q.thread
  | _ => True

instance (r : SdmaRing) (q : SdmaQueue) : (e : SdmaEvent) → Decidable (Regular r q e)
  | .submit true => inferInstanceAs (Decidable (Steady r q q.thread))
  | .submit false => inferInstanceAs (Decidable True)
  | .store .. | .writeWptr _ | .ringDoorbell | .ringReturn | .stop | .swap | .poll | .exit
  | .complete _ => inferInstanceAs (Decidable True)

/-! ## The sizes of the submissions -/

variable {r : SdmaRing} {q q' : SdmaQueue}

/-- How many bytes a list of IBs has. -/
def bytes (l : List SdmaIb) : Nat := (l.map (·.size)).sum

theorem bytes_append (l l' : List SdmaIb) : bytes (l ++ l') = bytes l + bytes l' := by
  simp [bytes]

theorem bytes_singleton (ib : SdmaIb) : bytes [ib] = ib.size := by simp [bytes]

/-- The refused IBs account for the difference between what was submitted and what was
accepted. -/
theorem bytes_filter (l : List SdmaIb) :
    bytes (l.filter (·.accepted)) + bytes (l.filter fun ib => !ib.accepted) = bytes l := by
  induction l with
  | nil => rfl
  | cons ib l ih =>
      simp only [bytes] at ih
      cases hacc : ib.accepted with
      | false =>
          simp only [bytes, List.filter_cons, hacc, Bool.not_false, if_true, Bool.false_eq_true,
            if_false, List.map_cons, List.sum_cons]
          omega
      | true =>
          simp only [bytes, List.filter_cons, hacc, Bool.not_true, if_true, Bool.false_eq_true,
            if_false, List.map_cons, List.sum_cons]
          omega

theorem bytes_refused (q : SdmaQueue) :
    bytes (q.submissions.filter fun ib => !ib.accepted) = 0 ↔ q.lost = false := by
  simp only [bytes, List.sum_eq_zero_iff_forall_eq_nat, List.mem_map, List.mem_filter, lost,
    List.any_eq_false, Bool.and_eq_true, decide_eq_true_eq, not_and, Bool.not_eq_true']
  constructor
  · intro h ib hib hacc
    rw [h ib.size ⟨ib, ⟨hib, hacc⟩, rfl⟩]
    exact Nat.lt_irrefl 0
  · rintro h n ⟨ib, ⟨hib, hacc⟩, rfl⟩
    exact Nat.eq_zero_of_not_pos (h ib hib hacc)

theorem length_positions (ib : SdmaIb) : (positions r ib).length = ib.size := by
  simp [positions]

theorem length_flatMap_positions (l : List SdmaIb) :
    (l.flatMap (positions r)).length = bytes l := by
  simp [bytes, List.length_flatMap, length_positions]

/-- The accepted bytes end at the doorbell that `InOrder` speaks of. -/
theorem InOrder.stream_bytes (h : InOrder r q) :
    bytes q.accepted ∈ 0 :: q.doorbells ∧
      q.accepted.flatMap (positions r) =
        (List.range (bytes q.accepted)).map (· % r.cmdbufSize) := by
  obtain ⟨w, hw, hstream⟩ := h.stream
  have hlen := congrArg List.length hstream
  rw [length_flatMap_positions, List.length_map, List.length_range] at hlen
  rw [hlen]
  exact ⟨hw, hstream⟩

/-! ## The invariant -/

/-- A pair continues at the index where the one before it has ended. -/
def Follows (a : Nat) (x : Nat × Nat) (b : Nat) : Prop := x.1 = a ∧ x.1 ≤ x.2 ∧ x.2 = b

/-- The index the next pair will start at. -/
def tail (q : SdmaQueue) : Nat :=
  match q.client with
  | .idle => q.wptrPre
  | .ringing => q.wptrNext

/-- The pairs that are not submitted. -/
def unsubmitted (q : SdmaQueue) : List (Nat × Nat) := q.thread.pendings ++ q.wptrQueue

/-- The unsubmitted pairs lead from `rptr_next`, which counts what was submitted, to the
last doorbell. -/
structure Inv (r : SdmaRing) (q : SdmaQueue) : Prop where
  order : InOrder r q
  pairs : Chain Follows q.rptrNext q.unsubmitted q.tail
  counted : bytes q.submissions = q.rptrNext
  behind : q.wptrPre ≤ q.wptrNext
  bound : q.wptrNext < 2 ^ 64
  reached : q.rptrNext ∈ 0 :: q.doorbells
  rung : ∀ x ∈ q.unsubmitted, x.2 ∈ q.doorbells

theorem inv_new : Inv r {} where
  order :=
    { stream := ⟨0, List.mem_cons_self .., rfl⟩
      inside := fun ib hib => absurd hib List.not_mem_nil
      fences := fun pre ib post h => by
        have hlen := congrArg List.length h
        simp [accepted] at hlen }
  pairs := rfl
  counted := rfl
  behind := Nat.le_refl 0
  bound := by decide
  reached := List.mem_cons_self ..
  rung := fun x hx => absurd hx List.not_mem_nil

theorem Inv.tail_le (I : Inv r q) : q.tail ≤ q.wptrNext := by
  unfold tail
  split
  · exact I.behind
  · exact Nat.le_refl _

theorem pendings_thread (l : List (Nat × Nat)) : (r.thread l).pendings = l := by
  cases l with
  | nil => rfl
  | cons x l => rfl

/-- `InOrder` looks at the submissions and the doorbells only. -/
theorem InOrder.congr (h : InOrder r q) (hsub : q'.submissions = q.submissions)
    (hbell : ∀ w ∈ q.doorbells, w ∈ q'.doorbells) : InOrder r q' := by
  have hacc : q'.accepted = q.accepted := by rw [accepted, hsub, accepted]
  obtain ⟨w, hw, hstream⟩ := h.stream
  refine ⟨⟨w, ?_, by rw [hacc]; exact hstream⟩, by rw [hacc]; exact h.inside,
    by rw [hacc]; exact h.fences⟩
  cases List.mem_cons.mp hw with
  | inl heq => exact heq ▸ List.mem_cons_self ..
  | inr hmem => exact List.mem_cons_of_mem _ (hbell w hmem)

/-- A step that touches neither the pairs nor the submissions. -/
theorem Inv.frame (I : Inv r q) (hsub : q'.submissions = q.submissions)
    (hbell : q'.doorbells = q.doorbells) (hrptr : q'.rptrNext = q.rptrNext)
    (hpairs : q'.unsubmitted = q.unsubmitted) (htail : q'.tail = q.tail)
    (hbehind : q'.wptrPre ≤ q'.wptrNext) (hbound : q'.wptrNext < 2 ^ 64) : Inv r q' where
  order := I.order.congr hsub fun w hw => hbell ▸ hw
  pairs := by
    rw [hrptr, hpairs, htail]
    exact I.pairs
  counted := by
    rw [hsub, hrptr]
    exact I.counted
  behind := hbehind
  bound := hbound
  reached := by
    rw [hrptr, hbell]
    exact I.reached
  rung := by
    rw [hpairs, hbell]
    exact I.rung

theorem Inv.ringDoorbell (I : Inv r q) (hidle : q.client = .idle) : Inv r q.ringDoorbell where
  order := I.order.congr rfl fun w hw => List.mem_append_left _ hw
  pairs := by
    have htail : q.tail = q.wptrPre := by rw [tail, hidle]
    have h := I.pairs
    rw [htail] at h
    have hlist : q.ringDoorbell.unsubmitted = q.unsubmitted ++ [(q.wptrPre, q.wptrNext)] := by
      simp [unsubmitted, SdmaQueue.ringDoorbell]
    rw [hlist]
    exact h.concat ⟨rfl, I.behind, rfl⟩
  counted := I.counted
  behind := I.behind
  bound := I.bound
  reached := by
    cases List.mem_cons.mp I.reached with
    | inl heq => exact heq ▸ List.mem_cons_self ..
    | inr hmem => exact List.mem_cons_of_mem _ (List.mem_append_left _ hmem)
  rung := by
    intro x hx
    have hx' : x ∈ q.unsubmitted ++ [(q.wptrPre, q.wptrNext)] := by
      simpa [unsubmitted, SdmaQueue.ringDoorbell] using hx
    show x.2 ∈ q.doorbells ++ [q.wptrNext]
    rcases List.mem_append.mp hx' with hold | hnew
    · exact List.mem_append_left _ (I.rung x hold)
    · rw [List.mem_singleton.mp hnew]
      exact List.mem_append_right _ (List.mem_singleton_self _)

/-- A round of the loop over poll packets. -/
theorem Inv.poll (I : Inv r q) {pkt start finish : Nat} {rest : List (Nat × Nat)}
    (ht : q.thread = .running pkt start finish rest) : Inv r (q.poll pkt start finish rest) := by
  rw [SdmaQueue.poll]
  split
  all_goals
    refine I.frame ?_ ?_ ?_ ?_ ?_ ?_ ?_
    · simp only [clear]
    · simp only [clear]
    · simp only [clear]
    · simp only [clear, unsubmitted, ht, SdmaThread.pendings]
    · simp only [clear, tail]
    · simp only [clear, I.behind]
    · simp only [clear, I.bound]

/-! ## Submitting a pair -/

section Submit

variable {pkt start finish : Nat} {rest : List (Nat × Nat)} {ok : Bool}

theorem SdmaRing.size_pos (r : SdmaRing) : 0 < r.cmdbufSize := by
  obtain ⟨k, hk⟩ := r.power
  rw [hk]
  exact Nat.two_pow_pos k

theorem wrapIntoRocrRing_eq (idx : Nat) :
    r.wrapIntoRocrRing idx = u32 (idx % r.cmdbufSize) := by
  obtain ⟨k, hk⟩ := r.power
  rw [SdmaRing.wrapIntoRocrRing, hk, Nat.and_two_pow_sub_one_eq_mod]

theorem wrapIntoRocrRing_lt (idx : Nat) : r.wrapIntoRocrRing idx < r.cmdbufSize := by
  rw [wrapIntoRocrRing_eq, u32]
  exact Nat.lt_of_le_of_lt (Nat.mod_le ..) (Nat.mod_lt _ (SdmaRing.size_pos r))

/-- The IB of a pair. -/
def ibOf (r : SdmaRing) (start finish : Nat) (ok : Bool) : SdmaIb :=
  ⟨r.cmdbufAddr + r.wrapIntoRocrRing start, finish - start, finish, ok⟩

/-- What the submission of the pair at hand does. -/
theorem Inv.submitPair_spec (I : Inv r q) (ht : q.thread = .running pkt start finish rest)
    (ok : Bool) :
    q.rptrNext = start ∧ start ≤ finish ∧ finish < 2 ^ 64 ∧
      (submitPair r q start finish rest ok).submissions =
        q.submissions ++ [ibOf r start finish ok] ∧
      (submitPair r q start finish rest ok).rptrNext = finish ∧
      Chain Follows finish (rest ++ q.wptrQueue) q.tail := by
  have hpairs := I.pairs
  rw [unsubmitted, ht] at hpairs
  obtain ⟨c, ⟨hstart, hle, hfinish⟩, hrest⟩ := hpairs
  have hstart : q.rptrNext = start := hstart.symm
  have hle : start ≤ finish := hle
  have hfinish : finish = c := hfinish
  have hrest : Chain Follows finish (rest ++ q.wptrQueue) q.tail := by
    rw [hfinish]
    exact hrest
  have hend : finish ≤ q.tail := (hrest.bounds fun a x b hx => by
    obtain ⟨ha, hab, hb⟩ := hx
    omega).1
  have hlt : finish < 2 ^ 64 := by
    have := I.tail_le
    have := I.bound
    omega
  have hsize : sub64 finish start = finish - start := sub64_of_le hle hlt
  have hnext : u64 (q.rptrNext + sub64 finish start) = finish := by
    rw [hsize, hstart, Nat.add_sub_cancel' hle, u64_of_lt hlt]
  have haddr : u64 (r.cmdbufAddr + r.wrapIntoRocrRing start) =
      r.cmdbufAddr + r.wrapIntoRocrRing start := by
    refine u64_of_lt ?_
    have := wrapIntoRocrRing_lt (r := r) start
    have := r.fits
    omega
  refine ⟨hstart, hle, hlt, ?_, hnext, hrest⟩
  simp only [submitPair, submit, preparePacket, hnext, haddr, ibOf]
  rw [hsize]

theorem accepted_append (hsub : q'.submissions = q.submissions ++ [ibOf r start finish ok]) :
    q'.accepted = if ok then q.accepted ++ [ibOf r start finish ok] else q.accepted := by
  rw [accepted, hsub, List.filter_append, accepted]
  cases ok with
  | false => simp [ibOf]
  | true => simp [ibOf]

/-- The positions of an IB inside the ring go on where the ones before have ended. -/
theorem positions_ibOf (hle : start ≤ finish) (hfits : start = finish ∨ Fits r start finish) :
    (List.range start).map (· % r.cmdbufSize) ++ positions r (ibOf r start finish ok) =
      (List.range finish).map (· % r.cmdbufSize) := by
  have hrange : List.range finish =
      List.range start ++ (List.range (finish - start)).map (start + ·) := by
    rw [← List.range_add, Nat.add_sub_cancel' hle]
  rw [hrange, List.map_append]
  congr 1
  rw [positions, List.map_map]
  refine List.map_congr_left ?_
  intro i hi
  have hi : i < finish - start := List.mem_range.mp hi
  rcases hfits with heq | ⟨hword, _⟩
  · omega
  · have hwrap : r.wrapIntoRocrRing start = start % r.cmdbufSize := by
      rw [wrapIntoRocrRing_eq, u32_of_lt hword]
    simp only [ibOf, hwrap, Nat.add_sub_cancel_left, Function.comp]
    rw [Nat.mod_add_mod]

/-- An accepted IB of a regular step keeps the order. -/
theorem InOrder.accept (h : InOrder r q) (hbytes : bytes q.accepted = start)
    (hacc : q'.accepted = q.accepted ++ [ibOf r start finish true])
    (hbell : q'.doorbells = q.doorbells) (hmem : finish ∈ q.doorbells) (hle : start ≤ finish)
    (hfits : start = finish ∨ Fits r start finish) : InOrder r q' := by
  obtain ⟨_, hstream⟩ := h.stream_bytes
  refine ⟨⟨finish, ?_, ?_⟩, ?_, ?_⟩
  · rw [hbell]
    exact List.mem_cons_of_mem _ hmem
  · rw [hacc, List.flatMap_append, hstream, hbytes, List.flatMap_singleton]
    exact positions_ibOf hle hfits
  · intro ib hib
    rw [hacc] at hib
    rcases List.mem_append.mp hib with hold | hnew
    · exact h.inside ib hold
    · rw [List.mem_singleton.mp hnew]
      refine ⟨Nat.le_add_right .., ?_⟩
      show r.cmdbufAddr + r.wrapIntoRocrRing start + (finish - start) ≤ _
      have hlt := wrapIntoRocrRing_lt (r := r) start
      rcases hfits with heq | ⟨hword, hend⟩
      · omega
      · rw [wrapIntoRocrRing_eq, u32_of_lt hword]
        omega
  · intro pre ib post hsplit
    rw [hacc] at hsplit
    rcases List.append_eq_append_iff.mp hsplit with ⟨l, hpre, hpost⟩ | ⟨l, hold, hpost⟩
    · cases l with
      | nil =>
          simp only [List.nil_append, List.cons.injEq] at hpost
          rw [← hpost.1, hpre, List.append_nil]
          show finish = bytes q.accepted + (finish - start)
          omega
      | cons x l => simp at hpost
    · cases l with
      | nil =>
          simp only [List.nil_append, List.cons.injEq] at hpost
          rw [hpost.1]
          rw [List.append_nil] at hold
          rw [← hold]
          show finish = bytes q.accepted + (finish - start)
          omega
      | cons x l =>
          simp only [List.cons_append, List.cons.injEq] at hpost
          rw [hpost.1]
          exact h.fences pre x l hold

/-- An accepted IB that keeps the order comes from a regular step. -/
theorem InOrder.of_accept (h : InOrder r q') (hord : InOrder r q)
    (hacc : q'.accepted = q.accepted ++ [ibOf r start finish true]) (hle : start ≤ finish) :
    bytes q.accepted = start ∧ (start = finish ∨ Fits r start finish) := by
  have hfence := h.fences q.accepted (ibOf r start finish true) [] hacc
  have hbytes : bytes q.accepted = start := by
    have hfence : finish = bytes q.accepted + (finish - start) := hfence
    omega
  refine ⟨hbytes, ?_⟩
  by_cases hne : start = finish
  · exact .inl hne
  · have hlt : start < finish := Nat.lt_of_le_of_ne hle hne
    have hstream := h.stream_bytes.2
    have hstream' := hord.stream_bytes.2
    have htotal : bytes q'.accepted = finish := by
      rw [hacc, bytes_append, bytes_singleton, hbytes]
      show start + (finish - start) = finish
      omega
    rw [htotal, hacc, List.flatMap_append, hstream', hbytes, List.flatMap_singleton] at hstream
    have hpos : r.wrapIntoRocrRing start = start % r.cmdbufSize := by
      have hget := congrArg (fun l => l[start]?) hstream
      simp only [positions, ibOf, Nat.add_sub_cancel_left] at hget
      rw [List.getElem?_append_right (by simp)] at hget
      simp [hlt, Nat.sub_pos_of_lt hlt] at hget
      rw [← hget]
      exact (Nat.mod_eq_of_lt (wrapIntoRocrRing_lt start)).symm
    have hword : start % r.cmdbufSize < 2 ^ 32 := by
      rw [← hpos, wrapIntoRocrRing_eq, u32]
      exact Nat.mod_lt _ (by decide)
    refine .inr ⟨hword, ?_⟩
    have hin := (h.inside (ibOf r start finish true) (by
      rw [hacc]
      exact List.mem_append_right _ (List.mem_singleton_self _))).2
    have hin : r.cmdbufAddr + r.wrapIntoRocrRing start + (finish - start) ≤
      r.cmdbufAddr + r.cmdbufSize := hin
    omega

theorem Inv.bytes_accepted (I : Inv r q) : bytes q.accepted = q.rptrNext ↔ q.lost = false := by
  have hsum := bytes_filter q.submissions
  rw [I.counted] at hsum
  rw [← bytes_refused, accepted]
  omega

/-- The fields that neither `PreparePacket` nor `Submit` writes. -/
theorem preparePacket_submit_frame (r : SdmaRing) (q : SdmaQueue) (offset size : Nat) (ok : Bool) :
    ((preparePacket r q offset size).submit ok).wptrPre = q.wptrPre ∧
      ((preparePacket r q offset size).submit ok).wptrNext = q.wptrNext ∧
      ((preparePacket r q offset size).submit ok).client = q.client ∧
      ((preparePacket r q offset size).submit ok).doorbells = q.doorbells ∧
      ((preparePacket r q offset size).submit ok).wptrQueue = q.wptrQueue :=
  ⟨rfl, rfl, rfl, rfl, rfl⟩

/-- A submission leaves the client alone. -/
theorem submitPair_frame (r : SdmaRing) (q : SdmaQueue) (start finish : Nat)
    (rest : List (Nat × Nat)) (ok : Bool) :
    (submitPair r q start finish rest ok).wptrPre = q.wptrPre ∧
      (submitPair r q start finish rest ok).wptrNext = q.wptrNext ∧
      (submitPair r q start finish rest ok).tail = q.tail ∧
      (submitPair r q start finish rest ok).doorbells = q.doorbells ∧
      (submitPair r q start finish rest ok).unsubmitted = rest ++ q.wptrQueue := by
  obtain ⟨hpre, hnext, hclient, hbell, hqueue⟩ := preparePacket_submit_frame r q
    (r.wrapIntoRocrRing start) (sub64 finish start) ok
  simp only [submitPair, tail, unsubmitted, pendings_thread, hpre, hnext, hclient, hbell, hqueue,
    and_self]

/-- The rest of the invariant holds after every submission. -/
theorem Inv.submitPair (I : Inv r q) (ht : q.thread = .running pkt start finish rest)
    (hord : InOrder r (submitPair r q start finish rest ok)) :
    Inv r (SdmaQueue.submitPair r q start finish rest ok) := by
  obtain ⟨hstart, hle, hlt, hsub, hrptr, hrest⟩ := I.submitPair_spec ht ok
  have hmem : ∀ x ∈ (start, finish) :: (rest ++ q.wptrQueue), x.2 ∈ q.doorbells := by
    have h := I.rung
    rw [unsubmitted, ht] at h
    exact h
  obtain ⟨hpre, hnext, htail, hbell, hpairs⟩ := submitPair_frame r q start finish rest ok
  refine ⟨hord, ?_, ?_, ?_, ?_, ?_, ?_⟩
  · rw [hpairs, hrptr, htail]
    exact hrest
  · rw [hsub, bytes_append, bytes_singleton, I.counted, hrptr, hstart]
    exact Nat.add_sub_cancel' hle
  · rw [hpre, hnext]
    exact I.behind
  · rw [hnext]
    exact I.bound
  · rw [hrptr, hbell]
    exact List.mem_cons_of_mem _ (hmem _ (List.mem_cons_self ..))
  · rw [hpairs, hbell]
    exact fun x hx => hmem x (List.mem_cons_of_mem _ hx)

/-- A submission keeps the order if and only if it is regular. -/
theorem Inv.submit_iff (I : Inv r q) (ht : q.thread = .running pkt start finish rest) :
    InOrder r (SdmaQueue.submitPair r q start finish rest ok) ↔ Regular r q (.submit ok) := by
  obtain ⟨hstart, hle, hlt, hsub, hrptr, hrest⟩ := I.submitPair_spec ht ok
  obtain ⟨_, _, _, hbell, _⟩ := submitPair_frame r q start finish rest ok
  have hacc := accepted_append hsub
  have hmem : finish ∈ q.doorbells := by
    have h := I.rung
    rw [unsubmitted, ht] at h
    exact h (start, finish) (List.mem_cons_self ..)
  cases ok with
  | false =>
      simp only [Regular, iff_true]
      simp only [Bool.false_eq_true, if_false] at hacc
      obtain ⟨w, hw, hstream⟩ := I.order.stream
      refine ⟨⟨w, ?_, ?_⟩, ?_, ?_⟩
      · rw [hbell]
        exact hw
      · rw [hacc]
        exact hstream
      · rw [hacc]
        exact I.order.inside
      · rw [hacc]
        exact I.order.fences
  | true =>
      simp only [if_true] at hacc
      simp only [Regular, ht, Steady]
      rw [← I.bytes_accepted, hstart]
      constructor
      · intro h
        exact h.of_accept I.order hacc hle
      · rintro ⟨hbytes, hfits⟩
        exact I.order.accept hbytes hacc hbell hmem hle hfits

end Submit

/-! ## Runs -/

/-- A step either submits the pair at hand, or keeps the invariant. -/
theorem Inv.step_cases (I : Inv r q) {e : SdmaEvent} (h : step r q e = some q') :
    (∃ ok pkt start finish rest, e = .submit ok ∧ q.thread = .running pkt start finish rest ∧
      q' = SdmaQueue.submitPair r q start finish rest ok) ∨ (Regular r q e ∧ Inv r q') := by
  cases e with
  | store addr value =>
      cases h
      exact .inr ⟨trivial, I.frame rfl rfl rfl rfl rfl I.behind I.bound⟩
  | writeWptr w =>
      rw [step] at h
      split at h
      next hw =>
        cases h
        have htail : ({ q with wptrNext := w } : SdmaQueue).tail = q.tail := by
          simp only [tail, hw.1]
        exact .inr ⟨trivial, I.frame rfl rfl rfl rfl htail (Nat.le_trans I.behind hw.2.1) hw.2.2.2⟩
      next => cases h
  | ringDoorbell =>
      rw [step] at h
      split at h
      next hidle =>
        cases h
        exact .inr ⟨trivial, I.ringDoorbell hidle⟩
      next => cases h
  | ringReturn =>
      rw [step] at h
      split at h
      next hring =>
        cases h
        have htail : q.ringReturn.tail = q.tail := by
          simp only [tail, ringReturn, hring]
        exact .inr ⟨trivial, I.frame rfl rfl rfl rfl htail (Nat.le_refl _) I.bound⟩
      next => cases h
  | stop =>
      cases h
      exact .inr ⟨trivial, I.frame rfl rfl rfl rfl rfl I.behind I.bound⟩
  | swap =>
      rw [step] at h
      split at h
      next hswap =>
        cases h
        have hpairs : ({ q with thread := r.thread q.wptrQueue, wptrQueue := [] } :
            SdmaQueue).unsubmitted = q.unsubmitted := by
          simp only [unsubmitted, pendings_thread, hswap.1, List.append_nil]
          rfl
        exact .inr ⟨trivial, I.frame rfl rfl rfl hpairs rfl I.behind I.bound⟩
      next => cases h
  | poll =>
      rw [step] at h
      split at h
      next pkt start finish rest ht =>
        split at h
        next =>
          cases h
          exact .inr ⟨trivial, I.poll ht⟩
        next => cases h
      next => cases h
  | submit ok =>
      rw [step] at h
      split at h
      next pkt start finish rest ht =>
        split at h
        next => cases h
        next =>
          cases h
          exact .inl ⟨ok, pkt, start, finish, rest, rfl, ht, rfl⟩
      next => cases h
  | exit =>
      rw [step] at h
      split at h
      next hexit =>
        cases h
        have hpairs : ({ q with thread := .exited } : SdmaQueue).unsubmitted = q.unsubmitted := by
          simp [unsubmitted, hexit.1, SdmaThread.pendings]
        exact .inr ⟨trivial, I.frame rfl rfl rfl hpairs rfl I.behind I.bound⟩
      next => cases h
  | complete ib =>
      rw [step] at h
      split at h
      next =>
        cases h
        exact .inr ⟨trivial, I.frame rfl rfl rfl rfl rfl I.behind I.bound⟩
      next => cases h

theorem Inv.step (I : Inv r q) {e : SdmaEvent} (hreg : Regular r q e)
    (h : SdmaQueue.step r q e = some q') : Inv r q' := by
  rcases I.step_cases h with ⟨ok, pkt, start, finish, rest, rfl, ht, rfl⟩ | ⟨_, I'⟩
  · exact I.submitPair ht ((I.submit_iff ht).mpr hreg)
  · exact I'

/-- In every run all of whose steps are regular, the driver has accepted a prefix of what
the client has written, and the next step keeps it so if and only if it is regular. -/
theorem submits_in_order (h : Reach (step r) (Regular r) {} q) :
    InOrder r q ∧ ∀ e q', step r q e = some q' → (InOrder r q' ↔ Regular r q e) := by
  have hinv : Inv r q := by
    refine h.invariant inv_new ?_
    intro q e q' hq hok hstep
    exact hq.step hok hstep
  refine ⟨hinv.order, ?_⟩
  intro e q' hstep
  rcases hinv.step_cases hstep with ⟨ok, pkt, start, finish, rest, rfl, ht, rfl⟩ | ⟨hreg, I'⟩
  · exact hinv.submit_iff ht
  · exact iff_of_true I'.order hreg

/-- A ring of 64 bytes. -/
def smallRing : SdmaRing where
  cmdbufAddr := 0x1000
  cmdbufSize := 64
  power := ⟨6, rfl⟩
  fits := by decide

/-- The client fills half of the ring, then the other half while the thread is at work,
and starts over. -/
def twoDoorbells : List SdmaEvent :=
  [.writeWptr 32, .ringDoorbell, .swap, .ringReturn, .writeWptr 64, .ringDoorbell, .submit true,
    .ringReturn, .swap, .submit true, .complete ⟨0x1000, 32, 32, true⟩, .writeWptr 96,
    .ringDoorbell, .ringReturn, .swap, .submit true]

theorem submits_in_order_run :
    ∃ q, Reach (step smallRing) (Regular smallRing) {} q ∧
      q.accepted = [⟨0x1000, 32, 32, true⟩, ⟨0x1020, 32, 64, true⟩, ⟨0x1000, 32, 96, true⟩] ∧
      InOrder smallRing q := by
  have hrun : (runAll (step smallRing) (Regular smallRing) {} twoDoorbells).map (·.accepted) =
      some [⟨0x1000, 32, 32, true⟩, ⟨0x1020, 32, 64, true⟩, ⟨0x1000, 32, 96, true⟩] := by
    decide
  obtain ⟨q, hq, hacc⟩ := Option.map_eq_some_iff.mp hrun
  have hreach := reach_of_runAll hq
  exact ⟨q, hreach, hacc, (submits_in_order hreach).1⟩

/-- The second doorbell crosses the end of the ring, and its IB leaves it. -/
theorem crossing_leaves_ring :
    ¬ ∀ q, Reach (step smallRing) (fun _ _ => True) {} q → InOrder smallRing q := by
  intro hall
  have hrun : (runAll (step smallRing) (fun _ _ => True) {}
      [.writeWptr 48, .ringDoorbell, .ringReturn, .swap, .submit true,
        .complete ⟨0x1000, 48, 48, true⟩, .writeWptr 80, .ringDoorbell, .ringReturn, .swap,
        .submit true]).map (·.accepted) =
      some [⟨0x1000, 48, 48, true⟩, ⟨0x1030, 32, 80, true⟩] := by
    decide
  obtain ⟨q, hq, hacc⟩ := Option.map_eq_some_iff.mp hrun
  have hin := (hall q (reach_of_runAll hq)).inside ⟨0x1030, 32, 80, true⟩ (by
    rw [hacc]
    exact List.mem_cons_of_mem _ (List.mem_singleton_self _))
  exact absurd hin.2 (by decide)

end SdmaQueue

end RocDxg
