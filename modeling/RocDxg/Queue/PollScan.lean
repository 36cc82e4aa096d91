import RocDxg.Queue.Sdma

/-!
# The scan for poll packets

`SdmaThread` waits for the poll packets at the front of a pair before it submits the pair.  It
steps through memory until it finds a packet that is no poll, and does not look at the end of the
pair or of the ring.

`RangeScan` is the scan as it is meant: over the bytes of the pair, where they are in the ring.
`scans_range_iff` says that the thread scans so exactly if a packet that is no poll stops it inside
the pair, before the end of the ring.
-/

namespace RocDxg

open Lib (Reach runAll reach_of_runAll)

/-! ## The scan of a range -/

/-- The address of a byte of the range that starts at a ring index. -/
def SdmaRing.byteAt (r : SdmaRing) (start i : Nat) : Nat :=
  r.cmdbufAddr + (start + i) % r.cmdbufSize

/-- The scan of a range, which has come to the byte `pos`. -/
structure RangeScan where
  pos : Nat
  memory : Nat → UInt32
  waits : List (Nat × Nat)

namespace RangeScan

variable (r : SdmaRing) (start finish : Nat)

/-- The double word at a byte of the range. -/
def word (s : RangeScan) (i : Nat) : UInt32 := s.memory (r.byteAt start i)

/-- The header is that of a poll packet. -/
def pollHeader (header : UInt32) : Bool :=
  header.toNat % 2 ^ 8 = 8 && header.toNat / 2 ^ 31 % 2 = 1 && header.toNat / 2 ^ 28 % 8 = 3

/-- A poll packet lies wholly in the range, from a byte on. -/
def isPoll (s : RangeScan) (i : Nat) : Bool :=
  i + SdmaQueue.pollSize ≤ finish - start && pollHeader (s.word r start i)

def addr (s : RangeScan) (i : Nat) : Nat :=
  (s.word r start (i + 4)).toNat + (s.word r start (i + 8)).toNat * 2 ^ 32

def value (s : RangeScan) (i : Nat) : Nat := (s.word r start (i + 12)).toNat

/-- Two poll packets in a row poll the high and then the low word of one location. -/
def isPair (s : RangeScan) (i : Nat) : Bool :=
  s.isPoll r start finish (i + SdmaQueue.pollSize) &&
    u64 (s.addr r start (i + SdmaQueue.pollSize) + 4) = s.addr r start i

/-- The memory with `n` bytes of the range zeroed. -/
def cleared (s : RangeScan) (i n : Nat) : Nat → UInt32 :=
  fun a => if ∃ j < n, a = r.byteAt start (i + j) then 0 else s.memory a

/-- One wait: for both words of a location, or for what one packet polls. -/
def next (s : RangeScan) : Option RangeScan :=
  if s.isPoll r start finish s.pos then
    if s.isPair r start finish s.pos then
      some
        { pos := s.pos + 2 * SdmaQueue.pollSize
          memory := s.cleared r start s.pos (2 * SdmaQueue.pollSize)
          waits := s.waits ++ [(s.addr r start (s.pos + SdmaQueue.pollSize),
            s.value r start (s.pos + SdmaQueue.pollSize) + s.value r start s.pos * 2 ^ 32)] }
    else
      some
        { pos := s.pos + SdmaQueue.pollSize
          memory := s.cleared r start s.pos SdmaQueue.pollSize
          waits := s.waits ++ [(s.addr r start s.pos, s.value r start s.pos)] }
  else none

/-- The states of the scan. -/
def Reaches (s s' : RangeScan) : Prop :=
  Reach (fun s (_ : Unit) => s.next r start finish) (fun _ _ => True) s s'

variable {r start finish} {s s' : RangeScan}

/-- Each step of the scan waits. -/
theorem length_next (h : s.next r start finish = some s') :
    s'.waits.length = s.waits.length + 1 := by
  rw [next] at h
  split at h
  next =>
    split at h <;> cases h <;> simp
  next => cases h

theorem eq_of_length (h : s.Reaches r start finish s') (hlen : s'.waits.length ≤ s.waits.length) :
    s' = s := by
  have hle : s' = s ∨ s.waits.length < s'.waits.length := by
    refine h.invariant (I := fun x => x = s ∨ s.waits.length < x.waits.length) (Or.inl rfl) ?_
    intro x _ x' hx _ hs
    have hsucc := length_next hs
    refine Or.inr ?_
    cases hx with
    | inl heq =>
        rw [heq] at hsucc
        omega
    | inr hlt => omega
  exact hle.resolve_right (Nat.not_lt.mpr hlen)

end RangeScan

namespace SdmaQueue

/-! ## The scan of the thread -/

/-- The thread goes on with the loop over poll packets. -/
def OnlyPolls (_ : SdmaQueue) (e : SdmaEvent) : Prop := e = .poll

instance (q : SdmaQueue) (e : SdmaEvent) : Decidable (OnlyPolls q e) :=
  inferInstanceAs (Decidable (_ = _))

/-- The size of the header, all that is read of a packet that is no poll. -/
def headerSize : Nat := 4

/-- The `n` bytes at an address are those of the range from its byte `i` on. -/
def LiesAt (r : SdmaRing) (start finish i addr n : Nat) : Prop :=
  i + n ≤ finish - start ∧ ∀ j < n, addr + j = r.byteAt start (i + j)

/-- The thread may look at the packet: its header is in the range, and all of it if it is a
poll. -/
structure Examinable (r : SdmaRing) (q : SdmaQueue) (start finish i pkt : Nat) : Prop where
  header : LiesAt r start finish i pkt headerSize
  whole : q.isPollPacket pkt = true → LiesAt r start finish i pkt pollSize

/-- The thread is where the scan of the range is, and has done the same. -/
structure Agrees (r : SdmaRing) (start finish : Nat) (rest : List (Nat × Nat)) (s : RangeScan)
    (q : SdmaQueue) : Prop where
  thread : q.thread = .running (r.byteAt start s.pos) start finish rest
  memory : q.memory = s.memory
  waits : q.waits = s.waits

/-- The scan of a range, before it has begun. -/
def scanOf (q : SdmaQueue) : RangeScan := ⟨0, q.memory, q.waits⟩

/-- The thread scans the range of the pair: it looks at packets of the range only, step by step
does what the scan of the range does, and stops where that stops. -/
structure ScansRange (r : SdmaRing) (q : SdmaQueue) (start finish : Nat) (rest : List (Nat × Nat)) :
    Prop where
  inside : ∀ q', Reach (step r) OnlyPolls q q' → ∃ s, q.scanOf.Reaches r start finish s ∧
    Agrees r start finish rest s q' ∧ Examinable r q' start finish s.pos (r.byteAt start s.pos) ∧
    (q'.isPollPacket (r.byteAt start s.pos) = true →
      Examinable r q' start finish (s.pos + pollSize) (r.byteAt start s.pos + pollSize))
  stops : ∃ q' s, Reach (step r) OnlyPolls q q' ∧ step r q' .poll = none ∧
    q.scanOf.Reaches r start finish s ∧ s.next r start finish = none ∧
    Agrees r start finish rest s q'

/-- The `k` poll packets at the front of the pair are followed by a packet that is none, whose
header lies in the pair and in the ring. -/
structure StopsAt (r : SdmaRing) (q : SdmaQueue) (start finish k : Nat) : Prop where
  polls : ∀ j < k, q.isPollPacket (r.byteAt start 0 + pollSize * j) = true
  last : q.isPollPacket (r.byteAt start 0 + pollSize * k) = false
  range : pollSize * k + headerSize ≤ finish - start
  ring : start % r.cmdbufSize + pollSize * k + headerSize ≤ r.cmdbufSize

/-- The start of the pair can be said in 32 bits, and a packet that is no poll follows inside the
pair, before the end of the ring. -/
def StopsInside (r : SdmaRing) (q : SdmaQueue) (start finish : Nat) : Prop :=
  start % r.cmdbufSize < 2 ^ 32 ∧ ∃ k, StopsAt r q start finish k

variable {r : SdmaRing} {q q' q₀ : SdmaQueue} {pkt start finish i : Nat} {rest : List (Nat × Nat)}
  {s : RangeScan}

/-- A byte of the range that is before the end of the ring. -/
theorem byteAt_eq (h : start % r.cmdbufSize + i < r.cmdbufSize) :
    r.byteAt start i = r.byteAt start 0 + i := by
  rw [SdmaRing.byteAt, SdmaRing.byteAt, Nat.add_zero, Nat.add_mod, Nat.add_assoc]
  have hi : i % r.cmdbufSize = i := Nat.mod_eq_of_lt (Nat.lt_of_le_of_lt (Nat.le_add_left ..) h)
  rw [hi, Nat.mod_eq_of_lt h]

theorem step_poll_eq (ht : q.thread = .running pkt start finish rest) :
    step r q .poll =
      if q.isPollPacket pkt then some (q.poll pkt start finish rest) else none := by
  rw [step, ht]

theorem isPollPacket_eq (q : SdmaQueue) (pkt : Nat) :
    q.isPollPacket pkt = RangeScan.pollHeader (q.memory pkt) := rfl

/-- One round of the loop moves on by one or two packets, and changes nothing behind them. -/
theorem poll_cases (q : SdmaQueue) (pkt start finish : Nat) (rest : List (Nat × Nat)) :
    ∃ n, (n = 1 ∨ n = 2 ∧ q.isPollPacket (pkt + pollSize) = true) ∧
      (q.poll pkt start finish rest).thread = .running (pkt + pollSize * n) start finish rest ∧
      ∀ a, pkt + pollSize * n ≤ a → (q.poll pkt start finish rest).memory a = q.memory a := by
  rw [poll]
  split
  next hpair =>
    rw [pollsPair, Bool.and_eq_true] at hpair
    refine ⟨2, Or.inr ⟨rfl, hpair.1⟩, by rw [Nat.mul_comm], fun a ha => ?_⟩
    simp only [clear]
    rw [if_neg (by omega)]
  next =>
    refine ⟨1, Or.inl rfl, rfl, fun a ha => ?_⟩
    simp only [clear]
    rw [if_neg (by omega)]

/-- The thread has passed poll packets only, and the memory behind them is as it was. -/
theorem scan_run (ht : q₀.thread = .running pkt start finish rest)
    (h : Reach (step r) OnlyPolls q₀ q) :
    ∃ j, q.thread = .running (pkt + pollSize * j) start finish rest ∧
      (∀ i < j, q₀.isPollPacket (pkt + pollSize * i) = true) ∧
      ∀ a, pkt + pollSize * j ≤ a → q.memory a = q₀.memory a := by
  induction h with
  | start => exact ⟨0, ht, fun i hi => absurd hi (Nat.not_lt_zero i), fun _ _ => rfl⟩
  | @step q₁ q₂ e _ hpoll hs ih =>
      obtain ⟨j, hthread, hpolls, hmem⟩ := ih
      rw [OnlyPolls] at hpoll
      subst hpoll
      rw [step_poll_eq hthread] at hs
      split at hs
      next hp =>
        cases hs
        obtain ⟨n, hn, hnext, hkeep⟩ := q₁.poll_cases (pkt + pollSize * j) start finish rest
        have hmove : pkt + pollSize * j + pollSize * n = pkt + pollSize * (j + n) := by
          rw [Nat.add_assoc, Nat.mul_add]
        rw [hmove] at hnext hkeep
        refine ⟨j + n, hnext, fun i hi => ?_, fun a ha => ?_⟩
        · by_cases hlt : i < j
          · exact hpolls i hlt
          · -- the packet at hand, or the one behind it of a pair
            have hle : pollSize * j ≤ pollSize * i := Nat.mul_le_mul_left _ (Nat.le_of_not_lt hlt)
            rw [isPollPacket_eq, ← hmem _ (Nat.add_le_add_left hle _), ← isPollPacket_eq]
            by_cases heq : i = j
            · rw [heq]
              exact hp
            · have hsecond : i = j + 1 ∧
                  q₁.isPollPacket (pkt + pollSize * j + pollSize) = true := by
                cases hn with
                | inl hone => omega
                | inr htwo => exact ⟨by omega, htwo.2⟩
              rw [hsecond.1, Nat.mul_add, ← Nat.add_assoc]
              exact hsecond.2
        · rw [hkeep a ha]
          refine hmem a (Nat.le_trans ?_ ha)
          exact Nat.add_le_add_left (Nat.mul_le_mul_left _ (Nat.le_add_right ..)) _
      next => cases hs

/-! ## One wait -/

theorem isPoll_eq (hmem : q.memory = s.memory) (hrange : i + pollSize ≤ finish - start) :
    s.isPoll r start finish i = q.isPollPacket (r.byteAt start i) := by
  rw [RangeScan.isPoll, isPollPacket_eq, hmem, RangeScan.word, decide_eq_true hrange, Bool.true_and]

theorem addr_eq (hmem : q.memory = s.memory) (hring : start % r.cmdbufSize + i + 8 < r.cmdbufSize) :
    s.addr r start i = q.pollAddr (r.byteAt start i) := by
  rw [RangeScan.addr, pollAddr, hmem, RangeScan.word, RangeScan.word, byteAt_eq (i := i) (by omega),
    byteAt_eq (i := i + 4) (by omega), byteAt_eq (i := i + 8) (by omega), Nat.add_assoc,
    Nat.add_assoc]

theorem value_eq (hmem : q.memory = s.memory)
    (hring : start % r.cmdbufSize + i + 12 < r.cmdbufSize) :
    s.value r start i = q.pollValue (r.byteAt start i) := by
  rw [RangeScan.value, pollValue, hmem, RangeScan.word, byteAt_eq (i := i) (by omega),
    byteAt_eq (i := i + 12) (by omega), Nat.add_assoc]

theorem cleared_eq {n : Nat} (hmem : q.memory = s.memory)
    (hring : start % r.cmdbufSize + i + n < r.cmdbufSize) :
    (q.clear (r.byteAt start i) n).memory = s.cleared r start i n := by
  funext a
  simp only [clear, RangeScan.cleared, hmem]
  refine if_congr ?_ rfl rfl
  constructor
  · rintro ⟨hle, hlt⟩
    refine ⟨a - r.byteAt start i, by omega, ?_⟩
    rw [byteAt_eq (i := i + (a - r.byteAt start i)) (by omega)]
    rw [byteAt_eq (i := i) (by omega)] at hle ⊢
    omega
  · rintro ⟨j, hj, rfl⟩
    rw [byteAt_eq (i := i) (by omega), byteAt_eq (i := i + j) (by omega)]
    omega

/-- Where the packet at hand is in the range, and the one behind it as far as the thread looks at
it, the thread waits as the scan of the range does. -/
theorem Agrees.next (hA : Agrees r start finish rest s q)
    (hpoll : q.isPollPacket (r.byteAt start s.pos) = true)
    (hrange : s.pos + pollSize ≤ finish - start)
    (hring : start % r.cmdbufSize + (s.pos + pollSize) < r.cmdbufSize)
    (hahead : q.isPollPacket (r.byteAt start s.pos + pollSize) = true →
      s.pos + 2 * pollSize ≤ finish - start ∧
        start % r.cmdbufSize + (s.pos + 2 * pollSize) < r.cmdbufSize) :
    ∃ n s', (n = 1 ∨ n = 2 ∧ q.isPollPacket (r.byteAt start s.pos + pollSize) = true) ∧
      s.next r start finish = some s' ∧ s'.pos = s.pos + pollSize * n ∧
      Agrees r start finish rest s' (q.poll (r.byteAt start s.pos) start finish rest) := by
  have hsize : pollSize = 24 := rfl
  have hmem := hA.memory
  have hnext : r.byteAt start (s.pos + pollSize) = r.byteAt start s.pos + pollSize := by
    rw [byteAt_eq hring, byteAt_eq (i := s.pos) (by omega), Nat.add_assoc]
  have hfirst : s.isPoll r start finish s.pos = true := (isPoll_eq hmem hrange).trans hpoll
  have hpair : s.isPair r start finish s.pos = q.pollsPair (r.byteAt start s.pos) := by
    rw [RangeScan.isPair, pollsPair]
    cases hsecond : q.isPollPacket (r.byteAt start s.pos + pollSize) with
    | false =>
        have hno : s.isPoll r start finish (s.pos + pollSize) = false := by
          rw [RangeScan.isPoll, RangeScan.word, ← hmem, hnext, ← isPollPacket_eq, hsecond,
            Bool.and_false]
        rw [hno, Bool.false_and, Bool.false_and]
    | true =>
        obtain ⟨hin, hlt⟩ := hahead hsecond
        rw [isPoll_eq hmem (by omega), hnext, hsecond, addr_eq hmem (by omega),
          addr_eq hmem (by omega), hnext]
  rw [RangeScan.next, if_pos hfirst, poll, hpair]
  cases hcase : q.pollsPair (r.byteAt start s.pos) with
  | false =>
      refine ⟨1, _, Or.inl rfl, rfl, rfl, ?_, ?_, ?_⟩
      · show SdmaThread.running (r.byteAt start s.pos + pollSize) start finish rest = _
        rw [← hnext]
      · exact cleared_eq hmem (by omega)
      · show q.waits ++ _ = s.waits ++ _
        rw [hA.waits, addr_eq hmem (by omega), value_eq hmem (by omega)]
  | true =>
      have hsecond : q.isPollPacket (r.byteAt start s.pos + pollSize) = true := by
        rw [pollsPair, Bool.and_eq_true] at hcase
        exact hcase.1
      obtain ⟨hin, hlt⟩ := hahead hsecond
      refine ⟨2, _, Or.inr ⟨rfl, hsecond⟩, rfl, rfl, ?_, ?_, ?_⟩
      · show SdmaThread.running (r.byteAt start s.pos + 2 * pollSize) start finish rest = _
        rw [byteAt_eq hlt, byteAt_eq (i := s.pos) (by omega), Nat.add_assoc]
      · exact cleared_eq hmem (by omega)
      · show q.waits ++ _ = s.waits ++ _
        rw [hA.waits, addr_eq hmem (by omega), value_eq hmem (by omega), value_eq hmem (by omega),
          hnext]

/-! ## The whole scan -/

/-- The thread and the scan of the range have both come past `j` poll packets, and have left
everything behind these as it was. -/
structure Tracked (r : SdmaRing) (q₀ : SdmaQueue) (start finish : Nat) (rest : List (Nat × Nat))
    (j : Nat) (s : RangeScan) (q : SdmaQueue) : Prop where
  thread : Reach (step r) OnlyPolls q₀ q
  scan : q₀.scanOf.Reaches r start finish s
  agrees : Agrees r start finish rest s q
  pos : s.pos = pollSize * j
  kept : ∀ a, r.byteAt start 0 + pollSize * j ≤ a → q.memory a = q₀.memory a

variable {j k : Nat}

namespace StopsAt

variable (hstop : StopsAt r q₀ start finish k)

include hstop

theorem byteAt (hj : j ≤ k) :
    r.byteAt start (pollSize * j) = r.byteAt start 0 + pollSize * j := by
  have hle : pollSize * j ≤ pollSize * k := Nat.mul_le_mul_left _ hj
  have hring := hstop.ring
  have hsize : headerSize = 4 := rfl
  exact byteAt_eq (by omega)

/-- A poll packet that has not been passed was one of the first `k`. -/
theorem lt_of_poll (hkept : ∀ a, r.byteAt start 0 + pollSize * j ≤ a → q.memory a = q₀.memory a)
    (hji : j ≤ i) (hi : i ≤ k)
    (hpoll : q.isPollPacket (r.byteAt start 0 + pollSize * i) = true) : i < k := by
  have hle : pollSize * j ≤ pollSize * i := Nat.mul_le_mul_left _ hji
  rw [isPollPacket_eq, hkept _ (Nat.add_le_add_left hle _), ← isPollPacket_eq] at hpoll
  refine Nat.lt_of_le_of_ne hi ?_
  rintro rfl
  rw [hstop.last] at hpoll
  cases hpoll

/-- The packets up to the one that stops the thread are in the range. -/
theorem examinable (hkept : ∀ a, r.byteAt start 0 + pollSize * j ≤ a → q.memory a = q₀.memory a)
    (hji : j ≤ i) (hi : i ≤ k) :
    Examinable r q start finish (pollSize * i) (r.byteAt start 0 + pollSize * i) := by
  have hrange := hstop.range
  have hring := hstop.ring
  have hsize : headerSize = 4 := rfl
  have hle : pollSize * i ≤ pollSize * k := Nat.mul_le_mul_left _ hi
  refine ⟨⟨by omega, fun n hn => ?_⟩, fun hpoll => ⟨?_, fun n hn => ?_⟩⟩
  · rw [byteAt_eq (i := pollSize * i + n) (by omega), Nat.add_assoc]
  · have hlt := hstop.lt_of_poll hkept hji hi hpoll
    have hnext : pollSize * (i + 1) ≤ pollSize * k := Nat.mul_le_mul_left _ hlt
    rw [Nat.mul_succ] at hnext
    omega
  · have hlt := hstop.lt_of_poll hkept hji hi hpoll
    have hnext : pollSize * (i + 1) ≤ pollSize * k := Nat.mul_le_mul_left _ hlt
    rw [Nat.mul_succ] at hnext
    rw [byteAt_eq (i := pollSize * i + n) (by omega), Nat.add_assoc]

end StopsAt

namespace Tracked

theorem refl (ht : q₀.thread = .running (r.byteAt start 0) start finish rest) :
    Tracked r q₀ start finish rest 0 q₀.scanOf q₀ where
  thread := .start
  scan := .start
  agrees := ⟨ht, rfl, rfl⟩
  pos := rfl
  kept := fun _ _ => rfl

/-- A wait brings both on. -/
theorem poll (hstop : StopsAt r q₀ start finish k) (T : Tracked r q₀ start finish rest j s q)
    (hj : j ≤ k) (hpoll : q.isPollPacket (r.byteAt start s.pos) = true) :
    ∃ n s', 0 < n ∧ j + n ≤ k ∧ Tracked r q₀ start finish rest (j + n) s'
      (q.poll (r.byteAt start s.pos) start finish rest) := by
  have hpos : r.byteAt start s.pos = r.byteAt start 0 + pollSize * j := by
    rw [T.pos, hstop.byteAt hj]
  have hjk : j < k := hstop.lt_of_poll T.kept (Nat.le_refl j) hj (by rw [← hpos, hpoll])
  have hsecond : q.isPollPacket (r.byteAt start s.pos + pollSize) = true → j + 2 ≤ k := by
    intro hahead
    rw [hpos, Nat.add_assoc, ← Nat.mul_succ] at hahead
    exact hstop.lt_of_poll T.kept (Nat.le_succ j) hjk hahead
  have hrange := hstop.range
  have hring := hstop.ring
  have hheader : headerSize = 4 := rfl
  have hone : s.pos + pollSize ≤ pollSize * k := by
    rw [T.pos, ← Nat.mul_succ]
    exact Nat.mul_le_mul_left _ hjk
  have htwo : j + 2 ≤ k → s.pos + 2 * pollSize ≤ pollSize * k := by
    intro hle
    rw [T.pos, Nat.mul_comm 2, ← Nat.mul_add]
    exact Nat.mul_le_mul_left _ hle
  obtain ⟨n, s', hn, hnext, hto, hA⟩ := T.agrees.next hpoll (by omega) (by omega) (by
    intro hahead
    have hle := htwo (hsecond hahead)
    omega)
  have hjn : 0 < n ∧ j + n ≤ k := by
    rcases hn with hn | ⟨hn, hahead⟩
    · omega
    · have hle := hsecond hahead
      omega
  have hstep : step r q .poll = some (q.poll (r.byteAt start s.pos) start finish rest) := by
    rw [step_poll_eq T.agrees.thread, if_pos hpoll]
  refine ⟨n, s', hjn.1, hjn.2, .step T.thread rfl hstep, .step (e := ()) T.scan trivial hnext, hA,
    ?_, ?_⟩
  · rw [hto, T.pos, Nat.mul_add]
  · intro a ha
    obtain ⟨m, hm, hmove, hkeep⟩ := q.poll_cases (r.byteAt start s.pos) start finish rest
    have hsame : r.byteAt start s.pos + pollSize * m = r.byteAt start s'.pos := by
      have hthread := hA.thread
      rw [hmove] at hthread
      injection hthread
    have hend : r.byteAt start s'.pos = r.byteAt start 0 + pollSize * (j + n) := by
      rw [hto, T.pos, ← Nat.mul_add, hstop.byteAt hjn.2]
    rw [hkeep a (by omega)]
    refine T.kept a (Nat.le_trans ?_ ha)
    exact Nat.add_le_add_left (Nat.mul_le_mul_left _ (Nat.le_add_right ..)) _

/-- Every state of the thread is one of the scan. -/
theorem of_reach (hstop : StopsAt r q₀ start finish k)
    (ht : q₀.thread = .running (r.byteAt start 0) start finish rest)
    (h : Reach (step r) OnlyPolls q₀ q) :
    ∃ j s, j ≤ k ∧ Tracked r q₀ start finish rest j s q := by
  induction h with
  | start => exact ⟨0, _, Nat.zero_le k, Tracked.refl ht⟩
  | @step q₁ q₂ e _ hok hs ih =>
      obtain ⟨j, s, hj, T⟩ := ih
      rw [OnlyPolls] at hok
      subst hok
      rw [step_poll_eq T.agrees.thread] at hs
      split at hs
      next hpoll =>
        cases hs
        obtain ⟨n, s', _, hjn, T'⟩ := T.poll hstop hj hpoll
        exact ⟨j + n, s', hjn, T'⟩
      next => cases hs

/-- The thread comes to the packet that stops it. -/
theorem reaches_stop (hstop : StopsAt r q₀ start finish k)
    (T : Tracked r q₀ start finish rest j s q) (hj : j ≤ k) :
    ∃ s' q', Tracked r q₀ start finish rest k s' q' := by
  induction hd : k - j using Nat.strongRecOn generalizing j s q with
  | ind d ih =>
      by_cases heq : j = k
      · exact ⟨s, q, heq ▸ T⟩
      · have hlt : j < k := Nat.lt_of_le_of_ne hj heq
        have hpoll : q.isPollPacket (r.byteAt start s.pos) = true := by
          rw [T.pos, hstop.byteAt hj, isPollPacket_eq, T.kept _ (Nat.le_refl _), ← isPollPacket_eq]
          exact hstop.polls j hlt
        obtain ⟨n, s', hn, hjn, T'⟩ := T.poll hstop hj hpoll
        exact ih (k - (j + n)) (by omega) T' hjn rfl

end Tracked

/-- The thread starts with the first byte of the range, if its index can be said in 32 bits. -/
theorem thread_start (h : start % r.cmdbufSize < 2 ^ 32) :
    r.thread ((start, finish) :: rest) = .running (r.byteAt start 0) start finish rest := by
  have hlt := wrapIntoRocrRing_lt (r := r) start
  have hfits := r.fits
  rw [wrapIntoRocrRing_eq, u32_of_lt h] at hlt
  rw [SdmaRing.thread, wrapIntoRocrRing_eq, u32_of_lt h, u64_of_lt (by omega)]
  rfl

theorem scansRange_of_stopsInside (ht : q.thread = r.thread ((start, finish) :: rest))
    (h : StopsInside r q start finish) : ScansRange r q start finish rest := by
  obtain ⟨hword, k, hstop⟩ := h
  rw [thread_start hword] at ht
  refine ⟨fun q' hq => ?_, ?_⟩
  · obtain ⟨j, s, hj, T⟩ := Tracked.of_reach hstop ht hq
    have hpos : r.byteAt start s.pos = r.byteAt start 0 + pollSize * j := by
      rw [T.pos, hstop.byteAt hj]
    refine ⟨s, T.scan, T.agrees, ?_, fun hpoll => ?_⟩
    · rw [hpos, T.pos]
      exact hstop.examinable T.kept (Nat.le_refl j) hj
    · have hjk : j < k := hstop.lt_of_poll T.kept (Nat.le_refl j) hj (by rw [← hpos, hpoll])
      rw [hpos, T.pos, Nat.add_assoc, ← Nat.mul_succ]
      exact hstop.examinable T.kept (Nat.le_succ j) hjk
  · obtain ⟨s, q', T⟩ := (Tracked.refl ht).reaches_stop hstop (Nat.zero_le k)
    have hno : q'.isPollPacket (r.byteAt start s.pos) = false := by
      rw [T.pos, hstop.byteAt (Nat.le_refl k), isPollPacket_eq, T.kept _ (Nat.le_refl _),
        ← isPollPacket_eq]
      exact hstop.last
    refine ⟨q', s, T.thread, ?_, T.scan, ?_, T.agrees⟩
    · rw [step_poll_eq T.agrees.thread, hno, if_neg Bool.false_ne_true]
    · rw [RangeScan.next, RangeScan.isPoll, RangeScan.word, ← T.agrees.memory, ← isPollPacket_eq,
        hno, Bool.and_false, if_neg Bool.false_ne_true]

/-- A thread that scans the range starts with the first byte of it. -/
theorem ScansRange.start_lt (ht : q.thread = r.thread ((start, finish) :: rest))
    (h : ScansRange r q start finish rest) : start % r.cmdbufSize < 2 ^ 32 := by
  obtain ⟨s, hscan, hA, _⟩ := h.inside q .start
  have hs : s = q.scanOf := RangeScan.eq_of_length hscan (by
    rw [← hA.waits]
    exact Nat.le_refl _)
  have hthread := hA.thread
  rw [hs, ht, SdmaRing.thread] at hthread
  injection hthread with hpkt
  have hlt := wrapIntoRocrRing_lt (r := r) start
  have hfits := r.fits
  rw [u64_of_lt (by omega), wrapIntoRocrRing_eq] at hpkt
  have hoff : u32 (start % r.cmdbufSize) = start % r.cmdbufSize := Nat.add_left_cancel hpkt
  rw [← hoff]
  exact Nat.mod_lt _ (by decide)

theorem ScansRange.stopsInside (ht : q.thread = r.thread ((start, finish) :: rest))
    (h : ScansRange r q start finish rest) : StopsInside r q start finish := by
  have hword := h.start_lt ht
  rw [thread_start hword] at ht
  obtain ⟨q', _, hq, hnone, _⟩ := h.stops
  obtain ⟨k, hthread, hpolls, hkept⟩ := scan_run ht hq
  have hno : q'.isPollPacket (r.byteAt start 0 + pollSize * k) = false := by
    rw [step_poll_eq hthread] at hnone
    split at hnone
    next => cases hnone
    next hpoll => exact Bool.eq_false_iff.mpr hpoll
  rw [isPollPacket_eq, hkept _ (Nat.le_refl _), ← isPollPacket_eq] at hno
  obtain ⟨s, _, hA, ⟨⟨hrange, hbytes⟩, _⟩, _⟩ := h.inside q' hq
  have hpkt : r.byteAt start 0 + pollSize * k = r.byteAt start s.pos := by
    have hsame := hA.thread
    rw [hthread] at hsame
    injection hsame
  have hbase : r.byteAt start 0 = r.cmdbufAddr + start % r.cmdbufSize := rfl
  -- the last byte of the header is in the ring, hence all that is before it
  have hlast := hbytes 3 (by decide)
  have hend : r.byteAt start (s.pos + 3) < r.cmdbufAddr + r.cmdbufSize :=
    Nat.add_lt_add_left (Nat.mod_lt _ (SdmaRing.size_pos r)) _
  have hheader : headerSize = 4 := rfl
  have hring : start % r.cmdbufSize + pollSize * k + headerSize ≤ r.cmdbufSize := by omega
  have hpos : pollSize * k ≤ s.pos := by
    have hmod : start % r.cmdbufSize + pollSize * k = (start + s.pos) % r.cmdbufSize := by
      rw [hbase, SdmaRing.byteAt, Nat.add_assoc] at hpkt
      exact Nat.add_left_cancel hpkt
    have hle : (start % r.cmdbufSize + s.pos) % r.cmdbufSize ≤ start % r.cmdbufSize + s.pos :=
      Nat.mod_le ..
    rw [Nat.mod_add_mod] at hle
    omega
  exact ⟨hword, k, hpolls, hno, by omega, hring⟩

/-- Taking up a pair, the thread scans the range of it exactly if a packet that is no poll stops it
inside. -/
theorem scans_range_iff (ht : q.thread = r.thread ((start, finish) :: rest)) :
    ScansRange r q start finish rest ↔ StopsInside r q start finish :=
  ⟨fun h => h.stopsInside ht, scansRange_of_stopsInside ht⟩

/-- A ring that starts with `n` packets which poll a signal for zero, and is zero behind them. -/
def polling (n : Nat) (pair : Nat × Nat) : SdmaQueue where
  thread := smallRing.thread [pair]
  memory := fun a =>
    if ∃ j < n, a = smallRing.cmdbufAddr + pollSize * j then 0xB0000008
    else if ∃ j < n, a = smallRing.cmdbufAddr + pollSize * j + 4 then 0x8000
    else 0

/-- A ring that starts with the two polls of a 64-bit wait, the high word first, and is zero behind
them. -/
def pollingHalves (pair : Nat × Nat) : SdmaQueue where
  thread := smallRing.thread [pair]
  memory := fun a =>
    if a = 0x1000 ∨ a = 0x1018 then 0xB0000008
    else if a = 0x1004 then 0x8004
    else if a = 0x100C then 7
    else if a = 0x101C then 0x8000
    else if a = 0x1024 then 5
    else 0

/-- The two polls are one wait, and another packet of the pair stops the scan behind them. -/
theorem scans_range_iff_halves :
    ScansRange smallRing (pollingHalves (0, 64)) 0 64 [] ∧
      ((pollingHalves (0, 64)).poll 0x1000 0 64 []).waits = [(0x8000, 5 + 7 * 2 ^ 32)] :=
  ⟨(scans_range_iff rfl).mpr ⟨by decide, 2, by decide, by decide, by decide, by decide⟩,
    by decide⟩

/-- The pair ends with its poll packet, and the thread waits for the packet behind it too, and
zeroes that. -/
theorem scan_leaves_range :
    ¬ ScansRange smallRing (polling 2 (0, 24)) 0 24 [] ∧
      ∃ q, Reach (step smallRing) OnlyPolls (polling 2 (0, 24)) q ∧
        q.waits = [(0x8000, 0), (0x8000, 0)] ∧
        q.memory 0x1018 = 0 ∧ (polling 2 (0, 24)).memory 0x1018 = 0xB0000008 := by
  have hrun : (runAll (step smallRing) OnlyPolls (polling 2 (0, 24)) [.poll, .poll]).map
      (fun q => (q.thread, q.waits, q.memory 0x1018)) =
        some (.running 0x1030 0 24 [], [(0x8000, 0), (0x8000, 0)], 0) := by
    decide
  obtain ⟨q, hq, hend⟩ := Option.map_eq_some_iff.mp hrun
  have hreach := reach_of_runAll hq
  simp only [Prod.mk.injEq] at hend
  obtain ⟨hthread, hwaits, hmem⟩ := hend
  refine ⟨fun h => ?_, q, hreach, hwaits, hmem, by decide⟩
  obtain ⟨s, _, hA, ⟨⟨hrange, _⟩, _⟩, _⟩ := h.inside q hreach
  have hpkt : 0x1030 = smallRing.byteAt 0 s.pos := by
    have hsame := hA.thread
    rw [hthread] at hsame
    injection hsame
  have hin : s.pos + 4 ≤ 24 := hrange
  have hpos : 0x1030 = 0x1000 + (0 + s.pos) % 64 := hpkt
  omega

end SdmaQueue

end RocDxg
