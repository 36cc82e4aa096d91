import RocDxg.Memory.Client

/-!
# The rings of queues

`hsaKmtCreateQueue` and `hsaKmtDestroyQueue` of `queues.cpp`, as far as they are about the
memory of the ring.  A queue marks the object that is entered at its ring, and
`hsaKmtFreeMemory` does not release a marked object.

The mark is one bit.  The first of two queues on a ring to be destroyed clears it; memory
of the sub-allocator is released without a look at it; and where the map has no entry,
`queue_acquire_buffer` returns `HSAKMT_STATUS_ERROR`, which is `true` as a `bool`.
`Rings.ring_protected` says that nothing else goes wrong.

The memory that a queue allocates for itself is not in the map, and is left out.
-/

namespace RocDxg

open Lib (OrdMap Reach runAll reach_of_runAll)
open Memory (Backed Given Grants Quiet Takes AllocRegular Allocates)

/-- `HSA_QUEUE_TYPE` -/
inductive QueueType where
  | compute
  | sdma
  | multimediaDecode
  | multimediaEncode
  | sdmaXgmi
  | sdmaByEngId
  | computeOs
  | sdmaOs
  | multimediaDecodeOs
  | multimediaEncodeOs
  | computeAql
  | dmaAql
  | dmaAqlXgmi
deriving DecidableEq, Repr

/-- The types that `hsaKmtCreateQueueV2` has a case for. -/
def QueueType.isSupported : QueueType → Bool
  | .computeAql | .sdma | .sdmaByEngId => true
  | _ => false

/-- A status that is converted to `bool`; `HSAKMT_STATUS_SUCCESS` is zero. -/
def Status.toBool (status : Status) : Bool := status ≠ .success

namespace Core

/-- `GetQueueReference` and `PutQueueReference` of an object. -/
def markQueue (c : Core) (handle : Nat) (mem : GpuMemory) (mark : Bool) : Core :=
  c.setObject handle { mem with flags := { mem.flags with isQueueReferenced := mark } }

/-- `queue_acquire_buffer` and `queue_release_buffer`, with what they store. -/
def queueBuffer (c : Core) (addr : Nat) (mark : Bool) : Except Fault (Bool × Core) :=
  if addr = 0 then .ok (false, c)
  else
    match c.allocationMap.find? addr with
    | none => .ok (Status.error.toBool, c)
    | some e =>
        match c.objects.find? e.handle with
        | none => .error .useAfterDelete
        | some mem => .ok (true, c.markQueue e.handle mem mark)

/-- `queue_acquire_buffer` -/
def queueAcquireBuffer (c : Core) (addr : Nat) : Except Fault (Bool × Core) := c.queueBuffer addr true

/-- `queue_release_buffer` -/
def queueReleaseBuffer (c : Core) (addr : Nat) : Except Fault (Bool × Core) :=
  c.queueBuffer addr false

end Core

/-- The arguments of `hsaKmtCreateQueueV2` that it reads. -/
structure QueueArgs where
  nodeId : Nat
  type : QueueType
  priority : Int := 0
  queueAddress : Nat
  metaDataPrefetchSizeInBytes : Nat := 0
deriving DecidableEq, Repr

/-- The arguments of `hsaKmtCreateQueue` pass the checks before the ring is looked at. -/
def QueueArgs.Checked (cfg : Config) (args : QueueArgs) : Prop :=
  args.type ≠ .sdmaByEngId ∧ -3 ≤ args.priority ∧ args.priority ≤ 3 ∧
    (cfg.getWddmdev args.nodeId).isSome = true

/-- The memory, and the rings of the queues that have been created and not destroyed. -/
structure Rings where
  memory : Memory
  queues : OrdMap Nat := .empty
  nextQueue : Nat := 0

namespace Rings

/-- A process that has opened the library and done nothing else. -/
def new (sp : AddressSpace) (pid : Nat) : Rings := { memory := .new sp pid }

/-- The objects have changed. -/
def withCore (s : Rings) (core : Core) : Rings := { s with memory := { s.memory with core := core } }

/-- There is a new queue. -/
def withQueue (s : Rings) (ring : Nat) : Rings :=
  { s with queues := s.queues.insert s.nextQueue ring, nextQueue := s.nextQueue + 1 }

/-- `hsaKmtCreateQueueV2`.  `driver` says whether the constructor of the queue succeeds,
which it asserts. -/
def createQueueV2 (cfg : Config) (s : Rings) (args : QueueArgs) (driver : Bool) :
    Except Fault (Status × Rings) :=
  if s.memory.core.isOpen = false then .ok (.kernelIoChannelNotOpened, s)
  else if args.priority < -3 ∨ args.priority > 3 then .ok (.invalidParameter, s)
  else if args.metaDataPrefetchSizeInBytes ≠ 0 then .ok (.invalidParameter, s)
  else
    match cfg.getWddmdev args.nodeId with
    | none => .error .assertion
    | some _ => do
        let (acquired, core) ← s.memory.core.queueAcquireBuffer args.queueAddress
        if acquired = false then .ok (.invalidParameter, s.withCore core)
        else if args.type.isSupported ∧ driver then
          .ok (.success, (s.withCore core).withQueue args.queueAddress)
        else .error .assertion

/-- `hsaKmtCreateQueue` -/
def createQueue (cfg : Config) (s : Rings) (args : QueueArgs) (driver : Bool) :
    Except Fault (Status × Rings) :=
  if args.type = .sdmaByEngId then .ok (.error, s)
  else s.createQueueV2 cfg { args with metaDataPrefetchSizeInBytes := 0 } driver

/-- `hsaKmtDestroyQueue` -/
def destroyQueue (s : Rings) (queueId : Nat) : Except Fault (Status × Rings) :=
  if s.memory.core.isOpen = false then .ok (.kernelIoChannelNotOpened, s)
  else
    match s.queues.find? queueId with
    | none => .error .useAfterDelete
    | some ring => do
        let (_, core) ← s.memory.core.queueReleaseBuffer ring
        .ok (.success, { s.withCore core with queues := s.queues.erase queueId })

/-- A call of the client. -/
inductive Call where
  | allocMemory (preferredNode sizeInBytes : Nat) (flags : HsaMemFlags) (memoryAddress : Nat)
      (ans : AllocAnswers)
  | createQueue (args : QueueArgs) (driver : Bool)
  | destroyQueue (queueId : Nat)
  | freeMemory (addr : Nat)

/-- The state after a call that returns. -/
def step (cfg : Config) (s : Rings) : Call → Option Rings
  | .allocMemory node size flags addr ans =>
      (s.memory.allocMemory cfg node size flags addr ans).toOption.map fun r =>
        { s with memory := r.2.2 }
  | .createQueue args driver => (s.createQueue cfg args driver).toOption.map Prod.snd
  | .destroyQueue id => (s.destroyQueue id).toOption.map Prod.snd
  | .freeMemory p => (s.memory.freeMemory cfg p).toOption.map fun r => { s with memory := r.2 }

/-- No other queue has the ring of this one. -/
def Single (s : Rings) (queueId : Nat) : Prop :=
  ∀ ring, s.queues.find? queueId = some ring →
    ∀ j, s.queues.find? j = some ring → j = queueId

instance (s : Rings) (queueId : Nat) : Decidable (s.Single queueId) :=
  decidable_of_iff (∀ ring ∈ s.queues.find? queueId, ∀ q ∈ s.queues.entries,
      q.2 = ring → q.1 = queueId) <| by
    constructor
    · intro h ring hring j hj
      exact h ring hring (j, ring) (OrdMap.find?_eq_some.mp hj) rfl
    · rintro h ring hring ⟨j, ring'⟩ hq rfl
      exact h ring' hring j (OrdMap.find?_eq_some.mpr hq)

/-- The calls that keep to one queue for each ring: a queue is created on memory that was
not taken from the sub-allocator, or on nothing, and destroyed when it is the last on its
ring.  Allocations and releases reach none of the other defects. -/
def Regular (cfg : Config) (s : Rings) : Call → Prop
  | .allocMemory node size flags addr ans =>
      s.memory.AllocRegular cfg ⟨node, size, 0, flags, addr⟩ ans
  | .createQueue args _ => args.queueAddress = 0 ∨ (s.memory.direct args.queueAddress).isSome = true
  | .destroyQueue id => s.Single id
  | .freeMemory p => Client.FreeRegular s.memory p

instance (cfg : Config) (s : Rings) : (e : Call) → Decidable (Regular cfg s e)
  | .allocMemory .. => inferInstanceAs (Decidable (AllocRegular ..))
  | .createQueue .. => inferInstanceAs (Decidable (_ ∨ _))
  | .destroyQueue id => inferInstanceAs (Decidable (s.Single id))
  | .freeMemory _ => inferInstanceAs (Decidable (Client.FreeRegular ..))

end Rings

/-! ## Marking an object -/

/-- The mark of an object changes, and nothing else. -/
theorem Core.Settled.markQueue {sp : AddressSpace} {c : Core} (C : c.Settled sp) {a h : Nat}
    {mem : GpuMemory} (ho : c.object a = some (h, mem)) (mark : Bool) :
    Core.Becomes sp c (Function.update c.object a
      (some (h, { mem with flags := { mem.flags with isQueueReferenced := mark } })))
      (c.markQueue h mem mark) := by
  obtain ⟨e, he, rfl, hm⟩ := Core.object_eq_some.mp ho
  have hobject : (c.markQueue e.handle mem mark).object = Function.update c.object a
      (some (e.handle, { mem with flags := { mem.flags with isQueueReferenced := mark } })) := by
    funext a'
    show (c.allocationMap.find? a').bind (fun e' => ((c.objects.insert e.handle
      { mem with flags := { mem.flags with isQueueReferenced := mark } }).find? e'.handle).map
        fun mem' => (e'.handle, mem')) = _
    by_cases heq : a' = a
    · rw [heq, Function.update_self, he, Option.bind_some, OrdMap.find?_insert, if_pos rfl,
        Option.map_some]
    · rw [Function.update_of_ne heq, Core.object]
      cases he' : c.allocationMap.find? a' with
      | none => rfl
      | some e' =>
          rw [Option.bind_some, Option.bind_some, OrdMap.find?_insert, if_neg]
          exact fun hh => heq (C.alone a e he a' e' he' hh)
  refine ⟨⟨C.consistent.setFlags hm _, ?_, ?_⟩, hobject, rfl⟩
  · intro a' h' mem' ho'
    rw [hobject, Function.update_apply] at ho'
    split at ho'
    next heq =>
      cases ho'
      have hhome := C.home ho
      rw [heq]
      exact hhome
    next => exact C.home ho'
  · intro a' h' mem' ho'
    rw [hobject, Function.update_apply] at ho'
    split at ho'
    next =>
      cases ho'
      have hshared := C.unshared ho
      exact hshared
    next => exact C.unshared ho'

namespace Rings

variable {sp : AddressSpace} {cfg : Config} {s s' : Rings}

/-- An object that is not a block is marked. -/
theorem markQueue_backed {m : Memory} (B : Backed sp cfg m) {a h : Nat} {mem : GpuMemory}
    (hd : m.direct a = some (h, mem)) (mark : Bool) :
    Backed sp cfg { m with core := m.core.markQueue h mem mark } ∧
      ({ m with core := m.core.markQueue h mem mark } : Memory).direct =
        Function.update m.direct a
          (some (h, { mem with flags := { mem.flags with isQueueReferenced := mark } })) := by
  obtain ⟨hbase, ho⟩ : m.heap.isBase a = false ∧ m.core.object a = some (h, mem) := by
    rw [Memory.direct] at hd
    split at hd
    next => cases hd
    next hbase => exact ⟨Bool.eq_false_iff.mpr hbase, hd⟩
  have K := B.settled.markQueue ho mark
  have hheld : ∀ {b n}, m.heap.Holds b n → b ≠ a := by
    rintro b n hn rfl
    exact SimpleHeap.isBase_eq_false.mp hbase n hn
  refine ⟨⟨K.settled, B.heap, ?_, B.fresh, B.distinct, B.inUse, B.cached⟩, ?_⟩
  · intro b n hn
    rw [K.object, Function.update_of_ne (hheld hn)]
    exact B.block hn
  · funext q
    rw [Function.update_apply]
    show (if m.heap.isBase q then none else (m.core.markQueue h mem mark).object q) = _
    rw [K.object, Function.update_apply]
    by_cases heq : q = a
    · rw [if_pos heq, heq, hbase, if_neg Bool.false_ne_true, if_pos rfl]
    · rw [if_neg heq, if_neg heq, Memory.direct]

/-- What `queueBuffer` does at the address of such an object. -/
theorem queueBuffer_direct {m : Memory} (B : Backed sp cfg m) {a h : Nat} {mem : GpuMemory}
    (hd : m.direct a = some (h, mem)) (mark : Bool) :
    m.core.queueBuffer a mark = .ok (true, m.core.markQueue h mem mark) := by
  have ho : m.core.object a = some (h, mem) := by
    rw [Memory.direct] at hd
    split at hd
    next => cases hd
    next => exact hd
  obtain ⟨e, he, rfl, hm⟩ := Core.object_eq_some.mp ho
  have hpos := (B.settled.bounds ho).1
  simp only [Core.queueBuffer, if_neg (Nat.ne_of_gt hpos), he, hm]

/-- `queueBuffer` fails at the null pointer and nowhere else. -/
theorem queueBuffer_result {c : Core} (C : c.Settled sp) (a : Nat) (mark : Bool) :
    ∃ c', c.queueBuffer a mark = .ok (decide (a ≠ 0), c') ∧ (a = 0 → c' = c) := by
  rw [Core.queueBuffer]
  by_cases hzero : a = 0
  · exact ⟨c, by simp [hzero], fun _ => rfl⟩
  · rw [if_neg hzero]
    cases he : c.allocationMap.find? a with
    | none => exact ⟨c, by simp [hzero, Status.toBool], fun _ => rfl⟩
    | some e =>
        obtain ⟨mem, hm⟩ := C.consistent.live he
        exact ⟨c.markQueue e.handle mem mark, by simp [hm, hzero], fun heq => absurd heq hzero⟩

/-! ## Runs -/

/-- The object at the ring of every queue is marked. -/
structure Inv (sp : AddressSpace) (cfg : Config) (s : Rings) : Prop where
  backed : Backed sp cfg s.memory
  isOpen : s.memory.core.isOpen = true
  referenced : ∀ id ring, s.queues.find? id = some ring →
    ∃ h mem, s.memory.direct ring = some (h, mem) ∧ mem.flags.isQueueReferenced = true

theorem inv_new (sp : AddressSpace) (cfg : Config) (pid : Nat) : Inv sp cfg (new sp pid) := by
  have I := Client.inv_new sp cfg pid
  refine ⟨I.backed, I.isOpen, ?_⟩
  intro id ring hq
  cases hq

theorem Inv.allocMemory (I : Inv sp cfg s) {node size addr : Nat} {flags : HsaMemFlags}
    {ans : AllocAnswers} (hreg : Regular cfg s (.allocMemory node size flags addr ans))
    {r : Status × Nat × Memory}
    (hrun : s.memory.allocMemory cfg node size flags addr ans = .ok r) :
    Inv sp cfg { s with memory := r.2.2 } := by
  have A := I.backed.allocMemoryAlign_allocates I.isOpen
    (Memory.allocAdds_of_le (Nat.zero_le _) _) hreg hrun
  rw [Allocates] at A
  split at A
  next =>
    refine ⟨A.backed, A.isOpen.trans I.isOpen, ?_⟩
    intro id ring hq
    obtain ⟨h, mem, hd, hmark⟩ := I.referenced id ring hq
    have hne : ring ≠ r.2.1 := by
      rintro rfl
      rw [A.fresh] at hd
      cases hd
    exact ⟨h, mem, (A.direct ring hne).trans hd, hmark⟩
  next =>
    refine ⟨A.backed, A.isOpen.trans I.isOpen, ?_⟩
    intro id ring hq
    rw [A.direct]
    exact I.referenced id ring hq

theorem Inv.freeMemory (I : Inv sp cfg s) {p : Nat} (hreg : Client.FreeRegular s.memory p)
    {r : Status × Memory} (hrun : s.memory.freeMemory cfg p = .ok r) :
    Inv sp cfg { s with memory := r.2 } := by
  rcases Client.freeMemory_cases I.backed I.isOpen hreg with
    ⟨m', hfree, _, T, hmark⟩ | ⟨status, _, hfree, _⟩
  · rw [hfree] at hrun
    cases hrun
    refine ⟨T.backed, T.isOpen.trans I.isOpen, ?_⟩
    intro id ring hq
    obtain ⟨h, mem, hd, href⟩ := I.referenced id ring hq
    have hne : ring ≠ p := by
      rintro rfl
      rw [hmark h mem hd] at href
      cases href
    exact ⟨h, mem, (T.direct ring hne).trans hd, href⟩
  · rw [hfree] at hrun
    cases hrun
    exact I

/-- A queue is created on an object, or not created. -/
theorem Inv.createQueue (I : Inv sp cfg s) {args : QueueArgs} {driver : Bool}
    (hreg : Regular cfg s (.createQueue args driver)) {r : Status × Rings}
    (hrun : s.createQueue cfg args driver = .ok r) : Inv sp cfg r.2 := by
  rw [Rings.createQueue] at hrun
  split at hrun
  next =>
    cases hrun
    exact I
  next =>
    rw [createQueueV2] at hrun
    split at hrun
    next =>
      cases hrun
      exact I
    next =>
      split at hrun
      next =>
        cases hrun
        exact I
      next =>
        simp only [ne_eq, not_true_eq_false, if_false] at hrun
        split at hrun
        next => cases hrun
        next =>
          obtain ⟨⟨acquired, core⟩, hacquire, hrun⟩ := ok_of_bind hrun
          rcases hreg with hzero | hsome
          · have hfail : s.memory.core.queueAcquireBuffer 0 = .ok (false, s.memory.core) := rfl
            simp only [hzero, hfail] at hacquire
            cases hacquire
            simp only [if_true] at hrun
            cases hrun
            exact I
          · obtain ⟨⟨h, mem⟩, hd⟩ := Option.isSome_iff_exists.mp hsome
            have hbuffer := queueBuffer_direct I.backed hd true
            rw [Core.queueAcquireBuffer, hbuffer] at hacquire
            cases hacquire
            obtain ⟨B, hdirect⟩ := markQueue_backed I.backed hd true
            simp only [Bool.true_eq_false, if_false] at hrun
            split at hrun
            next =>
              cases hrun
              refine ⟨B, I.isOpen, ?_⟩
              intro id ring hq
              show ∃ h' mem', ({ s.memory with core := s.memory.core.markQueue h mem true } :
                Memory).direct ring = some (h', mem') ∧ _
              rw [hdirect, Function.update_apply]
              split
              next => exact ⟨h, _, rfl, rfl⟩
              next hne =>
                change (s.queues.insert s.nextQueue args.queueAddress).find? id = some ring at hq
                rw [OrdMap.find?_insert] at hq
                split at hq
                next =>
                  cases hq
                  exact absurd rfl hne
                next => exact I.referenced id ring hq
            next => cases hrun

/-- A queue is destroyed that is alone on its ring. -/
theorem Inv.destroyQueue (I : Inv sp cfg s) {queueId : Nat} (hreg : s.Single queueId)
    {r : Status × Rings} (hrun : s.destroyQueue queueId = .ok r) : Inv sp cfg r.2 := by
  rw [Rings.destroyQueue] at hrun
  split at hrun
  next =>
    cases hrun
    exact I
  next =>
    cases hq : s.queues.find? queueId with
    | none =>
        rw [hq] at hrun
        cases hrun
    | some ring =>
        rw [hq] at hrun
        obtain ⟨⟨found, core⟩, hrelease, hrun⟩ := ok_of_bind hrun
        obtain ⟨h, mem, hd, _⟩ := I.referenced queueId ring hq
        have hbuffer := queueBuffer_direct I.backed hd false
        rw [Core.queueReleaseBuffer, hbuffer] at hrelease
        cases hrelease
        cases hrun
        obtain ⟨B, hdirect⟩ := markQueue_backed I.backed hd false
        refine ⟨B, I.isOpen, ?_⟩
        intro id ring' hq'
        change (s.queues.erase queueId).find? id = some ring' at hq'
        rw [OrdMap.find?_erase] at hq'
        split at hq'
        next => cases hq'
        next hne =>
          have hring : ring' ≠ ring := by
            rintro rfl
            exact hne (hreg ring' hq id hq')
          show ∃ h' mem', ({ s.memory with core := s.memory.core.markQueue h mem false } :
            Memory).direct ring' = some (h', mem') ∧ _
          rw [hdirect, Function.update_of_ne hring]
          exact I.referenced id ring' hq'

theorem step_inv (I : Inv sp cfg s) {e : Call} (hreg : Regular cfg s e)
    (h : step cfg s e = some s') : Inv sp cfg s' := by
  cases e with
  | allocMemory node size flags addr ans =>
      obtain ⟨r, hr, rfl⟩ := Option.map_eq_some_iff.mp h
      exact I.allocMemory hreg (eq_ok_of_toOption hr)
  | createQueue args driver =>
      obtain ⟨r, hr, rfl⟩ := Option.map_eq_some_iff.mp h
      exact I.createQueue hreg (eq_ok_of_toOption hr)
  | destroyQueue id =>
      obtain ⟨r, hr, rfl⟩ := Option.map_eq_some_iff.mp h
      exact I.destroyQueue hreg (eq_ok_of_toOption hr)
  | freeMemory p =>
      obtain ⟨r, hr, rfl⟩ := Option.map_eq_some_iff.mp h
      exact I.freeMemory hreg (eq_ok_of_toOption hr)

/-- The release of the ring of a queue fails and changes nothing. -/
theorem Inv.free_ring (I : Inv sp cfg s) {id ring : Nat} (hq : s.queues.find? id = some ring) :
    ∃ status, status ≠ .success ∧ s.memory.freeMemory cfg ring = .ok (status, s.memory) ∧
      s.memory.Given ring := by
  obtain ⟨h, mem, hd, hmark⟩ := I.referenced id ring hq
  have hgiven : s.memory.Given ring := Or.inr (by rw [hd]; exact nofun)
  have hreg : Client.FreeRegular s.memory ring := by
    intro hbase
    rw [Memory.direct, if_pos hbase] at hd
    cases hd
  rcases Client.freeMemory_cases I.backed I.isOpen hreg with
    ⟨_, _, _, _, hclear⟩ | ⟨status, hs, hfree, _⟩
  · rw [hclear h mem hd] at hmark
    cases hmark
  · exact ⟨status, hs, hfree, hgiven⟩

/-- A queue is refused if and only if the address of its ring is null. -/
theorem Inv.createQueue_refused (I : Inv sp cfg s) {args : QueueArgs} (hchecked : args.Checked cfg)
    (driver : Bool) :
    s.createQueue cfg args driver = .ok (.invalidParameter, s) ↔ args.queueAddress = 0 := by
  obtain ⟨htype, hlo, hhi, hdev⟩ := hchecked
  obtain ⟨dev, hdev⟩ := Option.isSome_iff_exists.mp hdev
  have hopen : ¬ s.memory.core.isOpen = false := by
    rw [I.isOpen]
    exact Bool.noConfusion
  have hpriority : ¬ (args.priority < -3 ∨ args.priority > 3) := by omega
  obtain ⟨c', hbuffer, hkeep⟩ := queueBuffer_result I.backed.settled args.queueAddress true
  simp only [Rings.createQueue, if_neg htype, createQueueV2, if_neg hopen, if_neg hpriority, hdev,
    Core.queueAcquireBuffer, hbuffer, ne_eq, not_true_eq_false, if_false, bind, Except.bind]
  by_cases hzero : args.queueAddress = 0
  · simp only [hzero, not_true_eq_false, decide_false, if_true, iff_true, hkeep hzero]
    rfl
  · simp only [hzero, not_false_eq_true, decide_true, Bool.true_eq_false, if_false, iff_false]
    split
    next => simp
    next => exact nofun

/-- In every run of regular calls: the release of a ring with a queue fails and changes
nothing, and a queue on an address that was not handed out is refused if and only if the
address is null. -/
theorem ring_protected {pid : Nat} (h : Reach (step cfg) (Regular cfg) (new sp pid) s) :
    (∀ id ring, s.queues.find? id = some ring → ∃ status, status ≠ .success ∧
        s.memory.freeMemory cfg ring = .ok (status, s.memory) ∧ s.memory.Given ring) ∧
      ∀ (args : QueueArgs) (driver : Bool), args.Checked cfg →
        ¬ s.memory.Given args.queueAddress →
        (s.createQueue cfg args driver = .ok (.invalidParameter, s) ↔ args.queueAddress = 0) := by
  have I : Inv sp cfg s := by
    refine h.invariant (inv_new sp cfg pid) ?_
    intro s e s' hs hok hstep
    exact step_inv hs hok hstep
  exact ⟨fun id ring hq => I.free_ring hq,
    fun args driver hchecked _ => I.createQueue_refused hchecked driver⟩

/-- A queue of the first node. -/
def oneQueue (ring : Nat) : QueueArgs := { nodeId := 1, type := .computeAql, queueAddress := ring }

/-- A ring is allocated and a queue created on it: the ring cannot be freed. -/
theorem ring_protected_run :
    ∃ s, Reach (step smallConfig) (Regular smallConfig) (new smallSpace 1) s ∧
      s.queues.find? 0 = some (2 ^ 28) ∧ ∃ status, status ≠ .success ∧
        s.memory.freeMemory smallConfig (2 ^ 28) = .ok (status, s.memory) := by
  have hrun : (runAll (step smallConfig) (Regular smallConfig) (new smallSpace 1)
      [.allocMemory 1 4096 {} 0 {}, .createQueue (oneQueue (2 ^ 28)) true]).map
        (fun s => s.queues.find? 0) = some (some (2 ^ 28)) := by
    decide
  obtain ⟨s, hs, hq⟩ := Option.map_eq_some_iff.mp hrun
  have hreach := reach_of_runAll hs
  obtain ⟨status, hne, hfree, _⟩ := (ring_protected hreach).1 0 (2 ^ 28) hq
  exact ⟨s, hreach, hq, status, hne, hfree⟩

/-- Of two queues on a ring one is destroyed: the ring is freed under the other. -/
theorem ring_freed :
    ¬ ∀ s, Reach (step smallConfig) (fun _ _ => True) (new smallSpace 1) s →
      ∀ id ring, s.queues.find? id = some ring → ∃ status, status ≠ .success ∧
        s.memory.freeMemory smallConfig ring = .ok (status, s.memory) := by
  intro hall
  have hrun : (runAll (step smallConfig) (fun _ _ => True) (new smallSpace 1)
      [.allocMemory 1 4096 {} 0 {}, .createQueue (oneQueue (2 ^ 28)) true,
        .createQueue (oneQueue (2 ^ 28)) true, .destroyQueue 0]).map
        (fun s => (s.queues.find? 1,
          (s.memory.freeMemory smallConfig (2 ^ 28)).toOption.map Prod.fst)) =
      some (some (2 ^ 28), some .success) := by
    decide
  obtain ⟨s, hs, heq⟩ := Option.map_eq_some_iff.mp hrun
  simp only [Prod.mk.injEq] at heq
  obtain ⟨status, hne, hfree⟩ := hall s (reach_of_runAll hs) 1 (2 ^ 28) heq.1
  have hsame := heq.2
  rw [hfree] at hsame
  exact hne (Option.some.inj hsame)

end Rings

end RocDxg
