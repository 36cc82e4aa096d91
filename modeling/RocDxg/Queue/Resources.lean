import RocDxg.Lib.Handles
import RocDxg.Memory.Rings

/-!
# What queues hold of the driver

The constructors and the destructors of the queues in `wddm/queue.cpp`, with `CreateQueue` and
`DestroyQueue` of `wddm/device.cpp`, and what the threads of the queues ask of the driver in
between: submissions, and scratch memory that grows.  A `GpuMemory` counts as one object.

The destructor of a queue waits for its thread before it gives anything back, so that
`hsaKmtDestroyQueue` is one step behind the last one of the thread.  Nothing looks at the status of
a call that destroys an object, and the object is taken to be gone after it.

A driver gives no handle of an object that is open.  With such a driver the queues name objects
that are open, destroy no context before its hardware queue, and hold what is open between them,
each object by one queue (`driver_respected`).
-/

namespace RocDxg

open Lib (OrdMap Reach HandleCall OpenObjects runAll reach_of_runAll)
open Lib.OpenObjects (Sound Allowed Along Honest Orderly Leads afterAll)

/-! ## The objects of a queue -/

/-- What the driver makes for a queue, and a `GpuMemory`, under their handles. -/
inductive DriverObject where
  | context (handle : Nat)
  | hwQueue (handle : Nat)
  | syncobj (handle : Nat)
  | gpuMemory (handle : Nat)
deriving DecidableEq, Repr

/-- Calls of the driver that were successful, and uses. -/
abbrev DriverCalls := List (HandleCall DriverObject)

/-- `delete` of a `GpuMemory`, which may be a null pointer. -/
def deleteGpuMemory : Option Nat → DriverCalls
  | none => []
  | some mem => [.destroy (.gpuMemory mem)]

/-- The open object of a `GpuMemory`, if there is one. -/
def openGpuMemory : Option Nat → OpenObjects DriverObject
  | none => []
  | some mem => [(.gpuMemory mem, [])]

/-- The members of `WDDMQueue` that name objects, and those that decide about them. -/
structure WddmQueue where
  useHws : Bool
  cmdbufAddr : Nat
  context : Nat := 0
  queue : Nat := 0
  syncobj : Nat := 0
  cmdbuf : Option Nat := none
deriving DecidableEq, Repr

/-- What the driver answers while a queue is made, and the `GpuMemory` objects that are made:
the command buffer with its GPU address, a hardware queue with its progress fence. -/
structure QueueAnswers where
  createContext : Option Nat := none
  createCmdbuf : Option (Nat × Nat) := none
  createHwQueue : Option (Nat × Nat) := none
  createSyncobj : Option Nat := none
  createAmdQueue : Option Nat := none
deriving DecidableEq, Repr

/-- What decides about a submission: whether the paging fence is behind, and whether `GpuWait` and
the submission succeed. -/
structure SubmitAnswers where
  pagingBehind : Bool := false
  gpuWait : Bool := true
  submitCommand : Bool := true
deriving DecidableEq, Repr

namespace WddmQueue

/-- `SwsInit`; `AllocUserQueueMemFromUMD` is `false`. -/
def swsInit (q : WddmQueue) (a : QueueAnswers) : Bool × WddmQueue × DriverCalls :=
  match a.createSyncobj with
  | none => (false, q, [])
  | some syncobj => (true, { q with syncobj := syncobj }, [.create (.syncobj syncobj) []])

/-- `HwsInit`, with `CreateHwQueue` -/
def hwsInit (q : WddmQueue) (a : QueueAnswers) : Bool × WddmQueue × DriverCalls :=
  match a.createHwQueue with
  | none => (false, q, [])
  | some (queue, fence) =>
      (true, { q with queue := queue, syncobj := fence },
        [.create (.hwQueue queue) [.context q.context]])

/-- `Init` of both kinds of queues -/
def init (q : WddmQueue) (a : QueueAnswers) : Bool × WddmQueue × DriverCalls :=
  if q.useHws then q.hwsInit a else q.swsInit a

/-- `Fini` of both kinds of queues: `HwsFini` or `SwsFini` -/
def fini (q : WddmQueue) : DriverCalls :=
  if q.useHws then [.destroy (.hwQueue q.queue)] else [.destroy (.syncobj q.syncobj)]

/-- The part of `CreateQueue` that makes a command buffer for a queue that has none.  The object is
the variable `gpu_mem`. -/
def createCmdbuf (q : WddmQueue) (a : QueueAnswers) :
    Option (WddmQueue × Option Nat × DriverCalls) :=
  if q.cmdbufAddr = 0 then
    a.createCmdbuf.map fun made =>
      ({ q with cmdbuf := some made.1, cmdbufAddr := made.2 }, some made.1,
        [.create (.gpuMemory made.1) []])
  else some (q, none, [])

/-- `CreateQueue` -/
def createQueue (q : WddmQueue) (a : QueueAnswers) : Bool × WddmQueue × DriverCalls :=
  match a.createContext with
  | none => (false, q, [])
  | some context =>
      match { q with context := context }.createCmdbuf a with
      | none =>
          (false, { q with context := context },
            [.create (.context context) []] ++ [.destroy (.context context)])
      | some (q, gpuMem, calls) =>
          let made := q.init a
          if made.1 then (true, made.2.1, [.create (.context context) []] ++ calls ++ made.2.2)
          else
            (false, made.2.1, [.create (.context context) []] ++ calls ++ made.2.2 ++
              deleteGpuMemory gpuMem ++ [.destroy (.context context)])

/-- `DestroyQueue` -/
def destroyQueue (q : WddmQueue) : DriverCalls :=
  q.fini ++ deleteGpuMemory q.cmdbuf ++ [.destroy (.context q.context)]

/-- What a submission names: the context of the queue for the wait for the paging fence, and then
the hardware queue, or the context and the sync object that is signalled. -/
def submit (q : WddmQueue) (a : SubmitAnswers) : DriverCalls :=
  (if a.pagingBehind then [.use [.context q.context]] else []) ++
    if a.pagingBehind ∧ ¬ a.gpuWait then []
    else if q.useHws then [.use [.hwQueue q.queue]]
    else .use [.context q.context] ::
      if a.submitCommand then [.use [.context q.context, .syncobj q.syncobj]] else []

/-- The hardware queue, which was made with the context, or the sync object. -/
def progress (q : WddmQueue) : DriverObject × List DriverObject :=
  if q.useHws then (.hwQueue q.queue, [.context q.context]) else (.syncobj q.syncobj, [])

/-- The objects that a queue holds. -/
def holds (q : WddmQueue) : OpenObjects DriverObject :=
  q.progress :: (openGpuMemory q.cmdbuf ++ [(.context q.context, [])])

end WddmQueue

/-- `ComputeQueue`, with the memory for its `amd_queue_v2_t` and its scratch memory, or
`SDMAQueue`. -/
inductive QueueObject where
  | compute (base : WddmQueue) (amdQueueMem : Nat) (scratchMem : Option Nat) (scratchSize : Nat)
  | sdma (base : WddmQueue)
deriving DecidableEq, Repr

namespace QueueObject

/-- The part of both. -/
def base : QueueObject → WddmQueue
  | .compute base _ _ _ => base
  | .sdma base => base

/-- The constructor of `ComputeQueue`, which asserts that it succeeds. -/
def newCompute (useHws : Bool) (a : QueueAnswers) : Option (QueueObject × DriverCalls) :=
  let made := WddmQueue.createQueue { useHws := useHws, cmdbufAddr := 0 } a
  if made.1 then
    a.createAmdQueue.map fun mem =>
      (.compute made.2.1 mem none 0, made.2.2 ++ [.create (.gpuMemory mem) []])
  else none

/-- The constructor of `SDMAQueue`, which asserts that it succeeds. -/
def newSdma (ring : Nat) (useHws : Bool) (a : QueueAnswers) : Option (QueueObject × DriverCalls) :=
  let made := WddmQueue.createQueue { useHws := useHws, cmdbufAddr := ring } a
  if made.1 then some (.sdma made.2.1, made.2.2) else none

/-- The queue that `hsaKmtCreateQueueV2` makes; there is an assertion for the other types. -/
def new (args : QueueArgs) (useHws : Bool) (a : QueueAnswers) :
    Option (QueueObject × DriverCalls) :=
  match args.type with
  | .computeAql => newCompute useHws a
  | .sdma | .sdmaByEngId => newSdma args.queueAddress useHws a
  | _ => none

/-- The destructors, after the thread has ended. -/
def delete : QueueObject → DriverCalls
  | .compute base amdQueueMem scratchMem _ =>
      base.destroyQueue ++ deleteGpuMemory scratchMem ++ deleteGpuMemory (some amdQueueMem)
  | .sdma base => base.destroyQueue

/-- `UpdateScratch` for a buffer of `size` bytes, when a `GpuMemory` is made or not.
`scratch_base_` is null as long as there is no scratch memory. -/
def updateScratch (size : Nat) (gpuMem : Option Nat) : QueueObject → QueueObject × DriverCalls
  | .compute base amdQueueMem scratchMem scratchSize =>
      if scratchSize ≥ size then (.compute base amdQueueMem scratchMem scratchSize, [])
      else
        match gpuMem with
        | none => (.compute base amdQueueMem scratchMem scratchSize, [])
        | some mem =>
            (.compute base amdQueueMem (some mem) size,
              [.create (.gpuMemory mem) []] ++ deleteGpuMemory scratchMem)
  | .sdma base => (.sdma base, [])

/-- The objects that a queue holds. -/
def holds : QueueObject → OpenObjects DriverObject
  | .compute base amdQueueMem scratchMem _ =>
      openGpuMemory scratchMem ++ (.gpuMemory amdQueueMem, []) :: base.holds
  | .sdma base => base.holds

end QueueObject

/-! ## The system -/

/-- The queues with their rings, and the calls of the driver so far. -/
structure QueueSystem where
  rings : Rings
  queues : OrdMap QueueObject := .empty
  calls : DriverCalls := []

namespace QueueSystem

/-- A process that has opened the library and done nothing else. -/
def new (sp : AddressSpace) (pid : Nat) : QueueSystem := { rings := .new sp pid }

/-- A call of the client, or what the thread of a queue does. -/
inductive Call where
  | allocMemory (preferredNode sizeInBytes : Nat) (flags : HsaMemFlags) (memoryAddress : Nat)
      (ans : AllocAnswers)
  | freeMemory (addr : Nat)
  | createQueue (args : QueueArgs) (useHws : Bool) (ans : QueueAnswers)
  | destroyQueue (queueId : Nat)
  | updateScratch (queueId size : Nat) (gpuMem : Option Nat)
  | submit (queueId : Nat) (ans : SubmitAnswers)

/-- `hsaKmtCreateQueue` -/
def createQueue (cfg : Config) (s : QueueSystem) (args : QueueArgs) (useHws : Bool)
    (ans : QueueAnswers) : Option QueueSystem :=
  let made := QueueObject.new args useHws ans
  (s.rings.createQueue cfg args made.isSome).toOption.map fun r =>
    match r.1, made with
    | .success, some (q, calls) =>
        { rings := r.2
          queues := s.queues.insert s.rings.nextQueue q
          calls := s.calls ++ calls }
    | _, _ => { s with rings := r.2 }

/-- `hsaKmtDestroyQueue` -/
def destroyQueue (s : QueueSystem) (queueId : Nat) : Option QueueSystem :=
  (s.rings.destroyQueue queueId).toOption.bind fun r =>
    if r.1 = .success then
      (s.queues.find? queueId).map fun q =>
        { rings := r.2, queues := s.queues.erase queueId, calls := s.calls ++ q.delete }
    else some { s with rings := r.2 }

/-- The state after a call that returns. -/
def step (cfg : Config) (s : QueueSystem) : Call → Option QueueSystem
  | .allocMemory node size flags addr ans =>
      (s.rings.step cfg (.allocMemory node size flags addr ans)).map fun rings =>
        { s with rings := rings }
  | .freeMemory addr =>
      (s.rings.step cfg (.freeMemory addr)).map fun rings => { s with rings := rings }
  | .createQueue args useHws ans => s.createQueue cfg args useHws ans
  | .destroyQueue id => s.destroyQueue id
  | .updateScratch id size gpuMem =>
      (s.queues.find? id).map fun q =>
        let updated := q.updateScratch size gpuMem
        { s with queues := s.queues.insert id updated.1, calls := s.calls ++ updated.2 }
  | .submit id ans =>
      (s.queues.find? id).map fun q => { s with calls := s.calls ++ q.base.submit ans }

/-- What the queues hold. -/
def held (s : QueueSystem) : OpenObjects DriverObject := s.queues.entries.flatMap fun e => e.2.holds

end QueueSystem

/-! ## Making a queue and destroying it -/

theorem uses_openGpuMemory {mem : Option Nat} {e : DriverObject × List DriverObject}
    (h : e ∈ openGpuMemory mem) : e.2 = [] := by
  cases mem with
  | none => cases h
  | some mem =>
      cases List.mem_singleton.mp h
      rfl

namespace WddmQueue

@[simp] theorem handles_holds (q : WddmQueue) :
    OpenObjects.handles q.holds =
      q.progress.1 :: (OpenObjects.handles (openGpuMemory q.cmdbuf) ++ [.context q.context]) := by
  rw [holds, OpenObjects.handles_cons, OpenObjects.handles_append]
  rfl

theorem progress_ne (q : WddmQueue) (context : Nat) : q.progress.1 ≠ .context context := by
  rw [progress]
  split
  next => exact fun h => by cases h
  next => exact fun h => by cases h

theorem uses_progress {q : WddmQueue} {u : DriverObject} (h : u ∈ q.progress.2) :
    u = .context q.context := by
  rw [progress] at h
  split at h
  next => exact List.mem_singleton.mp h
  next => cases h

/-- The one object that was made with another one is a hardware queue, with the context. -/
theorem uses_holds {q : WddmQueue} {e : DriverObject × List DriverObject} (he : e ∈ q.holds)
    {u : DriverObject} (hu : u ∈ e.2) : e.1 = q.progress.1 ∧ u = .context q.context := by
  rcases List.mem_cons.mp he with rfl | he
  · exact ⟨rfl, uses_progress hu⟩
  · have hnone : e.2 = [] := by
      rcases List.mem_append.mp he with he | he
      · exact uses_openGpuMemory he
      · cases List.mem_singleton.mp he
        rfl
    rw [hnone] at hu
    cases hu

/-- `DestroyQueue` gives back the objects in the order in which `holds` lists them. -/
theorem destroyQueue_eq (q : WddmQueue) :
    q.destroyQueue = (OpenObjects.handles q.holds).map .destroy := by
  rw [destroyQueue, fini, holds, progress]
  cases q.useHws <;> cases q.cmdbuf <;> rfl

/-- `Init` leaves the object behind the progress of the queue open, or nothing. -/
theorem init_calls (q : WddmQueue) (a : QueueAnswers) {L : OpenObjects DriverObject}
    (hcontext : .context q.context ∈ OpenObjects.handles L) :
    Leads L (q.init a).2.2 ((if (q.init a).1 then [(q.init a).2.1.progress] else []) ++ L) ∧
      (q.init a).2.1.context = q.context ∧ (q.init a).2.1.cmdbuf = q.cmdbuf := by
  obtain ⟨useHws, cmdbufAddr, context, queue, syncobj, cmdbuf⟩ := q
  cases useHws with
  | true =>
      cases hqueue : a.createHwQueue with
      | none =>
          simp only [init, hwsInit, hqueue]
          exact ⟨.nil L, rfl, rfl⟩
      | some made =>
          simp only [init, hwsInit, hqueue]
          refine ⟨OpenObjects.leads_create _ fun u hu => ?_, rfl, rfl⟩
          exact List.mem_singleton.mp hu ▸ hcontext
  | false =>
      cases hsyncobj : a.createSyncobj with
      | none =>
          simp only [init, swsInit, hsyncobj]
          exact ⟨.nil L, rfl, rfl⟩
      | some made =>
          simp only [init, swsInit, hsyncobj]
          exact ⟨OpenObjects.leads_create_alone _ _, rfl, rfl⟩

/-- The command buffer is the one object that is made for it, if one is. -/
theorem createCmdbuf_calls {q q' : WddmQueue} {a : QueueAnswers} {gpuMem : Option Nat}
    {calls : DriverCalls} (hq : q.cmdbuf = none)
    (h : q.createCmdbuf a = some (q', gpuMem, calls)) :
    q'.context = q.context ∧ q'.cmdbuf = gpuMem ∧
      ∀ L, Leads L calls (openGpuMemory gpuMem ++ L) := by
  rw [createCmdbuf] at h
  split at h
  next =>
    cases hmade : a.createCmdbuf with
    | none =>
        rw [hmade] at h
        cases h
    | some made =>
        rw [hmade] at h
        cases h
        exact ⟨rfl, rfl, fun L => OpenObjects.leads_create_alone L _⟩
  next =>
    cases h
    exact ⟨rfl, hq, fun L => .nil L⟩

/-- The command buffer and the context are given back at `err_out1`. -/
theorem undo_calls (context : Nat) (gpuMem : Option Nat) :
    Leads (openGpuMemory gpuMem ++ [(.context context, [])])
      (deleteGpuMemory gpuMem ++ [.destroy (.context context)]) [] := by
  cases gpuMem with
  | none => exact ⟨by simp [openGpuMemory, deleteGpuMemory, Along, Allowed], by
      simp [openGpuMemory, deleteGpuMemory, afterAll, OpenObjects.after]⟩
  | some mem => exact ⟨by simp [openGpuMemory, deleteGpuMemory, Along, Allowed, OpenObjects.after],
      by simp [openGpuMemory, deleteGpuMemory, afterAll, OpenObjects.after]⟩

/-- `CreateQueue` leaves the objects of the queue open, or nothing. -/
theorem createQueue_calls {q : WddmQueue} (hq : q.cmdbuf = none) (a : QueueAnswers) :
    Leads [] (q.createQueue a).2.2
      (if (q.createQueue a).1 then (q.createQueue a).2.1.holds else []) := by
  cases hcontext : a.createContext with
  | none =>
      simp only [createQueue, hcontext]
      exact .nil []
  | some context =>
      have hfirst := OpenObjects.leads_create_alone [] (DriverObject.context context)
      cases hcmdbuf : { q with context := context }.createCmdbuf a with
      | none =>
          simp only [createQueue, hcontext, hcmdbuf]
          exact hfirst.append (undo_calls context none)
      | some made =>
          obtain ⟨q', gpuMem, calls⟩ := made
          obtain ⟨hown, hmem, hcalls⟩ :=
            createCmdbuf_calls (q := { q with context := context }) hq hcmdbuf
          obtain ⟨hinit, hsame, hbuffer⟩ := q'.init_calls a
            (L := openGpuMemory gpuMem ++ [(.context context, [])]) (by simp [hown])
          have hmade := (hfirst.append (hcalls _)).append hinit
          simp only [createQueue, hcontext, hcmdbuf]
          cases hok : (q'.init a).1 with
          | true =>
              simp only [hok, if_true] at hmade ⊢
              rw [holds, hsame, hbuffer, hown, hmem]
              exact hmade
          | false =>
              simp only [hok, Bool.false_eq_true, if_false] at hmade ⊢
              rw [List.append_assoc _ (deleteGpuMemory gpuMem)]
              exact hmade.append (undo_calls context gpuMem)

end WddmQueue

namespace QueueObject

theorem uses_holds {q : QueueObject} {e : DriverObject × List DriverObject} (he : e ∈ q.holds)
    {u : DriverObject} (hu : u ∈ e.2) : e.1 = q.base.progress.1 ∧ u = .context q.base.context := by
  cases q with
  | compute base amdQueueMem scratchMem scratchSize =>
      rcases List.mem_append.mp he with he | he
      · rw [uses_openGpuMemory he] at hu
        cases hu
      · rcases List.mem_cons.mp he with rfl | he
        · cases hu
        · exact base.uses_holds he hu
  | sdma base => exact base.uses_holds he hu

theorem mem_handles_base {q : QueueObject} {x : DriverObject}
    (hx : x ∈ OpenObjects.handles q.base.holds) : x ∈ OpenObjects.handles q.holds := by
  cases q with
  | compute base amdQueueMem scratchMem scratchSize =>
      rw [holds, OpenObjects.handles_append]
      exact List.mem_append_right _ (List.mem_cons_of_mem _ hx)
  | sdma base => exact hx

theorem context_mem (q : QueueObject) : .context q.base.context ∈ OpenObjects.handles q.holds :=
  mem_handles_base (by simp)

theorem progress_mem (q : QueueObject) : q.base.progress.1 ∈ OpenObjects.handles q.holds :=
  mem_handles_base (by simp)

theorem closed_holds (q : QueueObject) :
    ∀ e ∈ q.holds, ∀ u ∈ e.2, u ∈ OpenObjects.handles q.holds := by
  intro e he u hu
  rw [(uses_holds he hu).2]
  exact q.context_mem

/-- A constructor that succeeds leaves the objects of the queue open. -/
theorem new_calls {args : QueueArgs} {useHws : Bool} {a : QueueAnswers} {q : QueueObject}
    {calls : DriverCalls} (h : new args useHws a = some (q, calls)) : Leads [] calls q.holds := by
  have hsdma : newSdma args.queueAddress useHws a = some (q, calls) → Leads [] calls q.holds := by
    intro h
    have hmade := WddmQueue.createQueue_calls
      (q := { useHws := useHws, cmdbufAddr := args.queueAddress }) rfl a
    simp only [newSdma] at h
    split at h
    next hok =>
      cases h
      rw [if_pos hok] at hmade
      exact hmade
    next => cases h
  rw [new] at h
  split at h
  next =>
    have hmade := WddmQueue.createQueue_calls (q := { useHws := useHws, cmdbufAddr := 0 }) rfl a
    simp only [newCompute] at h
    split at h
    next hok =>
      obtain ⟨mem, -, hmem⟩ := Option.map_eq_some_iff.mp h
      cases hmem
      rw [if_pos hok] at hmade
      exact hmade.append (OpenObjects.leads_create_alone _ _)
    next => cases h
  next => exact hsdma h
  next => exact hsdma h
  next => cases h

/-- The destructor gives everything back, and the hardware queue before its context. -/
theorem delete_calls {q : QueueObject} (S : Sound q.holds) : Leads q.holds q.delete [] := by
  obtain ⟨rest, hdelete, hperm⟩ : ∃ rest,
      q.delete = ((q.base.progress.1 :: rest).map .destroy : DriverCalls) ∧
        (q.base.progress.1 :: rest).Perm (OpenObjects.handles q.holds) := by
    cases q with
    | compute base amdQueueMem scratchMem scratchSize =>
        refine ⟨OpenObjects.handles (openGpuMemory base.cmdbuf) ++ [.context base.context] ++
          (OpenObjects.handles (openGpuMemory scratchMem) ++ [.gpuMemory amdQueueMem]), ?_, ?_⟩
        · rw [delete, WddmQueue.destroyQueue_eq, WddmQueue.handles_holds]
          cases scratchMem <;> simp [openGpuMemory, deleteGpuMemory, QueueObject.base]
        · rw [holds, OpenObjects.handles_append, OpenObjects.handles_cons, WddmQueue.handles_holds]
          have hswap : ∀ first extra : List DriverObject,
              (first ++ (extra ++ [DriverObject.gpuMemory amdQueueMem])).Perm
                (extra ++ .gpuMemory amdQueueMem :: first) := by
            intro first extra
            refine List.perm_append_comm.trans ?_
            rw [List.append_assoc]
            exact List.Perm.refl _
          exact hswap (base.progress.1 :: _) _
    | sdma base =>
        refine ⟨OpenObjects.handles (openGpuMemory base.cmdbuf) ++ [.context base.context], ?_, ?_⟩
        · rw [delete, WddmQueue.destroyQueue_eq, WddmQueue.handles_holds]
          rfl
        · rw [holds, WddmQueue.handles_holds]
          exact List.Perm.refl _
  rw [hdelete]
  refine OpenObjects.leads_destroy (hperm.nodup_iff.mpr S.nodup) (fun x => hperm.mem_iff) ?_
  rintro e he u hu pre post hsplit
  obtain ⟨hprogress, rfl⟩ := uses_holds he hu
  cases pre with
  | nil => exact absurd (List.cons.inj hsplit).1 (q.base.progress_ne _)
  | cons x pre =>
      rw [hprogress, (List.cons.inj hsplit).1]
      exact List.mem_cons_self

/-- A larger scratch buffer takes the place of the one before. -/
theorem updateScratch_calls {q : QueueObject} (S : Sound q.holds) {size : Nat} {gpuMem : Option Nat}
    (hfresh : ∀ c calls, (q.updateScratch size gpuMem).2 = c :: calls →
      OpenObjects.Fresh q.holds c) :
    Leads q.holds (q.updateScratch size gpuMem).2 (q.updateScratch size gpuMem).1.holds := by
  cases q with
  | sdma base => exact .nil _
  | compute base amdQueueMem scratchMem scratchSize =>
      by_cases hlarge : scratchSize ≥ size
      · simp only [updateScratch, if_pos hlarge]
        exact .nil _
      · simp only [updateScratch, if_neg hlarge] at hfresh ⊢
        cases gpuMem with
        | none => exact .nil _
        | some mem =>
            have hnew := hfresh _ _ rfl
            show Leads _ ([.create (.gpuMemory mem) []] ++ deleteGpuMemory scratchMem)
              (holds (.compute base amdQueueMem (some mem) size))
            cases scratchMem with
            | none => exact OpenObjects.leads_create_alone _ _
            | some old =>
                have hne : DriverObject.gpuMemory mem ≠ .gpuMemory old := by
                  intro heq
                  exact hnew (heq ▸ List.mem_cons_self)
                have hrest : .gpuMemory old ∉ OpenObjects.handles
                    ((.gpuMemory amdQueueMem, []) :: base.holds) := (List.nodup_cons.mp S.nodup).1
                refine ⟨⟨fun u hu => absurd hu List.not_mem_nil,
                  ⟨List.mem_cons_of_mem _ List.mem_cons_self, fun e he hu => ?_⟩, trivial⟩, ?_⟩
                · rcases List.mem_cons.mp he with rfl | he
                  · cases hu
                  · have huses := (uses_holds (q := .compute base amdQueueMem (some old)
                      scratchSize) he hu).2
                    cases huses
                · show OpenObjects.after ((.gpuMemory mem, []) :: (.gpuMemory old, []) ::
                    (.gpuMemory amdQueueMem, []) :: base.holds) (.destroy (.gpuMemory old)) =
                      (.gpuMemory mem, []) :: (.gpuMemory amdQueueMem, []) :: base.holds
                  rw [OpenObjects.after]
                  rw [List.filter_cons_of_pos (by simpa using hne),
                    List.filter_cons_of_neg (by simp)]
                  refine congrArg _ (List.filter_eq_self.mpr fun e he => decide_eq_true ?_)
                  intro heq
                  exact hrest (heq ▸ List.mem_map_of_mem he)

/-- A submission names objects of the queue. -/
theorem submit_calls (q : QueueObject) (a : SubmitAnswers) :
    Leads q.holds (q.base.submit a) q.holds := by
  have huse : ∀ xs, (∀ x ∈ xs, x = .context q.base.context ∨ x = q.base.progress.1) →
      Leads q.holds [.use xs] q.holds := by
    intro xs hxs
    refine OpenObjects.leads_use fun x hx => ?_
    rcases hxs x hx with rfl | rfl
    · exact q.context_mem
    · exact q.progress_mem
  have hcontext : Leads q.holds [.use [.context q.base.context]] q.holds :=
    huse _ fun x hx => Or.inl (List.mem_singleton.mp hx)
  rw [WddmQueue.submit]
  refine Leads.append (t := q.holds) ?_ ?_
  · split
    next => exact hcontext
    next => exact .nil _
  · split
    next => exact .nil _
    next =>
      split
      next hhws =>
        refine huse _ fun x hx => Or.inr ?_
        rw [List.mem_singleton.mp hx, WddmQueue.progress, if_pos hhws]
      next hsws =>
        have hsignal : Leads q.holds (if a.submitCommand then
            [.use [.context q.base.context, .syncobj q.base.syncobj]] else []) q.holds := by
          split
          next =>
            refine huse _ fun x hx => ?_
            rcases List.mem_cons.mp hx with rfl | hx
            · exact Or.inl rfl
            · rw [List.mem_singleton.mp hx, WddmQueue.progress, if_neg hsws]
              exact Or.inr rfl
          next => exact .nil _
        exact hcontext.append hsignal

end QueueObject

namespace WddmQueue

/-- Among any open objects, `CreateQueue` leaves the objects of the queue open in addition if it
succeeds, which `DestroyQueue` takes away again, and nothing if it fails. -/
theorem created_or_nothing {q : WddmQueue} (hq : q.cmdbuf = none) (a : QueueAnswers)
    {s : OpenObjects DriverObject} (S : Sound s) (hhonest : Honest s (q.createQueue a).2.2) :
    Orderly s (q.createQueue a).2.2 ∧
      if (q.createQueue a).1 then
        (s.afterAll (q.createQueue a).2.2).Perm ((q.createQueue a).2.1.holds ++ s) ∧
          Orderly (s.afterAll (q.createQueue a).2.2) (q.createQueue a).2.1.destroyQueue ∧
          (s.afterAll ((q.createQueue a).2.2 ++ (q.createQueue a).2.1.destroyQueue)).Perm s
      else (s.afterAll (q.createQueue a).2.2).Perm s := by
  have hmade := createQueue_calls hq a
  obtain ⟨horderly, hafter⟩ := S.act (.refl ([] ++ s)) S.closed hhonest hmade
  refine ⟨horderly, ?_⟩
  split
  next hok =>
    rw [if_pos hok] at hafter
    have S' := S.afterAll hhonest horderly
    have hown : Sound (q.createQueue a).2.1.holds :=
      (S'.perm hafter).of_append_left (QueueObject.sdma _).closed_holds
    have hback : Leads _ (q.createQueue a).2.1.destroyQueue [] :=
      (QueueObject.sdma _).delete_calls hown
    have hdestroy : Honest (s.afterAll (q.createQueue a).2.2)
        (q.createQueue a).2.1.destroyQueue := by
      rw [destroyQueue_eq]
      exact OpenObjects.honest_destroy _ _
    obtain ⟨horderly', hafter'⟩ := S'.act hafter S.closed hdestroy hback
    rw [OpenObjects.afterAll_append]
    exact ⟨hafter, horderly', hafter'⟩
  next hfail =>
    rw [if_neg hfail] at hafter
    exact hafter

/-- Answers with two `GpuMemory` objects, from `handle` on. -/
def answers (handle : Nat) : QueueAnswers where
  createContext := some handle
  createCmdbuf := some (handle, 2 ^ 20)
  createHwQueue := some (handle, handle)
  createAmdQueue := some (handle + 1)

/-- A queue with a command buffer of its own, made beside another context and destroyed. -/
theorem created_or_nothing_run :
    (afterAll [(.context 7, [])] (
      (createQueue { useHws := true, cmdbufAddr := 0 } (answers 1)).2.2 ++
        (createQueue { useHws := true, cmdbufAddr := 0 } (answers 1)).2.1.destroyQueue)).Perm
      [(.context 7, [])] :=
  (created_or_nothing (q := { useHws := true, cmdbufAddr := 0 }) rfl (answers 1)
    (s := [(.context 7, [])]) ⟨by decide, by decide⟩ (by decide)).2.2.2

end WddmQueue

namespace Rings

variable {cfg : Config} {s : Rings}

/-- `hsaKmtCreateQueue` enters a queue that was made, or none. -/
theorem createQueue_cases {args : QueueArgs} {driver : Bool} {r : Status × Rings}
    (h : s.createQueue cfg args driver = .ok r) :
    (r.1 = .success ∧ driver = true ∧ r.2.queues = s.queues.insert s.nextQueue args.queueAddress ∧
        r.2.nextQueue = s.nextQueue + 1) ∨
      (r.1 ≠ .success ∧ r.2.queues = s.queues ∧ r.2.nextQueue = s.nextQueue) := by
  have hrefused : ∀ {status : Status} {t : Rings}, (.ok (status, t) : Except Fault _) = .ok r →
      status ≠ .success → t.queues = s.queues → t.nextQueue = s.nextQueue →
      r.1 ≠ .success ∧ r.2.queues = s.queues ∧ r.2.nextQueue = s.nextQueue := by
    intro status t heq hstatus hqueues hnext
    cases heq
    exact ⟨hstatus, hqueues, hnext⟩
  rw [createQueue] at h
  split at h
  next => exact Or.inr (hrefused h (by decide) rfl rfl)
  next =>
    rw [createQueueV2] at h
    split at h
    next => exact Or.inr (hrefused h (by decide) rfl rfl)
    next =>
      split at h
      next => exact Or.inr (hrefused h (by decide) rfl rfl)
      next =>
        split at h
        next => exact Or.inr (hrefused h (by decide) rfl rfl)
        next =>
          split at h
          next => cases h
          next =>
            obtain ⟨⟨acquired, core⟩, -, h⟩ := ok_of_bind h
            dsimp only at h
            split at h
            next => exact Or.inr (hrefused h (by decide) rfl rfl)
            next =>
              split at h
              next hmade =>
                cases h
                exact Or.inl ⟨rfl, hmade.2, rfl, rfl⟩
              next => cases h

/-- `hsaKmtDestroyQueue` takes a queue out, or nothing. -/
theorem destroyQueue_cases {id : Nat} {r : Status × Rings} (h : s.destroyQueue id = .ok r) :
    (r.1 = .success ∧ r.2.queues = s.queues.erase id ∧ r.2.nextQueue = s.nextQueue) ∨
      (r.1 ≠ .success ∧ r.2 = s) := by
  rw [destroyQueue] at h
  split at h
  next =>
    cases h
    refine Or.inr ⟨?_, rfl⟩
    intro hok
    cases hok
  next =>
    split at h
    next => cases h
    next =>
      obtain ⟨⟨_, core⟩, -, h⟩ := ok_of_bind h
      cases h
      exact Or.inl ⟨rfl, rfl, rfl⟩

end Rings

namespace QueueSystem

variable {cfg : Config} {s s' : QueueSystem}

/-! ## One step -/

/-- What a step does to the queues, under their numbers, and asks of the driver. -/
inductive Effect (s s' : QueueSystem) : Prop
  | none (hqueues : s'.queues = s.queues) (hcalls : s'.calls = s.calls)
      (hrings : s'.rings.queues = s.rings.queues) (hnext : s'.rings.nextQueue = s.rings.nextQueue)
  | created (q : QueueObject) (calls : DriverCalls) (ring : Nat) (hmade : Leads [] calls q.holds)
      (hqueues : s'.queues = s.queues.insert s.rings.nextQueue q)
      (hcalls : s'.calls = s.calls ++ calls)
      (hrings : s'.rings.queues = s.rings.queues.insert s.rings.nextQueue ring)
      (hnext : s'.rings.nextQueue = s.rings.nextQueue + 1)
  | destroyed (id : Nat) (q : QueueObject) (hq : s.queues.find? id = some q)
      (hqueues : s'.queues = s.queues.erase id) (hcalls : s'.calls = s.calls ++ q.delete)
      (hrings : s'.rings.queues = s.rings.queues.erase id)
      (hnext : s'.rings.nextQueue = s.rings.nextQueue)
  | updated (id : Nat) (q : QueueObject) (size : Nat) (gpuMem : Option Nat)
      (hq : s.queues.find? id = some q)
      (hqueues : s'.queues = s.queues.insert id (q.updateScratch size gpuMem).1)
      (hcalls : s'.calls = s.calls ++ (q.updateScratch size gpuMem).2) (hrings : s'.rings = s.rings)
  | submitted (id : Nat) (q : QueueObject) (ans : SubmitAnswers)
      (hq : s.queues.find? id = some q) (hqueues : s'.queues = s.queues)
      (hcalls : s'.calls = s.calls ++ q.base.submit ans) (hrings : s'.rings = s.rings)

theorem Effect.calls (E : Effect s s') : ∃ calls, s'.calls = s.calls ++ calls := by
  cases E with
  | none _ hcalls => exact ⟨[], hcalls.trans (List.append_nil _).symm⟩
  | created _ _ _ _ _ hcalls => exact ⟨_, hcalls⟩
  | destroyed _ _ _ _ hcalls => exact ⟨_, hcalls⟩
  | updated _ _ _ _ _ _ hcalls => exact ⟨_, hcalls⟩
  | submitted _ _ _ _ _ hcalls => exact ⟨_, hcalls⟩

theorem createQueue_effect {args : QueueArgs} {useHws : Bool} {ans : QueueAnswers}
    (h : s.createQueue cfg args useHws ans = some s') :
    Effect s s' ∧
      Rings.step cfg s.rings (.createQueue args (QueueObject.new args useHws ans).isSome) =
        some s'.rings := by
  obtain ⟨r, hr, hs⟩ := Option.map_eq_some_iff.mp h
  have hring : Rings.step cfg s.rings (.createQueue args (QueueObject.new args useHws ans).isSome) =
      some r.2 := Option.map_eq_some_iff.mpr ⟨r, hr, rfl⟩
  rcases Rings.createQueue_cases (eq_ok_of_toOption hr) with
    ⟨hok, hdriver, hrings, hnext⟩ | ⟨hfail, hrings, hnext⟩
  · obtain ⟨⟨q, calls⟩, hnew⟩ := Option.isSome_iff_exists.mp hdriver
    rw [hok, hnew] at hs
    cases hs
    exact ⟨.created q calls _ (QueueObject.new_calls hnew) rfl rfl hrings hnext, hring⟩
  · have hs' : s' = { s with rings := r.2 } := by
      split at hs
      next hok _ => exact absurd hok hfail
      next => exact hs.symm
    cases hs'
    exact ⟨.none rfl rfl hrings hnext, hring⟩

theorem destroyQueue_effect {id : Nat} (h : s.destroyQueue id = some s') :
    Effect s s' ∧ Rings.step cfg s.rings (.destroyQueue id) = some s'.rings := by
  obtain ⟨r, hr, hs⟩ := Option.bind_eq_some_iff.mp h
  have hring : Rings.step cfg s.rings (.destroyQueue id) = some r.2 :=
    Option.map_eq_some_iff.mpr ⟨r, hr, rfl⟩
  rcases Rings.destroyQueue_cases (eq_ok_of_toOption hr) with ⟨hok, hrings, hnext⟩ | ⟨hfail, hsame⟩
  · rw [if_pos hok] at hs
    obtain ⟨q, hq, rfl⟩ := Option.map_eq_some_iff.mp hs
    exact ⟨.destroyed id q hq rfl rfl hrings hnext, hring⟩
  · rw [if_neg hfail] at hs
    cases hs
    exact ⟨.none rfl rfl (congrArg Rings.queues hsame) (congrArg Rings.nextQueue hsame), hring⟩

/-- A step has its effect, and is one of the rings or nothing to them. -/
theorem step_effect {e : Call} (h : step cfg s e = some s') :
    Effect s s' ∧ (s'.rings = s.rings ∨ ∃ e', Rings.step cfg s.rings e' = some s'.rings) := by
  cases e with
  | allocMemory node size flags addr ans =>
      obtain ⟨rings, hr, rfl⟩ := Option.map_eq_some_iff.mp h
      obtain ⟨r, -, rfl⟩ := Option.map_eq_some_iff.mp hr
      exact ⟨.none rfl rfl rfl rfl, Or.inr ⟨_, hr⟩⟩
  | freeMemory addr =>
      obtain ⟨rings, hr, rfl⟩ := Option.map_eq_some_iff.mp h
      obtain ⟨r, -, rfl⟩ := Option.map_eq_some_iff.mp hr
      exact ⟨.none rfl rfl rfl rfl, Or.inr ⟨_, hr⟩⟩
  | createQueue args useHws ans =>
      obtain ⟨heffect, hring⟩ := createQueue_effect h
      exact ⟨heffect, Or.inr ⟨_, hring⟩⟩
  | destroyQueue id =>
      obtain ⟨heffect, hring⟩ := destroyQueue_effect h
      exact ⟨heffect, Or.inr ⟨_, hring⟩⟩
  | updateScratch id size gpuMem =>
      obtain ⟨q, hq, rfl⟩ := Option.map_eq_some_iff.mp h
      exact ⟨.updated id q size gpuMem hq rfl rfl rfl, Or.inl rfl⟩
  | submit id ans =>
      obtain ⟨q, hq, rfl⟩ := Option.map_eq_some_iff.mp h
      exact ⟨.submitted id q ans hq rfl rfl rfl, Or.inl rfl⟩

/-! ## Runs -/

/-- What the queues of some entries hold was made with nothing else. -/
theorem closed_entries (entries : List (Nat × QueueObject)) :
    ∀ e ∈ entries.flatMap (fun e => e.2.holds), ∀ u ∈ e.2,
      u ∈ OpenObjects.handles (entries.flatMap fun e => e.2.holds) := by
  intro e he u hu
  obtain ⟨entry, hentry, he⟩ := List.mem_flatMap.mp he
  obtain ⟨e', he', rfl⟩ := List.mem_map.mp (entry.2.closed_holds e he u hu)
  exact List.mem_map_of_mem (List.mem_flatMap.mpr ⟨entry, hentry, he'⟩)

/-- What the queues hold without one of them. -/
def others (s : QueueSystem) (id : Nat) : OpenObjects DriverObject :=
  (s.queues.erase id).entries.flatMap fun e => e.2.holds

theorem held_perm {id : Nat} {q : QueueObject} (hq : s.queues.find? id = some q) :
    s.held.Perm (q.holds ++ s.others id) :=
  (OrdMap.perm_erase hq).flatMap_right _

theorem held_insert {id : Nat} {q : QueueObject} (hq : s'.queues = s.queues.insert id q) :
    s'.held.Perm (q.holds ++ s.others id) := by
  rw [held, hq]
  exact (s.queues.insert_perm id q).flatMap_right _

/-- The calls were orderly, the queues hold what is open, and they are those of the rings. -/
structure Inv (s : QueueSystem) : Prop where
  orderly : Orderly [] s.calls
  sound : Sound (afterAll [] s.calls)
  held : (afterAll [] s.calls).Perm s.held
  numbered : ∀ id, (s.queues.find? id).isSome = (s.rings.queues.find? id).isSome
  fresh : ∀ id q, s.queues.find? id = some q → id < s.rings.nextQueue

theorem inv_new (sp : AddressSpace) (pid : Nat) : Inv (new sp pid) := by
  refine ⟨trivial, OpenObjects.sound_nil, .refl _, fun _ => rfl, ?_⟩
  intro id q hq
  cases hq

/-- The calls of one queue, which turn what it holds into `t`. -/
theorem Inv.act (I : Inv s) {own t : OpenObjects DriverObject} {id : Nat} {calls : DriverCalls}
    (hcalls : s'.calls = s.calls ++ calls) (hbefore : s.held.Perm (own ++ s.others id))
    (hown : Sound (own ++ s.others id) → OpenObjects.Honest (own ++ s.others id) calls →
      Leads own calls t)
    (hhonest : Honest [] s'.calls) :
    Orderly [] s'.calls ∧ Sound (afterAll [] s'.calls) ∧
      (afterAll [] s'.calls).Perm (t ++ s.others id) := by
  rw [hcalls, OpenObjects.honest_append] at hhonest
  have hsplit := I.held.trans hbefore
  have hleads := hown (I.sound.perm hsplit)
    (OpenObjects.along_perm OpenObjects.fresh_perm hsplit hhonest.2)
  obtain ⟨horderly, hafter⟩ := I.sound.act hsplit (closed_entries _) hhonest.2 hleads
  rw [hcalls, OpenObjects.afterAll_append]
  exact ⟨OpenObjects.along_append.mpr ⟨I.orderly, horderly⟩, I.sound.afterAll hhonest.2 horderly,
    hafter⟩

theorem Inv.effect (I : Inv s) (E : Effect s s') (hhonest : Honest [] s'.calls) : Inv s' := by
  cases E with
  | none hqueues hcalls hrings hnext =>
      refine ⟨hcalls ▸ I.orderly, hcalls ▸ I.sound, ?_, ?_, ?_⟩
      · rw [hcalls, QueueSystem.held, hqueues]
        exact I.held
      · rw [hqueues, hrings]
        exact I.numbered
      · rw [hqueues, hnext]
        exact I.fresh
  | created q calls ring hmade hqueues hcalls hrings hnext =>
      have hnone : s.queues.find? s.rings.nextQueue = none := by
        rw [Option.eq_none_iff_forall_not_mem]
        exact fun q hq => Nat.lt_irrefl _ (I.fresh _ q hq)
      have hbefore : s.held.Perm ([] ++ s.others s.rings.nextQueue) := by
        rw [others, OrdMap.erase_of_none hnone]
        exact .refl _
      obtain ⟨horderly, hsound, hheld⟩ := I.act hcalls hbefore (fun _ _ => hmade) hhonest
      refine ⟨horderly, hsound, hheld.trans (held_insert hqueues).symm, ?_, ?_⟩
      · intro id
        rw [hqueues, hrings, OrdMap.find?_insert, OrdMap.find?_insert]
        split
        next => rfl
        next => exact I.numbered id
      · intro id q' hq'
        rw [hqueues, OrdMap.find?_insert] at hq'
        rw [hnext]
        split at hq'
        next heq => exact heq ▸ Nat.lt_succ_self _
        next => exact Nat.lt_succ_of_lt (I.fresh id q' hq')
  | destroyed id q hq hqueues hcalls hrings hnext =>
      obtain ⟨horderly, hsound, hheld⟩ := I.act hcalls (held_perm hq)
        (fun S _ => QueueObject.delete_calls (S.of_append_left q.closed_holds)) hhonest
      refine ⟨horderly, hsound, ?_, ?_, ?_⟩
      · rw [QueueSystem.held, hqueues]
        exact hheld
      · intro id'
        rw [hqueues, hrings, OrdMap.find?_erase, OrdMap.find?_erase]
        split
        next => rfl
        next => exact I.numbered id'
      · intro id' q' hq'
        rw [hqueues, OrdMap.find?_erase] at hq'
        rw [hnext]
        split at hq'
        next => cases hq'
        next => exact I.fresh id' q' hq'
  | updated id q size gpuMem hq hqueues hcalls hrings =>
      have hown : Sound (q.holds ++ s.others id) →
          OpenObjects.Honest (q.holds ++ s.others id) (q.updateScratch size gpuMem).2 →
          Leads q.holds (q.updateScratch size gpuMem).2 (q.updateScratch size gpuMem).1.holds := by
        intro S hfresh
        refine QueueObject.updateScratch_calls (S.of_append_left q.closed_holds) ?_
        intro c calls heq
        rw [heq] at hfresh
        exact OpenObjects.Fresh.of_append hfresh.1
      obtain ⟨horderly, hsound, hheld⟩ := I.act hcalls (held_perm hq) hown hhonest
      refine ⟨horderly, hsound, hheld.trans (held_insert hqueues).symm, ?_, ?_⟩
      · intro id'
        rw [hqueues, hrings, OrdMap.find?_insert, ← I.numbered]
        split
        next heq => rw [heq, hq, Option.isSome_some, Option.isSome_some]
        next => rfl
      · intro id' q' hq'
        rw [hqueues, OrdMap.find?_insert] at hq'
        rw [hrings]
        split at hq'
        next heq => exact heq ▸ I.fresh id q hq
        next => exact I.fresh id' q' hq'
  | submitted id q ans hq hqueues hcalls hrings =>
      obtain ⟨horderly, hsound, hheld⟩ :=
        I.act hcalls (held_perm hq) (fun _ _ => q.submit_calls ans) hhonest
      have hsame : s'.held = s.held := by rw [QueueSystem.held, hqueues, QueueSystem.held]
      refine ⟨horderly, hsound, ?_, ?_, ?_⟩
      · rw [hsame]
        exact hheld.trans (held_perm hq).symm
      · rw [hqueues, hrings]
        exact I.numbered
      · rw [hqueues, hrings]
        exact I.fresh

/-- The queues and their rings after any run, if the driver gives no handle of an open object. -/
theorem reach_inv {sp : AddressSpace} {pid : Nat}
    (h : Reach (step cfg) (fun _ _ => True) (new sp pid) s) (hhonest : Honest [] s.calls) :
    Inv s ∧ Reach (Rings.step cfg) (fun _ _ => True) (.new sp pid) s.rings := by
  have hreach : (Honest [] s.calls → Inv s) ∧
      Reach (Rings.step cfg) (fun _ _ => True) (new sp pid).rings s.rings := by
    refine h.simulate rings (I := fun s => Honest [] s.calls → Inv s) (fun _ => inv_new sp pid) ?_
    intro s e s' hinv _ hs
    obtain ⟨heffect, hrings⟩ := step_effect hs
    refine ⟨fun hhonest => ?_, hrings.imp_right fun ⟨e', he'⟩ => ⟨e', trivial, he'⟩⟩
    obtain ⟨calls, hcalls⟩ := heffect.calls
    exact (hinv (OpenObjects.honest_append.mp (hcalls ▸ hhonest)).1).effect heffect hhonest
  exact ⟨hreach.1 hhonest, hreach.2⟩

/-- In every run with a driver that gives no handle of an open object: the queues name open objects
only and destroy no context before its hardware queue, what is open is what the queues hold, each
object is held by one queue, and nothing is open when no queue is left. -/
theorem driver_respected {sp : AddressSpace} {pid : Nat}
    (h : Reach (step cfg) (fun _ _ => True) (new sp pid) s) (hhonest : Honest [] s.calls) :
    Orderly [] s.calls ∧ (afterAll [] s.calls).Perm s.held ∧ (OpenObjects.handles s.held).Nodup ∧
      ((∀ id, s.rings.queues.find? id = none) → afterAll [] s.calls = []) := by
  obtain ⟨I, -⟩ := reach_inv h hhonest
  refine ⟨I.orderly, I.held, (I.sound.perm I.held).nodup, fun hnone => ?_⟩
  have hqueues : s.queues = .empty := by
    refine OrdMap.ext_find? fun id => ?_
    have hsome := I.numbered id
    rw [hnone id, Option.isSome_none] at hsome
    exact Option.not_isSome_iff_eq_none.mp (Bool.eq_false_iff.mp hsome)
  have hheld : s.held = [] := by
    rw [held, hqueues]
    rfl
  exact List.Perm.eq_nil (hheld ▸ I.held)

/-- Two queues on one ring, one of them with scratch memory that grows, and both destroyed. -/
theorem driver_respected_run :
    ∃ s, Reach (step smallConfig) (fun _ _ => True) (new smallSpace 1) s ∧
      s.calls.length = 22 ∧ Orderly [] s.calls ∧ afterAll [] s.calls = [] := by
  have hrun : (runAll (step smallConfig) (fun _ _ => True) (new smallSpace 1)
      [.allocMemory 1 4096 {} 0 {},
        .createQueue (Rings.oneQueue (2 ^ 28)) true (WddmQueue.answers 1),
        .createQueue (Rings.oneQueue (2 ^ 28)) true (WddmQueue.answers 3),
        .submit 0 { pagingBehind := true }, .updateScratch 1 4096 (some 5),
        .updateScratch 1 8192 (some 6), .destroyQueue 0, .destroyQueue 1]).map
        (fun s => (s.calls.length, decide (Honest [] s.calls), s.rings.queues.entries)) =
      some (22, true, []) := by
    decide
  obtain ⟨s, hs, heq⟩ := Option.map_eq_some_iff.mp hrun
  simp only [Prod.mk.injEq, decide_eq_true_eq] at heq
  obtain ⟨hlength, hhonest, hempty⟩ := heq
  have hreach := reach_of_runAll hs
  obtain ⟨horderly, -, -, hclosed⟩ := driver_respected hreach hhonest
  refine ⟨s, hreach, hlength, horderly, hclosed fun id => ?_⟩
  rw [OrdMap.find?, hempty]
  rfl

end QueueSystem

end RocDxg
