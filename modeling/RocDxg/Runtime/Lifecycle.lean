import RocDxg.Lib.Reach
import RocDxg.Memory.Allocation

/-!
# Open, snapshot and fork

The life of the library in a process: `hsaKmtOpenKFD` and `hsaKmtCloseKFD` of
`openclose.cpp`, `hsaKmtAcquireSystemProperties` and `hsaKmtReleaseSystemProperties` of
`topology.cpp`, and `fork`.  Three objects take part: `dxg_runtime` with the address
managers, `dxg_topology` with the devices, and the address space of the process with
the ranges that were reserved in it.

The managers are made by `HeapInit`, together with the devices.  A first open after a
fork replaces the runtime and keeps the topology, so a child that inherits devices has
none of the managers (`Process.fork_keeps_devices`).  In every run where no such open
happens a usable device comes with the managers (`Process.usable_initialised`).
-/

namespace RocDxg

open Lib (Reach runAll reach_of_runAll)

/-- A range of addresses; the empty one at zero stands for none. -/
structure Span where
  start : Nat := 0
  size : Nat := 0
deriving DecidableEq, Repr

/-- The ranges `ReserveLocalHeapSpace`, `ReserveSystemHeapSpace` and
`InitHandleApertureSpace` have found, empty where one has failed. -/
structure Spaces where
  localHeap : Span := {}
  systemHeap : Span := {}
  handleAperture : Span := {}
deriving DecidableEq, Repr

/-- `hsakmtRuntime` -/
structure Runtime where
  spaces : Spaces := {}
  localHeapMgr : Option VaMgr := none
  systemHeapMgr : Option VaMgr := none
  handleApertureMgr : Option VaMgr := none
  dxgFd : Int := -1
  dxgOpenCount : Nat := 0
  isForked : Bool := false
  parentPid : Nat

/-- `_topology_props`: the nodes of the cached snapshot, and how many devices there are. -/
structure Topology where
  gSystem : Option Nat := none
  wdevices : Nat := 0
  numSysfsNodes : Nat := 0
deriving DecidableEq, Repr

/-- A process that uses the library. -/
structure Process where
  pid : Nat
  runtime : Runtime
  topology : Topology := {}
  /-- `atfork_installed` -/
  atforkInstalled : Bool := false
  /-- The heap ranges that were reserved in this process and not freed. -/
  reserved : List Span := []

/-- What the host answers while a snapshot is taken. -/
structure SnapshotAnswers where
  /-- The adapters `WDDMCreateDevices` finds. -/
  adapters : Nat
  spaces : Spaces
  /-- The rest of `topology_take_snapshot` succeeds. -/
  props : Bool := true
deriving DecidableEq, Repr

/-- A call, with what the host answers, or a fork into a child with a process id. -/
inductive LifecycleCall where
  | openKFD (fd : Int) (dxcore : Bool)
  | closeKFD
  | acquireSystemProperties (a : SnapshotAnswers)
  | releaseSystemProperties
  | fork (pid : Nat)
deriving DecidableEq, Repr

namespace Process

/-- The state before the first call. -/
def new (pid : Nat) : Process where
  pid := pid
  runtime := { parentPid := pid }

/-- `CHECK_DXG_OPEN` -/
def isOpen (p : Process) : Bool := p.runtime.dxgOpenCount ≠ 0 && !p.runtime.isForked

/-- `get_wddmdev` returns a device for the node. -/
def hasWddmdev (p : Process) (node : Nat) : Bool :=
  p.topology.wdevices ≠ 0 && node ≠ 0 && node < p.topology.numSysfsNodes

/-! ## The heaps -/

/-- A manager for a range. -/
def mgr (s : Span) : VaMgr := .new s.start s.size defaultGpuPageSize

/-- `HeapFini`: the ranges are freed, the managers stay. -/
def heapFini (p : Process) : Process :=
  { p with
    runtime := { p.runtime with
      spaces := { p.runtime.spaces with localHeap := {}, systemHeap := {} } }
    reserved := (p.reserved.erase p.runtime.spaces.systemHeap).erase p.runtime.spaces.localHeap }

/-- `HeapInit` -/
def heapInit (p : Process) (s : Spaces) : Process :=
  { p with
    runtime := { p.runtime with
      spaces := s
      localHeapMgr := some (mgr s.localHeap)
      systemHeapMgr := some (mgr s.systemHeap)
      handleApertureMgr := some (mgr s.handleAperture) }
    reserved := s.localHeap :: s.systemHeap :: p.reserved }

/-! ## The topology -/

/-- `topology_sysfs_get_system_props` -/
def systemProps (p : Process) (a : SnapshotAnswers) : Bool × Process :=
  let p := p.heapFini
  let p := { p with topology := { p.topology with wdevices := a.adapters } }
  if a.adapters = 0 then (false, p)
  else
    (true, heapInit { p with topology := { p.topology with numSysfsNodes := a.adapters + 1 } }
      a.spaces)

/-- `topology_take_snapshot` -/
def takeSnapshot (p : Process) (a : SnapshotAnswers) : Status × Process :=
  match p.systemProps a with
  | (false, p) => (.error, p)
  | (true, p) =>
      if a.props then
        (.success, { p with topology := { p.topology with gSystem := some p.topology.numSysfsNodes } })
      else (.error, p)

/-- `topology_drop_snapshot` -/
def dropSnapshot (p : Process) : Process :=
  { p with topology := { p.topology with gSystem := none, wdevices := 0 } }

/-- `hsaKmtAcquireSystemProperties` with a place for the result -/
def acquireSystemProperties (p : Process) (a : SnapshotAnswers) : Status × Process :=
  if p.isOpen then
    match p.topology.gSystem with
    | some _ => (.success, p)
    | none => p.takeSnapshot a
  else (.kernelIoChannelNotOpened, p)

/-- `hsaKmtReleaseSystemProperties` -/
def releaseSystemProperties (p : Process) : Status × Process := (.success, p.dropSnapshot)

/-! ## Open and close -/

/-- `is_forked_child`, before it sets the flag -/
def isForkedChild (p : Process) : Bool := p.runtime.isForked || p.runtime.parentPid ≠ p.pid

/-- `clear_after_fork`, as far as the runtime goes -/
def clearAfterFork (p : Process) : Process := { p with runtime := { parentPid := p.pid } }

/-- `hsaKmtOpenKFD`.  `fd` is what `open` returns, should it be called, and `dxcore` says
whether the loader could be initialised. -/
def openKFD (p : Process) (fd : Int) (dxcore : Bool) : Status × Process :=
  let p := if p.isForkedChild then p.clearAfterFork else p
  if p.runtime.dxgOpenCount = 0 then
    let dxgFd := if p.runtime.dxgFd < 0 then fd else p.runtime.dxgFd
    if p.runtime.dxgFd < 0 ∧ fd = -1 then (.kernelIoChannelNotOpened, p)
    else if ¬ dxcore then (.error, { p with runtime := { p.runtime with dxgFd := dxgFd } })
    else
      (.success,
        { p with
          runtime := { p.runtime with dxgFd := dxgFd, dxgOpenCount := 1 }
          atforkInstalled := true })
  else
    (.kernelAlreadyOpened,
      { p with runtime := { p.runtime with dxgOpenCount := u64 (p.runtime.dxgOpenCount + 1) } })

/-- `hsaKmtCloseKFD` -/
def closeKFD (p : Process) : Status × Process :=
  if p.runtime.dxgOpenCount > 0 then
    let count := p.runtime.dxgOpenCount - 1
    (.success,
      { p with runtime := { p.runtime with
          dxgOpenCount := count
          dxgFd := if count = 0 then -1 else p.runtime.dxgFd } })
  else (.kernelIoChannelNotOpened, p)

/-- `fork`, continued in the child.  The handler of the library sets the flag, once it is
installed; no range is reserved for the child. -/
def fork (p : Process) (pid : Nat) : Process :=
  { p with
    pid := pid
    runtime := { p.runtime with isForked := p.atforkInstalled || p.runtime.isForked }
    reserved := [] }

/-- One call.  A child has another process id. -/
def step (p : Process) : LifecycleCall → Option Process
  | .openKFD fd dxcore => some (p.openKFD fd dxcore).2
  | .closeKFD => some p.closeKFD.2
  | .acquireSystemProperties a => some (p.acquireSystemProperties a).2
  | .releaseSystemProperties => some p.releaseSystemProperties.2
  | .fork pid => if pid ≠ p.pid then some (p.fork pid) else none

/-! ## What an allocation relies on -/

/-- An allocation finds the library open and a device. -/
def Usable (p : Process) : Prop := p.isOpen = true ∧ ∃ node, p.hasWddmdev node = true

/-- The managers exist, and describe the ranges reserved in this process. -/
structure Initialised (p : Process) : Prop where
  localHeap : p.runtime.localHeapMgr = some (mgr p.runtime.spaces.localHeap)
  systemHeap : p.runtime.systemHeapMgr = some (mgr p.runtime.spaces.systemHeap)
  handleAperture : p.runtime.handleApertureMgr = some (mgr p.runtime.spaces.handleAperture)
  localReserved : p.runtime.spaces.localHeap ∈ p.reserved
  systemReserved : p.runtime.spaces.systemHeap ∈ p.reserved

/-- A child does not open the library with devices that it has inherited. -/
def Regular (p : Process) : LifecycleCall → Prop
  | .openKFD _ _ => p.isForkedChild = true → p.topology.wdevices = 0
  | _ => True

instance (p : Process) : (c : LifecycleCall) → Decidable (p.Regular c)
  | .openKFD _ _ => inferInstanceAs (Decidable (_ → _))
  | .closeKFD => inferInstanceAs (Decidable True)
  | .acquireSystemProperties _ => inferInstanceAs (Decidable True)
  | .releaseSystemProperties => inferInstanceAs (Decidable True)
  | .fork _ => inferInstanceAs (Decidable True)

/-- Where there are devices, the handler is installed, the nodes are counted, and the
managers are there unless the process is a child that has not opened the library. -/
structure Inv (p : Process) : Prop where
  handler : p.topology.wdevices ≠ 0 → p.atforkInstalled = true
  nodes : p.topology.wdevices ≠ 0 → p.topology.numSysfsNodes = p.topology.wdevices + 1
  heaps : p.topology.wdevices ≠ 0 → p.runtime.isForked = false → p.Initialised
  /-- An open library has its handler installed. -/
  opened : p.runtime.dxgOpenCount ≠ 0 → p.atforkInstalled = true

variable {p p' : Process} {c : LifecycleCall}

theorem inv_new (pid : Nat) : Inv (new pid) :=
  ⟨fun h => absurd rfl h, fun h => absurd rfl h, fun h => absurd rfl h, fun h => absurd rfl h⟩

/-- The steps of `hsaKmtOpenKFD` after a fork has been seen to. -/
theorem Inv.openKFD (I : Inv p) (hreg : p.isForkedChild = true → p.topology.wdevices = 0) (fd : Int)
    (dxcore : Bool) : Inv (p.openKFD fd dxcore).2 := by
  have I' : Inv (if p.isForkedChild then p.clearAfterFork else p) := by
    split
    next hfork =>
      have hzero := hreg hfork
      exact ⟨fun h => absurd hzero h, fun h => absurd hzero h, fun h => absurd hzero h,
        fun h => absurd rfl h⟩
    next => exact I
  rw [Process.openKFD]
  generalize (if p.isForkedChild then p.clearAfterFork else p) = q at I'
  simp only
  have hkeep : ∀ r : Runtime, r.spaces = q.runtime.spaces → r.localHeapMgr = q.runtime.localHeapMgr →
      r.systemHeapMgr = q.runtime.systemHeapMgr → r.handleApertureMgr = q.runtime.handleApertureMgr →
      q.Initialised → ({ q with runtime := r } : Process).Initialised := by
    intro r hs hl hsys hape H
    refine ⟨?_, ?_, ?_, ?_, ?_⟩
    · show r.localHeapMgr = some (mgr r.spaces.localHeap)
      rw [hl, hs, H.localHeap]
    · show r.systemHeapMgr = some (mgr r.spaces.systemHeap)
      rw [hsys, hs, H.systemHeap]
    · show r.handleApertureMgr = some (mgr r.spaces.handleAperture)
      rw [hape, hs, H.handleAperture]
    · show r.spaces.localHeap ∈ q.reserved
      rw [hs]
      exact H.localReserved
    · show r.spaces.systemHeap ∈ q.reserved
      rw [hs]
      exact H.systemReserved
  split
  next hcount =>
    split
    next => exact I'
    next =>
      split
      next =>
        exact ⟨I'.handler, I'.nodes, fun hd hf => hkeep _ rfl rfl rfl rfl (I'.heaps hd hf),
          fun h => absurd hcount h⟩
      next =>
        refine ⟨fun _ => rfl, I'.nodes, ?_, fun _ => rfl⟩
        intro hd hf
        have H := I'.heaps hd hf
        exact ⟨H.localHeap, H.systemHeap, H.handleAperture, H.localReserved, H.systemReserved⟩
  next hcount =>
    exact ⟨I'.handler, I'.nodes, fun hd hf => hkeep _ rfl rfl rfl rfl (I'.heaps hd hf),
      fun _ => I'.opened hcount⟩

theorem Inv.closeKFD (I : Inv p) : Inv p.closeKFD.2 := by
  rw [Process.closeKFD]
  split
  next hcount =>
    refine ⟨I.handler, I.nodes, ?_, fun _ => I.opened (Nat.ne_of_gt hcount)⟩
    intro hd hf
    have H := I.heaps hd hf
    exact ⟨H.localHeap, H.systemHeap, H.handleAperture, H.localReserved, H.systemReserved⟩
  next => exact I

theorem Inv.dropSnapshot (I : Inv p) : Inv p.dropSnapshot :=
  ⟨fun h => absurd rfl h, fun h => absurd rfl h, fun h => absurd rfl h, I.opened⟩

/-- `HeapInit` makes the managers for the ranges it has reserved. -/
theorem initialised_heapInit (p : Process) (s : Spaces) : (p.heapInit s).Initialised :=
  ⟨rfl, rfl, rfl, List.mem_cons_self .., List.mem_cons_of_mem _ (List.mem_cons_self ..)⟩

theorem Inv.acquire (I : Inv p) (a : SnapshotAnswers) : Inv (p.acquireSystemProperties a).2 := by
  rw [acquireSystemProperties]
  split
  next hopen =>
    have hcount : p.runtime.dxgOpenCount ≠ 0 := by
      simp only [isOpen, Bool.and_eq_true, decide_eq_true_eq] at hopen
      exact hopen.1
    have hatfork := I.opened hcount
    cases p.topology.gSystem with
    | some _ => exact I
    | none =>
        simp only [takeSnapshot, systemProps]
        by_cases hnone : a.adapters = 0
        · simp only [if_pos hnone]
          exact ⟨fun h => absurd hnone h, fun h => absurd hnone h, fun h => absurd hnone h,
            fun _ => hatfork⟩
        · simp only [if_neg hnone]
          have H := initialised_heapInit { p.heapFini with
            topology := { p.topology with
              wdevices := a.adapters
              numSysfsNodes := a.adapters + 1 } } a.spaces
          split
          next =>
            refine ⟨fun _ => hatfork, fun _ => rfl, fun _ _ => ?_, fun _ => hatfork⟩
            exact ⟨H.localHeap, H.systemHeap, H.handleAperture, H.localReserved, H.systemReserved⟩
          next => exact ⟨fun _ => hatfork, fun _ => rfl, fun _ _ => H, fun _ => hatfork⟩
  next => exact I

theorem Inv.fork (I : Inv p) (pid : Nat) : Inv (p.fork pid) := by
  refine ⟨I.handler, I.nodes, ?_, I.opened⟩
  intro hd hf
  have hforked : (p.atforkInstalled || p.runtime.isForked) = false := hf
  rw [I.handler hd, Bool.true_or] at hforked
  cases hforked

theorem step_inv (I : Inv p) (hreg : p.Regular c) (h : p.step c = some p') : Inv p' := by
  cases c with
  | openKFD fd dxcore =>
      cases h
      exact I.openKFD hreg fd dxcore
  | closeKFD =>
      cases h
      exact I.closeKFD
  | acquireSystemProperties a =>
      cases h
      exact I.acquire a
  | releaseSystemProperties =>
      cases h
      exact I.dropSnapshot
  | fork pid =>
      rw [step] at h
      split at h
      next =>
        cases h
        exact I.fork pid
      next => cases h

theorem Inv.initialised (I : Inv p) (h : p.Usable) : p.Initialised := by
  obtain ⟨hopen, node, hnode⟩ := h
  simp only [isOpen, Bool.and_eq_true, Bool.not_eq_true'] at hopen
  simp only [hasWddmdev, Bool.and_eq_true, decide_eq_true_eq] at hnode
  exact I.heaps hnode.1.1 hopen.2

/-- A child that opens the library with inherited devices can use them, and has no
managers. -/
theorem Inv.open_child (I : Inv p) (hfork : p.isForkedChild = true)
    (hdev : p.topology.wdevices ≠ 0) {fd : Int} (hfd : fd ≠ -1) :
    (p.openKFD fd true).2.Usable ∧ (p.openKFD fd true).2.runtime.localHeapMgr = none ∧
      (p.openKFD fd true).2.runtime.systemHeapMgr = none ∧
      (p.openKFD fd true).2.runtime.handleApertureMgr = none := by
  have hopened : (p.openKFD fd true).2 =
      { p.clearAfterFork with
        runtime := { p.clearAfterFork.runtime with dxgFd := fd, dxgOpenCount := 1 }
        atforkInstalled := true } := by
    simp [Process.openKFD, hfork, clearAfterFork, hfd]
  rw [hopened]
  refine ⟨⟨rfl, 1, ?_⟩, rfl, rfl, rfl⟩
  simp only [hasWddmdev, clearAfterFork, I.nodes hdev, Bool.and_eq_true, decide_eq_true_eq]
  refine ⟨⟨decide_eq_true hdev, by decide⟩, ?_⟩
  exact Nat.succ_lt_succ (Nat.pos_of_ne_zero hdev)

/-- In every run where no child opens the library with inherited devices, the managers of
a usable device are there and describe ranges reserved in the process.  A child that does
has none of them. -/
theorem usable_initialised {pid : Nat} (h : Reach step Regular (new pid) p) :
    (p.Usable → p.Initialised) ∧
      ∀ fd dxcore, ¬ p.Regular (.openKFD fd dxcore) → fd ≠ -1 →
        (p.openKFD fd true).2.Usable ∧ ¬ (p.openKFD fd true).2.Initialised := by
  have hinv : Inv p := by
    refine h.invariant (inv_new pid) ?_
    intro p c p' hp hok hstep
    exact step_inv hp hok hstep
  refine ⟨hinv.initialised, ?_⟩
  intro fd dxcore hreg hfd
  simp only [Regular, not_forall] at hreg
  obtain ⟨hfork, hdev⟩ := hreg
  obtain ⟨husable, hnone, _⟩ := hinv.open_child hfork hdev hfd
  refine ⟨husable, fun H => ?_⟩
  rw [H.localHeap] at hnone
  cases hnone

/-- The ranges of a small machine. -/
def smallSpaces : Spaces := ⟨⟨0x100000, 0x100000⟩, ⟨0x200000, 0x100000⟩, ⟨0x800000, 0x100000⟩⟩

/-- A run with a fork in which the child drops the snapshot before it opens the library. -/
theorem usable_initialised_run :
    ∃ p, Reach step Regular (new 1) p ∧ p.Usable ∧ p.pid = 2 ∧ p.Initialised := by
  have hrun : (runAll step Regular (new 1)
      [.openKFD 3 true, .acquireSystemProperties ⟨1, smallSpaces, true⟩, .fork 2,
        .releaseSystemProperties, .openKFD 3 true,
        .acquireSystemProperties ⟨1, smallSpaces, true⟩]).map
        (fun p => (p.isOpen, p.hasWddmdev 1, p.pid)) = some (true, true, 2) := by
    decide
  obtain ⟨p, hp, heq⟩ := Option.map_eq_some_iff.mp hrun
  have hreach := reach_of_runAll hp
  simp only [Prod.mk.injEq] at heq
  have husable : p.Usable := ⟨heq.1, 1, heq.2.1⟩
  exact ⟨p, hreach, husable, heq.2.2, (usable_initialised hreach).1 husable⟩

/-- A child that opens the library with the devices of its parent has no managers, and a
new snapshot is not taken. -/
theorem fork_keeps_devices :
    ¬ ∀ p, Reach step (fun _ _ => True) (new 1) p → p.Usable → p.Initialised := by
  intro hall
  have hrun : (runAll step (fun _ _ => True) (new 1)
      [.openKFD 3 true, .acquireSystemProperties ⟨1, smallSpaces, true⟩, .fork 2, .openKFD 3 true,
        .acquireSystemProperties ⟨1, smallSpaces, true⟩]).map
        (fun p => (p.isOpen, p.hasWddmdev 1, p.runtime.localHeapMgr.isNone)) =
        some (true, true, true) := by
    decide
  obtain ⟨p, hp, heq⟩ := Option.map_eq_some_iff.mp hrun
  simp only [Prod.mk.injEq] at heq
  have H := hall p (reach_of_runAll hp) ⟨heq.1, 1, heq.2.1⟩
  have hnone := heq.2.2
  rw [H.localHeap] at hnone
  cases hnone

end Process

end RocDxg
