import RocDxg.Platform.Smi
import RocDxg.Runtime.Lifecycle

/-!
# The descriptor of the device node

`hsaKmtOpenKFD` and `hsaKmtCloseKFD` of `openclose.cpp` with the descriptors of the process
and the loader of `libdxcore.so`.  The first open stores the descriptor of the device node in
the runtime before it loads the library.  If the library does not load, the descriptor is
closed and its number stays in the runtime.

In every run in which the library loads whenever the device node was opened for it, the
stored number is that of an open descriptor, and an open that fails is undone exactly if it
too does not fail after it has opened the device node (`Connection.failed_open_undone`).
-/

namespace RocDxg

open Lib (Reach runAll reach_of_runAll)

/-- The library in a process, with the open descriptors of the process. -/
structure Connection where
  process : Process
  loader : DxcoreLoader := {}
  fds : List Int

/-- What the host answers to an open: what `open` returns for the device node, and whether
`dlopen` finds the library and the library has all functions. -/
structure OpenAnswers where
  deviceFd : Int
  dlopen : Bool
  apis : Bool
deriving DecidableEq, Repr

/-- A call of the library. -/
inductive ConnectionCall where
  | openKFD (a : OpenAnswers)
  | closeKFD
deriving DecidableEq, Repr

namespace Connection

/-- The state before the first call. -/
def new (fds : List Int) (pid : Nat) : Connection where
  process := .new pid
  fds := fds

/-- `dxg_fd` -/
def dxgFd (c : Connection) : Int := c.process.runtime.dxgFd

/-- `dxg_open_count` -/
def dxgOpenCount (c : Connection) : Nat := c.process.runtime.dxgOpenCount

/-- `close`, which fails for a number that is not open. -/
def closeFd (c : Connection) (fd : Int) : Connection :=
  { c with fds := c.fds.filter (· ≠ fd) }

/-- `clear_after_fork`, as far as the runtime goes -/
def clearAfterFork (c : Connection) : Connection :=
  let c := if 0 ≤ c.dxgFd then c.closeFd c.dxgFd else c
  { c with process := c.process.clearAfterFork }

/-- `hsaKmtOpenKFD` -/
def openKFD (c : Connection) (a : OpenAnswers) : Status × Connection :=
  let c := if c.process.isForkedChild then c.clearAfterFork else c
  if c.dxgOpenCount = 0 then
    if c.dxgFd < 0 ∧ a.deviceFd = -1 then (.kernelIoChannelNotOpened, c)
    else
      let fd := if c.dxgFd < 0 then a.deviceFd else -1
      let c :=
        if c.dxgFd < 0 then
          { c with
            process := { c.process with runtime := { c.process.runtime with dxgFd := fd } }
            fds := fd :: c.fds }
        else c
      match c.loader.initializeLoader a.dlopen a.apis with
      | (false, loader) => (.error, { c with loader := loader }.closeFd fd)
      | (true, loader) =>
          (.success,
            { c with
              process :=
                { c.process with
                  runtime := { c.process.runtime with dxgOpenCount := 1 }
                  atforkInstalled := true }
              loader := loader })
  else
    (.kernelAlreadyOpened,
      { c with process := { c.process with
          runtime := { c.process.runtime with dxgOpenCount := u64 (c.dxgOpenCount + 1) } } })

/-- `hsaKmtCloseKFD` -/
def closeKFD (c : Connection) : Status × Connection :=
  if c.dxgOpenCount > 0 then
    if c.dxgOpenCount - 1 = 0 then
      let c := c.closeFd c.dxgFd
      (.success,
        { c with
          process := { c.process with
            runtime := { c.process.runtime with dxgOpenCount := 0, dxgFd := -1 } }
          loader := c.loader.shutdown })
    else
      (.success,
        { c with process := { c.process with
            runtime := { c.process.runtime with dxgOpenCount := c.dxgOpenCount - 1 } } })
  else (.kernelIoChannelNotOpened, c)

/-- One call with its status. -/
def call (c : Connection) : ConnectionCall → Status × Connection
  | .openKFD a => c.openKFD a
  | .closeKFD => c.closeKFD

/-- The host opens a file under a number that is not in use. -/
def Possible (c : Connection) : ConnectionCall → Prop
  | .openKFD a => a.deviceFd = -1 ∨ 0 ≤ a.deviceFd ∧ a.deviceFd ∉ c.fds
  | .closeKFD => True

instance (c : Connection) : (e : ConnectionCall) → Decidable (c.Possible e)
  | .openKFD _ => inferInstanceAs (Decidable (_ ∨ _))
  | .closeKFD => inferInstanceAs (Decidable True)

/-- One call that the host can answer so. -/
def step (c : Connection) (e : ConnectionCall) : Option Connection :=
  if c.Possible e then some (c.call e).2 else none

/-- A list of calls with their status. -/
def calls (c : Connection) : List ConnectionCall → List Status × Connection
  | [] => ([], c)
  | e :: es => ((c.call e).1 :: ((c.call e).2.calls es).1, ((c.call e).2.calls es).2)

/-- The library loads when the device node was opened for it. -/
def Regular (c : Connection) : ConnectionCall → Prop
  | .openKFD a =>
      c.dxgOpenCount = 0 → c.dxgFd < 0 → a.deviceFd ≠ -1 → a.dlopen = true ∧ a.apis = true
  | .closeKFD => True

instance (c : Connection) : (e : ConnectionCall) → Decidable (c.Regular e)
  | .openKFD _ => inferInstanceAs (Decidable (_ → _ → _ → _))
  | .closeKFD => inferInstanceAs (Decidable True)

/-- The stored number is that of an open descriptor, or there is none. -/
def FdOpen (c : Connection) : Prop := c.dxgFd = -1 ∨ c.dxgFd ∈ c.fds

/-- Two states that differ in the loader only. -/
structure SameView (c c' : Connection) : Prop where
  process : c'.process = c.process
  fds : c'.fds = c.fds

/-- The open failed. -/
def Fails (c : Connection) (a : OpenAnswers) : Prop :=
  (c.openKFD a).1 ≠ .success ∧ (c.openKFD a).1 ≠ .kernelAlreadyOpened

instance (c : Connection) (a : OpenAnswers) : Decidable (c.Fails a) :=
  inferInstanceAs (Decidable (_ ∧ _))

/-- After the open the count and the number are what they were, the number is still that of
an open descriptor, and the calls that follow go as if there had been no such open. -/
structure Undone (c : Connection) (a : OpenAnswers) : Prop where
  count : (c.openKFD a).2.dxgOpenCount = c.dxgOpenCount
  fd : (c.openKFD a).2.dxgFd = c.dxgFd
  fdOpen : (c.openKFD a).2.FdOpen
  replies : ∀ es, ((c.openKFD a).2.calls es).1 = (c.calls es).1
  view : ∀ es, (c.calls es).2.SameView ((c.openKFD a).2.calls es).2

/-- The process has not forked, its descriptors are numbers, and the runtime has one while the
library is open. -/
structure Inv (c : Connection) : Prop where
  unforked : c.process.isForkedChild = false
  nonneg : ∀ fd ∈ c.fds, 0 ≤ fd
  fdOpen : c.FdOpen
  opened : c.dxgOpenCount ≠ 0 → c.dxgFd ∈ c.fds

variable {c c' : Connection} {a : OpenAnswers} {e : ConnectionCall}

/-! ## What an open does -/

theorem initializeLoader_eq (l : DxcoreLoader) (dlopen apis : Bool) :
    l.initializeLoader dlopen apis =
      (dlopen && apis,
        if (dlopen && apis) = true then ⟨true, l.references + 1⟩ else ⟨false, l.references⟩) := by
  cases dlopen with
  | false => rfl
  | true =>
      cases apis with
      | false => rfl
      | true => rfl

theorem clearAfterFork_process (c : Connection) :
    c.clearAfterFork.process = c.process.clearAfterFork := by
  rw [clearAfterFork]
  split
  next => rfl
  next => rfl

/-- The runtime goes through the open that `Process` describes. -/
theorem openKFD_process (c : Connection) (a : OpenAnswers) :
    (c.openKFD a).1 = (c.process.openKFD a.deviceFd (a.dlopen && a.apis)).1 ∧
      (c.openKFD a).2.process = (c.process.openKFD a.deviceFd (a.dlopen && a.apis)).2 := by
  have hclear : (if c.process.isForkedChild then c.clearAfterFork else c).process =
      if c.process.isForkedChild then c.process.clearAfterFork else c.process := by
    split
    next => exact c.clearAfterFork_process
    next => rfl
  rw [openKFD, Process.openKFD, ← hclear]
  generalize (if c.process.isForkedChild then c.clearAfterFork else c) = d
  simp only [initializeLoader_eq, dxgFd, dxgOpenCount, closeFd]
  split
  next =>
    split
    next => exact ⟨rfl, rfl⟩
    next =>
      by_cases hneg : d.process.runtime.dxgFd < 0
      · cases a.dlopen && a.apis with
        | false => simp [hneg]
        | true => simp [hneg]
      · cases a.dlopen && a.apis with
        | false => simp [hneg]
        | true => simp [hneg]
  next => exact ⟨rfl, rfl⟩

/-- The runtime goes through the close that `Process` describes. -/
theorem closeKFD_process (c : Connection) :
    c.closeKFD.1 = c.process.closeKFD.1 ∧ c.closeKFD.2.process = c.process.closeKFD.2 := by
  by_cases hcount : c.process.runtime.dxgOpenCount > 0
  · by_cases hzero : c.process.runtime.dxgOpenCount - 1 = 0
    · simp [closeKFD, Process.closeKFD, dxgFd, dxgOpenCount, closeFd, hcount, hzero]
    · simp [closeKFD, Process.closeKFD, dxgOpenCount, hcount, hzero]
  · simp [closeKFD, Process.closeKFD, dxgOpenCount, hcount]

/-! ## What the loader decides -/

theorem clearAfterFork_fds (c : Connection) :
    c.clearAfterFork.fds = if 0 ≤ c.dxgFd then c.fds.filter (· ≠ c.dxgFd) else c.fds := by
  rw [clearAfterFork]
  split
  next => rfl
  next => rfl

theorem SameView.clearAfterFork (h : c.SameView c') :
    (if c.process.isForkedChild then c.clearAfterFork else c).SameView
      (if c'.process.isForkedChild then c'.clearAfterFork else c') := by
  rw [h.process]
  split
  next =>
    refine ⟨?_, ?_⟩
    · rw [clearAfterFork_process, clearAfterFork_process, h.process]
    · rw [clearAfterFork_fds, clearAfterFork_fds, dxgFd, dxgFd, h.process, h.fds]
  next => exact h

/-- What an open leaves of the descriptors does not depend on the loader. -/
theorem SameView.openKFD_fds (h : c.SameView c') (a : OpenAnswers) :
    (c'.openKFD a).2.fds = (c.openKFD a).2.fds := by
  have hclear := h.clearAfterFork
  rw [openKFD, openKFD]
  generalize (if c.process.isForkedChild then c.clearAfterFork else c) = d at hclear
  generalize (if c'.process.isForkedChild then c'.clearAfterFork else c') = d' at hclear
  obtain ⟨process, loader, fds⟩ := d
  obtain ⟨process', loader', fds'⟩ := d'
  obtain ⟨hprocess, hfds⟩ := hclear
  cases hprocess
  cases hfds
  simp only [initializeLoader_eq, dxgFd, dxgOpenCount, closeFd]
  split
  next =>
    split
    next => rfl
    next =>
      by_cases hneg : process.runtime.dxgFd < 0
      · cases a.dlopen && a.apis with
        | false => simp [hneg]
        | true => simp [hneg]
      · cases a.dlopen && a.apis with
        | false => simp [hneg]
        | true => simp [hneg]
  next => rfl

theorem closeKFD_fds (c : Connection) :
    c.closeKFD.2.fds = if c.dxgOpenCount = 1 then c.fds.filter (· ≠ c.dxgFd) else c.fds := by
  by_cases hcount : c.dxgOpenCount > 0
  · by_cases hone : c.dxgOpenCount = 1
    · simp [closeKFD, hone, closeFd]
    · have hpos : c.dxgOpenCount - 1 ≠ 0 := by omega
      simp [closeKFD, hcount, hpos, hone]
  · have hone : c.dxgOpenCount ≠ 1 := by omega
    simp [closeKFD, hcount, hone]

/-- The status of a call and what it leaves do not depend on the loader. -/
theorem SameView.call (h : c.SameView c') (e : ConnectionCall) :
    (c'.call e).1 = (c.call e).1 ∧ (c.call e).2.SameView (c'.call e).2 := by
  cases e with
  | openKFD a =>
      obtain ⟨hstatus, hprocess⟩ := c.openKFD_process a
      obtain ⟨hstatus', hprocess'⟩ := c'.openKFD_process a
      rw [h.process] at hstatus' hprocess'
      exact ⟨hstatus'.trans hstatus.symm, hprocess'.trans hprocess.symm, h.openKFD_fds a⟩
  | closeKFD =>
      obtain ⟨hstatus, hprocess⟩ := c.closeKFD_process
      obtain ⟨hstatus', hprocess'⟩ := c'.closeKFD_process
      rw [h.process] at hstatus' hprocess'
      refine ⟨hstatus'.trans hstatus.symm, hprocess'.trans hprocess.symm, ?_⟩
      show c'.closeKFD.2.fds = c.closeKFD.2.fds
      rw [closeKFD_fds, closeKFD_fds, dxgOpenCount, dxgOpenCount, dxgFd, dxgFd, h.process, h.fds]

theorem SameView.calls (h : c.SameView c') (es : List ConnectionCall) :
    (c'.calls es).1 = (c.calls es).1 ∧ (c.calls es).2.SameView (c'.calls es).2 := by
  induction es generalizing c c' with
  | nil => exact ⟨rfl, h⟩
  | cons e es ih =>
      obtain ⟨hstatus, hview⟩ := h.call e
      obtain ⟨hrest, hlast⟩ := ih hview
      simp only [Connection.calls, hstatus, hrest]
      exact ⟨trivial, hlast⟩

/-! ## Runs -/

/-- A list of numbers keeps those that are not the one of no descriptor. -/
theorem Inv.filter_none (I : c.Inv) : c.fds.filter (· ≠ -1) = c.fds := by
  refine List.filter_eq_self.mpr ?_
  intro fd hfd
  have hnonneg := I.nonneg fd hfd
  simp only [ne_eq, decide_eq_true_eq]
  omega

/-- A new descriptor that is closed at once leaves the others. -/
theorem filter_new {fds : List Int} {fd : Int} (hnew : fd ∉ fds) :
    (fd :: fds).filter (· ≠ fd) = fds := by
  rw [List.filter_cons_of_neg (by simp)]
  refine List.filter_eq_self.mpr ?_
  intro x hx
  have hne : x ≠ fd := fun heq => hnew (heq ▸ hx)
  simpa using hne

/-- What an open does in a process that has not forked. -/
theorem Inv.openKFD_cases (I : c.Inv) (hp : c.Possible (.openKFD a)) :
    (c.dxgOpenCount = 0 ∧ c.dxgFd < 0 ∧ a.deviceFd = -1 ∧
        c.openKFD a = (.kernelIoChannelNotOpened, c)) ∨
      (c.dxgOpenCount = 0 ∧ (a.dlopen && a.apis) = false ∧ (c.dxgFd < 0 → a.deviceFd ≠ -1) ∧
        (c.openKFD a).1 = .error ∧ (c.openKFD a).2.fds = c.fds ∧
        (c.openKFD a).2.process = { c.process with runtime :=
          { c.process.runtime with dxgFd := if c.dxgFd < 0 then a.deviceFd else c.dxgFd } }) ∨
      (c.dxgOpenCount = 0 ∧ (a.dlopen && a.apis) = true ∧ (c.dxgFd < 0 → a.deviceFd ≠ -1) ∧
        (c.openKFD a).1 = .success ∧
        (c.openKFD a).2.fds = (if c.dxgFd < 0 then a.deviceFd :: c.fds else c.fds) ∧
        (c.openKFD a).2.process = { c.process with
          runtime := { c.process.runtime with
            dxgFd := if c.dxgFd < 0 then a.deviceFd else c.dxgFd
            dxgOpenCount := 1 }
          atforkInstalled := true }) ∨
      (c.dxgOpenCount ≠ 0 ∧ (c.openKFD a).1 = .kernelAlreadyOpened ∧
        (c.openKFD a).2.fds = c.fds ∧
        (c.openKFD a).2.process = { c.process with
          runtime := { c.process.runtime with dxgOpenCount := u64 (c.dxgOpenCount + 1) } }) := by
  have hunforked := I.unforked
  by_cases hcount : c.dxgOpenCount = 0
  · by_cases hneg : c.dxgFd < 0
    · by_cases hfd : a.deviceFd = -1
      · exact .inl ⟨hcount, hneg, hfd, by simp [openKFD, hunforked, hcount, hneg, hfd]⟩
      · have hnew : a.deviceFd ∉ c.fds := (hp.resolve_left hfd).2
        cases hload : a.dlopen && a.apis with
        | false =>
            refine .inr (.inl ⟨hcount, rfl, fun _ => hfd, ?_⟩)
            have hfilter := filter_new hnew
            refine ⟨?_, ?_, ?_⟩
            · simp [openKFD, hunforked, hcount, hneg, hfd, initializeLoader_eq, hload]
            · simpa [openKFD, hunforked, hcount, hneg, hfd, initializeLoader_eq, hload, closeFd]
                using hfilter
            · simp [openKFD, hunforked, hcount, hneg, hfd, initializeLoader_eq, hload, closeFd]
        | true =>
            refine .inr (.inr (.inl ⟨hcount, rfl, fun _ => hfd, ?_⟩))
            simp [openKFD, hunforked, hcount, hneg, hfd, initializeLoader_eq, hload]
    · cases hload : a.dlopen && a.apis with
      | false =>
          refine .inr (.inl ⟨hcount, rfl, fun h => absurd h hneg, ?_⟩)
          have hfilter := I.filter_none
          refine ⟨?_, ?_, ?_⟩
          · simp [openKFD, hunforked, hcount, hneg, initializeLoader_eq, hload]
          · simpa [openKFD, hunforked, hcount, hneg, initializeLoader_eq, hload, closeFd]
              using hfilter
          · simp [openKFD, hunforked, hcount, hneg, initializeLoader_eq, hload, closeFd]
            rfl
      | true =>
          refine .inr (.inr (.inl ⟨hcount, rfl, fun h => absurd h hneg, ?_⟩))
          refine ⟨?_, ?_, ?_⟩
          · simp [openKFD, hunforked, hcount, hneg, initializeLoader_eq, hload]
          · simp [openKFD, hunforked, hcount, hneg, initializeLoader_eq, hload]
          · simp [openKFD, hunforked, hcount, hneg, initializeLoader_eq, hload]
            rfl
  · refine .inr (.inr (.inr ⟨hcount, ?_⟩))
    simp [openKFD, hunforked, hcount]

theorem inv_new {fds : List Int} {pid : Nat} (hfds : ∀ fd ∈ fds, 0 ≤ fd) : (new fds pid).Inv where
  unforked := by simp [new, Process.new, Process.isForkedChild]
  nonneg := hfds
  fdOpen := .inl rfl
  opened := fun h => absurd rfl h

/-- A number that is not negative is that of an open descriptor. -/
theorem Inv.mem_of_nonneg (I : c.Inv) (h : ¬ c.dxgFd < 0) : c.dxgFd ∈ c.fds := by
  rcases I.fdOpen with hnone | hmem
  · omega
  · exact hmem

/-- The library does not load only where there was nothing to open. -/
theorem dxgFd_of_regular (hreg : c.Regular (.openKFD a)) (hcount : c.dxgOpenCount = 0)
    (hload : (a.dlopen && a.apis) = false) (hfd : c.dxgFd < 0 → a.deviceFd ≠ -1) :
    ¬ c.dxgFd < 0 := by
  intro hneg
  obtain ⟨hdlopen, hapis⟩ := hreg hcount hneg (hfd hneg)
  rw [hdlopen, hapis] at hload
  cases hload

theorem Inv.openKFD (I : c.Inv) (hp : c.Possible (.openKFD a)) (hreg : c.Regular (.openKFD a)) :
    (c.openKFD a).2.Inv := by
  rcases I.openKFD_cases hp with ⟨_, _, _, heq⟩ | ⟨hcount, hload, hfd, _, hfds, hprocess⟩ |
    ⟨hcount, hload, hfd, _, hfds, hprocess⟩ | ⟨hcount, _, hfds, hprocess⟩
  · rw [heq]
    exact I
  · have hneg := dxgFd_of_regular hreg hcount hload hfd
    have hmem := I.mem_of_nonneg hneg
    refine ⟨?_, ?_, .inr ?_, fun _ => ?_⟩
    · rw [hprocess]
      exact I.unforked
    · rw [hfds]
      exact I.nonneg
    · rw [dxgFd, hprocess, hfds]
      simpa [hneg] using hmem
    · rw [dxgFd, hprocess, hfds]
      simpa [hneg] using hmem
  · have hmem : (c.openKFD a).2.dxgFd ∈ (c.openKFD a).2.fds := by
      rw [dxgFd, hprocess, hfds]
      by_cases hneg : c.dxgFd < 0
      · simp [hneg]
      · simpa [hneg] using I.mem_of_nonneg hneg
    refine ⟨?_, ?_, .inr hmem, fun _ => hmem⟩
    · rw [hprocess]
      exact I.unforked
    · rw [hfds]
      intro fd hmem
      split at hmem
      next hneg =>
        rcases List.mem_cons.mp hmem with heq | hold
        · exact heq ▸ (hp.resolve_left (hfd hneg)).1
        · exact I.nonneg fd hold
      next => exact I.nonneg fd hmem
  · have hmem := I.opened hcount
    refine ⟨?_, ?_, .inr ?_, fun _ => ?_⟩
    · rw [hprocess]
      exact I.unforked
    · rw [hfds]
      exact I.nonneg
    · rw [dxgFd, hprocess, hfds]
      exact hmem
    · rw [dxgFd, hprocess, hfds]
      exact hmem

theorem Inv.closeKFD (I : c.Inv) : c.closeKFD.2.Inv := by
  by_cases hcount : c.dxgOpenCount > 0
  · by_cases hzero : c.dxgOpenCount - 1 = 0
    · simp only [Connection.closeKFD, if_pos hcount, if_pos hzero]
      refine ⟨I.unforked, ?_, .inl rfl, fun h => absurd rfl h⟩
      intro fd hfd
      exact I.nonneg fd (List.mem_of_mem_filter hfd)
    · simp only [Connection.closeKFD, if_pos hcount, if_neg hzero]
      have hmem := I.opened (Nat.ne_of_gt hcount)
      exact ⟨I.unforked, I.nonneg, .inr hmem, fun _ => hmem⟩
  · simp only [Connection.closeKFD, if_neg hcount]
    exact I

theorem step_inv (I : c.Inv) (hreg : c.Regular e) (h : c.step e = some c') : c'.Inv := by
  rw [step] at h
  split at h
  next hp =>
    cases h
    cases e with
    | openKFD a => exact I.openKFD hp hreg
    | closeKFD => exact I.closeKFD
  next => cases h

/-- What an open that fails leaves behind. -/
theorem Inv.undone_iff (I : c.Inv) (hp : c.Possible (.openKFD a)) (hfail : c.Fails a) :
    c.Undone a ↔ c.Regular (.openKFD a) := by
  obtain ⟨hsuccess, halready⟩ := hfail
  rcases I.openKFD_cases hp with ⟨hcount, hneg, hfd, heq⟩ |
    ⟨hcount, hload, hfd, _, hfds, hprocess⟩ | ⟨_, _, _, hstatus, _⟩ | ⟨_, hstatus, _⟩
  · refine ⟨fun _ _ _ h => absurd hfd h, fun _ => ?_⟩
    refine ⟨?_, ?_, ?_, ?_, ?_⟩
    · rw [heq]
    · rw [heq]
    · rw [heq]
      exact I.fdOpen
    · intro es
      rw [heq]
    · intro es
      rw [heq]
      exact ⟨rfl, rfl⟩
  · constructor
    · intro U _ hneg hopened
      -- the number of the closed descriptor has replaced the one of none
      have hstored := U.fd
      have hopen := (hp.resolve_left hopened).1
      rw [dxgFd, hprocess] at hstored
      simp only [hneg, if_true] at hstored
      omega
    · intro hreg
      have hneg := dxgFd_of_regular hreg hcount hload hfd
      have hsame : (c.openKFD a).2.process = c.process := by
        rw [hprocess, if_neg hneg]
        rfl
      have hview : c.SameView (c.openKFD a).2 := ⟨hsame, hfds⟩
      refine ⟨?_, ?_, ?_, ?_, ?_⟩
      · rw [dxgOpenCount, hsame, dxgOpenCount]
      · rw [dxgFd, hsame, dxgFd]
      · rw [FdOpen, dxgFd, hsame, hfds]
        exact I.fdOpen
      · intro es
        exact (hview.calls es).1
      · intro es
        exact (hview.calls es).2
  · exact absurd hstatus hsuccess
  · exact absurd hstatus halready

/-- In every run in which the library loads whenever the device node was opened for it, the
number in the runtime is that of an open descriptor, and an open that fails is undone exactly
if it does not break that rule. -/
theorem failed_open_undone {fds : List Int} {pid : Nat} (hfds : ∀ fd ∈ fds, 0 ≤ fd)
    (h : Reach step Regular (new fds pid) c) :
    c.FdOpen ∧
      ∀ a, c.Possible (.openKFD a) → c.Fails a → (c.Undone a ↔ c.Regular (.openKFD a)) := by
  have hinv : c.Inv := by
    refine h.invariant (inv_new hfds) ?_
    intro c e c' hc hok hstep
    exact step_inv hc hok hstep
  exact ⟨hinv.fdOpen, fun a hp hfail => hinv.undone_iff hp hfail⟩

/-- After a close, an open for which there is no device node fails and is undone. -/
theorem failed_open_undone_run :
    ∃ c, Reach step Regular (new [0, 1, 2] 1) c ∧ c.Fails ⟨-1, true, true⟩ ∧
      c.Undone ⟨-1, true, true⟩ := by
  have hrun : (runAll step Regular (new [0, 1, 2] 1)
      [.openKFD ⟨3, true, true⟩, .closeKFD]).map (fun c =>
        (decide (c.Possible (.openKFD ⟨-1, true, true⟩)), decide (c.Fails ⟨-1, true, true⟩),
          decide (c.Regular (.openKFD ⟨-1, true, true⟩)))) = some (true, true, true) := by
    decide
  obtain ⟨c, hc, heq⟩ := Option.map_eq_some_iff.mp hrun
  simp only [Prod.mk.injEq, decide_eq_true_eq] at heq
  obtain ⟨hp, hfail, hreg⟩ := heq
  have hreach := reach_of_runAll hc
  exact ⟨c, hreach, hfail, ((failed_open_undone (by decide) hreach).2 _ hp hfail).mpr hreg⟩

/-- The device node is opened, the library does not load, and the next open succeeds with the
number of the descriptor that was closed. -/
theorem closed_number_kept :
    ¬ ∀ c, Reach step (fun _ _ => True) (new [0, 1, 2] 1) c →
      c.FdOpen ∧ ∀ a, c.Possible (.openKFD a) → c.Fails a → c.Undone a := by
  intro hall
  have hrun : (runAll step (fun _ _ => True) (new [0, 1, 2] 1)
      [.openKFD ⟨3, false, true⟩, .openKFD ⟨3, true, true⟩]).map
        (fun c => (c.dxgFd, c.fds, c.dxgOpenCount)) = some (3, [0, 1, 2], 1) := by
    decide
  obtain ⟨c, hc, heq⟩ := Option.map_eq_some_iff.mp hrun
  simp only [Prod.mk.injEq] at heq
  obtain ⟨hfd, hfds, _⟩ := heq
  have hopen := (hall c (reach_of_runAll hc)).1
  rw [FdOpen, hfd, hfds] at hopen
  revert hopen
  decide

end Connection

end RocDxg
