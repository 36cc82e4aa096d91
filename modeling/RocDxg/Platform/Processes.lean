import Mathlib.Data.List.DropRight
import Mathlib.Data.UInt
import RocDxg.Lib.Buffer
import RocDxg.Lib.Tally
import RocDxg.Platform.Smi

/-!
# GPU processes

The queries of processes of `amd_smi.cc`, on a library that is initialised:
`amdsmi_get_gpu_compute_process_info`, `amdsmi_get_gpu_compute_process_info_by_pid`,
`amdsmi_get_gpu_compute_process_gpus` and `amdsmi_get_gpu_process_list`.  What the host answers to
`EnumGpuProcesses` on a device is data of the model, and so are the links `/proc/<pid>/exe` and the
order in which an `unordered_map` is gone through.

The first three go through the devices each in its own way.  Here they are brought to the list of
all reports, device by device: the map is the tally of the reports (`pidVramMap_eq`), the scan for
a process its running total (`scanPid_eq`) and the devices are those that report the process
(`matchingDevs_eq`).
-/

namespace RocDxg

open Lib (Buffer Tally)
open Lib.Tally (Reported runningTotal reported_cons)

/-- `thunk_proxy::GpuProcessInfo` -/
structure GpuProcessInfo where
  winPid : UInt32
  /-- UINT64_MAX if it is not known. -/
  vramUsageBytes : UInt64
deriving DecidableEq, Repr

/-- What `EnumGpuProcesses` on a device gives: its code and the list that it leaves. -/
structure Enumeration where
  code : ErrorCode
  gplist : List GpuProcessInfo
deriving DecidableEq, Repr

/-- `amdsmi_process_info_t` -/
structure ProcessInfo where
  processId : UInt32
  /-- In MB. -/
  vramUsage : UInt64
  sdmaUsage : UInt64 := 0
  cuOccupancy : UInt32 := 0
  evictedTime : UInt32 := 0
deriving DecidableEq, Repr

/-- `engine_usage_` -/
structure EngineUsage where
  gfx : UInt64
  enc : UInt64
deriving DecidableEq, Repr

/-- `memory_usage_` -/
structure MemoryUsage where
  gttMem : UInt64
  cpuMem : UInt64
  vramMem : UInt64
deriving DecidableEq, Repr

/-- `amdsmi_proc_info_t`, without its reserved words. -/
structure ProcInfo where
  name : List Char
  pid : UInt32
  mem : UInt64
  engineUsage : EngineUsage
  memoryUsage : MemoryUsage
  containerName : List Char := []
  cuOccupancy : UInt32
  evictedTime : UInt32
  sdmaUsage : UInt64
deriving DecidableEq, Repr

namespace Processes

/-- `UINT32_MAX` -/
def uint32Max : UInt32 := 0xffffffff

/-- `UINT64_MAX` -/
def uint64Max : UInt64 := 0xffffffffffffffff

/-- What a query leaves behind: its status, the count and the entries.  A pointer that is null has
nothing behind it. -/
structure Answer (β : Type v) where
  status : SmiStatus
  count : Option UInt32
  entries : Option (Buffer β)

/-- The call succeeded, with all items in the buffer and their count. -/
structure Complete {β : Type v} (items : List β) (r : Answer β) : Prop where
  status : r.status = .success
  count : ∃ n, r.count = some n ∧ n.toNat = items.length
  entries : ∃ b, r.entries = some b ∧ b.read items.length = items

/-- Nothing behind the capacity was touched. -/
def Kept {β : Type v} (capacity : UInt32) (b : Buffer β) (r : Answer β) : Prop :=
  ∃ b', r.entries = some b' ∧ ∀ i, capacity.toNat ≤ i → b' i = b i

/-- What was found of a call is all that there is. -/
theorem Complete.unique {β : Type v} {items items' : List β} {r : Answer β}
    (h : Complete items r) (h' : Complete items' r) : items = items' := by
  obtain ⟨n, hn, hlen⟩ := h.count
  obtain ⟨n', hn', hlen'⟩ := h'.count
  obtain ⟨b, hb, hread⟩ := h.entries
  obtain ⟨b', hb', hread'⟩ := h'.entries
  cases hn.symm.trans hn'
  cases hb.symm.trans hb'
  rw [← hread, ← hread', ← hlen, ← hlen']

/-- A loop that fills a buffer large enough. -/
theorem complete_fill {β : Type v} {items : List β} {capacity : UInt32}
    (h : items.length ≤ capacity.toNat) (b : Buffer β) :
    Complete items ⟨.success, some (UInt32.ofNat items.length),
      some (Buffer.fill capacity.toNat items 0 b)⟩ where
  status := rfl
  count := ⟨_, rfl, UInt32.toNat_ofNat_of_lt' (Nat.lt_of_le_of_lt h capacity.toNat_lt)⟩
  entries := ⟨_, rfl, Buffer.read_fill h⟩

/-- The loop stops at the capacity. -/
theorem kept_fill {β : Type v} (items : List β) (capacity : UInt32) (b : Buffer β)
    (status : SmiStatus) (n : Option UInt32) :
    Kept capacity b ⟨status, n, some (Buffer.fill capacity.toNat items 0 b)⟩ :=
  ⟨_, rfl, fun _ hi => Buffer.fill_of_le hi⟩

theorem kept_self {β : Type v} (capacity : UInt32) (b : Buffer β) (status : SmiStatus)
    (n : Option UInt32) : Kept capacity b ⟨status, n, some b⟩ := ⟨b, rfl, fun _ _ => rfl⟩

/-! ## The processes of all devices -/

/-- The map of the bytes of each process. -/
def pidVramMap (devices : List Enumeration) : Tally UInt32 UInt64 :=
  devices.foldl (fun pidVramMap device =>
    if device.code ≠ .success then pidVramMap
    else device.gplist.foldl (fun pidVramMap gp =>
      pidVramMap.add (gp.winPid, gp.vramUsageBytes)) pidVramMap) ∅

/-- The entry for a process. -/
def processInfo (pid : UInt32) (vramBytes : UInt64) : ProcessInfo :=
  { processId := pid, vramUsage := vramBytes / (1024 * 1024) }

/-- `amdsmi_get_gpu_compute_process_info` -/
def amdsmiGetGpuComputeProcessInfo (order : Tally.Iteration UInt32 UInt64)
    (devices : List Enumeration) (procs : Option (Buffer ProcessInfo)) (numItems : Option UInt32) :
    Answer ProcessInfo :=
  match numItems with
  | none => ⟨.inval, none, procs⟩
  | some numItems =>
      let pidVramMap := pidVramMap devices
      let total := UInt32.ofNat pidVramMap.entries.length
      match procs with
      | none => ⟨.success, some total, none⟩
      | some procs =>
          let items := (order.run pidVramMap).map fun x => processInfo x.1 x.2
          ⟨.success, some total, some (Buffer.fill numItems.toNat items 0 procs)⟩

/-- The loops of `amdsmi_get_gpu_compute_process_info_by_pid`: whether the process was found, and
its bytes. -/
def scanPid (pid : UInt32) (devices : List Enumeration) : Bool × UInt64 :=
  devices.foldl (fun acc device =>
    if device.code ≠ .success then acc
    else device.gplist.foldl (fun acc gp =>
      if gp.winPid = pid then (true, acc.2 + gp.vramUsageBytes) else acc) acc) (false, 0)

/-- `amdsmi_get_gpu_compute_process_info_by_pid`: the status and what is behind `proc`. -/
def amdsmiGetGpuComputeProcessInfoByPid (devices : List Enumeration) (pid : UInt32)
    (proc : Option ProcessInfo) : SmiStatus × Option ProcessInfo :=
  match proc with
  | none => (.inval, none)
  | some proc =>
      let (found, totalVram) := scanPid pid devices
      if found = false then (.notFound, some proc)
      else (.success, some (processInfo pid totalVram))

/-- The devices with a process, from an index on. -/
def matchingDevs (pid : UInt32) : List Enumeration → Nat → List UInt32
  | [], _ => []
  | device :: devices, i =>
      if device.code ≠ .success then matchingDevs pid devices (i + 1)
      else if device.gplist.any fun gp => gp.winPid = pid then
        UInt32.ofNat i :: matchingDevs pid devices (i + 1)
      else matchingDevs pid devices (i + 1)

/-- `amdsmi_get_gpu_compute_process_gpus` -/
def amdsmiGetGpuComputeProcessGpus (devices : List Enumeration) (pid : UInt32)
    (dvIndices : Option (Buffer UInt32)) (numDevices : Option UInt32) : Answer UInt32 :=
  match numDevices with
  | none => ⟨.inval, none, dvIndices⟩
  | some numDevices =>
      let matchingDevs := matchingDevs pid devices 0
      let found := UInt32.ofNat matchingDevs.length
      match dvIndices with
      | none => ⟨.success, some found, none⟩
      | some dvIndices =>
          ⟨.success, some found, some (Buffer.fill numDevices.toNat matchingDevs 0 dvIndices)⟩

/-! ## The processes of a device -/

/-- The name for a process: what follows the last slash of the link, at most 255 characters of it.
`readlink` gives the target of `/proc/<pid>/exe`, if there is one, and `PATH_MAX - 1` characters of
it are read. -/
def processName (readlink : UInt32 → Option (List Char)) (pid : UInt32) : List Char :=
  let exeReal := ((readlink pid).getD []).take (4096 - 1)
  let name := if exeReal = [] then "N/A".toList else exeReal.rtakeWhile (· ≠ '/')
  name.take (256 - 1)

/-- The entry of a list for a process. -/
def procInfo (readlink : UInt32 → Option (List Char)) (gp : GpuProcessInfo) : ProcInfo where
  name := processName readlink gp.winPid
  pid := gp.winPid
  mem := gp.vramUsageBytes
  engineUsage := ⟨uint64Max, uint64Max⟩
  memoryUsage := ⟨uint64Max, uint64Max, gp.vramUsageBytes⟩
  cuOccupancy := uint32Max
  evictedTime := uint32Max
  sdmaUsage := uint64Max

/-- `amdsmi_get_gpu_process_list` -/
def amdsmiGetGpuProcessList (readlink : UInt32 → Option (List Char))
    (device : Option Enumeration) (maxProcesses : Option UInt32)
    (list : Option (Buffer ProcInfo)) : Answer ProcInfo :=
  match maxProcesses, device with
  | none, _ => ⟨.inval, none, list⟩
  | some maxProcesses, none => ⟨.inval, some maxProcesses, list⟩
  | some maxProcesses, some device =>
      if device.code = .unSupported then ⟨.success, some 0, list⟩
      else if device.code ≠ .success then
        ⟨translateCodeToSmiStatus device.code, some maxProcesses, list⟩
      else
        let total := UInt32.ofNat device.gplist.length
        match list with
        | none => ⟨.success, some total, none⟩
        | some list =>
            -- the count alone is asked for
            if maxProcesses = 0 then ⟨.success, some total, some list⟩
            else
              let items := device.gplist.map (procInfo readlink)
              ⟨if maxProcesses ≥ total then .success else .outOfResources, some total,
                some (Buffer.fill maxProcesses.toNat items 0 list)⟩

/-! ## Reports -/

variable {devices : List Enumeration} {pid : UInt32}

/-- The process and the bytes of each entry of a device, none if its enumeration failed. -/
def reports (device : Enumeration) : List (UInt32 × UInt64) :=
  if device.code ≠ .success then []
  else device.gplist.map fun gp => (gp.winPid, gp.vramUsageBytes)

/-- The reports of all devices. -/
def allReports (devices : List Enumeration) : List (UInt32 × UInt64) := devices.flatMap reports

/-- The indices of the devices that report a process. -/
def reporting (devices : List Enumeration) (pid : UInt32) : List Nat :=
  (List.range devices.length).filter fun i => Reported ((devices[i]?.map reports).getD []) pid

/-- A loop over the entries of a device is one over its reports. -/
theorem foldl_reports {β : Type v} (f : β → UInt32 × UInt64 → β) (device : Enumeration) (acc : β) :
    (if device.code ≠ .success then acc
      else device.gplist.foldl (fun acc gp => f acc (gp.winPid, gp.vramUsageBytes)) acc) =
      (reports device).foldl f acc := by
  rw [reports]
  split
  next => rfl
  next => rw [List.foldl_map]

/-- The loop over the devices is one over all reports. -/
theorem foldl_allReports {β : Type v} (f : β → UInt32 × UInt64 → β) (acc : β) :
    devices.foldl (fun acc device =>
      if device.code ≠ .success then acc
      else device.gplist.foldl (fun acc gp => f acc (gp.winPid, gp.vramUsageBytes)) acc) acc =
      (allReports devices).foldl f acc := by
  simp only [foldl_reports]
  rw [allReports, List.foldl_flatMap]

theorem pidVramMap_eq (devices : List Enumeration) :
    pidVramMap devices = Tally.addAll ∅ (allReports devices) := foldl_allReports Tally.add ∅

/-- A scan of reports. -/
theorem foldl_scan (pid : UInt32) (xs : List (UInt32 × UInt64)) (found : Bool) (total : UInt64) :
    xs.foldl (fun acc x => if x.1 = pid then (true, acc.2 + x.2) else acc) (found, total) =
      (found || decide (Reported xs pid), runningTotal pid total xs) := by
  induction xs generalizing found total with
  | nil => simp [Reported, runningTotal]
  | cons x xs ih =>
      rw [List.foldl_cons, runningTotal]
      by_cases hx : x.1 = pid
      · simp only [hx, if_true, ih, reported_cons, true_or, decide_true, Bool.or_true, Bool.true_or]
      · simp only [hx, if_false, ih, reported_cons, false_or]

theorem scanPid_eq (pid : UInt32) (devices : List Enumeration) :
    scanPid pid devices = (decide (Reported (allReports devices) pid),
      runningTotal pid 0 (allReports devices)) := by
  have hloop : scanPid pid devices = (allReports devices).foldl
      (fun acc x => if x.1 = pid then (true, acc.2 + x.2) else acc) (false, 0) :=
    foldl_allReports (fun acc x => if x.1 = pid then (true, acc.2 + x.2) else acc) (false, 0)
  rw [hloop, foldl_scan, Bool.false_or]

/-- Whether a device is counted. -/
theorem matches_iff (device : Enumeration) :
    (device.code = .success ∧ device.gplist.any (fun gp => gp.winPid = pid) = true) ↔
      Reported (reports device) pid := by
  rw [reports]
  split
  next h => simp [h, Reported]
  next h => simp [not_not.mp h, Reported]

theorem matchingDevs_cons (device : Enumeration) (i : Nat) :
    matchingDevs pid (device :: devices) i =
      if Reported (reports device) pid then UInt32.ofNat i :: matchingDevs pid devices (i + 1)
      else matchingDevs pid devices (i + 1) := by
  rw [matchingDevs]
  simp only [← matches_iff]
  by_cases hcode : device.code = .success
  · simp [hcode]
  · simp [hcode]

theorem reporting_cons (device : Enumeration) :
    reporting (device :: devices) pid =
      if Reported (reports device) pid then 0 :: (reporting devices pid).map (· + 1)
      else (reporting devices pid).map (· + 1) := by
  rw [reporting, List.length_cons, List.range_succ_eq_map, List.filter_cons, List.filter_map]
  simp only [List.getElem?_cons_zero, Option.map_some, Option.getD_some, decide_eq_true_eq]
  rfl

theorem matchingDevs_from (devices : List Enumeration) (k : Nat) :
    matchingDevs pid devices k = (reporting devices pid).map fun i => UInt32.ofNat (k + i) := by
  induction devices generalizing k with
  | nil => rfl
  | cons device devices ih =>
      have hshift : (reporting devices pid).map (fun i => UInt32.ofNat (k + 1 + i)) =
          ((reporting devices pid).map (· + 1)).map fun i => UInt32.ofNat (k + i) := by
        rw [List.map_map]
        exact List.map_congr_left fun i _ => congrArg _ (by simp; omega)
      rw [matchingDevs_cons, reporting_cons, ih, hshift]
      split
      next => rfl
      next => rfl

/-- The devices of a process are those that report it. -/
theorem matchingDevs_eq (pid : UInt32) (devices : List Enumeration) :
    matchingDevs pid devices 0 = (reporting devices pid).map UInt32.ofNat := by
  rw [matchingDevs_from]
  exact List.map_congr_left fun i _ => congrArg _ (Nat.zero_add i)

end Processes

end RocDxg
