import RocDxg.Platform.ProcessViews

/-!
# Process buffers

The count that a caller passes is the capacity of its buffer, and the one that it gets back is the
number of entries there are.  None of the three queries touches what is behind the capacity, and
with room for everything each of them writes everything and says so.  The list of the processes of
a device says when there is no room, except that a capacity of zero asks for the count alone.
-/

namespace RocDxg

open Lib (Buffer Tally)

namespace Processes

variable {devices : List Enumeration} {device : Enumeration} {pid maxProcesses : UInt32}
  {readlink : UInt32 → Option (List Char)} {list : Buffer ProcInfo}

/-- The processes of a device, as far as it can be asked. -/
def population (device : Enumeration) : List GpuProcessInfo :=
  if device.code = .success then device.gplist else []

/-- An error is not turned into a success. -/
theorem translate_ne_success {code : ErrorCode} (h : code ≠ .success) :
    translateCodeToSmiStatus code ≠ .success := by
  cases code with
  | success => exact absurd rfl h
  | _ => exact fun hstatus => nomatch hstatus

theorem list_eq (h : device.code = .success) (hmax : maxProcesses ≠ 0) :
    amdsmiGetGpuProcessList readlink (some device) (some maxProcesses) (some list) =
      ⟨if maxProcesses ≥ UInt32.ofNat device.gplist.length then .success else .outOfResources,
        some (UInt32.ofNat device.gplist.length),
        some (Buffer.fill maxProcesses.toNat (device.gplist.map (procInfo readlink)) 0 list)⟩ := by
  simp [amdsmiGetGpuProcessList, h, hmax]

/-- With a capacity of zero the count is asked for. -/
theorem list_zero (h : device.code = .success) :
    amdsmiGetGpuProcessList readlink (some device) (some 0) (some list) =
      ⟨.success, some (UInt32.ofNat device.gplist.length), some list⟩ := by
  simp [amdsmiGetGpuProcessList, h]

/-- What happens if the processes cannot be enumerated. -/
theorem list_of_failure (h : device.code ≠ .success) :
    amdsmiGetGpuProcessList readlink (some device) (some maxProcesses) (some list) =
      if device.code = .unSupported then ⟨.success, some 0, some list⟩
      else ⟨translateCodeToSmiStatus device.code, some maxProcesses, some list⟩ := by
  simp [amdsmiGetGpuProcessList, h]

/-! ## Capacities -/

theorem info_kept (order : Tally.Iteration UInt32 UInt64) (devices : List Enumeration)
    (procs : Buffer ProcessInfo) (numItems : UInt32) :
    Kept numItems procs
      (amdsmiGetGpuComputeProcessInfo order devices (some procs) (some numItems)) := by
  rw [info_eq]
  exact kept_fill _ _ _ _ _

theorem gpus_kept (devices : List Enumeration) (pid : UInt32) (dvIndices : Buffer UInt32)
    (numDevices : UInt32) :
    Kept numDevices dvIndices
      (amdsmiGetGpuComputeProcessGpus devices pid (some dvIndices) (some numDevices)) := by
  rw [gpus_eq]
  exact kept_fill _ _ _ _ _

theorem list_kept (readlink : UInt32 → Option (List Char)) (device : Enumeration)
    (maxProcesses : UInt32) (list : Buffer ProcInfo) :
    Kept maxProcesses list
      (amdsmiGetGpuProcessList readlink (some device) (some maxProcesses) (some list)) := by
  by_cases h : device.code = .success
  · by_cases hmax : maxProcesses = 0
    · rw [hmax, list_zero h]
      exact kept_self _ _ _ _
    · rw [list_eq h hmax]
      exact kept_fill _ _ _ _ _
  · rw [list_of_failure h]
    split
    next => exact kept_self _ _ _ _
    next => exact kept_self _ _ _ _

/-! ## The list of a device -/

/-- When there is room for all processes. -/
theorem room_iff {n : Nat} (h : n < 2 ^ 32) :
    maxProcesses ≥ UInt32.ofNat n ↔ n ≤ maxProcesses.toNat := by
  rw [ge_iff_le, UInt32.le_iff_toNat_le, UInt32.toNat_ofNat_of_lt' h]

theorem list_complete (hmax : maxProcesses ≠ 0) (hlen : device.gplist.length < 2 ^ 32)
    (hstatus : (amdsmiGetGpuProcessList readlink (some device) (some maxProcesses)
      (some list)).status = .success) :
    Complete ((population device).map (procInfo readlink))
      (amdsmiGetGpuProcessList readlink (some device) (some maxProcesses) (some list)) := by
  by_cases h : device.code = .success
  · rw [list_eq h hmax] at hstatus ⊢
    rw [population, if_pos h]
    split at hstatus
    next hroom =>
      have hfits : (device.gplist.map (procInfo readlink)).length ≤ maxProcesses.toNat := by
        rw [List.length_map]
        exact (room_iff hlen).mp hroom
      have hcomplete := complete_fill hfits list
      rw [List.length_map] at hcomplete
      rw [if_pos hroom]
      exact hcomplete
    next => cases hstatus
  · rw [list_of_failure h] at hstatus ⊢
    rw [population, if_neg h, List.map_nil]
    split at hstatus
    next hsupported =>
      rw [if_pos hsupported]
      exact ⟨rfl, ⟨0, rfl, rfl⟩, ⟨list, rfl, rfl⟩⟩
    next => exact absurd hstatus (translate_ne_success h)

/-- A capacity other than zero is found too small exactly if it is. -/
theorem list_status (h : device.code = .success) (hmax : maxProcesses ≠ 0)
    (hlen : device.gplist.length < 2 ^ 32) :
    (amdsmiGetGpuProcessList readlink (some device) (some maxProcesses) (some list)).status =
      if device.gplist.length ≤ maxProcesses.toNat then .success else .outOfResources := by
  rw [list_eq h hmax]
  simp only [room_iff hlen]

/-- Buffers of a caller are not over-reported.  No query touches anything behind the capacity.  With
room for everything the list of all processes and the list of the devices of a process succeed with
all entries written.  So does the list of the processes of a device, with a capacity other than
zero and fewer than 2 ^ 32 processes; there a success means that nothing was left out, and
otherwise another status says so.  With a capacity of zero it gives the count. -/
theorem buffers_not_overreported :
    (∀ order devices procs numItems,
      Kept numItems procs
          (amdsmiGetGpuComputeProcessInfo order devices (some procs) (some numItems)) ∧
        ((reportedPids devices).length ≤ numItems.toNat → ∃ items,
          (items.map ProcessInfo.processId).Perm (reportedPids devices) ∧ Complete items
            (amdsmiGetGpuComputeProcessInfo order devices (some procs) (some numItems)))) ∧
    (∀ devices pid dvIndices numDevices,
      Kept numDevices dvIndices
          (amdsmiGetGpuComputeProcessGpus devices pid (some dvIndices) (some numDevices)) ∧
        ((reporting devices pid).length ≤ numDevices.toNat →
          Complete ((reporting devices pid).map UInt32.ofNat)
            (amdsmiGetGpuComputeProcessGpus devices pid (some dvIndices) (some numDevices)))) ∧
    ∀ readlink device maxProcesses list,
      Kept maxProcesses list
          (amdsmiGetGpuProcessList readlink (some device) (some maxProcesses) (some list)) ∧
        (maxProcesses ≠ 0 → device.gplist.length < 2 ^ 32 →
          ((amdsmiGetGpuProcessList readlink (some device) (some maxProcesses)
              (some list)).status = .success →
            Complete ((population device).map (procInfo readlink))
              (amdsmiGetGpuProcessList readlink (some device) (some maxProcesses) (some list))) ∧
          (device.code = .success →
            (amdsmiGetGpuProcessList readlink (some device) (some maxProcesses)
              (some list)).status =
              if device.gplist.length ≤ maxProcesses.toNat then .success else .outOfResources)) ∧
        (device.code = .success →
          amdsmiGetGpuProcessList readlink (some device) (some 0) (some list) =
            ⟨.success, some (UInt32.ofNat device.gplist.length), some list⟩) := by
  refine ⟨fun order devices procs numItems => ⟨info_kept order devices procs numItems,
      fun hroom => ⟨infoItems order devices, infoItems_perm order devices,
        info_complete order procs hroom⟩⟩,
    fun devices pid dvIndices numDevices => ⟨gpus_kept devices pid dvIndices numDevices,
      fun hroom => gpus_complete dvIndices hroom⟩,
    fun readlink device maxProcesses list => ⟨list_kept readlink device maxProcesses list,
      fun hmax hlen => ⟨list_complete hmax hlen, fun h => list_status h hmax hlen⟩, list_zero⟩⟩

/-- The entries of a map as they come. -/
def asTheyCome : Tally.Iteration UInt32 UInt64 where
  run t := t.entries.map fun e => (e.1, e.2)
  perm _ := .refl _

/-- Two processes on a device, with room for both of them, and with room for one. -/
theorem buffers_not_overreported_sample :
    (∃ items, (items.map ProcessInfo.processId).Perm
        (reportedPids [⟨.success, [⟨7, 1⟩, ⟨8, 2⟩]⟩]) ∧
      Complete items (amdsmiGetGpuComputeProcessInfo asTheyCome [⟨.success, [⟨7, 1⟩, ⟨8, 2⟩]⟩]
        (some fun _ => ⟨9, 9, 9, 9, 9⟩) (some 2))) ∧
    Complete [0] (amdsmiGetGpuComputeProcessGpus [⟨.success, [⟨7, 1⟩, ⟨8, 2⟩]⟩] 8
      (some fun _ => 9) (some 1)) ∧
    (amdsmiGetGpuProcessList (fun _ => none) (some ⟨.success, [⟨7, 1⟩, ⟨8, 2⟩]⟩) (some 2)
      (some fun _ => procInfo (fun _ => none) ⟨9, 9⟩)).status = .success ∧
    (amdsmiGetGpuProcessList (fun _ => none) (some ⟨.success, [⟨7, 1⟩, ⟨8, 2⟩]⟩) (some 1)
      (some fun _ => procInfo (fun _ => none) ⟨9, 9⟩)).status = .outOfResources := by
  obtain ⟨hinfo, hgpus, hlist⟩ := buffers_not_overreported
  have htwo := (hlist (fun _ => none) ⟨.success, [⟨7, 1⟩, ⟨8, 2⟩]⟩ 2
    fun _ => procInfo (fun _ => none) ⟨9, 9⟩).2.1
  have hone := (hlist (fun _ => none) ⟨.success, [⟨7, 1⟩, ⟨8, 2⟩]⟩ 1
    fun _ => procInfo (fun _ => none) ⟨9, 9⟩).2.1
  have hindex := (hgpus [⟨.success, [⟨7, 1⟩, ⟨8, 2⟩]⟩] 8 (fun _ => 9) 1).2 (by decide)
  exact ⟨(hinfo asTheyCome _ _ 2).2 (by decide), hindex,
    (htwo (by decide) (by decide)).2 rfl, (hone (by decide) (by decide)).2 rfl⟩

/-- 2 ^ 32 processes are counted as none, and room for one is enough. -/
theorem list_wraps {gplist : List GpuProcessInfo} (h : gplist.length = 2 ^ 32) :
    (amdsmiGetGpuProcessList readlink (some ⟨.success, gplist⟩) (some 1) (some list)).status =
        .success ∧
      (amdsmiGetGpuProcessList readlink (some ⟨.success, gplist⟩) (some 1) (some list)).count =
        some 0 := by
  have hzero : UInt32.ofNat gplist.length = 0 := by
    rw [h]
    rfl
  rw [list_eq rfl (by decide), hzero]
  exact ⟨rfl, rfl⟩

/-- Successes that leave something out: the list of a device with one process and a capacity of
zero, and with 2 ^ 32 processes and a capacity of one; two processes, and two devices of a process,
with a capacity of one. -/
theorem buffers_overreported :
    amdsmiGetGpuProcessList (fun _ => none) (some ⟨.success, [⟨7, 1⟩]⟩) (some 0)
        (some fun _ => procInfo (fun _ => none) ⟨9, 9⟩) =
      ⟨.success, some 1, some fun _ => procInfo (fun _ => none) ⟨9, 9⟩⟩ ∧
    ((amdsmiGetGpuProcessList (fun _ => none) (some ⟨.success, .replicate (2 ^ 32) ⟨7, 1⟩⟩)
          (some 1) (some fun _ => procInfo (fun _ => none) ⟨9, 9⟩)).status = .success ∧
      (amdsmiGetGpuProcessList (fun _ => none) (some ⟨.success, .replicate (2 ^ 32) ⟨7, 1⟩⟩)
          (some 1) (some fun _ => procInfo (fun _ => none) ⟨9, 9⟩)).count = some 0) ∧
    ((amdsmiGetGpuComputeProcessInfo asTheyCome [⟨.success, [⟨7, 1⟩, ⟨8, 2⟩]⟩]
          (some fun _ => ⟨9, 9, 9, 9, 9⟩) (some 1)).status = .success ∧
      (amdsmiGetGpuComputeProcessInfo asTheyCome [⟨.success, [⟨7, 1⟩, ⟨8, 2⟩]⟩]
          (some fun _ => ⟨9, 9, 9, 9, 9⟩) (some 1)).count = some 2 ∧
      (amdsmiGetGpuComputeProcessInfo asTheyCome [⟨.success, [⟨7, 1⟩, ⟨8, 2⟩]⟩]
          (some fun _ => ⟨9, 9, 9, 9, 9⟩) (some 1)).entries.map (· 1) = some ⟨9, 9, 9, 9, 9⟩) ∧
    ((amdsmiGetGpuComputeProcessGpus [⟨.success, [⟨7, 1⟩]⟩, ⟨.success, [⟨7, 2⟩]⟩] 7
          (some fun _ => 9) (some 1)).status = .success ∧
      (amdsmiGetGpuComputeProcessGpus [⟨.success, [⟨7, 1⟩]⟩, ⟨.success, [⟨7, 2⟩]⟩] 7
          (some fun _ => 9) (some 1)).count = some 2 ∧
      (amdsmiGetGpuComputeProcessGpus [⟨.success, [⟨7, 1⟩]⟩, ⟨.success, [⟨7, 2⟩]⟩] 7
          (some fun _ => 9) (some 1)).entries.map (· 1) = some 9) :=
  ⟨list_zero rfl, list_wraps List.length_replicate, ⟨rfl, by decide, by decide⟩,
    ⟨rfl, by decide, by decide⟩⟩

end Processes

end RocDxg
