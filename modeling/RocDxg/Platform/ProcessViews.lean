import Mathlib.Algebra.BigOperators.Group.List.Basic
import RocDxg.Platform.Processes

/-!
# Three views of the processes

The list of all processes, the query for one of them and the list of its devices agree with one
another, whatever the devices report: each goes through the same reports, and the additions wrap
in the same way.  The number they agree on need not be the memory of the process.  UINT64_MAX stands
for bytes that are not known, and it is added like any other number: each such report takes one
byte away.  `views_agree_iff` says for which reports nothing is lost.
-/

namespace RocDxg

open Lib (Buffer Tally)
open Lib.Tally (Reported runningTotal reported_cons)

namespace Processes

variable {devices : List Enumeration} {pid : UInt32} {xs : List (UInt32 × UInt64)}

/-- The bytes that are reported for a process. -/
def amounts (xs : List (UInt32 × UInt64)) (pid : UInt32) : List UInt64 :=
  (xs.filter fun x => x.1 = pid).map (·.2)

/-- The sum of the bytes of a process that are known. -/
def knownBytes (devices : List Enumeration) (pid : UInt32) : Nat :=
  (((amounts (allReports devices) pid).filter (· ≠ uint64Max)).map (·.toNat)).sum

/-- How often the bytes of a process are not known. -/
def unknownCount (devices : List Enumeration) (pid : UInt32) : Nat :=
  (amounts (allReports devices) pid).count uint64Max

/-- The processes that some device reports, each of them once. -/
def reportedPids (devices : List Enumeration) : List UInt32 :=
  ((allReports devices).map Prod.fst).dedup

/-- The views of a process: with room for all processes the list has one entry for the process if
some device reports it, and no other, and that entry is the answer to the query for the process; its
memory is the sum of the known bytes; and with room for its devices exactly those that report it are
listed, in order. -/
structure ViewsAgree (devices : List Enumeration) (pid : UInt32) : Prop where
  entry : Reported (allReports devices) pid → ∀ proc, ∃ info,
    amdsmiGetGpuComputeProcessInfoByPid devices pid (some proc) = (.success, some info) ∧
      info.processId = pid ∧
      ∀ order procs numItems, (reportedPids devices).length ≤ numItems.toNat →
        ∃ items, Complete items
          (amdsmiGetGpuComputeProcessInfo order devices (some procs) (some numItems)) ∧
          items.filter (·.processId = pid) = [info]
  noEntry : ¬ Reported (allReports devices) pid → ∀ proc,
    amdsmiGetGpuComputeProcessInfoByPid devices pid (some proc) = (.notFound, some proc) ∧
      ∀ order procs numItems, (reportedPids devices).length ≤ numItems.toNat →
        ∃ items, Complete items
          (amdsmiGetGpuComputeProcessInfo order devices (some procs) (some numItems)) ∧
          items.filter (·.processId = pid) = []
  vram : ∀ proc info,
    amdsmiGetGpuComputeProcessInfoByPid devices pid (some proc) = (.success, some info) →
      info.vramUsage.toNat = knownBytes devices pid / 2 ^ 20
  gpus : ∀ dvIndices numDevices, (reporting devices pid).length ≤ numDevices.toNat →
    ∃ items, Complete items
      (amdsmiGetGpuComputeProcessGpus devices pid (some dvIndices) (some numDevices)) ∧
      items.map (·.toNat) = reporting devices pid

/-- What has to hold of the reports.  The devices of the process have indices of 32 bits, if there
can be a buffer for them at all.  The sum of the known bytes fits in 64 bits.  And taking a byte
away for each unknown value neither leaves the mebibyte of that sum nor, with very many of them,
comes back to another one. -/
structure Additive (devices : List Enumeration) (pid : UInt32) : Prop where
  indices : (reporting devices pid).length < 2 ^ 32 → ∀ i ∈ reporting devices pid, i < 2 ^ 32
  known : knownBytes devices pid < 2 ^ 64
  unknown : unknownCount devices pid % 2 ^ 64 ≤ knownBytes devices pid % 2 ^ 20 ∨
    2 ^ 64 + knownBytes devices pid % 2 ^ 20 < unknownCount devices pid % 2 ^ 64 + 2 ^ 20

/-! ## The sum -/

/-- The running total is the sum of all amounts, as far as it fits. -/
theorem toNat_runningTotal (xs : List (UInt32 × UInt64)) (total : UInt64) :
    (runningTotal pid total xs).toNat =
      (total.toNat + ((amounts xs pid).map (·.toNat)).sum) % 2 ^ 64 := by
  induction xs generalizing total with
  | nil => exact (Nat.mod_eq_of_lt total.toNat_lt).symm
  | cons x xs ih =>
      rw [runningTotal, ih]
      by_cases hx : x.1 = pid
      · have hamounts : amounts (x :: xs) pid = x.2 :: amounts xs pid := by simp [amounts, hx]
        rw [if_pos hx, hamounts, List.map_cons, List.sum_cons, UInt64.toNat_add, Nat.mod_add_mod,
          Nat.add_assoc]
      · have hamounts : amounts (x :: xs) pid = amounts xs pid := by simp [amounts, hx]
        rw [if_neg hx, hamounts]

/-- The sum splits into the known amounts and the others. -/
theorem sum_toNat (l : List UInt64) :
    (l.map (·.toNat)).sum =
      ((l.filter (· ≠ uint64Max)).map (·.toNat)).sum + l.count uint64Max * (2 ^ 64 - 1) := by
  induction l with
  | nil => rfl
  | cons a l ih =>
      rw [List.map_cons, List.sum_cons, ih, List.filter_cons, List.count_cons]
      by_cases ha : a = uint64Max
      · have hmax : uint64Max.toNat = 2 ^ 64 - 1 := rfl
        simp only [ha, ne_eq, not_true_eq_false, decide_false, Bool.false_eq_true, if_false,
          beq_self_eq_true, if_true, hmax, Nat.add_mul, Nat.one_mul]
        omega
      · simp only [ha, ne_eq, not_false_eq_true, decide_true, if_true, List.map_cons,
          List.sum_cons, beq_iff_eq, if_false, Nat.add_zero, Nat.add_assoc]

theorem toNat_total (devices : List Enumeration) (pid : UInt32) :
    (runningTotal pid 0 (allReports devices)).toNat =
      (knownBytes devices pid + unknownCount devices pid * (2 ^ 64 - 1)) % 2 ^ 64 := by
  rw [toNat_runningTotal, sum_toNat]
  exact congrArg (· % 2 ^ 64) (Nat.zero_add _)

theorem toNat_vramUsage (bytes : UInt64) :
    (processInfo pid bytes).vramUsage.toNat = bytes.toNat / 2 ^ 20 := UInt64.toNat_div _ _

/-- Adding UINT64_MAX takes one byte away. -/
theorem taken_away (k n : Nat) :
    ((k + n * (2 ^ 64 - 1)) % 2 ^ 64 + n % 2 ^ 64) % 2 ^ 64 = k % 2 ^ 64 := by
  have hsum : k + n * (2 ^ 64 - 1) + n = k + n * 2 ^ 64 := by
    rw [Nat.add_assoc, ← Nat.mul_add_one, Nat.sub_add_cancel (Nat.two_pow_pos 64)]
  rw [← Nat.add_mod, hsum, Nat.add_mul_mod_self_right]

/-- When a sum that lost a byte for each unknown value is in the same mebibyte. -/
theorem mebibytes_iff (k n : Nat) :
    (k + n * (2 ^ 64 - 1)) % 2 ^ 64 / 2 ^ 20 = k / 2 ^ 20 ↔
      k < 2 ^ 64 ∧ (n % 2 ^ 64 ≤ k % 2 ^ 20 ∨ 2 ^ 64 + k % 2 ^ 20 < n % 2 ^ 64 + 2 ^ 20) := by
  have hsum := taken_away k n
  have hlt : (k + n * (2 ^ 64 - 1)) % 2 ^ 64 < 2 ^ 64 := Nat.mod_lt _ (Nat.two_pow_pos 64)
  have hn : n % 2 ^ 64 < 2 ^ 64 := Nat.mod_lt _ (Nat.two_pow_pos 64)
  generalize (k + n * (2 ^ 64 - 1)) % 2 ^ 64 = s at hsum hlt ⊢
  generalize n % 2 ^ 64 = m at hsum hn ⊢
  by_cases hk : k < 2 ^ 64
  · rw [Nat.mod_eq_of_lt hk] at hsum
    rcases Nat.lt_or_ge (s + m) (2 ^ 64) with hfit | hwrap
    · rw [Nat.mod_eq_of_lt hfit] at hsum
      subst hsum
      omega
    · rw [Nat.mod_eq_sub_mod hwrap, Nat.mod_eq_of_lt (by omega)] at hsum
      have hk' : s + m = k + 2 ^ 64 := by omega
      omega
  · omega

/-! ## The queries -/

theorem byPid_eq (devices : List Enumeration) (pid : UInt32) (proc : ProcessInfo) :
    amdsmiGetGpuComputeProcessInfoByPid devices pid (some proc) =
      if Reported (allReports devices) pid then
        (.success, some (processInfo pid (runningTotal pid 0 (allReports devices))))
      else (.notFound, some proc) := by
  simp only [amdsmiGetGpuComputeProcessInfoByPid, scanPid_eq]
  by_cases h : Reported (allReports devices) pid
  · simp [h]
  · simp [h]

/-- The entries of all processes, in the order of the map. -/
def infoItems (order : Tally.Iteration UInt32 UInt64) (devices : List Enumeration) :
    List ProcessInfo :=
  (order.run (pidVramMap devices)).map fun x => processInfo x.1 x.2

/-- Each process that is reported has one entry. -/
theorem infoItems_perm (order : Tally.Iteration UInt32 UInt64) (devices : List Enumeration) :
    ((infoItems order devices).map (·.processId)).Perm (reportedPids devices) := by
  rw [infoItems, List.map_map, pidVramMap_eq]
  exact order.keys_addAll (allReports devices)

theorem length_infoItems (order : Tally.Iteration UInt32 UInt64) (devices : List Enumeration) :
    (infoItems order devices).length = (reportedPids devices).length := by
  rw [← (infoItems_perm order devices).length_eq, List.length_map]

/-- The entry of a process is its running total. -/
theorem filter_infoItems (order : Tally.Iteration UInt32 UInt64) (devices : List Enumeration)
    (pid : UInt32) :
    (infoItems order devices).filter (·.processId = pid) =
      if Reported (allReports devices) pid then
        [processInfo pid (runningTotal pid 0 (allReports devices))]
      else [] := by
  rw [infoItems, List.filter_map, pidVramMap_eq]
  have hfilter := order.filter_addAll (allReports devices) pid
  have hpred : ((fun info : ProcessInfo => decide (info.processId = pid)) ∘
      fun x : UInt32 × UInt64 => processInfo x.1 x.2) = fun x => decide (x.1 = pid) := rfl
  rw [hpred, hfilter]
  split
  next => rfl
  next => rfl

theorem info_eq (order : Tally.Iteration UInt32 UInt64) (devices : List Enumeration)
    (procs : Buffer ProcessInfo) (numItems : UInt32) :
    amdsmiGetGpuComputeProcessInfo order devices (some procs) (some numItems) =
      ⟨.success, some (UInt32.ofNat (infoItems order devices).length),
        some (Buffer.fill numItems.toNat (infoItems order devices) 0 procs)⟩ := by
  have hlen : (infoItems order devices).length = (pidVramMap devices).entries.length := by
    rw [infoItems, List.length_map, (order.perm _).length_eq, List.length_map]
  rw [hlen]
  rfl

theorem info_complete (order : Tally.Iteration UInt32 UInt64) (procs : Buffer ProcessInfo)
    {numItems : UInt32} (h : (reportedPids devices).length ≤ numItems.toNat) :
    Complete (infoItems order devices)
      (amdsmiGetGpuComputeProcessInfo order devices (some procs) (some numItems)) := by
  rw [info_eq]
  exact complete_fill (by rwa [length_infoItems]) procs

theorem gpus_eq (devices : List Enumeration) (pid : UInt32) (dvIndices : Buffer UInt32)
    (numDevices : UInt32) :
    amdsmiGetGpuComputeProcessGpus devices pid (some dvIndices) (some numDevices) =
      ⟨.success, some (UInt32.ofNat ((reporting devices pid).map UInt32.ofNat).length),
        some (Buffer.fill numDevices.toNat ((reporting devices pid).map UInt32.ofNat) 0
          dvIndices)⟩ := by
  rw [← matchingDevs_eq]
  rfl

theorem gpus_complete (dvIndices : Buffer UInt32) {numDevices : UInt32}
    (h : (reporting devices pid).length ≤ numDevices.toNat) :
    Complete ((reporting devices pid).map UInt32.ofNat)
      (amdsmiGetGpuComputeProcessGpus devices pid (some dvIndices) (some numDevices)) := by
  rw [gpus_eq]
  exact complete_fill (by rwa [List.length_map]) dvIndices

/-! ## Agreement -/

/-- The list and the query for a process agree, on every list of reports. -/
theorem entry_agrees (h : Reported (allReports devices) pid) (proc : ProcessInfo) :
    ∃ info, amdsmiGetGpuComputeProcessInfoByPid devices pid (some proc) = (.success, some info) ∧
      info.processId = pid ∧
      ∀ order procs numItems, (reportedPids devices).length ≤ numItems.toNat →
        ∃ items, Complete items
          (amdsmiGetGpuComputeProcessInfo order devices (some procs) (some numItems)) ∧
          items.filter (·.processId = pid) = [info] := by
  refine ⟨processInfo pid (runningTotal pid 0 (allReports devices)), ?_, rfl,
    fun order procs numItems hroom => ⟨_, info_complete order procs hroom, ?_⟩⟩
  · rw [byPid_eq, if_pos h]
  · rw [filter_infoItems, if_pos h]

theorem noEntry_agrees (h : ¬ Reported (allReports devices) pid) (proc : ProcessInfo) :
    amdsmiGetGpuComputeProcessInfoByPid devices pid (some proc) = (.notFound, some proc) ∧
      ∀ order procs numItems, (reportedPids devices).length ≤ numItems.toNat →
        ∃ items, Complete items
          (amdsmiGetGpuComputeProcessInfo order devices (some procs) (some numItems)) ∧
          items.filter (·.processId = pid) = [] := by
  constructor
  · rw [byPid_eq, if_neg h]
  · intro order procs numItems hroom
    refine ⟨_, info_complete order procs hroom, ?_⟩
    rw [filter_infoItems, if_neg h]

/-- Nothing is known or unknown of a process that no device reports. -/
theorem amounts_of_not_reported (h : ¬ Reported xs pid) : amounts xs pid = [] := by
  rw [amounts, List.filter_eq_nil_iff.mpr, List.map_nil]
  intro x hx hpid
  exact h (List.mem_map.mpr ⟨x, hx, of_decide_eq_true hpid⟩)

/-- When the memory is the sum of what is known. -/
theorem vram_iff :
    (∀ proc info,
      amdsmiGetGpuComputeProcessInfoByPid devices pid (some proc) = (.success, some info) →
        info.vramUsage.toNat = knownBytes devices pid / 2 ^ 20) ↔
      knownBytes devices pid < 2 ^ 64 ∧
        (unknownCount devices pid % 2 ^ 64 ≤ knownBytes devices pid % 2 ^ 20 ∨
          2 ^ 64 + knownBytes devices pid % 2 ^ 20 <
            unknownCount devices pid % 2 ^ 64 + 2 ^ 20) := by
  rw [← mebibytes_iff, ← toNat_total, ← toNat_vramUsage]
  by_cases h : Reported (allReports devices) pid
  · simp only [byPid_eq, if_pos h, Prod.mk.injEq, true_and, Option.some.injEq]
    constructor
    · intro hvram
      exact hvram ⟨0, 0, 0, 0, 0⟩ _ rfl
    · rintro hvram _ _ rfl
      exact hvram
  · have hknown : knownBytes devices pid = 0 := by
      rw [knownBytes, amounts_of_not_reported h]
      rfl
    simp only [byPid_eq, if_neg h, Prod.mk.injEq, reduceCtorEq, false_and, false_imp_iff,
      implies_true, true_iff]
    rw [Tally.runningTotal_of_not_reported h, hknown]
    rfl

/-- When an index survives its conversion. -/
theorem map_toNat_iff (l : List Nat) :
    (l.map UInt32.ofNat).map (·.toNat) = l ↔ ∀ i ∈ l, i < 2 ^ 32 := by
  have hiff : (l.map UInt32.ofNat).map (·.toNat) = l.map id ↔ ∀ i ∈ l, i % 2 ^ 32 = i := by
    rw [List.map_map]
    exact List.map_inj_left
  rw [List.map_id] at hiff
  rw [hiff]
  exact forall₂_congr fun i _ => Nat.mod_eq_iff_lt (by decide)

/-- When the devices are listed as they are. -/
theorem gpus_iff :
    (∀ dvIndices numDevices, (reporting devices pid).length ≤ numDevices.toNat →
      ∃ items, Complete items
        (amdsmiGetGpuComputeProcessGpus devices pid (some dvIndices) (some numDevices)) ∧
        items.map (·.toNat) = reporting devices pid) ↔
      ((reporting devices pid).length < 2 ^ 32 → ∀ i ∈ reporting devices pid, i < 2 ^ 32) := by
  rw [← map_toNat_iff]
  constructor
  · intro hgpus hlen
    have hroom : (UInt32.ofNat (reporting devices pid).length).toNat =
        (reporting devices pid).length := UInt32.toNat_ofNat_of_lt' hlen
    obtain ⟨items, hitems, hmap⟩ := hgpus (fun _ => 0) _ (Nat.le_of_eq hroom.symm)
    rw [hitems.unique (gpus_complete _ (Nat.le_of_eq hroom.symm))] at hmap
    exact hmap
  · intro hmap dvIndices numDevices hroom
    exact ⟨_, gpus_complete dvIndices hroom, hmap (Nat.lt_of_le_of_lt hroom numDevices.toNat_lt)⟩

/-- The views of a process agree and add up exactly if its reports are additive. -/
theorem views_agree_iff (devices : List Enumeration) (pid : UInt32) :
    ViewsAgree devices pid ↔ Additive devices pid := by
  constructor
  · rintro ⟨-, -, hvram, hgpus⟩
    obtain ⟨hknown, hunknown⟩ := vram_iff.mp hvram
    exact ⟨gpus_iff.mp hgpus, hknown, hunknown⟩
  · rintro ⟨hindices, hknown, hunknown⟩
    exact ⟨entry_agrees, noEntry_agrees, vram_iff.mpr ⟨hknown, hunknown⟩,
      gpus_iff.mpr hindices⟩

/-- A single report whose bytes are not known: 2 ^ 44 - 1 MB instead of none. -/
theorem views_disagree :
    ¬ ViewsAgree [⟨.success, [⟨42, uint64Max⟩]⟩] 42 ∧
      amdsmiGetGpuComputeProcessInfoByPid [⟨.success, [⟨42, uint64Max⟩]⟩] 42
          (some ⟨0, 0, 0, 0, 0⟩) = (.success, some ⟨42, 2 ^ 44 - 1, 0, 0, 0⟩) ∧
      knownBytes [⟨.success, [⟨42, uint64Max⟩]⟩] 42 = 0 := by
  have hanswer : amdsmiGetGpuComputeProcessInfoByPid [⟨.success, [⟨42, uint64Max⟩]⟩] 42
      (some ⟨0, 0, 0, 0, 0⟩) = (.success, some ⟨42, 2 ^ 44 - 1, 0, 0, 0⟩) := by decide
  have hknown : knownBytes [⟨.success, [⟨42, uint64Max⟩]⟩] 42 = 0 := by decide
  refine ⟨fun hagree => ?_, hanswer, hknown⟩
  have hvram := hagree.vram _ _ hanswer
  rw [hknown] at hvram
  exact absurd hvram (by decide)

end Processes

end RocDxg
