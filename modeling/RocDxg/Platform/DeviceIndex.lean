import Mathlib.Data.List.Nodup
import RocDxg.Lib.Buffer
import RocDxg.Platform.Devices
import RocDxg.Platform.Smi

/-!
# Device indices

`smi_amdgpu_get_device_index`, `smi_amdgpu_get_device_count` and
`smi_amdgpu_get_processor_handle_by_index` of `amd_smi_utils.cc`, with the queries of sockets and
processors of `amd_smi.cc` on an initialised library.  Each function asks for a count, makes a
vector of that size and asks again to have it filled, first for the sockets and then for the
processors of each of them.  A running index numbers the processors.

With counts that fit in 32 bits the functions are those of the list of all processors, socket by
socket (`scanSockets_eq`, `smiAmdgpuGetDeviceCount_eq`), so an index and its handle are inverse to
one another (`index_handle_inverse`).  The counts of the platform always fit, and its handles are
distinct (`fits_of_reach`).
-/

namespace RocDxg

open Lib (Buffer Reach)

/-- `LdaChain`, whose address is the handle of a socket: the handles of its `ChainedDevice`s. -/
structure Socket (α : Type u) where
  processors : List α
deriving DecidableEq, Repr

namespace DeviceIndex

variable {α : Type u} {β : Type v}

/-- What a query leaves behind: its status, the count and the entries.  A pointer that is null has
nothing behind it. -/
structure Answer (β : Type v) where
  status : SmiStatus
  count : Option Nat
  entries : Option (Buffer β)

/-- The common part of the two queries: the size alone, or as many items as there is room for. -/
def listInto (items : List β) (count : Nat) (entries : Option (Buffer β)) : Answer β :=
  let size := u32 items.length
  match entries with
  | none => ⟨.success, some size, none⟩
  | some b =>
      let count := if count ≥ size then size else count
      ⟨.success, some count, some (Buffer.fill count items 0 b)⟩

/-- `amdsmi_get_socket_handles`, where `lda_chain_list_` has the sockets. -/
def amdsmiGetSocketHandles (sockets : List (Socket α)) (socketCount : Option Nat)
    (socketHandles : Option (Buffer (Option (Socket α)))) : Answer (Option (Socket α)) :=
  match socketCount with
  | none => ⟨.inval, none, socketHandles⟩
  | some count => listInto (sockets.map some) count socketHandles

/-- `amdsmi_get_processor_handles` -/
def amdsmiGetProcessorHandles (socketHandle : Option (Socket α)) (processorCount : Option Nat)
    (processorHandles : Option (Buffer (Option α))) : Answer (Option α) :=
  match processorCount, socketHandle with
  | none, _ => ⟨.inval, none, processorHandles⟩
  | some count, none => ⟨.inval, some count, processorHandles⟩
  | some count, some ldaChain => listInto (ldaChain.processors.map some) count processorHandles

/-- `data()` of a vector of null pointers.  That of an empty vector may be null. -/
def data (emptyNull : Bool) (size : Nat) : Option (Buffer (Option β)) :=
  if size = 0 ∧ emptyNull = true then none else some fun _ => none

/-- The elements of a vector after its `data()` was filled. -/
def vector (size : Nat) (entries : Option (Buffer (Option β))) : List (Option β) :=
  (entries.getD fun _ => none).read size

variable (emptyNull : Bool)

/-- The vector of sockets that each of the functions begins with. -/
def socketVector (sockets : List (Socket α)) : Except SmiStatus (List (Option (Socket α))) :=
  let first := amdsmiGetSocketHandles sockets (some 0) none
  if first.status ≠ .success then .error first.status
  else
    let socketCount := first.count.getD 0
    let second := amdsmiGetSocketHandles sockets (some socketCount) (data emptyNull socketCount)
    if second.status ≠ .success then .error second.status
    else .ok (vector (second.count.getD 0) second.entries)

/-- The vector of the processors of a socket; the statuses are not looked at. -/
def processorVector (socket : Option (Socket α)) : List (Option α) :=
  let first := amdsmiGetProcessorHandles socket (some 0) none
  let deviceCount := first.count.getD 0
  let second := amdsmiGetProcessorHandles socket (some deviceCount) (data emptyNull deviceCount)
  vector (second.count.getD 0) second.entries

/-- The loop over the processors of a socket, with the running index.  It ends at a handle and an
index that it looks for. -/
def scan (wanted : Option α → Nat → Bool) : List (Option α) → Nat → Except (Option α × Nat) Nat
  | [], current => .ok current
  | handle :: rest, current =>
      if wanted handle current then .error (handle, current)
      else scan wanted rest (u32 (current + 1))

/-- The loop over the sockets. -/
def scanSockets (wanted : Option α → Nat → Bool) :
    List (Option (Socket α)) → Nat → Except (Option α × Nat) Nat
  | [], current => .ok current
  | socket :: rest, current => do
      let current ← scan wanted (processorVector emptyNull socket) current
      scanSockets wanted rest current

/-- `smi_amdgpu_get_device_index`: the status and the value of `device_index`, which is not there
if it is null. -/
def smiAmdgpuGetDeviceIndex [DecidableEq α] (sockets : List (Socket α))
    (processorHandle : Option α) (deviceIndex : Option Nat) : SmiStatus × Option Nat :=
  match deviceIndex with
  | none => (.inval, none)
  | some _ =>
      let unknown := 2 ^ 32 - 1
      match socketVector emptyNull sockets with
      | .error status => (status, some unknown)
      | .ok vector =>
          match scanSockets emptyNull (fun handle _ => handle = processorHandle) vector 0 with
          | .error (_, current) => (.success, some current)
          | .ok _ => (.apiFailed, some unknown)

/-- The loop of `smi_amdgpu_get_device_count`. -/
def countSockets : List (Option (Socket α)) → Nat → Nat
  | [], deviceNum => deviceNum
  | socket :: rest, deviceNum =>
      let processorCount := (amdsmiGetProcessorHandles socket (some 0) none).count.getD 0
      countSockets rest (u32 (deviceNum + processorCount))

/-- `smi_amdgpu_get_device_count` -/
def smiAmdgpuGetDeviceCount (sockets : List (Socket α)) (totalNumDevices : Option Nat) :
    SmiStatus × Option Nat :=
  match totalNumDevices with
  | none => (.inval, none)
  | some _ =>
      match socketVector emptyNull sockets with
      | .error status => (status, some 0)
      | .ok vector => (.success, some (countSockets vector 0))

/-- `smi_amdgpu_get_processor_handle_by_index`: the status and the value of `processor_handle`,
which is what it was unless an index is found. -/
def smiAmdgpuGetProcessorHandleByIndex (sockets : List (Socket α)) (deviceIndex : Nat)
    (processorHandle : Option (Option α)) : SmiStatus × Option (Option α) :=
  match processorHandle with
  | none => (.inval, none)
  | some before =>
      match socketVector emptyNull sockets with
      | .error status => (status, some before)
      | .ok vector =>
          match scanSockets emptyNull (fun _ current => current = deviceIndex) vector 0 with
          | .error (handle, _) => (.success, some handle)
          | .ok _ => (.apiFailed, some before)

/-! ## The queries -/

variable {emptyNull : Bool} {sockets : List (Socket α)} {wanted : Option α → Nat → Bool}
  {c i : Nat} {x : Option α}

/-- A vector of the size that the first query found is filled with all items. -/
theorem vector_listInto (emptyNull : Bool) (items : List (Option β)) (h : items.length < 2 ^ 32) :
    vector ((listInto items items.length (data emptyNull items.length)).count.getD 0)
      (listInto items items.length (data emptyNull items.length)).entries = items := by
  have hsize : u32 items.length = items.length := u32_of_lt h
  cases hdata : data (β := β) emptyNull items.length with
  | none =>
      have hempty : items.length = 0 := by
        by_contra hne
        rw [data, if_neg fun hc => hne hc.1] at hdata
        cases hdata
      rw [List.length_eq_zero_iff.mp hempty]
      rfl
  | some b =>
      simp [listInto, hsize, vector, Buffer.read_fill]

theorem socketVector_eq (h : sockets.length < 2 ^ 32) :
    socketVector emptyNull sockets = .ok (sockets.map some) := by
  have hvector := vector_listInto emptyNull (sockets.map some) (by rw [List.length_map]; exact h)
  rw [List.length_map] at hvector
  have hfirst : amdsmiGetSocketHandles sockets (some 0) none =
      ⟨.success, some sockets.length, none⟩ := by
    simp [amdsmiGetSocketHandles, listInto, u32_of_lt h]
  have hsecond : (amdsmiGetSocketHandles sockets (some sockets.length)
      (data emptyNull sockets.length)).status = .success := by
    cases data (β := Socket α) emptyNull sockets.length <;> rfl
  rw [socketVector, hfirst]
  simp only [Option.getD_some, ne_eq, not_true_eq_false, if_false, hsecond]
  rw [amdsmiGetSocketHandles, hvector]

theorem processorVector_eq {socket : Socket α} (h : socket.processors.length < 2 ^ 32) :
    processorVector emptyNull (some socket) = socket.processors.map some := by
  have hvector := vector_listInto emptyNull (socket.processors.map some)
    (by rw [List.length_map]; exact h)
  rw [List.length_map] at hvector
  have hfirst : amdsmiGetProcessorHandles (some socket) (some 0) none =
      ⟨.success, some socket.processors.length, none⟩ := by
    simp [amdsmiGetProcessorHandles, listInto, u32_of_lt h]
  rw [processorVector, hfirst]
  simp only [Option.getD_some]
  rw [amdsmiGetProcessorHandles, hvector]

/-! ## The loops -/

/-- The processors of all sockets, in order. -/
def processors (sockets : List (Socket α)) : List α := sockets.flatMap (·.processors)

theorem scan_append (xs ys : List (Option α)) :
    scan wanted (xs ++ ys) c = (scan wanted xs c).bind (scan wanted ys) := by
  induction xs generalizing c with
  | nil => rfl
  | cons h xs ih =>
      rw [List.cons_append, scan, scan]
      split
      next => rfl
      next => exact ih

/-- The loop over the sockets is one over all processors. -/
theorem scanSockets_eq (h : ∀ s ∈ sockets, s.processors.length < 2 ^ 32) :
    scanSockets emptyNull wanted (sockets.map some) c =
      scan wanted ((processors sockets).map some) c := by
  induction sockets generalizing c with
  | nil => rfl
  | cons s sockets ih =>
      obtain ⟨hs, hrest⟩ := List.forall_mem_cons.mp h
      have hcons : (processors (s :: sockets)).map some =
          s.processors.map some ++ (processors sockets).map some := by
        simp [processors]
      rw [hcons, scan_append, List.map_cons, scanSockets, processorVector_eq hs]
      exact congrArg (Except.bind _) (funext fun c => ih hrest)

theorem countSockets_eq (h : c + (processors sockets).length < 2 ^ 32) :
    countSockets (sockets.map some) c = c + (processors sockets).length := by
  induction sockets generalizing c with
  | nil => rfl
  | cons s sockets ih =>
      have hcons : (processors (s :: sockets)).length =
          s.processors.length + (processors sockets).length := by
        simp [processors]
      rw [hcons] at h ⊢
      have hs : (amdsmiGetProcessorHandles (some s) (some 0) none).count.getD 0 =
          s.processors.length := by
        simp only [amdsmiGetProcessorHandles, listInto, List.length_map, Option.getD_some]
        exact u32_of_lt (by omega)
      rw [List.map_cons, countSockets, hs, u32_of_lt (by omega), ih (by omega), Nat.add_assoc]

/-- Looking for a handle. -/
theorem scan_handle [DecidableEq α] {xs : List (Option α)} (h : c + xs.length < 2 ^ 32) :
    scan (fun handle _ => handle = x) xs c =
      if x ∈ xs then .error (x, c + xs.idxOf x) else .ok (c + xs.length) := by
  induction xs generalizing c with
  | nil => rfl
  | cons y xs ih =>
      rw [List.length_cons] at h
      rw [scan, u32_of_lt (by omega), ih (by omega)]
      by_cases hy : y = x
      · subst hy
        simp
      · have hne : ¬ x = y := fun heq => hy heq.symm
        simp only [hy, decide_false, Bool.false_eq_true, if_false, List.mem_cons, hne, false_or,
          List.idxOf_cons_ne xs hy, List.length_cons]
        split
        next => rw [Nat.succ_eq_add_one, Nat.add_assoc, Nat.add_comm 1]
        next => rw [Nat.add_assoc, Nat.add_comm 1]

/-- Looking for an index. -/
theorem scan_index {xs : List (Option α)} (h : c + xs.length < 2 ^ 32) (k : Nat) :
    scan (fun _ current => current = c + k) xs c =
      match xs[k]? with
      | some handle => .error (handle, c + k)
      | none => .ok (c + xs.length) := by
  induction xs generalizing c k with
  | nil => rfl
  | cons y xs ih =>
      rw [List.length_cons] at h
      cases k with
      | zero => simp [scan]
      | succ k =>
          have hne : ¬ c = c + (k + 1) := by omega
          have hnext : (fun (_ : Option α) (current : Nat) => decide (current = c + (k + 1))) =
              fun _ current => decide (current = c + 1 + k) := by
            rw [Nat.add_assoc, Nat.add_comm 1]
          rw [scan, decide_eq_false hne, if_neg Bool.false_ne_true, u32_of_lt (by omega), hnext,
            ih (by omega) k, List.getElem?_cons_succ, List.length_cons]
          simp only [Nat.add_assoc, Nat.add_comm 1]

/-! ## Indices and handles -/

/-- The counts of a platform fit in 32 bits. -/
structure Fits (sockets : List (Socket α)) : Prop where
  socketCount : sockets.length < 2 ^ 32
  deviceCount : (processors sockets).length < 2 ^ 32

namespace Fits

theorem forall_lt (h : Fits sockets) : ∀ s ∈ sockets, s.processors.length < 2 ^ 32 := by
  intro s hs
  have hsub : s.processors.Sublist (processors sockets) := by
    rw [processors, List.flatMap_def]
    exact List.sublist_flatten_of_mem (List.mem_map_of_mem hs)
  exact Nat.lt_of_le_of_lt hsub.length_le h.deviceCount

/-- The vector that a loop begins with, and no index is lost. -/
theorem scanSockets (h : Fits sockets) (emptyNull : Bool) (wanted : Option α → Nat → Bool) :
    DeviceIndex.scanSockets emptyNull wanted (sockets.map some) 0 =
      scan wanted ((processors sockets).map some) 0 := scanSockets_eq h.forall_lt

/-- The index of a processor is its place in the list of all. -/
theorem getDeviceIndex [DecidableEq α] (h : Fits sockets) (before : Nat) :
    smiAmdgpuGetDeviceIndex emptyNull sockets x (some before) =
      if x ∈ (processors sockets).map some then
        (.success, some (((processors sockets).map some).idxOf x))
      else (.apiFailed, some (2 ^ 32 - 1)) := by
  have hlen : 0 + ((processors sockets).map some).length < 2 ^ 32 := by
    rw [Nat.zero_add, List.length_map]
    exact h.deviceCount
  have hscan := h.scanSockets emptyNull fun handle _ => handle = x
  rw [scan_handle hlen, Nat.zero_add] at hscan
  simp only [smiAmdgpuGetDeviceIndex, socketVector_eq h.socketCount, hscan]
  by_cases hx : x ∈ (processors sockets).map some
  · simp only [if_pos hx]
  · simp only [if_neg hx]

/-- The processor with an index is the one at that place. -/
theorem getProcessorHandleByIndex (h : Fits sockets) (i : Nat) (before : Option α) :
    smiAmdgpuGetProcessorHandleByIndex emptyNull sockets i (some before) =
      match (processors sockets)[i]? with
      | some a => (.success, some (some a))
      | none => (.apiFailed, some before) := by
  have hlen : 0 + ((processors sockets).map some).length < 2 ^ 32 := by
    rw [Nat.zero_add, List.length_map]
    exact h.deviceCount
  have hscan := h.scanSockets emptyNull fun _ current => current = 0 + i
  rw [scan_index hlen, List.getElem?_map, Nat.zero_add] at hscan
  simp only [smiAmdgpuGetProcessorHandleByIndex, socketVector_eq h.socketCount, hscan]
  cases (processors sockets)[i]? <;> rfl

/-- The count is that of all processors. -/
theorem getDeviceCount (h : Fits sockets) (before : Nat) :
    smiAmdgpuGetDeviceCount emptyNull sockets (some before) =
      (.success, some (processors sockets).length) := by
  have hcount : countSockets (sockets.map some) 0 = 0 + (processors sockets).length :=
    countSockets_eq (by rw [Nat.zero_add]; exact h.deviceCount)
  simp only [smiAmdgpuGetDeviceCount, socketVector_eq h.socketCount, hcount, Nat.zero_add]

end Fits

/-- A handle that is listed is at the place that its index says. -/
theorem getElem?_idxOf [DecidableEq α] {xs : List α} {a : α} (ha : a ∈ xs) :
    xs[xs.idxOf a]? = some a := by
  rw [List.getElem?_eq_getElem (List.idxOf_lt_length_of_mem ha), List.getElem_idxOf]

/-- Handles and their places. -/
theorem idxOf_map_some [DecidableEq α] {xs : List α} {a : α} :
    (xs.map some).idxOf (some a) = xs.idxOf a := by
  induction xs with
  | nil => rfl
  | cons y xs ih => rw [List.map_cons, List.idxOf_cons, List.idxOf_cons, ih, Option.some_beq_some]

/-- An index is given to a handle that is listed, and to no other one. -/
theorem Fits.getDeviceIndex_success [DecidableEq α] (h : Fits sockets) {before : Nat} :
    (smiAmdgpuGetDeviceIndex emptyNull sockets x (some before)).1 = .success ↔
      ∃ a ∈ processors sockets, x = some a := by
  rw [h.getDeviceIndex]
  split
  next hx =>
    obtain ⟨a, ha, rfl⟩ := List.mem_map.mp hx
    exact ⟨fun _ => ⟨a, ha, rfl⟩, fun _ => rfl⟩
  next hx =>
    refine ⟨fun hstatus => (nomatch hstatus), ?_⟩
    rintro ⟨a, ha, rfl⟩
    exact absurd (List.mem_map_of_mem ha) hx

theorem Fits.getDeviceIndex_of_mem [DecidableEq α] (h : Fits sockets) {before : Nat} {a : α}
    (ha : a ∈ processors sockets) :
    smiAmdgpuGetDeviceIndex emptyNull sockets (some a) (some before) =
      (.success, some ((processors sockets).idxOf a)) := by
  rw [h.getDeviceIndex, if_pos (List.mem_map_of_mem ha), idxOf_map_some]

/-- Device index and processor handle are inverse to one another, on sockets and processors whose
numbers fit in 32 bits and whose handles are distinct: an index is found for exactly the handles
that are listed, it is below the count and its handle is the one that was asked for; every index
below the count is that of exactly one handle; and one at or above it fails. -/
theorem index_handle_inverse [DecidableEq α] (hfits : Fits sockets)
    (hnodup : (processors sockets).Nodup) (emptyNull : Bool) :
    ∃ n, (∀ before, smiAmdgpuGetDeviceCount emptyNull sockets (some before) = (.success, some n)) ∧
      (∀ x before, (smiAmdgpuGetDeviceIndex emptyNull sockets x (some before)).1 = .success ↔
        ∃ a ∈ processors sockets, x = some a) ∧
      (∀ a ∈ processors sockets, ∃ i < n,
        (∀ before, smiAmdgpuGetDeviceIndex emptyNull sockets (some a) (some before) =
          (.success, some i)) ∧
        ∀ before, smiAmdgpuGetProcessorHandleByIndex emptyNull sockets i (some before) =
          (.success, some (some a))) ∧
      (∀ i < n, ∃ x,
        (∀ before, smiAmdgpuGetDeviceIndex emptyNull sockets x (some before) =
          (.success, some i)) ∧
        ∀ y before, smiAmdgpuGetDeviceIndex emptyNull sockets y (some before) =
          (.success, some i) → y = x) ∧
      ∀ i, n ≤ i → ∀ before,
        (smiAmdgpuGetProcessorHandleByIndex emptyNull sockets i (some before)).1 ≠ .success := by
  refine ⟨(processors sockets).length, hfits.getDeviceCount, fun x before =>
    hfits.getDeviceIndex_success, fun a ha => ?_, fun i hi => ?_, fun i hi before => ?_⟩
  · refine ⟨_, List.idxOf_lt_length_of_mem ha, fun _ => hfits.getDeviceIndex_of_mem ha,
      fun before => ?_⟩
    rw [hfits.getProcessorHandleByIndex, getElem?_idxOf ha]
  · refine ⟨some (processors sockets)[i], fun before => ?_, fun y before hy => ?_⟩
    · rw [hfits.getDeviceIndex_of_mem (List.getElem_mem hi), hnodup.idxOf_getElem]
    · have hstatus := congrArg Prod.fst hy
      obtain ⟨b, hb, rfl⟩ := hfits.getDeviceIndex_success.mp hstatus
      rw [hfits.getDeviceIndex_of_mem hb, Prod.mk.injEq, Option.some.injEq] at hy
      obtain ⟨-, rfl⟩ := hy
      rw [List.getElem_idxOf]
  · rw [hfits.getProcessorHandleByIndex, List.getElem?_eq_none hi]
    exact fun hstatus => nomatch hstatus

/-- Two processors on a socket and one on another, with empty sockets around them. -/
theorem index_handle_inverse_sample :
    ∃ n, (∀ before, smiAmdgpuGetDeviceCount true [⟨[]⟩, ⟨[10, 11]⟩, ⟨[]⟩, ⟨[12]⟩] (some before) =
        (.success, some n)) ∧
      ∃ i < n, ∀ before, smiAmdgpuGetProcessorHandleByIndex true
        [⟨[]⟩, ⟨[10, 11]⟩, ⟨[]⟩, ⟨[12]⟩] i (some before) = (.success, some (some 12)) := by
  have hfits : Fits [⟨[]⟩, ⟨[10, 11]⟩, ⟨[]⟩, ⟨[12]⟩] := ⟨by decide, by decide⟩
  obtain ⟨n, hcount, -, hmem, -, -⟩ := index_handle_inverse hfits (by decide) true
  obtain ⟨i, hi, -, hhandle⟩ := hmem 12 (by decide)
  exact ⟨n, hcount, i, hi, hhandle⟩

/-! ## The platform -/

/-- The sockets of the platform.  A processor is known by its object. -/
def platformSockets (p : Platform) : List (Socket Nat) :=
  p.ldaChainList.map fun c => ⟨c.chainedDevices.map ChainedDevice.id⟩

theorem processors_platformSockets (p : Platform) : processors (platformSockets p) =
    (p.ldaChainList.flatMap LdaChain.chainedDevices).map ChainedDevice.id := by
  rw [processors, platformSockets, List.flatMap_map, List.map_flatMap]

/-- In every state that calls on the platform reach, the counts fit and the handles are
distinct. -/
theorem fits_of_reach {p : Platform} (h : Reach Platform.step (fun _ _ => True) {} p) :
    Fits (platformSockets p) ∧ (processors (platformSockets p)).Nodup := by
  have B := Platform.bounded_of_reach h
  have hmax : maxDevices < 2 ^ 32 := by decide
  rw [processors_platformSockets]
  refine ⟨⟨?_, ?_⟩, ?_⟩
  · rw [platformSockets, List.length_map]
    exact Nat.lt_of_le_of_lt B.chains hmax
  · rw [processors_platformSockets, List.length_map]
    exact Nat.lt_of_le_of_lt (B.listed.length_le.trans B.devices) hmax
  · exact (Platform.owned_of_reach h).nodup_devices.sublist (B.listed.map _)

/-! ## Lists without a count -/

/-- 2 ^ 32 processors on a socket are counted as none. -/
theorem count_wraps {xs : List α} (h : xs.length = 2 ^ 32)
    (entries : Option (Buffer (Option α))) :
    (amdsmiGetProcessorHandles (some ⟨xs⟩) (some 0) entries).count = some 0 := by
  have hsize : u32 xs.length = 0 := by rw [h, u32, Nat.mod_self]
  cases entries <;> simp [amdsmiGetProcessorHandles, listInto, hsize]

theorem processorVector_wraps {xs : List α} (h : xs.length = 2 ^ 32) :
    processorVector emptyNull (some ⟨xs⟩) = [] := by
  simp [processorVector, count_wraps h, vector, Buffer.read]

/-- No handle is found on such a socket, and no index is below the count. -/
theorem lost_of_length [DecidableEq α] {xs : List α} (h : xs.length = 2 ^ 32) (before : Nat) :
    smiAmdgpuGetDeviceIndex emptyNull [⟨xs⟩] x (some before) = (.apiFailed, some (2 ^ 32 - 1)) ∧
      smiAmdgpuGetDeviceCount emptyNull [⟨xs⟩] (some before) = (.success, some 0) := by
  have hvector : socketVector emptyNull [(⟨xs⟩ : Socket α)] = .ok [some ⟨xs⟩] :=
    socketVector_eq (by rw [List.length_singleton]; decide)
  have hscan : ∀ wanted, scanSockets emptyNull wanted [some ⟨xs⟩] 0 = .ok 0 := by
    intro wanted
    rw [scanSockets, processorVector_wraps h]
    rfl
  constructor
  · simp only [smiAmdgpuGetDeviceIndex, hvector, hscan]
  · simp only [smiAmdgpuGetDeviceCount, hvector, countSockets, count_wraps h, Option.getD_some]
    rfl

/-- A handle that is listed and not found: 2 ^ 32 processors on one socket. -/
theorem index_handle_wraps :
    (processors [⟨List.range (2 ^ 32)⟩]).Nodup ∧ 0 ∈ processors [⟨List.range (2 ^ 32)⟩] ∧
      smiAmdgpuGetDeviceIndex false [⟨List.range (2 ^ 32)⟩] (some 0) (some 0) =
        (.apiFailed, some (2 ^ 32 - 1)) ∧
      smiAmdgpuGetDeviceCount false [⟨List.range (2 ^ 32)⟩] (some 0) = (.success, some 0) := by
  have hprocessors : ∀ xs : List Nat, processors [⟨xs⟩] = xs := fun xs => List.append_nil xs
  rw [hprocessors]
  exact ⟨List.nodup_range, List.mem_range.mpr (Nat.two_pow_pos 32),
    lost_of_length List.length_range 0⟩

end DeviceIndex

end RocDxg
