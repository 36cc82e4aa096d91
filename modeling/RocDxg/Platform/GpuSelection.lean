import Mathlib.Data.List.Forall2
import RocDxg.Bdf.Interface
import RocDxg.Platform.Uuid

/-!
# The selection of GPUs

`get_gpu_choices` and `get_device_handles_from_gpu_selections` of `amdsmi_helpers.py`, and the
action of the argument `--gpu` in `amdsmi_parser.py`.

A GPU is selected by its number, its UUID or its BDF.  The three are told apart by their
characters, so that a text is never the number of one GPU and the UUID of another one
(`selection_exact`).  The table of choices has an entry `"all"` behind the GPUs, which is no
dictionary.  The action deletes it first; a search that goes on to it fails
(`unknown_selection_raises`).
-/

namespace RocDxg

open Lib (Buffer isHexDigit)
open Lib.Pattern (matchLine)
open Bdf (AmdsmiBdf formatBdf construct)

namespace GpuSelection

/-! ## The library -/

/-- `AMDSMI_GPU_UUID_SIZE` -/
def amdsmiGpuUuidSize : Nat := 38

/-- `AMDSMI_STATUS_NOT_INIT` -/
def statusNotInit : Nat := 32

/-- `AMDSMI_STATUS_DRIVER_NOT_LOADED` -/
def statusDriverNotLoaded : Nat := 34

/-- What the library answers: the handles of the GPUs, and for each one its BDF and the serial
number and the device id, or the code of an error. -/
structure GpuLibrary (α : Type) where
  handles : Except Nat (List α)
  bdf : α → Except Nat AmdsmiBdf
  asic : α → Except Nat (BitVec 64 × BitVec 16)

namespace GpuLibrary

variable {α : Type}

/-- `amdsmi_get_gpu_device_bdf` -/
def amdsmiGetGpuDeviceBdf (lib : GpuLibrary α) (handle : α) : Except Nat (List Char) :=
  (lib.bdf handle).map formatBdf

/-- `amdsmi_get_gpu_device_uuid`; the buffer is zero at first, and its value ends at a zero. -/
def amdsmiGetGpuDeviceUuid (lib : GpuLibrary α) (handle : α) : Except Nat (List Char) :=
  (lib.asic handle).map fun asic =>
    let uuid := (Uuid.amdsmiUuidGen (fun _ => '\x00') asic.1 asic.2 0xff).2
    (uuid.read amdsmiGpuUuidSize).takeWhile (· ≠ '\x00')

end GpuLibrary

/-! ## The choices -/

/-- A value of `gpu_choices`. -/
inductive GpuChoice (α : Type) where
  | device (bdf uuid : List Char) (handle : α)
  /-- The text `"all"`. -/
  | all
deriving DecidableEq, Repr

/-- The key of the last entry. -/
def allKey : List Char := "all".toList

/-- `gpu_choices`, in the order of its keys. -/
abbrev GpuChoices (α : Type) := List (List Char × GpuChoice α)

variable {α : Type}

/-- The loop of `get_gpu_choices`. -/
def gpuChoicesFrom (lib : GpuLibrary α) : Nat → List α → Except Nat (GpuChoices α)
  | _, [] => .ok []
  | gpuId, handle :: handles => do
      let bdf ← lib.amdsmiGetGpuDeviceBdf handle
      let uuid ← lib.amdsmiGetGpuDeviceUuid handle
      let choices ← gpuChoicesFrom lib (gpuId + 1) handles
      return (Nat.toDigits 10 gpuId, .device bdf uuid handle) :: choices

/-- The handles that `get_gpu_choices` goes through: none if there is no driver. -/
def deviceHandles (lib : GpuLibrary α) : Except Nat (List α) :=
  match lib.handles with
  | .ok handles => .ok handles
  | .error code =>
      if code = statusNotInit ∨ code = statusDriverNotLoaded then .ok [] else .error code

/-- `get_gpu_choices`, without the text that describes them. -/
def getGpuChoices (lib : GpuLibrary α) : Except Nat (GpuChoices α) := do
  let handles ← deviceHandles lib
  if handles.length = 0 then return []
  return (← gpuChoicesFrom lib 0 handles) ++ [(allKey, .all)]

/-! ## A selection -/

/-- The methods of texts that depend on the tables of Unicode. -/
structure PyText where
  lower : List Char → List Char
  isDigit : List Char → Bool
  /-- Nothing but the letters from `A` to `F` becomes one from `a` to `f`. -/
  lower_eq_iff : ∀ s t, (∀ c ∈ t, Uuid.isLowerHex c = true ∨ c = '-') →
    (lower s = t ↔ s.map Char.toLower = t)

/-- `UUID_pattern`, between its anchors; the case of the letters is ignored:
`[a-f0-9]{8}-[a-f0-9]{4}-[a-f0-9]{4}-[a-f0-9]{4}-[a-f0-9]{12}` -/
def uuidPattern : Lib.Pattern :=
  .seq (.times 8 Bdf.hexClass) (.seq (.char '-') (.seq (.times 4 Bdf.hexClass) (.seq (.char '-')
    (.seq (.times 4 Bdf.hexClass) (.seq (.char '-') (.seq (.times 4 Bdf.hexClass)
      (.seq (.char '-') (.times 12 Bdf.hexClass))))))))

/-- `is_UUID` -/
def isUuid (uuidQuestion : List Char) : Bool := (matchLine uuidPattern uuidQuestion).isSome

/-- The exceptions that a selection can end with. -/
inductive SelectionError where
  /-- An error of the library, with its code. -/
  | library (code : Nat)
  /-- `is_bdf` has no value. -/
  | unboundLocalError
  /-- A text is used as a dictionary. -/
  | typeError
deriving DecidableEq, Repr

/-- `BDF(gpu_selection) == BDF(bdf)` -/
def sameBdf (gpuSelection bdf : List Char) : Except PyException Bool := do
  let b ← construct gpuSelection
  b.eq (.object (← construct bdf))

/-- The loop over the choices: the handle of the one that is selected, and `is_bdf` behind it. -/
def findChoice (py : PyText) (gpuSelection : List Char) :
    Option Bool → GpuChoices α → Except SelectionError (Option α × Option Bool)
  | isBdf, [] => .ok (none, isBdf)
  | _, (_, .all) :: _ => .error .typeError
  | _, (gpuId, .device bdf uuid handle) :: choices =>
      if gpuSelection = gpuId ∨ py.lower gpuSelection = uuid then .ok (some handle, some true)
      else
        match sameBdf gpuSelection bdf with
        | .ok true => .ok (some handle, some true)
        | .ok false => findChoice py gpuSelection (some true) choices
        | .error _ => findChoice py gpuSelection (some false) choices

/-- What `get_device_handles_from_gpu_selections` returns. -/
inductive Selected (α : Type) where
  | handles (hs : List α)
  /-- The first selection that was not found, and whether it has one of the three forms. -/
  | failed (validGpuFormat : Bool) (gpuSelection : List Char)
deriving DecidableEq, Repr

/-- `valid_gpu_format` -/
def validGpuFormat (py : PyText) (isBdf : Option Bool) (gpuSelection : List Char) :
    Except SelectionError Bool :=
  if isUuid gpuSelection ∨ py.isDigit gpuSelection then .ok true
  else
    match isBdf with
    | some isBdf => .ok isBdf
    | none => .error .unboundLocalError

/-- The loop over the selections, with the handles found so far. -/
def selectEach (py : PyText) (choices : GpuChoices α) :
    Option Bool → List α → List (List Char) → Except SelectionError (Selected α)
  | _, selected, [] => .ok (.handles selected)
  | isBdf, selected, gpuSelection :: selections => do
      match ← findChoice py gpuSelection isBdf choices with
      | (some handle, isBdf) => selectEach py choices isBdf (selected ++ [handle]) selections
      | (none, isBdf) => return .failed (← validGpuFormat py isBdf gpuSelection) gpuSelection

/-- The argument `gpu_selections`. -/
inductive GpuSelections where
  | text (s : List Char)
  | list (ss : List (List Char))
deriving DecidableEq, Repr

/-- `'all' in gpu_selections` -/
def GpuSelections.hasAll : GpuSelections → Bool
  | .text s => decide (allKey <:+: s)
  | .list ss => allKey ∈ ss

/-- The selections, of which a text is one. -/
def GpuSelections.toList : GpuSelections → List (List Char)
  | .text s => [s]
  | .list ss => ss

/-- `get_device_handles_from_gpu_selections` -/
def getDeviceHandlesFromGpuSelections (py : PyText) (lib : GpuLibrary α)
    (gpuSelections : GpuSelections) (gpuChoices : Option (GpuChoices α)) :
    Except SelectionError (Selected α) :=
  if gpuSelections.hasAll then (lib.handles.mapError .library).map .handles
  else do
    let choices ← match gpuChoices with
      | some choices => pure choices
      | none => (getGpuChoices lib).mapError .library
    selectEach py choices none [] gpuSelections.toList

/-- What becomes of the argument `--gpu`: handles, or one of three exceptions. -/
inductive GpuArgument (α : Type) where
  | handles (hs : List α)
  | missingParameterValue
  | invalidParameterValue (gpuSelection : List Char)
  | deviceNotFound (gpuSelection : List Char)
deriving DecidableEq, Repr

/-- The exception for a selection that was not found. -/
def Selected.toArgument : Selected α → GpuArgument α
  | .handles hs => .handles hs
  | .failed validGpuFormat gpuSelection =>
      if gpuSelection = [] then .missingParameterValue
      else if validGpuFormat = false then .invalidParameterValue gpuSelection
      else .deviceNotFound gpuSelection

/-- `_GPUSelectAction`; `values` has one element or more. -/
def gpuSelect (py : PyText) (lib : GpuLibrary α) (gpuChoices : GpuChoices α)
    (values : List (List Char)) : Except SelectionError (GpuArgument α) :=
  let gpuChoices := gpuChoices.filter fun choice => choice.1 ≠ allKey
  (getDeviceHandlesFromGpuSelections py lib (.list values) (some gpuChoices)).map
    Selected.toArgument

/-! ## The GPUs of the library -/

/-- A GPU, with what the library answers about it. -/
structure GpuDevice (α : Type) where
  bdf : AmdsmiBdf
  serial : BitVec 64
  deviceId : BitVec 16
  handle : α

namespace GpuDevice

/-- The UUID of the GPU. -/
def uuid (d : GpuDevice α) : List Char := (Uuid.make d.serial d.deviceId 0xff).text

/-- The numbers of the BDF.  A domain number of more than four digits is not read back. -/
def number (d : GpuDevice α) : Option Bdf :=
  if d.bdf.domainNumber < 2 ^ 16 then
    some ⟨d.bdf.domainNumber, d.bdf.busNumber, d.bdf.deviceNumber, d.bdf.functionNumber⟩
  else none

end GpuDevice

/-- The library lists these GPUs. -/
structure Listed (lib : GpuLibrary α) (devices : List (GpuDevice α)) : Prop where
  handles : lib.handles = .ok (devices.map GpuDevice.handle)
  bdf : ∀ d ∈ devices, lib.bdf d.handle = .ok d.bdf
  asic : ∀ d ∈ devices, lib.asic d.handle = .ok (d.serial, d.deviceId)

/-- No two GPUs have one BDF, nor one serial number and device id. -/
structure Distinct (devices : List (GpuDevice α)) : Prop where
  bdf : (devices.map GpuDevice.bdf).Nodup
  asic : (devices.map fun d => (d.serial, d.deviceId)).Nodup

/-- A text is the number of a GPU, its UUID in any case, or a text of its BDF. -/
def Selects (s : List Char) (i : Nat) (d : GpuDevice α) : Prop :=
  s = Nat.toDigits 10 i ∨ s.map Char.toLower = d.uuid ∨
    ∃ b, d.number = some b ∧ construct s = .ok b

/-- The entry of a GPU. -/
def choiceOf (i : Nat) (d : GpuDevice α) : List Char × GpuChoice α :=
  (Nat.toDigits 10 i, .device (formatBdf d.bdf) d.uuid d.handle)

/-- The entries of the GPUs, numbered from `i`. -/
def choicesOf : Nat → List (GpuDevice α) → GpuChoices α
  | _, [] => []
  | i, d :: ds => choiceOf i d :: choicesOf (i + 1) ds

variable {lib : GpuLibrary α} {devices ds : List (GpuDevice α)} {d d' : GpuDevice α} {i j : Nat}
  {s : List Char} {py : PyText} {isBdf : Option Bool} {choices rest : GpuChoices α}

/-- The characters of a UUID. -/
theorem mem_uuid {c : Char} (h : c ∈ d.uuid) : Uuid.isLowerHex c = true ∨ c = '-' := by
  obtain ⟨a, b, c', d', e, ha, hb, hc, hd, he, htext, -⟩ :=
    Uuid.isUuid_text d.serial d.deviceId 0xff
  rw [GpuDevice.uuid, htext] at h
  simp only [List.mem_append, List.mem_cons] at h
  rcases h with h | h | h | h | h | h | h | h | h
  · exact Or.inl (ha.digits c h)
  · exact Or.inr h
  · exact Or.inl (hb.digits c h)
  · exact Or.inr h
  · exact Or.inl (hc.digits c h)
  · exact Or.inr h
  · exact Or.inl (hd.digits c h)
  · exact Or.inr h
  · exact Or.inl (he.digits c h)

/-- The value of the buffer ends behind the UUID. -/
theorem amdsmiGetGpuDeviceUuid_eq (h : lib.asic d.handle = .ok (d.serial, d.deviceId)) :
    lib.amdsmiGetGpuDeviceUuid d.handle = .ok d.uuid := by
  have hread : ∀ (b : Buffer Char) (n : Nat), b.read (n + 1) = b.read n ++ [b n] := by
    intro b n
    rw [Buffer.read, List.range_succ, List.map_append]
    rfl
  have hlen : (d.uuid ++ ['\x00']).length = 37 := by
    rw [List.length_append, GpuDevice.uuid, Uuid.length_text]
    rfl
  have hne : ∀ c ∈ d.uuid, decide (c ≠ '\x00') = true := by
    intro c hc
    rw [decide_eq_true_eq]
    rintro rfl
    cases mem_uuid hc with
    | inl hc => exact absurd hc (by decide)
    | inr hc => exact absurd hc (by decide)
  rw [GpuLibrary.amdsmiGetGpuDeviceUuid, h]
  show Except.ok (((Uuid.printUuid (fun _ => '\x00') (Uuid.make d.serial d.deviceId 0xff)).read
    (37 + 1)).takeWhile _) = _
  rw [Uuid.printUuid_eq, hread]
  show Except.ok
    (((Buffer.put (fun _ => '\x00') 0 (d.uuid ++ ['\x00'])).read 37 ++ _).takeWhile _) = _
  rw [← hlen, Buffer.read_put, List.append_assoc, List.takeWhile_append_of_pos hne,
    List.singleton_append, List.takeWhile_cons_of_neg (by simp), List.append_nil]

theorem gpuChoicesFrom_eq (hbdf : ∀ d ∈ ds, lib.bdf d.handle = .ok d.bdf)
    (hasic : ∀ d ∈ ds, lib.asic d.handle = .ok (d.serial, d.deviceId)) (i : Nat) :
    gpuChoicesFrom lib i (ds.map GpuDevice.handle) = .ok (choicesOf i ds) := by
  induction ds generalizing i with
  | nil => rfl
  | cons d ds ih =>
      have hbdf' := hbdf d List.mem_cons_self
      have huuid := amdsmiGetGpuDeviceUuid_eq (hasic d List.mem_cons_self)
      have hrest := ih (fun x hx => hbdf x (List.mem_cons_of_mem _ hx))
        (fun x hx => hasic x (List.mem_cons_of_mem _ hx)) (i + 1)
      rw [List.map_cons, gpuChoicesFrom, GpuLibrary.amdsmiGetGpuDeviceBdf, hbdf', huuid, hrest]
      rfl

/-- The table of choices. -/
theorem getGpuChoices_eq (h : Listed lib devices) :
    getGpuChoices lib =
      .ok (choicesOf 0 devices ++ if devices = [] then [] else [(allKey, .all)]) := by
  have hhandles : deviceHandles lib = .ok (devices.map GpuDevice.handle) := by
    rw [deviceHandles, h.handles]
  rw [getGpuChoices, hhandles]
  cases devices with
  | nil => rfl
  | cons d ds =>
      show (gpuChoicesFrom lib 0 _ >>= fun choices => _) = _
      rw [gpuChoicesFrom_eq h.bdf h.asic]
      rfl

/-! ## The three forms -/

theorem notMem_toDigits {c : Char} (h : c.isDigit = false) (i : Nat) : c ∉ Nat.toDigits 10 i := by
  intro hc
  rw [Nat.isDigit_of_mem_toDigits (by decide) (by decide) hc] at h
  cases h

theorem toDigits_injective (h : Nat.toDigits 10 i = Nat.toDigits 10 j) : i = j := by
  rw [← Nat.ofDigitChars_ten_toDigits (n := i), h, Nat.ofDigitChars_ten_toDigits]

/-- The letters of a UUID may be in any case. -/
theorem toLower_uuid (d : GpuDevice α) :
    d.uuid.map Char.toLower = d.uuid ∧ (d.uuid.map Char.toUpper).map Char.toLower = d.uuid := by
  have hsmall : ∀ n < 128, (Uuid.isLowerHex (Char.ofNat n) = true ∨ Char.ofNat n = '-') →
      (Char.ofNat n).toLower = Char.ofNat n ∧ (Char.ofNat n).toUpper.toLower = Char.ofNat n := by
    decide
  have hchar : ∀ c ∈ d.uuid, c.toLower = c ∧ c.toUpper.toLower = c := by
    intro c hc
    have hform := mem_uuid hc
    have hlt : c.toNat < 128 := by
      rcases hform with hform | rfl
      · rw [Uuid.isLowerHex, decide_eq_true_eq] at hform
        have hle : c ≤ 'f' := hform.elim (fun h => Char.le_trans h.2 (by decide)) And.right
        exact Nat.lt_of_le_of_lt (UInt32.le_iff_toNat_le.mp hle) (by decide)
      · decide
    have hcase := hsmall c.toNat hlt
    rw [Char.ofNat_toNat] at hcase
    exact hcase hform
  constructor
  · exact (List.map_congr_left fun c hc => (hchar c hc).1).trans (List.map_id' _)
  · rw [List.map_map]
    exact (List.map_congr_left fun c hc => (hchar c hc).2).trans (List.map_id' _)

theorem dash_mem_uuid (d : GpuDevice α) : '-' ∈ d.uuid := by
  obtain ⟨a, b, c, d', e, -, -, -, -, -, htext, -⟩ := Uuid.isUuid_text d.serial d.deviceId 0xff
  rw [GpuDevice.uuid, htext]
  simp

/-- A text of a BDF has a point. -/
theorem point_mem_of_construct {b : Bdf} (h : construct s = .ok b) : '.' ∈ s := by
  by_contra hpoint
  obtain ⟨m, hm⟩ := Bdf.construct_error_of_notMem hpoint
  rw [hm] at h
  cases h

theorem eq_dash_of_toLower {c : Char} (h : c.toLower = '-') : c = '-' := by
  delta Char.toLower at h
  split at h
  next hupper =>
    have hval := congrArg Char.val h
    simp only [ge_iff_le, UInt32.le_iff_toNat_le] at hupper
    have hnat := congrArg UInt32.toNat hval
    simp at hnat hupper
    omega
  next => exact h

/-- A text of a UUID has a dash and no point. -/
theorem dash_mem_of_lower (h : s.map Char.toLower = d.uuid) : '-' ∈ s ∧ '.' ∉ s := by
  constructor
  · obtain ⟨c, hc, hlower⟩ := List.mem_map.mp (h ▸ dash_mem_uuid d)
    exact eq_dash_of_toLower hlower ▸ hc
  · intro hpoint
    cases mem_uuid (h ▸ List.mem_map_of_mem hpoint) with
    | inl h => exact absurd h (by decide)
    | inr h => exact absurd h (by decide)

theorem uuid_injective (h : d.uuid = d'.uuid) :
    (d.serial, d.deviceId) = (d'.serial, d'.deviceId) := by
  have hrecover := Uuid.recover_make d.serial d.deviceId 0xff
  rw [show (Uuid.make d.serial d.deviceId 0xff).text = _ from h, GpuDevice.uuid,
    Uuid.recover_make] at hrecover
  simp only [Prod.mk.injEq] at hrecover ⊢
  exact ⟨hrecover.1.symm, hrecover.2.1.symm⟩

theorem number_injective {b : Bdf} (h : d.number = some b) (h' : d'.number = some b) :
    d.bdf = d'.bdf := by
  obtain ⟨⟨function, device, bus, domain⟩, _, _, _⟩ := d
  obtain ⟨⟨function', device', bus', domain'⟩, _, _, _⟩ := d'
  rw [GpuDevice.number] at h h'
  split at h
  next =>
    split at h'
    next =>
      have hsame := (Option.some.inj h).trans (Option.some.inj h').symm
      simp only [Bdf.mk.injEq] at hsame
      obtain ⟨hdomain, hbus, hdevice, hfunction⟩ := hsame
      cases Fin.ext hfunction
      cases Fin.ext hdevice
      cases Fin.ext hbus
      cases hdomain
      rfl
    next => cases h'
  next => cases h

/-- A text selects one GPU at most. -/
theorem selects_unique (hdistinct : Distinct devices) (hi : devices[i]? = some d)
    (hj : devices[j]? = some d') (h : Selects s i d) (h' : Selects s j d') : i = j := by
  have hlt : i < devices.length := (List.getElem?_eq_some_iff.mp hi).1
  have hdash : '-' ∉ Nat.toDigits 10 i ∧ '-' ∉ Nat.toDigits 10 j :=
    ⟨notMem_toDigits rfl i, notMem_toDigits rfl j⟩
  have hpoint : '.' ∉ Nat.toDigits 10 i ∧ '.' ∉ Nat.toDigits 10 j :=
    ⟨notMem_toDigits rfl i, notMem_toDigits rfl j⟩
  rcases h with rfl | hlower | ⟨b, hb, hconstruct⟩
  · rcases h' with heq | hlower' | ⟨b', -, hconstruct'⟩
    · exact toDigits_injective heq
    · exact absurd (dash_mem_of_lower hlower').1 hdash.1
    · exact absurd (point_mem_of_construct hconstruct') hpoint.1
  · rcases h' with rfl | hlower' | ⟨b', -, hconstruct'⟩
    · exact absurd (dash_mem_of_lower hlower).1 hdash.2
    · refine (List.getElem?_inj (by simpa using hlt) hdistinct.asic).mp ?_
      rw [List.getElem?_map, List.getElem?_map, hi, hj]
      exact congrArg some (uuid_injective (hlower.symm.trans hlower'))
    · exact absurd (point_mem_of_construct hconstruct') (dash_mem_of_lower hlower).2
  · rcases h' with rfl | hlower' | ⟨b', hb', hconstruct'⟩
    · exact absurd (point_mem_of_construct hconstruct) hpoint.2
    · exact absurd (point_mem_of_construct hconstruct) (dash_mem_of_lower hlower').2
    · cases hconstruct.symm.trans hconstruct'
      refine (List.getElem?_inj (by simpa using hlt) hdistinct.bdf).mp ?_
      rw [List.getElem?_map, List.getElem?_map, hi, hj]
      exact congrArg some (number_injective hb hb')

/-! ## The BDF of a GPU -/

/-- The text of the BDF is read back, unless its domain number is too long. -/
theorem construct_formatBdf {b : Bdf} (h : d.number = some b) :
    construct (formatBdf d.bdf) = .ok b := by
  rw [GpuDevice.number] at h
  split at h
  next hdomain =>
    obtain ⟨w, htext, hrange, hvalue⟩ := Bdf.exists_text_of_formatBdf hdomain
    rw [htext, construct, Bdf.unwrap_text]
    exact Bdf.ofLine_eq_ok_iff.mpr
      ⟨w, Or.inl rfl, hrange, (Option.some.inj h).symm.trans hvalue.symm⟩
  next => cases h

theorem construct_formatBdf_error (h : d.number = none) :
    ∃ m, construct (formatBdf d.bdf) = .error (.bdfError m) := by
  rw [GpuDevice.number] at h
  split at h
  next => cases h
  next hdomain =>
    have hopen : '(' ∉ formatBdf d.bdf := by
      have hdigit : ∀ n k, '(' ∉ Bdf.zfill k (Bdf.hexText n) :=
        fun n k hc => absurd (Bdf.isHexDigit_zfill hc) (by decide)
      have hlast : '(' ∉ Bdf.hexText d.bdf.functionNumber :=
        fun hc => absurd (Lib.isHexDigit_toDigits hc) (by decide)
      simp [formatBdf, hdigit, hlast]
    have hunwrap : Bdf.unwrap (formatBdf d.bdf) = formatBdf d.bdf := by
      rw [Bdf.unwrap, if_neg]
      intro hprefix
      obtain ⟨t, ht⟩ := List.isPrefixOf_iff_prefix.mp hprefix
      exact hopen (ht ▸ by simp)
    rw [construct, hunwrap]
    exact Bdf.ofLine_error_of_forall fun w => Bdf.not_endsLine_formatBdf hdomain w

/-- Both texts of the comparison are taken: the value of `is_bdf` behind it. -/
def takesBdf (s : List Char) (d : GpuDevice α) : Bool :=
  (construct s).toOption.isSome && d.number.isSome

/-- The comparison says whether the text is one of the BDF, or it raises. -/
theorem sameBdf_formatBdf (s : List Char) (d : GpuDevice α) :
    (∃ b, d.number = some b ∧ construct s = .ok b ∧ sameBdf s (formatBdf d.bdf) = .ok true) ∨
      (¬ ∃ b, d.number = some b ∧ construct s = .ok b) ∧
        if takesBdf s d then sameBdf s (formatBdf d.bdf) = .ok false
        else ∃ e, sameBdf s (formatBdf d.bdf) = .error e := by
  rw [sameBdf, takesBdf]
  cases hs : construct s with
  | error e => exact Or.inr ⟨fun ⟨b, _, hb⟩ => (by cases hb), e, rfl⟩
  | ok b =>
      cases hnumber : d.number with
      | none =>
          obtain ⟨m, hm⟩ := construct_formatBdf_error hnumber
          rw [hm]
          exact Or.inr ⟨fun ⟨b, hb, _⟩ => (by cases hb), _, rfl⟩
      | some b' =>
          rw [construct_formatBdf hnumber]
          by_cases hsame : b = b'
          · subst hsame
            exact Or.inl ⟨b, rfl, rfl, congrArg Except.ok (Bdf.same_eq_true.mpr rfl)⟩
          · refine Or.inr ⟨?_, congrArg Except.ok ?_⟩
            · rintro ⟨c, hc, hb⟩
              cases hc
              cases hb
              exact hsame rfl
            · exact Bool.eq_false_iff.mpr fun h => hsame (Bdf.same_eq_true.mp h)

/-! ## The search -/

theorem lower_eq_uuid_iff : py.lower s = d.uuid ↔ s.map Char.toLower = d.uuid :=
  py.lower_eq_iff s d.uuid fun _ => mem_uuid

theorem findChoice_hit_head (h : Selects s i d) :
    findChoice py s isBdf (choiceOf i d :: rest) = .ok (some d.handle, some true) := by
  rw [choiceOf, findChoice]
  split
  next => rfl
  next hnot =>
    rcases h with hid | hlower | hbdf
    · exact absurd (Or.inl hid) hnot
    · exact absurd (Or.inr (lower_eq_uuid_iff.mpr hlower)) hnot
    · rcases sameBdf_formatBdf s d with ⟨_, _, _, htrue⟩ | ⟨hno, _⟩
      · rw [htrue]
      · exact absurd hbdf hno

theorem findChoice_miss_head (h : ¬ Selects s i d) :
    findChoice py s isBdf (choiceOf i d :: rest) = findChoice py s (some (takesBdf s d)) rest := by
  rw [choiceOf, findChoice]
  split
  next hhit =>
    cases hhit with
    | inl hid => exact absurd (Or.inl hid) h
    | inr hlower => exact absurd (Or.inr (Or.inl (lower_eq_uuid_iff.mp hlower))) h
  next =>
    rcases sameBdf_formatBdf s d with ⟨b, hb, hconstruct, _⟩ | ⟨_, hcompare⟩
    · exact absurd (Or.inr (Or.inr ⟨b, hb, hconstruct⟩)) h
    · split at hcompare
      next htakes => rw [hcompare, htakes]
      next htakes =>
        obtain ⟨e, he⟩ := hcompare
        rw [he, Bool.eq_false_iff.mpr htakes]

/-- The search stops at the first GPU that the text selects. -/
theorem findChoice_hit (h : ∃ k d, ds[k]? = some d ∧ Selects s (i + k) d) :
    ∃ k d, ds[k]? = some d ∧ Selects s (i + k) d ∧
      findChoice py s isBdf (choicesOf i ds ++ rest) = .ok (some d.handle, some true) := by
  induction ds generalizing i isBdf with
  | nil =>
      obtain ⟨k, d, hk, _⟩ := h
      cases hk
  | cons d ds ih =>
      by_cases hd : Selects s i d
      · exact ⟨0, d, rfl, hd, findChoice_hit_head hd⟩
      · obtain ⟨k, d', hk, hsel⟩ := h
        cases k with
        | zero =>
            cases hk
            exact absurd hsel hd
        | succ k =>
            have hrest : ∃ k d, ds[k]? = some d ∧ Selects s (i + 1 + k) d :=
              ⟨k, d', hk, by rwa [Nat.add_assoc, Nat.add_comm 1]⟩
            rw [choicesOf, List.cons_append, findChoice_miss_head hd]
            obtain ⟨k', d'', hk', hsel', hfind⟩ := ih hrest
            exact ⟨k' + 1, d'', hk', by rwa [Nat.add_comm k', ← Nat.add_assoc], hfind⟩

/-- The search goes past all GPUs, and `is_bdf` is about the last one. -/
theorem findChoice_miss (h : ∀ k d, ds[k]? = some d → ¬ Selects s (i + k) d) :
    findChoice py s isBdf (choicesOf i ds ++ rest) =
      findChoice py s ((ds.getLast?.map (takesBdf s)).or isBdf) rest := by
  induction ds generalizing i isBdf with
  | nil => rfl
  | cons d ds ih =>
      have hd : ¬ Selects s i d := h 0 d rfl
      have hrest : ∀ k d, ds[k]? = some d → ¬ Selects s (i + 1 + k) d := by
        intro k d' hk
        rw [Nat.add_assoc, Nat.add_comm 1]
        exact h (k + 1) d' hk
      rw [choicesOf, List.cons_append, findChoice_miss_head hd, ih hrest]
      cases ds with
      | nil => rfl
      | cons d' ds => rw [List.getLast?_cons_cons]; simp [List.getLast?_cons]

/-! ## The selections -/

/-- The text selects a GPU with the handle. -/
def Named (devices : List (GpuDevice α)) (s : List Char) (h : α) : Prop :=
  ∃ i d, devices[i]? = some d ∧ Selects s i d ∧ d.handle = h

theorem Named.unique {h h' : α} (hdistinct : Distinct devices) (hs : Named devices s h)
    (hs' : Named devices s h') : h = h' := by
  obtain ⟨i, d, hi, hsel, rfl⟩ := hs
  obtain ⟨j, d', hj, hsel', rfl⟩ := hs'
  obtain rfl := selects_unique hdistinct hi hj hsel hsel'
  cases hi.symm.trans hj
  rfl

theorem findChoice_named {h : α} (hdistinct : Distinct devices) (hs : Named devices s h) :
    findChoice py s isBdf (choicesOf 0 devices ++ rest) = .ok (some h, some true) := by
  obtain ⟨i, d, hi, hsel, hhandle⟩ := hs
  have hfound : ∃ k d, devices[k]? = some d ∧ Selects s (0 + k) d ∧
      findChoice py s isBdf (choicesOf 0 devices ++ rest) = .ok (some d.handle, some true) :=
    findChoice_hit ⟨i, d, hi, by rwa [Nat.zero_add]⟩
  obtain ⟨k, d', hk, hsel', hfind⟩ := hfound
  rw [Nat.zero_add] at hsel'
  rw [hfind, Named.unique hdistinct ⟨k, d', hk, hsel', rfl⟩ ⟨i, d, hi, hsel, hhandle⟩]

theorem findChoice_unnamed (hs : ¬ ∃ h, Named devices s h) :
    findChoice py s isBdf (choicesOf 0 devices ++ rest) =
      findChoice py s ((devices.getLast?.map (takesBdf s)).or isBdf) rest := by
  refine findChoice_miss fun k d hk hsel => hs ⟨d.handle, k, d, hk, ?_, rfl⟩
  rwa [Nat.zero_add] at hsel

variable {before after sels : List (List Char)} {hs selected : List α}

/-- The selections that name GPUs are gone through, one by one. -/
theorem selectEach_named (hdistinct : Distinct devices) (h : List.Forall₂ (Named devices) before hs)
    (isBdf : Option Bool) (selected : List α) :
    ∃ isBdf', (isBdf' = isBdf ∨ devices ≠ []) ∧
      selectEach py (choicesOf 0 devices ++ rest) isBdf selected (before ++ after) =
        selectEach py (choicesOf 0 devices ++ rest) isBdf' (selected ++ hs) after := by
  induction h generalizing isBdf selected with
  | nil => exact ⟨isBdf, Or.inl rfl, by rw [List.append_nil]; rfl⟩
  | cons hnamed _ ih =>
      have hne : devices ≠ [] := by
        rintro rfl
        obtain ⟨i, d, hi, _⟩ := hnamed
        cases hi
      obtain ⟨isBdf', _, hrest⟩ := ih (some true) (selected ++ [_])
      refine ⟨isBdf', Or.inr hne, ?_⟩
      rw [List.cons_append, selectEach, findChoice_named hdistinct hnamed]
      refine hrest.trans ?_
      rw [List.append_assoc, List.singleton_append]

/-- The one that names no GPU ends the search. -/
theorem selectEach_unnamed (hs : ¬ ∃ h, Named devices s h) (hfree : isBdf = none ∨ devices ≠ []) :
    selectEach py (choicesOf 0 devices) isBdf selected (s :: after) =
      (validGpuFormat py (devices.getLast?.map (takesBdf s)) s).map (Selected.failed · s) := by
  have hbehind : (devices.getLast?.map (takesBdf s)).or isBdf =
      devices.getLast?.map (takesBdf s) := by
    cases hfree with
    | inl hnone => rw [hnone, Option.or_none]
    | inr hne => rw [List.getLast?_eq_some_getLast hne]; rfl
  have hfind : findChoice py s isBdf (choicesOf 0 devices ++ []) = _ := findChoice_unnamed hs
  rw [List.append_nil, hbehind] at hfind
  rw [selectEach, hfind, findChoice]
  show (validGpuFormat py _ s >>= fun v => _) = _
  cases validGpuFormat py (devices.getLast?.map (takesBdf s)) s with
  | error e => rfl
  | ok v => rfl

/-- With the entry `"all"` behind the GPUs, it ends in an exception. -/
theorem selectEach_all (hs : ¬ ∃ h, Named devices s h) :
    selectEach py (choicesOf 0 devices ++ [(allKey, .all)]) isBdf selected (s :: after) =
      .error .typeError := by
  rw [selectEach, findChoice_unnamed hs]
  rfl

/-- All selections name GPUs, or there is a first one that does not. -/
theorem named_or_split (devices : List (GpuDevice α)) (sels : List (List Char)) :
    (∃ hs, List.Forall₂ (Named devices) sels hs) ∨
      ∃ before s after hs, sels = before ++ s :: after ∧
        List.Forall₂ (Named devices) before hs ∧ ¬ ∃ h, Named devices s h := by
  induction sels with
  | nil => exact Or.inl ⟨[], .nil⟩
  | cons s sels ih =>
      by_cases hs : ∃ h, Named devices s h
      · obtain ⟨h, hnamed⟩ := hs
        rcases ih with ⟨hs, hall⟩ | ⟨before, s', after, hs, rfl, hbefore, hnot⟩
        · exact Or.inl ⟨h :: hs, .cons hnamed hall⟩
        · exact Or.inr ⟨s :: before, s', after, h :: hs, rfl, .cons hnamed hbefore, hnot⟩
      · exact Or.inr ⟨[], s, sels, [], rfl, .nil, hs⟩

theorem exists_of_forall₂ (h : List.Forall₂ (Named devices) sels hs) :
    ∀ t ∈ sels, ∃ h, Named devices t h := by
  induction h with
  | nil => exact fun t ht => absurd ht List.not_mem_nil
  | cons hnamed _ ih => exact List.forall_mem_cons.mpr ⟨⟨_, hnamed⟩, ih⟩

theorem forall₂_unique {hs' : List α} (hdistinct : Distinct devices)
    (h : List.Forall₂ (Named devices) sels hs) (h' : List.Forall₂ (Named devices) sels hs') :
    hs = hs' := by
  induction h generalizing hs' with
  | nil =>
      cases h'
      rfl
  | cons hnamed _ ih =>
      cases h' with
      | cons hnamed' hrest => rw [Named.unique hdistinct hnamed hnamed', ih hrest]

/-- There is only one first selection that names no GPU. -/
theorem first_unique {before' after' : List (List Char)} {s' : List Char}
    (h : before ++ s :: after = before' ++ s' :: after')
    (hbefore : ∀ t ∈ before, ∃ h, Named devices t h) (hs : ¬ ∃ h, Named devices s h)
    (hbefore' : ∀ t ∈ before', ∃ h, Named devices t h) (hs' : ¬ ∃ h, Named devices s' h) :
    s = s' := by
  induction before generalizing before' with
  | nil =>
      cases before' with
      | nil => exact (List.cons.inj h).1
      | cons t before' =>
          have hhead := (List.cons.inj h).1
          exact absurd (hhead ▸ hbefore' t List.mem_cons_self) hs
  | cons t before ih =>
      cases before' with
      | nil =>
          have hhead := (List.cons.inj h).1
          exact absurd (hhead ▸ hbefore t List.mem_cons_self) hs'
      | cons t' before' =>
          exact ih (List.cons.inj h).2 (fun t ht => hbefore t (List.mem_cons_of_mem _ ht))
            fun t ht => hbefore' t (List.mem_cons_of_mem _ ht)

/-- The selections that are found. -/
theorem selectEach_of_forall₂ (hdistinct : Distinct devices)
    (h : List.Forall₂ (Named devices) sels hs) :
    selectEach py (choicesOf 0 devices ++ rest) none [] sels = .ok (.handles hs) := by
  have hall : ∃ isBdf', (isBdf' = none ∨ devices ≠ []) ∧
      selectEach py (choicesOf 0 devices ++ rest) none [] (sels ++ []) =
        selectEach py (choicesOf 0 devices ++ rest) isBdf' ([] ++ hs) [] :=
    selectEach_named hdistinct h none []
  obtain ⟨isBdf', _, hrun⟩ := hall
  rw [List.append_nil] at hrun
  exact hrun

theorem filter_choicesOf (i : Nat) (ds : List (GpuDevice α)) :
    (choicesOf i ds).filter (fun choice => choice.1 ≠ allKey) = choicesOf i ds := by
  rw [List.filter_eq_self]
  intro choice hchoice
  rw [decide_eq_true_eq]
  intro hkey
  induction ds generalizing i with
  | nil => cases hchoice
  | cons d ds ih =>
      rw [choicesOf, List.mem_cons] at hchoice
      rcases hchoice with rfl | hchoice
      · have hkey' : Nat.toDigits 10 i = allKey := hkey
        have hletter : 'a' ∈ allKey := by decide
        exact notMem_toDigits rfl i (hkey' ▸ hletter)
      · exact ih (i + 1) hchoice

/-- What becomes of a selection that names no GPU.  One that has the form of a UUID, a number or,
as far as the last GPU goes, a BDF, stands for a GPU that is not there. -/
def refusal (py : PyText) (devices : List (GpuDevice α)) (s : List Char) :
    Except SelectionError (GpuArgument α) :=
  if isUuid s ∨ py.isDigit s then
    .ok (if s = [] then .missingParameterValue else .deviceNotFound s)
  else
    match devices.getLast? with
    | none => .error .unboundLocalError
    | some d =>
        .ok (if s = [] then .missingParameterValue
          else if takesBdf s d then .deviceNotFound s
          else .invalidParameterValue s)

theorem refusal_eq (py : PyText) (devices : List (GpuDevice α)) (s : List Char) :
    ((validGpuFormat py (devices.getLast?.map (takesBdf s)) s).map (Selected.failed · s)).map
      Selected.toArgument = refusal py devices s := by
  unfold validGpuFormat refusal
  split
  next => rfl
  next =>
    cases devices.getLast? with
    | none => rfl
    | some d =>
        show Except.ok (Selected.toArgument (.failed (takesBdf s d) s)) =
          .ok (if s = [] then .missingParameterValue
            else if takesBdf s d then .deviceNotFound s
            else .invalidParameterValue s)
        cases takesBdf s d with
        | false => rfl
        | true => rfl

theorem refusal_ne_handles (py : PyText) (devices : List (GpuDevice α)) (s : List Char) :
    refusal py devices s ≠ .ok (.handles hs) := by
  rw [refusal]
  split
  next => split <;> simp
  next =>
    split
    next => simp
    next => split <;> (try split) <;> simp

/-! ## The results -/

section Results

variable (py : PyText)

/-- What the search does with the table of choices, with or without the entry `"all"`. -/
theorem select_cases (hdistinct : Distinct devices) (sels : List (List Char)) :
    (∃ hs, List.Forall₂ (Named devices) sels hs ∧
      ∀ rest, selectEach py (choicesOf 0 devices ++ rest) none [] sels = .ok (.handles hs)) ∨
    ∃ before s after hs, sels = before ++ s :: after ∧
      List.Forall₂ (Named devices) before hs ∧ (¬ ∃ h, Named devices s h) ∧
      (selectEach py (choicesOf 0 devices) none [] sels).map Selected.toArgument =
        refusal py devices s ∧
      selectEach py (choicesOf 0 devices ++ [(allKey, .all)]) none [] sels = .error .typeError := by
  rcases named_or_split devices sels with ⟨hs, hall⟩ | ⟨before, s, after, hs, rfl, hbefore, hnot⟩
  · exact Or.inl ⟨hs, hall, fun rest => selectEach_of_forall₂ hdistinct hall⟩
  · refine Or.inr ⟨before, s, after, hs, rfl, hbefore, hnot, ?_, ?_⟩
    · have hrun : ∃ isBdf', (isBdf' = none ∨ devices ≠ []) ∧
          selectEach py (choicesOf 0 devices ++ []) none [] (before ++ s :: after) =
            selectEach py (choicesOf 0 devices ++ []) isBdf' ([] ++ hs) (s :: after) :=
        selectEach_named hdistinct hbefore none []
      obtain ⟨isBdf', hfree, hrun⟩ := hrun
      rw [List.append_nil] at hrun
      rw [hrun, selectEach_unnamed hnot hfree, refusal_eq]
    · obtain ⟨isBdf', _, hrun⟩ := selectEach_named hdistinct hbefore none []
      rw [hrun, selectEach_all hnot]

/-- The action searches the table without its last entry. -/
theorem gpuSelect_eq (hlisted : Listed lib devices) (hchoices : getGpuChoices lib = .ok choices)
    (hall : allKey ∉ sels) :
    gpuSelect py lib choices sels =
      (selectEach py (choicesOf 0 devices) none [] sels).map Selected.toArgument := by
  have hsels : ¬ (GpuSelections.list sels).hasAll = true := fun h => hall (of_decide_eq_true h)
  rw [getGpuChoices_eq hlisted] at hchoices
  cases hchoices
  rw [gpuSelect, getDeviceHandlesFromGpuSelections, if_neg hsels, List.filter_append,
    filter_choicesOf]
  have hlast : (if devices = [] then [] else [(allKey, GpuChoice.all)]).filter
      (fun choice : List Char × GpuChoice α => choice.1 ≠ allKey) = [] := by
    split
    next => rfl
    next => rfl
  rw [hlast, List.append_nil]
  rfl

/-- A selection of GPUs is the inverse of the table.  The texts of each GPU in the table select
that GPU, and no text selects two.  Selections give the handles of the GPUs that they name, in
their order, if all of them name one; otherwise the first one that does not is refused. -/
theorem selection_exact (hlisted : Listed lib devices) (hdistinct : Distinct devices)
    (hchoices : getGpuChoices lib = .ok choices) (sels : List (List Char)) :
    (∀ i d, devices[i]? = some d → Selects (Nat.toDigits 10 i) i d ∧ Selects d.uuid i d ∧
      Selects (d.uuid.map Char.toUpper) i d ∧
      (d.bdf.domainNumber < 2 ^ 16 → Selects (formatBdf d.bdf) i d)) ∧
    (∀ s h h', Named devices s h → Named devices s h' → h = h') ∧
    (allKey ∈ sels →
      gpuSelect py lib choices sels = .ok (.handles (devices.map GpuDevice.handle))) ∧
    (allKey ∉ sels →
      (∀ hs, gpuSelect py lib choices sels = .ok (.handles hs) ↔
        List.Forall₂ (Named devices) sels hs) ∧
      ∀ before s after, sels = before ++ s :: after → (∀ t ∈ before, ∃ h, Named devices t h) →
        (¬ ∃ h, Named devices s h) → gpuSelect py lib choices sels = refusal py devices s) := by
  refine ⟨fun i d hi => ?_, fun s h h' => Named.unique hdistinct, fun hall => ?_, fun hall => ?_⟩
  · refine ⟨Or.inl rfl, Or.inr (Or.inl (toLower_uuid d).1), Or.inr (Or.inl (toLower_uuid d).2), ?_⟩
    intro hdomain
    have hnumber : ∃ b, d.number = some b := ⟨_, if_pos hdomain⟩
    obtain ⟨b, hb⟩ := hnumber
    exact Or.inr (Or.inr ⟨b, hb, construct_formatBdf hb⟩)
  · have hsels : (GpuSelections.list sels).hasAll = true := decide_eq_true hall
    rw [gpuSelect, getDeviceHandlesFromGpuSelections, if_pos hsels, hlisted.handles]
    rfl
  · have hrun := gpuSelect_eq py hlisted hchoices hall
    rcases select_cases py hdistinct sels with ⟨hs, hnamed, hfound⟩ |
      ⟨before, s, after, hs, rfl, hbefore, hnot, hrefused, -⟩
    · have hok : gpuSelect py lib choices sels = .ok (.handles hs) := by
        have hfound' := hfound []
        rw [List.append_nil] at hfound'
        rw [hrun, hfound']
        rfl
      refine ⟨fun hs' => ?_, ?_⟩
      · rw [hok]
        constructor
        · intro heq
          cases heq
          exact hnamed
        · intro hnamed'
          rw [forall₂_unique hdistinct hnamed hnamed']
      · rintro before s after rfl - hnot
        exact absurd (exists_of_forall₂ hnamed s (by simp)) hnot
    · have hfailed := hrun.trans hrefused
      refine ⟨fun hs' => ?_, ?_⟩
      · rw [hfailed]
        constructor
        · exact fun heq => absurd heq (refusal_ne_handles py devices s)
        · exact fun hnamed => absurd (exists_of_forall₂ hnamed s (by simp)) hnot
      · intro before' s' after' hsplit hbefore' hnot'
        rw [hfailed, first_unique hsplit (exists_of_forall₂ hbefore) hnot hbefore' hnot']

/-- Without a table the function builds one, and a selection that names no GPU is compared with
the entry `"all"`: there is an exception, and no result says that the selection was not found. -/
theorem unknown_selection_raises (hlisted : Listed lib devices) (hdistinct : Distinct devices)
    (hne : devices ≠ []) (sels : List (List Char)) (hall : allKey ∉ sels) :
    (∀ hs, getDeviceHandlesFromGpuSelections py lib (.list sels) none = .ok (.handles hs) ↔
      List.Forall₂ (Named devices) sels hs) ∧
    (getDeviceHandlesFromGpuSelections py lib (.list sels) none = .error .typeError ↔
      ∃ s ∈ sels, ¬ ∃ h, Named devices s h) ∧
    ∀ v s, getDeviceHandlesFromGpuSelections py lib (.list sels) none ≠ .ok (.failed v s) := by
  have hsels : ¬ (GpuSelections.list sels).hasAll = true := fun h => hall (of_decide_eq_true h)
  have hrun : getDeviceHandlesFromGpuSelections py lib (.list sels) none =
      selectEach py (choicesOf 0 devices ++ [(allKey, .all)]) none [] sels := by
    rw [getDeviceHandlesFromGpuSelections, if_neg hsels, getGpuChoices_eq hlisted, if_neg hne]
    rfl
  rw [hrun]
  rcases select_cases py hdistinct sels with ⟨hs, hnamed, hfound⟩ |
    ⟨before, s, after, hs, rfl, hbefore, hnot, -, hraised⟩
  · rw [hfound]
    refine ⟨fun hs' => ⟨fun heq => ?_, fun hnamed' => ?_⟩, ⟨fun heq => (by cases heq), ?_⟩,
      fun v s heq => (by cases heq)⟩
    · cases heq
      exact hnamed
    · rw [forall₂_unique hdistinct hnamed hnamed']
    · rintro ⟨s, hs, hnot⟩
      exact absurd (exists_of_forall₂ hnamed s hs) hnot
  · rw [hraised]
    refine ⟨fun hs' => ⟨fun heq => (by cases heq), fun hnamed => ?_⟩, ⟨fun _ => ?_, fun _ => rfl⟩,
      fun v s heq => (by cases heq)⟩
    · exact absurd (exists_of_forall₂ hnamed s (by simp)) hnot
    · exact ⟨s, by simp, hnot⟩

/-- A library with two GPUs of one kind. -/
def sampleDevices : List (GpuDevice Bool) :=
  [⟨⟨0, 0, 3, 0⟩, 0x1234, 0x744c, false⟩, ⟨⟨1, 0, 0x83, 0x10000⟩, 0x1235, 0x744c, true⟩]

def sampleLibrary : GpuLibrary Bool where
  handles := .ok [false, true]
  bdf handle := if handle then .ok ⟨1, 0, 0x83, 0x10000⟩ else .ok ⟨0, 0, 3, 0⟩
  asic handle := if handle then .ok (0x1235, 0x744c) else .ok (0x1234, 0x744c)

/-- The methods on texts of ASCII characters. -/
def asciiText : PyText where
  lower s := s.map Char.toLower
  isDigit s := s ≠ [] ∧ s.all Char.isDigit
  lower_eq_iff _ _ _ := Iff.rfl

theorem listed_sample : Listed sampleLibrary sampleDevices where
  handles := rfl
  bdf := List.forall_mem_cons.mpr ⟨rfl, List.forall_mem_singleton.mpr rfl⟩
  asic := List.forall_mem_cons.mpr ⟨rfl, List.forall_mem_singleton.mpr rfl⟩

theorem distinct_sample : Distinct sampleDevices where
  bdf := by
    simp [sampleDevices]
  asic := by decide

/-- The first GPU by its BDF, without the segment, and the second one by its number. -/
theorem selection_exact_sample :
    gpuSelect asciiText sampleLibrary (choicesOf 0 sampleDevices ++ [(allKey, .all)])
      ["03:00.0".toList, "1".toList] = .ok (.handles [false, true]) := by
  have hexact := selection_exact asciiText listed_sample distinct_sample
    (getGpuChoices_eq listed_sample) ["03:00.0".toList, "1".toList]
  refine ((hexact.2.2.2 (by decide)).1 [false, true]).mpr ?_
  have hfirst : Named sampleDevices "03:00.0".toList false :=
    ⟨0, _, rfl, Or.inr (Or.inr ⟨⟨0, 3, 0, 0⟩, rfl, rfl⟩), rfl⟩
  have hsecond : Named sampleDevices "1".toList true := ⟨1, _, rfl, Or.inl rfl, rfl⟩
  exact .cons hfirst (.cons hsecond .nil)

/-- There is no third GPU. -/
theorem unknown_selection_raises_sample :
    getDeviceHandlesFromGpuSelections asciiText sampleLibrary (.list ["2".toList]) none =
        .error .typeError ∧
      ∃ s ∈ ["2".toList], ¬ ∃ h, Named sampleDevices s h := by
  have hrun : getDeviceHandlesFromGpuSelections asciiText sampleLibrary (.list ["2".toList]) none =
      .error .typeError := by
    decide +kernel
  exact ⟨hrun, ((unknown_selection_raises asciiText listed_sample distinct_sample
    (List.cons_ne_nil _ _) ["2".toList] (by decide)).2.1).mp hrun⟩

end Results

end GpuSelection

end RocDxg
