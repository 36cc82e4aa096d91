import RocDxg.Bdf.Interface
import RocDxg.Platform.Smi

/-!
# Devices by their BDF

`amdsmi_get_gpu_device_bdf`, `amdsmi_get_gpu_bdf_id` and `amdsmi_get_processor_handle_from_bdf` of
`amd_smi.cc` on an initialised library, with the functions of the same names of
`amdsmi_interface.py`, which print a BDF and read one.

The driver has 32 bits for each of the four numbers.  The struct of the library has less for three
of them, and the text has less for the domain.  A device is found again by its text exactly if its
numbers fit in both and no device before it has the same ones (`found_by_text`).
-/

namespace RocDxg

open Lib (hexValue)
open Lib.Pattern (EndsLine)
open Bdf (AmdsmiBdf formatBdf parseBdf toList)

/-- What a bit field of `k` bits holds after an assignment. -/
def bitField (k n : Nat) : Fin (2 ^ k) := ⟨n % 2 ^ k, Nat.mod_lt n (Nat.two_pow_pos k)⟩

/-- `BdfInfo` -/
structure BdfInfo where
  domainNumber : BitVec 32
  busNumber : BitVec 32
  deviceNumber : BitVec 32
  functionNumber : BitVec 32
deriving DecidableEq, Repr

namespace BdfInfo

/-- The numbers in the fields of `amdsmi_bdf_t`, which has 3, 5, 8 and 48 bits. -/
def toStruct (bi : BdfInfo) : AmdsmiBdf where
  functionNumber := bitField 3 bi.functionNumber.toNat
  deviceNumber := bitField 5 bi.deviceNumber.toNat
  busNumber := bitField 8 bi.busNumber.toNat
  domainNumber := bi.domainNumber.toNat

/-- The comparison with a struct, whose fields have as many bits as the numbers then. -/
def matchesStruct (bi : BdfInfo) (bdf : AmdsmiBdf) : Bool :=
  (bdf.busNumber : Nat) = bi.busNumber.toNat ∧
    (bdf.deviceNumber : Nat) = bi.deviceNumber.toNat ∧
    bdf.domainNumber = bi.domainNumber.toNat ∧
    (bdf.functionNumber : Nat) = bi.functionNumber.toNat

/-- The value of `amdsmi_get_gpu_bdf_id`. -/
def bdfId (bi : BdfInfo) : BitVec 64 :=
  ((bi.domainNumber &&& 0xFFFFFFFF).setWidth 64 <<< 32) |||
    ((bi.busNumber &&& 0xFF).setWidth 64 <<< 8) |||
    ((bi.deviceNumber &&& 0x1F).setWidth 64 <<< 3) |||
    (bi.functionNumber &&& 0x7).setWidth 64

/-- The numbers, as they are listed. -/
def numbers (bi : BdfInfo) : List Nat :=
  [bi.domainNumber.toNat, bi.busNumber.toNat, bi.deviceNumber.toNat, bi.functionNumber.toNat]

/-- The numbers fit in the struct. -/
structure Fits (bi : BdfInfo) : Prop where
  bus : bi.busNumber.toNat < 2 ^ 8
  device : bi.deviceNumber.toNat < 2 ^ 5
  function : bi.functionNumber.toNat < 2 ^ 3

end BdfInfo

/-- The devices of the platform, of which `GetDevice` may return a null pointer, and what
`QueryBdfInfo` answers for each. -/
structure BdfPlatform (α : Type) where
  devices : List (Option α)
  queryBdfInfo : α → Except ErrorCode BdfInfo

namespace BdfPlatform

variable {α : Type}

/-! ## The library -/

/-- A struct that is zero. -/
def zeroBdf : AmdsmiBdf := ⟨bitField 3 0, bitField 5 0, bitField 8 0, 0⟩

/-- `amdsmi_get_gpu_device_bdf`: the status and the struct, which is zero before it is filled. -/
def amdsmiGetGpuDeviceBdf (p : BdfPlatform α) : Option α → SmiStatus × AmdsmiBdf
  | none => (.notFound, zeroBdf)
  | some device =>
      match p.queryBdfInfo device with
      | .error code => (translateCodeToSmiStatus code, zeroBdf)
      | .ok bi => (.success, bi.toStruct)

/-- `amdsmi_get_gpu_bdf_id`: the status and the value of `bdfid`. -/
def amdsmiGetGpuBdfId (p : BdfPlatform α) (bdfid : BitVec 64) : Option α → SmiStatus × BitVec 64
  | none => (.inval, bdfid)
  | some device =>
      match p.queryBdfInfo device with
      | .error code => (translateCodeToSmiStatus code, bdfid)
      | .ok bi => (.success, bi.bdfId)

/-- The loop over the devices. -/
def findBdf (p : BdfPlatform α) (bdf : AmdsmiBdf) : List (Option α) → SmiStatus × Option α
  | [] => (.notFound, none)
  | none :: _ => (.apiFailed, none)
  | some pdev :: devices =>
      match p.queryBdfInfo pdev with
      | .error _ => findBdf p bdf devices
      | .ok bi => if bi.matchesStruct bdf then (.success, some pdev) else findBdf p bdf devices

/-- `amdsmi_get_processor_handle_from_bdf`: the status and the handle, which is null before. -/
def amdsmiGetProcessorHandleFromBdf (p : BdfPlatform α) (bdf : AmdsmiBdf) : SmiStatus × Option α :=
  findBdf p bdf (p.devices.take (u32 p.devices.length))

/-! ## The interface -/

/-- The exceptions of the interface. -/
inductive InterfaceError where
  | libraryException (status : SmiStatus)
  | bdfFormatException
  | valueError
  /-- No struct is passed to the library. -/
  | argumentError
deriving DecidableEq, Repr

/-- `_check_res` -/
def checkRes (status : SmiStatus) : Except InterfaceError Unit :=
  if status = .success then .ok () else .error (.libraryException status)

/-- `_make_amdsmi_bdf_from_list` -/
def makeAmdsmiBdfFromList : List Nat → Option AmdsmiBdf
  | [domain, bus, device, function] =>
      some ⟨bitField 3 function, bitField 5 device, bitField 8 bus, domain % 2 ^ 48⟩
  | _ => none

/-- `amdsmi_get_gpu_device_bdf` of the interface. -/
def getGpuDeviceBdf (p : BdfPlatform α) (processorHandle : Option α) :
    Except InterfaceError (List Char) := do
  let answer := p.amdsmiGetGpuDeviceBdf processorHandle
  checkRes answer.1
  return formatBdf answer.2

/-- `amdsmi_get_processor_handle_from_bdf` of the interface. -/
def getProcessorHandleFromBdf (p : BdfPlatform α) (bdf : List Char) :
    Except InterfaceError (Option α) :=
  match parseBdf bdf with
  | .error _ => .error .valueError
  | .ok none => .error .bdfFormatException
  | .ok (some numbers) =>
      match makeAmdsmiBdfFromList numbers with
      | none => .error .argumentError
      | some amdsmiBdf => do
          let answer := p.amdsmiGetProcessorHandleFromBdf amdsmiBdf
          checkRes answer.1
          return answer.2

/-! ## The identifier -/

/-- The bits of a number under a mask. -/
theorem getLsbD_and_mask (x : BitVec 32) {k : Nat} (hk : k ≤ 32) (i : Nat) :
    (x &&& BitVec.ofNat 32 (2 ^ k - 1)).getLsbD i = (x.getLsbD i && decide (i < k)) := by
  rw [BitVec.getLsbD_and, BitVec.getLsbD_ofNat, Nat.testBit_two_pow_sub_one]
  by_cases h : i < k
  · rw [decide_eq_true (Nat.lt_of_lt_of_le h hk), decide_eq_true h, Bool.true_and]
  · rw [decide_eq_false h, Bool.and_false]

/-- The bits of an identifier. -/
theorem getLsbD_bdfId (bi : BdfInfo) {i : Nat} (hi : i < 64) :
    bi.bdfId.getLsbD i =
      if i < 3 then bi.functionNumber.getLsbD i
      else if i < 8 then bi.deviceNumber.getLsbD (i - 3)
      else if i < 16 then bi.busNumber.getLsbD (i - 8)
      else if i < 32 then false
      else bi.domainNumber.getLsbD (i - 32) := by
  have hdomain : ∀ i, (bi.domainNumber &&& 0xFFFFFFFF).getLsbD i =
      (bi.domainNumber.getLsbD i && decide (i < 32)) := getLsbD_and_mask (k := 32) _ (by decide)
  have hbus : ∀ i, (bi.busNumber &&& 0xFF).getLsbD i =
      (bi.busNumber.getLsbD i && decide (i < 8)) := getLsbD_and_mask (k := 8) _ (by decide)
  have hdevice : ∀ i, (bi.deviceNumber &&& 0x1F).getLsbD i =
      (bi.deviceNumber.getLsbD i && decide (i < 5)) := getLsbD_and_mask (k := 5) _ (by decide)
  have hfunction : ∀ i, (bi.functionNumber &&& 0x7).getLsbD i =
      (bi.functionNumber.getLsbD i && decide (i < 3)) := getLsbD_and_mask (k := 3) _ (by decide)
  simp only [BdfInfo.bdfId, BitVec.getLsbD_or, BitVec.getLsbD_shiftLeft, BitVec.getLsbD_setWidth]
  rw [hdomain, hbus, hdevice, hfunction]
  grind

/-- Numbers of `k` bits are the same if these bits are. -/
theorem eq_of_low_bits {x x' : BitVec 32} {k : Nat} (hx : x.toNat < 2 ^ k) (hx' : x'.toNat < 2 ^ k)
    (h : ∀ i < k, x.getLsbD i = x'.getLsbD i) : x = x' := by
  have hhigh : ∀ y : BitVec 32, y.toNat < 2 ^ k → ∀ i, k ≤ i → y.getLsbD i = false := by
    intro y hy i hi
    exact Nat.testBit_lt_two_pow (Nat.lt_of_lt_of_le hy (Nat.pow_le_pow_right (by decide) hi))
  refine BitVec.eq_of_getLsbD_eq fun i _ => ?_
  by_cases hi : i < k
  · exact h i hi
  · rw [hhigh x hx i (Nat.not_lt.mp hi), hhigh x' hx' i (Nat.not_lt.mp hi)]

/-- Devices with one identifier have the same numbers, if these fit. -/
theorem bdfId_injective {bi bi' : BdfInfo} (hbi : bi.Fits) (hbi' : bi'.Fits)
    (h : bi.bdfId = bi'.bdfId) : bi = bi' := by
  have hbits : ∀ i < 64, bi.bdfId.getLsbD i = bi'.bdfId.getLsbD i := fun i _ => by rw [h]
  obtain ⟨domain, bus, device, function⟩ := bi
  obtain ⟨domain', bus', device', function'⟩ := bi'
  have hdomain : domain = domain' := by
    refine eq_of_low_bits domain.isLt domain'.isLt fun i hi => ?_
    have hbit := hbits (i + 32) (by omega)
    rw [getLsbD_bdfId _ (by omega), getLsbD_bdfId _ (by omega)] at hbit
    grind
  have hbus : bus = bus' := by
    refine eq_of_low_bits hbi.bus hbi'.bus fun i hi => ?_
    have hbit := hbits (i + 8) (by omega)
    rw [getLsbD_bdfId _ (by omega), getLsbD_bdfId _ (by omega)] at hbit
    grind
  have hdevice : device = device' := by
    refine eq_of_low_bits hbi.device hbi'.device fun i hi => ?_
    have hbit := hbits (i + 3) (by omega)
    rw [getLsbD_bdfId _ (by omega), getLsbD_bdfId _ (by omega)] at hbit
    grind
  have hfunction : function = function' := by
    refine eq_of_low_bits hbi.function hbi'.function fun i hi => ?_
    have hbit := hbits i (by omega)
    rw [getLsbD_bdfId _ (by omega), getLsbD_bdfId _ (by omega), if_pos hi, if_pos hi] at hbit
    exact hbit
  rw [hdomain, hbus, hdevice, hfunction]

/-! ## The search -/

variable {p : BdfPlatform α} {bi bi' : BdfInfo} {d : α} {ds : List (Option α)} {s : List Char}
  {a b c e : Nat}

/-- The first device with these numbers. -/
def First (p : BdfPlatform α) (bi : BdfInfo) (d : α) : Prop :=
  ∃ before after, p.devices = before ++ some d :: after ∧ p.queryBdfInfo d = .ok bi ∧
    ∀ x, some x ∈ before → p.queryBdfInfo x ≠ .ok bi

/-- A device matches a struct if its numbers are those of the struct. -/
theorem matchesStruct_iff {bdf : AmdsmiBdf} : bi.matchesStruct bdf = true ↔
    bi.numbers = [bdf.domainNumber, (bdf.busNumber : Nat), (bdf.deviceNumber : Nat),
      (bdf.functionNumber : Nat)] := by
  rw [BdfInfo.matchesStruct, decide_eq_true_eq, BdfInfo.numbers]
  simp only [List.cons.injEq, and_true]
  constructor
  · rintro ⟨hbus, hdevice, hdomain, hfunction⟩
    exact ⟨hdomain.symm, hbus.symm, hdevice.symm, hfunction.symm⟩
  · rintro ⟨hdomain, hbus, hdevice, hfunction⟩
    exact ⟨hbus.symm, hdevice.symm, hdomain.symm, hfunction.symm⟩

theorem numbers_injective (h : bi.numbers = bi'.numbers) : bi = bi' := by
  obtain ⟨domain, bus, device, function⟩ := bi
  obtain ⟨domain', bus', device', function'⟩ := bi'
  simp only [BdfInfo.numbers, List.cons.injEq, and_true, BitVec.toNat_inj] at h
  obtain ⟨rfl, rfl, rfl, rfl⟩ := h
  rfl

/-- The device answers, and its numbers are those of the struct. -/
def Hits (p : BdfPlatform α) (bdf : AmdsmiBdf) (d : α) : Prop :=
  ∃ bi, p.queryBdfInfo d = .ok bi ∧ bi.matchesStruct bdf = true

theorem findBdf_hit {bdf : AmdsmiBdf} (h : p.Hits bdf d) :
    p.findBdf bdf (some d :: ds) = (.success, some d) := by
  obtain ⟨bi, hquery, hmatch⟩ := h
  rw [findBdf, hquery]
  exact if_pos hmatch

theorem findBdf_miss {bdf : AmdsmiBdf} (h : ¬ p.Hits bdf d) :
    p.findBdf bdf (some d :: ds) = p.findBdf bdf ds := by
  rw [findBdf]
  cases hquery : p.queryBdfInfo d with
  | error code => rfl
  | ok bi => exact if_neg fun hmatch => h ⟨bi, hquery, hmatch⟩

/-- The loop finds the first device that hits. -/
theorem findBdf_eq_success_iff {bdf : AmdsmiBdf} (hnull : none ∉ ds) :
    p.findBdf bdf ds = (.success, some d) ↔
      ∃ before after, ds = before ++ some d :: after ∧ p.Hits bdf d ∧
        ∀ x, some x ∈ before → ¬ p.Hits bdf x := by
  induction ds with
  | nil =>
      constructor
      · intro h
        cases h
      · rintro ⟨before, after, hsplit, -⟩
        cases before <;> cases hsplit
  | cons y ds ih =>
      cases y with
      | none => exact absurd List.mem_cons_self hnull
      | some y =>
          have hrest := ih fun h => hnull (List.mem_cons_of_mem _ h)
          by_cases hy : p.Hits bdf y
          · rw [findBdf_hit hy]
            constructor
            · intro h
              cases h
              exact ⟨[], ds, rfl, hy, fun x hx => absurd hx List.not_mem_nil⟩
            · rintro ⟨before, after, hsplit, -, hbefore⟩
              cases before with
              | nil =>
                  cases hsplit
                  rfl
              | cons z before =>
                  cases hsplit
                  exact absurd hy (hbefore y List.mem_cons_self)
          · rw [findBdf_miss hy, hrest]
            constructor
            · rintro ⟨before, after, rfl, hd, hbefore⟩
              refine ⟨some y :: before, after, rfl, hd, fun x hx => ?_⟩
              cases List.mem_cons.mp hx with
              | inl hxy =>
                  cases hxy
                  exact hy
              | inr hx => exact hbefore x hx
            · rintro ⟨before, after, hsplit, hd, hbefore⟩
              cases before with
              | nil =>
                  cases hsplit
                  exact absurd hd hy
              | cons z before =>
                  cases hsplit
                  exact ⟨before, after, rfl, hd, fun x hx => hbefore x (List.mem_cons_of_mem _ hx)⟩

/-- A device that hits has the numbers of any other one that does. -/
theorem hits_iff {bdf : AmdsmiBdf} (hbi : bi.matchesStruct bdf = true) :
    p.Hits bdf d ↔ p.queryBdfInfo d = .ok bi := by
  constructor
  · rintro ⟨bi', hquery, hmatch⟩
    have hsame : bi' = bi :=
      numbers_injective ((matchesStruct_iff.mp hmatch).trans (matchesStruct_iff.mp hbi).symm)
    rw [hquery, hsame]
  · exact fun hquery => ⟨bi, hquery, hbi⟩

/-- The library finds the first device with the numbers of the struct. -/
theorem lookup_iff {bdf : AmdsmiBdf} (hnull : none ∉ p.devices) (hlen : p.devices.length < 2 ^ 32) :
    p.amdsmiGetProcessorHandleFromBdf bdf = (.success, some d) ↔
      ∃ bi, First p bi d ∧ bi.matchesStruct bdf = true := by
  rw [amdsmiGetProcessorHandleFromBdf, u32_of_lt hlen, List.take_length,
    findBdf_eq_success_iff hnull]
  constructor
  · rintro ⟨before, after, hsplit, ⟨bi, hquery, hmatch⟩, hbefore⟩
    exact ⟨bi, ⟨before, after, hsplit, hquery,
      fun x hx hbi => hbefore x hx ((hits_iff hmatch).mpr hbi)⟩, hmatch⟩
  · rintro ⟨bi, ⟨before, after, hsplit, hquery, hbefore⟩, hmatch⟩
    exact ⟨before, after, hsplit, ⟨bi, hquery, hmatch⟩,
      fun x hx hhit => hbefore x hx ((hits_iff hmatch).mp hhit)⟩

/-! ## Texts -/

/-- A text that is read gives four numbers that fit in the struct. -/
theorem parseBdf_bounds {l : List Nat} (h : parseBdf s = .ok (some l)) :
    ∃ a b c e, l = [a, b, c, e] ∧ a < 2 ^ 16 ∧ b < 2 ^ 8 ∧ c < 2 ^ 5 ∧ e < 2 ^ 3 := by
  by_cases hline : ∃ w : BdfText, w.InRange ∧ EndsLine s w.text
  · obtain ⟨w, hrange, hw⟩ := hline
    rw [Bdf.parseBdf_of_endsLine hw hrange] at h
    cases h
    refine ⟨w.value.segment, w.value.bus, w.value.device, w.value.function, rfl, ?_, ?_, ?_, ?_⟩
    · show (w.segment.map hexValue).getD 0 < 2 ^ 16
      cases hs : w.segment with
      | none => exact Nat.two_pow_pos 16
      | some seg =>
          have hlt := Lib.hexValue_lt seg
          rw [(w.segment_digits seg hs).length] at hlt
          exact hlt
    · have hlt := Lib.hexValue_lt w.bus
      rw [w.bus_digits.length] at hlt
      exact hlt
    · exact Nat.lt_succ_of_le hrange.1
    · exact Nat.lt_succ_of_le hrange.2
  · rw [Bdf.parseBdf_eq_none fun w hrange hw => hline ⟨w, hrange, hw⟩] at h
    cases h

theorem makeAmdsmiBdfFromList_eq (ha : a < 2 ^ 16) (hb : b < 2 ^ 8) (hc : c < 2 ^ 5)
    (he : e < 2 ^ 3) : ∃ bdf, makeAmdsmiBdfFromList [a, b, c, e] = some bdf ∧
      [bdf.domainNumber, (bdf.busNumber : Nat), (bdf.deviceNumber : Nat),
        (bdf.functionNumber : Nat)] = [a, b, c, e] := by
  refine ⟨_, rfl, ?_⟩
  simp only [bitField]
  rw [Nat.mod_eq_of_lt hb, Nat.mod_eq_of_lt hc, Nat.mod_eq_of_lt he,
    Nat.mod_eq_of_lt (Nat.lt_trans ha (by decide))]

theorem checked_iff {answer : SmiStatus × Option α} :
    (do checkRes answer.1; return answer.2 : Except InterfaceError (Option α)) = .ok (some d) ↔
      answer = (.success, some d) := by
  obtain ⟨status, handle⟩ := answer
  by_cases hstatus : status = .success
  · subst hstatus
    constructor
    · intro h
      cases h
      rfl
    · intro h
      cases h
      rfl
  · have hraise : checkRes status = .error (.libraryException status) := if_neg hstatus
    constructor
    · intro h
      rw [hraise] at h
      cases h
    · intro h
      cases h
      exact absurd rfl hstatus

/-- The interface finds the first device with the numbers that it reads in a text. -/
theorem getProcessorHandleFromBdf_iff (hnull : none ∉ p.devices)
    (hlen : p.devices.length < 2 ^ 32) :
    p.getProcessorHandleFromBdf s = .ok (some d) ↔
      ∃ bi, First p bi d ∧ parseBdf s = .ok (some bi.numbers) := by
  rw [getProcessorHandleFromBdf]
  cases hparse : parseBdf s with
  | error e =>
      constructor
      · intro h
        cases h
      · rintro ⟨bi, -, h⟩
        cases h
  | ok parsed =>
      cases parsed with
      | none =>
          constructor
          · intro h
            cases h
          · rintro ⟨bi, -, h⟩
            cases h
      | some l =>
          obtain ⟨a, b, c, e, rfl, ha, hb, hc, he⟩ := parseBdf_bounds hparse
          obtain ⟨bdf, hmake, hfields⟩ := makeAmdsmiBdfFromList_eq ha hb hc he
          simp only [hmake]
          rw [checked_iff, lookup_iff hnull hlen]
          refine exists_congr fun bi => and_congr_right fun _ => ?_
          rw [matchesStruct_iff, hfields]
          constructor
          · exact fun h => by rw [h]
          · exact fun h => (Option.some.inj (Except.ok.inj h)).symm

/-- What the interface prints for a device. -/
theorem getGpuDeviceBdf_eq (h : p.queryBdfInfo d = .ok bi) :
    p.getGpuDeviceBdf (some d) = .ok (formatBdf bi.toStruct) := by
  rw [getGpuDeviceBdf, amdsmiGetGpuDeviceBdf, h]
  rfl

/-- The printed numbers are those of the device if these fit. -/
theorem numbers_toStruct_iff :
    [bi.toStruct.domainNumber, (bi.toStruct.busNumber : Nat), (bi.toStruct.deviceNumber : Nat),
      (bi.toStruct.functionNumber : Nat)] = bi.numbers ↔ bi.Fits := by
  simp only [BdfInfo.toStruct, BdfInfo.numbers, bitField, List.cons.injEq, and_true, true_and]
  constructor
  · rintro ⟨hbus, hdevice, hfunction⟩
    exact ⟨hbus ▸ Nat.mod_lt _ (by decide), hdevice ▸ Nat.mod_lt _ (by decide),
      hfunction ▸ Nat.mod_lt _ (by decide)⟩
  · rintro ⟨hbus, hdevice, hfunction⟩
    exact ⟨Nat.mod_eq_of_lt hbus, Nat.mod_eq_of_lt hdevice, Nat.mod_eq_of_lt hfunction⟩

/-- Devices and their BDFs.  A text gives the first device with the numbers that are read in it.
The text that is printed for a device gives that device again exactly if its numbers fit in the
struct and in the text and no device before it has the same ones.  The identifiers of devices
whose numbers fit are the same only if the numbers are. -/
theorem found_by_text (p : BdfPlatform α) (hnull : none ∉ p.devices)
    (hlen : p.devices.length < 2 ^ 32) :
    (∀ s d, p.getProcessorHandleFromBdf s = .ok (some d) ↔
      ∃ bi, First p bi d ∧ parseBdf s = .ok (some bi.numbers)) ∧
    (∀ d bi, p.queryBdfInfo d = .ok bi →
      ∃ text, p.getGpuDeviceBdf (some d) = .ok text ∧
        (p.getProcessorHandleFromBdf text = .ok (some d) ↔
          First p bi d ∧ bi.Fits ∧ bi.domainNumber.toNat < 2 ^ 16)) ∧
    ∀ d d' bi bi', p.queryBdfInfo d = .ok bi → p.queryBdfInfo d' = .ok bi' → bi.Fits → bi'.Fits →
      p.amdsmiGetGpuBdfId 0 (some d) = p.amdsmiGetGpuBdfId 0 (some d') → bi = bi' := by
  refine ⟨fun s d => getProcessorHandleFromBdf_iff hnull hlen, fun d bi hquery => ?_, ?_⟩
  · refine ⟨_, getGpuDeviceBdf_eq hquery, ?_⟩
    rw [getProcessorHandleFromBdf_iff hnull hlen, Bdf.parseBdf_formatBdf]
    constructor
    · rintro ⟨bi', hfirst, hparse⟩
      have hsame : bi' = bi := by
        obtain ⟨-, -, -, hquery', -⟩ := hfirst
        exact Except.ok.inj (hquery'.symm.trans hquery)
      subst hsame
      split at hparse
      next hdomain =>
        have hfits := numbers_toStruct_iff.mp (Option.some.inj (Except.ok.inj hparse))
        exact ⟨hfirst, hfits, hdomain⟩
      next => cases hparse
    · rintro ⟨hfirst, hfits, hdomain⟩
      have hshort : bi.toStruct.domainNumber < 2 ^ 16 := hdomain
      exact ⟨bi, hfirst, by rw [if_pos hshort, numbers_toStruct_iff.mpr hfits]⟩
  · intro d d' bi bi' hquery hquery' hfits hfits' hid
    rw [amdsmiGetGpuBdfId, amdsmiGetGpuBdfId, hquery, hquery'] at hid
    exact bdfId_injective hfits hfits' (Prod.mk.inj hid).2

/-- Two devices with one BDF, and a device that does not answer. -/
def samplePlatform : BdfPlatform Nat where
  devices := [some 7, some 3, some 4]
  queryBdfInfo d := if d = 7 then .error .notReady else .ok ⟨0, 3, 0, 0⟩

/-- The text gives the first one. -/
theorem found_by_text_first :
    samplePlatform.getProcessorHandleFromBdf "0000:03:00.0".toList = .ok (some 3) ∧
      (samplePlatform.getProcessorHandleFromBdf (formatBdf ⟨0, 0, 3, 0⟩) ≠ .ok (some 4)) := by
  obtain ⟨hread, hprint, -⟩ := found_by_text samplePlatform (by decide) (by decide)
  refine ⟨(hread _ 3).mpr ⟨⟨0, 3, 0, 0⟩, ?_, rfl⟩, fun hfound => ?_⟩
  · exact ⟨[some 7], [some 4], rfl, rfl, fun x hx => by
      cases List.mem_singleton.mp hx
      exact fun h => (by cases h)⟩
  · obtain ⟨text, htext, hiff⟩ := hprint 4 ⟨0, 3, 0, 0⟩ rfl
    have hsame : text = formatBdf ⟨0, 0, 3, 0⟩ := (Except.ok.inj htext).symm
    subst hsame
    obtain ⟨⟨before, after, hsplit, -, hbefore⟩, -⟩ := hiff.mp hfound
    refine hbefore 3 ?_ rfl
    cases before with
    | nil => cases hsplit
    | cons x before =>
        cases before with
        | nil => cases hsplit
        | cons y before =>
            have hy : some 3 = y := (List.cons.inj (List.cons.inj hsplit).2).1
            exact hy ▸ List.mem_cons_of_mem _ List.mem_cons_self

end BdfPlatform

end RocDxg
