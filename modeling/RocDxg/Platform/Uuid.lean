import Mathlib.Data.List.Basic
import RocDxg.Lib.Buffer
import RocDxg.Lib.CString
import RocDxg.Platform.Smi

/-!
# The UUID of a GPU

`amdsmi_uuid_gen` of `amd_smi_uuid.cc`.  The serial number is put into four fields of a UUID, one
of them in the place of the low byte of the clock sequence, and the device id and the index into
the rest of the first word.  The fields are printed one behind the other, each print over the
terminator of the one before.

What is written is a UUID of version 1 and of the variant `10` (`IsUuid`), and `recover` finds the
serial number, the device id and the index in it (`amdsmiUuidGen_wellFormed`).
-/

namespace RocDxg

open Lib (Buffer hexDigit hexValue)

/-- `uuid_t` -/
structure Uuid where
  did : BitVec 16 := 0
  fcn : BitVec 8 := 0
  asic7 : BitVec 8 := 0
  timeMid : BitVec 16 := 0
  timeHigh : BitVec 12 := 0
  version : BitVec 4 := 0
  clkSeqHi : BitVec 6 := 0
  variant : BitVec 2 := 0
  /-- `clk_seq_low`, which is `asic_6` too. -/
  clkSeqLow : BitVec 8 := 0
  asic4 : BitVec 16 := 0
  asic0 : BitVec 32 := 0
deriving DecidableEq, Repr

namespace Uuid

/-- `time_low`, the word that the first three fields are in. -/
def timeLow (u : Uuid) : BitVec 32 := u.asic7 ++ u.fcn ++ u.did

/-- What `%0wx` prints. -/
def hexField (w n : Nat) : List Char := (Nat.toDigits 16 n).leftpad w '0'

/-- `sprintf(str + off, ..)`, which prints a text and its terminator. -/
def sprintf (str : Buffer Char) (off : Nat) (text : List Char) : Buffer Char :=
  str.put off (text ++ ['\x00'])

/-- `print_uuid` -/
def printUuid (str : Buffer Char) (uuid : Uuid) : Buffer Char :=
  let str := sprintf str 0 (hexField 8 uuid.timeLow.toNat)
  let str := sprintf str 8 ['-']
  let str := sprintf str 9 (hexField 4 uuid.timeMid.toNat)
  let str := sprintf str 13 ['-']
  let str := sprintf str 14 (hexField 4 (uuid.version.toNat <<< 12 ||| uuid.timeHigh.toNat))
  let str := sprintf str 18 ['-']
  let str := sprintf str (14 + 5) (hexField 2 (uuid.variant.toNat <<< 6 ||| uuid.clkSeqHi.toNat))
  let str := sprintf str (16 + 5) (hexField 2 uuid.clkSeqLow.toNat)
  let str := sprintf str (18 + 5) ['-']
  let str := sprintf str (19 + 5) (hexField 4 uuid.asic4.toNat)
  let str := sprintf str (23 + 5) (hexField 8 uuid.asic0.toNat)
  str.put (31 + 5) ['\x00']

/-- `insert_asic_serial` -/
def insertAsicSerial (uuid : Uuid) (serial : BitVec 64) : Uuid :=
  { uuid with
    asic0 := serial.setWidth 32
    asic4 := (serial >>> (4 * 8)).setWidth 16 &&& 0xFFFF
    clkSeqLow := (serial >>> (6 * 8)).setWidth 8 &&& 0xFF
    asic7 := ((serial >>> (7 * 8)).setWidth 32 &&& 0xFF).setWidth 8 }

/-- `insert_did` -/
def insertDid (uuid : Uuid) (did : BitVec 16) : Uuid := { uuid with did := did }

/-- `insert_fcn` -/
def insertFcn (uuid : Uuid) (fcnIdx : BitVec 8) : Uuid := { uuid with fcn := fcnIdx }

/-- `insert_clk_seq` -/
def insertClkSeq (uuid : Uuid) (seq : BitVec 16) : Uuid :=
  { uuid with
    clkSeqLow := seq.setWidth 8
    clkSeqHi := ((seq >>> 8) &&& 0x3f).setWidth 6 }

/-- The fields, filled in. -/
def make (serial : BitVec 64) (did : BitVec 16) (idx : BitVec 8) : Uuid :=
  let uuid : Uuid := {}
  let uuid := uuid.insertClkSeq 0
  let uuid := uuid.insertDid did
  let uuid := uuid.insertFcn idx
  let uuid := uuid.insertAsicSerial serial
  { uuid with version := 1, variant := 2 }

/-- `amdsmi_uuid_gen` -/
def amdsmiUuidGen (str : Buffer Char) (serial : BitVec 64) (did : BitVec 16) (idx : BitVec 8) :
    SmiStatus × Buffer Char :=
  (.success, printUuid str (make serial did idx))

/-! ## The form of a UUID -/

/-- A digit, in lower case. -/
def isLowerHex (c : Char) : Bool := ('0' ≤ c ∧ c ≤ '9') ∨ ('a' ≤ c ∧ c ≤ 'f')

/-- A group of digits. -/
structure HexGroup (n : Nat) (s : List Char) : Prop where
  length : s.length = n
  digits : ∀ c ∈ s, isLowerHex c = true

/-- Five groups of 8, 4, 4, 4 and 12 digits; the third one begins with the version 1 and the
fourth one with the bits `10`. -/
def IsUuid (t : List Char) : Prop :=
  ∃ a b c d e, HexGroup 8 a ∧ HexGroup 4 b ∧ HexGroup 4 c ∧ HexGroup 4 d ∧ HexGroup 12 e ∧
    t = a ++ '-' :: (b ++ '-' :: (c ++ '-' :: (d ++ '-' :: e))) ∧
    c.head? = some '1' ∧ ∃ v, (d.head?.bind hexDigit) = some v ∧ v / 4 = 2

/-- The serial number, the device id and the index, from the digits. -/
def recover (t : List Char) : BitVec 64 × BitVec 16 × BitVec 8 :=
  let timeLow := BitVec.ofNat 32 (hexValue (t.take 8))
  let clkSeqLow := BitVec.ofNat 8 (hexValue ((t.drop 21).take 2))
  let asic4 := BitVec.ofNat 16 (hexValue ((t.drop 24).take 4))
  let asic0 := BitVec.ofNat 32 (hexValue ((t.drop 28).take 8))
  let upper := timeLow.extractLsb' 16 16
  (upper.extractLsb' 8 8 ++ clkSeqLow ++ asic4 ++ asic0, timeLow.extractLsb' 0 16,
    upper.extractLsb' 0 8)

/-! ## Printing -/

variable {str : Buffer Char} {w n : Nat} {t : List Char} {u : Uuid}

theorem length_hexField (hw : 0 < w) (h : n < 16 ^ w) : (hexField w n).length = w :=
  Lib.length_leftpad_toDigits hw h

theorem hexValue_hexField (w n : Nat) : hexValue (hexField w n) = n :=
  Lib.hexValue_leftpad_toDigits n w

theorem isLowerHex_hexField {c : Char} (h : c ∈ hexField w n) : isLowerHex c = true := by
  have hdigit : ∀ d, d < 16 → isLowerHex d.digitChar = true := by decide
  rw [hexField, List.leftpad, List.mem_append, List.mem_replicate] at h
  rcases h with ⟨-, rfl⟩ | h
  · rfl
  · obtain ⟨d, hd, rfl⟩ := Lib.exists_digitChar_of_mem h
    exact hdigit d hd

theorem group_hexField (hw : 0 < w) (h : n < 16 ^ w) : HexGroup w (hexField w n) :=
  ⟨length_hexField hw h, fun _ => isLowerHex_hexField⟩

/-- Groups that are printed one behind the other are one group. -/
theorem HexGroup.append {k l : Nat} {s t : List Char} (hs : HexGroup k s) (ht : HexGroup l t) :
    HexGroup (k + l) (s ++ t) where
  length := by rw [List.length_append, hs.length, ht.length]
  digits c hc := by
    rcases List.mem_append.mp hc with hc | hc
    · exact hs.digits c hc
    · exact ht.digits c hc

/-- A print at the terminator of the text before it. -/
theorem sprintf_sprintf {s : List Char} (h : s.length = n) :
    sprintf (sprintf str 0 s) n t = sprintf str 0 (s ++ t) := by
  rw [sprintf, sprintf, sprintf, ← h, Buffer.put_zero_put (by simp), List.append_assoc]

/-- The third field, with the version in front. -/
theorem timeHigh_lt (u : Uuid) : u.version.toNat <<< 12 ||| u.timeHigh.toNat < 16 ^ 4 := by
  have hversion := u.version.isLt
  have hhigh := u.timeHigh.isLt
  refine Nat.or_lt_two_pow (n := 16) ?_ (Nat.lt_trans hhigh (by decide))
  rw [Nat.shiftLeft_eq]
  omega

/-- The upper half of the fourth field, with the variant in front. -/
theorem clkSeqHi_lt (u : Uuid) : u.variant.toNat <<< 6 ||| u.clkSeqHi.toNat < 16 ^ 2 := by
  have hvariant := u.variant.isLt
  have hseq := u.clkSeqHi.isLt
  refine Nat.or_lt_two_pow (n := 8) ?_ (Nat.lt_trans hseq (by decide))
  rw [Nat.shiftLeft_eq]
  omega

/-- Every field fills the width that it is printed with. -/
structure Widths (u : Uuid) : Prop where
  timeLow : HexGroup 8 (hexField 8 u.timeLow.toNat)
  timeMid : HexGroup 4 (hexField 4 u.timeMid.toNat)
  timeHigh : HexGroup 4 (hexField 4 (u.version.toNat <<< 12 ||| u.timeHigh.toNat))
  clkSeqHi : HexGroup 2 (hexField 2 (u.variant.toNat <<< 6 ||| u.clkSeqHi.toNat))
  clkSeqLow : HexGroup 2 (hexField 2 u.clkSeqLow.toNat)
  asic4 : HexGroup 4 (hexField 4 u.asic4.toNat)
  asic0 : HexGroup 8 (hexField 8 u.asic0.toNat)

theorem widths (u : Uuid) : Widths u where
  timeLow := group_hexField (by decide) u.timeLow.isLt
  timeMid := group_hexField (by decide) u.timeMid.isLt
  timeHigh := group_hexField (by decide) (timeHigh_lt u)
  clkSeqHi := group_hexField (by decide) (clkSeqHi_lt u)
  clkSeqLow := group_hexField (by decide) u.clkSeqLow.isLt
  asic4 := group_hexField (by decide) u.asic4.isLt
  asic0 := group_hexField (by decide) u.asic0.isLt

/-- The groups of a UUID. -/
def clockGroup (u : Uuid) : List Char :=
  hexField 2 (u.variant.toNat <<< 6 ||| u.clkSeqHi.toNat) ++ hexField 2 u.clkSeqLow.toNat

def nodeGroup (u : Uuid) : List Char := hexField 4 u.asic4.toNat ++ hexField 8 u.asic0.toNat

/-- The text of a UUID. -/
def text (u : Uuid) : List Char :=
  hexField 8 u.timeLow.toNat ++ '-' :: (hexField 4 u.timeMid.toNat ++ '-' ::
    (hexField 4 (u.version.toNat <<< 12 ||| u.timeHigh.toNat) ++ '-' ::
      (u.clockGroup ++ '-' :: u.nodeGroup)))

theorem length_text (u : Uuid) : u.text.length = 36 := by
  obtain ⟨hlow, hmid, hhigh, hseqhi, hseqlow, hasic4, hasic0⟩ := u.widths
  simp [text, clockGroup, nodeGroup, hlow.length, hmid.length, hhigh.length, hseqhi.length,
    hseqlow.length, hasic4.length, hasic0.length]

/-- The prints make one text, with a terminator. -/
theorem printUuid_eq (str : Buffer Char) (u : Uuid) :
    printUuid str u = str.put 0 (u.text ++ ['\x00']) := by
  have hprint : printUuid str u = (sprintf str 0 u.text).put 36 ['\x00'] := by
    obtain ⟨⟨hlow, -⟩, ⟨hmid, -⟩, ⟨hhigh, -⟩, ⟨hseqhi, -⟩, ⟨hseqlow, -⟩, ⟨hasic4, -⟩, -⟩ := u.widths
    rw [printUuid, sprintf_sprintf hlow, sprintf_sprintf (by simp [hlow]),
      sprintf_sprintf (by simp [hlow, hmid]), sprintf_sprintf (by simp [hlow, hmid]),
      sprintf_sprintf (by simp [hlow, hmid, hhigh]), sprintf_sprintf (by simp [hlow, hmid, hhigh]),
      sprintf_sprintf (by simp [hlow, hmid, hhigh, hseqhi]),
      sprintf_sprintf (by simp [hlow, hmid, hhigh, hseqhi, hseqlow]),
      sprintf_sprintf (by simp [hlow, hmid, hhigh, hseqhi, hseqlow]),
      sprintf_sprintf (by simp [hlow, hmid, hhigh, hseqhi, hseqlow, hasic4])]
    simp [text, clockGroup, nodeGroup]
  rw [hprint, sprintf, ← length_text u]
  exact Buffer.put_zero_put (Nat.le_refl _)

/-! ## Reading the fields back -/

@[simp] theorem version_make (serial : BitVec 64) (did : BitVec 16) (idx : BitVec 8) :
    (make serial did idx).version = 1 := rfl

@[simp] theorem timeHigh_make (serial : BitVec 64) (did : BitVec 16) (idx : BitVec 8) :
    (make serial did idx).timeHigh = 0 := rfl

@[simp] theorem variant_make (serial : BitVec 64) (did : BitVec 16) (idx : BitVec 8) :
    (make serial did idx).variant = 2 := rfl

@[simp] theorem clkSeqHi_make (serial : BitVec 64) (did : BitVec 16) (idx : BitVec 8) :
    (make serial did idx).clkSeqHi = 0 := rfl

/-- What was printed has the form of a UUID. -/
theorem isUuid_text (serial : BitVec 64) (did : BitVec 16) (idx : BitVec 8) :
    IsUuid (make serial did idx).text := by
  have hw := (make serial did idx).widths
  refine ⟨_, _, _, _, _, hw.timeLow, hw.timeMid, hw.timeHigh, hw.clkSeqHi.append hw.clkSeqLow,
    hw.asic4.append hw.asic0, rfl, ?_, 8, ?_, rfl⟩
  · rw [version_make, timeHigh_make]
    decide
  · rw [variant_make, clkSeqHi_make]
    rfl

/-- The middle of a text. -/
theorem take_drop_append {k : Nat} {a b c : List Char} (ha : a.length = n) (hb : b.length = k) :
    ((a ++ (b ++ c)).drop n).take k = b := by
  rw [List.drop_left' ha, List.take_left' hb]

/-- The fields that the digits are those of. -/
theorem recover_text (u : Uuid) :
    recover u.text = (u.asic7 ++ u.clkSeqLow ++ u.asic4 ++ u.asic0, u.did, u.fcn) := by
  obtain ⟨⟨hlow, -⟩, ⟨hmid, -⟩, ⟨hhigh, -⟩, ⟨hseqhi, -⟩, ⟨hseqlow, -⟩, ⟨hasic4, -⟩, ⟨hasic0, -⟩⟩ :=
    u.widths
  have htime : u.text.take 8 = hexField 8 u.timeLow.toNat := List.take_left' hlow
  have hclock : (u.text.drop 21).take 2 = hexField 2 u.clkSeqLow.toNat := by
    have := take_drop_append (n := 21) (k := 2) (a := hexField 8 u.timeLow.toNat ++ '-' ::
      (hexField 4 u.timeMid.toNat ++ '-' ::
        (hexField 4 (u.version.toNat <<< 12 ||| u.timeHigh.toNat) ++ '-' ::
          hexField 2 (u.variant.toNat <<< 6 ||| u.clkSeqHi.toNat))))
      (c := '-' :: u.nodeGroup) (by simp [hlow, hmid, hhigh, hseqhi]) hseqlow
    simpa [text, clockGroup] using this
  have hnode4 : (u.text.drop 24).take 4 = hexField 4 u.asic4.toNat := by
    have := take_drop_append (n := 24) (k := 4) (a := hexField 8 u.timeLow.toNat ++ '-' ::
      (hexField 4 u.timeMid.toNat ++ '-' ::
        (hexField 4 (u.version.toNat <<< 12 ||| u.timeHigh.toNat) ++ '-' ::
          (u.clockGroup ++ ['-']))))
      (c := hexField 8 u.asic0.toNat) (by simp [clockGroup, hlow, hmid, hhigh, hseqhi, hseqlow])
      hasic4
    simpa [text, nodeGroup] using this
  have hnode0 : (u.text.drop 28).take 8 = hexField 8 u.asic0.toNat := by
    have := take_drop_append (n := 28) (k := 8) (a := hexField 8 u.timeLow.toNat ++ '-' ::
      (hexField 4 u.timeMid.toNat ++ '-' ::
        (hexField 4 (u.version.toNat <<< 12 ||| u.timeHigh.toNat) ++ '-' ::
          (u.clockGroup ++ '-' :: hexField 4 u.asic4.toNat)))) (c := [])
      (by simp [clockGroup, hlow, hmid, hhigh, hseqhi, hseqlow, hasic4]) hasic0
    simpa [text, nodeGroup] using this
  rw [recover, htime, hclock, hnode4, hnode0]
  simp only [hexValue_hexField, BitVec.ofNat_toNat, BitVec.setWidth_eq]
  rw [timeLow, BitVec.extractLsb'_append_eq_left, BitVec.extractLsb'_append_eq_right,
    BitVec.extractLsb'_append_eq_left, BitVec.extractLsb'_append_eq_right]

/-- The serial number is in four fields, all of it. -/
theorem serial_make (serial : BitVec 64) (did : BitVec 16) (idx : BitVec 8) :
    (make serial did idx).asic7 ++ (make serial did idx).clkSeqLow ++ (make serial did idx).asic4 ++
      (make serial did idx).asic0 = serial := by
  show ((serial >>> (7 * 8)).setWidth 32 &&& 0xFF#32).setWidth 8 ++
    ((serial >>> (6 * 8)).setWidth 8 &&& 0xFF#8) ++
      ((serial >>> (4 * 8)).setWidth 16 &&& 0xFFFF#16) ++ serial.setWidth 32 = serial
  have hmask8 : ∀ x : BitVec 8, x &&& 0xFF#8 = x := fun x => BitVec.and_allOnes
  have hmask16 : ∀ x : BitVec 16, x &&& 0xFFFF#16 = x := fun x => BitVec.and_allOnes
  have hasic7 : ∀ x : BitVec 64, (x.setWidth 32 &&& 0xFF#32).setWidth 8 = x.setWidth 8 := by
    intro x
    rw [BitVec.setWidth_and, BitVec.setWidth_setWidth_of_le _ (by decide)]
    exact hmask8 _
  rw [hasic7, hmask8, hmask16]
  ext i hi
  simp
  grind

/-- The text that is written. -/
theorem read_amdsmiUuidGen (str : Buffer Char) (serial : BitVec 64) (did : BitVec 16)
    (idx : BitVec 8) :
    (amdsmiUuidGen str serial did idx).2.read 36 = (make serial did idx).text := by
  rw [amdsmiUuidGen, printUuid_eq, ← length_text (make serial did idx)]
  exact Buffer.read_put_append

theorem recover_make (serial : BitVec 64) (did : BitVec 16) (idx : BitVec 8) :
    recover (make serial did idx).text = (serial, did, idx) := by
  rw [recover_text, serial_make]
  rfl

/-- GPU UUIDs are well formed and injective.  Exactly the 36 characters of a UUID and a terminator
are written; the serial number, the device id and the index are read back from the characters; and
different ones never give the same characters. -/
theorem amdsmiUuidGen_wellFormed :
    (∀ (str : Buffer Char) (serial : BitVec 64) (did : BitVec 16) (idx : BitVec 8),
      IsUuid ((amdsmiUuidGen str serial did idx).2.read 36) ∧
        (amdsmiUuidGen str serial did idx).2 36 = '\x00' ∧
        (∀ i, 36 < i → (amdsmiUuidGen str serial did idx).2 i = str i) ∧
        recover ((amdsmiUuidGen str serial did idx).2.read 36) = (serial, did, idx)) ∧
    ∀ (str str' : Buffer Char) (serial serial' : BitVec 64) (did did' : BitVec 16)
      (idx idx' : BitVec 8),
      (amdsmiUuidGen str serial did idx).2.read 36 =
          (amdsmiUuidGen str' serial' did' idx').2.read 36 →
        (serial, did, idx) = (serial', did', idx') := by
  refine ⟨fun str serial did idx => ?_, fun str str' serial serial' did did' idx idx' h => ?_⟩
  · rw [read_amdsmiUuidGen]
    have hlen := length_text (make serial did idx)
    have hbuffer : (amdsmiUuidGen str serial did idx).2 =
        str.put 0 ((make serial did idx).text ++ ['\x00']) := printUuid_eq str _
    rw [hbuffer]
    refine ⟨isUuid_text serial did idx, ?_, fun i hi => ?_, recover_make serial did idx⟩
    · rw [Buffer.put_zero (by simp [hlen]), List.getElem_append_right (Nat.le_of_eq hlen)]
      exact List.getElem_singleton _
    · refine Buffer.put_of_le ?_
      rw [List.length_append, hlen, List.length_singleton]
      omega
  · rw [read_amdsmiUuidGen, read_amdsmiUuidGen] at h
    rw [← recover_make serial did idx, h, recover_make]

theorem amdsmiUuidGen_wellFormed_sample :
    recover ((amdsmiUuidGen (fun _ => 'x') 0x0123456789abcdef 0x744c 0xff).2.read 36) =
        (0x0123456789abcdef, 0x744c, 0xff) ∧
      (amdsmiUuidGen (fun _ => 'x') 0x0123456789abcdef 0x744c 0xff).2 37 = 'x' ∧
      ((0x0123456789abcdef, 0x744c, 0xff) : BitVec 64 × BitVec 16 × BitVec 8) =
        (0x0123456789abcdef, 0x744c, 0xff) := by
  obtain ⟨-, -, hbehind, hrecover⟩ :=
    amdsmiUuidGen_wellFormed.1 (fun _ => 'x') 0x0123456789abcdef 0x744c 0xff
  exact ⟨hrecover, hbehind 37 (by decide),
    amdsmiUuidGen_wellFormed.2 (fun _ => 'x') (fun _ => 'y') _ _ _ _ _ _ (by decide +kernel)⟩

end Uuid

end RocDxg
