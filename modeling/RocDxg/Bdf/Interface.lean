import RocDxg.Bdf.Cli

/-!
# BDF texts in the library's interface

`_parse_bdf` and `_format_bdf` of `amdsmi_interface.py`.  The parser has an expression with the
segment and one without it, and leaves the ranges of the device and the function number to
classes of digits.

It takes the same lines as the constructor of the command line tool and finds the same numbers in
them (`parseBdf_eq_construct`), and it reads back what `_format_bdf` prints, unless the domain
number has more than four digits, in which case it takes nothing (`parseBdf_formatBdf`).
-/

namespace RocDxg

open Lib (Pattern hexDigit hexValue isHexDigit)
open Lib.Pattern (EndsLine Reads matchLine)

namespace Bdf

/-- `([0-9a-fA-F]{2}):([0-1][0-9a-fA-F])\.([0-7])` -/
def simpleRegex : Pattern :=
  .seq (.group (.times 2 hexClass)) (.seq (.char ':')
    (.seq (.group (.seq (upToDigit '1') hexClass)) (.seq (.char '.') (.group (upToDigit '7')))))

/-- `([0-9a-fA-F]{4}):([0-9a-fA-F]{2}):([0-1][0-9a-fA-F])\.([0-7])` -/
def extendedRegex : Pattern :=
  .seq (.group (.times 4 hexClass)) (.seq (.char ':') simpleRegex)

/-- `_parse_bdf` on a text. -/
def parseBdf (bdf : List Char) : Except PyException (Option (List Nat)) :=
  match matchLine extendedRegex bdf with
  | none =>
      match matchLine simpleRegex bdf with
      | none => .ok none
      | some groups => do return some (0 :: (← int16All groups))
  | some groups => do return some (← int16All groups)

/-- The struct of `amdsmi_bdf_t`.  The domain number is not limited to the width of its field. -/
structure AmdsmiBdf where
  functionNumber : Fin (2 ^ 3)
  deviceNumber : Fin (2 ^ 5)
  busNumber : Fin (2 ^ 8)
  domainNumber : Nat

/-- `hex(n)[2:]` -/
def hexText (n : Nat) : List Char := Nat.toDigits 16 n

/-- `zfill` -/
def zfill (w : Nat) (s : List Char) : List Char := s.leftpad w '0'

/-- `_format_bdf` -/
def formatBdf (b : AmdsmiBdf) : List Char :=
  let domain := zfill 4 (hexText b.domainNumber)
  let bus := zfill 2 (hexText b.busNumber)
  let device := zfill 2 (hexText b.deviceNumber)
  let function := hexText b.functionNumber
  domain ++ ':' :: (bus ++ ':' :: (device ++ '.' :: function))

/-- The four numbers, as `_parse_bdf` lists them. -/
def toList (b : Bdf) : List Nat := [b.segment, b.bus, b.device, b.function]

/-! ## The classes of digits -/

/-- A decimal digit up to another one is a hexadecimal digit with a value up to the other's. -/
theorem upToDigit_iff {c d : Char} (hd : '0' ≤ d ∧ d ≤ '9') :
    ('0' ≤ c ∧ c ≤ d) ↔ isHexDigit c = true ∧ hexValue [c] ≤ d.toNat - '0'.toNat := by
  have hzero : '0'.toNat = 48 := rfl
  have hnine : '9'.toNat = 57 := rfl
  have hd0 : '0'.toNat ≤ d.toNat := hd.1
  have hd9 : d.toNat ≤ '9'.toNat := hd.2
  have hvalue : hexValue [c] = (hexDigit c).getD 0 := by simp [hexValue]
  have hle : ('0' ≤ c ∧ c ≤ d) ↔ '0'.toNat ≤ c.toNat ∧ c.toNat ≤ d.toNat := Iff.rfl
  rw [hvalue, hle, isHexDigit, hexDigit]
  split
  next hc =>
    have h0 : '0'.toNat ≤ c.toNat := hc.1
    simp only [Option.isSome_some, Option.getD_some, true_and]
    omega
  next hc =>
    have hnot : ¬ ('0'.toNat ≤ c.toNat ∧ c.toNat ≤ '9'.toNat) := hc
    split
    next hc =>
      have ha : 'a'.toNat ≤ c.toNat := hc.1
      have hav : 'a'.toNat = 97 := rfl
      simp only [Option.isSome_some, Option.getD_some, true_and]
      omega
    next =>
      split
      next hc =>
        have ha : 'A'.toNat ≤ c.toNat := hc.1
        have hav : 'A'.toNat = 65 := rfl
        simp only [Option.isSome_some, Option.getD_some, true_and]
        omega
      next => simp; omega

variable {s t x device : List Char} {b : Bdf} {w : BdfText} {gs : List (List Char)}

/-- The class of the first digit of the device number is its range. -/
theorem device_iff : (∃ c d, ('0' ≤ c ∧ c ≤ '1') ∧ isHexDigit d = true ∧ device = [c, d]) ↔
    Digits 2 device ∧ hexValue device ≤ 31 := by
  have hvalue : ∀ c d, hexValue [c, d] = hexValue [c] * 16 + hexValue [d] := fun c d =>
    Lib.hexValue_append [c] [d]
  have hlt : ∀ d, hexValue [d] < 16 := fun d => Lib.hexValue_lt [d]
  constructor
  · rintro ⟨c, d, hc, hd, rfl⟩
    obtain ⟨hchex, hcle⟩ := (upToDigit_iff (by decide)).mp hc
    have hone : '1'.toNat - '0'.toNat = 1 := rfl
    have := hlt d
    refine ⟨⟨rfl, by simp [hchex, hd]⟩, ?_⟩
    rw [hvalue]
    omega
  · rintro ⟨⟨hlen, hdigits⟩, hle⟩
    obtain ⟨c, d, rfl⟩ := List.length_eq_two.mp hlen
    rw [hvalue] at hle
    refine ⟨c, d, (upToDigit_iff (by decide)).mpr ⟨hdigits c (by simp), ?_⟩,
      hdigits d (by simp), rfl⟩
    show hexValue [c] ≤ 1
    omega

/-! ## The expressions -/

/-- The part behind the segment. -/
theorem reads_simple : Reads simpleRegex t gs ↔
    ∃ w : BdfText, w.segment = none ∧ w.InRange ∧ t = w.text ∧ gs = w.fields [] := by
  simp only [simpleRegex, hexClass, upToDigit, Lib.Pattern.reads_seq_group,
    Lib.Pattern.reads_seq_char, Lib.Pattern.reads_times_one, Lib.Pattern.reads_group,
    Lib.Pattern.reads_one, Lib.Pattern.reads_seq_one, decide_eq_true_eq]
  constructor
  · rintro ⟨bus, _, _, _, ⟨hbus, hbusd, rfl⟩, ⟨_, ⟨_, _, _, _, ⟨c, _, hc, ⟨d, hd, rfl, rfl⟩, rfl⟩,
      ⟨_, ⟨_, ⟨function, hfun, rfl, rfl⟩, rfl⟩, rfl⟩, rfl, rfl⟩, rfl⟩, rfl, rfl⟩
    obtain ⟨hdev, hdevle⟩ := device_iff.mp ⟨c, d, hc, hd, rfl⟩
    obtain ⟨hfund, hfunle⟩ := (upToDigit_iff (by decide)).mp hfun
    exact ⟨⟨none, bus, [c, d], function, by simp, ⟨hbus, hbusd⟩, hdev, hfund⟩, rfl,
      ⟨hdevle, hfunle⟩, rfl, rfl⟩
  · rintro ⟨⟨segment, bus, device, function, _, hbus, hdev, hfun⟩, hnone, ⟨hdevle, hfunle⟩,
      rfl, rfl⟩
    obtain rfl : segment = none := hnone
    obtain ⟨c, d, hc, hd, rfl⟩ := device_iff.mpr ⟨hdev, hdevle⟩
    have hfunc := (upToDigit_iff (d := '7') (by decide)).mpr ⟨hfun, hfunle⟩
    exact ⟨bus, [], _, _, ⟨hbus.length, hbus.digits, rfl⟩, ⟨_, ⟨[c, d], [], _, _,
      ⟨c, [d], hc, ⟨d, hd, rfl, rfl⟩, rfl⟩, ⟨_, ⟨[], ⟨function, hfunc, rfl, rfl⟩, rfl⟩, rfl⟩,
      rfl, rfl⟩, rfl⟩, rfl, rfl⟩

/-- The same with a segment in front. -/
theorem reads_extended : Reads extendedRegex t gs ↔
    ∃ w : BdfText, w.segment ≠ none ∧ w.InRange ∧ t = w.text ∧ gs = w.fields [] := by
  simp only [extendedRegex, hexClass, Lib.Pattern.reads_seq_group, Lib.Pattern.reads_seq_char,
    Lib.Pattern.reads_times_one, reads_simple]
  constructor
  · rintro ⟨seg, _, _, _, ⟨hlen, hdigits, rfl⟩, ⟨_, ⟨w, hnone, hrange, rfl, rfl⟩, rfl⟩, rfl, rfl⟩
    obtain ⟨segment, bus, device, function, _, hbus, hdev, hfun⟩ := w
    obtain rfl : segment = none := hnone
    have hsegd : ∀ s ∈ some seg, Digits 4 s := by
      intro s hs
      obtain rfl := Option.mem_some_iff.mp hs
      exact ⟨hlen, hdigits⟩
    exact ⟨⟨some seg, bus, device, function, hsegd, hbus, hdev, hfun⟩, Option.some_ne_none _,
      hrange, by simp [BdfText.text, BdfText.segmentText], rfl⟩
  · rintro ⟨⟨segment, bus, device, function, hseg, hbus, hdev, hfun⟩, hsome, hrange, rfl, rfl⟩
    obtain ⟨seg, rfl⟩ := Option.ne_none_iff_exists'.mp hsome
    have hd := hseg seg rfl
    exact ⟨seg, [], _, _, ⟨hd.length, hd.digits, rfl⟩,
      ⟨_, ⟨⟨none, bus, device, function, by simp, hbus, hdev, hfun⟩, rfl, hrange, rfl, rfl⟩, rfl⟩,
      by simp [BdfText.text, BdfText.segmentText], rfl⟩

/-! ## The parser -/

/-- The numbers of a text, with the segment zero that the parser puts in front if there is none. -/
theorem toList_value (w : BdfText) :
    toList w.value = if w.segment = none then 0 :: w.components else w.components := by
  cases hs : w.segment with
  | none => simp [toList, BdfText.value, BdfText.components, hs]
  | some seg => simp [toList, BdfText.value, BdfText.components, hs]

/-- Two texts of a line have a segment or have none. -/
theorem segment_eq_none_congr {w w' : BdfText} (h : w.components = w'.components) :
    w.segment = none ↔ w'.segment = none := by
  have hlen := congrArg List.length h
  simp only [BdfText.components] at hlen
  cases hs : w.segment <;> cases hs' : w'.segment <;> simp_all

/-- A line of a device is read as its numbers. -/
theorem parseBdf_of_endsLine (h : EndsLine s w.text) (hrange : w.InRange) :
    parseBdf s = .ok (some (toList w.value)) := by
  rw [toList_value, parseBdf]
  by_cases hnone : w.segment = none
  · have hext : matchLine extendedRegex s = none := by
      rw [Lib.Pattern.matchLine_eq_none_iff]
      intro t gs hreads hline
      obtain ⟨w', hsome, -, rfl, -⟩ := reads_extended.mp hreads
      exact hsome ((segment_eq_none_congr (components_unique hline h)).mpr hnone)
    obtain ⟨gs, hmatch⟩ :=
      Lib.Pattern.exists_matchLine_of_reads (reads_simple.mpr ⟨w, hnone, hrange, rfl, rfl⟩) h
    obtain ⟨t, hreads, hline⟩ := Lib.Pattern.exists_reads_of_matchLine hmatch
    obtain ⟨w', -, -, rfl, rfl⟩ := reads_simple.mp hreads
    rw [hext, hmatch, if_pos hnone, ← components_unique hline h]
    simp [int16All_fields w' (.inl rfl), bind, Except.bind, pure, Except.pure]
  · obtain ⟨gs, hmatch⟩ :=
      Lib.Pattern.exists_matchLine_of_reads (reads_extended.mpr ⟨w, hnone, hrange, rfl, rfl⟩) h
    obtain ⟨t, hreads, hline⟩ := Lib.Pattern.exists_reads_of_matchLine hmatch
    obtain ⟨w', -, -, rfl, rfl⟩ := reads_extended.mp hreads
    rw [hmatch, if_neg hnone, ← components_unique hline h]
    simp [int16All_fields w' (.inl rfl), bind, Except.bind, pure, Except.pure]

/-- Any other line is not taken. -/
theorem parseBdf_eq_none (h : ∀ w : BdfText, w.InRange → ¬ EndsLine s w.text) :
    parseBdf s = .ok none := by
  have hext : matchLine extendedRegex s = none := by
    rw [Lib.Pattern.matchLine_eq_none_iff]
    intro t gs hreads
    obtain ⟨w, -, hrange, rfl, -⟩ := reads_extended.mp hreads
    exact h w hrange
  have hsimple : matchLine simpleRegex s = none := by
    rw [Lib.Pattern.matchLine_eq_none_iff]
    intro t gs hreads
    obtain ⟨w, -, hrange, rfl, -⟩ := reads_simple.mp hreads
    exact h w hrange
  rw [parseBdf, hext, hsimple]

/-- The parser and the constructor agree on a text that is not wrapped. -/
theorem parseBdf_eq_construct (h : startsWithOpening x = false) :
    parseBdf x = .ok ((construct x).toOption.map toList) := by
  have hline : construct x = ofLine x := by
    rw [construct, unwrap, h]
    rfl
  rw [hline]
  by_cases hok : ∃ b, ofLine x = .ok b
  · obtain ⟨b, hb⟩ := hok
    obtain ⟨w, hw, hrange, rfl⟩ := ofLine_eq_ok_iff.mp hb
    rw [hb, parseBdf_of_endsLine hw hrange]
    rfl
  · obtain ⟨m, hm⟩ := ofLine_error (not_exists.mp hok)
    rw [hm]
    refine parseBdf_eq_none fun w hrange hw => hok ⟨w.value, ?_⟩
    exact ofLine_eq_ok_iff.mpr ⟨w, hw, hrange, rfl⟩

/-! ## Printed structs -/

theorem isHexDigit_zfill {n w : Nat} {c : Char} (hc : c ∈ zfill w (hexText n)) :
    isHexDigit c = true :=
  Lib.isHexDigit_leftpad (fun _ => Lib.isHexDigit_toDigits) hc

theorem digits_zfill {n w : Nat} (hw : 0 < w) (h : n < 16 ^ w) :
    Digits w (zfill w (hexText n)) :=
  ⟨Lib.length_leftpad_toDigits hw h, fun _ => isHexDigit_zfill⟩

theorem hexValue_zfill (n w : Nat) : hexValue (zfill w (hexText n)) = n :=
  Lib.hexValue_leftpad_toDigits n w

/-- A struct is printed as the text of its numbers. -/
theorem exists_text_of_formatBdf {b : AmdsmiBdf} (h : b.domainNumber < 2 ^ 16) :
    ∃ w : BdfText, formatBdf b = w.text ∧ w.InRange ∧
      w.value = ⟨b.domainNumber, b.busNumber, b.deviceNumber, b.functionNumber⟩ := by
  obtain ⟨function, device, bus, domain⟩ := b
  have hdomain : Digits 4 (zfill 4 (hexText domain)) := digits_zfill (by decide) h
  have hbus : Digits 2 (zfill 2 (hexText bus)) := digits_zfill (by decide) bus.isLt
  have hdevice : Digits 2 (zfill 2 (hexText device)) :=
    digits_zfill (by decide) (Nat.lt_trans device.isLt (by decide))
  have hfunction : (function : Nat) < 16 := Nat.lt_trans function.isLt (by decide)
  have htext : hexText function = [(function : Nat).digitChar] := Nat.toDigits_of_lt_base hfunction
  have hvalue : hexValue [(function : Nat).digitChar] = function := by
    rw [← htext, hexText, Lib.hexValue_toDigits]
  have hdigit : isHexDigit (function : Nat).digitChar = true := by
    rw [isHexDigit, Lib.hexDigit_digitChar hfunction]
    rfl
  refine ⟨⟨some (zfill 4 (hexText domain)), zfill 2 (hexText bus), zfill 2 (hexText device),
    (function : Nat).digitChar, ?_, hbus, hdevice, hdigit⟩, ?_, ⟨?_, ?_⟩, ?_⟩
  · intro s hs
    obtain rfl := Option.mem_some_iff.mp hs
    exact hdomain
  · simp [formatBdf, BdfText.text, BdfText.segmentText, htext]
  · rw [hexValue_zfill]
    exact Nat.le_of_lt_succ device.isLt
  · rw [hvalue]
    exact Nat.le_of_lt_succ function.isLt
  · simp [BdfText.value, hexValue_zfill, hvalue]

/-- A domain number of more than four digits makes a field that no text has. -/
theorem not_endsLine_formatBdf {b : AmdsmiBdf} (h : ¬ b.domainNumber < 2 ^ 16) (w : BdfText) :
    ¬ EndsLine (formatBdf b) w.text := by
  intro hline
  have hfunction : splitFields (hexText b.functionNumber) = [hexText b.functionNumber] :=
    List.splitOnP_eq_singleton fun c hc => not_separator_of_digit (Lib.isHexDigit_toDigits hc)
  have hsplit : splitFields (formatBdf b) = [zfill 4 (hexText b.domainNumber),
      zfill 2 (hexText b.busNumber), zfill 2 (hexText b.deviceNumber),
      hexText b.functionNumber] := by
    rw [formatBdf, splitFields_digits (fun _ => isHexDigit_zfill) (.inl rfl),
      splitFields_digits (fun _ => isHexDigit_zfill) (.inl rfl),
      splitFields_digits (fun _ => isHexDigit_zfill) (.inr rfl), hfunction]
  obtain ⟨rest, -, hfields⟩ := splitFields_of_endsLine hline
  rw [hsplit, BdfText.fields] at hfields
  cases hs : w.segment with
  | none => simp [hs] at hfields
  | some seg =>
      simp only [hs, Option.toList_some, List.cons_append, List.nil_append,
        List.cons.injEq] at hfields
      have hlen : (zfill 4 (hexText b.domainNumber)).length = 4 := by
        rw [hfields.1]
        exact (w.segment_digits seg hs).length
      rw [zfill, List.length_leftpad] at hlen
      have hle : (hexText b.domainNumber).length ≤ 4 := hlen ▸ Nat.le_max_right _ _
      exact h ((Nat.length_toDigits_le_iff (b := 16) (k := 4) (by decide) (by decide)).mp hle)

theorem parseBdf_formatBdf (b : AmdsmiBdf) :
    parseBdf (formatBdf b) = .ok (if b.domainNumber < 2 ^ 16 then
      some [b.domainNumber, (b.busNumber : Nat), (b.deviceNumber : Nat), (b.functionNumber : Nat)]
      else none) := by
  split
  next h =>
    obtain ⟨w, htext, hrange, hvalue⟩ := exists_text_of_formatBdf h
    rw [parseBdf_of_endsLine (.inl htext) hrange, hvalue]
    rfl
  next h => exact parseBdf_eq_none fun w _ => not_endsLine_formatBdf h w

/-- The command line tool and the library agree on what a text means: on every text that is not
wrapped they take it or not together and find the same numbers; and the library reads back every
struct that it prints, or takes nothing if the domain number has more than four digits. -/
theorem interface_agrees :
    (∀ x, startsWithOpening x = false →
      parseBdf x = .ok ((construct x).toOption.map fun b =>
        [b.segment, b.bus, b.device, b.function])) ∧
    ∀ b : AmdsmiBdf, parseBdf (formatBdf b) = .ok (if b.domainNumber < 2 ^ 16 then
      some [b.domainNumber, (b.busNumber : Nat), (b.deviceNumber : Nat), (b.functionNumber : Nat)]
      else none) :=
  ⟨fun _ => parseBdf_eq_construct, parseBdf_formatBdf⟩

theorem interface_agrees_sample :
    parseBdf sampleText = .ok (some [0, 1, 0, 0]) ∧
      parseBdf (formatBdf ⟨7, 31, 255, 2 ^ 16⟩) = .ok none :=
  ⟨interface_agrees.1 sampleText (by decide), interface_agrees.2 ⟨7, 31, 255, 2 ^ 16⟩⟩

end Bdf

end RocDxg
