import Mathlib.Data.List.Basic
import RocDxg.Lib.CString
import RocDxg.Lib.Pattern

/-!
# The text of a BDF

The bus, device and function numbers of a PCI device, with its segment, as the command line tool
and its library write them: `ssss:bb:dd.f` in hexadecimal digits, the segment with its colon
optional.  `BdfText` is such a text in its parts, whatever their values, and `InRange` says that
the device number and the function number are those of a device.

The scripts cut a text at its colons and points and read each field with `int(x, 16)`
(`splitFields_of_endsLine`, `components_of_endsLine`).
-/

namespace RocDxg

open Lib (hexValue isHexDigit isSpace)
open Lib.Pattern (EndsLine)

/-- The exceptions that the scripts can raise. -/
inductive PyException where
  | bdfError (message : String)
  | valueError
  | attributeError
deriving DecidableEq, Repr

/-- `int(x, 16)`: digits, with white space around them.  (A sign, `0x` and underscores, which it
takes too, do not reach it here.) -/
def int16 (x : List Char) : Except PyException Nat :=
  let digits := ((x.dropWhile isSpace).reverse.dropWhile isSpace).reverse
  if digits ≠ [] ∧ digits.all isHexDigit then .ok (hexValue digits) else .error .valueError

/-- `[int(x, 16) for x in xs]` -/
def int16All : List (List Char) → Except PyException (List Nat)
  | [] => .ok []
  | x :: xs => do
      let n ← int16 x
      let ns ← int16All xs
      return n :: ns

/-- `re.split('[:.]', bdf)` -/
def splitFields (bdf : List Char) : List (List Char) := bdf.splitOnP fun c => c = ':' ∨ c = '.'

/-- A fixed number of hexadecimal digits. -/
structure Digits (n : Nat) (s : List Char) : Prop where
  length : s.length = n
  digits : ∀ c ∈ s, isHexDigit c = true

/-- `[ssss:]bb:dd.f`, in its parts. -/
structure BdfText where
  segment : Option (List Char)
  bus : List Char
  device : List Char
  function : Char
  segment_digits : ∀ s ∈ segment, Digits 4 s
  bus_digits : Digits 2 bus
  device_digits : Digits 2 device
  function_digit : isHexDigit function = true

/-- The numbers of a device. -/
structure Bdf where
  segment : Nat
  bus : Nat
  device : Nat
  function : Nat
deriving DecidableEq, Repr

namespace BdfText

/-- The segment and its colon. -/
def segmentText (w : BdfText) : List Char :=
  match w.segment with
  | some s => s ++ [':']
  | none => []

/-- The text. -/
def text (w : BdfText) : List Char :=
  w.segmentText ++ (w.bus ++ ':' :: (w.device ++ '.' :: [w.function]))

/-- `dd <= 1f` and `f <= 7` -/
def InRange (w : BdfText) : Prop := hexValue w.device ≤ 31 ∧ hexValue [w.function] ≤ 7

/-- The numbers of the fields. -/
def components (w : BdfText) : List Nat :=
  (w.segment.map hexValue).toList ++ [hexValue w.bus, hexValue w.device, hexValue [w.function]]

/-- The device, in segment zero if there is no segment. -/
def value (w : BdfText) : Bdf :=
  ⟨(w.segment.map hexValue).getD 0, hexValue w.bus, hexValue w.device, hexValue [w.function]⟩

/-- The fields of the text, with something behind the last one. -/
def fields (w : BdfText) (rest : List Char) : List (List Char) :=
  w.segment.toList ++ [w.bus, w.device, w.function :: rest]

/-- The characters of a text. -/
theorem mem_text {w : BdfText} {c : Char} (h : c ∈ w.text) :
    isHexDigit c = true ∨ c = ':' ∨ c = '.' := by
  have hrest : c ∈ w.bus ++ ':' :: (w.device ++ '.' :: [w.function]) →
      isHexDigit c = true ∨ c = ':' ∨ c = '.' := by
    simp only [List.mem_append, List.mem_cons, List.not_mem_nil, or_false]
    rintro (hc | rfl | hc | rfl | rfl)
    · exact .inl (w.bus_digits.digits c hc)
    · exact .inr (.inl rfl)
    · exact .inl (w.device_digits.digits c hc)
    · exact .inr (.inr rfl)
    · exact .inl w.function_digit
  rw [text, segmentText] at h
  cases hseg : w.segment with
  | none =>
      rw [hseg] at h
      exact hrest (by simpa using h)
  | some seg =>
      rw [hseg, List.mem_append, List.mem_append, List.mem_singleton] at h
      rcases h with (hc | rfl) | hc
      · exact .inl ((w.segment_digits seg hseg).digits c hc)
      · exact .inr (.inl rfl)
      · exact hrest hc

/-- The point is in every text. -/
theorem point_mem_text (w : BdfText) : '.' ∈ w.text := by
  simp [text]

end BdfText

/-! ## Fields -/

/-- A digit is no separator. -/
theorem not_separator_of_digit {c : Char} (h : isHexDigit c = true) :
    decide (c = ':' ∨ c = '.') = false := by
  rw [decide_eq_false_iff_not]
  rintro (rfl | rfl) <;> exact absurd h (by decide)

/-- A text of digits up to a separator is the first field. -/
theorem splitFields_digits {s rest : List Char} {sep : Char} (hs : ∀ c ∈ s, isHexDigit c = true)
    (hsep : sep = ':' ∨ sep = '.') : splitFields (s ++ sep :: rest) = s :: splitFields rest :=
  List.splitOnP_append_cons_of_forall_mem (fun c hc => not_separator_of_digit (hs c hc)) sep
    (decide_eq_true hsep) rest

/-- A line of a BDF, cut into its fields. -/
theorem splitFields_of_endsLine {w : BdfText} {s : List Char} (h : EndsLine s w.text) :
    ∃ rest, (rest = [] ∨ rest = ['\n']) ∧ splitFields s = w.fields rest := by
  have hcut : ∀ rest, (rest = [] ∨ rest = ['\n']) →
      splitFields (w.text ++ rest) = w.fields rest := by
    intro rest hrest
    have hlast : splitFields (w.function :: rest) = [w.function :: rest] := by
      refine List.splitOnP_eq_singleton fun c hc => ?_
      rcases List.mem_cons.mp hc with rfl | hc
      · exact not_separator_of_digit w.function_digit
      · rcases hrest with rfl | rfl
        · cases hc
        · rw [List.mem_singleton.mp hc]
          rfl
    have htail : splitFields (w.bus ++ ':' :: (w.device ++ '.' :: (w.function :: rest))) =
        [w.bus, w.device, w.function :: rest] := by
      rw [splitFields_digits w.bus_digits.digits (.inl rfl),
        splitFields_digits w.device_digits.digits (.inr rfl), hlast]
    rw [BdfText.text, BdfText.segmentText, BdfText.fields]
    cases hseg : w.segment with
    | none => simpa using htail
    | some seg =>
        have hdigits := (w.segment_digits seg hseg).digits
        simp only [List.append_assoc, List.cons_append, List.nil_append, Option.toList_some]
        rw [splitFields_digits hdigits (.inl rfl), htail]
  rcases h with rfl | rfl
  · exact ⟨[], .inl rfl, by simpa using hcut [] (.inl rfl)⟩
  · exact ⟨['\n'], .inr rfl, hcut _ (.inr rfl)⟩

/-- Digits, with a newline behind them or not. -/
theorem int16_digits {s rest : List Char} (hne : s ≠ []) (hs : ∀ c ∈ s, isHexDigit c = true)
    (hrest : rest = [] ∨ rest = ['\n']) : int16 (s ++ rest) = .ok (hexValue s) := by
  have hspace : ∀ c ∈ s, ¬ isSpace c = true := by
    intro c hc
    rw [Lib.isSpace_digit (hs c hc)]
    exact Bool.false_ne_true
  have hfirst : (s ++ rest).dropWhile isSpace = s ++ rest := by
    cases s with
    | nil => exact absurd rfl hne
    | cons c s => exact List.dropWhile_cons_of_neg (hspace c List.mem_cons_self)
  have hlast : (s.reverse).dropWhile isSpace = s.reverse := by
    cases hr : s.reverse with
    | nil => rfl
    | cons c r =>
        have hc : c ∈ s := List.mem_reverse.mp (hr ▸ List.mem_cons_self)
        exact List.dropWhile_cons_of_neg (hspace c hc)
  have hstrip : ((s ++ rest).reverse.dropWhile isSpace).reverse = s := by
    rcases hrest with rfl | rfl
    · rw [List.append_nil, hlast, List.reverse_reverse]
    · rw [List.reverse_append, List.reverse_singleton, List.singleton_append,
        List.dropWhile_cons_of_pos (by decide), hlast, List.reverse_reverse]
  rw [int16, hfirst]
  simp only [hstrip]
  rw [if_pos ⟨hne, List.all_eq_true.mpr hs⟩]

/-- The numbers of the fields of a text. -/
theorem int16All_fields (w : BdfText) {rest : List Char} (hrest : rest = [] ∨ rest = ['\n']) :
    int16All (w.fields rest) = .ok w.components := by
  have hne : ∀ {n : Nat} {s : List Char}, Digits (n + 1) s → s ≠ [] := by
    rintro n _ ⟨hlen, -⟩ rfl
    cases hlen
  have hfield : ∀ {n : Nat} {s : List Char}, Digits (n + 1) s → int16 s = .ok (hexValue s) := by
    intro n s hd
    have := int16_digits (hne hd) hd.digits (.inl rfl)
    rwa [List.append_nil] at this
  have hlast : int16 (w.function :: rest) = .ok (hexValue [w.function]) :=
    int16_digits (s := [w.function]) (List.cons_ne_nil _ _) (by simpa using w.function_digit) hrest
  rw [BdfText.fields, BdfText.components]
  cases hseg : w.segment with
  | none =>
      simp [int16All, hfield w.bus_digits, hfield w.device_digits, hlast, bind, Except.bind, pure,
        Except.pure]
  | some seg =>
      simp [int16All, hfield w.bus_digits, hfield w.device_digits, hlast,
        hfield (w.segment_digits seg hseg), bind, Except.bind, pure, Except.pure]

/-- The numbers of a line of a BDF. -/
theorem components_of_endsLine {w : BdfText} {s : List Char} (h : EndsLine s w.text) :
    int16All (splitFields s) = .ok w.components := by
  obtain ⟨rest, hrest, hsplit⟩ := splitFields_of_endsLine h
  rw [hsplit, int16All_fields w hrest]

/-- A line has one list of numbers. -/
theorem components_unique {w w' : BdfText} {s : List Char} (h : EndsLine s w.text)
    (h' : EndsLine s w'.text) : w.components = w'.components :=
  Except.ok.inj ((components_of_endsLine h).symm.trans (components_of_endsLine h'))

end RocDxg
