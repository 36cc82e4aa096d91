import Mathlib.Data.List.Induction
import Mathlib.Data.List.TakeWhile
import Mathlib.Tactic.Ring

/-!
# Tokens and hexadecimal numbers

Two functions of the C library on the characters before the end of a string: `strtok`, and
`strtol` at base 16.  `strtok` keeps its place in the string between two calls, here the rest of
it.  A token without a delimiter is read back from the text that it begins (`strtok_append`), and
a text of hexadecimal digits as the number that they write (`strtol16_digits`).
-/

namespace Lib

/-! ## Hexadecimal digits -/

/-- The value of a hexadecimal digit. -/
def hexDigit (c : Char) : Option Nat :=
  if '0' ≤ c ∧ c ≤ '9' then some (c.toNat - '0'.toNat)
  else if 'a' ≤ c ∧ c ≤ 'f' then some (c.toNat - 'a'.toNat + 10)
  else if 'A' ≤ c ∧ c ≤ 'F' then some (c.toNat - 'A'.toNat + 10)
  else none

/-- The character is a hexadecimal digit. -/
def isHexDigit (c : Char) : Bool := (hexDigit c).isSome

theorem hexDigit_lt {c : Char} {n : Nat} (h : hexDigit c = some n) : n < 16 := by
  rw [hexDigit] at h
  split at h
  next hc =>
    cases h
    have hle : c.toNat ≤ '9'.toNat := hc.2
    have hnine : '9'.toNat = 57 := rfl
    have hzero : '0'.toNat = 48 := rfl
    omega
  next =>
    split at h
    next hc =>
      cases h
      have hle : c.toNat ≤ 'f'.toNat := hc.2
      have hf : 'f'.toNat = 102 := rfl
      have ha : 'a'.toNat = 97 := rfl
      omega
    next =>
      split at h
      next hc =>
        cases h
        have hle : c.toNat ≤ 'F'.toNat := hc.2
        have hf : 'F'.toNat = 70 := rfl
        have ha : 'A'.toNat = 65 := rfl
        omega
      next => cases h

theorem hexDigit_getD_lt (c : Char) : (hexDigit c).getD 0 < 16 := by
  cases h : hexDigit c with
  | none => exact Nat.succ_pos _
  | some n => exact hexDigit_lt h

/-- The number that a text of hexadecimal digits writes, the most significant first. -/
def hexValue (s : List Char) : Nat := s.foldl (fun n c => n * 16 + (hexDigit c).getD 0) 0

@[simp] theorem hexValue_nil : hexValue [] = 0 := rfl

theorem hexValue_concat (s : List Char) (c : Char) :
    hexValue (s ++ [c]) = hexValue s * 16 + (hexDigit c).getD 0 := by
  simp [hexValue, List.foldl_append]

/-- The digits of the second text are the less significant ones. -/
theorem hexValue_append (s t : List Char) :
    hexValue (s ++ t) = hexValue s * 16 ^ t.length + hexValue t := by
  induction t using List.reverseRecOn with
  | nil => simp
  | append_singleton t c ih =>
      rw [← List.append_assoc, hexValue_concat, ih, hexValue_concat, List.length_append,
        List.length_singleton, Nat.pow_succ]
      ring

theorem hexValue_lt (s : List Char) : hexValue s < 16 ^ s.length := by
  induction s using List.reverseRecOn with
  | nil => exact Nat.one_pos
  | append_singleton s c ih =>
      have hc := hexDigit_getD_lt c
      rw [hexValue_concat, List.length_append, List.length_singleton, Nat.pow_succ]
      omega

/-- The digit with a value, as `%x` prints it. -/
def hexChar (n : Nat) : Char := (['0', '1', '2', '3', '4', '5', '6', '7', '8', '9', 'a', 'b', 'c',
  'd', 'e', 'f'] : List Char).getD n '0'

theorem hexDigit_hexChar : ∀ {n : Nat}, n < 16 → hexDigit (hexChar n) = some n := by decide

/-- The last `k` digits of a number, with the leading zeros. -/
def hexDigits : (k n : Nat) → List Char
  | 0, _ => []
  | k + 1, n => hexDigits k (n / 16) ++ [hexChar (n % 16)]

@[simp] theorem length_hexDigits (k n : Nat) : (hexDigits k n).length = k := by
  induction k generalizing n with
  | zero => rfl
  | succ k ih => rw [hexDigits, List.length_append, ih, List.length_singleton]

theorem isHexDigit_hexDigits {k n : Nat} {c : Char} (h : c ∈ hexDigits k n) :
    isHexDigit c = true := by
  induction k generalizing n with
  | zero => cases h
  | succ k ih =>
      rw [hexDigits, List.mem_append, List.mem_singleton] at h
      cases h with
      | inl h => exact ih h
      | inr h =>
          rw [h, isHexDigit, hexDigit_hexChar (Nat.mod_lt _ (by decide))]
          rfl

/-- The printed digits write the number. -/
theorem hexValue_hexDigits {k n : Nat} (h : n < 16 ^ k) : hexValue (hexDigits k n) = n := by
  induction k generalizing n with
  | zero =>
      rw [Nat.pow_zero] at h
      exact (Nat.lt_one_iff.mp h).symm
  | succ k ih =>
      rw [Nat.pow_succ] at h
      rw [hexDigits, hexValue_concat, ih (Nat.div_lt_of_lt_mul (by omega)),
        hexDigit_hexChar (Nat.mod_lt _ (by decide)), Option.getD_some]
      omega

/-- The digits of a number without leading zeros. -/
theorem exists_digitChar_of_mem {n : Nat} {c : Char} (h : c ∈ Nat.toDigits 16 n) :
    ∃ d, d < 16 ∧ c = d.digitChar := by
  induction n using Nat.strongRecOn with
  | ind n ih =>
      rw [Nat.toDigits_eq_if (by decide)] at h
      split at h
      next hlt => exact ⟨n, hlt, List.mem_singleton.mp h⟩
      next hge =>
        rw [List.mem_append, List.mem_singleton] at h
        cases h with
        | inl h => exact ih _ (Nat.div_lt_self (by omega) (by decide)) h
        | inr h => exact ⟨n % 16, Nat.mod_lt _ (by decide), h⟩

theorem hexDigit_digitChar : ∀ {d : Nat}, d < 16 → hexDigit d.digitChar = some d := by decide

theorem isHexDigit_toDigits {n : Nat} {c : Char} (h : c ∈ Nat.toDigits 16 n) :
    isHexDigit c = true := by
  obtain ⟨d, hd, rfl⟩ := exists_digitChar_of_mem h
  rw [isHexDigit, hexDigit_digitChar hd]
  rfl

theorem hexValue_toDigits (n : Nat) : hexValue (Nat.toDigits 16 n) = n := by
  induction n using Nat.strongRecOn with
  | ind n ih =>
      rw [Nat.toDigits_eq_if (by decide)]
      split
      next hlt => simp [hexValue, hexDigit_digitChar hlt]
      next hge =>
        rw [hexValue_concat, ih _ (Nat.div_lt_self (by omega) (by decide)),
          hexDigit_digitChar (Nat.mod_lt _ (by decide)), Option.getD_some]
        omega

theorem hexValue_replicate (k : Nat) : hexValue (List.replicate k '0') = 0 := by
  induction k with
  | zero => rfl
  | succ k ih =>
      rw [List.replicate_succ', hexValue_concat, ih]
      rfl

/-- Leading zeros. -/
theorem hexValue_leftpad (w : Nat) (s : List Char) : hexValue (s.leftpad w '0') = hexValue s := by
  rw [List.leftpad, hexValue_append, hexValue_replicate]
  simp

/-- A number that fits is padded to the width of its field. -/
theorem length_leftpad_toDigits {n w : Nat} (hw : 0 < w) (h : n < 16 ^ w) :
    ((Nat.toDigits 16 n).leftpad w '0').length = w := by
  rw [List.length_leftpad]
  exact Nat.max_eq_left ((Nat.length_toDigits_le_iff (by decide) hw).mpr h)

/-- The padding does not change the number. -/
theorem hexValue_leftpad_toDigits (n w : Nat) :
    hexValue ((Nat.toDigits 16 n).leftpad w '0') = n := by
  rw [hexValue_leftpad, hexValue_toDigits]

theorem isHexDigit_leftpad {w : Nat} {s : List Char} (h : ∀ c ∈ s, isHexDigit c = true) {c : Char}
    (hc : c ∈ s.leftpad w '0') : isHexDigit c = true := by
  rw [List.leftpad, List.mem_append, List.mem_replicate] at hc
  rcases hc with ⟨-, rfl⟩ | hc
  · rfl
  · exact h c hc

/-! ## Numbers -/

/-- `isspace` -/
def isSpace (c : Char) : Bool :=
  c = ' ' || c = '\t' || c = '\n' || c = '\x0b' || c = '\x0c' || c = '\r'

/-- The sign in front of a number, and what follows it. -/
def splitSign : List Char → Bool × List Char
  | '-' :: s => (true, s)
  | '+' :: s => (false, s)
  | s => (false, s)

/-- A number at base 16 may begin with `0x`, when a digit follows. -/
def dropHexMark : List Char → List Char
  | '0' :: 'x' :: c :: s => if isHexDigit c then c :: s else '0' :: 'x' :: c :: s
  | '0' :: 'X' :: c :: s => if isHexDigit c then c :: s else '0' :: 'X' :: c :: s
  | s => s

/-- `strtol` at base 16, with a `long` of 64 bits. -/
def strtol16 (s : List Char) : Int :=
  let (negative, s) := splitSign (s.dropWhile isSpace)
  let n := hexValue ((dropHexMark s).takeWhile isHexDigit)
  if negative then max (-(n : Int)) (-2 ^ 63) else min (n : Int) (2 ^ 63 - 1)

theorem splitSign_digit {c : Char} {s : List Char} (h : isHexDigit c = true) :
    splitSign (c :: s) = (false, c :: s) := by
  rw [splitSign.eq_def]
  split
  next heq =>
    cases heq
    exact absurd h (by decide)
  next heq =>
    cases heq
    exact absurd h (by decide)
  next => rfl

theorem dropHexMark_digits {s : List Char} (h : ∀ c ∈ s, isHexDigit c = true) :
    dropHexMark s = s := by
  rw [dropHexMark.eq_def]
  split
  next => exact absurd (h 'x' (by simp)) (by decide)
  next => exact absurd (h 'X' (by simp)) (by decide)
  next => rfl

theorem isSpace_digit {c : Char} (h : isHexDigit c = true) : isSpace c = false := by
  cases hs : isSpace c with
  | false => rfl
  | true =>
      simp only [isSpace, Bool.or_eq_true, decide_eq_true_eq, or_assoc] at hs
      rcases hs with rfl | rfl | rfl | rfl | rfl | rfl <;> exact absurd h (by decide)

theorem takeWhile_digits {s : List Char} (h : ∀ c ∈ s, isHexDigit c = true) :
    s.takeWhile isHexDigit = s := List.takeWhile_eq_self_iff.mpr h

/-- A text of digits is read as the number that it writes. -/
theorem strtol16_digits {s : List Char} (hd : ∀ c ∈ s, isHexDigit c = true)
    (hlt : hexValue s < 2 ^ 63) : strtol16 s = hexValue s := by
  cases s with
  | nil => rfl
  | cons c s =>
      have hc := hd c List.mem_cons_self
      have hdrop : (c :: s).dropWhile isSpace = c :: s := by
        rw [List.dropWhile_cons_of_neg]
        rw [isSpace_digit hc]
        exact Bool.false_ne_true
      rw [strtol16, hdrop, splitSign_digit hc]
      simp only [dropHexMark_digits hd, takeWhile_digits hd, Bool.false_eq_true, if_false]
      omega

/-! ## Tokens -/

/-- `strtok` with one delimiter, on the rest of the string: the next token and the rest behind
it, or the null pointer. -/
def strtok (delim : Char) (s : List Char) : Option (List Char × List Char) :=
  match s.dropWhile (· == delim) with
  | [] => none
  | c :: s => some ((c :: s).takeWhile (· != delim), ((c :: s).dropWhile (· != delim)).drop 1)

/-- The token at the start of a text, up to a delimiter. -/
theorem strtok_append {delim : Char} {t : List Char} (hne : t ≠ []) (ht : delim ∉ t)
    (s : List Char) : strtok delim (t ++ delim :: s) = some (t, s) := by
  have hall : ∀ c ∈ t, (c != delim) = true := by
    intro c hc
    rw [bne_iff_ne]
    rintro rfl
    exact ht hc
  cases t with
  | nil => exact absurd rfl hne
  | cons c t =>
      have hc : ¬ (c == delim) = true := by
        have := hall c List.mem_cons_self
        simpa using this
      have hdrop : (c :: t ++ delim :: s).dropWhile (· == delim) = c :: t ++ delim :: s :=
        List.dropWhile_cons_of_neg hc
      rw [strtok, hdrop]
      simp only [List.cons_append]
      rw [← List.cons_append, List.takeWhile_append_of_pos hall, List.dropWhile_append_of_pos hall]
      simp

/-- The last token of a text. -/
theorem strtok_last {delim : Char} {t : List Char} (hne : t ≠ []) (ht : delim ∉ t) :
    strtok delim t = some (t, []) := by
  have hall : ∀ c ∈ t, (c != delim) = true := by
    intro c hc
    rw [bne_iff_ne]
    rintro rfl
    exact ht hc
  cases t with
  | nil => exact absurd rfl hne
  | cons c t =>
      have hc : ¬ (c == delim) = true := by
        have := hall c List.mem_cons_self
        simpa using this
      have hdrop : (c :: t).dropWhile (· == delim) = c :: t := List.dropWhile_cons_of_neg hc
      rw [strtok, hdrop]
      simp only
      rw [List.takeWhile_eq_self_iff.mpr hall, List.dropWhile_eq_nil_iff.mpr hall]
      rfl

end Lib
