import Mathlib.Algebra.Group.Int.Defs
import Mathlib.Algebra.GroupWithZero.Nat
import Mathlib.Data.Nat.Basic

/-!
# Codes, machine words and alignment

The codes of `status.h` and the arithmetic of `util/utils.h`.  A machine word is a
natural number, and an operation of the source that can wrap is reduced modulo the width
of its type.
`alignDown` and `alignUp` are the templates `AlignDown` and `AlignUp`, whose
type argument is the word width `w`.
-/

namespace RocDxg

/-- `ErrorCode` -/
inductive ErrorCode where
  | success
  | deviceLost
  | unSupported
  | notReady
  | outOfMemory
  | initializationFailed
  | outOfGpuMemory
  | outOfHandleApeMemory
  | bufferTooSmall
  | timeout
  | syscallFail
  | invalidParams
  | invalidPointer
  | incompatibleDevice
  | checkError
  | notFound
  | sameProcessSameDevice
  | unknown
deriving DecidableEq, Repr

/-- The value of a 64-bit word. -/
def u64 (n : Nat) : Nat := n % 2 ^ 64

/-- The value of a 32-bit word. -/
def u32 (n : Nat) : Nat := n % 2 ^ 32

/-- Subtraction of 64-bit words. -/
def sub64 (a b : Nat) : Nat := u64 (a + 2 ^ 64 - b)

theorem u64_of_lt {n : Nat} (h : n < 2 ^ 64) : u64 n = n := Nat.mod_eq_of_lt h

theorem u32_of_lt {n : Nat} (h : n < 2 ^ 32) : u32 n = n := Nat.mod_eq_of_lt h

theorem sub64_of_le {a b : Nat} (h : b ≤ a) (ha : a < 2 ^ 64) : sub64 a b = a - b := by
  unfold sub64 u64
  omega

/-- One item more of a size in 64 bits. -/
theorem u64_mul_succ (n k : Nat) : u64 (u64 (n * k) + n) = u64 (n * (k + 1)) := by
  rw [Nat.mul_succ]
  simp only [u64, Nat.mod_add_mod]

/-- One item less of a size in 64 bits. -/
theorem sub64_mul_succ {n : Nat} (hn : n < 2 ^ 64) (k : Nat) :
    sub64 (u64 (n * (k + 1))) n = u64 (n * k) := by
  rw [Nat.mul_succ]
  simp only [sub64, u64]
  generalize n * k = m
  omega

/-- The multiple of an alignment above a value. -/
theorem dvd_next (align n : Nat) : align ∣ n + align - n % align := by
  have hnext : n + align - n % align = align * (n / align + 1) := by
    have hdiv := Nat.div_add_mod n align
    rw [Nat.mul_succ]
    omega
  rw [hnext]
  exact Nat.dvd_mul_right _ _

theorem dvd_u64_next {align : Nat} (hdvd : align ∣ 2 ^ 64) (n : Nat) :
    align ∣ u64 (n + align - n % align) := by
  rw [u64, Nat.dvd_mod_iff hdvd]
  exact dvd_next align n

/-- `AlignDown` at a type of `w` bits. -/
def alignDown (w value alignment : Nat) : Nat := value / alignment * alignment % 2 ^ w

/-- `AlignUp` at a type of `w` bits. -/
def alignUp (w value alignment : Nat) : Nat :=
  alignDown w ((value + alignment - 1) % 2 ^ w) alignment

/-- `GPU_HUGE_PAGE_SIZE`, 2 MiB. -/
def gpuHugePageSize : Nat := 2 * 2 ^ 20

/-- `DEFAULT_GPU_PAGE_SIZE`, 4 KiB. -/
def defaultGpuPageSize : Nat := 2 ^ 12

theorem alignDown_of_lt {w value alignment : Nat} (h : value < 2 ^ w) :
    alignDown w value alignment = value / alignment * alignment :=
  Nat.mod_eq_of_lt (Nat.lt_of_le_of_lt (Nat.div_mul_le_self ..) h)

theorem alignUp_of_lt {w value alignment : Nat} (h : value + alignment - 1 < 2 ^ w) :
    alignUp w value alignment = (value + alignment - 1) / alignment * alignment := by
  rw [alignUp, Nat.mod_eq_of_lt h, alignDown_of_lt h]

/-- Without wrap, rounding up does not go below the value. -/
theorem le_alignUp {w value alignment : Nat} (ha : 0 < alignment)
    (h : value + alignment - 1 < 2 ^ w) : value ≤ alignUp w value alignment := by
  rw [alignUp_of_lt h]
  have hmod := Nat.mod_lt (value + alignment - 1) ha
  have hdiv := Nat.div_add_mod (value + alignment - 1) alignment
  rw [Nat.mul_comm] at hdiv
  omega

/-- A value that is not rounded to zero is not rounded down. -/
theorem le_alignUp_of_pos {value alignment : Nat} (hv : value < 2 ^ 64)
    (h : 0 < alignUp 64 value alignment) : value ≤ alignUp 64 value alignment := by
  have hzero : ¬ (value + alignment - 1) % 2 ^ 64 < alignment := by
    intro hlt
    rw [alignUp, alignDown, Nat.div_eq_of_lt hlt] at h
    simp at h
  have ha : 0 < alignment := by
    refine Nat.pos_of_ne_zero ?_
    rintro rfl
    simp [alignUp, alignDown] at h
  refine le_alignUp ha ?_
  refine Nat.lt_of_not_le fun hwrap => hzero ?_
  by_cases hbig : 2 ^ 64 ≤ alignment
  · exact Nat.lt_of_lt_of_le (Nat.mod_lt _ (by decide)) hbig
  · have hsub : (value + alignment - 1) % 2 ^ 64 = value + alignment - 1 - 2 ^ 64 := by
      rw [Nat.mod_eq_sub_mod hwrap, Nat.mod_eq_of_lt (by omega)]
    omega

end RocDxg
