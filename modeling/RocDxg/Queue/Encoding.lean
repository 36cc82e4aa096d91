import RocDxg.Queue.Scratch
import RocDxg.Queue.ScratchSize

/-!
# The dwords of the commands

What the `Build` functions of `CmdUtil` write, dword by dword, and the scratch descriptor that
`InitScratchSRD` and `UpdateIndexStride` make.  `Pm4.words` is a refinement of the commands of
`Queue.Packets`: it has as many dwords as the size of the command says (`length_words`).
-/

namespace RocDxg

/-- What the dwords depend on beside the commands: the device, the content of a new `amd_queue_t`,
the bits of a register that no field covers, and the memory that vendor packets point into. -/
structure DwordEnv where
  device : Device
  numShaderEngine : Nat := 1
  /-- `scratch_resource_descriptor` and `compute_tmpring_size` before `InitScratchSRD`. -/
  freshSrd0 : UInt32 := 0
  freshSrd1 : UInt32 := 0
  freshSrd2 : UInt32 := 0
  freshSrd3 : UInt32 := 0
  freshTmpring : UInt32 := 0
  tmpringRest : Nat := 0
  memory : Nat → UInt32 := fun _ => 0

/-! ## Pointers and headers -/

/-- `Ptr48Low32` -/
def ptr48Low32 (p : Nat) : UInt32 := .ofNat (p % 2 ^ 40 / 2 ^ 8)

/-- `Ptr48High8` -/
def ptr48High8 (p : Nat) : UInt32 := .ofNat (p / 2 ^ 40 % 2 ^ 8)

/-- `PtrLow32` -/
def ptrLow32 (p : Nat) : UInt32 := .ofNat p

/-- `PtrHigh32` -/
def ptrHigh32 (p : Nat) : UInt32 := .ofNat (p / 2 ^ 32)

/-- `PM4_TYPE3_HDR` -/
def pm4Type3Hdr (opc count : Nat) : UInt32 :=
  .ofNat (3 <<< 30 ||| (count - 2) <<< 16 ||| opc <<< 8 ||| 1 <<< 1)

/-- `GenerateSetShRegHeader` for a template of `count` dwords. -/
def setShRegHeader (count regAddr : Nat) : List UInt32 :=
  [pm4Type3Hdr 0x76 count, .ofNat ((regAddr - 0x2c00) % 2 ^ 16)]

/-- The GPU address behind `scratch_base_`. -/
def scratchAddr (base : Option Scratch) : Nat := base.elim 0 Scratch.addr

/-! ## The scratch descriptor -/

/-- `SQ_SEL_X`, `SQ_SEL_Y`, `SQ_SEL_Z` and `SQ_SEL_W` in their fields. -/
def srdSelectors : Nat := 4 ||| 5 <<< 3 ||| 6 <<< 6 ||| 7 <<< 9

/-- The first dword of the descriptor in `InitScratchSRD`. -/
def srdWord0 (addr : Nat) : UInt32 := .ofNat addr

/-- The second dword: `BASE_ADDRESS_HI` in 16 bits, and `SWIZZLE_ENABLE`. -/
def srdWord1 (major : Gfx) (addr : Nat) : UInt32 :=
  .ofNat (addr / 2 ^ 32 % 2 ^ 16 ||| if major.ge11 then 1 <<< 30 else 1 <<< 31)

/-- The fourth dword. -/
def srdWord3 : Gfx → UInt32
  | .gfx9 => .ofNat (srdSelectors ||| 4 <<< 12 ||| 4 <<< 15 ||| 1 <<< 19 ||| 3 <<< 21 ||| 1 <<< 23)
  | .gfx10 => .ofNat (srdSelectors ||| 0x14 <<< 12 ||| 1 <<< 23 ||| 1 <<< 24 ||| 2 <<< 28)
  | .gfx11 | .gfx12 => .ofNat (srdSelectors ||| 0x14 <<< 12 ||| 1 <<< 23 ||| 2 <<< 28)

/-- `UpdateIndexStride`: the bits 21 and 22 are `INDEX_STRIDE`. -/
def updateIndexStride (major : Gfx) (srd : UInt32) (wave32 : Bool) : UInt32 :=
  match major with
  | .gfx9 => srd
  | .gfx10 | .gfx11 | .gfx12 =>
      (srd &&& 0xFF9FFFFF) ||| .ofNat ((if wave32 then 2 else 3) <<< 21)

namespace DwordEnv

variable (e : DwordEnv)

/-- The descriptor that `BuildDispatch` copies into the user data. -/
def srd (base : Option Scratch) (size : Nat) (wave32 : Bool) : List UInt32 :=
  match base with
  | none =>
      [e.freshSrd0, e.freshSrd1, e.freshSrd2, updateIndexStride e.device.major e.freshSrd3 wave32]
  | some s =>
      [srdWord0 s.addr, srdWord1 e.device.major s.addr, .ofNat size,
        updateIndexStride e.device.major (srdWord3 e.device.major) wave32]

/-- `compute_tmpring_size`; the size per wave is zero before `InitScratchSRD`. -/
def tmpring (scratchSizePerWave : Nat) : UInt32 :=
  if scratchSizePerWave = 0 then e.freshTmpring
  else
    let major := e.device.major
    let t := tmpringSize major e.numShaderEngine scratchSizePerWave e.device.scratchWaves
    let rest := if major = .gfx12 then 0 else e.tmpringRest <<< (12 + wavesizeBits major)
    .ofNat (t.waves ||| t.wavesize <<< 12 ||| rest)

/-! ## User data -/

/-- A dword of user data outside the scratch descriptor. -/
def userWord : UserData → UInt32
  | .scratchLo base => ptrLow32 (scratchAddr base)
  | .scratchHi base => ptrHigh32 (scratchAddr base)
  | .srdNumRecords n => .ofNat n
  | .srdStride wave32 => updateIndexStride e.device.major (srdWord3 e.device.major) wave32
  | .ptrLow p => ptrLow32 p
  | .ptrHigh p => ptrHigh32 p
  | .word n => .ofNat n

/-- The dwords of the user data. -/
def userWords : List UserData → List UInt32
  | .scratchLo base :: .scratchHi _ :: .srdNumRecords n :: .srdStride wave32 :: ds =>
      e.srd base n wave32 ++ userWords ds
  | u :: ds => e.userWord u :: userWords ds
  | [] => []

end DwordEnv

/-! ## Commands -/

namespace Pm4

variable (e : DwordEnv)

/-- `BuildCopyData`, with the arguments it has by default. -/
def copyDataWords (dst : Nat) : List UInt32 :=
  [pm4Type3Hdr 0x40 6, .ofNat (9 ||| 2 <<< 8 ||| 1 <<< 16 ||| 1 <<< 20 ||| 1 <<< 25), 0, 0,
    .ofNat (u32 dst / 8 * 8), ptrHigh32 dst]

/-- `BuildBarrier` -/
def barrierWords : List UInt32 := [pm4Type3Hdr 0x46 2, .ofNat (7 ||| 4 <<< 8)]

/-- `BuildAcquireMem` -/
def acquireMemWords : Gfx → List UInt32
  | .gfx9 =>
      [pm4Type3Hdr 0x58 7, .ofNat (1 <<< 29 ||| 1 <<< 27 ||| 1 <<< 28), 0xFFFFFFFF, 0xFF, 0, 0, 4]
  | .gfx10 | .gfx11 | .gfx12 =>
      [pm4Type3Hdr 0x58 8, 0, 0xFFFFFFFF, 0xFF, 0, 0, 4,
        .ofNat (1 <<< 16 ||| 1 <<< 15 ||| 1 <<< 14 ||| 1 <<< 9 ||| 1 <<< 8 ||| 1 <<< 7 |||
          1 <<< 6 ||| 1 <<< 5 ||| 1 <<< 4 ||| 1 <<< 0)]

/-- `BuildScratch` -/
def setScratchWords (base : Option Scratch) : List UInt32 :=
  setShRegHeader 4 0x2E10 ++ [ptr48Low32 (scratchAddr base), ptr48High8 (scratchAddr base)]

/-- `BuildComputeShaderParams` -/
def computeShaderParamsWords : List UInt32 := setShRegHeader 3 0x2E28 ++ [.ofNat (1 <<< 31)]

/-- What `BuildDispatch` writes before the user data. -/
def dispatchHead (d : Dispatch) : List UInt32 :=
  setShRegHeader 5 0x2E07 ++ [.ofNat d.threadX, .ofNat d.threadY, .ofNat d.threadZ] ++
  setShRegHeader 4 0x2E0C ++ [ptr48Low32 d.entry, ptr48High8 d.entry] ++
  setShRegHeader 4 0x2E12 ++ [.ofNat d.rsrc1, .ofNat d.rsrc2] ++
  setShRegHeader 8 0x2E15 ++ [0x3ff, 0xFFFFFFFF, 0xFFFFFFFF, e.tmpring d.tmpringSizePerWave,
    0xFFFFFFFF, 0xFFFFFFFF] ++
  setShRegHeader 18 0x2E40

/-- `DISPATCH_DIRECT` at the end of `BuildDispatch`. -/
def dispatchDirect (d : Dispatch) : List UInt32 :=
  [pm4Type3Hdr 0x15 5, .ofNat d.gridX, .ofNat d.gridY, .ofNat d.gridZ,
    .ofNat (1 <<< 0 ||| 1 <<< 2 ||| 1 <<< 5 ||| if d.wave32 then 1 <<< 15 else 0)]

/-- `BuildDispatch` -/
def dispatchWords (d : Dispatch) : List UInt32 :=
  dispatchHead e d ++ e.userWords d.userData ++ List.replicate (16 - d.userData.length) 0 ++
    dispatchDirect d

/-- `BuildAtomicMem`.  The decrement of a signal bypasses the cache. -/
def atomicMemWords (addr : Nat) (srcData : Int) : List UInt32 :=
  let data := (srcData % 2 ^ 64).toNat
  let cachePolicy := if srcData < 0 then 3 else 1
  [pm4Type3Hdr 0x1E 9, .ofNat (0x2f ||| cachePolicy <<< 25), ptrLow32 addr, ptrHigh32 addr,
    .ofNat data, .ofNat (data / 2 ^ 32), 0, 0, 0]

/-- `BuildWriteData64Command` -/
def writeData64Words (addr value : Nat) : List UInt32 :=
  [pm4Type3Hdr 0x37 6, .ofNat (5 <<< 8 ||| 1 <<< 20 ||| 3 <<< 25), .ofNat (u32 addr / 4 * 4),
    ptrHigh32 addr, .ofNat value, .ofNat (value / 2 ^ 32)]

/-- The dwords of a command. -/
def words : Pm4 → List UInt32
  | copyData dst => copyDataWords dst
  | barrier => barrierWords
  | acquireMem major => acquireMemWords major
  | setScratch base => setScratchWords base
  | computeShaderParams => computeShaderParamsWords
  | dispatch d => dispatchWords e d
  | atomicMem addr srcData => atomicMemWords addr srcData
  | writeData64 addr value => writeData64Words addr value
  | copied addr dwords => (List.range dwords).map fun i => e.memory (addr + 4 * i)

variable {e}

theorem length_srd (base : Option Scratch) (size : Nat) (wave32 : Bool) :
    (e.srd base size wave32).length = 4 := by
  cases base <;> rfl

theorem length_userWords (ds : List UserData) : (e.userWords ds).length = ds.length := by
  fun_induction DwordEnv.userWords with
  | case1 base base' n wave32 ds ih =>
      rw [List.length_append, length_srd, ih]
      simp only [List.length_cons]
      omega
  | case2 u ds _ ih => rw [List.length_cons, List.length_cons, ih]
  | case3 => rfl

theorem length_dispatchHead (d : Dispatch) : (dispatchHead e d).length = 23 := rfl

/-- A command has the size that its dwords have. -/
theorem length_words (c : Pm4) : c.size = 4 * (c.words e).length := by
  cases c with
  | dispatch d =>
      have hlen := d.userData_length
      simp only [size, words, dispatchWords, List.length_append, length_dispatchHead,
        length_userWords, List.length_replicate, dispatchDirect, List.length_cons, List.length_nil]
      omega
  | acquireMem major => cases major <;> rfl
  | copied addr dwords => simp only [size, words, List.length_map, List.length_range, Nat.mul_comm]
  | _ => rfl

end Pm4

end RocDxg
