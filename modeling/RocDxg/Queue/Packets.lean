import RocDxg.Util

/-!
# AQL packets and PM4 commands

The input and the output of the compute queue.  An AQL packet is 64 bytes whose
header decides how the rest is read; `AqlPacket` has the fields of the three
layouts side by side (`hsa_kernel_dispatch_packet_t`, `hsa_barrier_and_packet_t`
and `amd_aql_pm4_ib`), which agree on the header and on the completion signal.

A PM4 command is what one `Build` function of `CmdUtil` writes.  The model keeps
the values a command encodes and its size in bytes, not its bit layout.  A
pointer to scratch memory carries the identity of the buffer it points at, so
that an address can be told from the buffer that had it before.
-/

namespace RocDxg

/-! ## AQL packets -/

/-- `hsa_packet_type_t` -/
inductive PacketType where
  | vendorSpecific
  | invalid
  | kernelDispatch
  | barrierAnd
  | agentDispatch
  | barrierOr
deriving DecidableEq, Repr

/-- A slot of the AQL ring. -/
structure AqlPacket where
  header : Nat
  completionSignal : Nat := 0
  -- hsa_kernel_dispatch_packet_t
  setup : Nat := 0
  workgroupSizeX : Nat := 0
  workgroupSizeY : Nat := 0
  workgroupSizeZ : Nat := 0
  gridSizeX : Nat := 0
  gridSizeY : Nat := 0
  gridSizeZ : Nat := 0
  privateSegmentSize : Nat := 0
  groupSegmentSize : Nat := 0
  kernelObject : Nat := 0
  kernargAddress : Nat := 0
  -- amd_aql_pm4_ib
  ibJumpCmd1 : Nat := 0
  ibJumpCmd2 : Nat := 0
  ibJumpCmd3 : Nat := 0
deriving DecidableEq, Repr

namespace AqlPacket

/-- The type field of the header, `none` for a value outside the enumeration. -/
def type (p : AqlPacket) : Option PacketType :=
  match p.header % 2 ^ 8 with
  | 0 => some .vendorSpecific
  | 1 => some .invalid
  | 2 => some .kernelDispatch
  | 3 => some .barrierAnd
  | 4 => some .agentDispatch
  | 5 => some .barrierOr
  | _ => none

/-- The `BARRIER` bit of the header. -/
def barrierBit (p : AqlPacket) : Bool := p.header.testBit 8

/-- The packet as the translator leaves it. -/
def invalidate (p : AqlPacket) : AqlPacket := { p with header := 1 }

end AqlPacket

/-- The fields of `amd_kernel_code_t` that the translator reads. -/
structure KernelCode where
  kernelCodeEntryByteOffset : Nat := 0
  kernelCodeProperties : Nat := 0
  computePgmRsrc1 : Nat := 0
  computePgmRsrc2 : Nat := 0
deriving DecidableEq, Repr

namespace KernelCode

def enableSgprPrivateSegmentBuffer (k : KernelCode) : Bool := k.kernelCodeProperties.testBit 0
def enableSgprDispatchPtr (k : KernelCode) : Bool := k.kernelCodeProperties.testBit 1
def enableSgprQueuePtr (k : KernelCode) : Bool := k.kernelCodeProperties.testBit 2
def enableSgprKernargSegmentPtr (k : KernelCode) : Bool := k.kernelCodeProperties.testBit 3
def enableSgprDispatchId (k : KernelCode) : Bool := k.kernelCodeProperties.testBit 4
def enableSgprFlatScratchInit (k : KernelCode) : Bool := k.kernelCodeProperties.testBit 5
def enableSgprPrivateSegmentSize (k : KernelCode) : Bool := k.kernelCodeProperties.testBit 6
def enableWavefrontSize32 (k : KernelCode) : Bool := k.kernelCodeProperties.testBit 10

end KernelCode

/-! ## PM4 commands -/

/-- The major versions the translator supports. -/
inductive Gfx where
  | gfx9
  | gfx10
  | gfx11
  | gfx12
deriving DecidableEq, Repr

/-- `Major() >= 11` -/
def Gfx.ge11 : Gfx → Bool
  | .gfx9 | .gfx10 => false
  | .gfx11 | .gfx12 => true

/-- A scratch buffer: its GPU address and the handle of its `GpuMemory`. -/
structure Scratch where
  addr : Nat
  mem : Nat
deriving DecidableEq, Repr

/-- The values `InitScratchSRD` has last written into the `amd_queue_t`, from which
the scratch descriptor and the ring size register are made. -/
structure AmdQueue where
  scratchBase : Option Scratch := none
  scratchSize : Nat := 0
  scratchSizePerWave : Nat := 0
deriving DecidableEq, Repr

/-- A dword of `compute_user_data`. -/
inductive UserData where
  | scratchLo (base : Option Scratch)
  | scratchHi (base : Option Scratch)
  | srdNumRecords (n : Nat)
  | srdStride (wave32 : Bool)
  | ptrLow (p : Nat)
  | ptrHigh (p : Nat)
  | word (n : Nat)
deriving DecidableEq, Repr

/-- The scratch buffer a dword points into. -/
def UserData.scratch : UserData → Option Scratch
  | .scratchLo base | .scratchHi base => base
  | _ => none

/-- What `BuildDispatch` writes.  There are 16 dwords of user data. -/
structure Dispatch where
  threadX : Nat
  threadY : Nat
  threadZ : Nat
  entry : Nat
  rsrc1 : Nat
  rsrc2 : Nat
  tmpringSizePerWave : Nat
  userData : List UserData
  wave32 : Bool
  gridX : Nat
  gridY : Nat
  gridZ : Nat
  userData_length : userData.length ≤ 16
deriving DecidableEq, Repr

/-- A PM4 command. -/
inductive Pm4 where
  /-- `BuildCopyData`: the GPU clock to an address. -/
  | copyData (dst : Nat)
  /-- `BuildBarrier`: `EVENT_WRITE` of `CS_PARTIAL_FLUSH`. -/
  | barrier
  /-- `BuildAcquireMem` -/
  | acquireMem (major : Gfx)
  /-- `BuildScratch` -/
  | setScratch (base : Option Scratch)
  /-- `BuildComputeShaderParams` -/
  | computeShaderParams
  /-- `BuildDispatch`, which ends in `DISPATCH_DIRECT`. -/
  | dispatch (d : Dispatch)
  /-- `BuildAtomicMem`: a 64-bit addition. -/
  | atomicMem (addr : Nat) (srcData : Int)
  /-- `BuildWriteData64Command` -/
  | writeData64 (addr value : Nat)
  /-- The PM4 words of a vendor packet. -/
  | copied (addr dwords : Nat)
deriving DecidableEq, Repr

namespace Pm4

/-- The size of a command in bytes. -/
def size : Pm4 → Nat
  | copyData _ => 24
  | barrier => 8
  | acquireMem .gfx9 => 28
  | acquireMem _ => 32
  | setScratch _ => 16
  | computeShaderParams => 12
  | dispatch _ => 176
  | atomicMem _ _ => 36
  | writeData64 _ _ => 24
  | copied _ dwords => dwords * 4

/-- The scratch buffers whose address a command encodes. -/
def scratch : Pm4 → List Scratch
  | setScratch base => base.toList
  | dispatch d => d.userData.filterMap UserData.scratch
  | _ => []

/-- The command starts a kernel. -/
def isDispatch : Pm4 → Bool
  | dispatch _ => true
  | _ => false

/-- `offsetof(SetScratchTemplate, scratch_lo)` -/
def scratchLoOffset : Nat := 8

/-- `offsetof(DispatchTemplate, compute_user_data_regs.compute_user_data[0])` -/
def userDataOffset : Nat := 92

/-- Write a scratch base into the two dwords at a byte offset of a command. -/
def patch (base : Option Scratch) (offset : Nat) : Pm4 → Pm4
  | setScratch old => if offset = scratchLoOffset then setScratch base else setScratch old
  | dispatch d =>
      let j := (offset - userDataOffset) / 4
      dispatch { d with
        userData := (d.userData.set j (.scratchLo base)).set (j + 1) (.scratchHi base)
        userData_length := by
          rw [List.length_set, List.length_set]
          exact d.userData_length }
  | c => c

/-- The total size of a list of commands. -/
def bytes (cs : List Pm4) : Nat := (cs.map size).sum

@[simp] theorem bytes_nil : bytes [] = 0 := rfl

@[simp] theorem bytes_cons (c : Pm4) (cs : List Pm4) : bytes (c :: cs) = c.size + bytes cs := by
  simp [bytes]

@[simp] theorem bytes_append (cs cs' : List Pm4) : bytes (cs ++ cs') = bytes cs + bytes cs' := by
  simp [bytes]

/-- What holds of all commands of a list holds of the ones written under a condition. -/
theorem forall_mem_ite {P : Pm4 → Prop} {c : Prop} [Decidable c] {cs : List Pm4}
    (h : ∀ x ∈ cs, P x) : ∀ x ∈ (if c then cs else []), P x := by
  split
  · exact h
  · exact fun x hx => absurd hx List.not_mem_nil

theorem forall_mem_append {P : Pm4 → Prop} {cs cs' : List Pm4} (h : ∀ x ∈ cs, P x)
    (h' : ∀ x ∈ cs', P x) : ∀ x ∈ cs ++ cs', P x :=
  List.forall_mem_append.mpr ⟨h, h'⟩

theorem forall_mem_singleton {P : Pm4 → Prop} {c : Pm4} (h : P c) : ∀ x ∈ [c], P x :=
  List.forall_mem_singleton.mpr h

/-- `RelocateCmdbufScratchBase` at one offset from the start of the commands. -/
def patchAt (base : Option Scratch) : Nat → List Pm4 → List Pm4
  | _, [] => []
  | offset, c :: cs =>
      if offset < c.size then c.patch base offset :: cs
      else c :: patchAt base (offset - c.size) cs

end Pm4

/-! ## Devices -/

/-- The device properties the queue reads. -/
structure Device where
  major : Gfx
  /-- `LdsSize` -/
  ldsSize : Nat
  /-- `SupportPlatformAtomic` -/
  platformAtomic : Bool
  /-- `MaxScratchSlotsPerCu() * ComputeUnitCount()` -/
  scratchWaves : Nat
  /-- `dxg_runtime->vendor_packet_process` -/
  vendorPacketProcess : Bool
  /-- The addresses of the `amd_queue_t`, of the ring and of its read pointer. -/
  amdQueueAddr : Nat := 0
  ringAddr : Nat := 0
  ringRptr : Nat := 0
deriving DecidableEq, Repr

/-- `cmdbuf_aql_frame_num_` -/
def aqlFrameNum : Nat := 0x1000

/-- `cmdbuf_aql_frame_size_` as `InitCmdbufInfo` computes it. -/
def Device.aqlFrameSize (d : Device) : Nat :=
  let acquire := 2 * (Pm4.acquireMem d.major).size
  let scratch :=
    if d.major.ge11 then (Pm4.setScratch none).size + Pm4.computeShaderParams.size else 0
  let rest := 24 * 2 + Pm4.barrier.size * 2 + 176 + 36 * 2
  alignUp 32 (acquire + scratch + rest + 128) 0x10

/-- `LdsBlocks` -/
def ldsBlocks (p : AqlPacket) : Nat := u32 (p.groupSegmentSize + 512 - 1) / 512

end RocDxg
