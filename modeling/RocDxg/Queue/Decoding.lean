import Mathlib.Data.Nat.Digits.Defs
import RocDxg.Lib.Framing
import RocDxg.Queue.ScratchFields

/-!
# Decoding an indirect buffer

A decoder of the dwords that the `Build` functions write.  It knows type 3 headers and the layout
of the ten packets, and nothing of the queue.  `frames_ibWords` says that it takes an indirect
buffer apart into the packets that were written, and `read_words` that it reads back what each of
them was built from.
-/

namespace RocDxg

open Lib (IsFrame frames)

/-! ## The decoder -/

/-- The number of dwords behind a type 3 header (`PM4_MEC_TYPE_3_HEADER`). -/
def bodyDwords (header : UInt32) : Option Nat :=
  if header.toNat / 2 ^ 30 = 3 then some (header.toNat / 2 ^ 16 % 2 ^ 14 + 1) else none

/-- The `opcode` of a header. -/
def opcode (header : UInt32) : Nat := header.toNat / 2 ^ 8 % 2 ^ 8

/-- The number that some dwords hold, the lowest first. -/
def ofDwords (ws : List UInt32) : Nat := Nat.ofDigits (2 ^ 32) (ws.map UInt32.toNat)

/-- What a packet tells. -/
inductive Pm4Read where
  | numThreads (x y z : Nat)
  | program (entry : Nat)
  | programResources (rsrc1 rsrc2 : UInt32)
  | resourceLimits (limits se0 se1 tmpringSize se2 se3 : UInt32)
  | userData (ws : List UInt32)
  | scratchBase (addr : Nat)
  | shaderParams (rsrc3 : UInt32)
  | dispatchDirect (x y z : Nat) (initiator : UInt32)
  | eventWrite (type index : Nat)
  | acquireMem (body : List UInt32)
  | copyData (dst : Nat)
  | atomicAdd (addr : Nat) (value : Int)
  | writeData (addr value : Nat)
deriving DecidableEq, Repr

/-- A 48-bit address without its lowest byte (`Ptr48Low32` and `Ptr48High8`). -/
def ofPtr48 (lo hi : UInt32) : Nat := FieldKind.decode lo hi .register

/-- The values of `SET_SH_REG`, by the first register. -/
def readRegs (reg : Nat) (values : List UInt32) : Option Pm4Read :=
  match reg, values with
  | 0x2E07, [x, y, z] => some (.numThreads x.toNat y.toNat z.toNat)
  | 0x2E0C, [lo, hi] => some (.program (ofPtr48 lo hi))
  | 0x2E10, [lo, hi] => some (.scratchBase (ofPtr48 lo hi))
  | 0x2E12, [rsrc1, rsrc2] => some (.programResources rsrc1 rsrc2)
  | 0x2E15, [limits, se0, se1, tmpringSize, se2, se3] =>
      some (.resourceLimits limits se0 se1 tmpringSize se2 se3)
  | 0x2E28, [rsrc3] => some (.shaderParams rsrc3)
  | 0x2E40, ws => some (.userData ws)
  | _, _ => none

/-- The body of a packet, by the opcode. -/
def readBody (op : Nat) (body : List UInt32) : Option Pm4Read :=
  match op, body with
  | 0x15, [x, y, z, initiator] => some (.dispatchDirect x.toNat y.toNat z.toNat initiator)
  | 0x1E, [_, addrLo, addrHi, srcLo, srcHi, _, _, _] =>
      some (.atomicAdd (ofDwords [addrLo, addrHi]) (Int.bmod (ofDwords [srcLo, srcHi]) (2 ^ 64)))
  | 0x37, [_, addrLo, addrHi, lo, hi] =>
      some (.writeData (addrLo.toNat / 4 * 4 + 2 ^ 32 * addrHi.toNat) (ofDwords [lo, hi]))
  | 0x40, [_, _, _, dstLo, dstHi] =>
      some (.copyData (dstLo.toNat / 8 * 8 + 2 ^ 32 * dstHi.toNat))
  | 0x46, [event] => some (.eventWrite (event.toNat % 2 ^ 6) (event.toNat / 2 ^ 8 % 2 ^ 4))
  | 0x58, ws => some (.acquireMem ws)
  | 0x76, reg :: values => readRegs (0x2C00 + reg.toNat % 2 ^ 16) values
  | _, _ => none

/-- A packet with its header. -/
def readPacket : List UInt32 → Option Pm4Read
  | [] => none
  | header :: body => readBody (opcode header) body

/-- Take the packets from the front until nothing is left, and read each. -/
def decodeStream (ws : List UInt32) : Option (List Pm4Read) :=
  (frames bodyDwords ws).bind (List.mapM readPacket)

/-! ## Headers -/

/-- The fields of a header do not overlap. -/
theorem toNat_pm4Type3Hdr {opc count : Nat} (hopc : opc < 2 ^ 8) (hcount : count < 2 ^ 14) :
    (pm4Type3Hdr opc count).toNat = 3 * 2 ^ 30 + (count - 2) * 2 ^ 16 + opc * 2 ^ 8 + 2 := by
  have hlow : opc <<< 8 ||| 1 <<< 1 = opc * 2 ^ 8 + 2 := by
    rw [← Nat.shiftLeft_add_eq_or_of_lt (by decide), Nat.shiftLeft_eq]
    rfl
  have hmid : (count - 2) <<< 16 ||| (opc <<< 8 ||| 1 <<< 1) =
      (count - 2) * 2 ^ 16 + (opc * 2 ^ 8 + 2) := by
    rw [hlow, ← Nat.shiftLeft_add_eq_or_of_lt (by omega), Nat.shiftLeft_eq]
  rw [pm4Type3Hdr, UInt32.toNat_ofNat', Nat.or_assoc, Nat.or_assoc, hmid,
    ← Nat.shiftLeft_add_eq_or_of_lt (by omega), Nat.shiftLeft_eq]
  omega

theorem bodyDwords_hdr {opc count : Nat} (hopc : opc < 2 ^ 8) (hcount : count < 2 ^ 14)
    (hpos : 2 ≤ count) : bodyDwords (pm4Type3Hdr opc count) = some (count - 1) := by
  rw [bodyDwords, toNat_pm4Type3Hdr hopc hcount, if_pos (by omega)]
  congr 1
  omega

theorem opcode_hdr {opc count : Nat} (hopc : opc < 2 ^ 8) (hcount : count < 2 ^ 14) :
    opcode (pm4Type3Hdr opc count) = opc := by
  rw [opcode, toNat_pm4Type3Hdr hopc hcount]
  omega

theorem readPacket_hdr {opc count : Nat} (body : List UInt32) (hopc : opc < 2 ^ 8)
    (hcount : count < 2 ^ 14) : readPacket (pm4Type3Hdr opc count :: body) = readBody opc body := by
  rw [readPacket, opcode_hdr hopc hcount]

/-- A header of some dwords before one less. -/
theorem isFrame_hdr {opc count : Nat} {rest : List UInt32} (hopc : opc < 2 ^ 8)
    (hcount : 2 ≤ count ∧ count < 2 ^ 14) (hlen : rest.length + 1 = count) :
    IsFrame bodyDwords (pm4Type3Hdr opc count :: rest) := by
  refine Lib.isFrame_cons ?_
  rw [bodyDwords_hdr hopc hcount.2 hcount.1, ← hlen]
  rfl

/-! ## The packets of a command -/

namespace Pm4

variable (e : DwordEnv)

/-- The 16 dwords of `compute_user_data`. -/
def userDwords (ds : List UserData) : List UInt32 :=
  e.userWords ds ++ List.replicate (16 - ds.length) 0

/-- The packets in a `DispatchTemplate`. -/
def dispatchPackets (d : Dispatch) : List (List UInt32) :=
  [setShRegHeader 5 0x2E07 ++ [.ofNat d.threadX, .ofNat d.threadY, .ofNat d.threadZ],
    setShRegHeader 4 0x2E0C ++ [ptr48Low32 d.entry, ptr48High8 d.entry],
    setShRegHeader 4 0x2E12 ++ [.ofNat d.rsrc1, .ofNat d.rsrc2],
    setShRegHeader 8 0x2E15 ++ [0x3ff, 0xFFFFFFFF, 0xFFFFFFFF, e.tmpring d.tmpringSizePerWave,
      0xFFFFFFFF, 0xFFFFFFFF],
    setShRegHeader 18 0x2E40 ++ userDwords e d.userData,
    dispatchDirect d]

/-- The packets that a `Build` function writes. -/
def packets : Pm4 → List (List UInt32)
  | dispatch d => dispatchPackets e d
  | c => [c.words e]

/-- What the packets of a command were built from. -/
def reads : Pm4 → List Pm4Read
  | copyData dst => [.copyData dst]
  | barrier => [.eventWrite 7 4]
  | acquireMem major => [.acquireMem (acquireMemWords major).tail]
  | setScratch base => [.scratchBase (scratchAddr base % 2 ^ 48)]
  | computeShaderParams => [.shaderParams (.ofNat (1 <<< 31))]
  | dispatch d =>
      [.numThreads (u32 d.threadX) (u32 d.threadY) (u32 d.threadZ), .program d.entry,
        .programResources (.ofNat d.rsrc1) (.ofNat d.rsrc2),
        .resourceLimits 0x3ff 0xFFFFFFFF 0xFFFFFFFF (e.tmpring d.tmpringSizePerWave) 0xFFFFFFFF
          0xFFFFFFFF,
        .userData (userDwords e d.userData),
        .dispatchDirect (u32 d.gridX) (u32 d.gridY) (u32 d.gridZ)
          (.ofNat (1 <<< 0 ||| 1 <<< 2 ||| 1 <<< 5 ||| if d.wave32 then 1 <<< 15 else 0))]
  | atomicMem addr srcData => [.atomicAdd addr srcData]
  | writeData64 addr value => [.writeData addr (u64 value)]
  | copied _ _ => []

variable {e} {c : Pm4} {cs : List Pm4}

theorem flatten_packets (c : Pm4) : (c.packets e).flatten = c.words e := by
  cases c with
  | dispatch d =>
      simp only [packets, dispatchPackets, words, dispatchWords, dispatchHead, userDwords,
        List.flatten_cons, List.flatten_nil, List.append_nil, List.append_assoc]
  | _ => exact List.append_nil _

theorem bytes_ibWords (e : DwordEnv) (cs : List Pm4) : bytes cs = 4 * (ibWords e cs).length := by
  induction cs with
  | nil => rfl
  | cons c cs ih =>
      rw [bytes_cons, ibWords_cons, List.length_append, ih, length_words (e := e)]
      omega

/-! ## Taking a stream apart -/

/-- The command was not copied from memory that the client has written. -/
def IsBuilt : Pm4 → Prop
  | copied _ _ => False
  | _ => True

instance : (c : Pm4) → Decidable c.IsBuilt
  | copied _ _ => isFalse id
  | copyData _ | barrier | acquireMem _ | setScratch _ | computeShaderParams | dispatch _
  | atomicMem _ _ | writeData64 _ _ => isTrue trivial

theorem length_userDwords (d : Dispatch) : (userDwords e d.userData).length = 16 := by
  have hlen := d.userData_length
  rw [userDwords, List.length_append, length_userWords, List.length_replicate]
  omega

/-- The header of every packet counts its dwords. -/
theorem isFrame_packets (hc : c.IsBuilt) : ∀ f ∈ c.packets e, IsFrame bodyDwords f := by
  intro f hf
  cases c with
  | dispatch d =>
      simp only [packets, dispatchPackets, List.mem_cons, List.not_mem_nil, or_false] at hf
      rcases hf with rfl | rfl | rfl | rfl | rfl | rfl
      · exact isFrame_hdr (by decide) (by decide) rfl
      · exact isFrame_hdr (by decide) (by decide) rfl
      · exact isFrame_hdr (by decide) (by decide) rfl
      · exact isFrame_hdr (by decide) (by decide) rfl
      · refine isFrame_hdr (by decide) (by decide) ?_
        show (userDwords e d.userData).length + 1 + 1 = 18
        rw [length_userDwords]
      · exact isFrame_hdr (by decide) (by decide) rfl
  | acquireMem major =>
      rw [List.mem_singleton.mp hf]
      cases major <;> exact isFrame_hdr (by decide) (by decide) rfl
  | copied addr dwords => exact absurd hc id
  | copyData | barrier | setScratch | computeShaderParams | atomicMem | writeData64 =>
      rw [List.mem_singleton.mp hf]
      exact isFrame_hdr (by decide) (by decide) rfl

/-- An indirect buffer is taken apart into the packets that were written into it. -/
theorem frames_ibWords (h : ∀ c ∈ cs, c.IsBuilt) :
    frames bodyDwords (ibWords e cs) = some (cs.flatMap (packets e)) := by
  have hwords : ibWords e cs = (cs.flatMap (packets e)).flatten := by
    rw [ibWords, List.flatMap_def, List.flatMap_def, List.flatten_flatten, List.map_map]
    congr 1
    exact List.map_congr_left fun c _ => (flatten_packets c).symm
  rw [hwords]
  refine Lib.frames_flatten fun f hf => ?_
  obtain ⟨c, hc, hf⟩ := List.mem_flatMap.mp hf
  exact isFrame_packets (h c hc) f hf

/-! ## Reading the packets -/

/-- The encoding of a command loses nothing. -/
def Recoverable : Pm4 → Prop
  | copyData dst => 2 ^ 3 ∣ dst ∧ dst < 2 ^ 64
  | setScratch base => 2 ^ 8 ∣ scratchAddr base
  | dispatch d => Encodable d.entry
  | atomicMem addr srcData => addr < 2 ^ 64 ∧ -2 ^ 63 ≤ srcData ∧ srcData < 2 ^ 63
  | writeData64 addr _ => 2 ^ 2 ∣ addr ∧ addr < 2 ^ 64
  | copied _ _ => False
  | barrier | acquireMem _ | computeShaderParams => True

theorem Recoverable.isBuilt (hc : c.Recoverable) : c.IsBuilt := by
  cases c with
  | copied addr dwords => exact hc
  | _ => trivial

theorem ofDwords_ptr (p : Nat) : ofDwords [ptrLow32 p, ptrHigh32 p] = u64 p := by
  simp only [ofDwords, List.map_cons, List.map_nil, Nat.ofDigits_cons, Nat.ofDigits_nil, ptrLow32,
    ptrHigh32, UInt32.toNat_ofNat', u64]
  omega

theorem ofPtr48_ptr {p : Nat} (h : 2 ^ 8 ∣ p) :
    ofPtr48 (ptr48Low32 p) (ptr48High8 p) = p % 2 ^ 48 := by
  rw [ofPtr48, FieldKind.decode, ptr48Low32, ptr48High8, UInt32.toNat_ofNat', UInt32.toNat_ofNat']
  omega

/-- A 64-bit word is read as the signed number that was added. -/
theorem bmod_srcData {v : Int} (hle : -2 ^ 63 ≤ v) (hlt : v < 2 ^ 63) :
    Int.bmod (u64 (v % 2 ^ 64).toNat) (2 ^ 64) = v := by
  rw [u64, Int.natCast_emod, Int.toNat_of_nonneg (Int.emod_nonneg v (by decide))]
  simp only [Nat.cast_pow, Nat.cast_ofNat]
  rw [Int.bmod_def]
  omega

theorem readBody_setShReg (reg : UInt32) (values : List UInt32) :
    readBody 0x76 (reg :: values) = readRegs (0x2C00 + reg.toNat % 2 ^ 16) values := by
  rw [readBody]

theorem readPacket_setShReg {count reg : Nat} (values : List UInt32) (hcount : count < 2 ^ 14)
    (hreg : 0x2C00 ≤ reg ∧ reg < 0x2C00 + 2 ^ 16) :
    readPacket (setShRegHeader count reg ++ values) = readRegs reg values := by
  have hoffset : 0x2C00 + (UInt32.ofNat ((reg - 0x2C00) % 2 ^ 16)).toNat % 2 ^ 16 = reg := by
    rw [UInt32.toNat_ofNat']
    omega
  rw [setShRegHeader, List.cons_append, readPacket_hdr _ (by decide) hcount]
  show readBody 0x76 (_ :: values) = _
  rw [readBody_setShReg, hoffset]

theorem mapM_readPacket_cons {f : List UInt32} {r : Pm4Read} {fs : List (List UInt32)}
    {rs : List Pm4Read} (hf : readPacket f = some r) (hfs : fs.mapM readPacket = some rs) :
    (f :: fs).mapM readPacket = some (r :: rs) := by
  rw [List.mapM_cons, hf, hfs]
  rfl

theorem mapM_readPacket_singleton {f : List UInt32} {r : Pm4Read} (hf : readPacket f = some r) :
    [f].mapM readPacket = some [r] :=
  mapM_readPacket_cons hf rfl

theorem read_dispatchPackets {d : Dispatch} (hd : Encodable d.entry) :
    (dispatchPackets e d).mapM readPacket = some (reads e (dispatch d)) := by
  refine mapM_readPacket_cons ?_ (mapM_readPacket_cons ?_ (mapM_readPacket_cons ?_
    (mapM_readPacket_cons ?_ (mapM_readPacket_cons ?_ (mapM_readPacket_singleton ?_)))))
  · rw [readPacket_setShReg _ (by decide) (by decide), readRegs]
    simp only [UInt32.toNat_ofNat', u32]
  · rw [readPacket_setShReg _ (by decide) (by decide), readRegs, ofPtr48, decode_register hd]
  · rw [readPacket_setShReg _ (by decide) (by decide), readRegs]
  · rw [readPacket_setShReg _ (by decide) (by decide), readRegs]
  · rw [readPacket_setShReg _ (by decide) (by decide), readRegs]
  · rw [dispatchDirect, readPacket_hdr _ (by decide) (by decide), readBody]
    simp only [UInt32.toNat_ofNat', u32]

/-- The packets of a command are read as what it was built from. -/
theorem read_packets (hc : c.Recoverable) :
    (c.packets e).mapM readPacket = some (c.reads e) := by
  cases c with
  | copyData dst =>
      obtain ⟨hdvd, hlt⟩ := hc
      refine mapM_readPacket_singleton ?_
      rw [words, copyDataWords, readPacket_hdr _ (by decide) (by decide), readBody, ptrHigh32,
        UInt32.toNat_ofNat', UInt32.toNat_ofNat', u32]
      congr 2
      omega
  | barrier => exact mapM_readPacket_singleton rfl
  | acquireMem major =>
      refine mapM_readPacket_singleton ?_
      cases major with
      | gfx9 | gfx10 | gfx11 | gfx12 =>
          rw [words, acquireMemWords, readPacket_hdr _ (by decide) (by decide), readBody]
          rfl
  | setScratch base =>
      refine mapM_readPacket_singleton ?_
      rw [words, setScratchWords, readPacket_setShReg _ (by decide) (by decide), readRegs,
        ofPtr48_ptr hc]
  | computeShaderParams =>
      refine mapM_readPacket_singleton ?_
      rw [words, computeShaderParamsWords, readPacket_setShReg _ (by decide) (by decide), readRegs]
  | dispatch d => exact read_dispatchPackets hc
  | atomicMem addr srcData =>
      obtain ⟨haddr, hle, hlt⟩ := hc
      refine mapM_readPacket_singleton ?_
      have hdata := ofDwords_ptr (srcData % 2 ^ 64).toNat
      rw [ptrLow32, ptrHigh32] at hdata
      rw [words, atomicMemWords, readPacket_hdr _ (by decide) (by decide), readBody, ofDwords_ptr,
        hdata, bmod_srcData hle hlt, u64_of_lt haddr]
  | writeData64 addr value =>
      obtain ⟨hdvd, hlt⟩ := hc
      refine mapM_readPacket_singleton ?_
      have hvalue := ofDwords_ptr value
      have haddr : addr % 2 ^ 32 / 4 * 4 % 2 ^ 32 / 4 * 4 + 2 ^ 32 * (addr / 2 ^ 32 % 2 ^ 32) =
          addr := by
        omega
      rw [ptrLow32, ptrHigh32] at hvalue
      rw [words, writeData64Words, readPacket_hdr _ (by decide) (by decide), readBody, hvalue,
        ptrHigh32, UInt32.toNat_ofNat', UInt32.toNat_ofNat', u32, haddr]
  | copied addr dwords => exact absurd hc id

/-- The decoder gives back what the commands of an indirect buffer were built from. -/
theorem decode_ibWords (h : ∀ c ∈ cs, c.Recoverable) :
    decodeStream (ibWords e cs) = some (cs.flatMap (reads e)) := by
  rw [decodeStream, frames_ibWords fun c hc => (h c hc).isBuilt, Option.bind_some]
  induction cs with
  | nil => rfl
  | cons c cs ih =>
      rw [List.flatMap_cons, List.flatMap_cons, List.mapM_append,
        read_packets (h c (List.mem_cons_self ..)),
        ih fun c' hc' => h c' (List.mem_cons_of_mem _ hc')]
      rfl

end Pm4

/-! ## User SGPRs -/

/-- The user SGPRs of a kernel. -/
structure Sgprs where
  privateSegmentBuffer : Option (List UInt32)
  dispatchPtr : Option Nat
  queuePtr : Option Nat
  kernargSegmentPtr : Option Nat
  dispatchId : Option Nat
  flatScratchInit : Option Nat
  privateSegmentSize : Option Nat
deriving DecidableEq, Repr

/-- Some dwords from the front, if a register is enabled, and the others. -/
def takeIf (enabled : Bool) (n : Nat) (ws : List UInt32) : Option (List UInt32) × List UInt32 :=
  if enabled then (some (ws.take n), ws.drop n) else (none, ws)

/-- The user SGPRs that a kernel finds in the user data: those it enables, in the order of the
bits of `kernel_code_properties`. -/
def readSgprs (k : KernelCode) (ws : List UInt32) : Sgprs :=
  let buffer := takeIf k.enableSgprPrivateSegmentBuffer 4 ws
  let dispatchPtr := takeIf k.enableSgprDispatchPtr 2 buffer.2
  let queuePtr := takeIf k.enableSgprQueuePtr 2 dispatchPtr.2
  let kernarg := takeIf k.enableSgprKernargSegmentPtr 2 queuePtr.2
  let dispatchId := takeIf k.enableSgprDispatchId 2 kernarg.2
  let flatScratch := takeIf k.enableSgprFlatScratchInit 2 dispatchId.2
  let size := takeIf k.enableSgprPrivateSegmentSize 1 flatScratch.2
  { privateSegmentBuffer := buffer.1
    dispatchPtr := dispatchPtr.1.map ofDwords
    queuePtr := queuePtr.1.map ofDwords
    kernargSegmentPtr := kernarg.1.map ofDwords
    dispatchId := dispatchId.1.map ofDwords
    flatScratchInit := flatScratch.1.map ofDwords
    privateSegmentSize := size.1.map ofDwords }

namespace ComputeQueue

/-- The user SGPRs that a dispatch is to set. -/
def sgprs (e : DwordEnv) (q : ComputeQueue) (p : AqlPacket) (k : KernelCode) : Sgprs where
  privateSegmentBuffer :=
    if k.enableSgprPrivateSegmentBuffer then
      some (e.srd q.amdQueue.scratchBase q.amdQueue.scratchSize k.enableWavefrontSize32) else none
  dispatchPtr :=
    if k.enableSgprDispatchPtr then some (u64 (q.device.ringAddr + q.slot * 64)) else none
  queuePtr := if k.enableSgprQueuePtr then some (u64 q.device.amdQueueAddr) else none
  kernargSegmentPtr := if k.enableSgprKernargSegmentPtr then some (u64 p.kernargAddress) else none
  dispatchId := if k.enableSgprDispatchId then some 0 else none
  flatScratchInit :=
    if k.enableSgprFlatScratchInit then some (u64 (scratchAddr q.scratchBase)) else none
  privateSegmentSize :=
    if k.enableSgprPrivateSegmentSize then
      some (u32 (q.scratchSizePerWave / if k.enableWavefrontSize32 then 32 else 64)) else none

variable {e : DwordEnv} {q : ComputeQueue} {p : AqlPacket} {k : KernelCode}

/-- The two dwords of a pointer, if a register is enabled. -/
def ptrIf (enabled : Bool) (addr : Nat) : List UInt32 :=
  if enabled then [ptrLow32 addr, ptrHigh32 addr] else []

theorem userWords_ptrIf (b : Bool) (addr : Nat) (ds : List UserData) :
    e.userWords ((if b then [.ptrLow addr, .ptrHigh addr] else []) ++ ds) =
      ptrIf b addr ++ e.userWords ds := by
  cases b <;> rfl

theorem userWords_zeroIf (b : Bool) (ds : List UserData) :
    e.userWords ((if b then [.word 0, .word 0] else []) ++ ds) = ptrIf b 0 ++ e.userWords ds := by
  cases b <;> rfl

theorem userWords_bufferData (ds : List UserData) :
    e.userWords (q.bufferData k ++ ds) =
      (if k.enableSgprPrivateSegmentBuffer then
        e.srd q.amdQueue.scratchBase q.amdQueue.scratchSize k.enableWavefrontSize32 else []) ++
      e.userWords ds := by
  rw [bufferData]
  cases k.enableSgprPrivateSegmentBuffer <;> rfl

theorem userWords_flatData :
    e.userWords (q.flatData k ++ q.sizeData k) =
      ptrIf k.enableSgprFlatScratchInit (scratchAddr q.scratchBase) ++
      if k.enableSgprPrivateSegmentSize then
        [.ofNat (q.scratchSizePerWave / if k.enableWavefrontSize32 then 32 else 64)] else [] := by
  rw [flatData, sizeData]
  cases k.enableSgprFlatScratchInit <;> cases k.enableSgprPrivateSegmentSize <;> rfl

/-- The dwords of the user data, register by register. -/
theorem userWords_userData :
    e.userWords (q.userData p k) =
      (if k.enableSgprPrivateSegmentBuffer then
        e.srd q.amdQueue.scratchBase q.amdQueue.scratchSize k.enableWavefrontSize32 else []) ++
      (ptrIf k.enableSgprDispatchPtr (q.device.ringAddr + q.slot * 64) ++
      (ptrIf k.enableSgprQueuePtr q.device.amdQueueAddr ++
      (ptrIf k.enableSgprKernargSegmentPtr p.kernargAddress ++
      (ptrIf k.enableSgprDispatchId 0 ++
      (ptrIf k.enableSgprFlatScratchInit (scratchAddr q.scratchBase) ++
      if k.enableSgprPrivateSegmentSize then
        [.ofNat (q.scratchSizePerWave / if k.enableWavefrontSize32 then 32 else 64)]
      else []))))) := by
  rw [userData, List.append_assoc, List.append_assoc, userWords_bufferData, pointerData,
    List.append_assoc, List.append_assoc, List.append_assoc, userWords_ptrIf, userWords_ptrIf,
    userWords_ptrIf, userWords_zeroIf, userWords_flatData]

theorem takeIf_append {b : Bool} {n : Nat} {seg : List UInt32} (h : seg.length = n)
    (ws : List UInt32) :
    takeIf b n ((if b then seg else []) ++ ws) = (if b then some seg else none, ws) := by
  cases b with
  | true => simp only [takeIf, if_true, List.take_left' h, List.drop_left' h]
  | false => rfl

theorem takeIf_ptrIf (b : Bool) (addr : Nat) (ws : List UInt32) :
    takeIf b 2 (ptrIf b addr ++ ws) =
      (if b then some [ptrLow32 addr, ptrHigh32 addr] else none, ws) :=
  takeIf_append rfl ws

theorem map_ptr (b : Bool) (addr : Nat) :
    (if b then some [ptrLow32 addr, ptrHigh32 addr] else none).map ofDwords =
      if b then some (u64 addr) else none := by
  cases b with
  | true => exact congrArg some (Pm4.ofDwords_ptr addr)
  | false => rfl

theorem map_word (b : Bool) (n : Nat) (ws : List UInt32) :
    (takeIf b 1 ((if b then [.ofNat n] else []) ++ ws)).1.map ofDwords =
      if b then some (u32 n) else none := by
  cases b with
  | true =>
      show some (ofDwords [.ofNat n]) = some (u32 n)
      rw [ofDwords, List.map_cons, List.map_nil, Nat.ofDigits_singleton, UInt32.toNat_ofNat', u32]
  | false => rfl

/-- A kernel finds the values of the user SGPRs it enables. -/
theorem readSgprs_userDwords (e : DwordEnv) (q : ComputeQueue) (p : AqlPacket) (k : KernelCode) :
    readSgprs k (Pm4.userDwords e (q.userData p k)) = q.sgprs e p k := by
  have hzero : u64 0 = 0 := rfl
  simp only [Pm4.userDwords, userWords_userData, List.append_assoc, readSgprs,
    takeIf_append (Pm4.length_srd _ _ _), takeIf_ptrIf, map_ptr, map_word, hzero, sgprs]

end ComputeQueue

end RocDxg
