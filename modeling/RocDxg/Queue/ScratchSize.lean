import RocDxg.Lib.Reach
import RocDxg.Queue.Frames

/-!
# The size of the scratch buffer

`UpdateScratch` computes the size of the scratch buffer in 32 bits, beside a 64-bit check that
only reports, and its caller does not look at whether it has failed.  `InitScratchSRD` packs what
results into the fields of a register, whose widths and units differ between the generations.

A dispatch is translated whatever happens there.  `scratch_suffices_iff` says for which dispatches
the scratch buffer is then large enough.
-/

namespace RocDxg

open Lib (Reach runAll reach_of_runAll)

/-! ## The register -/

/-- The fields of `COMPUTE_TMPRING_SIZE`. -/
structure TmpringSize where
  waves : Nat
  wavesize : Nat
deriving DecidableEq, Repr

/-- The part of `InitScratchSRD` that fills in `compute_tmpring_size`. -/
def tmpringSize (major : Gfx) (numShaderEngine scratchSizePerWave scratchWaves : Nat) :
    TmpringSize :=
  match major with
  | .gfx9 | .gfx10 => ⟨scratchWaves % 2 ^ 12, scratchSizePerWave / 1024 % 2 ^ 13⟩
  | .gfx11 => ⟨scratchWaves / numShaderEngine % 2 ^ 12, scratchSizePerWave / 2 ^ 8 % 2 ^ 15⟩
  | .gfx12 => ⟨scratchWaves / numShaderEngine % 2 ^ 12, scratchSizePerWave / 2 ^ 8 % 2 ^ 18⟩

/-- What one unit of `WAVES` stands for. -/
def wavesUnit (major : Gfx) (numShaderEngine : Nat) : Nat :=
  if major.ge11 then numShaderEngine else 1

/-- What one unit of `WAVESIZE` stands for, in bytes. -/
def wavesizeUnit (major : Gfx) : Nat := if major.ge11 then 256 else 1024

/-- The width of `WAVESIZE`. -/
def wavesizeBits : Gfx → Nat
  | .gfx9 | .gfx10 => 13
  | .gfx11 => 15
  | .gfx12 => 18

theorem tmpringSize_eq (major : Gfx) (numShaderEngine perWave waves : Nat) :
    tmpringSize major numShaderEngine perWave waves =
      ⟨waves / wavesUnit major numShaderEngine % 2 ^ 12,
        perWave / wavesizeUnit major % 2 ^ wavesizeBits major⟩ := by
  cases major with
  | gfx9 => simp [tmpringSize, wavesUnit, wavesizeUnit, wavesizeBits, Gfx.ge11]
  | gfx10 => simp [tmpringSize, wavesUnit, wavesizeUnit, wavesizeBits, Gfx.ge11]
  | gfx11 => rfl
  | gfx12 => rfl

/-- A field that counts units decodes to the value exactly if the value is a multiple of the unit
and the count fits in the field. -/
theorem field_decodes_iff (n unit bits : Nat) :
    n / unit % 2 ^ bits * unit = n ↔ unit ∣ n ∧ n / unit < 2 ^ bits := by
  constructor
  · intro h
    have hdvd : unit ∣ n := ⟨n / unit % 2 ^ bits, by rw [Nat.mul_comm, h]⟩
    refine ⟨hdvd, ?_⟩
    by_cases hzero : unit = 0
    · rw [hzero, Nat.div_zero]
      exact Nat.two_pow_pos bits
    · have hdiv : n / unit = n / unit % 2 ^ bits := by
        rw [← Nat.mul_right_cancel_iff (Nat.pos_of_ne_zero hzero), h, Nat.div_mul_cancel hdvd]
      rw [hdiv]
      exact Nat.mod_lt _ (Nat.two_pow_pos bits)
  · intro h
    rw [Nat.mod_eq_of_lt h.2, Nat.div_mul_cancel h.1]

/-- The fields decode to the size per wave and the number of waves. -/
def Decodes (major : Gfx) (numShaderEngine perWave waves : Nat) : Prop :=
  let t := tmpringSize major numShaderEngine perWave waves
  t.wavesize * wavesizeUnit major = perWave ∧ t.waves * wavesUnit major numShaderEngine = waves

/-- The fields are wide enough for the size per wave and the number of waves. -/
def FieldsFit (major : Gfx) (numShaderEngine perWave waves : Nat) : Prop :=
  perWave / wavesizeUnit major < 2 ^ wavesizeBits major ∧
    wavesUnit major numShaderEngine ∣ waves ∧ waves / wavesUnit major numShaderEngine < 2 ^ 12

instance (major : Gfx) (numShaderEngine perWave waves : Nat) :
    Decidable (FieldsFit major numShaderEngine perWave waves) :=
  inferInstanceAs (Decidable (_ ∧ _))

theorem decodes_iff {major : Gfx} {numShaderEngine perWave waves : Nat}
    (hdvd : wavesizeUnit major ∣ perWave) :
    Decodes major numShaderEngine perWave waves ↔
      FieldsFit major numShaderEngine perWave waves := by
  simp only [Decodes, tmpringSize_eq, field_decodes_iff, FieldsFit, hdvd, true_and]

/-! ## The size that is needed -/

/-- The scratch memory that a wave needs, without a bound:
`AlignUp(private_segment_size, 1024 / wave) * wave`. -/
def scratchNeed (privateSegmentSize : Nat) (wave32 : Bool) : Nat :=
  let wavefront := if wave32 then 32 else 64
  let alignment := 1024 / wavefront
  (privateSegmentSize + alignment - 1) / alignment * alignment * wavefront

theorem dvd_scratchNeed (n : Nat) (wave32 : Bool) : 1024 ∣ scratchNeed n wave32 := by
  rw [scratchNeed]
  cases wave32 with
  | true =>
      simp only [if_true]
      rw [Nat.mul_assoc]
      exact Nat.dvd_mul_left _ _
  | false =>
      simp only [Bool.false_eq_true, if_false]
      rw [Nat.mul_assoc]
      exact Nat.dvd_mul_left _ _

theorem wavesizeUnit_dvd (major : Gfx) (n : Nat) (wave32 : Bool) :
    wavesizeUnit major ∣ scratchNeed n wave32 := by
  refine Nat.dvd_trans ?_ (dvd_scratchNeed n wave32)
  cases major <;> decide

namespace ComputeQueue

/-- Below 32 bits the size per wave is the one that is needed. -/
theorem scratchSizePerWaveFor_eq {n : Nat} {wave32 : Bool} (h : scratchNeed n wave32 < 2 ^ 32) :
    scratchSizePerWaveFor n wave32 = scratchNeed n wave32 := by
  rw [scratchSizePerWaveFor]
  cases wave32 with
  | true =>
      simp only [scratchNeed, if_true] at h ⊢
      rw [alignUp_of_lt (by omega), u32_of_lt h]
  | false =>
      simp only [scratchNeed, Bool.false_eq_true, if_false] at h ⊢
      rw [alignUp_of_lt (by omega), u32_of_lt h]

/-! ## What a dispatch does to the sizes -/

/-- The two queues have the same scratch memory. -/
structure SameSizes (q q' : ComputeQueue) : Prop where
  device : q'.device = q.device
  perWave : q'.scratchSizePerWave = q.scratchSizePerWave
  size : q'.scratchSize = q.scratchSize
  base : q'.scratchBase = q.scratchBase
  amdQueue : q'.amdQueue = q.amdQueue

theorem SameSizes.trans {q q' q'' : ComputeQueue} (h : SameSizes q q') (h' : SameSizes q' q'') :
    SameSizes q q'' :=
  ⟨h'.device.trans h.device, h'.perWave.trans h.perWave, h'.size.trans h.size,
    h'.base.trans h.base, h'.amdQueue.trans h.amdQueue⟩

/-- The cases of `UpdateScratch`. -/
inductive SizeChange (q : ComputeQueue) (h : Host) (n : Nat) (wave32 : Bool) :
    ComputeQueue → Prop where
  | kept {q' : ComputeQueue} : q.scratchSizeFor n wave32 ≤ q.scratchSize → SameSizes q q' →
      SizeChange q h n wave32 q'
  | failed {q' : ComputeQueue} : q.scratchSize < q.scratchSizeFor n wave32 → h.scratch = none →
      SameSizes q q' → SizeChange q h n wave32 q'
  | replaced {q' : ComputeQueue} : q.scratchSize < q.scratchSizeFor n wave32 →
      h.scratch ≠ none → q'.device = q.device →
      q'.scratchSizePerWave = scratchSizePerWaveFor n wave32 →
      q'.scratchSize = q.scratchSizeFor n wave32 → q'.scratchBase ≠ none →
      q'.amdQueue.scratchSizePerWave = scratchSizePerWaveFor n wave32 →
      SizeChange q h n wave32 q'

theorem sameSizes_reportOverflow (q : ComputeQueue) (n : Nat) (wave32 : Bool) :
    SameSizes q (q.reportOverflow n wave32) := by
  rw [reportOverflow]
  split <;> exact ⟨rfl, rfl, rfl, rfl, rfl⟩

theorem updateScratch_sizes (q : ComputeQueue) (h : Host) (n : Nat) (wave32 : Bool) :
    SizeChange q h n wave32 (q.updateScratch h n wave32) := by
  have hsame := q.sameSizes_reportOverflow n wave32
  rw [updateScratch]
  split
  next hge =>
    rw [hsame.size] at hge
    exact .kept hge hsame
  next hlt =>
    rw [hsame.size, Nat.not_le] at hlt
    cases hs : h.scratch with
    | none => exact .failed hlt hs hsame
    | some addr =>
        refine .replaced hlt (by rw [hs]; exact Option.some_ne_none _) hsame.device rfl rfl ?_ rfl
        exact Option.some_ne_none _

theorem SizeChange.of_same {q q' q'' : ComputeQueue} {h : Host} {n : Nat} {wave32 : Bool}
    (C : SizeChange q h n wave32 q') (S : SameSizes q' q'') : SizeChange q h n wave32 q'' := by
  cases C with
  | kept hle hsame => exact .kept hle (hsame.trans S)
  | failed hlt hnone hsame => exact .failed hlt hnone (hsame.trans S)
  | replaced hlt hsome hdevice hper hsize hbase hamd =>
      refine .replaced hlt hsome (S.device.trans hdevice) (S.perWave.trans hper)
        (S.size.trans hsize) ?_ ?_
      · rw [S.base]
        exact hbase
      · rw [S.amdQueue]
        exact hamd

theorem sameSizes_accept (q : ComputeQueue) (written : List Pm4) :
    SameSizes q (q.accept written).queue := by
  rw [accept]
  split <;> exact ⟨rfl, rfl, rfl, rfl, rfl⟩

theorem sameSizes_leaveSignal (q : ComputeQueue) (signal : Nat) :
    SameSizes q (q.leaveSignal signal) := by
  rw [leaveSignal]
  split <;> exact ⟨rfl, rfl, rfl, rfl, rfl⟩

/-- A kernel dispatch that passes the checks is translated, and changes the sizes as
`UpdateScratch` does. -/
theorem kernelDispatch_sizes {q : ComputeQueue} {h : Host} {p : AqlPacket} {k : KernelCode}
    (hk : q.checkKernelDispatch h p = .ok k) :
    (q.kernelDispatchAqlToPm4 h p).status = .success ∧
      SizeChange q h p.privateSegmentSize k.enableWavefrontSize32
        (q.kernelDispatchAqlToPm4 h p).queue := by
  constructor
  · cases q.kernelDispatch_cases h p with
    | inl hcheck =>
        obtain ⟨status, herr, _⟩ := hcheck
        rw [hk] at herr
        cases herr
    | inr hend =>
        obtain ⟨_, _, _, hout⟩ := hend
        cases hout with
        | accepted hs _ => exact hs
        | rejected _ hgt _ => exact absurd hgt (Nat.not_lt.mpr (q.bytes_kernelDispatch h p))
  · have hupdate := q.updateScratch_sizes h p.privateSegmentSize k.enableWavefrontSize32
    rw [kernelDispatchAqlToPm4, hk]
    refine hupdate.of_same (SameSizes.trans ?_ (sameSizes_accept ..))
    split
    · refine SameSizes.trans ?_ (sameSizes_leaveSignal ..)
      exact ⟨rfl, rfl, rfl, rfl, rfl⟩
    · exact ⟨rfl, rfl, rfl, rfl, rfl⟩

/-! ## Sequences of dispatches -/

/-- One dispatch, whatever its status. -/
def dispatch (q : ComputeQueue) (e : Host × AqlPacket) : Option ComputeQueue :=
  some (q.kernelDispatchAqlToPm4 e.1 e.2).queue

/-- The scratch buffer is large enough for a dispatch, and the register says how large it is. -/
structure ScratchSuffices (numShaderEngine : Nat) (q : ComputeQueue) (n : Nat) (wave32 : Bool) :
    Prop where
  perWave : scratchNeed n wave32 ≤ q.scratchSizePerWave
  buffer : q.scratchSizePerWave * q.device.scratchWaves ≤ q.scratchSize
  base : 0 < q.scratchSize → q.scratchBase ≠ none
  decodes : q.scratchBase ≠ none → q.amdQueue.scratchSizePerWave = q.scratchSizePerWave ∧
    Decodes q.device.major numShaderEngine q.amdQueue.scratchSizePerWave q.device.scratchWaves

/-- The scratch buffer that is needed has a size of 32 bits.  It is there already, or it can be
allocated and the fields of the register are wide enough for it. -/
def NeedFits (numShaderEngine : Nat) (q : ComputeQueue) (h : Host) (n : Nat) (wave32 : Bool) :
    Prop :=
  (q.device.scratchWaves = 0 → scratchNeed n wave32 = 0) ∧
    scratchNeed n wave32 * q.device.scratchWaves < 2 ^ 32 ∧
    (scratchNeed n wave32 * q.device.scratchWaves ≤ q.scratchSize ∨
      h.scratch ≠ none ∧ FieldsFit q.device.major numShaderEngine (scratchNeed n wave32)
        q.device.scratchWaves)

instance (numShaderEngine : Nat) (q : ComputeQueue) (h : Host) (n : Nat) (wave32 : Bool) :
    Decidable (NeedFits numShaderEngine q h n wave32) :=
  inferInstanceAs (Decidable (_ ∧ _))

/-- The scratch buffer of a dispatch that passes the checks fits. -/
def ScratchFits (numShaderEngine : Nat) (q : ComputeQueue) (e : Host × AqlPacket) : Prop :=
  match q.checkKernelDispatch e.1 e.2 with
  | .error _ => True
  | .ok k => NeedFits numShaderEngine q e.1 e.2.privateSegmentSize k.enableWavefrontSize32

instance (numShaderEngine : Nat) (q : ComputeQueue) (e : Host × AqlPacket) :
    Decidable (ScratchFits numShaderEngine q e) :=
  match hk : q.checkKernelDispatch e.1 e.2 with
  | .error _ => .isTrue (by rw [ScratchFits, hk]; trivial)
  | .ok k =>
      decidable_of_iff
        (NeedFits numShaderEngine q e.1 e.2.privateSegmentSize k.enableWavefrontSize32)
        (by rw [ScratchFits, hk])

/-- The sizes after dispatches whose scratch buffer fits. -/
structure Sized (numShaderEngine : Nat) (q : ComputeQueue) : Prop where
  size : q.scratchSize = q.scratchSizePerWave * q.device.scratchWaves
  word : q.scratchSize < 2 ^ 32
  base : 0 < q.scratchSize → q.scratchBase ≠ none
  decodes : q.scratchBase ≠ none → q.amdQueue.scratchSizePerWave = q.scratchSizePerWave ∧
    Decodes q.device.major numShaderEngine q.amdQueue.scratchSizePerWave q.device.scratchWaves
  noWaves : q.device.scratchWaves = 0 → q.scratchSizePerWave = 0

theorem Sized.of_same {q q' : ComputeQueue} {numShaderEngine : Nat} (Z : Sized numShaderEngine q)
    (S : SameSizes q q') : Sized numShaderEngine q' := by
  obtain ⟨hdevice, hper, hsize, hbase, hamd⟩ := S
  refine ⟨?_, ?_, ?_, ?_, ?_⟩
  · rw [hsize, hper, hdevice]
    exact Z.size
  · rw [hsize]
    exact Z.word
  · rw [hsize, hbase]
    exact Z.base
  · rw [hbase, hamd, hper, hdevice]
    exact Z.decodes
  · rw [hdevice, hper]
    exact Z.noWaves

theorem sized_init (device : Device) (numShaderEngine ringSize : Nat) (ring : Nat → AqlPacket)
    (cmdbufAddr : Nat) : Sized numShaderEngine (init device ringSize ring cmdbufAddr) where
  size := (Nat.zero_mul _).symm
  word := Nat.two_pow_pos 32
  base := fun h => absurd h (Nat.lt_irrefl 0)
  decodes := fun h => absurd rfl h
  noWaves := fun _ => rfl

/-- The size that is computed, where the one that is needed has 32 bits. -/
theorem scratchSizeFor_eq {q : ComputeQueue} {n : Nat} {wave32 : Bool}
    (hzero : q.device.scratchWaves = 0 → scratchNeed n wave32 = 0)
    (hword : scratchNeed n wave32 * q.device.scratchWaves < 2 ^ 32) :
    scratchSizePerWaveFor n wave32 = scratchNeed n wave32 ∧
      q.scratchSizeFor n wave32 = scratchNeed n wave32 * q.device.scratchWaves := by
  have hneed : scratchNeed n wave32 < 2 ^ 32 := by
    by_cases hwaves : q.device.scratchWaves = 0
    · rw [hzero hwaves]
      decide
    · exact Nat.lt_of_le_of_lt (Nat.le_mul_of_pos_right _ (Nat.pos_of_ne_zero hwaves)) hword
  have hper := scratchSizePerWaveFor_eq hneed
  refine ⟨hper, ?_⟩
  rw [scratchSizeFor, hper, u32_of_lt hword]

/-- A buffer of which each wave has as much as it needs is as large as is needed. -/
theorem Sized.need_le {q : ComputeQueue} {numShaderEngine n : Nat} {wave32 : Bool}
    (Z : Sized numShaderEngine q) (hper : scratchNeed n wave32 ≤ q.scratchSizePerWave) :
    scratchNeed n wave32 * q.device.scratchWaves ≤ q.scratchSize := by
  rw [Z.size]
  exact Nat.mul_le_mul_right _ hper

/-- A buffer that is large enough has enough for each wave. -/
theorem Sized.perWave_of_le {q : ComputeQueue} {numShaderEngine n : Nat} {wave32 : Bool}
    (Z : Sized numShaderEngine q) (hzero : q.device.scratchWaves = 0 → scratchNeed n wave32 = 0)
    (hle : scratchNeed n wave32 * q.device.scratchWaves ≤ q.scratchSize) :
    scratchNeed n wave32 ≤ q.scratchSizePerWave := by
  by_cases hwaves : q.device.scratchWaves = 0
  · rw [hzero hwaves]
    exact Nat.zero_le _
  · rw [Z.size] at hle
    exact Nat.le_of_mul_le_mul_right hle (Nat.pos_of_ne_zero hwaves)

/-- What a change of the sizes has to do with the need of the dispatch. -/
theorem SizeChange.suffices_iff {q q' : ComputeQueue} {numShaderEngine n : Nat} {h : Host}
    {wave32 : Bool} (Z : Sized numShaderEngine q) (C : SizeChange q h n wave32 q') :
    ScratchSuffices numShaderEngine q' n wave32 ↔ NeedFits numShaderEngine q h n wave32 := by
  -- as long as the buffer stays, it suffices exactly if it was large enough before
  have hstays : SameSizes q q' → (ScratchSuffices numShaderEngine q' n wave32 ↔
      scratchNeed n wave32 ≤ q.scratchSizePerWave) := by
    intro S
    have Z' := Z.of_same S
    constructor
    · intro hsuff
      rw [← S.perWave]
      exact hsuff.perWave
    · intro hper
      rw [← S.perWave] at hper
      exact ⟨hper, Nat.le_of_eq Z'.size.symm, Z'.base, Z'.decodes⟩
  have hthere : scratchNeed n wave32 ≤ q.scratchSizePerWave →
      NeedFits numShaderEngine q h n wave32 := by
    intro hper
    have hle := Z.need_le hper
    refine ⟨fun hwaves => ?_, Nat.lt_of_le_of_lt hle Z.word, Or.inl hle⟩
    rw [Z.noWaves hwaves] at hper
    exact Nat.le_zero.mp hper
  cases C with
  | kept hle S =>
      rw [hstays S]
      constructor
      · exact hthere
      · intro hfits
        obtain ⟨hzero, hword, _⟩ := hfits
        rw [(scratchSizeFor_eq hzero hword).2] at hle
        exact Z.perWave_of_le hzero hle
  | failed hlt hnone S =>
      rw [hstays S]
      constructor
      · exact hthere
      · intro hfits
        obtain ⟨hzero, hword, hbuffer⟩ := hfits
        rw [(scratchSizeFor_eq hzero hword).2] at hlt
        cases hbuffer with
        | inl hle => exact absurd hlt (Nat.not_lt.mpr hle)
        | inr halloc => exact absurd hnone halloc.1
  | replaced hlt hsome hdevice hper hsize hbase hamd =>
      constructor
      · intro hsuff
        have hneed := hsuff.perWave
        have hbuffer := hsuff.buffer
        rw [hper] at hneed
        rw [hper, hdevice, hsize] at hbuffer
        have hsmall : q.scratchSizeFor n wave32 < 2 ^ 32 := Nat.mod_lt _ (by decide)
        have hpos : q.device.scratchWaves ≠ 0 := by
          intro hwaves
          rw [scratchSizeFor, hwaves, Nat.mul_zero] at hlt
          exact absurd hlt (Nat.not_lt_zero _)
        have hword : scratchNeed n wave32 * q.device.scratchWaves < 2 ^ 32 :=
          Nat.lt_of_le_of_lt (Nat.le_trans (Nat.mul_le_mul_right _ hneed) hbuffer) hsmall
        have heq := (scratchSizeFor_eq (fun hwaves => absurd hwaves hpos) hword).1
        have hdec := (hsuff.decodes hbase).2
        rw [hamd, hdevice, heq, decodes_iff (wavesizeUnit_dvd _ n wave32)] at hdec
        exact ⟨fun hwaves => absurd hwaves hpos, hword, Or.inr ⟨hsome, hdec⟩⟩
      · intro hfits
        obtain ⟨hzero, hword, hbuffer⟩ := hfits
        obtain ⟨heq, hsizeeq⟩ := scratchSizeFor_eq (q := q) hzero hword
        rw [hsizeeq] at hlt hsize
        rw [heq] at hper hamd
        cases hbuffer with
        | inl hle => exact absurd hlt (Nat.not_lt.mpr hle)
        | inr halloc =>
            refine ⟨Nat.le_of_eq hper.symm, ?_, fun _ => hbase, fun _ => ⟨hamd.trans hper.symm, ?_⟩⟩
            · rw [hper, hdevice, hsize]
            · rw [hamd, hdevice, decodes_iff (wavesizeUnit_dvd _ n wave32)]
              exact halloc.2

theorem SizeChange.sized {q q' : ComputeQueue} {numShaderEngine n : Nat} {h : Host}
    {wave32 : Bool} (Z : Sized numShaderEngine q) (C : SizeChange q h n wave32 q')
    (hfits : NeedFits numShaderEngine q h n wave32) : Sized numShaderEngine q' := by
  have hsuff := (C.suffices_iff Z).mpr hfits
  cases C with
  | kept _ S => exact Z.of_same S
  | failed _ _ S => exact Z.of_same S
  | replaced hlt _ hdevice hper hsize _ _ =>
      obtain ⟨hzero, hword, _⟩ := hfits
      obtain ⟨heq, hsizeeq⟩ := scratchSizeFor_eq (q := q) hzero hword
      rw [hsizeeq] at hlt hsize
      rw [heq] at hper
      refine ⟨?_, ?_, hsuff.base, hsuff.decodes, ?_⟩
      · rw [hsize, hper, hdevice]
      · rw [hsize]
        exact hword
      · intro hwaves
        rw [hdevice] at hwaves
        rw [hper, hzero hwaves]

/-- The scratch buffer does not become smaller. -/
theorem SizeChange.size_le {q q' : ComputeQueue} {n : Nat} {h : Host} {wave32 : Bool}
    (C : SizeChange q h n wave32 q') : q.scratchSize ≤ q'.scratchSize := by
  cases C with
  | kept _ S => exact Nat.le_of_eq S.size.symm
  | failed _ _ S => exact Nat.le_of_eq S.size.symm
  | replaced hlt _ _ _ hsize _ _ =>
      rw [hsize]
      exact Nat.le_of_lt hlt

theorem Sized.dispatch {q q' : ComputeQueue} {numShaderEngine : Nat} {e : Host × AqlPacket}
    (Z : Sized numShaderEngine q) (hfits : ScratchFits numShaderEngine q e)
    (hs : q.dispatch e = some q') : Sized numShaderEngine q' := by
  cases hs
  rw [ScratchFits] at hfits
  cases hk : q.checkKernelDispatch e.1 e.2 with
  | error status =>
      rw [kernelDispatchAqlToPm4, hk]
      exact Z
  | ok k =>
      rw [hk] at hfits
      exact (kernelDispatch_sizes hk).2.sized Z hfits

/-- After any dispatches whose scratch buffers fit, one that is translated has a scratch buffer
that suffices for it exactly if its own fits; and the buffer does not become smaller. -/
theorem scratch_suffices_iff {device : Device} {numShaderEngine ringSize : Nat}
    {ring : Nat → AqlPacket} {cmdbufAddr : Nat} {q : ComputeQueue}
    (hreach : Reach dispatch (ScratchFits numShaderEngine) (init device ringSize ring cmdbufAddr) q)
    (h : Host) (p : AqlPacket) :
    (((q.kernelDispatchAqlToPm4 h p).status = .success →
        ∃ k, q.checkKernelDispatch h p = .ok k ∧
          ScratchSuffices numShaderEngine (q.kernelDispatchAqlToPm4 h p).queue
            p.privateSegmentSize k.enableWavefrontSize32) ↔
      ScratchFits numShaderEngine q (h, p)) ∧
    q.scratchSize ≤ (q.kernelDispatchAqlToPm4 h p).queue.scratchSize := by
  have Z : Sized numShaderEngine q :=
    hreach.invariant (sized_init ..) fun _ _ _ Z hfits hs => Z.dispatch hfits hs
  rw [ScratchFits]
  cases hk : q.checkKernelDispatch h p with
  | error status =>
      have hstatus : (q.kernelDispatchAqlToPm4 h p).status ≠ .success := by
        rw [kernelDispatchAqlToPm4, hk]
        exact checkKernelDispatch_error hk
      refine ⟨iff_of_true (fun hs => absurd hs hstatus) trivial, ?_⟩
      rw [kernelDispatchAqlToPm4, hk]
  | ok k =>
      obtain ⟨hstatus, C⟩ := kernelDispatch_sizes hk
      refine ⟨?_, C.size_le⟩
      simp only
      rw [← C.suffices_iff Z]
      constructor
      · intro hall
        obtain ⟨k', hk', hsuff⟩ := hall hstatus
        cases hk'
        exact hsuff
      · intro hsuff _
        exact ⟨k, rfl, hsuff⟩

open Machine in
/-- A second dispatch uses the buffer of the first. -/
theorem scratch_suffices_iff_reuse :
    ∃ q, Reach dispatch (ScratchFits 2) (init sampleDevice 4 (fun _ => { header := 1 }) 0x100000) q ∧
      q.scratchSize = 131072 ∧
      ∃ k, q.checkKernelDispatch (sampleHost 0) (sampleKernel 0 20) = .ok k ∧
        ScratchSuffices 2 (q.kernelDispatchAqlToPm4 (sampleHost 0) (sampleKernel 0 20)).queue 20
          k.enableWavefrontSize32 := by
  have hrun : (runAll dispatch (ScratchFits 2)
      (init sampleDevice 4 (fun _ => { header := 1 }) 0x100000)
      [(sampleHost 0x200000, sampleKernel 0 64)]).map (fun q => (q.scratchSize,
        (q.kernelDispatchAqlToPm4 (sampleHost 0) (sampleKernel 0 20)).status,
        decide (ScratchFits 2 q (sampleHost 0, sampleKernel 0 20)))) =
      some (131072, .success, true) := by
    decide
  obtain ⟨q, hq, hproj⟩ := Option.map_eq_some_iff.mp hrun
  simp only [Prod.mk.injEq, decide_eq_true_eq] at hproj
  obtain ⟨hsize, hstatus, hfits⟩ := hproj
  have hreach := reach_of_runAll hq
  exact ⟨q, hreach, hsize, (scratch_suffices_iff hreach _ _).1.mpr hfits hstatus⟩

open Machine in
/-- A dispatch whose scratch buffer cannot be allocated is translated all the same. -/
theorem dispatch_without_scratch :
    ¬ ∀ (h : Host) (p : AqlPacket) (k : KernelCode),
      let q := init sampleDevice 4 (fun _ => { header := 1 }) 0x100000
      (q.kernelDispatchAqlToPm4 h p).status = .success → q.checkKernelDispatch h p = .ok k →
      ScratchSuffices 2 (q.kernelDispatchAqlToPm4 h p).queue p.privateSegmentSize
        k.enableWavefrontSize32 := by
  intro hall
  have hcheck : (init sampleDevice 4 (fun _ => { header := 1 }) 0x100000).checkKernelDispatch
      { sampleHost 0 with scratch := none } (sampleKernel 0 64) = .ok {} := by
    simp [checkKernelDispatch, sampleHost, sampleKernel, init, sampleDevice, ldsBlocks, u32]
  have hsuff := hall { sampleHost 0 with scratch := none } (sampleKernel 0 64) {} (by decide) hcheck
  have hneed : 4096 ≤ 0 := hsuff.perWave
  exact absurd hneed (by decide)

end ComputeQueue

end RocDxg
