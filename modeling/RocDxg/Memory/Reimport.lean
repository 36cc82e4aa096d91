import RocDxg.Memory.Lifetime

/-!
# Importing one's own buffer

`GpuMemory::CreatePhysicalMemory` attaches a `SharedHandleInfo` to the resource of a shared
object, and `GpuMemory::ImportPhysicalHandle` reads it back.  When the buffer comes from the
same process and the same adapter, the import hands out the address the buffer has.

The adapters are compared by `IsSameAdapter`, which reads `desc_.adapter_luid` of the new
object.  Neither constructor sets it, and the import sets it only later, so that what was in
the memory of the object decides (`GpuMemory.reimport_detected_iff`).  A buffer of system
memory is imported by another path, which has no such comparison.
-/

namespace RocDxg

namespace GpuMemory

/-! ## Both ends of the handle -/

/-- The data that `CreatePhysicalMemory` attaches in the process `pid`. -/
def shareInfo (mem : GpuMemory) (pid : Nat) : SharedHandleInfo where
  domain := mem.domain
  clientSize := mem.clientSize
  size := mem.size
  flags := mem.flags
  memFlags := mem.memFlags
  adapterLuid := mem.adapterLuid
  pid := pid
  gpuAddr := mem.gpuAddr

/-- An object after its constructors, with the values that were in its memory. -/
def constructed (staleDomain : AllocDomain) (staleLuid : Nat) : GpuMemory where
  domain := staleDomain
  adapterLuid := staleLuid

/-- `IsSameAdapter` -/
def isSameAdapter (mem : GpuMemory) (luid : Nat) : Bool := mem.adapterLuid = luid

/-- The driver opens the handle of `mem`, which the process `exporter` has made. -/
structure Opens (mem : GpuMemory) (exporter staleLuid : Nat) (a : Answers) : Prop where
  queryResourceInfo : a.queryResourceInfo = .success
  runtimeDataFits : a.runtimeDataFits = true
  calloc : a.calloc = true
  openResource : a.openResource = .success
  sharedInfo : a.sharedInfo = mem.shareInfo exporter
  same : a.isSameAdapter =
    (constructed a.staleDomain staleLuid).isSameAdapter a.sharedInfo.adapterLuid
  /-- The driver does not report the conflict. -/
  backing : a.backing ≠ .sameProcessSameDevice

instance (mem : GpuMemory) (exporter staleLuid : Nat) (a : Answers) :
    Decidable (mem.Opens exporter staleLuid a) :=
  decidable_of_iff
    (a.queryResourceInfo = .success ∧ a.runtimeDataFits = true ∧ a.calloc = true ∧
      a.openResource = .success ∧ a.sharedInfo = mem.shareInfo exporter ∧
      a.isSameAdapter =
        (constructed a.staleDomain staleLuid).isSameAdapter a.sharedInfo.adapterLuid ∧
      a.backing ≠ .sameProcessSameDevice)
    ⟨fun ⟨h₁, h₂, h₃, h₄, h₅, h₆, h₇⟩ => ⟨h₁, h₂, h₃, h₄, h₅, h₆, h₇⟩,
      fun ⟨h₁, h₂, h₃, h₄, h₅, h₆, h₇⟩ => ⟨h₁, h₂, h₃, h₄, h₅, h₆, h₇⟩⟩

/-- The import is told the address the buffer has. -/
def Detects (mem : GpuMemory) (pid : Nat) (dev : SharedDevice) (hs : Heaps)
    (info : GpuMemoryCreateInfo) (a : Answers) : Prop :=
  ∃ mem' hs', importPhysicalHandle pid dev hs info a =
    some (mem.gpuAddr, .sameProcessSameDevice, mem', hs')

/-- The import takes the buffer for one that has an address. -/
def Conflicts (pid : Nat) (dev : SharedDevice) (hs : Heaps) (info : GpuMemoryCreateInfo)
    (a : Answers) : Prop :=
  ∃ p mem' hs', importPhysicalHandle pid dev hs info a =
    some (p, .sameProcessSameDevice, mem', hs')

/-- A buffer is detected where it comes from this process and this adapter, and is not taken
for such a one elsewhere. -/
def RightlyDetected (mem : GpuMemory) (exporter pid : Nat) (dev : SharedDevice) (hs : Heaps)
    (info : GpuMemoryCreateInfo) (a : Answers) : Prop :=
  (info.flags.allocVa = true → exporter = pid → dev.luid = mem.adapterLuid →
      mem.Detects pid dev hs info a) ∧
    (exporter ≠ pid ∨ dev.luid ≠ mem.adapterLuid → ¬ Conflicts pid dev hs info a)

variable {mem mem' : GpuMemory} {hs hs' : Heaps} {dev : SharedDevice}
  {info : GpuMemoryCreateInfo} {a : Answers} {exporter pid staleLuid p : Nat} {code : ErrorCode}

/-! ## Other statuses -/

theorem reserveIPCSysMem_ne {size alignment : Nat} {commit : Bool}
    (h : hs.reserveIPCSysMem size alignment commit = some (code, p, hs')) :
    code ≠ .sameProcessSameDevice := by
  obtain ⟨⟨q, m⟩, _, heq⟩ := Option.map_eq_some_iff.mp h
  simp only at heq
  split at heq
  next =>
    cases heq
    simp
  next =>
    split at heq
    next =>
      cases heq
      simp
    next =>
      cases heq
      simp

theorem heaps_reserve_ne {domain : AllocDomain} {hint size alignment : Nat} {commit : Bool}
    (h : hs.reserveGpuVirtualAddress domain hint size alignment commit = some (code, p, hs')) :
    code ≠ .sameProcessSameDevice := by
  rw [Heaps.reserveGpuVirtualAddress] at h
  split at h
  next =>
    obtain ⟨⟨q, m⟩, _, heq⟩ := Option.map_eq_some_iff.mp h
    simp only at heq
    split at heq
    next =>
      cases heq
      split
      next => simp
      next => simp
    next =>
      cases heq
      simp
  next =>
    obtain ⟨⟨q, m⟩, _, heq⟩ := Option.map_eq_some_iff.mp h
    cases heq
    split
    next => simp
    next => simp

theorem reserve_ne {hint size alignment : Nat}
    (h : mem.reserveGpuVirtualAddress hs hint size alignment a = some (code, mem', hs')) :
    code ≠ .sameProcessSameDevice := by
  rw [reserveGpuVirtualAddress] at h
  split at h
  next =>
    obtain ⟨⟨c, q, hs₁⟩, hreserve, heq⟩ := Option.map_eq_some_iff.mp h
    cases heq
    exact reserveIPCSysMem_ne hreserve
  next =>
    obtain ⟨⟨c, q, hs₁⟩, hreserve, heq⟩ := Option.map_eq_some_iff.mp h
    cases heq
    exact heaps_reserve_ne hreserve

theorem takeHandle_ne (h : mem.takeHandle hs = some (code, mem', hs')) :
    code ≠ .sameProcessSameDevice := by
  obtain ⟨⟨c, q, hs₁⟩, halloc, heq⟩ := Option.map_eq_some_iff.mp h
  cases heq
  obtain ⟨⟨r, m⟩, _, heq⟩ := Option.map_eq_some_iff.mp halloc
  simp only [Prod.mk.injEq] at heq
  rw [← heq.1]
  split
  next => simp
  next => simp

/-! ## The comparison -/

/-- A handle that opens is refused for the conflict alone. -/
theorem Opens.refusal_eq (h : mem.Opens exporter staleLuid a) :
    refusal pid info a =
      if exporter = pid ∧ info.flags.allocVa = true ∧ staleLuid = mem.adapterLuid ∧
          mem.gpuAddr ≠ 0 then
        some (mem.gpuAddr, .sameProcessSameDevice)
      else none := by
  have hsame : a.isSameAdapter = true ↔ staleLuid = mem.adapterLuid := by
    rw [h.same, h.sharedInfo]
    exact decide_eq_true_iff
  have hpid : a.sharedInfo.pid = exporter := by rw [h.sharedInfo]; rfl
  have haddr : a.sharedInfo.gpuAddr = mem.gpuAddr := by rw [h.sharedInfo]; rfl
  rw [refusal]
  by_cases hcond : exporter = pid ∧ info.flags.allocVa = true ∧ staleLuid = mem.adapterLuid ∧
      mem.gpuAddr ≠ 0
  · simp [h.queryResourceInfo, h.runtimeDataFits, h.calloc, h.openResource, hsame, hpid, haddr,
      hcond]
  · simp [h.queryResourceInfo, h.runtimeDataFits, h.calloc, h.openResource, hsame, hpid, haddr,
      hcond]

/-- The import of a shared resource that is not a file. -/
theorem importPhysicalHandle_shared (hfd : info.dmabufFd ≠ none)
    (hfile : info.flags.sysmemIpcSigImporter = false) (pid : Nat) (dev : SharedDevice)
    (hs : Heaps) :
    importPhysicalHandle pid dev hs info a =
      match refusal pid info a with
      | some (p, code) => some (p, code, blank a, hs)
      | none =>
          let mem := describeShared info a.sharedInfo
          (if mem.flags.isVaRequired then
            mem.reserveGpuVirtualAddress hs info.vaHint mem.size info.alignment a
          else mem.takeHandle hs).map fun r => (0, r) := by
  rw [importPhysicalHandle, if_neg hfd]
  exact if_neg (by simp [hfile])

/-- The import of a shared resource finds a conflict exactly if the value that was in the
memory of the new object is that of the exporting adapter. -/
theorem Opens.import_shared (h : mem.Opens exporter staleLuid a) (hfd : info.dmabufFd ≠ none)
    (hfile : info.flags.sysmemIpcSigImporter = false) (pid : Nat) (dev : SharedDevice)
    (hs : Heaps) :
    (exporter = pid ∧ info.flags.allocVa = true ∧ staleLuid = mem.adapterLuid ∧
          mem.gpuAddr ≠ 0 → mem.Detects pid dev hs info a) ∧
      (Conflicts pid dev hs info a → exporter = pid ∧ info.flags.allocVa = true ∧
        staleLuid = mem.adapterLuid ∧ mem.gpuAddr ≠ 0) := by
  have himport := importPhysicalHandle_shared (a := a) hfd hfile pid dev hs
  refine ⟨?_, ?_⟩
  · intro hcond
    rw [Detects, himport, h.refusal_eq, if_pos hcond]
    exact ⟨_, _, rfl⟩
  · intro hconflict
    by_contra hcond
    rw [Conflicts, himport, h.refusal_eq, if_neg hcond] at hconflict
    obtain ⟨p, mem', hs', heq⟩ := hconflict
    obtain ⟨r, hr, heq⟩ := Option.map_eq_some_iff.mp heq
    obtain ⟨_, rfl⟩ := Prod.mk.inj heq
    split at hr
    next => exact reserve_ne hr rfl
    next => exact takeHandle_ne hr rfl

/-- The import of a shared file finds no conflict. -/
theorem Opens.import_file (h : mem.Opens exporter staleLuid a) (hfd : info.dmabufFd ≠ none)
    (hfile : info.flags.sysmemIpcSigImporter = true) : ¬ Conflicts pid dev hs info a := by
  rintro ⟨p, mem', hs', heq⟩
  rw [importPhysicalHandle, if_neg hfd, if_pos hfile] at heq
  obtain ⟨⟨c, mem₁, hs₁⟩, hreserve, heq⟩ := Option.map_eq_some_iff.mp heq
  have hcode := (Prod.mk.inj heq).2
  split at hcode
  next => exact reserve_ne hreserve (Prod.mk.inj hcode).1
  next =>
    rw [back] at hcode
    split at hcode
    next => cases hcode
    next => exact h.backing (Prod.mk.inj hcode).1

/-- The import of a buffer that `Init` has made on `home` detects the process and the adapter
exactly if, in the process of the buffer, it is a resource and the value in the memory of the
new object is that of the adapter just where the importing device has it. -/
theorem reimport_detected_iff {home : SharedDevice} {hs₀ hs₁ : Heaps}
    {info₀ : GpuMemoryCreateInfo} {a₀ : Answers}
    (hinit : init home hs₀ info₀ a₀ = some (.success, mem, hs₁)) (haddr : mem.gpuAddr ≠ 0)
    (h : mem.Opens exporter staleLuid a) (hfd : info.dmabufFd ≠ none) :
    mem.RightlyDetected exporter pid dev hs info a ↔
      (info.flags.allocVa = true → exporter = pid →
        (info.flags.sysmemIpcSigImporter = false ∧ staleLuid = home.luid ↔
          dev.luid = home.luid)) := by
  have hluid : mem.adapterLuid = home.luid := (init_shape hinit).adapterLuid
  rw [RightlyDetected, ← hluid]
  have hconflict : mem.Detects pid dev hs info a → Conflicts pid dev hs info a :=
    fun ⟨mem', hs', heq⟩ => ⟨_, mem', hs', heq⟩
  cases hfile : info.flags.sysmemIpcSigImporter with
  | true =>
      have hnone : ¬ Conflicts pid dev hs info a := h.import_file hfd hfile
      simp only [Bool.true_eq_false, false_and, false_iff]
      constructor
      · rintro ⟨hdetects, _⟩ hva hpid hdev
        exact hnone (hconflict (hdetects hva hpid hdev))
      · intro hcond
        exact ⟨fun hva hpid hdev => absurd hdev (hcond hva hpid), fun _ => hnone⟩
  | false =>
      obtain ⟨hdetect, honly⟩ := h.import_shared hfd hfile pid dev hs
      simp only [true_and]
      constructor
      · rintro ⟨hdetects, hnever⟩ hva hpid
        constructor
        · intro hstale
          by_contra hdev
          exact hnever (.inr hdev) (hconflict (hdetect ⟨hpid, hva, hstale, haddr⟩))
        · intro hdev
          exact (honly (hconflict (hdetects hva hpid hdev))).2.2.1
      · intro hcond
        refine ⟨fun hva hpid hdev => ?_, fun hother hc => ?_⟩
        · exact hdetect ⟨hpid, hva, (hcond hva hpid).mpr hdev, haddr⟩
        · obtain ⟨hpid, hva, hstale, _⟩ := honly hc
          rcases hother with hne | hne
          · exact hne hpid
          · exact hne ((hcond hva hpid).mp hstale)

/-- A device with an adapter of its own. -/
def seventh : SharedDevice := ⟨false, 0, 0, 0, 7⟩

/-- A page of local memory on that device. -/
def sharedPage : GpuMemory where
  domain := .kLocal
  gpuAddr := 0x10000000
  clientSize := 0x1000
  size := 0x1000
  adapterLuid := 7
  flags := { isShared := true }

/-- The answers to the import of that page, with a value in the memory of the new object. -/
def openSharedPage (staleLuid : Nat) : Answers where
  sharedInfo := sharedPage.shareInfo 1
  isSameAdapter := staleLuid = 7

theorem opens_sharedPage (staleLuid : Nat) :
    sharedPage.Opens 1 staleLuid (openSharedPage staleLuid) :=
  ⟨rfl, rfl, rfl, rfl, rfl, rfl, by simp [Answers.backing, openSharedPage]⟩

theorem sharedPage_created :
    ∃ hs₁, init seventh (.new smallSpace) { size := 0x1000 } {} = some (.success, sharedPage, hs₁) := by
  have hrun : (init seventh (.new smallSpace) { size := 0x1000 } {}).map (fun r => (r.1, r.2.1)) =
      some (.success, sharedPage) := by
    decide +kernel
  obtain ⟨⟨code, mem, hs₁⟩, hr, heq⟩ := Option.map_eq_some_iff.mp hrun
  obtain ⟨rfl, rfl⟩ := Prod.mk.inj heq
  exact ⟨hs₁, hr⟩

/-- Where the value happens to be that of the adapter, the buffer is detected. -/
theorem reimport_detected_seventh :
    sharedPage.RightlyDetected 1 1 seventh (.new smallSpace)
      { flags := { allocVa := true }, dmabufFd := some 5 } (openSharedPage 7) := by
  obtain ⟨hs₁, hinit⟩ := sharedPage_created
  exact (reimport_detected_iff hinit (by decide) (opens_sharedPage 7) (by decide)).mpr
    fun _ _ => by decide

/-- In memory that was zero the buffer is not detected. -/
theorem zeroed_not_detected :
    ¬ ∀ staleLuid, sharedPage.RightlyDetected 1 1 seventh (.new smallSpace)
      { flags := { allocVa := true }, dmabufFd := some 5 } (openSharedPage staleLuid) := by
  intro hall
  obtain ⟨_, _, hdetects⟩ := (hall 0).1 rfl rfl rfl
  have hdetected := ((opens_sharedPage 0).import_shared (by decide) rfl 1 seventh (.new smallSpace)).2
    ⟨_, _, _, hdetects⟩
  exact absurd hdetected.2.2.1 (by decide)

end GpuMemory

end RocDxg
