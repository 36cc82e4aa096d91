import Mathlib.Data.List.Nodup
import Mathlib.Data.List.Range
import RocDxg.Lib.Reach
import RocDxg.Util

/-!
# The devices of the platform

`Platform` of `shared/platform.cpp`, with `LdaChain` of `lda_chain.cpp` and `Device` of
`device.cpp`.  Each adapter of the host makes a chain, and each GPU of the chain a device.  The
devices of all chains are in one list.

A device joins the list while its chain is being built, and stays there when the chain is given
up.  The list of devices is that of the chains if no chain is given up after its first device
(`Platform.devices_agree`).
-/

namespace RocDxg

open Lib (Reach runAll reach_of_runAll)

/-- `MaxDevices` -/
def maxDevices : Nat := 16

/-- `MaxGpusPerChain` -/
def maxGpusPerChain : Nat := 4

/-- `AMD_VENDOR_ID` -/
def amdVendorId : Nat := 0x1022

/-- `ATI_VENDOR_ID` -/
def atiVendorId : Nat := 0x1002

/-- `intelVendorId` -/
def intelVendorId : Nat := 0x8086

/-- The device ids of `kGfxipTable`. -/
def gfxipTable : List Nat :=
  [0x7448, 0x744C, 0x745E, 0x7449, 0x744a, 0x744b, 0x7470, 0x7480, 0x747E, 0x7590, 0x7550, 0x7551,
    0x150E, 0x1586, 0x1114, 0x1900]

/-- `QueryAdapterSupported` -/
def queryAdapterSupported (deviceId : Nat) : Bool := gfxipTable.contains deviceId

/-! ## The answers of the host -/

/-- The answer to `KMTQAITYPE_PHYSICALADAPTERDEVICEIDS`. -/
structure PhysicalAnswer where
  code : ErrorCode
  vendorId : Nat
  deviceId : Nat
deriving DecidableEq, Repr

/-- What the chain context says of a GPU. -/
structure GpuAnswer where
  vendorId : Nat
  /-- `CreateDevice` gives a context. -/
  context : Bool
  /-- `IsWddm2Supported` -/
  wddm2 : Bool
deriving DecidableEq, Repr

/-- The answers about an adapter. -/
structure AdapterAnswer where
  /-- `hAdapter` -/
  handle : Nat
  /-- The answer to `KMTQAITYPE_PHYSICALADAPTERCOUNT`. -/
  count : ErrorCode
  /-- As many answers as the count says. -/
  physical : List PhysicalAnswer
  /-- `ChainContext::Create` gives a context. -/
  context : Bool
  /-- `D3DKMTCreateDevice` -/
  createDevice : ErrorCode
  /-- `ChainContext::QueryAdapterInfo` -/
  queryAdapterInfo : ErrorCode
  /-- As many GPUs as `NumChainedGpus` says. -/
  gpus : List GpuAnswer
deriving DecidableEq, Repr

/-- The answers of the host to an enumeration: the two calls of `EnumAdapters`, and the adapters
that the second one lists. -/
structure HostAnswers where
  count : ErrorCode
  enumerate : ErrorCode
  adapters : List AdapterAnswer
deriving DecidableEq, Repr

/-! ## The state -/

/-- The objects made so far have the numbers below `next`. -/
structure Objects where
  next : Nat := 0
  deleted : List Nat := []
deriving DecidableEq, Repr

/-- `delete` -/
def Objects.delete (o : Objects) (id : Nat) : Objects := { o with deleted := id :: o.deleted }

/-- `Device` of `shared/device.h`: the object, that of its chain and the index in the chain. -/
structure ChainedDevice where
  id : Nat
  ldaChain : Nat
  chainIndex : Nat
deriving DecidableEq, Repr

/-- `LdaChain`; the devices are those that `chained_devices_` has, in order. -/
structure LdaChain where
  id : Nat
  adapterHandle : Nat
  chainedDevices : List ChainedDevice := []
deriving DecidableEq, Repr

/-- `Platform`; the chains are the first `lda_chain_count_` of `lda_chain_list_`. -/
structure Platform where
  ldaChainList : List LdaChain := []
  devices : List ChainedDevice := []
  objects : Objects := {}
deriving DecidableEq, Repr

/-- `Device::Create` -/
def ChainedDevice.create (g : GpuAnswer) : ErrorCode :=
  if g.context = false then .initializationFailed
  else if g.wddm2 = false then .initializationFailed
  else .success

namespace Platform

/-- `TearDownDevices` -/
def tearDownDevices (p : Platform) : Platform :=
  { p with
    devices := []
    objects := p.devices.foldl (fun o d => o.delete d.id) p.objects }

/-- `Destroy` -/
def destroy (p : Platform) : Platform :=
  let p := p.tearDownDevices
  { p with
    ldaChainList := []
    objects := p.ldaChainList.foldl (fun o c => o.delete c.id) p.objects }

/-- The loop of `LdaChain::QueryLinkedGpusInChain`, at the GPU `chain`.  There is no result when
it writes behind `chained_devices_`. -/
def queryGpus (p : Platform) (c : LdaChain) (chain : Nat) :
    List GpuAnswer → Option (ErrorCode × LdaChain × Platform)
  | [] => some (.success, c, p)
  | g :: rest =>
      if p.devices.length ≥ maxDevices then some (.initializationFailed, c, p)
      else if g.vendorId = atiVendorId then
        match ChainedDevice.create g with
        | .success =>
            if chain ≥ maxGpusPerChain then none
            else
              let d : ChainedDevice := ⟨p.objects.next, c.id, chain⟩
              queryGpus { p with
                  devices := p.devices ++ [d]
                  objects := { p.objects with next := p.objects.next + 1 } }
                { c with chainedDevices := c.chainedDevices ++ [d] } (chain + 1) rest
        | code => some (code, c, p)
      else some (.unSupported, c, p)

/-- `LdaChain::QueryLinkedGpusInChain` -/
def queryLinkedGpusInChain (p : Platform) (c : LdaChain) (a : AdapterAnswer) :
    Option (ErrorCode × LdaChain × Platform) :=
  if a.createDevice ≠ .success then some (a.createDevice, c, p)
  else if a.queryAdapterInfo ≠ .success then some (a.queryAdapterInfo, c, p)
  else p.queryGpus c 0 a.gpus

/-- The check of the physical adapters in `queryLinkedDevicesInLdaChain`. -/
def checkPhysical : List PhysicalAnswer → ErrorCode
  | [] => .success
  | p :: rest =>
      if p.code ≠ .success then p.code
      else if p.vendorId ≠ amdVendorId ∧ p.vendorId ≠ atiVendorId ∧ p.vendorId ≠ intelVendorId then
        .incompatibleDevice
      else if (p.vendorId = amdVendorId ∨ p.vendorId = atiVendorId) ∧
          queryAdapterSupported p.deviceId = false then .incompatibleDevice
      else checkPhysical rest

/-- The code with which the checks of an adapter end. -/
def checkAdapter (a : AdapterAnswer) : ErrorCode :=
  if a.count = .success then checkPhysical a.physical else a.count

/-- `queryLinkedDevicesInLdaChain` -/
def queryLinkedDevicesInLdaChain (p : Platform) (a : AdapterAnswer) :
    Option (ErrorCode × Platform) :=
  if checkAdapter a ≠ .success then some (checkAdapter a, p)
  else if p.ldaChainList.length ≥ maxDevices then some (.initializationFailed, p)
  else if a.context = false then some (.initializationFailed, p)
  else
    let c : LdaChain := { id := p.objects.next, adapterHandle := a.handle }
    let p := { p with objects := { p.objects with next := p.objects.next + 1 } }
    (p.queryLinkedGpusInChain c a).map fun (code, c, p) =>
      -- the chain is deleted unless it is released to the list
      if code = .success then (code, { p with ldaChainList := p.ldaChainList ++ [c] })
      else (code, { p with objects := p.objects.delete c.id })

/-- The loop of `reQueryDevices`. -/
def queryAdapters (p : Platform) (code : ErrorCode) :
    List AdapterAnswer → Option (ErrorCode × Platform)
  | [] => some (code, p)
  | a :: rest => (p.queryLinkedDevicesInLdaChain a).bind fun r => queryAdapters r.2 r.1 rest

/-- `reQueryDevices` -/
def reQueryDevices (p : Platform) (h : HostAnswers) : Option (ErrorCode × Platform) :=
  if h.count ≠ .success then some (h.count, p)
  else if h.enumerate ≠ .success then some (h.enumerate, p)
  else
    (p.queryAdapters .success h.adapters).map fun (code, p) =>
      (if p.ldaChainList.length > 0 then .success else code, p)

/-- `ReEnumerateDevices`, and `Init`, which calls it. -/
def reEnumerateDevices (p : Platform) (h : HostAnswers) : Option (ErrorCode × Platform) :=
  (p.destroy.reQueryDevices h).map fun (code, p) =>
    (code, if code ≠ .success then p.destroy else p)

/-- `GetLdaChain` of a device; there is none when the chain has been deleted. -/
def getLdaChain (p : Platform) (d : ChainedDevice) : Option LdaChain :=
  p.ldaChainList.find? fun c => c.id = d.ldaChain

end Platform

/-- `WDDMCreateDevices`: the shared devices with the adapters of their chains. -/
def wddmCreateDevices (p : Platform) (h : HostAnswers) :
    Option (List (ChainedDevice × Nat) × Platform) :=
  (p.reEnumerateDevices h).bind fun (code, p) =>
    if code ≠ .success then some ([], p)
    else (p.devices.mapM fun d => (p.getLdaChain d).map fun c => (d, c.adapterHandle)).map (·, p)

namespace Platform

variable {p p' : Platform} {c : LdaChain} {a : AdapterAnswer}

/-! ## The objects -/

/-- The objects that the lists hold. -/
def held (p : Platform) : List Nat :=
  p.devices.map ChainedDevice.id ++ p.ldaChainList.map LdaChain.id

/-- Every object made is held or was deleted, once. -/
def Owned (p : Platform) : Prop := (p.held ++ p.objects.deleted).Perm (List.range p.objects.next)

theorem foldl_delete {α : Type} (id : α → Nat) (l : List α) (o : Objects) :
    l.foldl (fun o x => o.delete (id x)) o =
      { o with deleted := (l.map id).reverse ++ o.deleted } := by
  induction l generalizing o with
  | nil => rfl
  | cons x l ih =>
      rw [List.foldl_cons, ih, Objects.delete, List.map_cons, List.reverse_cons, List.append_assoc]
      rfl

theorem destroy_eq (p : Platform) : p.destroy = ⟨[], [], p.objects.next,
    (p.ldaChainList.map LdaChain.id).reverse ++
      ((p.devices.map ChainedDevice.id).reverse ++ p.objects.deleted)⟩ := by
  simp only [destroy, tearDownDevices, foldl_delete]

/-- `Destroy` deletes what the lists hold. -/
theorem Owned.destroy (O : p.Owned) :
    p.destroy.Owned ∧ p.destroy.objects.deleted.Perm (List.range p.objects.next) := by
  have hperm : p.destroy.objects.deleted.Perm (List.range p.objects.next) := by
    refine List.Perm.trans ?_ O
    rw [destroy_eq, held]
    refine List.perm_iff_count.mpr fun x => ?_
    simp only [List.count_append, List.count_reverse]
    omega
  refine ⟨?_, hperm⟩
  rw [Owned, held]
  rw [destroy_eq] at hperm ⊢
  exact hperm

/-- An object that is held was not deleted. -/
theorem Owned.not_deleted (O : p.Owned) {x : Nat} (hx : x ∈ p.held) : x ∉ p.objects.deleted := by
  have hnodup := O.nodup_iff.mpr List.nodup_range
  exact fun hdeleted => (List.nodup_append.mp hnodup).2.2 x hx x hdeleted rfl

/-- Objects are made one after the other. -/
theorem Owned.grow (O : p.Owned) {m : Nat} (hnext : p'.objects.next = p.objects.next + m)
    (hcount : ∀ x, (p'.held ++ p'.objects.deleted).count x =
      (p.held ++ p.objects.deleted).count x + (List.range' p.objects.next m).count x) :
    p'.Owned := by
  refine List.perm_iff_count.mpr fun x => ?_
  rw [hcount, O.count_eq, hnext, List.range_eq_range', List.range_eq_range',
    ← List.count_append]
  have happend := List.range'_append_1 (s := 0) (m := p.objects.next) (n := m)
  rw [Nat.zero_add] at happend
  rw [happend]

/-! ## One adapter -/

/-- The chain context says that the GPU can be a device. -/
def creates (g : GpuAnswer) : Bool :=
  g.vendorId = atiVendorId && g.context && g.wddm2

/-- The devices a chain gets when `n` are listed: one for each GPU until one is refused. -/
def created (n : Nat) : List GpuAnswer → Nat
  | [] => 0
  | g :: rest => if n < maxDevices ∧ creates g = true then created (n + 1) rest + 1 else 0

/-- Devices of a chain, from an index on. -/
def freshDevices (next ldaChain chain : Nat) : Nat → List ChainedDevice
  | 0 => []
  | k + 1 => ⟨next, ldaChain, chain⟩ :: freshDevices (next + 1) ldaChain (chain + 1) k

theorem length_freshDevices (next ldaChain chain k : Nat) :
    (freshDevices next ldaChain chain k).length = k := by
  induction k generalizing next chain with
  | zero => rfl
  | succ k ih => rw [freshDevices, List.length_cons, ih]

theorem map_id_freshDevices (next ldaChain chain k : Nat) :
    (freshDevices next ldaChain chain k).map ChainedDevice.id = List.range' next k := by
  induction k generalizing next chain with
  | zero => rfl
  | succ k ih => rw [freshDevices, List.map_cons, ih, List.range'_succ]

theorem ldaChain_freshDevices {next ldaChain chain k : Nat} {d : ChainedDevice}
    (hd : d ∈ freshDevices next ldaChain chain k) : d.ldaChain = ldaChain := by
  induction k generalizing next chain with
  | zero => cases hd
  | succ k ih =>
      rcases List.mem_cons.mp hd with rfl | hd
      · rfl
      · exact ih hd

/-- `Device::Create` makes a device, or fails in one way. -/
theorem create_eq (g : GpuAnswer) : ChainedDevice.create g =
    if g.context = true ∧ g.wddm2 = true then .success else .initializationFailed := by
  obtain ⟨v, context, wddm2⟩ := g
  cases context <;> cases wddm2 <;> rfl

/-- What the loop over the GPUs of a chain leaves. -/
def afterGpus (p : Platform) (c : LdaChain) (chain k : Nat) : LdaChain × Platform :=
  let ds := freshDevices p.objects.next c.id chain k
  ({ c with chainedDevices := c.chainedDevices ++ ds },
    { p with
      devices := p.devices ++ ds
      objects := { p.objects with next := p.objects.next + k } })

theorem afterGpus_succ (p : Platform) (c : LdaChain) (chain k : Nat) :
    afterGpus { p with
        devices := p.devices ++ [⟨p.objects.next, c.id, chain⟩]
        objects := { p.objects with next := p.objects.next + 1 } }
      { c with chainedDevices := c.chainedDevices ++ [⟨p.objects.next, c.id, chain⟩] }
      (chain + 1) k = afterGpus p c chain (k + 1) := by
  simp [afterGpus, freshDevices, Nat.add_assoc, Nat.add_comm 1 k]

/-- The loop over the GPUs succeeds if each becomes a device, and leaves those that did. -/
theorem queryGpus_spec (p : Platform) (c : LdaChain) (chain : Nat) (gpus : List GpuAnswer)
    (hchain : chain ≤ maxGpusPerChain) :
    if maxGpusPerChain < chain + created p.devices.length gpus then
      p.queryGpus c chain gpus = none
    else
      ∃ code, p.queryGpus c chain gpus =
          some (code, afterGpus p c chain (created p.devices.length gpus)) ∧
        (code = .success ↔ created p.devices.length gpus = gpus.length) := by
  induction gpus generalizing p c chain with
  | nil =>
      rw [if_neg (by simpa [created] using hchain)]
      refine ⟨.success, ?_, by simp [created]⟩
      simp [queryGpus, afterGpus, created, freshDevices]
  | cons g rest ih =>
      rw [queryGpus, created]
      by_cases hlisted : p.devices.length ≥ maxDevices
      · have hnot : ¬ (p.devices.length < maxDevices ∧ creates g = true) := fun h => by omega
        rw [if_neg hnot, if_neg (by omega), if_pos hlisted]
        exact ⟨.initializationFailed, by simp [afterGpus, freshDevices], by simp⟩
      rw [if_neg hlisted]
      by_cases hvendor : g.vendorId = atiVendorId
      · rw [if_pos hvendor]
        by_cases hcreate : g.context = true ∧ g.wddm2 = true
        · have hcreates : p.devices.length < maxDevices ∧ creates g = true :=
            ⟨by omega, by simp [creates, hvendor, hcreate]⟩
          rw [if_pos hcreates]
          simp only [create_eq, if_pos hcreate]
          by_cases hslot : chain ≥ maxGpusPerChain
          · rw [if_pos (by omega), if_pos hslot]
          · rw [if_neg hslot]
            let d : ChainedDevice := ⟨p.objects.next, c.id, chain⟩
            let p₁ : Platform := { p with
              devices := p.devices ++ [d]
              objects := { p.objects with next := p.objects.next + 1 } }
            let c₁ : LdaChain := { c with chainedDevices := c.chainedDevices ++ [d] }
            have hlen : p₁.devices.length = p.devices.length + 1 := by simp [p₁]
            have hrest := ih p₁ c₁ (chain + 1) (by omega)
            rw [hlen] at hrest
            have harith : chain + (created (p.devices.length + 1) rest + 1) =
                chain + 1 + created (p.devices.length + 1) rest := by omega
            rw [harith]
            by_cases hover : maxGpusPerChain < chain + 1 + created (p.devices.length + 1) rest
            · rw [if_pos hover] at hrest ⊢
              exact hrest
            · rw [if_neg hover] at hrest ⊢
              obtain ⟨code, heq, hcode⟩ := hrest
              refine ⟨code, ?_, ?_⟩
              · rw [← afterGpus_succ]
                exact heq
              · rw [hcode, List.length_cons, Nat.add_right_cancel_iff]
        · have hnot : ¬ (p.devices.length < maxDevices ∧ creates g = true) := by
            simp [creates, hvendor, hcreate]
          rw [if_neg hnot, if_neg (by omega)]
          simp only [create_eq, if_neg hcreate]
          exact ⟨.initializationFailed, by simp [afterGpus, freshDevices], by simp⟩
      · have hnot : ¬ (p.devices.length < maxDevices ∧ creates g = true) := by
          simp [creates, hvendor]
        rw [if_neg hnot, if_neg (by omega), if_neg hvendor]
        exact ⟨.unSupported, by simp [afterGpus, freshDevices], by simp⟩

/-- The adapter passes all checks before its GPUs are asked for. -/
def accepted (a : AdapterAnswer) : Bool :=
  checkAdapter a = .success && a.context && a.createDevice = .success &&
    a.queryAdapterInfo = .success

theorem accepted_iff : accepted a = true ↔ checkAdapter a = .success ∧ a.context = true ∧
    a.createDevice = .success ∧ a.queryAdapterInfo = .success := by
  simp [accepted, and_assoc]

/-- The chain joins the list with its devices. -/
def keep (p : Platform) (a : AdapterAnswer) : Platform :=
  let ds := freshDevices (p.objects.next + 1) p.objects.next 0 a.gpus.length
  { ldaChainList := p.ldaChainList ++ [⟨p.objects.next, a.handle, ds⟩]
    devices := p.devices ++ ds
    objects := { p.objects with next := p.objects.next + 1 + a.gpus.length } }

/-- The chain is deleted, and `k` devices of it are listed. -/
def giveUp (p : Platform) (k : Nat) : Platform :=
  { p with
    devices := p.devices ++ freshDevices (p.objects.next + 1) p.objects.next 0 k
    objects := ⟨p.objects.next + 1 + k, p.objects.next :: p.objects.deleted⟩ }

theorem giveUp_zero (p : Platform) : p.giveUp 0 =
    { p with objects := ⟨p.objects.next + 1, p.objects.next :: p.objects.deleted⟩ } := by
  simp [giveUp, freshDevices]

/-- The GPUs of the adapter are asked for. -/
abbrev Admitted (p : Platform) (a : AdapterAnswer) : Prop :=
  accepted a = true ∧ p.ldaChainList.length < maxDevices

/-- What `queryLinkedDevicesInLdaChain` makes of an adapter. -/
inductive Outcome (p : Platform) (a : AdapterAnswer) : Option (ErrorCode × Platform) → Prop
  | refused {code : ErrorCode} :
      ¬ Admitted p a → code ≠ .success → Outcome p a (some (code, p))
  | closed {code : ErrorCode} :
      ¬ Admitted p a → code ≠ .success → Outcome p a (some (code, p.giveUp 0))
  | overrun :
      Admitted p a → maxGpusPerChain < created p.devices.length a.gpus → Outcome p a none
  | kept :
      Admitted p a → created p.devices.length a.gpus ≤ maxGpusPerChain →
      created p.devices.length a.gpus = a.gpus.length → Outcome p a (some (.success, p.keep a))
  | dropped {code : ErrorCode} :
      Admitted p a → created p.devices.length a.gpus ≤ maxGpusPerChain →
      created p.devices.length a.gpus ≠ a.gpus.length → code ≠ .success →
      Outcome p a (some (code, p.giveUp (created p.devices.length a.gpus)))

theorem outcome (p : Platform) (a : AdapterAnswer) :
    Outcome p a (p.queryLinkedDevicesInLdaChain a) := by
  rw [queryLinkedDevicesInLdaChain]
  by_cases hcheck : checkAdapter a = .success
  case neg =>
    rw [if_pos hcheck]
    exact .refused (fun h => hcheck (accepted_iff.mp h.1).1) hcheck
  rw [if_neg (not_not.mpr hcheck)]
  by_cases hroom : p.ldaChainList.length ≥ maxDevices
  case pos =>
    rw [if_pos hroom]
    exact .refused (fun h => Nat.not_lt.mpr hroom h.2) nofun
  rw [if_neg hroom]
  by_cases hcontext : a.context = true
  case neg =>
    rw [if_pos (by simpa using hcontext)]
    exact .refused (fun h => hcontext (accepted_iff.mp h.1).2.1) nofun
  rw [if_neg (by simp [hcontext])]
  simp only [queryLinkedGpusInChain]
  by_cases hcreate : a.createDevice = .success
  case neg =>
    rw [if_pos hcreate, Option.map_some]
    simp only [if_neg hcreate]
    have hclosed : Outcome p a (some (a.createDevice, p.giveUp 0)) :=
      .closed (fun h => hcreate (accepted_iff.mp h.1).2.2.1) hcreate
    rw [giveUp_zero] at hclosed
    exact hclosed
  rw [if_neg (not_not.mpr hcreate)]
  by_cases hquery : a.queryAdapterInfo = .success
  case neg =>
    rw [if_pos hquery, Option.map_some]
    simp only [if_neg hquery]
    have hclosed : Outcome p a (some (a.queryAdapterInfo, p.giveUp 0)) :=
      .closed (fun h => hquery (accepted_iff.mp h.1).2.2.2) hquery
    rw [giveUp_zero] at hclosed
    exact hclosed
  rw [if_neg (not_not.mpr hquery)]
  have hadmitted : Admitted p a :=
    ⟨accepted_iff.mpr ⟨hcheck, hcontext, hcreate, hquery⟩, Nat.not_le.mp hroom⟩
  have hspec := queryGpus_spec { p with objects := { p.objects with next := p.objects.next + 1 } }
    { id := p.objects.next, adapterHandle := a.handle } 0 a.gpus (Nat.zero_le _)
  rw [Nat.zero_add] at hspec
  by_cases hover : maxGpusPerChain < created p.devices.length a.gpus
  · rw [if_pos hover] at hspec
    rw [hspec]
    exact .overrun hadmitted hover
  · rw [if_neg hover] at hspec
    obtain ⟨code, heq, hcode⟩ := hspec
    have hle := Nat.not_lt.mp hover
    rw [heq, Option.map_some]
    by_cases hall : created p.devices.length a.gpus = a.gpus.length
    · simp only [hcode.mpr hall, if_true]
      have hkept : Outcome p a (some (.success, p.keep a)) := .kept hadmitted hle hall
      simpa [keep, afterGpus, hall] using hkept
    · have hne : code ≠ .success := fun h => hall (hcode.mp h)
      simp only [if_neg hne]
      have hdropped : Outcome p a (some (code, p.giveUp (created p.devices.length a.gpus))) :=
        .dropped hadmitted hle hall hne
      simpa [giveUp, afterGpus, Objects.delete] using hdropped

/-- Both ends of an adapter keep account of the objects. -/
theorem Owned.keep (O : p.Owned) (a : AdapterAnswer) : (p.keep a).Owned := by
  refine O.grow (m := a.gpus.length + 1) ?_ ?_
  · show p.objects.next + 1 + a.gpus.length = _
    omega
  · intro x
    simp only [held, Platform.keep, List.map_append, List.count_append, map_id_freshDevices,
      List.range'_succ, List.count_cons, List.map_cons, List.map_nil, List.count_nil]
    omega

theorem Owned.giveUp (O : p.Owned) (k : Nat) : (p.giveUp k).Owned := by
  refine O.grow (m := k + 1) ?_ ?_
  · show p.objects.next + 1 + k = _
    omega
  · intro x
    simp only [held, Platform.giveUp, List.map_append, List.count_append, map_id_freshDevices,
      List.range'_succ, List.count_cons]
    omega

theorem Outcome.owned (O : p.Owned) {r : Option (ErrorCode × Platform)} (h : Outcome p a r)
    {code : ErrorCode} (hr : r = some (code, p')) : p'.Owned := by
  cases h with
  | refused =>
      cases hr
      exact O
  | closed =>
      cases hr
      exact O.giveUp 0
  | overrun => cases hr
  | kept =>
      cases hr
      exact O.keep a
  | dropped =>
      cases hr
      exact O.giveUp _

/-- What an adapter preserves, and so does every enumeration of adapters. -/
theorem invariant_queryAdapters {P : Platform → Prop}
    (hadapter : ∀ {p a code p'}, P p → Outcome p a (some (code, p')) → P p')
    {adapters : List AdapterAnswer} {code code' : ErrorCode} (hp : P p)
    (h : p.queryAdapters code adapters = some (code', p')) : P p' := by
  induction adapters generalizing p code with
  | nil =>
      cases h
      exact hp
  | cons a rest ih =>
      obtain ⟨⟨code₁, p₁⟩, hquery, hrest⟩ := Option.bind_eq_some_iff.mp h
      exact ih (hadapter hp (hquery ▸ outcome p a)) hrest

theorem owned_queryAdapters {adapters : List AdapterAnswer} {code code' : ErrorCode}
    (O : p.Owned) (h : p.queryAdapters code adapters = some (code', p')) : p'.Owned :=
  invariant_queryAdapters (fun O h => h.owned O rfl) O h

theorem invariant_reEnumerateDevices {P : Platform → Prop} (hdestroy : ∀ {p}, P p → P p.destroy)
    (hadapter : ∀ {p a code p'}, P p → Outcome p a (some (code, p')) → P p') {h : HostAnswers}
    {code : ErrorCode} (hp : P p) (heq : p.reEnumerateDevices h = some (code, p')) : P p' := by
  obtain ⟨⟨code₁, p₁⟩, hquery, heq⟩ := Option.map_eq_some_iff.mp heq
  have hp₁ : P p₁ := by
    rw [reQueryDevices] at hquery
    split at hquery
    next =>
      cases hquery
      exact hdestroy hp
    next =>
      split at hquery
      next =>
        cases hquery
        exact hdestroy hp
      next =>
        obtain ⟨⟨code₂, p₂⟩, hadapters, hresult⟩ := Option.map_eq_some_iff.mp hquery
        cases hresult
        exact invariant_queryAdapters hadapter (hdestroy hp) hadapters
  simp only [Prod.mk.injEq] at heq
  obtain ⟨_, rfl⟩ := heq
  split
  next => exact hdestroy hp₁
  next => exact hp₁

/-! ## The lists -/

/-- The list of devices is that of the chains, in order, and each device names its chain. -/
structure Tidy (p : Platform) : Prop where
  devices : p.devices = p.ldaChainList.flatMap LdaChain.chainedDevices
  named : ∀ c ∈ p.ldaChainList, ∀ d ∈ c.chainedDevices, d.ldaChain = c.id

/-- A device is listed whose chain was deleted. -/
def Stranded (p : Platform) : Prop := ∃ d ∈ p.devices, d.ldaChain ∈ p.objects.deleted

theorem tidy_destroy (p : Platform) : p.destroy.Tidy := by
  rw [destroy_eq]
  exact ⟨rfl, nofun⟩

theorem Tidy.keep (T : p.Tidy) (a : AdapterAnswer) : (p.keep a).Tidy := by
  refine ⟨?_, ?_⟩
  · simp only [Platform.keep, List.flatMap_append, List.flatMap_cons, List.flatMap_nil,
      List.append_nil]
    rw [T.devices]
  · intro c hc d hd
    rcases List.mem_append.mp hc with hc | hc
    · exact T.named c hc d hd
    · rw [List.mem_singleton.mp hc] at hd ⊢
      exact ldaChain_freshDevices hd

theorem Tidy.giveUp_zero (T : p.Tidy) : (p.giveUp 0).Tidy := by
  rw [Platform.giveUp_zero]
  exact ⟨T.devices, T.named⟩

theorem stranded_giveUp (p : Platform) {k : Nat} (hk : 0 < k) : (p.giveUp k).Stranded := by
  obtain ⟨j, rfl⟩ := Nat.exists_eq_add_of_lt hk
  rw [Nat.zero_add]
  refine ⟨⟨p.objects.next + 1, p.objects.next, 0⟩, ?_, List.mem_cons_self ..⟩
  exact List.mem_append_right _ (List.mem_cons_self ..)

theorem Outcome.stranded (hstranded : p.Stranded) {r : Option (ErrorCode × Platform)}
    (h : Outcome p a r) {code : ErrorCode} (hr : r = some (code, p')) : p'.Stranded := by
  obtain ⟨d, hd, hdeleted⟩ := hstranded
  cases h with
  | refused =>
      cases hr
      exact ⟨d, hd, hdeleted⟩
  | closed =>
      cases hr
      exact ⟨d, List.mem_append_left _ hd, List.mem_cons_of_mem _ hdeleted⟩
  | overrun => cases hr
  | kept =>
      cases hr
      exact ⟨d, List.mem_append_left _ hd, hdeleted⟩
  | dropped =>
      cases hr
      exact ⟨d, List.mem_append_left _ hd, List.mem_cons_of_mem _ hdeleted⟩

/-! ## All adapters -/

/-- With `k` chains and `n` devices in the lists, each adapter whose GPUs are asked for gets all its
GPUs as devices, or none. -/
def Orderly (k n : Nat) : List AdapterAnswer → Prop
  | [] => True
  | a :: rest =>
      if accepted a = true ∧ k < maxDevices then
        (a.gpus.length ≤ maxGpusPerChain ∧ created n a.gpus = a.gpus.length ∧
            Orderly (k + 1) (n + a.gpus.length) rest) ∨
          (a.gpus ≠ [] ∧ created n a.gpus = 0 ∧ Orderly k n rest)
      else Orderly k n rest

/-- With no chain and `n` devices in the lists, each adapter whose GPUs are asked for is refused
one of them. -/
def Fruitless (n : Nat) : List AdapterAnswer → Prop
  | [] => True
  | a :: rest =>
      if accepted a = true then
        created n a.gpus ≠ a.gpus.length ∧ created n a.gpus ≤ maxGpusPerChain ∧
          Fruitless (n + created n a.gpus) rest
      else Fruitless n rest

theorem length_giveUp (p : Platform) (k : Nat) :
    (p.giveUp k).devices.length = p.devices.length + k := by
  simp [Platform.giveUp, length_freshDevices]

theorem length_keep (p : Platform) (a : AdapterAnswer) :
    (p.keep a).devices.length = p.devices.length + a.gpus.length ∧
      (p.keep a).ldaChainList.length = p.ldaChainList.length + 1 := by
  simp [Platform.keep, length_freshDevices]

variable {adapters : List AdapterAnswer} {code code' : ErrorCode}

/-- If every chain is completed or empty, the lists agree. -/
theorem tidy_of_orderly (T : p.Tidy)
    (h : Orderly p.ldaChainList.length p.devices.length adapters) :
    ∃ code' p', p.queryAdapters code adapters = some (code', p') ∧ p'.Tidy := by
  induction adapters generalizing p code with
  | nil => exact ⟨code, p, rfl, T⟩
  | cons a rest ih =>
      rw [Orderly] at h
      rw [queryAdapters]
      have hout := outcome p a
      generalize p.queryLinkedDevicesInLdaChain a = r at hout ⊢
      cases hout with
      | refused hnot _ =>
          rw [if_neg hnot] at h
          exact ih T h
      | closed hnot _ =>
          rw [if_neg hnot] at h
          refine ih T.giveUp_zero ?_
          rw [length_giveUp]
          exact h
      | overrun had hover =>
          rw [if_pos had] at h
          rcases h with ⟨hle, hall, _⟩ | ⟨_, hnone, _⟩
          · omega
          · omega
      | kept had hle hall =>
          rw [if_pos had] at h
          rcases h with ⟨_, _, hrest⟩ | ⟨hne, hnone, _⟩
          · refine ih (T.keep a) ?_
            rw [(length_keep p a).1, (length_keep p a).2]
            exact hrest
          · exact absurd (List.length_eq_zero_iff.mp (by omega)) hne
      | dropped had _ hnot _ =>
          rw [if_pos had] at h
          rcases h with ⟨_, hall, _⟩ | ⟨_, hnone, hrest⟩
          · exact absurd hall hnot
          · rw [hnone]
            refine ih T.giveUp_zero ?_
            rw [length_giveUp]
            exact hrest

theorem stranded_queryAdapters (hstranded : p.Stranded)
    (h : p.queryAdapters code adapters = some (code', p')) : p'.Stranded := by
  induction adapters generalizing p code with
  | nil =>
      cases h
      exact hstranded
  | cons a rest ih =>
      obtain ⟨⟨code₁, p₁⟩, hquery, hrest⟩ := Option.bind_eq_some_iff.mp h
      exact ih ((outcome p a).stranded hstranded hquery) hrest

/-- If a chain is given up after its first device, that device stays. -/
theorem stranded_of_not_orderly
    (hnot : ¬ Orderly p.ldaChainList.length p.devices.length adapters)
    (h : p.queryAdapters code adapters = some (code', p')) : p'.Stranded := by
  induction adapters generalizing p code with
  | nil => exact absurd trivial hnot
  | cons a rest ih =>
      rw [Orderly] at hnot
      rw [queryAdapters] at h
      have hout := outcome p a
      revert h
      generalize p.queryLinkedDevicesInLdaChain a = r at hout ⊢
      cases hout with
      | refused hno _ =>
          rw [if_neg hno] at hnot
          exact ih hnot
      | closed hno _ =>
          rw [if_neg hno] at hnot
          refine ih ?_
          rw [length_giveUp]
          exact hnot
      | overrun => exact nofun
      | kept had hle hall =>
          rw [if_pos had] at hnot
          refine ih fun hrest => hnot (Or.inl ⟨by omega, hall, ?_⟩)
          rw [(length_keep p a).1, (length_keep p a).2] at hrest
          exact hrest
      | dropped had _ hlen _ =>
          rw [if_pos had] at hnot
          intro h
          rcases Nat.eq_zero_or_pos (created p.devices.length a.gpus) with hnone | hpos
          · rw [hnone] at h
            refine ih (fun hrest => hnot (Or.inr ⟨?_, hnone, ?_⟩)) h
            · rintro heq
              rw [heq] at hlen
              exact hlen rfl
            · rw [length_giveUp] at hrest
              exact hrest
          · exact stranded_queryAdapters (stranded_giveUp p hpos) h

/-- If no chain is completed the last adapter has failed, and the list of chains is empty. -/
theorem failed_of_fruitless (hnil : p.ldaChainList = []) (h : Fruitless p.devices.length adapters) :
    ∃ code' p', p.queryAdapters code adapters = some (code', p') ∧ p'.ldaChainList = [] ∧
      (adapters = [] ∧ code' = code ∨ code' ≠ .success) := by
  induction adapters generalizing p code with
  | nil => exact ⟨code, p, rfl, hnil, Or.inl ⟨rfl, rfl⟩⟩
  | cons a rest ih =>
      have hroom : p.ldaChainList.length < maxDevices := by
        rw [hnil]
        decide
      have hnext : ∀ {code₁ : ErrorCode} {p₁ : Platform}, code₁ ≠ .success →
          p₁.ldaChainList = [] → Fruitless p₁.devices.length rest →
          ∃ code' p', p₁.queryAdapters code₁ rest = some (code', p') ∧ p'.ldaChainList = [] ∧
            (a :: rest = [] ∧ code' = code ∨ code' ≠ .success) := by
        intro code₁ p₁ hne hnil₁ hrest
        obtain ⟨code', p', heq, hnil', hcode⟩ := @ih p₁ code₁ hnil₁ hrest
        refine ⟨code', p', heq, hnil', Or.inr ?_⟩
        rcases hcode with ⟨_, rfl⟩ | hcode
        · exact hne
        · exact hcode
      rw [Fruitless] at h
      rw [queryAdapters]
      have hout := outcome p a
      generalize p.queryLinkedDevicesInLdaChain a = r at hout ⊢
      cases hout with
      | refused hno hne =>
          rw [if_neg fun ha => hno ⟨ha, hroom⟩] at h
          exact hnext hne hnil h
      | closed hno hne =>
          rw [if_neg fun ha => hno ⟨ha, hroom⟩] at h
          refine hnext hne hnil ?_
          rw [length_giveUp]
          exact h
      | overrun had hover =>
          rw [if_pos had.1] at h
          exact absurd h.2.1 (Nat.not_le.mpr hover)
      | kept had _ hall =>
          rw [if_pos had.1] at h
          exact absurd hall h.1
      | dropped had _ _ hne =>
          rw [if_pos had.1] at h
          refine hnext hne hnil ?_
          rw [length_giveUp]
          exact h.2.2

theorem chains_queryAdapters (hne : p.ldaChainList ≠ [])
    (h : p.queryAdapters code adapters = some (code', p')) : p'.ldaChainList ≠ [] := by
  induction adapters generalizing p code with
  | nil =>
      cases h
      exact hne
  | cons a rest ih =>
      rw [queryAdapters] at h
      have hout := outcome p a
      revert h
      generalize p.queryLinkedDevicesInLdaChain a = r at hout ⊢
      cases hout with
      | refused => exact ih hne
      | closed => exact ih hne
      | overrun => exact nofun
      | kept => exact ih (by simp [Platform.keep])
      | dropped => exact ih hne

/-- If a chain is completed it stays. -/
theorem chains_of_not_fruitless (hnil : p.ldaChainList = [])
    (hnot : ¬ Fruitless p.devices.length adapters)
    (h : p.queryAdapters code adapters = some (code', p')) : p'.ldaChainList ≠ [] := by
  induction adapters generalizing p code with
  | nil => exact absurd trivial hnot
  | cons a rest ih =>
      have hroom : p.ldaChainList.length < maxDevices := by
        rw [hnil]
        decide
      rw [Fruitless] at hnot
      rw [queryAdapters] at h
      have hout := outcome p a
      revert h
      generalize p.queryLinkedDevicesInLdaChain a = r at hout ⊢
      cases hout with
      | refused hno _ =>
          rw [if_neg fun ha => hno ⟨ha, hroom⟩] at hnot
          exact ih hnil hnot
      | closed hno _ =>
          rw [if_neg fun ha => hno ⟨ha, hroom⟩] at hnot
          refine ih hnil ?_
          rw [length_giveUp]
          exact hnot
      | overrun => exact nofun
      | kept => exact chains_queryAdapters (by simp [Platform.keep])
      | dropped had hle hlen _ =>
          rw [if_pos had.1] at hnot
          refine ih hnil fun hrest => hnot ⟨hlen, hle, ?_⟩
          rw [length_giveUp] at hrest
          exact hrest

/-! ## The arrays -/

theorem add_created_le {n : Nat} (h : n ≤ maxDevices) (gpus : List GpuAnswer) :
    n + created n gpus ≤ maxDevices := by
  induction gpus generalizing n with
  | nil => exact h
  | cons g rest ih =>
      rw [created]
      split
      next hlt =>
        have := ih (n := n + 1) hlt.1
        omega
      next => exact h

/-- The chains and the devices have room in the arrays, and what the chains have is listed. -/
structure Bounded (p : Platform) : Prop where
  chains : p.ldaChainList.length ≤ maxDevices
  devices : p.devices.length ≤ maxDevices
  listed : (p.ldaChainList.flatMap LdaChain.chainedDevices).Sublist p.devices

theorem bounded_destroy (p : Platform) : p.destroy.Bounded := by
  rw [destroy_eq]
  exact ⟨Nat.zero_le _, Nat.zero_le _, .refl _⟩

theorem Bounded.keep (B : p.Bounded) (hroom : p.ldaChainList.length < maxDevices)
    (hall : created p.devices.length a.gpus = a.gpus.length) : (p.keep a).Bounded := by
  obtain ⟨hdevices, hchains⟩ := length_keep p a
  refine ⟨?_, ?_, ?_⟩
  · rw [hchains]
    exact hroom
  · rw [hdevices, ← hall]
    exact add_created_le B.devices a.gpus
  · simp only [Platform.keep, List.flatMap_append, List.flatMap_cons, List.flatMap_nil,
      List.append_nil]
    exact B.listed.append_right _

theorem Bounded.giveUp (B : p.Bounded) {k : Nat} (hk : p.devices.length + k ≤ maxDevices) :
    (p.giveUp k).Bounded :=
  ⟨B.chains, (length_giveUp p k).le.trans hk, B.listed.trans (List.sublist_append_left ..)⟩

theorem Outcome.bounded (B : p.Bounded) {code : ErrorCode}
    (h : Outcome p a (some (code, p'))) : p'.Bounded := by
  cases h with
  | refused => exact B
  | closed => exact B.giveUp B.devices
  | kept hadmitted _ hall => exact B.keep hadmitted.2 hall
  | dropped => exact B.giveUp (add_created_le B.devices a.gpus)

/-! ## The enumeration -/

/-- The list of devices and the list of chains agree. -/
structure Agrees (p : Platform) : Prop where
  /-- The devices are the chained devices of the chains, in order. -/
  devices : p.devices = p.ldaChainList.flatMap LdaChain.chainedDevices
  /-- The chain of a device is in the list and was not deleted. -/
  live : ∀ d ∈ p.devices, ∃ c ∈ p.ldaChainList, c.id = d.ldaChain ∧ c.id ∉ p.objects.deleted
  once : (p.devices.map ChainedDevice.id).Nodup
  /-- After `Destroy` every device and every chain made was deleted once. -/
  destroyed : ∀ x < p.objects.next, p.destroy.objects.deleted.count x = 1

/-- `ReEnumerateDevices` returns, and when it succeeds the lists agree. -/
def Consistent (p : Platform) (h : HostAnswers) : Prop :=
  ∃ code p', p.reEnumerateDevices h = some (code, p') ∧ (code = .success → Agrees p')

/-- Either no chain is completed, or none is given up after its first device. -/
def Whole (h : HostAnswers) : Prop :=
  h.count = .success → h.enumerate = .success → Orderly 0 0 h.adapters ∨ Fruitless 0 h.adapters

theorem Owned.nodup_devices (O : p.Owned) : (p.devices.map ChainedDevice.id).Nodup := by
  have hnodup := List.nodup_append.mp (O.nodup_iff.mpr List.nodup_range)
  exact (List.nodup_append.mp hnodup.1).1

theorem Owned.agrees (O : p.Owned) (T : p.Tidy) : Agrees p := by
  refine ⟨T.devices, ?_, O.nodup_devices, ?_⟩
  · intro d hd
    rw [T.devices] at hd
    obtain ⟨c, hc, hd⟩ := List.mem_flatMap.mp hd
    refine ⟨c, hc, (T.named c hc d hd).symm, ?_⟩
    exact O.not_deleted (List.mem_append_right _ (List.mem_map_of_mem hc))
  · intro x hx
    rw [O.destroy.2.count_eq]
    exact List.count_eq_one_of_mem List.nodup_range (List.mem_range.mpr hx)

theorem not_agrees_of_stranded (hstranded : p.Stranded) : ¬ Agrees p := by
  rintro ⟨_, hlive, _, _⟩
  obtain ⟨d, hd, hdeleted⟩ := hstranded
  obtain ⟨c, _, heq, hnot⟩ := hlive d hd
  exact hnot (heq ▸ hdeleted)

theorem reEnumerateDevices_eq (p : Platform) {h : HostAnswers} (hcount : h.count = .success)
    (henumerate : h.enumerate = .success) : p.reEnumerateDevices h =
      (p.destroy.queryAdapters .success h.adapters).map fun r =>
        if r.2.ldaChainList = [] ∧ r.1 ≠ .success then (r.1, r.2.destroy) else (.success, r.2) := by
  rw [reEnumerateDevices, reQueryDevices, if_neg (not_not.mpr hcount),
    if_neg (not_not.mpr henumerate), Option.map_map]
  refine congrArg (fun f => Option.map f _) (funext fun r => ?_)
  obtain ⟨code, p'⟩ := r
  by_cases hnil : p'.ldaChainList = []
  · by_cases hcode : code = .success
    · simp [hnil, hcode]
    · simp [hnil, hcode]
  · have hpos : 0 < p'.ldaChainList.length := List.length_pos_iff.mpr hnil
    simp [hnil, hpos]

/-- An enumeration whose calls fail leaves no device. -/
theorem consistent_of_failed (p : Platform) {h : HostAnswers}
    (hfailed : ¬ (h.count = .success ∧ h.enumerate = .success)) : Consistent p h := by
  by_cases hcount : h.count = .success
  · have henumerate : h.enumerate ≠ .success := fun heq => hfailed ⟨hcount, heq⟩
    refine ⟨h.enumerate, p.destroy.destroy, ?_, fun heq => absurd heq henumerate⟩
    simp [reEnumerateDevices, reQueryDevices, hcount, henumerate]
  · refine ⟨h.count, p.destroy.destroy, ?_, fun heq => absurd heq hcount⟩
    simp [reEnumerateDevices, reQueryDevices, hcount]

/-- In an enumeration the lists agree if and only if no chain is completed or none is given up
after its first device. -/
theorem Owned.consistent_iff (O : p.Owned) (h : HostAnswers) : Consistent p h ↔ Whole h := by
  by_cases hcalls : h.count = .success ∧ h.enumerate = .success
  case neg =>
    refine iff_of_true (consistent_of_failed p hcalls) ?_
    exact fun hcount henumerate => absurd ⟨hcount, henumerate⟩ hcalls
  obtain ⟨hcount, henumerate⟩ := hcalls
  have hnil : p.destroy.ldaChainList = [] := rfl
  have hdevices : p.destroy.devices = [] := rfl
  have heq := reEnumerateDevices_eq p hcount henumerate
  constructor
  · rintro ⟨code, p', hresult, hagrees⟩ _ _
    rw [heq] at hresult
    obtain ⟨⟨code₁, p₁⟩, hquery, hif⟩ := Option.map_eq_some_iff.mp hresult
    by_contra hnot
    obtain ⟨horderly, hfruitless⟩ := not_or.mp hnot
    have hne := chains_of_not_fruitless hnil (by rw [hdevices]; exact hfruitless) hquery
    have hstranded := stranded_of_not_orderly (by rw [hnil, hdevices]; exact horderly) hquery
    rw [if_neg fun h => hne h.1] at hif
    cases hif
    exact not_agrees_of_stranded hstranded (hagrees rfl)
  · intro hwhole
    rcases hwhole hcount henumerate with horderly | hfruitless
    · have hrun : ∃ code' p', p.destroy.queryAdapters .success h.adapters = some (code', p') ∧
          p'.Tidy := tidy_of_orderly (tidy_destroy p) (by rw [hnil, hdevices]; exact horderly)
      obtain ⟨code₁, p₁, hquery, T⟩ := hrun
      have O₁ := owned_queryAdapters O.destroy.1 hquery
      rw [Consistent, heq, hquery, Option.map_some]
      by_cases hfailed : p₁.ldaChainList = [] ∧ code₁ ≠ .success
      · rw [if_pos hfailed]
        exact ⟨_, _, rfl, fun h => absurd h hfailed.2⟩
      · rw [if_neg hfailed]
        exact ⟨_, _, rfl, fun _ => O₁.agrees T⟩
    · have hrun : ∃ code' p', p.destroy.queryAdapters .success h.adapters = some (code', p') ∧
          p'.ldaChainList = [] ∧ (h.adapters = [] ∧ code' = .success ∨ code' ≠ .success) :=
        failed_of_fruitless hnil (by rw [hdevices]; exact hfruitless)
      obtain ⟨code₁, p₁, hquery, hnil₁, hcode⟩ := hrun
      have O₁ := owned_queryAdapters O.destroy.1 hquery
      rw [Consistent, heq, hquery, Option.map_some]
      rcases hcode with ⟨hadapters, hcode⟩ | hcode
      · rw [hadapters] at hquery
        cases hquery
        rw [if_neg fun h => h.2 hcode]
        exact ⟨_, _, rfl, fun _ => O₁.agrees (tidy_destroy p)⟩
      · rw [if_pos ⟨hnil₁, hcode⟩]
        exact ⟨_, _, rfl, fun h => absurd h hcode⟩

theorem isSome_mapM {α β : Type} {f : α → Option β} {l : List α}
    (hl : ∀ x ∈ l, (f x).isSome = true) : (l.mapM f).isSome = true := by
  induction l with
  | nil => rfl
  | cons x l ih =>
      obtain ⟨y, hy⟩ := Option.isSome_iff_exists.mp (hl x (List.mem_cons_self ..))
      obtain ⟨ys, hys⟩ := Option.isSome_iff_exists.mp
        (ih fun x hx => hl x (List.mem_cons_of_mem _ hx))
      rw [List.mapM_cons, hy, hys]
      rfl

/-- When the lists agree, `WDDMCreateDevices` finds the chain of every device. -/
theorem Consistent.wddmCreateDevices {h : HostAnswers} (hc : Consistent p h) :
    (wddmCreateDevices p h).isSome = true := by
  obtain ⟨code, p', heq, hagrees⟩ := hc
  rw [RocDxg.wddmCreateDevices, heq, Option.bind_some]
  simp only
  by_cases hcode : code = .success
  · rw [if_neg (not_not.mpr hcode), Option.isSome_map]
    refine isSome_mapM fun d hd => ?_
    obtain ⟨c, hc, hid, _⟩ := (hagrees hcode).live d hd
    rw [Option.isSome_map, getLdaChain, List.find?_isSome]
    exact ⟨c, hc, by simpa using hid⟩
  · rw [if_pos hcode]
    rfl

/-! ## Runs -/

/-- A call on the platform. -/
inductive PlatformCall where
  | reEnumerateDevices (h : HostAnswers)
  | destroy
deriving DecidableEq, Repr

/-- One call; `none` when it writes behind an array. -/
def step (p : Platform) : PlatformCall → Option Platform
  | .reEnumerateDevices h => (p.reEnumerateDevices h).map (·.2)
  | .destroy => some p.destroy

/-- What `Destroy` and every adapter preserve holds in every state. -/
theorem invariant_of_reach {P : Platform → Prop} (hstart : P {})
    (hdestroy : ∀ {p}, P p → P p.destroy)
    (hadapter : ∀ {p a code p'}, P p → Outcome p a (some (code, p')) → P p')
    (h : Reach step (fun _ _ => True) {} p) : P p := by
  refine h.invariant hstart ?_
  intro p c p' hp _ hstep
  cases c with
  | reEnumerateDevices h =>
      obtain ⟨⟨code, p₁⟩, heq, rfl⟩ := Option.map_eq_some_iff.mp hstep
      exact invariant_reEnumerateDevices hdestroy hadapter hp heq
  | destroy =>
      cases hstep
      exact hdestroy hp

theorem owned_of_reach (h : Reach step (fun _ _ => True) {} p) : p.Owned :=
  invariant_of_reach (List.Perm.refl _) (fun O => O.destroy.1) (fun O h => h.owned O rfl) h

theorem bounded_of_reach (h : Reach step (fun _ _ => True) {} p) : p.Bounded :=
  invariant_of_reach ⟨Nat.zero_le _, Nat.zero_le _, .refl _⟩ (fun _ => bounded_destroy _)
    (fun B h => h.bounded B) h

/-- In every state that calls reach, an enumeration keeps the lists in agreement if and only if no
chain is completed or none is given up after its first device. -/
theorem devices_agree (h : Reach step (fun _ _ => True) {} p) (answers : HostAnswers) :
    Consistent p answers ↔ Whole answers :=
  (owned_of_reach h).consistent_iff answers

/-- An enumeration of two chains, of two devices and of one. -/
theorem devices_agree_two : Consistent {} ⟨.success, .success,
    [⟨1, .success, [⟨.success, 0x1002, 0x744C⟩], true, .success, .success,
        [⟨0x1002, true, true⟩, ⟨0x1002, true, true⟩]⟩,
      ⟨2, .success, [], true, .success, .success, [⟨0x1002, true, true⟩]⟩]⟩ :=
  (devices_agree .start _).mpr fun _ _ => Or.inl (by simp [Orderly, accepted, checkAdapter,
    checkPhysical, created, creates, maxDevices, maxGpusPerChain, amdVendorId, atiVendorId,
    intelVendorId, queryAdapterSupported, gfxipTable])

/-- A chain whose second GPU is refused leaves its first device in the list. -/
theorem refused_gpu_strands_device : ¬ ∀ p, Reach step (fun _ _ => True) {} p →
    ∀ answers, Consistent p answers := by
  intro hall
  have hresult : Platform.reEnumerateDevices {} ⟨.success, .success,
      [⟨1, .success, [], true, .success, .success, [⟨0x1002, true, true⟩, ⟨0x1002, true, false⟩]⟩,
        ⟨2, .success, [], true, .success, .success, [⟨0x1002, true, true⟩]⟩]⟩ =
      some (.success, ⟨[⟨2, 2, [⟨3, 2, 0⟩]⟩], [⟨1, 0, 0⟩, ⟨3, 2, 0⟩], ⟨4, [0]⟩⟩) := by
    decide
  obtain ⟨code, p', heq, hagrees⟩ := hall {} .start _
  rw [hresult] at heq
  cases heq
  have hdevices := (hagrees rfl).devices
  simp at hdevices

end Platform

end RocDxg
