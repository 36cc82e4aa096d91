import RocDxg.Platform.Devices

/-!
# Initialisation of the management library

`amdsmi_init` and `amdsmi_shut_down` of `amd_smi.cc`, with `DxcoreLoader` of
`dxcore_loader.cpp`.  Three pieces of state go together: the count of initialisations, the handle
of `libdxcore.so` and the platform.

The first initialisation loads the library and then enumerates the devices.  If the enumeration
fails it returns without unloading the library.  In every run without such a failure the library
is loaded once while the count is positive and not at all otherwise
(`AmdSmi.init_balanced`).
-/

namespace RocDxg

open Lib (Reach runAll reach_of_runAll)

/-- `DxcoreLoader`: whether `dxcore_handle_` is set, and the references to the library that
`dlopen` has counted and `dlclose` has not. -/
structure DxcoreLoader where
  dxcoreHandle : Bool := false
  references : Nat := 0
deriving DecidableEq, Repr

namespace DxcoreLoader

/-- `Initialize`, when `dlopen` finds the library or not, and the library has all functions or
not. -/
def initializeLoader (l : DxcoreLoader) (dlopen apis : Bool) : Bool × DxcoreLoader :=
  if dlopen = false then (false, { l with dxcoreHandle := false })
  else if apis = false then
    -- the reference that was just taken is given back
    (false, { l with dxcoreHandle := false })
  else (true, ⟨true, l.references + 1⟩)

/-- `Shutdown` -/
def shutdown (l : DxcoreLoader) : DxcoreLoader :=
  if l.dxcoreHandle then ⟨false, l.references - 1⟩ else l

end DxcoreLoader

/-- The values of `amdsmi_status_t` that the calls return. -/
inductive SmiStatus where
  | success
  | notSupported
  | retry
  | initError
  | timeout
  | apiFailed
  | inval
  | outOfResources
  | notFound
  | unknownError
deriving DecidableEq, Repr

/-- `translateCodeToSmiStatus` -/
def translateCodeToSmiStatus : ErrorCode → SmiStatus
  | .success => .success
  | .unSupported => .notSupported
  | .notReady => .retry
  | .initializationFailed => .initError
  | .timeout => .timeout
  | .syscallFail => .apiFailed
  | .invalidParams => .inval
  | .invalidPointer => .inval
  | .outOfMemory => .outOfResources
  | .outOfGpuMemory => .outOfResources
  | .notFound => .notFound
  | _ => .unknownError

/-- What the host answers to an initialisation. -/
structure InitAnswers where
  dlopen : Bool
  apis : Bool
  host : HostAnswers
deriving DecidableEq, Repr

/-- The state of the library, with the calls that counted. -/
structure AmdSmi where
  /-- `init_ref_count` -/
  initRefCount : Int := 0
  loader : DxcoreLoader := {}
  platform : Platform := {}
  /-- The initialisations that returned success. -/
  inits : Nat := 0
  /-- The calls of `amdsmi_shut_down` with a count other than zero. -/
  shutdowns : Nat := 0
deriving DecidableEq, Repr

/-- The largest `int`. -/
def intMax : Int := 2 ^ 31 - 1

/-- A call on the library. -/
inductive SmiCall where
  | init (a : InitAnswers)
  | shutDown
deriving DecidableEq, Repr

namespace AmdSmi

/-- `init_ref_count++`, which must not overflow. -/
def countInit (s : AmdSmi) : Option AmdSmi :=
  if s.initRefCount = intMax then none
  else some { s with initRefCount := s.initRefCount + 1, inits := s.inits + 1 }

/-- `amdsmi_init` -/
def amdsmiInit (s : AmdSmi) (a : InitAnswers) : Option (SmiStatus × AmdSmi) :=
  if s.initRefCount > 0 then s.countInit.map fun s => (.success, s)
  else
    match s.loader.initializeLoader a.dlopen a.apis with
    | (false, loader) => some (.initError, { s with loader := loader })
    | (true, loader) =>
        (s.platform.reEnumerateDevices a.host).bind fun (code, platform) =>
          let s := { s with loader := loader, platform := platform }
          if code = .success then s.countInit.map fun s => (translateCodeToSmiStatus code, s)
          else some (translateCodeToSmiStatus code, s)

/-- `amdsmi_shut_down` -/
def amdsmiShutDown (s : AmdSmi) : SmiStatus × AmdSmi :=
  if s.initRefCount = 0 then (.success, s)
  else
    let s := { s with initRefCount := s.initRefCount - 1, shutdowns := s.shutdowns + 1 }
    if s.initRefCount > 0 then (.success, s)
    else (.success, { s with platform := s.platform.destroy, loader := s.loader.shutdown })

/-- One call. -/
def step (s : AmdSmi) : SmiCall → Option AmdSmi
  | .init a => (s.amdsmiInit a).map (·.2)
  | .shutDown => some s.amdsmiShutDown.2

/-- The count is that of the calls, and the library is loaded once while it is positive. -/
structure Balanced (s : AmdSmi) : Prop where
  count : s.initRefCount = (s.inits : Int) - s.shutdowns
  nonneg : 0 ≤ s.initRefCount
  references : s.loader.references = if 0 < s.initRefCount then 1 else 0

/-- The loader, the platform and the count are as before. -/
structure Unchanged (s s' : AmdSmi) : Prop where
  loader : s'.loader = s.loader
  devices : s'.platform.devices = s.platform.devices
  ldaChainList : s'.platform.ldaChainList = s.platform.ldaChainList
  initRefCount : s'.initRefCount = s.initRefCount

/-- A call that returns leaves the library balanced, and as it was if it has failed. -/
def Sound (s : AmdSmi) (c : SmiCall) : Prop :=
  match c with
  | .init a => ∃ status s', s.amdsmiInit a = some (status, s') ∧ Balanced s' ∧
      (status ≠ .success → Unchanged s s')
  | .shutDown => Balanced s.amdsmiShutDown.2

/-- The count can grow, and an enumeration after the library was loaded succeeds. -/
def Loads (s : AmdSmi) : SmiCall → Prop
  | .init a =>
      (0 < s.initRefCount → s.initRefCount ≠ intMax) ∧
        (s.initRefCount = 0 → a.dlopen = true → a.apis = true →
          ∃ p, s.platform.reEnumerateDevices a.host = some (.success, p))
  | .shutDown => True

/-! ## The invariant -/

/-- Between calls the loader holds its one reference or none, and an uninitialised library has no
device. -/
structure Settled (s : AmdSmi) : Prop where
  balanced : Balanced s
  loaded : 0 < s.initRefCount → s.loader = ⟨true, 1⟩
  unloaded : s.initRefCount = 0 → s.loader = ⟨false, 0⟩
  empty : s.initRefCount = 0 → s.platform.devices = [] ∧ s.platform.ldaChainList = []

variable {s s' : AmdSmi}

theorem settled_new : Settled {} :=
  ⟨⟨rfl, Int.le_refl 0, rfl⟩, nofun, fun _ => rfl, fun _ => ⟨rfl, rfl⟩⟩

/-- A library that is loaded may count one more initialisation. -/
theorem settled_countInit (hcount : s.initRefCount = (s.inits : Int) - s.shutdowns)
    (hnonneg : 0 ≤ s.initRefCount) (hmax : s.initRefCount ≠ intMax)
    (hloader : s.loader = ⟨true, 1⟩) : ∃ s', s.countInit = some s' ∧ Settled s' := by
  rw [AmdSmi.countInit, if_neg hmax]
  refine ⟨_, rfl, ⟨?_, by show 0 ≤ s.initRefCount + 1; omega, ?_⟩, fun _ => hloader, ?_, ?_⟩
  · show s.initRefCount + 1 = ((s.inits + 1 : Nat) : Int) - s.shutdowns
    omega
  · show s.loader.references = if 0 < s.initRefCount + 1 then 1 else 0
    rw [hloader, if_pos (by omega)]
  · exact fun h => absurd h (by show ¬ s.initRefCount + 1 = 0; omega)
  · exact fun h => absurd h (by show ¬ s.initRefCount + 1 = 0; omega)

namespace Settled

theorem shutDown (S : Settled s) : Settled s.amdsmiShutDown.2 := by
  have hcount := S.balanced.count
  have hnonneg := S.balanced.nonneg
  rw [amdsmiShutDown]
  by_cases hzero : s.initRefCount = 0
  · rw [if_pos hzero]
    exact S
  rw [if_neg hzero]
  have hloader := S.loaded (by omega)
  by_cases hmore : s.initRefCount - 1 > 0
  · simp only [if_pos hmore]
    refine ⟨⟨?_, by show 0 ≤ s.initRefCount - 1; omega, ?_⟩, fun _ => hloader, ?_, ?_⟩
    · show s.initRefCount - 1 = (s.inits : Int) - (s.shutdowns + 1 : Nat)
      omega
    · show s.loader.references = if 0 < s.initRefCount - 1 then 1 else 0
      rw [hloader, if_pos hmore]
    · intro h
      change s.initRefCount - 1 = 0 at h
      exact absurd hmore (by omega)
    · intro h
      change s.initRefCount - 1 = 0 at h
      exact absurd hmore (by omega)
  · simp only [if_neg hmore]
    have hunloaded : s.loader.shutdown = ⟨false, 0⟩ := by rw [hloader]; rfl
    refine ⟨⟨?_, by show 0 ≤ s.initRefCount - 1; omega, ?_⟩, ?_, fun _ => hunloaded, fun _ => ⟨rfl, rfl⟩⟩
    · show s.initRefCount - 1 = (s.inits : Int) - (s.shutdowns + 1 : Nat)
      omega
    · show s.loader.shutdown.references = if 0 < s.initRefCount - 1 then 1 else 0
      rw [hunloaded, if_neg hmore]
    · exact fun h => absurd h hmore

/-- `Initialize` of a loader without the library. -/
theorem initializeLoader_eq (dlopen apis : Bool) :
    DxcoreLoader.initializeLoader ⟨false, 0⟩ dlopen apis =
      if dlopen = true ∧ apis = true then (true, ⟨true, 1⟩) else (false, ⟨false, 0⟩) := by
  cases dlopen <;> cases apis <;> rfl

theorem init (S : Settled s) {a : InitAnswers} (hloads : Loads s (.init a)) :
    ∃ status s', s.amdsmiInit a = some (status, s') ∧ Settled s' ∧
      (status ≠ .success → Unchanged s s') := by
  have hcount := S.balanced.count
  have hnonneg := S.balanced.nonneg
  rw [amdsmiInit]
  by_cases hpos : s.initRefCount > 0
  · obtain ⟨s', heq, S'⟩ := settled_countInit hcount hnonneg (hloads.1 hpos) (S.loaded hpos)
    rw [if_pos hpos, heq]
    exact ⟨.success, s', rfl, S', fun hne => absurd rfl hne⟩
  have hzero : s.initRefCount = 0 := by omega
  rw [if_neg hpos, S.unloaded hzero, initializeLoader_eq]
  by_cases hload : a.dlopen = true ∧ a.apis = true
  · obtain ⟨p, hp⟩ := hloads.2 hzero hload.1 hload.2
    have hmax : s.initRefCount ≠ intMax := by
      rw [hzero]
      decide
    obtain ⟨s', heq, S'⟩ := settled_countInit (s := { s with loader := ⟨true, 1⟩, platform := p })
      hcount hnonneg hmax rfl
    rw [if_pos hload]
    simp only [hp, Option.bind_some, if_true, heq, Option.map_some]
    exact ⟨_, s', rfl, S', fun hne => absurd rfl hne⟩
  · rw [if_neg hload]
    refine ⟨.initError, _, rfl, ⟨⟨hcount, hnonneg, ?_⟩, fun h => absurd h hpos, fun _ => rfl,
      S.empty⟩, fun _ => ⟨(S.unloaded hzero).symm, rfl, rfl, rfl⟩⟩
    show 0 = if 0 < s.initRefCount then 1 else 0
    rw [if_neg hpos]

/-- A call that does not meet the condition overflows, does not return, or leaves the library
loaded with no initialisation. -/
theorem not_sound (S : Settled s) {c : SmiCall} (hnot : ¬ Loads s c) : ¬ Sound s c := by
  have hnonneg := S.balanced.nonneg
  cases c with
  | shutDown => exact absurd trivial hnot
  | init a =>
      rintro ⟨status, s', heq, B, _⟩
      rw [amdsmiInit] at heq
      by_cases hpos : s.initRefCount > 0
      · rw [if_pos hpos, AmdSmi.countInit] at heq
        by_cases hmax : s.initRefCount = intMax
        · rw [if_pos hmax] at heq
          cases heq
        · exact hnot ⟨fun _ => hmax, fun hzero => by omega⟩
      have hzero : s.initRefCount = 0 := by omega
      rw [if_neg hpos, S.unloaded hzero, initializeLoader_eq] at heq
      by_cases hload : a.dlopen = true ∧ a.apis = true
      · rw [if_pos hload] at heq
        obtain ⟨⟨code, p⟩, hp, heq⟩ := Option.bind_eq_some_iff.mp heq
        by_cases hcode : code = .success
        · rw [hcode] at hp
          exact hnot ⟨fun h => absurd h hpos, fun _ _ _ => ⟨p, hp⟩⟩
        · simp only [if_neg hcode] at heq
          cases heq
          have hrefs := B.references
          simp only [hzero] at hrefs
          cases hrefs
      · exact hnot ⟨fun h => absurd h hpos, fun _ hd ha => absurd ⟨hd, ha⟩ hload⟩

theorem step (S : Settled s) {c : SmiCall} (hloads : Loads s c) (hstep : s.step c = some s') :
    Settled s' := by
  cases c with
  | shutDown =>
      cases hstep
      exact S.shutDown
  | init a =>
      obtain ⟨status, s₁, heq, S₁, _⟩ := S.init hloads
      rw [AmdSmi.step, heq] at hstep
      cases hstep
      exact S₁

theorem sound_iff (S : Settled s) (c : SmiCall) : Sound s c ↔ Loads s c := by
  refine ⟨fun h => Classical.byContradiction fun hnot => S.not_sound hnot h, fun hloads => ?_⟩
  cases c with
  | shutDown => exact S.shutDown.balanced
  | init a =>
      obtain ⟨status, s₁, heq, S₁, hsame⟩ := S.init hloads
      exact ⟨status, s₁, heq, S₁.balanced, hsame⟩

end Settled

/-! ## Runs -/

/-- In every run whose calls meet the condition the library is balanced, and the next call keeps it
so, and leaves it as it was if it has failed, if and only if it meets the condition. -/
theorem init_balanced (h : Reach step Loads {} s) :
    Balanced s ∧ ∀ c, Sound s c ↔ Loads s c := by
  have S : Settled s := h.invariant settled_new fun _ _ _ S hloads hstep => S.step hloads hstep
  exact ⟨S.balanced, S.sound_iff⟩

/-- Two initialisations, of which the first loads the library, and a shutdown. -/
theorem init_balanced_run : ∃ s, Reach step Loads {} s ∧ s.initRefCount = 1 ∧ Balanced s := by
  have h₁ : Reach step Loads {} { initRefCount := 1, loader := ⟨true, 1⟩, inits := 1 } :=
    .step (e := .init ⟨true, true, .success, .success, []⟩) .start
      ⟨nofun, fun _ _ _ => ⟨_, rfl⟩⟩ (by decide)
  have h₂ : Reach step Loads {} { initRefCount := 2, loader := ⟨true, 1⟩, inits := 2 } :=
    .step (e := .init ⟨false, false, .unknown, .unknown, []⟩) h₁
      ⟨fun _ => by decide, nofun⟩ (by decide)
  have h₃ : Reach step Loads {}
      { initRefCount := 1, loader := ⟨true, 1⟩, inits := 2, shutdowns := 1 } :=
    .step (e := .shutDown) h₂ trivial (by decide)
  exact ⟨_, h₃, rfl, (init_balanced h₃).1⟩

/-- An enumeration that fails leaves the library loaded with no initialisation. -/
theorem failed_init_leaks : ¬ ∀ s, Reach step (fun _ _ => True) {} s → Balanced s := by
  intro hall
  have hreach : Reach step (fun _ _ => True) {} { loader := ⟨true, 1⟩ } :=
    .step (e := .init ⟨true, true, .unknown, .success, []⟩) .start trivial (by decide)
  have hrefs := (hall _ hreach).references
  simp at hrefs

end AmdSmi

end RocDxg
