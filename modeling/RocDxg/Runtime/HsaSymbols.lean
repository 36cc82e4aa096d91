import RocDxg.Lib.DoubleChecked

/-!
# The functions of the HSA runtime

The queues call four functions of `libhsa-runtime64.so`, which `hsa.cpp` looks up when they are
called: three signal functions by their names, `_HSAKMT_LOOKUP_SYMS`, and a function of the loader
extension through the table of that extension.  Each has a static pointer of its own, and all
share the lock `lock_`.

The pointers are plain variables that are read without the lock.  `resolved_once` is about the
orders of these accesses, each of which is taken to be one step.
-/

namespace RocDxg

open Lib (Reach runAll reach_of_runAll)
open Lib.DoubleChecked (Answer Entry Once Stage State sound_of_reach)

/-- The functions that are looked up. -/
inductive HsaFunction where
  | signalLoadRelaxed
  | signalWaitRelaxed
  | signalStoreScrelease
  /-- `hsa_ven_amd_loader_query_host_address` -/
  | loaderQueryHostAddress
deriving DecidableEq, Repr

/-- What the dynamic linker finds. -/
structure Linker where
  dlsym : String → Option Nat
  /-- The entry `hsa_ven_amd_loader_query_host_address` of the table that the function at an
  address fills in. -/
  extensionTable : Nat → Option Nat

namespace HsaFunction

/-- The lookup of a function, under the lock.  The one of the loader extension returns
`HSA_STATUS_ERROR` at once if there is no function for the table. -/
def lookup (l : Linker) : HsaFunction → Answer Nat
  | signalLoadRelaxed => .stored (l.dlsym "hsa_signal_load_relaxed")
  | signalWaitRelaxed => .stored (l.dlsym "hsa_signal_wait_relaxed")
  | signalStoreScrelease => .stored (l.dlsym "hsa_signal_store_screlease")
  | loaderQueryHostAddress =>
      match l.dlsym "hsa_system_get_extension_table" with
      | none => .abandoned
      | some addr => .stored (l.extensionTable addr)

/-- What a call returns that has found no function; `HSA_STATUS_ERROR` is `0x1000`. -/
def fallback : HsaFunction → Option Nat
  | signalLoadRelaxed | signalWaitRelaxed => some 0
  | signalStoreScrelease => none
  | loaderQueryHostAddress => some 0x1000

end HsaFunction

/-- The static pointers with their lock, and the threads that call. -/
abbrev HsaSymbols (κ : Type) := State κ HsaFunction Nat

/-- A thread calls a function, or takes the next step of its call. -/
inductive HsaEvent (κ : Type) where
  | call (k : κ) (f : HsaFunction)
  | run (k : κ) (l : Linker)

/-- What a call comes to: the function at an address is called, or the fallback is returned. -/
inductive HsaResult where
  | through (addr : Option Nat)
  | value (v : Option Nat)
deriving DecidableEq, Repr

namespace HsaSymbols

variable {κ : Type}

/-- What the linker answers at a lookup. -/
def answer (l : Linker) : Stage HsaFunction → Answer Nat
  | .lookup f => f.lookup l
  | _ => .abandoned

/-- One step. -/
def step [DecidableEq κ] (s : HsaSymbols κ) : HsaEvent κ → Option (HsaSymbols κ)
  | .call k f => State.step s (.call k f)
  | .run k l => State.step s (.run k (answer l (s.stage k)))

/-- What a call comes to, should the entry be the end of one. -/
def returned : Entry κ HsaFunction Nat → Option HsaResult
  | .looked _ _ _ => none
  | .used _ _ addr => some (.through addr)
  | .fellBack _ f => some (.value f.fallback)

theorem returned_futile {f : HsaFunction} {l : List (Entry κ HsaFunction Nat)}
    (h : ∀ e ∈ l, e.Futile ∧ e.cell = f) :
    ∃ n, l.filterMap returned = List.replicate n (.value f.fallback) := by
  induction l with
  | nil => exact ⟨0, rfl⟩
  | cons e l ih =>
      obtain ⟨n, hn⟩ := ih fun x hx => h x (List.mem_cons_of_mem _ hx)
      obtain ⟨hfutile, hcell⟩ := h e (List.mem_cons_self ..)
      cases e with
      | looked k c v => exact ⟨n, hn⟩
      | used k c v => exact absurd hfutile id
      | fellBack k c =>
          cases hcell
          exact ⟨n + 1, congrArg (HsaResult.value c.fallback :: ·) hn⟩

theorem returned_used {f : HsaFunction} {v : Option Nat} {l : List (Entry κ HsaFunction Nat)}
    (h : ∀ e ∈ l, ∃ k, e = .used k f v) :
    l.filterMap returned = List.replicate l.length (.through v) := by
  induction l with
  | nil => rfl
  | cons e l ih =>
      obtain ⟨k, rfl⟩ := h e (List.mem_cons_self ..)
      exact congrArg (HsaResult.through v :: ·) (ih fun x hx => h x (List.mem_cons_of_mem _ hx))

section Runs

variable [DecidableEq κ] {s : HsaSymbols κ} {ok : HsaSymbols κ → HsaEvent κ → Prop}

/-- A run of the threads is one of the protocol. -/
theorem reach_state (h : Reach step ok {} s) : Reach State.step (fun _ _ => True) {} s := by
  refine (h.simulate (I := fun _ => True) id trivial fun s e s' _ _ hs => ⟨trivial, Or.inr ?_⟩).2
  cases e with
  | call k f => exact ⟨.call k f, trivial, hs⟩
  | run k l => exact ⟨.run k _, trivial, hs⟩

/-- Threads may call in any order, and the linker may find a function at one time and not at
another.  For each function some lookups fail and calls fall back, until one lookup finds it; after
that no thread looks it up again.  So its calls return the fallback first, and then they all go
through the address that was found.  None goes through a null pointer. -/
theorem resolved_once (h : Reach step ok {} s) (f : HsaFunction) :
    Once f (s.cell f) (s.trace.filter fun e => e.cell = f) ∧
      ∃ n m, (s.trace.filter fun e => e.cell = f).filterMap returned =
          List.replicate n (.value f.fallback) ++ List.replicate m (.through (s.cell f)) ∧
        (s.cell f = none → m = 0) := by
  have honce := (sound_of_reach (reach_state h)).once f
  refine ⟨honce, ?_⟩
  have hcell : ∀ e ∈ s.trace.filter fun e => e.cell = f, e.cell = f :=
    fun e he => of_decide_eq_true (List.mem_filter.mp he).2
  generalize s.trace.filter (fun e => e.cell = f) = l at honce hcell ⊢
  cases hfound : s.cell f with
  | none =>
      rw [hfound] at honce
      obtain ⟨n, hn⟩ := returned_futile fun e he => ⟨honce e he, hcell e he⟩
      exact ⟨n, 0, by rw [hn, List.replicate_zero, List.append_nil], fun _ => rfl⟩
  | some addr =>
      rw [hfound] at honce
      obtain ⟨before, k, after, rfl, hbefore, hafter⟩ := honce
      obtain ⟨n, hn⟩ := returned_futile fun e he =>
        ⟨hbefore e he, hcell e (List.mem_append_left _ he)⟩
      refine ⟨n, after.length, ?_, fun hnone => (by cases hnone)⟩
      rw [List.filterMap_append, hn, List.filterMap_cons_none rfl, returned_used hafter]

/-- A linker with the signal functions. -/
def sampleLinker : Linker where
  dlsym name := if name = "hsa_signal_load_relaxed" then some 0x7000 else none
  extensionTable _ := none

/-- Two threads find no function, and the first one looks it up. -/
def raceForLookup : List (HsaEvent Bool) :=
  [.call false .signalLoadRelaxed, .call true .signalLoadRelaxed, .run false sampleLinker,
    .run true sampleLinker] ++
  List.replicate 4 (.run false sampleLinker) ++ List.replicate 5 (.run true sampleLinker) ++
  List.replicate 2 (.run false sampleLinker)

/-- Both calls go through the address. -/
theorem resolved_once_race : ∃ s : HsaSymbols Bool,
    s.trace = [.looked false .signalLoadRelaxed (some 0x7000),
      .used true .signalLoadRelaxed (some 0x7000), .used false .signalLoadRelaxed (some 0x7000)] ∧
    Once .signalLoadRelaxed (s.cell .signalLoadRelaxed)
      (s.trace.filter fun e => e.cell = .signalLoadRelaxed) := by
  have hrun : (runAll step (fun _ _ => True) {} raceForLookup).map State.trace =
      some [.looked false .signalLoadRelaxed (some 0x7000),
        .used true .signalLoadRelaxed (some 0x7000),
        .used false .signalLoadRelaxed (some 0x7000)] := by
    decide
  obtain ⟨s, hs, htrace⟩ := Option.map_eq_some_iff.mp hrun
  exact ⟨s, htrace, (resolved_once (reach_of_runAll hs) .signalLoadRelaxed).1⟩

end Runs

end HsaSymbols

end RocDxg
