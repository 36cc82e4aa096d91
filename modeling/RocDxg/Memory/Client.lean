import RocDxg.Lib.Reach
import RocDxg.Memory.SubAllocator

/-!
# A client that allocates and frees

Runs of `hsaKmtAllocMemory` and `hsaKmtFreeMemory`, with the list of the addresses that
the client has been given and has not freed.

`hsaKmtFreeMemory` takes back what its argument names, unless the argument is the base
of a block that the sub-allocator holds and not the address of a live fragment: then it
deletes the block.  `Client.free_names_argument` says that nothing else goes wrong, and
`Client.double_free` that a second release of one address can do it.
-/

namespace RocDxg

open Lib (Reach runAll reach_of_runAll)
open Memory (Backed Given Grants Quiet Takes AllocRegular Allocates)

/-- The memory, and the addresses the client owns. -/
structure Client where
  memory : Memory
  allocated : List Nat := []

namespace Client

/-- A call of the client. -/
inductive Request where
  | allocMemory (preferredNode sizeInBytes : Nat) (flags : HsaMemFlags) (memoryAddress : Nat)
      (ans : AllocAnswers)
  | freeMemory (addr : Nat)

/-- A process that has opened the library and allocated nothing. -/
def new (sp : AddressSpace) (pid : Nat) : Client := { memory := .new sp pid }

/-- An allocation has returned. -/
def granted (c : Client) : Status × Nat × Memory → Client
  | (status, p, m) => ⟨m, if status = .success then p :: c.allocated else c.allocated⟩

/-- A release of `p` has returned. -/
def released (c : Client) (p : Nat) : Status × Memory → Client
  | (status, m) => ⟨m, if status = .success then c.allocated.filter (· ≠ p) else c.allocated⟩

/-- A call that returns. -/
def step (cfg : Config) (c : Client) : Request → Option Client
  | .allocMemory node size flags addr ans =>
      (c.memory.allocMemory cfg node size flags addr ans).toOption.map c.granted
  | .freeMemory p => (c.memory.freeMemory cfg p).toOption.map (c.released p)

/-- The address is not the base of a block of the sub-allocator, or it is that of a live
fragment. -/
def FreeRegular (m : Memory) (p : Nat) : Prop := m.heap.isBase p = true → m.heap.live p ≠ none

instance (m : Memory) (p : Nat) : Decidable (FreeRegular m p) :=
  inferInstanceAs (Decidable (_ → _))

/-- The calls that reach none of the defects. -/
def Regular (cfg : Config) (c : Client) : Request → Prop
  | .allocMemory node size flags addr ans =>
      c.memory.AllocRegular cfg ⟨node, size, 0, flags, addr⟩ ans
  | .freeMemory p => FreeRegular c.memory p

instance (cfg : Config) (c : Client) : (e : Request) → Decidable (Regular cfg c e)
  | .allocMemory .. => inferInstanceAs (Decidable (AllocRegular ..))
  | .freeMemory _ => inferInstanceAs (Decidable (FreeRegular ..))

/-- Apart from `p`, the live fragments are still there, in blocks that are the same
objects, and so are the blocks of the cache and the other objects. -/
structure Intact (m : Memory) (p : Nat) (m' : Memory) : Prop where
  live : ∀ q n, q ≠ p → m.heap.live q = some n → m'.heap.live q = some n ∧
    ∃ b, m'.heap.lengths b = some subAllocatorBlockSize ∧ b ≤ q ∧
      q + n ≤ b + subAllocatorBlockSize ∧ (m'.core.object b).isSome = true ∧
      m'.core.object b = m.core.object b
  cache : ∀ x ∈ m'.heap.blockCache, (m'.core.object x.base).isSome = true ∧
    m'.core.object x.base = m.core.object x.base
  direct : ∀ q, q ≠ p → m'.direct q = m.direct q

/-- The addresses of the client are those that were handed out and not freed. -/
structure Inv (sp : AddressSpace) (cfg : Config) (c : Client) : Prop where
  backed : Backed sp cfg c.memory
  isOpen : c.memory.core.isOpen = true
  tracked : ∀ q, q ∈ c.allocated ↔ c.memory.Given q
  unreferenced : ∀ q h mem, c.memory.direct q = some (h, mem) →
    mem.flags.isQueueReferenced = false

variable {sp : AddressSpace} {cfg : Config} {c c' : Client} {p : Nat}

theorem inv_new (sp : AddressSpace) (cfg : Config) (pid : Nat) : Inv sp cfg (new sp pid) := by
  refine ⟨⟨⟨(Memory.inv_new sp pid).consistent, ?_, ?_⟩, SimpleHeap.sound_new, ?_, ?_, ?_, rfl, rfl⟩,
    rfl, ?_, ?_⟩
  · intro a h mem ho
    cases ho
  · intro a h mem ho
    cases ho
  · rintro b n (hb | hb)
    · cases hb
    · cases hb
  · intro x hx
    cases hx
  · exact List.nodup_nil
  · intro q
    constructor
    · intro hq
      cases hq
    · rintro (hq | hq)
      · exact absurd rfl hq
      · exact absurd rfl hq
  · intro q h mem ho
    cases ho

theorem Inv.allocMemory (I : Inv sp cfg c) {node size addr : Nat} {flags : HsaMemFlags}
    {ans : AllocAnswers} (hreg : Regular cfg c (.allocMemory node size flags addr ans))
    {r : Status × Nat × Memory}
    (hrun : c.memory.allocMemory cfg node size flags addr ans = .ok r) :
    Inv sp cfg (c.granted r) := by
  have A := I.backed.allocMemoryAlign_allocates I.isOpen
    (Memory.allocAdds_of_le (Nat.zero_le _) _) hreg hrun
  obtain ⟨status, p, m⟩ := r
  rw [Allocates] at A
  by_cases hs : status = .success
  · rw [if_pos hs] at A
    simp only [granted, if_pos hs]
    refine ⟨A.backed, A.isOpen.trans I.isOpen, ?_, ?_⟩
    · intro q
      rw [List.mem_cons, A.given, I.tracked]
    · intro q h mem ho
      by_cases heq : q = p
      · subst heq
        exact A.new h mem ho
      · rw [A.direct q heq] at ho
        exact I.unreferenced q h mem ho
  · rw [if_neg hs] at A
    simp only [granted, if_neg hs]
    refine ⟨A.backed, A.isOpen.trans I.isOpen, ?_, ?_⟩
    · intro q
      rw [A.given, I.tracked]
    · intro q h mem ho
      rw [A.direct] at ho
      exact I.unreferenced q h mem ho

/-- What a regular release does: it takes the address back, or it fails and changes
nothing.  It fails where nothing was handed out, and where a queue uses the memory. -/
theorem freeMemory_cases {m : Memory} (B : Backed sp cfg m) (hopen : m.core.isOpen = true)
    (hreg : FreeRegular m p) :
    (∃ m', m.freeMemory cfg p = .ok (.success, m') ∧ m.Given p ∧ Takes sp cfg m p m' ∧
        ∀ h mem, m.direct p = some (h, mem) → mem.flags.isQueueReferenced = false) ∨
      ∃ status, status ≠ .success ∧ m.freeMemory cfg p = .ok (status, m) ∧
        (m.Given p → ∃ h mem, m.direct p = some (h, mem) ∧ mem.flags.isQueueReferenced = true) := by
  by_cases hpos : p = 0
  · refine Or.inr ⟨.invalidParameter, (fun h => by cases h), ?_,
      fun hgiven => absurd hpos (B.given_ne_zero hgiven)⟩
    rw [Memory.freeMemory, if_neg (by rw [hopen]; exact Bool.noConfusion), if_pos hpos]
  · cases hl : m.heap.live p with
    | some n =>
        obtain ⟨m', hfree, T⟩ := B.freeMemory_live hopen hl
        refine Or.inl ⟨m', hfree, Or.inl (by rw [hl]; exact fun h => by cases h), T, ?_⟩
        intro h mem ho
        rw [B.direct_of_live hl] at ho
        cases ho
    | none =>
        have hbase : m.heap.isBase p = false := by
          cases hb : m.heap.isBase p with
          | false => rfl
          | true => exact absurd hl (hreg hb)
        have hdirect : m.direct p = m.core.object p := by
          rw [Memory.direct, hbase, if_neg Bool.false_ne_true]
        rw [B.freeMemory_eq hopen hpos hl, Given, hl, hdirect]
        cases ho : m.core.object p with
        | none =>
            refine Or.inr ⟨.error, (fun h => by cases h), ?_, by simp⟩
            rw [B.settled.freeEntry_none ho]
            rfl
        | some r =>
            obtain ⟨h, mem⟩ := r
            cases hqueue : mem.flags.isQueueReferenced with
            | true =>
                refine Or.inr ⟨.error, (fun h => by cases h), ?_, fun _ => ⟨h, mem, rfl, hqueue⟩⟩
                rw [Core.Settled.freeEntry_referenced ho hqueue]
                rfl
            | false =>
                obtain ⟨core, hfree, K⟩ := B.settled.freeEntry_object ho hqueue
                refine Or.inl ⟨{ m with core := core }, ?_, by simp, B.drop hl hbase K, ?_⟩
                · rw [hfree]
                  rfl
                · intro h' mem' ho'
                  cases ho'
                  exact hqueue

/-- Where no queue uses any memory, an address is released if and only if the client owns it. -/
theorem Inv.freeMemory_cases (I : Inv sp cfg c) (hreg : FreeRegular c.memory p) :
    (∃ m', c.memory.freeMemory cfg p = .ok (.success, m') ∧ p ∈ c.allocated ∧
        Takes sp cfg c.memory p m') ∨
      ∃ status, status ≠ .success ∧ p ∉ c.allocated ∧
        c.memory.freeMemory cfg p = .ok (status, c.memory) := by
  rcases Client.freeMemory_cases I.backed I.isOpen hreg with
    ⟨m', hfree, hgiven, T, _⟩ | ⟨status, hs, hfree, hqueue⟩
  · exact Or.inl ⟨m', hfree, (I.tracked p).mpr hgiven, T⟩
  · refine Or.inr ⟨status, hs, ?_, hfree⟩
    intro hp
    obtain ⟨h, mem, ho, href⟩ := hqueue ((I.tracked p).mp hp)
    rw [I.unreferenced p h mem ho] at href
    cases href

theorem Inv.freeMemory (I : Inv sp cfg c) (hreg : FreeRegular c.memory p) {r : Status × Memory}
    (hrun : c.memory.freeMemory cfg p = .ok r) : Inv sp cfg (c.released p r) := by
  rcases I.freeMemory_cases hreg with ⟨m', hfree, _, T⟩ | ⟨status, hs, _, hfree⟩
  · rw [hfree] at hrun
    cases hrun
    refine ⟨T.backed, T.isOpen.trans I.isOpen, ?_, ?_⟩
    · intro q
      show q ∈ c.allocated.filter (· ≠ p) ↔ m'.Given q
      rw [T.given, List.mem_filter, I.tracked, and_comm]
      simp
    · intro q h mem ho
      change m'.direct q = some (h, mem) at ho
      have hne : q ≠ p := by
        rintro rfl
        exact ((T.given q).mp (Or.inr (by rw [ho]; exact nofun))).1 rfl
      rw [T.direct q hne] at ho
      exact I.unreferenced q h mem ho
  · rw [hfree] at hrun
    cases hrun
    simp only [released, if_neg hs]
    exact I

theorem step_inv (I : Inv sp cfg c) {e : Request} (hreg : Regular cfg c e)
    (h : step cfg c e = some c') : Inv sp cfg c' := by
  cases e with
  | allocMemory node size flags addr ans =>
      obtain ⟨r, hr, rfl⟩ := Option.map_eq_some_iff.mp h
      cases hrun : c.memory.allocMemory cfg node size flags addr ans with
      | error f =>
          rw [hrun] at hr
          cases hr
      | ok r' =>
          rw [hrun] at hr
          cases hr
          exact I.allocMemory hreg hrun
  | freeMemory p =>
      obtain ⟨r, hr, rfl⟩ := Option.map_eq_some_iff.mp h
      cases hrun : c.memory.freeMemory cfg p with
      | error f =>
          rw [hrun] at hr
          cases hr
      | ok r' =>
          rw [hrun] at hr
          cases hr
          exact I.freeMemory hreg hrun

/-- A release of an address touches nothing else. -/
theorem intact_of_takes {m m' : Memory} (T : Takes sp cfg m p m') : Intact m p m' := by
  have hblock : ∀ {b n}, m'.heap.Holds b n → (m'.core.object b).isSome = true := by
    intro b n hn
    obtain ⟨_, h, mem, ho, _⟩ := T.backed.block hn
    rw [ho]
    rfl
  refine ⟨?_, ?_, T.direct⟩
  · intro q n hq hl
    have hl' : m'.heap.live q = some n := by rw [T.live q hq, hl]
    obtain ⟨b, hlen, hlo, _, hhi⟩ := T.backed.live_inside hl'
    exact ⟨hl', b, hlen, hlo, hhi, hblock (Or.inl hlen), (T.kept b _ (Or.inl hlen)).2⟩
  · intro x hx
    have hn : m'.heap.Holds x.base x.length := Or.inr hx
    exact ⟨hblock hn, (T.kept _ _ hn).2⟩

/-- A call that fails has touched nothing. -/
theorem Inv.intact_refl (I : Inv sp cfg c) : Intact c.memory p c.memory := by
  have hblock : ∀ {b n}, c.memory.heap.Holds b n → (c.memory.core.object b).isSome = true := by
    intro b n hn
    obtain ⟨_, h, mem, ho, _⟩ := I.backed.block hn
    rw [ho]
    rfl
  refine ⟨?_, ?_, fun _ _ => rfl⟩
  · intro q n _ hl
    obtain ⟨b, hlen, hlo, _, hhi⟩ := I.backed.live_inside hl
    exact ⟨hl, b, hlen, hlo, hhi, hblock (Or.inl hlen), rfl⟩
  · intro x hx
    exact ⟨hblock (n := x.length) (Or.inr hx), rfl⟩

/-- The release of a block that is not the address of a live fragment succeeds. -/
theorem Inv.free_block (I : Inv sp cfg c) (hreg : ¬ FreeRegular c.memory p) :
    ∃ m', c.memory.freeMemory cfg p = .ok (.success, m') := by
  simp only [FreeRegular, not_forall, not_not] at hreg
  obtain ⟨hbase, hl⟩ := hreg
  obtain ⟨n, hn⟩ := SimpleHeap.isBase_iff.mp hbase
  obtain ⟨_, h, mem, ho, hb⟩ := I.backed.block hn
  have hpos := (I.backed.settled.bounds ho).1
  obtain ⟨core, hfree, _⟩ := I.backed.settled.freeEntry_object ho hb.unreferenced
  refine ⟨{ c.memory with core := core }, ?_⟩
  rw [I.backed.freeMemory_eq I.isOpen (Nat.ne_of_gt hpos) hl, hfree]
  rfl

/-- In every run all of whose calls are regular: the release of an address that the client
does not own fails and changes nothing if and only if it is regular, and a regular release
leaves every other live fragment with its block, the blocks of the cache and the other
objects as they are. -/
theorem free_names_argument {pid : Nat} (h : Reach (step cfg) (Regular cfg) (new sp pid) c) (p : Nat) :
    (p ∉ c.allocated → ((∃ status, status ≠ .success ∧
        c.memory.freeMemory cfg p = .ok (status, c.memory)) ↔ FreeRegular c.memory p)) ∧
      (FreeRegular c.memory p → ∀ status m', c.memory.freeMemory cfg p = .ok (status, m') →
        Intact c.memory p m') := by
  have I : Inv sp cfg c := by
    refine h.invariant (inv_new sp cfg pid) ?_
    intro c e c' hc hok hstep
    exact step_inv hc hok hstep
  refine ⟨fun hp => ⟨?_, ?_⟩, ?_⟩
  · rintro ⟨status, hs, hfree⟩
    refine Decidable.byContradiction fun hreg => ?_
    obtain ⟨m', hfree'⟩ := I.free_block hreg
    rw [hfree] at hfree'
    cases hfree'
    exact hs rfl
  · intro hreg
    rcases I.freeMemory_cases hreg with ⟨_, _, hmem, _⟩ | ⟨status, hs, _, hfree⟩
    · exact absurd hmem hp
    · exact ⟨status, hs, hfree⟩
  · intro hreg status m' hfree
    rcases I.freeMemory_cases hreg with ⟨m₁, hfree₁, _, T⟩ | ⟨status₁, _, _, hfree₁⟩
    · rw [hfree] at hfree₁
      cases hfree₁
      exact intact_of_takes T
    · rw [hfree] at hfree₁
      cases hfree₁
      exact I.intact_refl

/-- The small machine with the sub-allocator switched on. -/
def subConfig : Config := { smallConfig with enableThunkSubAllocator := true }

/-- A request for a page. -/
def onePage : Request := .allocMemory 1 4096 {} 0 {}

/-- Two pages are allocated, the second is freed, and another release of it fails. -/
theorem free_names_argument_run :
    ∃ c, Reach (step subConfig) (Regular subConfig) (new smallSpace 1) c ∧
      c.allocated = [2 ^ 28] ∧ FreeRegular c.memory (2 ^ 28 + 4096) ∧
      ∃ status, status ≠ .success ∧
        c.memory.freeMemory subConfig (2 ^ 28 + 4096) = .ok (status, c.memory) := by
  have hrun : (runAll (step subConfig) (Regular subConfig) (new smallSpace 1)
      [onePage, onePage, .freeMemory (2 ^ 28 + 4096)]).map
        (fun c => (c.allocated, decide (FreeRegular c.memory (2 ^ 28 + 4096)))) =
        some ([2 ^ 28], true) := by
    decide
  obtain ⟨c, hc, heq⟩ := Option.map_eq_some_iff.mp hrun
  simp only [Prod.mk.injEq, decide_eq_true_eq] at heq
  have hreach := reach_of_runAll hc
  have hfree := ((free_names_argument hreach (2 ^ 28 + 4096)).1 (by rw [heq.1]; decide)).mpr heq.2
  exact ⟨c, hreach, heq.1, heq.2, hfree⟩

/-- The only page of a block is freed twice: the second release succeeds, and deletes the
block that is in the cache. -/
theorem double_free :
    ¬ ∀ c, Reach (step subConfig) (fun _ _ => True) (new smallSpace 1) c → ∀ p, p ∉ c.allocated →
      ∃ status, status ≠ .success ∧ c.memory.freeMemory subConfig p = .ok (status, c.memory) := by
  intro hall
  have hrun : (runAll (step subConfig) (fun _ _ => True) (new smallSpace 1)
      [onePage, .freeMemory (2 ^ 28)]).map
        (fun c => (c.allocated, (c.memory.freeMemory subConfig (2 ^ 28)).toOption.map (·.1))) =
        some ([], some .success) := by
    decide
  obtain ⟨c, hc, heq⟩ := Option.map_eq_some_iff.mp hrun
  simp only [Prod.mk.injEq] at heq
  obtain ⟨status, hs, hfree⟩ := hall c (reach_of_runAll hc) (2 ^ 28) (by rw [heq.1]; exact List.not_mem_nil)
  have hsame := heq.2
  rw [hfree] at hsame
  exact hs (Option.some.inj hsame)

end Client

end RocDxg
