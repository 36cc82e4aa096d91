import RocDxg.Memory.Attempts

/-!
# Every pointer in its own range

In every run of regular calls a pointer query finds the addresses of the ranges that the client
has asked for, and no others, and an export of such an address has the offset in its allocation
(`Pointers.pointers_owned`).

The invariant places the entries: those under the address of an object lie in its reserved
range, and these ranges are apart; those under an address of the user lie outside all of them.
So only the ranges of user pointers overlap, and they are stacked.
-/

namespace RocDxg

open Lib (OrdMap Stacked Reach runAll reach_of_runAll)
open GpuMemory (Creates Shape describe)

namespace Pointers

variable {sp : AddressSpace} {cfg : Config} {s s' : Pointers}

/-! ## The invariant -/

/-- Where an entry lies: in the reserved range of its object, or outside all of them. -/
inductive Placed (sp : AddressSpace) (addr : Nat) (e : Allocation) (mem : GpuMemory) : Prop
  | own (hhome : mem.home = addr) (hgpu : e.gpuAddr = addr) (hle : e.size ≤ mem.size)
  | user (huser : e.userptr = true) (hcpu : e.cpuAddr = addr) (hout : Outside sp addr e.size)
      (hlt : addr + e.size < 2 ^ 64)

/-- The object of an entry is one that a client has for itself. -/
structure Private (userSize : OrdMap Nat) (e : Allocation) (mem : GpuMemory) : Prop where
  unshared : mem.flags.isImportedVramIpc = false
  unreferenced : mem.flags.isQueueReferenced = false
  backed : mem.flags.isVirtual = false
  requested : e.userptr = true → userSize.find? e.handle = some e.size
  domain : e.userptr = true → mem.domain = .kUserMemory
  kept : e.userptr = true → mem.flags.isShared = false

/-- The invariant of the runs. -/
structure Inv (sp : AddressSpace) (s : Pointers) : Prop where
  memory : Memory.Inv sp s.mem
  isOpen : s.mem.core.isOpen = true
  placed : ∀ {a e mem}, s.mem.core.allocationMap.find? a = some e →
    s.mem.core.objects.find? e.handle = some mem → Placed sp a e mem
  priv : ∀ {a e mem}, s.mem.core.allocationMap.find? a = some e →
    s.mem.core.objects.find? e.handle = some mem → Private s.userSize e mem
  positive : ∀ {a e}, s.mem.core.allocationMap.find? a = some e → 0 < e.size
  stacked : Stacked s.lengths
  asked : ∀ {r}, r ∈ s.asked → ∃ e, s.mem.core.allocationMap.find? r.base = some e ∧
    r.size ≤ e.size
  entered : ∀ {a e}, s.mem.core.allocationMap.find? a = some e → ⟨a, e.size⟩ ∈ s.asked
  /-- No memory of the user has been exported. -/
  exported : ∀ {a r}, s.dmabufFd.find? a = some r → r.1 < s.mem.core.nextHandle ∧
    ∀ {k e}, s.mem.core.allocationMap.find? k = some e → e.handle = r.1 → e.userptr = false

theorem inv_new (sp : AddressSpace) (pid : Nat) : Inv sp (new sp pid) where
  memory := Memory.inv_new sp pid
  isOpen := rfl
  placed := nofun
  priv := nofun
  positive := nofun
  stacked := by
    intro x hx
    cases hx
  asked := nofun
  entered := nofun
  exported := nofun

theorem lengths_eq_some {a n : Nat} : s.lengths.find? a = some n ↔
    ∃ e, s.mem.core.allocationMap.find? a = some e ∧ e.size = n := by
  rw [lengths, OrdMap.find?_mapVal, Option.map_eq_some_iff]

/-- A reserved range lies apart from every entry of another address. -/
theorem Placed.apart {hs : Heaps} (S : hs.Sound sp) {a b n N : Nat} {e : Allocation}
    {mem : GpuMemory} (hb : hs.reserved b = some N) (hle : n ≤ N)
    (hreserved : hs.reserved mem.home = some mem.size) (h : Placed sp a e mem) (hne : a ≠ b) :
    a + e.size ≤ b ∨ b + n ≤ a := by
  cases h with
  | own hhome _ hsize =>
      rw [hhome] at hreserved
      rcases S.reserved_apart hreserved hb hne with hbefore | hbehind
      · left
        omega
      · right
        omega
  | user _ _ hout _ =>
      obtain ⟨k, hk⟩ := S.reserved_eq_some.mp hb
      have hbounds := (S.partition k).used_bounds hk
      rcases hout k with hbelow | habove
      · left
        omega
      · right
        omega

/-- No entry is at a reserved address but that of the object. -/
theorem Placed.home_eq {hs : Heaps} (S : hs.Sound sp) {a N : Nat} {e : Allocation}
    {mem : GpuMemory} (ha : hs.reserved a = some N) (hpos : 0 < e.size)
    (h : Placed sp a e mem) : mem.home = a := by
  cases h with
  | own hhome => exact hhome
  | user _ _ hout _ =>
      obtain ⟨k, hk⟩ := S.reserved_eq_some.mp ha
      have hbounds := (S.partition k).used_bounds hk
      have hout := hout k
      omega

/-- The managers have changed, and no address with them. -/
theorem Inv.waits (I : Inv sp s) {m : Memory} (h : Memory.Waits sp s.mem m) :
    Inv sp { s with mem := m } := by
  have hmemory := h.inv I.memory
  obtain ⟨hs, _, _, rfl⟩ := h
  exact ⟨hmemory, I.isOpen, I.placed, I.priv, I.positive, I.stacked, I.asked, I.entered,
    I.exported⟩

/-! ## New entries -/

section Enter

variable {mem : GpuMemory} {hs : Heaps} {addr : Nat} {e : Allocation}

/-- The reserved ranges of the objects that were there before. -/
theorem Inv.still_reserved (I : Inv sp s) (hcreates : Creates sp s.mem.core.heaps mem hs) {h : Nat}
    {mem₀ : GpuMemory} (hm : s.mem.core.objects.find? h = some mem₀) :
    mem₀.home ≠ mem.home ∧ hs.reserved mem₀.home = some mem₀.size := by
  have hreserved := I.memory.consistent.reserved hm
  have hne : mem₀.home ≠ mem.home := by
    intro heq
    rw [heq, hcreates.fresh] at hreserved
    cases hreserved
  refine ⟨hne, ?_⟩
  rw [hcreates.reserved, Function.update_of_ne hne]
  exact hreserved

/-- No entry is at the address of a new object. -/
theorem Inv.home_vacant (I : Inv sp s) (hcreates : Creates sp s.mem.core.heaps mem hs) :
    s.mem.core.allocationMap.find? mem.home = none := by
  cases he : s.mem.core.allocationMap.find? mem.home with
  | none => rfl
  | some e₀ =>
      obtain ⟨mem₀, hm⟩ := I.memory.consistent.live he
      have hreserved : hs.reserved mem.home = some mem.size := by
        rw [hcreates.reserved, Function.update_self]
      have hhome := (I.placed he hm).home_eq hcreates.sound hreserved (I.positive he)
      exact absurd hhome (I.still_reserved hcreates hm).1

theorem find?_enterTwice (c : Core) (hs : Heaps) (mem : GpuMemory) (addr : Nat) (e : Allocation)
    (k : Nat) : (Memory.enterTwice c hs mem addr e).allocationMap.find? k =
      if k = mem.home then some e else if k = addr then some e else c.allocationMap.find? k := by
  show ((c.allocationMap.insert addr e).insert mem.home e).find? k = _
  rw [OrdMap.find?_insert, OrdMap.find?_insert]

/-- An entry is the new one under one of its addresses, or was there. -/
theorem entry_enterTwice {c : Core} {k : Nat} {e₀ : Allocation}
    (h : (Memory.enterTwice c hs mem addr e).allocationMap.find? k = some e₀) :
    (e₀ = e ∧ (k = mem.home ∨ k = addr)) ∨
      (c.allocationMap.find? k = some e₀ ∧ k ≠ mem.home ∧ k ≠ addr) := by
  rw [find?_enterTwice] at h
  split at h
  next heq =>
    cases h
    exact .inl ⟨rfl, .inl heq⟩
  next hne =>
    split at h
    next heq =>
      cases h
      exact .inl ⟨rfl, .inr heq⟩
    next hne' => exact .inr ⟨h, hne, hne'⟩

/-- The range of a new object lies apart from all entries. -/
theorem Inv.apart_new (I : Inv sp s) (hcreates : Creates sp s.mem.core.heaps mem hs) {n : Nat}
    (hle : n ≤ mem.size) : Lib.Apart s.lengths mem.home n := by
  intro k l hk hne
  have hreserved : hs.reserved mem.home = some mem.size := by
    rw [hcreates.reserved, Function.update_self]
  obtain ⟨e₀, he₀, rfl⟩ := lengths_eq_some.mp hk
  obtain ⟨mem₀, hm⟩ := I.memory.consistent.live he₀
  exact (I.placed he₀ hm).apart hcreates.sound hreserved hle (I.still_reserved hcreates hm).2 hne

/-- The lengths of the entries, with those of the new object. -/
theorem Inv.stacked_enter (I : Inv sp s) (hcreates : Creates sp s.mem.core.heaps mem hs)
    (haddr : Placed sp addr e mem) (hle : e.size ≤ mem.size)
    (hstacked : Stacked (s.lengths.insert addr e.size)) :
    Stacked ((Memory.enterTwice s.mem.core hs mem addr e).allocationMap.mapVal
      Allocation.size) := by
  have hlengths : (Memory.enterTwice s.mem.core hs mem addr e).allocationMap.mapVal
      Allocation.size = (s.lengths.insert addr e.size).insert mem.home e.size := by
    refine OrdMap.ext_find? fun k => ?_
    rw [OrdMap.find?_mapVal, find?_enterTwice, OrdMap.find?_insert, OrdMap.find?_insert, lengths,
      OrdMap.find?_mapVal]
    split
    next => rfl
    next => split <;> rfl
  have hreserved : hs.reserved mem.home = some mem.size := by
    rw [hcreates.reserved, Function.update_self]
  rw [hlengths]
  refine hstacked.insert ?_
  intro k l hk hne
  rw [OrdMap.find?_insert] at hk
  split at hk
  next heq =>
    cases hk
    exact haddr.apart hcreates.sound hreserved hle hreserved (heq ▸ hne) |>.imp (heq ▸ ·) (heq ▸ ·)
  next => exact I.apart_new hcreates hle k l hk hne

/-- A new object, entered under its own address and under another, which may be the same. -/
theorem Inv.enter (I : Inv sp s) (hcreates : Creates sp s.mem.core.heaps mem hs)
    (hhandle : e.handle = s.mem.core.nextHandle)
    (hmemory : Memory.Inv sp { s.mem with core := Memory.enterTwice s.mem.core hs mem addr e })
    (hown : Placed sp mem.home e mem) (haddr : Placed sp addr e mem) (hle : e.size ≤ mem.size)
    {userSize : OrdMap Nat} (hpriv : Private userSize e mem) (hpos : 0 < e.size)
    (hkept : ∀ k, k ≠ s.mem.core.nextHandle → userSize.find? k = s.userSize.find? k)
    (hstacked : Stacked (s.lengths.insert addr e.size))
    (hgrow : ∀ e₀, s.mem.core.allocationMap.find? addr = some e₀ → e₀.size ≤ e.size)
    {asked : List Asked} (hold : s.asked ⊆ asked)
    (hnew : ∀ r ∈ asked, r ∈ s.asked ∨ r.size = e.size ∧ (r.base = mem.home ∨ r.base = addr))
    (hhomeAsked : ⟨mem.home, e.size⟩ ∈ asked) (haddrAsked : ⟨addr, e.size⟩ ∈ asked) :
    Inv sp { s with
      mem := { s.mem with core := Memory.enterTwice s.mem.core hs mem addr e }
      userSize := userSize
      asked := asked } := by
  have hvacant := I.home_vacant hcreates
  have hobject : ∀ k, (Memory.enterTwice s.mem.core hs mem addr e).objects.find? k =
      if k = s.mem.core.nextHandle then some mem else s.mem.core.objects.find? k :=
    fun k => OrdMap.find?_insert ..
  have hother : ∀ {k e₀}, s.mem.core.allocationMap.find? k = some e₀ →
      e₀.handle ≠ s.mem.core.nextHandle := by
    intro k e₀ he₀
    obtain ⟨mem₀, hm⟩ := I.memory.consistent.live he₀
    exact I.memory.consistent.handle_ne hm
  refine ⟨hmemory, I.isOpen, ?_, ?_, ?_, I.stacked_enter hcreates haddr hle hstacked, ?_, ?_, ?_⟩
  · intro k e₀ mem₀ he₀ hm
    rcases entry_enterTwice he₀ with ⟨rfl, hk⟩ | ⟨he₀, _⟩
    · rw [hobject, if_pos hhandle] at hm
      cases hm
      rcases hk with rfl | rfl
      · exact hown
      · exact haddr
    · rw [hobject, if_neg (hother he₀)] at hm
      exact I.placed he₀ hm
  · intro k e₀ mem₀ he₀ hm
    rcases entry_enterTwice he₀ with ⟨rfl, _⟩ | ⟨he₀, _⟩
    · rw [hobject, if_pos hhandle] at hm
      cases hm
      exact hpriv
    · rw [hobject, if_neg (hother he₀)] at hm
      have hp := I.priv he₀ hm
      refine ⟨hp.unshared, hp.unreferenced, hp.backed, ?_, hp.domain, hp.kept⟩
      intro huser
      rw [hkept _ (hother he₀)]
      exact hp.requested huser
  · intro k e₀ he₀
    rcases entry_enterTwice he₀ with ⟨rfl, _⟩ | ⟨he₀, _⟩
    · exact hpos
    · exact I.positive he₀
  · intro r hr
    rcases hnew r hr with hr | ⟨hsize, hbase⟩
    · obtain ⟨e₀, he₀, hle₀⟩ := I.asked hr
      by_cases hk : r.base = addr
      · refine ⟨e, ?_, Nat.le_trans hle₀ (hgrow e₀ (hk ▸ he₀))⟩
        rw [find?_enterTwice, if_pos hk, ite_self]
      · refine ⟨e₀, ?_, hle₀⟩
        rw [find?_enterTwice, if_neg, if_neg hk]
        · exact he₀
        · intro hhome
          rw [hhome, hvacant] at he₀
          cases he₀
    · refine ⟨e, ?_, Nat.le_of_eq hsize⟩
      rw [find?_enterTwice]
      rcases hbase with hbase | hbase
      · rw [if_pos hbase]
      · rw [if_pos hbase, ite_self]
  · intro k e₀ he₀
    rcases entry_enterTwice he₀ with ⟨rfl, rfl | rfl⟩ | ⟨he₀, _⟩
    · exact hhomeAsked
    · exact haddrAsked
    · exact hold (I.entered he₀)
  · intro a r hr
    obtain ⟨hlt, hplain⟩ := I.exported hr
    refine ⟨Nat.lt_succ_of_lt hlt, ?_⟩
    intro k e₀ he₀ hh
    rcases entry_enterTwice he₀ with ⟨rfl, _⟩ | ⟨he₀, _⟩
    · exact absurd (hhandle.symm.trans hh) (Nat.ne_of_gt hlt)
    · exact hplain he₀ hh

end Enter

/-! ## The calls -/

/-- An object that was created has a size, and is not smaller than it was asked to be. -/
theorem size_of_creates {hs hs' : Heaps} {mem : GpuMemory} {dev : SharedDevice}
    {info : GpuMemoryCreateInfo} {va : Bool} (hcreates : Creates sp hs mem hs')
    (hshape : Shape (describe dev info) va mem) (hlt : info.size < 2 ^ 64) :
    0 < info.size ∧ info.size ≤ mem.size := by
  have hreserved : hs'.reserved mem.home = some mem.size := by
    rw [hcreates.reserved, Function.update_self]
  have hpos := (hcreates.sound.reserved_bounds hreserved).2.1
  have hsize : mem.size = GpuMemory.adjustSize dev info.domain info.size := hshape.size
  rw [hsize] at hpos ⊢
  constructor
  · refine Nat.pos_of_ne_zero fun hzero => ?_
    rw [hzero, GpuMemory.adjustSize_zero] at hpos
    exact Nat.lt_irrefl 0 hpos
  · rcases GpuMemory.adjustSize_cases dev info.domain info.size with heq | ⟨n, _, _, heq⟩
    · exact Nat.le_of_eq heq.symm
    · rw [heq] at hpos ⊢
      exact le_alignUp_of_pos hlt hpos

theorem Inv.allocMemory (I : Inv sp s) {node size addr : Nat} {flags : HsaMemFlags}
    {ans : AllocAnswers} (hreg : Regular cfg sp s (.allocMemory node size flags addr ans))
    (hrun : s.allocMemory cfg node size flags addr ans = .ok s') : Inv sp s' := by
  obtain ⟨hlt, hreg, hown⟩ := hreg
  obtain ⟨⟨status, p, m⟩, halloc, heq⟩ := ok_of_map hrun
  rcases I.memory.allocMemory_cases I.isOpen hreg hown halloc with
    ⟨hstatus, hwaits⟩ | ⟨rfl, info, rfl, hvirtual, henters⟩
  · simp only [if_neg hstatus] at heq
    exact heq ▸ I.waits hwaits
  · simp only [if_true] at heq
    obtain ⟨dev, mem, hs, rfl, hcreates, hshape, rfl⟩ := henters
    obtain ⟨hpos, hle⟩ := size_of_creates hcreates hshape hlt
    have hmemory := I.memory.enter hcreates
      (e := ⟨s.mem.core.nextHandle, mem.home, mem.home, info.size, false⟩) rfl
    have htwice : (s.mem.core.withObject hs mem).setEntry mem.home
        ⟨s.mem.core.nextHandle, mem.home, mem.home, info.size, false⟩ =
        Memory.enterTwice s.mem.core hs mem mem.home
          ⟨s.mem.core.nextHandle, mem.home, mem.home, info.size, false⟩ := by
      simp only [Memory.enterTwice, Core.setEntry, OrdMap.insert_insert]
    rw [htwice] at hmemory heq
    have hplaced : Placed sp mem.home
        ⟨s.mem.core.nextHandle, mem.home, mem.home, info.size, false⟩ mem :=
      .own rfl rfl hle
    have hvacant := I.home_vacant hcreates
    rw [← heq]
    refine I.enter hcreates rfl hmemory hplaced hplaced hle ?_ hpos (fun _ _ => rfl)
      (I.stacked.insert (I.apart_new hcreates hle)) ?_ (List.subset_cons_self _ _) ?_
      List.mem_cons_self List.mem_cons_self
    · refine ⟨?_, ?_, ?_, (fun h => by cases h), (fun h => by cases h), fun h => by cases h⟩
      · rw [hshape.flags]
        rfl
      · rw [hshape.flags]
        rfl
      · rw [hshape.flags]
        exact hvirtual
    · intro e₀ he₀
      rw [hvacant] at he₀
      cases he₀
    · intro r hr
      rcases List.mem_cons.mp hr with rfl | hr
      · exact .inr ⟨rfl, .inl rfl⟩
      · exact .inl hr

/-- An entry of the user that a request finds is not smaller than the request. -/
theorem mappedUserptr_spec {m : Memory} {addr size : Nat}
    (h : (m.mappedUserptr addr size).isSome = true) :
    ∃ e, m.core.allocationMap.find? addr = some e ∧ size ≤ e.size := by
  rw [Memory.mappedUserptr] at h
  split at h
  next => cases h
  next e he =>
    split at h
    next hlarge => exact ⟨e, he, hlarge.2⟩
    next => cases h

/-- Where a request finds nothing, an entry at the address is a smaller one of the user. -/
theorem Inv.absent (I : Inv sp s) {addr size : Nat} {a : Answers} (hpage : addr % 4096 = 0)
    (haddr : addr < 2 ^ 64) (h : s.mem.mapExisting addr size a = .ok none) {e : Allocation}
    (he : s.mem.core.allocationMap.find? addr = some e) : e.size < size := by
  have hstart : alignDown 64 addr 4096 = addr := by
    rw [alignDown_of_lt haddr]
    omega
  have hblock : s.mem.heap.blockBase addr = 0 := by
    rw [I.memory.heap, SimpleHeap.blockBase]
    split
    · rfl
    · rfl
  obtain ⟨mem, hm⟩ := I.memory.consistent.live he
  have hunshared := (I.priv he hm).unshared
  simp only [Memory.mapExisting, hstart, hblock, ne_eq, not_true_eq_false, if_false, he, hm,
    hunshared, Bool.false_eq_true] at h
  split at h
  next huser =>
    simp only [Memory.mappedUserptr, he] at h
    split at h
    next => cases h
    next hsmall =>
      simp only [huser, true_and, ge_iff_le, Nat.not_le] at hsmall
      exact hsmall
  next =>
    split at h
    next => cases h
    next => cases h

/-- The pages that a range of whole pages touches are its own. -/
theorem pages_of_userPages {addr size : Nat} (h : UserPages sp s addr size) :
    alignDown 64 addr 4096 = addr ∧ Memory.alignedSize addr size = size := by
  obtain ⟨haddr, hsize, hlt, _, _⟩ := h
  have hdown : alignDown 64 addr 4096 = addr := by
    rw [alignDown_of_lt (by omega)]
    omega
  refine ⟨hdown, ?_⟩
  rw [Memory.alignedSize, hdown, u64_of_lt hlt, alignUp_of_lt (by omega), sub64_of_le]
  · omega
  · omega
  · omega

/-- A new user pointer of whole pages. -/
theorem Inv.enterUser (I : Inv sp s) {addr size p : Nat} {a : Answers} {m : Memory}
    (hpages : UserPages sp s addr size) (hexisting : s.mem.mapExisting addr size a = .ok none)
    (henters : Memory.EntersUser sp s.mem addr size p m) :
    Inv sp { s with
      mem := m
      userSize := s.userSize.insert s.mem.core.nextHandle size
      asked := ⟨addr, size⟩ :: ⟨p, size⟩ :: s.asked } := by
  obtain ⟨dev, mem, hs, rfl, hcreates, hshape, rfl⟩ := henters
  obtain ⟨haddr, _, hlt, hout, hstacked⟩ := hpages
  obtain ⟨hpos, hle⟩ := size_of_creates hcreates hshape (show size < 2 ^ 64 by omega)
  have hvacant : s.mem.core.Vacant addr := by
    intro h mem₀ hm hhome
    have hreserved := I.memory.consistent.reserved hm
    rw [hhome] at hreserved
    obtain ⟨k, hk⟩ := I.memory.consistent.sound.reserved_eq_some.mp hreserved
    have hbounds := (I.memory.consistent.sound.partition k).used_bounds hk
    have hapart := hout k
    have hpos : 0 < size := hpos
    omega
  refine I.enter (e := Memory.userEntry s.mem.core addr size mem.home) hcreates rfl
    (I.memory.enterUserptr hcreates hvacant rfl rfl) (.own rfl rfl hle)
    (.user rfl rfl hout hlt) hle ?_ hpos ?_ hstacked ?_ ?_ ?_ ?_ ?_
  · refine ⟨?_, ?_, ?_, fun _ => ?_, fun _ => hshape.domain, fun _ => ?_⟩
    · rw [hshape.flags]
      rfl
    · rw [hshape.flags]
      rfl
    · rw [hshape.flags]
      rfl
    · exact (OrdMap.find?_insert ..).trans (if_pos rfl)
    · rw [hshape.flags]
      rfl
  · intro k hk
    rw [OrdMap.find?_insert, if_neg hk]
  · intro e₀ he₀
    exact Nat.le_of_lt (I.absent haddr (by omega) hexisting he₀)
  · intro r hr
    exact List.mem_cons_of_mem _ (List.mem_cons_of_mem _ hr)
  · intro r hr
    rcases List.mem_cons.mp hr with rfl | hr
    · exact .inr ⟨rfl, .inr rfl⟩
    · rcases List.mem_cons.mp hr with rfl | hr
      · exact .inr ⟨rfl, .inl rfl⟩
      · exact .inl hr
  · exact List.mem_cons_of_mem _ List.mem_cons_self
  · exact List.mem_cons_self

/-- A range inside one that is entered may be asked for as well. -/
theorem Inv.askAgain (I : Inv sp s) {r : Asked} {e : Allocation}
    (he : s.mem.core.allocationMap.find? r.base = some e) (hle : r.size ≤ e.size) :
    Inv sp { s with asked := r :: s.asked } := by
  refine ⟨I.memory, I.isOpen, I.placed, I.priv, I.positive, I.stacked, ?_, ?_, I.exported⟩
  · intro r' hr'
    rcases List.mem_cons.mp hr' with rfl | hr'
    · exact ⟨e, he, hle⟩
    · exact I.asked hr'
  · exact fun he' => List.mem_cons_of_mem _ (I.entered he')

theorem Inv.mapMemoryToGPUNodes (I : Inv sp s) {addr size node : Nat} {a : Answers}
    (hreg : Regular cfg sp s (.mapMemoryToGPUNodes addr size node a))
    (hrun : s.mapMemoryToGPUNodes cfg addr size node a = .ok s') : Inv sp s' := by
  obtain ⟨⟨status, alternate, m⟩, hmap, heq⟩ := ok_of_map hrun
  rw [Memory.mapMemoryToGPUNodes, if_neg (by rw [I.isOpen]; exact Bool.noConfusion)] at hmap
  split at hmap
  next =>
    cases hmap
    exact heq ▸ I
  next =>
    obtain ⟨r, hexisting⟩ := I.memory.mapExisting_ok addr size a
    simp only [hexisting] at heq
    rw [hexisting] at hmap
    cases r with
    | some r =>
        cases hmap
        simp only at heq
        split at heq
        next =>
          split at heq
          next hfound =>
            obtain ⟨e, he, hle⟩ := mappedUserptr_spec hfound
            exact heq ▸ I.askAgain he hle
          next => exact heq ▸ I
        next => exact heq ▸ I
    | none =>
        have hmap : s.mem.mapUserptr cfg addr (alignDown 64 addr 4096)
            (Memory.alignedSize addr size) node a = .ok (status, alternate, m) := hmap
        have hreg := hreg none (by rw [hexisting]; rfl) rfl
        cases hdev : cfg.getWddmdev node with
        | none =>
            rw [Memory.mapUserptr, hdev] at hmap
            cases hmap
            exact heq ▸ I
        | some dev =>
            have hpages := (hreg dev hdev).1
            obtain ⟨hdown, hsize⟩ := pages_of_userPages hpages
            rw [hdown, hsize] at hmap
            have hfits : ∀ dev ∈ cfg.getWddmdev node, (describe dev
                { domain := .kUserMemory, size := size }).Fits s.mem.core.heaps 0 0 := by
              intro dev' hdev'
              have hfits := (hreg dev' hdev').2
              rw [Memory.userptrInfo, hsize] at hfits
              exact hfits
            rcases I.memory.mapUserptr_cases hfits hmap with
              ⟨hstatus, hwaits⟩ | ⟨rfl, p, rfl, henters⟩
            · simp only [if_neg hstatus] at heq
              exact heq ▸ I.waits hwaits
            · simp only [if_true, Option.getD_some] at heq
              exact heq ▸ I.enterUser hpages hexisting henters

/-- An entry is erased with its object. -/
theorem Inv.freeEntry_cases (I : Inv sp s) {addr : Nat} {status : Status} {c : Core}
    (hrun : s.mem.core.freeEntry addr = .ok (status, c)) :
    (status ≠ .success ∧ c = s.mem.core) ∨ (status = .success ∧ ∃ e mem,
      s.mem.core.allocationMap.find? addr = some e ∧
      s.mem.core.objects.find? e.handle = some mem ∧
      c = (s.mem.core.eraseEntry addr).deleteObject e.handle mem) := by
  rw [Core.freeEntry] at hrun
  cases he : s.mem.core.allocationMap.find? addr with
  | none =>
      rw [he] at hrun
      cases hrun
      exact .inl ⟨(fun h => by cases h), rfl⟩
  | some e =>
      obtain ⟨mem, hm⟩ := I.memory.consistent.live he
      have hpriv := I.priv he hm
      simp only [he, hm, hpriv.unreferenced, hpriv.unshared, Bool.false_eq_true, if_false] at hrun
      cases hrun
      exact .inr ⟨rfl, e, mem, rfl, hm, rfl⟩

/-- An entry that is the last of its object is erased. -/
theorem Inv.erase (I : Inv sp s) {addr : Nat} {e : Allocation} {mem : GpuMemory}
    (he : s.mem.core.allocationMap.find? addr = some e)
    (hm : s.mem.core.objects.find? e.handle = some mem) (halone : s.mem.core.Alone addr) :
    Inv sp { s with
      mem := { s.mem with core := (s.mem.core.eraseEntry addr).deleteObject e.handle mem }
      asked := s.asked.filter fun r => r.base ≠ addr } := by
  have hhome := I.memory.consistent.home_of_alone halone he hm
  have hfind : ∀ {k e₀}, ((s.mem.core.eraseEntry addr).deleteObject e.handle
      mem).allocationMap.find? k = some e₀ →
      k ≠ addr ∧ s.mem.core.allocationMap.find? k = some e₀ := by
    intro k e₀ he₀
    change (s.mem.core.allocationMap.erase addr).find? k = some e₀ at he₀
    rw [OrdMap.find?_erase] at he₀
    split at he₀
    next => cases he₀
    next hne => exact ⟨hne, he₀⟩
  have hobject : ∀ {k mem₀}, ((s.mem.core.eraseEntry addr).deleteObject e.handle
      mem).objects.find? k = some mem₀ → s.mem.core.objects.find? k = some mem₀ := by
    intro k mem₀ hm₀
    change (s.mem.core.objects.erase e.handle).find? k = some mem₀ at hm₀
    rw [OrdMap.find?_erase] at hm₀
    split at hm₀
    next => cases hm₀
    next => exact hm₀
  refine ⟨I.memory.frees (.deleted he hm mem.flags) halone, I.isOpen, ?_, ?_, ?_, ?_, ?_, ?_, ?_⟩
  · exact fun he₀ hm₀ => I.placed (hfind he₀).2 (hobject hm₀)
  · exact fun he₀ hm₀ => I.priv (hfind he₀).2 (hobject hm₀)
  · exact fun he₀ => I.positive (hfind he₀).2
  · have hlengths : lengths { s with
        mem := { s.mem with core := (s.mem.core.eraseEntry addr).deleteObject e.handle mem } } =
        s.lengths.erase addr := by
      refine OrdMap.ext_find? fun k => ?_
      show ((s.mem.core.allocationMap.erase addr).mapVal Allocation.size).find? k = _
      rw [OrdMap.find?_mapVal, OrdMap.find?_erase, OrdMap.find?_erase, lengths,
        OrdMap.find?_mapVal]
      split <;> rfl
    refine (congrArg Stacked hlengths).mpr (I.stacked.erase (n := e.size) ?_)
    intro k l hk hne
    obtain ⟨e₀, he₀, rfl⟩ := lengths_eq_some.mp hk
    obtain ⟨mem₀, hm₀⟩ := I.memory.consistent.live he₀
    have hreserved := I.memory.consistent.reserved hm
    have hle : e.size ≤ mem.size := by
      cases I.placed he hm with
      | own _ _ hle => exact hle
      | user _ _ hout _ =>
          obtain ⟨k', hk'⟩ := I.memory.consistent.sound.reserved_eq_some.mp hreserved
          have hbounds := (I.memory.consistent.sound.partition k').used_bounds hk'
          have hapart := hout k'
          have hpos := I.positive he
          omega
    exact (I.placed he₀ hm₀).apart I.memory.consistent.sound (hhome ▸ hreserved) hle
      (I.memory.consistent.reserved hm₀) hne
  · intro r hr
    obtain ⟨hr, hne⟩ := List.mem_filter.mp hr
    obtain ⟨e₀, he₀, hle⟩ := I.asked hr
    refine ⟨e₀, ?_, hle⟩
    show (s.mem.core.allocationMap.erase addr).find? r.base = some e₀
    rw [OrdMap.find?_erase, if_neg (by simpa using hne)]
    exact he₀
  · intro k e₀ he₀
    obtain ⟨hne, he₀⟩ := hfind he₀
    exact List.mem_filter.mpr ⟨I.entered he₀, by simpa using hne⟩
  · intro a r hr
    obtain ⟨hlt, hplain⟩ := I.exported hr
    exact ⟨hlt, fun he₀ => hplain (hfind he₀).2⟩

theorem Inv.freeMemory (I : Inv sp s) {addr : Nat} (hreg : Regular cfg sp s (.freeMemory addr))
    (hrun : s.freeMemory cfg addr = .ok s') : Inv sp s' := by
  obtain ⟨⟨status, m⟩, hfree, heq⟩ := ok_of_map hrun
  rw [Memory.freeMemory, if_neg (by rw [I.isOpen]; exact Bool.noConfusion)] at hfree
  split at hfree
  next =>
    cases hfree
    exact heq ▸ I
  next haddr =>
    rw [I.memory.free_eq _ _ haddr] at hfree
    obtain ⟨⟨status', c⟩, hentry, hsame⟩ := ok_of_map hfree
    cases hsame
    rcases I.freeEntry_cases hentry with ⟨hstatus, rfl⟩ | ⟨rfl, e, mem, he, hm, rfl⟩
    · simp only [if_neg hstatus] at heq
      exact heq ▸ I
    · simp only [if_true] at heq
      have halone : s.mem.core.Alone addr := by
        cases huser : e.userptr with
        | true => exact hreg e he huser
        | false => exact I.memory.sole addr e he huser
      exact heq ▸ I.erase he hm halone

/-- Memory of the user has nothing to export. -/
theorem Inv.plain_of_exported (I : Inv sp s) {k : Nat} {e : Allocation} {mem : GpuMemory}
    {x : ExportAnswers} (he : s.mem.core.allocationMap.find? k = some e)
    (hm : s.mem.core.objects.find? e.handle = some mem)
    (hexport : (exportPhysicalHandle mem x).isSome = true) : e.userptr = false := by
  cases huser : e.userptr with
  | false => rfl
  | true =>
      have hpriv := I.priv he hm
      have hfile : mem.memFd = false := by
        cases I.memory.consistent.housed hm with
        | address _ _ hfd _ =>
            refine Bool.eq_false_iff.mpr fun hfile => ?_
            have hdomain := (hfd hfile).symm.trans (hpriv.domain huser)
            cases hdomain
        | handle _ hfd _ => exact hfd
      rw [exportPhysicalHandle, hfile, hpriv.kept huser] at hexport
      cases hexport

/-- What an export that succeeds has found and done. -/
theorem exportDMABufHandle_spec {p offset : Nat} {x : ExportAnswers} {fd : Option Nat}
    (hrun : s.exportDMABufHandle p x = .ok (.success, fd, offset, s')) :
    ∃ a e, s.mem.core.allocationMap.floor? p = some (a, e) ∧ offset = sub64 p e.gpuAddr ∧
      ((s' = s ∧ (s.fd? a e).isSome = true) ∨
        ∃ mem n, s.mem.core.objects.find? e.handle = some mem ∧
          exportPhysicalHandle mem x = some n ∧
          s' = { s with dmabufFd := s.dmabufFd.insert a (e.handle, n) }) := by
  rw [exportDMABufHandle] at hrun
  split at hrun
  next => cases hrun
  next =>
    split at hrun
    next => cases hrun
    next a e hfloor =>
      split at hrun
      next n hfd =>
        cases hrun
        exact ⟨a, e, hfloor, rfl, .inl ⟨rfl, by rw [hfd]; rfl⟩⟩
      next =>
        split at hrun
        next => cases hrun
        next mem hm =>
          split at hrun
          next => cases hrun
          next n hn =>
            cases hrun
            exact ⟨a, e, hfloor, rfl, .inr ⟨mem, n, hm, hn, rfl⟩⟩

/-- An export changes the descriptor of one entry, if it changes anything. -/
theorem exportDMABufHandle_cases {p : Nat} {x : ExportAnswers}
    {r : Status × Option Nat × Nat × Pointers} (hrun : s.exportDMABufHandle p x = .ok r) :
    r.2.2.2 = s ∨ ∃ fd offset, r = (.success, fd, offset, r.2.2.2) := by
  rw [exportDMABufHandle] at hrun
  repeat' split at hrun
  all_goals
    cases hrun
    try exact .inl rfl
  exact .inr ⟨_, _, rfl⟩

theorem Inv.exportDMABufHandle (I : Inv sp s) {p : Nat} {x : ExportAnswers}
    {r : Status × Option Nat × Nat × Pointers} (hrun : s.exportDMABufHandle p x = .ok r) :
    Inv sp r.2.2.2 := by
  rcases exportDMABufHandle_cases hrun with heq | ⟨fd, offset, heq⟩
  · exact heq ▸ I
  · rw [heq] at hrun
    obtain ⟨a, e, hfloor, _, ⟨heq, _⟩ | ⟨mem, n, hm, hn, heq⟩⟩ := exportDMABufHandle_spec hrun
    · exact heq ▸ I
    · rw [heq]
      refine ⟨I.memory, I.isOpen, I.placed, I.priv, I.positive, I.stacked, I.asked, I.entered, ?_⟩
      intro a' r' hr'
      rw [OrdMap.find?_insert] at hr'
      split at hr'
      next =>
        cases hr'
        refine ⟨I.memory.consistent.below hm, ?_⟩
        intro k e' he' hh
        have hm' : s.mem.core.objects.find? e'.handle = some mem := hh ▸ hm
        exact I.plain_of_exported he' hm' (by rw [hn]; rfl)
      next => exact I.exported hr'

/-! ## What the functions say -/

theorem Inv.sizeRequested_eq (I : Inv sp s) {a : Nat} {e : Allocation}
    (he : s.mem.core.allocationMap.find? a = some e) : s.sizeRequested e = e.size := by
  obtain ⟨mem, hm⟩ := I.memory.consistent.live he
  rw [sizeRequested]
  cases huser : e.userptr with
  | false => rfl
  | true => rw [if_pos rfl, (I.priv he hm).requested huser, Option.getD_some]

/-- Entries do not reach the end of the address space. -/
theorem Inv.end_lt (I : Inv sp s) {a : Nat} {e : Allocation}
    (he : s.mem.core.allocationMap.find? a = some e) : a + e.size < 2 ^ 64 := by
  obtain ⟨mem, hm⟩ := I.memory.consistent.live he
  cases I.placed he hm with
  | own hhome _ hle =>
      have hreserved := I.memory.consistent.reserved hm
      have hbounds := I.memory.consistent.sound.reserved_bounds hreserved
      rw [hhome] at hbounds
      omega
  | user _ _ _ hlt => exact hlt

/-- An address that is covered lies in the range of the nearest entry. -/
theorem Inv.nearest (I : Inv sp s) {p : Nat} (hcovers : s.Covers p) :
    ∃ a e, s.mem.core.allocationMap.floor? p = some (a, e) ∧ p < a + e.size := by
  obtain ⟨r, hr, hle, hlt⟩ := hcovers
  obtain ⟨e₀, he₀, hsize⟩ := I.asked hr
  have hcover : Lib.Covers s.lengths r.base e₀.size p :=
    ⟨lengths_eq_some.mpr ⟨e₀, he₀, rfl⟩, hle, by omega⟩
  obtain ⟨a, n, hfloor, hlt⟩ := Lib.stacked_iff.mp I.stacked _ _ _ hcover
  obtain ⟨e, hentry, rfl⟩ := Lib.floor?_mapVal.mp hfloor
  exact ⟨a, e, hentry, hlt⟩

/-- What a query finds: the nearest entry, if the address lies in its range. -/
theorem Inv.query_iff (I : Inv sp s) {p : Nat} (hp : p ≠ 0) {info : PointerInfo} :
    s.queryPointerInfo p = .ok (.success, some info) ↔
      ∃ a e, s.mem.core.allocationMap.floor? p = some (a, e) ∧ p < a + e.size ∧
        info = ⟨if e.userptr then .registeredUser else .allocated, e.size, e.cpuAddr,
          e.gpuAddr⟩ := by
  rw [queryPointerInfo, if_neg (by rw [I.isOpen]; exact Bool.noConfusion), if_neg hp]
  cases hfloor : s.mem.core.allocationMap.floor? p with
  | none => simp
  | some r =>
      obtain ⟨a, e⟩ := r
      obtain ⟨he, _, _⟩ := Lib.floor?_eq_some.mp hfloor
      obtain ⟨mem, hm⟩ := I.memory.consistent.live he
      simp only [I.sizeRequested_eq he, u64_of_lt (I.end_lt he), hm, (I.priv he hm).backed,
        Bool.false_eq_true, if_false, Option.some.injEq, Prod.mk.injEq]
      by_cases hlt : p < a + e.size
      · rw [if_pos hlt]
        cases huser : e.userptr with
        | true =>
            simp only [if_true, Except.ok.injEq, Prod.mk.injEq, true_and, Option.some.injEq]
            constructor
            · rintro rfl
              exact ⟨a, e, ⟨rfl, rfl⟩, hlt, by rw [huser, if_pos rfl]⟩
            · rintro ⟨_, _, ⟨rfl, rfl⟩, _, hinfo⟩
              rw [hinfo, huser, if_pos rfl]
        | false =>
            simp only [Bool.false_eq_true, if_false, Except.ok.injEq, Prod.mk.injEq, true_and,
              Option.some.injEq]
            constructor
            · rintro rfl
              exact ⟨a, e, ⟨rfl, rfl⟩, hlt, by rw [huser, if_neg Bool.false_ne_true]⟩
            · rintro ⟨_, _, ⟨rfl, rfl⟩, _, hinfo⟩
              rw [hinfo, huser, if_neg Bool.false_ne_true]
      · rw [if_neg hlt]
        constructor
        · intro h
          cases h
        · rintro ⟨_, _, ⟨rfl, rfl⟩, hlt', _⟩
          exact absurd hlt' hlt

theorem Inv.owns (I : Inv sp s) {p : Nat} (hp : p ≠ 0) : s.Owns p := by
  have howner : ∀ {info}, s.queryPointerInfo p = .ok (.success, some info) →
      ∃ r ∈ s.asked, r.Mem p ∧ r.size = info.sizeInBytes ∧
        (r.base = info.cpuAddress ∨ r.base = info.gpuAddress) := by
    intro info hquery
    obtain ⟨a, e, hfloor, hlt, rfl⟩ := (I.query_iff hp).mp hquery
    obtain ⟨he, hle, _⟩ := Lib.floor?_eq_some.mp hfloor
    obtain ⟨mem, hm⟩ := I.memory.consistent.live he
    refine ⟨⟨a, e.size⟩, I.entered he, ⟨hle, hlt⟩, rfl, ?_⟩
    cases I.placed he hm with
    | own _ hgpu _ => exact .inr hgpu.symm
    | user _ hcpu _ _ => exact .inl hcpu.symm
  refine ⟨⟨?_, ?_⟩, howner⟩
  · rintro ⟨info, hquery⟩
    obtain ⟨r, hr, hmem, _⟩ := howner hquery
    exact ⟨r, hr, hmem⟩
  · intro hcovers
    obtain ⟨a, e, hfloor, hlt⟩ := I.nearest hcovers
    exact ⟨_, (I.query_iff hp).mpr ⟨a, e, hfloor, hlt, rfl⟩⟩

theorem Inv.exports (I : Inv sp s) {p : Nat} (hcovers : s.Covers p) : s.Exports p := by
  intro x fd offset s' hrun
  obtain ⟨a, e, hfloor, rfl, hexport⟩ := exportDMABufHandle_spec hrun
  obtain ⟨a', e', hfloor', hlt⟩ := I.nearest hcovers
  rw [hfloor] at hfloor'
  cases hfloor'
  obtain ⟨he, hle, _⟩ := Lib.floor?_eq_some.mp hfloor
  obtain ⟨mem, hm⟩ := I.memory.consistent.live he
  have hplain : e.userptr = false := by
    rcases hexport with ⟨_, hfd⟩ | ⟨mem', n, hm', hn, _⟩
    · rw [fd?] at hfd
      cases hr : s.dmabufFd.find? a with
      | none =>
          rw [hr] at hfd
          cases hfd
      | some r =>
          rw [hr, Option.bind_some] at hfd
          split at hfd
          next hh => exact (I.exported hr).2 he hh.symm
          next => cases hfd
    · exact I.plain_of_exported he hm' (by rw [hn]; rfl)
  have hgpu : e.gpuAddr = a := by
    cases I.placed he hm with
    | own _ hgpu _ => exact hgpu
    | user huser =>
        rw [hplain] at huser
        cases huser
  have hoffset : sub64 p e.gpuAddr = p - a := by
    have hend := I.end_lt he
    rw [hgpu, sub64_of_le hle (by omega)]
  refine ⟨⟨a, e.size⟩, I.entered he, e, he, ?_, ⟨hle, hlt⟩, hoffset, ?_⟩
  · rcases hexport with ⟨rfl, hfd⟩ | ⟨mem', n, _, _, rfl⟩
    · exact hfd
    · simp [fd?, OrdMap.find?_insert]
  · rw [hoffset]
    show p - a < e.size
    omega

/-- Before all ranges there is no entry to export. -/
theorem Inv.exports_of_below (I : Inv sp s) {p : Nat} (hbelow : s.Below p) : s.Exports p := by
  intro x fd offset s' hrun
  obtain ⟨a, e, hfloor, _⟩ := exportDMABufHandle_spec hrun
  obtain ⟨he, hle, _⟩ := Lib.floor?_eq_some.mp hfloor
  exact absurd (hbelow _ (I.entered he)) (Nat.not_lt.mpr hle)

/-! ## Runs -/

theorem step_inv {e : PointerCall} (I : Inv sp s) (hreg : Regular cfg sp s e)
    (h : step cfg s e = some s') : Inv sp s' := by
  have hcall := eq_ok_of_toOption h
  cases e with
  | allocMemory => exact I.allocMemory hreg hcall
  | mapMemoryToGPUNodes => exact I.mapMemoryToGPUNodes hreg hcall
  | freeMemory => exact I.freeMemory hreg hcall
  | exportDMABufHandle p x =>
      obtain ⟨r, hrun, rfl⟩ := ok_of_map hcall
      exact I.exportDMABufHandle hrun

/-- In every run of regular calls, and for every address: a query finds it exactly if it lies in
a range that the client has asked for, and reports such a range; and an export of an address of
a range has the offset in its allocation, while one of an address before all ranges fails. -/
theorem pointers_owned {pid p : Nat} (hp : p ≠ 0)
    (hreach : Reach (step cfg) (Regular cfg sp) (new sp pid) s) :
    s.Owns p ∧ (s.Covers p ∨ s.Below p → s.Exports p) := by
  have I : Inv sp s := hreach.invariant (inv_new sp pid) fun _ _ _ I hreg h => step_inv I hreg h
  refine ⟨I.owns hp, ?_⟩
  rintro (hcovers | hbelow)
  · exact I.exports hcovers
  · exact I.exports_of_below hbelow

/-- A page of memory, and two mappings of the user's memory that overlap.  Behind the page and
before the other ranges an address is exported, with no harm to those of the ranges. -/
theorem pointers_owned_run :
    ∃ s, Reach (step smallConfig) (Regular smallConfig smallSpace) (new smallSpace 1) s ∧
      s.asked = [⟨0x6000, 0x3000⟩, ⟨0x10020000, 0x3000⟩, ⟨0x5000, 0x3000⟩, ⟨0x10010000, 0x3000⟩,
        ⟨0x10000000, 0x1000⟩] ∧ s.Owns 0x7000 ∧ s.Exports 0x10000010 ∧ s.Exports 0x4000 := by
  have hrun : (runAll (step smallConfig) (Regular smallConfig smallSpace) (new smallSpace 1)
      [.allocMemory 1 0x1000 {} 0 {}, .mapMemoryToGPUNodes 0x5000 0x3000 1 {},
        .mapMemoryToGPUNodes 0x6000 0x3000 1 {},
        .exportDMABufHandle 0x10002000 { shared := some 5 }]).map (fun s => s.asked) =
      some [⟨0x6000, 0x3000⟩, ⟨0x10020000, 0x3000⟩, ⟨0x5000, 0x3000⟩, ⟨0x10010000, 0x3000⟩,
        ⟨0x10000000, 0x1000⟩] := by
    decide +kernel
  obtain ⟨s, hs, hasked⟩ := Option.map_eq_some_iff.mp hrun
  have hreach := reach_of_runAll hs
  have hcovers : s.Covers 0x10000010 := by
    rw [Covers, hasked]
    decide
  have hbelow : s.Below 0x4000 := by
    rw [Below, hasked]
    decide
  exact ⟨s, hreach, hasked, (pointers_owned (by decide) hreach).1,
    (pointers_owned (by decide) hreach).2 (Or.inl hcovers),
    (pointers_owned (by decide) hreach).2 (Or.inr hbelow)⟩

/-- A mapping inside another one hides what lies behind it, and an address behind the last
allocation is exported with an offset that is larger than the allocation. -/
theorem nearest_entry_is_not_the_owner :
    (¬ ∀ s, Reach (step smallConfig) (fun _ _ => True) (new smallSpace 1) s →
      ∀ p, p ≠ 0 → s.Owns p) ∧
    ¬ ∀ s, Reach (step smallConfig) (fun _ _ => True) (new smallSpace 1) s →
      ∀ p, p ≠ 0 → s.Exports p := by
  constructor
  · intro hall
    have hrun : (runAll (step smallConfig) (fun _ _ => True) (new smallSpace 1)
        [.mapMemoryToGPUNodes 0x5000 0x3000 1 {}, .mapMemoryToGPUNodes 0x6000 0x1000 1 {}]).map
          (fun s => (s.asked, (s.queryPointerInfo 0x7000).toOption)) =
        some ([⟨0x6000, 0x1000⟩, ⟨0x10010000, 0x1000⟩, ⟨0x5000, 0x3000⟩, ⟨0x10000000, 0x3000⟩],
          some (.error, none)) := by
      decide +kernel
    obtain ⟨s, hs, hproj⟩ := Option.map_eq_some_iff.mp hrun
    obtain ⟨hasked, hquery⟩ := Prod.mk.inj hproj
    have hcovers : s.Covers 0x7000 := by
      rw [Covers, hasked]
      decide
    obtain ⟨info, hfound⟩ := (hall s (reach_of_runAll hs) 0x7000 (by decide)).found.mpr hcovers
    rw [eq_ok_of_toOption hquery] at hfound
    cases hfound
  · intro hall
    have hrun : (runAll (step smallConfig) (fun _ _ => True) (new smallSpace 1)
        [.allocMemory 1 0x1000 {} 0 {}]).map (fun s => (s.asked,
          (s.exportDMABufHandle 0x10002000 { shared := some 5 }).toOption.map
            fun r => (r.1, r.2.1, r.2.2.1))) =
        some ([⟨0x10000000, 0x1000⟩], some (.success, none, 0x2000)) := by
      decide +kernel
    obtain ⟨s, hs, hproj⟩ := Option.map_eq_some_iff.mp hrun
    obtain ⟨hasked, hexport⟩ := Prod.mk.inj hproj
    obtain ⟨⟨status, fd, offset, s'⟩, hcall, heq⟩ := Option.map_eq_some_iff.mp hexport
    cases heq
    obtain ⟨r, hr, _, _, _, hmem, _⟩ := hall s (reach_of_runAll hs) 0x10002000 (by decide) _ _ _ _
      (eq_ok_of_toOption hcall)
    have hcovers : s.Covers 0x10002000 := ⟨r, hr, hmem⟩
    rw [Covers, hasked] at hcovers
    revert hcovers
    decide

end Pointers

end RocDxg
