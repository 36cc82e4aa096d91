import RocDxg.VaMgr.Runs

/-!
# What a request gets

`AllocImpl` searches the free list twice, the second time for the size with the alignment
added.  `allocImpl_search` says where its results lie, and that it fails only when there is
no room for the larger size.

A request for a fixed address is served from the free fragment around the address, unless
that is the first fragment of the map, at which the search stops, or begins below the
address, when the map loses the range.  Below the managed range the search fails an
assertion.  `Session.fixed_address` says that a request meets none of these if and only if
it is honoured and reversible.
-/

namespace RocDxg

open Lib (OrdMap MultiMap Node TileMap Reach runAll reach_of_runAll)

namespace VaMgr

/-- The range `[addr, addr + bytes)` lies in the free fragment at `base`. -/
structure Inside (m : VaMgr) (bytes addr base : Nat) (f : Fragment) : Prop where
  find : m.fragMap.find? base = some f
  isFree : f.isFree = true
  base_le : base ≤ addr
  end_le : addr + bytes ≤ base + f.size

/-- Every fragment lies in the managed range. -/
def Within (start size : Nat) (m : VaMgr) : Prop :=
  ∀ a f, m.fragMap.find? a = some f → start ≤ a ∧ a + f.size ≤ start + size

/-- Some free fragment has at least `n` bytes. -/
def Room (m : VaMgr) (n : Nat) : Prop :=
  ∃ a f, m.fragMap.find? a = some f ∧ f.isFree = true ∧ n ≤ f.size

variable {start size : Nat} {m m' : VaMgr}

theorem Partition.within (P : Partition start size m) : Within start size m := fun _ _ hf =>
  ⟨(P.arena.tiles.bounds hf).1, (P.arena.tiles.bounds hf).2.2⟩

theorem Partition.inside_of_node (P : Partition start size m) {n : Node}
    (hn : n ∈ m.freeList.nodes) {bytes p : Nat} (hlo : n.val ≤ p) (hhi : p + bytes ≤ n.val + n.key) :
    Inside m bytes p n.val ⟨some n.id, n.key, true⟩ :=
  ⟨P.find?_of_node hn, rfl, hlo, hhi⟩

/-- There is no room for more than the nodes of the free list have. -/
theorem Partition.not_room (P : Partition start size m) {n : Nat}
    (hnodes : ∀ x ∈ m.freeList.nodes, x.key < n) : ¬ m.Room n := by
  rintro ⟨a, f, hf, hfree, hle⟩
  obtain ⟨i, _, hnode⟩ := P.node_of_free hf hfree
  exact absurd (hnodes _ hnode) (Nat.not_lt.mpr hle)

/-! ## The search for a fragment -/

/-- What the loop of `AllocImpl` returns. -/
structure Searches (m : VaMgr) (bytes align newAlign left i alignBytes p : Nat) (m' : VaMgr) :
    Prop where
  found : p ≠ 0 → (0 < align → p % align = 0) ∧ ∃ base f, Inside m bytes p base f
  kept : p = 0 → m' = m
  exact_size : align = 0 → 0 < left → p = 0 → ∀ n ∈ m.freeList.nodes, n.key < alignBytes
  slack : 2 ≤ left + i → 0 < left → p = 0 → ∀ n ∈ m.freeList.nodes, n.key < bytes + newAlign

theorem allocLoop_search (P : Partition start size m) {bytes align newAlign : Nat}
    (halign : align ≤ newAlign)
    (hwrap : align ≠ 0 → bytes < 2 ^ 63 → bytes + newAlign < 2 ^ 64) (left i alignBytes : Nat)
    (hb : alignBytes = if i = 0 then bytes else bytes + newAlign) :
    ∃ p m', m.allocLoop bytes align newAlign left i alignBytes = some (p, m') ∧
      Searches m bytes align newAlign left i alignBytes p m' := by
  have hstart := P.range.start_pos
  have hend := P.range.end_lt
  induction left generalizing i alignBytes with
  | zero =>
      refine ⟨0, m, rfl, fun hp => absurd rfl hp, fun _ => rfl, ?_, ?_⟩
      · exact fun _ hleft => absurd hleft (Nat.lt_irrefl 0)
      · exact fun _ hleft => absurd hleft (Nat.lt_irrefl 0)
  | succ left ih =>
      rw [allocLoop]
      cases hlb : m.freeList.lowerBound alignBytes with
      | none =>
          have hnodes := MultiMap.lowerBound_eq_none.mp hlb
          refine ⟨0, m, rfl, fun hp => absurd rfl hp, fun _ => rfl, fun _ _ _ => hnodes, ?_⟩
          intro _ _ _ n hn
          have := hnodes n hn
          split at hb <;> omega
      | some n =>
          obtain ⟨hn, hge⟩ := MultiMap.lowerBound_mem hlb
          have hbytes : bytes ≤ n.key := by
            split at hb <;> omega
          have hbounds : start ≤ n.val ∧ 0 < n.key ∧ n.val + n.key ≤ start + size :=
            P.arena.tiles.bounds (P.find?_of_node hn)
          have hbase : ∀ m', (0 < align → n.val % align = 0) →
              Searches m bytes align newAlign (left + 1) i alignBytes n.val m' := by
            intro m' hdvd
            have hne : n.val ≠ 0 := by omega
            refine ⟨fun _ => ⟨hdvd, n.val, _, P.inside_of_node hn (Nat.le_refl _) (by omega)⟩, ?_, ?_,
              ?_⟩
            · exact fun hp => absurd hp hne
            · exact fun _ _ hp => absurd hp hne
            · exact fun _ _ hp => absurd hp hne
          simp only [P.find?_of_node hn, ne_eq, not_true_eq_false, if_false]
          by_cases hzero : align = 0
          · simp only [if_pos hzero, if_true]
            exact ⟨_, _, rfl, hbase _ fun hpos => absurd hzero (Nat.ne_of_gt hpos)⟩
          · simp only [if_neg hzero]
            split
            next hdelta => exact ⟨_, _, rfl, hbase _ fun _ => hdelta⟩
            next hdelta =>
              have hmod := Nat.mod_lt n.val (Nat.pos_of_ne_zero hzero)
              split
              next hi =>
                subst hi
                obtain ⟨p, m', hloop, S⟩ := ih 1 (u64 (alignBytes + newAlign)) (by
                  rw [if_neg Nat.one_ne_zero, hb, if_pos rfl, u64_of_lt (hwrap hzero (by omega))])
                refine ⟨p, m', hloop, S.found, S.kept, fun heq => absurd heq hzero, ?_⟩
                exact fun hleft _ => S.slack (by omega) (by omega)
              next hi =>
                rw [if_neg hi] at hb
                have hp : u64 (n.val + align - n.val % align) = n.val + align - n.val % align :=
                  u64_of_lt (by omega)
                have hne : n.val + align - n.val % align ≠ 0 := by omega
                rw [hp]
                refine ⟨_, _, rfl, fun _ => ⟨fun _ => ?_, n.val, ⟨some n.id, n.key, true⟩, ?_⟩, ?_, ?_, ?_⟩
                · exact Nat.mod_eq_zero_of_dvd (dvd_next align n.val)
                · exact P.inside_of_node hn (by omega) (by omega)
                · exact fun hp => absurd hp hne
                · exact fun heq => absurd heq hzero
                · exact fun _ _ hp => absurd hp hne

/-- `AllocImpl` returns zero and changes nothing, or an aligned range of a free fragment.
It finds one where there is room for the size and the rounded alignment, and without an
alignment where there is room for the size. -/
theorem allocImpl_search (P : Partition start size m) (bytes align : Nat)
    (halign : align + m.minAlign - 1 < 2 ^ 64)
    (htotal : bytes + alignUp 64 align m.minAlign < 2 ^ 64) :
    ∃ p m', m.allocImpl bytes align = some (p, m') ∧
      (p ≠ 0 → (0 < align → p % align = 0) ∧ ∃ base f, Inside m bytes p base f) ∧
      (m.Room (bytes + alignUp 64 align m.minAlign) → p ≠ 0) ∧
      (align = 0 → m.Room bytes → p ≠ 0) ∧
      (p = 0 → m' = m) := by
  have hup : align ≤ alignUp 64 align m.minAlign := le_alignUp P.minAlign_pos halign
  have hsearch : ∃ p m', m.allocImpl bytes align = some (p, m') ∧ Searches m bytes align
      (if align = 0 then m.minAlign else alignUp 64 align m.minAlign)
      ((if align = 0 then 0 else 1) + 1) 0 bytes p m' := by
    rw [allocImpl]
    refine allocLoop_search P ?_ ?_ _ _ _ rfl
    · split <;> omega
    · intro hne _
      rw [if_neg hne]
      exact htotal
  obtain ⟨p, m', himpl, S⟩ := hsearch
  have hexact : align = 0 → m.Room bytes → p ≠ 0 := by
    intro hzero hroom hp
    exact P.not_room (S.exact_size hzero (Nat.succ_pos _) hp) hroom
  refine ⟨p, m', himpl, S.found, ?_, hexact, S.kept⟩
  intro hroom hp
  by_cases hzero : align = 0
  · obtain ⟨a, f, hf, hfree, hle⟩ := hroom
    exact hexact hzero ⟨a, f, hf, hfree, by omega⟩ hp
  · have hnodes := S.slack (by simp [hzero]) (Nat.succ_pos _) hp
    rw [if_neg hzero] at hnodes
    exact P.not_room hnodes hroom

/-- A manager whose first free fragment is too small for the slack of a request. -/
theorem allocImpl_search_run :
    ∃ p m', ((new 0x1800 0x10000 0x1000).allocImpl 0x1000 0x3000) = some (p, m') ∧
      p % 0x3000 = 0 ∧ p ≠ 0 := by
  have hrange : Managed 0x1800 0x10000 := ⟨by decide, by decide, by decide⟩
  have P : Partition 0x1800 0x10000 (new 0x1800 0x10000 0x1000) := partition_new hrange (by decide)
  obtain ⟨p, m', himpl, hfound, hroom, _⟩ := allocImpl_search P 0x1000 0x3000 (by decide)
    (by decide)
  have hp : p ≠ 0 := hroom ⟨0x1800, _, rfl, rfl, by decide⟩
  exact ⟨p, m', himpl, (hfound hp).1 (by decide), hp⟩

/-! ## Free addresses -/

/-- An address of a free fragment. -/
def FreeAt (m : VaMgr) (a : Nat) : Prop :=
  ∃ base f, m.fragMap.find? base = some f ∧ f.isFree = true ∧ base ≤ a ∧ a < base + f.size

/-- The free addresses are those of the range that no used fragment has. -/
theorem Partition.freeAt_iff (P : Partition start size m) {a : Nat} :
    m.FreeAt a ↔ (start ≤ a ∧ a < start + size) ∧
      ∀ b n, m.used b = some n → ¬ (b ≤ a ∧ a < b + n) := by
  constructor
  · rintro ⟨base, f, hf, hfree, hlo, hhi⟩
    have hbounds : start ≤ base ∧ 0 < f.size ∧ base + f.size ≤ start + size :=
      P.arena.tiles.bounds hf
    refine ⟨by omega, ?_⟩
    rintro b n hb ⟨hlo', hhi'⟩
    obtain ⟨g, hg, hused, rfl⟩ := used_eq_some.mp hb
    by_cases heq : base = b
    · rw [heq, hg] at hf
      cases hf
      rw [hfree] at hused
      cases hused
    · have happart : base + f.size ≤ b ∨ b + g.size ≤ base := P.arena.tiles.apart hf hg heq
      omega
  · rintro ⟨⟨hlo, hhi⟩, hused⟩
    obtain ⟨k, f, hf, hk, hk'⟩ := P.arena.tiles.cover hlo hhi
    refine ⟨k, f, hf, ?_, hk, hk'⟩
    cases hfree : f.isFree with
    | true => rfl
    | false => exact absurd ⟨hk, hk'⟩ (hused k f.size (used_eq_some.mpr ⟨f, hf, hfree, rfl⟩))

/-- Releasing what an allocation took makes its range free again, and nothing else. -/
theorem Takes.free_restores {bytes p : Nat} (P : Partition start size m)
    (T : Takes start size m bytes p m') :
    (∀ a, (m'.free p).FreeAt a ↔ m'.FreeAt a ∨ p ≤ a ∧ a < p + bytes) ∧
      ∀ a, (m'.free p).FreeAt a ↔ m.FreeAt a := by
  obtain ⟨P', hused⟩ := free_spec T.partition p
  have hsame : (m'.free p).used = m.used := by
    rw [hused, T.used, Function.update_idem]
    exact Function.update_eq_self_iff.mpr T.fresh.symm
  have hback : ∀ a, (m'.free p).FreeAt a ↔ m.FreeAt a := by
    intro a
    rw [P'.freeAt_iff, P.freeAt_iff, hsame]
  refine ⟨?_, hback⟩
  intro a
  have hp : m'.used p = some bytes := by rw [T.used, Function.update_self]
  have hother : ∀ b n, b ≠ p → (m'.used b = some n ↔ m.used b = some n) := by
    intro b n hb
    rw [T.used, Function.update_of_ne hb]
  have hbounds := T.partition.used_bounds hp
  rw [hback, P.freeAt_iff, T.partition.freeAt_iff]
  constructor
  · rintro ⟨hrange, hfree⟩
    by_cases hin : p ≤ a ∧ a < p + bytes
    · exact Or.inr hin
    · refine Or.inl ⟨hrange, ?_⟩
      intro b n hb
      by_cases heq : b = p
      · rw [heq, hp] at hb
        cases hb
        rw [heq]
        exact hin
      · exact hfree b n ((hother b n heq).mp hb)
  · rintro (⟨hrange, hfree⟩ | hin)
    · refine ⟨hrange, ?_⟩
      intro b n hb
      have hne : b ≠ p := by
        rintro rfl
        rw [T.fresh] at hb
        cases hb
      exact hfree b n ((hother b n hne).mpr hb)
    · refine ⟨by omega, ?_⟩
      intro b n hb
      have hne : b ≠ p := by
        rintro rfl
        rw [T.fresh] at hb
        cases hb
      have := T.partition.used_apart ((hother b n hne).mpr hb) hp hne
      omega

/-! ## The fragment around an address -/

/-- Up to an address the last fragment is the one around it. -/
theorem Partition.upto_inside (P : Partition start size m) {bytes addr base : Nat} {f : Fragment}
    (hpos : 0 < bytes) (I : Inside m bytes addr base f) :
    m.fragMap.upto addr = m.fragMap.below base ++ [(base, f)] := by
  refine OrdMap.upto_of_gap I.find I.base_le ?_
  intro e he hlt
  have hend := I.end_le
  have hapart : base + f.size ≤ e.1 ∨ e.1 + e.2.size ≤ base :=
    P.arena.tiles.apart I.find (OrdMap.find?_eq_some.mpr he) (Nat.ne_of_lt hlt)
  omega

/-- Only the first fragment has nothing below it. -/
theorem Partition.below_eq_nil (P : Partition start size m) {base : Nat} {f : Fragment}
    (hf : m.fragMap.find? base = some f) : m.fragMap.below base = [] ↔ base = start := by
  constructor
  · intro hnil
    by_contra hne
    have hlo : start ≤ base := (P.arena.tiles.bounds hf).1
    obtain ⟨g, hg⟩ := P.arena.tiles.first (Nat.lt_add_of_pos_right P.range.size_pos)
    have hmem : (start, g) ∈ m.fragMap.below base :=
      OrdMap.mem_below.mpr ⟨OrdMap.find?_eq_some.mp hg, by omega⟩
    rw [hnil] at hmem
    cases hmem
  · rintro rfl
    refine List.eq_nil_iff_forall_not_mem.mpr fun e he => ?_
    obtain ⟨hmem, hlt⟩ := OrdMap.mem_below.mp he
    have := (P.arena.tiles.bounds (OrdMap.find?_eq_some.mpr hmem)).1
    omega

/-- What the scan takes is around the address. -/
theorem Within.inside_of_scan (W : Within start size m) (hend : start + size < 2 ^ 63)
    {bytes addr base : Nat} {f : Fragment} {l : List (Nat × Fragment)}
    (hl : ∀ e ∈ l, e ∈ m.fragMap.entries) (h : fixedScan bytes addr l = some (base, f)) :
    Inside m bytes addr base f := by
  induction l with
  | nil => cases h
  | cons e l ih =>
      cases l with
      | nil => cases h
      | cons e' l =>
          obtain ⟨b, g⟩ := e
          rw [fixedScan] at h
          split at h
          next => exact ih (fun x hx => hl x (List.mem_cons_of_mem _ hx)) h
          next hno =>
            split at h
            next => cases h
            next hlt =>
              cases h
              have hfind := OrdMap.find?_eq_some.mpr (hl _ List.mem_cons_self)
              have hhi := (W base f hfind).2
              simp only [not_or, Bool.not_eq_false] at hno
              obtain ⟨hbytes, hbase, hsum, hfree⟩ := hno
              have htop : u64 (base + f.size) = base + f.size := u64_of_lt (by omega)
              rw [htop] at hsum hlt
              have hsize : u64 (addr + bytes) = addr + bytes := u64_of_lt (by omega)
              exact ⟨hfind, hfree, by omega, by omega⟩

theorem Partition.inside_of_scan (P : Partition start size m) {bytes addr base : Nat}
    {f : Fragment} {l : List (Nat × Fragment)} (hl : ∀ e ∈ l, e ∈ m.fragMap.entries)
    (h : fixedScan bytes addr l = some (base, f)) : Inside m bytes addr base f :=
  P.within.inside_of_scan P.range.end_lt hl h

/-- The fragment that a request for an address takes is around it. -/
theorem Within.fixed_inside (W : Within start size m) (hend : start + size < 2 ^ 63)
    {bytes align addr base : Nat} {frag : Fragment}
    (h : m.fixedFragment bytes align addr = some (base, frag)) :
    Inside m bytes addr base frag ∧ addr < base + frag.size := by
  rw [fixedFragment] at h
  split at h
  next =>
    have I : Inside m bytes addr base frag := by
      refine W.inside_of_scan hend (fun e he => ?_) h
      rw [List.mem_reverse] at he
      exact (OrdMap.mem_upto.mp he).1
    have hhi := W base frag I.find
    have hlt := lt_of_fixedScan h
    rw [u64_of_lt (by omega)] at hlt
    exact ⟨I, hlt⟩
  next => cases h

theorem Partition.fixed_inside (P : Partition start size m) {bytes align addr base : Nat}
    {frag : Fragment} (h : m.fixedFragment bytes align addr = some (base, frag)) :
    Inside m bytes addr base frag ∧ addr < base + frag.size :=
  P.within.fixed_inside P.range.end_lt h

/-- The scan takes the fragment around the address, unless it is the first one. -/
theorem Partition.scan_of_inside (P : Partition start size m) {bytes addr base : Nat}
    {f : Fragment} (hpos : 0 < bytes) (I : Inside m bytes addr base f) :
    ∃ e rest, (m.fragMap.upto addr).reverse = e :: rest ∧
      fixedScan bytes addr (e :: rest) = if base = start then none else some (base, f) := by
  have hlist : (m.fragMap.upto addr).reverse = (base, f) :: (m.fragMap.below base).reverse := by
    rw [P.upto_inside hpos I, List.reverse_append]
    rfl
  have hlo := I.base_le
  have hhi := I.end_le
  have hrange : base + f.size ≤ start + size := (P.arena.tiles.bounds I.find).2.2
  have hend := P.range.end_lt
  refine ⟨_, _, hlist, ?_⟩
  cases hrest : (m.fragMap.below base).reverse with
  | nil =>
      rw [if_pos ((P.below_eq_nil I.find).mp (List.reverse_eq_nil_iff.mp hrest))]
      rfl
  | cons e rest =>
      have hne : base ≠ start := by
        intro heq
        rw [(P.below_eq_nil I.find).mpr heq] at hrest
        cases hrest
      rw [fixedScan, if_neg, if_neg, if_neg hne]
      · rw [u64_of_lt (by omega)]
        omega
      · rw [u64_of_lt (by omega), u64_of_lt (by omega), I.isFree]
        simp only [not_or]
        exact ⟨by omega, by omega, by omega, by decide⟩

/-- From the start of the range on there is a fragment at or below the address. -/
theorem Partition.upto_cons (P : Partition start size m) {addr : Nat} (haddr : start ≤ addr) :
    ∃ e rest, (m.fragMap.upto addr).reverse = e :: rest := by
  obtain ⟨g, hg⟩ := P.arena.tiles.first (Nat.lt_add_of_pos_right P.range.size_pos)
  have hmem : (start, g) ∈ (m.fragMap.upto addr).reverse :=
    List.mem_reverse.mpr (OrdMap.mem_upto.mpr ⟨OrdMap.find?_eq_some.mp hg, haddr⟩)
  cases hlist : (m.fragMap.upto addr).reverse with
  | nil =>
      rw [hlist] at hmem
      cases hmem
  | cons e rest => exact ⟨e, rest, rfl⟩

theorem Partition.upto_eq_nil (P : Partition start size m) {addr : Nat} (haddr : addr < start) :
    m.fragMap.upto addr = [] := by
  refine List.eq_nil_iff_forall_not_mem.mpr fun e he => ?_
  obtain ⟨hmem, hle⟩ := OrdMap.mem_upto.mp he
  have := (P.arena.tiles.bounds (OrdMap.find?_eq_some.mpr hmem)).1
  omega

/-! ## What `Alloc` does with an address -/

/-- The assertions of `AllocImpl` hold in a partition, also for sizes that wrap. -/
theorem Partition.allocLoop_isSome (P : Partition start size m)
    (bytes align newAlign left i alignBytes : Nat) :
    (m.allocLoop bytes align newAlign left i alignBytes).isSome = true := by
  induction left generalizing i alignBytes with
  | zero => rfl
  | succ left ih =>
      rw [allocLoop]
      cases hlb : m.freeList.lowerBound alignBytes with
      | none => rfl
      | some n =>
          simp only [P.find?_of_node (MultiMap.lowerBound_mem hlb).1, ne_eq, not_true_eq_false,
            if_false]
          split
          next => rfl
          next =>
            split
            next => rfl
            next =>
              split
              next => exact ih _ _
              next => rfl

theorem Partition.alloc_inside (P : Partition start size m) {bytes align addr base : Nat}
    {f : Fragment} (hpos : 0 < bytes) (haddr : 0 < addr) (halign : align = 0 ∨ addr % align = 0)
    (I : Inside m bytes addr base f) :
    m.alloc bytes align addr =
      if base = start then m.allocImpl bytes align
      else some (addr, m.takeFixed bytes addr base f) := by
  obtain ⟨e, rest, hlist, hscan⟩ := P.scan_of_inside hpos I
  obtain ⟨i, hfrag, _⟩ := P.node_of_free I.find I.isFree
  have hentry : f.freeListEntry ≠ none := by
    rw [hfrag]
    exact Option.some_ne_none i
  rw [alloc, if_pos ⟨haddr, halign⟩]
  simp only [hlist, hscan]
  by_cases heq : base = start
  · simp only [if_pos heq]
  · simp only [if_neg heq, if_neg hentry]

theorem Partition.alloc_outside (P : Partition start size m) {bytes align addr : Nat}
    (haddr : start ≤ addr) (hout : ∀ base f, ¬ Inside m bytes addr base f) :
    m.alloc bytes align addr = m.allocImpl bytes align := by
  obtain ⟨e, rest, hlist⟩ := P.upto_cons haddr
  rw [alloc]
  split
  next =>
    simp only [hlist]
    cases hscan : fixedScan bytes addr (e :: rest) with
    | none => rfl
    | some r =>
        refine absurd (P.inside_of_scan ?_ hscan) (hout r.1 r.2)
        intro x hx
        rw [← hlist, List.mem_reverse] at hx
        exact (OrdMap.mem_upto.mp hx).1
  next => rfl

/-- Below the managed range the assertion of `Alloc` fails. -/
theorem Partition.alloc_below (P : Partition start size m) {bytes align addr : Nat}
    (haddr : 0 < addr) (halign : align = 0 ∨ addr % align = 0) (hlt : addr < start) :
    m.alloc bytes align addr = none := by
  rw [alloc, if_pos ⟨haddr, halign⟩, P.upto_eq_nil hlt]
  rfl

/-- The fragments after a range above the base of a fragment was taken. -/
theorem takeFixed_find? {bytes addr base b : Nat} {f g : Fragment} (hlt : base < addr)
    (hg : (m.takeFixed bytes addr base f).fragMap.find? b = some g) :
    b = addr + bytes ∨ b = base ∧ g.size ≤ addr - base ∨
      b ≠ base ∧ m.fragMap.find? b = some g := by
  simp only [takeFixed, if_pos hlt] at hg
  by_cases hafter : b = addr + bytes
  · exact Or.inl hafter
  · refine Or.inr ?_
    have hg' : (if b = base then some (Fragment.makeFree
        (m.removeFreeListEntry f.freeListEntry).freeList.next (addr - base))
        else m.fragMap.find? b) = some g := by
      have hentries : (m.removeFreeListEntry f.freeListEntry).fragMap = m.fragMap := by
        cases f.freeListEntry <;> rfl
      by_cases heq : b = base
      · subst heq
        split at hg <;> simpa [addFreeFragment, hentries, hafter] using hg
      · split at hg <;> simpa [addFreeFragment, hentries, hafter, heq] using hg
    by_cases heq : b = base
    · rw [if_pos heq] at hg'
      cases hg'
      exact Or.inl ⟨heq, Nat.mod_le ..⟩
    · rw [if_neg heq] at hg'
      exact Or.inr ⟨heq, hg'⟩

/-- No address of the range is free once it is taken. -/
theorem Partition.takeFixed_not_free (P : Partition start size m) {bytes addr base a : Nat}
    {f : Fragment} (I : Inside m bytes addr base f) (hlt : base < addr) (hlo : addr ≤ a)
    (hhi : a < addr + bytes) : ¬ (m.takeFixed bytes addr base f).FreeAt a := by
  have hend := I.end_le
  rintro ⟨b, g, hg, _, hle, hin⟩
  rcases takeFixed_find? hlt hg with hafter | ⟨heq, hsize⟩ | ⟨hne, hold⟩
  · omega
  · omega
  · have happart : b + g.size ≤ base ∨ base + f.size ≤ b :=
      P.arena.tiles.apart hold I.find hne
    omega

/-- An address inside a fragment has no entry once it is taken. -/
theorem Partition.takeFixed_inside (P : Partition start size m) {bytes addr base : Nat}
    {f : Fragment} (hpos : 0 < bytes) (I : Inside m bytes addr base f) (hlt : base < addr) :
    (m.takeFixed bytes addr base f).fragMap.find? addr = none ∧
      ¬ (m.takeFixed bytes addr base f).FreeAt addr := by
  have hhi := I.end_le
  refine ⟨?_, P.takeFixed_not_free I hlt (Nat.le_refl _) (Nat.lt_add_of_pos_right hpos)⟩
  have hin : addr < base + f.size := by omega
  have hvacant : m.fragMap.find? addr = none := P.arena.tiles.vacant I.find hlt hin
  cases hg : (m.takeFixed bytes addr base f).fragMap.find? addr with
  | none => rfl
  | some g =>
      rcases takeFixed_find? hlt hg with hafter | ⟨heq, _⟩ | ⟨_, hold⟩
      · omega
      · omega
      · rw [hvacant] at hold
        cases hold

/-- The smallest fragment for the size is not aligned, and `AllocImpl` asks for one that is
larger by the alignment. -/
def asksForMore (m : VaMgr) (bytes align : Nat) : Bool :=
  align ≠ 0 && (m.freeList.lowerBound bytes).any fun n => n.val % align ≠ 0

/-- `AllocImpl` serves a call if the sum it computes does not wrap. -/
theorem Partition.allocImpl_serves_of_sum (P : Partition start size m) {bytes align : Nat}
    (hpos : 0 < bytes) (halign : align + m.minAlign ≤ 2 ^ 64)
    (hsum : m.asksForMore bytes align = true → bytes + alignUp 64 align m.minAlign < 2 ^ 64) :
    Serves start size m bytes (m.allocImpl bytes align) := by
  have hmin := P.minAlign_pos
  cases hmore : m.asksForMore bytes align with
  | true => exact allocImpl_serves P ⟨hpos, by omega, fun _ => hsum hmore⟩
  | false =>
      rw [allocImpl, allocLoop]
      cases hlb : m.freeList.lowerBound bytes with
      | none => exact serves_zero
      | some n =>
          obtain ⟨hn, hge⟩ := MultiMap.lowerBound_mem hlb
          have hdelta : (if align = 0 then 0 else n.val % align) = 0 := by
            rw [asksForMore, hlb] at hmore
            split
            next => rfl
            next hne => simpa [hne] using hmore
          simp only [P.find?_of_node hn, ne_eq, not_true_eq_false, if_false, if_pos hdelta]
          exact ⟨_, _, rfl, Or.inr (takeBase_spec P hn hpos hge _)⟩

/-- What was taken lies in the range and is not free. -/
def Took (start size : Nat) (m' : VaMgr) (p bytes : Nat) : Prop :=
  (start ≤ p ∧ p + bytes ≤ start + size) ∧ ∀ a, p ≤ a → a < p + bytes → ¬ m'.FreeAt a

theorem Takes.took {bytes p : Nat} (T : Takes start size m bytes p m') :
    Took start size m' p bytes := by
  have hused : m'.used p = some bytes := by rw [T.used, Function.update_self]
  have hbounds := T.partition.used_bounds hused
  refine ⟨by omega, ?_⟩
  intro a hlo hhi hfree
  exact (T.partition.freeAt_iff.mp hfree).2 p bytes hused ⟨hlo, hhi⟩

/-- The range of an address that is returned, also if it is cut out of a fragment. -/
theorem Partition.alloc_took (P : Partition start size m) {bytes align addr p : Nat}
    (hpos : 0 < bytes) (halign : align + m.minAlign ≤ 2 ^ 64)
    (hsum : m.fixedFragment bytes align addr = none → m.asksForMore bytes align = true →
      bytes + alignUp 64 align m.minAlign < 2 ^ 64)
    (h : m.alloc bytes align addr = some (p, m')) (hp : p ≠ 0) : Took start size m' p bytes := by
  rcases alloc_fixed_or h with ⟨base, frag, hfixed, rfl, rfl⟩ | ⟨hnone, himpl⟩
  · obtain ⟨I, _⟩ := P.fixed_inside hfixed
    obtain ⟨i, hfrag, hnode⟩ := P.node_of_free I.find I.isFree
    have hbounds : start ≤ base ∧ 0 < frag.size ∧ base + frag.size ≤ start + size :=
      P.arena.tiles.bounds I.find
    have hend := I.end_le
    rcases Nat.lt_or_eq_of_le I.base_le with hlt | rfl
    · exact ⟨by omega, fun a hlo hhi => P.takeFixed_not_free I hlt hlo hhi⟩
    · have hfits : bytes ≤ frag.size := by omega
      rw [hfrag, takeFixed_eq_takeBase]
      exact (takeBase_spec P hnode hpos hfits _).took
  · obtain ⟨q, m₁, heq, hserves⟩ := P.allocImpl_serves_of_sum hpos halign (hsum hnone)
    rw [himpl] at heq
    cases heq
    rcases hserves with ⟨hzero, _⟩ | T
    · exact absurd hzero hp
    · exact T.took

/-! ## Best fit -/

/-- The multiple of the alignment at or above a base. -/
def fitBase (align base : Nat) : Nat :=
  if align = 0 ∨ base % align = 0 then base else base + align - base % align

/-- The address the free list gives for a size without a fixed address: in the smallest
fragment for the size if it is aligned, else in the smallest with room for the alignment. -/
def bestFit (m : VaMgr) (bytes align : Nat) : Option Nat :=
  (m.freeList.lowerBound bytes).bind fun n =>
    if align = 0 ∨ n.val % align = 0 then some n.val
    else (m.freeList.lowerBound (bytes + alignUp 64 align m.minAlign)).map fun n =>
      fitBase align n.val

theorem Partition.allocImpl_fst (P : Partition start size m) {bytes align : Nat}
    (h : NoWrap m bytes align) :
    (m.allocImpl bytes align).map Prod.fst = some ((m.bestFit bytes align).getD 0) := by
  have hend := P.range.end_lt
  have hbelow : ∀ n ∈ m.freeList.nodes, n.val + n.key < 2 ^ 63 := by
    intro n hn
    have hhi : n.val + n.key ≤ start + size := (P.arena.tiles.bounds (P.find?_of_node hn)).2.2
    omega
  by_cases hzero : align = 0
  · subst hzero
    simp only [allocImpl, allocLoop, bestFit, if_true]
    cases hlb : m.freeList.lowerBound bytes with
    | none => rfl
    | some n =>
        simp [P.find?_of_node (MultiMap.lowerBound_mem hlb).1]
  · simp only [allocImpl, allocLoop, bestFit, if_neg hzero]
    cases hlb : m.freeList.lowerBound bytes with
    | none => rfl
    | some n =>
        obtain ⟨hn, hge⟩ := MultiMap.lowerBound_mem hlb
        have hup : align ≤ alignUp 64 align m.minAlign := le_alignUp P.minAlign_pos h.alignUp
        have hlt := hbelow n hn
        have htotal := h.total (by omega)
        simp only [P.find?_of_node hn, u64_of_lt htotal, hzero, false_or, ne_eq, not_true_eq_false,
          if_false, if_true, Option.bind_some]
        split
        next => rfl
        next =>
          cases hlb' : m.freeList.lowerBound (bytes + alignUp 64 align m.minAlign) with
          | none => rfl
          | some n' =>
              obtain ⟨hn', hge'⟩ := MultiMap.lowerBound_mem hlb'
              have hlt' := hbelow n' hn'
              have hmod := Nat.mod_lt n'.val (Nat.pos_of_ne_zero hzero)
              have hnext : u64 (n'.val + align - n'.val % align) = n'.val + align - n'.val % align :=
                u64_of_lt (by omega)
              simp only [P.find?_of_node hn', fitBase, hzero, hnext, false_or,
                not_true_eq_false, if_false, Nat.zero_add, Nat.one_ne_zero, Option.map_some,
                Option.getD_some]
              split
              next hdelta => simp
              next hdelta => simp

/-- `AllocImpl` returns an address exactly when it is the best fit. -/
theorem Partition.allocImpl_eq (P : Partition start size m) {bytes align addr : Nat}
    (h : NoWrap m bytes align) (haddr : 0 < addr) :
    (∃ m', m.allocImpl bytes align = some (addr, m')) ↔ m.bestFit bytes align = some addr := by
  have hfst := P.allocImpl_fst h
  constructor
  · rintro ⟨m', himpl⟩
    rw [himpl] at hfst
    cases hbest : m.bestFit bytes align with
    | none =>
        rw [hbest] at hfst
        cases hfst
        exact absurd haddr (Nat.lt_irrefl 0)
    | some q =>
        rw [hbest] at hfst
        cases hfst
        rfl
  · intro hbest
    rw [hbest] at hfst
    obtain ⟨r, himpl, hr⟩ := Option.map_eq_some_iff.mp hfst
    have hr : r.1 = addr := hr
    exact ⟨r.2, by rw [himpl, ← hr]⟩

/-! ## Fixed addresses -/

/-- A request for a fixed address gets the address where it is free, with a range that can be
given back, and else what a request without one gets. -/
structure Honours (m : VaMgr) (bytes align addr : Nat) : Prop where
  honoured : ∀ base f, Inside m bytes addr base f →
    ∃ m', m.alloc bytes align addr = some (addr, m') ∧
      (∀ a, addr ≤ a → a < addr + bytes → ¬ m'.FreeAt a) ∧
      (∀ a, (m'.free addr).FreeAt a ↔ m'.FreeAt a ∨ addr ≤ a ∧ a < addr + bytes) ∧
      ∀ a, (m'.free addr).FreeAt a ↔ m.FreeAt a
  falls_back : (∀ base f, ¬ Inside m bytes addr base f) →
    m.alloc bytes align addr = m.allocImpl bytes align

/-- The fragment around the address begins there and is not the first of the range, or is the
first and the best fit is at the address; and no address is below the range. -/
structure Takeable (start : Nat) (m : VaMgr) (bytes align addr : Nat) : Prop where
  base : ∀ base f, Inside m bytes addr base f →
    if base = start then m.bestFit bytes align = some addr else base = addr
  below : (∀ base f, ¬ Inside m bytes addr base f) → start ≤ addr

theorem Takes.honoured {bytes align addr : Nat} (P : Partition start size m)
    (T : Takes start size m bytes addr m') (h : m.alloc bytes align addr = some (addr, m')) :
    ∃ m', m.alloc bytes align addr = some (addr, m') ∧
      (∀ a, addr ≤ a → a < addr + bytes → ¬ m'.FreeAt a) ∧
      (∀ a, (m'.free addr).FreeAt a ↔ m'.FreeAt a ∨ addr ≤ a ∧ a < addr + bytes) ∧
      ∀ a, (m'.free addr).FreeAt a ↔ m.FreeAt a := by
  refine ⟨m', h, ?_, T.free_restores P⟩
  intro a hlo hhi hfree
  have hused : m'.used addr = some bytes := by rw [T.used, Function.update_self]
  exact (T.partition.freeAt_iff.mp hfree).2 addr bytes hused ⟨hlo, hhi⟩

/-- A request for an address of the range is far from wrapping. -/
theorem Partition.noWrap_of_inside (P : Partition start size m) (hmin : m.minAlign ≤ 2 ^ 63)
    {bytes align addr base : Nat} {f : Fragment} (hpos : 0 < bytes) (haddr : 0 < addr)
    (halign : align = 0 ∨ addr % align = 0) (I : Inside m bytes addr base f) :
    NoWrap m bytes align := by
  have hend := P.range.end_lt
  have hhi : base + f.size ≤ start + size := (P.arena.tiles.bounds I.find).2.2
  have := I.end_le
  have hle : align ≤ addr := by
    rcases halign with hzero | hmod
    · omega
    · exact Nat.le_of_dvd haddr (Nat.dvd_of_mod_eq_zero hmod)
  have halignUp : align + m.minAlign - 1 < 2 ^ 64 := by omega
  refine ⟨hpos, halignUp, fun _ => ?_⟩
  have hup : alignUp 64 align m.minAlign ≤ align + m.minAlign - 1 := by
    rw [alignUp_of_lt halignUp]
    exact Nat.div_mul_le_self ..
  omega

/-- In a partition a request for a fixed address is honoured exactly when it is takeable. -/
theorem Partition.honours_iff (P : Partition start size m) (hmin : m.minAlign ≤ 2 ^ 63)
    {bytes align addr : Nat} (hpos : 0 < bytes) (haddr : 0 < addr)
    (halign : align = 0 ∨ addr % align = 0) :
    Honours m bytes align addr ↔ Takeable start m bytes align addr := by
  constructor
  · intro H
    refine ⟨?_, ?_⟩
    · intro base f I
      have hwrap := P.noWrap_of_inside hmin hpos haddr halign I
      obtain ⟨m', halloc, _, _, hback⟩ := H.honoured base f I
      rw [P.alloc_inside hpos haddr halign I] at halloc
      by_cases heq : base = start
      · rw [if_pos heq] at halloc ⊢
        exact (P.allocImpl_eq hwrap haddr).mp ⟨m', halloc⟩
      · rw [if_neg heq] at halloc ⊢
        cases halloc
        by_contra hne
        have hlt : base < addr := Nat.lt_of_le_of_ne I.base_le hne
        obtain ⟨hfind, hused⟩ := P.takeFixed_inside hpos I hlt
        have hfree : m.FreeAt addr := by
          refine ⟨base, f, I.find, I.isFree, I.base_le, ?_⟩
          have := I.end_le
          omega
        refine hused ?_
        have hrelease := (hback addr).mpr hfree
        rwa [free, if_neg (Nat.ne_of_gt haddr), hfind] at hrelease
    · intro hout
      by_contra hlt
      have hsame := H.falls_back hout
      rw [P.alloc_below haddr halign (Nat.lt_of_not_le hlt)] at hsame
      have hsome : (m.allocImpl bytes align).isSome = true := P.allocLoop_isSome ..
      rw [← hsame] at hsome
      cases hsome
  · intro T
    refine ⟨?_, fun hout => P.alloc_outside (T.below hout) hout⟩
    intro base f I
    have hwrap := P.noWrap_of_inside hmin hpos haddr halign I
    have halloc := P.alloc_inside hpos haddr halign I
    have hbase := T.base base f I
    by_cases heq : base = start
    · rw [if_pos heq] at halloc hbase
      obtain ⟨m', himpl⟩ := (P.allocImpl_eq hwrap haddr).mpr hbase
      obtain ⟨q, m'', himpl', hcases⟩ := allocImpl_serves P hwrap
      rw [himpl] at himpl' halloc
      cases himpl'
      rcases hcases with ⟨hzero, _⟩ | htakes
      · exact absurd hzero (Nat.ne_of_gt haddr)
      · exact htakes.honoured P halloc
    · rw [if_neg heq] at halloc hbase
      subst hbase
      obtain ⟨i, hfrag, hnode⟩ := P.node_of_free I.find I.isFree
      have hle : bytes ≤ f.size := by
        have := I.end_le
        omega
      have htakes : Takes start size m bytes base (m.takeFixed bytes base base f) := by
        rw [hfrag, takeFixed_eq_takeBase]
        exact takeBase_spec P hnode hpos hle _
      exact htakes.honoured P halloc

namespace Session

/-- The calls that keep the partition: an allocation does not wrap and takes no fragment from
the inside. -/
def Keeps (m : VaMgr) : Call → Prop
  | .alloc bytes align addr => NoWrap m bytes align ∧ TakesAtBase m bytes align addr
  | .free _ => True

theorem step_keeps {s s' : Session} {c : Call} (P : Partition start size s.mgr)
    (hkeep : Keeps s.mgr c) (h : s.step c = some s') :
    Partition start size s'.mgr ∧ s'.mgr.minAlign = s.mgr.minAlign := by
  cases c with
  | alloc bytes align addr =>
      obtain ⟨r, halloc, rfl⟩ := Option.map_eq_some_iff.mp h
      rcases alloc_returns P hkeep.1 hkeep.2 halloc with ⟨_, hsame⟩ | T
      · show Partition start size r.2 ∧ r.2.minAlign = s.mgr.minAlign
        rw [hsame]
        exact ⟨P, rfl⟩
      · exact ⟨T.partition, T.minAlign⟩
  | free addr =>
      cases h
      exact ⟨(free_spec P addr).1, minAlign_free _ _⟩

/-- In every run that keeps the partition, a request for a fixed address is honoured and can
be taken back exactly when it is takeable. -/
theorem fixed_address {minAlign : Nat} {s : Session} (hrange : Managed start size)
    (halign : 0 < minAlign) (hmin : minAlign ≤ 2 ^ 63)
    (h : Reach step (fun s c => Keeps s.mgr c) (new start size minAlign) s) (bytes align addr : Nat)
    (hbytes : 0 < bytes) (haddr : 0 < addr) (hmod : align = 0 ∨ addr % align = 0) :
    Honours s.mgr bytes align addr ↔ Takeable start s.mgr bytes align addr := by
  have hnew : Partition start size (new start size minAlign).mgr := partition_new hrange halign
  have hinv : Partition start size s.mgr ∧ s.mgr.minAlign = minAlign := by
    refine h.invariant (I := fun s => Partition start size s.mgr ∧ s.mgr.minAlign = minAlign)
      ⟨hnew, rfl⟩ ?_
    intro s c s' hs hok hstep
    obtain ⟨P', hsame⟩ := step_keeps hs.1 hok hstep
    exact ⟨P', by rw [hsame, hs.2]⟩
  exact hinv.1.honours_iff (by omega) hbytes haddr hmod

/-- After one allocation the rest of the range can be asked for at its base. -/
theorem fixed_address_run :
    ∃ s, Reach step (fun s c => Keeps s.mgr c) (new 0x1000 0x10000 0x1000) s ∧
      Honours s.mgr 0x800 0x1000 0x2000 := by
  have hstep : ∃ s, (new 0x1000 0x10000 0x1000).step (.alloc 0x1000 0 0) = some s ∧
      s.mgr.fragMap.entries =
        [(0x1000, ⟨none, 0x1000, false⟩), (0x2000, ⟨some 1, 0xF000, true⟩)] :=
    ⟨_, rfl, rfl⟩
  obtain ⟨s, hstep, hentries⟩ := hstep
  have hkeep : Keeps (new 0x1000 0x10000 0x1000).mgr (.alloc 0x1000 0 0) :=
    ⟨⟨by decide, by decide, by decide⟩, takesAtBase_zero _ _ _⟩
  have hreach : Reach step (fun s c => Keeps s.mgr c) (new 0x1000 0x10000 0x1000) s :=
    Reach.step .start hkeep hstep
  refine ⟨s, hreach, ?_⟩
  have hrange : Managed 0x1000 0x10000 := ⟨by decide, by decide, by decide⟩
  refine (fixed_address hrange (by decide) (by decide) hreach 0x800 0x1000 0x2000 (by decide)
    (by decide) (Or.inr (by decide))).mpr ⟨?_, fun _ => by decide⟩
  intro base f I
  have hmem := OrdMap.find?_eq_some.mp I.find
  have hfree := I.isFree
  rw [hentries] at hmem
  simp only [List.mem_cons, Prod.mk.injEq, List.not_mem_nil, or_false] at hmem
  rcases hmem with ⟨_, rfl⟩ | ⟨rfl, rfl⟩
  · cases hfree
  · rfl

/-- A new manager does not give an address inside its only fragment. -/
theorem first_fragment_skipped :
    ¬ ∀ s, Reach step (fun _ _ => True) (new 0x1000 0x10000 0x1000) s → ∀ bytes align addr,
      0 < bytes → 0 < addr → (align = 0 ∨ addr % align = 0) → Honours s.mgr bytes align addr := by
  intro hall
  have H := hall _ .start 0x1000 0 0x4000 (by decide) (by decide) (Or.inl rfl)
  obtain ⟨m', halloc, _⟩ := H.honoured 0x1000 ⟨some 0, 0x10000, true⟩
    ⟨rfl, rfl, by decide, by decide⟩
  have hfirst : ((new 0x1000 0x10000 0x1000).mgr.alloc 0x1000 0 0x4000).map Prod.fst =
      some 0x1000 := by
    decide
  rw [halloc] at hfirst
  cases hfirst

end Session

end VaMgr

end RocDxg
