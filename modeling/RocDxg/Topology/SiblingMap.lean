import Mathlib.Data.Nat.Bitwise
import RocDxg.Lib.CString
import RocDxg.Topology.Nodes

/-!
# The processors that share a cache

`cpumap_to_cpu_ci` of `topology.cpp`.  The kernel prints a set of processors as a number in
hexadecimal digits, with a comma before each group of eight: the processor `p` is in the set if
the bit `p` of the number is set.  The function reads the groups from the left, and knows from
the length of the text which processors the first one is about.

`siblings_exact` says that the map has the processors of the set and no others.
-/

namespace RocDxg

open Lib (hexDigits hexValue hexValue_hexDigits isHexDigit isHexDigit_hexDigits length_hexDigits
  strtok strtol16)

/-- `struct proc_cpuinfo` -/
structure ProcCpuinfo where
  apicid : Nat := 0
  modelName : List Char := []
deriving DecidableEq, Repr

/-- The table of processors, which has as many rows as a 32-bit number says. -/
structure CpuTable where
  rows : List ProcCpuinfo
  length_le : rows.length ≤ 2 ^ 32

/-- `SiblingMap[apicid] = 1`, should there be such an entry. -/
def HsaCacheProperties.setSibling (c : HsaCacheProperties) (apicid : Nat) : HsaCacheProperties :=
  if h : apicid < hsaCpuSiblings then
    { c with siblingMap := Function.update c.siblingMap ⟨apicid, h⟩ 1 }
  else c

/-- The loop over the bits of one word, up to the bit `n`.  There is no result where a row of
the table is read that does not exist. -/
def markBits (cpuinfo : CpuTable) (numHexs mask : Nat) : Nat → HsaCacheProperties →
    Option HsaCacheProperties
  | 0, c => some c
  | bit + 1, c =>
      (markBits cpuinfo numHexs mask bit c).bind fun c =>
        if mask.testBit bit then
          (cpuinfo.rows[u32 (numHexs * 32 + bit)]?).map fun info => c.setSibling info.apicid
        else some c

/-- The loop over the tokens; `token` is what `strtok` has returned last. -/
def cpumapLoop (cpuinfo : CpuTable) : Nat → Option (List Char × List Char) →
    HsaCacheProperties → Option HsaCacheProperties
  | 0, _, c => some c
  | _ + 1, none, _ => none
  | numHexs + 1, some (chPtr, rest), c =>
      (markBits cpuinfo numHexs (strtol16 chPtr % 2 ^ 32).toNat 32 c).bind
        (cpumapLoop cpuinfo numHexs (strtok ',' rest))

/-- `cpumap_to_cpu_ci`.  There is no result where it reads a token or a row that does not
exist. -/
def cpumapToCpuCi (sharedCpuMap : List Char) (cpuinfo : CpuTable) (thisCache : HsaCacheProperties) :
    Option HsaCacheProperties :=
  cpumapLoop cpuinfo ((sharedCpuMap.length + 8) / 9) (strtok ',' sharedCpuMap) thisCache

/-! ## What the kernel prints -/

/-- A text of the kernel: groups of hexadecimal digits with commas between them. -/
structure SharedCpuMap where
  first : List Char
  rest : List (List Char)
  first_ne : first ≠ []
  first_le : first.length ≤ 8
  rest_length : ∀ g ∈ rest, g.length = 8
  first_digits : ∀ c ∈ first, isHexDigit c = true
  rest_digits : ∀ g ∈ rest, ∀ c ∈ g, isHexDigit c = true

/-- The characters of the groups, with the commas. -/
def joinGroups (first : List Char) : List (List Char) → List Char
  | [] => first
  | g :: gs => first ++ ',' :: joinGroups g gs

namespace SharedCpuMap

/-- The characters of the text. -/
def chars (t : SharedCpuMap) : List Char := joinGroups t.first t.rest

/-- The text is the number that has a bit for each processor of the set. -/
def Prints (t : SharedCpuMap) (procs : Finset Nat) : Prop :=
  ∀ p, p ∈ procs ↔ (hexValue (t.first ++ t.rest.flatten)).testBit p = true

/-- A number of `k + 1` words has a text with as many groups. -/
theorem exists_value (k : Nat) {n : Nat} (h : n < 2 ^ (32 * (k + 1))) :
    ∃ t : SharedCpuMap, hexValue (t.first ++ t.rest.flatten) = n := by
  induction k generalizing n with
  | zero =>
      refine ⟨⟨hexDigits 8 n, [], ?_, ?_, ?_, fun _ => isHexDigit_hexDigits, ?_⟩, ?_⟩
      · rw [← List.length_pos_iff, length_hexDigits]
        decide
      · rw [length_hexDigits]
      · exact fun _ hg => absurd hg List.not_mem_nil
      · exact fun _ hg => absurd hg List.not_mem_nil
      · simp only [List.flatten_nil, List.append_nil]
        exact hexValue_hexDigits h
  | succ k ih =>
      have hpow : 2 ^ (32 * (k + 1 + 1)) = 2 ^ 32 * 2 ^ (32 * (k + 1)) := by
        rw [← Nat.pow_add]
        congr 1
        omega
      rw [hpow] at h
      obtain ⟨t, ht⟩ := ih (Nat.div_lt_of_lt_mul h)
      have hlow : n % 2 ^ 32 < 16 ^ 8 := Nat.mod_lt _ (by decide)
      refine ⟨{ t with
        rest := t.rest ++ [hexDigits 8 (n % 2 ^ 32)]
        rest_length := ?_
        rest_digits := ?_ }, ?_⟩
      · intro g hg
        rw [List.mem_append, List.mem_singleton] at hg
        cases hg with
        | inl hg => exact t.rest_length g hg
        | inr hg => rw [hg, length_hexDigits]
      · intro g hg
        rw [List.mem_append, List.mem_singleton] at hg
        cases hg with
        | inl hg => exact t.rest_digits g hg
        | inr hg =>
            rw [hg]
            exact fun _ => isHexDigit_hexDigits
      · simp only [List.flatten_append, List.flatten_cons, List.flatten_nil, List.append_nil]
        rw [← List.append_assoc, Lib.hexValue_append, ht, hexValue_hexDigits hlow, length_hexDigits]
        omega

/-- Every set of processors has a text. -/
theorem exists_prints (procs : Finset Nat) : ∃ t : SharedCpuMap, t.Prints procs := by
  have hnumber : ∃ n : Nat, ∀ p, p ∈ procs ↔ n.testBit p = true := by
    induction procs using Finset.induction with
    | empty => exact ⟨0, fun p => by simp⟩
    | insert q procs _ ih =>
        obtain ⟨n, hn⟩ := ih
        refine ⟨n ||| 2 ^ q, fun p => ?_⟩
        rw [Finset.mem_insert, hn, Nat.testBit_or, Nat.testBit_two_pow, Bool.or_eq_true,
          decide_eq_true_eq]
        constructor
        · rintro (rfl | h)
          · exact Or.inr rfl
          · exact Or.inl h
        · rintro (h | rfl)
          · exact Or.inr h
          · exact Or.inl rfl
  obtain ⟨n, hn⟩ := hnumber
  have hlt : n < 2 ^ (32 * (n + 1)) :=
    Nat.lt_of_lt_of_le Nat.lt_two_pow_self (Nat.pow_le_pow_right (by decide) (by omega))
  obtain ⟨t, ht⟩ := exists_value n hlt
  exact ⟨t, fun p => ht.symm ▸ hn p⟩

end SharedCpuMap

/-! ## What marking processors changes -/

/-- The row of a processor has an apic id. -/
def CpuTable.HasApicid (cpuinfo : CpuTable) (p a : Nat) : Prop :=
  cpuinfo.rows[p]?.map ProcCpuinfo.apicid = some a

instance (cpuinfo : CpuTable) (p a : Nat) : Decidable (cpuinfo.HasApicid p a) :=
  inferInstanceAs (Decidable (_ = _))

/-- The second cache is the first one with the processors of `P` marked. -/
structure Marks (cpuinfo : CpuTable) (P : Nat → Prop) (c c' : HsaCacheProperties) : Prop where
  set : ∀ (a : Fin hsaCpuSiblings) p, P p → cpuinfo.HasApicid p a → c'.siblingMap a = 1
  keep : ∀ a : Fin hsaCpuSiblings, (∀ p, P p → ¬ cpuinfo.HasApicid p a) →
    c'.siblingMap a = c.siblingMap a
  same : c' = { c with siblingMap := c'.siblingMap }

variable {cpuinfo : CpuTable} {P Q : Nat → Prop} {c c' c'' : HsaCacheProperties}

theorem Marks.none (cpuinfo : CpuTable) (c : HsaCacheProperties) :
    Marks cpuinfo (fun _ => False) c c :=
  ⟨fun _ _ hp _ => hp.elim, fun _ _ => rfl, rfl⟩

theorem Marks.congr (h : Marks cpuinfo P c c') (hPQ : ∀ p, P p ↔ Q p) : Marks cpuinfo Q c c' where
  set := fun a p hp ha => h.set a p ((hPQ p).mpr hp) ha
  keep := fun a hno => h.keep a fun p hp => hno p ((hPQ p).mp hp)
  same := h.same

/-- An entry that is set stays so. -/
theorem Marks.trans (h : Marks cpuinfo P c c') (h' : Marks cpuinfo Q c' c'') :
    Marks cpuinfo (fun p => P p ∨ Q p) c c'' where
  set := by
    intro a p hp ha
    cases hp with
    | inl hP =>
        by_cases hq : ∃ q, Q q ∧ cpuinfo.HasApicid q a
        · obtain ⟨q, hQ, hqa⟩ := hq
          exact h'.set a q hQ hqa
        · rw [h'.keep a fun q hQ hqa => hq ⟨q, hQ, hqa⟩]
          exact h.set a p hP ha
    | inr hQ => exact h'.set a p hQ ha
  keep := by
    intro a hno
    rw [h'.keep a fun p hQ => hno p (Or.inr hQ), h.keep a fun p hP => hno p (Or.inl hP)]
  same := by
    rw [h'.same, h.same]

/-- One processor with a row in the table. -/
theorem marks_setSibling {p : Nat} {info : ProcCpuinfo} (h : cpuinfo.rows[p]? = some info) :
    Marks cpuinfo (· = p) c (c.setSibling info.apicid) := by
  have hrow : ∀ a, cpuinfo.HasApicid p a ↔ info.apicid = a := by
    intro a
    rw [CpuTable.HasApicid, h, Option.map_some, Option.some.injEq]
  rw [HsaCacheProperties.setSibling]
  split
  next hlt =>
    refine ⟨?_, ?_, rfl⟩
    · rintro a q rfl ha
      have heq : (⟨info.apicid, hlt⟩ : Fin hsaCpuSiblings) = a := Fin.ext ((hrow a).mp ha)
      rw [← heq]
      exact Function.update_self ..
    · intro a hno
      refine Function.update_of_ne ?_ ..
      rintro rfl
      exact hno p rfl ((hrow _).mpr rfl)
  next hge =>
    refine ⟨?_, fun _ _ => rfl, rfl⟩
    rintro a q rfl ha
    exact absurd ((hrow a).mp ha ▸ a.isLt) hge

/-! ## One group -/

/-- The processors of the bits below `n` of a word. -/
def BitProcs (numHexs mask n p : Nat) : Prop :=
  ∃ bit < n, mask.testBit bit = true ∧ p = numHexs * 32 + bit

theorem bitProcs_succ (numHexs mask bit p : Nat) :
    BitProcs numHexs mask (bit + 1) p ↔
      BitProcs numHexs mask bit p ∨ (mask.testBit bit = true ∧ p = numHexs * 32 + bit) := by
  constructor
  · intro h
    obtain ⟨b, hlt, hset, hp⟩ := h
    by_cases hb : b = bit
    · subst hb
      exact Or.inr ⟨hset, hp⟩
    · exact Or.inl ⟨b, by omega, hset, hp⟩
  · intro h
    cases h with
    | inl h =>
        obtain ⟨b, hlt, hset, hp⟩ := h
        exact ⟨b, by omega, hset, hp⟩
    | inr h => exact ⟨bit, Nat.lt_succ_self _, h.1, h.2⟩

/-- The loop over the bits marks their processors. -/
theorem markBits_marks {numHexs mask : Nat} (c : HsaCacheProperties) (n : Nat)
    (hcover : ∀ p, BitProcs numHexs mask n p → p < cpuinfo.rows.length) :
    ∃ c', markBits cpuinfo numHexs mask n c = some c' ∧
      Marks cpuinfo (BitProcs numHexs mask n) c c' := by
  induction n with
  | zero =>
      refine ⟨c, rfl, (Marks.none cpuinfo c).congr fun p => ?_⟩
      constructor
      · exact False.elim
      · intro h
        obtain ⟨b, hlt, _⟩ := h
        exact absurd hlt (Nat.not_lt_zero _)
  | succ bit ih =>
      obtain ⟨c₁, hrun, hmarks⟩ := ih fun p hp => hcover p ((bitProcs_succ ..).mpr (Or.inl hp))
      rw [markBits, hrun]
      simp only [Option.bind_some]
      split
      next hset =>
        have hlt : numHexs * 32 + bit < cpuinfo.rows.length :=
          hcover _ ((bitProcs_succ ..).mpr (Or.inr ⟨hset, rfl⟩))
        have hlen := cpuinfo.length_le
        have hrow : cpuinfo.rows[numHexs * 32 + bit]? = some cpuinfo.rows[numHexs * 32 + bit] :=
          List.getElem?_eq_getElem hlt
        rw [u32_of_lt (by omega), hrow]
        refine ⟨_, rfl, (hmarks.trans (marks_setSibling hrow)).congr fun p => ?_⟩
        rw [bitProcs_succ]
        exact or_congr_right ⟨fun hp => ⟨hset, hp⟩, fun hp => hp.2⟩
      next hclear =>
        refine ⟨c₁, rfl, hmarks.congr fun p => ?_⟩
        rw [bitProcs_succ]
        exact ⟨Or.inl, fun hp => hp.resolve_right fun h => hclear h.1⟩

/-! ## All groups -/

theorem hexValue_group_lt {g : List Char} (h : g.length ≤ 8) : hexValue g < 2 ^ 32 :=
  Nat.lt_of_lt_of_le (Lib.hexValue_lt g) (Nat.pow_le_pow_right (by decide) h)

/-- The word of a group is the number that it writes. -/
theorem strtol16_group {g : List Char} (hlen : g.length ≤ 8) (hd : ∀ c ∈ g, isHexDigit c = true) :
    (strtol16 g % 2 ^ 32).toNat = hexValue g := by
  have hlt := hexValue_group_lt hlen
  rw [Lib.strtol16_digits hd (by omega)]
  omega

theorem length_flatten_groups {gs : List (List Char)} (h : ∀ g ∈ gs, g.length = 8) :
    gs.flatten.length = 8 * gs.length := by
  induction gs with
  | nil => rfl
  | cons g gs ih =>
      rw [List.flatten_cons, List.length_append, h g List.mem_cons_self,
        ih fun g' hg' => h g' (List.mem_cons_of_mem _ hg'), List.length_cons]
      omega

/-- A bit of the number is one of the first group or one of the others. -/
theorem testBit_groups {first : List Char} {rest : List (List Char)} (hfirst : first.length ≤ 8)
    (hrest : ∀ g ∈ rest, g.length = 8) (p : Nat) :
    (hexValue (first ++ rest.flatten)).testBit p = true ↔
      (hexValue rest.flatten).testBit p = true ∨
        BitProcs rest.length (hexValue first) 32 p := by
  have hlen := length_flatten_groups hrest
  have hpow : 16 ^ (8 * rest.length) = 2 ^ (32 * rest.length) := by
    rw [show (16 : Nat) = 2 ^ 4 from rfl, ← Nat.pow_mul]
    congr 1
    omega
  have hlow : hexValue rest.flatten < 2 ^ (32 * rest.length) := by
    have := Lib.hexValue_lt rest.flatten
    rwa [hlen, hpow] at this
  have hhigh := hexValue_group_lt hfirst
  rw [Lib.hexValue_append, hlen, hpow, Nat.mul_comm, Nat.testBit_two_pow_mul_add _ hlow]
  split
  next hp =>
    constructor
    · exact Or.inl
    · intro h
      refine h.resolve_right ?_
      intro hproc
      obtain ⟨b, _, _, heq⟩ := hproc
      omega
  next hp =>
    have hzero : (hexValue rest.flatten).testBit p = false :=
      Nat.testBit_lt_two_pow (Nat.lt_of_lt_of_le hlow (Nat.pow_le_pow_right (by decide) (by omega)))
    rw [hzero]
    constructor
    · intro hset
      refine Or.inr ⟨p - 32 * rest.length, ?_, hset, by omega⟩
      refine Nat.lt_of_not_le fun hle => ?_
      rw [Nat.testBit_lt_two_pow (Nat.lt_of_lt_of_le hhigh (Nat.pow_le_pow_right (by decide) hle))]
        at hset
      exact Bool.false_ne_true hset
    · intro h
      cases h with
      | inl h => exact absurd h Bool.false_ne_true
      | inr h =>
          obtain ⟨b, _, hset, heq⟩ := h
          rw [show p - 32 * rest.length = b by omega]
          exact hset

theorem comma_not_mem {g : List Char} (h : ∀ c ∈ g, isHexDigit c = true) : ',' ∉ g := by
  intro hc
  exact absurd (h _ hc) (by decide)

/-- The loop over the tokens marks the processors of all groups. -/
theorem cpumapLoop_marks {first : List Char} {rest : List (List Char)} (hne : first ≠ [])
    (hfirst : first.length ≤ 8) (hrest : ∀ g ∈ rest, g.length = 8)
    (hfd : ∀ c ∈ first, isHexDigit c = true) (hrd : ∀ g ∈ rest, ∀ c ∈ g, isHexDigit c = true)
    (hcover : ∀ p, (hexValue (first ++ rest.flatten)).testBit p = true →
      p < cpuinfo.rows.length) (c : HsaCacheProperties) :
    ∃ c', cpumapLoop cpuinfo (rest.length + 1) (strtok ',' (joinGroups first rest)) c = some c' ∧
      Marks cpuinfo (fun p => (hexValue (first ++ rest.flatten)).testBit p = true) c c' := by
  have hbits := testBit_groups hfirst hrest
  induction rest generalizing first c with
  | nil =>
      obtain ⟨c', hrun, hmarks⟩ := markBits_marks c 32 fun p hp =>
        hcover p ((hbits p).mpr (Or.inr hp))
      rw [joinGroups, Lib.strtok_last hne (comma_not_mem hfd)]
      simp only [cpumapLoop, strtol16_group hfirst hfd]
      refine ⟨c', ?_, hmarks.congr fun p => ?_⟩
      · rw [List.length_nil] at hrun
        rw [List.length_nil, hrun]
        rfl
      · rw [hbits p]
        simp
  | cons g gs ih =>
      obtain ⟨c₁, hrun, hmarks⟩ := markBits_marks c 32 fun p hp =>
        hcover p ((hbits p).mpr (Or.inr hp))
      have hg : g.length = 8 := hrest g List.mem_cons_self
      have hgs : ∀ g' ∈ gs, g'.length = 8 := fun g' hg' => hrest g' (List.mem_cons_of_mem _ hg')
      have hgne : g ≠ [] := by
        rintro rfl
        exact absurd hg (by decide)
      obtain ⟨c', hrest', hmarks'⟩ := ih hgne (Nat.le_of_eq hg) hgs (hrd g List.mem_cons_self)
        (fun g' hg' => hrd g' (List.mem_cons_of_mem _ hg'))
        (fun p hp => hcover p ((hbits p).mpr (Or.inl hp))) c₁
        (testBit_groups (Nat.le_of_eq hg) hgs)
      rw [joinGroups, Lib.strtok_append hne (comma_not_mem hfd)]
      simp only [cpumapLoop, strtol16_group hfirst hfd]
      refine ⟨c', ?_, (hmarks.trans hmarks').congr fun p => ?_⟩
      · rw [hrun, Option.bind_some]
        exact hrest'
      · rw [hbits p]
        exact or_comm

/-- A group of 9 characters for each comma. -/
theorem length_joinGroups {first : List Char} {rest : List (List Char)}
    (hrest : ∀ g ∈ rest, g.length = 8) :
    (joinGroups first rest).length = first.length + 9 * rest.length := by
  induction rest generalizing first with
  | nil => rfl
  | cons g gs ih =>
      rw [joinGroups, List.length_append, List.length_cons,
        ih fun g' hg' => hrest g' (List.mem_cons_of_mem _ hg'), hrest g List.mem_cons_self,
        List.length_cons]
      omega

/-- For every set of processors that the kernel prints and a table that covers it, the map is
set at the apic ids of the processors of the set, as far as it goes, and unchanged elsewhere. -/
theorem siblings_exact (t : SharedCpuMap) (procs : Finset Nat) (h : t.Prints procs)
    (cpuinfo : CpuTable) (hcover : ∀ p ∈ procs, p < cpuinfo.rows.length) (c : HsaCacheProperties) :
    ∃ c', cpumapToCpuCi t.chars cpuinfo c = some c' ∧
      (∀ a : Fin hsaCpuSiblings, c'.siblingMap a =
        if ∃ p ∈ procs, cpuinfo.HasApicid p a then 1 else c.siblingMap a) ∧
      c' = { c with siblingMap := c'.siblingMap } := by
  obtain ⟨c', hrun, hmarks⟩ := cpumapLoop_marks t.first_ne t.first_le t.rest_length t.first_digits
    t.rest_digits (fun p hp => hcover p ((h p).mpr hp)) c
  have hnum : (t.chars.length + 8) / 9 = t.rest.length + 1 := by
    have hle := t.first_le
    have hpos := List.length_pos_iff.mpr t.first_ne
    rw [SharedCpuMap.chars, length_joinGroups t.rest_length]
    omega
  refine ⟨c', ?_, ?_, hmarks.same⟩
  · rw [cpumapToCpuCi, hnum]
    exact hrun
  · intro a
    split
    next hex =>
      obtain ⟨p, hp, ha⟩ := hex
      exact hmarks.set a p ((h p).mp hp) ha
    next hno => exact hmarks.keep a fun p hp ha => hno ⟨p, (h p).mpr hp, ha⟩

/-- A set of two processors in two groups. -/
def sampleMap : SharedCpuMap where
  first := ['2']
  rest := [['0', '0', '0', '0', '0', '0', '0', '1']]
  first_ne := by decide
  first_le := by decide
  rest_length := by decide
  first_digits := List.all_eq_true.mp rfl
  rest_digits := by
    simp only [List.mem_singleton, forall_eq]
    exact List.all_eq_true.mp rfl

theorem prints_sampleMap : sampleMap.Prints {0, 33} := by
  intro p
  have hvalue : hexValue (sampleMap.first ++ sampleMap.rest.flatten) = 2 ^ 0 ||| 2 ^ 33 := by decide
  rw [hvalue, Nat.testBit_or, Nat.testBit_two_pow, Nat.testBit_two_pow, Bool.or_eq_true,
    decide_eq_true_eq, decide_eq_true_eq, Finset.mem_insert, Finset.mem_singleton]
  exact or_congr eq_comm eq_comm

/-- A table of 34 processors, where each has its number plus one as its apic id. -/
def sampleTable : CpuTable where
  rows := (List.range 34).map fun i => ⟨i + 1, []⟩
  length_le := by decide

/-- The two processors of the sample. -/
theorem siblings_exact_sample :
    ∃ c', cpumapToCpuCi sampleMap.chars sampleTable {} = some c' ∧
      c'.siblingMap ⟨34, by decide⟩ = 1 ∧ c'.siblingMap ⟨33, by decide⟩ = 0 := by
  obtain ⟨c', hrun, hmap, _⟩ :=
    siblings_exact sampleMap {0, 33} prints_sampleMap sampleTable (by decide) {}
  refine ⟨c', hrun, ?_, ?_⟩
  · rw [hmap]
    decide
  · rw [hmap]
    decide

end RocDxg
