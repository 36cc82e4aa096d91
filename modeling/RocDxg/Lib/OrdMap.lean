import Mathlib.Data.List.Basic
import Mathlib.Logic.Function.Basic

/-!
# Ordered maps

A finite map with keys in `Nat`, kept as the list of its entries in increasing
key order.  The order is a field of the structure, so that every map built here
is sorted.  Iterators of a sorted container are modelled by the key they point
at: `prev?` and `next?` are the decrement and the increment of an iterator, and
`floor?` is the entry before `upper_bound`.

Every operation is a cut of the entry list at a key, `below` and `above`.  The
cut lemmas (`below_of_cut`, `above_of_cut`) turn an operation on a map whose
entries are written as `pre ++ post` into a list equation.
-/

namespace Lib

/-- A finite map from `Nat`, as its entries in increasing key order. -/
structure OrdMap (α : Type u) where
  /-- The entries. -/
  entries : List (Nat × α)
  /-- Keys increase strictly. -/
  sorted : entries.Pairwise fun a b => a.1 < b.1

namespace OrdMap

variable {α : Type u}

/-- Two maps with the same entries are equal. -/
@[ext] theorem ext {m m' : OrdMap α} (h : m.entries = m'.entries) : m = m' := by
  cases m
  cases m'
  cases h
  rfl

/-- The empty map. -/
def empty : OrdMap α := ⟨[], List.Pairwise.nil⟩

instance : Inhabited (OrdMap α) := ⟨empty⟩

/-! ## Cuts -/

/-- The entries with a key less than `k`. -/
def below (m : OrdMap α) (k : Nat) : List (Nat × α) := m.entries.filter fun e => e.1 < k

/-- The entries with a key greater than `k`. -/
def above (m : OrdMap α) (k : Nat) : List (Nat × α) := m.entries.filter fun e => k < e.1

/-- The entries with a key up to `k`. -/
def upto (m : OrdMap α) (k : Nat) : List (Nat × α) := m.entries.filter fun e => e.1 ≤ k

theorem mem_below {m : OrdMap α} {k : Nat} {e : Nat × α} :
    e ∈ m.below k ↔ e ∈ m.entries ∧ e.1 < k := by
  simp [below]

theorem mem_above {m : OrdMap α} {k : Nat} {e : Nat × α} :
    e ∈ m.above k ↔ e ∈ m.entries ∧ k < e.1 := by
  simp [above]

theorem mem_upto {m : OrdMap α} {k : Nat} {e : Nat × α} :
    e ∈ m.upto k ↔ e ∈ m.entries ∧ e.1 ≤ k := by
  simp [upto]

theorem filter_of_cut {p : Nat × α → Bool} {pre post : List (Nat × α)}
    (hpre : ∀ e ∈ pre, p e = true) (hpost : ∀ e ∈ post, p e = false) :
    (pre ++ post).filter p = pre := by
  rw [List.filter_append, List.filter_eq_self.mpr hpre, List.filter_eq_nil_iff.mpr, List.append_nil]
  intro e he
  simp [hpost e he]

theorem filter_of_cut_right {p : Nat × α → Bool} {pre post : List (Nat × α)}
    (hpre : ∀ e ∈ pre, p e = false) (hpost : ∀ e ∈ post, p e = true) :
    (pre ++ post).filter p = post := by
  rw [List.filter_append, List.filter_eq_self.mpr hpost, List.filter_eq_nil_iff.mpr,
    List.nil_append]
  intro e he
  simp [hpre e he]

theorem below_of_cut {m : OrdMap α} {k : Nat} {pre post : List (Nat × α)}
    (h : m.entries = pre ++ post) (hpre : ∀ e ∈ pre, e.1 < k) (hpost : ∀ e ∈ post, k ≤ e.1) :
    m.below k = pre := by
  rw [below, h]
  apply filter_of_cut
  · intro e he
    simpa using hpre e he
  · intro e he
    simpa using hpost e he

theorem above_of_cut {m : OrdMap α} {k : Nat} {pre post : List (Nat × α)}
    (h : m.entries = pre ++ post) (hpre : ∀ e ∈ pre, e.1 ≤ k) (hpost : ∀ e ∈ post, k < e.1) :
    m.above k = post := by
  rw [above, h]
  apply filter_of_cut_right
  · intro e he
    simpa using hpre e he
  · intro e he
    simpa using hpost e he

theorem upto_of_cut {m : OrdMap α} {k : Nat} {pre post : List (Nat × α)}
    (h : m.entries = pre ++ post) (hpre : ∀ e ∈ pre, e.1 ≤ k) (hpost : ∀ e ∈ post, k < e.1) :
    m.upto k = pre := by
  rw [upto, h]
  apply filter_of_cut
  · intro e he
    simpa using hpre e he
  · intro e he
    simpa using hpost e he

/-- The keys on both sides of an entry of the list. -/
theorem sorted_cut {m : OrdMap α} {pre post : List (Nat × α)} {e : Nat × α}
    (h : m.entries = pre ++ e :: post) :
    (∀ x ∈ pre, x.1 < e.1) ∧ ∀ x ∈ post, e.1 < x.1 := by
  have hs := m.sorted
  rw [h, List.pairwise_append, List.pairwise_cons] at hs
  exact ⟨fun x hx => hs.2.2 x hx e (List.mem_cons_self ..), hs.2.1.1⟩

/-- The cuts at the key of an entry. -/
theorem cut_at_entry {m : OrdMap α} {k : Nat} {v : α} {pre post : List (Nat × α)}
    (h : m.entries = pre ++ (k, v) :: post) : m.below k = pre ∧ m.above k = post := by
  have hs := sorted_cut h
  constructor
  · apply below_of_cut h hs.1
    intro e he
    cases List.mem_cons.mp he with
    | inl heq => exact Nat.le_of_eq (by rw [heq])
    | inr hmem => exact Nat.le_of_lt (hs.2 e hmem)
  · have hcut : m.entries = (pre ++ [(k, v)]) ++ post := by
      rw [h]
      simp
    apply above_of_cut hcut _ hs.2
    intro e he
    cases List.mem_append.mp he with
    | inl hmem => exact Nat.le_of_lt (hs.1 e hmem)
    | inr hmem => exact Nat.le_of_eq (by rw [List.mem_singleton.mp hmem])

/-! ## Lookup -/

/-- The value at a key. -/
def find? (m : OrdMap α) (k : Nat) : Option α := (m.entries.find? fun e => e.1 == k).map Prod.snd

@[simp] theorem find?_empty (k : Nat) : (empty : OrdMap α).find? k = none := rfl

theorem find?_eq_some {m : OrdMap α} {k : Nat} {v : α} :
    m.find? k = some v ↔ (k, v) ∈ m.entries := by
  constructor
  · intro h
    rw [find?, Option.map_eq_some_iff] at h
    obtain ⟨e, he, hv⟩ := h
    have hk : e.1 = k := by simpa using List.find?_some he
    have := List.mem_of_find?_eq_some he
    rwa [← hk, ← hv]
  · intro h
    obtain ⟨pre, post, hcut⟩ := List.append_of_mem h
    have hpre := (sorted_cut hcut).1
    rw [find?, hcut, List.find?_append, List.find?_eq_none.mpr]
    · simp
    · intro e he
      have := hpre e he
      simp only [beq_iff_eq]
      omega

theorem find?_eq_none {m : OrdMap α} {k : Nat} :
    m.find? k = none ↔ ∀ e ∈ m.entries, e.1 ≠ k := by
  simp [find?]

/-- An entry cuts the list at its key. -/
theorem entries_of_find? {m : OrdMap α} {k : Nat} {v : α} (h : m.find? k = some v) :
    m.entries = m.below k ++ (k, v) :: m.above k := by
  obtain ⟨pre, post, hcut⟩ := List.append_of_mem (find?_eq_some.mp h)
  obtain ⟨hb, ha⟩ := cut_at_entry hcut
  rw [hb, ha, hcut]

/-! ## Neighbours -/

/-- The entry before an iterator at `k`. -/
def prev? (m : OrdMap α) (k : Nat) : Option (Nat × α) := (m.below k).getLast?

/-- The entry after an iterator at `k`. -/
def next? (m : OrdMap α) (k : Nat) : Option (Nat × α) := (m.above k).head?

/-- The last entry with a key up to `k`: the one before `upper_bound k`. -/
def floor? (m : OrdMap α) (k : Nat) : Option (Nat × α) := (m.upto k).getLast?

/-- The entry before a key stands next to it in the list. -/
theorem entries_of_prev? {m : OrdMap α} {k : Nat} {v : α} {e : Nat × α} (h : m.find? k = some v)
    (hp : m.prev? k = some e) : ∃ pre, m.entries = pre ++ e :: (k, v) :: m.above k := by
  refine ⟨(m.below k).dropLast, ?_⟩
  have hb : (m.below k).dropLast ++ [e] = m.below k := List.dropLast_append_getLast? e hp
  have hcut := entries_of_find? h
  rw [← hb] at hcut
  rw [hcut]
  simp

/-- The entry after a key stands next to it in the list. -/
theorem entries_of_next? {m : OrdMap α} {k : Nat} {v : α} {e : Nat × α} (h : m.find? k = some v)
    (hn : m.next? k = some e) : ∃ post, m.entries = m.below k ++ (k, v) :: e :: post := by
  refine ⟨(m.above k).tail, ?_⟩
  have ha : e :: (m.above k).tail = m.above k := by
    rw [next?] at hn
    cases hl : m.above k with
    | nil => rw [hl] at hn; cases hn
    | cons x l => rw [hl] at hn; cases hn; rfl
  rw [ha]
  exact entries_of_find? h

theorem floor?_mem {m : OrdMap α} {k : Nat} {e : Nat × α} (h : m.floor? k = some e) :
    e ∈ m.entries ∧ e.1 ≤ k :=
  mem_upto.mp (List.mem_of_getLast? h)

/-- Up to `k` there is nothing after the entry whose key is followed by no key up to `k`. -/
theorem upto_of_gap {m : OrdMap α} {k b : Nat} {v : α} (h : m.find? b = some v) (hk : b ≤ k)
    (hgap : ∀ e ∈ m.entries, b < e.1 → k < e.1) : m.upto k = m.below b ++ [(b, v)] := by
  have hcut : m.entries = (m.below b ++ [(b, v)]) ++ m.above b := by
    rw [entries_of_find? h]
    simp [below, above]
  apply upto_of_cut hcut
  · intro e he
    rcases List.mem_append.mp he with hmem | hmem
    · exact Nat.le_trans (Nat.le_of_lt (mem_below.mp hmem).2) hk
    · rw [List.mem_singleton.mp hmem]
      exact hk
  · intro e he
    obtain ⟨hmem, hlt⟩ := mem_above.mp he
    exact hgap e hmem hlt

/-- The floor of `k` is the entry whose key is followed by no key up to `k`. -/
theorem floor?_of_gap {m : OrdMap α} {k b : Nat} {v : α} (h : m.find? b = some v) (hk : b ≤ k)
    (hgap : ∀ e ∈ m.entries, b < e.1 → k < e.1) : m.floor? k = some (b, v) := by
  rw [floor?, upto_of_gap h hk hgap, List.getLast?_concat]

/-! ## Updates -/

/-- Assign a value to a key. -/
def insert (m : OrdMap α) (k : Nat) (v : α) : OrdMap α where
  entries := m.below k ++ (k, v) :: m.above k
  sorted := by
    rw [List.pairwise_append, List.pairwise_cons]
    refine ⟨m.sorted.filter _, ⟨?_, m.sorted.filter _⟩, ?_⟩
    · intro e he
      exact (mem_above.mp he).2
    · intro e he e' he'
      have hlt := (mem_below.mp he).2
      cases List.mem_cons.mp he' with
      | inl heq => rw [heq]; exact hlt
      | inr hmem => exact Nat.lt_trans hlt (mem_above.mp hmem).2

/-- Remove a key. -/
def erase (m : OrdMap α) (k : Nat) : OrdMap α where
  entries := m.below k ++ m.above k
  sorted := by
    rw [List.pairwise_append]
    refine ⟨m.sorted.filter _, m.sorted.filter _, ?_⟩
    intro e he e' he'
    exact Nat.lt_trans (mem_below.mp he).2 (mem_above.mp he').2

/-- Assigning a key that splits the entries puts the new entry at the split. -/
theorem insert_of_cut {m : OrdMap α} {k : Nat} (v : α) {pre post : List (Nat × α)}
    (h : m.entries = pre ++ post) (hpre : ∀ e ∈ pre, e.1 < k) (hpost : ∀ e ∈ post, k < e.1) :
    (m.insert k v).entries = pre ++ (k, v) :: post := by
  have hb := below_of_cut h hpre fun e he => Nat.le_of_lt (hpost e he)
  have ha := above_of_cut h (fun e he => Nat.le_of_lt (hpre e he)) hpost
  simp only [insert, hb, ha]

/-- Assigning a key of the map replaces its value in place. -/
theorem insert_of_entry {m : OrdMap α} {k : Nat} {v : α} (v' : α) {pre post : List (Nat × α)}
    (h : m.entries = pre ++ (k, v) :: post) : (m.insert k v').entries = pre ++ (k, v') :: post := by
  obtain ⟨hb, ha⟩ := cut_at_entry h
  simp only [insert, hb, ha]

/-- Removing a key of the map removes its entry in place. -/
theorem erase_of_entry {m : OrdMap α} {k : Nat} {v : α} {pre post : List (Nat × α)}
    (h : m.entries = pre ++ (k, v) :: post) : (m.erase k).entries = pre ++ post := by
  obtain ⟨hb, ha⟩ := cut_at_entry h
  simp only [erase, hb, ha]

theorem mem_insert {m : OrdMap α} {k : Nat} {v : α} {e : Nat × α} :
    e ∈ (m.insert k v).entries ↔ e = (k, v) ∨ (e ∈ m.entries ∧ e.1 ≠ k) := by
  simp only [insert, List.mem_append, List.mem_cons, mem_below, mem_above]
  constructor
  · rintro (⟨hmem, hlt⟩ | heq | ⟨hmem, hlt⟩)
    · exact Or.inr ⟨hmem, by omega⟩
    · exact Or.inl heq
    · exact Or.inr ⟨hmem, by omega⟩
  · rintro (heq | ⟨hmem, hne⟩)
    · exact Or.inr (Or.inl heq)
    · rcases Nat.lt_or_gt_of_ne hne with hlt | hgt
      · exact Or.inl ⟨hmem, hlt⟩
      · exact Or.inr (Or.inr ⟨hmem, hgt⟩)

theorem mem_erase {m : OrdMap α} {k : Nat} {e : Nat × α} :
    e ∈ (m.erase k).entries ↔ e ∈ m.entries ∧ e.1 ≠ k := by
  simp only [erase, List.mem_append, mem_below, mem_above]
  constructor
  · rintro (⟨hmem, hlt⟩ | ⟨hmem, hlt⟩)
    · exact ⟨hmem, by omega⟩
    · exact ⟨hmem, by omega⟩
  · rintro ⟨hmem, hne⟩
    rcases Nat.lt_or_gt_of_ne hne with hlt | hgt
    · exact Or.inl ⟨hmem, hlt⟩
    · exact Or.inr ⟨hmem, hgt⟩

@[simp] theorem find?_insert (m : OrdMap α) (k k' : Nat) (v : α) :
    (m.insert k v).find? k' = if k' = k then some v else m.find? k' := by
  split
  next heq =>
    rw [find?_eq_some, mem_insert, heq]
    exact Or.inl rfl
  next hne =>
    cases hf : m.find? k' with
    | none =>
        rw [find?_eq_none] at hf ⊢
        intro e he
        rcases mem_insert.mp he with heq | ⟨hmem, _⟩
        · rw [heq]
          exact fun h => hne h.symm
        · exact hf e hmem
    | some w =>
        rw [find?_eq_some] at hf ⊢
        exact mem_insert.mpr (Or.inr ⟨hf, hne⟩)

@[simp] theorem find?_erase (m : OrdMap α) (k k' : Nat) :
    (m.erase k).find? k' = if k' = k then none else m.find? k' := by
  split
  next heq =>
    rw [find?_eq_none]
    intro e he
    rw [heq]
    exact (mem_erase.mp he).2
  next hne =>
    cases hf : m.find? k' with
    | none =>
        rw [find?_eq_none] at hf ⊢
        intro e he
        exact hf e (mem_erase.mp he).1
    | some w =>
        rw [find?_eq_some] at hf ⊢
        exact mem_erase.mpr ⟨hf, hne⟩

theorem length_insert (m : OrdMap α) (k : Nat) (v : α) :
    (m.insert k v).entries.length = (m.erase k).entries.length + 1 := by
  simp only [insert, erase, List.length_append, List.length_cons]
  omega

theorem length_erase {m : OrdMap α} {k : Nat} {v : α} (h : m.find? k = some v) :
    (m.erase k).entries.length + 1 = m.entries.length := by
  rw [entries_of_find? h]
  simp only [erase, List.length_append, List.length_cons]
  omega

/-- Maps are determined by their lookups. -/
theorem ext_find? {m m' : OrdMap α} (h : ∀ k, m.find? k = m'.find? k) : m = m' := by
  apply ext
  have hirrefl : ∀ a b : Nat × α, a ∈ m.entries → b ∈ m'.entries → a.1 < b.1 → b.1 < a.1 → a = b :=
    fun a b _ _ hab hba => absurd (Nat.lt_trans hab hba) (Nat.lt_irrefl _)
  apply List.Perm.eq_of_pairwise hirrefl m.sorted m'.sorted
  have hne : ∀ {m : OrdMap α}, m.entries.Nodup := fun {m} =>
    m.sorted.imp fun {a b} hlt heq => Nat.ne_of_lt hlt (congrArg Prod.fst heq)
  apply (List.perm_ext_iff_of_nodup hne hne).mpr
  intro e
  rw [← find?_eq_some, ← find?_eq_some, h]

theorem insert_comm (m : OrdMap α) {k k' : Nat} (v v' : α) (h : k ≠ k') :
    (m.insert k v).insert k' v' = (m.insert k' v').insert k v := by
  apply ext_find?
  intro j
  simp only [find?_insert]
  split
  next heq =>
    rw [if_neg]
    rw [heq]
    exact fun h' => h h'.symm
  next => rfl

@[simp] theorem insert_insert (m : OrdMap α) (k : Nat) (v v' : α) :
    (m.insert k v).insert k v' = m.insert k v' := by
  apply ext_find?
  intro j
  simp only [find?_insert]
  split <;> rfl

theorem mem_of_prev? {m : OrdMap α} {k k' : Nat} {v' : α} (h : m.prev? k = some (k', v')) :
    m.find? k' = some v' ∧ k' < k := by
  obtain ⟨hmem, hlt⟩ := mem_below.mp (List.mem_of_getLast? h)
  exact ⟨find?_eq_some.mpr hmem, hlt⟩

theorem mem_of_next? {m : OrdMap α} {k k' : Nat} {v' : α} (h : m.next? k = some (k', v')) :
    m.find? k' = some v' ∧ k < k' := by
  obtain ⟨hmem, hlt⟩ := mem_above.mp (List.mem_of_head? h)
  exact ⟨find?_eq_some.mpr hmem, hlt⟩

/-- A key follows the entry before it. -/
theorem next?_of_prev? {m : OrdMap α} {k k' : Nat} {v v' : α} (h : m.find? k = some v)
    (hp : m.prev? k = some (k', v')) : m.next? k' = some (k, v) := by
  obtain ⟨pre, hcut⟩ := entries_of_prev? h hp
  rw [next?, (cut_at_entry hcut).2]
  rfl

/-! ## Views -/

/-- The partial function on keys that reads `f` off the values. -/
def view {β : Type v} (f : α → Option β) (m : OrdMap α) (k : Nat) : Option β :=
  (m.find? k).bind f

section View

variable {β : Type v} {f : α → Option β} {m : OrdMap α} {k : Nat} {v : α}

theorem view_of_find? (h : m.find? k = some v) : m.view f k = f v := by
  rw [view, h]
  rfl

theorem view_of_none (h : m.find? k = none) : m.view f k = none := by
  rw [view, h]
  rfl

theorem view_eq_some {b : β} :
    m.view f k = some b ↔ ∃ v, m.find? k = some v ∧ f v = some b :=
  Option.bind_eq_some_iff

theorem view_insert (m : OrdMap α) (k : Nat) (v : α) :
    (m.insert k v).view f = Function.update (m.view f) k (f v) := by
  funext k'
  simp only [view, find?_insert, Function.update_apply]
  split <;> rfl

theorem view_erase (m : OrdMap α) (k : Nat) :
    (m.erase k).view f = Function.update (m.view f) k none := by
  funext k'
  simp only [view, find?_erase, Function.update_apply]
  split <;> rfl

end View

/-! ## Restriction -/

/-- Keep the entries whose value meets a condition. -/
def filter (p : α → Bool) (m : OrdMap α) : OrdMap α :=
  ⟨m.entries.filter fun e => p e.2, m.sorted.filter _⟩

theorem find?_filter_eq_some {p : α → Bool} {m : OrdMap α} {k : Nat} {v : α} :
    (m.filter p).find? k = some v ↔ m.find? k = some v ∧ p v = true := by
  rw [find?_eq_some, find?_eq_some, filter, List.mem_filter]

theorem find?_filter_of_find? {p : α → Bool} {m : OrdMap α} {k : Nat} {v : α}
    (h : m.find? k = some v) : (m.filter p).find? k = if p v then some v else none := by
  split
  next hp => exact find?_filter_eq_some.mpr ⟨h, hp⟩
  next hp =>
    cases hf : (m.filter p).find? k with
    | none => rfl
    | some w =>
        obtain ⟨hw, hpw⟩ := find?_filter_eq_some.mp hf
        rw [h] at hw
        cases hw
        exact absurd hpw hp

theorem find?_filter_of_none {p : α → Bool} {m : OrdMap α} {k : Nat} (h : m.find? k = none) :
    (m.filter p).find? k = none := by
  cases hf : (m.filter p).find? k with
  | none => rfl
  | some w =>
      rw [(find?_filter_eq_some.mp hf).1] at h
      cases h

theorem filter_insert {p : α → Bool} (m : OrdMap α) (k : Nat) {v : α} (hv : p v = true) :
    (m.insert k v).filter p = (m.filter p).insert k v := by
  apply ext_find?
  intro j
  refine Option.ext fun w => ?_
  rw [find?_filter_eq_some, find?_insert, find?_insert]
  split
  next =>
    constructor
    · exact And.left
    · intro hw
      refine ⟨hw, ?_⟩
      cases hw
      exact hv
  next => exact find?_filter_eq_some.symm

theorem filter_erase {p : α → Bool} (m : OrdMap α) (k : Nat) :
    (m.erase k).filter p = (m.filter p).erase k := by
  apply ext_find?
  intro j
  refine Option.ext fun w => ?_
  rw [find?_filter_eq_some, find?_erase, find?_erase]
  split
  next => simp
  next => exact find?_filter_eq_some.symm

theorem erase_of_none {m : OrdMap α} {k : Nat} (h : m.find? k = none) : m.erase k = m := by
  apply ext_find?
  intro j
  rw [find?_erase]
  split
  next hj => rw [hj, h]
  next => rfl

/-! ## Change of values -/

/-- Change every value. -/
def mapVal {β : Type v} (g : α → β) (m : OrdMap α) : OrdMap β where
  entries := m.entries.map fun e => (e.1, g e.2)
  sorted := List.pairwise_map.mpr m.sorted

theorem find?_mapVal {β : Type v} (g : α → β) (m : OrdMap α) (k : Nat) :
    (m.mapVal g).find? k = (m.find? k).map g := by
  refine Option.ext fun v => ?_
  rw [Option.map_eq_some_iff, find?_eq_some]
  simp only [mapVal, List.mem_map, Prod.mk.injEq, Prod.exists]
  constructor
  · rintro ⟨k', w, hw, rfl, hv⟩
    exact ⟨w, find?_eq_some.mpr hw, hv⟩
  · rintro ⟨w, hw, hv⟩
    exact ⟨k, w, find?_eq_some.mp hw, rfl, hv⟩

/-! ## Entries up to order -/

theorem insert_perm (m : OrdMap α) (k : Nat) (v : α) :
    (m.insert k v).entries.Perm ((k, v) :: (m.erase k).entries) :=
  List.perm_middle

theorem perm_erase {m : OrdMap α} {k : Nat} {v : α} (h : m.find? k = some v) :
    m.entries.Perm ((k, v) :: (m.erase k).entries) :=
  (List.Perm.of_eq (entries_of_find? h)).trans List.perm_middle

end OrdMap

end Lib
