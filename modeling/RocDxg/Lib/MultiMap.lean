import Mathlib.Data.List.Nodup
import Mathlib.Logic.Function.Basic

/-!
# Multimaps with node identity

An ordered multimap whose iterators outlive other insertions and erasures.  A
node carries an identity that is never used twice, and an iterator is the
identity of its node.  Equal keys stand in insertion order, as an ordered
multimap keeps them.

`Indexes` says that a multimap is the index, by key, of a partial function: it
holds one node per argument at which the function is defined, and the function
returns the key and the iterator of that node.
-/

namespace Lib

/-- A node of a multimap: its identity, its key and its value. -/
structure Node where
  /-- The identity, which is what an iterator holds. -/
  id : Nat
  /-- The key the multimap is ordered by. -/
  key : Nat
  /-- The mapped value. -/
  val : Nat
deriving DecidableEq, Repr

/-- An ordered multimap from `Nat` to `Nat`. -/
structure MultiMap where
  /-- The nodes, in key order. -/
  nodes : List Node
  /-- The identity of the next node. -/
  next : Nat
  /-- Keys increase weakly. -/
  sorted : nodes.Pairwise fun a b => a.key ≤ b.key
  /-- The next identity is new. -/
  fresh : ∀ n ∈ nodes, n.id < next
  /-- Identities are distinct. -/
  distinct : nodes.Pairwise fun a b => a.id ≠ b.id

namespace MultiMap

/-- The empty multimap. -/
def empty : MultiMap := ⟨[], 0, .nil, by simp, .nil⟩

/-- Drop every node.  Identities are not used again. -/
def clear (m : MultiMap) : MultiMap := ⟨[], m.next, .nil, by simp, .nil⟩

/-- The first node whose key is at least `k`. -/
def lowerBound (m : MultiMap) (k : Nat) : Option Node := m.nodes.find? fun n => k ≤ n.key

/-- Insert a node after the nodes of the same key. -/
def insert (m : MultiMap) (k v : Nat) : MultiMap where
  nodes := m.nodes.filter (fun n => n.key ≤ k) ++ ⟨m.next, k, v⟩ ::
    m.nodes.filter fun n => k < n.key
  next := m.next + 1
  sorted := by
    rw [List.pairwise_append, List.pairwise_cons]
    refine ⟨m.sorted.filter _, ⟨?_, m.sorted.filter _⟩, ?_⟩
    · intro n hn
      have := (List.mem_filter.mp hn).2
      simp only [decide_eq_true_eq] at this
      exact Nat.le_of_lt this
    · intro n hn n' hn'
      have hle := (List.mem_filter.mp hn).2
      simp only [decide_eq_true_eq] at hle
      rcases List.mem_cons.mp hn' with heq | hmem
      · rw [heq]
        exact hle
      · have hlt := (List.mem_filter.mp hmem).2
        simp only [decide_eq_true_eq] at hlt
        omega
  fresh := by
    intro n hn
    rcases List.mem_append.mp hn with hmem | hmem
    · exact Nat.lt_succ_of_lt (m.fresh n (List.mem_filter.mp hmem).1)
    · rcases List.mem_cons.mp hmem with heq | hmem
      · rw [heq]
        exact Nat.lt_succ_self _
      · exact Nat.lt_succ_of_lt (m.fresh n (List.mem_filter.mp hmem).1)
  distinct := by
    rw [List.pairwise_append, List.pairwise_cons]
    refine ⟨m.distinct.filter _, ⟨?_, m.distinct.filter _⟩, ?_⟩
    · intro n hn
      exact Nat.ne_of_gt (m.fresh n (List.mem_filter.mp hn).1)
    · intro n hn n' hn'
      obtain ⟨hmem, hle⟩ := List.mem_filter.mp hn
      rcases List.mem_cons.mp hn' with heq | hmem'
      · rw [heq]
        exact Nat.ne_of_lt (m.fresh n hmem)
      · obtain ⟨hmem', hlt⟩ := List.mem_filter.mp hmem'
        -- two nodes of `m` with the same identity would be one node
        intro heq
        have hone : n = n' :=
          List.inj_on_of_nodup_map (List.pairwise_map.mpr m.distinct) hmem hmem' heq
        rw [hone] at hle
        simp only [decide_eq_true_eq] at hle hlt
        omega

/-- Erase the node an iterator points at. -/
def erase (m : MultiMap) (i : Nat) : MultiMap where
  nodes := m.nodes.filter fun n => n.id ≠ i
  next := m.next
  sorted := m.sorted.filter _
  fresh := fun n hn => m.fresh n (List.mem_filter.mp hn).1
  distinct := m.distinct.filter _

@[simp] theorem nodes_empty : empty.nodes = [] := rfl

@[simp] theorem nodes_clear (m : MultiMap) : m.clear.nodes = [] := rfl

@[simp] theorem mem_insert {m : MultiMap} {k v : Nat} {n : Node} :
    n ∈ (m.insert k v).nodes ↔ n = ⟨m.next, k, v⟩ ∨ n ∈ m.nodes := by
  simp only [insert, List.mem_append, List.mem_cons, List.mem_filter, decide_eq_true_eq]
  constructor
  · rintro (⟨hmem, _⟩ | heq | ⟨hmem, _⟩)
    · exact Or.inr hmem
    · exact Or.inl heq
    · exact Or.inr hmem
  · rintro (heq | hmem)
    · exact Or.inr (Or.inl heq)
    · rcases Nat.lt_or_ge k n.key with hlt | hge
      · exact Or.inr (Or.inr ⟨hmem, hlt⟩)
      · exact Or.inl ⟨hmem, hge⟩

@[simp] theorem mem_erase {m : MultiMap} {i : Nat} {n : Node} :
    n ∈ (m.erase i).nodes ↔ n ∈ m.nodes ∧ n.id ≠ i := by
  simp [erase]

/-- An iterator points at one node. -/
theorem eq_of_id {m : MultiMap} {n n' : Node} (hn : n ∈ m.nodes) (hn' : n' ∈ m.nodes)
    (h : n.id = n'.id) : n = n' :=
  List.inj_on_of_nodup_map (List.pairwise_map.mpr m.distinct) hn hn' h

theorem lowerBound_mem {m : MultiMap} {k : Nat} {n : Node} (h : m.lowerBound k = some n) :
    n ∈ m.nodes ∧ k ≤ n.key :=
  ⟨List.mem_of_find?_eq_some h, by simpa using List.find?_some h⟩

theorem lowerBound_eq_none {m : MultiMap} {k : Nat} :
    m.lowerBound k = none ↔ ∀ n ∈ m.nodes, n.key < k := by
  simp [lowerBound]

end MultiMap

/-! ## Indexes -/

/-- `m` is the index of the partial function `view`: at each argument the
function gives the key and the iterator of the one node with that value. -/
def Indexes (view : Nat → Option (Nat × Nat)) (m : MultiMap) : Prop :=
  ∀ a k i, view a = some (k, i) ↔ ⟨i, k, a⟩ ∈ m.nodes

namespace Indexes

theorem empty : Indexes (fun _ => none) .empty := by
  intro a k i
  simp

/-- An argument the function is not defined at joins the index. -/
theorem insert {view : Nat → Option (Nat × Nat)} {m : MultiMap} (h : Indexes view m)
    {a : Nat} (k : Nat) (ha : view a = none) :
    Indexes (Function.update view a (some (k, m.next))) (m.insert k a) := by
  intro b k' i
  rw [MultiMap.mem_insert]
  by_cases hb : b = a
  · subst hb
    rw [Function.update_self]
    constructor
    · intro heq
      cases heq
      exact Or.inl rfl
    · rintro (heq | hmem)
      · cases heq
        rfl
      · rw [(h b k' i).mpr hmem] at ha
        cases ha
  · rw [Function.update_of_ne hb]
    constructor
    · intro hv
      exact Or.inr ((h b k' i).mp hv)
    · rintro (heq | hmem)
      · cases heq
        exact absurd rfl hb
      · exact (h b k' i).mpr hmem

/-- Erasing the iterator of an argument removes the argument. -/
theorem erase {view : Nat → Option (Nat × Nat)} {m : MultiMap} (h : Indexes view m)
    {a k i : Nat} (ha : view a = some (k, i)) :
    Indexes (Function.update view a none) (m.erase i) := by
  intro b k' j
  rw [MultiMap.mem_erase]
  by_cases hb : b = a
  · subst hb
    rw [Function.update_self]
    constructor
    · intro heq
      cases heq
    · rintro ⟨hmem, hne⟩
      rw [(h b k' j).mpr hmem] at ha
      cases ha
      exact absurd rfl hne
  · rw [Function.update_of_ne hb]
    constructor
    · intro hv
      have hmem := (h b k' j).mp hv
      refine ⟨hmem, fun hj => hb ?_⟩
      have := MultiMap.eq_of_id hmem ((h a k i).mp ha) hj
      exact congrArg Node.val this
    · rintro ⟨hmem, _⟩
      exact (h b k' j).mpr hmem

end Indexes

end Lib
