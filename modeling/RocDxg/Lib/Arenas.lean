import RocDxg.Lib.Arena

/-!
# Arenas that share an index

A map from the lower ends of disjoint intervals to the fragments of each, with one
index for the free fragments of all.  `Arenas.arena` focuses on one interval, where the
moves of `Limbo` apply, and `Arenas.restore` puts the result back; `Arenas.add` and
`Arenas.remove` are for whole intervals.

`live` is what the fragments say about the outside: the partial function from the
addresses of the used fragments to their sizes.
-/

namespace Lib

variable {φ : Type u} (A : Account φ)

/-- The fragments of each interval tile it, the intervals are disjoint, and the index
holds the free fragments. -/
structure Arenas (fl : MultiMap) (bl : OrdMap (OrdMap φ)) : Prop where
  tiles : ∀ {b fm}, bl.find? b = some fm → TileMap A.size b (b + total A.size fm) fm
  pos : ∀ {b fm}, bl.find? b = some fm → 0 < total A.size fm
  ok : ∀ {b fm a f}, bl.find? b = some fm → fm.find? a = some f → A.ok f
  apart : ∀ {b fm b' fm'}, bl.find? b = some fm → bl.find? b' = some fm' → b < b' →
    b + total A.size fm ≤ b'
  nodes : ∀ {n}, n ∈ fl.nodes ↔ ∃ b fm f, bl.find? b = some fm ∧ fm.find? n.val = some f ∧
    A.entry f = some (n.key, n.id)

/-- The fragment at an address, found from the interval below it. -/
def fragment? (bl : OrdMap (OrdMap φ)) (a : Nat) : Option φ :=
  (bl.floor? a).bind fun e => e.2.find? a

/-- The size of the used fragment at an address. -/
def live (bl : OrdMap (OrdMap φ)) (a : Nat) : Option Nat := (fragment? bl a).bind A.used

/-- What an index says outside an interval. -/
def elsewhere (fl : MultiMap) (lo hi a : Nat) : Option (Nat × Nat) :=
  if lo ≤ a ∧ a < hi then none
  else (fl.nodes.find? fun n => n.val == a).map fun n => (n.key, n.id)

variable {A} {fl fl' : MultiMap} {bl : OrdMap (OrdMap φ)} {b : Nat} {fm fm' : OrdMap φ}

namespace Arenas

/-- An address lies in one interval only. -/
theorem unique (h : Arenas A fl bl) {b' a : Nat} (hb : bl.find? b = some fm)
    (hb' : bl.find? b' = some fm') (hlo : b ≤ a) (hhi : a < b + total A.size fm) (hlo' : b' ≤ a)
    (hhi' : a < b' + total A.size fm') : b = b' := by
  rcases Nat.lt_trichotomy b b' with hlt | heq | hlt
  · have := h.apart hb hb' hlt
    omega
  · exact heq
  · have := h.apart hb' hb hlt
    omega

theorem bounds (h : Arenas A fl bl) (hb : bl.find? b = some fm) {a : Nat} {f : φ}
    (hf : fm.find? a = some f) : b ≤ a ∧ a < b + total A.size fm := by
  have := (h.tiles hb).bounds hf
  omega

theorem fragment?_eq_some (h : Arenas A fl bl) {a : Nat} {f : φ} :
    fragment? bl a = some f ↔ ∃ b fm, bl.find? b = some fm ∧ fm.find? a = some f := by
  rw [fragment?, Option.bind_eq_some_iff]
  constructor
  · rintro ⟨⟨b, fm⟩, hfloor, hf⟩
    exact ⟨b, fm, OrdMap.find?_eq_some.mpr (OrdMap.floor?_mem hfloor).1, hf⟩
  · rintro ⟨b, fm, hb, hf⟩
    obtain ⟨hlo, hhi⟩ := h.bounds hb hf
    refine ⟨(b, fm), OrdMap.floor?_of_gap hb hlo ?_, hf⟩
    intro e he hlt
    have := h.apart hb (OrdMap.find?_eq_some.mpr he) hlt
    omega

/-- The interval of an address that has a fragment is the floor of the address. -/
theorem floor?_eq (h : Arenas A fl bl) (hb : bl.find? b = some fm) {a : Nat} {f : φ}
    (hf : fm.find? a = some f) : bl.floor? a = some (b, fm) := by
  obtain ⟨hlo, hhi⟩ := h.bounds hb hf
  refine OrdMap.floor?_of_gap hb hlo ?_
  intro e he hlt
  have := h.apart hb (OrdMap.find?_eq_some.mpr he) hlt
  omega

theorem live_eq_some (h : Arenas A fl bl) {a n : Nat} :
    live A bl a = some n ↔ ∃ b fm, bl.find? b = some fm ∧ fm.view A.used a = some n := by
  rw [live, Option.bind_eq_some_iff]
  constructor
  · rintro ⟨f, hf, hn⟩
    obtain ⟨b, fm, hb, hf⟩ := h.fragment?_eq_some.mp hf
    exact ⟨b, fm, hb, OrdMap.view_eq_some.mpr ⟨f, hf, hn⟩⟩
  · rintro ⟨b, fm, hb, hv⟩
    obtain ⟨f, hf, hn⟩ := OrdMap.view_eq_some.mp hv
    exact ⟨f, h.fragment?_eq_some.mpr ⟨b, fm, hb, hf⟩, hn⟩

/-- Two nodes at one address are the same. -/
theorem node_unique (h : Arenas A fl bl) {n n' : Node} (hn : n ∈ fl.nodes) (hn' : n' ∈ fl.nodes)
    (heq : n.val = n'.val) : n = n' := by
  obtain ⟨b, fm, f, hb, hf, he⟩ := h.nodes.mp hn
  obtain ⟨b', fm', f', hb', hf', he'⟩ := h.nodes.mp hn'
  rw [← heq] at hf'
  obtain ⟨hlo, hhi⟩ := h.bounds hb hf
  obtain ⟨hlo', hhi'⟩ := h.bounds hb' hf'
  have hbb := h.unique hb hb' hlo hhi hlo' hhi'
  subst hbb
  rw [hb] at hb'
  cases hb'
  rw [hf] at hf'
  cases hf'
  rw [he] at he'
  simp only [Option.some.injEq, Prod.mk.injEq] at he'
  exact MultiMap.eq_of_id hn hn' he'.2

theorem elsewhere_eq_some (h : Arenas A fl bl) {lo hi a k i : Nat} (hout : ¬ (lo ≤ a ∧ a < hi)) :
    elsewhere fl lo hi a = some (k, i) ↔ ⟨i, k, a⟩ ∈ fl.nodes := by
  rw [elsewhere, if_neg hout, Option.map_eq_some_iff]
  constructor
  · rintro ⟨n, hn, heq⟩
    have hmem := List.mem_of_find?_eq_some hn
    have hval : n.val = a := by
      have := List.find?_some hn
      simpa using this
    cases heq
    cases hval
    exact hmem
  · intro hmem
    cases hfind : fl.nodes.find? fun n => n.val == a with
    | none =>
        have := List.find?_eq_none.mp hfind _ hmem
        simp at this
    | some n =>
        have hval : n.val = a := by
          have := List.find?_some hfind
          simpa using this
        have := h.node_unique (List.mem_of_find?_eq_some hfind) hmem hval
        rw [this]
        exact ⟨_, rfl, rfl⟩

/-- Focus on one interval. -/
theorem arena (h : Arenas A fl bl) (hb : bl.find? b = some fm) :
    Arena A b (b + total A.size fm) (elsewhere fl b (b + total A.size fm)) fl fm := by
  refine ⟨h.tiles hb, ?_, ?_, fun hf => h.ok hb hf⟩
  · intro a hlo hhi
    rw [elsewhere, if_pos ⟨hlo, hhi⟩]
  · intro a k i
    rw [beside]
    by_cases hin : b ≤ a ∧ a < b + total A.size fm
    · rw [elsewhere, if_pos hin, Option.or_none, OrdMap.view_eq_some, h.nodes]
      constructor
      · rintro ⟨f, hf, he⟩
        exact ⟨b, fm, f, hb, hf, he⟩
      · rintro ⟨b', fm', f, hb', hf, he⟩
        obtain ⟨hlo', hhi'⟩ := h.bounds hb' hf
        have hbb := h.unique hb hb' hin.1 hin.2 hlo' hhi'
        subst hbb
        rw [hb] at hb'
        cases hb'
        exact ⟨f, hf, he⟩
    · have hnone : fm.view A.entry a = none := by
        cases hv : fm.view A.entry a with
        | none => rfl
        | some e =>
            obtain ⟨f, hf, _⟩ := OrdMap.view_eq_some.mp hv
            exact absurd (h.bounds hb hf) hin
      rw [hnone, Option.none_or]
      exact h.elsewhere_eq_some hin

/-- The nodes of an index that says the same outside one interval. -/
theorem nodes_of_indexed (h : Arenas A fl bl) {lo hi : Nat} {v : Nat → Option (Nat × Nat)}
    (hv : ∀ a, ¬ (lo ≤ a ∧ a < hi) → v a = none) (hindex : Indexes (beside (elsewhere fl lo hi) v) fl')
    {n : Node} :
    n ∈ fl'.nodes ↔ v n.val = some (n.key, n.id) ∨ (¬ (lo ≤ n.val ∧ n.val < hi) ∧ n ∈ fl.nodes) := by
  have hiff := hindex n.val n.key n.id
  rw [← hiff, beside]
  by_cases hin : lo ≤ n.val ∧ n.val < hi
  · rw [elsewhere, if_pos hin, Option.or_none]
    exact ⟨Or.inl, fun h => h.resolve_right fun hout => hout.1 hin⟩
  · rw [hv _ hin, Option.none_or, h.elsewhere_eq_some hin]
    constructor
    · exact fun hn => Or.inr ⟨hin, hn⟩
    · rintro (hnone | hn)
      · cases hnone
      · exact hn.2

theorem view_outside (ht : TileMap A.size b (b + total A.size fm) fm) {β : Type v} {g : φ → Option β}
    {a : Nat} (hout : ¬ (b ≤ a ∧ a < b + total A.size fm)) : fm.view g a = none := by
  cases hv : fm.view g a with
  | none => rfl
  | some e =>
      obtain ⟨f, hf, _⟩ := OrdMap.view_eq_some.mp hv
      have := ht.bounds hf
      omega

/-- Put an interval in, in the place of one that lies in it or beside all others. -/
theorem put (h : Arenas A fl bl) {n : Nat} (hn : 0 < n)
    (hself : ∀ {fm}, bl.find? b = some fm → total A.size fm ≤ n)
    (hothers : ∀ {b' fm''}, b' ≠ b → bl.find? b' = some fm'' →
      b' + total A.size fm'' ≤ b ∨ b + n ≤ b')
    (ha : Arena A b (b + n) (elsewhere fl b (b + n)) fl' fm') :
    Arenas A fl' (bl.insert b fm') ∧ total A.size fm' = n := by
  have htotal : total A.size fm' = n := by
    have := ha.tiles.hi_eq
    omega
  have hfind : ∀ {b' fm''}, (bl.insert b fm').find? b' = some fm'' →
      (b' = b ∧ fm'' = fm') ∨ (b' ≠ b ∧ bl.find? b' = some fm'') := by
    intro b' fm'' hf
    rw [OrdMap.find?_insert] at hf
    split at hf
    next heq =>
      cases hf
      exact Or.inl ⟨heq, rfl⟩
    next hne => exact Or.inr ⟨hne, hf⟩
  refine ⟨⟨?_, ?_, ?_, ?_, ?_⟩, htotal⟩
  · intro b' fm'' hf
    rcases hfind hf with ⟨rfl, rfl⟩ | ⟨_, hold⟩
    · rw [htotal]
      exact ha.tiles
    · exact h.tiles hold
  · intro b' fm'' hf
    rcases hfind hf with ⟨rfl, rfl⟩ | ⟨_, hold⟩
    · rw [htotal]
      exact hn
    · exact h.pos hold
  · intro b' fm'' a f hf hff
    rcases hfind hf with ⟨rfl, rfl⟩ | ⟨_, hold⟩
    · exact ha.ok hff
    · exact h.ok hold hff
  · intro b₁ fm₁ b₂ fm₂ hf₁ hf₂ hlt
    rcases hfind hf₁ with ⟨heq₁, rfl⟩ | ⟨hne₁, hold₁⟩
    · rcases hfind hf₂ with ⟨heq₂, rfl⟩ | ⟨hne₂, hold₂⟩
      · omega
      · have := hothers hne₂ hold₂
        omega
    · rcases hfind hf₂ with ⟨heq₂, rfl⟩ | ⟨hne₂, hold₂⟩
      · have := hothers hne₁ hold₁
        omega
      · exact h.apart hold₁ hold₂ hlt
  · intro m
    have hview : ∀ a, ¬ (b ≤ a ∧ a < b + n) → fm'.view A.entry a = none := by
      intro a hout
      rw [← htotal] at hout
      exact view_outside (htotal ▸ ha.tiles) hout
    rw [h.nodes_of_indexed hview ha.indexed]
    constructor
    · rintro (hm | ⟨hout, hm⟩)
      · obtain ⟨f, hf, he⟩ := OrdMap.view_eq_some.mp hm
        exact ⟨b, fm', f, by rw [OrdMap.find?_insert, if_pos rfl], hf, he⟩
      · obtain ⟨b', fm'', f, hb', hf, he⟩ := h.nodes.mp hm
        have hne : b' ≠ b := by
          intro heq
          subst heq
          have := h.bounds hb' hf
          have := hself hb'
          omega
        exact ⟨b', fm'', f, by rw [OrdMap.find?_insert, if_neg hne]; exact hb', hf, he⟩
    · rintro ⟨b', fm'', f, hb', hf, he⟩
      rcases hfind hb' with ⟨rfl, rfl⟩ | ⟨hne, hold⟩
      · exact Or.inl (OrdMap.view_eq_some.mpr ⟨f, hf, he⟩)
      · refine Or.inr ⟨?_, h.nodes.mpr ⟨b', fm'', f, hold, hf, he⟩⟩
        have := h.bounds hold hf
        have := hothers hne hold
        omega

/-- Put a changed interval back. -/
theorem restore (h : Arenas A fl bl) (hb : bl.find? b = some fm)
    (ha : Arena A b (b + total A.size fm) (elsewhere fl b (b + total A.size fm)) fl' fm') :
    Arenas A fl' (bl.insert b fm') ∧ total A.size fm' = total A.size fm := by
  refine h.put (h.pos hb) ?_ ?_ ha
  · intro fm'' hf
    rw [hb] at hf
    cases hf
    exact Nat.le_refl _
  · intro b' fm'' hne hb'
    rcases Nat.lt_or_gt_of_ne hne with hlt | hlt
    · exact Or.inl (h.apart hb' hb hlt)
    · exact Or.inr (h.apart hb hb' hlt)

/-- The used fragments after one interval was put in. -/
theorem live_put (h : Arenas A fl bl) (h' : Arenas A fl' (bl.insert b fm'))
    {v : Nat → Option Nat} (hv : ∀ a n, v a = some n ↔ ∃ fm, bl.find? b = some fm ∧
      fm.view A.used a = some n) {p : Nat} {x : Option Nat}
    (hin : b ≤ p ∧ p < b + total A.size fm')
    (hview : fm'.view A.used = Function.update v p x) :
    live A (bl.insert b fm') = Function.update (live A bl) p x := by
  have hb' : (bl.insert b fm').find? b = some fm' := by rw [OrdMap.find?_insert, if_pos rfl]
  funext a
  refine Option.ext fun n => ?_
  rw [h'.live_eq_some]
  by_cases hap : a = p
  · subst hap
    rw [Function.update_self]
    constructor
    · rintro ⟨b', fm'', hf, hn⟩
      obtain ⟨f, hff, _⟩ := OrdMap.view_eq_some.mp hn
      obtain ⟨hlo, hhi⟩ := h'.bounds hf hff
      have hbb := h'.unique hf hb' hlo hhi hin.1 hin.2
      subst hbb
      rw [hb'] at hf
      cases hf
      rw [hview, Function.update_self] at hn
      exact hn
    · intro hx
      exact ⟨b, fm', hb', by rw [hview, Function.update_self, hx]⟩
  · rw [Function.update_of_ne hap, h.live_eq_some]
    constructor
    · rintro ⟨b', fm'', hf, hn⟩
      rw [OrdMap.find?_insert] at hf
      split at hf
      next heq =>
        cases hf
        rw [hview, Function.update_of_ne hap] at hn
        obtain ⟨fm, hfm, hn⟩ := (hv a n).mp hn
        exact ⟨b, fm, hfm, hn⟩
      next => exact ⟨b', fm'', hf, hn⟩
    · rintro ⟨b', fm'', hf, hn⟩
      by_cases heq : b' = b
      · subst heq
        refine ⟨b', fm', hb', ?_⟩
        rw [hview, Function.update_of_ne hap]
        exact (hv a n).mpr ⟨fm'', hf, hn⟩
      · exact ⟨b', fm'', by rw [OrdMap.find?_insert, if_neg heq]; exact hf, hn⟩

/-- Take an interval out whose one fragment is out of account. -/
theorem remove (h : Arenas A fl bl) (hb : bl.find? b = some fm) {u : Nat → Option Nat}
    (L : Limbo A b (b + total A.size fm) (elsewhere fl b (b + total A.size fm)) fl' fm' b
      (total A.size fm) u) :
    Arenas A fl' (bl.erase b) ∧ ∀ a, u a = none := by
  have halone : ∀ {β : Type} (g : φ → Option β) a, Function.update (fm'.view g) b none a = none := by
    intro β g a
    by_cases hab : a = b
    · rw [hab, Function.update_self]
    · rw [Function.update_of_ne hab]
      obtain ⟨f, hf, hlen⟩ := L.stored
      cases hv : fm'.view g a with
      | none => rfl
      | some x =>
          obtain ⟨f', hf', _⟩ := OrdMap.view_eq_some.mp hv
          have hbounds := L.tiles.bounds hf'
          have hapart := L.tiles.apart hf hf' (Ne.symm hab)
          omega
  have hfind : ∀ {b' fm''}, (bl.erase b).find? b' = some fm'' →
      b' ≠ b ∧ bl.find? b' = some fm'' := by
    intro b' fm'' hf
    rw [OrdMap.find?_erase] at hf
    split at hf
    next => cases hf
    next hne => exact ⟨hne, hf⟩
  refine ⟨⟨?_, ?_, ?_, ?_, ?_⟩, ?_⟩
  · exact fun hf => h.tiles (hfind hf).2
  · exact fun hf => h.pos (hfind hf).2
  · exact fun hf => h.ok (hfind hf).2
  · exact fun hf hf' => h.apart (hfind hf).2 (hfind hf').2
  · intro n
    rw [h.nodes_of_indexed (fun a _ => halone A.entry a) L.indexed, halone]
    constructor
    · rintro (hnone | ⟨hout, hn⟩)
      · cases hnone
      · obtain ⟨b', fm'', f, hb', hf, he⟩ := h.nodes.mp hn
        refine ⟨b', fm'', f, ?_, hf, he⟩
        rw [OrdMap.find?_erase, if_neg]
        · exact hb'
        · intro heq
          subst heq
          rw [hb] at hb'
          cases hb'
          exact hout (h.bounds hb hf)
    · rintro ⟨b', fm'', f, hb', hf, he⟩
      obtain ⟨hne, hold⟩ := hfind hb'
      refine Or.inr ⟨?_, h.nodes.mpr ⟨b', fm'', f, hold, hf, he⟩⟩
      intro hin
      obtain ⟨hlo, hhi⟩ := h.bounds hold hf
      exact hne (h.unique hold hb hlo hhi hin.1 hin.2)
  · intro a
    rw [← L.used]
    exact halone A.used a

/-- Take an interval out together with the nodes of its fragments. -/
theorem leaveOut (h : Arenas A fl bl) (hb : bl.find? b = some fm)
    (hnodes : ∀ n, n ∈ fl'.nodes ↔ n ∈ fl.nodes ∧ fm.find? n.val = none) :
    Arenas A fl' (bl.erase b) := by
  have hfind : ∀ {b' fm''}, (bl.erase b).find? b' = some fm'' →
      b' ≠ b ∧ bl.find? b' = some fm'' := by
    intro b' fm'' hf
    rw [OrdMap.find?_erase] at hf
    split at hf
    next => cases hf
    next hne => exact ⟨hne, hf⟩
  refine ⟨fun hf => h.tiles (hfind hf).2, fun hf => h.pos (hfind hf).2, fun hf => h.ok (hfind hf).2,
    fun hf hf' => h.apart (hfind hf).2 (hfind hf').2, ?_⟩
  intro n
  rw [hnodes, h.nodes]
  constructor
  · rintro ⟨⟨b', fm'', f, hb', hf, he⟩, hnone⟩
    refine ⟨b', fm'', f, ?_, hf, he⟩
    rw [OrdMap.find?_erase, if_neg]
    · exact hb'
    · rintro rfl
      rw [hb] at hb'
      cases hb'
      rw [hnone] at hf
      cases hf
  · rintro ⟨b', fm'', f, hb', hf, he⟩
    obtain ⟨hne, hold⟩ := hfind hb'
    refine ⟨⟨b', fm'', f, hold, hf, he⟩, ?_⟩
    refine Option.eq_none_iff_forall_ne_some.mpr fun f' hf' => hne ?_
    obtain ⟨hlo, hhi⟩ := h.bounds hold hf
    obtain ⟨hlo', hhi'⟩ := h.bounds hb hf'
    exact h.unique hold hb hlo hhi hlo' hhi'

/-- The used fragments after an interval with one of them was taken out. -/
theorem live_remove (h : Arenas A fl bl) (h' : Arenas A fl' (bl.erase b)) (hb : bl.find? b = some fm)
    {p : Nat} {f : φ} (hp : fm.find? p = some f) (hone : ∀ a, a ≠ p → fm.view A.used a = none) :
    live A (bl.erase b) = Function.update (live A bl) p none := by
  funext a
  refine Option.ext fun n => ?_
  rw [h'.live_eq_some]
  by_cases hap : a = p
  · subst hap
    rw [Function.update_self]
    constructor
    · rintro ⟨b', fm'', hf, hn⟩
      rw [OrdMap.find?_erase] at hf
      split at hf
      next => cases hf
      next hne =>
        obtain ⟨f', hf', _⟩ := OrdMap.view_eq_some.mp hn
        obtain ⟨hlo, hhi⟩ := h.bounds hf hf'
        obtain ⟨hlo', hhi'⟩ := h.bounds hb hp
        exact absurd (h.unique hf hb hlo hhi hlo' hhi') hne
    · intro hnone
      cases hnone
  · rw [Function.update_of_ne hap, h.live_eq_some]
    constructor
    · rintro ⟨b', fm'', hf, hn⟩
      rw [OrdMap.find?_erase] at hf
      split at hf
      next => cases hf
      next => exact ⟨b', fm'', hf, hn⟩
    · rintro ⟨b', fm'', hf, hn⟩
      refine ⟨b', fm'', ?_, hn⟩
      rw [OrdMap.find?_erase, if_neg]
      · exact hf
      · intro heq
        subst heq
        rw [hb] at hf
        cases hf
        rw [hone a hap] at hn
        cases hn

end Arenas

/-- A whole interval that is not in account. -/
theorem Limbo.whole (h : Arenas A fl bl) {lo n : Nat} {f : φ} (hn : 0 < n) (hf : A.size f = n)
    (hvacant : ∀ m ∈ fl.nodes, ¬ (lo ≤ m.val ∧ m.val < lo + n)) :
    Limbo A lo (lo + n) (elsewhere fl lo (lo + n)) fl (OrdMap.empty.insert lo f) lo n
      fun _ => none := by
  have hself : (OrdMap.empty.insert lo f).find? lo = some f := by
    rw [OrdMap.find?_insert, if_pos rfl]
  have hview : ∀ {β : Type} (g : φ → Option β),
      Function.update ((OrdMap.empty.insert lo f).view g) lo none = fun _ => none := by
    intro β g
    rw [OrdMap.view_insert, Function.update_idem]
    exact Function.update_eq_self_iff.mpr rfl
  refine ⟨?_, ?_, ⟨f, hself, hf⟩, ?_, ?_, hview _⟩
  · rw [← hf]
    exact TileMap.singleton lo (hf ▸ hn)
  · intro a hlo hhi
    rw [elsewhere, if_pos ⟨hlo, hhi⟩]
  · rw [hview]
    intro a k i
    rw [beside, Option.none_or]
    by_cases hin : lo ≤ a ∧ a < lo + n
    · rw [elsewhere, if_pos hin]
      constructor
      · intro hnone
        cases hnone
      · intro hm
        exact absurd hin (hvacant ⟨i, k, a⟩ hm)
    · exact h.elsewhere_eq_some hin
  · intro a g hne hg
    rw [OrdMap.find?_insert, if_neg hne, OrdMap.find?_empty] at hg
    cases hg

end Lib
