import Mathlib.Data.List.Infix

/-!
# Regular expressions with groups

Matching as a backtracking matcher does it: an optional part is tried first with a text and then
without, and the first way to match counts.  `outcomes` lists the ways in the order in which they
are tried, each with the text that is left and the texts of the groups.

`Reads` is the meaning of an expression as a relation between a text and its groups, and
`mem_outcomes` says that the matcher finds just these.  A whole line is matched by an expression
between `^` and `$`, which leaves out a newline at the end (`matchLine`), and `findall` finds
texts anywhere.
-/

namespace Lib

/-- A regular expression without anchors. -/
inductive Pattern where
  /-- A character of a class. -/
  | one (p : Char → Bool)
  | empty
  | seq (r q : Pattern)
  /-- `r?` -/
  | optional (r : Pattern)
  /-- `(r)` -/
  | group (r : Pattern)

namespace Pattern

/-- A character that stands for itself. -/
def char (c : Char) : Pattern := one fun d => d = c

/-- `r{n}` -/
def times : Nat → Pattern → Pattern
  | 0, _ => empty
  | n + 1, r => seq r (times n r)

/-- `r{0,n}` -/
def upTo : Nat → Pattern → Pattern
  | 0, _ => empty
  | n + 1, r => optional (seq r (upTo n r))

/-- `r{m,n}` -/
def between (m n : Nat) (r : Pattern) : Pattern := seq (times m r) (upTo (n - m) r)

/-- The ways to match at the beginning of a text, the preferred one first: what is left of the
text, and the texts of the groups. -/
def outcomes : Pattern → List Char → List (List Char × List (List Char))
  | one _, [] => []
  | one p, c :: s => if p c then [(s, [])] else []
  | empty, s => [(s, [])]
  | seq r q, s =>
      (outcomes r s).flatMap fun o => (outcomes q o.1).map fun o' => (o'.1, o.2 ++ o'.2)
  | optional r, s => outcomes r s ++ [(s, [])]
  | group r, s => (outcomes r s).map fun o => (o.1, s.take (s.length - o.1.length) :: o.2)

/-- `$`: at the end, or before a newline at the end. -/
def atEnd (s : List Char) : Bool := s = [] ∨ s = ['\n']

/-- The groups of a match of `^r$`. -/
def matchLine (r : Pattern) (s : List Char) : Option (List (List Char)) :=
  ((outcomes r s).find? fun o => atEnd o.1).map (·.2)

/-- The search from the left for texts that do not overlap, as far as `fuel` characters. -/
def findFrom (r : Pattern) : Nat → List Char → List (List Char)
  | 0, _ => []
  | _ + 1, [] => []
  | fuel + 1, c :: s =>
      match (outcomes r (c :: s)).head? with
      | some o => (c :: s).take ((c :: s).length - o.1.length) :: findFrom r fuel o.1
      | none => findFrom r fuel s

/-- The texts that an expression without groups finds in a text.  The expression does not match
the empty text. -/
def findall (r : Pattern) (s : List Char) : List (List Char) := findFrom r s.length s

/-! ## The texts of an expression -/

/-- The expression matches the text, with these texts of the groups. -/
def Reads : Pattern → List Char → List (List Char) → Prop
  | one p, t, gs => ∃ c, p c = true ∧ t = [c] ∧ gs = []
  | empty, t, gs => t = [] ∧ gs = []
  | seq r q, t, gs =>
      ∃ t₁ g₁ t₂ g₂, Reads r t₁ g₁ ∧ Reads q t₂ g₂ ∧ t = t₁ ++ t₂ ∧ gs = g₁ ++ g₂
  | optional r, t, gs => Reads r t gs ∨ (t = [] ∧ gs = [])
  | group r, t, gs => ∃ g, Reads r t g ∧ gs = t :: g

variable {r q : Pattern} {s t : List Char} {gs : List (List Char)} {c : Char} {p : Char → Bool}

@[simp] theorem reads_one : Reads (one p) t gs ↔ ∃ c, p c = true ∧ t = [c] ∧ gs = [] := Iff.rfl

@[simp] theorem reads_empty : Reads empty t gs ↔ t = [] ∧ gs = [] := Iff.rfl

theorem reads_seq : Reads (seq r q) t gs ↔
    ∃ t₁ g₁ t₂ g₂, Reads r t₁ g₁ ∧ Reads q t₂ g₂ ∧ t = t₁ ++ t₂ ∧ gs = g₁ ++ g₂ := Iff.rfl

@[simp] theorem reads_optional : Reads (optional r) t gs ↔ Reads r t gs ∨ (t = [] ∧ gs = []) :=
  Iff.rfl

@[simp] theorem reads_group : Reads (group r) t gs ↔ ∃ g, Reads r t g ∧ gs = t :: g := Iff.rfl

@[simp] theorem reads_char : Reads (char c) t gs ↔ t = [c] ∧ gs = [] := by
  simp [char]

/-- A fixed number of characters of a class. -/
@[simp] theorem reads_times_one {n : Nat} : Reads (times n (one p)) t gs ↔
    t.length = n ∧ (∀ c ∈ t, p c = true) ∧ gs = [] := by
  induction n generalizing t gs with
  | zero =>
      rw [times, reads_empty, List.length_eq_zero_iff]
      constructor
      · rintro ⟨rfl, rfl⟩
        simp
      · rintro ⟨rfl, -, rfl⟩
        simp
  | succ n ih =>
      rw [times, reads_seq]
      constructor
      · rintro ⟨_, _, t, _, ⟨c, hc, rfl, rfl⟩, ht, rfl, rfl⟩
        obtain ⟨rfl, hall, rfl⟩ := ih.mp ht
        exact ⟨by simp, List.forall_mem_cons.mpr ⟨hc, hall⟩, rfl⟩
      · rintro ⟨hlen, hall, rfl⟩
        obtain ⟨c, t, rfl⟩ := List.exists_cons_of_length_eq_add_one hlen
        obtain ⟨hc, hrest⟩ := List.forall_mem_cons.mp hall
        exact ⟨[c], [], t, [], ⟨c, hc, rfl, rfl⟩, ih.mpr ⟨by simpa using hlen, hrest, rfl⟩,
          rfl, rfl⟩

/-- A character of a class in front. -/
theorem reads_seq_one : Reads (seq (one p) q) t gs ↔
    ∃ c t', p c = true ∧ Reads q t' gs ∧ t = c :: t' := by
  rw [reads_seq]
  constructor
  · rintro ⟨_, _, t', _, ⟨c, hc, rfl, rfl⟩, h, rfl, rfl⟩
    exact ⟨c, t', hc, h, rfl⟩
  · rintro ⟨c, t', hc, h, rfl⟩
    exact ⟨[c], [], t', gs, ⟨c, hc, rfl, rfl⟩, h, rfl, rfl⟩

/-- A character in front. -/
theorem reads_seq_char : Reads (seq (char c) q) t gs ↔ ∃ t', Reads q t' gs ∧ t = c :: t' := by
  rw [char, reads_seq_one]
  simp

/-- A fixed number of characters of a class in front. -/
theorem reads_seq_times_one {n : Nat} : Reads (seq (times n (one p)) q) t gs ↔
    ∃ u t', (u.length = n ∧ ∀ c ∈ u, p c = true) ∧ Reads q t' gs ∧ t = u ++ t' := by
  rw [reads_seq]
  constructor
  · rintro ⟨u, g₁, t', g₂, h₁, h₂, rfl, rfl⟩
    obtain ⟨hlen, hall, rfl⟩ := reads_times_one.mp h₁
    exact ⟨u, t', ⟨hlen, hall⟩, h₂, rfl⟩
  · rintro ⟨u, t', ⟨hlen, hall⟩, h, rfl⟩
    exact ⟨u, [], t', gs, reads_times_one.mpr ⟨hlen, hall, rfl⟩, h, rfl, rfl⟩

/-- A part that may be left out in front. -/
theorem reads_seq_optional :
    Reads (seq (optional r) q) t gs ↔ Reads (seq r q) t gs ∨ Reads q t gs := by
  simp only [reads_seq, reads_optional]
  constructor
  · rintro ⟨t₁, g₁, t₂, g₂, h₁ | ⟨rfl, rfl⟩, h₂, rfl, rfl⟩
    · exact .inl ⟨t₁, g₁, t₂, g₂, h₁, h₂, rfl, rfl⟩
    · exact .inr h₂
  · rintro (⟨t₁, g₁, t₂, g₂, h₁, h₂, rfl, rfl⟩ | h)
    · exact ⟨t₁, g₁, t₂, g₂, .inl h₁, h₂, rfl, rfl⟩
    · exact ⟨[], [], t, gs, .inr ⟨rfl, rfl⟩, h, rfl, rfl⟩

/-- A group in front. -/
theorem reads_seq_group : Reads (seq (group r) q) t gs ↔
    ∃ u g t' g', Reads r u g ∧ Reads q t' g' ∧ t = u ++ t' ∧ gs = u :: (g ++ g') := by
  simp only [reads_seq, reads_group]
  constructor
  · rintro ⟨u, _, t', g', ⟨g, h, rfl⟩, h', rfl, rfl⟩
    exact ⟨u, g, t', g', h, h', rfl, rfl⟩
  · rintro ⟨u, g, t', g', h, h', rfl, rfl⟩
    exact ⟨u, _, t', g', ⟨g, h, rfl⟩, h', rfl, rfl⟩

/-- A character that no text of the expression is without. -/
def Requires (c : Char) (r : Pattern) : Prop := ∀ t gs, Reads r t gs → c ∈ t

theorem requires_seq_char : Requires c (seq (char c) q) := by
  intro t gs h
  obtain ⟨_, -, rfl⟩ := reads_seq_char.mp h
  exact List.mem_cons_self

theorem Requires.behind (h : Requires c q) : Requires c (seq r q) := by
  rintro t gs ⟨_, _, _, _, -, h₂, rfl, -⟩
  exact List.mem_append_right _ (h _ _ h₂)

/-- The matcher finds the texts of the expression. -/
theorem mem_outcomes {o : List Char × List (List Char)} :
    o ∈ outcomes r s ↔ ∃ t, s = t ++ o.1 ∧ Reads r t o.2 := by
  induction r generalizing s o with
  | one p =>
      obtain ⟨rest, gs⟩ := o
      cases s with
      | nil => simp [outcomes]
      | cons d s =>
          rw [outcomes]
          split
          next hd =>
            rw [List.mem_singleton, Prod.mk.injEq]
            constructor
            · rintro ⟨rfl, rfl⟩
              exact ⟨[d], rfl, d, hd, rfl, rfl⟩
            · rintro ⟨_, hs, c, -, rfl, hgs⟩
              cases hs
              exact ⟨rfl, hgs⟩
          next hd =>
            simp only [List.not_mem_nil, reads_one, false_iff]
            rintro ⟨t, hs, c, hc, rfl, -⟩
            cases hs
            exact hd hc
  | empty =>
      obtain ⟨rest, gs⟩ := o
      simp [outcomes, eq_comm]
  | seq r q ihr ihq =>
      simp only [outcomes, List.mem_flatMap, List.mem_map, ihr, ihq]
      constructor
      · rintro ⟨o₁, ⟨t₁, rfl, h₁⟩, o₂, ⟨t₂, ho, h₂⟩, rfl⟩
        exact ⟨t₁ ++ t₂, by rw [ho, List.append_assoc], t₁, _, t₂, _, h₁, h₂, rfl, rfl⟩
      · rintro ⟨_, rfl, t₁, g₁, t₂, g₂, h₁, h₂, rfl, hgs⟩
        refine ⟨(t₂ ++ o.1, g₁), ⟨t₁, by simp, h₁⟩, (o.1, g₂), ⟨t₂, rfl, h₂⟩, ?_⟩
        rw [← hgs]
  | optional r ih =>
      obtain ⟨rest, gs⟩ := o
      simp only [outcomes, List.mem_append, ih, List.mem_singleton, Prod.mk.injEq, reads_optional]
      constructor
      · rintro (⟨t, hs, h⟩ | ⟨rfl, rfl⟩)
        · exact ⟨t, hs, .inl h⟩
        · exact ⟨[], rfl, .inr ⟨rfl, rfl⟩⟩
      · rintro ⟨t, hs, h | ⟨rfl, rfl⟩⟩
        · exact .inl ⟨t, hs, h⟩
        · exact .inr ⟨hs.symm, rfl⟩
  | group r ih =>
      simp only [outcomes, List.mem_map, ih, reads_group]
      constructor
      · rintro ⟨o, ⟨t, rfl, h⟩, rfl⟩
        exact ⟨t, rfl, _, h, by simp⟩
      · rintro ⟨t, rfl, g, h, hgs⟩
        refine ⟨(o.1, g), ⟨t, rfl, h⟩, ?_⟩
        simp [← hgs]

/-! ## Lines -/

/-- A text is all of a line but for a newline. -/
def EndsLine (s t : List Char) : Prop := s = t ∨ s = t ++ ['\n']

theorem atEnd_iff {rest : List Char} : atEnd rest = true ↔ EndsLine (t ++ rest) t := by
  simp [atEnd, EndsLine]

/-- A match of a line is a text of the expression. -/
theorem exists_reads_of_matchLine (h : matchLine r s = some gs) :
    ∃ t, Reads r t gs ∧ EndsLine s t := by
  obtain ⟨o, ho, rfl⟩ := Option.map_eq_some_iff.mp h
  have hend := List.find?_some ho
  obtain ⟨t, rfl, hreads⟩ := mem_outcomes.mp (List.mem_of_find?_eq_some ho)
  exact ⟨t, hreads, atEnd_iff.mp hend⟩

/-- A line with a text of the expression is matched, in some way. -/
theorem exists_matchLine_of_reads (h : Reads r t gs) (hs : EndsLine s t) :
    ∃ gs', matchLine r s = some gs' := by
  have hmem : ∃ o ∈ outcomes r s, atEnd o.1 = true := by
    rcases hs with rfl | rfl
    · exact ⟨([], gs), mem_outcomes.mpr ⟨s, by simp, h⟩, rfl⟩
    · exact ⟨(['\n'], gs), mem_outcomes.mpr ⟨t, rfl, h⟩, rfl⟩
  have hsome : (List.find? (fun o => atEnd o.1) (outcomes r s)).isSome := by
    rw [List.find?_isSome]
    exact hmem
  obtain ⟨o, ho⟩ := Option.isSome_iff_exists.mp hsome
  exact ⟨o.2, by rw [matchLine, ho]; rfl⟩

/-- A line can be matched if it has a text of the expression. -/
theorem matchLine_eq_none_iff : matchLine r s = none ↔ ∀ t gs, Reads r t gs → ¬ EndsLine s t := by
  constructor
  · intro hnone t gs hreads hs
    obtain ⟨gs', hsome⟩ := exists_matchLine_of_reads hreads hs
    rw [hnone] at hsome
    cases hsome
  · intro h
    cases hm : matchLine r s with
    | none => rfl
    | some gs =>
        obtain ⟨t, hreads, hs⟩ := exists_reads_of_matchLine hm
        exact absurd hs (h t gs hreads)

/-! ## Search -/

theorem mem_findFrom {fuel : Nat} (h : t ∈ findFrom r fuel s) :
    (∃ gs, Reads r t gs) ∧ t <:+: s := by
  induction fuel generalizing s with
  | zero => cases h
  | succ fuel ih =>
      cases s with
      | nil => cases h
      | cons c s =>
          rw [findFrom] at h
          split at h
          next o ho =>
            obtain ⟨t', hs, hreads⟩ := mem_outcomes.mp (List.mem_of_head? ho)
            rw [hs] at h ⊢
            cases h with
            | head =>
                simp only [List.length_append, Nat.add_sub_cancel, List.take_left]
                exact ⟨⟨_, hreads⟩, (List.prefix_append ..).isInfix⟩
            | tail _ h =>
                obtain ⟨hr, hin⟩ := ih h
                exact ⟨hr, hin.trans (List.suffix_append ..).isInfix⟩
          next =>
            obtain ⟨hr, hin⟩ := ih h
            exact ⟨hr, hin.trans (List.suffix_cons ..).isInfix⟩

/-- What is found is a text of the expression and a part of the text that is searched. -/
theorem mem_findall (h : t ∈ findall r s) : (∃ gs, Reads r t gs) ∧ t <:+: s := mem_findFrom h

end Pattern

end Lib
