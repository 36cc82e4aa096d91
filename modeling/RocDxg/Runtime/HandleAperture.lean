import RocDxg.Util

/-!
# The range of the handle aperture

`hsakmtRuntime::InitHandleApertureSpace` looks for 128 TiB of addresses that are not canonical
and that no device uses for its private or shared aperture.  It starts with the first such
range and moves on by 128 TiB whenever the device at hand overlaps it.  The devices before that
one are not looked at again, and neither is the end of the addresses.

Candidates are numbered by their place: candidate `k` starts at `k` times 128 TiB.  The search
goes as far as the devices, taken in their order, can push it (`inOrder_iff`).  The range is right
exactly if no device is pushed upon: a candidate that a device uses, and to which the later ones
push the search, is one that one of these pushes it past (`handle_aperture_clear_iff`).
-/

namespace RocDxg

/-- `START_NON_CANONICAL_ADDR`, and how far a candidate is moved. -/
def startNonCanonicalAddr : Nat := 2 ^ 47

/-- `END_NON_CANONICAL_ADDR`, the last of the addresses -/
def endNonCanonicalAddr : Nat := 2 ^ 64 - 1 - 2 ^ 47

/-- `IS_OVERLAPPING` on words of 64 bits -/
def isOverlapping (start1 size1 start2 size2 : Nat) : Bool :=
  start1 < u64 (start2 + size2) && start2 < u64 (start1 + size1)

/-- The base and the size of an aperture, as a device reports them. -/
structure Aperture where
  base : Nat
  size : Nat
  base_lt : base < 2 ^ 64
  size_lt : size < 2 ^ 64

/-- The apertures of a device. -/
structure DeviceApertures where
  privateAperture : Aperture
  sharedAperture : Aperture

/-- `handle_aperture_start_` during the search: it starts at a multiple of its step, and each
step keeps it there. -/
structure Candidate where
  start : Nat
  aligned : start % 2 ^ 47 = 0
  lt : start < 2 ^ 64

/-- The test of an aperture against a candidate of 128 TiB. -/
def Aperture.blocks (a : Aperture) (start : Nat) : Bool :=
  a.base ≠ 0 && isOverlapping a.base a.size start (2 ^ 47)

namespace DeviceApertures

def apertures (d : DeviceApertures) : List Aperture := [d.privateAperture, d.sharedAperture]

/-- The tests for one device. -/
def blocks (d : DeviceApertures) (start : Nat) : Bool :=
  d.privateAperture.blocks start || d.sharedAperture.blocks start

end DeviceApertures

namespace Candidate

/-- The candidate that is tried first. -/
def first : Candidate := ⟨startNonCanonicalAddr, by decide, by decide⟩

theorem aligned_next (c : Candidate) : u64 (c.start + 2 ^ 47) % 2 ^ 47 = 0 := by
  have haligned := c.aligned
  rw [u64]
  omega

theorem lt_next (c : Candidate) : u64 (c.start + 2 ^ 47) < 2 ^ 64 :=
  Nat.mod_lt _ (Nat.two_pow_pos 64)

/-- `handle_aperture_start_ += (1ULL << 47)` -/
def bump (c : Candidate) : Candidate where
  start := u64 (c.start + 2 ^ 47)
  aligned := aligned_next c
  lt := lt_next c

/-- The place of a candidate. -/
def index (c : Candidate) : Nat := c.start / 2 ^ 47

theorem start_eq (c : Candidate) : c.start = c.index * 2 ^ 47 := by
  have haligned := c.aligned
  rw [index]
  omega

/-- Nothing overlaps the last candidate, whose end is not a word. -/
theorem lt_of_blocks {a : Aperture} {c : Candidate} (h : a.blocks c.start = true) :
    c.start + 2 ^ 47 < 2 ^ 64 := by
  have haligned := c.aligned
  have hlt := c.lt
  simp only [Aperture.blocks, isOverlapping, Bool.and_eq_true, decide_eq_true_eq] at h
  have hend := h.2.1
  rw [u64] at hend
  omega

theorem lt_of_device_blocks {d : DeviceApertures} {c : Candidate} (h : d.blocks c.start = true) :
    c.start + 2 ^ 47 < 2 ^ 64 := by
  rw [DeviceApertures.blocks, Bool.or_eq_true] at h
  rcases h with h | h
  · exact lt_of_blocks h
  · exact lt_of_blocks h

theorem bump_index {c : Candidate} (h : c.start + 2 ^ 47 < 2 ^ 64) :
    c.bump.index = c.index + 1 := by
  show u64 (c.start + 2 ^ 47) / 2 ^ 47 = c.start / 2 ^ 47 + 1
  rw [u64_of_lt h]
  omega

end Candidate

/-! ## The search -/

/-- The tests of one device, until none of its apertures overlaps the candidate. -/
def passDevice (d : DeviceApertures) (c : Candidate) : Candidate :=
  if d.blocks c.start = true then passDevice d c.bump else c
termination_by 2 ^ 64 - c.start
decreasing_by
  have hlt := Candidate.lt_of_device_blocks ‹_›
  show 2 ^ 64 - u64 (c.start + 2 ^ 47) < 2 ^ 64 - c.start
  rw [u64_of_lt hlt]
  omega

/-- The loop over the devices.  It is left at a device that is not there. -/
def passDevices : List (Option DeviceApertures) → Candidate → Candidate
  | [], c => c
  | none :: _, c => c
  | some d :: ds, c => passDevices ds (passDevice d c)

/-- `InitHandleApertureSpace`: what it returns, `handle_aperture_start_` and
`handle_aperture_size_`.  Where a device is not there it returns -1, which is true. -/
def initHandleApertureSpace (devices : List (Option DeviceApertures)) : Bool × Nat × Nat :=
  if Candidate.first.start < endNonCanonicalAddr - 1 then
    (true, (passDevices devices .first).start, 2 ^ 47)
  else (false, 0, 2 ^ 47)

/-! ## How far the search goes -/

/-- An aperture of the device overlaps candidate `k`. -/
def DeviceApertures.Blocks (d : DeviceApertures) (k : Nat) : Prop := d.blocks (k * 2 ^ 47) = true

/-- The candidates from `k` up to `m` are overlapped by the devices of the list in their
order, any number of them by one device. -/
inductive InOrder : List DeviceApertures → Nat → Nat → Prop
  | done {ds : List DeviceApertures} {m : Nat} : InOrder ds m m
  | blocked {d : DeviceApertures} {ds : List DeviceApertures} {k m : Nat} :
      d.Blocks k → InOrder (d :: ds) (k + 1) m → InOrder (d :: ds) k m
  | next {d : DeviceApertures} {ds : List DeviceApertures} {k m : Nat} :
      InOrder ds k m → InOrder (d :: ds) k m

variable {d : DeviceApertures} {ds : List DeviceApertures} {c c' : Candidate} {k k' m : Nat}

theorem blocks_index (d : DeviceApertures) (c : Candidate) :
    d.Blocks c.index ↔ d.blocks c.start = true := by
  rw [DeviceApertures.Blocks, ← c.start_eq]

/-- The first candidate from the given one on that the device does not overlap. -/
theorem passDevice_spec (d : DeviceApertures) (c : Candidate) :
    c.index ≤ (passDevice d c).index ∧ ¬ d.Blocks (passDevice d c).index ∧
      ∀ k, c.index ≤ k → k < (passDevice d c).index → d.Blocks k := by
  induction c using passDevice.induct d with
  | case1 c hblocks ih =>
      obtain ⟨hle, hnot, hall⟩ := ih
      rw [passDevice, if_pos hblocks]
      rw [Candidate.bump_index (Candidate.lt_of_device_blocks hblocks)] at hle hall
      refine ⟨Nat.le_of_succ_le hle, hnot, ?_⟩
      intro k hk hlt
      rcases Nat.eq_or_lt_of_le hk with rfl | hlater
      · exact (blocks_index d c).mpr hblocks
      · exact hall k hlater hlt
  | case2 c hfree =>
      rw [passDevice, if_neg hfree]
      refine ⟨Nat.le_refl _, ?_, fun k hk hlt => absurd hlt (Nat.not_lt.mpr hk)⟩
      rwa [blocks_index]

theorem passDevice_mono (d : DeviceApertures) (h : c.index ≤ c'.index) :
    (passDevice d c).index ≤ (passDevice d c').index := by
  obtain ⟨_, _, hall⟩ := passDevice_spec d c
  obtain ⟨hle', hnot', _⟩ := passDevice_spec d c'
  by_contra hgt
  exact hnot' (hall _ (Nat.le_trans h hle') (Nat.lt_of_not_le hgt))

theorem le_passDevices (ds : List DeviceApertures) (c : Candidate) :
    c.index ≤ (passDevices (ds.map some) c).index := by
  induction ds generalizing c with
  | nil => exact Nat.le_refl _
  | cons d ds ih => exact Nat.le_trans (passDevice_spec d c).1 (ih _)

theorem passDevices_mono (ds : List DeviceApertures) (h : c.index ≤ c'.index) :
    (passDevices (ds.map some) c).index ≤ (passDevices (ds.map some) c').index := by
  induction ds generalizing c c' with
  | nil => exact h
  | cons d ds ih => exact ih (passDevice_mono d h)

/-- One device may take any number of candidates. -/
theorem InOrder.run (h : InOrder (d :: ds) k' m) (hle : k ≤ k')
    (hall : ∀ j, k ≤ j → j < k' → d.Blocks j) : InOrder (d :: ds) k m := by
  induction hle with
  | refl => exact h
  | step hle ih =>
      refine ih (.blocked (hall _ hle (Nat.lt_succ_self _)) h) ?_
      intro j hj hlt
      exact hall j hj (Nat.lt_succ_of_lt hlt)

/-- The search goes as far as it can be pushed. -/
theorem InOrder.le_passDevices (h : InOrder ds k m) (hc : c.index = k) :
    m ≤ (passDevices (ds.map some) c).index := by
  induction h generalizing c with
  | done => exact hc ▸ RocDxg.le_passDevices _ c
  | @blocked d ds k m hblocks _ ih =>
      rw [← hc, blocks_index] at hblocks
      have hbump := Candidate.bump_index (Candidate.lt_of_device_blocks hblocks)
      have hnext := ih (hbump.trans (congrArg (· + 1) hc))
      simp only [List.map_cons, passDevices] at hnext ⊢
      rw [passDevice, if_pos hblocks]
      exact hnext
  | @next d ds k m _ ih => exact Nat.le_trans (ih hc) (passDevices_mono ds (passDevice_spec d c).1)

theorem inOrder_iff (ds : List DeviceApertures) (c : Candidate) :
    InOrder ds c.index m ↔ c.index ≤ m ∧ m ≤ (passDevices (ds.map some) c).index := by
  constructor
  · intro h
    refine ⟨?_, h.le_passDevices rfl⟩
    generalize c.index = k at h
    induction h with
    | done => exact Nat.le_refl _
    | blocked _ _ ih => exact Nat.le_of_succ_le ih
    | next _ ih => exact ih
  · rintro ⟨hle, hm⟩
    induction ds generalizing c with
    | nil =>
        have heq : c.index = m := Nat.le_antisymm hle hm
        exact heq ▸ .done
    | cons d ds ih =>
        obtain ⟨hpass, _, hall⟩ := passDevice_spec d c
        rcases Nat.le_total m (passDevice d c).index with hbefore | hbehind
        · exact InOrder.done.run hle fun j hj hlt => hall j hj (Nat.lt_of_lt_of_le hlt hbefore)
        · exact (InOrder.next (ih _ hbehind hm)).run hpass hall

theorem passDevices_append (ds es : List DeviceApertures) (c : Candidate) :
    passDevices ((ds ++ es).map some) c = passDevices (es.map some) (passDevices (ds.map some) c) := by
  induction ds generalizing c with
  | nil => rfl
  | cons d ds ih => exact ih _

/-- More devices push the search no less far. -/
theorem InOrder.append_right (h : InOrder ds k m) (es : List DeviceApertures) :
    InOrder (ds ++ es) k m := by
  induction h with
  | done => exact .done
  | blocked hblocks _ ih => exact .blocked hblocks ih
  | next _ ih => exact .next ih

/-- The last device pushes the search past every candidate that it overlaps. -/
theorem InOrder.push (h : InOrder (ds ++ [d]) c.index m) (hblocks : d.Blocks m) :
    InOrder (ds ++ [d]) c.index (m + 1) := by
  rw [inOrder_iff] at h ⊢
  have hfree : ¬ d.Blocks (passDevices ((ds ++ [d]).map some) c).index := by
    rw [passDevices_append]
    exact (passDevice_spec d _).2.1
  have hne : m ≠ (passDevices ((ds ++ [d]).map some) c).index := by
    rintro rfl
    exact hfree hblocks
  exact ⟨Nat.le_succ_of_le h.1, Nat.lt_of_le_of_ne h.2 hne⟩

/-- The device that pushes the search past a candidate, to which it and those before it push it. -/
theorem InOrder.pushed (h : InOrder ds k (m + 1)) (hle : k ≤ m) :
    ∃ pre e post, ds = pre ++ e :: post ∧ InOrder (pre ++ [e]) k m ∧ e.Blocks m := by
  generalize hn : m + 1 = n at h
  induction h with
  | done => omega
  | @blocked d ds k n hblocks _ ih =>
      rcases Nat.eq_or_lt_of_le hle with rfl | hlt
      · exact ⟨[], d, ds, rfl, .done, hblocks⟩
      · obtain ⟨pre, e, post, hsplit, horder, he⟩ := ih hlt hn
        refine ⟨pre, e, post, hsplit, ?_, he⟩
        cases pre with
        | nil =>
            cases (List.cons.inj hsplit).1
            exact .blocked hblocks horder
        | cons d' pre =>
            cases (List.cons.inj hsplit).1
            exact .blocked hblocks horder
  | @next d ds k n _ ih =>
      obtain ⟨pre, e, post, rfl, horder, he⟩ := ih hle hn
      exact ⟨d :: pre, e, post, rfl, .next horder, he⟩

/-! ## The range that is found -/

/-- The aperture and candidate `k` have no address in common. -/
def Aperture.Apart (a : Aperture) (k : Nat) : Prop :=
  ∀ x, a.base ≤ x → x < a.base + a.size → ¬ (k * 2 ^ 47 ≤ x ∧ x < (k + 1) * 2 ^ 47)

/-- The range lies among the addresses that are not canonical, and the apertures of all
devices lie outside it. -/
structure Avoids (ds : List DeviceApertures) (start size : Nat) : Prop where
  above : startNonCanonicalAddr ≤ start
  below : start + size ≤ endNonCanonicalAddr + 1
  apart : ∀ d ∈ ds, ∀ a ∈ d.apertures, ∀ x, a.base ≤ x → x < a.base + a.size →
    ¬ (start ≤ x ∧ x < start + size)

/-- The test finds an aperture of the device on candidate `k`, and not an empty one. -/
def DeviceApertures.Uses (d : DeviceApertures) (k : Nat) : Prop :=
  ∃ a ∈ d.apertures, a.size ≠ 0 ∧ a.blocks (k * 2 ^ 47) = true

/-- The devices push the search upon none of them. -/
structure Uncrossed (ds : List DeviceApertures) : Prop where
  /-- A device uses a candidate to which it and those before it do not push the search, but the
  later ones do.  Then one of these overlaps it too, and not before the search has come there. -/
  later : ∀ pre d post k, ds = pre ++ d :: post → d.Uses k → ¬ InOrder (pre ++ [d]) 1 k →
    InOrder ds 1 k →
    ∃ mid e rest, post = mid ++ e :: rest ∧ InOrder (pre ++ d :: (mid ++ [e])) 1 k ∧ e.Blocks k
  /-- An aperture that the test does not see, as its base is zero or its end is not a word, lies
  on a candidate to which the devices push the search.  Then any one of them overlaps it. -/
  hidden : ∀ d ∈ ds, ∀ a ∈ d.apertures, a.base = 0 ∨ 2 ^ 64 ≤ a.base + a.size →
    ∀ k, ¬ a.Apart k → InOrder ds 1 k →
    ∃ pre e post, ds = pre ++ e :: post ∧ InOrder (pre ++ [e]) 1 k ∧ e.Blocks k
  /-- The devices do not push it through all the candidates. -/
  inside : ¬ InOrder ds 1 (2 ^ 17 - 1)

theorem DeviceApertures.Uses.blocks (h : d.Uses k) : d.Blocks k := by
  obtain ⟨a, ha, _, hblocks⟩ := h
  rw [DeviceApertures.Blocks, DeviceApertures.blocks, Bool.or_eq_true]
  rcases List.mem_cons.mp ha with rfl | ha
  · exact Or.inl hblocks
  · cases List.mem_singleton.mp ha
    exact Or.inr hblocks

theorem apart_iff (a : Aperture) (k : Nat) :
    a.Apart k ↔ a.size = 0 ∨ a.base + a.size ≤ k * 2 ^ 47 ∨ (k + 1) * 2 ^ 47 ≤ a.base := by
  constructor
  · intro h
    have hbase := h a.base (Nat.le_refl _)
    have hstart := h (k * 2 ^ 47)
    omega
  · intro h x hx hlt
    omega

/-- The test is exact for an aperture that is not empty and has its two ends. -/
theorem blocks_iff_not_apart {a : Aperture} (hbase : a.base ≠ 0) (hsize : a.size ≠ 0)
    (hend : a.base + a.size < 2 ^ 64) (hk : k + 1 < 2 ^ 17) :
    a.blocks (k * 2 ^ 47) = false ↔ a.Apart k := by
  have hsum : k * 2 ^ 47 + 2 ^ 47 < 2 ^ 64 := by omega
  rw [apart_iff, Aperture.blocks, isOverlapping, u64_of_lt hend, u64_of_lt hsum]
  simp only [hbase, ne_eq, not_false_eq_true, decide_true, Bool.true_and, Bool.and_eq_false_iff,
    decide_eq_false_iff_not]
  omega

/-- The apertures leave a candidate alone exactly if the test sees none of them there and
there is none that it cannot see. -/
theorem apart_all_iff (ds : List DeviceApertures) (hk : k + 1 < 2 ^ 17) :
    (∀ d ∈ ds, ∀ a ∈ d.apertures, a.Apart k) ↔
      (∀ d ∈ ds, ∀ a ∈ d.apertures, a.size ≠ 0 → a.blocks (k * 2 ^ 47) = false) ∧
        ∀ d ∈ ds, ∀ a ∈ d.apertures, a.base = 0 ∨ 2 ^ 64 ≤ a.base + a.size → a.Apart k := by
  constructor
  · intro h
    refine ⟨?_, fun d hd a ha _ => h d hd a ha⟩
    intro d hd a ha hsize
    by_cases hbase : a.base = 0
    · simp [Aperture.blocks, hbase]
    by_cases hend : a.base + a.size < 2 ^ 64
    · exact (blocks_iff_not_apart hbase hsize hend hk).mpr (h d hd a ha)
    · -- the end of the aperture wraps, so that the test finds it below its base
      have hapart := (apart_iff a k).mp (h d hd a ha)
      have hbase_lt := a.base_lt
      have hsum : k * 2 ^ 47 + 2 ^ 47 < 2 ^ 64 := by omega
      have hbelow : ¬ a.base < u64 (k * 2 ^ 47 + 2 ^ 47) := by
        rw [u64_of_lt hsum]
        omega
      rw [Aperture.blocks, isOverlapping, decide_eq_false hbelow, Bool.false_and, Bool.and_false]
  · rintro ⟨hfree, hseen⟩ d hd a ha
    by_cases hbase : a.base = 0
    · exact hseen d hd a ha (.inl hbase)
    by_cases hend : a.base + a.size < 2 ^ 64
    · by_cases hsize : a.size = 0
      · exact (apart_iff a k).mpr (.inl hsize)
      · exact (blocks_iff_not_apart hbase hsize hend hk).mp (hfree d hd a ha hsize)
    · exact hseen d hd a ha (.inr (Nat.le_of_not_lt hend))

theorem initHandleApertureSpace_eq (devices : List (Option DeviceApertures)) :
    initHandleApertureSpace devices = (true, (passDevices devices .first).start, 2 ^ 47) := by
  rw [initHandleApertureSpace, if_pos (by decide)]

/-- What pushes the search past a candidate lies behind a device that does not push it there. -/
theorem pushed_later {pre pre' post post' : List DeviceApertures} {d e : DeviceApertures}
    (hsplit : pre ++ d :: post = pre' ++ e :: post') (hnot : ¬ InOrder (pre ++ [d]) k m)
    (horder : InOrder (pre' ++ [e]) k m) :
    ∃ mid, post = mid ++ e :: post' ∧ pre' ++ [e] = pre ++ d :: (mid ++ [e]) := by
  have hlists : (pre ++ [d]) ++ post = (pre' ++ [e]) ++ post' := by
    rw [List.append_assoc, List.append_assoc]
    exact hsplit
  rcases List.append_eq_append_iff.mp hlists with ⟨more, hpre, hpost⟩ | ⟨more, hpre, -⟩
  · rcases List.eq_nil_or_concat more with rfl | ⟨mid, f, rfl⟩
    · rw [List.append_nil] at hpre
      exact absurd (hpre ▸ horder) hnot
    · rw [List.concat_eq_append, ← List.append_assoc] at hpre
      obtain ⟨rfl, hlast⟩ := List.append_inj' hpre rfl
      cases hlast
      refine ⟨mid, ?_, ?_⟩
      · rw [hpost, List.concat_eq_append, List.append_assoc]
        rfl
      · rw [List.append_assoc, List.append_assoc]
        rfl
  · rw [hpre] at hnot
    exact absurd (horder.append_right more) hnot

/-- The search ends, always with success.  What it finds is right exactly if the devices push the
search upon none of them, and not through all the candidates. -/
theorem handle_aperture_clear_iff (ds : List DeviceApertures) :
    (initHandleApertureSpace (ds.map some)).1 = true ∧
      (Avoids ds (initHandleApertureSpace (ds.map some)).2.1
          (initHandleApertureSpace (ds.map some)).2.2 ↔ Uncrossed ds) := by
  have hfirst : Candidate.first.index = 1 := rfl
  have horder := fun m => inOrder_iff (m := m) ds .first
  have hle := le_passDevices ds .first
  simp only [initHandleApertureSpace_eq, Candidate.start_eq, hfirst] at horder hle ⊢
  generalize (passDevices (ds.map some) .first).index = k at horder hle
  refine ⟨trivial, ?_⟩
  have hstart : k * 2 ^ 47 + 2 ^ 47 = (k + 1) * 2 ^ 47 := by omega
  constructor
  · rintro ⟨_, hbelow, hapart⟩
    have hinside : k + 1 < 2 ^ 17 := by
      rw [endNonCanonicalAddr] at hbelow
      omega
    rw [hstart] at hapart
    obtain ⟨hfree, hseen⟩ := (apart_all_iff ds hinside).mp hapart
    -- candidates that are used are not the last one
    have hmore : ∀ {j}, j ≠ k → InOrder ds 1 j →
        ∃ pre e post, ds = pre ++ e :: post ∧ InOrder (pre ++ [e]) 1 j ∧ e.Blocks j := by
      intro j hne hj
      obtain ⟨hone, hjk⟩ := (horder j).mp hj
      exact ((horder (j + 1)).mpr ⟨Nat.le_succ_of_le hone, by omega⟩).pushed hone
    refine ⟨?_, ?_, fun hall => ?_⟩
    · rintro pre d post j rfl ⟨a, ha, hsize, hblocks⟩ hnot hj
      have hne : j ≠ k := by
        rintro rfl
        rw [hfree d (List.mem_append_right _ List.mem_cons_self) a ha hsize] at hblocks
        cases hblocks
      obtain ⟨pre', e, post', hsplit, he, hpast⟩ := hmore hne hj
      obtain ⟨mid, hpost, hpre⟩ := pushed_later hsplit hnot he
      exact ⟨mid, e, post', hpost, hpre ▸ he, hpast⟩
    · intro d hd a ha hunseen j hon hj
      refine hmore ?_ hj
      rintro rfl
      exact hon (hseen d hd a ha hunseen)
    · have hend := ((horder _).mp hall).2
      omega
  · rintro ⟨hlater, hhidden, hinside⟩
    have hk : k + 1 < 2 ^ 17 := by
      by_contra hgt
      exact hinside ((horder _).mpr ⟨by decide, by omega⟩)
    have hlast : InOrder ds 1 k := (horder k).mpr ⟨hle, Nat.le_refl k⟩
    -- no device overlaps the candidate where the search ends, unless the search comes later
    have hstuck : ∀ pre e post, ds = pre ++ e :: post → InOrder (pre ++ [e]) 1 k → ¬ e.Blocks k := by
      rintro pre e post rfl he hblocks
      have hpush := (InOrder.push (c := .first) he hblocks).append_right post
      rw [List.append_assoc] at hpush
      exact absurd ((horder _).mp hpush).2 (Nat.not_succ_le_self k)
    refine ⟨?_, ?_, ?_⟩
    · rw [startNonCanonicalAddr]
      omega
    · rw [endNonCanonicalAddr]
      omega
    · rw [hstart]
      refine (apart_all_iff ds hk).mpr ⟨?_, ?_⟩
      · intro d hd a ha hsize
        refine Bool.eq_false_iff.mpr fun hblocks => ?_
        obtain ⟨pre, post, hsplit⟩ := List.append_of_mem hd
        have huses : d.Uses k := ⟨a, ha, hsize, hblocks⟩
        by_cases hbefore : InOrder (pre ++ [d]) 1 k
        · exact hstuck pre d post hsplit hbefore huses.blocks
        · obtain ⟨mid, e, rest, hpost, he, hpast⟩ := hlater pre d post k hsplit huses hbefore hlast
          refine hstuck (pre ++ d :: mid) e rest ?_ ?_ hpast
          · rw [hsplit, hpost, List.append_assoc]
            rfl
          · rw [List.append_assoc]
            exact he
      · intro d hd a ha hunseen
        by_contra hon
        obtain ⟨pre, e, post, hsplit, he, hpast⟩ := hhidden d hd a ha hunseen k hon hlast
        exact hstuck pre e post hsplit he hpast

/-- No aperture. -/
def noAperture : Aperture := ⟨0, 0, by decide, by decide⟩

/-- A device that uses the first candidate, and one that uses the second. -/
def firstUser : DeviceApertures := ⟨⟨2 ^ 47, 2 ^ 47, by decide, by decide⟩, noAperture⟩

def secondUser : DeviceApertures := ⟨⟨2 ^ 48, 2 ^ 47, by decide, by decide⟩, noAperture⟩

theorem crossed_start : (initHandleApertureSpace [some secondUser, some firstUser]).2.1 = 2 ^ 48 := by
  have hsecond : ¬ secondUser.blocks Candidate.first.start = true := by decide
  have hfirst : firstUser.blocks Candidate.first.start = true := by decide
  have hpast : ¬ firstUser.blocks Candidate.first.bump.start = true := by decide
  simp only [initHandleApertureSpace_eq, passDevices]
  rw [passDevice.eq_1 secondUser, if_neg hsecond, passDevice, if_pos hfirst, passDevice,
    if_neg hpast]
  rfl

/-- The second device pushes the search onto the aperture of the first one. -/
theorem crossed_overlap :
    ¬ ∀ ds : List DeviceApertures, (initHandleApertureSpace (ds.map some)).1 = true →
      Avoids ds (initHandleApertureSpace (ds.map some)).2.1
        (initHandleApertureSpace (ds.map some)).2.2 := by
  intro hall
  have havoids := hall [secondUser, firstUser] (by rw [initHandleApertureSpace_eq])
  have hapart := havoids.apart secondUser (List.mem_cons_self ..) secondUser.privateAperture
    (List.mem_cons_self ..) (2 ^ 48) (by decide) (by decide)
  simp only [List.map_cons, List.map_nil, crossed_start] at hapart
  exact hapart ⟨Nat.le_refl _, by rw [initHandleApertureSpace_eq]; decide⟩

end RocDxg
