import RocDxg.Bdf.Text

/-!
# The BDF class of the command line tool

`BDF` of `amdsmi_cli/BDF.py`: the constructor, the comparison, the two ways to print an object,
and membership.

The constructor takes a line with the text of a device (`construct_line_iff`).  It takes more
lines than that: a text that begins with `BDF(` loses every `BDF(` and every `)` first, and the
pattern leaves out a newline at the end.  An object is printed with a colon before the function
number, where the pattern wants a point, so what is printed is never read back and membership is
always false (`text_agrees_iff`).
-/

namespace RocDxg

open Lib (Pattern hexValue isHexDigit)
open Lib.Pattern (EndsLine Reads matchLine findall)

namespace Bdf

/-! ## The constructor -/

/-- `[0-9a-fA-F]` -/
def hexClass : Pattern := .one isHexDigit

/-- `_BDF_PATTERN`, between its anchors:
`(?:[0-9a-fA-F]{4}:)?[0-9a-fA-F]{2}:[0-9a-fA-F]{2}\.[0-9a-fA-F]` -/
def bdfPattern : Pattern :=
  .seq (.optional (.seq (.times 4 hexClass) (.char ':')))
    (.seq (.times 2 hexClass) (.seq (.char ':')
      (.seq (.times 2 hexClass) (.seq (.char '.') hexClass))))

/-- `bdf.replace('BDF(', '')` -/
def removeOpenings : List Char → List Char
  | 'B' :: 'D' :: 'F' :: '(' :: s => removeOpenings s
  | c :: s => c :: removeOpenings s
  | [] => []

/-- `bdf.startswith("BDF(")` -/
def startsWithOpening (bdf : List Char) : Bool := ['B', 'D', 'F', '('].isPrefixOf bdf

/-- The text without what an object is wrapped in when it is printed. -/
def unwrap (bdf : List Char) : List Char :=
  if startsWithOpening bdf then (removeOpenings bdf).filter (· ≠ ')') else bdf

/-- The object with some components. -/
def ofComponents (components : List Nat) : Except PyException Bdf :=
  let segment := if components.length = 4 then components.headD 0 else 0
  match components.drop (components.length - 3) with
  | [bus, device, function] =>
      if segment > 65535 then .error (.bdfError "Segment can't be greater than 65535")
      else if bus > 255 then .error (.bdfError "Bus can't be greater than 255")
      else if device > 31 then .error (.bdfError "Device can't be greater than 31")
      else if function > 7 then .error (.bdfError "Function can't be greater than 7")
      else .ok ⟨segment, bus, device, function⟩
  | _ => .error .valueError

/-- The constructor on a text that is not wrapped. -/
def ofLine (bdf : List Char) : Except PyException Bdf :=
  match matchLine bdfPattern bdf with
  | none => .error (.bdfError ("Invalid BDF format: '" ++ String.ofList bdf ++ "'"))
  | some _ => do ofComponents (← int16All (splitFields bdf))

/-- `__init__` on a text. -/
def construct (bdf : List Char) : Except PyException Bdf := ofLine (unwrap bdf)

/-! ## The other methods -/

/-- What the operators of the class are used with. -/
inductive Passed where
  | text (s : List Char)
  | object (b : Bdf)
  | other

/-- `__init__` -/
def init : Passed → Except PyException Bdf
  | .text s => construct s
  | .object b => .ok ⟨b.segment, b.bus, b.device, b.function⟩
  | .other => .error .attributeError

/-- The comparison of the four numbers. -/
def same (self passed : Bdf) : Bool :=
  self.segment = passed.segment ∧ self.bus = passed.bus ∧ self.device = passed.device ∧
    self.function = passed.function

/-- `__eq__` -/
def eq (self : Bdf) : Passed → Except PyException Bool
  | .text s => if s = [] then .ok false else do return self.same (← construct s)
  | .object b => .ok (self.same b)
  | .other => .ok false

/-- `{:0wX}` -/
def formatX (w n : Nat) : List Char := ((Nat.toDigits 16 n).map Char.toUpper).leftpad w '0'

/-- `__str__`: `{:04X}:{:02X}:{:02X}:{}` -/
def str (self : Bdf) : List Char :=
  formatX 4 self.segment ++ ':' :: (formatX 2 self.bus ++ ':' :: (formatX 2 self.device ++
    ':' :: Nat.toDigits 10 self.function))

/-- `__repr__` -/
def repr (self : Bdf) : List Char := ['B', 'D', 'F', '('] ++ self.str ++ [')']

/-- A class of digits from zero. -/
def upToDigit (d : Char) : Pattern := .one fun c => '0' ≤ c ∧ c ≤ d

/-- `bdf_regex`:
`(?:[0-6]?[0-9a-fA-F]{1,4}:)?[0-2]?[0-9a-fA-F]{1,2}:[0-9a-fA-F]{1,2}\.[0-7]` -/
def bdfRegex : Pattern :=
  .seq (.optional (.seq (.optional (upToDigit '6')) (.seq (.between 1 4 hexClass) (.char ':'))))
    (.seq (.optional (upToDigit '2')) (.seq (.between 1 2 hexClass) (.seq (.char ':')
      (.seq (.between 1 2 hexClass) (.seq (.char '.') (upToDigit '7'))))))

/-- The loop of `__contains__`. -/
def anyEqual (self : Bdf) : List (List Char) → Except PyException Bool
  | [] => .ok false
  | m :: rest => do if ← self.eq (.text m) then return true else anyEqual self rest

/-- `__contains__` -/
def contains (self : Bdf) (passed : Passed) : Except PyException Bool := do
  let passed ← init passed
  anyEqual self (findall bdfRegex passed.str)

/-! ## Lines that are taken -/

variable {s t x : List Char} {b : Bdf} {w : BdfText} {gs : List (List Char)}

/-- The part of the pattern behind the segment. -/
theorem reads_behind_segment :
    Reads (.seq (.times 2 hexClass) (.seq (.char ':') (.seq (.times 2 hexClass)
      (.seq (.char '.') hexClass)))) t gs ↔
      gs = [] ∧ ∃ bus device function, Digits 2 bus ∧ Digits 2 device ∧
        isHexDigit function = true ∧ t = bus ++ ':' :: (device ++ '.' :: [function]) := by
  simp only [hexClass, Lib.Pattern.reads_seq_times_one, Lib.Pattern.reads_seq_char,
    Lib.Pattern.reads_one]
  constructor
  · rintro ⟨bus, _, ⟨hbus, hbusd⟩, ⟨_, ⟨device, _, ⟨hdev, hdevd⟩, ⟨_, ⟨function, hfun, rfl, rfl⟩,
      rfl⟩, rfl⟩, rfl⟩, rfl⟩
    exact ⟨rfl, bus, device, function, ⟨hbus, hbusd⟩, ⟨hdev, hdevd⟩, hfun, rfl⟩
  · rintro ⟨rfl, bus, device, function, ⟨hbus, hbusd⟩, ⟨hdev, hdevd⟩, hfun, rfl⟩
    exact ⟨bus, _, ⟨hbus, hbusd⟩, ⟨_, ⟨device, _, ⟨hdev, hdevd⟩, ⟨_, ⟨function, hfun, rfl, rfl⟩,
      rfl⟩, rfl⟩, rfl⟩, rfl⟩

/-- The pattern is that of the texts of a BDF. -/
theorem reads_bdfPattern : Reads bdfPattern t gs ↔ gs = [] ∧ ∃ w : BdfText, t = w.text := by
  rw [bdfPattern, Lib.Pattern.reads_seq_optional, reads_behind_segment, Lib.Pattern.reads_seq]
  constructor
  · rintro (⟨_, _, _, _, hseg, hrest, rfl, rfl⟩ |
      ⟨rfl, bus, device, function, hbus, hdev, hfun, rfl⟩)
    · obtain ⟨rfl, bus, device, function, hbus, hdev, hfun, rfl⟩ := reads_behind_segment.mp hrest
      obtain ⟨seg, _, ⟨hlen, hdigits⟩, hcolon, rfl⟩ := Lib.Pattern.reads_seq_times_one.mp hseg
      obtain ⟨rfl, rfl⟩ := Lib.Pattern.reads_char.mp hcolon
      have hsegd : ∀ s ∈ some seg, Digits 4 s := by
        intro s hs
        obtain rfl := Option.mem_some_iff.mp hs
        exact ⟨hlen, hdigits⟩
      exact ⟨rfl, ⟨some seg, bus, device, function, hsegd, hbus, hdev, hfun⟩, rfl⟩
    · exact ⟨rfl, ⟨none, bus, device, function, by simp, hbus, hdev, hfun⟩, rfl⟩
  · rintro ⟨rfl, ⟨segment, bus, device, function, hseg, hbus, hdev, hfun⟩, rfl⟩
    cases segment with
    | none => exact .inr ⟨rfl, bus, device, function, hbus, hdev, hfun, rfl⟩
    | some seg =>
        have hd := hseg seg rfl
        refine .inl ⟨seg ++ [':'], [], _, [], ?_,
          reads_behind_segment.mpr ⟨rfl, bus, device, function, hbus, hdev, hfun, rfl⟩, rfl, rfl⟩
        exact Lib.Pattern.reads_seq_times_one.mpr
          ⟨seg, _, ⟨hd.length, hd.digits⟩, Lib.Pattern.reads_char.mpr ⟨rfl, rfl⟩, rfl⟩

/-- The numbers of a text, checked. -/
theorem ofComponents_components (w : BdfText) :
    (w.InRange → ofComponents w.components = .ok w.value) ∧
      (¬ w.InRange → ∃ m, ofComponents w.components = .error (.bdfError m)) := by
  have hbus : ¬ hexValue w.bus > 255 := by
    have := Lib.hexValue_lt w.bus
    rw [w.bus_digits.length] at this
    omega
  have hseg : ∀ s, w.segment = some s → ¬ hexValue s > 65535 := by
    intro s hs
    have := Lib.hexValue_lt s
    rw [(w.segment_digits s hs).length] at this
    omega
  have hchecked : ofComponents w.components =
      if hexValue w.device > 31 then .error (.bdfError "Device can't be greater than 31")
      else if hexValue [w.function] > 7 then
        .error (.bdfError "Function can't be greater than 7")
      else .ok w.value := by
    cases hs : w.segment with
    | none => simp [ofComponents, BdfText.components, BdfText.value, hs, hbus]
    | some s => simp [ofComponents, BdfText.components, BdfText.value, hs, hbus, hseg s hs]
  rw [hchecked]
  constructor
  · rintro ⟨hdev, hfun⟩
    rw [if_neg (Nat.not_lt.mpr hdev), if_neg (Nat.not_lt.mpr hfun)]
  · intro hrange
    split
    next => exact ⟨_, rfl⟩
    next hdev =>
      split
      next => exact ⟨_, rfl⟩
      next hfun => exact absurd ⟨Nat.not_lt.mp hdev, Nat.not_lt.mp hfun⟩ hrange

/-- A line of a text is read as its numbers. -/
theorem ofLine_of_endsLine (h : EndsLine s w.text) : ofLine s = ofComponents w.components := by
  obtain ⟨gs, hmatch⟩ :=
    Lib.Pattern.exists_matchLine_of_reads (reads_bdfPattern.mpr ⟨rfl, w, rfl⟩) h
  rw [ofLine, hmatch, components_of_endsLine h]
  rfl

/-- A line that is no text of a BDF is refused. -/
theorem ofLine_error_of_forall (h : ∀ w : BdfText, ¬ EndsLine s w.text) :
    ∃ m, ofLine s = .error (.bdfError m) := by
  have hnone : matchLine bdfPattern s = none := by
    rw [Lib.Pattern.matchLine_eq_none_iff]
    intro t gs hreads
    obtain ⟨-, w, rfl⟩ := reads_bdfPattern.mp hreads
    exact h w
  rw [ofLine, hnone]
  exact ⟨_, rfl⟩

/-- What is taken is the text of a device, up to a newline at its end. -/
theorem ofLine_eq_ok_iff :
    ofLine s = .ok b ↔ ∃ w : BdfText, EndsLine s w.text ∧ w.InRange ∧ b = w.value := by
  constructor
  · intro hok
    by_cases hline : ∃ w : BdfText, EndsLine s w.text
    · obtain ⟨w, hw⟩ := hline
      rw [ofLine_of_endsLine hw] at hok
      by_cases hrange : w.InRange
      · rw [(ofComponents_components w).1 hrange] at hok
        exact ⟨w, hw, hrange, (Except.ok.inj hok).symm⟩
      · obtain ⟨m, hm⟩ := (ofComponents_components w).2 hrange
        rw [hm] at hok
        cases hok
    · obtain ⟨m, hm⟩ := ofLine_error_of_forall (not_exists.mp hline)
      rw [hm] at hok
      cases hok
  · rintro ⟨w, hw, hrange, rfl⟩
    rw [ofLine_of_endsLine hw, (ofComponents_components w).1 hrange]

/-- Everything else is refused, with a `BDFError`. -/
theorem ofLine_error (h : ∀ b, ofLine s ≠ .ok b) : ∃ m, ofLine s = .error (.bdfError m) := by
  by_cases hline : ∃ w : BdfText, EndsLine s w.text
  · obtain ⟨w, hw⟩ := hline
    rw [ofLine_of_endsLine hw]
    refine (ofComponents_components w).2 fun hrange => h w.value ?_
    rw [ofLine_of_endsLine hw, (ofComponents_components w).1 hrange]
  · exact ofLine_error_of_forall (not_exists.mp hline)

/-! ## Wrapped texts -/

/-- A text, as an object is printed by `__repr__`. -/
def wrapped (t : List Char) : List Char := ['B', 'D', 'F', '('] ++ t ++ [')']

theorem removeOpenings_eq_self (h : '(' ∉ s) : removeOpenings s = s := by
  fun_induction removeOpenings s with
  | case1 s ih => simp at h
  | case2 s c _ ih => rw [ih fun hmem => h (List.mem_cons_of_mem _ hmem)]
  | case3 => rfl

theorem mem_of_mem_removeOpenings {c : Char} (h : c ∈ removeOpenings s) : c ∈ s := by
  fun_induction removeOpenings s with
  | case1 s ih => simp [ih h]
  | case2 s d _ ih =>
      cases List.mem_cons.mp h with
      | inl h => exact h ▸ List.mem_cons_self
      | inr h => exact List.mem_cons_of_mem _ (ih h)
  | case3 => exact h

theorem mem_of_mem_unwrap {c : Char} (h : c ∈ unwrap s) : c ∈ s := by
  rw [unwrap] at h
  split at h
  next => exact mem_of_mem_removeOpenings (List.mem_filter.mp h).1
  next => exact h

/-- A text of a BDF does not begin with `BDF(`. -/
theorem not_startsWithOpening_text (w : BdfText) : startsWithOpening w.text = false := by
  cases hst : startsWithOpening w.text with
  | false => rfl
  | true =>
      obtain ⟨rest, hrest⟩ := List.isPrefixOf_iff_prefix.mp hst
      have hmem : '(' ∈ w.text := hrest ▸ by simp
      rcases BdfText.mem_text hmem with hd | hd | hd <;> exact absurd hd (by decide)

theorem unwrap_text (w : BdfText) : unwrap w.text = w.text := by
  rw [unwrap, not_startsWithOpening_text]
  rfl

theorem unwrap_wrapped (w : BdfText) : unwrap (wrapped w.text) = w.text := by
  have hopen : '(' ∉ w.text ++ [')'] := by
    intro hmem
    rw [List.mem_append, List.mem_singleton] at hmem
    rcases hmem with hmem | heq
    · rcases BdfText.mem_text hmem with hd | hd | hd <;> exact absurd hd (by decide)
    · exact absurd heq (by decide)
  have hclose : ∀ c ∈ w.text, decide (c ≠ ')') = true := by
    intro c hc
    rw [decide_eq_true_eq]
    rintro rfl
    rcases BdfText.mem_text hc with hd | hd | hd <;> exact absurd hd (by decide)
  have hstart : startsWithOpening (wrapped w.text) = true :=
    List.isPrefixOf_iff_prefix.mpr ⟨w.text ++ [')'], by simp [wrapped]⟩
  have hremove : removeOpenings (wrapped w.text) = removeOpenings (w.text ++ [')']) := rfl
  rw [unwrap, if_pos hstart, hremove, removeOpenings_eq_self hopen, List.filter_append,
    List.filter_eq_self.mpr hclose]
  simp

/-! ## Printed objects -/

theorem point_notMem_formatX (n k : Nat) : '.' ∉ formatX n k := by
  have hupper : ∀ d, d < 16 → d.digitChar.toUpper ≠ '.' := by decide
  rw [formatX, List.leftpad, List.mem_append, List.mem_replicate, List.mem_map]
  rintro (⟨-, heq⟩ | ⟨c, hc, heq⟩)
  · exact absurd heq (by decide)
  · obtain ⟨d, hd, rfl⟩ := Lib.exists_digitChar_of_mem hc
    exact hupper d hd heq

/-- An object is printed without a point. -/
theorem point_notMem_str (b : Bdf) : '.' ∉ b.str := by
  have hfun : '.' ∉ Nat.toDigits 10 b.function := by
    intro hmem
    exact absurd (Nat.isDigit_of_mem_toDigits (by decide) (by decide) hmem) (by decide)
  simp [str, point_notMem_formatX, hfun]

theorem point_notMem_repr (b : Bdf) : '.' ∉ b.repr := by
  simp [repr, point_notMem_str]

/-- A text without a point is refused. -/
theorem construct_error_of_notMem (h : '.' ∉ s) : ∃ m, construct s = .error (.bdfError m) := by
  refine ofLine_error_of_forall fun w hw => h (mem_of_mem_unwrap ?_)
  rcases hw with heq | heq
  · rw [heq]
    exact w.point_mem_text
  · rw [heq]
    exact List.mem_append_left _ w.point_mem_text

/-- What membership looks for has a point. -/
theorem requires_bdfRegex : Lib.Pattern.Requires '.' bdfRegex :=
  Lib.Pattern.requires_seq_char.behind.behind.behind.behind.behind

theorem findall_str (b : Bdf) : findall bdfRegex b.str = [] := by
  rw [List.eq_nil_iff_forall_not_mem]
  intro t ht
  obtain ⟨⟨gs, hreads⟩, hin⟩ := Lib.Pattern.mem_findall ht
  exact point_notMem_str b (hin.subset (requires_bdfRegex t gs hreads))

/-- The comparison is equality. -/
theorem same_eq_true {b b' : Bdf} : b.same b' = true ↔ b = b' := by
  cases b
  cases b'
  simp [same]

/-- No object contains any other. -/
theorem contains_eq_false {passed : Passed} {b' : Bdf} (h : init passed = .ok b') :
    b.contains passed = .ok false := by
  rw [contains, h]
  show anyEqual b (findall bdfRegex b'.str) = _
  rw [findall_str]
  rfl

/-! ## Agreement -/

/-- Reading a text gives an object that equals `b`. -/
def RoundTrips (b : Bdf) (x : List Char) : Prop :=
  ∃ b', construct x = .ok b' ∧ b.eq (.object b') = .ok true

/-- `[ssss:]bb:dd.f` with a device number up to `1f` and a function number up to `7`, optionally
wrapped. -/
def WellFormed (x : List Char) : Prop :=
  ∃ w : BdfText, w.InRange ∧ (x = w.text ∨ x = wrapped w.text)

/-- The constructor takes a well formed text and raises `BDFError` on any other. -/
def Decides (x : List Char) : Prop :=
  (WellFormed x → ∃ b, construct x = .ok b) ∧
    (¬ WellFormed x → ∃ m, construct x = .error (.bdfError m))

/-- A text that is taken too: one with a newline behind the text of a device, or one that begins
with `BDF(` and becomes that text without its `BDF(` and `)`, but is not the text wrapped. -/
def Slips (x : List Char) : Prop :=
  ∃ w : BdfText, w.InRange ∧ (unwrap x = w.text ++ ['\n'] ∨
    (startsWithOpening x = true ∧ unwrap x = w.text ∧ x ≠ wrapped w.text))

theorem newline_notMem_text (w : BdfText) : '\n' ∉ w.text := by
  intro hmem
  rcases BdfText.mem_text hmem with hd | hd | hd <;> exact absurd hd (by decide)

/-- A well formed text loses its wrapping. -/
theorem exists_unwrap_of_wellFormed (h : WellFormed x) :
    ∃ w : BdfText, w.InRange ∧ unwrap x = w.text ∧ (startsWithOpening x = true →
      x = wrapped w.text) := by
  obtain ⟨w, hrange, rfl | rfl⟩ := h
  · refine ⟨w, hrange, unwrap_text w, fun hst => ?_⟩
    rw [not_startsWithOpening_text] at hst
    cases hst
  · exact ⟨w, hrange, unwrap_wrapped w, fun _ => rfl⟩

theorem construct_of_wellFormed (h : WellFormed x) : ∃ b, construct x = .ok b := by
  obtain ⟨w, hrange, hunwrap, -⟩ := exists_unwrap_of_wellFormed h
  exact ⟨w.value, ofLine_eq_ok_iff.mpr ⟨w, .inl hunwrap, hrange, rfl⟩⟩

theorem decides_iff : Decides x ↔ ¬ Slips x := by
  constructor
  · rintro ⟨-, hrefused⟩ ⟨w, hrange, hslip⟩
    have htaken : construct x = .ok w.value := by
      refine ofLine_eq_ok_iff.mpr ⟨w, ?_, hrange, rfl⟩
      rcases hslip with heq | ⟨-, heq, -⟩
      · exact .inr heq
      · exact .inl heq
    have hwell : WellFormed x := by
      by_contra hnot
      obtain ⟨m, hm⟩ := hrefused hnot
      rw [htaken] at hm
      cases hm
    obtain ⟨w', -, hunwrap, hwrapped⟩ := exists_unwrap_of_wellFormed hwell
    rcases hslip with heq | ⟨hst, heq, hne⟩
    · refine newline_notMem_text w' ?_
      rw [← hunwrap, heq]
      exact List.mem_append_right _ List.mem_cons_self
    · rw [hwrapped hst, ← hunwrap, heq] at hne
      exact hne rfl
  · intro hslip
    refine ⟨construct_of_wellFormed, fun hnot => ofLine_error fun b hb => ?_⟩
    obtain ⟨w, hline, hrange, -⟩ := ofLine_eq_ok_iff.mp hb
    rcases hline with heq | heq
    · cases hst : startsWithOpening x with
      | true =>
          refine hslip ⟨w, hrange, .inr ⟨hst, heq, fun hw => hnot ⟨w, hrange, .inr hw⟩⟩⟩
      | false =>
          rw [unwrap, hst] at heq
          exact hnot ⟨w, hrange, .inl heq⟩
    · exact hslip ⟨w, hrange, .inl heq⟩

/-- When the texts of the class agree: what an object prints is never read back; membership is
right just where the two objects differ; and the constructor takes just the well formed texts,
but for those that slip through. -/
theorem text_agrees_iff (x : List Char) (b : Bdf) :
    (construct x = .ok b → ¬ RoundTrips b b.str ∧ ¬ RoundTrips b b.repr) ∧
    (∀ b', construct x = .ok b' →
      ((b.contains (.text x) = .ok true ↔ b'.eq (.object b) = .ok true) ↔ b' ≠ b)) ∧
    (Decides x ↔ ¬ Slips x) := by
  refine ⟨fun _ => ⟨?_, ?_⟩, fun b' hx => ?_, decides_iff⟩
  · rintro ⟨b', hb', -⟩
    obtain ⟨m, hm⟩ := construct_error_of_notMem (point_notMem_str b)
    rw [hm] at hb'
    cases hb'
  · rintro ⟨b', hb', -⟩
    obtain ⟨m, hm⟩ := construct_error_of_notMem (point_notMem_repr b)
    rw [hm] at hb'
    cases hb'
  · have hsame : b'.eq (.object b) = .ok true ↔ b' = b := by
      rw [eq, Except.ok.injEq, same_eq_true]
    rw [contains_eq_false (show init (.text x) = .ok b' from hx), hsame]
    simp

/-- `01:00.0` -/
def sampleText : List Char := ['0', '1', ':', '0', '0', '.', '0']

theorem construct_sampleText : construct sampleText = .ok ⟨0, 1, 0, 0⟩ := by rfl

theorem text_agrees_iff_sample :
    (¬ RoundTrips ⟨0, 1, 0, 0⟩ (str ⟨0, 1, 0, 0⟩) ∧
      ¬ RoundTrips ⟨0, 1, 0, 0⟩ (repr ⟨0, 1, 0, 0⟩)) ∧
    (contains ⟨0, 1, 0, 1⟩ (.text sampleText) = .ok true ↔
      eq ⟨0, 1, 0, 0⟩ (.object ⟨0, 1, 0, 1⟩) = .ok true) ∧ Decides sampleText := by
  obtain ⟨hround, -, hdecides⟩ := text_agrees_iff sampleText ⟨0, 1, 0, 0⟩
  obtain ⟨-, hmember, -⟩ := text_agrees_iff sampleText ⟨0, 1, 0, 1⟩
  refine ⟨hround construct_sampleText, (hmember _ construct_sampleText).mpr (by decide),
    hdecides.mpr ?_⟩
  rintro ⟨w, -, heq | ⟨hst, -⟩⟩
  · have hmem : '\n' ∈ sampleText := mem_of_mem_unwrap (heq ▸ by simp)
    exact absurd hmem (by decide)
  · exact absurd hst (by decide)

/-- `BDF('01:00.0')` is printed as `0000:01:00:0`, which is no BDF; its own text is not in it; and
the text with a newline behind it is taken. -/
theorem text_disagrees :
    construct sampleText = .ok ⟨0, 1, 0, 0⟩ ∧
      str ⟨0, 1, 0, 0⟩ = ['0', '0', '0', '0', ':', '0', '1', ':', '0', '0', ':', '0'] ∧
      (∀ b, construct (str ⟨0, 1, 0, 0⟩) ≠ .ok b) ∧
      contains ⟨0, 1, 0, 0⟩ (.text sampleText) = .ok false ∧
      construct (sampleText ++ ['\n']) = .ok ⟨0, 1, 0, 0⟩ ∧
      ¬ WellFormed (sampleText ++ ['\n']) := by
  refine ⟨by rfl, by decide, fun b hb => ?_, by rfl, by rfl, ?_⟩
  · obtain ⟨m, hm⟩ := construct_error_of_notMem (point_notMem_str ⟨0, 1, 0, 0⟩)
    rw [hm] at hb
    cases hb
  · intro hwell
    obtain ⟨w, -, hunwrap, -⟩ := exists_unwrap_of_wellFormed hwell
    refine newline_notMem_text w ?_
    rw [← hunwrap]
    decide

end Bdf

end RocDxg
