import RocDxg.Lib.Patch
import RocDxg.Queue.Encoding

/-!
# The fields that encode a scratch address

Two dwords of a command encode a scratch address together, in one of three ways.  `ibFields` is
where the fields of the commands of an indirect buffer are: inside of it, and apart from one another
(`ibFields_bounds`, `spaced_ibFields`).  A field that is written anew decodes to the address
(`decode_register`, `decode_buffer`, `decode_flat`).
-/

namespace RocDxg

open Lib (Spaced)

/-! ## Fields -/

/-- The ways to encode a scratch address in two dwords. -/
inductive FieldKind where
  /-- `COMPUTE_DISPATCH_SCRATCH_BASE_LO` and `_HI`. -/
  | register
  /-- The first two dwords of the scratch descriptor. -/
  | buffer
  /-- The flat scratch base. -/
  | flat
deriving DecidableEq, Repr

/-- The address that a field encodes.  The descriptor shares its second dword. -/
def FieldKind.decode (lo hi : UInt32) : FieldKind → Nat
  | register => lo.toNat * 2 ^ 8 + hi.toNat * 2 ^ 40
  | buffer => lo.toNat + hi.toNat % 2 ^ 16 * 2 ^ 32
  | flat => lo.toNat + hi.toNat * 2 ^ 32

/-- A field, with the index of its first dword. -/
structure ScratchField where
  kind : FieldKind
  index : Nat
deriving DecidableEq, Repr

/-- The fields of the user data that start at a dword. -/
def userFields : Nat → List UserData → List ScratchField
  | i, .scratchLo _ :: .scratchHi _ :: .srdNumRecords _ :: .srdStride _ :: ds =>
      ⟨.buffer, i⟩ :: userFields (i + 4) ds
  | i, .scratchLo _ :: .scratchHi _ :: ds => ⟨.flat, i⟩ :: userFields (i + 2) ds
  | i, _ :: ds => userFields (i + 1) ds
  | _, [] => []

namespace Pm4

/-- The number of dwords of a command. -/
def dwords (c : Pm4) : Nat := c.size / 4

/-- The fields of a command that starts at a dword: the scratch registers from gfx11 on, the user
data before. -/
def scratchFields (major : Gfx) (i : Nat) : Pm4 → List ScratchField
  | setScratch _ => if major.ge11 then [⟨.register, i + 2⟩] else []
  | dispatch d => if major.ge11 then [] else userFields (i + 23) d.userData
  | _ => []

/-- The fields of the commands that start at a dword. -/
def ibFields (major : Gfx) : Nat → List Pm4 → List ScratchField
  | _, [] => []
  | i, c :: cs => c.scratchFields major i ++ ibFields major (i + c.dwords) cs

/-- The dwords of a list of commands. -/
def ibWords (e : DwordEnv) (cs : List Pm4) : List UInt32 := cs.flatMap (words e)

end Pm4

/-- A scratch address that the encodings can hold. -/
def Encodable (base : Nat) : Prop := 2 ^ 8 ∣ base ∧ base < 2 ^ 48

instance (base : Nat) : Decidable (Encodable base) := inferInstanceAs (Decidable (_ ∧ _))

/-! ## What the fields decode to -/

/-- The upper half of a dword is kept, and the lower half replaced. -/
theorem toNat_mask_or (hi h : UInt32) (hh : h.toNat < 2 ^ 16) :
    ((hi &&& 0xFFFF0000) ||| h).toNat = 2 ^ 16 * (hi.toNat / 2 ^ 16) + h.toNat := by
  have hlt : hi.toNat < 2 ^ 32 := UInt32.toNat_lt hi
  have hmask : (0xFFFF0000 : UInt32).toNat = 2 ^ 16 * (2 ^ 16 - 1) + 0 := rfl
  rw [UInt32.toNat_or, UInt32.toNat_and]
  refine Nat.eq_of_testBit_eq fun i => ?_
  rw [Nat.testBit_or, Nat.testBit_and, hmask, Nat.testBit_two_pow_mul_add _ hh,
    Nat.testBit_two_pow_mul_add _ (by decide), Nat.testBit_two_pow_sub_one, Nat.testBit_div_two_pow]
  by_cases hlow : i < 16
  · simp [hlow]
  · have hpow : 2 ^ 16 ≤ 2 ^ i := Nat.pow_le_pow_right (by decide) (by omega)
    have hzero : h.toNat.testBit i = false :=
      Nat.testBit_lt_two_pow (Nat.lt_of_lt_of_le hh hpow)
    rw [if_neg hlow, if_neg hlow, hzero, Bool.or_false, Nat.sub_add_cancel (by omega)]
    by_cases hhigh : i < 32
    · rw [decide_eq_true (by omega), Bool.and_true]
    · have hpow : 2 ^ 32 ≤ 2 ^ i := Nat.pow_le_pow_right (by decide) (by omega)
      have htop : hi.toNat.testBit i = false :=
        Nat.testBit_lt_two_pow (Nat.lt_of_lt_of_le hlt hpow)
      rw [htop, Bool.false_and]

variable {base : Nat}

theorem decode_register (h : Encodable base) :
    FieldKind.decode (ptr48Low32 base) (ptr48High8 base) .register = base := by
  obtain ⟨hdvd, hlt⟩ := h
  rw [FieldKind.decode, ptr48Low32, ptr48High8, UInt32.toNat_ofNat', UInt32.toNat_ofNat']
  omega

theorem toNat_ptrHigh32 (h : base < 2 ^ 48) : (ptrHigh32 base).toNat = base / 2 ^ 32 := by
  rw [ptrHigh32, UInt32.toNat_ofNat']
  omega

theorem toNat_relocatedHigh (h : Encodable base) (hi : UInt32) :
    ((hi &&& 0xFFFF0000) ||| ptrHigh32 base).toNat =
      2 ^ 16 * (hi.toNat / 2 ^ 16) + base / 2 ^ 32 := by
  have hlt := h.2
  have hhigh := toNat_ptrHigh32 hlt
  rw [toNat_mask_or _ _ (by omega), hhigh]

theorem decode_buffer (h : Encodable base) (hi : UInt32) :
    FieldKind.decode (ptrLow32 base) ((hi &&& 0xFFFF0000) ||| ptrHigh32 base) .buffer = base := by
  have hlt := h.2
  rw [FieldKind.decode, toNat_relocatedHigh h, ptrLow32, UInt32.toNat_ofNat']
  omega

/-- The second dword of a flat scratch base keeps its upper half too, which has to be zero. -/
theorem decode_flat (h : Encodable base) {hi : UInt32} (hhi : hi.toNat < 2 ^ 16) :
    FieldKind.decode (ptrLow32 base) ((hi &&& 0xFFFF0000) ||| ptrHigh32 base) .flat = base := by
  have hlt := h.2
  rw [FieldKind.decode, toNat_relocatedHigh h, ptrLow32, UInt32.toNat_ofNat']
  omega

/-! ## Where the fields are -/

/-- A field of `n` dwords before others. -/
theorem bounds_cons {i n len : Nat} {kind : FieldKind} {fs : List ScratchField} (hn : 2 ≤ n)
    (hkind : kind ≠ .register)
    (h : ∀ f ∈ fs, i + n ≤ f.index ∧ f.index + 2 ≤ i + n + len ∧ f.kind ≠ .register) :
    ∀ f ∈ ⟨kind, i⟩ :: fs, i ≤ f.index ∧ f.index + 2 ≤ i + (len + n) ∧ f.kind ≠ .register := by
  intro f hf
  cases List.mem_cons.mp hf with
  | inl heq =>
      subst heq
      exact ⟨Nat.le_refl i, by simp only; omega, hkind⟩
  | inr hmem =>
      obtain ⟨hle, hlt, hf⟩ := h f hmem
      exact ⟨by omega, by omega, hf⟩

theorem userFields_bounds {i : Nat} {ds : List UserData} :
    ∀ f ∈ userFields i ds, i ≤ f.index ∧ f.index + 2 ≤ i + ds.length ∧ f.kind ≠ .register := by
  fun_induction userFields with
  | case1 i b b' n w ds ih => exact bounds_cons (n := 4) (by decide) nofun ih
  | case2 i b b' ds _ ih => exact bounds_cons (n := 2) (by decide) nofun ih
  | case3 i u ds _ _ ih =>
      intro f hf
      obtain ⟨hle, hlt, hkind⟩ := ih f hf
      rw [List.length_cons]
      exact ⟨by omega, by omega, hkind⟩
  | case4 => exact fun f hf => absurd hf List.not_mem_nil

theorem spaced_userFields (i : Nat) (ds : List UserData) :
    Spaced ((userFields i ds).map ScratchField.index) := by
  fun_induction userFields with
  | case1 i b b' n w ds ih =>
      refine List.pairwise_cons.mpr ⟨fun j hj => ?_, ih⟩
      obtain ⟨f, hf, rfl⟩ := List.mem_map.mp hj
      have hle := (userFields_bounds f hf).1
      show i + 2 ≤ f.index
      omega
  | case2 i b b' ds _ ih =>
      refine List.pairwise_cons.mpr ⟨fun j hj => ?_, ih⟩
      obtain ⟨f, hf, rfl⟩ := List.mem_map.mp hj
      exact (userFields_bounds f hf).1
  | case3 i u ds _ _ ih => exact ih
  | case4 => exact List.Pairwise.nil

/-- The second dword of a flat scratch base is the upper part of an address in the user data. -/
theorem userFields_flat {e : DwordEnv} {i : Nat} {ds : List UserData} :
    ∀ f ∈ userFields i ds, f.kind = .flat → ∃ b, UserData.scratchHi b ∈ ds ∧
      (e.userWords ds)[f.index + 1 - i]? = some (ptrHigh32 (scratchAddr b)) := by
  fun_induction userFields with
  | case1 i b b' n w ds ih =>
      intro f hf hkind
      cases List.mem_cons.mp hf with
      | inl heq =>
          subst heq
          cases hkind
      | inr hmem =>
          obtain ⟨b₁, hb, hget⟩ := ih f hmem hkind
          have hle := (userFields_bounds f hmem).1
          refine ⟨b₁, ?_, ?_⟩
          · exact List.mem_append_right
              [.scratchLo b, .scratchHi b', .srdNumRecords n, .srdStride w] hb
          · have hlen := Pm4.length_srd (e := e) b n w
            rw [DwordEnv.userWords, List.getElem?_append_right (by omega), hlen, ← hget]
            congr 1
  | case2 i b b' ds hsrd ih =>
      intro f hf hkind
      have hwords : e.userWords (.scratchLo b :: .scratchHi b' :: ds) =
          ptrLow32 (scratchAddr b) :: ptrHigh32 (scratchAddr b') :: e.userWords ds := by
        rw [DwordEnv.userWords, DwordEnv.userWords]
        · rfl
        · nofun
        · intro _ _ n w ds' _ heq
          cases heq
          exact hsrd n w ds' rfl
      rw [hwords]
      cases List.mem_cons.mp hf with
      | inl heq =>
          subst heq
          refine ⟨b', List.mem_cons_of_mem _ (List.mem_cons_self ..), ?_⟩
          rw [Nat.add_sub_cancel_left]
          rfl
      | inr hmem =>
          obtain ⟨b₁, hb, hget⟩ := ih f hmem hkind
          have hle := (userFields_bounds f hmem).1
          refine ⟨b₁, List.mem_cons_of_mem _ (List.mem_cons_of_mem _ hb), ?_⟩
          have hidx : f.index + 1 - i = f.index + 1 - (i + 2) + 2 := by omega
          rw [hidx, List.getElem?_cons_succ, List.getElem?_cons_succ]
          exact hget
  | case3 i u ds hsrd hflat ih =>
      intro f hf hkind
      obtain ⟨b₁, hb, hget⟩ := ih f hf hkind
      have hle := (userFields_bounds f hf).1
      refine ⟨b₁, List.mem_cons_of_mem _ hb, ?_⟩
      have hidx : f.index + 1 - i = f.index + 1 - (i + 1) + 1 := by omega
      rw [DwordEnv.userWords, hidx, List.getElem?_cons_succ]
      · exact hget
      · exact hsrd
  | case4 => exact fun f hf => absurd hf List.not_mem_nil

namespace Pm4

variable {major : Gfx} {e : DwordEnv} {c : Pm4} {cs cs' : List Pm4} {i : Nat}

theorem dwords_eq (e : DwordEnv) (c : Pm4) : c.dwords = (c.words e).length := by
  rw [dwords, length_words (e := e), Nat.mul_div_cancel_left _ (by decide)]

theorem size_eq (c : Pm4) : c.size = 4 * c.dwords := by
  cases c with
  | acquireMem major => cases major <;> simp [dwords, size]
  | copied addr n =>
      simp only [dwords, size]
      omega
  | _ => simp [dwords, size]

theorem scratchFields_bounds :
    ∀ f ∈ c.scratchFields major i, i ≤ f.index ∧ f.index + 2 ≤ i + c.dwords ∧
      (f.kind = .register ↔ major.ge11 = true) := by
  intro f hf
  cases c with
  | setScratch b =>
      rw [scratchFields] at hf
      split at hf
      next hge =>
        have hsize : (setScratch b).dwords = 4 := by simp [dwords, size]
        rw [List.mem_singleton.mp hf, hsize]
        exact ⟨Nat.le_add_right .., Nat.le_refl _, iff_of_true rfl hge⟩
      next => cases hf
  | dispatch d =>
      rw [scratchFields] at hf
      split at hf
      next => cases hf
      next hlt =>
        obtain ⟨hle, hend, hkind⟩ := userFields_bounds f hf
        have hlen := d.userData_length
        have hsize : (dispatch d).dwords = 44 := by simp [dwords, size]
        exact ⟨by omega, by omega, iff_of_false hkind hlt⟩
  | _ => cases hf

theorem spaced_scratchFields (c : Pm4) (i : Nat) :
    Spaced ((c.scratchFields major i).map ScratchField.index) := by
  cases c with
  | setScratch b =>
      rw [scratchFields]
      split
      · exact List.pairwise_singleton ..
      · exact List.Pairwise.nil
  | dispatch d =>
      rw [scratchFields]
      split
      · exact List.Pairwise.nil
      · exact spaced_userFields _ _
  | _ => exact List.Pairwise.nil

/-- The second dword of a flat scratch base holds 16 bits. -/
theorem scratchFields_flat (hscratch : ∀ s ∈ c.scratch, s.addr < 2 ^ 48) :
    ∀ f ∈ c.scratchFields major i, f.kind = .flat →
      ∃ hi, (c.words e)[f.index + 1 - i]? = some hi ∧ hi.toNat < 2 ^ 16 := by
  intro f hf hkind
  cases c with
  | setScratch b =>
      rw [scratchFields] at hf
      split at hf
      next =>
        rw [List.mem_singleton.mp hf] at hkind
        cases hkind
      next => cases hf
  | dispatch d =>
      rw [scratchFields] at hf
      split at hf
      next => cases hf
      next =>
        obtain ⟨hle, hend, _⟩ := userFields_bounds f hf
        obtain ⟨b, hb, hget⟩ := userFields_flat (e := e) f hf hkind
        have haddr : scratchAddr b < 2 ^ 48 := by
          cases b with
          | none => exact Nat.two_pow_pos 48
          | some s => exact hscratch s (List.mem_filterMap.mpr ⟨_, hb, rfl⟩)
        refine ⟨ptrHigh32 (scratchAddr b), ?_, ?_⟩
        · have hidx : f.index + 1 - i = f.index + 1 - (i + 23) + 23 := by omega
          have hlen := length_userWords (e := e) d.userData
          rw [words, dispatchWords, List.append_assoc, List.append_assoc,
            List.getElem?_append_right (by rw [length_dispatchHead]; omega), length_dispatchHead,
            hidx, Nat.add_sub_cancel, List.getElem?_append_left (by omega)]
          exact hget
        · rw [toNat_ptrHigh32 haddr]
          omega
  | _ => cases hf

/-! ## The fields of the indirect buffer -/

theorem ibWords_cons (e : DwordEnv) (c : Pm4) (cs : List Pm4) :
    ibWords e (c :: cs) = c.words e ++ ibWords e cs := List.flatMap_cons

theorem ibFields_bounds :
    ∀ f ∈ ibFields major i cs, i ≤ f.index ∧ f.index + 2 ≤ i + (ibWords e cs).length ∧
      (f.kind = .register ↔ major.ge11 = true) := by
  induction cs generalizing i with
  | nil => exact fun f hf => absurd hf List.not_mem_nil
  | cons c cs ih =>
      intro f hf
      have hc := dwords_eq e c
      rw [ibWords_cons, List.length_append]
      rw [ibFields] at hf
      cases List.mem_append.mp hf with
      | inl hhead =>
          obtain ⟨hle, hend, hkind⟩ := scratchFields_bounds f hhead
          exact ⟨hle, by omega, hkind⟩
      | inr htail =>
          obtain ⟨hle, hend, hkind⟩ := ih f htail
          exact ⟨by omega, by omega, hkind⟩

theorem spaced_ibFields (e : DwordEnv) (cs : List Pm4) (i : Nat) :
    Spaced ((ibFields major i cs).map ScratchField.index) := by
  induction cs generalizing i with
  | nil => exact List.Pairwise.nil
  | cons c cs ih =>
      rw [ibFields, List.map_append]
      refine Lib.spaced_append (spaced_scratchFields c i) (ih _) fun j hj j' hj' => ?_
      obtain ⟨f, hf, rfl⟩ := List.mem_map.mp hj
      obtain ⟨f', hf', rfl⟩ := List.mem_map.mp hj'
      exact Nat.le_trans (scratchFields_bounds f hf).2.1 (ibFields_bounds (e := e) f' hf').1

theorem ibFields_flat (hscratch : ∀ c ∈ cs, ∀ s ∈ c.scratch, s.addr < 2 ^ 48) :
    ∀ f ∈ ibFields major i cs, f.kind = .flat →
      ∃ hi, (ibWords e cs)[f.index + 1 - i]? = some hi ∧ hi.toNat < 2 ^ 16 := by
  induction cs generalizing i with
  | nil => exact fun f hf => absurd hf List.not_mem_nil
  | cons c cs ih =>
      intro f hf hkind
      have hc := dwords_eq e c
      rw [ibWords_cons]
      rw [ibFields] at hf
      cases List.mem_append.mp hf with
      | inl hhead =>
          obtain ⟨hle, hend, _⟩ := scratchFields_bounds f hhead
          rw [List.getElem?_append_left (by omega)]
          exact scratchFields_flat (hscratch c (List.mem_cons_self ..)) f hhead hkind
      | inr htail =>
          have hle := (ibFields_bounds (e := e) f htail).1
          obtain ⟨hi, hget, hlt⟩ :=
            ih (fun c' hc' => hscratch c' (List.mem_cons_of_mem _ hc')) f htail hkind
          refine ⟨hi, ?_, hlt⟩
          rw [List.getElem?_append_right (by omega), ← hget]
          congr 1
          omega

theorem ibFields_append :
    ibFields major i (cs ++ cs') =
      ibFields major i cs ++ ibFields major (i + bytes cs / 4) cs' := by
  induction cs generalizing i with
  | nil => rfl
  | cons c cs ih =>
      rw [List.cons_append, ibFields, ibFields, ih, List.append_assoc, bytes_cons, size_eq,
        Nat.mul_add_div (by decide), Nat.add_assoc]

/-- A command without a field in the sense of the commands has none in its dwords. -/
theorem userFields_eq_nil {ds : List UserData} (h : ∀ u ∈ ds, ∀ o, u.field o = none) :
    userFields i ds = [] := by
  fun_induction userFields with
  | case1 i b b' n w ds ih => cases h _ (List.mem_cons_self ..) 0
  | case2 i b b' ds _ ih => cases h _ (List.mem_cons_self ..) 0
  | case3 i u ds _ _ ih => exact ih fun u' hu' => h u' (List.mem_cons_of_mem _ hu')
  | case4 => rfl

theorem bytes_eq (cs : List Pm4) : bytes cs = 4 * (bytes cs / 4) := by
  induction cs with
  | nil => rfl
  | cons c cs ih =>
      rw [bytes_cons, size_eq]
      omega

theorem scratchFields_of_fieldless (h : c.Fieldless) : c.scratchFields major i = [] := by
  cases c with
  | setScratch b => exact absurd ⟨rfl, rfl⟩ (h 0 scratchLoOffset b)
  | dispatch d =>
      rw [scratchFields]
      split
      next => rfl
      next =>
        refine userFields_eq_nil fun u hu o => ?_
        obtain ⟨j, hj⟩ := List.getElem?_of_mem hu
        have hnone := fun o' v hv => h 0 o' v ⟨j, u, hj, hv⟩
        cases u with
        | scratchLo b => exact absurd rfl (hnone _ b)
        | scratchHi b => exact absurd rfl (hnone _ b)
        | _ => rfl
  | _ => rfl

theorem ibFields_of_fieldless (h : ∀ c ∈ cs, c.Fieldless) : ibFields major i cs = [] := by
  induction cs generalizing i with
  | nil => rfl
  | cons c cs ih =>
      rw [ibFields, scratchFields_of_fieldless (h c (List.mem_cons_self ..)),
        ih fun c' hc' => h c' (List.mem_cons_of_mem _ hc')]
      rfl

theorem scratch_of_fieldless (h : c.Fieldless) (s : Scratch) : s ∉ c.scratch := by
  intro hs
  obtain ⟨o, ho⟩ := hasField_of_scratch 0 hs
  exact h 0 o _ ho

/-- Dwords without a field before others. -/
theorem userFields_append {ds ds' : List UserData} (h : ∀ u ∈ ds, ∀ o, u.field o = none) :
    userFields i (ds ++ ds') = userFields (i + ds.length) ds' := by
  induction ds generalizing i with
  | nil => rfl
  | cons u ds ih =>
      have hu := h u (List.mem_cons_self ..) 0
      have hrest := ih (i := i + 1) fun u' hu' => h u' (List.mem_cons_of_mem _ hu')
      have hlen : i + (u :: ds).length = i + 1 + ds.length := by
        rw [List.length_cons]
        omega
      rw [hlen, ← hrest, List.cons_append]
      cases u with
      | scratchLo b => cases hu
      | scratchHi b => cases hu
      | _ => rw [userFields] <;> nofun

end Pm4

end RocDxg
