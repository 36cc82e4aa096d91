import RocDxg.Memory.Guarantees

/-!
# Where fragments begin

`hsaKmtAllocMemoryAlign` rounds what it asks of the sub-allocator to whole pages, and blocks
begin at multiples of 2 MiB.  So every fragment begins at a page (`SubAllocated.paged_of_reach`).
-/

namespace RocDxg

open Lib (OrdMap MultiMap Node Reach)

namespace SimpleHeap

/-- Every fragment of a block begins at a page. -/
def PagedBlock (frags : OrdMap HeapFragment) : Prop :=
  ∀ a f, frags.find? a = some f → defaultGpuPageSize ∣ a

/-- Every fragment begins at a page. -/
def Paged (h : SimpleHeap) : Prop := ∀ b frags, h.blockList.find? b = some frags → PagedBlock frags

variable {h h' : SimpleHeap} {frags : OrdMap HeapFragment}

/-! ## One block -/

theorem pagedBlock_empty : PagedBlock .empty := nofun

theorem PagedBlock.insert (H : PagedBlock frags) {a : Nat} (ha : defaultGpuPageSize ∣ a)
    (f : HeapFragment) : PagedBlock (frags.insert a f) := by
  intro a' f' hf
  rw [OrdMap.find?_insert] at hf
  split at hf
  next heq => rwa [heq]
  next => exact H a' f' hf

theorem PagedBlock.erase (H : PagedBlock frags) (a : Nat) : PagedBlock (frags.erase a) := by
  intro a' f' hf
  rw [OrdMap.find?_erase] at hf
  split at hf
  next => cases hf
  next => exact H a' f' hf

theorem PagedBlock.takeBase (H : PagedBlock frags) {fl : MultiMap} {bytes : Nat} {n : Node}
    {frag : HeapFragment} (hn : defaultGpuPageSize ∣ n.val) (hbytes : defaultGpuPageSize ∣ bytes) :
    PagedBlock (takeBase fl frags bytes n frag).2 := by
  have hcut := H.insert hn (frag.setSize bytes).setUsed
  rw [SimpleHeap.takeBase]
  split
  next => exact hcut.insert (Nat.dvd_add hn hbytes) _
  next => exact hcut

theorem PagedBlock.takeAligned (H : PagedBlock frags) {fl : MultiMap} {bytes p : Nat} {n : Node}
    (hn : defaultGpuPageSize ∣ n.val) (hp : defaultGpuPageSize ∣ p)
    (hbytes : defaultGpuPageSize ∣ bytes) : PagedBlock (takeAligned fl frags bytes p n).2 := by
  have hcut := (H.insert hn (.makeFree (fl.erase n.id).next (p - n.val))).insert hp (.makeUsed bytes)
  rw [SimpleHeap.takeAligned]
  split
  next => exact hcut.insert (Nat.dvd_add hp hbytes) _
  next => exact hcut

theorem PagedBlock.blockFragments (H : PagedBlock frags) {fl : MultiMap} {base size bytes : Nat}
    (hbase : defaultGpuPageSize ∣ base) (hbytes : defaultGpuPageSize ∣ bytes) :
    PagedBlock (blockFragments fl frags base size bytes).2 := by
  rw [SimpleHeap.blockFragments]
  split
  next => exact (H.insert (Nat.dvd_add hbase hbytes) _).insert hbase _
  next => exact H.insert hbase _

theorem PagedBlock.mergeLower (H : PagedBlock frags) (fl : MultiMap) {addr : Nat}
    (frag : HeapFragment) (haddr : defaultGpuPageSize ∣ addr) :
    PagedBlock (mergeLower fl frags addr frag).frags ∧
      defaultGpuPageSize ∣ (mergeLower fl frags addr frag).key := by
  rw [SimpleHeap.mergeLower]
  cases hprev : frags.prev? addr with
  | none => exact ⟨H, haddr⟩
  | some e =>
      obtain ⟨key, lower⟩ := e
      have hkey := H key lower (OrdMap.mem_of_prev? hprev).1
      simp only
      split
      next => exact ⟨(H.erase addr).insert hkey _, hkey⟩
      next => exact ⟨H, haddr⟩

theorem PagedBlock.mergeUpper {g : Merge} (H : PagedBlock g.frags)
    (hkey : defaultGpuPageSize ∣ g.key) :
    PagedBlock (mergeUpper g).frags ∧ defaultGpuPageSize ∣ (mergeUpper g).key := by
  rw [SimpleHeap.mergeUpper]
  cases hnext : g.frags.next? g.key with
  | none => exact ⟨H, hkey⟩
  | some e =>
      obtain ⟨key, upper⟩ := e
      simp only
      split
      next => exact ⟨(H.erase key).insert hkey _, hkey⟩
      next => exact ⟨H, hkey⟩

/-! ## The heap -/

theorem mem_of_lookup {addr b : Nat} {f : HeapFragment}
    (hl : h.lookup addr = some (b, frags, f)) :
    h.blockList.find? b = some frags ∧ frags.find? addr = some f := by
  rw [lookup] at hl
  split at hl
  next => cases hl
  next b' frags' hfloor =>
    obtain ⟨f', hf, heq⟩ := Option.map_eq_some_iff.mp hl
    cases heq
    exact ⟨OrdMap.find?_eq_some.mpr (OrdMap.floor?_mem hfloor).1, hf⟩

theorem Paged.of_blockList (H : Paged h) (heq : h'.blockList = h.blockList) : Paged h' := by
  intro b frags hb
  rw [heq] at hb
  exact H b frags hb

theorem Paged.withBlock (H : Paged h) {b : Nat} {r : MultiMap × OrdMap HeapFragment}
    (hr : PagedBlock r.2) : Paged (h.withBlock b r) := by
  intro b' frags hb
  replace hb : (h.blockList.insert b r.2).find? b' = some frags := hb
  rw [OrdMap.find?_insert] at hb
  split at hb
  next =>
    cases hb
    exact hr
  next => exact H b' frags hb

theorem Paged.eraseBlock (H : Paged h) {b : Nat} (heq : h'.blockList = h.blockList.erase b) :
    Paged h' := by
  intro b' frags hb
  rw [heq, OrdMap.find?_erase] at hb
  split at hb
  next => cases hb
  next => exact H b' frags hb

theorem Paged.choose (H : Paged h) (S : Sound h) {bytes : Nat} {c : Nat × SimpleHeap}
    (hc : Chooses h bytes c) (hbytes : defaultGpuPageSize ∣ bytes) (hp : defaultGpuPageSize ∣ c.1) :
    Paged c.2 := by
  cases hc with
  | base hl hle =>
      obtain ⟨hb, _⟩ := S.lookup_eq_some.mp hl
      exact H.withBlock ((H _ _ hb).takeBase hp hbytes)
  | aligned hl hlt hle =>
      obtain ⟨hb, hf⟩ := S.lookup_eq_some.mp hl
      exact H.withBlock ((H _ _ hb).takeAligned (H _ _ hb _ _ hf) hp hbytes)

theorem Paged.allocBlock (H : Paged h) {σ : Type u} {A : BlockAllocator σ} {s s' : σ}
    {base size bytes p : Nat} (hle : bytes ≤ A.blockSize) (hbase : defaultGpuPageSize ∣ base)
    (hbytes : defaultGpuPageSize ∣ bytes)
    (halloc : SimpleHeap.allocBlock A h s base size bytes = some (p, h', s')) : Paged h' := by
  have hold : PagedBlock ((h.blockList.find? base).getD .empty) := by
    cases hb : h.blockList.find? base with
    | none => exact pagedBlock_empty
    | some frags => exact H base frags hb
  rw [SimpleHeap.allocBlock] at halloc
  split at halloc
  next => cases halloc
  next =>
    simp only [if_neg (Nat.not_lt.mpr hle)] at halloc
    cases halloc
    exact Paged.withBlock (h := { h with inUseSize := u64 (h.inUseSize + size) }) H
      (hold.blockFragments hbase hbytes)

theorem Paged.free (H : Paged h) {σ : Type u} (A : BlockAllocator σ) (s : σ) (addr : Nat) :
    Paged (SimpleHeap.free A h s addr).2.1 := by
  rw [SimpleHeap.free]
  split
  next => exact H
  next =>
    cases hl : h.lookup addr with
    | none => exact H
    | some r =>
        obtain ⟨b, frags, frag⟩ := r
        obtain ⟨hb, hf⟩ := mem_of_lookup hl
        have hblock := H b frags hb
        obtain ⟨hlower, hkey⟩ := hblock.mergeLower h.freeList frag (hblock addr frag hf)
        obtain ⟨hupper, hkey'⟩ := hlower.mergeUpper hkey
        simp only
        split
        next => exact H
        next =>
          rw [release]
          split
          next =>
            split
            next => exact H.eraseBlock rfl
            next => exact H.eraseBlock rfl
          next =>
            split
            next => exact H.withBlock hupper
            next => exact H.withBlock (hupper.insert hkey' _)

/-- `alloc` of whole pages, from blocks that begin at multiples of 2 MiB. -/
theorem Paged.alloc (H : Paged h) (S : Sound h) {σ : Type u} {A : BlockAllocator σ} {s s' : σ}
    {bytes p : Nat} (hpos : 0 < bytes) (hle : bytes ≤ A.blockSize)
    (hbytes : defaultGpuPageSize ∣ bytes)
    (hcache : ∀ x ∈ h.blockCache, defaultGpuPageSize ∣ x.base)
    (hnew : ∀ base size, (A.alloc s bytes).1 = some (base, size) → defaultGpuPageSize ∣ base)
    (halloc : SimpleHeap.alloc A h s bytes = some (p, h', s')) : Paged h' := by
  rcases alloc_cases halloc with
    ⟨hfrag, _⟩ | ⟨_, ⟨x, hlast, _, hblock⟩ | ⟨_, _, _, rfl, _⟩ | ⟨base, size, hblock, hadds⟩⟩
  · obtain ⟨r, hr, hchoice⟩ := S.listed.allocFragment_chooses hpos
    rw [hfrag] at hr
    cases hr
    exact H.choose S (hchoice _ rfl) hbytes
      (Nat.dvd_trans (page_dvd_granule bytes) (allocFragment_aligned hfrag))
  · have H' : Paged { h with
        blockCache := h.blockCache.dropLast, cacheSize := sub64 h.cacheSize x.length } :=
      H.of_blockList rfl
    exact H'.allocBlock hle (hcache x (List.mem_of_getLast? hlast)) hbytes hblock
  · exact H
  · exact H.allocBlock hle (hnew base size hblock) hbytes hadds

end SimpleHeap

/-! ## The calls -/

namespace Memory

open SimpleHeap (Paged Aligned)

variable {sp : AddressSpace} {cfg : Config} {m m' : Memory}

theorem page_dvd_huge : defaultGpuPageSize ∣ gpuHugePageSize := ⟨2 ^ 9, rfl⟩

/-- What the sub-allocator is asked for is whole pages. -/
theorem page_dvd_realSize (hpage : defaultGpuPageSize ∣ cfg.pageSize) (size : Nat) :
    defaultGpuPageSize ∣ realSize cfg size := by
  have hword : defaultGpuPageSize ∣ 2 ^ 64 := ⟨2 ^ 52, rfl⟩
  have hround : ∀ granule, defaultGpuPageSize ∣ granule →
      defaultGpuPageSize ∣ alignUp 64 size granule := by
    intro granule hgranule
    rw [alignUp, alignDown, Nat.dvd_mod_iff hword]
    exact Nat.dvd_mul_left_of_dvd hgranule _
  rw [realSize]
  split
  next => exact hround _ page_dvd_huge
  next => exact hround _ hpage

theorem Backed.subAlloc_paged (B : Backed sp cfg m) (hal : Aligned m.heap) (H : Paged m.heap)
    (hpage : defaultGpuPageSize ∣ cfg.pageSize) {size p : Nat} {ans : AllocAnswers}
    (hpos : realSize cfg size < subAllocatorBlockSize → 0 < realSize cfg size)
    (hsub : m.subAlloc cfg size ans = .ok (p, m')) : Paged m'.heap := by
  rw [subAlloc] at hsub
  split at hsub
  next hlt =>
    split at hsub
    next => cases hsub
    next => cases hsub
    next p' h' c halloc =>
      cases hsub
      have hle := Nat.le_of_lt hlt
      refine H.alloc B.heap (hpos hlt) hle (page_dvd_realSize hpage size) ?_ ?_ halloc
      · intro x hx
        exact Nat.dvd_trans page_dvd_huge (hal x.base x.length (Or.inr hx))
      · intro base n hnew
        exact Nat.dvd_trans page_dvd_huge
          (Core.newBlock_aligned (hpos hlt) hle (Prod.ext hnew rfl))
  next =>
    cases hsub
    exact H

theorem trim_blockList (htrim : m.trim cfg = .ok m') : m'.heap.blockList = m.heap.blockList := by
  obtain ⟨core, _, rfl⟩ := ok_of_map htrim
  rfl

theorem createOrTrim_blockList {dev : SharedDevice} {info : GpuMemoryCreateInfo}
    {ans : AllocAnswers} {r : Status × Nat × Memory} (hrun : m.createOrTrim cfg dev info ans = .ok r) :
    r.2.2.heap.blockList = m.heap.blockList := by
  rw [createOrTrim] at hrun
  obtain ⟨⟨code, addr, c⟩, _, hrun⟩ := ok_of_bind hrun
  simp only at hrun
  split at hrun
  next =>
    cases hrun
    rfl
  next =>
    obtain ⟨m₁, htrim, hrun⟩ := ok_of_bind hrun
    obtain ⟨⟨code', addr', c'⟩, _, hrun⟩ := ok_of_bind hrun
    have hkeep := trim_blockList htrim
    simp only at hrun
    split at hrun
    next =>
      cases hrun
      exact hkeep
    next =>
      cases hrun
      exact hkeep

theorem Backed.allocMemoryAlign_paged (B : Backed sp cfg m) (hal : Aligned m.heap)
    (H : Paged m.heap) (hpage : defaultGpuPageSize ∣ cfg.pageSize) {args : AllocArgs}
    {ans : AllocAnswers} (hreg : AllocRegular cfg m args ans) {r : Status × Nat × Memory}
    (hrun : m.allocMemoryAlign cfg args ans = .ok r) : Paged r.2.2.heap := by
  rw [allocMemoryAlign] at hrun
  split at hrun
  next =>
    cases hrun
    exact H
  next =>
    cases hinfo : allocInfo cfg args ans.ram with
    | error status =>
        rw [hinfo] at hrun
        cases hrun
        exact H
    | ok i =>
        obtain ⟨dev, info, vmm⟩ := i
        rw [hinfo] at hrun
        simp only at hrun
        split at hrun
        next hsub =>
          have hreg' := hreg (dev, info, vmm) (by rw [hinfo]; rfl)
          rw [if_pos (by simpa [subAllocates, and_assoc] using hsub)] at hreg'
          obtain ⟨⟨p, m₁⟩, hserved, hrun⟩ := ok_of_bind hrun
          rw [allocInfo_size hinfo] at hserved
          have H₁ := B.subAlloc_paged hal H hpage hreg'.1 hserved
          simp only at hrun
          split at hrun
          next =>
            cases hrun
            exact H₁
          next => exact H₁.of_blockList (createOrTrim_blockList hrun)
        next =>
          obtain ⟨⟨code, addr, c⟩, _, hrun⟩ := ok_of_bind hrun
          simp only at hrun
          split at hrun
          next =>
            cases hrun
            exact H
          next =>
            cases hrun
            exact H

theorem freeMemory_paged (H : Paged m.heap) {p : Nat} {r : Status × Memory}
    (hrun : m.freeMemory cfg p = .ok r) : Paged r.2.heap := by
  have hfree := H.free (blockAllocator cfg true {}) (.ok m.core) p
  rw [freeMemory] at hrun
  split at hrun
  next =>
    cases hrun
    exact H
  next =>
    split at hrun
    next =>
      cases hrun
      exact H
    next =>
      split at hrun
      next => cases hrun
      next heap core heq =>
        cases hrun
        rw [heq] at hfree
        exact hfree
      next heap core heq =>
        rw [heq] at hfree
        obtain ⟨r', _, rfl⟩ := ok_of_map hrun
        exact hfree

end Memory

namespace SubAllocated

open SimpleHeap (Paged)

variable {sp : AddressSpace} {cfg : Config} {m m' : Memory}

theorem step_paged (I : Inv sp cfg m) (H : Paged m.heap) (hpage : defaultGpuPageSize ∣ cfg.pageSize)
    {e : Call} (hreg : Regular cfg m e) (h : step cfg m e = some m') : Paged m'.heap := by
  cases e with
  | allocMemoryAlign args ans =>
      obtain ⟨r, hr, rfl⟩ := Option.map_eq_some_iff.mp h
      exact I.backed.allocMemoryAlign_paged I.aligned H hpage hreg.2 (eq_ok_of_toOption hr)
  | freeMemory p =>
      obtain ⟨r, hr, rfl⟩ := Option.map_eq_some_iff.mp h
      exact Memory.freeMemory_paged H (eq_ok_of_toOption hr)

/-- In every run of regular calls the fragments begin at pages. -/
theorem paged_of_reach (hpage : defaultGpuPageSize ∣ cfg.pageSize) {pid : Nat}
    (h : Reach (step cfg) (Regular cfg) (.new sp pid) m) : Inv sp cfg m ∧ Paged m.heap := by
  refine h.invariant (I := fun m => Inv sp cfg m ∧ Paged m.heap) ⟨inv_new sp cfg pid, nofun⟩ ?_
  rintro m e m' ⟨I, H⟩ hok hstep
  exact ⟨step_inv I hok hstep, step_paged I H hpage hok hstep⟩

end SubAllocated

end RocDxg
