import Mathlib.Data.List.GetD
import RocDxg.Lib.Chain
import RocDxg.Topology.Nodes

/-!
# Indirect links

`topology_create_indirect_gpu_links` of `topology.cpp` connects a GPU with the nodes that it
reaches through a processor.  For each pair of nodes it looks for a route of direct links and
adds a link with the weight of the route.  It adds the links to the table that it looks the
routes up in.

The links of a node are the first `NumIOLinks` of its vector.  An added link stands behind the
direct ones, and no lookup of a route ever comes to one: a lookup that finds no direct link is
for a pair that has no route (`lookup_extends`).  So the links are those of the original table
(`indirect_links_in_place`).

An index outside of a table reads the zeroed entry; the tables that the theorems are about have
no such index.
-/

namespace RocDxg

open Lib (Chain)

/-! ## Tables -/

/-- An entry of the table. -/
def nodeAt (t : List NodeProps) (i : Nat) : NodeProps := t.getD i {}

/-- `KFDGpuID` of a node, zero for a processor. -/
def gpuIdAt (t : List NodeProps) (i : Nat) : Nat := (nodeAt t i).node.kfdGpuID

/-- The links of a node. -/
def linksAt (t : List NodeProps) (i : Nat) : List HsaIoLinkProperties :=
  (nodeAt t i).link.take (nodeAt t i).node.numIOLinks

/-- The value of a 32-bit word as an `int32_t`. -/
def toInt32 (n : Nat) : Int := if n < 2 ^ 31 then n else (n : Int) - 2 ^ 32

/-! ## Lookups -/

/-- `gpu_get_direct_link_cpu` -/
def gpuGetDirectLinkCpu (t : List NodeProps) (gpuNode : Nat) : Int :=
  if gpuIdAt t gpuNode = 0 ∨ (nodeAt t gpuNode).link = [] ∨
      (nodeAt t gpuNode).node.numIOLinks = 0 then -1
  else
    match (linksAt t gpuNode).find? fun l => l.ioLinkType = .pciexpress ∧ l.weight ≤ 20 with
    | some l => toInt32 l.nodeTo
    | none => -1

/-- `get_direct_iolink_info`, with the weight and the type that it finds. -/
def getDirectIolinkInfo (t : List NodeProps) (node1 node2 : Nat) :
    Except HsakmtStatus (Nat × HsaIoLinkType) :=
  if (nodeAt t node1).link = [] then .error .invalidNodeUnit
  else
    match (linksAt t node1).find? fun l => l.nodeTo = node2 with
    | some l => .ok (l.weight, l.ioLinkType)
    | none => .error .invalidParameter

/-- The GPU has memory that the host can access. -/
def largeBar (t : List NodeProps) (node : Nat) : Bool :=
  ((nodeAt t node).mem.take (nodeAt t node).node.numMemoryBanks).any
    fun m => m.heapType = .frameBufferPublic

/-- The processor that a node is directly linked to; there is none for a processor. -/
def dirCpu (t : List NodeProps) (node : Nat) : Int :=
  if gpuIdAt t node ≠ 0 then gpuGetDirectLinkCpu t node else -1

/-- The part of `get_indirect_iolink_info` that adds the weights of a route up. -/
def routeInfo (t : List NodeProps) (node1 node2 : Nat) (dirCpu1 dirCpu2 : Int) :
    Except HsakmtStatus (Nat × HsaIoLinkType) :=
  if dirCpu1 ≥ 0 then
    if dirCpu2 ≥ 0 then
      if dirCpu1 = dirCpu2 then do
        let (weight1, _) ← getDirectIolinkInfo t node1 dirCpu1.toNat
        let (weight2, type) ← getDirectIolinkInfo t dirCpu1.toNat node2
        return (u32 (weight1 + weight2), type)
      else do
        let (weight1, _) ← getDirectIolinkInfo t node1 dirCpu1.toNat
        let (weight2, type) ← getDirectIolinkInfo t dirCpu1.toNat dirCpu2.toNat
        if type = .qpi11 ∧ weight2 > 20 then throw .notSupported
        let (weight3, _) ← getDirectIolinkInfo t dirCpu2.toNat node2
        return (u32 (weight1 + weight2 + weight3), type)
    else do
      let (weight1, _) ← getDirectIolinkInfo t node1 dirCpu1.toNat
      let (weight2, type) ← getDirectIolinkInfo t dirCpu1.toNat node2
      return (u32 (weight1 + weight2), type)
  else do
    let (weight2, type) ← getDirectIolinkInfo t node1 dirCpu2.toNat
    let (weight3, _) ← getDirectIolinkInfo t dirCpu2.toNat node2
    return (u32 (weight2 + weight3), type)

/-- `get_indirect_iolink_info`.  The weight stays zero where it fails. -/
def getIndirectIolinkInfo (t : List NodeProps) (node1 node2 : Nat) :
    Except HsakmtStatus (Nat × HsaIoLinkType) :=
  if node1 = node2 then .error .invalidParameter
  else if gpuIdAt t node1 = 0 ∧ gpuIdAt t node2 = 0 then .error .invalidNodeUnit
  else if (nodeAt t node1).node.hiveID ≠ 0 ∧ (nodeAt t node2).node.hiveID ≠ 0 ∧
      (nodeAt t node1).node.hiveID = (nodeAt t node2).node.hiveID then .error .invalidParameter
  else if dirCpu t node1 < 0 ∧ dirCpu t node2 < 0 then .error .error
  else if gpuIdAt t node2 ≠ 0 ∧ largeBar t node2 = false then .error .error
  else routeInfo t node1 node2 (dirCpu t node1) (dirCpu t node2)

/-! ## Adding links -/

/-- `topology_add_io_link_for_node`, where `topology_get_free_io_link_slot_for_node` finds the
slot. -/
def topologyAddIoLinkForNode (numNodes : Nat) (t : List NodeProps) (nodeFrom : Nat)
    (type : HsaIoLinkType) (nodeTo weight : Nat) : HsakmtStatus × List NodeProps :=
  let np := nodeAt t nodeFrom
  let slot := np.node.numIOLinks
  if nodeFrom ≥ numNodes ∨ np.link = [] ∨ slot ≥ numNodes - 1 then (.noMemory, t)
  else
    (.success,
      t.set nodeFrom
        { np with
          node := { np.node with numIOLinks := slot + 1 }
          link := np.link.modify slot fun l =>
            { l with ioLinkType := type, nodeFrom := nodeFrom, nodeTo := nodeTo, weight := weight } })

/-- The link from `i` to `j` is added if the lookup has found a weight. -/
def addIndirect (numNodes i j : Nat) (found : Except HsakmtStatus (Nat × HsaIoLinkType))
    (t : List NodeProps) : List NodeProps :=
  match found with
  | .ok (weight, type) =>
      if weight = 0 then t else (topologyAddIoLinkForNode numNodes t i type j weight).2
  | .error _ => t

/-- The pairs of nodes in the order of the two loops, each in both directions. -/
def nodePairs (numNodes : Nat) : List (Nat × Nat) :=
  (List.range (numNodes - 1)).flatMap fun i =>
    (List.range' (i + 1) (numNodes - (i + 1))).flatMap fun j => [(i, j), (j, i)]

/-- `topology_create_indirect_gpu_links` -/
def topologyCreateIndirectGpuLinks (numNodes : Nat) (t : List NodeProps) : List NodeProps :=
  (nodePairs numNodes).foldl
    (fun t p => addIndirect numNodes p.1 p.2 (getIndirectIolinkInfo t p.1 p.2) t) t

/-- The links of the routes of another table, which stays as it is. -/
def addLinksOf (original : List NodeProps) (numNodes : Nat) (t : List NodeProps) :
    List NodeProps :=
  (nodePairs numNodes).foldl
    (fun t p => addIndirect numNodes p.1 p.2 (getIndirectIolinkInfo original p.1 p.2) t) t

/-- A table whose links are as the driver gives them. -/
structure DirectTable (numNodes : Nat) (t : List NodeProps) : Prop where
  pos : 1 ≤ numNodes
  numNodes_lt : numNodes < 2 ^ 32
  length : t.length = numNodes
  link_length : ∀ i < numNodes, (nodeAt t i).link.length = numNodes - 1
  numIOLinks_le : ∀ i < numNodes, (nodeAt t i).node.numIOLinks ≤ numNodes - 1
  banks : ∀ i < numNodes, (nodeAt t i).node.numMemoryBanks ≤ (nodeAt t i).mem.length
  no_self : ∀ i < numNodes, ∀ l ∈ linksAt t i, l.nodeTo ≠ i
  weight_lt : ∀ i < numNodes, ∀ l ∈ linksAt t i, l.weight < 2 ^ 30
  /-- The near links of a GPU lead to processors. -/
  to_cpu : ∀ i < numNodes, gpuIdAt t i ≠ 0 → ∀ l ∈ linksAt t i, l.ioLinkType = .pciexpress →
    l.weight ≤ 20 → l.nodeTo < numNodes ∧ gpuIdAt t l.nodeTo = 0

/-! ## Where there is no route -/

variable {numNodes : Nat} {t₀ t : List NodeProps}

theorem nodeAt_of_ge {i : Nat} (h : t.length ≤ i) : nodeAt t i = {} :=
  List.getD_eq_default t {} h

/-- A GPU is a node of the table. -/
theorem DirectTable.lt_of_gpu (D : DirectTable numNodes t) {i : Nat} (h : gpuIdAt t i ≠ 0) :
    i < numNodes := by
  refine Nat.lt_of_not_le fun hge => h ?_
  rw [gpuIdAt, nodeAt_of_ge (D.length.trans_le hge)]

theorem dirCpu_cpu {i : Nat} (h : gpuIdAt t i = 0) : dirCpu t i < 0 := by
  rw [dirCpu, if_neg (not_not.mpr h)]
  decide

/-- A direct link to a processor is one of the links of a GPU. -/
theorem DirectTable.dirCpu_link (D : DirectTable numNodes t) {i : Nat} (h : 0 ≤ dirCpu t i) :
    ∃ l ∈ linksAt t i, dirCpu t i = (l.nodeTo : Int) ∧ i < numNodes ∧ gpuIdAt t i ≠ 0 ∧
      l.nodeTo < numNodes ∧ gpuIdAt t l.nodeTo = 0 := by
  have hgpu : gpuIdAt t i ≠ 0 := fun hz => absurd h (Int.not_le.mpr (dirCpu_cpu hz))
  have hi := D.lt_of_gpu hgpu
  rw [dirCpu, if_pos hgpu, gpuGetDirectLinkCpu] at h ⊢
  split at h
  next => exact absurd h (by decide)
  next hsome =>
    rw [if_neg hsome]
    cases hfind : (linksAt t i).find? fun l => l.ioLinkType = .pciexpress ∧ l.weight ≤ 20 with
    | none =>
        rw [hfind] at h
        exact absurd h (by decide)
    | some l =>
        rw [hfind] at h
        simp only [toInt32] at h ⊢
        have hl := List.mem_of_find?_eq_some hfind
        have hnear := List.find?_some hfind
        simp only [decide_eq_true_eq] at hnear
        obtain ⟨hto, hcpu⟩ := D.to_cpu i hi hgpu l hl hnear.1 hnear.2
        have hlt := D.numNodes_lt
        refine ⟨l, hl, ?_, hi, hgpu, hto, hcpu⟩
        split at h
        next hsmall => rw [if_pos hsmall]
        next => omega

/-- No node has a link to itself. -/
theorem DirectTable.direct_self (D : DirectTable numNodes t) (i : Nat)
    (r : Nat × HsaIoLinkType) : getDirectIolinkInfo t i i ≠ .ok r := by
  intro h
  rw [getDirectIolinkInfo] at h
  split at h
  next => cases h
  next hlink =>
    have hi : i < numNodes := by
      refine Nat.lt_of_not_le fun hge => hlink ?_
      rw [nodeAt_of_ge (D.length.trans_le hge)]
    cases hfind : (linksAt t i).find? fun l => l.nodeTo = i with
    | none =>
        rw [hfind] at h
        cases h
    | some l =>
        have hto := List.find?_some hfind
        simp only [decide_eq_true_eq] at hto
        exact D.no_self i hi l (List.mem_of_find?_eq_some hfind) hto

/-- What a lookup that finds a route has passed. -/
theorem indirect_ok {i j : Nat} {r : Nat × HsaIoLinkType}
    (h : getIndirectIolinkInfo t i j = .ok r) :
    i ≠ j ∧ ¬ (gpuIdAt t i = 0 ∧ gpuIdAt t j = 0) ∧ ¬ (dirCpu t i < 0 ∧ dirCpu t j < 0) ∧
      routeInfo t i j (dirCpu t i) (dirCpu t j) = .ok r := by
  rw [getIndirectIolinkInfo] at h
  split at h
  · cases h
  next hne =>
    split at h
    · cases h
    next hcpu =>
      split at h
      · cases h
      · split at h
        · cases h
        next hdir =>
          split at h
          · cases h
          · exact ⟨hne, hcpu, hdir, h⟩

/-- Two processors have no route. -/
theorem no_route_cpus {i j : Nat} (hi : gpuIdAt t i = 0) (hj : gpuIdAt t j = 0)
    (r : Nat × HsaIoLinkType) : getIndirectIolinkInfo t i j ≠ .ok r :=
  fun h => (indirect_ok h).2.1 ⟨hi, hj⟩

/-- Two nodes without a direct link to a processor have no route. -/
theorem no_route_undirected {i j : Nat} (hi : dirCpu t i < 0) (hj : dirCpu t j < 0)
    (r : Nat × HsaIoLinkType) : getIndirectIolinkInfo t i j ≠ .ok r :=
  fun h => (indirect_ok h).2.2.1 ⟨hi, hj⟩

/-- The processor of a GPU has no route to it. -/
theorem DirectTable.no_route_own (D : DirectTable numNodes t) {i j : Nat} (hi : gpuIdAt t i = 0)
    (hj : dirCpu t j = (i : Int)) (r : Nat × HsaIoLinkType) :
    getIndirectIolinkInfo t i j ≠ .ok r := by
  intro h
  have hroute := (indirect_ok h).2.2.2
  rw [routeInfo, if_neg (Int.not_le.mpr (dirCpu_cpu hi)), hj, Int.toNat_natCast] at hroute
  cases hself : getDirectIolinkInfo t i i with
  | error e =>
      rw [hself] at hroute
      cases hroute
  | ok r' => exact D.direct_self i r' hself

/-! ## A table with added links -/

/-- A link that is added for a route of a table. -/
structure AddedLink (t₀ : List NodeProps) (i : Nat) (l : HsaIoLinkProperties) : Prop where
  nodeFrom : l.nodeFrom = i
  found : getIndirectIolinkInfo t₀ i l.nodeTo = .ok (l.weight, l.ioLinkType)

/-- The second table is the first one with links added behind those of each node. -/
structure Extends (numNodes : Nat) (t₀ t : List NodeProps) : Prop where
  length : t.length = t₀.length
  gpuId : ∀ i, gpuIdAt t i = gpuIdAt t₀ i
  hiveID : ∀ i, (nodeAt t i).node.hiveID = (nodeAt t₀ i).node.hiveID
  largeBar : ∀ i, largeBar t i = largeBar t₀ i
  link_length : ∀ i, (nodeAt t i).link.length = (nodeAt t₀ i).link.length
  numIOLinks_le : ∀ i < numNodes, (nodeAt t i).node.numIOLinks ≤ numNodes - 1
  links : ∀ i, ∃ added, linksAt t i = linksAt t₀ i ++ added ∧ ∀ l ∈ added, AddedLink t₀ i l

theorem Extends.refl (D : DirectTable numNodes t) : Extends numNodes t t where
  length := rfl
  gpuId _ := rfl
  hiveID _ := rfl
  largeBar _ := rfl
  link_length _ := rfl
  numIOLinks_le := D.numIOLinks_le
  links _ := ⟨[], (List.append_nil _).symm, fun _ h => absurd h List.not_mem_nil⟩

theorem Extends.link_nil (E : Extends numNodes t₀ t) (i : Nat) :
    (nodeAt t i).link = [] ↔ (nodeAt t₀ i).link = [] := by
  rw [← List.length_eq_zero_iff, ← List.length_eq_zero_iff, E.link_length]

/-- A lookup behind which nothing was added, or that has found a link, stays as it was. -/
theorem Extends.direct (E : Extends numNodes t₀ t) {a b : Nat}
    (h : (∃ l ∈ linksAt t₀ a, l.nodeTo = b) ∨ ∀ r, getIndirectIolinkInfo t₀ a b ≠ .ok r) :
    getDirectIolinkInfo t a b = getDirectIolinkInfo t₀ a b := by
  obtain ⟨added, hlinks, hadded⟩ := E.links a
  have hfind : (linksAt t a).find? (fun l => l.nodeTo = b) =
      (linksAt t₀ a).find? fun l => l.nodeTo = b := by
    rw [hlinks, List.find?_append]
    cases horig : (linksAt t₀ a).find? fun l => l.nodeTo = b with
    | some l => rfl
    | none =>
        rw [List.find?_eq_none] at horig
        rw [Option.none_or, List.find?_eq_none]
        intro l hl
        cases h with
        | inl hsome =>
            obtain ⟨l', hl', hto⟩ := hsome
            exact absurd (decide_eq_true hto) (horig l' hl')
        | inr hnone =>
            intro hto
            simp only [decide_eq_true_eq] at hto
            have hfound := (hadded l hl).found
            rw [hto] at hfound
            exact hnone _ hfound
  simp only [getDirectIolinkInfo, E.link_nil, hfind]

/-! ## Routes -/

theorem except_bind_ok {α β : Type} {x : Except HsakmtStatus α} {f : α → Except HsakmtStatus β}
    {b : β} (h : x >>= f = .ok b) : ∃ a, x = .ok a ∧ f a = .ok b := by
  cases x with
  | error e => cases h
  | ok a => exact ⟨a, rfl, h⟩

/-- The lookups of a route that is found. -/
inductive RouteResult (t : List NodeProps) (i j : Nat) (c₁ c₂ : Int) :
    Nat × HsaIoLinkType → Prop where
  /-- Through the processor of the first node. -/
  | first {w₁ w₂ : Nat} {ty₁ ty : HsaIoLinkType} : 0 ≤ c₁ → (c₁ = c₂ ∨ c₂ < 0) →
      getDirectIolinkInfo t i c₁.toNat = .ok (w₁, ty₁) →
      getDirectIolinkInfo t c₁.toNat j = .ok (w₂, ty) →
      RouteResult t i j c₁ c₂ (u32 (w₁ + w₂), ty)
  /-- Through the processors of both nodes. -/
  | both {w₁ w₂ w₃ : Nat} {ty₁ ty ty₃ : HsaIoLinkType} : 0 ≤ c₁ → 0 ≤ c₂ →
      getDirectIolinkInfo t i c₁.toNat = .ok (w₁, ty₁) →
      getDirectIolinkInfo t c₁.toNat c₂.toNat = .ok (w₂, ty) →
      getDirectIolinkInfo t c₂.toNat j = .ok (w₃, ty₃) →
      RouteResult t i j c₁ c₂ (u32 (w₁ + w₂ + w₃), ty)
  /-- Through the processor of the second node. -/
  | second {w₂ w₃ : Nat} {ty ty₃ : HsaIoLinkType} : c₁ < 0 →
      getDirectIolinkInfo t i c₂.toNat = .ok (w₂, ty) →
      getDirectIolinkInfo t c₂.toNat j = .ok (w₃, ty₃) →
      RouteResult t i j c₁ c₂ (u32 (w₂ + w₃), ty)

theorem routeInfo_result {i j : Nat} {c₁ c₂ : Int} {r : Nat × HsaIoLinkType}
    (h : routeInfo t i j c₁ c₂ = .ok r) : RouteResult t i j c₁ c₂ r := by
  rw [routeInfo] at h
  split at h
  next hc₁ =>
    split at h
    next hc₂ =>
      split at h
      next heq =>
        obtain ⟨⟨w₁, ty₁⟩, h₁, h⟩ := except_bind_ok h
        obtain ⟨⟨w₂, ty⟩, h₂, h⟩ := except_bind_ok h
        cases h
        exact .first hc₁ (Or.inl heq) h₁ h₂
      next =>
        obtain ⟨⟨w₁, ty₁⟩, h₁, h⟩ := except_bind_ok h
        obtain ⟨⟨w₂, ty⟩, h₂, h⟩ := except_bind_ok h
        simp only at h
        split at h
        next => cases h
        next =>
          obtain ⟨⟨w₃, ty₃⟩, h₃, h⟩ := except_bind_ok h
          cases h
          exact .both hc₁ hc₂ h₁ h₂ h₃
    next hc₂ =>
      obtain ⟨⟨w₁, ty₁⟩, h₁, h⟩ := except_bind_ok h
      obtain ⟨⟨w₂, ty⟩, h₂, h⟩ := except_bind_ok h
      cases h
      exact .first hc₁ (Or.inr (Int.not_le.mp hc₂)) h₁ h₂
  next hc₁ =>
    obtain ⟨⟨w₂, ty⟩, h₂, h⟩ := except_bind_ok h
    obtain ⟨⟨w₃, ty₃⟩, h₃, h⟩ := except_bind_ok h
    cases h
    exact .second (Int.not_le.mp hc₁) h₂ h₃

/-- A lookup that succeeds has found a link. -/
theorem direct_ok {a b w : Nat} {ty : HsaIoLinkType}
    (h : getDirectIolinkInfo t a b = .ok (w, ty)) :
    ∃ l ∈ linksAt t a, l.nodeTo = b ∧ l.weight = w ∧ l.ioLinkType = ty := by
  rw [getDirectIolinkInfo] at h
  split at h
  · cases h
  · cases hfind : (linksAt t a).find? fun l => l.nodeTo = b with
    | none =>
        rw [hfind] at h
        cases h
    | some l =>
        rw [hfind] at h
        cases h
        have hto := List.find?_some hfind
        exact ⟨l, List.mem_of_find?_eq_some hfind, of_decide_eq_true hto, rfl, rfl⟩

theorem DirectTable.lt_of_link (D : DirectTable numNodes t) {a : Nat} {l : HsaIoLinkProperties}
    (h : l ∈ linksAt t a) : a < numNodes := by
  refine Nat.lt_of_not_le fun hge => ?_
  rw [linksAt, nodeAt_of_ge (D.length.trans_le hge)] at h
  cases h

theorem DirectTable.direct_weight (D : DirectTable numNodes t) {a b w : Nat} {ty : HsaIoLinkType}
    (h : getDirectIolinkInfo t a b = .ok (w, ty)) : w < 2 ^ 30 := by
  obtain ⟨l, hl, _, hw, _⟩ := direct_ok h
  exact hw ▸ D.weight_lt a (D.lt_of_link hl) l hl

/-- The link between two nodes is one of the links of the first. -/
def Hop (t : List NodeProps) (a : Nat) (l : HsaIoLinkProperties) (b : Nat) : Prop :=
  l ∈ linksAt t a ∧ l.nodeTo = b

/-- Two or three direct links lead from one node to another, through processors. -/
structure Route (t : List NodeProps) (i j : Nat) (hops : List HsaIoLinkProperties) : Prop where
  chain : Chain (Hop t) i hops j
  two_le : 2 ≤ hops.length
  le_three : hops.length ≤ 3
  through : ∀ l ∈ hops.dropLast, gpuIdAt t l.nodeTo = 0

/-- The weight that is found is that of a route, as a sum without overflow. -/
theorem DirectTable.route (D : DirectTable numNodes t) {i j w : Nat} {ty : HsaIoLinkType}
    (h : getIndirectIolinkInfo t i j = .ok (w, ty)) :
    ∃ hops, Route t i j hops ∧ w = (hops.map HsaIoLinkProperties.weight).sum := by
  obtain ⟨_, _, hdir, hroute⟩ := indirect_ok h
  cases routeInfo_result hroute with
  | first hc₁ _ h₁ h₂ =>
      obtain ⟨c, hc, heq, _, _, _, hcpu⟩ := D.dirCpu_link hc₁
      rw [heq, Int.toNat_natCast] at h₁ h₂
      have hw₁ := D.direct_weight h₁
      have hw₂ := D.direct_weight h₂
      obtain ⟨l₁, hl₁, hto₁, rfl, _⟩ := direct_ok h₁
      obtain ⟨l₂, hl₂, hto₂, rfl, _⟩ := direct_ok h₂
      refine ⟨[l₁, l₂], ⟨⟨c.nodeTo, ⟨hl₁, hto₁⟩, j, ⟨hl₂, hto₂⟩, rfl⟩, Nat.le_refl 2,
        Nat.le_succ 2, ?_⟩, ?_⟩
      · intro l hl
        rw [List.mem_singleton.mp hl, hto₁]
        exact hcpu
      · rw [u32_of_lt (by omega)]
        simp
  | both hc₁ hc₂ h₁ h₂ h₃ =>
      obtain ⟨c, hc, heq, _, _, _, hcpu⟩ := D.dirCpu_link hc₁
      obtain ⟨d, hd, heqd, _, _, _, hcpud⟩ := D.dirCpu_link hc₂
      rw [heq, Int.toNat_natCast] at h₁ h₂
      rw [heqd, Int.toNat_natCast] at h₂ h₃
      have hw₁ := D.direct_weight h₁
      have hw₂ := D.direct_weight h₂
      have hw₃ := D.direct_weight h₃
      obtain ⟨l₁, hl₁, hto₁, rfl, _⟩ := direct_ok h₁
      obtain ⟨l₂, hl₂, hto₂, rfl, _⟩ := direct_ok h₂
      obtain ⟨l₃, hl₃, hto₃, rfl, _⟩ := direct_ok h₃
      refine ⟨[l₁, l₂, l₃], ⟨⟨c.nodeTo, ⟨hl₁, hto₁⟩, d.nodeTo, ⟨hl₂, hto₂⟩, j, ⟨hl₃, hto₃⟩, rfl⟩,
        Nat.le_succ 2, Nat.le_refl 3, ?_⟩, ?_⟩
      · intro l hl
        cases List.mem_cons.mp hl with
        | inl hl =>
            rw [hl, hto₁]
            exact hcpu
        | inr hl =>
            rw [List.mem_singleton.mp hl, hto₂]
            exact hcpud
      · rw [u32_of_lt (by omega)]
        simp [Nat.add_assoc]
  | second hc₁ h₂ h₃ =>
      have hc₂ : 0 ≤ dirCpu t j := Int.not_lt.mp fun hlt => hdir ⟨hc₁, hlt⟩
      obtain ⟨d, hd, heqd, _, _, _, hcpud⟩ := D.dirCpu_link hc₂
      rw [heqd, Int.toNat_natCast] at h₂ h₃
      have hw₂ := D.direct_weight h₂
      have hw₃ := D.direct_weight h₃
      obtain ⟨l₂, hl₂, hto₂, rfl, _⟩ := direct_ok h₂
      obtain ⟨l₃, hl₃, hto₃, rfl, _⟩ := direct_ok h₃
      refine ⟨[l₂, l₃], ⟨⟨d.nodeTo, ⟨hl₂, hto₂⟩, j, ⟨hl₃, hto₃⟩, rfl⟩, Nat.le_refl 2,
        Nat.le_succ 2, ?_⟩, ?_⟩
      · intro l hl
        rw [List.mem_singleton.mp hl, hto₂]
        exact hcpud
      · rw [u32_of_lt (by omega)]
        simp

/-! ## Lookups in a table with added links -/

/-- The near link of a GPU is the first of its links that is near. -/
theorem gpuGetDirectLinkCpu_eq {i : Nat} (hgpu : gpuIdAt t i ≠ 0) :
    gpuGetDirectLinkCpu t i =
      match (linksAt t i).find? fun l => l.ioLinkType = .pciexpress ∧ l.weight ≤ 20 with
      | some l => toInt32 l.nodeTo
      | none => -1 := by
  rw [gpuGetDirectLinkCpu]
  split
  next h =>
    have hnil : linksAt t i = [] := by
      rw [linksAt]
      rcases h with h | h | h
      · exact absurd h hgpu
      · rw [h, List.take_nil]
      · rw [h, List.take_zero]
    rw [hnil]
    rfl
  next => rfl

/-- A link that is added to a GPU without a near link is not near. -/
theorem DirectTable.added_far (D : DirectTable numNodes t₀) {i : Nat} {l : HsaIoLinkProperties}
    (hadded : AddedLink t₀ i l) (hgpu : gpuIdAt t₀ i ≠ 0)
    (hnone : (linksAt t₀ i).find? (fun l => l.ioLinkType = .pciexpress ∧ l.weight ≤ 20) = none) :
    ¬ (l.ioLinkType = .pciexpress ∧ l.weight ≤ 20) := by
  intro hnear
  have hneg : dirCpu t₀ i < 0 := by
    rw [dirCpu, if_pos hgpu, gpuGetDirectLinkCpu_eq hgpu, hnone]
    decide
  obtain ⟨_, _, _, hroute⟩ := indirect_ok hadded.found
  have hres := routeInfo_result hroute
  generalize hr : (l.weight, l.ioLinkType) = r at hres
  cases hres with
  | first hc₁ => exact absurd hneg (Int.not_lt.mpr hc₁)
  | both hc₁ => exact absurd hneg (Int.not_lt.mpr hc₁)
  | second _ h₂ h₃ =>
      obtain ⟨hw, hty⟩ := Prod.mk.inj hr
      have hw₂ := D.direct_weight h₂
      have hw₃ := D.direct_weight h₃
      obtain ⟨l₂, hl₂, _, rfl, rfl⟩ := direct_ok h₂
      rw [List.find?_eq_none] at hnone
      refine hnone l₂ hl₂ (decide_eq_true ⟨hty ▸ hnear.1, ?_⟩)
      rw [u32_of_lt (by omega)] at hw
      omega

/-- The processor of a GPU stays as it was. -/
theorem Extends.dirCpu (E : Extends numNodes t₀ t) (D : DirectTable numNodes t₀) (i : Nat) :
    dirCpu t i = dirCpu t₀ i := by
  by_cases hgpu : gpuIdAt t₀ i = 0
  · rw [RocDxg.dirCpu, RocDxg.dirCpu, E.gpuId, if_neg (not_not.mpr hgpu), if_neg (not_not.mpr hgpu)]
  · obtain ⟨added, hlinks, hadded⟩ := E.links i
    have hgpu' : gpuIdAt t i ≠ 0 := E.gpuId i ▸ hgpu
    have hfind : (linksAt t i).find? (fun l => l.ioLinkType = .pciexpress ∧ l.weight ≤ 20) =
        (linksAt t₀ i).find? fun l => l.ioLinkType = .pciexpress ∧ l.weight ≤ 20 := by
      rw [hlinks, List.find?_append]
      cases horig : (linksAt t₀ i).find? fun l => l.ioLinkType = .pciexpress ∧ l.weight ≤ 20 with
      | some l => rfl
      | none =>
          rw [Option.none_or, List.find?_eq_none]
          intro l hl hnear
          exact D.added_far (hadded l hl) hgpu horig (of_decide_eq_true hnear)
    rw [RocDxg.dirCpu, RocDxg.dirCpu, if_pos hgpu, if_pos hgpu', gpuGetDirectLinkCpu_eq hgpu,
      gpuGetDirectLinkCpu_eq hgpu', hfind]

/-- A route is looked up as in the original table. -/
theorem lookup_extends (E : Extends numNodes t₀ t) (D : DirectTable numNodes t₀) (i j : Nat) :
    getIndirectIolinkInfo t i j = getIndirectIolinkInfo t₀ i j := by
  have hroute : ¬ (dirCpu t₀ i < 0 ∧ dirCpu t₀ j < 0) →
      routeInfo t i j (dirCpu t₀ i) (dirCpu t₀ j) =
        routeInfo t₀ i j (dirCpu t₀ i) (dirCpu t₀ j) := by
    intro hdir
    by_cases hc₁ : 0 ≤ dirCpu t₀ i
    · obtain ⟨c, hc, heq, _, _, _, hcpu⟩ := D.dirCpu_link hc₁
      have hfirst : getDirectIolinkInfo t i (dirCpu t₀ i).toNat =
          getDirectIolinkInfo t₀ i (dirCpu t₀ i).toNat := by
        rw [heq, Int.toNat_natCast]
        exact E.direct (Or.inl ⟨c, hc, rfl⟩)
      by_cases hc₂ : 0 ≤ dirCpu t₀ j
      · obtain ⟨d, _, heqd, _, _, _, hcpud⟩ := D.dirCpu_link hc₂
        have hmiddle : getDirectIolinkInfo t (dirCpu t₀ i).toNat (dirCpu t₀ j).toNat =
            getDirectIolinkInfo t₀ (dirCpu t₀ i).toNat (dirCpu t₀ j).toNat := by
          rw [heq, heqd, Int.toNat_natCast, Int.toNat_natCast]
          exact E.direct (Or.inr (no_route_cpus hcpu hcpud))
        have hlast : getDirectIolinkInfo t (dirCpu t₀ j).toNat j =
            getDirectIolinkInfo t₀ (dirCpu t₀ j).toNat j := by
          rw [heqd, Int.toNat_natCast]
          exact E.direct (Or.inr (D.no_route_own hcpud heqd))
        rw [routeInfo, routeInfo, if_pos hc₁, if_pos hc₁, if_pos hc₂, if_pos hc₂]
        split
        next hsame =>
          rw [hsame] at hfirst ⊢
          rw [hfirst, hlast]
        next => rw [hfirst, hmiddle, hlast]
      · have hsecond : getDirectIolinkInfo t (dirCpu t₀ i).toNat j =
            getDirectIolinkInfo t₀ (dirCpu t₀ i).toNat j := by
          rw [heq, Int.toNat_natCast]
          exact E.direct (Or.inr (no_route_undirected (dirCpu_cpu hcpu) (Int.not_le.mp hc₂)))
        rw [routeInfo, routeInfo, if_pos hc₁, if_pos hc₁, if_neg hc₂, if_neg hc₂, hfirst, hsecond]
    · have hc₂ : 0 ≤ dirCpu t₀ j := Int.not_lt.mp fun hlt => hdir ⟨Int.not_le.mp hc₁, hlt⟩
      obtain ⟨d, _, heqd, _, _, _, hcpud⟩ := D.dirCpu_link hc₂
      have hfirst : getDirectIolinkInfo t i (dirCpu t₀ j).toNat =
          getDirectIolinkInfo t₀ i (dirCpu t₀ j).toNat := by
        rw [heqd, Int.toNat_natCast]
        exact E.direct (Or.inr (no_route_undirected (Int.not_le.mp hc₁) (dirCpu_cpu hcpud)))
      have hlast : getDirectIolinkInfo t (dirCpu t₀ j).toNat j =
          getDirectIolinkInfo t₀ (dirCpu t₀ j).toNat j := by
        rw [heqd, Int.toNat_natCast]
        exact E.direct (Or.inr (D.no_route_own hcpud heqd))
      rw [routeInfo, routeInfo, if_neg hc₁, if_neg hc₁, hfirst, hlast]
  simp only [getIndirectIolinkInfo, E.gpuId, E.hiveID, E.largeBar, E.dirCpu D]
  split
  · rfl
  · split
    · rfl
    · split
      · rfl
      · split
        · rfl
        next hdir =>
          split
          · rfl
          · exact hroute hdir

/-! ## Links are added one after the other -/

theorem nodeAt_set {i : Nat} (h : i < t.length) (np : NodeProps) (j : Nat) :
    nodeAt (t.set i np) j = if j = i then np else nodeAt t j := by
  simp only [nodeAt, List.getD_eq_getElem?_getD, List.getElem?_set]
  split
  next heq => rw [if_pos heq.symm, Option.getD_some]
  next hne => rw [if_neg fun h' => hne h'.symm]

/-- A link whose slot is free stands behind the others. -/
theorem take_modify_succ {α : Type} (f : α → α) {n : Nat} {xs : List α} {x : α}
    (h : xs[n]? = some x) : (xs.modify n f).take (n + 1) = xs.take n ++ [f x] := by
  induction xs generalizing n with
  | nil => cases h
  | cons y ys ih =>
      cases n with
      | zero =>
          cases h
          rfl
      | succ n =>
          rw [List.modify_succ_cons, List.take_succ_cons, ih h, List.take_succ_cons, List.cons_append]

/-- Adding a link for a route of the original table. -/
theorem Extends.add (E : Extends numNodes t₀ t) (D : DirectTable numNodes t₀) (i j : Nat) :
    Extends numNodes t₀ (addIndirect numNodes i j (getIndirectIolinkInfo t₀ i j) t) := by
  cases hfound : getIndirectIolinkInfo t₀ i j with
  | error e => exact E
  | ok found =>
    obtain ⟨weight, type⟩ := found
    rw [addIndirect]
    split
    next => exact E
    next =>
      rw [topologyAddIoLinkForNode]
      simp only
      split
      next => exact E
      next hfree =>
        simp only [not_or, Nat.not_le, ge_iff_le] at hfree
        obtain ⟨hi, hne, hslot⟩ := hfree
        have hlt : i < t.length := by rw [E.length, D.length]; exact hi
        have hlen : (nodeAt t i).link.length = numNodes - 1 := by
          rw [E.link_length, D.link_length i hi]
        obtain ⟨x, hx⟩ : ∃ x, (nodeAt t i).link[(nodeAt t i).node.numIOLinks]? = some x :=
          ⟨_, List.getElem?_eq_getElem (hlen.symm ▸ hslot)⟩
        have hat := nodeAt_set hlt { nodeAt t i with
          node := { (nodeAt t i).node with numIOLinks := (nodeAt t i).node.numIOLinks + 1 }
          link := (nodeAt t i).link.modify (nodeAt t i).node.numIOLinks fun l =>
            { l with ioLinkType := type, nodeFrom := i, nodeTo := j, weight := weight } }
        refine ⟨?_, ?_, ?_, ?_, ?_, ?_, ?_⟩
        · rw [List.length_set, E.length]
        · intro k
          rw [← E.gpuId k, gpuIdAt, gpuIdAt, hat]
          split
          next heq => rw [heq]
          next => rfl
        · intro k
          rw [← E.hiveID k, hat]
          split
          next heq => rw [heq]
          next => rfl
        · intro k
          rw [← E.largeBar k, RocDxg.largeBar, RocDxg.largeBar, hat]
          split
          next heq => rw [heq]
          next => rfl
        · intro k
          rw [← E.link_length k, hat]
          split
          next heq => rw [heq, List.length_modify]
          next => rfl
        · intro k hk
          rw [hat]
          split
          next => exact hslot
          next => exact E.numIOLinks_le k hk
        · intro k
          obtain ⟨added, hlinks, hadded⟩ := E.links k
          rw [linksAt, hat]
          split
          next heq =>
            subst heq
            refine ⟨added ++ [{ x with ioLinkType := type, nodeFrom := k, nodeTo := j, weight := weight }],
              ?_, ?_⟩
            · rw [take_modify_succ _ hx, ← List.append_assoc, ← hlinks]
              rfl
            · intro l hl
              cases List.mem_append.mp hl with
              | inl hl => exact hadded l hl
              | inr hl =>
                  rw [List.mem_singleton.mp hl]
                  exact ⟨rfl, hfound⟩
          next => exact ⟨added, hlinks, hadded⟩

/-- Both ways of building add the same links, and only such as the original table has routes
for. -/
theorem foldl_addIndirect (D : DirectTable numNodes t₀) (pairs : List (Nat × Nat))
    (E : Extends numNodes t₀ t) :
    pairs.foldl (fun t p => addIndirect numNodes p.1 p.2 (getIndirectIolinkInfo t p.1 p.2) t) t =
        pairs.foldl (fun t p => addIndirect numNodes p.1 p.2 (getIndirectIolinkInfo t₀ p.1 p.2) t) t ∧
      Extends numNodes t₀
        (pairs.foldl (fun t p => addIndirect numNodes p.1 p.2 (getIndirectIolinkInfo t₀ p.1 p.2) t)
          t) := by
  induction pairs generalizing t with
  | nil => exact ⟨rfl, E⟩
  | cons p pairs ih =>
      rw [List.foldl_cons, List.foldl_cons, lookup_extends E D]
      exact ih (E.add D p.1 p.2)

/-- Building the links in the table that is scanned is the same as building them from the
original one.  The direct links stay in their slots.  Each link behind them leads to another node
and has the weight and the type that are found in the original table, where the weight is the sum
over the direct links of a route. -/
theorem indirect_links_in_place (D : DirectTable numNodes t) :
    topologyCreateIndirectGpuLinks numNodes t = addLinksOf t numNodes t ∧
    ∀ i < numNodes,
      (nodeAt (topologyCreateIndirectGpuLinks numNodes t) i).node.numIOLinks ≤ numNodes - 1 ∧
      ∃ added, linksAt (topologyCreateIndirectGpuLinks numNodes t) i = linksAt t i ++ added ∧
        ∀ l ∈ added, l.nodeFrom = i ∧ l.nodeTo ≠ i ∧
          getIndirectIolinkInfo t i l.nodeTo = .ok (l.weight, l.ioLinkType) ∧
          ∃ hops, Route t i l.nodeTo hops ∧
            l.weight = (hops.map HsaIoLinkProperties.weight).sum := by
  obtain ⟨hsame, E⟩ := foldl_addIndirect D (nodePairs numNodes) (Extends.refl D)
  refine ⟨hsame, fun i hi => ?_⟩
  rw [topologyCreateIndirectGpuLinks, hsame]
  obtain ⟨added, hlinks, hadded⟩ := E.links i
  refine ⟨E.numIOLinks_le i hi, added, hlinks, fun l hl => ?_⟩
  have hfound := (hadded l hl).found
  exact ⟨(hadded l hl).nodeFrom, fun hto => (indirect_ok hfound).1 hto.symm, hfound,
    D.route hfound⟩

/-! ## Tables without routes -/

/-- All links lead to the node zero, which has none itself. -/
structure Star (t : List NodeProps) : Prop where
  root : linksAt t 0 = []
  leaf : ∀ i, ∀ l ∈ linksAt t i, l.nodeTo = 0

theorem Star.direct_root (S : Star t) (j : Nat) (r : Nat × HsaIoLinkType) :
    getDirectIolinkInfo t 0 j ≠ .ok r := by
  intro h
  obtain ⟨l, hl, _⟩ := direct_ok h
  rw [S.root] at hl
  cases hl

/-- The processor of a GPU is the node zero. -/
theorem Star.dirCpu_eq (S : Star t) {i : Nat} (h : 0 ≤ dirCpu t i) : dirCpu t i = 0 := by
  have hgpu : gpuIdAt t i ≠ 0 := fun hz => absurd h (Int.not_le.mpr (dirCpu_cpu hz))
  rw [dirCpu, if_pos hgpu, gpuGetDirectLinkCpu_eq hgpu] at h ⊢
  cases hfind : (linksAt t i).find? fun l => l.ioLinkType = .pciexpress ∧ l.weight ≤ 20 with
  | none =>
      rw [hfind] at h
      exact absurd h (by decide)
  | some l =>
      simp only
      rw [S.leaf i l (List.mem_of_find?_eq_some hfind)]
      rfl

theorem Star.no_route (S : Star t) (i j : Nat) (r : Nat × HsaIoLinkType) :
    getIndirectIolinkInfo t i j ≠ .ok r := by
  intro h
  obtain ⟨_, _, hdir, hroute⟩ := indirect_ok h
  cases routeInfo_result hroute with
  | first hc₁ _ _ h₂ =>
      rw [S.dirCpu_eq hc₁] at h₂
      exact S.direct_root _ _ h₂
  | both hc₁ _ _ h₂ =>
      rw [S.dirCpu_eq hc₁] at h₂
      exact S.direct_root _ _ h₂
  | second hc₁ _ h₃ =>
      rw [S.dirCpu_eq (Int.not_lt.mp fun hlt => hdir ⟨hc₁, hlt⟩)] at h₃
      exact S.direct_root _ _ h₃

/-- No link is added to such a table. -/
theorem Star.create (S : Star t) (numNodes : Nat) :
    topologyCreateIndirectGpuLinks numNodes t = t := by
  rw [topologyCreateIndirectGpuLinks]
  induction nodePairs numNodes with
  | nil => rfl
  | cons p pairs ih =>
      rw [List.foldl_cons]
      cases hfound : getIndirectIolinkInfo t p.1 p.2 with
      | error e => exact ih
      | ok r => exact absurd hfound (S.no_route p.1 p.2 r)

/-- A processor with two GPUs whose memory the host can access. -/
def sampleNodes : List NodeProps :=
  let link : Nat → Nat → HsaIoLinkProperties := fun i j => ⟨.pciexpress, i, j, 20, {}⟩
  let gpu : Nat → NodeProps := fun i =>
    { node := { numMemoryBanks := 1, numIOLinks := 1, kfdGpuID := i }
      mem := [{ heapType := .frameBufferPublic }]
      link := [link i 0, {}] }
  [{ node := { numIOLinks := 2 }, link := [link 0 1, link 0 2] }, gpu 1, gpu 2]

theorem directTable_sampleNodes : DirectTable 3 sampleNodes where
  pos := by decide
  numNodes_lt := by decide
  length := rfl
  link_length := by decide
  numIOLinks_le := by decide
  banks := by decide
  no_self := by decide
  weight_lt := by decide
  to_cpu := by decide

/-- The first GPU of the sample gets a link to the second. -/
theorem indirect_links_in_place_sample :
    linksAt (topologyCreateIndirectGpuLinks 3 sampleNodes) 1 =
        [⟨.pciexpress, 1, 0, 20, {}⟩, ⟨.pciexpress, 1, 2, 40, {}⟩] ∧
      (nodeAt (topologyCreateIndirectGpuLinks 3 sampleNodes) 1).node.numIOLinks ≤ 2 := by
  obtain ⟨_, h⟩ := indirect_links_in_place directTable_sampleNodes
  exact ⟨by decide, (h 1 (by decide)).1⟩

end RocDxg
