import RocDxg.Lib.OrdMap
import RocDxg.Lib.MultiMap
import RocDxg.Util

/-!
# The virtual address manager

`VaMgr` of `wddm/va_mgr.h` and `wddm/va_mgr.cpp`.  The manager keeps two
containers.  `fragMap` holds the fragments of the managed range by address, and
`freeList` holds the free ones by size.  A free fragment stores the iterator of
its entry in `freeList`; a used one stores `end()`, here `none`.

`alloc` and `allocImpl` return `none` where the source asserts.  Sums that can
wrap for some argument are reduced to 64 bits; the sum of a base and at most the
size of its fragment stays below the end of the managed range and is written as
it is.
-/

namespace RocDxg

open Lib (OrdMap MultiMap Node)

/-- `VaMgr::Fragment`: the iterator into the free list, and the 63-bit size and
the free bit that share a word. -/
structure Fragment where
  /-- The iterator of the fragment's free list entry, `none` for `end()`. -/
  freeListEntry : Option Nat
  /-- The size in bytes. -/
  size : Nat
  /-- The free bit. -/
  isFree : Bool
deriving DecidableEq, Repr

namespace Fragment

/-- A value stored in the `size` bit-field. -/
def sizeField (n : Nat) : Nat := n % 2 ^ 63

/-- `make_fragment` with an iterator: a free fragment. -/
def makeFree (iter len : Nat) : Fragment := ⟨some iter, sizeField len, true⟩

/-- `make_fragment` without one: a used fragment. -/
def makeUsed (len : Nat) : Fragment := ⟨none, sizeField len, false⟩

/-- Assign the size. -/
def setSize (f : Fragment) (n : Nat) : Fragment := { f with size := sizeField n }

/-- `set_used` -/
def setUsed (f : Fragment) : Fragment := { f with isFree := false, freeListEntry := none }

/-- `set_free` -/
def setFree (f : Fragment) (iter : Nat) : Fragment :=
  { f with freeListEntry := some iter, isFree := true }

theorem sizeField_of_lt {n : Nat} (h : n < 2 ^ 63) : sizeField n = n := Nat.mod_eq_of_lt h

end Fragment

/-- The two containers of the manager and its minimal alignment. -/
structure VaMgr where
  /-- Free fragments, indexed by size. -/
  freeList : MultiMap
  /-- All fragments, indexed by address. -/
  fragMap : OrdMap Fragment
  /-- `min_align_` -/
  minAlign : Nat

namespace VaMgr

/-- The constructor: one free fragment. -/
def new (start size minAlign : Nat) : VaMgr where
  freeList := MultiMap.empty.insert size start
  fragMap := OrdMap.empty.insert start (.makeFree MultiMap.empty.next size)
  minAlign := minAlign

/-- `add_free_fragment` -/
def addFreeFragment (m : VaMgr) (size base : Nat) : VaMgr :=
  { m with
    freeList := m.freeList.insert size base
    fragMap := m.fragMap.insert base (.makeFree m.freeList.next size) }

/-- `add_used_fragment` -/
def addUsedFragment (m : VaMgr) (size base : Nat) : VaMgr :=
  { m with fragMap := m.fragMap.insert base (.makeUsed size) }

/-- `free_list_.erase` of an iterator, or `remove_free_list_entry`, which skips
`end()`. -/
def removeFreeListEntry (m : VaMgr) (iter : Option Nat) : VaMgr :=
  match iter with
  | some i => { m with freeList := m.freeList.erase i }
  | none => m

/-! ## Allocation -/

/-- The loop of `Alloc` for a fixed address.  The list holds the fragments from
the iterator down to `begin()`; the loop stops when the iterator is `begin()`,
so the first fragment of the map is never taken. -/
def fixedScan (bytes addr : Nat) : List (Nat × Fragment) → Option (Nat × Fragment)
  | [] => none
  | [_] => none
  | (base, frag) :: e :: rest =>
      if bytes > frag.size ∨ addr < base ∨ u64 (addr + bytes) > u64 (base + frag.size) ∨
          frag.isFree = false then
        fixedScan bytes addr (e :: rest)
      else if addr ≥ u64 (base + frag.size) then none
      else some (base, frag)

/-- The fragment a call with a fixed address takes, if any. -/
def fixedFragment (m : VaMgr) (bytes align addr : Nat) : Option (Nat × Fragment) :=
  if 0 < addr ∧ (align = 0 ∨ addr % align = 0) then
    fixedScan bytes addr (m.fragMap.upto addr).reverse
  else none

/-- The body of the fixed-address loop once a free fragment at `base` holds
`[addr, addr + bytes)`.  The used size is written to the entry at `base`, also
when `addr` is above `base`. -/
def takeFixed (m : VaMgr) (bytes addr base : Nat) (frag : Fragment) : VaMgr :=
  let m := m.removeFreeListEntry frag.freeListEntry
  let m := { m with fragMap := m.fragMap.insert base (frag.setSize bytes).setUsed }
  -- [base, addr)
  let m := if addr > base then m.addFreeFragment (addr - base) base else m
  -- [addr + bytes, base + size)
  if base + frag.size > addr + bytes then
    m.addFreeFragment (base + frag.size - addr - bytes) (addr + bytes)
  else m

/-- The end of `AllocImpl` for a fragment whose base is aligned. -/
def takeBase (m : VaMgr) (bytes : Nat) (n : Node) (frag : Fragment) : VaMgr :=
  let m := m.removeFreeListEntry (some n.id)
  let m := { m with fragMap := m.fragMap.insert n.val (frag.setSize bytes).setUsed }
  if n.key > bytes then m.addFreeFragment (n.key - bytes) (n.val + bytes) else m

/-- The end of `AllocImpl` for a fragment whose base is not aligned. -/
def takeAligned (m : VaMgr) (bytes alignedBase : Nat) (n : Node) : VaMgr :=
  let front := sub64 alignedBase n.val
  let m := m.removeFreeListEntry (some n.id)
  let m := m.addUsedFragment bytes alignedBase
  let m := m.addFreeFragment front n.val
  if n.key > u64 (front + bytes) then
    m.addFreeFragment (sub64 (sub64 n.key front) bytes) (u64 (alignedBase + bytes))
  else m

/-- The loop of `AllocImpl`: `left` iterations remain, the counter is at `i`. -/
def allocLoop (m : VaMgr) (bytes align newAlign : Nat) :
    (left i alignBytes : Nat) → Option (Nat × VaMgr)
  | 0, _, _ => some (0, m)
  | left + 1, i, alignBytes =>
      match m.freeList.lowerBound alignBytes with
      | none => some (0, m)
      | some n =>
          match m.fragMap.find? n.val with
          -- assert(fragment != frag_map_.end())
          | none => none
          | some frag =>
              -- assert(size == fragment->second.size)
              if n.key ≠ frag.size then none
              else
                let delta := if align = 0 then 0 else n.val % align
                if delta = 0 then some (n.val, m.takeBase bytes n frag)
                else if i = 0 then
                  allocLoop m bytes align newAlign left (i + 1) (u64 (alignBytes + newAlign))
                else
                  let alignedBase := u64 (n.val + align - delta)
                  some (alignedBase, m.takeAligned bytes alignedBase n)

/-- `AllocImpl` -/
def allocImpl (m : VaMgr) (bytes align : Nat) : Option (Nat × VaMgr) :=
  let retry := if align = 0 then 0 else 1
  let newAlign := if align = 0 then m.minAlign else alignUp 64 align m.minAlign
  m.allocLoop bytes align newAlign (retry + 1) 0 bytes

/-- `Alloc` -/
def alloc (m : VaMgr) (bytes align addr : Nat) : Option (Nat × VaMgr) :=
  if 0 < addr ∧ (align = 0 ∨ addr % align = 0) then
    match (m.fragMap.upto addr).reverse with
    -- assert(frag_it != frag_map_.begin())
    | [] => none
    | e :: rest =>
        match fixedScan bytes addr (e :: rest) with
        | some (base, frag) =>
            -- assert(free_it != free_list_.end())
            if frag.freeListEntry = none then none
            else some (addr, m.takeFixed bytes addr base frag)
        | none => m.allocImpl bytes align
  else m.allocImpl bytes align

/-! ## Release -/

/-- The position of `Free` in the map while it merges: the key and the value of
the fragment the iterator is at, and the base it will publish. -/
structure Merge where
  mgr : VaMgr
  key : Nat
  frag : Fragment
  base : Nat

/-- Merge with a free lower neighbour. -/
def mergeLower (m : VaMgr) (addr : Nat) (frag : Fragment) : Merge :=
  match m.fragMap.prev? addr with
  | none => ⟨m, addr, frag, addr⟩
  | some (key, lower) =>
      if lower.isFree then
        let m := m.removeFreeListEntry lower.freeListEntry
        let merged := ({ lower with freeListEntry := none } : Fragment).setSize
          (lower.size + frag.size)
        ⟨{ m with fragMap := (m.fragMap.erase addr).insert key merged }, key, merged,
          sub64 addr lower.size⟩
      else ⟨m, addr, frag, addr⟩

/-- Merge with a free upper neighbour. -/
def mergeUpper (g : Merge) : Merge :=
  match g.mgr.fragMap.next? g.key with
  | none => g
  | some (key, upper) =>
      if upper.isFree then
        let m := g.mgr.removeFreeListEntry upper.freeListEntry
        let merged := g.frag.setSize (g.frag.size + upper.size)
        { g with
          mgr := { m with fragMap := (m.fragMap.erase key).insert g.key merged }
          frag := merged }
      else g

/-- Publish the merged fragment in the free list. -/
def publish (g : Merge) : VaMgr :=
  { g.mgr with
    freeList := g.mgr.freeList.insert g.frag.size g.base
    fragMap := g.mgr.fragMap.insert g.key (g.frag.setFree g.mgr.freeList.next) }

/-- `Free` -/
def free (m : VaMgr) (addr : Nat) : VaMgr :=
  if addr = 0 then m
  else
    match m.fragMap.find? addr with
    | none => m
    | some frag => if frag.isFree then m else publish (mergeUpper (m.mergeLower addr frag))

end VaMgr

end RocDxg
