-- The target address map: access types, regions, and the lookup that every
-- access starts with. A map can only be built with its regions in order and
-- apart from each other.
import Mathlib.Algebra.Group.Nat.Defs
import Mathlib.Data.List.Sort
import Mathlib.Data.List.Pairwise

open List BitVec

namespace Fil.Mem

/-! ## Accesses and faults -/

inductive AccessType
  | instructionFetch
  | dataRead
  | dataWrite
  | debug
  deriving DecidableEq

/-- The width of one bus operation. -/
inductive AccessSize
  | byte
  | halfword
  | word
  | doubleword
  deriving DecidableEq

/-- Why an access did not complete. -/
inductive BusFaultReason
  | addressOverflow
  | unmapped
  | crossRegion
  | readProtected
  | writeProtected
  | executeProtected
  | aliasCycle
  | deviceError
  | synchronizationRequired
  deriving DecidableEq

/-- The purpose of an access and the instruction that made it. -/
structure AccessContext where
  type : AccessType := .dataRead
  pc : BitVec 32 := 0
  deriving DecidableEq

structure BusFault where
  reason : BusFaultReason
  address : BitVec 32
  size : AccessSize
  context : AccessContext
  region : String
  message : String
  deriving DecidableEq

def byteCount : AccessSize → Nat
  | .byte => 1
  | .halfword => 2
  | .word => 4
  | .doubleword => 8

def accessWidthMask (size : AccessSize) : BitVec 64 :=
  if size = .doubleword then BitVec.allOnes 64 else (1 <<< (byteCount size * 8)) - 1

lemma byteCount_pos (size : AccessSize) : 0 < byteCount size := by
  cases size <;> decide

lemma byteCount_le (size : AccessSize) : byteCount size ≤ 8 := by
  cases size <;> decide

/-! ## Regions -/

/-- How an address range is backed. -/
inductive RegionKind
  | ram
  | rom
  | flash
  | alias
  | mmio
  deriving DecidableEq

structure MemoryRegionInfo where
  base : BitVec 32
  size : BitVec 32
  kind : RegionKind
  name : String
  readable : Bool
  writable : Bool
  executable : Bool
  deriving DecidableEq

/-- A mapped range. The bytes of a backed range are kept by the bus, under
their own addresses. The device of an MMIO range is named by its number. -/
structure Region where
  info : MemoryRegionInfo
  aliasTarget : BitVec 32 := 0
  device : Nat := 0
  deriving DecidableEq

/-- A range that is not empty and does not wrap. -/
def validRange (base size : BitVec 32) : Bool :=
  size ≠ 0 && base ≤ 0xffffffff - (size - 1)

lemma validRange_iff (base size : BitVec 32) :
    validRange base size = true ↔ 0 < size.toNat ∧ base.toNat + size.toNat ≤ 2 ^ 32 := by
  simp only [validRange, Bool.and_eq_true, decide_eq_true_eq]
  constructor
  · rintro ⟨h0, hle⟩
    bv_omega
  · rintro ⟨h0, hle⟩
    bv_omega

/-- The first address after the region, without wrapping. -/
def Region.endAddress (r : Region) : Nat := r.info.base.toNat + r.info.size.toNat

def Region.contains (r : Region) (address : BitVec 32) : Bool :=
  r.info.base ≤ address && address.toNat < r.endAddress

/-- Whether the `size` bytes from `address` on lie in the region. -/
def Region.containsRange (r : Region) (address : BitVec 32) (size : Nat) : Bool :=
  r.info.base ≤ address && address.toNat + size ≤ r.endAddress

def Region.backed (r : Region) : Bool :=
  r.info.kind = .ram || r.info.kind = .rom || r.info.kind = .flash

lemma Region.contains_iff (r : Region) (address : BitVec 32) :
    r.contains address = true ↔
      r.info.base.toNat ≤ address.toNat ∧ address.toNat < r.endAddress := by
  simp [Region.contains, le_def]

lemma Region.containsRange_iff (r : Region) (address : BitVec 32) (size : Nat) :
    r.containsRange address size = true ↔
      r.info.base.toNat ≤ address.toNat ∧ address.toNat + size ≤ r.endAddress := by
  simp [Region.containsRange, le_def]

/-- The mapped regions, in address order and apart from each other. -/
structure RegionMap where
  regions : List Region
  ranges : ∀ r ∈ regions, validRange r.info.base r.info.size = true
  sorted : regions.Pairwise fun a b => a.endAddress ≤ b.info.base.toNat

/-- The region that holds an address: the last one that starts at or below it,
if it reaches that far. -/
def RegionMap.find (m : RegionMap) (address : BitVec 32) : Option Region :=
  match (m.regions.takeWhile fun r => r.info.base ≤ address).getLast? with
  | none => none
  | some r => if r.contains address then some r else none

variable {m : RegionMap} {address : BitVec 32} {r : Region}

lemma RegionMap.find_some (h : m.find address = some r) :
    r ∈ m.regions ∧ r.contains address = true := by
  unfold RegionMap.find at h
  split at h
  · cases h
  rename_i q hq
  split at h
  · rename_i hc
    obtain rfl : q = r := by simpa using h
    have hmem := mem_of_getLast? hq
    exact ⟨(takeWhile_sublist _).subset hmem, hc⟩
  · cases h

section

variable (hr : r ∈ m.regions) (hc : r.contains address = true)
include hr hc

lemma RegionMap.last_of_contains :
    (m.regions.takeWhile fun r => r.info.base ≤ address).getLast? = some r := by
  obtain ⟨before, after, hsplit⟩ := append_of_mem hr
  have hsorted := m.sorted
  rw [hsplit, pairwise_append] at hsorted
  obtain ⟨-, hlast, hcross⟩ := hsorted
  obtain ⟨hafter, -⟩ := List.pairwise_cons.mp hlast
  obtain ⟨hlow, hhigh⟩ := (r.contains_iff address).mp hc
  have hb : ∀ x ∈ before, decide (x.info.base ≤ address) = true := by
    intro x hx
    have hend := hcross x hx r (by simp)
    unfold Region.endAddress at hend
    rw [decide_eq_true_eq, le_def]
    omega
  have hrp : decide (r.info.base ≤ address) = true := by
    rw [decide_eq_true_eq, le_def]
    exact hlow
  -- every later region starts after this one ends, so the scan stops here
  have ha : after.takeWhile (fun x => decide (x.info.base ≤ address)) = [] := by
    cases after with
    | nil => rfl
    | cons x xs =>
      have hstart := hafter x (by simp)
      have hx : decide (x.info.base ≤ address) = false := by
        rw [decide_eq_false_iff_not, le_def]
        omega
      rw [takeWhile_cons, hx]
      rfl
  rw [hsplit, takeWhile_append_of_pos hb, takeWhile_cons, hrp, if_pos rfl, ha,
    getLast?_append_cons, getLast?_singleton]

lemma RegionMap.find_of_contains :
    m.find address = some r := by
  unfold RegionMap.find
  rw [last_of_contains hr hc]
  exact if_pos hc

end

lemma RegionMap.find_offset {width i : Nat} (hr : r ∈ m.regions)
    (hc : r.containsRange address width = true) (hi : i < width) :
    m.find (address + BitVec.ofNat 32 i) = some r := by
  have hend := ((validRange_iff _ _).mp (m.ranges r hr)).2
  obtain ⟨hlow, hhigh⟩ := (r.containsRange_iff address width).mp hc
  apply RegionMap.find_of_contains hr
  rw [Region.contains_iff]
  unfold Region.endAddress at hhigh ⊢
  rw [toNat_add, toNat_ofNat]
  omega

lemma RegionMap.end_le (h : r ∈ m.regions) : r.endAddress ≤ 2 ^ 32 :=
  ((validRange_iff _ _).mp (m.ranges r h)).2

/-! ## Building the map -/

/-- Why a region could not be mapped. -/
structure MapError where
  message : String
  deriving DecidableEq

def Region.overlaps (a b : Region) : Bool :=
  max a.info.base.toNat b.info.base.toNat < min a.endAddress b.endAddress

/-- Keeps the regions in the order of their first addresses. -/
def insertRegion (r : Region) (l : List Region) : List Region :=
  l.orderedInsert (fun a b => a.info.base < b.info.base) r

lemma mem_insertRegion {q : Region} {l : List Region} : q ∈ insertRegion r l ↔ q = r ∨ q ∈ l :=
  mem_orderedInsert _

lemma Region.overlaps_eq_false {a b : Region} (ha : validRange a.info.base a.info.size = true)
    (hb : validRange b.info.base b.info.size = true) :
    a.overlaps b = false ↔ a.endAddress ≤ b.info.base.toNat ∨ b.endAddress ≤ a.info.base.toNat := by
  have ha := ((validRange_iff _ _).mp ha).1
  have hb := ((validRange_iff _ _).mp hb).1
  unfold Region.overlaps Region.endAddress
  rw [decide_eq_false_iff_not]
  omega

lemma insertRegion_sorted {l : List Region} (hr : validRange r.info.base r.info.size = true)
    (hl : ∀ x ∈ l, validRange x.info.base x.info.size = true)
    (hs : l.Pairwise fun a b => a.endAddress ≤ b.info.base.toNat)
    (ho : ∀ x ∈ l, r.overlaps x = false) :
    (insertRegion r l).Pairwise fun a b => a.endAddress ≤ b.info.base.toNat := by
  induction l with
  | nil => simp [insertRegion]
  | cons x xs ih =>
    have hx := hl x (by simp)
    have hrx := (Region.overlaps_eq_false hr hx).mp (ho x (by simp))
    obtain ⟨hsx, hsxs⟩ := List.pairwise_cons.mp hs
    have hr0 := ((validRange_iff _ _).mp hr).1
    unfold insertRegion
    rw [orderedInsert_cons]
    split
    · rename_i hlt
      -- the new region starts first, so it also ends before `x` and all after it
      have hend : r.endAddress ≤ x.info.base.toNat := by
        rw [lt_def] at hlt
        unfold Region.endAddress at hrx ⊢
        omega
      refine List.pairwise_cons.mpr ⟨?_, hs⟩
      intro y hy
      rcases mem_cons.mp hy with rfl | hy
      · exact hend
      have := hsx y hy
      unfold Region.endAddress at this hend ⊢
      omega
    · rename_i hge
      have hend : x.endAddress ≤ r.info.base.toNat := by
        rw [BitVec.not_lt, le_def] at hge
        unfold Region.endAddress at hrx ⊢
        omega
      refine List.pairwise_cons.mpr ⟨?_, ih (fun y hy => hl y (by simp [hy])) hsxs
        (fun y hy => ho y (by simp [hy]))⟩
      intro y hy
      rcases mem_insertRegion.mp hy with rfl | hy
      · exact hend
      · exact hsx y hy

def RegionMap.addRegion (m : RegionMap) (r : Region) : Except MapError RegionMap :=
  if hr : validRange r.info.base r.info.size = true then
    match ho : m.regions.find? fun x => r.overlaps x with
    | some x => .error ⟨"memory region '" ++ r.info.name ++ "' overlaps region '" ++ x.info.name ++ "'"⟩
    | none => .ok
      { regions := insertRegion r m.regions
        ranges := by
          intro q hq
          rcases mem_insertRegion.mp hq with rfl | hq
          · exact hr
          · exact m.ranges q hq
        sorted := insertRegion_sorted hr m.ranges m.sorted (by simpa using ho) }
  else
    .error ⟨"memory region '" ++ r.info.name ++ "' has an empty or wrapping range"⟩

/-- A range that is not empty, does not pass the last address and lies apart from all others. -/
def Region.Fits (r : Region) (l : List Region) : Prop :=
  0 < r.info.size.toNat ∧ r.endAddress ≤ 2 ^ 32 ∧
    ∀ x ∈ l, r.endAddress ≤ x.info.base.toNat ∨ x.endAddress ≤ r.info.base.toNat

lemma RegionMap.fits_iff : r.Fits m.regions ↔ validRange r.info.base r.info.size = true ∧
    ∀ x ∈ m.regions, r.overlaps x = false := by
  unfold Region.Fits
  have happart : validRange r.info.base r.info.size = true → ∀ x ∈ m.regions,
      (r.overlaps x = false ↔ r.endAddress ≤ x.info.base.toNat ∨ x.endAddress ≤ r.info.base.toNat) :=
    fun hr x hx => Region.overlaps_eq_false hr (m.ranges x hx)
  rw [validRange_iff] at happart ⊢
  refine ⟨fun ⟨hsize, hend, h⟩ => ⟨⟨hsize, hend⟩, fun x hx => ?_⟩,
    fun ⟨hr, h⟩ => ⟨hr.1, hr.2, fun x hx => (happart hr x hx).mp (h x hx)⟩⟩
  exact (happart ⟨hsize, hend⟩ x hx).mpr (h x hx)

lemma RegionMap.addRegion_ok {m' : RegionMap} (h : m.addRegion r = .ok m') :
    r.Fits m.regions ∧ m'.regions ~ r :: m.regions := by
  unfold RegionMap.addRegion at h
  split at h
  · rename_i hr
    split at h
    · cases h
    rename_i ho
    cases h
    exact ⟨fits_iff.mpr ⟨hr, by simpa using ho⟩, perm_orderedInsert _ _ _⟩
  · cases h

lemma RegionMap.addRegion_error {e : MapError} (h : m.addRegion r = .error e) :
    ¬r.Fits m.regions := by
  rw [fits_iff]
  rintro ⟨hr, ho⟩
  unfold RegionMap.addRegion at h
  rw [dif_pos hr] at h
  split at h
  · rename_i x hx
    rw [find?_eq_some_iff_append] at hx
    obtain ⟨hover, before, after, hsplit, -⟩ := hx
    rw [ho x (by simp [hsplit])] at hover
    cases hover
  · cases h

end Fil.Mem
