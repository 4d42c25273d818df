-- The calls that fill the address map of a bus, and the router that shares a
-- window among its devices: its routes are ranges of the window, kept as the map
-- keeps its regions.
import Fil.MemoryBus
import Fil.Peripheral

open List

namespace Fil.Mem

lemma RegionMap.find_iff {m : RegionMap} {a : BitVec 32} {r : Region} :
    m.find a = some r ↔ r ∈ m.regions ∧ r.contains a = true :=
  ⟨find_some, fun h => find_of_contains h.1 h.2⟩

/-! ## The router -/

structure MmioRouter where
  windowSize : BitVec 32
  routes : RegionMap

namespace MmioRouter

def map (m : MmioRouter) (r : Region) : Except MapError MmioRouter :=
  if r.info.size = 0 ||
      !Stm32g4.rangeFits r.info.base.toNat r.info.size.toNat m.windowSize.toNat then
    .error ⟨"MMIO route '" ++ r.info.name ++ "' has an empty or out-of-window range"⟩
  else
    match m.routes.regions.find? fun x => r.overlaps x with
    | some x =>
      .error ⟨"MMIO route '" ++ r.info.name ++ "' overlaps route '" ++ x.info.name ++ "'"⟩
    | none => (m.routes.addRegion r).map fun routes => { m with routes }

/-- The route that takes a whole access: the last one that starts in time. -/
def find (m : MmioRouter) (offset : BitVec 32) (width : Nat) : Option Region :=
  (m.routes.regions.takeWhile fun r => r.info.base ≤ offset).getLast?.filter
    (·.containsRange offset width)

variable {m m' : MmioRouter} {r : Region}

lemma find_iff {offset : BitVec 32} {size : AccessSize} :
    m.find offset (byteCount size) = some r ↔
      r ∈ m.routes.regions ∧ r.containsRange offset (byteCount size) = true := by
  unfold find
  rw [Option.filter_eq_some_iff]
  refine and_congr_left fun hr => ⟨fun hlast => ?_, fun hmem => ?_⟩
  · exact (takeWhile_sublist _).subset (mem_of_getLast? hlast)
  · have hwidth := byteCount_pos size
    obtain ⟨hlow, hhigh⟩ := (r.containsRange_iff _ _).mp hr
    exact RegionMap.last_of_contains hmem ((r.contains_iff _).mpr ⟨hlow, by omega⟩)

/-- A route that the router can take: it ends in the window as well. -/
def Takes (m : MmioRouter) (r : Region) : Prop :=
  r.Fits m.routes.regions ∧ r.endAddress ≤ m.windowSize.toNat

lemma outside_iff : (r.info.size = 0 ||
    !Stm32g4.rangeFits r.info.base.toNat r.info.size.toNat m.windowSize.toNat) = true ↔
      ¬(0 < r.info.size.toNat ∧ r.endAddress ≤ m.windowSize.toNat) := by
  unfold Stm32g4.rangeFits Region.endAddress
  rw [Bool.or_eq_true, Bool.not_eq_true', Bool.and_eq_false_iff, decide_eq_true_eq,
    decide_eq_false_iff_not, decide_eq_false_iff_not]
  bv_omega

lemma map_ok (h : m.map r = .ok m') :
    m.Takes r ∧ m'.routes.regions ~ r :: m.routes.regions := by
  unfold map at h
  split at h
  · cases h
  rename_i hinside
  split at h
  · cases h
  cases hadd : m.routes.addRegion r with
  | error e =>
    rw [hadd] at h
    cases h
  | ok routes =>
    rw [hadd] at h
    cases h
    obtain ⟨hfits, hperm⟩ := RegionMap.addRegion_ok hadd
    exact ⟨⟨hfits, (not_not.mp (outside_iff.not.mp hinside)).2⟩, hperm⟩

lemma map_error {e : MapError} (h : m.map r = .error e) : ¬m.Takes r := by
  rintro ⟨hfits, hend⟩
  unfold map at h
  rw [if_neg (outside_iff.not.mpr (not_not.mpr ⟨hfits.1, hend⟩))] at h
  split at h
  · rename_i x hx
    have hover := (RegionMap.fits_iff.mp hfits).2 x (mem_of_find?_eq_some hx)
    have hfound := find?_some hx
    rw [hover] at hfound
    cases hfound
  cases hadd : m.routes.addRegion r with
  | error e => exact RegionMap.addRegion_error hadd hfits
  | ok routes =>
    rw [hadd] at h
    cases h

end MmioRouter

/-! ## Filling the map of a bus -/

/-- A call that maps something. RAM, ROM and flash are backed. -/
inductive Mapping
  | backed (info : MemoryRegionInfo) (fill : BitVec 8)
  | mirror (aliasBase targetBase size : BitVec 32) (name : String)
  | mmio (base size : BitVec 32) (device : Nat) (name : String)

variable {δ : Type}

def MemoryBus.mapping (b : MemoryBus δ) : Mapping → Except MapError (MemoryBus δ)
  | .backed info fill => b.mapBacked info fill
  | .mirror aliasBase targetBase size name => b.mapAlias aliasBase targetBase size name
  | .mmio base size device name => b.mapMmio base size device name

variable {b b' : MemoryBus δ}

/-- The region that a call asks for. An alias has the permissions of the region that holds
all it shows, and cannot be had without one. -/
def Mapping.region (map : RegionMap) : Mapping → Option Region
  | .backed info _ => some { info }
  | .mirror aliasBase targetBase size name =>
    ((map.find targetBase).filter (·.containsRange targetBase size.toNat)).map fun target =>
      { info := ⟨aliasBase, size, .alias, name, target.info.readable, target.info.writable,
          target.info.executable⟩
        aliasTarget := targetBase }
  | .mmio base size device name => some { info := ⟨base, size, .mmio, name, true, true, false⟩, device }

/-- A call that the bus can meet. -/
def Mapping.Met (map : RegionMap) (call : Mapping) (r : Region) : Prop :=
  call.region map = some r ∧ r.Fits map.regions

lemma MemoryBus.addRegion_ok {r : Region} (h : b.addRegion r = .ok b') :
    r.Fits b.map.regions ∧ b'.map.regions ~ r :: b.map.regions := by
  unfold MemoryBus.addRegion at h
  split at h
  · cases h
  rename_i hadd
  cases h
  exact RegionMap.addRegion_ok hadd

lemma MemoryBus.addRegion_error {r : Region} {e : MapError} (h : b.addRegion r = .error e) :
    ¬r.Fits b.map.regions := by
  unfold MemoryBus.addRegion at h
  split at h
  · rename_i hadd
    exact RegionMap.addRegion_error hadd
  · cases h

lemma MemoryBus.mapping_ok {call : Mapping} (h : b.mapping call = .ok b') :
    ∃ r, call.Met b.map r ∧ b'.map.regions ~ r :: b.map.regions := by
  cases call with
  | backed info fill =>
    unfold mapping mapBacked at h
    dsimp only at h
    split at h
    · cases h
    rename_i hadd
    cases h
    obtain ⟨hfits, hperm⟩ := addRegion_ok hadd
    exact ⟨_, ⟨rfl, hfits⟩, hperm⟩
  | mirror aliasBase targetBase size name =>
    unfold mapping mapAlias at h
    dsimp only at h
    split at h
    · cases h
    split at h
    · cases h
    rename_i target hfind
    split at h
    · cases h
    rename_i hinside
    obtain ⟨hfits, hperm⟩ := addRegion_ok h
    refine ⟨_, ⟨?_, hfits⟩, hperm⟩
    rw [Mapping.region, hfind, Option.filter_some, if_pos (by simpa using hinside)]
    rfl
  | mmio base size device name =>
    obtain ⟨hfits, hperm⟩ := addRegion_ok h
    exact ⟨_, ⟨rfl, hfits⟩, hperm⟩

lemma MemoryBus.mapping_error {call : Mapping} {e : MapError} (h : b.mapping call = .error e)
    (r : Region) : ¬call.Met b.map r := by
  rintro ⟨hasked, hfits⟩
  cases call with
  | backed info fill =>
    cases hasked
    unfold mapping mapBacked at h
    dsimp only at h
    split at h
    · rename_i hadd
      exact addRegion_error hadd hfits
    · cases h
  | mirror aliasBase targetBase size name =>
    unfold Mapping.region at hasked
    obtain ⟨target, htarget, rfl⟩ := Option.map_eq_some_iff.mp hasked
    obtain ⟨hfind, hinside⟩ := Option.filter_eq_some_iff.mp htarget
    -- the target lies in a mapped region, so it does not wrap
    have hend := RegionMap.end_le (RegionMap.find_some hfind).1
    have hvalid : validRange targetBase size = true :=
      (validRange_iff _ _).mpr ⟨hfits.1, ((target.containsRange_iff _ _).mp hinside).2.trans hend⟩
    unfold mapping mapAlias at h
    dsimp only at h
    rw [hvalid, hfind, Bool.not_true, if_neg Bool.false_ne_true] at h
    dsimp only at h
    rw [hinside, Bool.not_true, if_neg Bool.false_ne_true] at h
    exact addRegion_error h hfits
  | mmio base size device name =>
    cases hasked
    exact addRegion_error h hfits

/-- Calls one after the other. One that is refused leaves everything as it was. -/
def callAll {σ κ : Type} (call : σ → κ → Except MapError σ) : σ → List κ → σ :=
  List.foldl fun s c => (call s c).toOption.getD s

lemma callAll_refused {σ κ : Type} {call : σ → κ → Except MapError σ} {s : σ} {cs : List κ} {c : κ}
    {e : MapError} (h : call (callAll call s cs) c = .error e) :
    callAll call s (cs ++ [c]) = callAll call s cs := by
  unfold callAll at h ⊢
  rw [foldl_append, foldl_cons, foldl_nil, h]
  rfl

/-- **Every address is found in the one range that holds it.** However a bus and a
router are filled, their ranges stay in order and apart, up to the last address, and an
address is found in a range exactly if the range holds it. A call is accepted exactly if
the range it asks for fits, and then adds that range; a refused one changes nothing. -/
theorem every_address_is_found_in_its_range (b : MemoryBus δ) (calls : List Mapping)
    (m : MmioRouter) (routes : List Region) :
    (let b' := callAll MemoryBus.mapping b calls;
      (b'.map.regions.Pairwise fun x y => x.endAddress ≤ y.info.base.toNat) ∧
      (∀ x ∈ b'.map.regions, x.endAddress ≤ 2 ^ 32) ∧
      (∀ a r, b'.map.find a = some r ↔ r ∈ b'.map.regions ∧ r.contains a = true) ∧
      ∀ call, match b'.mapping call with
        | .ok after => ∃ r, call.Met b'.map r ∧ after.map.regions ~ r :: b'.map.regions
        | .error _ => (∀ r, ¬call.Met b'.map r) ∧
            callAll MemoryBus.mapping b (calls ++ [call]) = b') ∧
    let m' := callAll MmioRouter.map m routes;
    (m'.routes.regions.Pairwise fun x y => x.endAddress ≤ y.info.base.toNat) ∧
      (∀ offset size r, m'.find offset (byteCount size) = some r ↔
        r ∈ m'.routes.regions ∧ r.containsRange offset (byteCount size) = true) ∧
      ∀ r, match m'.map r with
        | .ok after => m'.Takes r ∧ after.routes.regions ~ r :: m'.routes.regions
        | .error _ => ¬m'.Takes r ∧ callAll MmioRouter.map m (routes ++ [r]) = m' := by
  refine ⟨⟨RegionMap.sorted _, fun _ => RegionMap.end_le, fun _ _ => RegionMap.find_iff,
    fun call => ?_⟩, RegionMap.sorted _, fun _ _ _ => MmioRouter.find_iff, fun r => ?_⟩
  · split
    · rename_i h
      exact MemoryBus.mapping_ok h
    · rename_i h
      exact ⟨MemoryBus.mapping_error h, callAll_refused h⟩
  · split
    · rename_i h
      exact MmioRouter.map_ok h
    · rename_i h
      exact ⟨MmioRouter.map_error h, callAll_refused h⟩

end Fil.Mem
