-- Code in memory. The bus counts the stores into executable regions, so one
-- who keeps decoded instructions can tell from the count alone that the code
-- is as it was.
import Fil.BusEffects

open ByteLanes

namespace Fil.Mem

/-- An address whose byte can be fetched as code. -/
def RegionMap.Code (m : RegionMap) (address : BitVec 32) : Prop :=
  ∃ r, m.find address = some r ∧ r.backed = true ∧ r.info.executable = true

namespace MemoryBus

variable {δ : Type} {b b' : MemoryBus δ} {a : BitVec 32}

/-! ## Stores inside one region -/

/-- Bytes were stored inside a region, and nowhere else; without a region, no byte
of a mapped address. -/
structure StoresIn (r : Option Region) (b b' : MemoryBus δ) : Prop where
  map : b'.map = b.map
  generation : b'.executionGeneration = b.executionGeneration
  devices : b'.deviceState = b.deviceState
  bytes : ∀ x, b.map.find x ≠ r → b'.bytes x = b.bytes x

variable {r : Option Region}

lemma StoresIn.trans {a b c : MemoryBus δ} (h1 : StoresIn r a b)
    (h2 : StoresIn r b c) : StoresIn r a c := by
  refine ⟨h2.map.trans h1.map, h2.generation.trans h1.generation, h2.devices.trans h1.devices,
    fun x hx => ?_⟩
  rw [h2.bytes x (by rwa [h1.map]), h1.bytes x hx]

lemma StepIn.storesIn (h : StepIn r b b') : StoresIn r b b' := by
  cases h with
  | note h generation => exact ⟨h.map, generation, h.deviceState, fun _ _ => by rw [h.bytes]⟩
  | @store _ _ _ ha v external =>
    unfold storeByte
    split_ifs
    · exact ⟨rfl, rfl, rfl, fun _ _ => rfl⟩
    · refine ⟨rfl, rfl, rfl, fun x hx => Function.update_of_ne ?_ _ _⟩
      rintro rfl
      exact hx ha

lemma StepsIn.storesIn (h : StepsIn r b b') : StoresIn r b b' := by
  induction h with
  | refl => exact ⟨rfl, rfl, rfl, fun _ _ => rfl⟩
  | tail _ hlast ih => exact ih.trans hlast.storesIn

/-! ## Code -/

/-- All that an access does to code: the count of code changes does not fall,
and while it stands still the code is as it was. -/
structure CodeKept (b b' : MemoryBus δ) : Prop where
  map : b'.map = b.map
  generation : b.executionGeneration ≤ b'.executionGeneration
  code : b'.executionGeneration = b.executionGeneration →
    ∀ x, b.map.Code x → b'.bytes x = b.bytes x

structure BackedKept (b b' : MemoryBus δ) : Prop extends CodeKept b b' where
  devices : b'.deviceState = b.deviceState

lemma CodeKept.refl (b : MemoryBus δ) : CodeKept b b := ⟨rfl, le_rfl, fun _ _ _ => rfl⟩

lemma CodeKept.trans {a b c : MemoryBus δ} (h1 : CodeKept a b) (h2 : CodeKept b c) :
    CodeKept a c := by
  have hab := h1.generation
  have hbc := h2.generation
  refine ⟨h2.map.trans h1.map, hab.trans hbc, fun h x hx => ?_⟩
  rw [h2.code (by omega) x (by rwa [h1.map]), h1.code (by omega) x hx]

/-- A store that is noted: either it counts as a change of code, or it was
outside the code. -/
lemma StoresIn.noted {r : Region} (h : StoresIn (some r) b b') :
    BackedKept b (b'.noteExecutable r) := by
  have hgen := h.generation
  unfold noteExecutable
  split
  · refine ⟨⟨h.map, ?_, fun hsame => ?_⟩, h.devices⟩
    · dsimp only
      omega
    · dsimp only at hsame
      omega
  · rename_i hx
    refine ⟨⟨h.map, h.generation.ge, ?_⟩, h.devices⟩
    rintro - x ⟨r', hfind, -, hcode⟩
    refine h.bytes x ?_
    rw [hfind]
    rintro ⟨rfl⟩
    exact hx hcode

lemma BackedPath.kept (h : BackedPath b b') : BackedKept b b' := by
  cases h with
  | reads h =>
    have hreads := StepsIn.storesIn h
    refine ⟨⟨hreads.map, hreads.generation.ge, ?_⟩, hreads.devices⟩
    rintro - x ⟨r, hfind, -⟩
    exact hreads.bytes x (by simp [hfind])
  | writes _ h => exact (StepsIn.storesIn h).noted

lemma Path.codeKept (h : Path b b') : CodeKept b b' := by
  cases h with
  | backed h => exact h.kept.toCodeKept
  | readMmio =>
    exact (readMmio_reached ..).keeps (.refl b) fun _ _ => ⟨rfl, le_rfl, fun _ _ _ => rfl⟩
  | writeMmio =>
    exact (writeMmio_reached ..).keeps (.refl b) fun _ _ => ⟨rfl, le_rfl, fun _ _ _ => rfl⟩

/-! ## Fetching code -/

/-- A fast fetch takes bytes of code only, and leaves no note. -/
lemma tryFastRead_fetch (b : MemoryBus δ) (a pc : BitVec 32) :
    b.tryFastRead a .halfword ⟨.instructionFetch, pc⟩ =
      (b.fastReadRegion a 2 ⟨.instructionFetch, pc⟩).map fun _ => (littleEndian b.bytes a 2, b) := by
  unfold tryFastRead
  dsimp only [byteCount]
  rw [if_neg (by decide)]
  cases b.fastReadRegion a 2 ⟨.instructionFetch, pc⟩ <;> rfl

lemma code_of_fetchRegion {r : Region} {pc : BitVec 32} {width : Nat}
    (h : b.fastReadRegion a width ⟨.instructionFetch, pc⟩ = some r) :
    ∀ i, i < width → b.map.Code (a + BitVec.ofNat 32 i) := by
  obtain ⟨hfind, hbacked, -, hc⟩ := fastReadRegion_some h
  have hexecutable : r.info.executable = true := by
    unfold fastReadRegion at h
    rw [hfind] at h
    dsimp only at h
    split_ifs at h with hno
    simp_all
  exact fun i hi => ⟨r, find_range hfind hc i hi, hbacked, hexecutable⟩

lemma CodeKept.fetch (h : CodeKept b b')
    (hsame : b'.executionGeneration = b.executionGeneration) (a pc : BitVec 32) :
    (b'.tryFastRead a .halfword ⟨.instructionFetch, pc⟩).map Prod.fst =
      (b.tryFastRead a .halfword ⟨.instructionFetch, pc⟩).map Prod.fst := by
  have hregion : b'.fastReadRegion a 2 ⟨.instructionFetch, pc⟩ =
      b.fastReadRegion a 2 ⟨.instructionFetch, pc⟩ := by
    unfold fastReadRegion
    rw [h.map]
  rw [tryFastRead_fetch, tryFastRead_fetch, hregion]
  cases hr : b.fastReadRegion a 2 ⟨.instructionFetch, pc⟩ with
  | none => rfl
  | some r =>
    exact congrArg some (littleEndian_congr fun i hi =>
      h.code hsame _ (code_of_fetchRegion hr i hi))

end MemoryBus

end Fil.Mem
