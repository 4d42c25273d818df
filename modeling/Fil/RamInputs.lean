-- The input check of a certificate. The bus walks the journal once and asks
-- an address set, kept from call to call, for the first change of each byte.
-- It answers what a scan of all earlier entries would, and a yes means that
-- every word of the footprint holds what it held at the checkpoint.
import Fil.OpenAddressing
import Fil.RestoredSince

open OpenAddressing UndoRing

namespace Fil.Mem

/-! ## The address set -/

/-- The table of seen addresses. No slot is stamped past the current pass. -/
structure WindowAddressSet where
  slots : Nat → Slot (BitVec 32) (BitVec 32)
  generation : BitVec 32
  stamped : ∀ i, (slots i).stamp ≤ generation

namespace WindowAddressSet

def size : Nat := 2 ^ 14

/-- The set of a new bus. -/
def fresh : WindowAddressSet where
  slots := fun _ => ⟨0, 0⟩
  generation := 0
  stamped := fun _ => BitVec.le_refl _

/-- Starts a pass. The slots of earlier passes count as empty; only when the
generation wraps are the stamps cleared. -/
def beginPass (set : WindowAddressSet) : WindowAddressSet :=
  if h : set.generation + 1 = 0 then
    { slots := fun i => { set.slots i with stamp := 0 }
      generation := 1
      stamped := fun _ => by bv_omega }
  else
    { slots := set.slots
      generation := set.generation + 1
      stamped := fun i => by
        have := set.stamped i
        bv_omega }

/-- Where the walk for an address starts. -/
def home (address : BitVec 32) : Nat := ((address * 2654435761) >>> (32 - 14)).toNat

/-- Whether the address was not in the set in this pass; it then is. The size is
a power of two, so the mask of the walk is a remainder. -/
def insertNew (set : WindowAddressSet) (address : BitVec 32) : Bool × WindowAddressSet :=
  let result := insertFrom size set.generation address size (home address) set.slots
  (result.1,
    { slots := result.2
      generation := set.generation
      stamped := fun i => by
        rcases insertFrom_slot size set.generation address size (home address) set.slots i with
          h | h <;> rw [h]
        · exact set.stamped i
        · exact BitVec.le_refl _ })

def Has (set : WindowAddressSet) (addresses : List (BitVec 32)) : Prop :=
  Holds size home set.generation set.slots addresses

lemma home_lt (address : BitVec 32) : home address < size := by
  unfold home size
  bv_omega

/-- A pass starts with the empty set, also when the generation wraps. -/
lemma beginPass_has (set : WindowAddressSet) : set.beginPass.Has [] := by
  unfold beginPass
  split_ifs with hwrap
  · exact holds_nil fun i => by simp
  refine holds_nil fun i => ?_
  have := set.stamped i
  dsimp only
  bv_omega

lemma insertNew_has {set : WindowAddressSet} {seen : List (BitVec 32)} (h : set.Has seen)
    (hroom : seen.length < size) (a : BitVec 32) :
    (a ∈ seen ∧ (set.insertNew a).1 = false ∧ (set.insertNew a).2.Has seen) ∨
      (a ∉ seen ∧ (set.insertNew a).1 = true ∧ (set.insertNew a).2.Has (a :: seen)) := by
  have houtcome := insertion_tells_new_keys (k := a) h hroom (home_lt a)
  unfold insertNew Has
  dsimp only
  cases hresult : insertFrom size set.generation a size (home a) set.slots with
  | mk new slots' =>
    rw [hresult] at houtcome
    cases houtcome with
    | known hin => exact .inl ⟨hin, rfl, h⟩
    | added hnew holds => exact .inr ⟨hnew, rfl, holds⟩

end WindowAddressSet

namespace MemoryBus

variable {δ : Type}

/-! ## The check -/

/-- The region of an entry. The one of the entry before is kept while it fits. -/
def entryRegion (b : MemoryBus δ) (last : Option Region) (address : BitVec 32) : Option Region :=
  match last with
  | none => b.map.find address
  | some region => if region.contains address then some region else b.map.find address

def windowPass (b : MemoryBus δ) (footprint : ReadFootprint) :
    List BackedMutation → Option Region → WindowAddressSet → Bool × WindowAddressSet
  | [], _, set => (true, set)
  | mutation :: rest, last, set =>
    match b.entryRegion last mutation.address with
    | none => (false, set)
    | some region =>
      if !region.backed then (false, set)
      else if !footprintContains footprint mutation.address then
        b.windowPass footprint rest (some region) set
      else
        match set.insertNew mutation.address with
        -- only the first entry of an address holds the value at the checkpoint
        | (false, set) => b.windowPass footprint rest (some region) set
        | (true, set) =>
          if b.bytes mutation.address ≠ mutation.oldValue then (false, set)
          else b.windowPass footprint rest (some region) set

/-- Whether the journal can be asked about the checkpoint at all. -/
def windowValid (b : MemoryBus δ) (checkpoint : SideEffectCheckpoint) (footprint : ReadFootprint) :
    Bool :=
  !(checkpoint.journalGeneration ≠ b.journalGeneration
    || !footprint.complete || !b.readFootprintTracking || !b.writeJournalTracking
    || b.mutationSequence < checkpoint.mutationSequence
    || mutationJournalCapacity < b.mutationSequence - checkpoint.mutationSequence)

/-- Whether the bytes under a footprint are those of the checkpoint. The set is
kept for the next call. -/
def ramInputsCompatibleSince (b : MemoryBus δ) (set : WindowAddressSet)
    (checkpoint : SideEffectCheckpoint) (footprint : ReadFootprint) : Bool × WindowAddressSet :=
  let low := checkpoint.mutationSequence
  if !b.windowValid checkpoint footprint then (false, set)
  else if low = b.mutationSequence then (true, set)
  else
    b.windowPass footprint ((List.range (b.mutationSequence - low)).map (b.mutationAfter low)) none
      set.beginPass

/-- Whether entry `i` of the window is backed and, if it is the first of an
address in the footprint, has been put back. -/
def firstChangeHolds (b : MemoryBus δ) (footprint : ReadFootprint) (low i : Nat) : Bool :=
  let mutation := b.mutationAfter low i
  match b.map.find mutation.address with
  | none => false
  | some region =>
    region.backed &&
      (!footprintContains footprint mutation.address
        || ((List.range i).any fun prior => (b.mutationAfter low prior).address = mutation.address)
        || b.bytes mutation.address = mutation.oldValue)

/-- The same check with a scan of all earlier entries for each entry. -/
def ramInputsUnchangedSince (b : MemoryBus δ) (checkpoint : SideEffectCheckpoint)
    (footprint : ReadFootprint) : Bool :=
  let low := checkpoint.mutationSequence
  b.windowValid checkpoint footprint &&
    (List.range (b.mutationSequence - low)).all (b.firstChangeHolds footprint low)

/-! ## One pass -/

lemma entryRegion_eq_find {b : MemoryBus δ} {last : Option Region}
    (hlast : ∀ r, last = some r → r ∈ b.map.regions) (a : BitVec 32) :
    b.entryRegion last a = b.map.find a := by
  cases last with
  | none => rfl
  | some region =>
    unfold entryRegion
    dsimp only
    split_ifs with hin
    · exact (RegionMap.find_of_contains (hlast region rfl) hin).symm
    · rfl

/-- In the pass before entry `i` the set holds the addresses of the footprint
that earlier entries changed. -/
structure Seen (b : MemoryBus δ) (footprint : ReadFootprint) (low i : Nat)
    (set : WindowAddressSet) (seen : List (BitVec 32)) : Prop where
  has : set.Has seen
  length : seen.length ≤ i
  mem : ∀ a, footprintContains footprint a = true →
    (a ∈ seen ↔ ∃ j < i, (b.mutationAfter low j).address = a)

variable {b : MemoryBus δ} {footprint : ReadFootprint} {low i : Nat} {set : WindowAddressSet}
  {seen : List (BitVec 32)}

section

variable (h : Seen b footprint low i set seen)
include h

/-- After an entry the set has its address too, if it is in the footprint. -/
lemma Seen.next {set' : WindowAddressSet} {seen' : List (BitVec 32)} (hset : set'.Has seen')
    (hlength : seen'.length ≤ seen.length + 1)
    (hmem : ∀ a, footprintContains footprint a = true →
      (a ∈ seen' ↔ a ∈ seen ∨ (b.mutationAfter low i).address = a)) :
    Seen b footprint low (i + 1) set' seen' where
  has := hset
  length := hlength.trans (Nat.succ_le_succ h.length)
  mem a ha := by rw [hmem a ha, h.mem a ha, Nat.exists_lt_succ_right]

lemma Seen.scan (hfoot : footprintContains footprint (b.mutationAfter low i).address = true) :
    ((List.range i).any fun prior =>
        (b.mutationAfter low prior).address = (b.mutationAfter low i).address) =
      decide ((b.mutationAfter low i).address ∈ seen) := by
  rw [Bool.eq_iff_iff, decide_eq_true_eq, h.mem _ hfoot]
  simp

end

lemma firstChangeHolds_of_find {region : Region}
    (hfind : b.map.find (b.mutationAfter low i).address = some region) :
    b.firstChangeHolds footprint low i =
      (region.backed &&
        (!footprintContains footprint (b.mutationAfter low i).address
          || ((List.range i).any fun prior =>
            (b.mutationAfter low prior).address = (b.mutationAfter low i).address)
          || b.bytes (b.mutationAfter low i).address = (b.mutationAfter low i).oldValue)) := by
  unfold firstChangeHolds
  dsimp only
  rw [hfind]

/-- The pass from entry `i` on says whether the first changes from there on
have been put back. -/
lemma windowPass_eq {last : Option Region} (n : Nat)
    (hlast : ∀ r, last = some r → r ∈ b.map.regions)
    (h : Seen b footprint low i set seen) (hroom : i + n ≤ mutationJournalCapacity) :
    (b.windowPass footprint ((List.range' i n).map (b.mutationAfter low)) last set).1 =
      (List.range' i n).all (b.firstChangeHolds footprint low) := by
  induction n generalizing i last set seen with
  | zero => rfl
  | succ n ih =>
    have hsmall : seen.length < WindowAddressSet.size := by
      have := h.length
      unfold mutationJournalCapacity at hroom
      unfold WindowAddressSet.size
      omega
    rw [List.range'_succ, List.map_cons, List.all_cons]
    unfold windowPass
    rw [entryRegion_eq_find hlast]
    cases hfind : b.map.find (b.mutationAfter low i).address with
    | none =>
      unfold firstChangeHolds
      simp [hfind]
    | some region =>
      rw [firstChangeHolds_of_find hfind]
      have hregion : ∀ r, some region = some r → r ∈ b.map.regions := by
        rintro r ⟨⟩
        exact (RegionMap.find_some hfind).1
      cases hbacked : region.backed with
      | false => simp [hbacked]
      | true =>
        cases hfoot : footprintContains footprint (b.mutationAfter low i).address with
        | false =>
          have hskip : Seen b footprint low (i + 1) set seen :=
            h.next h.has (Nat.le_succ _) fun a ha => by
              refine (or_iff_left ?_).symm
              rintro rfl
              simp [hfoot] at ha
          simpa [hbacked] using ih hregion hskip (by omega)
        | true =>
          rw [h.scan hfoot]
          have hinserted :=
            WindowAddressSet.insertNew_has h.has hsmall (b.mutationAfter low i).address
          rcases hinsert : set.insertNew (b.mutationAfter low i).address with ⟨new, set'⟩
          rw [hinsert] at hinserted
          obtain ⟨hin, rfl, hset⟩ | ⟨hin, rfl, hset⟩ := hinserted
          · have hagain := h.next hset (Nat.le_succ _) fun a _ =>
              (or_iff_left_of_imp fun heq => heq ▸ hin).symm
            simpa [hbacked, hin] using ih hregion hagain (by omega)
          · have hadd := h.next hset le_rfl fun a _ => by rw [List.mem_cons, or_comm, eq_comm]
            have hrest := ih hregion hadd (by omega)
            by_cases hbyte : b.bytes (b.mutationAfter low i).address =
                (b.mutationAfter low i).oldValue
            · simpa [hbacked, hin, hbyte] using hrest
            · simp [hbacked, hin, hbyte]

/-- The answer of the check is that of the scan, whatever set it is given. -/
lemma ramInputsCompatibleSince_eq (b : MemoryBus δ) (set : WindowAddressSet)
    (cp : SideEffectCheckpoint) (footprint : ReadFootprint) :
    (b.ramInputsCompatibleSince set cp footprint).1 = b.ramInputsUnchangedSince cp footprint := by
  unfold ramInputsCompatibleSince ramInputsUnchangedSince
  dsimp only
  cases hvalid : b.windowValid cp footprint with
  | false => rfl
  | true =>
    split_ifs with hnot hsame
    · simp at hnot
    · simp [hsame]
    rw [Bool.true_and, List.range_eq_range']
    have hroom : b.mutationSequence - cp.mutationSequence ≤ mutationJournalCapacity := by
      simp only [windowValid, Bool.not_eq_true', Bool.or_eq_false_iff, decide_eq_false_iff_not,
        not_lt] at hvalid
      exact hvalid.2
    have hstart : Seen b footprint cp.mutationSequence 0 set.beginPass [] :=
      ⟨set.beginPass_has, le_rfl, fun a _ => by simp⟩
    exact windowPass_eq _ (fun r hr => by cases hr) hstart (by omega)

/-! ## What a yes means -/

def Recorded (footprint : ReadFootprint) (word : BitVec 32) : Prop :=
  ∃ (earlier : ReadFootprint) (later : List (BitVec 32)),
    footprint = later.foldl addReadFootprint (addReadFootprint earlier word)

lemma getLsbD_mark (bit : BitVec 8) :
    ((1 <<< bit.toNat : Nat) : BitVec 256).getLsbD bit.toNat = true := by
  rw [BitVec.natCast_eq_ofNat, BitVec.getLsbD_ofNat, Nat.testBit_shiftLeft]
  simp
  omega

lemma footprintContains_addReadFootprint (footprint : ReadFootprint) {word a : BitVec 32}
    (h : a >>> 2 = word >>> 2) : footprintContains (addReadFootprint footprint word) a = true := by
  have hbits : footprintBitIndices a = footprintBitIndices word := by
    unfold footprintBitIndices
    rw [h]
  unfold footprintContains addReadFootprint
  rw [hbits]
  generalize footprintBitIndices word = bits
  simp only [BitVec.getLsbD_or, getLsbD_mark, Bool.or_true, Bool.true_or, Bool.and_self]

/-- A footprint never loses a word. -/
lemma footprintContains_grows {footprint : ReadFootprint} {a : BitVec 32} (word : BitVec 32)
    (h : footprintContains footprint a = true) :
    footprintContains (addReadFootprint footprint word) a = true := by
  unfold footprintContains addReadFootprint at *
  simp only [Bool.and_eq_true] at h
  simp [h.1, h.2]

lemma Recorded.contains {footprint : ReadFootprint} {word a : BitVec 32}
    (h : Recorded footprint word) (ha : a >>> 2 = word >>> 2) :
    footprintContains footprint a = true := by
  obtain ⟨earlier, later, rfl⟩ := h
  have hfirst := footprintContains_addReadFootprint earlier ha
  generalize addReadFootprint earlier word = footprint at hfirst ⊢
  induction later generalizing footprint with
  | nil => exact hfirst
  | cons w later ih => exact ih _ (footprintContains_grows w hfirst)

/-- When the journal knows every entry of the window, a yes means that the bytes
of the footprint are those of the checkpoint. -/
lemma byte_of_ramInputsUnchanged {cp : SideEffectCheckpoint} {past : Nat → BitVec 32 → BitVec 8}
    (hk : b.Knows past cp.mutationSequence) (h : b.ramInputsUnchangedSince cp footprint = true)
    {a : BitVec 32} (ha : footprintContains footprint a = true) :
    b.bytes a = past cp.mutationSequence a := by
  simp [ramInputsUnchangedSince] at h
  refine Intact.restored_at hk fun s hs hlt hkey hnone => ?_
  obtain ⟨i, rfl⟩ := Nat.exists_eq_add_of_le hs
  have hi : i < b.mutationSequence - cp.mutationSequence := by
    dsimp only [log] at hlt
    omega
  have hholds := h.2 i hi
  have hat : (b.mutationAfter cp.mutationSequence i).address = a := hkey
  have hfirst : ∀ j < i, (b.mutationAfter cp.mutationSequence j).address ≠ a :=
    fun j hj => hnone (cp.mutationSequence + j) (by omega) (by omega)
  unfold firstChangeHolds at hholds
  dsimp only at hholds
  rw [hat] at hholds
  split at hholds
  · cases hholds
  simp [ha] at hholds
  obtain ⟨-, ⟨j, hj, hsame⟩ | hbyte⟩ := hholds
  · exact absurd hsame (hfirst j hj)
  · exact hbyte

/-! ## The law -/

/-- No rollback of the history was accepted: the calls read, store and talk to
devices. -/
def OnlyWrites (b : MemoryBus δ) (ops : List BusOp) : Prop :=
  ∀ pre c, pre ++ [.restoreSideEffects c] <+: ops → (b.run pre).canRestoreSideEffects c = false

/-- One call of the check, on the bus as it stands then. -/
structure InputCheck (δ : Type) where
  bus : MemoryBus δ
  checkpoint : SideEffectCheckpoint
  footprint : ReadFootprint

def setAfter (checks : List (InputCheck δ)) : WindowAddressSet :=
  checks.foldl
    (fun set check => (check.bus.ramInputsCompatibleSince set check.checkpoint check.footprint).2)
    WindowAddressSet.fresh

lemma run_tracking (b : MemoryBus δ) (ops : List BusOp) :
    (b.run ops).writeJournalTracking = b.writeJournalTracking := by
  induction ops generalizing b with
  | nil => rfl
  | cons op ops ih =>
    refine (ih (b.apply op)).trans ?_
    by_cases hop : ∃ c, op = .restoreSideEffects c
    · obtain ⟨c, rfl⟩ := hop
      exact (restoreSideEffects_devices b c).2.2
    · exact (apply_does b op fun c hc => hop ⟨c, hc⟩).journaled.tracking

lemma OnlyWrites.staysAbove {ops : List BusOp} (h : b.OnlyWrites ops) : b.StaysAbove ops := by
  intro _ pre c hpre hcan
  rw [h pre c hpre] at hcan
  cases hcan

/-- **Compatible inputs.** Take a checkpoint, let any writes follow, and ask about
any footprint, with the set that any row of earlier checks has left. The answer
is that of the scan of all earlier entries, and a yes means that every byte of
every recorded word is what it was. -/
theorem compatible_inputs_hold_what_they_held (b : MemoryBus δ) (ops : List BusOp)
    (hwrites : b.OnlyWrites ops) (earlier : List (InputCheck δ)) (footprint : ReadFootprint) :
    (∀ cp, ((b.run ops).ramInputsCompatibleSince (setAfter earlier) cp footprint).1 =
        (b.run ops).ramInputsUnchangedSince cp footprint) ∧
      (((b.run ops).ramInputsCompatibleSince (setAfter earlier) b.sideEffectCheckpoint
          footprint).1 = true →
        ∀ word a : BitVec 32, Recorded footprint word → a >>> 2 = word >>> 2 →
          (b.run ops).bytes a = b.bytes a) := by
  refine ⟨fun cp => ramInputsCompatibleSince_eq _ _ cp footprint, fun hyes word a hword ha => ?_⟩
  rw [ramInputsCompatibleSince_eq] at hyes
  have hcontains := hword.contains ha
  have hvalid : (b.run ops).windowValid b.sideEffectCheckpoint footprint = true := by
    simp only [ramInputsUnchangedSince, Bool.and_eq_true] at hyes
    exact hyes.1
  simp [windowValid] at hvalid
  obtain ⟨⟨⟨-, htracking⟩, -⟩, hroom⟩ := hvalid
  have ht : b.writeJournalTracking = true := by
    rw [← run_tracking b ops]
    exact htracking
  obtain ⟨-, ⟨past, hk, hpast⟩ | hpassed⟩ := run_remembers ht hwrites.staysAbove
  · rw [← hpast]
    exact @byte_of_ramInputsUnchanged _ _ footprint b.sideEffectCheckpoint past hk hyes a hcontains
  · have hlow : b.sideEffectCheckpoint.mutationSequence = b.mutationSequence := rfl
    omega

/-- A byte is changed and put back: also the second check in a row says yes. -/
theorem a_byte_put_back_is_compatible :
    let ops := [BusOp.write8 sramBase 1 storeContext, BusOp.write8 sramBase 0 storeContext]
    let footprint := addReadFootprint { complete := true } sramBase
    let earlier := [InputCheck.mk (sram.run ops) sram.sideEffectCheckpoint footprint]
    sram.OnlyWrites ops ∧
      ((sram.run ops).ramInputsCompatibleSince (setAfter earlier) sram.sideEffectCheckpoint
        footprint).1 = true ∧
      ∀ word a : BitVec 32, Recorded footprint word → a >>> 2 = word >>> 2 →
        (sram.run ops).bytes a = sram.bytes a := by
  intro ops footprint earlier
  have hwrites : sram.OnlyWrites ops := by
    intro pre c hpre
    have hmem : BusOp.restoreSideEffects c ∈ ops := hpre.subset (by simp)
    simp [ops] at hmem
  have hyes : ((sram.run ops).ramInputsCompatibleSince (setAfter earlier)
      sram.sideEffectCheckpoint footprint).1 = true := by decide +kernel
  exact ⟨hwrites, hyes,
    (compatible_inputs_hold_what_they_held sram ops hwrites earlier footprint).2 hyes⟩

end MemoryBus
end Fil.Mem
