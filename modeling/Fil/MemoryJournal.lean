-- Checkpoints and rollback. A checkpoint can be restored exactly as long as
-- only checkpoints inside it were restored and the ring never ran more than
-- its length past it. Outside that, the check that is meant to refuse a
-- rollback lets bad ones through.
import Fil.MemoryBus
import Fil.UndoRing

open ByteLanes UndoRing List
open BitVec (ofNat)

namespace Fil.Mem

/-- What a rollback needs to know about the moment it goes back to. -/
structure SideEffectCheckpoint where
  mutationSequence : Nat
  mmioGeneration : Nat
  journalGeneration : Nat
  deriving DecidableEq

namespace MemoryBus

variable {δ : Type}

def sideEffectCheckpoint (b : MemoryBus δ) : SideEffectCheckpoint :=
  ⟨b.mutationSequence, b.mmioGeneration, b.journalGeneration⟩

def canRestoreSideEffects (b : MemoryBus δ) (checkpoint : SideEffectCheckpoint) : Bool :=
  if checkpoint.mmioGeneration ≠ b.mmioGeneration
    || checkpoint.journalGeneration ≠ b.journalGeneration
    || b.mutationSequence < checkpoint.mutationSequence then false
  else if checkpoint.mutationSequence = b.mutationSequence then true
  else b.writeJournalTracking
    && b.mutationSequence - checkpoint.mutationSequence ≤ mutationJournalCapacity

/-- Puts the byte of one journal slot back and clears the slot. -/
def undoMutation (b : MemoryBus δ) (slot : Nat) : MemoryBus δ :=
  let mutation := b.mutationJournal slot
  { b with
    bytes := Function.update b.bytes mutation.address mutation.oldValue
    mutationJournal := Function.update b.mutationJournal slot {} }

/-- Takes back the `n` newest writes above number `low`, newest first. It stops
with `false` at an entry that no backed region holds. -/
def restoreLoop (low : Nat) : Nat → MemoryBus δ → Bool → Bool × MemoryBus δ × Bool
  | 0, b, executableChanged => (true, b, executableChanged)
  | n + 1, b, executableChanged =>
    let slot := (low + n) % mutationJournalCapacity
    match b.map.find (b.mutationJournal slot).address with
    | none => (false, b, executableChanged)
    | some region =>
      if !region.backed then (false, b, executableChanged)
      else restoreLoop low n (b.undoMutation slot) (executableChanged || region.info.executable)

def restoreSideEffects (b : MemoryBus δ) (checkpoint : SideEffectCheckpoint) :
    Bool × MemoryBus δ :=
  if !b.canRestoreSideEffects checkpoint then (false, b)
  else
    match restoreLoop checkpoint.mutationSequence
      (b.mutationSequence - checkpoint.mutationSequence) b false with
    | (false, b, _) => (false, b)
    | (true, b, executableChanged) =>
      (true,
        { b with
          mutationSequence := checkpoint.mutationSequence
          sideEffectGeneration := b.sideEffectGeneration + 1
          executionGeneration :=
            if executableChanged then b.executionGeneration + 1 else b.executionGeneration
          restorationGeneration := b.restorationGeneration + 1 })

/-! ## The journal as an undo ring -/

/-- The backed bytes with their journal. -/
def log (b : MemoryBus δ) : Log (BitVec 32) (BitVec 8) where
  mem := b.bytes
  seq := b.mutationSequence
  slot := fun i => ⟨(b.mutationJournal i).address, (b.mutationJournal i).oldValue⟩

end MemoryBus

def RegionMap.Backed (m : RegionMap) (address : BitVec 32) : Prop :=
  ∃ r, m.find address = some r ∧ r.backed = true

namespace MemoryBus

variable {δ : Type}

/-- All that an access may do to backed memory: byte stores at backed
addresses, each with its journal entry. -/
structure Journaled (b b' : MemoryBus δ) : Prop where
  map : b'.map = b.map
  tracking : b'.writeJournalTracking = b.writeJournalTracking
  stores : b.writeJournalTracking = true →
    ∃ ws : List (BitVec 32 × BitVec 8), (∀ w ∈ ws, b.map.Backed w.1) ∧
      b'.log = b.log.writes mutationJournalCapacity ws

variable {w : Nat} (b : MemoryBus δ) (a : BitVec 32)

lemma Journaled.refl : Journaled b b :=
  ⟨rfl, rfl, fun _ => ⟨[], by simp, rfl⟩⟩

lemma Journaled.trans {a b c : MemoryBus δ} (h1 : Journaled a b) (h2 : Journaled b c) :
    Journaled a c := by
  refine ⟨h2.map.trans h1.map, h2.tracking.trans h1.tracking, fun ht => ?_⟩
  obtain ⟨us, hus, hb⟩ := h1.stores ht
  obtain ⟨ws, hws, hc⟩ := h2.stores (h1.tracking.trans ht)
  refine ⟨us ++ ws, ?_, by rw [hc, hb, Log.writes_append]⟩
  intro w hw
  rcases mem_append.mp hw with hw | hw
  · exact hus w hw
  · exact h1.map ▸ hws w hw

lemma Journaled.of_log_eq {b b' : MemoryBus δ} (hm : b'.map = b.map)
    (ht : b'.writeJournalTracking = b.writeJournalTracking) (hl : b'.log = b.log) :
    Journaled b b' :=
  ⟨hm, ht, fun _ => ⟨[], by simp, hl⟩⟩

/-! ## Word stores are byte stores -/

lemma copyBytes_succ (bytes : BitVec 32 → BitVec 8) (a : BitVec 32) (n : Nat) (v : BitVec w) :
    copyBytes bytes a (n + 1) v =
      Function.update (copyBytes bytes a n v) (a + ofNat 32 n) (byteAt v n) := by
  simp [copyBytes, range_succ]

lemma storeBytes_succ (n : Nat) (v : BitVec w) (external : Bool) :
    b.storeBytes a (n + 1) v external =
      (b.storeBytes a n v external).storeByte (a + ofNat 32 n) (byteAt v n) external := by
  simp [storeBytes, range_succ]

lemma copyBytes_next (bytes : BitVec 32 → BitVec 8) (a : BitVec 32) {n k : Nat} (v : BitVec w)
    (hk : k < 2 ^ 32) (hn : n ≤ k) :
    copyBytes bytes a n v (a + ofNat 32 k) = bytes (a + ofNat 32 k) := by
  induction n with
  | zero => rfl
  | succ n ih =>
    rw [copyBytes_succ, Function.update_of_ne, ih (by omega)]
    intro h
    have := add_ofNat_inj a hk (by omega) h
    omega

lemma storeBytes_same (n : Nat) (v : BitVec w) (external : Bool)
    (h : ∀ i, i < n → b.bytes (a + ofNat 32 i) = byteAt v i) :
    b.storeBytes a n v external = b := by
  induction n with
  | zero => rfl
  | succ n ih =>
    rw [storeBytes_succ, ih (fun i hi => h i (by omega))]
    exact if_pos (h n (by omega))

/-! ## Journal entries of a byte store -/

lemma log_storeByte (v : BitVec 8) (external : Bool) (ht : b.writeJournalTracking = true)
    (hne : b.bytes a ≠ v) :
    (b.storeByte a v external).log = b.log.write mutationJournalCapacity a v := by
  simp only [storeByte, if_neg hne, recordMutation, ht, if_true, log, Log.write]
  congr 1
  funext i
  by_cases hi : i = b.mutationSequence % mutationJournalCapacity
  · subst hi
    simp
  · simp [Function.update_of_ne hi]

lemma storeByte_journaled {b : MemoryBus δ} {a : BitVec 32} (ha : b.map.Backed a) (v : BitVec 8)
    (external : Bool) : Journaled b (b.storeByte a v external) := by
  by_cases hsame : b.bytes a = v
  · rw [storeByte, if_pos hsame]
    exact Journaled.refl b
  refine ⟨by simp [storeByte, hsame, recordMutation], by simp [storeByte, hsame, recordMutation],
    fun ht => ⟨[(a, v)], by simpa using ha, ?_⟩⟩
  exact log_storeByte b a v external ht hsame

end MemoryBus

end Fil.Mem
