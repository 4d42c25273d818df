-- What an access depends on. The bus notes reads, stores and code changes
-- for those who watch it, and no access looks at these notes: two buses that
-- differ in nothing else answer alike and stay alike.
import Fil.MemoryJournal

open ByteLanes
open BitVec (ofNat)

namespace Fil.Mem

namespace MemoryBus

variable {δ : Type}

/-- The bus without its notes: the footprint, the watch log and the count of
code changes. -/
def unwatched (b : MemoryBus δ) : MemoryBus δ :=
  { b with executionGeneration := 0, readFootprint := {}, accessWatchLog := [] }

/-- Two buses that differ in their notes only. -/
def Alike (b b' : MemoryBus δ) : Prop := b.unwatched = b'.unwatched

lemma Alike.refl (b : MemoryBus δ) : Alike b b := rfl

variable {b b' : MemoryBus δ}

lemma Alike.symm (h : Alike b b') : Alike b' b := Eq.symm h

lemma Alike.trans {a b c : MemoryBus δ} (h1 : Alike a b) (h2 : Alike b c) : Alike a c :=
  Eq.trans h1 h2

section

variable (h : Alike b b')
include h

/-- What does not depend on the notes is the same for both. -/
lemma Alike.congr {α : Type} (f : MemoryBus δ → α) (hf : ∀ b, f b.unwatched = f b) :
    f b = f b' := by
  rw [← hf b, ← hf b', h]

lemma Alike.bytes : b.bytes = b'.bytes :=
  h.congr MemoryBus.bytes fun _ => rfl

lemma Alike.map : b.map = b'.map :=
  h.congr MemoryBus.map fun _ => rfl

lemma Alike.deviceState : b.deviceState = b'.deviceState :=
  h.congr MemoryBus.deviceState fun _ => rfl

lemma Alike.mmioTrapping : b.mmioTrapping = b'.mmioTrapping :=
  h.congr MemoryBus.mmioTrapping fun _ => rfl

lemma Alike.fastReadRegion : b.fastReadRegion = b'.fastReadRegion :=
  h.congr MemoryBus.fastReadRegion fun _ => rfl

end

/-! ## The notes themselves -/

variable {r : Region} (region : Region) (b : MemoryBus δ) (a : BitVec 32) (size : AccessSize)
  (width : Nat) (v : BitVec 64) (context : AccessContext)

@[simp] lemma unwatched_addAccessFootprint :
    (b.addAccessFootprint a width).unwatched = b.unwatched := by
  unfold addAccessFootprint logAccess
  dsimp only
  split_ifs <;> rfl

@[simp] lemma unwatched_addStoreFootprint :
    (b.addStoreFootprint a width context).unwatched = b.unwatched := by
  unfold addStoreFootprint logAccess
  dsimp only
  split_ifs <;> rfl

@[simp] lemma unwatched_noteExecutable (region : Region) :
    (b.noteExecutable region).unwatched = b.unwatched := by
  unfold noteExecutable
  split <;> rfl

/-! ## Stores of backed bytes -/

lemma unwatched_storeByte (v : BitVec 8) (external : Bool) :
    (b.storeByte a v external).unwatched = b.unwatched.storeByte a v external := by
  unfold storeByte
  by_cases h : b.bytes a = v
  · rw [if_pos h, if_pos (show b.unwatched.bytes a = v from h)]
  · rw [if_neg h, if_neg (show ¬b.unwatched.bytes a = v from h)]
    rfl

lemma unwatched_storeBytes (n : Nat) {w : Nat} (v : BitVec w) (external : Bool) :
    (b.storeBytes a n v external).unwatched = b.unwatched.storeBytes a n v external := by
  induction n with
  | zero => rfl
  | succ n ih => rw [storeBytes_succ, storeBytes_succ, unwatched_storeByte, ih]

lemma unwatched_storeBackedWord (v : BitVec 32) (external : Bool) :
    (b.storeBackedWord a v external).unwatched = b.unwatched.storeBackedWord a v external := by
  have hload : b.unwatched.loadWord a = b.loadWord a := rfl
  unfold storeBackedWord
  rw [hload]
  by_cases h : b.loadWord a = v
  · rw [if_pos h, if_pos h]
  rw [if_neg h, if_neg h]
  split
  · rename_i ht
    rw [if_pos (show b.unwatched.writeJournalTracking = true from ht)]
    rfl
  · rename_i ht
    rw [if_neg (show ¬b.unwatched.writeJournalTracking = true from ht)]
    rfl

/-- Only the bytes that are stored matter, not the value they are taken from. -/
lemma storeBytes_congr (n : Nat) {w w' : Nat} {v : BitVec w} {v' : BitVec w'} (external : Bool)
    (h : ∀ i, i < n → byteAt v i = byteAt v' i) :
    b.storeBytes a n v external = b.storeBytes a n v' external := by
  induction n with
  | zero => rfl
  | succ n ih =>
    rw [storeBytes_succ, storeBytes_succ, ih (fun i hi => h i (by omega)), h n (by omega)]

/-! ## Accesses do not see the notes -/

/-- A function of the bus that answers alike buses alike. -/
def Blind {α : Type} (f : MemoryBus δ → α × MemoryBus δ) : Prop :=
  ∀ b, (f b).1 = (f b.unwatched).1 ∧ (f b).2.unwatched = (f b.unwatched).2.unwatched

lemma Blind.alike {α : Type} {f : MemoryBus δ → α × MemoryBus δ} (hf : Blind f)
    {b : MemoryBus δ} (h : Alike b b') :
    (f b).1 = (f b').1 ∧ Alike (f b).2 (f b').2 := by
  obtain ⟨h1, h2⟩ := hf b
  obtain ⟨h3, h4⟩ := hf b'
  rw [h] at h1 h2
  exact ⟨h1.trans h3.symm, h2.trans h4.symm⟩

lemma Blind.map {α β : Type} {f : MemoryBus δ → α × MemoryBus δ} (hf : Blind f) (g : α → β) :
    Blind fun b => (g (f b).1, (f b).2) :=
  fun b => ⟨congrArg g (hf b).1, (hf b).2⟩

lemma readMmio_blind : Blind fun b : MemoryBus δ => b.readMmio region a size context := by
  intro b
  have htrap : b.unwatched.mmioTrapped = b.mmioTrapped := rfl
  unfold readMmio logAccess
  dsimp only
  rw [htrap]
  split_ifs <;> exact ⟨rfl, rfl⟩

lemma writeMmio_blind : Blind fun b : MemoryBus δ => b.writeMmio region a size v context := by
  intro b
  have htrap : b.unwatched.mmioTrapped = b.mmioTrapped := rfl
  unfold writeMmio logAccess
  dsimp only
  rw [htrap]
  split_ifs <;> exact ⟨rfl, rfl⟩

lemma alike_readNote (data : Bool) :
    Alike (if data then b.addAccessFootprint a width else b) b := by
  split
  · exact unwatched_addAccessFootprint b a width
  · exact Alike.refl b

lemma readBacked_blind : Blind fun b : MemoryBus δ => b.readBacked a size context := by
  intro b
  unfold readBacked
  dsimp only
  rw [(alike_readNote b a (byteCount size) _).bytes,
    (alike_readNote b.unwatched a (byteCount size) _).bytes]
  exact ⟨rfl, (alike_readNote b _ _ _).trans (alike_readNote b.unwatched _ _ _).symm⟩

lemma writeBacked_blind : Blind fun b : MemoryBus δ => b.writeBacked region a size v context := by
  intro b
  simp only [writeBacked, unwatched_noteExecutable, unwatched_storeBytes,
    unwatched_addStoreFootprint]
  exact ⟨trivial, rfl⟩

section

variable (depth : Nat) (a : BitVec 32) (size : AccessSize)

lemma readFrom_blind (context : AccessContext) :
    Blind fun b : MemoryBus δ => readFrom depth b a size context := by
  intro b
  have hroute : b.unwatched.readRoute = b.readRoute := rfl
  dsimp only
  fun_induction readFrom depth b a size context with
  | case1 _ a _ hr | case2 a _ hr =>
    rw [readFrom, hroute, hr]
    exact ⟨rfl, rfl⟩
  | case3 a _ hr _ ih =>
    rw [readFrom.eq_def _ b.unwatched, hroute, hr]
    exact ih
  | case4 _ a region hr =>
    rw [readFrom, hroute, hr]
    exact readMmio_blind region a size context b
  | case5 _ a region hr =>
    rw [readFrom, hroute, hr]
    exact readBacked_blind a size context b

lemma writeFrom_blind (v : BitVec 64)
    (context : AccessContext) :
    Blind fun b : MemoryBus δ => writeFrom depth b a size v context := by
  intro b
  have hroute : b.unwatched.writeRoute = b.writeRoute := rfl
  dsimp only
  fun_induction writeFrom depth b a size v context with
  | case1 _ a _ hr | case2 a _ hr =>
    rw [writeFrom, hroute, hr]
    exact ⟨rfl, rfl⟩
  | case3 a _ hr _ ih =>
    rw [writeFrom.eq_def _ b.unwatched, hroute, hr]
    exact ih
  | case4 _ a region hr =>
    rw [writeFrom, hroute, hr]
    exact writeMmio_blind region a size v context b
  | case5 _ a region hr =>
    rw [writeFrom, hroute, hr]
    exact writeBacked_blind region a size v context b

end

lemma read_blind : Blind fun b : MemoryBus δ => b.read a size context :=
  readFrom_blind maximumAliasDepth a size context

lemma write_blind : Blind fun b : MemoryBus δ => b.write a size v context :=
  writeFrom_blind maximumAliasDepth a size v context

/-! ## Words in a row -/

/-- Words stored upwards from an address. -/
def storeWords (b : MemoryBus δ) (external : Bool) : BitVec 32 → List (BitVec 32) → MemoryBus δ
  | _, [] => b
  | a, v :: vs => storeWords (b.storeBackedWord a v external) external (a + 4) vs

section

variable (external : Bool) (vs : List (BitVec 32)) (a : BitVec 32)

lemma unwatched_storeWords (b : MemoryBus δ) :
    (b.storeWords external a vs).unwatched = b.unwatched.storeWords external a vs := by
  induction vs generalizing a b with
  | nil => rfl
  | cons v vs ih => rw [storeWords, storeWords, ih, unwatched_storeBackedWord]

lemma foldl_storeBackedWord (n : Nat)
    (b : MemoryBus δ) :
    (vs.zipIdx n).foldl
      (fun b x => b.storeBackedWord (a + ofNat 32 (x.2 * 4)) x.1 external) b =
      b.storeWords external (a + ofNat 32 (n * 4)) vs := by
  induction vs generalizing n b with
  | nil => rfl
  | cons v vs ih =>
    have hnext : a + ofNat 32 ((n + 1) * 4) = a + ofNat 32 (n * 4) + 4 := by
      rw [Nat.add_mul, BitVec.ofNat_add, ← BitVec.add_assoc]
      rfl
    rw [List.zipIdx_cons, List.foldl_cons, ih, storeWords, hnext]

end

section

variable {b : MemoryBus δ} {a : BitVec 32} {width i w : Nat}

lemma find_part (hfind : b.map.find a = some r) (hc : r.containsRange a width = true)
    (hi : i + w ≤ width) (hw : 0 < w) :
    b.map.find (a + ofNat 32 i) = some r ∧
      r.containsRange (a + ofNat 32 i) w = true := by
  obtain ⟨hmem, -⟩ := RegionMap.find_some hfind
  have hend := RegionMap.end_le hmem
  refine ⟨RegionMap.find_offset hmem hc (by omega), ?_⟩
  rw [Region.containsRange_iff] at hc ⊢
  rw [BitVec.toNat_add, BitVec.toNat_ofNat]
  omega

lemma fastReadRegion_part {context : AccessContext} (h : b.fastReadRegion a width context = some r)
    (hi : i + w ≤ width) (hw : 0 < w) : b.fastReadRegion (a + ofNat 32 i) w context = some r := by
  unfold fastReadRegion at h ⊢
  split at h
  · cases h
  rename_i q hq
  split_ifs at h with hc
  cases h
  simp only [Bool.or_eq_true, Bool.not_eq_true', not_or, Bool.not_eq_false] at hc
  obtain ⟨hfind, hpart⟩ := find_part hq hc.1.2 hi hw
  simp only [hfind, hc.1.1.1, hc.1.1.2, hpart, Bool.not_true, Bool.or_self, Bool.false_or]
  exact if_neg hc.2

lemma fastWriteRegion_part {ram : Bool}
    (h : b.fastWriteRegion a width ram = some r) (hi : i + w ≤ width) (hw : 0 < w) :
    b.fastWriteRegion (a + ofNat 32 i) w ram = some r := by
  unfold fastWriteRegion at h ⊢
  split at h
  · cases h
  rename_i q hq
  split_ifs at h with hc
  cases h
  simp only [Bool.or_eq_true, Bool.not_eq_true', not_or, Bool.not_eq_false] at hc
  obtain ⟨hfind, hpart⟩ := find_part hq hc.1.2 hi hw
  simp only [hfind, hc.1.1.1, hc.1.1.2, hpart, Bool.not_true, Bool.or_self, Bool.false_or]
  exact if_neg hc.2

end

end MemoryBus

end Fil.Mem
