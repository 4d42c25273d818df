-- What one store leaves behind, in the journal and in the notes. A word store
-- counts the bytes that change by folding its lanes, and it does what four byte
-- stores do. A footprint marks the words that hold a byte of the range, so
-- ranges that follow each other can be marked together.
import Fil.BusView
import Mathlib.Data.List.Induction

open ByteLanes List
open BitVec (eq_of_getLsbD_eq getLsbD_and ofNat)

namespace Fil.Mem

namespace MemoryBus

variable {δ : Type}

/-! ## Counting the bytes that change -/

/-- A word with one flag in the low bit of each byte. -/
def laneFlags (f : Nat → Bool) : BitVec 32 :=
  BitVec.ofNat 32 ((f 0).toNat + (f 1).toNat * 2 ^ 8 + (f 2).toNat * 2 ^ 16 + (f 3).toNat * 2 ^ 24)

lemma getLsbD_laneFlags (f : Nat → Bool) {k : Nat} (hk : k < 32) :
    (laneFlags f).getLsbD k = (decide (k % 8 = 0) && f (k / 8)) := by
  have table : ∀ f0 f1 f2 f3 : Bool, ∀ k < 32,
      (ofNat 32 (f0.toNat + f1.toNat * 2 ^ 8 + f2.toNat * 2 ^ 16 + f3.toNat * 2 ^ 24)).getLsbD k =
        (decide (k % 8 = 0) && [f0, f1, f2, f3].getD (k / 8) false) := by decide
  have hlt : k / 8 < 4 := by omega
  rw [laneFlags, table _ _ _ _ k hk]
  congr 1
  match k / 8, hlt with
  | 0, _ => rfl
  | 1, _ => rfl
  | 2, _ => rfl
  | 3, _ => rfl

/-- The product sums the four flags up in its top byte. -/
lemma laneFlags_sum (f : Nat → Bool) :
    ((laneFlags f * 0x01010101) >>> 24).toNat = (range 4).countP f := by
  have table : ∀ f0 f1 f2 f3 : Bool,
      ((ofNat 32 (f0.toNat + f1.toNat * 2 ^ 8 + f2.toNat * 2 ^ 16 + f3.toNat * 2 ^ 24)
        * 0x01010101) >>> 24).toNat = f0.toNat + f1.toNat + f2.toNat + f3.toNat := by decide
  rw [laneFlags, table]
  simp only [range, range.loop, countP_cons, countP_nil]
  cases f 0 <;> cases f 1 <;> cases f 2 <;> cases f 3 <;> rfl

lemma byteAt_xor (x y : BitVec 32) (i : Nat) : byteAt
    (x ^^^ y) i = byteAt x i ^^^ byteAt y i := by
  simp [byteAt, BitVec.ushiftRight_xor_distrib]

lemma byteAt_ne_zero_iff (d : BitVec 32) (i : Nat) :
    decide (byteAt d i ≠ 0) =
      (d.getLsbD (i * 8) || d.getLsbD (i * 8 + 1) || d.getLsbD (i * 8 + 2) || d.getLsbD (i * 8 + 3)
        || d.getLsbD (i * 8 + 4) || d.getLsbD (i * 8 + 5) || d.getLsbD (i * 8 + 6)
        || d.getLsbD (i * 8 + 7)) := by
  have table : ∀ x : BitVec 8, decide (x ≠ 0) = (x.getLsbD 0 || x.getLsbD 1 || x.getLsbD 2 ||
      x.getLsbD 3 || x.getLsbD 4 || x.getLsbD 5 || x.getLsbD 6 || x.getLsbD 7) := by decide
  rw [table]
  simp only [getLsbD_byteAt, Nat.reduceLT, decide_true, Bool.true_and, Nat.add_zero]

lemma changedByteCount_eq (d : BitVec 32) :
    changedByteCount d = (range 4).countP fun i => byteAt d i ≠ 0 := by
  rw [← laneFlags_sum]
  unfold changedByteCount
  dsimp only
  congr 3
  apply eq_of_getLsbD_eq
  intro k hk
  rw [getLsbD_laneFlags _ hk, byteAt_ne_zero_iff]
  have hmask : (0x01010101 : BitVec 32).getLsbD k = decide (k % 8 = 0) := by
    revert k; decide
  rw [getLsbD_and, hmask, Bool.and_comm]
  by_cases h8 : k % 8 = 0
  · have hk8 : k / 8 * 8 = k := by omega
    rw [hk8]
    simp [← Nat.add_assoc]
    simp only [Nat.add_comm _ k]
    ac_rfl
  · simp [h8]

/-! ## One entry for every byte that changes -/

/-- The places of the bytes that a store changes, upwards. -/
def changedOffsets (b : MemoryBus δ) (a : BitVec 32) (n : Nat) {w : Nat} (v : BitVec w) : List Nat :=
  (List.range n).filter fun i => b.bytes (a + BitVec.ofNat 32 i) ≠ byteAt v i

/-- The bytes at some places are recorded, one after the other. -/
def recorded (b : MemoryBus δ) (a : BitVec 32) (external : Bool) (offsets : List Nat) : MemoryBus δ :=
  offsets.foldl (fun c i => c.recordMutation (a + BitVec.ofNat 32 i)
    (b.bytes (a + BitVec.ofNat 32 i)) external) b

variable (b : MemoryBus δ) (footprint : ReadFootprint) (a : BitVec 32)

lemma changedOffsets_succ (n : Nat) {w : Nat} (v : BitVec w) :
    b.changedOffsets a (n + 1) v = b.changedOffsets a n v ++
      if b.bytes (a + ofNat 32 n) = byteAt v n then [] else [n] := by
  unfold changedOffsets
  rw [range_succ, filter_append, filter_singleton]
  by_cases h : b.bytes (a + ofNat 32 n) = byteAt v n
  · simp [h]
  · simp [h]

lemma recorded_frame (external : Bool) (l : List Nat) :
    ∃ journal, b.recorded a external l =
        { b with
          mutationJournal := journal
          mutationSequence := b.mutationSequence + l.length } ∧
      (b.writeJournalTracking = false → journal = b.mutationJournal) := by
  induction l using List.reverseRecOn with
  | nil => exact ⟨_, rfl, fun _ => rfl⟩
  | append_singleton l i ih =>
    obtain ⟨journal, hl, hkept⟩ := ih
    unfold recorded at hl ⊢
    rw [foldl_concat, hl, length_append]
    refine ⟨_, rfl, fun ht => ?_⟩
    rw [if_neg (by simp [ht])]
    exact hkept ht

lemma storeBytes_recorded {w : Nat} (v : BitVec w) (external : Bool) {n : Nat} (hn : n ≤ 2 ^ 32) :
    b.storeBytes a n v external =
      { b.recorded a external (b.changedOffsets a n v) with
        bytes := copyBytes b.bytes a n v
        sideEffectGeneration := b.sideEffectGeneration + (b.changedOffsets a n v).length } := by
  induction n with
  | zero => rfl
  | succ n ih =>
    have hnext := copyBytes_next b.bytes a (n := n) (k := n) v (by omega) le_rfl
    rw [storeBytes_succ, ih (by omega), changedOffsets_succ, copyBytes_succ]
    unfold storeByte
    by_cases hsame : b.bytes (a + ofNat 32 n) = byteAt v n
    · rw [if_pos (hnext.trans hsame), if_pos hsame, append_nil, ← hsame, ← hnext,
        Function.update_eq_self]
    · rw [if_neg (fun h => hsame (hnext.symm.trans h)), if_neg hsame, length_append, recorded,
        recorded, foldl_concat]
      simp only [hnext]
      rfl

/-- The lanes of a word store are recorded as the bytes are. -/
lemma foldl_recordLane (v : BitVec 32) (external : Bool) (ht : b.writeJournalTracking = true)
    {n : Nat} (hn : n ≤ 4) :
    (range n).foldl (recordLane a (b.loadWord a) (b.loadWord a ^^^ v) external)
        (b.mutationJournal, b.mutationSequence) =
      ((b.recorded a external (b.changedOffsets a n v)).mutationJournal,
        (b.recorded a external (b.changedOffsets a n v)).mutationSequence) := by
  induction n with
  | zero => rfl
  | succ n ih =>
    have hlt : n < 4 := by omega
    have hlane := lane_zero_iff (b.loadWord a) v hlt
    have hbyte := byteAt_littleEndian b.bytes a hlt
    rw [← loadWord] at hbyte
    rw [hbyte] at hlane
    rw [range_succ, foldl_concat, ih (by omega), changedOffsets_succ]
    unfold recordLane
    by_cases hsame : b.bytes (a + ofNat 32 n) = byteAt v n
    · rw [if_pos (hlane.mpr hsame), if_pos hsame, append_nil]
    · obtain ⟨_, hframe, _⟩ := b.recorded_frame a external (b.changedOffsets a n v)
      rw [if_neg (fun h => hsame (hlane.mp h)), if_neg hsame, hbyte]
      unfold recorded at hframe ⊢
      rw [foldl_concat, hframe]
      simp [recordMutation, ht]

/-- A word store is four byte stores, whether or not the journal is on. -/
lemma storeBackedWord_bytes (v : BitVec 32) (external : Bool) :
    b.storeBackedWord a v external = b.storeBytes a 4 v external := by
  unfold storeBackedWord
  by_cases hsame : b.loadWord a = v
  · rw [if_pos hsame, storeBytes_same]
    intro i hi
    rw [← hsame, loadWord, byteAt_littleEndian b.bytes a hi]
  obtain ⟨journal, hframe, hkept⟩ := b.recorded_frame a external (b.changedOffsets a 4 v)
  rw [if_neg hsame, storeBytes_recorded b a v external (by decide)]
  dsimp only
  split
  · rename_i ht
    rw [foldl_recordLane b a v external ht le_rfl, hframe]
    simp
  · rename_i ht
    have hcount : changedByteCount (b.loadWord a ^^^ v) = (b.changedOffsets a 4 v).length := by
      rw [changedByteCount_eq, countP_eq_length_filter, changedOffsets]
      congr 1
      refine filter_congr fun i hi => ?_
      rw [byteAt_xor, loadWord, byteAt_littleEndian b.bytes a (mem_range.mp hi)]
      simp [BitVec.xor_eq_zero_iff]
    rw [hcount, hframe, hkept (by simpa using ht)]

/-- **A word store is booked byte by byte.** It does what four byte stores do: the word is in
memory, the bytes that change are recorded one by one and upwards, each with the value it had,
and both counters go on by their number. -/
theorem a_word_store_is_booked_byte_by_byte (b : MemoryBus δ) (a v : BitVec 32) (external : Bool) :
    let changed := (List.range 4).filter fun i => b.bytes (a + BitVec.ofNat 32 i) ≠ byteAt v i
    let after := b.storeBackedWord a v external
    after = b.storeBytes a 4 v external ∧ after.loadWord a = v ∧
      after.mutationSequence = b.mutationSequence + changed.length ∧
      after.sideEffectGeneration = b.sideEffectGeneration + changed.length ∧
      after.mutationJournal = (changed.foldl (fun c i => c.recordMutation
        (a + BitVec.ofNat 32 i) (b.bytes (a + BitVec.ofNat 32 i)) external) b).mutationJournal := by
  intro changed after
  obtain ⟨_, hframe, _⟩ := b.recorded_frame a external (b.changedOffsets a 4 v)
  have hafter : after = b.storeBytes a 4 v external := storeBackedWord_bytes b a v external
  refine ⟨hafter, ?_, ?_, ?_, ?_⟩
  · have hbyte : ∀ i < 4, byteAt (after.loadWord a) i = byteAt v i := by
      intro i hi
      rw [loadWord, byteAt_littleEndian _ a hi, hafter, storeBytes_recorded b a v external (by decide)]
      interval_cases i <;> simp [copyBytes, range_succ]
    rw [← word_of_bytes (after.loadWord a), ← word_of_bytes v, hbyte 0 (by decide),
      hbyte 1 (by decide), hbyte 2 (by decide), hbyte 3 (by decide)]
  all_goals rw [hafter, storeBytes_recorded b a v external (by decide)]
  · rw [hframe]
    rfl
  · rfl
  · rfl

/-! ## What the notes say -/

lemma Alike.eq {b b' : MemoryBus δ} (h : Alike b b')
    (hg : b.executionGeneration = b'.executionGeneration)
    (hf : b.readFootprint = b'.readFootprint) (hl : b.accessWatchLog = b'.accessWatchLog) :
    b = b' := by
  have hview : ∀ b : MemoryBus δ, b = { b.unwatched with
      executionGeneration := b.executionGeneration
      readFootprint := b.readFootprint
      accessWatchLog := b.accessWatchLog } := fun _ => rfl
  rw [hview b, hview b', hg, hf, hl, h]

/-- Stored bytes change the memory, its journal and the counts of both. -/
lemma storeBytes_frame (n : Nat) {w : Nat} (v : BitVec w) (external : Bool) :
    ∃ bytes mutationJournal mutationSequence sideEffectGeneration,
      b.storeBytes a n v external =
        { b with bytes, mutationJournal, mutationSequence, sideEffectGeneration } := by
  induction n with
  | zero => exact ⟨_, _, _, _, rfl⟩
  | succ n ih =>
    obtain ⟨bytes, journal, sequence, generation, h⟩ := ih
    rw [storeBytes_succ, h]
    unfold storeByte
    split
    · exact ⟨_, _, _, _, rfl⟩
    · exact ⟨_, _, _, _, rfl⟩

lemma storeWords_frame (external : Bool) (vs : List (BitVec 32)) (a : BitVec 32)
    (b : MemoryBus δ) :
    ∃ bytes mutationJournal mutationSequence sideEffectGeneration,
      b.storeWords external a vs =
        { b with bytes, mutationJournal, mutationSequence, sideEffectGeneration } := by
  induction vs generalizing a b with
  | nil => exact ⟨_, _, _, _, rfl⟩
  | cons v vs ih =>
    obtain ⟨_, _, _, _, h⟩ := storeBytes_frame b a 4 v external
    obtain ⟨_, _, _, _, h'⟩ := ih (a + 4) (b.storeBackedWord a v external)
    rw [storeWords, h', storeBackedWord_bytes, h]
    exact ⟨_, _, _, _, rfl⟩

/-- The bulk store, with its words stored upwards from the first address. -/
lemma tryFastWriteWords_eq (context : AccessContext) (a : BitVec 32) (vs : List (BitVec 32))
    (ram : Bool) :
    b.tryFastWriteWords a vs context ram =
      if vs.length = 0 || 0xffffffff < vs.length * 4 then none
      else (b.fastWriteRegion a (vs.length * 4) ram).map fun r =>
        ((b.addStoreFootprint a (vs.length * 4) context).storeWords (context.pc = 0) a
          vs).noteExecutable r := by
  unfold tryFastWriteWords
  dsimp only
  split
  · rfl
  cases b.fastWriteRegion a (vs.length * 4) ram with
  | none => rfl
  | some r =>
    simp [foldl_storeBackedWord]

def storeEntries (b : MemoryBus δ) (context : AccessContext) (a : BitVec 32) (width : Nat) :
    List AccessWatchEntry :=
  if context.pc ≠ 0 && b.accessWatchLogEnabled then [⟨a, min width 8, true⟩] else []

def storeFootprint (b : MemoryBus δ) (context : AccessContext) (a : BitVec 32) (width : Nat) :
    ReadFootprint :=
  if context.pc ≠ 0 && b.storeFootprintTracking then addSpanFootprint b.readFootprint a width
  else b.readFootprint

lemma addStoreFootprint_eq (context : AccessContext) (a : BitVec 32) {width : Nat}
    (hw : 0 < width) :
    b.addStoreFootprint a width context =
      { b with
        accessWatchLog := b.accessWatchLog ++ b.storeEntries context a width
        readFootprint := b.storeFootprint context a width } := by
  unfold addStoreFootprint
  by_cases hp : context.pc = 0#32
  · have he : b.storeEntries context a width = [] := if_neg (by simp [hp])
    have hf : b.storeFootprint context a width = b.readFootprint := if_neg (by simp [hp])
    rw [if_pos (by simp [hp]), he, hf, append_nil]
  rw [if_neg (by simp [hp]; omega)]
  by_cases hl : b.accessWatchLogEnabled = true
  · have he : b.storeEntries context a width = [⟨a, min width 8, true⟩] :=
      if_pos (by simp [hp, hl])
    rw [if_pos hl, he]
    by_cases ht : b.storeFootprintTracking = true
    · simp [logAccess, storeFootprint, hp, ht]
    · simp [logAccess, storeFootprint, ht]
  · have he : b.storeEntries context a width = [] := if_neg (by simp [hl])
    rw [if_neg hl, he, append_nil]
    by_cases ht : b.storeFootprintTracking = true
    · simp [storeFootprint, hp, ht]
    · have hf : b.storeFootprint context a width = b.readFootprint := if_neg (by simp [ht])
      rw [if_pos (by simp [ht]), hf]

lemma addAccessFootprint_off {b : MemoryBus δ} (width : Nat)
    (hl : b.accessWatchLogEnabled = false) (ht : b.readFootprintTracking = false) :
    b.addAccessFootprint a width = b := by
  simp [addAccessFootprint, hl, ht]

/-! ## Spans of a footprint -/

/-- The two bits that mark an address. -/
def footprintMark (address : BitVec 32) : BitVec 256 :=
  (1 <<< (footprintBitIndices address).1.toNat) ||| (1 <<< (footprintBitIndices address).2.toNat)

lemma addReadFootprint_eq :
    addReadFootprint footprint a = { footprint with words := footprint.words ||| footprintMark a } := by
  simp [addReadFootprint, footprintMark, BitVec.or_assoc]

lemma foldl_addReadFootprint (f : Nat → BitVec 32) (n : Nat) (footprint : ReadFootprint) :
    ∃ words, (range n).foldl (fun footprint i => addReadFootprint footprint (f i)) footprint =
        { footprint with words } ∧
      ∀ k, words.getLsbD k = true ↔
        footprint.words.getLsbD k = true ∨ ∃ i < n, (footprintMark (f i)).getLsbD k = true := by
  induction n with
  | zero => exact ⟨_, rfl, by simp⟩
  | succ n ih =>
    obtain ⟨words, hfold, hk⟩ := ih
    rw [range_succ, foldl_append, hfold, foldl_cons, foldl_nil,
      addReadFootprint_eq]
    refine ⟨_, rfl, fun k => ?_⟩
    rw [BitVec.getLsbD_or, Bool.or_eq_true, hk, or_assoc]
    refine or_congr_right ⟨?_, ?_⟩
    · rintro (⟨i, hi, h⟩ | h)
      · exact ⟨i, by omega, h⟩
      · exact ⟨n, by omega, h⟩
    · rintro ⟨i, hi, h⟩
      rcases Nat.lt_succ_iff_lt_or_eq.mp hi with hi | rfl
      · exact .inl ⟨i, hi, h⟩
      · exact .inr h

lemma addSpanFootprint_spec {width : Nat} (hw : 0 < width) :
    ∃ words, addSpanFootprint footprint a width = { footprint with words } ∧
      ∀ k, words.getLsbD k = true ↔ footprint.words.getLsbD k = true ∨
        ∃ j, a.toNat / 4 ≤ j ∧ 4 * j < a.toNat + width ∧
          (footprintMark (ofNat 32 (4 * j))).getLsbD k = true := by
  have hfirst : (a &&& ~~~3).toNat = a.toNat / 4 * 4 := by
    have h3 : a &&& ~~~(3 : BitVec 32) = (a >>> 2) <<< 2 := by
      apply eq_of_getLsbD_eq
      intro k hk
      have hmask : (~~~(3 : BitVec 32)).getLsbD k = decide (2 ≤ k) := by revert k; decide
      rw [getLsbD_and, hmask, BitVec.getLsbD_shiftLeft, BitVec.getLsbD_ushiftRight]
      rcases Nat.lt_or_ge k 2 with h | h
      · simp [h, Nat.not_le.mpr h]
      · simp [h, hk, Nat.not_lt.mpr h]
    rw [h3, BitVec.toNat_shiftLeft, BitVec.toNat_ushiftRight, Nat.shiftLeft_eq,
      Nat.shiftRight_eq_div_pow]
    have := a.isLt
    omega
  unfold addSpanFootprint
  rw [hfirst]
  obtain ⟨words, h, hk⟩ := foldl_addReadFootprint
    (fun i => ofNat 32 (a.toNat / 4 * 4 + 4 * i))
    ((a.toNat + width - a.toNat / 4 * 4 + 3) / 4) footprint
  refine ⟨words, h, fun k => (hk k).trans (or_congr_right ⟨?_, ?_⟩)⟩
  · rintro ⟨i, hi, hm⟩
    refine ⟨a.toNat / 4 + i, by omega, by omega, ?_⟩
    rwa [show 4 * (a.toNat / 4 + i) = a.toNat / 4 * 4 + 4 * i by omega]
  · rintro ⟨j, hj, hlt, hm⟩
    refine ⟨j - a.toNat / 4, by omega, ?_⟩
    rwa [show a.toNat / 4 * 4 + 4 * (j - a.toNat / 4) = 4 * j by omega]

/-- A span marks what its two parts mark. -/
lemma addSpanFootprint_append {m n : Nat} (hm : 0 < m) (hn : 0 < n) (hfit : a.toNat + m < 2 ^ 32) :
    addSpanFootprint (addSpanFootprint footprint a m) (a + ofNat 32 m) n =
      addSpanFootprint footprint a (m + n) := by
  obtain ⟨w1, h1, hk1⟩ := addSpanFootprint_spec footprint a hm
  obtain ⟨w2, h2, hk2⟩ := addSpanFootprint_spec { footprint with words := w1 }
    (a + ofNat 32 m) hn
  obtain ⟨w3, h3, hk3⟩ := addSpanFootprint_spec footprint a (show 0 < m + n by omega)
  have hnext : (a + ofNat 32 m).toNat = a.toNat + m := by
    rw [BitVec.toNat_add, BitVec.toNat_ofNat]
    omega
  rw [hnext] at hk2
  have hwords : w2 = w3 := by
    apply eq_of_getLsbD_eq
    intro k _
    rw [Bool.eq_iff_iff, hk2, hk1, hk3, or_assoc]
    refine or_congr_right ⟨?_, ?_⟩
    · rintro (⟨j, hj, hlt, hb⟩ | ⟨j, hj, hlt, hb⟩)
      · exact ⟨j, hj, by omega, hb⟩
      · exact ⟨j, by omega, by omega, hb⟩
    · rintro ⟨j, hj, hlt, hb⟩
      rcases Nat.lt_or_ge (4 * j) (a.toNat + m) with h | h
      · exact .inl ⟨j, hj, h, hb⟩
      · exact .inr ⟨j, by omega, by omega, hb⟩
  rw [h1, h2, h3, hwords]

end MemoryBus

end Fil.Mem
