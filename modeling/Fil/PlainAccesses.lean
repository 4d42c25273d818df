-- Accesses by width and the fast paths of single accesses. Each finds its region
-- once more and moves the same bytes: whatever its width, an access is the general
-- access of that width, and the bulk read is told word by word.
import Fil.StoredWords

open ByteLanes
open BitVec (getLsbD_setWidth ofNat)

namespace Fil.Mem

namespace MemoryBus

variable {δ : Type}

/-! ## The general path of a backed access -/

variable {a : BitVec 32} {r : Region} {context : AccessContext} {b : MemoryBus δ}

lemma validRange_of_containsRange {m : RegionMap} {width : Nat}
    (hr : r ∈ m.regions) (hc : r.containsRange a width = true) (hw : 0 < width) (h8 : width ≤ 8) :
    validRange a (ofNat 32 width) = true := by
  have hend := RegionMap.end_le hr
  obtain ⟨-, hhigh⟩ := (r.containsRange_iff a width).mp hc
  rw [validRange_iff, BitVec.toNat_ofNat, Nat.mod_eq_of_lt (by omega)]
  omega

lemma kind_of_backed (h : r.backed = true) : r.info.kind ≠ .alias ∧ r.info.kind ≠ .mmio := by
  unfold Region.backed at h
  cases hk : r.info.kind <;> simp_all

variable {size : AccessSize} {ram : Bool}

/-- A read that the fast check would serve reaches the same bytes the general
way. -/
lemma read_of_fastReadRegion (h : b.fastReadRegion a (byteCount size) context = some r) :
    b.read a size context = b.readBacked a size context := by
  have hx : ¬(context.type = .instructionFetch && !r.info.executable) = true := by
    unfold fastReadRegion at h
    split at h
    · cases h
    split_ifs at h with hc
    cases h
    simp only [Bool.or_eq_true, not_or] at hc
    exact hc.2
  obtain ⟨hfind, hb, hreadable, hc⟩ := fastReadRegion_some h
  have hrange := validRange_of_containsRange (RegionMap.find_some hfind).1 hc (byteCount_pos size)
    (byteCount_le size)
  have hroute : b.readRoute a size context = .backed r := by
    obtain ⟨ha, hm⟩ := kind_of_backed hb
    unfold readRoute
    dsimp only
    rw [hrange, hfind]
    dsimp only
    rw [hc, hreadable, if_neg (by simp), if_neg (by simp), if_neg (by simp), if_neg hx]
    cases hk : r.info.kind <;> simp_all
  unfold read readFrom
  rw [hroute]

/-- A store that the fast check would serve reaches the same bytes the general
way. -/
lemma write_of_fastWriteRegion (v : BitVec 64)
    (h : b.fastWriteRegion a (byteCount size) ram = some r) :
    b.write a size v context = b.writeBacked r a size v context := by
  have hx : ¬(b.reversibleRamOnly && (r.info.kind ≠ .ram || r.info.executable)) = true := by
    unfold fastWriteRegion at h
    split at h
    · cases h
    split_ifs at h with hc
    cases h
    simp only [Bool.or_eq_true, not_or] at hc
    intro hr
    apply hc.2
    simp only [Bool.and_eq_true] at hr ⊢
    exact ⟨by simp [hr.1], hr.2⟩
  obtain ⟨hfind, hb, hwritable, hc⟩ := fastWriteRegion_some h
  have hrange := validRange_of_containsRange (RegionMap.find_some hfind).1 hc (byteCount_pos size)
    (byteCount_le size)
  have hroute : b.writeRoute a size context = .backed r := by
    obtain ⟨ha, hm⟩ := kind_of_backed hb
    unfold writeRoute
    dsimp only
    rw [hrange, hfind]
    dsimp only
    rw [hc, hwritable, if_neg (by simp), if_neg (by simp), if_neg ha, if_neg (by simp), if_neg hx,
      if_neg hm]
  unfold write writeFrom
  rw [hroute]

/-! ## One access -/

lemma byteAt_setWidth {w n i : Nat} (v : BitVec w) (h : i * 8 + 8 ≤ n) :
    byteAt (v.setWidth n) i = byteAt v i := by
  apply BitVec.eq_of_getLsbD_eq
  intro k hk
  have hn : i * 8 + k < n := by omega
  rw [getLsbD_byteAt, getLsbD_byteAt, getLsbD_setWidth, decide_eq_true hn, Bool.true_and]

lemma tryFastRead_read {b b' : MemoryBus δ} {v : BitVec 64}
    (h : b.tryFastRead a size context = some (v, b')) : b.read a size context = (.ok v, b') := by
  unfold tryFastRead at h
  dsimp only at h
  split at h
  · cases h
  split at h
  · cases h
  rename_i r hr
  rw [read_of_fastReadRegion hr]
  cases h
  rfl

lemma setWidth_littleEndian (bytes : BitVec 32 → BitVec 8) (a : BitVec 32) :
    ((littleEndian bytes a 4).setWidth 32).setWidth 64 = littleEndian bytes a 4 := by
  apply BitVec.eq_of_getLsbD_eq
  intro k hk
  rw [getLsbD_setWidth, getLsbD_setWidth,
    getLsbD_littleEndian bytes a (by omega : 4 ≤ 8)]
  by_cases h32 : k < 32
  · simp [hk, h32]
  · simp [h32]

section

variable {b b' : MemoryBus δ}

lemma tryFastRead32_read {a v : BitVec 32}
    (h : b.tryFastRead32 a context = some (v, b')) :
    b.read a .word context = (.ok (v.setWidth 64), b') := by
  unfold tryFastRead32 at h
  split at h
  · cases h
  rename_i r hr
  have hbacked : b.read a .word context = b.readBacked a .word context :=
    read_of_fastReadRegion hr
  rw [hbacked]
  cases h
  rw [loadWord, setWidth_littleEndian]
  rfl

lemma tryFastWrite_write {v : BitVec 64}
    (h : b.tryFastWrite a size v context ram = some b') :
    b.write a size v context = (.ok 0, b') := by
  unfold tryFastWrite at h
  dsimp only at h
  split at h
  · cases h
  split at h
  · cases h
  rename_i r hr
  rw [write_of_fastWriteRegion v hr]
  cases h
  unfold writeBacked
  split
  · rename_i h4
    rw [storeBackedWord_bytes, h4,
      storeBytes_congr _ _ _ _ fun i hi => byteAt_setWidth v (n := 32) (by omega)]
  · rfl

lemma tryFastWrite32_write {a v : BitVec 32}
    (h : b.tryFastWrite32 a v context ram = some b') :
    b.write a .word (v.setWidth 64) context = (.ok 0, b') := by
  unfold tryFastWrite32 at h
  split at h
  · cases h
  rename_i r hr
  have hbacked : b.write a .word (v.setWidth 64) context =
      b.writeBacked r a .word (v.setWidth 64) context := write_of_fastWriteRegion _ hr
  rw [hbacked]
  cases h
  unfold writeBacked
  rw [storeBackedWord_bytes,
    storeBytes_congr _ _ _ _ fun i (hi : i < 4) => (byteAt_setWidth v (n := 64) (by omega)).symm]
  rfl

end

/-! ## Accesses by width are general accesses -/

section

variable (b : MemoryBus δ)

section

variable (a : BitVec 32) (c : AccessContext)

lemma read8_eq :
    b.read8 a c = ((b.read a .byte c).1.map (·.setWidth 8), (b.read a .byte c).2) := by
  unfold read8
  split
  · rename_i h
    rw [tryFastRead_read h]
    rfl
  · rfl

lemma read16_eq :
    b.read16 a c = ((b.read a .halfword c).1.map (·.setWidth 16), (b.read a .halfword c).2) := by
  unfold read16
  split
  · rename_i h
    rw [tryFastRead_read h]
    rfl
  · rfl

lemma read32_eq :
    b.read32 a c = ((b.read a .word c).1.map (·.setWidth 32), (b.read a .word c).2) := by
  unfold read32
  split
  · rename_i v b' h
    rw [tryFastRead32_read h]
    simp [Except.map]
  · rfl

end

lemma write8_eq (a : BitVec 32) (v : BitVec 8) (c : AccessContext) :
    b.write8 a v c = b.write a .byte (v.setWidth 64) c := by
  unfold write8
  split
  · rename_i h
    rw [tryFastWrite_write h]
  · rfl

lemma write16_eq (a : BitVec 32) (v : BitVec 16) (c : AccessContext) :
    b.write16 a v c = b.write a .halfword (v.setWidth 64) c := by
  unfold write16
  split
  · rename_i h
    rw [tryFastWrite_write h]
  · rfl

lemma write32_eq (a v : BitVec 32) (c : AccessContext) :
    b.write32 a v c = b.write a .word (v.setWidth 64) c := by
  unfold write32
  split
  · rename_i h
    rw [tryFastWrite32_write h]
  · rfl

end

lemma read16_blind (a : BitVec 32) (c : AccessContext) :
    Blind fun b : MemoryBus δ => b.read16 a c := by
  simp only [read16_eq]
  exact (read_blind a .halfword c).map _

/-! ## Reads of words in a row -/

def readNote (context : AccessContext) (b : MemoryBus δ) (a : BitVec 32) : MemoryBus δ :=
  if context.type = .dataRead && context.pc ≠ 0 then b.addAccessFootprint a 4 else b

variable (context : AccessContext)

lemma alike_readNote_self (b : MemoryBus δ) (a : BitVec 32) : Alike (readNote context b a) b :=
  alike_readNote b a 4 _

lemma next_word (a : BitVec 32) (w : Nat) :
    a + ofNat 32 ((w + 1) * 4) = a + 4 + ofNat 32 (w * 4) := by
  rw [Nat.succ_mul, Nat.add_comm, BitVec.ofNat_add, ← BitVec.add_assoc]
  rfl

section

variable (f : Nat → BitVec 32) (l : List Nat) (b : MemoryBus δ)

lemma foldl_readNote :
    (if (b.readFootprintTracking && (context.type = .dataRead && context.pc ≠ 0))
        || (b.accessWatchLogEnabled && (context.type = .dataRead && context.pc ≠ 0)) then
      l.foldl (fun b w => b.addAccessFootprint (f w) 4) b else b) =
      l.foldl (fun b w => readNote context b (f w)) b := by
  by_cases hdata : (context.type = .dataRead && context.pc ≠ 0) = true
  · simp only [readNote, hdata, Bool.and_true, if_true]
    split
    · rfl
    rename_i hoff
    simp only [Bool.or_eq_true, not_or, Bool.not_eq_true] at hoff
    induction l with
    | nil => rfl
    | cons w l ih => rw [List.foldl_cons, addAccessFootprint_off _ _ hoff.2 hoff.1, ← ih]
  · rw [Bool.not_eq_true] at hdata
    simp only [readNote, hdata, Bool.and_false, Bool.or_self, Bool.false_eq_true, if_false]
    induction l with
    | nil => rfl
    | cons w l ih => rw [List.foldl_cons, ← ih]

lemma alike_foldl_readNote :
    Alike (l.foldl (fun b w => readNote context b (f w)) b) b := by
  induction l generalizing b with
  | nil => exact Alike.refl b
  | cons w l ih => exact (ih _).trans (alike_readNote_self context b (f w))

end

lemma tryFastReadWords_eq (b : MemoryBus δ) (context : AccessContext) (a : BitVec 32)
    (count : Nat) :
    b.tryFastReadWords a count context =
      if count = 0 || 0xffffffff < count * 4 then none
      else (b.fastReadRegion a (count * 4) { context with type := .dataRead }).map fun _ =>
        ((List.range count).map fun w => b.loadWord (a + ofNat 32 (w * 4)),
          (List.range count).foldl
            (fun b w => readNote context b (a + ofNat 32 (w * 4))) b) := by
  unfold tryFastReadWords
  dsimp only
  split
  · rfl
  cases b.fastReadRegion a (count * 4) { context with type := .dataRead } with
  | none => rfl
  | some r =>
    have halike := alike_foldl_readNote context (fun w => a + ofNat 32 (w * 4))
      (List.range count) b
    rw [foldl_readNote]
    simp [loadWord, halike.bytes]

end MemoryBus

end Fil.Mem
