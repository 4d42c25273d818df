-- The CRC unit. Whatever the width of its accesses, the data register holds the
-- remainder of the bits that were written to it, behind the initial value, divided by
-- the generator.
import Fil.ByteLanes
import Fil.FrameBits
import Fil.Peripheral

open BitStreams Polynomial List BitVec

namespace Fil.Stm32g4

open Fil.Devices (appendBits)

/-- The CRC unit: the remainder so far, the two registers it works with, and the bank. -/
structure Crc where
  crc : BitVec 32
  init : BitVec 32
  poly : BitVec 32
  registers : Nat → BitVec 32

namespace Crc

def shiftCrc (polynomial crc : BitVec 32) : BitVec 32 :=
  if crc &&& 0x80000000 ≠ 0 then (crc <<< 1) ^^^ polynomial else crc <<< 1

/-- The bytes of a word that is right-aligned, the highest first. -/
def updateCrc (crc polynomial dataWord : BitVec 32) (byteCount : Nat) : BitVec 32 :=
  (List.range byteCount).foldl (fun crc byteIndex =>
    let shift := (byteCount - 1 - byteIndex) * 8
    (List.range 8).foldl (fun crc _ => shiftCrc polynomial crc)
      (crc ^^^ ((dataWord >>> shift) &&& 0xff) <<< 24)) crc

variable (c : Crc)

def loadRegister (wordOffset : Nat) : BitVec 32 :=
  if wordOffset = 0x00 then c.crc
  else if wordOffset = 0x04 then c.registers 0x04 &&& 0xff
  else c.registers wordOffset

def storeRegister (wordOffset : Nat) (value writeMask : BitVec 32) : Crc :=
  if wordOffset = 0x00 then
    let byteCount := if writeMask = 0x000000ff then 1 else if writeMask = 0x0000ffff then 2 else 4
    { c with crc := updateCrc c.crc c.poly value byteCount }
  else if wordOffset = 0x04 then
    { c with registers := Function.update c.registers 0x04 (value &&& 0xff) }
  else if wordOffset = 0x08 then
    if value &&& writeMask &&& 1 ≠ 0 then { c with crc := c.init } else c
  else if wordOffset = 0x10 then { c with init := value, crc := value }
  else if wordOffset = 0x14 then { c with poly := value }
  else c

def store (s : Store) : Crc :=
  let merged := s.merged (c.registers s.word)
  { c with registers := Function.update c.registers s.word merged }.storeRegister s.word merged s.mask

def write (offset : Nat) (size : Mem.AccessSize) (value : BitVec 64) : Crc :=
  (stores 0x18 offset size value).foldl store c

/-! ## Bits -/

/-- The remainder after one more bit. -/
def crcStep (poly crc : BitVec 32) (bit : Bool) : BitVec 32 :=
  if bit ^^ crc.msb then (crc <<< 1) ^^^ poly else crc <<< 1

variable (poly crc ahead : BitVec 32)

lemma shiftCrc_xor :
    shiftCrc poly (crc ^^^ ahead) = crcStep poly crc ahead.msb ^^^ (ahead <<< 1) := by
  have htop : (crc ^^^ ahead) &&& 0x80000000 ≠ 0 ↔ (ahead.msb ^^ crc.msb) = true := by
    rw [show (0x80000000 : BitVec 32) = twoPow 32 31 from rfl,
      ByteLanes.and_twoPow_ne_zero _ (by decide), getLsbD_xor, msb_eq_getLsbD_last,
      msb_eq_getLsbD_last, Bool.xor_comm]
  unfold shiftCrc crcStep
  simp only [htop, shiftLeft_xor_distrib]
  split
  · rw [xor_assoc, xor_assoc, BitVec.xor_comm poly]
  · rfl

/-- Bits that wait at the top of the remainder are taken one by one. -/
lemma foldl_shiftCrc (n : Nat) :
    (range n).foldl (fun crc _ => shiftCrc poly crc) (crc ^^^ ahead) =
      ((range n).map fun k => (ahead <<< k).msb).foldl (crcStep poly) crc ^^^ (ahead <<< n) := by
  induction n with
  | zero => simp
  | succ n ih =>
    rw [range_succ, foldl_append, ih, map_append, foldl_append]
    simp [shiftCrc_xor, shiftLeft_add]

lemma foldl_byte (x : BitVec 32) :
    (range 8).foldl (fun crc _ => shiftCrc poly crc) (crc ^^^ (x &&& 0xff) <<< 24) =
      (appendBits x 8).foldl (crcStep poly) crc := by
  have hgone : (x &&& 0xff) <<< 24 <<< 8 = 0 := by
    rw [← shiftLeft_add]
    exact shiftLeft_eq_zero (by decide)
  have hbits : ((range 8).map fun k => ((x &&& 0xff) <<< 24 <<< k).msb) = appendBits x 8 := by
    simp [appendBits, range_succ, msb_eq_getLsbD_last]
  rw [foldl_shiftCrc, hgone, hbits]
  exact xor_zero

lemma appendBits_crcStep (bit : Bool) :
    appendBits (crcStep poly crc bit) 32 =
      divide (appendBits poly 32) (appendBits crc 32) bit := by
  have hhead : (appendBits crc 32).headD false = crc.msb := by
    simp [appendBits, range_succ, msb_eq_getLsbD_last]
  unfold crcStep divide
  rw [hhead]
  cases bit ^^ crc.msb <;> simp [appendBits, range_succ]

lemma updateCrc_eq (x : BitVec 32) (count : Nat) :
    updateCrc crc poly x count = ((range count).flatMap fun i =>
      appendBits (x >>> ((count - 1 - i) * 8)) 8).foldl (crcStep poly) crc := by
  unfold updateCrc
  simp only [foldl_byte, foldl_flatMap]

/-! ## Messages -/

/-- The bytes of a right-aligned access, the highest first. -/
def sentBytes (access : Mem.AccessSize × BitVec 64) : List (BitVec 8) :=
  let count := Mem.byteCount access.1
  (List.range count).map fun i => ByteLanes.byteAt access.2 (count - 1 - i)

def bitsOf (bytes : List (BitVec 8)) : List Bool := bytes.flatMap (appendBits · 8)

/-- Accesses to the data register. -/
def feed (accesses : List (Mem.AccessSize × BitVec 64)) : Crc :=
  accesses.foldl (fun c access => c.write 0x00 access.1 access.2) c

variable {c}

lemma write_eq {access : Mem.AccessSize × BitVec 64} (h : access.1 ≠ .doubleword) :
    (c.write 0x00 access.1 access.2).crc =
      (bitsOf (sentBytes access)).foldl (crcStep c.poly) c.crc ∧
    (c.write 0x00 access.1 access.2).poly = c.poly := by
  obtain ⟨size, value⟩ := access
  cases size
  case doubleword => exact absurd rfl h
  all_goals
    refine ⟨(updateCrc_eq _ _ _ _).trans (congrArg (foldl _ _) ?_), rfl⟩
    simp [bitsOf, sentBytes, appendBits, Mem.byteCount, ByteLanes.byteAt, range_succ,
      Store.merged, Lane.word, Lane.mask, Lane.bits, Lane.lowMask, Lane.shift]

lemma feed_eq {accesses : List (Mem.AccessSize × BitVec 64)}
    (h : ∀ access ∈ accesses, access.1 ≠ .doubleword) :
    (c.feed accesses).crc =
        (bitsOf (accesses.flatMap sentBytes)).foldl (crcStep c.poly) c.crc ∧
      (c.feed accesses).poly = c.poly := by
  induction accesses generalizing c with
  | nil => exact ⟨rfl, rfl⟩
  | cons access accesses ih =>
    obtain ⟨hcrc, hpoly⟩ := write_eq (c := c) (h access mem_cons_self)
    obtain ⟨hrest, hkept⟩ := ih (c := c.write 0x00 access.1 access.2)
      fun a ha => h a (mem_cons_of_mem _ ha)
    refine ⟨hrest.trans ?_, hkept.trans hpoly⟩
    rw [hcrc, hpoly]
    simp [bitsOf]

lemma appendBits_foldl (bits : List Bool) :
    appendBits (bits.foldl (crcStep poly) crc) 32 =
      bits.foldl (divide (appendBits poly 32)) (appendBits crc 32) := by
  induction bits generalizing crc with
  | nil => rfl
  | cons bit bits ih => rw [foldl_cons, ih, appendBits_crcStep, foldl_cons]

/-- Its own bits shift a remainder out. -/
lemma foldl_self :
    (appendBits crc 32).foldl (crcStep poly) crc = 0 := by
  have hbits : appendBits crc 32 = (range 32).map fun k => (crc <<< k).msb := by
    simp [appendBits, range_succ, msb_eq_getLsbD_last]
  have hgone : crc <<< 32 = 0#32 := shiftLeft_eq_zero (by decide)
  have hshift := foldl_shiftCrc poly crc crc 32
  rw [BitVec.xor_self, hgone, xor_zero, ← hbits] at hshift
  rw [← hshift]
  exact foldl_fixed' (fun _ => rfl) _

/-- **The data register holds the remainder of the bytes.** However the accesses cut a
message, the register is left with the remainder of the initial value and the message
behind it, accesses with the same bytes leave the same, and the register's own bytes,
written after the message, leave zero. -/
theorem the_crc_is_the_remainder_of_the_bytes (c : Crc)
    (accesses : List (Mem.AccessSize × BitVec 64))
    (hwidth : ∀ access ∈ accesses, access.1 ≠ .doubleword) :
    let message := accesses.flatMap sentBytes
    let after := c.feed accesses
    let remainder := polynomial (appendBits (after.loadRegister 0x00) 32)
    X ^ 32 + polynomial (appendBits c.poly 32) ∣
        polynomial (appendBits c.crc 32) * X ^ (bitsOf message).length +
          polynomial (bitsOf message) * X ^ 32 - remainder ∧
      remainder.degree < 32 ∧
      ∀ others, (∀ access ∈ others, access.1 ≠ .doubleword) →
        (others.flatMap sentBytes = message →
          (c.feed others).loadRegister 0x00 = after.loadRegister 0x00) ∧
        (bitsOf (others.flatMap sentBytes) = appendBits (after.loadRegister 0x00) 32 →
          (after.feed others).loadRegister 0x00 = 0) := by
  intro message after remainder
  obtain ⟨hcrc, hpoly⟩ := feed_eq (c := c) hwidth
  refine ⟨?_, ?_, fun others hothers => ⟨fun hsame => ?_, fun hown => ?_⟩⟩
  · have hgenerator : appendBits c.poly 32 ≠ [] := by simp [appendBits]
    have hlength : (appendBits c.crc 32).length = (appendBits c.poly 32).length := by
      simp [appendBits]
    have hdivides := dvd_remainder hgenerator (bitsOf message) hlength
    rw [← appendBits_foldl, Fil.Devices.length_appendBits, ← hcrc] at hdivides
    rw [CharTwo.sub_eq_add]
    exact hdivides
  · exact degree_polynomial_lt _
  · change (c.feed others).crc = after.crc
    rw [(feed_eq hothers).1, hsame, hcrc]
  · change (after.feed others).crc = 0
    rw [(feed_eq hothers).1, hown]
    exact foldl_self _ _

/-- A unit after a reset takes a word as it takes its bytes. -/
theorem a_word_is_its_bytes :
    let c : Crc := ⟨0xffffffff, 0xffffffff, 0x04c11db7, fun _ => 0⟩
    (c.feed [(.halfword, 0x3132), (.byte, 0x33), (.byte, 0x34)]).loadRegister 0x00 =
      (c.feed [(.word, 0x31323334)]).loadRegister 0x00 :=
  ((the_crc_is_the_remainder_of_the_bytes _ [(.word, 0x31323334)] (by decide)).2.2 _ (by decide)).1
    (by decide)

end Crc

end Fil.Stm32g4
