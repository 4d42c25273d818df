-- The length of a classic frame is the length of its bits on the wire: the frame
-- from its start to its checksum, stuffed, and the end of the frame.
import Fil.BitStreams
import Fil.CanFrame

open BitStreams Polynomial

namespace Fil.Devices

/-! ## The checksum -/

lemma length_appendBits {w : Nat} (value : BitVec w) (width : Nat) :
    (appendBits value width).length = width := by
  simp [appendBits]

lemma appendBits_crcStep (crc : BitVec 16) (bit : Bool) :
    appendBits (crcStep crc bit) 15 =
      divide (appendBits classicCrcPolynomial 15) (appendBits crc 15) bit := by
  unfold crcStep divide
  cases bit <;> cases h : crc[14] <;>
    simp [appendBits, List.range_succ, h, classicCrcPolynomial, classicCrcMask]

lemma appendBits_crc (bits : List Bool) (crc : BitVec 16) :
    appendBits (bits.foldl crcStep crc) 15 =
      bits.foldl (divide (appendBits classicCrcPolynomial 15)) (appendBits crc 15) := by
  induction bits generalizing crc with
  | nil => rfl
  | cons bit bits ih => rw [List.foldl_cons, ih, appendBits_crcStep, List.foldl_cons]

/-- The generator of the checksum. -/
noncomputable def crcGenerator : (ZMod 2)[X] :=
  X ^ 15 + X ^ 14 + X ^ 10 + X ^ 8 + X ^ 7 + X ^ 4 + X ^ 3 + 1

lemma crcGenerator_eq :
    crcGenerator = X ^ 15 + polynomial (appendBits classicCrcPolynomial 15) := by
  simp [crcGenerator, appendBits, List.range_succ, classicCrcPolynomial, polynomial, coefficient]
  ring

/-- Bits with their checksum leave no remainder. -/
lemma dvd_checked (bits : List Bool) :
    crcGenerator ∣ polynomial (bits ++ appendBits (bits.foldl crcStep 0) 15) := by
  have hdvd := dvd_remainder (by decide : appendBits classicCrcPolynomial 15 ≠ []) bits
    (rfl : (appendBits (0 : BitVec 16) 15).length = _)
  have hzero : polynomial (appendBits (0 : BitVec 16) 15) = 0 := by
    simp [appendBits, List.range_succ, polynomial, coefficient]
  rw [hzero, zero_mul, zero_add, ← appendBits_crc, length_appendBits, ← crcGenerator_eq] at hdvd
  rwa [polynomial_append, length_appendBits]

/-! ## The bits on the wire -/

/-- The delimiters, the acknowledge slot and the end of a frame, as its sender has
them. -/
def trailer : List Bool := List.replicate 10 true

lemma length_stuffAfter (last : Bool) (run : Nat) (bits : List Bool) :
    (stuffAfter 5 last run bits).length = bits.length + stuffBits last run bits := by
  induction bits generalizing last run with
  | nil => rfl
  | cons bit bits ih =>
    unfold stuffAfter stuffBits
    dsimp only
    generalize (if bit = last then run + 1 else 1) = run
    split
    · simp only [List.length_cons, ih]
      omega
    · simp only [List.length_cons, ih]
      omega

lemma length_stuff (first : Bool) (bits : List Bool) :
    (stuff 5 (first :: bits)).length = (first :: bits).length + stuffBits first 1 bits := by
  simp only [stuff, List.length_cons, length_stuffAfter]
  omega

structure OnTheWire (frame : CanFrame) (crc : List Bool) : Prop where
  width : crc.length = 15
  remainder : crcGenerator ∣ polynomial (headerAndPayload frame ++ crc)
  taken : classicCanStuffedFrameBits frame =
    .ok (stuff 5 (headerAndPayload frame ++ crc) ++ trailer).length
  recovered : destuff 5 (stuff 5 (headerAndPayload frame ++ crc)) = headerAndPayload frame ++ crc

/-- The length of every valid classic frame is that of its bits, its checksum and its
stuff bits on the wire. -/
theorem classic_frame_length_is_exact {frame : CanFrame} (hvalid : validate frame = .ok ())
    (hclassic : frame.fd = false) : ∃ crc, OnTheWire frame crc := by
  refine ⟨appendBits ((headerAndPayload frame).foldl crcStep 0) 15, length_appendBits _ _,
    dvd_checked _, ?_, destuff_stuff (by decide) _⟩
  unfold classicCanStuffedFrameBits
  rw [hvalid, hclassic, List.length_append]
  exact congrArg (fun n => Except.ok (n + 10)) (length_stuff false _).symm

/-- A standard frame with a byte of payload. -/
theorem a_byte_is_sent_exactly : ∃ crc, OnTheWire { id := 0x123, dlc := 1, data := [0x55] } crc :=
  classic_frame_length_is_exact (by decide) rfl

end Fil.Devices
