-- Streams of bits on a serial line. The remainder of a division, sent behind its
-- bits, makes their polynomial a multiple of the generator. Stuffing breaks up long
-- runs of equal bits and can be undone.
import Mathlib.Algebra.CharP.Two
import Mathlib.Algebra.Field.ZMod
import Mathlib.Algebra.Polynomial.AlgebraMap
import Mathlib.Tactic.LinearCombination

open Polynomial List

namespace BitStreams

/-! ## Polynomials of bits -/

noncomputable def coefficient (bit : Bool) : (ZMod 2)[X] := if bit then 1 else 0

/-- The polynomial of some bits, the highest power first. -/
noncomputable def polynomial : List Bool → (ZMod 2)[X]
  | [] => 0
  | bit :: bits => coefficient bit * X ^ bits.length + polynomial bits

lemma coefficient_xor (a b : Bool) : coefficient (a ^^ b) = coefficient a + coefficient b := by
  cases a <;> cases b <;> simp [coefficient, CharTwo.add_self_eq_zero]

lemma polynomial_append (a b : List Bool) :
    polynomial (a ++ b) = polynomial a * X ^ b.length + polynomial b := by
  induction a with
  | nil => simp [polynomial]
  | cons bit bits ih =>
    simp only [cons_append, polynomial, length_append, ih, pow_add]
    ring

lemma degree_polynomial_lt (bits : List Bool) : (polynomial bits).degree < bits.length := by
  induction bits with
  | nil => simp [polynomial]
  | cons bit bits ih =>
    have hmore : (bits.length : WithBot ℕ) < ((bit :: bits).length : WithBot ℕ) := by
      exact_mod_cast Nat.lt_succ_self bits.length
    have htop : (coefficient bit * X ^ bits.length).degree ≤ (bits.length : WithBot ℕ) := by
      cases bit <;> simp [coefficient]
    exact (degree_add_le _ _).trans_lt (max_lt (htop.trans_lt hmore) (ih.trans hmore))

lemma polynomial_xor {a b : List Bool} (h : a.length = b.length) :
    polynomial (a.zipWith xor b) = polynomial a + polynomial b := by
  induction a generalizing b with
  | nil =>
    obtain rfl := length_eq_zero_iff.mp h.symm
    simp [polynomial]
  | cons x a ih =>
    cases b with
    | nil => cases h
    | cons y b =>
      have hlength : a.length = b.length := Nat.succ.inj h
      simp only [zipWith_cons_cons, polynomial, ih hlength, length_zipWith, hlength,
        min_self, coefficient_xor]
      ring

lemma polynomial_and (on : Bool) (bits : List Bool) :
    polynomial (bits.map (on && ·)) = coefficient on * polynomial bits := by
  induction bits with
  | nil => simp [polynomial]
  | cons bit bits ih =>
    rw [map_cons, polynomial, ih, length_map, polynomial, mul_add]
    cases on <;> simp [coefficient]

/-! ## Remainders -/

section Remainder

variable (generator : List Bool)

/-- The next remainder of a division by a generator, of which the highest power is
left out. -/
def divide (remainder : List Bool) (bit : Bool) : List Bool :=
  (remainder.tail ++ [false]).zipWith xor (generator.map ((bit ^^ remainder.headD false) && ·))

variable {generator : List Bool} {remainder : List Bool}

lemma length_divide (h : remainder.length = generator.length)
    (bit : Bool) (hg : generator ≠ []) :
    (divide generator remainder bit).length = generator.length := by
  have := List.length_pos_iff.mpr hg
  simp [divide]
  omega

/-- A step of the division takes a multiple of the generator away. -/
lemma polynomial_divide (h : remainder.length = generator.length)
    (hg : generator ≠ []) (bit : Bool) :
    polynomial (divide generator remainder bit) =
      polynomial remainder * X + coefficient bit * X ^ generator.length +
        coefficient (bit ^^ remainder.headD false) *
          (X ^ generator.length + polynomial generator) := by
  cases remainder with
  | nil => exact absurd (length_eq_zero_iff.mp h.symm) hg
  | cons top rest =>
    have hlength : (rest ++ [false]).length = generator.length := by simpa using h
    unfold divide
    rw [tail_cons, headD_cons, polynomial_xor (by simpa using hlength), polynomial_and,
      polynomial_append, coefficient_xor]
    simp only [polynomial, coefficient, Bool.false_eq_true, if_false, ← h, length_cons,
      length_nil]
    linear_combination (-(if top then 1 else 0) - (if bit then 1 else 0)) * X ^ (rest.length + 1) *
      CharTwo.two_eq_zero (R := (ZMod 2)[X])

/-- What a division leaves over. The induction is on the bits. -/
lemma dvd_remainder (hg : generator ≠ []) (bits : List Bool)
    (h : remainder.length = generator.length) :
    X ^ generator.length + polynomial generator ∣
      polynomial remainder * X ^ bits.length + polynomial bits * X ^ generator.length +
        polynomial (bits.foldl (divide generator) remainder) := by
  induction bits generalizing remainder with
  | nil => simp [polynomial, CharTwo.add_self_eq_zero]
  | cons bit bits ih =>
    obtain ⟨quotient, hquotient⟩ := ih (length_divide h bit hg)
    refine ⟨quotient + coefficient (bit ^^ remainder.headD false) * X ^ bits.length, ?_⟩
    rw [polynomial_divide h hg bit] at hquotient
    rw [foldl_cons, length_cons, polynomial]
    linear_combination hquotient - coefficient (bit ^^ remainder.headD false) * X ^ bits.length *
      (X ^ generator.length + polynomial generator) * CharTwo.two_eq_zero (R := (ZMod 2)[X])

end Remainder

/-! ## Stuffing -/

section Stuffing

variable (limit : Nat)

/-- The bits behind a run, with a bit of the other value after every run of the limit,
where the run of that bit begins. -/
def stuffAfter (last : Bool) (run : Nat) : List Bool → List Bool
  | [] => []
  | bit :: bits =>
    let run := if bit = last then run + 1 else 1
    if run = limit then bit :: (!bit) :: stuffAfter (!bit) 1 bits
    else bit :: stuffAfter bit run bits

def stuff : List Bool → List Bool
  | [] => []
  | bit :: bits => bit :: stuffAfter limit bit 1 bits

/-- The bits behind a run, without the one after every run of the limit. -/
def destuffAfter (last : Bool) (run : Nat) : List Bool → List Bool
  | [] => []
  | bit :: bits =>
    if run = limit then destuffAfter bit 1 bits
    else bit :: destuffAfter bit (if bit = last then run + 1 else 1) bits

def destuff : List Bool → List Bool
  | [] => []
  | bit :: bits => bit :: destuffAfter limit bit 1 bits

variable {limit : Nat} (hlimit : 1 ≠ limit)
include hlimit

lemma destuffAfter_stuffAfter (bits : List Bool) {last : Bool} {run : Nat} (hrun : run ≠ limit) :
    destuffAfter limit last run (stuffAfter limit last run bits) = bits := by
  induction bits generalizing last run with
  | nil => rfl
  | cons bit bits ih =>
    unfold stuffAfter
    by_cases hfull : (if bit = last then run + 1 else 1) = limit
    · rw [if_pos hfull, destuffAfter, if_neg hrun, hfull, destuffAfter, if_pos rfl, ih hlimit]
    · rw [if_neg hfull, destuffAfter, if_neg hrun, ih hfull]

lemma destuff_stuff (bits : List Bool) : destuff limit (stuff limit bits) = bits := by
  cases bits with
  | nil => rfl
  | cons bit bits => exact congrArg (bit :: ·) (destuffAfter_stuffAfter hlimit bits hlimit)

end Stuffing

end BitStreams
