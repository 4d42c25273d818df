-- The flags, written two ways: one at a time as the executor does, or all at
-- once in their places as the handlers do. Both give the same status, and the
-- order of a register write and a flag write does not matter.
import Fil.FastHandlers

open BitVec

namespace Fil.Cpu

/-! ## Flags -/

variable (s : CpuState) (x v y : BitVec 32) (c : Bool)

lemma and_bit_ne_zero {k : Nat} (hk : k < 32) :
    (v &&& twoPow 32 k != 0) = v.getLsbD k := by
  rw [Bool.eq_iff_iff, bne_iff_ne]
  exact ByteLanes.and_twoPow_ne_zero v hk

lemma or_ite {p : Prop} [Decidable p] (m : BitVec 32) :
    (x ||| if p then m else 0) = if p then x ||| m else x := by
  split
  · rfl
  · exact or_zero

lemma or_and (k : BitVec 32) : (x ||| y) &&& k = x &&& k ||| y &&& k := by
  ext i hi
  simp [Bool.and_or_distrib_right]

lemma xpsrN_eq : xpsrN = twoPow 32 31 := by decide

lemma xpsrV_eq : xpsrV = twoPow 32 28 := by decide

/-- The sign bit of a value, in place. -/
lemma and_xpsrN : v &&& xpsrN = if v &&& 0x80000000 != 0 then xpsrN else 0 := by
  rw [show (0x80000000 : BitVec 32) = twoPow 32 31 by decide, and_bit_ne_zero v (by omega),
    xpsrN_eq, and_twoPow]
  rfl

open CpuState

lemma jitSetNz_eq : jitSetNz s v = s.setNz v := by
  unfold jitSetNz setNz
  rw [and_xpsrN, or_ite, or_ite]

lemma clear_carry (n z : BitVec 32) (hn : n &&& ~~~xpsrC = n) (hz : z &&& ~~~xpsrC = z) :
    (x &&& ~~~(xpsrN ||| xpsrZ) ||| n ||| z) &&& ~~~xpsrC =
      x &&& ~~~(xpsrN ||| xpsrZ ||| xpsrC) ||| n ||| z := by
  have hmask : ~~~(xpsrN ||| xpsrZ) &&& ~~~xpsrC = ~~~(xpsrN ||| xpsrZ ||| xpsrC) := by decide
  rw [or_and, or_and, hn, hz, BitVec.and_assoc, hmask]

lemma jitSetNzc_eq : jitSetNzc s v c = s.setNzc v c := by
  have hn : (v &&& xpsrN) &&& ~~~xpsrC = v &&& xpsrN := by
    rw [BitVec.and_assoc, show xpsrN &&& ~~~xpsrC = xpsrN by decide]
  have hz : (if v = 0 then xpsrZ else 0) &&& ~~~xpsrC = if v = 0 then xpsrZ else 0 := by
    split <;> decide
  unfold jitSetNzc setNzc
  rw [← jitSetNz_eq]
  unfold jitSetNz
  dsimp only
  rw [or_ite, clear_carry _ _ _ hn hz]

/-- The 64-bit sum of two words and a carry is one bit too long at most. -/
lemma wideSum_carry : wideSum x y c >>> 32 = 0 ∨ wideSum x y c >>> 32 = 1 := by
  have hsum : (wideSum x y c).toNat < 2 ^ 33 := by
    unfold wideSum
    cases c <;> simp <;> omega
  have hdiv : (wideSum x y c >>> 32).toNat < 2 := by
    rw [toNat_ushiftRight, Nat.shiftRight_eq_div_pow]
    omega
  rcases Nat.lt_or_ge (wideSum x y c >>> 32).toNat 1 with h | h
  · exact .inl (eq_of_toNat_eq (by simpa using h))
  · exact .inr (eq_of_toNat_eq
      (by simp only [ofNat_eq_ofNat, toNat_ofNat]; omega))

lemma carry_in_place :
    (wideSum x y c >>> 32).setWidth 32 <<< 29 =
      if wideSum x y c >>> 32 != 0 then xpsrC else 0 := by
  rcases wideSum_carry x y c with h | h <;> rw [h] <;> decide

lemma overflow_in_place (t : BitVec 32) :
    (t >>> 3) &&& xpsrV = if t &&& 0x80000000 != 0 then xpsrV else 0 := by
  rw [show (0x80000000 : BitVec 32) = twoPow 32 31 by decide, and_bit_ne_zero t (by omega),
    xpsrV_eq, and_twoPow, getLsbD_ushiftRight]
  rfl

lemma jitAdd_eq (f : Bool) :
    jitAdd s x y c f = ((addWithCarry x y c).value,
      if f then s.setNzcv (addWithCarry x y c) else s) := by
  have hxpsr : ∀ v n : BitVec 32, s.xpsr &&& ~~~(xpsrN ||| xpsrZ ||| xpsrC ||| xpsrV)
      ||| v &&& xpsrN ||| (if v = 0 then xpsrZ else 0)
      ||| (wideSum x y c >>> 32).setWidth 32 <<< 29 ||| (n >>> 3 &&& xpsrV) =
    (s.setNzcv ⟨v, v &&& 0x80000000 != 0, v == 0, wideSum x y c >>> 32 != 0,
      n &&& 0x80000000 != 0⟩).xpsr := by
    intro v n
    simp only [setNzcv, and_xpsrN, carry_in_place, overflow_in_place, or_ite, beq_iff_eq]
  unfold jitAdd
  dsimp only
  rw [hxpsr]
  rfl

/-! ## Flags and registers -/

lemma setNzcv_ipsr (r : AddResult) :
    (s.setNzcv r).xpsr &&& xpsrIpsrMask = s.xpsr &&& xpsrIpsrMask := by
  have hmask : ~~~(xpsrN ||| xpsrZ ||| xpsrC ||| xpsrV) &&& xpsrIpsrMask = xpsrIpsrMask := by decide
  have hN : xpsrN &&& xpsrIpsrMask = 0#32 := by decide
  have hZ : xpsrZ &&& xpsrIpsrMask = 0#32 := by decide
  have hC : xpsrC &&& xpsrIpsrMask = 0#32 := by decide
  have hV : xpsrV &&& xpsrIpsrMask = 0#32 := by decide
  unfold setNzcv
  cases r.n <;> cases r.z <;> cases r.c <;> cases r.v <;>
    simp only [if_true, if_false, Bool.false_eq_true, or_and, BitVec.and_assoc, hmask, hN, hZ, hC,
      hV, or_zero]

lemma writeRegister_with_xpsr {x : BitVec 32} (i : Nat) (v : BitVec 32)
    (h : x &&& xpsrIpsrMask = s.xpsr &&& xpsrIpsrMask) :
    { s with xpsr := x }.writeRegister i v = { s.writeRegister i v with xpsr := x } := by
  have hsp : { s with xpsr := x }.usesMsp = s.usesMsp := by
    simp only [usesMsp, inHandlerMode, ipsr, h]
  unfold writeRegister setActiveSp setCore
  rw [hsp]
  split_ifs <;> rfl

lemma writeRegister_setNzcv (r : AddResult) (i : Nat) (v : BitVec 32) :
    (s.setNzcv r).writeRegister i v = (s.writeRegister i v).setNzcv r := by
  have h := writeRegister_with_xpsr s i v (setNzcv_ipsr s r)
  have hx := writeRegister_xpsr s i v
  unfold setNzcv at h ⊢
  rw [hx]
  exact h

lemma jitAdd_write (f : Bool) (i : Nat) :
    (jitAdd s x y c f).2.writeRegister i (jitAdd s x y c f).1 =
      if f then (s.writeRegister i (addWithCarry x y c).value).setNzcv (addWithCarry x y c)
      else s.writeRegister i (addWithCarry x y c).value := by
  rw [jitAdd_eq]
  cases f
  · rfl
  · exact writeRegister_setNzcv s _ i _

end Fil.Cpu
