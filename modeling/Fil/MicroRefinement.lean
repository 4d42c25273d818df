-- Lowering to FilIR keeps the meaning: a block that was lowered runs on the
-- small registers as its instructions run on the core with the reference
-- executor, up to the first taken branch or the limit.
import Fil.MicroIr
import Fil.StepRefinement

open Dialogue Fil.Mem Function
open BitVec (ofInt ofNat toNat_add toNat_ofNat)
open Fil.Cpu.CpuState (currentInstrAddr setNz setNzc setPc)

namespace Fil.Cpu

/-! ## The small registers of a core -/

/-- What FilIR sees of a core. -/
def MicroCpu.ofState (s : CpuState) : MicroCpu where
  r := fun i => s.r (i.castLE (by decide))
  lr := s.r 14
  pc := s.r 15
  xpsr := s.xpsr

/-- Two cores that agree in all that FilIR does not know, but for the address of
the instruction they are at. -/
structure Unseen (s t : CpuState) : Prop where
  rest : { t with r := s.r, xpsr := s.xpsr, instructionAddress := s.instructionAddress } = s
  sp : t.r 13 = s.r 13

lemma Unseen.refl (s : CpuState) : Unseen s s := ⟨rfl, rfl⟩

lemma Unseen.trans {s t u : CpuState} (h1 : Unseen s t) (h2 : Unseen t u) : Unseen s u := by
  refine ⟨?_, h2.sp.trans h1.sp⟩
  have h := congrArg (fun x : CpuState => { x with
    r := s.r, xpsr := s.xpsr, instructionAddress := s.instructionAddress }) h2.rest
  exact h.trans h1.rest

lemma Unseen.setCore {s t : CpuState} (h : Unseen s t) {i : Nat} (hi : i ≠ 13) (v : BitVec 32) :
    Unseen s (t.setCore i v) := by
  refine h.trans ⟨?_, ?_⟩
  · unfold CpuState.setCore
    split <;> rfl
  · unfold CpuState.setCore
    split
    · exact update_of_ne (fun h13 => hi (Fin.val_eq_of_eq h13).symm) _ _
    · rfl

lemma Unseen.withXpsr {s t : CpuState} (h : Unseen s t) (x : BitVec 32) :
    Unseen s { t with xpsr := x } := h.trans ⟨rfl, rfl⟩

/-! ## Registers and flags on both sides -/

open MicroCpu

section Registers

variable {i : Nat} (s : CpuState) (v : BitVec 32)

lemma writeRegister_core (hi : i ≤ 12) : s.writeRegister i v = s.setCore i v := by
  rw [CpuState.writeRegister, if_neg (by omega)]

lemma readRegister_core (hi : i ≤ 12) : s.readRegister i = s.core i := by
  rw [CpuState.readRegister, if_neg (by omega), if_neg (by omega)]

lemma readOp_ofState (hi : i ≤ 12) : (ofState s).readOp i = s.core i := by
  rw [readOp, if_neg (by omega), dif_pos (by omega : i < 13), CpuState.core,
    dif_pos (by omega : i < 16)]
  rfl

lemma ofState_setCore (hi : i ≤ 12) :
    ofState (s.setCore i v) = (ofState s).writeOp i v := by
  have h16 : i < 16 := by omega
  have h13 : i < 13 := by omega
  rw [CpuState.setCore, dif_pos h16, writeOp, if_neg (by omega), dif_pos h13]
  simp only [ofState, mk.injEq, and_true]
  refine ⟨?_, ?_, ?_⟩
  · funext j
    by_cases hj : j = ⟨i, h13⟩
    · subst hj
      simp
    rw [update_of_ne hj, update_of_ne]
    intro h
    exact hj (Fin.ext (by simpa using congrArg Fin.val h))
  · exact update_of_ne (fun h => by have := Fin.val_eq_of_eq h; simp at this; omega) _ _
  · exact update_of_ne (fun h => by have := Fin.val_eq_of_eq h; simp at this; omega) _ _

lemma ofState_setNzcv (result : AddResult) :
    ofState (s.setNzcv result) = (ofState s).applyNzcv result := rfl

lemma ofState_setNz : ofState (s.setNz v) = (ofState s).applyNz v := rfl

lemma oldCarry_ofState : (ofState s).oldCarry = s.carryFlag := rfl

lemma setNz_carry : (s.setNz v).xpsr &&& xpsrC = s.xpsr &&& xpsrC := by
  have hmask : ~~~(xpsrN ||| xpsrZ) &&& xpsrC = xpsrC := by decide
  have hN : xpsrN &&& xpsrC = 0#32 := by decide
  have hZ : xpsrZ &&& xpsrC = 0#32 := by decide
  unfold setNz
  split_ifs <;> simp only [or_and, BitVec.and_assoc, hmask, hN, hZ, BitVec.or_zero]

/-- Setting the carry that is already there changes nothing. -/
lemma setNzc_carryFlag : s.setNzc v s.carryFlag = s.setNz v := by
  have hcarry : s.carryFlag = ((s.setNz v).xpsr &&& xpsrC != 0) := by
    rw [setNz_carry]
    rfl
  have hrestore : ∀ x : BitVec 32,
      (if (x &&& xpsrC != 0) = true then x &&& ~~~xpsrC ||| xpsrC else x &&& ~~~xpsrC) = x := by
    intro x
    have hbit : x &&& xpsrC = if (x &&& xpsrC != 0) = true then xpsrC else 0 := by
      rw [show xpsrC = BitVec.twoPow 32 29 by decide, and_bit_ne_zero x (by omega),
        BitVec.and_twoPow]
      rfl
    rw [← or_ite, ← hbit]
    ext k hk
    simp
    cases x[k] <;> cases xpsrC[k] <;> rfl
  unfold setNzc
  dsimp only
  rw [hcarry, hrestore]

lemma ofState_setNzc (carry : Bool) :
    ofState (s.setNzc v carry) = ((ofState s).applyNz v).setCarry carry := by
  have hset : ∀ x : BitVec 32, x &&& ~~~xpsrC ||| xpsrC = x ||| xpsrC := by
    intro x
    ext k hk
    simp
    cases x[k] <;> cases xpsrC[k] <;> rfl
  unfold setNzc setCarry
  cases carry
  · rfl
  · simp only [if_true, hset]
    rfl

end Registers

/-! ## What the checks of the lowering say -/

lemma ok_of_refuse {α : Type} {p : Prop} [Decidable p] {reason : MicroLowerReason}
    {detail : String} {x : Lowered α} {y : α}
    (h : (if p then refuse reason detail else x) = .ok y) : ¬p ∧ x = .ok y := by
  split at h
  · cases h
  · rename_i hp
    exact ⟨hp, h⟩

lemma coreReg_iff {reg : Nat} : coreReg reg = true ↔ reg ≤ 12 := by
  simp [coreReg]

variable {d : DecodedInstruction}

lemma registerShape_form (h : registerShape d = true) : d.form = .registerValue := by
  simp [registerShape] at h
  simp only [h]

lemma immediateShape_form (h : immediateShape d = true) : d.form = .immediate := by
  simp [immediateShape] at h
  simp only [h]

lemma shiftedOperand_unshifted (hform : d.form = .registerValue) (h : unshifted d = true)
    (s : CpuState) : shiftedOperand d s = ⟨s.readRegister d.rm, s.carryFlag⟩ := by
  simp [unshifted] at h
  rw [shiftedOperand, if_neg (by rw [hform]; decide), h.1, h.2]
  exact shiftC_zero (by decide) _ _

/-! ## Instructions that are not branches -/

section Mirrors

variable {fp : FpUnit} {d : DecodedInstruction} {i i' : MicroInst}

/-- The micro-instruction does to the small registers what the instruction does
to the core. -/
def Mirrors (fp : FpUnit) (d : DecodedInstruction) (i : MicroInst) : Prop :=
  ∀ s : CpuState, ∃ t, dispatch fp d s = pure (complete t) ∧
    MicroCpu.ofState t = (MicroCpu.ofState s).interpretData i ∧ Unseen s t

lemma unseen_write {s t : CpuState} (h : Unseen s t) {reg : Nat} (hi : reg ≤ 12) (v : BitVec 32) :
    Unseen s (t.writeRegister reg v) := by
  rw [writeRegister_core t v hi]
  exact h.setCore (by omega) v

variable {s : CpuState}

lemma ofState_write {reg : Nat} (hi : reg ≤ 12) (v : BitVec 32) :
    ofState (s.writeRegister reg v) = (ofState s).writeOp reg v := by
  rw [writeRegister_core s v hi, ofState_setCore s v hi]

lemma readOp_eq {reg : Nat} (hi : reg ≤ 12) :
    (ofState s).readOp reg = s.readRegister reg := by
  rw [readOp_ofState s hi, readRegister_core s hi]

lemma mirrors_pass (hop : i.op = .nop) (h : ∀ s, dispatch fp d s = pure (complete s)) :
    Mirrors fp d i := by
  intro s
  refine ⟨s, h s, ?_, .refl s⟩
  rw [interpretData, hop]

lemma mirrors_nop (hk : d.kind = .nop) (h : lowerNop d i = .ok i') : Mirrors fp d i' := by
  obtain ⟨-, h⟩ := ok_of_refuse h
  cases h
  exact mirrors_pass rfl fun s => by unfold dispatch; rw [hk]

lemma mirrors_barrier (hk : d.kind = .dmb ∨ d.kind = .dsb ∨ d.kind = .isb)
    (h : lowerBarrier d i = .ok i') : Mirrors fp d i' := by
  obtain ⟨-, h⟩ := ok_of_refuse h
  cases h
  refine mirrors_pass rfl fun s => ?_
  unfold dispatch
  rcases hk with hk | hk | hk <;> rw [hk]

/-- A value written with its sign and zero flags; the carry stays. -/
def writeKeepingCarry (f : Bool) (rd : Nat) (v : BitVec 32) (s : CpuState) : CpuState :=
  if f then (s.writeRegister rd v).setNzc v s.carryFlag else s.writeRegister rd v

lemma ofState_writeLogic (hd : i.rd ≤ 12) (v : BitVec 32) :
    ofState (writeKeepingCarry i.setFlags i.rd v s) =
      (ofState s).writeLogic i v := by
  have hcarry : s.carryFlag = (s.writeRegister i.rd v).carryFlag := by
    simp only [CpuState.carryFlag, CpuState.writeRegister_xpsr]
  unfold writeKeepingCarry writeLogic
  rw [hcarry, setNzc_carryFlag]
  split
  · rw [ofState_setNz, ofState_write hd]
  · rw [ofState_write hd]

lemma unseen_writeKeepingCarry {f : Bool} {rd : Nat} (hd : rd ≤ 12)
    (v : BitVec 32) : Unseen s (writeKeepingCarry f rd v s) := by
  unfold writeKeepingCarry
  split
  · exact (unseen_write (.refl s) hd v).withXpsr _
  · exact unseen_write (.refl s) hd v

def writeWithFlags (f : Bool) (rd : Nat) (sum : AddResult) (s : CpuState) : CpuState :=
  if f then (s.writeRegister rd sum.value).setNzcv sum else s.writeRegister rd sum.value

lemma ofState_writeSum (hd : i.rd ≤ 12) (sum : AddResult) :
    ofState (writeWithFlags i.setFlags i.rd sum s) =
      (ofState s).writeSum i sum := by
  unfold writeWithFlags writeSum
  split
  · rw [ofState_setNzcv, ofState_write hd]
  · rw [ofState_write hd]

lemma unseen_writeWithFlags {f : Bool} {rd : Nat} (hd : rd ≤ 12)
    (sum : AddResult) : Unseen s (writeWithFlags f rd sum s) := by
  unfold writeWithFlags
  split
  · exact (unseen_write (.refl s) hd sum.value).withXpsr _
  · exact unseen_write (.refl s) hd sum.value

lemma mirrors_mov (hk : d.kind = .mov) (hf : i.setFlags = d.setFlags)
    (h : lowerMov d i = .ok i') : Mirrors fp d i' := by
  have hdispatch : ∀ s, dispatch fp d s = pure (executeMov d s) := by
    intro s
    unfold dispatch
    rw [hk]
  unfold lowerMov at h
  split at h
  · rename_i hreg
    simp only [Bool.and_eq_true, coreReg_iff] at hreg
    obtain ⟨⟨⟨hshape, hshift⟩, hd⟩, hm⟩ := hreg
    cases h
    intro s
    refine ⟨writeKeepingCarry d.setFlags d.rd (s.readRegister d.rm) s, ?_, ?_,
      unseen_writeKeepingCarry hd _⟩
    · rw [hdispatch, executeMov]
      simp only [shiftedOperand_unshifted (registerShape_form hshape) hshift,
        if_neg (by omega : ¬d.rd = 15)]
      unfold writeKeepingCarry
      split <;> rfl
    · rw [← hf, ← readOp_eq hm]
      exact ofState_writeLogic (i := { i with op := .movReg, rd := d.rd, rm := d.rm }) hd _
  · obtain ⟨hp, h⟩ := ok_of_refuse h
    simp [coreReg_iff] at hp
    obtain ⟨hshape, hd⟩ := hp
    cases h
    intro s
    refine ⟨fastMovImm d s, ?_, ?_, ?_⟩
    · rw [hdispatch, executeMov_immediate (immediateShape_form hshape) (by omega)]
    · rw [fastMovImm]
      simp only [jitSetNzc_eq]
      unfold interpretData interpretMovImm
      simp only [hf, CpuState.writeRegister_xpsr]
      split
      · rw [← ofState_write hd]
        rfl
      · rw [ofState_write hd]
    · simp only [fastMovImm, jitSetNzc_eq]
      split
      · exact (unseen_write (.refl s) hd d.imm).withXpsr _
      · exact unseen_write (.refl s) hd d.imm

lemma and_halfword {v : BitVec 32} (h : ¬0xffff < v) : v &&& 0xffff = v := by
  have hv : v.toNat ≤ 65535 := by simpa [BitVec.lt_def] using h
  apply BitVec.eq_of_toNat_eq
  exact (Nat.and_two_pow_sub_one_eq_mod v.toNat 16).trans (Nat.mod_eq_of_lt (by omega))

variable {op : MicroOp} {detail : String}

lemma lowerMovHalf_ok (h : lowerMovHalf op detail d i = .ok i') :
    d.rd ≤ 12 ∧ d.imm &&& 0xffff = d.imm ∧ i' = { i with op, rd := d.rd, imm := d.imm } := by
  obtain ⟨hp, h⟩ := ok_of_refuse h
  simp only [Bool.or_eq_true, Bool.not_eq_true', not_or, Bool.not_eq_false, coreReg_iff,
    decide_eq_true_eq] at hp
  cases h
  exact ⟨hp.2, and_halfword hp.1.1.1.1.2, rfl⟩

lemma mirrors_movw (hk : d.kind = .movw) (h : lowerMovHalf .movw detail d i = .ok i') :
    Mirrors fp d i' := by
  obtain ⟨hd, himm, rfl⟩ := lowerMovHalf_ok h
  intro s
  refine ⟨s.writeRegister d.rd d.imm, by unfold dispatch; rw [hk], ?_, unseen_write (.refl s) hd _⟩
  simp only [interpretData, himm, ofState_write hd]

lemma mirrors_movt (hk : d.kind = .movt) (h : lowerMovHalf .movt detail d i = .ok i') :
    Mirrors fp d i' := by
  obtain ⟨hd, himm, rfl⟩ := lowerMovHalf_ok h
  intro s
  refine ⟨_, by unfold dispatch; rw [hk], ?_, unseen_write (.refl s) hd _⟩
  simp only [interpretData, himm, ofState_write hd, readOp_eq hd]

lemma executeAdd_core (hk : d.kind = .add ∨ d.kind = .sub) (hd : d.rd ≤ 12) (hn : d.rn ≤ 12)
    (s : CpuState) :
    executeAdd d s = writeWithFlags d.setFlags d.rd
      (if d.kind = .add then addWithCarry (s.readRegister d.rn) (operand2 d s) false
        else addWithCarry (s.readRegister d.rn) (~~~operand2 d s) true) s := by
  have h15 : ¬(d.rn = 15 ∧ d.form = .immediate) := by omega
  unfold executeAdd writeAluResult writeWithFlags
  rcases hk with hk | hk <;>
    simp [hk, if_neg h15, if_neg (by omega : ¬d.rd = 15)]

lemma mirrors_sum (hk : d.kind = .add ∨ d.kind = .sub) (hf : i.setFlags = d.setFlags)
    (h : lowerSum d i = .ok i') : Mirrors fp d i' := by
  have hdispatch : ∀ s, dispatch fp d s = pure (complete (executeAdd d s)) := by
    intro s
    unfold dispatch
    rcases hk with hk | hk <;> rw [hk]
  -- whatever the second operand is, both sides add it in the same way
  have mirrors : ∀ j : MicroInst, j.rd = d.rd → j.setFlags = d.setFlags → d.rd ≤ 12 → d.rn ≤ 12 →
      (∀ s, (ofState s).interpretData j = (ofState s).writeSum j
        (if d.kind = .add then addWithCarry (s.readRegister d.rn) (operand2 d s) false
          else addWithCarry (s.readRegister d.rn) (~~~operand2 d s) true)) → Mirrors fp d j := by
    intro j hrd hflags hd hn hj s
    refine ⟨_, hdispatch s, ?_, ?_⟩
    · rw [executeAdd_core hk hd hn, hj, ← hrd, ← hflags]
      exact ofState_writeSum (hrd ▸ hd) _
    · rw [executeAdd_core hk hd hn]
      exact unseen_writeWithFlags hd _
  unfold lowerSum at h
  dsimp only at h
  split at h
  · rename_i hform
    obtain ⟨hp, h⟩ := ok_of_refuse h
    simp [coreReg_iff] at hp
    obtain ⟨⟨⟨⟨-, hd⟩, hn⟩, -⟩, -⟩ := hp
    cases h
    refine mirrors _ rfl hf hd hn fun s => ?_
    rcases hk with hk | hk <;>
      simp [interpretData, hk, readOp_eq hn, operand2, shiftedOperand_immediate hform]
  · obtain ⟨hp, h⟩ := ok_of_refuse h
    simp [coreReg_iff] at hp
    obtain ⟨⟨⟨hshape, hd⟩, hn⟩, hm⟩ := hp
    have hform := registerShape_form hshape
    split at h
    · rename_i hshift
      have hun : unshifted d = true := by simp [unshifted, hshift]
      cases h
      refine mirrors _ rfl hf hd hn fun s => ?_
      rcases hk with hk | hk <;>
        simp [interpretData, hk, readOp_eq hn, readOp_eq hm, operand2,
          shiftedOperand_unshifted hform hun]
    · obtain ⟨-, h⟩ := ok_of_refuse h
      cases h
      refine mirrors _ rfl hf hd hn fun s => ?_
      rcases hk with hk | hk <;>
        simp [interpretData, hk, readOp_eq hn, shiftedRm, readOp_eq hm, operand2,
          shiftedOperand_register hform, jitShifted, oldCarry_ofState] <;> rfl

lemma mirrors_compare (hk : d.kind = .cmp ∨ d.kind = .cmn) (h : lowerCompare d i = .ok i') :
    Mirrors fp d i' := by
  have hdispatch : ∀ s, dispatch fp d s = pure (complete (executeCompare d s)) := by
    intro s
    unfold dispatch
    rcases hk with hk | hk <;> rw [hk]
  unfold lowerCompare at h
  dsimp only at h
  split at h
  · rename_i hform
    obtain ⟨hp, h⟩ := ok_of_refuse h
    simp [coreReg_iff] at hp
    obtain ⟨⟨⟨-, hn⟩, hm⟩, -⟩ := hp
    cases h
    intro s
    refine ⟨_, hdispatch s, ?_, (Unseen.refl s).withXpsr _⟩
    rw [executeCompare, ofState_setNzcv]
    rcases hk with hk | hk <;>
      simp [interpretData, hk, readOp_eq hn, shiftedRm, readOp_eq hm, operand2,
        shiftedOperand_register hform, jitShifted, oldCarry_ofState] <;> rfl
  · obtain ⟨hp, h⟩ := ok_of_refuse h
    simp [coreReg_iff] at hp
    obtain ⟨⟨⟨⟨hshape, hn⟩, -⟩, -⟩, -⟩ := hp
    have hform := immediateShape_form hshape
    cases h
    intro s
    refine ⟨_, hdispatch s, ?_, (Unseen.refl s).withXpsr _⟩
    rw [executeCompare, ofState_setNzcv]
    rcases hk with hk | hk <;>
      simp [interpretData, hk, readOp_eq hn, operand2, shiftedOperand_immediate hform]

lemma mirrors_tst (hk : d.kind = .tst) (h : lowerTst d i = .ok i') : Mirrors fp d i' := by
  obtain ⟨hp, h⟩ := ok_of_refuse h
  simp [coreReg_iff] at hp
  obtain ⟨⟨⟨⟨hshape, hn⟩, hm⟩, -⟩, hshift⟩ := hp
  cases h
  intro s
  refine ⟨executeTst d s, by unfold dispatch; rw [hk], ?_, (Unseen.refl s).withXpsr _⟩
  rw [executeTst]
  simp [shiftedOperand_unshifted (registerShape_form hshape) hshift, setNzc_carryFlag,
    ofState_setNz, interpretData, readOp_eq hn, readOp_eq hm]

/-- AND, ORR, EOR and BIC: the operations of both sides agree. -/
lemma mirrors_logic (hf : i.setFlags = d.setFlags)
    (hk : (d.kind, op) ∈ [(.and_, .andReg), (.orr, .orrReg), (.eor, .eorReg), (.bic, .bicReg)])
    (h : lowerLogic op d i = .ok i') : Mirrors fp d i' := by
  obtain ⟨hp, h⟩ := ok_of_refuse h
  simp [coreReg_iff] at hp
  obtain ⟨⟨⟨⟨hshape, hshift⟩, hd⟩, hn⟩, hm⟩ := hp
  cases h
  intro s
  have hexec : executeLogic d s = writeKeepingCarry d.setFlags d.rd
      (logicValue d.kind (s.readRegister d.rn) (s.readRegister d.rm)) s := by
    simp [executeLogic, shiftedOperand_unshifted (registerShape_form hshape) hshift, writeKeepingCarry]
  simp at hk
  refine ⟨executeLogic d s, ?_, ?_, ?_⟩
  · unfold dispatch
    rcases hk with hk | hk | hk | hk <;> rw [hk.1]
  · rw [hexec, ← hf, ← readOp_eq hn, ← readOp_eq hm]
    refine (ofState_writeLogic (i := { i with op, rd := d.rd, rn := d.rn, rm := d.rm }) hd _).trans ?_
    rcases hk with ⟨hk, rfl⟩ | ⟨hk, rfl⟩ | ⟨hk, rfl⟩ | ⟨hk, rfl⟩ <;> rw [hk] <;> rfl
  · rw [hexec]
    exact unseen_writeKeepingCarry hd _

/-- The shifts. The decoder gives a shift of each kind the type of that kind. -/
lemma mirrors_shift (hf : i.setFlags = d.setFlags)
    (hk : (d.kind, op, d.shiftType) ∈
      [(.lsl, .lsl, .lsl), (.lsr, .lsr, .lsr), (.asr, .asr, .asr), (.ror, .ror, .ror)])
    (h : lowerShift op d i = .ok i') : Mirrors fp d i' := by
  obtain ⟨hp1, h⟩ := ok_of_refuse h
  obtain ⟨hp2, h⟩ := ok_of_refuse h
  obtain ⟨-, h⟩ := ok_of_refuse h
  cases h
  -- both forms check the registers that they use
  have hregs : d.rd ≤ 12 ∧ d.rm ≤ 12 ∧ (¬d.form = .immediate → d.rn ≤ 12) := by
    by_cases hform : d.form = .immediate
    · simp [hform, coreReg_iff] at hp1
      exact ⟨hp1.1, hp1.2, fun h => absurd hform h⟩
    · simp [hform, coreReg_iff] at hp2
      exact ⟨hp2.1.1.2, hp2.2, fun _ => hp2.1.2⟩
  obtain ⟨hd, hm, hn⟩ := hregs
  simp at hk
  have hrrx : d.shiftType ≠ .rrx := by
    rcases hk with hk | hk | hk | hk <;> rw [hk.2.2] <;> decide
  intro s
  have hexec : ofState (executeShift d s) =
      (ofState s).interpretShift { i with
        op, rd := d.rd, rn := d.rn, rm := d.rm, shiftAmount := d.shiftAmount, shift := d.shiftType,
        shiftImmediate := decide (d.form = .immediate), imm := d.imm } d.shiftType := by
    have hvalue : (if (decide (d.form = .immediate)) = true then (ofState s).readOp d.rm
        else (ofState s).readOp d.rn) =
        if d.form = .immediate then s.readRegister d.rm else s.readRegister d.rn := by
      by_cases hform : d.form = .immediate
      · simp [hform, readOp_eq hm]
      · simp [hform, readOp_eq (hn hform)]
    unfold executeShift interpretShift
    rw [hvalue, if_neg hrrx, readOp_eq hm, oldCarry_ofState, hf]
    simp
    split
    · rw [ofState_setNzc, ofState_write hd]
    · rw [ofState_write hd]
  refine ⟨executeShift d s, ?_, hexec.trans ?_, ?_⟩
  · unfold dispatch
    rcases hk with hk | hk | hk | hk <;> rw [hk.1]
  · rcases hk with ⟨-, rfl, ht⟩ | ⟨-, rfl, ht⟩ | ⟨-, rfl, ht⟩ | ⟨-, rfl, ht⟩ <;> rw [ht] <;> rfl
  · unfold executeShift
    dsimp only
    split
    · exact (unseen_write (.refl s) hd _).withXpsr _
    · exact unseen_write (.refl s) hd _

lemma rotate_lowered (v : BitVec 32) (n : Nat) :
    (if ofNat 32 n = 0 then v else v.rotateRight (ofNat 32 n).toNat) =
      v.rotateRight n := by
  have hmod : n % 2 ^ 32 % 32 = n % 32 := by omega
  have hrotate : v.rotateRight (ofNat 32 n).toNat = v.rotateRight n := by
    rw [toNat_ofNat, ← BitVec.rotateRight_mod_eq_rotateRight, hmod,
      BitVec.rotateRight_mod_eq_rotateRight]
  split
  · rename_i hz
    rw [← hrotate, hz]
    simp [BitVec.rotateRight, BitVec.rotateRightAux]
  · exact hrotate

/-- UXTB, UXTH, SXTB and SXTH. -/
lemma mirrors_extend {e : ExtendKind}
    (hk : (d.kind, e) ∈ [(.uxtb, .uxtb), (.uxth, .uxth), (.sxtb, .sxtb), (.sxth, .sxth)])
    (h : lowerExtend e d i = .ok i') : Mirrors fp d i' := by
  obtain ⟨hp, h⟩ := ok_of_refuse h
  simp [coreReg_iff] at hp
  have hd : d.rd ≤ 12 := hp.1.1.1.1.1.1.1.1.1.1
  have hm : d.rm ≤ 12 := hp.1.1.1.1.1.1.1.1.1.2
  cases h
  simp at hk
  intro s
  refine ⟨executeExtend d s, ?_, ?_, unseen_write (.refl s) hd _⟩
  · unfold dispatch
    rcases hk with hk | hk | hk | hk <;> rw [hk.1]
  · simp only [interpretData, interpretExtend, readOp_eq hm, rotate_lowered]
    rw [executeExtend, ofState_write hd]
    rcases hk with ⟨hk, rfl⟩ | ⟨hk, rfl⟩ | ⟨hk, rfl⟩ | ⟨hk, rfl⟩ <;>
      simp [hk, extendByte, extendHalf]

lemma mirrors_ubfx (hk : d.kind = .ubfx) (h : lowerUbfx d i = .ok i') : Mirrors fp d i' := by
  obtain ⟨hp, h⟩ := ok_of_refuse h
  simp [coreReg_iff] at hp
  have hd : d.rd ≤ 12 := hp.1.1.1.1.1.1.1.1.1.1.1.1
  have hn : d.rn ≤ 12 := hp.1.1.1.1.1.1.1.1.1.1.1.2
  cases h
  intro s
  refine ⟨executeUbfx d s, by unfold dispatch; rw [hk], ?_, unseen_write (.refl s) hd _⟩
  rw [executeUbfx, ofState_write hd]
  simp only [interpretData, interpretUbfx, readOp_eq hn, fieldMask]

lemma lowerKind_mirrors (hd : Wellformed d) (hf : i.setFlags = d.setFlags)
    (hb : isMicroBranch d.kind = false) (h : lowerKind d i = .ok i') : Mirrors fp d i' := by
  unfold lowerKind at h
  cases hk : d.kind <;> rw [hk] at h
  case nop => exact mirrors_nop hk h
  case dmb | dsb | isb => exact mirrors_barrier (by simp [hk]) h
  case mov => exact mirrors_mov hk hf h
  case movw => exact mirrors_movw hk h
  case movt => exact mirrors_movt hk h
  case add | sub => exact mirrors_sum (by simp [hk]) hf h
  case cmp | cmn => exact mirrors_compare (by simp [hk]) h
  case tst => exact mirrors_tst hk h
  case and_ | orr | eor | bic => exact mirrors_logic hf (by rw [hk]; simp) h
  case lsl => exact mirrors_shift hf (by rw [hk, hd.lsl hk]; simp) h
  case lsr => exact mirrors_shift hf (by rw [hk, hd.lsr hk]; simp) h
  case asr => exact mirrors_shift hf (by rw [hk, hd.asr hk]; simp) h
  case ror => exact mirrors_shift hf (by rw [hk, hd.ror hk]; simp) h
  case rrx => exact absurd hk hd.rrx
  case uxtb | uxth | sxtb | sxth => exact mirrors_extend (by rw [hk]; simp) h
  case ubfx => exact mirrors_ubfx hk h
  all_goals first
    | cases h
    | (rw [hk] at hb; exact absurd hb (by decide))

end Mirrors

/-! ## One instruction -/

section Step

variable {δ : Type} {env : Environment δ}

/-- Runs one source instruction with the reference executor, at its own
address. -/
def executeSource (env : Environment δ) (source : MicroSource) (m : Machine δ) :
    FastStepResult × Machine δ :=
  retire env false (prepare source.decoded.raw source.size source.decoded)
    { m with cpu := m.cpu.setPc source.pc }

variable (s : CpuState) (v : BitVec 32)

lemma pc_setPc : (s.setPc v).pc = v := by
  simp [CpuState.pc, setPc, CpuState.setCore]

lemma ofState_high {k : Fin 16} (hk : 13 ≤ k.val) :
    ofState { s with r := Function.update s.r k v } = { ofState s with
      lr := Function.update s.r k v 14, pc := Function.update s.r k v 15 } := by
  simp only [ofState, mk.injEq, and_true]
  funext j
  exact update_of_ne (fun h => by have := congrArg Fin.val h; simp at this; omega) _ _

lemma ofState_setPc : ofState (s.setPc v) = { ofState s with pc := v } :=
  ofState_high (k := 15) s v (by decide)

lemma ofState_setLink : ofState (s.setCore 14 v) = { ofState s with lr := v } :=
  ofState_high (k := 14) s v (by decide)

lemma ofState_entered (size : Nat) :
    ofState (entered s size) =
      { ofState s with pc := s.pc + ofNat 32 size } := by
  rw [entered, ofState_setPc]
  rfl

lemma unseen_setPc : Unseen s (s.setPc v) :=
  (Unseen.refl s).setCore (by decide) v

lemma unseen_entered (size : Nat) : Unseen s (entered s size) :=
  Unseen.trans (t := { s with instructionAddress := s.pc }) ⟨rfl, rfl⟩ (unseen_setPc _ _)

variable {m : Machine δ} {d : DecodedInstruction} {source : MicroSource} {inst : MicroInst}
  {t : CpuState} {rest : List MicroSource} {limit : Nat}

lemma retire_complete {raw : BitVec 32} {size : Nat} {b : MemoryBus δ}
    (hit : inItBlock m.cpu.itState = false)
    (h : body env false false (prepare raw size d) m = (complete t, b)) :
    (retire env false (prepare raw size d) m).1.reason = .stepComplete ∧
      (retire env false (prepare raw size d) m).1.instructions = 1 ∧
      (retire env false (prepare raw size d) m).2 = ⟨t, b, m.lastDiagnostic⟩ := by
  have hretire : retire env false (prepare raw size d) m =
      conclude (prepare raw size d) m (complete t) b := by
    rw [retire, if_neg (by simp), retireChecked, h]
  rw [hretire]
  unfold conclude
  simp [complete, noted, hit]

/-- The PC goes through an instruction that is not a branch. -/
lemma interpretData_pc (c : MicroCpu) (op : MicroInst) (x : BitVec 32) :
    { c with pc := x }.interpretData op = { c.interpretData op with pc := x } := by
  have hread : ∀ (c : MicroCpu) reg, { c with pc := x }.readOp reg = c.readOp reg :=
    fun _ _ => rfl
  have hwrite : ∀ (c : MicroCpu) reg v,
      { c with pc := x }.writeOp reg v = { c.writeOp reg v with pc := x } := by
    intro c reg v
    unfold writeOp
    split_ifs <;> rfl
  have hsum : ∀ (c : MicroCpu) sum,
      { c with pc := x }.writeSum op sum = { c.writeSum op sum with pc := x } := by
    intro c sum
    simp only [writeSum, hwrite]
    split <;> rfl
  have hlogic : ∀ (c : MicroCpu) v,
      { c with pc := x }.writeLogic op v = { c.writeLogic op v with pc := x } := by
    intro c v
    simp only [writeLogic, hwrite]
    split <;> rfl
  have hshift : ∀ type,
      { c with pc := x }.interpretShift op type = { c.interpretShift op type with pc := x } := by
    intro type
    simp only [interpretShift, hread, hwrite]
    split <;> rfl
  have himm : { c with pc := x }.interpretMovImm op = { c.interpretMovImm op with pc := x } := by
    simp only [interpretMovImm, hwrite]
    split <;> rfl
  unfold interpretData
  cases op.op <;> first
    | rfl
    | exact hsum c _
    | exact hlogic c _
    | exact hwrite c _ _
    | exact hshift _
    | exact himm

/-- What one instruction of a block has to do on both sides. -/
structure StepMirrors (env : Environment δ) (source : MicroSource) (inst : MicroInst)
    (m : Machine δ) : Prop where
  reason : (executeSource env source m).1.reason = .stepComplete
  instructions : (executeSource env source m).1.instructions = 1
  cpu : MicroCpu.ofState (executeSource env source m).2.cpu =
    ((MicroCpu.ofState m.cpu).interpretMicroOp inst).2
  unseen : Unseen m.cpu (executeSource env source m).2.cpu
  bus : (executeSource env source m).2.bus = m.bus
  diagnostic : (executeSource env source m).2.lastDiagnostic = m.lastDiagnostic

/-- The instruction as it starts: on the small registers only the PC moved. -/
lemma ofState_started (m : Machine δ) (source : MicroSource) :
    ofState (entered (m.cpu.setPc source.pc) source.size) =
      { ofState m.cpu with pc := source.pc + ofNat 32 source.size } := by
  rw [ofState_entered, pc_setPc, ofState_setPc]

lemma lowerKind_not_fp {i i' : MicroInst}
    (h : lowerKind d i = .ok i') : isFpRegisterAccess d.kind = false := by
  unfold lowerKind at h
  cases hk : d.kind <;> rw [hk] at h <;> first | rfl | cases h

lemma passes_outside {s : CpuState} (hk : d.kind ≠ .it)
    (hit : inItBlock s.itState = false) :
    passes d s = (decide (d.condition = .al) || conditionPasses d.condition s.xpsr) := by
  have heffective : effectiveCondition d s.itState = d.condition := by
    rw [effectiveCondition, if_neg hk, hit]
    rfl
  rw [passes, heffective]

def MicroOp.isBranch : MicroOp → Bool
  | .b | .bl | .bCond | .cbz | .cbnz => true
  | _ => false

structure Placed (d : DecodedInstruction) (i i' : MicroInst) : Prop where
  pc : i'.pc = i.pc
  size : i'.size = i.size
  branchOffset : i'.branchOffset = i.branchOffset
  branch : i'.op.isBranch = isMicroBranch d.kind

lemma lowerKind_placed {i i' : MicroInst} (h : lowerKind d i = .ok i') : Placed d i i' := by
  unfold lowerKind at h
  cases hk : d.kind <;> rw [hk] at h <;>
    first
    | cases h
    | (simp only [lowerNop, lowerBarrier, lowerMov, lowerMovHalf, lowerSum, lowerCompare, lowerTst,
        lowerLogic, lowerShift, lowerBranch, lowerCompareBranch, lowerExtend, lowerUbfx, refuse,
        hk] at h
       split_ifs at h <;> cases h <;>
         exact ⟨rfl, rfl, rfl, by simp [hk, isMicroBranch, MicroOp.isBranch]⟩)

lemma tryLowerMicroInst_ok
    (h : tryLowerMicroInst source = .ok inst) :
    (source.decoded.condition = .al ∨ isMicroBranch source.decoded.kind = true) ∧
    lowerKind source.decoded
      { pc := source.pc, size := source.size, setFlags := source.decoded.setFlags,
        branchOffset := source.decoded.branchOffset } = .ok inst := by
  obtain ⟨h1, h⟩ := ok_of_refuse h
  obtain ⟨-, h⟩ := ok_of_refuse h
  obtain ⟨-, h⟩ := ok_of_refuse h
  obtain ⟨-, h⟩ := ok_of_refuse h
  refine ⟨?_, h⟩
  simp at h1
  by_cases hc : source.decoded.condition = .al
  · exact .inl hc
  · exact .inr (h1 hc)

lemma interpretMicroOp_data (c : MicroCpu) {op : MicroInst} (h : op.op.isBranch = false) :
    c.interpretMicroOp op =
      (false, { c.interpretData op with pc := op.pc + ofNat 32 op.size }) := by
  unfold interpretMicroOp
  cases hop : op.op <;> first | rfl | (rw [hop] at h; cases h)

section

variable (m : Machine δ) (source : MicroSource)

lemma started_address :
    (entered (m.cpu.setPc source.pc) source.size).instructionAddress = source.pc := by
  rw [entered_instructionAddress, pc_setPc]

lemma started_pc :
    (entered (m.cpu.setPc source.pc) source.size).pc = source.pc + ofNat 32 source.size := by
  rw [entered, pc_setPc, pc_setPc]

end

lemma target_imm (pc imm : BitVec 32) :
    target pc imm.toNat = (pc + 4 + imm) &&& ~~~1 := by
  have hsum : ofInt 32 ((pc.toNat : Int) + 4 + (imm.toNat : Int)) = pc + 4 + imm := by
    have hnat : ((pc.toNat : Int) + 4 + (imm.toNat : Int)) =
        ((pc.toNat + 4 + imm.toNat : Nat) : Int) := by omega
    rw [hnat, BitVec.ofInt_natCast]
    have h4 : (4 : BitVec 32).toNat = 4 := rfl
    apply BitVec.eq_of_toNat_eq
    rw [toNat_ofNat, toNat_add, toNat_add, h4]
    omega
  rw [target, hsum]

section

variable (hit : inItBlock m.cpu.itState = false)
include hit

lemma StepMirrors.of_body
    (hbody : body env false false (prepare source.decoded.raw source.size source.decoded)
      { m with cpu := m.cpu.setPc source.pc } = (complete t, m.bus))
    (hcpu : ofState t = ((ofState m.cpu).interpretMicroOp inst).2)
    (hunseen : Unseen (entered (m.cpu.setPc source.pc) source.size) t) :
    StepMirrors env source inst m := by
  have hit' : inItBlock (m.cpu.setPc source.pc).itState = false := by
    simpa [setPc] using hit
  obtain ⟨h1, h2, h3⟩ := retire_complete (m := { m with cpu := m.cpu.setPc source.pc }) hit' hbody
  refine ⟨h1, h2, ?_, ?_, ?_, ?_⟩
  · rw [executeSource, h3]
    exact hcpu
  · rw [executeSource, h3]
    exact ((unseen_setPc _ _).trans (unseen_entered _ _)).trans hunseen
  · rw [executeSource, h3]
  · rw [executeSource, h3]

/-- A body whose condition holds, when the executor needs no bus. -/
lemma body_of_dispatch
    (hpass : passes source.decoded m.cpu = true)
    (hfp : isFpRegisterAccess source.decoded.kind = false)
    (h : dispatch env.fp source.decoded (entered (m.cpu.setPc source.pc) source.size) =
      pure (complete t)) :
    body env false false (prepare source.decoded.raw source.size source.decoded)
      { m with cpu := m.cpu.setPc source.pc } = (complete t, m.bus) := by
  have hit' : inItBlock (m.cpu.setPc source.pc).itState = false := by
    simpa [setPc] using hit
  have hpass' : passes source.decoded (m.cpu.setPc source.pc) = true := by
    simpa [passes, setPc] using hpass
  rw [body_reference, if_pos hpass', hit', executeOn]
  rw [show itAdjusted false source.decoded = source.decoded from rfl, execute_eq_dispatch hfp, h]
  rfl

lemma stepMirrors_data
    (hd : Wellformed source.decoded)
    (hb : isMicroBranch source.decoded.kind = false) (h : tryLowerMicroInst source = .ok inst) :
    StepMirrors env source inst m := by
  obtain ⟨hc, hlower⟩ := tryLowerMicroInst_ok h
  have hplaced := lowerKind_placed hlower
  have hal : source.decoded.condition = .al := by
    rcases hc with hc | hc
    · exact hc
    · rw [hb] at hc
      cases hc
  have hkind : source.decoded.kind ≠ .it := by
    intro hk
    rw [lowerKind, hk] at hlower
    cases hlower
  have hmirrors : Mirrors env.fp source.decoded inst := lowerKind_mirrors hd rfl hb hlower
  obtain ⟨t, hdispatch, hcpu, hunseen⟩ := hmirrors (entered (m.cpu.setPc source.pc) source.size)
  have hpass : passes source.decoded m.cpu = true := by
    rw [passes_outside hkind hit, hal]
    rfl
  refine .of_body hit (body_of_dispatch hit hpass (lowerKind_not_fp hlower) hdispatch) ?_ hunseen
  rw [hcpu, ofState_started, interpretData_pc,
    interpretMicroOp_data _ (hplaced.branch.trans hb), hplaced.pc, hplaced.size]

lemma stepMirrors_skipped
    (hpass : passes source.decoded m.cpu = false)
    (hcpu : ((ofState m.cpu).interpretMicroOp inst).2 =
      { ofState m.cpu with pc := source.pc + ofNat 32 source.size }) :
    StepMirrors env source inst m := by
  have hpass' : ¬passes source.decoded (m.cpu.setPc source.pc) = true := by
    simpa [passes, setPc] using hpass
  refine .of_body hit ?_ ?_ (.refl _)
  · rw [body_reference, if_neg hpass']
  · rw [hcpu, ofState_started]

lemma stepMirrors_taken
    {v : BitVec 32}
    (hpass : passes source.decoded m.cpu = true)
    (hfp : isFpRegisterAccess source.decoded.kind = false)
    (hdispatch : dispatch env.fp source.decoded (entered (m.cpu.setPc source.pc) source.size) =
      pure (complete ((entered (m.cpu.setPc source.pc) source.size).setPc v)))
    (hcpu : ((ofState m.cpu).interpretMicroOp inst).2 =
      { ofState m.cpu with pc := v }) : StepMirrors env source inst m := by
  refine .of_body hit (body_of_dispatch hit hpass hfp hdispatch) ?_ (unseen_setPc _ _)
  rw [hcpu, ofState_setPc, ofState_started]

/-- B, with or without a condition. -/
lemma stepMirrors_b
    (hk : source.decoded.kind = .b)
    (h : tryLowerMicroInst source = .ok inst) : StepMirrors env source inst m := by
  obtain ⟨-, hlower⟩ := tryLowerMicroInst_ok h
  have hpasses := passes_outside (d := source.decoded) (by rw [hk]; decide) hit
  have hdispatch : dispatch env.fp source.decoded (entered (m.cpu.setPc source.pc) source.size) =
      pure (complete ((entered (m.cpu.setPc source.pc) source.size).setPc
        (target source.pc source.decoded.branchOffset))) := by
    unfold dispatch
    rw [hk]
    simp only [executeB, branchTarget, currentInstrAddr, started_address, target]
  rw [lowerKind, hk] at hlower
  obtain ⟨-, hlower⟩ := ok_of_refuse hlower
  obtain ⟨-, hlower⟩ := ok_of_refuse hlower
  cases hlower
  by_cases hc : source.decoded.condition = .al
  · refine stepMirrors_taken hit (by rw [hpasses, hc]; rfl) (by rw [hk]; rfl) hdispatch ?_
    simp [interpretMicroOp, hk, hc]
  by_cases hcond : conditionPasses source.decoded.condition m.cpu.xpsr = true
  · refine stepMirrors_taken hit (by rw [hpasses, hcond, Bool.or_true]) (by rw [hk]; rfl)
      hdispatch ?_
    have hcond' : conditionPasses source.decoded.condition (ofState m.cpu).xpsr = true :=
      hcond
    simp [interpretMicroOp, hk, hc, hcond']
  · refine stepMirrors_skipped hit (by simpa [hpasses, hc] using hcond) ?_
    have hcond' : ¬conditionPasses source.decoded.condition (ofState m.cpu).xpsr = true :=
      hcond
    simp [interpretMicroOp, hk, hc, hcond']

lemma stepMirrors_bl
    (hd : Wellformed source.decoded)
    (hk : source.decoded.kind = .bl) (h : tryLowerMicroInst source = .ok inst) :
    StepMirrors env source inst m := by
  obtain ⟨-, hlower⟩ := tryLowerMicroInst_ok h
  have hc : source.decoded.condition = .al := by
    rcases hd.condition with hc | hc | hc
    · exact hc
    · rw [hk] at hc
      cases hc
    · rw [hk] at hc
      cases hc
  have hpass : passes source.decoded m.cpu = true := by
    rw [passes_outside (by rw [hk]; decide) hit, hc]
    rfl
  rw [lowerKind, hk] at hlower
  obtain ⟨-, hlower⟩ := ok_of_refuse hlower
  obtain ⟨-, hlower⟩ := ok_of_refuse hlower
  cases hlower
  have hdispatch : ∀ s, dispatch env.fp source.decoded s =
      pure (complete (executeBl source.decoded s)) := by
    intro s
    unfold dispatch
    rw [hk]
  refine .of_body hit (body_of_dispatch hit hpass (by rw [hk]; rfl) (hdispatch _))
    ?_ (((Unseen.refl _).setCore (by decide : 14 ≠ 13) _).setCore (by decide : 15 ≠ 13) _)
  rw [executeBl, ofState_setPc, ofState_setLink, ofState_started, started_pc]
  simp [branchTarget, currentInstrAddr, started_address, interpretMicroOp, hk, target]

/-- CBZ and CBNZ. -/
lemma stepMirrors_compareBranch
    (hk : source.decoded.kind = .cbz ∨ source.decoded.kind = .cbnz)
    (h : tryLowerMicroInst source = .ok inst) : StepMirrors env source inst m := by
  obtain ⟨-, hlower⟩ := tryLowerMicroInst_ok h
  -- what both checks leave of the micro-instruction
  obtain ⟨hc, hn, hop, hrn, himm, hpc, hsize⟩ : source.decoded.condition = .al ∧
      source.decoded.rn ≤ 12 ∧
      inst.op = (if source.decoded.kind = .cbz then .cbz else .cbnz) ∧
      inst.rn = source.decoded.rn ∧ inst.imm = source.decoded.imm ∧ inst.pc = source.pc ∧
      inst.size = source.size := by
    rcases hk with hk | hk <;> rw [lowerKind, hk] at hlower <;>
      obtain ⟨hp, hlower⟩ := ok_of_refuse hlower <;>
      simp [coreReg_iff, Decidable.not_not] at hp <;>
      cases hlower <;> exact ⟨hp.1.1.1.2, hp.1.2, by rw [hk]; rfl, rfl, rfl, rfl, rfl⟩
  have hpass : passes source.decoded m.cpu = true := by
    rw [passes_outside (by rcases hk with hk | hk <;> rw [hk] <;> decide) hit, hc]
    rfl
  have hfp : isFpRegisterAccess source.decoded.kind = false := by
    rcases hk with hk | hk <;> rw [hk] <;> rfl
  have hdispatch : ∀ s, dispatch env.fp source.decoded s =
      pure (complete (executeCompareBranch source.decoded s)) := by
    intro s
    unfold dispatch
    rcases hk with hk | hk <;> rw [hk]
  have hread : (entered (m.cpu.setPc source.pc) source.size).readRegister source.decoded.rn =
      (ofState m.cpu).readOp inst.rn := by
    rw [hrn, ← readOp_eq hn, ofState_started]
    rfl
  refine .of_body hit (body_of_dispatch hit hpass hfp (hdispatch _)) ?_ ?_
  · rw [executeCompareBranch]
    simp only [hread, CpuState.architecturalPcForRead, started_address]
    unfold interpretMicroOp
    rcases hk with hk | hk <;>
      by_cases hz : (ofState m.cpu).readOp inst.rn = 0#32 <;>
      simp [hop, hk, hz, ofState_setPc, ofState_started, hpc, hsize, himm, target_imm]
  · rw [executeCompareBranch]
    split_ifs <;> first | exact unseen_setPc _ _ | exact .refl _

lemma stepMirrors_of_lowered
    (hd : Wellformed source.decoded)
    (h : tryLowerMicroInst source = .ok inst) : StepMirrors env source inst m := by
  cases hb : isMicroBranch source.decoded.kind with
  | false => exact stepMirrors_data hit hd hb h
  | true =>
    simp [isMicroBranch] at hb
    rcases hb with ((hk | hk) | hk) | hk
    · exact stepMirrors_b hit hk h
    · exact stepMirrors_bl hit hd hk h
    · exact stepMirrors_compareBranch hit (.inl hk) h
    · exact stepMirrors_compareBranch hit (.inr hk) h

end

/-! ## Whole blocks -/

/-- Runs source instructions one after the other. -/
def executeSources (env : Environment δ) : List MicroSource → Machine δ →
    List FastStepResult × Machine δ
  | [], m => ([], m)
  | source :: rest, m =>
    let step := executeSource env source m
    let done := executeSources env rest step.2
    (step.1 :: done.1, done.2)

/-- What the first `out.1` instructions do on both sides. -/
structure BlockMirrors (env : Environment δ) (sources : List MicroSource) (limit : Nat)
    (m : Machine δ) (out : Nat × MicroCpu) : Prop where
  results : (executeSources env (sources.take out.1) m).1.length = out.1
  complete : ∀ result ∈ (executeSources env (sources.take out.1) m).1,
    result.reason = .stepComplete ∧ result.instructions = 1
  cpu : MicroCpu.ofState (executeSources env (sources.take out.1) m).2.cpu = out.2
  unseen : Unseen m.cpu (executeSources env (sources.take out.1) m).2.cpu
  bus : (executeSources env (sources.take out.1) m).2.bus = m.bus
  /-- Only the limit, the end of the block and a branch end the run. -/
  stop : out.1 = min limit sources.length ∨ (0 < out.1 ∧ out.1 < min limit sources.length ∧
    ∃ source, sources[out.1 - 1]? = some source ∧ isMicroBranch source.decoded.kind = true)

lemma BlockMirrors.none (sources : List MicroSource) (m : Machine δ)
    (h : min limit sources.length = 0) :
    BlockMirrors env sources limit m (0, ofState m.cpu) :=
  ⟨rfl, by simp [executeSources], rfl, .refl _, rfl, .inl h.symm⟩

lemma BlockMirrors.cons {out : Nat × MicroCpu} (hstep : StepMirrors env source inst m)
    (h : BlockMirrors env rest limit (executeSource env source m).2 out) :
    BlockMirrors env (source :: rest) (limit + 1) m (out.1 + 1, out.2) := by
  refine ⟨?_, ?_, ?_, ?_, ?_, ?_⟩
  · simp [executeSources, h.results]
  · intro result hresult
    simp [executeSources] at hresult
    rcases hresult with rfl | hresult
    · exact ⟨hstep.reason, hstep.instructions⟩
    · exact h.complete result hresult
  · simpa only [List.take_succ_cons, executeSources] using h.cpu
  · simpa only [List.take_succ_cons, executeSources] using hstep.unseen.trans h.unseen
  · simpa only [List.take_succ_cons, executeSources] using h.bus.trans hstep.bus
  · rcases h.stop with hstop | ⟨hpos, hlt, branch, hget, hb⟩
    · left
      rw [List.length_cons, hstop]
      omega
    · right
      refine ⟨by omega, by rw [List.length_cons]; omega, branch, ?_, hb⟩
      rw [show out.1 + 1 - 1 = (out.1 - 1) + 1 by omega, List.getElem?_cons_succ, hget]

lemma BlockMirrors.branch (hstep : StepMirrors env source inst m)
    (hb : isMicroBranch source.decoded.kind = true) :
    BlockMirrors env (source :: rest) (limit + 1) m
      (1, ((ofState m.cpu).interpretMicroOp inst).2) := by
  refine ⟨by simp [executeSources], ?_, by simpa [executeSources] using hstep.cpu,
    by simpa [executeSources] using hstep.unseen, by simpa [executeSources] using hstep.bus, ?_⟩
  · intro result hresult
    simp [executeSources] at hresult
    subst hresult
    exact ⟨hstep.reason, hstep.instructions⟩
  · by_cases h : min limit rest.length = 0
    · exact .inl (by rw [List.length_cons]; omega)
    · exact .inr ⟨by omega, by rw [List.length_cons]; omega, source, by simp, hb⟩

lemma Unseen.itState {s : CpuState} (h : Unseen s t) : t.itState = s.itState := by
  rw [← h.rest]

lemma lowerAll_cons {ops : List MicroInst} (h : lowerAll (source :: rest) = .ok ops) :
    ∃ inst insts, tryLowerMicroInst source = .ok inst ∧ lowerAll rest = .ok insts ∧
      ops = inst :: insts := by
  rw [lowerAll] at h
  cases hsource : tryLowerMicroInst source with
  | error failure => rw [hsource] at h; cases h
  | ok inst =>
    rw [hsource] at h
    obtain ⟨-, h⟩ := ok_of_refuse h
    cases hrest : lowerAll rest with
    | error failure => rw [hrest] at h; cases h
    | ok insts =>
      rw [hrest] at h
      cases h
      exact ⟨inst, insts, rfl, rfl, rfl⟩

/-- By induction on the block: each instruction does the same on both sides and
stays outside IT. -/
lemma blockMirrors_of_lowerAll {sources : List MicroSource} {ops : List MicroInst}
    (hd : ∀ source ∈ sources, Wellformed source.decoded) (h : lowerAll sources = .ok ops)
    (m : Machine δ) (hit : inItBlock m.cpu.itState = false) (limit : Nat) :
    BlockMirrors env sources limit m (interpretMicroOps ops (ofState m.cpu) limit) := by
  induction sources generalizing ops m limit with
  | nil =>
    cases h
    exact .none [] m (by simp)
  | cons source rest ih =>
    obtain ⟨inst, insts, hsource, hrest, rfl⟩ := lowerAll_cons h
    cases limit with
    | zero => exact .none _ m (by simp)
    | succ limit =>
      have hstep : StepMirrors env source inst m :=
        stepMirrors_of_lowered hit (hd source (by simp)) hsource
      unfold interpretMicroOps
      dsimp only
      split
      · rename_i hexit
        refine .branch hstep ?_
        have hplaced := lowerKind_placed (tryLowerMicroInst_ok hsource).2
        cases hb : isMicroBranch source.decoded.kind with
        | true => rfl
        | false =>
          rw [interpretMicroOp_data _ (hplaced.branch.trans hb)] at hexit
          cases hexit
      · have hit' : inItBlock (executeSource env source m).2.cpu.itState = false := by
          rw [hstep.unseen.itState]
          exact hit
        have hnext := ih (fun s hs => hd s (by simp [hs])) hrest (executeSource env source m).2
          hit' limit
        rw [hstep.cpu] at hnext
        exact .cons hstep hnext

/-- Lowering keeps the meaning. For every block that was built from decoded
instructions, every machine outside IT and every limit, the interpreter retires
as many instructions as it says, and ends with the registers, the flags and the
PC that the reference executor gives for the same instructions; the rest of the
core and the memory are as they were. -/
theorem lowering_preserves_meaning (env : Environment δ) (sources : List MicroSource)
    (block : MicroBlock) (hd : ∀ source ∈ sources, ∃ size, Decoded source.decoded size)
    (h : buildMicroBlock sources = .ok block) (m : Machine δ)
    (hit : inItBlock m.cpu.itState = false) (limit : Nat) :
    BlockMirrors env sources limit m
      (interpretMicroOps block.ops (MicroCpu.ofState m.cpu) limit) := by
  have hwell : ∀ source ∈ sources, Wellformed source.decoded := by
    intro source hs
    obtain ⟨size, hsize⟩ := hd source hs
    exact hsize.wellformed
  unfold buildMicroBlock at h
  split at h
  · cases h
  obtain ⟨-, h⟩ := ok_of_refuse h
  split at h
  · cases h
  rename_i ops hops
  cases h
  exact blockMirrors_of_lowerAll hwell hops m hit limit

/-- ADDS r0, r1, r2 and a branch back to it. -/
def sampleLoop : List MicroSource :=
  [⟨sampleAdd, 0x08000000, 2⟩,
    ⟨{ kind := .b, form := .immediate, branchOffset := -6, raw := 0xe7fd }, 0x08000002, 2⟩]

theorem an_add_and_a_branch_are_lowered :
    ∃ block, buildMicroBlock sampleLoop = .ok block ∧
      BlockMirrors plainEnvironment sampleLoop 2 ⟨resetState, smallBoard [0x1888, 0xe7fd], {}⟩
        (interpretMicroOps block.ops (MicroCpu.ofState resetState) 2) := by
  have hd : ∀ source ∈ sampleLoop, ∃ size, Decoded source.decoded size := by
    intro source hs
    simp [sampleLoop] at hs
    rcases hs with rfl | rfl
    · exact ⟨2, .inl ⟨rfl, 0x1888, by decide⟩⟩
    · exact ⟨2, .inl ⟨rfl, 0xe7fd, by decide⟩⟩
  obtain ⟨block, hblock⟩ : ∃ block, buildMicroBlock sampleLoop = .ok block := ⟨_, rfl⟩
  exact ⟨block, hblock, lowering_preserves_meaning plainEnvironment sampleLoop block hd hblock
    ⟨resetState, smallBoard [0x1888, 0xe7fd], {}⟩ (by decide) 2⟩

end Step

end Fil.Cpu
