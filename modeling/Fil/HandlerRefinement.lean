-- The fast handlers refine the reference executor: a handler that retires an
-- instruction leaves the core and the memory as the executor does, and one
-- that declines leaves both as they were.
import Fil.ExecutorFacts
import Fil.FlagFacts
import Fil.Stepper

open Dialogue Fil.Mem Fil.Mem.MemoryBus
open Fil.Cpu.Request (perform write32)

namespace Fil.Cpu

/-! ## Handlers that stay in the core -/

variable {subtract : Bool}

section Core

variable {d : DecodedInstruction} {s : CpuState}

lemma shiftedOperand_register (h : d.form = .registerValue) :
    shiftedOperand d s = jitShifted d s := by
  rw [shiftedOperand, if_neg (by rw [h]; decide)]
  rfl

lemma shiftedOperand_immediate (h : d.form = .immediate) :
    shiftedOperand d s =
      ⟨d.imm, if d.immediateCarryValid then d.immediateCarry else s.xpsr &&& xpsrC != 0⟩ := by
  rw [shiftedOperand, if_pos h]
  rfl

lemma executeMov_register (h : d.form = .registerValue) (hrd : d.rd ≠ 15) :
    executeMov d s = complete (fastMovReg d s) := by
  unfold executeMov fastMovReg
  simp only [if_neg hrd, shiftedOperand_register h, jitSetNzc_eq]

lemma executeMov_immediate (h : d.form = .immediate) (hrd : d.rd ≠ 15) :
    executeMov d s = complete (fastMovImm d s) := by
  unfold executeMov fastMovImm
  simp only [if_neg hrd, shiftedOperand_immediate h, jitSetNzc_eq, CpuState.writeRegister_xpsr]

variable {register : Bool}

section

variable (h : d.form = if register then .registerValue else .immediate)
include h

lemma operand2_eq :
    operand2 d s = if register then (jitShifted d s).value else d.imm := by
  cases register
  · rw [operand2, shiftedOperand_immediate h]
    rfl
  · rw [operand2, shiftedOperand_register h]
    rfl

lemma fastAdd_eq (hrd : d.rd ≠ 15)
    (hs : subtract = (decide (d.kind = .sub) || decide (d.kind = .sbc))) :
    fastAdd subtract register d s = executeAdd d s := by
  unfold fastAdd executeAdd writeAluResult
  dsimp only
  rw [jitAdd_write, operand2_eq h, if_neg hrd, hs]
  rw [ite_or]
  rfl

lemma fastCompare_eq :
    fastCompare register d s = executeCompare d s := by
  unfold fastCompare executeCompare
  dsimp only
  rw [jitAdd_eq, operand2_eq h]
  by_cases hk : d.kind = .cmp
  · simp [hk]
  · simp [hk]

end

lemma fastLogic_eq (h : d.form = .registerValue) : fastLogic d s = executeLogic d s := by
  unfold fastLogic executeLogic
  simp only [shiftedOperand_register h, jitSetNzc_eq]
  rfl

lemma fastMul_eq : fastMul d s = executeMul d s := by
  unfold fastMul executeMul
  simp only [jitSetNz_eq]

lemma fastShift_eq : fastShift d s = executeShift d s := by
  unfold fastShift executeShift
  simp only [jitSetNzc_eq]
  rfl

lemma fastTst_eq (hk : d.kind = .tst) (h : d.form = .immediate ∨ d.form = .registerValue) :
    fastRsbTst d s = executeTst d s := by
  unfold fastRsbTst executeTst
  rcases h with h | h
  · simp only [if_pos hk, h, shiftedOperand_immediate h, jitSetNzc_eq]
    rfl
  · simp [if_pos hk, h, shiftedOperand_register h, jitSetNzc_eq]

lemma fastRsb_eq (hk : d.kind = .rsb) (h : d.form = .immediate ∨ d.form = .registerValue) :
    fastRsbTst d s = executeRsb d s := by
  unfold fastRsbTst executeRsb operand2
  simp only [hk, jitAdd_write]
  rcases h with h | h
  · simp [h]
  · simp [h, shiftedOperand_register h]

lemma fastDivide_eq (hk : d.kind = .udiv ∨ d.kind = .sdiv) :
    fastDivide d s = if d.kind = .udiv then executeUdiv d s else executeSdiv d s := by
  rcases hk with hk | hk <;> (simp only [fastDivide, hk, reduceCtorEq, if_true, if_false]; rfl)

lemma fastSingle_eq
    (hk : d.kind = .clz ∨ d.kind = .rev ∨ d.kind = .rev16 ∨ d.kind = .revsh) :
    fastSingle d s = executeReverse d s := by
  rcases hk with hk | hk | hk | hk <;>
    simp only [fastSingle, executeReverse, reverseValue, hk]
  rfl

lemma fastExtend_eq
    (hk : d.kind = .uxtb ∨ d.kind = .uxth ∨ d.kind = .sxtb ∨ d.kind = .sxth) :
    fastExtend d s = executeExtend d s := by
  rcases hk with hk | hk | hk | hk <;>
    simp [fastExtend, executeExtend, extendByte, extendHalf, hk]

lemma fastBfc_eq (hk : d.kind = .bfc) : fastDspExtend d s = executeBfc d s := by
  simp only [fastDspExtend, hk, executeBfc, fieldMask]
  by_cases h : d.imm = 32
  · simp only [h, if_true]
  · simp only [h, if_false]

lemma fastCompareBranch_eq {ifZero : Bool} (h : ifZero = decide (d.kind = .cbz)) :
    fastCompareBranch ifZero d s.instructionAddress s = executeCompareBranch d s := by
  subst h
  unfold fastCompareBranch executeCompareBranch
  simp
  rfl

end Core

/-! ## Faithful handlers -/

section Faithful

variable {δ : Type}

/-- What the end of a handler has to be, against the executor on the same core
and bus. -/
structure Faithful (env : Environment δ) (d : DecodedInstruction) (s : CpuState) (b : MemoryBus δ)
    (h : Handled δ) : Prop where
  served : h.handled = true →
    (executeOn env d s b).1 = complete h.cpu ∧ Alike (executeOn env d s b).2 h.bus
  declined : h.handled = false → h.cpu = s ∧ Alike h.bus b

variable {env : Environment δ} {d : DecodedInstruction} {s t : CpuState} {b b' : MemoryBus δ}

lemma Faithful.decline (h : Alike b' b) : Faithful env d s b ⟨false, s, b'⟩ :=
  ⟨fun h => absurd h (by simp), fun _ => ⟨rfl, h⟩⟩

lemma Faithful.of_run {b1 : MemoryBus δ} (hfp : isFpRegisterAccess d.kind = false)
    (hrun : (dispatch env.fp d s).run perform b = (complete t, b1)) (h : Alike b1 b') :
    Faithful env d s b ⟨true, t, b'⟩ := by
  refine ⟨fun _ => ?_, fun h => absurd h (by simp)⟩
  unfold executeOn
  rw [execute_eq_dispatch hfp, hrun]
  exact ⟨rfl, h⟩

/-- A handler that leaves the very bus of the executor, with its notes and logs. -/
structure Exact (env : Environment δ) (d : DecodedInstruction) (s : CpuState) (b : MemoryBus δ)
    (h : Handled δ) : Prop where
  served : h.handled = true → executeOn env d s b = (complete h.cpu, h.bus)
  declined : h.handled = false → h.cpu = s ∧ h.bus = b

open Alike

lemma Exact.faithful {h : Handled δ} (hexact : Exact env d s b h) : Faithful env d s b h where
  served hserved := by
    rw [hexact.served hserved]
    exact ⟨rfl, refl _⟩
  declined hdeclined := by
    obtain ⟨hcpu, hbus⟩ := hexact.declined hdeclined
    exact ⟨hcpu, hbus ▸ refl _⟩

lemma Exact.decline : Exact env d s b ⟨false, s, b⟩ := ⟨nofun, fun _ => ⟨rfl, rfl⟩⟩

variable {k : InstrKind}

section

variable (hk : d.kind = k) (hfp : isFpRegisterAccess k = false)
include hk hfp

lemma Exact.of_run (hrun : (dispatch env.fp d s).run perform b = (complete t, b')) :
    Exact env d s b ⟨true, t, b'⟩ := by
  refine ⟨fun _ => ?_, nofun⟩
  unfold executeOn
  rw [execute_eq_dispatch (hk ▸ hfp), hrun]

lemma Exact.of_kind (h : dispatch env.fp d s = pure (complete t)) : Exact env d s b ⟨true, t, b⟩ :=
  .of_run hk hfp (by rw [h]; rfl)

end

/-! ## Loads and stores of one value -/

lemma fastAddress_eq :
    fastAddress d s (fastBase d s) = (offsetAddress d s, transferAddress d s) := rfl

open Prog

lemma run_executeLdr {v : BitVec 32} (hrd : d.rd ≠ 15)
    (h : b.tryFastRead32 (transferAddress d s) (readContext s) = some (v, b')) :
    (executeLdr d s).run perform b =
      (complete (writeBack d (offsetAddress d s) (s.writeRegister d.rd v)), b') := by
  simp [executeLdr, request, run_bind, run_query, perform_read32 h, if_neg hrd, run_pure]

lemma run_executeStr (hk : d.kind = .str)
    (h : b.tryFastWrite32 (transferAddress d s) (s.readRegister d.rd) (writeContext s) = some b') :
    (executeStore d s).run perform b =
      (complete (writeBack d (offsetAddress d s) s), b') := by
  simp [executeStore, hk, request, run_bind, run_query, perform_write32 h, run_pure]

open ByteLanes

lemma littleEndian_narrow (bytes : BitVec 32 → BitVec 8) (a : BitVec 32) {n : Nat} (hn : n ≤ 4) :
    ((littleEndian bytes a n).setWidth (n * 8)).setWidth 32 =
      (littleEndian bytes a n).setWidth 32 := by
  apply BitVec.eq_of_getLsbD_eq
  intro k hk
  simp only [BitVec.getLsbD_setWidth, getLsbD_littleEndian bytes a (by omega : n ≤ 8)]
  by_cases h : k < n * 8 <;> simp [h]

variable {c : AccessContext} {a : BitVec 32} {v : BitVec 64}

lemma tryFastRead_some {size : AccessSize} (h : b.tryFastRead a size c = some (v, b')) :
    v = littleEndian b.bytes a (byteCount size) ∧ Alike b' b := by
  unfold tryFastRead at h
  dsimp only at h
  split at h
  · cases h
  split at h
  · cases h
  · obtain ⟨rfl, rfl⟩ := Prod.mk.inj (Option.some.inj h)
    rw [(alike_readNote b a _ _).bytes]
    exact ⟨rfl, alike_readNote b a _ _⟩

lemma perform_read8 (h : b.tryFastRead a .byte c = some (v, b')) :
    (Request.read8 a c).perform b = (.ok (v.setWidth 32), b') := by
  obtain ⟨rfl, -⟩ := tryFastRead_some h
  simp only [perform, read8, h]
  exact congrArg (fun x => (Except.ok x, b')) (littleEndian_narrow b.bytes a (n := 1) (by decide))

lemma perform_read16 (h : b.tryFastRead a .halfword c = some (v, b')) :
    (Request.read16 a c).perform b = (.ok (v.setWidth 32), b') := by
  obtain ⟨rfl, -⟩ := tryFastRead_some h
  simp only [perform, read16, h]
  exact congrArg (fun x => (Except.ok x, b')) (littleEndian_narrow b.bytes a (n := 2) (by decide))

/-- LDRB, LDRSB, LDRH and LDRSH. -/
lemma exact_ldrSub
    (hk : d.kind = .ldrb ∨ d.kind = .ldrsb ∨ d.kind = .ldrh ∨ d.kind = .ldrsh) (hrd : d.rd ≠ 15) :
    Exact env d s b (fastLdrSub d s.instructionAddress s b) := by
  unfold fastLdrSub
  simp only [fastAddress_eq]
  split
  · exact .decline
  rename_i raw b1 hread
  rcases hk with hk | hk | hk | hk <;> refine .of_run hk rfl ?_ <;> rw [dispatch, hk] <;>
    simp only [hk, reduceCtorEq, or_false, or_true, or_self, if_true, if_false, false_and,
      true_and] at hread ⊢ <;>
    simp only [executeLoadPart, hk, reduceCtorEq, or_false, or_true, or_self, if_true, if_false,
      request, run_bind, run_query, readContext, CpuState.currentInstrAddr]
  · rw [perform_read8 hread]
    simp only [if_neg hrd, run_pure]
  · rw [perform_read8 hread]
    simp only [if_neg hrd, run_pure, extendByte]
  · rw [perform_read16 hread]
    simp only [if_neg hrd, run_pure]
  · rw [perform_read16 hread]
    simp only [if_neg hrd, run_pure, extendHalf]

lemma byteAt_narrow (v : BitVec 32) {n i : Nat} (hi : i * 8 + 8 ≤ n) :
    byteAt ((v.setWidth n).setWidth 64) i = byteAt (v.setWidth 64) i := by
  apply BitVec.eq_of_getLsbD_eq
  intro k hk
  have h1 : i * 8 + k < n := by omega
  simp [getLsbD_byteAt, BitVec.getLsbD_setWidth, h1]

lemma tryFastWrite_narrow (b : MemoryBus δ) (a v : BitVec 32) (c : AccessContext)
    {size : AccessSize} (hsize : byteCount size = 1 ∨ byteCount size = 2) :
    b.tryFastWrite a size ((v.setWidth (byteCount size * 8)).setWidth 64) c =
      b.tryFastWrite a size (v.setWidth 64) c := by
  have hword : ¬byteCount size = 4 := by omega
  have hbytes : ∀ i, i < byteCount size →
      byteAt ((v.setWidth (byteCount size * 8)).setWidth 64) i =
        byteAt (v.setWidth 64) i := fun i hi => byteAt_narrow v (by omega)
  unfold tryFastWrite
  simp only [if_neg hword, storeBytes_congr _ a _ _ hbytes]

lemma perform_write8 {v : BitVec 32} (h : b.tryFastWrite a .byte (v.setWidth 64) c = some b') :
    (Request.write8 a (v.setWidth 8) c).perform b = (.ok 0, b') := by
  rw [← tryFastWrite_narrow b a v c (.inl rfl)] at h
  simp only [perform, write8]
  rw [show byteCount .byte * 8 = 8 from rfl] at h
  rw [h]
  rfl

lemma perform_write16 {v : BitVec 32} (h : b.tryFastWrite a .halfword (v.setWidth 64) c = some b') :
    (Request.write16 a (v.setWidth 16) c).perform b = (.ok 0, b') := by
  rw [← tryFastWrite_narrow b a v c (.inr rfl)] at h
  simp only [perform, write16]
  rw [show byteCount .halfword * 8 = 16 from rfl] at h
  rw [h]
  rfl

lemma exact_strSub (hk : d.kind = .strb ∨ d.kind = .strh) :
    Exact env d s b (fastStrSub d s.instructionAddress s b) := by
  unfold fastStrSub
  simp only [fastAddress_eq]
  split
  · exact .decline
  rename_i b1 hwrite
  rcases hk with hk | hk <;> refine .of_run hk rfl ?_ <;> rw [dispatch, hk] <;>
    simp only [hk, reduceCtorEq, if_true, if_false] at hwrite <;>
    simp only [executeStore, hk, request, run_bind, run_query, writeContext,
      CpuState.currentInstrAddr]
  · rw [perform_write8 hwrite]
    rfl
  · rw [perform_write16 hwrite]
    rfl

lemma exact_ldrImm (hk : d.kind = .ldr) (hrd : d.rd ≠ 15) :
    Exact env d s b (fastLdrImm d s.instructionAddress s b) := by
  unfold fastLdrImm
  simp only [fastAddress_eq]
  split
  · exact .decline
  · rename_i v b1 hread
    exact .of_run hk rfl (by rw [dispatch, hk]; exact run_executeLdr hrd hread)

lemma exact_strImm (hk : d.kind = .str) :
    Exact env d s b (fastStrImm d s.instructionAddress s b) := by
  unfold fastStrImm
  simp only [fastAddress_eq]
  split
  · exact .decline
  · rename_i b1 hwrite
    exact .of_run hk rfl (by rw [dispatch, hk]; exact run_executeStr hk hwrite)

lemma wordGpr_facts (h : wordGpr d = true) :
    fastBase d s = s.core d.rn ∧ fastAddress d s (s.core d.rn) =
      (s.core d.rn + d.imm, s.core d.rn + d.imm) ∧
    s.readRegister d.rd = s.core d.rd ∧
    ∀ v a, writeBack d a (s.writeRegister d.rd v) = s.setCore d.rd v ∧ writeBack d a s = s := by
  simp only [wordGpr, Bool.and_eq_true, decide_eq_true_eq, Bool.not_eq_true'] at h
  obtain ⟨⟨⟨⟨⟨hform, hrn⟩, hrd⟩, hindex⟩, hadd⟩, hwb⟩ := h
  have h1 : d.rn ≠ 15 := by omega
  have h2 : d.rn ≠ 13 := by omega
  have h3 : d.rd ≠ 15 := by omega
  have h4 : d.rd ≠ 13 := by omega
  refine ⟨?_, ?_, ?_, fun v a => ⟨?_, ?_⟩⟩
  · simp only [fastBase, if_neg h1, CpuState.readRegister, if_neg h2]
  · simp [fastAddress, fastOffset, hform, hindex, hadd]
  · simp only [CpuState.readRegister, if_neg h3, if_neg h4]
  · simp [writeBack, hwb, CpuState.writeRegister, if_neg h4]
  · simp [writeBack, hwb]

lemma fastLdrWordGpr_eq (h : wordGpr d = true) (pc : BitVec 32) :
    fastLdrWordGpr d pc s b = fastLdrImm d pc s b := by
  obtain ⟨hbase, haddress, -, hwrite⟩ := wordGpr_facts (s := s) h
  simp only [fastLdrWordGpr, fastLdrImm, hbase, haddress, hwrite]

lemma fastStrWordGpr_eq (h : wordGpr d = true) (pc : BitVec 32) :
    fastStrWordGpr d pc s b = fastStrImm d pc s b := by
  obtain ⟨hbase, haddress, hread, hwrite⟩ := wordGpr_facts (s := s) h
  simp only [fastStrWordGpr, fastStrImm, hbase, haddress, hread, hwrite 0]

/-! ## Transfers of several words -/

variable {words : List (BitVec 32)}

lemma tryFastReadWords_some {count : Nat} {pc : BitVec 32}
    (h : b.tryFastReadWords a count ⟨.dataRead, pc⟩ = some (words, b')) :
    ∃ r, b.fastReadRegion a (count * 4) ⟨.dataRead, pc⟩ = some r ∧ Alike b' b ∧
      words = (List.range count).map fun w => b.loadWord (a + BitVec.ofNat 32 (w * 4)) := by
  rw [tryFastReadWords_eq] at h
  split_ifs at h
  obtain ⟨r, hregion, hv⟩ := Option.map_eq_some_iff.mp h
  obtain ⟨rfl, rfl⟩ := Prod.mk.inj hv
  exact ⟨r, hregion, alike_foldl_readNote _ _ _ b, rfl⟩

lemma tryFastWriteWords_some {vs : List (BitVec 32)} (h : b.tryFastWriteWords a vs c = some b') :
    ∃ r, b.fastWriteRegion a (vs.length * 4) false = some r ∧
      Alike (b.storeWords (c.pc = 0) a vs) b' := by
  rw [tryFastWriteWords_eq] at h
  split_ifs at h
  obtain ⟨r, hregion, rfl⟩ := Option.map_eq_some_iff.mp h
  refine ⟨r, hregion, ?_⟩
  rw [Alike, unwatched_noteExecutable, unwatched_storeWords, unwatched_storeWords,
    unwatched_addStoreFootprint]

lemma fastPair_address (hform : d.form = .immediate) :
    fastAddress d s (s.readRegister d.rn) = (pairOffsetAddress d s, pairAddress d s) := by
  simp only [fastAddress, fastOffset, hform, reduceCtorEq, if_false]
  rfl

lemma run_executeLdrd {r : Region}
    (h : b.fastReadRegion (pairAddress d s) (2 * 4) (readContext s) = some r) :
    ∃ b1, (executeLdrd d s).run perform b =
      (complete (writeBack d (pairOffsetAddress d s)
        ((s.writeRegister d.rd (b.loadWord (pairAddress d s))).writeRegister d.ra
          (b.loadWord (pairAddress d s + 4)))), b1) ∧ Alike b1 b := by
  have hfirst := fastReadRegion_part h (i := 0) (w := 4) (by omega) (by omega)
  have hsecond : b.fastReadRegion (pairAddress d s + 4) 4 (readContext s) = some r :=
    fastReadRegion_part h (i := 4) (by omega) (by omega)
  rw [BitVec.add_zero] at hfirst
  obtain ⟨b1, h1, ha1⟩ := tryFastRead32_of_region hfirst
  rw [← ha1.fastReadRegion] at hsecond
  obtain ⟨b2, h2, ha2⟩ := tryFastRead32_of_region hsecond
  have hword : b1.loadWord (pairAddress d s + 4) = b.loadWord (pairAddress d s + 4) := by
    unfold loadWord
    rw [ha1.bytes]
  refine ⟨b2, ?_, ha2.trans ha1⟩
  rw [← hword]
  simp only [executeLdrd, request, run_bind, run_query, perform_read32 h1]
  rw [perform_read32 h2]
  rfl

lemma run_executeStrd {r : Region}
    (h : b.fastWriteRegion (pairAddress d s) (2 * 4) false = some r) :
    ∃ b1, (executeStrd d s).run perform b =
        (complete (writeBack d (pairOffsetAddress d s) s), b1) ∧
      Alike b1 (b.storeWords ((writeContext s).pc = 0) (pairAddress d s)
        [s.readRegister d.rd, s.readRegister d.ra]) := by
  obtain ⟨b1, hrun, h1⟩ := run_writeEach (c := writeContext s)
    [s.readRegister d.rd, s.readRegister d.ra] (pairAddress d s) (refl b) (.inl h)
  simp only [writeEach, request, run_bind, run_query] at hrun
  refine ⟨b1, ?_, h1⟩
  simp only [executeStrd, request, run_bind, run_query]
  rcases hfirst : (write32 (pairAddress d s) (s.readRegister d.rd)
    (writeContext s)).perform b with ⟨fault | x, b2⟩
  · simp [hfirst] at hrun
  · simp only [hfirst, run_bind, run_query] at hrun ⊢
    rcases hsecond : (write32 (pairAddress d s + 4) (s.readRegister d.ra)
      (writeContext s)).perform b2 with ⟨fault | y, b3⟩
    · rw [hsecond] at hrun
      simp at hrun
    · rw [hsecond] at hrun
      exact Prod.ext rfl (Prod.ext_iff.mp hrun).2

/-- LDRD and STRD. -/
lemma faithful_pair (hk : d.kind = .ldrd ∨ d.kind = .strd) (hform : d.form = .immediate) :
    Faithful env d s b (fastLdrdStrd d s.instructionAddress s b) := by
  unfold fastLdrdStrd
  simp only [fastPair_address hform]
  rcases hk with hk | hk
  · have hfp : isFpRegisterAccess d.kind = false := by rw [hk]; rfl
    have hdispatch : dispatch env.fp d s = executeLdrd d s := by rw [dispatch, hk]
    rw [if_pos hk]
    split
    · exact .decline (refl b)
    rename_i words b1 hread
    obtain ⟨r, hregion, hb1, rfl⟩ := tryFastReadWords_some hread
    obtain ⟨b2, hrun, hb2⟩ := run_executeLdrd hregion
    refine .of_run hfp ?_ (hb2.trans hb1.symm)
    rw [hdispatch, hrun]
    simp [List.range_succ]
  · have hfp : isFpRegisterAccess d.kind = false := by rw [hk]; rfl
    have hdispatch : dispatch env.fp d s = executeStrd d s := by rw [dispatch, hk]
    rw [if_neg (by rw [hk]; decide)]
    split
    · exact .decline (refl b)
    rename_i b1 hwrite
    obtain ⟨r, hregion, hb1⟩ := tryFastWriteWords_some hwrite
    obtain ⟨b2, hrun, hb2⟩ := run_executeStrd hregion
    exact .of_run hfp (by rw [hdispatch, hrun]) (hb2.trans hb1)

lemma run_readList {pc : BitVec 32}
    (h : b.tryFastReadWords (listStart d s) (popcount d.registerList) ⟨.dataRead, pc⟩ =
      some (words, b')) :
    ∃ b1, (readEach ⟨.dataRead, pc⟩ (listedRegisters d.registerList) (listStart d s)).run
        perform b = (.ok (spread d words), b1) ∧ Alike b1 b' := by
  obtain ⟨r, hregion, hb', rfl⟩ := tryFastReadWords_some h
  obtain ⟨b1, hrun, hb1⟩ := run_readEach (listedRegisters d.registerList) (listStart d s)
    (refl b) (.inl hregion)
  exact ⟨b1, hrun, hb1.trans hb'.symm⟩

lemma fastWriteBack_eq (s t : CpuState) :
    fastWriteBack d (s.readRegister d.rn)
      (if !d.add && d.index then
        s.readRegister d.rn - BitVec.ofNat 32 (popcount d.registerList * 4)
        else s.readRegister d.rn) t = writeBack d (listEnd d s) t := rfl

lemma dispatch_loadMultiple (env : Environment δ) (s : CpuState)
    (hk : d.kind = .pop ∨ d.kind = .ldm) : isFpRegisterAccess d.kind = false ∧
      dispatch env.fp d s = executeLoadMultiple d s := by
  rcases hk with hk | hk <;> rw [dispatch, hk] <;> exact ⟨rfl, rfl⟩

/-- POP and LDM of ordinary registers. -/
lemma faithful_loadMultiple (hk : d.kind = .pop ∨ d.kind = .ldm)
    (hpc : d.registerList.getLsbD 15 = false) :
    Faithful env d s b (fastMultiple true d s.instructionAddress s b) := by
  obtain ⟨hfp, hdispatch⟩ := dispatch_loadMultiple env s hk
  unfold fastMultiple
  simp only [if_true]
  split
  · exact .decline (refl b)
  split
  · exact .decline (refl b)
  rename_i words b1 hread
  obtain ⟨b2, hrun, hb2⟩ := run_readList hread
  refine .of_run hfp ?_ hb2
  rw [hdispatch]
  simp only [executeLoadMultiple, run_bind]
  rw [show readContext s = ⟨.dataRead, s.instructionAddress⟩ from rfl, hrun]
  simp only [hpc, Bool.false_eq_true, if_false, run_pure]
  rfl

/-- PUSH and STM. -/
lemma faithful_storeMultiple (hk : d.kind = .push ∨ d.kind = .stm) :
    Faithful env d s b (fastMultiple false d s.instructionAddress s b) := by
  have hfp : isFpRegisterAccess d.kind = false := by
    rcases hk with hk | hk <;> rw [hk] <;> rfl
  have hdispatch : dispatch env.fp d s = executeStoreMultiple d s := by
    rcases hk with hk | hk <;> rw [dispatch, hk]
  unfold fastMultiple
  simp only [Bool.false_eq_true, if_false]
  split
  · exact .decline (refl b)
  split
  · exact .decline (refl b)
  rename_i b1 hwrite
  obtain ⟨r, hregion, hb1⟩ := tryFastWriteWords_some hwrite
  obtain ⟨b2, hrun, hb2⟩ := run_writeEach (c := writeContext s) _ (listStart d s)
    (refl b) (.inl hregion)
  refine .of_run hfp ?_ (hb2.trans hb1)
  rw [hdispatch]
  simp only [executeStoreMultiple, run_bind, hrun]
  rfl

/-- POP and LDM that load the PC. The handler looks at the target first. -/
lemma faithful_popPc (hk : d.kind = .pop ∨ d.kind = .ldm)
    (hpc : d.registerList.getLsbD 15 = true) :
    Faithful env d s b (fastPopPc d s.instructionAddress s b) := by
  obtain ⟨hfp, hdispatch⟩ := dispatch_loadMultiple env s hk
  unfold fastPopPc
  dsimp only
  split
  · exact .decline (refl b)
  split
  · exact .decline (refl b)
  rename_i words b1 hread
  obtain ⟨b2, hrun, hb2⟩ := run_readList hread
  obtain ⟨-, -, hb1, -⟩ := tryFastReadWords_some hread
  have hexec : (executeLoadMultiple d s).run perform b =
      ((loadPc (writeBack d (listEnd d s) (writeLoaded s (spread d words)))
          (loadedFor (spread d words) 15)).elim
        (failInvalid (writeBack d (listEnd d s) (writeLoaded s (spread d words)))
          "POP/LDM selected non-Thumb state") complete, b2) := by
    simp only [executeLoadMultiple, run_bind]
    rw [show readContext s = ⟨.dataRead, s.instructionAddress⟩ from rfl, hrun]
    simp only [hpc, if_true]
    cases loadPc _ (loadedFor (spread d words) 15) <;> rfl
  rw [← hdispatch] at hexec
  rw [fastWriteBack_eq]
  generalize writeBack d (listEnd d s) (writeLoaded s (spread d words)) = t at hexec
  generalize loadedFor (spread d words) 15 = v at hexec
  unfold loadPc at hexec
  split at hexec
  · rename_i hv
    simp only [hv, Bool.not_true, Bool.false_and, Bool.false_eq_true, if_false, if_true]
    exact .of_run hfp hexec hb2
  rename_i hv
  by_cases hodd : v &&& 1 = 0
  · simp only [hv, hodd, BEq.rfl, Bool.not_false, Bool.and_self, if_true]
    exact .decline hb1
  simp only [CpuState.branchWritePc, hodd, if_false] at hexec
  simp only [hv, hodd, beq_iff_eq, Bool.not_false, Bool.true_and, Bool.false_eq_true,
    if_false, CpuState.branchWritePc]
  exact .of_run hfp hexec hb2

lemma exact_bx (hk : d.kind = .bx) : Exact env d s b (fastBxBlx d s b) := by
  have hdispatch : dispatch env.fp d s = pure (executeBranchExchange d s) := by
    rw [dispatch, hk]
  simp [executeBranchExchange, hk] at hdispatch
  simp only [fastBxBlx, hk, true_and]
  by_cases hv : isExceptionReturn (s.readRegister d.rm) = true
  · rw [if_pos hv] at hdispatch ⊢
    exact .of_kind hk rfl hdispatch
  rw [if_neg hv] at hdispatch ⊢
  cases hb : s.branchWritePc (s.readRegister d.rm) with
  | none => exact .decline
  | some t =>
    rw [hb] at hdispatch
    exact .of_kind hk rfl hdispatch

/-! ## Every handler is faithful -/

/-- The kinds that move several words at once. -/
def InstrKind.moves : InstrKind → Bool
  | .ldrd | .strd | .pop | .ldm | .push | .stm => true
  | _ => false

/-- The handler that the classification chose. -/
def Sound (env : Environment δ) (d : DecodedInstruction) (s : CpuState) (b : MemoryBus δ)
    (fast : JitFast) : Prop :=
  Faithful env d s b (executeJitFast d fast s.instructionAddress s b)

/-- One that leaves the bus of the executor. -/
def Precise (env : Environment δ) (d : DecodedInstruction) (s : CpuState) (b : MemoryBus δ)
    (fast : JitFast) : Prop :=
  Exact env d s b (executeJitFast d fast s.instructionAddress s b)

lemma precise_generic : Precise env d s b .generic := .decline

lemma precise_ite {p : Prop} [Decidable p] {f g : JitFast} (hf : p → Precise env d s b f)
    (hg : ¬p → Precise env d s b g) : Precise env d s b (if p then f else g) :=
  iteInduction (motive := Precise env d s b) hf hg

lemma precise_byForm {i r : JitFast} (hi : d.form = .immediate → Precise env d s b i)
    (hr : d.form = .registerValue → Precise env d s b r) : Precise env d s b (byForm d i r) :=
  precise_ite hi fun _ => precise_ite hr fun _ => precise_generic

/-- ADD and ADC, SUB and SBC, each with its two handlers. -/
lemma precise_add {i r : JitFast} (hk : d.kind = k)
    (hfp : isFpRegisterAccess k = false) (hrd : d.rd ≠ 15)
    (hs : subtract = (decide (k = .sub) || decide (k = .sbc)))
    (hdispatch : dispatch env.fp d s = pure (complete (executeAdd d s)))
    (hi : executeJitFast d i s.instructionAddress s b = ⟨true, fastAdd subtract false d s, b⟩)
    (hr : executeJitFast d r s.instructionAddress s b = ⟨true, fastAdd subtract true d s, b⟩) :
    Precise env d s b (byForm d i r) := by
  rw [← hk] at hs
  refine precise_byForm (fun hform => ?_) (fun hform => ?_) <;> unfold Precise
  · rw [hi]
    exact .of_kind hk hfp (by rw [hdispatch, fastAdd_eq hform hrd hs])
  · rw [hr]
    exact .of_kind hk hfp (by rw [hdispatch, fastAdd_eq hform hrd hs])

lemma precise_mov (hk : d.kind = .mov) (hrd : d.rd ≠ 15) :
    Precise env d s b (byForm d .movImm .movReg) := by
  have hdispatch : dispatch env.fp d s = pure (executeMov d s) := by rw [dispatch, hk]
  refine precise_byForm (fun hform => .of_kind hk rfl ?_) (fun hform => .of_kind hk rfl ?_)
  · rw [hdispatch, executeMov_immediate hform hrd]
  · rw [hdispatch, executeMov_register hform hrd]

lemma precise_ldr (hk : d.kind = .ldr) :
    Precise env d s b (if wordGpr d then .ldrWordGpr
      else if addressForm d ∧ d.rd ≠ 15 then .ldrImm else .generic) := by
  refine precise_ite (fun h => ?_) fun _ =>
    precise_ite (fun h => exact_ldrImm hk h.2) fun _ => precise_generic
  have hrd : d.rd ≠ 15 := by
    simp [wordGpr] at h
    omega
  have hload : Exact env d s b (fastLdrImm d s.instructionAddress s b) := exact_ldrImm hk hrd
  rwa [← fastLdrWordGpr_eq h] at hload

lemma precise_str (hk : d.kind = .str) :
    Precise env d s b (if wordGpr d then .strWordGpr
      else if addressForm d ∧ d.rd ≠ 15 then .strImm else .generic) := by
  have hstore : Exact env d s b (fastStrImm d s.instructionAddress s b) := exact_strImm hk
  refine precise_ite (fun h => ?_) fun _ => precise_ite (fun _ => hstore) fun _ => precise_generic
  rwa [← fastStrWordGpr_eq h] at hstore

/-- The handlers of the instructions that move one value at most, kind by kind. -/
lemma executeJitFast_exact (hmoves : d.kind.moves = false) :
    Precise env d s b (classifyJitFast d) := by
  have hgeneric : ∀ {p : Prop}, ¬p → Precise env d s b .generic := fun _ => precise_generic
  unfold classifyJitFast
  cases hk : d.kind
  case nop | b | bl => exact .of_kind hk rfl (by rw [dispatch, hk] <;> rfl)
  case movw | movt | mla | mls | umull | smull =>
    exact precise_ite (fun _ => .of_kind hk rfl (by rw [dispatch, hk] <;> rfl)) hgeneric
  case cbz | cbnz =>
    exact .of_kind hk rfl (by rw [fastCompareBranch_eq (by rw [hk]; rfl), dispatch, hk])
  case bx => exact exact_bx hk
  case mov =>
    exact precise_ite (fun _ => precise_generic) fun h => precise_mov hk fun h15 => h (.inl h15)
  case add | adc | sub | sbc =>
    exact precise_ite (fun _ => precise_generic) fun hrd =>
      precise_add hk rfl hrd rfl (by rw [dispatch, hk]) rfl rfl
  case cmp | cmn =>
    exact precise_byForm (fun h => .of_kind hk rfl (by rw [fastCompare_eq h, dispatch, hk]))
      fun h => .of_kind hk rfl (by rw [fastCompare_eq h, dispatch, hk])
  case and_ | orr | eor | bic | mvn | orn =>
    exact precise_ite (fun h => .of_kind hk rfl (by rw [fastLogic_eq h.1, dispatch, hk])) hgeneric
  case mul =>
    exact precise_ite (fun _ => .of_kind hk rfl (by rw [fastMul_eq, dispatch, hk])) hgeneric
  case udiv | sdiv =>
    exact precise_ite (fun _ => .of_kind hk rfl (by
      rw [fastDivide_eq (by simp [hk]), dispatch, hk]; rfl)) hgeneric
  case rsb =>
    exact precise_byForm (fun h => .of_kind hk rfl (by rw [fastRsb_eq hk (.inl h), dispatch, hk]))
      fun h => .of_kind hk rfl (by rw [fastRsb_eq hk (.inr h), dispatch, hk])
  case tst =>
    exact precise_byForm (fun h => .of_kind hk rfl (by rw [fastTst_eq hk (.inl h), dispatch, hk]))
      fun h => .of_kind hk rfl (by rw [fastTst_eq hk (.inr h), dispatch, hk])
  case clz | rev | rev16 | revsh =>
    exact .of_kind hk rfl (by rw [fastSingle_eq (by simp [hk]), dispatch, hk])
  case lsl | lsr | asr | ror | rrx =>
    exact precise_ite (fun _ => .of_kind hk rfl (by rw [fastShift_eq, dispatch, hk])) hgeneric
  case sxtb | sxth | uxtb | uxth =>
    exact .of_kind hk rfl (by rw [fastDspExtend, hk, fastExtend_eq (by simp [hk]), dispatch, hk])
  case bfc => exact .of_kind hk rfl (by rw [fastBfc_eq hk, dispatch, hk])
  case ubfx | uadd8 | sel => exact .of_kind hk rfl (by rw [fastDspExtend, hk, dispatch, hk]; rfl)
  case ldr => exact precise_ldr hk
  case str => exact precise_str hk
  case ldrb | ldrh | ldrsb | ldrsh =>
    exact precise_ite (fun h => exact_ldrSub (by simp [hk]) h.2) hgeneric
  case strb | strh => exact precise_ite (fun _ => exact_strSub (by simp [hk])) hgeneric
  case ldrd | strd | pop | ldm | push | stm =>
    rw [hk] at hmoves
    cases hmoves
  all_goals exact precise_generic

lemma executeJitFast_faithful (h : Wellformed d) : Sound env d s b (classifyJitFast d) := by
  by_cases hmoves : d.kind.moves = true
  swap
  · exact (executeJitFast_exact (Bool.eq_false_iff.mpr hmoves)).faithful
  revert hmoves
  unfold classifyJitFast Sound
  cases hk : d.kind <;> dsimp only <;> intro hmoves
  case ldrd | strd =>
    split
    · exact faithful_pair (by simp [hk]) (h.pair (by simp [hk]))
    · exact .decline (refl b)
  case pop | ldm =>
    split
    · rename_i hpc
      exact faithful_popPc (by simp [hk]) hpc
    · rename_i hpc
      simpa [executeJitFast, hk] using faithful_loadMultiple (by simp [hk]) (by simpa using hpc)
  case push | stm =>
    rw [if_neg (by rw [h.storeList (by simp [hk])]; decide)]
    simpa [executeJitFast, hk] using faithful_storeMultiple (by simp [hk])
  all_goals cases hmoves

end Faithful

end Fil.Cpu
