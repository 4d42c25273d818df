-- Register 13 in the register file is a copy of the stack pointer that the mode and
-- CONTROL select. Writes to the register, MSR to MSP and PSP, exception entries and
-- returns and the debugger all keep it up. MSR to CONTROL selects a stack and leaves
-- the copy as it was.
import Fil.ActiveExceptions

open Fil.Mem

namespace Fil.Cpu

/-! ## The copy -/

namespace CpuState

/-- A reset, with the first two words of the vector table. -/
def reset (initialMsp resetHandler : BitVec 32) : CpuState :=
  let thumb := resetHandler &&& 1 != 0
  let s : CpuState := { msp := initialMsp, thumb, xpsr := if thumb then xpsrT else 0,
                        halted := !thumb, instructionAddress := resetHandler &&& ~~~1 }
  (s.setCore 13 initialMsp).setPc (resetHandler &&& ~~~1)

/-- Register 13 holds the selected stack pointer. -/
def Mirrored (s : CpuState) : Prop := s.core 13 = s.activeSp

instance (s : CpuState) : Decidable s.Mirrored := inferInstanceAs (Decidable (_ = _))

variable {s t : CpuState}

lemma Mirrored.congr (h : s.Mirrored) (hsp : t.core 13 = s.core 13) (hmode : SameMode s t)
    (hstacks : (t.msp, t.psp, t.control &&& 2) = (s.msp, s.psp, s.control &&& 2)) :
    t.Mirrored := by
  simp only [Prod.mk.injEq] at hstacks
  unfold Mirrored activeSp usesMsp inHandlerMode at h ⊢
  rw [hsp, hmode, hstacks.1, hstacks.2.1, hstacks.2.2, h]

lemma Mirrored.setCore (h : s.Mirrored) {i : Nat} (hi : i ≠ 13) (v : BitVec 32) :
    (s.setCore i v).Mirrored :=
  h.congr (core_setCore_of_ne s i v hi.symm) (setCore_sameMode s i v) (by simp)

lemma mirrored_setCore {v : BitVec 32} (h : v = s.activeSp) : (s.setCore 13 v).Mirrored := by
  unfold Mirrored activeSp usesMsp inHandlerMode ipsr at *
  rw [core_setCore_self _ _ _ (by decide)]
  simpa using h

lemma mirrored_writeRegister (h : s.Mirrored) (i : Nat) (v : BitVec 32) :
    (s.writeRegister i v).Mirrored := by
  unfold writeRegister
  split
  · refine mirrored_setCore ?_
    unfold setActiveSp
    cases hmsp : s.usesMsp <;> simp_all [activeSp, usesMsp, inHandlerMode, ipsr]
  · exact h.setCore ‹_› v

lemma reset_mirrored (initialMsp resetHandler : BitVec 32) :
    (reset initialMsp resetHandler).Mirrored := by
  refine Mirrored.setCore (i := 15) (mirrored_setCore ?_) (by decide) _
  simp [activeSp, usesMsp]

end CpuState

open CpuState (Mirrored mirrored_setCore)

/-! ## Instructions -/

lemma mirrorFrame : StepFrame fun s t => s.Mirrored → t.Mirrored where
  refl _ := id
  trans h1 h2 := h2 ∘ h1
  register _ i v _ h := CpuState.mirrored_writeRegister h i v
  core _ _ v _ hsp h := h.setCore hsp v
  branch {s t v} _ ht h := by
    have hmode := modeFrame.branch trivial ht
    unfold CpuState.branchWritePc at ht
    split at ht
    · cases ht
    cases ht
    exact h.congr (CpuState.core_setCore_of_ne s 15 (v &&& ~~~1) (by decide)) hmode
      (by simp [CpuState.setPc])
  halt _ _ h := h
  single s i v h := by
    unfold CpuState.setSingle
    split <;> exact h
  status s x hx h := h.congr rfl (modeFrame.status s hx) rfl
  claim s h := h.congr rfl rfl (by simp [or_and])
  aside _ _ _ _ _ _ _ h := h
  it s v h := h.congr rfl (setItState_sameMode s v) rfl
  placed _ _ h := h

/-- An MSR to CONTROL after which the selected stack pointer has another value. -/
def Switches (i : DecodedInstruction) (s : CpuState) : Prop :=
  i.kind = .msr ∧ i.imm.toNat = 20 ∧
    { s with control := s.readRegister i.rn &&& 0x7 }.activeSp ≠ s.activeSp

lemma executeMsr_mirrors {i : DecodedInstruction} {s : CpuState} (hmsr : i.kind = .msr)
    (hkept : ¬Switches i s) (h : s.Mirrored) : (executeMsr i s).cpu.Mirrored := by
  unfold executeMsr
  split
  case h_1 =>
    dsimp only [complete]
    split
    · rename_i hmsp
      exact mirrored_setCore (by rw [CpuState.activeSp, if_pos hmsp])
    · rename_i hmsp
      exact Eq.trans h ((if_neg hmsp).trans (if_neg hmsp).symm)
  case h_2 =>
    dsimp only [complete]
    split
    · rename_i hmsp
      exact Eq.trans h ((if_pos hmsp).trans (if_pos hmsp).symm)
    · rename_i hmsp
      exact mirrored_setCore (by rw [CpuState.activeSp, if_neg hmsp])
  case h_5 => exact Frame.ite (R := fun _ t => t.Mirrored) (s := s) h h
  case h_7 himm => exact h.trans (not_not.mp fun hne => hkept ⟨hmsr, himm, Ne.symm hne⟩)
  all_goals exact h

/-- No such MSR is next. -/
def KeepsStack {δ : Type} (s : CpuState) (b : MemoryBus δ) : Prop :=
  ∀ raw size d b', fetch s.pc b = (.decoded raw size d, b') → ¬Switches d (entered s size)

lemma stepFast_mirrors {δ : Type} (env : Environment δ) {m : Machine δ}
    (hkept : KeepsStack m.cpu m.bus) (h : m.cpu.Mirrored) : (stepFast env m).2.cpu.Mirrored :=
  mirrorFrame.stepFast env m (fun raw size d b hfetch hmsr =>
    executeMsr_mirrors hmsr (hkept raw size d b hfetch)) h

/-! ## Exceptions -/

lemma takeEntry_mirrored {number : BitVec 16} (hzero : number ≠ 0) (hlt : number.toNat < 256)
    (s : CpuState) (newSp handler : BitVec 32) : (takeEntry s number newSp handler).Mirrored := by
  have hmode := Cortexm.takeEntry_ipsr s newSp handler hlt
  have hmsp : (takeEntry s number newSp handler).usesMsp = true := by
    have hnumber : number.setWidth 32 ≠ 0#32 := by bv_omega
    simp [CpuState.usesMsp, CpuState.inHandlerMode, hmode, hnumber]
  unfold Mirrored CpuState.activeSp
  rw [if_pos hmsp]
  simp [takeEntry, CpuState.setItState, CpuState.setPc, CpuState.core, CpuState.setCore]

lemma takeReturn_mirrored (s : CpuState) (token : BitVec 32) (frame : List (BitVec 32)) :
    (takeReturn s token frame).Mirrored :=
  mirrorFrame.it _ _ (mirrored_setCore rfl)

variable {δ : Type} {sys : SystemControl δ}

lemma enter_mirrors (number : BitVec 16) {h : Handling δ} (hm : h.cpu.Mirrored) :
    (enter sys number h).2.cpu.Mirrored := by
  rcases Cortexm.enter_cpu sys number h with ⟨_, _, _, hcpu⟩ | ⟨_, hzero, hlt, t, sp, handler, hcpu⟩
  · rw [hcpu]
    exact hm
  · rw [hcpu]
    exact takeEntry_mirrored hzero hlt t sp handler

lemma exceptionReturn_mirrors (token : BitVec 32) {h : Handling δ} (hm : h.cpu.Mirrored) :
    (exceptionReturn sys token h).2.cpu.Mirrored := by
  unfold exceptionReturn
  dsimp only
  split
  · exact hm
  split
  · exact hm
  split
  · exact hm
  split
  · rename_i hpopped
    exact mirrorFrame.popFp hpopped hm
  rename_i hpopped
  have hkept := mirrorFrame.popFp hpopped hm
  split
  · exact hkept
  split
  · exact hkept
  · exact takeReturn_mirrored _ token _

end Fil.Cpu

namespace Fil.Debug

open Cpu (CpuState xpsrT)

/-! ## The debugger -/

def refreshActiveSpMirror (s : CpuState) : CpuState := s.setCore 13 s.activeSp

/-- Writes a register by its number in the description of the target: the core registers,
the system registers, the double registers and FPSCR. -/
def writeSingleRegister (s : CpuState) (index : Nat) (value : BitVec 64) : Option CpuState :=
  let word := value.setWidth 32
  if index < 13 then some (s.setCore index word)
  else match index with
  | 13 => some (s.writeRegister 13 word)
  | 14 => some (s.setCore 14 word)
  | 15 => some (s.setCore 15 (word &&& ~~~1))
  | 16 => some (refreshActiveSpMirror { s with
      xpsr := word, thumb := word &&& xpsrT != 0,
      itState := (word >>> 25 &&& 0x3 ||| (word >>> 10 &&& 0x3f) <<< 2).setWidth 8 })
  | 17 => some (refreshActiveSpMirror { s with msp := word })
  | 18 => some (refreshActiveSpMirror { s with psp := word })
  | 19 => some (refreshActiveSpMirror { s with control := word })
  | 20 => some { s with primask := word }
  | 21 => some { s with basepri := word }
  | 22 => some { s with faultmask := word }
  | 39 => some { s with fpscr := word }
  | _ =>
    let pair := index - 23
    if pair < 16 then
      some ((s.setSingle (pair * 2) word).setSingle (pair * 2 + 1) ((value >>> 32).setWidth 32))
    else none

lemma writeSingleRegister_mirrors {s t : CpuState} {index : Nat} {value : BitVec 64}
    (hwrite : writeSingleRegister s index value = some t) (h : s.Mirrored) : t.Mirrored := by
  have hrefreshed : ∀ u : CpuState, (refreshActiveSpMirror u).Mirrored := fun u =>
    CpuState.mirrored_setCore rfl
  unfold writeSingleRegister at hwrite
  dsimp only at hwrite
  split at hwrite
  · cases hwrite
    exact h.setCore (by omega) _
  split at hwrite
  case h_12 =>
    split at hwrite
    · cases hwrite
      exact Cpu.mirrorFrame.single _ _ _ (Cpu.mirrorFrame.single _ _ _ h)
    · cases hwrite
  all_goals cases hwrite
  case h_1 => exact CpuState.mirrored_writeRegister h 13 _
  case h_2 | h_3 => exact h.setCore (by decide) _
  case h_4 | h_5 | h_6 | h_7 => exact hrefreshed _
  all_goals exact h

/-! ## Runs -/

open Cpu

variable {δ : Type} (env : Environment δ) (sys : SystemControl δ)

/-- What befalls a core. The rest of the board does as it likes with the bus. -/
inductive Act : Handling δ → Handling δ → Prop
  | step (h : Handling δ) (diagnostic : DiagnosticSnapshot) (hkept : KeepsStack h.cpu h.bus) :
      Act h { h with cpu := (stepFast env ⟨h.cpu, h.bus, diagnostic⟩).2.cpu
                     bus := (stepFast env ⟨h.cpu, h.bus, diagnostic⟩).2.bus }
  | enter (number : BitVec 16) (h : Handling δ) : Act h (enter sys number h).2
  | exceptionReturn (token : BitVec 32) (h : Handling δ) : Act h (exceptionReturn sys token h).2
  | boundary (h : Handling δ) : Act h (settleInstructionBoundary sys h).2
  | write (index : Nat) (value : BitVec 64) {h : Handling δ} {t : CpuState}
      (hwrite : writeSingleRegister h.cpu index value = some t) : Act h { h with cpu := t }
  | world (h : Handling δ) (bus : MemoryBus δ) : Act h { h with bus }

variable {env sys}

lemma Act.mirrors {h h' : Handling δ} (hact : Act env sys h h') (hm : h.cpu.Mirrored) :
    h'.cpu.Mirrored := by
  cases hact with
  | step _ diagnostic hkept => exact stepFast_mirrors env hkept hm
  | enter number => exact enter_mirrors number hm
  | exceptionReturn token => exact exceptionReturn_mirrors token hm
  | boundary =>
    refine settle_rel_of_calls (R := fun h h' => h.cpu.Mirrored → h'.cpu.Mirrored) (fun _ => id)
      (fun _ _ _ h1 h2 => h2 ∘ h1) (fun _ _ _ => id) (fun number _ => enter_mirrors number)
      (fun token _ => exceptionReturn_mirrors token) (fun h hm => ?_) h hm
    unfold settleReset
    split <;> exact hm
  | write _ _ hwrite => exact writeSingleRegister_mirrors hwrite hm
  | world => exact hm

/-- **The copy is never stale while no MSR switches.** From a reset on, through steps,
entries, returns and the writes of a debugger, register 13 in the register file is the
selected stack pointer, if no MSR to CONTROL selects one of another value. -/
theorem register_13_mirrors_until_an_msr_switches (env : Environment δ) (sys : SystemControl δ)
    {h h' : Handling δ} {initialMsp resetHandler : BitVec 32}
    (hreset : h.cpu = .reset initialMsp resetHandler)
    (hrun : Relation.ReflTransGen (Act env sys) h h') : h'.cpu.Mirrored := by
  induction hrun with
  | refl =>
    rw [hreset]
    exact CpuState.reset_mirrored initialMsp resetHandler
  | tail _ hact ih => exact hact.mirrors ih

/-- A debugger selects the process stack and gives it a value, an SVC is retired, and at
the boundary its handler is entered, on the main stack. -/
theorem a_debugger_an_svc_and_its_entry_keep_the_copy :
    ∃ t u, writeSingleRegister (.reset 0x20001000 0x08000001) 19 2 = some t ∧
      writeSingleRegister t 18 0x20000800 = some u ∧
      let retired := Cortexm.coreStep { Cortexm.forgingCore with cpu := u }
      let entered := (settleInstructionBoundary Cortexm.coreView.unit retired).2
      retired.cpu.activeSp = 0x20000800 ∧ entered.cpu.activeSp = 0x20001000 ∧
        entered.cpu.ipsr = 11 ∧ entered.cpu.Mirrored := by
  refine ⟨_, _, rfl, rfl, by decide +kernel, by decide +kernel, by decide +kernel, ?_⟩
  refine register_13_mirrors_until_an_msr_switches ⟨plainEnvironment.fp, fun _ => true⟩
    Cortexm.coreView.unit (h := { Cortexm.forgingCore with cpu := .reset 0x20001000 0x08000001 })
    rfl ((((Relation.ReflTransGen.single (.write 19 2 rfl)).tail (.write 18 0x20000800 rfl)).tail
      (.step _ {} fun raw size d b hfetch hswitches => ?_)).tail (.boundary _))
  have hfetched : (fetch 0x08000000 Cortexm.forgingCore.bus).1 = .decoded raw size d :=
    congrArg Prod.fst hfetch
  have hsvc : (match (fetch 0x08000000 Cortexm.forgingCore.bus).1 with
      | .decoded _ _ d => d.kind
      | _ => .svc) = .svc := by decide +kernel
  rw [hfetched] at hsvc
  cases hsvc.symm.trans hswitches.1

/-- MOVS r0, #2 and MSR CONTROL, r0: the process stack is selected, at zero, and register
13 still holds the main one. -/
theorem an_msr_to_control_leaves_the_copy :
    let m : Machine Unit :=
      ⟨.reset 0x20001000 0x08000001, smallBoard [0x2002, 0xf380, 0x8814], {}⟩
    let ended := (stepFast plainEnvironment (stepFast plainEnvironment m).2)
    ended.1.reason = .stepComplete ∧ ended.2.cpu.control = 2 ∧
      ended.2.cpu.core 13 = 0x20001000 ∧ ended.2.cpu.activeSp = 0 ∧ ¬ended.2.cpu.Mirrored := by
  decide +kernel

end Fil.Debug
