-- The architectural state of the core and its accessors: the two stack
-- pointers behind register 13, the program counter as instructions read it,
-- and the IT state that is mirrored in the status register.
import Fil.Instruction
import Mathlib.Data.Fintype.Pi
import Mathlib.Logic.Function.Basic

namespace Fil.Cpu

instance neZeroRegisters : NeZero 16 := ⟨by decide⟩

/-- The state of the core. Floating-point registers are kept as their bits. -/
@[ext]
structure CpuState where
  r : Fin 16 → BitVec 32 := fun _ => 0
  xpsr : BitVec 32 := xpsrT
  msp : BitVec 32 := 0
  psp : BitVec 32 := 0
  primask : BitVec 32 := 0
  basepri : BitVec 32 := 0
  faultmask : BitVec 32 := 0
  control : BitVec 32 := 0
  thumb : Bool := true
  halted : Bool := false
  pendingException : Option (BitVec 16) := none
  pendingExcReturn : Option (BitVec 32) := none
  s : Fin 32 → BitVec 32 := fun _ => 0
  fpscr : BitVec 32 := 0
  itState : BitVec 8 := 0
  fpLazyActive : Bool := false
  fpLazyBase : BitVec 32 := 0
  instructionAddress : BitVec 32 := 0
  deriving DecidableEq

namespace CpuState

variable (s : CpuState)

def ipsr : BitVec 32 := s.xpsr &&& xpsrIpsrMask

def inHandlerMode : Bool := s.ipsr != 0

/-- Whether register 13 is the main stack pointer. -/
def usesMsp : Bool := s.inHandlerMode || s.control &&& 2 == 0

def activeSp : BitVec 32 := if s.usesMsp then s.msp else s.psp

def setActiveSp (value : BitVec 32) : CpuState :=
  if s.usesMsp then { s with msp := value } else { s with psp := value }

def currentInstrAddr : BitVec 32 := s.instructionAddress

def architecturalPcForRead : BitVec 32 := s.instructionAddress + 4

/-- A core register without the special cases, zero past the last one. -/
def core (index : Nat) : BitVec 32 :=
  if h : index < 16 then s.r ⟨index, h⟩ else 0

def setCore (index : Nat) (value : BitVec 32) : CpuState :=
  if h : index < 16 then { s with r := Function.update s.r ⟨index, h⟩ value } else s

def readRegister (index : Nat) : BitVec 32 :=
  if index = 13 then s.activeSp
  else if index = 15 then s.architecturalPcForRead
  else s.core index

def writeRegister (index : Nat) (value : BitVec 32) : CpuState :=
  if index = 13 then (s.setActiveSp value).setCore 13 value else s.setCore index value

/-- Register 15, the address of the next instruction. -/
def pc : BitVec 32 := s.r 15

def setPc (value : BitVec 32) : CpuState := s.setCore 15 value

/-- Takes a loaded branch target, if it keeps the Thumb state. -/
def branchWritePc (target : BitVec 32) : Option CpuState :=
  if target &&& 1 = 0 then none
  else some { s.setPc (target &&& ~~~1) with thumb := true, xpsr := s.xpsr ||| xpsrT }

def setItState (value : BitVec 8) : CpuState :=
  { s with
    itState := value
    xpsr := s.xpsr &&& ~~~xpsrItMask
      ||| ((value &&& 0x03).setWidth 32 <<< 25)
      ||| ((value &&& 0xfc).setWidth 32 <<< 8) }

def advanceIt : CpuState := s.setItState (advanceItState s.itState)

def carryFlag : Bool := s.xpsr &&& xpsrC != 0

/-- A floating-point register, zero past the last one. -/
def single (index : Nat) : BitVec 32 :=
  if h : index < 32 then s.s ⟨index, h⟩ else 0

def setSingle (index : Nat) (value : BitVec 32) : CpuState :=
  if h : index < 32 then { s with s := Function.update s.s ⟨index, h⟩ value } else s

/-! ## Flags -/

def setNz (value : BitVec 32) : CpuState :=
  let xpsr := s.xpsr &&& ~~~(xpsrN ||| xpsrZ)
  let xpsr := if value &&& 0x80000000 != 0 then xpsr ||| xpsrN else xpsr
  { s with xpsr := if value = 0 then xpsr ||| xpsrZ else xpsr }

def setNzc (value : BitVec 32) (carry : Bool) : CpuState :=
  let s := s.setNz value
  let xpsr := s.xpsr &&& ~~~xpsrC
  { s with xpsr := if carry then xpsr ||| xpsrC else xpsr }

def setNzcv (result : AddResult) : CpuState :=
  let xpsr := s.xpsr &&& ~~~(xpsrN ||| xpsrZ ||| xpsrC ||| xpsrV)
  let xpsr := if result.n then xpsr ||| xpsrN else xpsr
  let xpsr := if result.z then xpsr ||| xpsrZ else xpsr
  let xpsr := if result.c then xpsr ||| xpsrC else xpsr
  { s with xpsr := if result.v then xpsr ||| xpsrV else xpsr }

/-! ## What the accessors leave alone -/

section Frame

variable (s : CpuState) (i : Nat) (v : BitVec 32)

@[simp] lemma setCore_xpsr : (s.setCore i v).xpsr = s.xpsr := by
  unfold setCore; split <;> rfl

@[simp] lemma setCore_kept :
    (s.setCore i v).msp = s.msp ∧ (s.setCore i v).psp = s.psp ∧
      (s.setCore i v).control = s.control ∧ (s.setCore i v).itState = s.itState ∧
      (s.setCore i v).instructionAddress = s.instructionAddress := by
  unfold setCore; split <;> simp

@[simp] lemma setActiveSp_xpsr : (s.setActiveSp v).xpsr = s.xpsr := by
  unfold setActiveSp; split <;> rfl

@[simp] lemma writeRegister_xpsr : (s.writeRegister i v).xpsr = s.xpsr := by
  unfold writeRegister; split <;> simp

lemma core_setCore_self (h : i < 16) : (s.setCore i v).core i = v := by
  simp [core, setCore, h]

lemma core_setCore_of_ne {j : Nat} (h : j ≠ i) : (s.setCore i v).core j = s.core j := by
  unfold core setCore
  split
  · split
    · exact Function.update_of_ne (by simpa using h) _ _
    · rfl
  · rfl

end Frame

end CpuState

end Fil.Cpu
