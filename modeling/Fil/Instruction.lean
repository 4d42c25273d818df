-- Decoded Thumb instructions and the pure arithmetic that every executor
-- shares: add with carry, shifts with their carry, conditions, the IT state,
-- and the cycles of the pipeline.
import Mathlib.Algebra.GroupWithZero.Nat

namespace Fil.Cpu

/-! ## The instruction -/

/-- Condition codes in the order of their encodings. -/
inductive Condition
  | eq
  | ne
  | cs
  | cc
  | mi
  | pl
  | vs
  | vc
  | hi
  | ls
  | ge
  | lt
  | gt
  | le
  | al
  | nv
  deriving DecidableEq

/-- The condition of a four-bit field. -/
def Condition.ofBits (bits : BitVec 4) : Condition :=
  match bits.toNat with
  | 0 => .eq
  | 1 => .ne
  | 2 => .cs
  | 3 => .cc
  | 4 => .mi
  | 5 => .pl
  | 6 => .vs
  | 7 => .vc
  | 8 => .hi
  | 9 => .ls
  | 10 => .ge
  | 11 => .lt
  | 12 => .gt
  | 13 => .le
  | 14 => .al
  | _ => .nv

inductive ShiftType
  | lsl
  | lsr
  | asr
  | ror
  | rrx
  deriving DecidableEq

inductive OperandForm
  | none
  | immediate
  | registerValue
  | literal
  | registerList
  deriving DecidableEq

inductive InstrKind
  | undefined
  | mov | movw | movt
  | add | adc | sub | sbc | rsb
  | cmp | cmn | tst
  | and_ | orr | eor | bic | mvn | orn
  | mul | mla | mls | umull | udiv
  | clz | bfc | ubfx
  | sxtb | sxth | uxtb | uxth
  | rev | rev16 | revsh
  | sdiv | smull
  | uadd8 | sel
  | lsl | lsr | asr | ror | rrx
  | ldr | str | ldrb | strb | ldrh | strh | ldrsb | ldrsh | ldrd | strd
  | ldm | stm | push | pop
  | b | bl | bx | blx | tbb | tbh | cbz | cbnz
  | it | nop | dmb | dsb | isb | svc | mrs | msr | cps | wfi | wfe | sev
  | vstm | vldm | vldr | vstr
  | vmovCoreToSingle | vmovSingleToCore | vmovSingle | vmovImmediate
  | vcvtF32S32 | vcvtF32U32 | vcvtS32F32 | vcvtU32F32
  | vadd | vsub | vmul | vnmul | vdiv | vfma | vfms | vfnms
  | vcmp | vneg | vabs | vsqrt | vmrs
  | bkpt
  deriving DecidableEq

/-- What the decoder says about one instruction. Register numbers and shift
amounts are small naturals; floating-point registers go up to 31. -/
structure DecodedInstruction where
  kind : InstrKind := .undefined
  condition : Condition := .al
  form : OperandForm := .none
  rd : Nat := 0
  rn : Nat := 0
  rm : Nat := 0
  ra : Nat := 0
  imm : BitVec 32 := 0
  branchOffset : Int := 0
  registerList : BitVec 16 := 0
  shiftType : ShiftType := .lsl
  shiftAmount : Nat := 0
  setFlags : Bool := false
  index : Bool := true
  add : Bool := true
  writeback : Bool := false
  immediateCarryValid : Bool := false
  immediateCarry : Bool := false
  fpDouble : Bool := false
  is32bit : Bool := false
  raw : BitVec 32 := 0
  deriving DecidableEq

def isExceptionReturn (value : BitVec 32) : Bool :=
  value = 0xfffffff1 || value = 0xfffffff9 || value = 0xfffffffd ||
    value = 0xffffffe1 || value = 0xffffffe9 || value = 0xffffffed

lemma odd_of_isExceptionReturn {value : BitVec 32} (h : isExceptionReturn value = true) :
    value &&& 1 ≠ 0 := by
  simp only [isExceptionReturn, Bool.or_eq_true, decide_eq_true_eq] at h
  rcases h with ((((h | h) | h) | h) | h) | h <;> subst h <;> decide

def listedRegisters (list : BitVec 16) : List Nat :=
  (List.range 16).filter fun reg => list.getLsbD reg

def popcount (list : BitVec 16) : Nat := (listedRegisters list).length

/-! ## Flags of the program status register -/

def xpsrN : BitVec 32 := 0x80000000
def xpsrZ : BitVec 32 := 0x40000000
def xpsrC : BitVec 32 := 0x20000000
def xpsrV : BitVec 32 := 0x10000000
def xpsrT : BitVec 32 := 0x01000000
def xpsrGeMask : BitVec 32 := 0x000f0000
def xpsrIpsrMask : BitVec 32 := 0x1ff
def xpsrItMask : BitVec 32 := 0x0600fc00

def conditionPasses (condition : Condition) (xpsr : BitVec 32) : Bool :=
  let n := xpsr &&& xpsrN != 0
  let z := xpsr &&& xpsrZ != 0
  let c := xpsr &&& xpsrC != 0
  let v := xpsr &&& xpsrV != 0
  match condition with
  | .eq => z
  | .ne => !z
  | .cs => c
  | .cc => !c
  | .mi => n
  | .pl => !n
  | .vs => v
  | .vc => !v
  | .hi => c && !z
  | .ls => !c || z
  | .ge => n == v
  | .lt => n != v
  | .gt => !z && n == v
  | .le => z || n != v
  | .al => true
  | .nv => false

/-! ## Addition and shifts -/

structure AddResult where
  value : BitVec 32 := 0
  n : Bool := false
  z : Bool := false
  c : Bool := false
  v : Bool := false
  deriving DecidableEq

structure ShiftResult where
  value : BitVec 32 := 0
  carry : Bool := false
  deriving DecidableEq

/-- The sum in 64 bits, so that the carry out is not lost. -/
def wideSum (x y : BitVec 32) (carryIn : Bool) : BitVec 64 :=
  x.setWidth 64 + y.setWidth 64 + (if carryIn then 1 else 0)

def addWithCarry (x y : BitVec 32) (carryIn : Bool) : AddResult :=
  let unsignedSum := wideSum x y carryIn
  let value := unsignedSum.setWidth 32
  let overflow := (~~~(x ^^^ y) &&& (x ^^^ value)) &&& 0x80000000 != 0
  ⟨value, value &&& 0x80000000 != 0, value == 0, unsignedSum >>> 32 != 0, overflow⟩

def shiftC (value : BitVec 32) (type : ShiftType) (amount : Nat) (oldCarry : Bool) :
    ShiftResult :=
  match type with
  | .lsl =>
    if amount = 0 then ⟨value, oldCarry⟩
    else if amount < 32 then ⟨value <<< amount, (value >>> (32 - amount)) &&& 1 != 0⟩
    else if amount = 32 then ⟨0, value &&& 1 != 0⟩
    else ⟨0, false⟩
  | .lsr =>
    if amount = 0 then ⟨value, oldCarry⟩
    else if amount < 32 then ⟨value >>> amount, (value >>> (amount - 1)) &&& 1 != 0⟩
    else if amount = 32 then ⟨0, value &&& 0x80000000 != 0⟩
    else ⟨0, false⟩
  | .asr =>
    if amount = 0 then ⟨value, oldCarry⟩
    else if amount < 32 then
      let fill := if value &&& 0x80000000 != 0 then BitVec.allOnes 32 <<< (32 - amount) else 0
      ⟨value >>> amount ||| fill, (value >>> (amount - 1)) &&& 1 != 0⟩
    else
      ⟨if value &&& 0x80000000 != 0 then 0xffffffff else 0, value &&& 0x80000000 != 0⟩
  | .ror =>
    if amount = 0 then ⟨value, oldCarry⟩
    else
      let rotation := amount % 32
      if rotation = 0 then ⟨value, value &&& 0x80000000 != 0⟩
      else
        let shifted := value >>> rotation ||| value <<< (32 - rotation)
        ⟨shifted, shifted &&& 0x80000000 != 0⟩
  | .rrx =>
    ⟨(if oldCarry then (0x80000000 : BitVec 32) else 0) ||| value >>> 1, value &&& 1 != 0⟩

lemma shiftC_zero {type : ShiftType} (h : type ≠ .rrx) (value : BitVec 32) (c : Bool) :
    shiftC value type 0 c = ⟨value, c⟩ := by
  cases type <;> simp_all [shiftC]

/-! ## IT blocks -/

def inItBlock (itState : BitVec 8) : Bool := itState &&& 0x0f != 0

def currentItCondition (itState : BitVec 8) : Condition :=
  Condition.ofBits ((itState >>> 4).setWidth 4)

def advanceItState (itState : BitVec 8) : BitVec 8 :=
  if itState &&& 0x07 = 0 then 0
  else itState &&& (0xe0 : BitVec 8) ||| (itState <<< 1) &&& 0x1f

/-! ## Cycles -/

def divideCycles (divisor : BitVec 32) : Nat :=
  if divisor = 0 then 2 else 12 - divisor.clz.toNat * 10 / 32

def takenBranchPenalty : InstrKind → Nat
  | .cbz | .cbnz => 1
  | _ => 2

def basePipelineCycles (instruction : DecodedInstruction) : Nat :=
  match instruction.kind with
  | .mla | .mls => 2
  | .umull | .smull => 5
  | .udiv | .sdiv => 7
  | .ldr | .str | .ldrb | .strb | .ldrh | .strh | .ldrsb | .ldrsh => 2
  | .ldrd | .strd => 3
  | .ldm | .stm | .push | .pop => 1 + popcount instruction.registerList
  | .b | .bl | .blx | .bx | .tbb | .tbh => 2
  | .mrs | .msr | .svc | .dmb | .dsb | .isb => 2
  | .vdiv | .vsqrt => 14
  | .vfma | .vfms | .vfnms => 3
  | .vcvtF32S32 | .vcvtF32U32 | .vcvtS32F32 | .vcvtU32F32 | .vmrs | .vldr | .vstr => 2
  | .vldm | .vstm => 1 + popcount instruction.registerList
  | _ => 1

end Fil.Cpu
