-- The fast handlers: a second implementation of the common instructions that
-- skips the general dispatch. A handler either retires the instruction or
-- declines it.
import Fil.Executor

open Fil.Mem

namespace Fil.Cpu

/-! ## Classification -/

inductive JitFast
  | generic
  | nop
  | b
  | bl
  | cbz
  | cbnz
  | movImm
  | movReg
  | movw
  | movt
  | addImm
  | addReg
  | subImm
  | subReg
  | cmpImm
  | cmpReg
  | logicReg
  | mulReg
  | mlaMls
  | longMul
  | aluSingle
  | aluRsbTst
  | dspExtend
  | shift
  | bxBlx
  | divide
  | popPc
  | ldrImm
  | strImm
  | ldrSub
  | strSub
  | ldrdStrd
  | pushPop
  | ldmStm
  | ldrWordGpr
  | strWordGpr
  deriving DecidableEq

variable (op : DecodedInstruction) (s : CpuState)

/-- One of two handlers by the form of the operand. -/
def byForm (immediate register : JitFast) : JitFast :=
  if op.form = .immediate then immediate
  else if op.form = .registerValue then register else .generic

def addressForm : Bool :=
  op.form = .immediate || op.form = .registerValue || op.form = .literal

/-- A word transfer between ordinary registers at a positive offset. -/
def wordGpr : Bool :=
  op.form = .immediate && op.rn < 13 && op.rd < 13 && op.index && op.add && !op.writeback

def noPcOperand : Bool := op.rd ≠ 15 && op.rn ≠ 15 && op.rm ≠ 15

def classifyJitFast : JitFast :=
  match op.kind with
  | .nop => .nop
  | .b => .b
  | .bl => .bl
  | .cbz => .cbz
  | .cbnz => .cbnz
  | .bx => .bxBlx
  | .mov => if op.rd = 15 ∨ op.rm = 15 then .generic else byForm op .movImm .movReg
  | .movw => if op.rd ≠ 15 then .movw else .generic
  | .movt => if op.rd ≠ 15 then .movt else .generic
  | .add | .adc => if op.rd = 15 then .generic else byForm op .addImm .addReg
  | .sub | .sbc => if op.rd = 15 then .generic else byForm op .subImm .subReg
  | .cmp | .cmn => byForm op .cmpImm .cmpReg
  | .and_ | .orr | .eor | .bic | .mvn | .orn =>
    if op.form = .registerValue ∧ noPcOperand op then .logicReg else .generic
  | .mul => if op.form = .registerValue ∧ noPcOperand op then .mulReg else .generic
  | .udiv | .sdiv => if noPcOperand op then .divide else .generic
  | .mla | .mls => if op.form = .registerValue then .mlaMls else .generic
  | .umull | .smull => if op.form = .registerValue then .longMul else .generic
  | .rsb | .tst => byForm op .aluRsbTst .aluRsbTst
  | .clz | .rev | .rev16 | .revsh => .aluSingle
  | .bfc | .ubfx | .sxtb | .sxth | .uxtb | .uxth | .uadd8 | .sel => .dspExtend
  | .lsl | .lsr | .asr | .ror | .rrx =>
    if noPcOperand op ∧ (op.form = .immediate ∨ op.form = .registerValue) then .shift else .generic
  | .ldr =>
    if wordGpr op then .ldrWordGpr
    else if addressForm op ∧ op.rd ≠ 15 then .ldrImm else .generic
  | .str =>
    if wordGpr op then .strWordGpr
    else if addressForm op ∧ op.rd ≠ 15 then .strImm else .generic
  | .ldrb | .ldrh | .ldrsb | .ldrsh =>
    if addressForm op ∧ op.rd ≠ 15 then .ldrSub else .generic
  | .strb | .strh => if addressForm op ∧ op.rd ≠ 15 then .strSub else .generic
  | .ldrd | .strd => if addressForm op then .ldrdStrd else .generic
  | .push | .pop => if op.registerList.getLsbD 15 then .popPc else .pushPop
  | .ldm | .stm => if op.registerList.getLsbD 15 then .popPc else .ldmStm
  | _ => .generic

/-! ## Flags and sums -/

def jitSetNz (value : BitVec 32) : CpuState :=
  { s with
    xpsr := s.xpsr &&& ~~~(xpsrN ||| xpsrZ) ||| value &&& xpsrN ||| (if value = 0 then xpsrZ else 0) }

def jitSetNzc (value : BitVec 32) (carry : Bool) : CpuState :=
  { s with
    xpsr := s.xpsr &&& ~~~(xpsrN ||| xpsrZ ||| xpsrC) ||| value &&& xpsrN
      ||| (if value = 0 then xpsrZ else 0) ||| (if carry then xpsrC else 0) }

/-- Adds, and puts the four flags straight into their places. -/
def jitAdd (left right : BitVec 32) (carry setFlags : Bool) : BitVec 32 × CpuState :=
  let wide := wideSum left right carry
  let value := wide.setWidth 32
  let overflow := ((~~~(left ^^^ right) &&& (left ^^^ value)) >>> 3) &&& xpsrV
  let xpsr := s.xpsr &&& ~~~(xpsrN ||| xpsrZ ||| xpsrC ||| xpsrV) ||| value &&& xpsrN
    ||| (if value = 0 then xpsrZ else 0) ||| (wide >>> 32).setWidth 32 <<< 29 ||| overflow
  (value, if setFlags then { s with xpsr } else s)

/-! ## Handlers that stay in the core -/

def jitShifted : ShiftResult :=
  shiftC (s.readRegister op.rm) op.shiftType op.shiftAmount (s.xpsr &&& xpsrC != 0)

def jitBranchTarget (pc : BitVec 32) : BitVec 32 :=
  BitVec.ofInt 32 (pc.toNat + 4 + op.branchOffset) &&& ~~~1

def fastBl (pc : BitVec 32) (s : CpuState) : CpuState :=
  (s.setCore 14 (s.pc ||| 1)).setPc (jitBranchTarget op pc)

def fastCompareBranch (ifZero : Bool) (op : DecodedInstruction) (pc : BitVec 32) (s : CpuState) :
    CpuState :=
  let zero := s.readRegister op.rn == 0
  if (if ifZero then zero else !zero) then s.setPc ((pc + 4 + op.imm) &&& ~~~1) else s

def fastMovReg : CpuState :=
  let shifted := jitShifted op s
  let s := s.writeRegister op.rd shifted.value
  if op.setFlags then jitSetNzc s shifted.value shifted.carry else s

def fastMovImm : CpuState :=
  let s := s.writeRegister op.rd op.imm
  if op.setFlags then
    jitSetNzc s op.imm (if op.immediateCarryValid then op.immediateCarry else s.xpsr &&& xpsrC != 0)
  else s

def fastMovt : CpuState :=
  s.writeRegister op.rd (s.readRegister op.rd &&& (0xffff : BitVec 32) ||| op.imm <<< 16)

def fastAdd (subtract register : Bool) (op : DecodedInstruction) (s : CpuState) : CpuState :=
  let left := s.readRegister op.rn
  let left := if op.rn = 15 ∧ op.form = .immediate then left &&& ~~~3 else left
  let right := if register then (jitShifted op s).value else op.imm
  let carryIn := if op.kind = .adc ∨ op.kind = .sbc then s.xpsr &&& xpsrC != 0 else subtract
  let sum := jitAdd s left (if subtract then ~~~right else right) carryIn op.setFlags
  sum.2.writeRegister op.rd sum.1

def fastCompare (register : Bool) (op : DecodedInstruction) (s : CpuState) : CpuState :=
  let left := s.readRegister op.rn
  let right := if register then (jitShifted op s).value else op.imm
  (jitAdd s left (if op.kind = .cmp then ~~~right else right) (op.kind = .cmp) true).2

def fastLogic : CpuState :=
  let left := s.readRegister op.rn
  let shifted := jitShifted op s
  let value := match op.kind with
    | .and_ => left &&& shifted.value
    | .orr => left ||| shifted.value
    | .eor => left ^^^ shifted.value
    | .bic => left &&& ~~~shifted.value
    | .mvn => ~~~shifted.value
    | .orn => left ||| ~~~shifted.value
    | _ => 0
  let s := s.writeRegister op.rd value
  if op.setFlags then jitSetNzc s value shifted.carry else s

def fastMul : CpuState :=
  let product := (s.readRegister op.rn).setWidth 64 * (s.readRegister op.rm).setWidth 64
  let value := product.setWidth 32
  let s := s.writeRegister op.rd value
  if op.setFlags then jitSetNz s value else s

def fastDivide : CpuState :=
  if op.kind = .udiv then
    let divisor := s.readRegister op.rm
    s.writeRegister op.rd (if divisor = 0 then 0 else s.readRegister op.rn / divisor)
  else
    let dividend := (s.readRegister op.rn).toInt
    let divisor := (s.readRegister op.rm).toInt
    let quotient : Int := if divisor ≠ 0 then
        if dividend = -2147483648 ∧ divisor = -1 then -2147483648 else dividend.tdiv divisor
      else 0
    s.writeRegister op.rd (BitVec.ofInt 32 quotient)

def fastShift : CpuState :=
  let immediate := op.form = .immediate
  let value := if immediate then s.readRegister op.rm else s.readRegister op.rn
  let amount := if immediate then op.shiftAmount else (s.readRegister op.rm &&& 0xff).toNat
  let shifted := shiftC value op.shiftType amount (s.xpsr &&& xpsrC != 0)
  let s := s.writeRegister op.rd shifted.value
  if op.setFlags then jitSetNzc s shifted.value shifted.carry else s

def fastMlaMls : CpuState :=
  let product := s.readRegister op.rn * s.readRegister op.rm
  let addend := s.readRegister op.ra
  s.writeRegister op.rd (if op.kind = .mla then product + addend else addend - product)

def fastLongMul : CpuState :=
  let product : BitVec 64 := if op.kind = .umull then
      (s.readRegister op.rn).setWidth 64 * (s.readRegister op.rm).setWidth 64
    else (s.readRegister op.rn).signExtend 64 * (s.readRegister op.rm).signExtend 64
  (s.writeRegister op.rd (product.setWidth 32)).writeRegister op.ra ((product >>> 32).setWidth 32)

def fastRsbTst : CpuState :=
  let shifted : ShiftResult := if op.form = .registerValue then jitShifted op s
    else ⟨op.imm, if op.immediateCarryValid then op.immediateCarry else s.xpsr &&& xpsrC != 0⟩
  if op.kind = .tst then
    jitSetNzc s (s.readRegister op.rn &&& shifted.value) shifted.carry
  else
    let left := if op.form = .immediate then op.imm else if op.is32bit then shifted.value else 0
    let right := if op.form = .immediate then s.readRegister op.rn
      else if op.is32bit then s.readRegister op.rn else s.readRegister op.rm
    let sum := jitAdd s left (~~~right) true op.setFlags
    sum.2.writeRegister op.rd sum.1

def fastSingle : CpuState :=
  let source := s.readRegister op.rm
  match op.kind with
  | .clz => s.writeRegister op.rd source.clz
  | .rev => s.writeRegister op.rd
      ((source &&& 0x000000ff) <<< 24 ||| (source &&& 0x0000ff00) <<< 8
        ||| (source &&& 0x00ff0000) >>> 8 ||| (source &&& 0xff000000) >>> 24)
  | .rev16 => s.writeRegister op.rd
      ((source &&& 0x00ff00ff) <<< 8 ||| (source &&& 0xff00ff00) >>> 8)
  | _ =>
    let value := (source &&& 0xff) <<< 8 ||| (source >>> 8 &&& 0xff)
    s.writeRegister op.rd (if value &&& 0x8000 != 0 then value ||| 0xffff0000 else value)

/-- The four extensions in one. -/
def fastExtend : CpuState :=
  let rotated := (s.readRegister op.rm).rotateRight op.shiftAmount
  let isByte := op.kind = .uxtb ∨ op.kind = .sxtb
  let isSigned := op.kind = .sxtb ∨ op.kind = .sxth
  let value := if isByte then rotated &&& 0xff else rotated &&& 0xffff
  let sign : BitVec 32 := if isByte then 0x80 else 0x8000
  let value := if isSigned ∧ (value &&& sign != 0) then
      value ||| (if isByte then 0xffffff00 else 0xffff0000) else value
  s.writeRegister op.rd value

def fastDspExtend : CpuState :=
  match op.kind with
  | .bfc =>
    let mask : BitVec 32 := if op.imm = 32 then 0xffffffff
      else (((1 : BitVec 32) <<< op.imm.toNat) - 1) <<< op.shiftAmount
    s.writeRegister op.rd (s.readRegister op.rd &&& ~~~mask)
  | .ubfx =>
    let mask : BitVec 32 := if op.imm = 32 then 0xffffffff
      else ((1 : BitVec 32) <<< op.imm.toNat) - 1
    s.writeRegister op.rd (s.readRegister op.rn >>> op.shiftAmount &&& mask)
  | .uxtb | .uxth | .sxtb | .sxth => fastExtend op s
  | .uadd8 =>
    let sums := uadd8 (s.readRegister op.rn) (s.readRegister op.rm)
    let s := s.writeRegister op.rd sums.1
    { s with xpsr := s.xpsr &&& ~~~xpsrGeMask ||| sums.2 }
  | _ => s.writeRegister op.rd (select s.xpsr (s.readRegister op.rn) (s.readRegister op.rm))

/-! ## Handlers that reach memory -/

/-- The end of a handler: whether it retired the instruction, the core and
the bus. -/
structure Handled (δ : Type) where
  handled : Bool
  cpu : CpuState
  bus : MemoryBus δ

section Memory

variable {δ : Type} (op : DecodedInstruction) (pc : BitVec 32) (s : CpuState) (b : MemoryBus δ)

def fastBxBlx : Handled δ :=
  let target := s.readRegister op.rm
  if op.kind = .bx ∧ isExceptionReturn target then
    ⟨true, { s with pendingExcReturn := some target }, b⟩
  else
    match s.branchWritePc target with
    | none => ⟨false, s, b⟩
    | some s => ⟨true, s, b⟩

/-- The words of a transfer with the registers they belong to. -/
def spread (dense : List (BitVec 32)) : List (Nat × BitVec 32) :=
  (listedRegisters op.registerList).zip dense

/-- The base register after a multiple transfer from `start`. -/
def fastWriteBack (base start : BitVec 32) (s : CpuState) : CpuState :=
  if op.writeback then
    s.writeRegister op.rn (if !op.add && op.index then start
      else base + BitVec.ofNat 32 (popcount op.registerList * 4))
  else s

def fastPopPc : Handled δ :=
  let count := popcount op.registerList
  let base := s.readRegister op.rn
  let start := if !op.add && op.index then base - BitVec.ofNat 32 (count * 4) else base
  if count = 0 then ⟨false, s, b⟩
  else
    match b.tryFastReadWords start count ⟨.dataRead, pc⟩ with
    | none => ⟨false, s, b⟩
    | some (dense, b) =>
      let loaded := spread op dense
      let pcWord := loadedFor loaded 15
      let excReturn := isExceptionReturn pcWord
      -- the target is checked before anything is committed
      if !excReturn && pcWord &&& 1 == 0 then ⟨false, s, b⟩
      else
        let s := fastWriteBack op base start (writeLoaded s loaded)
        if excReturn then ⟨true, { s with pendingExcReturn := some pcWord }, b⟩
        else ⟨true, (s.branchWritePc pcWord).getD s, b⟩

def fastLdrWordGpr : Handled δ :=
  match b.tryFastRead32 (s.core op.rn + op.imm) ⟨.dataRead, pc⟩ with
  | none => ⟨false, s, b⟩
  | some (value, b) => ⟨true, s.setCore op.rd value, b⟩

def fastStrWordGpr : Handled δ :=
  match b.tryFastWrite32 (s.core op.rn + op.imm) (s.core op.rd) ⟨.dataWrite, pc⟩ with
  | none => ⟨false, s, b⟩
  | some b => ⟨true, s, b⟩

def fastOffset : BitVec 32 :=
  if op.form = .registerValue then (jitShifted op s).value else op.imm

def fastAddress (base : BitVec 32) : BitVec 32 × BitVec 32 :=
  let offset := fastOffset op s
  let offsetAddress := if op.add then base + offset else base - offset
  (offsetAddress, if op.index then offsetAddress else base)

def fastBase : BitVec 32 :=
  if op.rn = 15 then s.architecturalPcForRead &&& ~~~3 else s.readRegister op.rn

def fastLdrImm : Handled δ :=
  let at_ := fastAddress op s (fastBase op s)
  match b.tryFastRead32 at_.2 ⟨.dataRead, pc⟩ with
  | none => ⟨false, s, b⟩
  | some (value, b) => ⟨true, writeBack op at_.1 (s.writeRegister op.rd value), b⟩

def fastStrImm : Handled δ :=
  let at_ := fastAddress op s (fastBase op s)
  match b.tryFastWrite32 at_.2 (s.readRegister op.rd) ⟨.dataWrite, pc⟩ with
  | none => ⟨false, s, b⟩
  | some b => ⟨true, writeBack op at_.1 s, b⟩

def fastLdrSub : Handled δ :=
  let at_ := fastAddress op s (fastBase op s)
  let width : AccessSize := if op.kind = .ldrb ∨ op.kind = .ldrsb then .byte else .halfword
  match b.tryFastRead at_.2 width ⟨.dataRead, pc⟩ with
  | none => ⟨false, s, b⟩
  | some (raw, b) =>
    let value : BitVec 32 := raw.setWidth 32
    let value := if op.kind = .ldrsb ∧ (value &&& 0x80 != 0) then value ||| 0xffffff00
      else if op.kind = .ldrsh ∧ (value &&& 0x8000 != 0) then value ||| 0xffff0000 else value
    ⟨true, writeBack op at_.1 (s.writeRegister op.rd value), b⟩

def fastStrSub : Handled δ :=
  let at_ := fastAddress op s (fastBase op s)
  let width : AccessSize := if op.kind = .strb then .byte else .halfword
  match b.tryFastWrite at_.2 width ((s.readRegister op.rd).setWidth 64) ⟨.dataWrite, pc⟩ with
  | none => ⟨false, s, b⟩
  | some b => ⟨true, writeBack op at_.1 s, b⟩

def fastLdrdStrd : Handled δ :=
  let at_ := fastAddress op s (s.readRegister op.rn)
  if op.kind = .ldrd then
    match b.tryFastReadWords at_.2 2 ⟨.dataRead, pc⟩ with
    | none => ⟨false, s, b⟩
    | some (words, b) =>
      let s := (s.writeRegister op.rd (words.getD 0 0)).writeRegister op.ra (words.getD 1 0)
      ⟨true, writeBack op at_.1 s, b⟩
  else
    let words := [s.readRegister op.rd, s.readRegister op.ra]
    match b.tryFastWriteWords at_.2 words ⟨.dataWrite, pc⟩ with
    | none => ⟨false, s, b⟩
    | some b => ⟨true, writeBack op at_.1 s, b⟩

/-- PUSH, POP, LDM and STM without the PC. -/
def fastMultiple (load : Bool) (op : DecodedInstruction) (pc : BitVec 32) (s : CpuState)
    (b : MemoryBus δ) : Handled δ :=
  let count := popcount op.registerList
  let base := s.readRegister op.rn
  let start := if !op.add && op.index then base - BitVec.ofNat 32 (count * 4) else base
  if count = 0 then ⟨false, s, b⟩
  else if load then
    match b.tryFastReadWords start count ⟨.dataRead, pc⟩ with
    | none => ⟨false, s, b⟩
    | some (dense, b) => ⟨true, fastWriteBack op base start (writeLoaded s (spread op dense)), b⟩
  else
    let dense := (listedRegisters op.registerList).map s.readRegister
    match b.tryFastWriteWords start dense ⟨.dataWrite, pc⟩ with
    | none => ⟨false, s, b⟩
    | some b => ⟨true, fastWriteBack op base start s, b⟩

/-- Runs the handler of an instruction at `pc`. The callers have moved
register 15 past the instruction. -/
def executeJitFast (fast : JitFast) (pc : BitVec 32) (s : CpuState) (b : MemoryBus δ) : Handled δ :=
  match fast with
  | .nop => ⟨true, s, b⟩
  | .b => ⟨true, s.setPc (jitBranchTarget op pc), b⟩
  | .bl => ⟨true, fastBl op pc s, b⟩
  | .cbz => ⟨true, fastCompareBranch true op pc s, b⟩
  | .cbnz => ⟨true, fastCompareBranch false op pc s, b⟩
  | .movReg => ⟨true, fastMovReg op s, b⟩
  | .movImm => ⟨true, fastMovImm op s, b⟩
  | .movw => ⟨true, s.writeRegister op.rd op.imm, b⟩
  | .movt => ⟨true, fastMovt op s, b⟩
  | .addReg => ⟨true, fastAdd false true op s, b⟩
  | .subReg => ⟨true, fastAdd true true op s, b⟩
  | .addImm => ⟨true, fastAdd false false op s, b⟩
  | .subImm => ⟨true, fastAdd true false op s, b⟩
  | .cmpImm => ⟨true, fastCompare false op s, b⟩
  | .cmpReg => ⟨true, fastCompare true op s, b⟩
  | .logicReg => ⟨true, fastLogic op s, b⟩
  | .mulReg => ⟨true, fastMul op s, b⟩
  | .divide => ⟨true, fastDivide op s, b⟩
  | .shift => ⟨true, fastShift op s, b⟩
  | .mlaMls => ⟨true, fastMlaMls op s, b⟩
  | .longMul => ⟨true, fastLongMul op s, b⟩
  | .aluRsbTst => ⟨true, fastRsbTst op s, b⟩
  | .aluSingle => ⟨true, fastSingle op s, b⟩
  | .dspExtend => ⟨true, fastDspExtend op s, b⟩
  | .bxBlx => fastBxBlx op s b
  | .popPc => fastPopPc op pc s b
  | .ldrWordGpr => fastLdrWordGpr op pc s b
  | .strWordGpr => fastStrWordGpr op pc s b
  | .ldrImm => fastLdrImm op pc s b
  | .strImm => fastStrImm op pc s b
  | .ldrSub => fastLdrSub op pc s b
  | .strSub => fastStrSub op pc s b
  | .ldrdStrd => fastLdrdStrd op pc s b
  | .pushPop => fastMultiple (op.kind = .pop) op pc s b
  | .ldmStm => fastMultiple (op.kind = .ldm) op pc s b
  | .generic => ⟨false, s, b⟩

end Memory

end Fil.Cpu
