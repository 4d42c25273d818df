-- FilIR, the small language that straight-line blocks are lowered to: one
-- micro-instruction for each decoded one, with its operands checked, and an
-- interpreter on the registers that the language knows.
import Fil.CpuState

namespace Fil.Cpu

/-! ## The language -/

inductive MicroOp
  | nop
  | movImm | movReg | movw | movt
  | addImm | subImm | cmpImm | cmnImm | cmpReg | cmnReg | tstReg
  | addReg | subReg | andReg | orrReg | eorReg | bicReg
  | addShift | subShift
  | lsl | lsr | asr | ror | rrx
  | b | bl | bCond | cbz | cbnz
  | extend | ubfx
  deriving DecidableEq

inductive ExtendKind
  | uxtb
  | uxth
  | sxtb
  | sxth
  deriving DecidableEq

structure MicroInst where
  op : MicroOp := .nop
  rd : Nat := 0
  rn : Nat := 0
  rm : Nat := 0
  imm : BitVec 32 := 0
  condition : Condition := .al
  shift : ShiftType := .lsl
  shiftAmount : Nat := 0
  setFlags : Bool := false
  carryValid : Bool := false
  carry : Bool := false
  shiftImmediate : Bool := true
  extendKind : ExtendKind := .uxtb
  branchOffset : Int := 0
  pc : BitVec 32 := 0
  size : Nat := 0
  deriving DecidableEq

structure MicroSource where
  decoded : DecodedInstruction
  pc : BitVec 32
  size : Nat
  deriving DecidableEq

inductive MicroLowerReason
  | badCondition
  | badSize
  | badPc
  | unsupportedKind
  | badShape
  | badRegister
  | branchNotTerminal
  deriving DecidableEq

/-- Why an instruction or a block was not lowered. -/
structure MicroLowerFailure where
  reason : MicroLowerReason
  detail : String
  deriving DecidableEq

abbrev Lowered := Except MicroLowerFailure

structure MicroBlock where
  ops : List MicroInst := []
  endsWithBranch : Bool := false
  entryPc : BitVec 32 := 0
  deriving DecidableEq

def maxMicroOps : Nat := 16

/-! ## Lowering -/

variable (d : DecodedInstruction) (inst : MicroInst)

def immediateShape : Bool :=
  d.form = .immediate && d.rm = 0 && d.ra = 0 && d.shiftAmount = 0 && d.shiftType = .lsl
    && !d.writeback && d.registerList = 0 && !d.fpDouble

def registerShape : Bool :=
  d.form = .registerValue && d.ra = 0 && d.imm = 0 && d.branchOffset = 0 && !d.writeback
    && d.registerList = 0 && !d.immediateCarryValid && !d.immediateCarry && !d.fpDouble
    && d.index && d.add

def coreReg (reg : Nat) : Bool := reg ≤ 12

/-- The shift of an operand that is not shifted. -/
def unshifted : Bool := d.shiftType = .lsl && d.shiftAmount = 0

def refuse {α : Type} (reason : MicroLowerReason) (detail : String) : Lowered α :=
  .error ⟨reason, detail⟩

def lowerNop : Lowered MicroInst :=
  if d.form ≠ .none || d.setFlags || d.rd ≠ 0 || d.rn ≠ 0 || d.rm ≠ 0 || d.imm ≠ 0
      || d.branchOffset ≠ 0 then refuse .badShape "nop shape"
  else .ok { inst with op := .nop }

/-- DMB, DSB and ISB, which only take their cycles. -/
def lowerBarrier : Lowered MicroInst :=
  if d.setFlags || d.branchOffset ≠ 0 || d.writeback || d.registerList ≠ 0 || d.fpDouble
      || d.immediateCarryValid || d.immediateCarry || (d.form ≠ .immediate && d.form ≠ .none) then
    refuse .badShape "barrier shape"
  else .ok { inst with op := .nop }

def lowerMov : Lowered MicroInst :=
  if registerShape d && unshifted d && coreReg d.rd && coreReg d.rm then
    .ok { inst with op := .movReg, rd := d.rd, rm := d.rm }
  else if !immediateShape d || !coreReg d.rd then
    refuse (if !coreReg d.rd then .badRegister else .badShape) "mov imm"
  else
    .ok { inst with
      op := .movImm, rd := d.rd, imm := d.imm, carryValid := d.immediateCarryValid,
      carry := d.immediateCarry }

/-- MOVW and MOVT. -/
def lowerMovHalf (op : MicroOp) (detail : String) (d : DecodedInstruction) (inst : MicroInst) :
    Lowered MicroInst :=
  if !immediateShape d || d.rn ≠ 0 || 0xffff < d.imm || d.setFlags || d.immediateCarryValid
      || d.immediateCarry || !coreReg d.rd then refuse .badShape detail
  else .ok { inst with op, rd := d.rd, imm := d.imm }

/-- ADD and SUB. -/
def lowerSum : Lowered MicroInst :=
  let isAdd := d.kind = .add
  if d.form = .immediate then
    if !immediateShape d || !coreReg d.rd || !coreReg d.rn || d.immediateCarryValid
        || d.immediateCarry then refuse .badShape "alu imm shape"
    else .ok { inst with
      op := if isAdd then .addImm else .subImm, rd := d.rd, rn := d.rn, imm := d.imm }
  else if !registerShape d || !coreReg d.rd || !coreReg d.rn || !coreReg d.rm then
    refuse .badShape "alu reg shape"
  else
    let inst := { inst with rd := d.rd, rn := d.rn, rm := d.rm }
    if d.shiftAmount = 0 ∧ d.shiftType = .lsl then
      .ok { inst with op := if isAdd then .addReg else .subReg }
    else if d.shiftType = .rrx ∧ d.shiftAmount ≠ 0 then
      refuse .badShape "rrx amount must be 0/1"
    else
      .ok { inst with
        op := if isAdd then .addShift else .subShift, shift := d.shiftType,
        shiftAmount := d.shiftAmount }

/-- CMP and CMN. -/
def lowerCompare : Lowered MicroInst :=
  let isCmp := d.kind = .cmp
  if d.form = .registerValue then
    if !registerShape d || !coreReg d.rn || !coreReg d.rm || !d.setFlags then
      refuse .badShape "cmp/cmn reg shape"
    else .ok { inst with
      op := if isCmp then .cmpReg else .cmnReg, rn := d.rn, rm := d.rm, shift := d.shiftType,
      shiftAmount := d.shiftAmount }
  else if !immediateShape d || !coreReg d.rn || !d.setFlags || d.immediateCarryValid
      || d.immediateCarry then refuse .badShape "cmp/cmn shape"
  else .ok { inst with
    op := if isCmp then .cmpImm else .cmnImm, rd := d.rd, rn := d.rn, imm := d.imm }

def lowerTst : Lowered MicroInst :=
  if !registerShape d || !coreReg d.rn || !coreReg d.rm || !d.setFlags || !unshifted d then
    refuse .badShape "tst reg shape"
  else .ok { inst with op := .tstReg, rn := d.rn, rm := d.rm }

/-- AND, ORR, EOR and BIC. -/
def lowerLogic (op : MicroOp) (d : DecodedInstruction) (inst : MicroInst) : Lowered MicroInst :=
  if !registerShape d || !unshifted d || !coreReg d.rd || !coreReg d.rn || !coreReg d.rm then
    refuse .badShape "logical shape"
  else .ok { inst with op, rd := d.rd, rn := d.rn, rm := d.rm }

/-- The shifts. The immediate form takes its value from `rm`, the register form
from `rn`. -/
def lowerShift (op : MicroOp) (d : DecodedInstruction) (inst : MicroInst) : Lowered MicroInst :=
  let immediate : Bool := d.form = .immediate
  if immediate && (!coreReg d.rd || !coreReg d.rm) then refuse .badRegister "shift reg"
  else if !immediate && (d.form ≠ .registerValue || !coreReg d.rd || !coreReg d.rn
      || !coreReg d.rm) then refuse .badShape "shift reg form"
  else if !immediate && d.kind = .rrx then refuse .badShape "register rrx"
  else .ok { inst with
    op, rd := d.rd, rn := d.rn, rm := d.rm, shiftAmount := d.shiftAmount, shift := d.shiftType,
    shiftImmediate := immediate, imm := d.imm }

/-- B and BL. -/
def lowerBranch : Lowered MicroInst :=
  if (d.form ≠ .none && d.form ≠ .immediate) || d.setFlags || d.rd ≠ 0 || d.rn ≠ 0 || d.rm ≠ 0
      || d.imm ≠ 0 || d.immediateCarryValid || d.immediateCarry then
    refuse .badShape "branch shape"
  else
    let op : MicroOp := if d.kind = .b ∧ d.condition ≠ .al then .bCond
      else if d.kind = .b then .b else .bl
    if op = .bCond ∧ d.condition = .nv then refuse .badCondition "NV branch"
    else .ok { inst with op, condition := d.condition }

/-- CBZ and CBNZ. -/
def lowerCompareBranch (op : MicroOp) (d : DecodedInstruction) (inst : MicroInst) :
    Lowered MicroInst :=
  if d.form ≠ .immediate || d.condition ≠ .al || d.setFlags || !coreReg d.rn
      || d.branchOffset ≠ 0 then refuse .badShape "cbz shape"
  else .ok { inst with op, rn := d.rn, imm := d.imm }

def lowerExtend (extendKind : ExtendKind) (d : DecodedInstruction) (inst : MicroInst) :
    Lowered MicroInst :=
  if !coreReg d.rd || !coreReg d.rm || d.imm ≠ 0 || d.ra ≠ 0 || d.registerList ≠ 0 || d.writeback
      || d.fpDouble || d.branchOffset ≠ 0 || d.immediateCarryValid || d.immediateCarry
      || (d.shiftAmount ≠ 0 && d.shiftType ≠ .ror) then refuse .badShape "extend shape"
  else .ok { inst with
    op := .extend, rd := d.rd, rm := d.rm, imm := BitVec.ofNat 32 d.shiftAmount, extendKind }

def lowerUbfx : Lowered MicroInst :=
  if !coreReg d.rd || !coreReg d.rn || d.imm = 0 || 32 < d.imm || 32 < d.shiftAmount + d.imm.toNat
      || d.ra ≠ 0 || d.rm ≠ 0 || d.registerList ≠ 0 || d.writeback || d.fpDouble
      || d.branchOffset ≠ 0 || d.immediateCarryValid || d.immediateCarry then
    refuse .badShape "ubfx shape"
  else .ok { inst with
    op := .ubfx, rd := d.rd, rn := d.rn, shiftAmount := d.shiftAmount, imm := d.imm }

def lowerKind : Lowered MicroInst :=
  match d.kind with
  | .nop => lowerNop d inst
  | .dmb | .dsb | .isb => lowerBarrier d inst
  | .mov => lowerMov d inst
  | .movw => lowerMovHalf .movw "movw shape" d inst
  | .movt => lowerMovHalf .movt "movt shape" d inst
  | .add | .sub => lowerSum d inst
  | .cmp | .cmn => lowerCompare d inst
  | .tst => lowerTst d inst
  | .and_ => lowerLogic .andReg d inst
  | .orr => lowerLogic .orrReg d inst
  | .eor => lowerLogic .eorReg d inst
  | .bic => lowerLogic .bicReg d inst
  | .lsl => lowerShift .lsl d inst
  | .lsr => lowerShift .lsr d inst
  | .asr => lowerShift .asr d inst
  | .ror => lowerShift .ror d inst
  | .rrx => lowerShift .rrx d inst
  | .b | .bl => lowerBranch d inst
  | .cbz => lowerCompareBranch .cbz d inst
  | .cbnz => lowerCompareBranch .cbnz d inst
  | .uxtb => lowerExtend .uxtb d inst
  | .uxth => lowerExtend .uxth d inst
  | .sxtb => lowerExtend .sxtb d inst
  | .sxth => lowerExtend .sxth d inst
  | .ubfx => lowerUbfx d inst
  | _ => refuse .unsupportedKind "kind not in FilIR subset"

def isMicroBranch (kind : InstrKind) : Bool :=
  kind = .b || kind = .bl || kind = .cbz || kind = .cbnz

def tryLowerMicroInst (source : MicroSource) : Lowered MicroInst :=
  let d := source.decoded
  if d.condition ≠ .al && !isMicroBranch d.kind then refuse .badCondition "only AL is lowered"
  else if source.size ≠ 2 && source.size ≠ 4 then refuse .badSize "width must be 2 or 4"
  else if d.is32bit ≠ decide (source.size = 4) then
    refuse .badSize "is_32bit disagrees with width"
  else if source.pc &&& 1 ≠ 0 then refuse .badPc "thumb pc must be even"
  else lowerKind d
    { pc := source.pc, size := source.size, setFlags := d.setFlags, branchOffset := d.branchOffset }

/-- Whether control flow always leaves the block here. -/
def MicroInst.terminal : Bool := inst.op = .b || inst.op = .bl

/-- The micro-instructions of a row of sources; B and BL come last only. -/
def lowerAll : List MicroSource → Lowered (List MicroInst)
  | [] => .ok []
  | source :: rest =>
    match tryLowerMicroInst source with
    | .error failure => .error failure
    | .ok inst =>
      if inst.terminal && !rest.isEmpty then refuse .branchNotTerminal "branch must terminate"
      else
        match lowerAll rest with
        | .error failure => .error failure
        | .ok insts => .ok (inst :: insts)

def buildMicroBlock (sources : List MicroSource) : Lowered MicroBlock :=
  match sources with
  | [] => refuse .badShape "empty block"
  | first :: _ =>
    if maxMicroOps < sources.length then refuse .badShape "block exceeds 16 ops"
    else
      match lowerAll sources with
      | .error failure => .error failure
      | .ok ops => .ok ⟨ops, ops.any MicroInst.terminal, first.pc⟩

/-! ## The interpreter -/

/-- The registers of the language: r0 to r12, the link register, the PC and the
status. -/
structure MicroCpu where
  r : Fin 13 → BitVec 32 := fun _ => 0
  lr : BitVec 32 := 0
  pc : BitVec 32 := 0
  xpsr : BitVec 32 := xpsrT
  deriving DecidableEq

namespace MicroCpu

variable (cpu : MicroCpu) (op : MicroInst)

def applyNzcv (result : AddResult) : MicroCpu :=
  let xpsr := cpu.xpsr &&& ~~~(xpsrN ||| xpsrZ ||| xpsrC ||| xpsrV)
  let xpsr := if result.n then xpsr ||| xpsrN else xpsr
  let xpsr := if result.z then xpsr ||| xpsrZ else xpsr
  let xpsr := if result.c then xpsr ||| xpsrC else xpsr
  { cpu with xpsr := if result.v then xpsr ||| xpsrV else xpsr }

/-- Sets the sign and the zero flag and keeps the carry. -/
def applyNz (value : BitVec 32) : MicroCpu :=
  let xpsr := cpu.xpsr &&& ~~~(xpsrN ||| xpsrZ)
  let xpsr := if value &&& xpsrN != 0 then xpsr ||| xpsrN else xpsr
  { cpu with xpsr := if value = 0 then xpsr ||| xpsrZ else xpsr }

def setCarry (carry : Bool) : MicroCpu :=
  { cpu with xpsr := if carry then cpu.xpsr ||| xpsrC else cpu.xpsr &&& ~~~xpsrC }

def readOp (reg : Nat) : BitVec 32 :=
  if reg = 14 then cpu.lr else if h : reg < 13 then cpu.r ⟨reg, h⟩ else 0

def writeOp (reg : Nat) (value : BitVec 32) : MicroCpu :=
  if reg = 14 then { cpu with lr := value }
  else if h : reg < 13 then { cpu with r := Function.update cpu.r ⟨reg, h⟩ value } else cpu

def oldCarry : Bool := cpu.xpsr &&& xpsrC != 0

/-- Writes a sum and its flags. -/
def writeSum (sum : AddResult) : MicroCpu :=
  let cpu := cpu.writeOp op.rd sum.value
  if op.setFlags then cpu.applyNzcv sum else cpu

/-- Writes a value, and its flags without the carry. -/
def writeLogic (value : BitVec 32) : MicroCpu :=
  let cpu := cpu.writeOp op.rd value
  if op.setFlags then cpu.applyNz value else cpu

def shiftedRm : BitVec 32 :=
  (shiftC (cpu.readOp op.rm) op.shift op.shiftAmount cpu.oldCarry).value

def interpretMovImm : MicroCpu :=
  let carry := if op.carryValid then op.carry else cpu.oldCarry
  let cpu := cpu.writeOp op.rd op.imm
  if op.setFlags then
    let cpu := cpu.applyNz op.imm
    let xpsr := cpu.xpsr &&& ~~~xpsrC
    { cpu with xpsr := if carry then xpsr ||| xpsrC else xpsr }
  else cpu

def interpretExtend : MicroCpu :=
  let source := cpu.readOp op.rm
  let rotated := if op.imm = 0 then source else source.rotateRight op.imm.toNat
  let byte := op.extendKind = .uxtb ∨ op.extendKind = .sxtb
  let sign := op.extendKind = .sxtb ∨ op.extendKind = .sxth
  let value := if byte then rotated &&& 0xff else rotated &&& 0xffff
  let signBit : BitVec 32 := if byte then 0x80 else 0x8000
  cpu.writeOp op.rd (if sign ∧ (value &&& signBit != 0) then
    value ||| (if byte then 0xffffff00 else 0xffff0000) else value)

def interpretUbfx : MicroCpu :=
  let mask : BitVec 32 := if op.imm = 32 then 0xffffffff else ((1 : BitVec 32) <<< op.imm.toNat) - 1
  cpu.writeOp op.rd (cpu.readOp op.rn >>> op.shiftAmount &&& mask)

def interpretShift (type : ShiftType) : MicroCpu :=
  let value := if op.shiftImmediate then cpu.readOp op.rm else cpu.readOp op.rn
  let amount := if type = .rrx then 1 else op.shiftAmount
  let amount := if op.shiftImmediate then amount else (cpu.readOp op.rm &&& 0xff).toNat
  let shifted := shiftC value type amount cpu.oldCarry
  let cpu := cpu.writeOp op.rd shifted.value
  if op.setFlags then (cpu.applyNz shifted.value).setCarry shifted.carry else cpu

/-- What an instruction that is not a branch does to the registers. -/
def interpretData : MicroCpu :=
  let rn := cpu.readOp op.rn
  let rm := cpu.readOp op.rm
  match op.op with
  | .nop => cpu
  | .movImm => cpu.interpretMovImm op
  | .movReg => cpu.writeLogic op rm
  | .movw => cpu.writeOp op.rd (op.imm &&& 0xffff)
  | .movt => cpu.writeOp op.rd (cpu.readOp op.rd &&& (0xffff : BitVec 32)
      ||| (op.imm &&& 0xffff) <<< 16)
  | .addImm => cpu.writeSum op (addWithCarry rn op.imm false)
  | .subImm => cpu.writeSum op (addWithCarry rn (~~~op.imm) true)
  | .cmpImm => cpu.applyNzcv (addWithCarry rn (~~~op.imm) true)
  | .cmnImm => cpu.applyNzcv (addWithCarry rn op.imm false)
  | .cmpReg => cpu.applyNzcv (addWithCarry rn (~~~cpu.shiftedRm op) true)
  | .cmnReg => cpu.applyNzcv (addWithCarry rn (cpu.shiftedRm op) false)
  | .extend => cpu.interpretExtend op
  | .ubfx => cpu.interpretUbfx op
  | .tstReg => cpu.applyNz (rn &&& rm)
  | .addReg => cpu.writeSum op (addWithCarry rn rm false)
  | .subReg => cpu.writeSum op (addWithCarry rn (~~~rm) true)
  | .andReg => cpu.writeLogic op (rn &&& rm)
  | .orrReg => cpu.writeLogic op (rn ||| rm)
  | .eorReg => cpu.writeLogic op (rn ^^^ rm)
  | .bicReg => cpu.writeLogic op (rn &&& ~~~rm)
  | .addShift => cpu.writeSum op (addWithCarry rn (cpu.shiftedRm op) false)
  | .subShift => cpu.writeSum op (addWithCarry rn (~~~cpu.shiftedRm op) true)
  | .lsl => cpu.interpretShift op .lsl
  | .lsr => cpu.interpretShift op .lsr
  | .asr => cpu.interpretShift op .asr
  | .ror => cpu.interpretShift op .ror
  | .rrx => cpu.interpretShift op .rrx
  | .b | .bl | .bCond | .cbz | .cbnz => cpu

def target (pc : BitVec 32) (offset : Int) : BitVec 32 :=
  BitVec.ofInt 32 (pc.toNat + 4 + offset) &&& ~~~1

/-- Interprets one micro-instruction. The flag says that the block is left. -/
def interpretMicroOp : Bool × MicroCpu :=
  let next := op.pc + BitVec.ofNat 32 op.size
  match op.op with
  | .bCond =>
    if conditionPasses op.condition cpu.xpsr then
      (true, { cpu with pc := target op.pc op.branchOffset })
    else (false, { cpu with pc := next })
  | .cbz =>
    if cpu.readOp op.rn = 0 then (true, { cpu with pc := target op.pc op.imm.toNat })
    else (false, { cpu with pc := next })
  | .cbnz =>
    if cpu.readOp op.rn = 0 then (false, { cpu with pc := next })
    else (true, { cpu with pc := target op.pc op.imm.toNat })
  | .b => (true, { cpu with pc := target op.pc op.branchOffset })
  | .bl => (true, { cpu with lr := next ||| 1, pc := target op.pc op.branchOffset })
  | _ => (false, { cpu.interpretData op with pc := next })

end MicroCpu

/-- Interprets up to a number of micro-instructions. The answer is how many
were retired. -/
def interpretMicroOps : List MicroInst → MicroCpu → Nat → Nat × MicroCpu
  | [], cpu, _ => (0, cpu)
  | _ :: _, cpu, 0 => (0, cpu)
  | op :: ops, cpu, limit + 1 =>
    let step := cpu.interpretMicroOp op
    if step.1 then (1, step.2)
    else
      let rest := interpretMicroOps ops step.2 limit
      (rest.1 + 1, rest.2)

end Fil.Cpu
