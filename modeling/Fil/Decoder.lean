-- The table-driven decoder for Thumb and Thumb-2, row by row, and what every
-- decoded instruction has in common: the facts that the executors rely on
-- and do not check again.
import Fil.Instruction
import Mathlib.Tactic.SplitIfs

namespace Fil.Cpu

/-! ## Fields of an encoding -/

variable (raw first second : BitVec 16)

/-- The bits of a halfword under a mask, after a shift. -/
def bits (shift : Nat) (mask : BitVec 16) : Nat := (raw >>> shift &&& mask).toNat

def signExtend (width : Nat) (value : BitVec 32) : Int := (value.setWidth width).toInt

def join : BitVec 32 := first.setWidth 32 <<< 16 ||| second.setWidth 32

def base16 (kind : InstrKind) (form : OperandForm := .none) : DecodedInstruction :=
  { kind, form, raw := raw.setWidth 32 }

def base32 (kind : InstrKind) (form : OperandForm := .none) : DecodedInstruction :=
  { base16 first kind form with is32bit := true, raw := join first second }

structure ExpandedImmediate where
  value : BitVec 32 := 0
  carryValid : Bool := false
  carry : Bool := false

def thumbExpandImmediate (imm12 : BitVec 16) : Option ExpandedImmediate :=
  let imm8 : BitVec 32 := (imm12 &&& 0xff).setWidth 32
  if imm12 &&& 0xc00 = 0 then
    match bits imm12 8 0x3 with
    | 0 => some ⟨imm8, false, false⟩
    | 1 => if imm8 = 0 then none else some ⟨imm8 <<< 16 ||| imm8, false, false⟩
    | 2 => if imm8 = 0 then none else some ⟨imm8 <<< 24 ||| imm8 <<< 8, false, false⟩
    | _ => if imm8 = 0 then none else some ⟨imm8 * 0x01010101, false, false⟩
  else
    let unrotated : BitVec 32 := 0x80 ||| (imm12 &&& 0x7f).setWidth 32
    let value := unrotated.rotateRight (bits imm12 7 0x1f)
    some ⟨value, true, value &&& 0x80000000 != 0⟩

/-! ## Halfword encodings -/

def decodeShiftImmediate : Option DecodedInstruction :=
  let selector := bits raw 11 0x3
  let decoded (kind : InstrKind) (type : ShiftType) : Option DecodedInstruction :=
    let amount := bits raw 6 0x1f
    some
      { base16 raw kind .immediate with
        rd := bits raw 0 0x7
        rm := bits raw 3 0x7
        shiftType := type
        shiftAmount := if type ≠ .lsl ∧ amount = 0 then 32 else amount
        setFlags := true }
  if selector = 1 then decoded .lsr .lsr
  else if selector = 2 then decoded .asr .asr
  else if selector ≠ 0 then none
  else decoded .lsl .lsl

def decodeAddSubtract : Option DecodedInstruction :=
  let immediate := raw &&& 0x0400 != 0
  let subtract := raw &&& 0x0200 != 0
  let result :=
    { base16 raw (if subtract then .sub else .add)
        (if immediate then .immediate else .registerValue) with
      rd := bits raw 0 0x7
      rn := bits raw 3 0x7
      setFlags := true }
  some (if immediate then { result with imm := BitVec.ofNat 32 (bits raw 6 0x7) }
    else { result with rm := bits raw 6 0x7 })

def decodeImmediate8 : Option DecodedInstruction :=
  let kind : InstrKind := match bits raw 11 0x3 with
    | 1 => .cmp
    | 2 => .add
    | 3 => .sub
    | _ => .mov
  let rd := bits raw 8 0x7
  some
    { base16 raw kind .immediate with
      rd, rn := rd, imm := (raw &&& 0xff).setWidth 32, setFlags := true }

def dataProcessingOperation (opcode : Nat) : InstrKind :=
  match opcode with
  | 0 => .and_
  | 1 => .eor
  | 2 => .lsl
  | 3 => .lsr
  | 4 => .asr
  | 5 => .adc
  | 6 => .sbc
  | 7 => .ror
  | 8 => .tst
  | 9 => .rsb
  | 10 => .cmp
  | 11 => .cmn
  | 12 => .orr
  | 13 => .mul
  | 14 => .bic
  | _ => .mvn

def decodeDataProcessing : Option DecodedInstruction :=
  let operation := dataProcessingOperation (bits raw 6 0x0f)
  let rd := bits raw 0 0x7
  some
    { base16 raw operation .registerValue with
      rd, rn := rd, rm := bits raw 3 0x7, setFlags := true
      shiftType := if operation = .lsr then .lsr else if operation = .asr then .asr
        else if operation = .ror then .ror else .lsl }

def decodeSpecialData : Option DecodedInstruction :=
  let operation := bits raw 8 0x3
  let rd := (raw &&& 0x7 ||| raw >>> 4 &&& 0x8).toNat
  let rm := bits raw 3 0x0f
  if operation = 3 then
    if raw &&& 0x7 ≠ 0 then none
    else some
      { base16 raw (if raw &&& 0x0080 != 0 then .blx else .bx) .registerValue with rm }
  else
    let kind : InstrKind := if operation = 0 then .add else if operation = 1 then .cmp else .mov
    some
      { base16 raw kind .registerValue with rd, rn := rd, rm, setFlags := operation = 1 }

def decodeLiteralLoad : Option DecodedInstruction :=
  some
    { base16 raw .ldr .literal with
      rd := bits raw 8 0x7, rn := 15, imm := (raw &&& 0xff).setWidth 32 <<< 2 }

def registerTransferOperation (opcode : Nat) : InstrKind :=
  match opcode with
  | 0 => .str
  | 1 => .strh
  | 2 => .strb
  | 3 => .ldrsb
  | 4 => .ldr
  | 5 => .ldrh
  | 6 => .ldrb
  | _ => .ldrsh

def decodeRegisterTransfer : Option DecodedInstruction :=
  some
    { base16 raw (registerTransferOperation (bits raw 9 0x7)) .registerValue with
      rd := bits raw 0 0x7, rn := bits raw 3 0x7, rm := bits raw 6 0x7 }

def immediateTransferOperation (family : BitVec 16) (load : Bool) : InstrKind × Nat :=
  if family = 0x7000 then (if load then .ldrb else .strb, 1)
  else if family = 0x8000 then (if load then .ldrh else .strh, 2)
  else (if load then .ldr else .str, 4)

def decodeImmediateTransfer : Option DecodedInstruction :=
  let operation := immediateTransferOperation (raw &&& 0xf000) (raw &&& 0x0800 != 0)
  some
    { base16 raw operation.1 .immediate with
      rd := bits raw 0 0x7, rn := bits raw 3 0x7
      imm := BitVec.ofNat 32 (bits raw 6 0x1f * operation.2) }

def decodeSpTransfer : Option DecodedInstruction :=
  some
    { base16 raw (if raw &&& 0x0800 != 0 then .ldr else .str) .immediate with
      rd := bits raw 8 0x7, rn := 13, imm := (raw &&& 0xff).setWidth 32 <<< 2 }

def decodeAddressGeneration : Option DecodedInstruction :=
  some
    { base16 raw .add .immediate with
      rd := bits raw 8 0x7
      rn := if raw &&& 0x0800 != 0 then 13 else 15
      imm := (raw &&& 0xff).setWidth 32 <<< 2 }

def extendOperation (opcode : Nat) : InstrKind :=
  match opcode with
  | 0 => .sxth
  | 1 => .sxtb
  | 2 => .uxth
  | _ => .uxtb

/-- REV, REV16 and REVSH; the fourth pattern is reserved. -/
def decodeReverse : Option DecodedInstruction :=
  let decoded (kind : InstrKind) : Option DecodedInstruction :=
    some { base16 raw kind .registerValue with rd := bits raw 0 0x7, rm := bits raw 3 0x7 }
  match bits raw 6 0x3 with
  | 0 => decoded .rev
  | 1 => decoded .rev16
  | 3 => decoded .revsh
  | _ => none

def decodeHint : Option DecodedInstruction :=
  if raw = 0xbf20 then some (base16 raw .wfe)
  else if raw = 0xbf30 then some (base16 raw .wfi)
  else if raw = 0xbf40 then some (base16 raw .sev)
  else
    let mask := bits raw 0 0x0f
    let firstCondition := bits raw 4 0x0f
    if mask = 0 then if raw = 0xbf00 then some (base16 raw .nop) else none
    else if 14 ≤ firstCondition then none
    else some
      { base16 raw .it .immediate with
        condition := Condition.ofBits (BitVec.ofNat 4 firstCondition)
        imm := BitVec.ofNat 32 firstCondition <<< 4 ||| BitVec.ofNat 32 mask }

def decodeChangeState : Option DecodedInstruction :=
  let affected := bits raw 0 0x7
  if affected = 0 ∨ raw &&& 0x4 ≠ 0 then none
  else some
    { base16 raw .cps .immediate with
      imm := BitVec.ofNat 32 affected, add := raw &&& 0x0010 == 0 }

/-- PUSH and POP. The ninth bit adds the link register or the PC. -/
def decodePushPop (pop : Bool) (raw : BitVec 16) : Option DecodedInstruction :=
  let low := raw &&& 0xff
  let extra : BitVec 16 := if pop then 0x8000 else 0x4000
  let list := if raw &&& 0x0100 != 0 then low ||| extra else low
  if list = 0 then none
  else some
    { base16 raw (if pop then .pop else .push) .registerList with
      registerList := list, rn := 13, writeback := true, add := pop, index := !pop }

def decodeMiscellaneous : Option DecodedInstruction :=
  if raw &&& 0xff00 = 0xba00 then decodeReverse raw
  else if raw &&& 0xff00 = 0xb200 then
    some
      { base16 raw (extendOperation (bits raw 6 0x3)) .registerValue with
        rd := bits raw 0 0x7, rm := bits raw 3 0x7 }
  else if raw &&& 0xff00 = 0xbe00 then
    some { base16 raw .bkpt .immediate with imm := (raw &&& 0xff).setWidth 32 }
  else if raw &&& 0xff00 = 0xbf00 then decodeHint raw
  else if raw &&& 0xffe8 = 0xb660 then decodeChangeState raw
  else if raw &&& 0xf500 = 0xb100 then
    some
      { base16 raw (if raw &&& 0x0800 != 0 then .cbnz else .cbz) .immediate with
        rn := bits raw 0 0x7
        imm := BitVec.ofNat 32 (bits raw 3 0x1f) <<< 1 ||| BitVec.ofNat 32 (bits raw 9 0x1) <<< 6 }
  else if raw &&& 0xfe00 = 0xb400 then decodePushPop false raw
  else if raw &&& 0xfe00 = 0xbc00 then decodePushPop true raw
  else if raw &&& 0xff00 = 0xb000 then
    some
      { base16 raw (if raw &&& 0x0080 != 0 then .sub else .add) .immediate with
        rd := 13, rn := 13, imm := (raw &&& 0x7f).setWidth 32 <<< 2 }
  else none

def decodeMultiple : Option DecodedInstruction :=
  let load := raw &&& 0x0800 != 0
  let rn := bits raw 8 0x7
  let list := raw &&& 0xff
  if list = 0 then none
  else some
    { base16 raw (if load then .ldm else .stm) .registerList with
      rn, registerList := list
      writeback := !load || !list.getLsbD rn
      add := true, index := false }

def decodeConditionalBranch : Option DecodedInstruction :=
  let condition := bits raw 8 0x0f
  if condition = 15 then
    some { base16 raw .svc .immediate with imm := (raw &&& 0xff).setWidth 32 }
  else if 14 ≤ condition then none
  else some
    { base16 raw .b .immediate with
      condition := Condition.ofBits (BitVec.ofNat 4 condition)
      branchOffset := signExtend 9 ((raw &&& 0xff).setWidth 32 <<< 1) }

def decodeUnconditionalBranch : Option DecodedInstruction :=
  some
    { base16 raw .b .immediate with
      branchOffset := signExtend 12 ((raw &&& 0x07ff).setWidth 32 <<< 1) }

/-! ## Word encodings -/

/-- The twelve-bit immediate that is spread over both halfwords. -/
def spreadImmediate : BitVec 16 :=
  (first &&& 0x0400) <<< 1 ||| (second &&& 0x7000) >>> 4 ||| second &&& 0x00ff

def decodeMovWide : Option DecodedInstruction :=
  let top := first &&& 0x0080 != 0
  let rd := bits second 8 0x0f
  if rd = 15 then none
  else some
    { base32 first second (if top then .movt else .movw) .immediate with
      rd
      imm := (first &&& 0x000f).setWidth 32 <<< 12
        ||| BitVec.ofNat 32 (bits first 10 0x1) <<< 11
        ||| BitVec.ofNat 32 (bits second 12 0x7) <<< 8
        ||| (second &&& 0x00ff).setWidth 32 }

def decodeAddSubWideImmediate : Option DecodedInstruction :=
  let subtract := first &&& 0x0080 != 0
  let rd := bits second 8 0x0f
  if rd = 15 then none
  else some
    { base32 first second (if subtract then .sub else .add) .immediate with
      rn := bits first 0 0x0f, rd, imm := (spreadImmediate first second).setWidth 32 }

def decodeImmediateShiftType (encoded amount : Nat) : ShiftType :=
  if encoded = 0 then .lsl
  else if encoded = 1 then .lsr
  else if encoded = 2 then .asr
  else if amount = 0 then .rrx else .ror

def wideOperation (opcode : Nat) : Option InstrKind :=
  match opcode with
  | 0 => some .and_
  | 1 => some .bic
  | 2 => some .orr
  | 3 => some .orn
  | 4 => some .eor
  | 8 => some .add
  | 10 => some .adc
  | 11 => some .sbc
  | 13 => some .sub
  | 14 => some .rsb
  | _ => none

/-- The aliases that a PC in the place of a register stands for: no
destination makes a test or a compare, no first operand makes a move. -/
def wideAlias (kind : InstrKind) (setFlags : Bool) (rn rd : Nat) : Option InstrKind :=
  if setFlags ∧ rd = 15 then
    if kind = .and_ then some .tst
    else if kind = .add then some .cmn
    else if kind = .sub then some .cmp
    else none
  else if rn = 15 then
    if kind = .orr then some .mov
    else if kind = .orn then some .mvn
    else none
  else some kind

def normalizeDataProcessingOperation (opcode : Nat) (setFlags : Bool) (rn rd : Nat) :
    Option InstrKind :=
  match wideOperation opcode with
  | none => none
  | some operation =>
    match wideAlias operation setFlags rn rd with
    | none => none
    | some kind =>
      if rd = 15 ∧ kind ≠ .tst ∧ kind ≠ .cmp ∧ kind ≠ .cmn then none
      else if rn = 15 ∧ kind ≠ .mov ∧ kind ≠ .mvn then none
      else some kind

def decodeDataProcessingImmediate : Option DecodedInstruction :=
  let opcode := bits first 5 0x0f
  let setFlags := first &&& 0x0010 != 0
  let rn := bits first 0 0x0f
  let rd := bits second 8 0x0f
  match thumbExpandImmediate (spreadImmediate first second) with
  | none => none
  | some expanded =>
    match normalizeDataProcessingOperation opcode setFlags rn rd with
    | none => none
    | some kind => some
        { base32 first second kind .immediate with
          rd, rn, imm := expanded.value, setFlags
          immediateCarryValid := expanded.carryValid, immediateCarry := expanded.carry }

def decodeDataProcessingRegister : Option DecodedInstruction :=
  let opcode := bits first 5 0x0f
  let setFlags := first &&& 0x0010 != 0
  let rn := bits first 0 0x0f
  let rd := bits second 8 0x0f
  let rm := bits second 0 0x0f
  let amount := (second >>> 10 &&& 0x1c ||| second >>> 6 &&& 0x3).toNat
  let shiftType := decodeImmediateShiftType (bits second 4 0x3) amount
  match normalizeDataProcessingOperation opcode setFlags rn rd with
  | none => none
  | some kind =>
    if rm = 15 then none
    else some
      { base32 first second kind .registerValue with
        rd, rn, rm, shiftType, setFlags
        shiftAmount := if amount = 0 ∧ (shiftType = .lsr ∨ shiftType = .asr) then 32 else amount }

def registerShift (operation : Nat) : InstrKind × ShiftType :=
  match operation with
  | 0 => (.lsl, .lsl)
  | 1 => (.lsr, .lsr)
  | 2 => (.asr, .asr)
  | _ => (.ror, .ror)

def decodeRegisterShift : Option DecodedInstruction :=
  let rn := bits first 0 0x0f
  let rd := bits second 8 0x0f
  let rm := bits second 0 0x0f
  if rn = 15 ∨ rd = 15 ∨ rm = 15 then none
  else
    let operation := registerShift (bits first 5 0x3)
    some
      { base32 first second operation.1 .registerValue with
        rd, rn, rm, shiftType := operation.2 }

def decodeExtendWide : Option DecodedInstruction :=
  let rd := bits second 8 0x0f
  let rm := bits second 0 0x0f
  let decoded (kind : InstrKind) : Option DecodedInstruction :=
    if rd = 15 ∨ rm = 15 then none
    else some
      { base32 first second kind .registerValue with
        rd, rm, shiftAmount := bits second 4 0x3 * 8 }
  match bits first 4 0x7 with
  | 0 => decoded .sxth
  | 1 => decoded .uxth
  | 4 => decoded .sxtb
  | 5 => decoded .uxtb
  | _ => none

def decodeMultiply : Option DecodedInstruction :=
  let rn := bits first 0 0x0f
  let rm := bits second 0 0x0f
  let rd := bits second 8 0x0f
  let ra := bits second 12 0x0f
  let subtract := second &&& 0x0010 != 0
  if rn = 15 ∨ rm = 15 ∨ rd = 15 then none
  else if subtract ∧ ra = 15 then none
  else
    let kind : InstrKind := if subtract then .mls else if ra = 15 then .mul else .mla
    some { base32 first second kind .registerValue with rd, rn, rm, ra }

/-- UMULL and SMULL. -/
def decodeLongMultiply (kind : InstrKind) (first second : BitVec 16) :
    Option DecodedInstruction :=
  let rn := bits first 0 0x0f
  let rm := bits second 0 0x0f
  let rd := bits second 12 0x0f
  let ra := bits second 8 0x0f
  if rn = 15 ∨ rm = 15 ∨ rd = 15 ∨ ra = 15 ∨ rd = ra then none
  else some { base32 first second kind .registerValue with rn, rm, rd, ra }

def decodeUmull := decodeLongMultiply .umull

def decodeSmull := decodeLongMultiply .smull

/-- A word encoding with three registers and nothing else. -/
def decodeThreeRegisters (kind : InstrKind) (first second : BitVec 16) :
    Option DecodedInstruction :=
  let rn := bits first 0 0x0f
  let rd := bits second 8 0x0f
  let rm := bits second 0 0x0f
  if rn = 15 ∨ rd = 15 ∨ rm = 15 then none
  else some { base32 first second kind .registerValue with rn, rd, rm }

def decodeUdiv := decodeThreeRegisters .udiv

def decodeSdiv := decodeThreeRegisters .sdiv

def decodeParallelAddSelect : Option DecodedInstruction :=
  decodeThreeRegisters (if first &&& 0x0020 != 0 then .sel else .uadd8) first second

def decodeClz : Option DecodedInstruction :=
  let rm := bits first 0 0x0f
  let rd := bits second 8 0x0f
  if bits second 0 0x0f ≠ rm then none
  else if rd = 15 ∨ rm = 15 then none
  else some { base32 first second .clz .registerValue with rd, rm }

def bitfieldLsb : Nat :=
    (second >>> 10 &&& 0x1c ||| second >>> 6 &&& 0x3).toNat

def decodeBitfieldClear : Option DecodedInstruction :=
  let lsb := bitfieldLsb second
  let msb := bits second 0 0x1f
  let rn := bits first 0 0x0f
  let rd := bits second 8 0x0f
  if msb < lsb then none
  else if rn ≠ 15 ∨ rd = 15 then none
  else some
    { base32 first second .bfc .immediate with
      rn, rd, shiftAmount := lsb, imm := BitVec.ofNat 32 (msb - lsb + 1) }

def decodeUbfx : Option DecodedInstruction :=
  let lsb := bitfieldLsb second
  let width := bits second 0 0x1f + 1
  let rn := bits first 0 0x0f
  let rd := bits second 8 0x0f
  if 32 < lsb + width then none
  else if rn = 15 ∨ rd = 15 then none
  else some
    { base32 first second .ubfx .immediate with
      rn, rd, shiftAmount := lsb, imm := BitVec.ofNat 32 width }

def decodeMrs : Option DecodedInstruction :=
  let rd := bits second 8 0x0f
  let selected := bits second 0 0xff
  let supported := selected = 5 ∨ selected = 8 ∨ selected = 9 ∨ (16 ≤ selected ∧ selected ≤ 20)
  if rd = 15 ∨ ¬supported then none
  else some { base32 first second .mrs .immediate with rd, imm := BitVec.ofNat 32 selected }

def decodeMsr : Option DecodedInstruction :=
  let rn := bits first 0 0x0f
  let selected := bits second 0 0xff
  let supported := selected = 8 ∨ selected = 9 ∨ (16 ≤ selected ∧ selected ≤ 20)
  if rn = 15 ∨ ¬supported then none
  else some { base32 first second .msr .registerValue with rn, imm := BitVec.ofNat 32 selected }

def decodeBarrier : Option DecodedInstruction :=
  let decoded (kind : InstrKind) : Option DecodedInstruction :=
    some { base32 first second kind .immediate with imm := (second &&& 0x0f).setWidth 32 }
  if second &&& 0x00f0 = 0x0040 then decoded .dsb
  else if second &&& 0x00f0 = 0x0050 then decoded .dmb
  else if second &&& 0x00f0 = 0x0060 then decoded .isb
  else none

def decodeNopWide : Option DecodedInstruction :=
  some (base32 first second .nop)

def decodeBranchWide : Option DecodedInstruction :=
  let link := second &&& 0x4000 != 0
  let conditional := second &&& 0x1000 == 0
  let result := base32 first second (if link then .bl else .b) .immediate
  let s : BitVec 32 := (first >>> 10 &&& 1).setWidth 32
  let j1 : BitVec 32 := (second >>> 13 &&& 1).setWidth 32
  let j2 : BitVec 32 := (second >>> 11 &&& 1).setWidth 32
  let low : BitVec 32 := (second &&& 0x07ff).setWidth 32 <<< 1
  if conditional then
    let condition := bits first 6 0x0f
    if 14 ≤ condition ∨ link then none
    else
      let encoded := s <<< 20 ||| j2 <<< 19 ||| j1 <<< 18
        ||| (first &&& 0x003f).setWidth 32 <<< 12 ||| low
      some
        { result with
          condition := Condition.ofBits (BitVec.ofNat 4 condition)
          branchOffset := signExtend 21 encoded }
  else
    let i1 := ~~~(j1 ^^^ s) &&& 1
    let i2 := ~~~(j2 ^^^ s) &&& 1
    let encoded := s <<< 24 ||| i1 <<< 23 ||| i2 <<< 22
      ||| (first &&& 0x03ff).setWidth 32 <<< 12 ||| low
    some { result with branchOffset := signExtend 25 encoded }

def decodeBranchOrSystem : Option DecodedInstruction :=
  let raw := join first second
  if raw &&& 0xfffff000 = 0xf3ef8000 then decodeMrs first second
  else if raw &&& 0xfff0ff00 = 0xf3808800 then decodeMsr first second
  else if raw &&& 0xfffffff0 = 0xf3bf8f40 ∨ raw &&& 0xfffffff0 = 0xf3bf8f50
      ∨ raw &&& 0xfffffff0 = 0xf3bf8f60 then decodeBarrier first second
  else if raw = 0xf3af8000 then decodeNopWide first second
  else decodeBranchWide first second

/-- The operation of a wide transfer. The second group indexes by a register
or a small signed immediate. -/
def wideTransferOperation (op : BitVec 16) : Option (InstrKind × Bool) :=
  match op.toNat with
  | 0xf8c0 => some (.str, false)
  | 0xf8d0 => some (.ldr, false)
  | 0xf880 => some (.strb, false)
  | 0xf890 => some (.ldrb, false)
  | 0xf8a0 => some (.strh, false)
  | 0xf8b0 => some (.ldrh, false)
  | 0xf990 => some (.ldrsb, false)
  | 0xf9b0 => some (.ldrsh, false)
  | 0xf840 => some (.str, true)
  | 0xf850 => some (.ldr, true)
  | 0xf800 => some (.strb, true)
  | 0xf810 => some (.ldrb, true)
  | 0xf820 => some (.strh, true)
  | 0xf830 => some (.ldrh, true)
  | 0xf910 => some (.ldrsb, true)
  | 0xf930 => some (.ldrsh, true)
  | _ => none

def isStoreKind (kind : InstrKind) : Bool := kind = .str || kind = .strb || kind = .strh

def wideTransferForm (literal literalNegative indexed : Bool) (base : DecodedInstruction) :
    Option DecodedInstruction :=
  if literal || (base.rn = 15 && !isStoreKind base.kind) then
    some { base with form := .literal, rn := 15, add := !literalNegative }
  else if indexed then
    if second &&& 0x0800 != 0 then
      let index := second &&& 0x0400 != 0
      let writeback := second &&& 0x0100 != 0
      if !index && !writeback then none
      else some
        { base with
          form := .immediate, index, add := second &&& 0x0200 != 0, writeback
          imm := (second &&& 0x00ff).setWidth 32 }
    else if second &&& 0x0fc0 ≠ 0 then none
    else some
      { base with
        form := .registerValue, rm := bits second 0 0x0f, shiftType := .lsl
        shiftAmount := bits second 4 0x3, imm := 0 }
  else some base

def decodeWideTransfer : Option DecodedInstruction :=
  let op := first &&& 0xfff0
  let literal := first &&& 0xff7f == 0xf85f
  let literalNegative := literal && first &&& 0x0080 == 0
  match (if literal then some (.ldr, false) else wideTransferOperation op) with
  | none => none
  | some (kind, indexed) =>
    -- LDRB to the PC is a prefetch hint, which does nothing
    if op = 0xf890 ∧ second &&& 0xf000 = 0xf000 then some (base32 first second .nop)
    else
      let base :=
        { base32 first second kind .immediate with
          rn := bits first 0 0x0f, rd := bits second 12 0x0f
          imm := (second &&& 0x0fff).setWidth 32 }
      match wideTransferForm second literal literalNegative indexed base with
      | none => none
      | some result =>
        let store := isStoreKind kind
        if (store ∧ (result.rn = 15 ∨ result.rd = 15))
            ∨ (¬store ∧ result.rd = 15 ∧ kind ≠ .ldr) then none
        else some result

def decodeTableBranch : Option DecodedInstruction :=
  let tableOp := second &&& 0xfff0
  let rn := bits first 0 0x0f
  let rm := bits second 0 0x0f
  if tableOp ≠ 0xf000 ∧ tableOp ≠ 0xf010 then none
  else if rn = 13 ∨ rm = 13 ∨ rm = 15 then none
  else some
    { base32 first second (if tableOp = 0xf000 then .tbb else .tbh) .registerValue with rn, rm }

def decodeDoubleTransfer : Option DecodedInstruction :=
  let load := first &&& 0x0010 != 0
  let rn := bits first 0 0x0f
  let rd := bits second 12 0x0f
  let ra := bits second 8 0x0f
  let index := first &&& 0x0100 != 0
  let add := first &&& 0x0080 != 0
  let writeback := first &&& 0x0020 != 0
  if (!index && !writeback) ∨ rn = 15 ∨ rd = 15 ∨ ra = 15 ∨ (load ∧ rd = ra)
      ∨ (writeback ∧ (rn = rd ∨ rn = ra)) then none
  else some
    { base32 first second (if load then .ldrd else .strd) .immediate with
      rn, rd, ra, imm := (second &&& 0xff).setWidth 32 <<< 2, index, add, writeback }

/-- A multiple transfer on the stack pointer with writeback is a push or a
pop, if it goes the right way. -/
def wideMultipleKind (rn : Nat) (writeback decrementBefore load : Bool) : InstrKind :=
  if rn = 13 ∧ writeback ∧ decrementBefore ∧ !load then .push
  else if rn = 13 ∧ writeback ∧ !decrementBefore ∧ load then .pop
  else if load then .ldm else .stm

def decodeWideMultiple : Option DecodedInstruction :=
  if first &&& 0xfff0 = 0xe8d0 then decodeTableBranch first second
  else if first &&& 0xfe40 = 0xe840 then decodeDoubleTransfer first second
  else
    let operation := first &&& 0xffd0
    let load := operation == 0xe890 || operation == 0xe910
    let decrementBefore := operation == 0xe900 || operation == 0xe910
    let rn := bits first 0 0x0f
    let writeback := first &&& 0x0020 != 0
    if operation ≠ 0xe880 ∧ operation ≠ 0xe890 ∧ operation ≠ 0xe900 ∧ operation ≠ 0xe910 then none
    else if rn = 15 ∨ second = 0 ∨ second.getLsbD 13 then none
    else if !load ∧ second.getLsbD 15 then none
    else some
      { base32 first second (wideMultipleKind rn writeback decrementBefore load) .registerList with
        rn, registerList := second, writeback, add := !decrementBefore, index := decrementBefore }

/-! ## Floating-point encodings -/

/-- The first register of a floating-point transfer, in either precision. -/
def vfpTransferRegister (single dBit : Bool) (second : BitVec 16) : Option Nat :=
  if single then some (bits second 12 0x0f * 2 + dBit.toNat)
  else if dBit then none
  else some (bits second 12 0x0f * 2)

def decodeVfpMultiple : Option DecodedInstruction :=
  let singlePrecision := second &&& 0x0f00 == 0x0a00
  let doublePrecision := second &&& 0x0f00 == 0x0b00
  let preIndex := first &&& 0x0100 != 0
  let writeback := first &&& 0x0020 != 0
  let dBit := first &&& 0x0040 != 0
  let load := first &&& 0x0010 != 0
  let rn := bits first 0 0x0f
  if !singlePrecision && !doublePrecision then none
  else
    match vfpTransferRegister singlePrecision dBit second with
    | none => none
    | some rd =>
      if preIndex && !writeback then
        if 32 < rd + (if doublePrecision then 2 else 1) then none
        else some
          { base32 first second (if load then .vldr else .vstr)
              (if rn = 15 then .literal else .immediate) with
            rn, rd, add := first &&& 0x0080 != 0
            imm := (second &&& 0xff).setWidth 32 <<< 2, fpDouble := doublePrecision }
      else
        let incrementAfter := first &&& 0x0180 == 0x0080
        let decrementBefore := first &&& 0x0180 == 0x0100
        let words := bits second 0 0xff
        if !incrementAfter && !decrementBefore then none
        else if rn = 15 ∨ words = 0 ∨ 32 < rd + words then none
        else some
          { base32 first second (if load then .vldm else .vstm) .registerList with
            rn, rd, fpDouble := doublePrecision, imm := BitVec.ofNat 32 words
            add := incrementAfter, index := decrementBefore, writeback }

def vfpSd : Nat := bits second 12 0x0f * 2 + bits first 6 0x1

def vfpSn : Nat := bits first 0 0x0f * 2 + bits second 7 0x1

def vfpSm : Nat := bits second 0 0x0f * 2 + bits second 5 0x1

def vfpExpandImmediate (imm8 : BitVec 8) : BitVec 32 :=
  let sign : BitVec 32 := (imm8 &&& 0x80).setWidth 32 <<< 24
  let exponentBit := imm8 &&& 0x40 != 0
  let exponentHead : BitVec 32 := if exponentBit then 0 else 0x40000000
  let exponentRepeated : BitVec 32 := if exponentBit then 0x3e000000 else 0
  let fraction : BitVec 32 := (imm8 &&& 0x3f).setWidth 32 <<< 19
  sign ||| exponentHead ||| exponentRepeated ||| fraction

/-- The operation of a one-operand encoding; `upper` is the shape `0x0ac0`. -/
def vfpUnaryOperation (normalizedFirst : BitVec 16) (upper : Bool) : Option InstrKind :=
  match normalizedFirst.toNat with
  | 0xeeb0 => some (if upper then .vabs else .vmovSingle)
  | 0xeeb1 => some (if upper then .vsqrt else .vneg)
  | 0xeeb8 => some (if upper then .vcvtF32S32 else .vcvtF32U32)
  | 0xeebc => if upper then some .vcvtU32F32 else none
  | 0xeebd => if upper then some .vcvtS32F32 else none
  | _ => none

def vfpBinaryOperation (binaryFirst second : BitVec 16) : Option InstrKind :=
  let opposite := second &&& 0x0040 != 0
  match binaryFirst.toNat with
  | 0xee30 => some (if opposite then .vsub else .vadd)
  | 0xee20 => some (if opposite then .vnmul else .vmul)
  | 0xee80 => some .vdiv
  | 0xeea0 => some (if opposite then .vfms else .vfma)
  | 0xee90 => if opposite then none else some .vfnms
  | _ => none

def decodeVfpBinary : Option DecodedInstruction :=
  match vfpBinaryOperation (first &&& 0xffb0) second with
  | none => none
  | some kind =>
    if second &&& 0x0f10 = 0x0a00 then
      some
        { base32 first second kind .registerValue with
          rd := vfpSd first second, rn := vfpSn first second, rm := vfpSm second }
    else none

/-- Compares, then everything with two operands. -/
def decodeVfpCompare : Option DecodedInstruction :=
  let normalizedFirst := first &&& 0xffbf
  if (normalizedFirst = 0xeeb4 ∨ normalizedFirst = 0xeeb5) ∧ second &&& 0x0f50 = 0x0a40 then
    some
      { base32 first second .vcmp
          (if normalizedFirst = 0xeeb5 then .immediate else .registerValue) with
        rn := vfpSd first second, rm := vfpSm second }
  else decodeVfpBinary first second

/-- One-operand encodings; a shape without an operation may still be a
compare or a binary one. -/
def decodeVfpUnary : Option DecodedInstruction :=
  let unaryShape := second &&& 0x0fd0
  let kind := if unaryShape = 0x0a40 ∨ unaryShape = 0x0ac0 then
    vfpUnaryOperation (first &&& 0xffbf) (unaryShape = 0x0ac0) else none
  match kind with
  | some kind => some
      { base32 first second kind .registerValue with
        rd := vfpSd first second, rm := vfpSm second }
  | none => decodeVfpCompare first second

def decodeVfpDataProcessing : Option DecodedInstruction :=
  if first &&& 0xffe0 = 0xee00 ∧ second &&& 0x0f7f = 0x0a10 then
    let toCore := first &&& 0x0010 != 0
    let coreRegister := bits second 12 0x0f
    let singleRegister := bits first 0 0x0f * 2 + bits second 7 0x1
    if coreRegister = 15 then none
    else some
      { base32 first second (if toCore then .vmovSingleToCore else .vmovCoreToSingle)
          .registerValue with
        rd := if toCore then coreRegister else singleRegister
        rn := if toCore then singleRegister else coreRegister }
  else if first = 0xeef1 ∧ second &&& 0x0fff = 0x0a10 then
    if bits second 12 0x0f ≠ 15 then none else some (base32 first second .vmrs)
  else if first &&& 0xffb0 = 0xeeb0 ∧ second &&& 0x0ff0 = 0x0a00 then
    let imm8 : BitVec 8 := ((first &&& 0x0f) <<< 4 ||| second &&& 0x0f).setWidth 8
    some
      { base32 first second .vmovImmediate .immediate with
        rd := vfpSd first second, imm := vfpExpandImmediate imm8 }
  else decodeVfpUnary first second

/-! ## The tables -/

/-- One row: which encodings it takes, and how it reads them. -/
structure DecodePattern16 where
  mask : BitVec 16
  value : BitVec 16
  decode : BitVec 16 → Option DecodedInstruction

structure DecodePattern32 where
  mask : BitVec 32
  value : BitVec 32
  decode : BitVec 16 → BitVec 16 → Option DecodedInstruction

def is32BitThumbPrefix (halfword : BitVec 16) : Bool := 0xe800#16 ≤ halfword &&& 0xf800

def patterns16 : List DecodePattern16 :=
  [⟨0xf800, 0x0000, decodeShiftImmediate⟩,
   ⟨0xf800, 0x0800, decodeShiftImmediate⟩,
   ⟨0xf800, 0x1000, decodeShiftImmediate⟩,
   ⟨0xf800, 0x1800, decodeAddSubtract⟩,
   ⟨0xe000, 0x2000, decodeImmediate8⟩,
   ⟨0xfc00, 0x4000, decodeDataProcessing⟩,
   ⟨0xfc00, 0x4400, decodeSpecialData⟩,
   ⟨0xf800, 0x4800, decodeLiteralLoad⟩,
   ⟨0xf000, 0x5000, decodeRegisterTransfer⟩,
   ⟨0xf000, 0x6000, decodeImmediateTransfer⟩,
   ⟨0xf000, 0x7000, decodeImmediateTransfer⟩,
   ⟨0xf000, 0x8000, decodeImmediateTransfer⟩,
   ⟨0xf000, 0x9000, decodeSpTransfer⟩,
   ⟨0xf000, 0xa000, decodeAddressGeneration⟩,
   ⟨0xf000, 0xb000, decodeMiscellaneous⟩,
   ⟨0xf000, 0xc000, decodeMultiple⟩,
   ⟨0xf000, 0xd000, decodeConditionalBranch⟩,
   ⟨0xf800, 0xe000, decodeUnconditionalBranch⟩]

def patterns32 : List DecodePattern32 :=
  [⟨0xfbf08000, 0xf2000000, decodeAddSubWideImmediate⟩,
   ⟨0xfbf08000, 0xf2a00000, decodeAddSubWideImmediate⟩,
   ⟨0xfbf08000, 0xf2400000, decodeMovWide⟩,
   ⟨0xfbf08000, 0xf2c00000, decodeMovWide⟩,
   ⟨0xfa008000, 0xf0000000, decodeDataProcessingImmediate⟩,
   ⟨0xf800d000, 0xf0008000, decodeBranchOrSystem⟩,
   ⟨0xf800d000, 0xf0009000, decodeBranchWide⟩,
   ⟨0xf800d000, 0xf000d000, decodeBranchWide⟩,
   ⟨0xfe008000, 0xea000000, decodeDataProcessingRegister⟩,
   ⟨0xff80f0f0, 0xfa00f000, decodeRegisterShift⟩,
   ⟨0xff8ff0c0, 0xfa0ff080, decodeExtendWide⟩,
   ⟨0xfff000f0, 0xfb000000, decodeMultiply⟩,
   ⟨0xfff000f0, 0xfb000010, decodeMultiply⟩,
   ⟨0xfff000f0, 0xfb800000, decodeSmull⟩,
   ⟨0xfff000f0, 0xfba00000, decodeUmull⟩,
   ⟨0xfff0f0f0, 0xfb90f0f0, decodeSdiv⟩,
   ⟨0xfff0f0f0, 0xfbb0f0f0, decodeUdiv⟩,
   ⟨0xfff0f0f0, 0xfa80f040, decodeParallelAddSelect⟩,
   ⟨0xfff0f0f0, 0xfaa0f080, decodeParallelAddSelect⟩,
   ⟨0xfff0f0f0, 0xfab0f080, decodeClz⟩,
   ⟨0xfff08020, 0xf3600000, decodeBitfieldClear⟩,
   ⟨0xfff08020, 0xf3c00000, decodeUbfx⟩,
   ⟨0xfe000000, 0xf8000000, decodeWideTransfer⟩,
   ⟨0xfe000000, 0xe8000000, decodeWideMultiple⟩,
   ⟨0xfe000000, 0xec000000, decodeVfpMultiple⟩,
   ⟨0xff000000, 0xee000000, decodeVfpDataProcessing⟩]

def decode16 (halfword : BitVec 16) : Option DecodedInstruction :=
  if is32BitThumbPrefix halfword then none
  else
    match patterns16.find? fun pattern => halfword &&& pattern.mask = pattern.value with
    | some pattern => pattern.decode halfword
    | none => none

def decode32 : Option DecodedInstruction :=
  if !is32BitThumbPrefix first then none
  else
    match patterns32.find? fun pattern => join first second &&& pattern.mask = pattern.value with
    | some pattern => pattern.decode first second
    | none => none

end Fil.Cpu
