-- The reference executor: what one decoded instruction does to the core, as a
-- program of bus accesses. An access that fails ends the instruction with the
-- core as it stands at that point.
import Fil.CpuState
import Fil.Dialogue
import Fil.MemoryBus

open Dialogue Fil.Mem

namespace Fil.Cpu

/-! ## Accesses of the core -/

/-- One access to the bus, by width. -/
inductive Request
  | read8 (address : BitVec 32) (context : AccessContext)
  | read16 (address : BitVec 32) (context : AccessContext)
  | read32 (address : BitVec 32) (context : AccessContext)
  | write8 (address : BitVec 32) (value : BitVec 8) (context : AccessContext)
  | write16 (address : BitVec 32) (value : BitVec 16) (context : AccessContext)
  | write32 (address : BitVec 32) (value : BitVec 32) (context : AccessContext)

/-- What the bus answers: a value, zero for a store, or a fault. -/
abbrev Answer := Except BusFault (BitVec 32)

abbrev BusM := Prog Request Answer

def Request.perform {δ : Type} (request : Request) (b : MemoryBus δ) : Answer × MemoryBus δ :=
  match request with
  | .read8 address context => ((b.read8 address context).1.map (·.setWidth 32),
      (b.read8 address context).2)
  | .read16 address context => ((b.read16 address context).1.map (·.setWidth 32),
      (b.read16 address context).2)
  | .read32 address context => b.read32 address context
  | .write8 address value context => ((b.write8 address value context).1.map fun _ => 0,
      (b.write8 address value context).2)
  | .write16 address value context => ((b.write16 address value context).1.map fun _ => 0,
      (b.write16 address value context).2)
  | .write32 address value context => ((b.write32 address value context).1.map fun _ => 0,
      (b.write32 address value context).2)

def request (r : Request) : BusM Answer := Prog.query r

/-! ## How an instruction ends -/

inductive StopReason
  | stepComplete
  | instructionBudget
  | breakpoint
  | halted
  | busFault
  | synchronizationRequired
  | undefinedInstruction
  | invalidState
  deriving DecidableEq

/-- What an instruction that did not complete leaves in the diagnostic. -/
structure Note where
  busFault : Option BusFault
  message : String
  deriving DecidableEq

/-- The end of an instruction: why it stopped, the core, and the note of a
failure. -/
structure Executed where
  reason : StopReason
  cpu : CpuState
  note : Option Note := none

variable (i : DecodedInstruction) (s : CpuState)

def complete : Executed := ⟨.stepComplete, s, none⟩

def failInvalid (message : String) : Executed :=
  ⟨.invalidState, { s with halted := true }, some ⟨none, message⟩⟩

def failBus (fault : BusFault) (message : String) : Executed :=
  ⟨if fault.reason = .synchronizationRequired then .synchronizationRequired else .busFault, s,
    some ⟨some fault, message⟩⟩

/-! ## What the core is built with -/

/-- The single-precision arithmetic of the host, on the bits of its values. -/
structure FpUnit where
  ofSigned : BitVec 32 → BitVec 32
  ofUnsigned : BitVec 32 → BitVec 32
  toSigned : BitVec 32 → BitVec 32
  toUnsigned : BitVec 32 → BitVec 32
  add : BitVec 32 → BitVec 32 → BitVec 32
  sub : BitVec 32 → BitVec 32 → BitVec 32
  mul : BitVec 32 → BitVec 32 → BitVec 32
  div : BitVec 32 → BitVec 32 → BitVec 32
  fma : BitVec 32 → BitVec 32 → BitVec 32 → BitVec 32
  neg : BitVec 32 → BitVec 32
  abs : BitVec 32 → BitVec 32
  sqrt : BitVec 32 → BitVec 32
  isNan : BitVec 32 → Bool
  equal : BitVec 32 → BitVec 32 → Bool
  less : BitVec 32 → BitVec 32 → Bool

/-- Reports the instructions that touch the floating-point registers. VMRS
moves the status only. -/
def isFpRegisterAccess : InstrKind → Bool
  | .vstm | .vldm | .vldr | .vstr
  | .vmovCoreToSingle | .vmovSingleToCore | .vmovSingle | .vmovImmediate
  | .vcvtF32S32 | .vcvtF32U32 | .vcvtS32F32 | .vcvtU32F32
  | .vadd | .vsub | .vmul | .vnmul | .vdiv | .vfma | .vfms | .vfnms
  | .vcmp | .vneg | .vabs | .vsqrt => true
  | _ => false

def branchTarget (offset : Int) : BitVec 32 :=
  BitVec.ofInt 32 (s.currentInstrAddr.toNat + 4 + offset)

/-! ## Operands -/

def shiftedOperand : ShiftResult :=
  if i.form = .immediate then
    ⟨i.imm, if i.immediateCarryValid then i.immediateCarry else s.carryFlag⟩
  else shiftC (s.readRegister i.rm) i.shiftType i.shiftAmount s.carryFlag

def operand2 : BitVec 32 := (shiftedOperand i s).value

def writeAluResult (rd : Nat) (value : BitVec 32) : CpuState :=
  if rd = 15 then s.setPc (value &&& ~~~1) else s.writeRegister rd value

/-- The base of a transfer; the PC counts as aligned. -/
def transferBase : BitVec 32 :=
  if i.rn = 15 then s.architecturalPcForRead &&& ~~~3 else s.readRegister i.rn

def transferOffset : BitVec 32 :=
  if i.form = .registerValue then
    (shiftC (s.readRegister i.rm) i.shiftType i.shiftAmount s.carryFlag).value
  else i.imm

/-- The base with the offset applied, which is also what is written back. -/
def offsetAddress : BitVec 32 :=
  if i.add then transferBase i s + transferOffset i s else transferBase i s - transferOffset i s

def transferAddress : BitVec 32 :=
  if i.index then offsetAddress i s else transferBase i s

def writeBack (address : BitVec 32) (s : CpuState) : CpuState :=
  if i.writeback then s.writeRegister i.rn address else s

def readContext : AccessContext := ⟨.dataRead, s.currentInstrAddr⟩

def writeContext : AccessContext := ⟨.dataWrite, s.currentInstrAddr⟩

/-! ## Integer instructions -/

def executeMov : Executed :=
  let shifted := shiftedOperand i s
  let withFlags (s : CpuState) : CpuState :=
    if i.setFlags then s.setNzc shifted.value shifted.carry else s
  if i.rd = 15 then
    match s.branchWritePc shifted.value with
    | none => failInvalid s "MOV to PC selected non-Thumb state"
    | some s => complete (withFlags s)
  else complete (withFlags (s.writeRegister i.rd shifted.value))

/-- ADD, ADC, SUB and SBC. -/
def executeAdd : CpuState :=
  let left := s.readRegister i.rn
  let left := if i.rn = 15 ∧ i.form = .immediate then left &&& ~~~3 else left
  let right := operand2 i s
  let subtract : Bool := i.kind = .sub || i.kind = .sbc
  let carryIn := if i.kind = .adc then s.carryFlag
    else if i.kind = .sbc then s.carryFlag else subtract
  let result := addWithCarry left (if subtract then ~~~right else right) carryIn
  let s := writeAluResult s i.rd result.value
  if i.setFlags then s.setNzcv result else s

def executeRsb : CpuState :=
  let left := if i.form = .immediate then i.imm else if i.is32bit then operand2 i s else 0
  let right := if i.form = .immediate then s.readRegister i.rn
    else if i.is32bit then s.readRegister i.rn else s.readRegister i.rm
  let result := addWithCarry left (~~~right) true
  let s := s.writeRegister i.rd result.value
  if i.setFlags then s.setNzcv result else s

/-- CMP and CMN. -/
def executeCompare : CpuState :=
  let left := s.readRegister i.rn
  let right := operand2 i s
  s.setNzcv (if i.kind = .cmp then addWithCarry left (~~~right) true
    else addWithCarry left right false)

def executeTst : CpuState :=
  let shifted := shiftedOperand i s
  s.setNzc (s.readRegister i.rn &&& shifted.value) shifted.carry

/-- The value of AND, ORR, EOR, BIC, MVN and ORN. -/
def logicValue (kind : InstrKind) (left right : BitVec 32) : BitVec 32 :=
  match kind with
  | .and_ => left &&& right
  | .orr => left ||| right
  | .eor => left ^^^ right
  | .bic => left &&& ~~~right
  | .mvn => ~~~right
  | .orn => left ||| ~~~right
  | _ => 0

def executeLogic : CpuState :=
  let shifted := shiftedOperand i s
  let value := logicValue i.kind (s.readRegister i.rn) shifted.value
  let s := s.writeRegister i.rd value
  if i.setFlags then s.setNzc value shifted.carry else s

def executeMul : CpuState :=
  let product := (s.readRegister i.rn).setWidth 64 * (s.readRegister i.rm).setWidth 64
  let value := product.setWidth 32
  let s := s.writeRegister i.rd value
  if i.setFlags then s.setNz value else s

/-- MLA and MLS. -/
def executeMultiplyAdd : CpuState :=
  let product := s.readRegister i.rn * s.readRegister i.rm
  let addend := s.readRegister i.ra
  s.writeRegister i.rd (if i.kind = .mla then product + addend else addend - product)

/-- UMULL and SMULL. -/
def executeLongMultiply : CpuState :=
  let product : BitVec 64 := if i.kind = .umull then
      (s.readRegister i.rn).setWidth 64 * (s.readRegister i.rm).setWidth 64
    else (s.readRegister i.rn).signExtend 64 * (s.readRegister i.rm).signExtend 64
  (s.writeRegister i.rd (product.setWidth 32)).writeRegister i.ra ((product >>> 32).setWidth 32)

def executeUdiv : CpuState :=
  let divisor := s.readRegister i.rm
  s.writeRegister i.rd (if divisor = 0 then 0 else s.readRegister i.rn / divisor)

def executeSdiv : CpuState :=
  let dividend := (s.readRegister i.rn).toInt
  let divisor := (s.readRegister i.rm).toInt
  let quotient : Int := if divisor ≠ 0 then
      if dividend = -2147483648 ∧ divisor = -1 then -2147483648 else dividend.tdiv divisor
    else 0
  s.writeRegister i.rd (BitVec.ofInt 32 quotient)

/-- Lane `lane` of a word, moved down. -/
def laneOf (value : BitVec 32) (lane : Nat) : BitVec 32 := value >>> (lane * 8) &&& 0xff

/-- The sum of each pair of bytes, and the flags of those that carry. -/
def uadd8 (left right : BitVec 32) : BitVec 32 × BitVec 32 :=
  (List.range 4).foldl
    (fun acc lane =>
      let sum := laneOf left lane + laneOf right lane
      (acc.1 ||| (sum &&& 0xff) <<< (lane * 8),
        if 0x100 ≤ sum then acc.2 ||| (1 : BitVec 32) <<< (16 + lane) else acc.2))
    (0, 0)

def executeUadd8 : CpuState :=
  let sums := uadd8 (s.readRegister i.rn) (s.readRegister i.rm)
  let s := s.writeRegister i.rd sums.1
  { s with xpsr := s.xpsr &&& ~~~xpsrGeMask ||| sums.2 }

/-- Each byte from the left where its flag is set, else from the right. -/
def select (xpsr left right : BitVec 32) : BitVec 32 :=
  (List.range 4).foldl
    (fun value lane =>
      let useLeft := xpsr &&& ((1 : BitVec 32) <<< (16 + lane)) != 0
      value ||| laneOf (if useLeft then left else right) lane <<< (lane * 8))
    0

def executeSel : CpuState :=
  s.writeRegister i.rd (select s.xpsr (s.readRegister i.rn) (s.readRegister i.rm))

def fieldMask (width : BitVec 32) : BitVec 32 :=
  if width = 32 then 0xffffffff else ((1 : BitVec 32) <<< width.toNat) - 1

/-- BFC. A field of all 32 bits is not shifted. -/
def executeBfc : CpuState :=
  let mask := if i.imm = 32 then 0xffffffff else fieldMask i.imm <<< i.shiftAmount
  s.writeRegister i.rd (s.readRegister i.rd &&& ~~~mask)

def executeUbfx : CpuState :=
  s.writeRegister i.rd (s.readRegister i.rn >>> i.shiftAmount &&& fieldMask i.imm)

/-- Copies bit 7 or bit 15 upwards. -/
def extendByte (value : BitVec 32) : BitVec 32 :=
  if value &&& 0x80 != 0 then value ||| 0xffffff00 else value

def extendHalf (value : BitVec 32) : BitVec 32 :=
  if value &&& 0x8000 != 0 then value ||| 0xffff0000 else value

/-- UXTB, UXTH, SXTB and SXTH. -/
def executeExtend : CpuState :=
  let source := (s.readRegister i.rm).rotateRight i.shiftAmount
  let value := match i.kind with
    | .uxtb => source &&& 0xff
    | .uxth => source &&& 0xffff
    | .sxtb => extendByte (source &&& 0xff)
    | _ => extendHalf (source &&& 0xffff)
  s.writeRegister i.rd value

/-- CLZ, REV, REV16 and REVSH. -/
def reverseValue (kind : InstrKind) (source : BitVec 32) : BitVec 32 :=
  match kind with
  | .clz => source.clz
  | .rev => (source &&& 0x000000ff) <<< 24 ||| (source &&& 0x0000ff00) <<< 8
      ||| (source &&& 0x00ff0000) >>> 8 ||| (source &&& 0xff000000) >>> 24
  | .rev16 => (source &&& 0x00ff00ff) <<< 8 ||| (source &&& 0xff00ff00) >>> 8
  | _ => extendHalf ((source &&& 0xff) <<< 8 ||| (source >>> 8 &&& 0xff))

def executeReverse : CpuState :=
  s.writeRegister i.rd (reverseValue i.kind (s.readRegister i.rm))

/-- The shifts as instructions. The immediate form takes its value from `rm`,
the register form from `rn`. -/
def executeShift : CpuState :=
  let immediate := i.form = .immediate
  let value := if immediate then s.readRegister i.rm else s.readRegister i.rn
  let amount := if immediate then i.shiftAmount else (s.readRegister i.rm &&& 0xff).toNat
  let result := shiftC value i.shiftType amount s.carryFlag
  let s := s.writeRegister i.rd result.value
  if i.setFlags then s.setNzc result.value result.carry else s

/-! ## Branches -/

def executeB : CpuState :=
  s.setPc (branchTarget s i.branchOffset &&& ~~~1)

def executeBl : CpuState :=
  let s' := s.setCore 14 (s.pc ||| 1)
  s'.setPc (branchTarget s i.branchOffset &&& ~~~1)

/-- BX and BLX. BLX writes the link register before it looks at the target. -/
def executeBranchExchange : Executed :=
  let target := s.readRegister i.rm
  let s := if i.kind = .blx then s.setCore 14 (s.pc ||| 1) else s
  if i.kind = .bx ∧ isExceptionReturn target then
    complete { s with pendingExcReturn := some target }
  else
    match s.branchWritePc target with
    | none => failInvalid s "branch exchange selected non-Thumb state"
    | some s => complete s

/-- CBZ and CBNZ. -/
def executeCompareBranch : CpuState :=
  let zero := s.readRegister i.rn == 0
  if (if i.kind = .cbz then zero else !zero) then
    s.setPc ((s.architecturalPcForRead + i.imm) &&& ~~~1)
  else s

/-! ## Loads and stores -/

def loadPc (value : BitVec 32) : Option CpuState :=
  if isExceptionReturn value then some { s with pendingExcReturn := some value }
  else s.branchWritePc value

def executeLdr : BusM Executed := do
  match ← request (.read32 (transferAddress i s) (readContext s)) with
  | .error fault => return failBus s fault "word load failed"
  | .ok value =>
    if i.rd = 15 then
      match loadPc s value with
      | none => return failInvalid s "load to PC selected non-Thumb state"
      | some s' => return complete (writeBack i (offsetAddress i s) s')
    else return complete (writeBack i (offsetAddress i s) (s.writeRegister i.rd value))

/-- STR, STRB and STRH. -/
def executeStore : BusM Executed := do
  let address := transferAddress i s
  let value := s.readRegister i.rd
  let context := writeContext s
  let (access, message) := match i.kind with
    | .str => (Request.write32 address value context, "word store failed")
    | .strb => (.write8 address (value.setWidth 8) context, "byte store failed")
    | _ => (.write16 address (value.setWidth 16) context, "halfword store failed")
  match ← request access with
  | .error fault => return failBus s fault message
  | .ok _ => return complete (writeBack i (offsetAddress i s) s)

/-- LDRB, LDRSB, LDRH and LDRSH. -/
def executeLoadPart : BusM Executed := do
  let address := transferAddress i s
  let context := readContext s
  let (access, message) := if i.kind = .ldrb ∨ i.kind = .ldrsb then
      (Request.read8 address context, "byte load failed")
    else (.read16 address context, "halfword load failed")
  match ← request access with
  | .error fault => return failBus s fault message
  | .ok loaded =>
    let value := match i.kind with
      | .ldrsb => extendByte loaded
      | .ldrsh => extendHalf loaded
      | _ => loaded
    if i.rd = 15 then
      match s.branchWritePc value with
      | none => return failInvalid s "load to PC selected non-Thumb state"
      | some s' => return complete (writeBack i (offsetAddress i s) s')
    else return complete (writeBack i (offsetAddress i s) (s.writeRegister i.rd value))

/-- The address with the offset of a doubleword transfer, which is always the
immediate. -/
def pairOffsetAddress : BitVec 32 :=
  if i.add then s.readRegister i.rn + i.imm else s.readRegister i.rn - i.imm

def pairAddress : BitVec 32 :=
  if i.index then pairOffsetAddress i s else s.readRegister i.rn

def executeLdrd : BusM Executed := do
  let address := pairAddress i s
  match ← request (.read32 address (readContext s)) with
  | .error fault => return failBus s fault "first doubleword load failed"
  | .ok first =>
    match ← request (.read32 (address + 4) (readContext s)) with
    | .error fault => return failBus s fault "second doubleword load failed"
    | .ok second =>
      let s' := (s.writeRegister i.rd first).writeRegister i.ra second
      return complete (writeBack i (pairOffsetAddress i s) s')

def executeStrd : BusM Executed := do
  let address := pairAddress i s
  match ← request (.write32 address (s.readRegister i.rd) (writeContext s)) with
  | .error fault => return failBus s fault "first doubleword store failed"
  | .ok _ =>
    match ← request (.write32 (address + 4) (s.readRegister i.ra) (writeContext s)) with
    | .error fault => return failBus s fault "second doubleword store failed"
    | .ok _ => return complete (writeBack i (pairOffsetAddress i s) s)

/-! ## Transfers of several registers -/

/-- Reads a word for each register, upwards from an address. -/
def readEach (context : AccessContext) : List Nat → BitVec 32 →
    BusM (Except BusFault (List (Nat × BitVec 32)))
  | [], _ => return .ok []
  | reg :: rest, address => do
    match ← request (.read32 address context) with
    | .error fault => return .error fault
    | .ok value =>
      match ← readEach context rest (address + 4) with
      | .error fault => return .error fault
      | .ok values => return .ok ((reg, value) :: values)

/-- Writes the words, upwards from an address. -/
def writeEach (context : AccessContext) : List (BitVec 32) → BitVec 32 →
    BusM (Except BusFault Unit)
  | [], _ => return .ok ()
  | value :: rest, address => do
    match ← request (.write32 address value context) with
    | .error fault => return .error fault
    | .ok _ => writeEach context rest (address + 4)

def listBytes : BitVec 32 := BitVec.ofNat 32 (popcount i.registerList * 4)

def decrementBefore : Bool := !i.add && i.index

def listStart : BitVec 32 :=
  if decrementBefore i then s.readRegister i.rn - listBytes i else s.readRegister i.rn

/-- Where the base register points after the transfer. -/
def listEnd : BitVec 32 :=
  if decrementBefore i then listStart i s else s.readRegister i.rn + listBytes i

/-- Puts the loaded words in their registers, all but the PC. -/
def writeLoaded (loaded : List (Nat × BitVec 32)) : CpuState :=
  loaded.foldl (fun s x => if x.1 < 15 then s.writeRegister x.1 x.2 else s) s

/-- The word that was loaded for a register, zero if there is none. -/
def loadedFor (loaded : List (Nat × BitVec 32)) (reg : Nat) : BitVec 32 :=
  ((loaded.find? fun x => x.1 = reg).map (·.2)).getD 0

/-- POP and LDM. -/
def executeLoadMultiple : BusM Executed := do
  match ← readEach (readContext s) (listedRegisters i.registerList) (listStart i s) with
  | .error fault => return failBus s fault "multiple-register load failed"
  | .ok loaded =>
    let s' := writeBack i (listEnd i s) (writeLoaded s loaded)
    if i.registerList.getLsbD 15 then
      match loadPc s' (loadedFor loaded 15) with
      | none => return failInvalid s' "POP/LDM selected non-Thumb state"
      | some s'' => return complete s''
    else return complete s'

/-- PUSH and STM. -/
def executeStoreMultiple : BusM Executed := do
  let values := (listedRegisters i.registerList).map s.readRegister
  match ← writeEach (writeContext s) values (listStart i s) with
  | .error fault => return failBus s fault "multiple-register store failed"
  | .ok _ => return complete (writeBack i (listEnd i s) s)

/-- TBB and TBH. -/
def executeTableBranch : BusM Executed := do
  let base := s.readRegister i.rn
  let offset := s.readRegister i.rm
  let (access, message) := if i.kind = .tbb then
      (Request.read8 (base + offset) (readContext s), "TBB table byte load failed")
    else (.read16 (base + offset * 2) (readContext s), "TBH table halfword load failed")
  match ← request access with
  | .error fault => return failBus s fault message
  | .ok entry => return complete (s.setPc (s.architecturalPcForRead + entry * 2))

/-! ## Floating point -/

/-- Loads `count` words into registers from `reg` on. What was loaded before a
fault stays loaded. -/
def loadSingles (context : AccessContext) (message : String) :
    Nat → Nat → BitVec 32 → CpuState → BusM (Except Executed CpuState)
  | 0, _, _, s => return .ok s
  | count + 1, reg, address, s => do
    match ← request (.read32 address context) with
    | .error fault => return .error (failBus s fault message)
    | .ok value => loadSingles context message count (reg + 1) (address + 4) (s.setSingle reg value)

def storeSingles (reg count : Nat) : List (BitVec 32) :=
  (List.range count).map fun k => s.single (reg + k)

/-- VLDR and VSTR. -/
def executeVfpScalar : BusM Executed := do
  let base := transferBase i s
  let address := if i.add then base + i.imm else base - i.imm
  let words := if i.fpDouble then 2 else 1
  if i.kind = .vldr then
    match ← loadSingles (readContext s) "VFP scalar load failed" words i.rd address s with
    | .error failed => return failed
    | .ok s => return complete s
  else
    match ← writeEach (writeContext s) (storeSingles s i.rd words) address with
    | .error fault => return failBus s fault "VFP scalar store failed"
    | .ok _ => return complete s

/-- VLDM and VSTM. -/
def executeVfpMultiple : BusM Executed := do
  let base := s.readRegister i.rn
  let start := if decrementBefore i then base - i.imm * 4 else base
  let final := if decrementBefore i then start else base + i.imm * 4
  if i.kind = .vldm then
    match ← loadSingles (readContext s) "VFP multiple load failed" i.imm.toNat i.rd start s with
    | .error failed => return failed
    | .ok s => return complete (writeBack i final s)
  else
    match ← writeEach (writeContext s) (storeSingles s i.rd i.imm.toNat) start with
    | .error fault => return failBus s fault "VFP multiple store failed"
    | .ok _ => return complete (writeBack i final s)

def compareStatus (fp : FpUnit) (left right : BitVec 32) : BitVec 32 :=
  if fp.isNan left || fp.isNan right then xpsrC ||| xpsrV
  else if fp.equal left right then xpsrZ ||| xpsrC
  else if fp.less left right then xpsrN
  else xpsrC

/-- The floating-point instructions that stay in the core. -/
def executeVfpData (fp : FpUnit) (i : DecodedInstruction) (s : CpuState) : CpuState :=
  let d := s.single i.rd
  let n := s.single i.rn
  let m := s.single i.rm
  match i.kind with
  | .vmovCoreToSingle => s.setSingle i.rd (s.readRegister i.rn)
  | .vmovSingleToCore => s.writeRegister i.rd n
  | .vmovSingle => s.setSingle i.rd m
  | .vmovImmediate => s.setSingle i.rd i.imm
  | .vcvtF32S32 => s.setSingle i.rd (fp.ofSigned m)
  | .vcvtF32U32 => s.setSingle i.rd (fp.ofUnsigned m)
  | .vcvtS32F32 => s.setSingle i.rd (fp.toSigned m)
  | .vcvtU32F32 => s.setSingle i.rd (fp.toUnsigned m)
  | .vadd => s.setSingle i.rd (fp.add n m)
  | .vsub => s.setSingle i.rd (fp.sub n m)
  | .vmul => s.setSingle i.rd (fp.mul n m)
  | .vnmul => s.setSingle i.rd (fp.neg (fp.mul n m))
  | .vdiv => s.setSingle i.rd (fp.div n m)
  | .vfma => s.setSingle i.rd (fp.fma n m d)
  | .vfms => s.setSingle i.rd (fp.fma (fp.neg n) m d)
  | .vfnms => s.setSingle i.rd (fp.fma n m (fp.neg d))
  | .vneg => s.setSingle i.rd (fp.neg m)
  | .vabs => s.setSingle i.rd (fp.abs m)
  | .vsqrt => s.setSingle i.rd (fp.sqrt m)
  | .vcmp =>
    let right := if i.form = .immediate then 0 else m
    { s with fpscr := s.fpscr &&& 0x0fffffff ||| compareStatus fp n right }
  | _ => s

def executeVmrs : CpuState :=
  let flags := xpsrN ||| xpsrZ ||| xpsrC ||| xpsrV
  { s with xpsr := s.xpsr &&& ~~~flags ||| s.fpscr &&& flags }

/-- The words of a lazy frame: the registers, the status and a reserved word. -/
def lazyRegisters : List (BitVec 32) := storeSingles s 0 16

/-- Pushes the frame that an exception entry only reserved. -/
def flushLazyFrame : BusM (Except Executed CpuState) := do
  let context := writeContext s
  match ← writeEach context (lazyRegisters s) s.fpLazyBase with
  | .error fault =>
    return .error (failBus s fault "unable to stack floating-point exception frame")
  | .ok _ =>
    match ← request (.write32 (s.fpLazyBase + 64) s.fpscr context) with
    | .error fault => return .error (failBus s fault "unable to stack FPSCR")
    | .ok _ =>
      match ← request (.write32 (s.fpLazyBase + 68) 0 context) with
      | .error fault =>
        return .error (failBus s fault "unable to stack floating-point reserved word")
      | .ok _ => return .ok { s with fpLazyActive := false }

/-- What a touch of the floating-point registers does before the instruction:
it claims the context, and a frame still to be pushed is pushed. -/
def touchFp (aspen : Bool) (i : DecodedInstruction) (s : CpuState) :
    BusM (Except Executed CpuState) :=
  if isFpRegisterAccess i.kind then
    let s := if aspen then { s with control := s.control ||| 4 } else s
    if s.inHandlerMode && s.fpLazyActive then flushLazyFrame s else return .ok s
  else return .ok s

/-! ## System instructions -/

def executeMrs : Executed :=
  let value : Option (BitVec 32) := match i.imm.toNat with
    | 5 => some s.ipsr
    | 8 => some s.msp
    | 9 => some s.psp
    | 16 => some (s.primask &&& 1)
    | 17 | 18 => some (s.basepri &&& 0xf0)
    | 19 => some (s.faultmask &&& 1)
    | 20 => some (s.control &&& 0x7)
    | _ => none
  match value with
  | some value => complete (s.writeRegister i.rd value)
  | none => ⟨.undefinedInstruction, s, some ⟨none, "unsupported MRS special register"⟩⟩

def executeMsr : Executed :=
  let value := s.readRegister i.rn
  match i.imm.toNat with
  | 8 =>
    let s := { s with msp := value &&& ~~~3 }
    complete (if s.usesMsp then s.setCore 13 s.msp else s)
  | 9 =>
    let s := { s with psp := value &&& ~~~3 }
    complete (if s.usesMsp then s else s.setCore 13 s.psp)
  | 16 => complete { s with primask := value &&& 1 }
  | 17 => complete { s with basepri := value &&& 0xf0 }
  | 18 =>
    let requested := value &&& 0xf0
    complete (if requested ≠ 0 ∧ (s.basepri = 0 ∨ requested < s.basepri) then
      { s with basepri := requested } else s)
  | 19 => complete { s with faultmask := value &&& 1 }
  | 20 => complete { s with control := value &&& 0x7 }
  | _ => ⟨.undefinedInstruction, s, some ⟨none, "unsupported MSR special register"⟩⟩

def executeCps : CpuState :=
  let mask : BitVec 32 := if i.add then 0 else 1
  let s := if i.imm &&& 0x2 != 0 then { s with primask := mask } else s
  if i.imm &&& 0x1 != 0 then { s with faultmask := mask } else s

def executeIt : Executed :=
  if inItBlock s.itState then failInvalid s "nested IT block is invalid"
  else complete (s.setItState (i.imm.setWidth 8))

def executeBkpt : Executed :=
  ⟨.breakpoint, { s with halted := true }, some ⟨none, "BKPT #" ++ toString i.imm.toNat⟩⟩

/-! ## One instruction -/

/-- The instruction itself, once the floating-point frame is in order. -/
def dispatch (fp : FpUnit) (i : DecodedInstruction) (s : CpuState) : BusM Executed :=
  match i.kind with
  | .mov => return executeMov i s
  | .movw => return complete (s.writeRegister i.rd i.imm)
  | .movt =>
    return complete (s.writeRegister i.rd (s.readRegister i.rd &&& (0xffff : BitVec 32)
      ||| i.imm <<< 16))
  | .add | .adc | .sub | .sbc => return complete (executeAdd i s)
  | .rsb => return complete (executeRsb i s)
  | .cmp | .cmn => return complete (executeCompare i s)
  | .tst => return complete (executeTst i s)
  | .and_ | .orr | .eor | .bic | .mvn | .orn => return complete (executeLogic i s)
  | .mul => return complete (executeMul i s)
  | .mla | .mls => return complete (executeMultiplyAdd i s)
  | .umull | .smull => return complete (executeLongMultiply i s)
  | .udiv => return complete (executeUdiv i s)
  | .sdiv => return complete (executeSdiv i s)
  | .uadd8 => return complete (executeUadd8 i s)
  | .sel => return complete (executeSel i s)
  | .bfc => return complete (executeBfc i s)
  | .ubfx => return complete (executeUbfx i s)
  | .uxtb | .uxth | .sxtb | .sxth => return complete (executeExtend i s)
  | .clz | .rev | .rev16 | .revsh => return complete (executeReverse i s)
  | .lsl | .lsr | .asr | .ror | .rrx => return complete (executeShift i s)
  | .ldr => executeLdr i s
  | .str | .strb | .strh => executeStore i s
  | .ldrb | .ldrh | .ldrsb | .ldrsh => executeLoadPart i s
  | .ldrd => executeLdrd i s
  | .strd => executeStrd i s
  | .pop | .ldm => executeLoadMultiple i s
  | .push | .stm => executeStoreMultiple i s
  | .b => return complete (executeB i s)
  | .bl => return complete (executeBl i s)
  | .bx | .blx => return executeBranchExchange i s
  | .tbb | .tbh => executeTableBranch i s
  | .cbz | .cbnz => return complete (executeCompareBranch i s)
  | .vldr | .vstr => executeVfpScalar i s
  | .vldm | .vstm => executeVfpMultiple i s
  | .vmovCoreToSingle | .vmovSingleToCore | .vmovSingle | .vmovImmediate
  | .vcvtF32S32 | .vcvtF32U32 | .vcvtS32F32 | .vcvtU32F32
  | .vadd | .vsub | .vmul | .vnmul | .vdiv | .vfma | .vfms | .vfnms
  | .vcmp | .vneg | .vabs | .vsqrt => return complete (executeVfpData fp i s)
  | .vmrs => return complete (executeVmrs s)
  | .mrs => return executeMrs i s
  | .msr => return executeMsr i s
  | .cps => return complete (executeCps i s)
  | .svc => return complete { s with pendingException := some 11 }
  | .it => return executeIt i s
  | .nop | .dmb | .dsb | .isb | .wfi | .wfe | .sev => return complete s
  | .bkpt => return executeBkpt i s
  | .undefined =>
    return ⟨.undefinedInstruction, s, some ⟨none, "decoded instruction has no executor"⟩⟩

/-- Executes one instruction. `aspen` is the context bit of the system
control, set when no system control is attached. -/
def execute (fp : FpUnit) (aspen : Bool) (i : DecodedInstruction) (s : CpuState) :
    BusM Executed := do
  match ← touchFp aspen i s with
  | .error failed => return failed
  | .ok s => dispatch fp i s

end Fil.Cpu
