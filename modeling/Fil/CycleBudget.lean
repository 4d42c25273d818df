-- Execution under a cycle budget. A caller that knows the cycles up to its next
-- event gives them as a credit, and the core retires instructions only as long
-- as their cost, with the stalls of their fetches, is covered: one instruction
-- at a time, the instructions of a cached block, or a compiled trace.
import Fil.BlockJit

open Dialogue Fil.Mem

namespace Fil.Cpu

/-! ## The budget -/

/-- Stalls of fetches from two half-open ranges. -/
structure FetchTiming where
  regionBegin : BitVec 32 := 0
  regionEnd : BitVec 32 := 0
  aliasBegin : BitVec 32 := 0
  aliasEnd : BitVec 32 := 0
  nonsequentialStall : BitVec 16 := 0
  sequentialStall : BitVec 16 := 0
  deriving DecidableEq

def FetchTiming.stall (t : FetchTiming) (pc : BitVec 32) (sequential : Bool) : BitVec 16 :=
  let cycles := if sequential then t.sequentialStall else t.nonsequentialStall
  if cycles = 0 then 0
  else if (t.regionBegin ≤ pc && pc < t.regionEnd) || (t.aliasBegin ≤ pc && pc < t.aliasEnd) then
    cycles
  else 0

/-- The credit of a caller and the fetch before. A callback for the stalls has
to be stable and takes precedence over the timing. -/
structure ReversibleCycleBudget where
  remainingCycles : BitVec 64 := 0
  fetchStall : Option (BitVec 32 → Bool → BitVec 16) := none
  fetchTiming : FetchTiming := {}
  haveFetch : Bool := false
  fetchEnd : BitVec 32 := 0

namespace ReversibleCycleBudget

def fetchStallCycles (b : ReversibleCycleBudget) (pc : BitVec 32) (sequential : Bool) : Nat :=
  (match b.fetchStall with
    | some stall => stall pc sequential
    | none => b.fetchTiming.stall pc sequential).toNat

def stallAt (b : ReversibleCycleBudget) (pc : BitVec 32) : Nat :=
  b.fetchStallCycles pc (b.haveFetch && pc = b.fetchEnd)

def fetched (b : ReversibleCycleBudget) (next : BitVec 32) : ReversibleCycleBudget :=
  { b with haveFetch := true, fetchEnd := next }

/-- Charges cycles. The counter is unsigned and wraps. -/
def debit (b : ReversibleCycleBudget) (charged : Nat) (next : BitVec 32) : ReversibleCycleBudget :=
  { b.fetched next with remainingCycles := b.remainingCycles - BitVec.ofNat 64 charged }

/-- Whether a cost is covered and can be reported. -/
def admits (b : ReversibleCycleBudget) (cycles : Nat) : Bool :=
  cycles ≤ b.remainingCycles.toNat && cycles ≤ 65535

end ReversibleCycleBudget

/-- What an attempt under a budget comes to: the result unless it declined or
threw, the retired instructions with their cycles, what was charged for each of
them, and what is left. -/
structure Spent (δ : Type) where
  result : Option FastStepResult := none
  thrown : Option String := none
  fetched : List (BitVec 32 × Nat) := []
  instructionCycles : List Nat := []
  memoryFree : Bool := true
  charges : List Nat := []
  budget : ReversibleCycleBudget
  machine : Machine δ

/-! ## The cost of the next instruction -/

/-- Instructions whose target is not known before they execute. -/
def loadedTarget (d : DecodedInstruction) : Bool :=
  match d.kind with
  | .tbb | .tbh => true
  | .mov | .ldr | .ldrb | .ldrh | .ldrsb | .ldrsh | .ldrd => d.rd = 15
  | .ldm | .pop => d.registerList.getLsbD 15
  | _ => false

section Budget

variable {δ : Type}

/-- The cost of an instruction at `pc` that executes, from the state before it.
The target of a compare-and-branch is taken from the address of the instruction
before. -/
def predictedCycles (upperBound : Bool) (d : DecodedInstruction) (size : Nat) (s : CpuState) :
    Option Nat :=
  let fallthrough := s.pc + BitVec.ofNat 32 size
  let base := basePipelineCycles d
  let refilled := base + takenBranchPenalty d.kind
  match d.kind with
  | .b | .bl =>
    let target := BitVec.ofInt 32 (s.pc.toNat + 4 + d.branchOffset) &&& ~~~1
    some (if target ≠ fallthrough then refilled else base)
  | .bx | .blx =>
    let target := s.readRegister d.rm
    if d.kind = .bx ∧ isExceptionReturn target then some base
    else if target &&& 1 = 0 then if upperBound then some refilled else none
    else some (if target &&& ~~~1 ≠ fallthrough then refilled else base)
  | .cbz | .cbnz =>
    let zero := s.readRegister d.rn == 0
    let take := if d.kind = .cbz then zero else !zero
    some (if take ∧ (s.architecturalPcForRead + d.imm) &&& ~~~1 ≠ fallthrough then refilled
      else base)
  | .udiv | .sdiv => some (divideCycles (s.readRegister d.rm))
  | _ => some base

def peekPipelineCycles (upperBound : Bool) (m : Machine δ) : Option Nat :=
  let s := m.cpu
  if s.halted || invalidThumb s then none
  else
    match fetchDecode s.pc m.bus with
    | none => none
    | some (_, size, d) =>
      if loadedTarget d && !upperBound then none
      else if !conditionPasses (effectiveCondition d s.itState) s.xpsr then some 1
      else if upperBound && divideForm d.kind then some (divideCycles (s.readRegister d.rm))
      else if upperBound && (loadedTarget d || d.rd = 15 || d.ra = 15
          || (d.writeback && d.rn = 15)) then
        some (basePipelineCycles d + takenBranchPenalty d.kind)
      else predictedCycles upperBound d size s

def peekPredictableCycles (m : Machine δ) : Option Nat := peekPipelineCycles false m

/-! ## One instruction -/

/-- The states in which no single instruction is tried. -/
def singleForbidden (s : CpuState) : Bool :=
  s.halted || invalidThumb s || s.pendingException.isSome || s.pendingExcReturn.isSome

/-- Steps the core and charges the step with its stall. A step that does not
complete takes the core back. -/
def chargeStep (env : Environment δ) (sizeOf : FastStepResult → Nat)
    (budget : ReversibleCycleBudget) (m : Machine δ) : Spent δ :=
  let (stepped, m') := stepFast env m
  if stepped.reason ≠ .stepComplete || stepped.instructions ≠ 1 then
    { budget, machine := { m' with cpu := m.cpu } }
  else
    let charged := stepped.cycles + budget.stallAt m.cpu.pc
    { result := some stepped, fetched := [(stepped.instructionAddress, stepped.instructionSize)]
      instructionCycles := [stepped.cycles], charges := [charged], machine := m'
      budget := budget.debit charged (m.cpu.pc + BitVec.ofNat 32 (sizeOf stepped)) }

/-- One checked instruction, admitted by the cost that is predicted for it. -/
def tryStepCheckedSingle (env : Environment δ) (budget : ReversibleCycleBudget) (m : Machine δ) :
    Spent δ :=
  if singleForbidden m.cpu then { budget, machine := m }
  else if (fetchDecode m.cpu.pc m.bus).isNone then { budget, machine := m }
  else
    match peekPredictableCycles m with
    | none => { budget, machine := m }
    | some cycles =>
      if budget.admits (cycles + budget.stallAt m.cpu.pc) then
        chargeStep env FastStepResult.instructionSize budget m
      else { budget, machine := m }

/-- The arithmetic that an IT block may run under a budget. -/
def safeItKind : InstrKind → Bool
  | .mov | .cmp | .add | .sub | .adc | .sbc | .rsb | .and_ | .orr | .eor | .bic | .mvn
  | .lsl | .lsr | .asr | .ror | .rrx => true
  | _ => false

def safeAlu (inIt : Bool) (d : DecodedInstruction) : Bool :=
  inIt && safeItKind d.kind && d.rd ≠ 15 && d.rn ≠ 15 && d.rm ≠ 15
    && classifyJitBoundary d = .none && classifyJitFast d ≠ .generic

def plainMov (inIt : Bool) (d : DecodedInstruction) : Bool :=
  inIt && d.kind = .mov && d.rd < 13
    && (d.form = .immediate
      || (d.form = .registerValue && d.rm < 13 && d.shiftType = .lsl && d.shiftAmount = 0))

/-- An IT instruction, or a plain move under its condition, done on the spot. -/
def stepOnTheSpot (safeIt : Bool) (raw : BitVec 32) (size : Nat) (d : DecodedInstruction)
    (m : Machine δ) : FastStepResult × Machine δ :=
  let s := entered m.cpu size
  let stepped : FastStepResult :=
    { instructionAddress := m.cpu.pc, raw, instructionSize := size, instructions := 1, cycles := 1 }
  if safeIt then (stepped, { m with cpu := s.setItState (d.imm.setWidth 8) })
  else if conditionPasses (currentItCondition s.itState) s.xpsr then
    let value := if d.form = .immediate then d.imm else s.core d.rm
    ({ stepped with cycles := basePipelineCycles d },
      { m with cpu := (s.setCore d.rd value).advanceIt })
  else (stepped, { m with cpu := s.advanceIt })

/-- One instruction of an IT block that cannot fault, branch or touch memory,
admitted by its table cost. -/
def tryStepItScalarFallback (env : Environment δ) (budget : ReversibleCycleBudget)
    (m : Machine δ) : Spent δ :=
  if singleForbidden m.cpu then { budget, machine := m }
  else
    match fetchDecode m.cpu.pc m.bus with
    | none => { budget, machine := m }
    | some (raw, size, d) =>
      let inIt := inItBlock m.cpu.itState
      let safeIt := d.kind = .it && !inIt
      let stall := budget.stallAt m.cpu.pc
      if !safeIt && !safeAlu inIt d && !plainMov inIt d then { budget, machine := m }
      else if !budget.admits (basePipelineCycles d + stall) then { budget, machine := m }
      else if safeIt || plainMov inIt d then
        let (stepped, m') := stepOnTheSpot safeIt raw size d m
        { result := some stepped, fetched := [(m.cpu.pc, size)]
          instructionCycles := [stepped.cycles], charges := [stepped.cycles + stall], machine := m'
          budget := budget.debit (stepped.cycles + stall) (m.cpu.pc + BitVec.ofNat 32 size) }
      else chargeStep env (fun _ => size) budget m

/-! ## Generated code that reaches memory -/

inductive NativeExitReason
  | none
  | instructionLimit
  | cycleLimit
  | helperDeclined
  | branchMismatch
  | controlFlow
  | unsupportedInstruction
  | dynamicReturn
  deriving DecidableEq

/-- What generated code is told: how far it may go, and the cost of each
instruction. With a certified prefix it need not look at the credit again. -/
structure NativeRequest where
  instructionLimit : Nat
  cycleLimit : Nat
  chargedCycles : List Nat
  admittedCyclePrefix : Option (List Nat) := none
  allowDynamicReturns : Bool := false
  mmioPrefixBias : Nat := 0
  mmioBridge : Bool

/-- Whether the certified costs fit the request. Otherwise they are not honoured. -/
def nativeAdmittedCyclePrefixValid (request : NativeRequest) : Bool :=
  request.admittedCyclePrefix.any fun certified =>
    request.instructionLimit ≤ request.chargedCycles.length && certified.head? = some 0
      && certified[request.instructionLimit]?.any (· ≤ request.cycleLimit)

/-- What is certified for so many instructions. -/
def NativeRequest.certified (request : NativeRequest) (count : Nat) : Nat :=
  (request.admittedCyclePrefix.getD []).getD count 0

structure NativeAnswer (δ : Type) where
  retiredCount : Nat
  retiredCycles : Nat
  exitReason : NativeExitReason
  machine : Machine δ

/-- How the body of an instruction ends: with its effects, and whether a device
asks for a stop behind it, with a return to where no trace goes on, or before it
took effect. -/
inductive NativeBodyEnd
  | committed (boundaryStop : Bool)
  | dynamicReturn
  | left (reason : NativeExitReason)

/-- One instruction of generated code. The guard tells that the core is about to
leave the expected way; the body is told the cycles before it. -/
structure NativeInst (δ : Type) where
  mismatched : Machine δ → Bool := fun _ => false
  body : NativeRequest → Nat → Machine δ → NativeBodyEnd × Machine δ

/-- Generated code, instruction by instruction. -/
abbrev NativeFunction (δ : Type) := List (NativeInst δ)

/-- Goes through generated code. Without certified costs each instruction looks
at the credit before its body runs. -/
def runNativeInsts (request : NativeRequest) (admitted : Bool) :
    NativeFunction δ → Nat → Nat → Bool → Machine δ → NativeAnswer δ
  | [], count, cycles, _, m => ⟨count, cycles, .none, m⟩
  | inst :: rest, count, cycles, boundaryStop, m =>
    if request.instructionLimit ≤ count || boundaryStop then ⟨count, cycles, .instructionLimit, m⟩
    else if !admitted && request.chargedCycles.length ≤ count then
      ⟨count, cycles, .unsupportedInstruction, m⟩
    else
      let cost := if admitted then 0 else request.chargedCycles.getD count 0
      if inst.mismatched m then ⟨count, cycles, .branchMismatch, m⟩
      else if !admitted && request.cycleLimit < cycles + cost then ⟨count, cycles, .cycleLimit, m⟩
      else
        match inst.body request (if admitted then request.certified count else cycles) m with
        | (.committed stop, m) => runNativeInsts request admitted rest (count + 1) (cycles + cost) stop m
        | (.dynamicReturn, m) => ⟨count + 1, cycles + cost, .dynamicReturn, m⟩
        | (.left reason, m) => ⟨count, cycles, reason, m⟩

def NativeFunction.run (function : NativeFunction δ) (request : NativeRequest) (m : Machine δ) :
    NativeAnswer δ :=
  let admitted := nativeAdmittedCyclePrefixValid request
  let answer := runNativeInsts request admitted function 0 0 false m
  if admitted then { answer with retiredCycles := request.certified answer.retiredCount }
  else answer

structure NativeSettings where
  hostSupported : Bool := true
  nativeMemoryJitEnabled : Bool := true
  mmioBridge : Bool := false

/-- The address of a first transfer, as the host guesses it. -/
def nativeAddress (d : DecodedInstruction) (pc : BitVec 32) (s : CpuState) : BitVec 32 :=
  let base := if d.rn = 15 then (pc + 4) &&& ~~~3 else s.readRegister d.rn
  if d.add then base + d.imm else base - d.imm

end Budget

end Fil.Cpu
