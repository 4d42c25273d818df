-- Blocks and traces under a cycle budget. A block is retired by generated code
-- that reaches memory, by the kernel of its leading integer instructions, and
-- by handlers one after the other; each of them charges the budget in its own
-- way. A trace is admitted as a whole, up to where its costs are covered.
import Fil.CycleBudget

open Dialogue Fil.Mem

namespace Fil.Cpu

/-! ## Compact handlers -/

inductive ReversibleFast
  | none
  | movImm
  | movReg
  | addImm
  | subImm
  | ldrWord
  | strWord
  deriving DecidableEq

def classifyReversibleFast (d : DecodedInstruction) (fast : JitFast) : ReversibleFast :=
  if d.condition ≠ .al || d.setFlags then .none
  else
    match fast with
    | .movImm => if d.rd < 13 then .movImm else .none
    | .movReg =>
      if d.rd < 13 && d.rm < 13 && d.shiftType = .lsl && d.shiftAmount = 0 then .movReg else .none
    | .addImm => if d.kind = .add && d.rd < 13 && d.rn < 13 then .addImm else .none
    | .subImm => if d.kind = .sub && d.rd < 13 && d.rn < 13 then .subImm else .none
    | .ldrWordGpr => .ldrWord
    | .strWordGpr => .strWord
    | _ => .none

def JitOp.reversibleFast (op : JitOp) : ReversibleFast := classifyReversibleFast op.decoded op.fast

section Blocks

variable {δ : Type}

/-- The handler of an instruction, compact if there is one. -/
def runReversible (op : JitOp) (s : CpuState) (b : MemoryBus δ) : Handled δ :=
  let d := op.decoded
  match op.reversibleFast with
  | .movImm => ⟨true, s.setCore d.rd d.imm, b⟩
  | .movReg => ⟨true, s.setCore d.rd (s.core d.rm), b⟩
  | .addImm => ⟨true, s.setCore d.rd (s.core d.rn + d.imm), b⟩
  | .subImm => ⟨true, s.setCore d.rd (s.core d.rn - d.imm), b⟩
  | .ldrWord =>
    match b.tryFastRead32 (s.core d.rn + d.imm) ⟨.dataRead, op.pc⟩ with
    | none => ⟨false, s, b⟩
    | some (value, b) => ⟨true, s.setCore d.rd value, b⟩
  | .strWord =>
    match b.tryFastWrite32 (s.core d.rn + d.imm) (s.core d.rd) ⟨.dataWrite, op.pc⟩ with
    | none => ⟨false, s, b⟩
    | some b => ⟨true, s, b⟩
  | .none => executeJitFast d op.fast op.pc s b

/-! ## How far a block has come -/

/-- What a slot of the cache keeps besides its block. -/
structure ReversibleSlot (δ : Type) where
  /-- Generated code and the number of leading instructions it covers. -/
  native : Option (NativeFunction δ × Nat) := none
  /-- The address of a first transfer that generated code declined. -/
  nativeDeclined : Option (BitVec 32) := none
  declineStreak : Nat := 0
  reversibleDeclineStreak : Nat := 0

/-- A block under a budget: the cycles of the retired instructions, what was
charged for them, and how many instructions may be tried. -/
structure BlockRun (δ : Type) where
  cycles : List Nat := []
  charges : List Nat := []
  memoryFree : Bool := true
  cachedLimit : Nat
  budget : ReversibleCycleBudget
  machine : Machine δ
  slot : ReversibleSlot δ

def BlockRun.count (r : BlockRun δ) : Nat := r.charges.length

/-- Charges instructions one after the other. -/
def debitAll : ReversibleCycleBudget → List (JitOp × Nat) → ReversibleCycleBudget
  | b, [] => b
  | b, (op, charged) :: rest => debitAll (b.debit charged op.nextPc) rest

/-! ## Generated code with memory -/

/-- The costs of leading instructions, with the stalls of their fetches. -/
def nativeCharges : ReversibleCycleBudget → List JitOp → List Nat
  | _, [] => []
  | b, op :: rest =>
    let charged := op.baseCycles + b.stallAt op.pc
    if 65535 < charged then [] else charged :: nativeCharges (b.fetched op.nextPc) rest

/-- Whether generated code is tried: not again on a transfer it just declined. -/
def nativeTried (settings : NativeSettings) (entry : JitBlockEntry) (r : BlockRun δ) : Bool :=
  settings.nativeMemoryJitEnabled && r.budget.fetchStall.isNone && r.machine.cpu.itState = 0
    && match entry.ops.head?, r.slot.nativeDeclined with
      | some op, some address => nativeAddress op.decoded entry.pc r.machine.cpu ≠ address
      | _, _ => true

/-- What generated code is asked for. The credit is left to it. -/
def nativeRequest (settings : NativeSettings) (committed : Bool) (budget : ReversibleCycleBudget)
    (charges : List Nat) : NativeRequest where
  instructionLimit := charges.length
  cycleLimit := budget.remainingCycles.toNat
  chargedCycles := charges
  mmioBridge := committed && settings.mmioBridge

/-- Takes over what generated code retired of a block. -/
def settleNative (entry : JitBlockEntry) (ops : List JitOp) (charges : List Nat)
    (answer : NativeAnswer δ) (r : BlockRun δ) : BlockRun δ :=
  let retired := answer.retiredCount
  let declined := answer.exitReason = .helperDeclined
  { cycles := (ops.take retired).map JitOp.baseCycles
    charges := charges.take retired
    memoryFree := (ops.take retired).all fun op => !op.isMemory
    cachedLimit := if declined || answer.exitReason = .cycleLimit then retired else r.cachedLimit
    budget := debitAll r.budget ((ops.take retired).zip (charges.take retired))
    machine := answer.machine
    slot := { r.slot with
      nativeDeclined := if retired ≠ 0 then none
        else if declined then
          entry.ops.head?.map fun op => nativeAddress op.decoded entry.pc answer.machine.cpu
        else r.slot.nativeDeclined } }

/-- Runs generated code for the leading instructions of a block. Code that
reports more than it was allowed to is an error. -/
def runNative (settings : NativeSettings) (committed : Bool) (entry : JitBlockEntry)
    (executionCount : Nat) (r : BlockRun δ) : BlockRun δ × Option String :=
  match r.slot.native with
  | none => (r, none)
  | some (function, prefixCount) =>
    if nativeTried settings entry r then
      let ops := entry.ops.take (min executionCount prefixCount)
      let charges := nativeCharges r.budget ops
      if charges.length = 0 then ({ r with cachedLimit := 0 }, none)
      else
        let answer := function.run (nativeRequest settings committed r.budget charges) r.machine
        if charges.length < answer.retiredCount then
          ({ r with machine := answer.machine },
            some "native reversible kernel exceeded its prefix")
        else (settleNative entry ops charges answer r, none)
    else (r, none)

/-! ## The kernel of the leading integer instructions -/

/-- Where planning goes on behind an instruction. -/
def plannedTarget (op : JitOp) : BitVec 32 :=
  if (op.decoded.kind = .b && op.decoded.condition = .al) || op.decoded.kind = .bl then
    BitVec.ofInt 32 (op.pc.toNat + 4 + op.decoded.branchOffset) &&& ~~~1
  else op.nextPc

/-- Charges the table cost of leading instructions, each admitted with the
refill that it may still cost. Tells whether the credit ended the plan. -/
def planMicro : ReversibleCycleBudget → BitVec 32 → List JitOp →
    List Nat × ReversibleCycleBudget × Bool
  | staged, _, [] => ([], staged, false)
  | staged, pc, op :: rest =>
    if pc ≠ op.pc then ([], staged, false)
    else
      let stall := staged.stallAt op.pc
      if staged.admits (op.baseCycles + op.branchPenalty + stall) then
        let charged := op.baseCycles + stall
        let staged := staged.debit charged op.nextPc
        if op.isTerminator then ([charged], staged, false)
        else
          let (charges, staged, stopped) := planMicro staged (plannedTarget op) rest
          (charged :: charges, staged, stopped)
      else ([], staged, true)

/-- The cycles given back for branches that failed, instruction by
instruction. -/
def failedAdjusts (failed : BitVec 32) : Nat → List JitOp → List Nat
  | _, [] => []
  | i, op :: rest =>
    (if failed.getLsbD i then op.baseCycles - 1 else 0) :: failedAdjusts failed (i + 1) rest

def refillLast (penalty : Nat) : List Nat → List Nat
  | [] => []
  | [cycles] => [cycles + penalty]
  | cycles :: rest => cycles :: refillLast penalty rest

/-- Corrects what was planned for by what the kernel did: failed branches, the
instructions behind a taken one, and the refill of the last. -/
def settleMicro (failed : BitVec 32) (ops : List JitOp) (last : JitOp) (planned : List Nat)
    (staged : ReversibleCycleBudget) (s : CpuState) (r : BlockRun δ) : BlockRun δ :=
  let retired := ops.length
  let excess := failedAdjusts failed 0 ops
  let cycles := (ops.map JitOp.baseCycles).zipWith (· - ·) excess
  let charges := (planned.take retired).zipWith (· - ·) excess
  let penalty := if s.pc ≠ last.nextPc then last.branchPenalty else 0
  let remaining := staged.remainingCycles + BitVec.ofNat 64 excess.sum
    + BitVec.ofNat 64 (planned.drop retired).sum - BitVec.ofNat 64 penalty
  { r with
    cycles := refillLast penalty cycles
    charges := refillLast penalty charges
    budget := { staged.fetched last.nextPc with remainingCycles := remaining }
    machine := { r.machine with cpu := { s with instructionAddress := last.pc } } }

/-- Runs the kernel of a block within the credit. `none` is a decline that ends
the whole attempt. -/
def runPlannedMicro (entry : JitBlockEntry) (executionCount : Nat) (r : BlockRun δ) :
    Option (BlockRun δ) :=
  match entry.micro with
  | none => some r
  | some (function, prefixCount) =>
    let microLimit := min (min executionCount entry.ops.length) prefixCount
    if prefixCount = 0 || r.machine.cpu.itState ≠ 0 || microLimit = 0 || r.count ≠ 0 then some r
    else
      let (planned, staged, stopped) :=
        planMicro r.budget r.machine.cpu.pc (entry.ops.take microLimit)
      if planned.length = 0 then none
      else
        let (answer, s) := function r.machine.cpu planned.length
        let retired := (answer.setWidth 32).toNat
        let failed : BitVec 32 := (answer >>> 32).setWidth 32
        if retired = 0 || planned.length < retired then none
        else
          let ops := entry.ops.take retired
          match ops.getLast? with
          | none => none
          | some last =>
            let r := settleMicro failed ops last planned staged s r
            some (if stopped then { r with cachedLimit := retired } else r)

/-! ## Handlers one after the other -/

inductive HandlersEnd
  | over
  | truncated
  | declined

/-- Whether an instruction has a compact handler. -/
def JitOp.compact (op : JitOp) : Bool := op.reversibleFast ≠ .none

def JitOp.passed (op : JitOp) (s : CpuState) : Bool :=
  op.compact || op.decoded.condition = .al || conditionPasses op.decoded.condition s.xpsr

/-- The cycles of an instruction that stays in sequence. -/
def JitOp.actualCycles (op : JitOp) (s : CpuState) : Nat :=
  if op.compact then op.baseCycles else if op.passed s then op.cycles s else 1

/-- The refill that an instruction is admitted with. -/
def JitOp.worstRefill (op : JitOp) (s : CpuState) : Nat :=
  if op.passed s && !op.compact then op.branchPenalty else 0

/-- Runs an instruction of a block at the PC. A compact handler is not told the
address of its instruction. -/
def runEntered (op : JitOp) (m : Machine δ) : Handled δ :=
  let s := if op.compact then m.cpu.setPc op.nextPc else
    { m.cpu with instructionAddress := op.pc }.setPc op.nextPc
  if op.passed m.cpu then runReversible op s m.bus else ⟨true, s, m.bus⟩

/-- The refill that an instruction costs. -/
def JitOp.refill (op : JitOp) (s t : CpuState) : Nat :=
  if op.passed s && t.pc ≠ op.nextPc then op.branchPenalty else 0

/-- Retires an instruction of a block by its handler, if the budget covers what
it may cost. -/
def retireReversible (op : JitOp) (r : BlockRun δ) : BlockRun δ × Option HandlersEnd :=
  let m := r.machine
  let stall := r.budget.stallAt op.pc
  let worst := op.actualCycles m.cpu + op.worstRefill m.cpu + stall
  if r.budget.remainingCycles.toNat < worst then (r, some .truncated)
  else if 65535 < worst then (r, some .over)
  else
    let h := runEntered op m
    if h.handled then
      let cycles := op.actualCycles m.cpu + op.refill m.cpu h.cpu
      ({ r with
          cycles := r.cycles ++ [cycles]
          charges := r.charges ++ [cycles + stall]
          memoryFree := r.memoryFree && !(op.passed m.cpu && op.isMemory)
          budget := r.budget.debit (cycles + stall) op.nextPc
          machine := { m with cpu := { h.cpu with instructionAddress := op.pc }, bus := h.bus } },
        if h.cpu.pc ≠ op.nextPc || op.isTerminator then some .over else none)
    else
      let s := { h.cpu with instructionAddress := m.cpu.instructionAddress }.setPc op.pc
      ({ r with machine := { m with cpu := s, bus := h.bus } }, some .declined)

/-- The loop over the handlers. It stops before an instruction that has none. -/
def runHandlers : List JitOp → BlockRun δ → BlockRun δ × HandlersEnd
  | [], r => (r, .over)
  | op :: rest, r =>
    if r.machine.cpu.pc ≠ op.pc || op.fast = .generic then (r, .over)
    else
      match retireReversible op r with
      | (r, some e) => (r, e)
      | (r, none) => runHandlers rest r

/-! ## A whole block -/

def reversibleDeclineStreakLimit : Nat := 4

/-- The end of a block: the streaks of declines, and the report if anything was
retired. -/
def concludeBlock (entry : JitBlockEntry) (r : BlockRun δ) (e : HandlersEnd) :
    Spent δ × ReversibleSlot δ :=
  match (entry.ops.take r.count).getLast? with
  | none =>
    let slot := match e with
      | .declined => { r.slot with
          declineStreak := min 2 (r.slot.declineStreak + 1)
          reversibleDeclineStreak := min 255 (r.slot.reversibleDeclineStreak + 1) }
      | .over => { r.slot with
          reversibleDeclineStreak := min 255 (r.slot.reversibleDeclineStreak + 1) }
      -- a want of credit says nothing about the block
      | .truncated => r.slot
    ({ charges := r.charges, budget := r.budget, machine := r.machine }, slot)
  | some last =>
    ({ result := some
         { suppressLoopObservation := last.suppressObs, instructionSize := last.size
           instructions := r.count, instructionAddress := last.pc, raw := last.raw
           cycles := r.cycles.sum % 65536 }
       fetched := (entry.ops.take r.count).map fun op => (op.pc, op.size)
       instructionCycles := r.cycles, memoryFree := r.memoryFree, charges := r.charges
       budget := r.budget, machine := r.machine },
      { r.slot with declineStreak := 0, reversibleDeclineStreak := 0 })

/-- Executes the block at the PC, if it is ready, for as long as the budget
lasts. -/
def executeTrustedReversibleJitBlock (settings : NativeSettings) (committed : Bool)
    (entry : JitBlockEntry) (slot : ReversibleSlot δ) (maxInstructions : Nat)
    (budget : ReversibleCycleBudget) (m : Machine δ) : Spent δ × ReversibleSlot δ :=
  if entry.state ≠ .ready || entry.pc ≠ m.cpu.pc || entry.generation ≠ m.bus.executionGeneration
      || blockForbidden m.cpu || reversibleDeclineStreakLimit ≤ slot.reversibleDeclineStreak then
    ({ budget, machine := m }, slot)
  else
    let executionCount := min maxInstructions entry.ops.length
    match runNative settings committed entry executionCount
        { cachedLimit := executionCount, budget, machine := m, slot } with
    | (r, some message) =>
      ({ thrown := some message, charges := r.charges, budget := r.budget, machine := r.machine },
        r.slot)
    | (r, none) =>
      match runPlannedMicro entry executionCount r with
      | none => ({ charges := r.charges, budget := r.budget, machine := r.machine }, r.slot)
      | some r =>
        let (r, e) := runHandlers ((entry.ops.take r.cachedLimit).drop r.count) r
        concludeBlock entry r e

/-! ## Traces -/

structure NativeTraceOp where
  decoded : DecodedInstruction
  raw : BitVec 32
  pc : BitVec 32
  expectedNextPc : BitVec 32
  executionCycles : BitVec 16
  size : Nat

def NativeTraceOp.fetchEnd (op : NativeTraceOp) : BitVec 32 := op.pc + BitVec.ofNat 32 op.size

/-- A compiled trace: instructions along the way that execution is expected to
take. -/
structure NativeTracePlan (δ : Type) where
  first : NativeTraceOp
  rest : List NativeTraceOp
  generation : Nat
  function : NativeFunction δ
  bounded : rest.length < 64

def NativeTracePlan.ops (plan : NativeTracePlan δ) : List NativeTraceOp := plan.first :: plan.rest

structure NativeTraceEntry (δ : Type) where
  plan : Option (NativeTracePlan δ) := none
  generation : Nat := 0
  pc : BitVec 32 := 0
  firstDeclined : Option (BitVec 32) := none
  hot : Nat := 0
  attempts : Nat := 0
  detailedPrefixCount : Nat := 0
  declineStreak : Nat := 0

/-- The costs behind a first instruction. -/
def traceChargesFrom (timing : FetchTiming) : BitVec 32 → List NativeTraceOp → List Nat
  | _, [] => []
  | fetchEnd, op :: rest =>
    (op.executionCycles.toNat + (timing.stall op.pc (op.pc = fetchEnd)).toNat)
      :: traceChargesFrom timing op.fetchEnd rest

def firstStall (timing : FetchTiming) (pc : BitVec 32) : Nat :=
  min (timing.stall pc false).toNat (timing.stall pc true).toNat

def traceCharges (timing : FetchTiming) (plan : NativeTracePlan δ) : List Nat :=
  (plan.first.executionCycles.toNat + firstStall timing plan.first.pc)
    :: traceChargesFrom timing plan.first.fetchEnd plan.rest

def firstFetchExtra (timing : FetchTiming) (pc : BitVec 32) (sequential : Bool) : Nat :=
  (timing.stall pc sequential).toNat - firstStall timing pc

/-- The costs up to an instruction. -/
def chargedPrefix (charges : List Nat) (count : Nat) : Nat := (charges.take count).sum

/-- How many of the sorted values do not exceed a bound. -/
def upperBound (values : List Nat) (bound : Nat) : Nat :=
  (values.takeWhile fun v => v ≤ bound).length

/-- The longest part of a trace whose costs are covered. -/
def plannedPrefix (charges : List Nat) (available credit : Nat) : Nat :=
  if credit < chargedPrefix charges available then
    upperBound ((List.range (available + 1)).map (chargedPrefix charges)) credit - 1
  else available

def nativeDeclineStreakLimit : Nat := 8

/-- What is remembered of a trace that ran. `none` for the plan makes it be
learned again. -/
def NativeTraceEntry.after (entry : NativeTraceEntry δ) (plan : NativeTracePlan δ)
    (answer : NativeAnswer δ) : NativeTraceEntry δ :=
  let entry := if answer.retiredCount ≠ 0 then { entry with firstDeclined := none, declineStreak := 0 }
    else entry
  if answer.exitReason = .branchMismatch then
    if answer.retiredCount = 0 then { entry with plan := none, hot := 0 } else entry
  else if answer.exitReason = .helperDeclined then
    { entry with
      declineStreak := min 255 (entry.declineStreak + 1)
      firstDeclined := if answer.retiredCount = 0 then
          some (nativeAddress plan.first.decoded plan.first.pc answer.machine.cpu)
        else entry.firstDeclined }
  else entry

/-- Whether what generated code reports fits the trace. -/
def retirementDiffers (last : NativeTraceOp) (answer : NativeAnswer δ) (extra charged : Nat) :
    Bool :=
  let dynamicReturn : Bool := answer.exitReason = .dynamicReturn
  answer.retiredCycles + extra ≠ charged
    || (!dynamicReturn && answer.machine.cpu.pc ≠ last.expectedNextPc)
    || (dynamicReturn && (last.decoded.kind ≠ .pop || !last.decoded.registerList.getLsbD 15))
    || answer.machine.cpu.instructionAddress ≠ last.pc

/-- The report of a trace that retired `count` of its instructions. -/
def traceResult (plan : NativeTracePlan δ) (last : NativeTraceOp) (count : Nat) :
    FastStepResult where
  suppressLoopObservation := last.decoded.kind = .bl
    || (last.decoded.kind = .pop && last.decoded.registerList.getLsbD 15)
  instructionSize := last.size
  instructions := count
  instructionAddress := last.pc
  raw := last.raw
  cycles := ((plan.ops.take count).map fun op => op.executionCycles.toNat).sum % 65536

def traceTouchesMemory (kind : InstrKind) : Bool :=
  kind = .ldr || kind = .str || kind = .push || kind = .pop

/-- How much of a trace a caller may see. Detailed callers see each instruction
of it once. -/
def traceLimit (detailed : Bool) (entry : NativeTraceEntry δ) (plan : NativeTracePlan δ)
    (maxInstructions : Nat) : Nat :=
  min (min maxInstructions plan.ops.length) (if detailed then entry.detailedPrefixCount else 64)

def traceExtra (budget : ReversibleCycleBudget) (plan : NativeTracePlan δ) : Nat :=
  firstFetchExtra budget.fetchTiming plan.first.pc
    (budget.haveFetch && plan.first.pc = budget.fetchEnd)

/-- The part of a trace whose costs can be reported. -/
def traceAvailable (charges : List Nat) (limit : Nat) : Nat :=
  min limit (charges.takeWhile fun c => c ≤ 65535).length

def traceRequest (settings : NativeSettings) (committed : Bool) (charges : List Nat)
    (available planned credit extra : Nat) : NativeRequest where
  instructionLimit := planned
  cycleLimit := credit
  chargedCycles := charges.take planned
  admittedCyclePrefix := some ((List.range (available + 1)).map (chargedPrefix charges))
  allowDynamicReturns := true
  mmioPrefixBias := extra
  mmioBridge := committed && settings.mmioBridge

def settleTrace (plan : NativeTracePlan δ) (charges : List Nat) (extra : Nat) (last : NativeTraceOp)
    (answer : NativeAnswer δ) (budget : ReversibleCycleBudget) : Spent δ :=
  let retired := answer.retiredCount
  let charged := chargedPrefix charges retired + extra
  let differs := retirementDiffers last answer extra charged
  { result := if differs then none else some (traceResult plan last retired)
    thrown := if differs then some "native trace retirement metadata differs" else none
    fetched := (plan.ops.take retired).map fun op => (op.pc, op.size)
    instructionCycles := (plan.ops.take retired).map fun op => op.executionCycles.toNat
    memoryFree := (plan.ops.take retired).all fun op => !traceTouchesMemory op.decoded.kind
    charges := (charges.take retired).modifyHead (· + extra)
    budget := budget.debit charged last.fetchEnd
    machine := answer.machine }

/-- Whether a trace is not tried: it is out of date, not at the PC, or was
declined here before. -/
def traceRefused (entry : NativeTraceEntry δ) (plan : NativeTracePlan δ) (m : Machine δ) : Bool :=
  plan.generation ≠ m.bus.executionGeneration || plan.first.pc ≠ m.cpu.pc
    || entry.firstDeclined = some (nativeAddress plan.first.decoded plan.first.pc m.cpu)
    || nativeDeclineStreakLimit ≤ entry.declineStreak

/-- Runs a trace as far as its costs are covered. -/
def executeNativeTrace (settings : NativeSettings) (committed detailed : Bool)
    (entry : NativeTraceEntry δ) (plan : NativeTracePlan δ) (maxInstructions : Nat)
    (budget : ReversibleCycleBudget) (m : Machine δ) : Spent δ × NativeTraceEntry δ :=
  let charges := traceCharges budget.fetchTiming plan
  let extra := traceExtra budget plan
  if traceRefused entry plan m || budget.remainingCycles.toNat < extra
      || 65535 < charges.headD 0 + extra then ({ budget, machine := m }, entry)
  else
    let credit := budget.remainingCycles.toNat - extra
    let available := traceAvailable charges (traceLimit detailed entry plan maxInstructions)
    let planned := plannedPrefix charges available credit
    if planned = 0 then ({ budget, machine := m }, entry)
    else
      let answer := plan.function.run
        (traceRequest settings committed charges available planned credit extra) m
      if planned < answer.retiredCount then
        ({ thrown := some "native trace exceeded its admitted prefix", budget
           machine := answer.machine }, entry)
      else
        match (plan.ops.take answer.retiredCount).getLast? with
        | none => ({ budget, machine := answer.machine }, entry.after plan answer)
        | some last =>
          (settleTrace plan charges extra last answer budget, entry.after plan answer)

/-! ## The caches -/

/-- The code generators of the host. Each of them can decline. -/
structure Compilers (δ : Type) where
  micro : MicroBlock → Option MicroFunction
  native : List JitOp → Option (NativeFunction δ × Nat)
  trace : BitVec 32 → Machine δ → Option (NativeTracePlan δ)

structure ReversibleCaches (δ : Type) where
  jit : JitCache := {}
  slots : BitVec 12 → ReversibleSlot δ := fun _ => {}
  traces : BitVec 12 → NativeTraceEntry δ := fun _ => {}

/-- How many instructions a trace goes through before it comes to one again. -/
def firstTraversal : List (BitVec 32) → List NativeTraceOp → Nat
  | _, [] => 0
  | seen, op :: rest => if seen.contains op.pc then 0 else 1 + firstTraversal (op.pc :: seen) rest

def learnTrace (compilers : Compilers δ) (entry : NativeTraceEntry δ) (m : Machine δ) :
    NativeTraceEntry δ :=
  let generation := m.bus.executionGeneration
  let entry := if entry.pc ≠ m.cpu.pc || entry.generation ≠ generation then
    { pc := m.cpu.pc, generation } else entry
  if entry.plan.isSome || 4 ≤ entry.attempts then entry
  else if entry.hot + 1 < 64 then { entry with hot := entry.hot + 1 }
  else
    let entry := { entry with hot := 0, attempts := entry.attempts + 1 }
    match compilers.trace m.cpu.pc m with
    | none => entry
    | some plan =>
      { entry with
        plan := some plan, detailedPrefixCount := firstTraversal [] (plan.ops.take maxBlock) }

def tryStepNativeTrace (settings : NativeSettings) (compilers : Compilers δ)
    (committed detailed : Bool) (caches : ReversibleCaches δ) (maxInstructions : Nat)
    (budget : ReversibleCycleBudget) (m : Machine δ) : Spent δ × ReversibleCaches δ :=
  if budget.fetchStall.isSome || !settings.hostSupported || singleForbidden m.cpu then
    ({ budget, machine := m }, caches)
  else
    let index := jitBlockIndex m.cpu.pc
    let entry := learnTrace compilers (caches.traces index) m
    let (spent, entry) := match entry.plan with
      | none => ({ budget, machine := m }, entry)
      | some plan =>
        executeNativeTrace settings committed detailed entry plan maxInstructions budget m
    (spent, { caches with traces := Function.update caches.traces index entry })

/-- Whether looking for the block at the PC builds it anew. -/
def rebuilds (jit : JitCache) (m : Machine δ) : Bool :=
  let slot := jit.blocks (jitBlockIndex m.cpu.pc)
  let matching := slot.state ≠ .empty && slot.pc = m.cpu.pc
    && slot.generation = m.bus.executionGeneration
  !blockForbidden m.cpu && !(matching && (slot.state = .ready || slot.ops.length ≠ 1))
    && jitCompileThreshold ≤ jit.hot (jitBlockIndex m.cpu.pc)

/-- Finds or builds the block at the PC, with its generated code. -/
def prepareReversible (settings : NativeSettings) (compilers : Compilers δ)
    (caches : ReversibleCaches δ) (m : Machine δ) : Bool × ReversibleCaches δ :=
  let (ready, jit) := prepareJitBlock compilers.micro true caches.jit m
  let index := jitBlockIndex m.cpu.pc
  if rebuilds caches.jit m then
    let ops := (jit.blocks index).ops
    let native := if settings.nativeMemoryJitEnabled && settings.hostSupported && 2 ≤ ops.length then
      compilers.native ops else none
    (ready, { caches with jit, slots := Function.update caches.slots index { native } })
  else (ready, { caches with jit })

/-! ## Entry points -/

/-- Tries the trace at the PC, if it is to be tried at all. -/
def traceIf (tried : Bool) (settings : NativeSettings) (compilers : Compilers δ)
    (committed detailed : Bool) (caches : ReversibleCaches δ) (maxInstructions : Nat)
    (budget : ReversibleCycleBudget) (m : Machine δ) : Spent δ × ReversibleCaches δ :=
  if tried then
    tryStepNativeTrace settings compilers committed detailed caches maxInstructions budget m
  else ({ budget, machine := m }, caches)

/-- Whether an attempt is over: it has a result, or it threw. -/
def Spent.settled (spent : Spent δ) : Bool := spent.result.isSome || spent.thrown.isSome

/-- The block at the PC, or the fallback if there is none. -/
def blockOrFallback (env : Environment δ) (settings : NativeSettings) (compilers : Compilers δ)
    (committed : Bool) (caches : ReversibleCaches δ) (maxInstructions : Nat)
    (budget : ReversibleCycleBudget) (m : Machine δ) : Spent δ × ReversibleCaches δ :=
  let (ready, caches) := prepareReversible settings compilers caches m
  if ready then
    let index := jitBlockIndex m.cpu.pc
    let (spent, slot) := executeTrustedReversibleJitBlock settings committed
      (caches.jit.blocks index) (caches.slots index) maxInstructions budget m
    (spent, { caches with slots := Function.update caches.slots index slot })
  else (tryStepItScalarFallback env budget m, caches)

def tryStepBudgetedReversibleJitBlock (env : Environment δ) (settings : NativeSettings)
    (compilers : Compilers δ) (committed detailed tryNativeTrace : Bool)
    (caches : ReversibleCaches δ) (maxInstructions : Nat) (budget : ReversibleCycleBudget)
    (m : Machine δ) : Spent δ × ReversibleCaches δ :=
  if maxInstructions = 0 || !m.bus.reversibleRamOnly || !m.bus.trapAllMmio then
    ({ budget, machine := m }, caches)
  else if inItBlock m.cpu.itState then (tryStepItScalarFallback env budget m, caches)
  else
    let tried := detailed && tryNativeTrace && settings.nativeMemoryJitEnabled
      && budget.fetchStall.isNone
    let (spent, caches) :=
      traceIf tried settings compilers false true caches maxInstructions budget m
    if spent.settled then (spent, caches)
    else blockOrFallback env settings compilers committed caches maxInstructions spent.budget
      spent.machine

/-- Joins two attempts, the later one of which retired one instruction. -/
def Spent.also (spent next : Spent δ) (stepped : FastStepResult) : Spent δ :=
  { result := spent.result.map fun result =>
      { stepped with
        instructions := result.instructions + 1
        cycles := (result.cycles + stepped.cycles) % 4294967296 }
    thrown := none
    fetched := spent.fetched ++ next.fetched
    instructionCycles := spent.instructionCycles ++ next.instructionCycles
    memoryFree := spent.memoryFree && next.memoryFree
    charges := spent.charges ++ next.charges
    budget := next.budget
    machine := next.machine }

/-- The rest of an IT block, for at most `fuel` instructions. The cycles of the
span so far are a 32-bit number, and so is what they leave of sixteen bits. -/
def finishItBlock (env : Environment δ) : Nat → Spent δ → Spent δ
  | 0, spent => spent
  | fuel + 1, spent =>
    let cycles := (spent.result.map FastStepResult.cycles).getD 0
    if spent.budget.fetchStall.isNone && inItBlock spent.machine.cpu.itState
        && spent.budget.remainingCycles.toNat ≤ (65535 + 4294967296 - cycles) % 4294967296 then
      let next := tryStepItScalarFallback env spent.budget spent.machine
      match next.result with
      | none => { spent with budget := next.budget, machine := next.machine }
      | some stepped => finishItBlock env fuel (spent.also next stepped)
    else spent

/-- A span of instructions that touch nothing but memory. -/
def tryStepCommittedRamSpan (env : Environment δ) (settings : NativeSettings)
    (compilers : Compilers δ) (caches : ReversibleCaches δ) (maxInstructions : Nat)
    (budget : ReversibleCycleBudget) (m : Machine δ) : Spent δ × ReversibleCaches δ :=
  if maxInstructions = 0 || !m.bus.reversibleRamOnly || !m.bus.trapAllMmio then
    ({ budget, machine := m }, caches)
  else
    let tried := !inItBlock m.cpu.itState && settings.nativeMemoryJitEnabled
    let (spent, caches) :=
      traceIf tried settings compilers true false caches maxInstructions budget m
    if spent.settled then (spent, caches)
    else
      let (spent, caches) := if inItBlock spent.machine.cpu.itState then
        (tryStepItScalarFallback env spent.budget spent.machine, caches)
        else tryStepBudgetedReversibleJitBlock env settings compilers true false false caches
          maxInstructions spent.budget spent.machine
      match spent.result with
      | none => (spent, caches)
      | some result =>
        let spent := finishItBlock env (maxInstructions - result.instructions) spent
        ({ spent with result := spent.result.map fun result =>
            { result with cycles := result.cycles % 65536 } }, caches)

end Blocks

end Fil.Cpu
