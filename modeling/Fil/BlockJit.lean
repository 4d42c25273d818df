-- The block cache of the core. Instructions at a hot address are decoded once
-- and then retired in one go: by a generated kernel for the leading integer
-- instructions, by handlers alone where nothing can go wrong, or one by one
-- with the checks of a single step.
import Fil.MicroIr
import Fil.Stepper

open Dialogue Fil.Mem

namespace Fil.Cpu

/-! ## Cached instructions -/

def maxBlock : Nat := 16

/-- One instruction of a block, with what execution looks up. -/
structure JitOp where
  decoded : DecodedInstruction
  pc : BitVec 32
  size : Nat
  raw : BitVec 32
  divideForm : Bool
  baseCycles : Nat
  fast : JitFast
  isMemory : Bool
  isTerminator : Bool
  branchPenalty : Nat
  suppressObs : Bool

def JitOp.nextPc (op : JitOp) : BitVec 32 := op.pc + BitVec.ofNat 32 op.size

/-- Branches that a block goes on behind when they are not taken. -/
def condBranch (d : DecodedInstruction) : Bool :=
  (d.kind = .b || d.kind = .cbz || d.kind = .cbnz) && d.condition ≠ .al

def touchesMemory (d : DecodedInstruction) : Bool :=
  classifyJitBoundary d = .memoryMayTrap || d.kind = .ldr || d.kind = .ldm || d.kind = .pop

def jitOp (pc raw : BitVec 32) (size : Nat) (d : DecodedInstruction) : JitOp where
  decoded := d
  pc := pc
  size := size
  raw := raw
  divideForm := divideForm d.kind
  baseCycles := if divideForm d.kind then 7 else basePipelineCycles d
  fast := classifyJitFast d
  isMemory := touchesMemory d
  isTerminator := classifyJitBoundary d = .controlFlow && !condBranch d
  branchPenalty := if classifyJitBoundary d = .controlFlow then takenBranchPenalty d.kind else 0
  suppressObs := suppressesLoopObservation d

/-- System, floating-point and unsupported instructions end a block before
them. -/
def admitted (d : DecodedInstruction) : Bool :=
  classifyJitBoundary d ≠ .exceptionOrSystem && classifyJitBoundary d ≠ .floatingPoint
    && classifyJitBoundary d ≠ .unsupported && d.kind ≠ .it

def isBlockStore (kind : InstrKind) : Bool :=
  kind = .str || kind = .strb || kind = .strh || kind = .strd || kind = .stm || kind = .push

/-! ## Entries of the cache -/

inductive EntryState
  | empty
  | attempted
  | ready
  deriving DecidableEq

/-- A generated kernel. It runs from a core for at most so many instructions,
and reports the retired ones in the low half of its answer and the conditional
branches that failed, one bit each, in the high half. -/
abbrev MicroFunction := CpuState → Nat → BitVec 64 × CpuState

structure JitBlockEntry where
  generation : Nat := 0
  pc : BitVec 32 := 0
  state : EntryState := .empty
  ops : List JitOp := []
  /-- The kernel and the number of leading instructions it covers. -/
  micro : Option (MicroFunction × Nat) := none

namespace JitBlockEntry

def allFast (e : JitBlockEntry) : Bool :=
  e.ops.all fun op => op.fast ≠ .generic && !op.isMemory && !op.divideForm
    && op.decoded.condition = .al

def hasMemory (e : JitBlockEntry) : Bool := e.ops.any JitOp.isMemory

def hasStore (e : JitBlockEntry) : Bool := e.ops.any fun op => isBlockStore op.decoded.kind

end JitBlockEntry

/-- The sum of the table cycles. -/
def baseCyclesOf : List JitOp → Nat
  | [] => 0
  | op :: rest => op.baseCycles + baseCyclesOf rest

def jitBlockIndex (pc : BitVec 32) : BitVec 12 := (pc >>> 1 ^^^ pc >>> 13).setWidth 12

/-- The direct-mapped cache and its hotness counters. -/
structure JitCache where
  blocks : BitVec 12 → JitBlockEntry := fun _ => {}
  hot : BitVec 12 → Nat := fun _ => 0

def JitCache.store (jit : JitCache) (entry : JitBlockEntry) : JitCache :=
  { jit with blocks := Function.update jit.blocks (jitBlockIndex entry.pc) entry }

def jitCompileThreshold : Nat := 50

/-! ## Preparing a block -/

section Block

variable {δ : Type}

/-- Reads and decodes the instruction at an address from backed memory. A fetch
leaves no note on the bus. -/
def fetchDecode (pc : BitVec 32) (b : MemoryBus δ) :
    Option (BitVec 32 × Nat × DecodedInstruction) :=
  let context : AccessContext := ⟨.instructionFetch, pc⟩
  match b.tryFastRead pc .halfword context with
  | none => none
  | some (first, _) =>
    let first : BitVec 16 := first.setWidth 16
    if is32BitThumbPrefix first then
      if 0xfffffffd < pc then none
      else
        match b.tryFastRead (pc + 2) .halfword context with
        | none => none
        | some (second, _) =>
          let second : BitVec 16 := second.setWidth 16
          (decode32 first second).map fun d =>
            (first.setWidth 32 <<< 16 ||| second.setWidth 32, 4, d)
    else (decode16 first).map fun d => (first.setWidth 32, 2, d)

/-- The instructions from an address on, up to `count` of them. -/
def blockOps (b : MemoryBus δ) : Nat → BitVec 32 → List JitOp
  | 0, _ => []
  | count + 1, pc =>
    match fetchDecode pc b with
    | none => []
    | some (raw, size, d) =>
      if admitted d then
        let op := jitOp pc raw size d
        if op.isTerminator then [op] else op :: blockOps b count op.nextPc
      else []

def microSource (op : JitOp) : MicroSource := ⟨op.decoded, op.pc, op.size⟩

/-- The leading instructions that can be lowered. -/
def lowerablePrefix (ops : List JitOp) : List JitOp :=
  ops.takeWhile fun op => (tryLowerMicroInst (microSource op)).isOk

/-- The kernel of a block. `compile` is the code generator of the host with its
admission; it can decline any block. -/
def prepareMicroBlock (compile : MicroBlock → Option MicroFunction) (ops : List JitOp) :
    Option (MicroFunction × Nat) :=
  let leading := lowerablePrefix ops
  if leading.length < 2 then none
  else
    match buildMicroBlock (leading.map microSource) with
    | .error _ => none
    | .ok block => (compile block).map fun function => (function, leading.length)

/-- The states from which no block can start. -/
def blockForbidden (s : CpuState) : Bool :=
  s.halted || invalidThumb s || inItBlock s.itState
    || s.pendingException.isSome || s.pendingExcReturn.isSome

def prepareJitBlock (compile : MicroBlock → Option MicroFunction) (allowSingle : Bool)
    (jit : JitCache) (m : Machine δ) : Bool × JitCache :=
  if blockForbidden m.cpu then (false, jit)
  else
    let pc := m.cpu.pc
    let index := jitBlockIndex pc
    let slot := jit.blocks index
    let matching := slot.state ≠ .empty && slot.pc = pc
      && slot.generation = m.bus.executionGeneration
    if matching && slot.state = .ready then (allowSingle || 2 ≤ slot.ops.length, jit)
    else if matching && (!allowSingle || slot.ops.length ≠ 1) then (false, jit)
    else if jit.hot index < jitCompileThreshold then
      (false, { jit with hot := Function.update jit.hot index (jit.hot index + 1) })
    else
      let ops := blockOps m.bus maxBlock pc
      let fresh : JitBlockEntry :=
        { generation := m.bus.executionGeneration, pc, state := .attempted, ops }
      if ops.length = 0 || (!allowSingle && ops.length < 2) then (false, jit.store fresh)
      else
        let micro := if 2 ≤ ops.length then prepareMicroBlock compile ops else none
        (true, jit.store { fresh with state := .ready, micro })

/-! ## What a block reports -/

structure JitStepOutcome where
  result : FastStepResult
  /-- Addresses and sizes of the retired instructions, in order. -/
  fetched : List (BitVec 32 × Nat)
  /-- No instruction touched memory. -/
  memoryFree : Bool

/-- How far a block has come: the retired instructions, their cycles and the
last one of them. -/
structure Progress where
  fetched : List (BitVec 32 × Nat) := []
  totalCycles : Nat := 0
  lastPc : BitVec 32
  lastRaw : BitVec 32
  lastSize : Nat
  lastSuppress : Bool := false
  memoryFree : Bool := true

def Progress.start (ops : List JitOp) (pc : BitVec 32) : Progress where
  lastPc := pc
  lastRaw := (ops.head?.map JitOp.raw).getD 0
  lastSize := (ops.head?.map JitOp.size).getD 0

def Progress.count (p : Progress) : Nat := p.fetched.length

def Progress.retire (p : Progress) (op : JitOp) (cycles : Nat) (suppress : Bool) : Progress :=
  { p with
    fetched := p.fetched ++ [(op.pc, op.size)]
    totalCycles := p.totalCycles + cycles
    lastPc := op.pc
    lastRaw := op.raw
    lastSize := op.size
    lastSuppress := suppress }

def Progress.touch (p : Progress) (op : JitOp) : Progress :=
  if op.isMemory then { p with memoryFree := false } else p

/-- The outcome of the instructions retired so far. Its cycles are sixteen bits
wide. -/
def Progress.outcome (p : Progress) (reason : StopReason) (suppress : Bool) : JitStepOutcome where
  result :=
    { reason, suppressLoopObservation := suppress, instructionSize := p.lastSize,
      instructions := p.count, instructionAddress := p.lastPc, raw := p.lastRaw,
      cycles := p.totalCycles % 65536 }
  fetched := p.fetched
  memoryFree := p.memoryFree

/-! ## The kernel -/

/-- Cycles charged too much for branches that failed. -/
def microFailedAdjust (failed : BitVec 32) : Nat → List JitOp → Nat
  | _, [] => 0
  | i, op :: rest =>
    (if failed.getLsbD i then op.baseCycles - 1 else 0) + microFailedAdjust failed (i + 1) rest

/-- Runs the kernel of a block, if it has one and the kernel reports a count
that can be. -/
def runMicro (entry : JitBlockEntry) (limit : Nat) (m : Machine δ) :
    Option (Progress × Machine δ) :=
  match entry.micro with
  | none => none
  | some (function, prefixCount) =>
    let microLimit := min (min limit entry.ops.length) prefixCount
    if prefixCount = 0 || m.cpu.itState ≠ 0 || microLimit = 0 then none
    else
      let (answer, s) := function m.cpu microLimit
      let retired := (answer.setWidth 32).toNat
      let failed : BitVec 32 := (answer >>> 32).setWidth 32
      if retired ≠ 0 && retired ≤ microLimit then
        let ops := entry.ops.take retired
        match ops.getLast? with
        | none => none
        | some last =>
          let total := baseCyclesOf ops - microFailedAdjust failed 0 ops
          some
            ({ fetched := ops.map fun op => (op.pc, op.size)
               totalCycles := if s.pc ≠ last.nextPc then total + last.branchPenalty else total
               lastPc := last.pc, lastRaw := last.raw, lastSize := last.size
               lastSuppress := last.suppressObs },
              { m with cpu := { s with instructionAddress := last.pc } })
      else none

/-! ## Handlers alone -/

/-- Runs handlers one after the other without a look at what they answer. The
address of the instruction is not kept up to date. -/
def handlersAlone : List JitOp → CpuState → MemoryBus δ → CpuState × MemoryBus δ
  | [], s, b => (s, b)
  | op :: rest, s, b =>
    let h := executeJitFast op.decoded op.fast op.pc (s.setPc op.nextPc) b
    if op.isTerminator then (h.cpu, h.bus) else handlersAlone rest h.cpu h.bus

/-- A block of handlers, or its first `limit` instructions. -/
def runAllFast (entry : JitBlockEntry) (limit : Nat) (m : Machine δ) :
    Option (Progress × Machine δ) :=
  let ops := entry.ops.take limit
  match ops.getLast? with
  | none => none
  | some last =>
    let (s, b) := handlersAlone ops m.cpu m.bus
    let capped := decide (ops.length < entry.ops.length)
    let total := baseCyclesOf entry.ops - baseCyclesOf (entry.ops.drop limit)
    some
      ({ fetched := ops.map fun op => (op.pc, op.size)
         totalCycles := if !capped && s.pc ≠ last.nextPc then total + last.branchPenalty else total
         lastPc := last.pc, lastRaw := last.raw, lastSize := last.size
         lastSuppress := !capped && last.suppressObs },
        { m with cpu := { s with instructionAddress := last.pc }, bus := b })

/-! ## The checked loop -/

/-- How the loop ends: what was retired is committed, or an instruction that
did not complete is reported at once. -/
inductive LoopEnd
  | commit (p : Progress)
  | returned (out : JitStepOutcome)

def JitOp.cycles (op : JitOp) (s : CpuState) : Nat :=
  if op.divideForm then divideCycles (s.readRegister op.decoded.rm) else op.baseCycles

/-- Adds the refill of the pipeline if the PC left the sequence. -/
def JitOp.withPenalty (op : JitOp) (cycles : Nat) (s : CpuState) : Nat :=
  if s.pc ≠ op.nextPc then cycles + op.branchPenalty else cycles

/-- The diagnostic of an instruction of a block that did not complete. -/
def blockDiagnostic (op : JitOp) (done : Executed) (s : CpuState) (d : DiagnosticSnapshot) :
    DiagnosticSnapshot :=
  capture s { noted done.note d with
    instructionAddress := op.pc, raw := op.raw, instructionSize := op.size }

/-- What one cached instruction at the PC comes to. -/
inductive Retired (δ : Type)
  | next (p : Progress) (m : Machine δ)
  | stop (e : LoopEnd) (m : Machine δ)

/-- A cached instruction with a handler. A handler that declines ends the
block before it. -/
def retireFast (op : JitOp) (p : Progress) (m : Machine δ) : Retired δ :=
  let p := p.touch op
  let s := entered m.cpu op.size
  if op.decoded.condition ≠ .al && !conditionPasses op.decoded.condition s.xpsr then
    .next (p.retire op 1 false) { m with cpu := s }
  else
    let cycles := op.cycles s
    let h := executeJitFast op.decoded op.fast op.pc s m.bus
    if h.handled then
      let p := p.retire op (op.withPenalty cycles h.cpu) op.suppressObs
      let m := { m with cpu := h.cpu, bus := h.bus }
      if op.isTerminator then .stop (.commit p) m else .next p m
    else .stop (.commit p) { m with cpu := h.cpu.setPc op.pc, bus := h.bus }

variable (env : Environment δ)

/-- A cached instruction without a handler. The checkpoint for a trap is taken
when the PC has moved already. -/
def retireGeneric (trapping : Bool) (op : JitOp) (p : Progress) (m : Machine δ) : Retired δ :=
  let p := p.touch op
  let s := entered m.cpu op.size
  if conditionPasses op.decoded.condition s.xpsr then
    let (done, b) := executeOn env op.decoded s m.bus
    match done.reason with
    | .stepComplete =>
      let p := p.retire op (op.withPenalty (op.cycles s) done.cpu) op.suppressObs
      let m := { m with cpu := done.cpu, bus := b, lastDiagnostic := noted done.note m.lastDiagnostic }
      if op.isTerminator then .stop (.commit p) m else .next p m
    | .synchronizationRequired =>
      let t := if op.isMemory && trapping then s else done.cpu
      let m := ⟨t, b, blockDiagnostic op done t m.lastDiagnostic⟩
      if p.count = 0 then
        .stop (.returned
          { result :=
              { reason := .synchronizationRequired, instructionAddress := op.pc, raw := op.raw,
                instructionSize := op.size }
            fetched := []
            memoryFree := p.memoryFree }) m
      else .stop (.commit p) m
    | reason =>
      let p := p.retire op (op.cycles s) op.suppressObs
      .stop (.returned (p.outcome reason op.suppressObs))
        ⟨done.cpu, b, blockDiagnostic op done done.cpu m.lastDiagnostic⟩
  else .next (p.retire op 1 false) { m with cpu := s }

/-- Retires cached instructions one by one, as long as they are at the PC and
decoded from the code as it is. -/
def blockLoop (env : Environment δ) (generation : Nat) (checkGeneration trapping : Bool) :
    List JitOp → Progress → Machine δ → LoopEnd × Machine δ
  | [], p, m => (.commit p, m)
  | op :: rest, p, m =>
    if checkGeneration && m.bus.executionGeneration ≠ generation then (.commit p, m)
    else if m.cpu.pc ≠ op.pc then (.commit p, m)
    else
      match if op.fast ≠ .generic then retireFast op p m else retireGeneric env trapping op p m with
      | .next p m => blockLoop env generation checkGeneration trapping rest p m
      | .stop e m => (e, m)

/-! ## One block -/

def commitBlock (p : Progress) : Option JitStepOutcome :=
  if p.count = 0 then none else some (p.outcome .stepComplete p.lastSuppress)

def LoopEnd.outcome : LoopEnd → Option JitStepOutcome
  | .commit p => commitBlock p
  | .returned out => some out

/-- The checked loop over what is left of a block. -/
def finishBlock (entry : JitBlockEntry) (generation limit : Nat) (p : Progress) (m : Machine δ) :
    Option JitStepOutcome × Machine δ :=
  if inItBlock m.cpu.itState || m.cpu.pendingException.isSome || m.cpu.pendingExcReturn.isSome then
    (commitBlock p, m)
  else
    let (e, m) := blockLoop env generation entry.hasStore m.bus.mmioTrapping
      ((entry.ops.take limit).drop p.count) p m
    (e.outcome, m)

/-- Runs a block that is ready, for at most `limit` instructions. -/
def runBlock (entry : JitBlockEntry) (limit : Nat) (m : Machine δ) :
    Option JitStepOutcome × Machine δ :=
  let generation := m.bus.executionGeneration
  match runMicro entry limit m with
  | some (p, m) => finishBlock env entry generation limit p m
  | none =>
    if entry.allFast && !entry.hasMemory then
      match runAllFast entry limit m with
      | some (p, m) => (commitBlock p, m)
      | none => (none, m)
    else finishBlock env entry generation limit (.start entry.ops m.cpu.pc) m

def tryStepJitBlockImpl (compile : MicroBlock → Option MicroFunction) (prepared : Bool)
    (limit : Nat) (jit : JitCache) (m : Machine δ) : Option JitStepOutcome × JitCache × Machine δ :=
  if limit = 0 then (none, jit, m)
  else if prepared then
    let entry := jit.blocks (jitBlockIndex m.cpu.pc)
    if entry.state ≠ .ready || entry.pc ≠ m.cpu.pc
      || entry.generation ≠ m.bus.executionGeneration || blockForbidden m.cpu then (none, jit, m)
    else
      let (out, m) := runBlock env entry limit m
      (out, jit, m)
  else
    let (ready, jit) := prepareJitBlock compile false jit m
    if ready then
      let (out, m) := runBlock env (jit.blocks (jitBlockIndex m.cpu.pc)) limit m
      (out, jit, m)
    else (none, jit, m)

def tryStepPreparedJitBlock (compile : MicroBlock → Option MicroFunction) (limit : Nat)
    (jit : JitCache) (m : Machine δ) : Option JitStepOutcome × JitCache × Machine δ :=
  tryStepJitBlockImpl env compile true limit jit m

end Block

end Fil.Cpu
