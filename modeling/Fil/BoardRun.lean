-- The run loop of a board: stop checks, one instruction, its time, the
-- exceptions at its boundary, then the watchpoints. A run with watchpoints steps
-- one instruction at a time and keeps a log of the accesses on the bus.
import Fil.Exceptions

open Fil.Mem

namespace Fil.Sim

open Fil.Cpu

/-! ## Watchpoints -/

inductive WatchAccess
  | write
  | read
  | access
  deriving DecidableEq

structure Watchpoint where
  address : BitVec 32 := 0
  length : BitVec 32 := 1
  access : WatchAccess := .write
  deriving DecidableEq

structure WatchpointStop where
  address : BitVec 32
  write : Bool
  deriving DecidableEq

/-- Whether a logged access fires a watchpoint. The ends do not wrap. -/
def Watchpoint.fires (watchpoint : Watchpoint) (access : AccessWatchEntry) : Bool :=
  let accessEnd := access.address.toNat + access.width
  let watchEnd := watchpoint.address.toNat + watchpoint.length.toNat
  if watchpoint.length = 0 || watchEnd ≤ access.address.toNat
      || accessEnd ≤ watchpoint.address.toNat then false
  else if watchpoint.access = .write && !access.write then false
  else if watchpoint.access = .read && access.write then false
  else true

def watchpointHit (watchpoints : List Watchpoint) (accesses : List AccessWatchEntry) :
    Option WatchpointStop :=
  accesses.findSome? fun access =>
    watchpoints.findSome? fun watchpoint =>
      if watchpoint.fires access then some ⟨watchpoint.address, access.write⟩ else none

/-! ## Options and results -/

inductive BoardStopReason
  | targetReached
  | breakpoint
  | watchpoint
  | halted
  | instructionBudget
  | timeBudget
  | spinDetected
  | unimplementedInstruction
  | architecturalFault
  | resetRequested
  | synchronizationRequired
  | hostError
  deriving DecidableEq

structure BoardRunOptions where
  maxInstructions : Nat := 50000000
  durationNs : Nat := 1000000000
  stopAddress : Option (BitVec 32) := none
  breakpoints : List (BitVec 32) := []
  watchpoints : List Watchpoint := []
  traceInstructions : Bool := false
  detectSpin : Bool := false
  spinThreshold : Nat := 1000000
  enableJit : Bool := true

/-- The options that ask for one instruction at a time. -/
def BoardRunOptions.exactStops (options : BoardRunOptions) : Bool :=
  options.stopAddress.isSome || !options.breakpoints.isEmpty || !options.watchpoints.isEmpty
    || options.detectSpin

def BoardRunOptions.jitOk (options : BoardRunOptions) : Bool :=
  !options.traceInstructions && options.enableJit

/-! ## The board -/

/-- The core with its bus, the active exceptions, where the last fetch ended, and
everything else: clocks, events, loop observations. -/
structure Board (δ β : Type) where
  machine : Machine δ
  activeStack : List (BitVec 16) := []
  lastFetchEnd : Option (BitVec 32) := none
  rest : β

def Board.handling {δ β : Type} (board : Board δ β) : Handling δ :=
  ⟨board.machine.cpu, board.machine.bus, board.activeStack⟩

/-- The board with what the exception unit made of it. -/
def Board.resume {δ β : Type} (board : Board δ β) (h : Handling δ) : Board δ β :=
  { board with
    machine := { board.machine with cpu := h.cpu, bus := h.bus }
    activeStack := h.activeStack }

/-- What two buses of one run have in common: the address map, and whether
accesses are logged. -/
structure SameWatch {δ : Type} (b b' : MemoryBus δ) : Prop where
  map : b'.map = b.map
  enabled : b'.accessWatchLogEnabled = b.accessWatchLogEnabled

structure ProvenLoop where
  boundaryPc : BitVec 32
  instructionsPerIteration : Nat
  cyclesPerIteration : Nat

/-- What a board runs in. Events write to memory on no instruction's behalf, so
the passing of time logs nothing. -/
structure Surroundings (δ β : Type) where
  env : Environment δ
  sys : SystemControl δ
  now : β → Nat
  fetchStallCycles : (address : BitVec 32) → (sequential : Bool) → δ → Nat
  advanceTime : Nat → Board δ β → Board δ β
  /-- Runs of several instructions, for runs without exact stops. The number is
  the cycles that are still to be charged. -/
  stepBlock : Nat → Board δ β → FastStepResult × Nat × Board δ β
  observeLoopBoundary : FastStepResult → (instructions cycles : Nat) → Board δ β →
    Option ProvenLoop × Board δ β
  symbolText : BitVec 32 → String
  /-- What the span over the log reads after the boundary is settled. It points into
  the storage of the log: if the log was moved to grow, it reads freed storage. -/
  watchAccesses : (before after : MemoryBus δ) → List AccessWatchEntry
  advanceTime_log : ∀ cycles board, (advanceTime cycles board).machine.bus.accessWatchLog =
    board.machine.bus.accessWatchLog
  advanceTime_same : ∀ cycles board,
    SameWatch board.machine.bus (advanceTime cycles board).machine.bus
  stepBlock_retires : ∀ limit board, (stepBlock limit board).1.reason = .stepComplete →
    (stepBlock limit board).1.instructions ≠ 0
  stepBlock_same : ∀ limit board,
    SameWatch board.machine.bus (stepBlock limit board).2.2.machine.bus
  observe_same : ∀ result instructions cycles board, SameWatch board.machine.bus
    (observeLoopBoundary result instructions cycles board).2.machine.bus
  watchAccesses_kept : ∀ before after, after.accessWatchLog = before.accessWatchLog →
    watchAccesses before after = before.accessWatchLog

/-- An instruction of a run: the machine before it, the bus once it is retired and
its time has passed, and the bus once its boundary is settled. -/
structure Retirement (δ : Type) where
  start : Machine δ
  retired : MemoryBus δ
  settled : MemoryBus δ

/-- A run so far. `retirements` is kept for the reader of the run only. -/
structure RunState (δ β : Type) where
  board : Board δ β
  instructions : Nat := 0
  cycles : Nat := 0
  diagnostic : DiagnosticSnapshot := {}
  provenSpin : Option (BitVec 32 × Nat) := none
  retirements : List (Retirement δ) := []

structure BoardRunResult (δ β : Type) where
  reason : BoardStopReason
  watchpoint : Option WatchpointStop := none
  instructions : Nat
  cycles : Nat
  timeNs : Nat
  diagnostic : DiagnosticSnapshot
  message : String
  board : Board δ β
  retirements : List (Retirement δ)

section Run

variable {δ β : Type} (host : Surroundings δ β) (options : BoardRunOptions)

def hex32 (value : BitVec 32) : String := "0x" ++ hexDigits 8 value

/-! ## One instruction -/

def stepSingleWithFetchTiming (allowJit : Bool) (board : Board δ β) :
    FastStepResult × Board δ β :=
  let stepped := stepFastImpl host.env allowJit board.machine
  let result := stepped.1
  let after := { board with machine := stepped.2 }
  if result.instructions = 0 || result.instructionSize = 0 then (result, after)
  else
    let stall := host.fetchStallCycles result.instructionAddress
      (board.lastFetchEnd = some result.instructionAddress) stepped.2.bus.deviceState
    let fetchEnd := result.instructionAddress + BitVec.ofNat 32 result.instructionSize
    ({ result with cycles := (result.cycles + stall) % 2 ^ 16 },
      { after with lastFetchEnd := some fetchEnd })

/-- One turn of the core: the result, the cycles to charge and the board. -/
def stepOnce (st : RunState δ β) (board : Board δ β) : FastStepResult × Nat × Board δ β :=
  if options.exactStops then
    let stepped := stepSingleWithFetchTiming host options.jitOk board
    (stepped.1, stepped.1.cycles, stepped.2)
  else host.stepBlock (options.maxInstructions - st.instructions) board

def stopReasonOf : StopReason → BoardStopReason
  | .breakpoint => .breakpoint
  | .halted => .halted
  | .undefinedInstruction => .unimplementedInstruction
  | .busFault | .invalidState => .architecturalFault
  | .synchronizationRequired => .synchronizationRequired
  | .instructionBudget => .instructionBudget
  | .stepComplete => .hostError

def boundaryReasonOf : BoundaryReason → BoardStopReason
  | .architecturalFault => .architecturalFault
  | .resetRequested => .resetRequested

/-! ## The loop -/

/-- The end of a run that left the loop. -/
def finished (st : RunState δ β) (reason : BoardStopReason) (message : String)
    (hit : Option WatchpointStop := none) : BoardRunResult δ β where
  reason := if st.instructions = options.maxInstructions ∧ message = "" then .instructionBudget
    else reason
  watchpoint := hit
  instructions := st.instructions
  cycles := st.cycles
  timeNs := host.now st.board.rest
  diagnostic := capture st.board.machine.cpu st.diagnostic
  message := if st.instructions = options.maxInstructions ∧ message = "" then
    "instruction budget exhausted" else message
  board := st.board
  retirements := st.retirements

/-- The end of a run whose instruction did not complete. -/
def cpuFailure (st : RunState δ β) (reason : StopReason) : BoardRunResult δ β :=
  let diagnostic := st.board.machine.lastDiagnostic
  { reason := stopReasonOf reason
    instructions := st.instructions
    cycles := st.cycles
    timeNs := host.now st.board.rest
    diagnostic
    message := diagnostic.message ++ host.symbolText diagnostic.instructionAddress
    board := st.board
    retirements := st.retirements }

def stopBefore (deadline : Nat) (st : RunState δ β) : Option (BoardStopReason × String) :=
  let pc := st.board.machine.cpu.pc
  if options.stopAddress.map (· &&& ~~~1) = some pc then
    some (.targetReached, "target address reached at " ++ hex32 pc)
  else if pc ∈ options.breakpoints then
    some (.targetReached, "breakpoint address reached at " ++ hex32 pc)
  else if deadline ≠ 0 ∧ deadline ≤ host.now st.board.rest then
    some (.timeBudget, "simulated-time budget exhausted")
  else none

/-- The board as the next instruction finds it. -/
def clearLog (board : Board δ β) : Board δ β :=
  if options.watchpoints.isEmpty then board
  else { board with machine := { board.machine with
    bus := { board.machine.bus with accessWatchLog := [] } } }

/-- The instructions of a loop that was seen again, counted while it is the same
loop. -/
def provenSpin (st : RunState δ β) (loop : ProvenLoop) : Nat :=
  match st.provenSpin with
  | some (pc, instructions) =>
    if pc = loop.boundaryPc then instructions + loop.instructionsPerIteration
    else loop.instructionsPerIteration
  | none => loop.instructionsPerIteration

def spinMessage (loop : ProvenLoop) : String :=
  "exact-state loop at " ++ hex32 loop.boundaryPc ++ " period_instructions="
    ++ toString loop.instructionsPerIteration ++ " period_cycles="
    ++ toString loop.cyclesPerIteration

def watchMessage (hit : WatchpointStop) : String :=
  "watchpoint hit at " ++ hex32 hit.address ++ (if hit.write then " (write)" else " (read)")

/-- The look for a loop at the end of a turn. -/
def detectSpin (result : FastStepResult) (st : RunState δ β) :
    Except (BoardRunResult δ β) (RunState δ β) :=
  if !options.detectSpin then .ok st
  else
    match host.observeLoopBoundary result st.instructions st.cycles st.board with
    | (none, board) => .ok { st with board }
    | (some loop, board) =>
      let proven := provenSpin st loop
      let st := { st with board, provenSpin := some (loop.boundaryPc, proven) }
      if proven < options.spinThreshold then .ok st
      else .error (finished host options st .spinDetected (spinMessage loop))

/-- What is left of a turn once the instruction is retired and its time has
passed: its boundary, the watchpoints, then the look for a loop. -/
def concludeTurn (result : FastStepResult) (start : Machine δ) (st : RunState δ β) :
    Except (BoardRunResult δ β) (RunState δ β) :=
  let before := st.board.machine.bus
  let settled := settleInstructionBoundary host.sys st.board.handling
  let st := { st with board := st.board.resume settled.2 }
  match settled.1 with
  | some stop =>
    .error (finished host options st (boundaryReasonOf stop.reason) stop.message)
  | none =>
    let st := { st with retirements := st.retirements ++ [⟨start, before, settled.2.bus⟩] }
    match watchpointHit options.watchpoints (host.watchAccesses before settled.2.bus) with
    | some hit => .error (finished host options st .watchpoint (watchMessage hit) (some hit))
    | none => detectSpin host options result st

def turn (deadline : Nat) (st : RunState δ β) : Except (BoardRunResult δ β) (RunState δ β) :=
  match stopBefore host options deadline st with
  | some (reason, message) => .error (finished host options st reason message)
  | none =>
    let start := clearLog options st.board
    let stepped := stepOnce host options st start
    let result := stepped.1
    let st := { st with
      board := host.advanceTime stepped.2.1 stepped.2.2
      instructions := st.instructions + result.instructions
      cycles := st.cycles + result.cycles
      diagnostic := { st.diagnostic with
        instructionAddress := result.instructionAddress, raw := result.raw,
        instructionSize := result.instructionSize } }
    if result.reason ≠ .stepComplete then .error (cpuFailure host st result.reason)
    else concludeTurn host options result start.machine st

/-- The loop, for at most `fuel` turns. Every turn that goes on retires an
instruction, so a run never takes more turns than its budget. -/
def runLoop (deadline : Nat) : Nat → RunState δ β → BoardRunResult δ β
  | 0, st => finished host options st .instructionBudget ""
  | fuel + 1, st =>
    if st.instructions < options.maxInstructions then
      match turn host options deadline st with
      | .error result => result
      | .ok st => runLoop deadline fuel st
    else finished host options st .instructionBudget ""

/-- Logs the accesses of a run that has watchpoints. -/
def watched (board : Board δ β) : Board δ β :=
  { board with machine := { board.machine with
    bus := board.machine.bus.setAccessWatchLog (!options.watchpoints.isEmpty) } }

def deadlineOf (board : Board δ β) : Nat :=
  if options.durationNs = 0 then 0
  else min (host.now board.rest + options.durationNs) (2 ^ 64 - 1)

def run (board : Board δ β) : BoardRunResult δ β :=
  runLoop host options (deadlineOf host options board) options.maxInstructions
    { board := watched options board }

end Run

end Fil.Sim
