-- How a board steps several instructions at once. A block is run ahead of the
-- clock only if its price ends before the deadline, the next event and the next
-- tick, so nothing that happens at a time happens inside of it. What it charges
-- for fetching is worked out from the path it took.
import Fil.CycleClock
import Fil.EngineSteps
import Mathlib.Data.List.DropRight

open Fil.Mem List

namespace Fil.Sim

open Fil.Cpu
open BitVec (le_of_lt le_refl ofNat)

/-! ## Flash -/

/-- The flash interface: its access control register and where the banks are. -/
structure Flash where
  acr : BitVec 32 := 0
  flashBase : BitVec 32 := 0x08000000
  bankSize : BitVec 32 := 0x80000
  deriving DecidableEq

namespace Flash

def waitStates (f : Flash) : Nat := (f.acr &&& 7).toNat

def prefetchEnabled (f : Flash) : Bool := f.acr &&& 0x100 != 0

def instructionCacheEnabled (f : Flash) : Bool := f.acr &&& 0x200 != 0

/-- The banks and their boot alias. -/
def isFlashAddress (f : Flash) (address : BitVec 32) : Bool :=
  (f.flashBase ≤ address && address < f.flashBase + f.bankSize) || address < f.bankSize

def fetchStallCycles (f : Flash) (pc : BitVec 32) (sequential : Bool) : Nat :=
  if !f.isFlashAddress pc then 0
  else if f.waitStates = 0 then 0
  else if sequential && (f.prefetchEnabled || f.instructionCacheEnabled) then 0
  else f.waitStates

/-- Fetches one instruction after the other: the stalls, and where the last one ends. -/
def fetchAll (f : Flash) : Option (BitVec 32) → List (BitVec 32 × Nat) → Nat × Option (BitVec 32)
  | lastEnd, [] => (0, lastEnd)
  | lastEnd, (pc, size) :: rest =>
    let behind := f.fetchAll (some (pc + BitVec.ofNat 32 size)) rest
    (f.fetchStallCycles pc (lastEnd = some pc) + behind.1, behind.2)

variable (f : Flash) (lastEnd : Option (BitVec 32)) (places : List (BitVec 32 × Nat))

lemma fetchAll_cons (place : BitVec 32 × Nat) (rest : List (BitVec 32 × Nat)) :
    f.fetchAll lastEnd (place :: rest) =
      (f.fetchStallCycles place.1 (lastEnd = some place.1) +
          (f.fetchAll (some (place.1 + ofNat 32 place.2)) rest).1,
        (f.fetchAll (some (place.1 + ofNat 32 place.2)) rest).2) := rfl

lemma fetchStallCycles_le (pc : BitVec 32) (sequential : Bool) :
    f.fetchStallCycles pc sequential ≤ 7 := by
  have hwait : f.waitStates ≤ 7 := by
    exact Nat.and_le_right
  unfold fetchStallCycles
  split_ifs <;> omega

lemma fetchAll_waitless {f : Flash} (h : f.waitStates = 0) (lastEnd : Option (BitVec 32))
    (places : List (BitVec 32 × Nat)) : (f.fetchAll lastEnd places).1 = 0 := by
  induction places generalizing lastEnd with
  | nil => rfl
  | cons place rest ih =>
    have hstall : f.fetchStallCycles place.1 (lastEnd = some place.1) = 0 := by
      unfold fetchStallCycles
      split_ifs <;> rfl
    rw [fetchAll_cons, hstall, ih]

lemma fetchAll_le : (f.fetchAll lastEnd places).1 ≤ 7 * places.length := by
  induction places generalizing lastEnd with
  | nil => exact le_rfl
  | cons place rest ih =>
    have hstall := f.fetchStallCycles_le place.1 (lastEnd = some place.1)
    have hbehind := ih (some (place.1 + ofNat 32 place.2))
    rw [fetchAll_cons, length_cons]
    omega

lemma fetchAll_end :
    (f.fetchAll lastEnd places).2 =
      match places.getLast? with
      | none => lastEnd
      | some place => some (place.1 + ofNat 32 place.2) := by
  induction places generalizing lastEnd with
  | nil => rfl
  | cons place rest ih =>
    rw [fetchAll_cons, ih]
    cases rest with
    | nil => rfl
    | cons next rest =>
      rw [getLast?_cons_cons]
      cases h : (next :: rest).getLast? with
      | none => simp at h
      | some place => rfl

lemma fetchAll_take_le (count : Nat) :
    (f.fetchAll lastEnd (places.take count)).1 ≤ (f.fetchAll lastEnd places).1 := by
  induction places generalizing lastEnd count with
  | nil => simp
  | cons place rest ih =>
    cases count with
    | zero => exact Nat.zero_le _
    | succ count =>
      exact Nat.add_le_add_left (ih _ _) _

end Flash

/-! ## The tick -/

lemma no_tick_before {c : Cortexm.SystemControl} {bound cycles : Nat}
    (h : c.cyclesUntilSysTickInterrupt.any (· ≤ bound) = false) (hle : cycles ≤ bound) :
    (c.advanceCycles cycles).systickPending = false := by
  rw [← Bool.not_eq_true, c.advanceCycles_pending]
  rintro ⟨least, hleast, hover⟩
  rw [Option.mem_def.mp hleast] at h
  simp at h
  omega

/-! ## What a board looks at -/

/-- What a board is built with, and what it reads of its devices. The event loop
counts as one of them: an access can schedule. -/
structure Chip (δ : Type) where
  env : Environment δ
  compile : MicroBlock → Option MicroFunction
  system : δ → Cortexm.SystemControl
  flash : δ → Flash
  systemClockHz : δ → Nat
  /-- A watchdog or another peripheral asks for a reset. -/
  resetRequested : δ → Bool
  now : δ → BitVec 64
  nextScheduledTime : δ → Option (BitVec 64)

/-- What a board keeps of its own: the cache of blocks and the time it has not
charged yet. -/
structure Pace where
  jit : JitCache := {}
  timeFraction : BitVec 64 := 0

structure PredictedCost where
  cycles : Nat
  frequency : Nat
  fraction : BitVec 64
  deriving DecidableEq

structure PredictedBlockCost where
  cost : PredictedCost
  instructions : Nat
  deriving DecidableEq

namespace Chip

variable {δ : Type} (chip : Chip δ)

def clock (board : Board δ Pace) : BoardClock :=
  ⟨chip.system board.machine.bus.deviceState, board.rest.timeFraction.toNat⟩

/-- The nanoseconds that so many cycles would take. -/
def elapsedFor (cycles : Nat) (board : Board δ Pace) : Nat :=
  elapsedForCycles (chip.systemClockHz board.machine.bus.deviceState) cycles (chip.clock board)

def withJit (board : Board δ Pace) (jit : JitCache) : Board δ Pace :=
  { board with rest := { board.rest with jit } }

/-- A reset, an exception or the return from one comes before the next instruction. -/
def blockBoundaryPending (board : Board δ Pace) : Bool :=
  let s := board.machine.cpu
  let d := board.machine.bus.deviceState
  s.pendingExcReturn.isSome || s.pendingException.isSome
    || (chip.system d).resetRequested || chip.resetRequested d
    || ((chip.system d).hasEnabledPending
      && ((chip.system d).nextPending ⟨s.primask, s.basepri, s.faultmask⟩).isSome)

def horizon (deadline : Option (BitVec 64)) (d : δ) : Option (BitVec 64) :=
  match chip.nextScheduledTime d, deadline with
  | none, deadline => deadline
  | some event, none => some event
  | some event, some time => if event < time then some event else some time

/-- So many cycles do not end before the horizon. -/
def reachesHorizon (deadline : Option (BitVec 64)) (cycles : Nat) (board : Board δ Pace) : Bool :=
  let d := board.machine.bus.deviceState
  (chip.horizon deadline d).any fun time =>
    time ≤ chip.now d || (time - chip.now d).toNat ≤ chip.elapsedFor cycles board

/-- So many cycles do not end before the next tick. -/
def reachesTick (cycles : Nat) (board : Board δ Pace) : Bool :=
  (chip.system board.machine.bus.deviceState).cyclesUntilSysTickInterrupt.any (· ≤ cycles)

/-! ## Stepping -/

def stepSingleWithFetchTiming (allowJit : Bool) (board : Board δ Pace) :
    FastStepResult × Board δ Pace :=
  let stepped := stepFastImpl chip.env allowJit board.machine
  let result := stepped.1
  let after := { board with machine := stepped.2 }
  if result.instructions = 0 || result.instructionSize = 0 then (result, after)
  else
    let stall := (chip.flash stepped.2.bus.deviceState).fetchStallCycles result.instructionAddress
      (board.lastFetchEnd = some result.instructionAddress)
    let fetchEnd := result.instructionAddress + BitVec.ofNat 32 result.instructionSize
    ({ result with cycles := (result.cycles + stall) % 2 ^ 16 },
      { after with lastFetchEnd := some fetchEnd })

/-- The price of a preview with the stalls on its way. Without wait states there are
none. -/
def previewedCycles (preview : JitBlockPreview) (board : Board δ Pace) : Nat :=
  let flash := chip.flash board.machine.bus.deviceState
  preview.maxCycles +
    if flash.waitStates ≠ 0 then (flash.fetchAll board.lastFetchEnd preview.fetched).1 else 0

/-- How many instructions may run at once, and the board with the block prepared. -/
def batchLimit (allowJit : Bool) (deadline : Option (BitVec 64)) (maxInstructions : Nat)
    (prevalidated tired : Bool) (board : Board δ Pace) : Nat × Board δ Pace :=
  if allowJit && 1 < maxInstructions && !prevalidated && !chip.blockBoundaryPending board then
    let peeked := prepareAndPeekJitBlock chip.compile true tired maxInstructions board.rest.jit
      board.machine
    let board := withJit board peeked.2
    match peeked.1 with
    | none => (1, board)
    | some preview =>
      let cycles := chip.previewedCycles preview board
      if chip.reachesHorizon deadline cycles board || chip.reachesTick cycles board then (1, board)
      else (min maxInstructions preview.count, board)
  else (maxInstructions, board)

/-- What is left to do for a batch: its stalls and where its last fetch ended. -/
def fetchBatch (out : JitStepOutcome) (board : Board δ Pace) (machine : Machine δ)
    (jit : JitCache) : FastStepResult × Board δ Pace :=
  let flash := chip.flash machine.bus.deviceState
  let after := withJit { board with machine } jit
  if flash.waitStates = 0 then
    (out.result,
      { after with
        lastFetchEnd :=
          match out.fetched.getLast? with
          | none => board.lastFetchEnd
          | some place => some (place.1 + BitVec.ofNat 32 place.2) })
  else
    let fetched := flash.fetchAll board.lastFetchEnd out.fetched
    ({ out.result with cycles := (out.result.cycles + fetched.1) % 2 ^ 16 },
      { after with lastFetchEnd := fetched.2 })

/-- One turn of the core: a batch if one is allowed and there is a block for it, else
one instruction. `tired` is what the preview reads of earlier declines. -/
def stepBlockWithFetchTiming (allowJit : Bool) (deadline : Option (BitVec 64))
    (maxInstructions : Nat) (prevalidated tired : Bool) (board : Board δ Pace) :
    FastStepResult × Board δ Pace :=
  let limited := chip.batchLimit allowJit deadline maxInstructions prevalidated tired board
  let board := limited.2
  if allowJit && 1 < limited.1 && !chip.blockBoundaryPending board then
    match tryStepPreparedJitBlock chip.env chip.compile limited.1 board.rest.jit board.machine with
    | (some out, jit, machine) => chip.fetchBatch out board machine jit
    | (none, jit, machine) =>
      chip.stepSingleWithFetchTiming allowJit (withJit { board with machine } jit)
  else chip.stepSingleWithFetchTiming allowJit board

/-! ## Predicting -/

def peekPredictedCost (board : Board δ Pace) : Option PredictedCost :=
  let d := board.machine.bus.deviceState
  if chip.systemClockHz d = 0 then none
  else
    (peekPredictableCycles board.machine).map fun pipeline =>
      let pc := board.machine.cpu.pc
      ⟨pipeline + (chip.flash d).fetchStallCycles pc (board.lastFetchEnd = some pc),
        chip.systemClockHz d, board.rest.timeFraction⟩

/-- The price of the next instruction alone, if it ends before everything else. -/
def exactSingle (deadline : Option (BitVec 64)) (board : Board δ Pace) :
    List PredictedBlockCost :=
  match chip.peekPredictedCost board with
  | none => []
  | some predicted =>
    if chip.reachesTick predicted.cycles board
      || chip.reachesHorizon deadline predicted.cycles board then []
    else [⟨predicted, 1⟩]

/-- The prices of ever longer prefixes, up to the next tick. -/
def prefixCosts (board : Board δ Pace) :
    Option (BitVec 32) → (cycles instructions : Nat) → List ((BitVec 32 × Nat) × Nat) →
      List PredictedBlockCost
  | _, _, _, [] => []
  | lastEnd, cycles, instructions, ((pc, size), price) :: rest =>
    let d := board.machine.bus.deviceState
    let cycles := cycles + price + (chip.flash d).fetchStallCycles pc (lastEnd = some pc)
    if chip.reachesTick cycles board then []
    else
      ⟨⟨cycles, chip.systemClockHz d, board.rest.timeFraction⟩, instructions + 1⟩ ::
        prefixCosts board (some (pc + BitVec.ofNat 32 size)) cycles (instructions + 1) rest

/-- The prefixes of the next block that end before everything else, with their
prices, and the board with the block prepared. -/
def peekPredictedBlockCosts (maxInstructions : Nat) (deadline : Option (BitVec 64))
    (board : Board δ Pace) : List PredictedBlockCost × Board δ Pace :=
  let d := board.machine.bus.deviceState
  if maxInstructions = 0 || chip.blockBoundaryPending board then ([], board)
  else if (peekJitBlock maxInstructions board.rest.jit board.machine).any
      (·.exactCyclePrefixCount = 0) then (chip.exactSingle deadline board, board)
  else
    let peeked := prepareAndPeekJitBlock chip.compile false false maxInstructions board.rest.jit
      board.machine
    let board := withJit board peeked.2
    match peeked.1 with
    | none => (chip.exactSingle deadline board, board)
    | some preview =>
      if preview.exactCyclePrefixCount = 0 then (chip.exactSingle deadline board, board)
      else if chip.systemClockHz d = 0 then ([], board)
      else if (chip.horizon deadline d).any (· ≤ chip.now d) then ([], board)
      else
        let exact := (preview.fetched.zip preview.instructionCycles).take
          preview.exactCyclePrefixCount
        let costs := (chip.prefixCosts board board.lastFetchEnd 0 0 exact).rdropWhile
          fun leading => chip.reachesHorizon deadline leading.cost.cycles board
        if costs.isEmpty then (chip.exactSingle deadline board, board) else (costs, board)

/-! ## Single steps, one after the other -/

/-- So many single steps: the instructions they retire, the cycles they charge and
the board behind them. -/
def singleSteps (allowJit : Bool) : Nat → Board δ Pace → Nat × Nat × Board δ Pace
  | 0, board => (0, 0, board)
  | count + 1, board =>
    let stepped := chip.stepSingleWithFetchTiming allowJit board
    let behind := singleSteps allowJit count stepped.2
    (stepped.1.instructions + behind.1, stepped.1.cycles + behind.2.1, behind.2.2)

variable {chip} {board : Board δ Pace} {m : Machine δ}

lemma stepSingle_retired {raw : BitVec 32} {size : Nat} {d : DecodedInstruction}
    (halike : Machine.Alike board.machine m)
    (hf : fetchDecode m.cpu.pc m.bus = some (raw, size, d))
    (hone : (stepFast chip.env m).1.instructions = 1) (allowJit : Bool) :
    (chip.stepSingleWithFetchTiming allowJit board).1.instructions = 1 ∧
      (chip.stepSingleWithFetchTiming allowJit board).1.cycles =
        (stepFast chip.env m).1.cycles +
          (chip.flash (stepFast chip.env m).2.bus.deviceState).fetchStallCycles m.cpu.pc
            (board.lastFetchEnd = some m.cpu.pc) ∧
      (chip.stepSingleWithFetchTiming allowJit board).2.lastFetchEnd =
        some (m.cpu.pc + ofNat 32 size) ∧
      Machine.Alike (chip.stepSingleWithFetchTiming allowJit board).2.machine
        (stepFast chip.env m).2 := by
  have hat : StandsAt raw size d m := ⟨runs_of_retired hone, hf⟩
  obtain ⟨haddress, hsize⟩ := stepFast_names chip.env hat
  obtain ⟨hresult, hafter⟩ : SameStep (stepFastImpl chip.env allowJit board.machine)
      (stepFast chip.env m) := stepFastImpl_alike allowJit halike
  have hwide : size ≠ 0 := by
    rcases fetchDecode_decoded hf with ⟨rfl, -⟩ | ⟨rfl, -⟩ <;> decide
  have hsmall := stepFast_cycles_small chip.env hat
  have hstall := (chip.flash (stepFast chip.env m).2.bus.deviceState).fetchStallCycles_le m.cpu.pc
    (board.lastFetchEnd = some m.cpu.pc)
  unfold stepSingleWithFetchTiming
  dsimp only
  rw [hresult, hafter.bus.deviceState, haddress, hsize, hone, if_neg (by simpa using hwide)]
  exact ⟨rfl, Nat.mod_eq_of_lt (by omega), rfl, hafter⟩

lemma stepSingle_instructions (chip : Chip δ) (allowJit : Bool) (board : Board δ Pace) :
    (chip.stepSingleWithFetchTiming allowJit board).1.instructions ≤ 1 := by
  have hresult : (stepFastImpl chip.env allowJit board.machine).1 =
      (stepFast chip.env board.machine).1 := (stepFastImpl_alike allowJit (.refl _)).1
  have hone := stepFast_instructions chip.env board.machine
  unfold stepSingleWithFetchTiming
  dsimp only
  rw [hresult]
  split <;> exact hone

lemma singleSteps_through {ops : List JitOp} {last : Machine δ} {cycles : Nat}
    (h : SteppedThrough chip.env ops m cycles last) (halike : Machine.Alike board.machine m)
    (allowJit : Bool) :
    let fetched := (chip.flash m.bus.deviceState).fetchAll board.lastFetchEnd (ops.map JitOp.place)
    let stepped := chip.singleSteps allowJit ops.length board
    stepped.1 = ops.length ∧ stepped.2.1 = cycles + fetched.1 ∧
      stepped.2.2.lastFetchEnd = fetched.2 := by
  induction h generalizing board with
  | nil m => exact ⟨rfl, rfl, rfl⟩
  | @cons op rest m last cycles arrives fetched quiet retires next ih =>
    obtain ⟨hone, hcycles, hend, hafter⟩ := stepSingle_retired halike fetched retires allowJit
    obtain ⟨hcount, htotal, hlast⟩ := ih hafter
    rw [quiet] at htotal hlast hcycles
    rw [hend] at htotal hlast
    unfold singleSteps
    have hplace : op.place = (m.cpu.pc, op.size) := by
      rw [arrives]
      rfl
    rw [length_cons, map_cons, hplace, Flash.fetchAll_cons]
    refine ⟨?_, ?_, hlast⟩
    · dsimp only
      rw [hone, hcount, Nat.add_comm]
    · dsimp only
      omega

/-! ## Ending in time -/

/-- When so many cycles are over. -/
def completionTime (chip : Chip δ) (cycles : Nat) (board : Board δ Pace) : Nat :=
  let d := board.machine.bus.deviceState
  (chip.now d).toNat + (accountCycles (chip.systemClockHz d) cycles (chip.clock board)).1

variable {deadline : Option (BitVec 64)}

lemma horizon_le {d : δ} {time : BitVec 64}
    (h : deadline = some time ∨ chip.nextScheduledTime d = some time) :
    ∃ first, chip.horizon deadline d = some first ∧ first ≤ time := by
  unfold horizon
  cases hevent : chip.nextScheduledTime d with
  | none =>
    rw [hevent] at h
    obtain rfl : deadline = some time := h.resolve_right nofun
    exact ⟨time, rfl, le_refl _⟩
  | some event =>
    rw [hevent] at h
    cases deadline with
    | none =>
      obtain rfl : event = time := by simpa using h
      exact ⟨event, rfl, le_refl _⟩
    | some limit =>
      dsimp only
      split
      · rename_i hlt
        refine ⟨event, rfl, ?_⟩
        rcases h with h | h
        · cases h
          exact le_of_lt hlt
        · cases h
          exact le_refl _
      · rename_i hle
        refine ⟨limit, rfl, ?_⟩
        rcases h with h | h
        · cases h
          exact le_refl _
        · cases h
          exact BitVec.not_lt.mp hle

/-- A charge within a bound that ends before every limit ends before it as well. -/
lemma completes_before {bound cycles : Nat}
    (h : chip.reachesHorizon deadline bound board = false) (hle : cycles ≤ bound)
    {time : BitVec 64}
    (htime : deadline = some time ∨
      chip.nextScheduledTime board.machine.bus.deviceState = some time) :
    chip.completionTime cycles board < time.toNat := by
  obtain ⟨first, hfirst, hbefore⟩ := horizon_le htime
  unfold reachesHorizon at h
  dsimp only at h
  rw [hfirst, Option.any_some] at h
  simp at h
  obtain ⟨hahead, helapsed⟩ := h
  have hroom : (first - chip.now board.machine.bus.deviceState).toNat =
      first.toNat - (chip.now board.machine.bus.deviceState).toNat :=
    BitVec.toNat_sub_of_le (le_of_lt hahead)
  rw [BitVec.lt_def] at hahead
  rw [BitVec.le_def] at hbefore
  unfold completionTime
  dsimp only
  unfold elapsedFor at helapsed
  by_cases hf : chip.systemClockHz board.machine.bus.deviceState = 0
  · rw [hf]
    unfold accountCycles
    rw [if_pos rfl]
    omega
  unfold elapsedForCycles at helapsed
  split_ifs at helapsed with hwide
  · omega
  have hfits : bound * nanosecondsPerSecond + (chip.clock board).timeFraction < 2 ^ 64 := by
    unfold nanosecondsPerSecond at hwide ⊢
    unfold clock at hwide ⊢
    dsimp only at hwide ⊢
    omega
  have hle' : cycles * nanosecondsPerSecond ≤ bound * nanosecondsPerSecond :=
    Nat.mul_le_mul_right _ hle
  rw [accountCycles_of_fits hf (show Fits cycles (chip.clock board) by unfold Fits; omega)]
  rw [cycleTimeQuotient_eq] at helapsed
  have hquotient := Nat.div_le_div_right (c := chip.systemClockHz board.machine.bus.deviceState)
    (Nat.add_le_add_right hle' (chip.clock board).timeFraction)
  omega

/-! ## A batch -/

/-- The block at the PC, as a turn finds it. -/
def preparedBlock (chip : Chip δ) (board : Board δ Pace) : JitBlockEntry :=
  (prepareJitBlock chip.compile false board.rest.jit board.machine).2.blocks
    (jitBlockIndex board.machine.cpu.pc)

/-- The block engine equals single stepping in what it fetches and charges, whenever
this board could call it. -/
def EngineEqualsSteps (chip : Chip δ) (maxInstructions : Nat) (board : Board δ Pace) : Prop :=
  let jit := (prepareJitBlock chip.compile false board.rest.jit board.machine).2
  ∀ limit ≤ maxInstructions, ∀ out jit' after,
    tryStepPreparedJitBlock chip.env chip.compile limit jit board.machine =
      (some out, jit', after) →
    AgreesWithSteps chip.env (chip.preparedBlock board).ops board.machine out

/-- A batch stops short of every boundary: it is over before the deadline and the next
event, and no tick comes in between. No device was reached, so the next event is still
the one it was. -/
structure StopsShort (chip : Chip δ) (deadline : Option (BitVec 64)) (board after : Board δ Pace)
    (result : FastStepResult) : Prop where
  before : ∀ time, deadline = some time ∨
      chip.nextScheduledTime board.machine.bus.deviceState = some time →
    chip.completionTime result.cycles board < time.toNat
  untouched : after.machine.bus.deviceState = board.machine.bus.deviceState
  silent : ∀ cycles ≤ result.cycles,
    ((chip.system board.machine.bus.deviceState).advanceCycles cycles).systickPending = false

/-- As many single steps charge the same and leave the same fetch behind. -/
def CostsItsSteps (chip : Chip δ) (board after : Board δ Pace) (result : FastStepResult) : Prop :=
  ∀ allowJit,
    let stepped := chip.singleSteps allowJit result.instructions board
    stepped.1 = result.instructions ∧ stepped.2.1 = result.cycles ∧
      stepped.2.2.lastFetchEnd = after.lastFetchEnd

lemma fetchBatch_eq {out : JitStepOutcome} {after : Machine δ} (h : out.result.cycles < 2 ^ 16)
    (jit : JitCache) :
    let fetched := (chip.flash after.bus.deviceState).fetchAll board.lastFetchEnd out.fetched
    chip.fetchBatch out board after jit =
      ({ out.result with cycles := (out.result.cycles + fetched.1) % 2 ^ 16 },
        { withJit { board with machine := after } jit with lastFetchEnd := fetched.2 }) := by
  unfold fetchBatch
  dsimp only
  split
  · rename_i hwait
    rw [Flash.fetchAll_waitless hwait, Flash.fetchAll_end, Nat.add_zero, Nat.mod_eq_of_lt h]
  · rfl

lemma previewedCycles_eq (preview : JitBlockPreview) :
    chip.previewedCycles preview board =
      preview.maxCycles + ((chip.flash board.machine.bus.deviceState).fetchAll
        board.lastFetchEnd preview.fetched).1 := by
  unfold previewedCycles
  dsimp only
  split
  · rfl
  · rename_i hwait
    rw [Flash.fetchAll_waitless (not_not.mp hwait)]

/-- A batch is only let through with a price that ends in time. -/
lemma batchLimit_some {maxInstructions : Nat} {tired : Bool}
    (hmany : 1 < (chip.batchLimit true deadline maxInstructions false tired board).1)
    (hclear : chip.blockBoundaryPending
      (chip.batchLimit true deadline maxInstructions false tired board).2 = false) :
    let peeked := prepareAndPeekJitBlock chip.compile true tired maxInstructions board.rest.jit
      board.machine
    ∃ preview, peeked.1 = some preview ∧
      chip.batchLimit true deadline maxInstructions false tired board =
        (min maxInstructions preview.count, withJit board peeked.2) ∧
      chip.reachesHorizon deadline (chip.previewedCycles preview board) board = false ∧
      chip.reachesTick (chip.previewedCycles preview board) board = false := by
  unfold batchLimit at hmany hclear ⊢
  split at hmany
  · rename_i hallowed
    rw [if_pos hallowed]
    dsimp only at hmany ⊢
    cases hpeek : (prepareAndPeekJitBlock chip.compile true tired maxInstructions board.rest.jit
        board.machine).1 with
    | none =>
      rw [hpeek] at hmany
      cases hmany.ne rfl
    | some preview =>
      rw [hpeek] at hmany
      dsimp only at hmany ⊢
      split at hmany
      · cases hmany.ne rfl
      rename_i hintime
      refine ⟨preview, rfl, if_neg hintime, ?_⟩
      rw [Bool.or_eq_true, not_or, Bool.not_eq_true, Bool.not_eq_true] at hintime
      exact hintime
  · rename_i hrefused
    rw [if_neg hrefused] at hclear
    rw [hclear] at hrefused
    simp only [Bool.true_and, Bool.not_false, Bool.and_true, decide_eq_true_eq] at hrefused
    exact absurd hmany hrefused

lemma sum_take_le (prices : List Nat) (count : Nat) : (prices.take count).sum ≤ prices.sum := by
  conv_rhs => rw [← take_append_drop count prices, sum_append]
  exact Nat.le_add_right _ _

/-- What is known of a batch when the engine returns: it tells leading instructions of
its block, at their price or less, and reached no device. -/
structure Returned (board : Board δ Pace) (ops : List JitOp) (count : Nat) (out : JitStepOutcome)
    (after : Machine δ) : Prop where
  made : ∀ op ∈ ops, op.Made
  length : ops.length ≤ 16
  fetched : out.fetched = (ops.take out.result.instructions).map JitOp.place
  retired : out.result.instructions ≤ count
  shown : count ≤ ops.length
  charged : out.result.cycles ≤ ((ops.take out.result.instructions).map JitOp.previewCycles).sum
  devices : after.bus.deviceState = board.machine.bus.deviceState

section

variable {ops : List JitOp} {out : JitStepOutcome} {after : Machine δ} {count : Nat}
  (h : Returned board ops count out after) (jit jit' : JitCache)
include h

lemma Returned.number : (ops.take out.result.instructions).length = out.result.instructions := by
  have hretired := h.retired
  have hshown := h.shown
  rw [length_take]
  omega

/-- The charge is far below sixteen bits. -/
lemma Returned.small : out.result.cycles ≤ 19 * 16 := by
  have hmade : ∀ op ∈ ops.take out.result.instructions, op.Made :=
    fun op hop => h.made op (mem_of_mem_take hop)
  have hprices := JitOp.prices_le hmade
  have hcharged := h.charged
  have hlength := h.length
  rw [length_take] at hprices
  omega

lemma Returned.fetchBatch (chip : Chip δ) :
    let fetched := (chip.flash board.machine.bus.deviceState).fetchAll board.lastFetchEnd
      ((ops.take out.result.instructions).map JitOp.place)
    (chip.fetchBatch out (withJit board jit) after jit').1.instructions = out.result.instructions ∧
      (chip.fetchBatch out (withJit board jit) after jit').1.cycles =
        out.result.cycles + fetched.1 ∧
      (chip.fetchBatch out (withJit board jit) after jit').2.lastFetchEnd = fetched.2 ∧
      (chip.fetchBatch out (withJit board jit) after jit').2.machine = after := by
  have hsmall := h.small
  have hstalls := (chip.flash board.machine.bus.deviceState).fetchAll_le board.lastFetchEnd
    ((ops.take out.result.instructions).map JitOp.place)
  rw [length_map, length_take] at hstalls
  have hlength := h.length
  rw [fetchBatch_eq (by omega), h.devices, h.fetched]
  dsimp only [withJit]
  exact ⟨rfl, Nat.mod_eq_of_lt (by omega), rfl, rfl⟩

lemma Returned.stopsShort
    (hhorizon : chip.reachesHorizon deadline
      (chip.previewedCycles (previewOf ops count) board) board = false)
    (htick : chip.reachesTick (chip.previewedCycles (previewOf ops count) board) board = false) :
    StopsShort chip deadline board (chip.fetchBatch out (withJit board jit) after jit').2
      (chip.fetchBatch out (withJit board jit) after jit').1 := by
  obtain ⟨-, hcycles, -, hmachine⟩ := h.fetchBatch jit jit' chip
  have hleading : ops.take out.result.instructions =
      (ops.take count).take out.result.instructions := by
    rw [take_take, Nat.min_eq_left h.retired]
  have hprice : (chip.fetchBatch out (withJit board jit) after jit').1.cycles ≤
      chip.previewedCycles (previewOf ops count) board := by
    rw [hcycles, previewedCycles_eq]
    refine Nat.add_le_add (h.charged.trans ?_) ?_
    · rw [hleading, map_take]
      exact sum_take_le _ _
    · rw [hleading, map_take]
      exact Flash.fetchAll_take_le _ _ _ _
  constructor
  · exact fun time htime => completes_before hhorizon hprice htime
  · rw [hmachine, h.devices]
  · exact fun charged hle => no_tick_before htick (hle.trans hprice)

lemma Returned.costsItsSteps (hagrees : AgreesWithSteps chip.env ops board.machine out) :
    CostsItsSteps chip board (chip.fetchBatch out (withJit board jit) after jit').2
      (chip.fetchBatch out (withJit board jit) after jit').1 := by
  obtain ⟨hcount, hcycles, hend, -⟩ := h.fetchBatch jit jit' chip
  obtain ⟨cycles, last, hsteps, hcharged⟩ := hagrees
  have hsmall := hsteps.small
  have hlength := h.length
  rw [length_take] at hsmall
  have hunwrapped : out.result.cycles = cycles := by omega
  intro allowJit
  obtain ⟨hretires, htotal, hlast⟩ :=
    singleSteps_through hsteps (Machine.Alike.refl board.machine) allowJit
  rw [h.number] at hretires htotal hlast
  rw [hcount, hcycles, hend, hunwrapped]
  exact ⟨hretires, htotal, hlast⟩

end

/-- **A batch ends before every boundary**, and where the engine equals single steps it
charges what they charge. -/
lemma stepBlock_batched {maxInstructions : Nat}
    {allowJit tired : Bool} (hcache : board.rest.jit.Coherent board.machine.bus)
    (hkernel : (chip.preparedBlock board).KernelGoes board.machine.cpu)
    (hmany : 1 < (chip.stepBlockWithFetchTiming allowJit deadline maxInstructions false tired
      board).1.instructions) :
    let stepped := chip.stepBlockWithFetchTiming allowJit deadline maxInstructions false tired board
    StopsShort chip deadline board stepped.2 stepped.1 ∧
      (EngineEqualsSteps chip maxInstructions board →
        CostsItsSteps chip board stepped.2 stepped.1) := by
  have hsingle := fun board => stepSingle_instructions chip allowJit board
  unfold stepBlockWithFetchTiming at hmany ⊢
  dsimp only at hmany ⊢
  split at hmany
  case isFalse => exact absurd hmany (Nat.not_lt.mpr (hsingle _))
  case isTrue hgo =>
    rw [if_pos hgo]
    simp at hgo
    obtain ⟨⟨rfl, hlimit⟩, hclear⟩ := hgo
    obtain ⟨preview, hpeek, heq, hhorizon, htick⟩ := batchLimit_some hlimit hclear
    obtain ⟨hcached, -, ⟨hready, hpc, hgeneration⟩, count, hcount, hextended, hpreview⟩ :=
      prepareAndPeek_some hpeek
    have hprepared := hcache.prepareJitBlock chip.compile false
    have hops := hprepared.ops hready hpc hgeneration
    have hchain : Chained board.machine.bus (chip.preparedBlock board).pc
        (chip.preparedBlock board).ops := by
      unfold preparedBlock
      rw [hops, hpc]
      exact blockOps_chained _ _ _
    have hshown : preview.count = count := by
      rw [hpreview]
      unfold JitBlockPreview.count previewOf
      rw [length_map, length_take]
      omega
    rw [hpreview] at hhorizon htick
    rw [heq, hcached] at hmany ⊢
    dsimp only [withJit] at hmany ⊢
    rcases hrun : tryStepPreparedJitBlock chip.env chip.compile (min maxInstructions preview.count)
      (prepareJitBlock chip.compile false board.rest.jit board.machine).2 board.machine with
      ⟨_ | out, jit', after⟩
    · rw [hrun] at hmany
      exact absurd hmany (Nat.not_lt.mpr (hsingle _))
    · have hblock := tryStepPrepared_some hrun
      obtain ⟨hfetched, hretired, hcharged⟩ :=
        runBlock_tells hchain hkernel (congrArg Prod.fst hblock)
      have hdevices : after.bus.deviceState = board.machine.bus.deviceState :=
        congrArg (fun x => x.2.bus.deviceState) hblock ▸
          runBlock_devices hchain.made ((Nat.min_le_right _ _).trans (hshown ▸ hextended))
      have hlength : (chip.preparedBlock board).ops.length ≤ 16 := by
        unfold preparedBlock
        rw [hops]
        exact blockOps_length _ _ _
      have hreturned : Returned board (chip.preparedBlock board).ops count out after :=
        ⟨hchain.made, hlength, hfetched, by omega, hcount, hcharged, hdevices⟩
      exact ⟨hreturned.stopsShort _ jit' hhorizon htick, fun hengine =>
        hreturned.costsItsSteps _ jit' (hengine _ (Nat.min_le_left _ _) out jit' after hrun)⟩

/-! ## The cache stays good -/

section

variable (chip : Chip δ) (allowJit : Bool)

lemma stepSingle_coherent (h : board.rest.jit.Coherent board.machine.bus) :
    let after := (chip.stepSingleWithFetchTiming allowJit board).2
    after.rest.jit.Coherent after.machine.bus := by
  have hkept := h.kept (stepFastImpl_codeKept chip.env allowJit board.machine)
  unfold stepSingleWithFetchTiming
  dsimp only
  split <;> exact hkept

section

variable (deadline : Option (BitVec 64)) (maxInstructions : Nat) (prevalidated tired : Bool)
  (h : board.rest.jit.Coherent board.machine.bus)
include h

lemma batchLimit_coherent :
    let after := (chip.batchLimit allowJit deadline maxInstructions prevalidated tired board).2
    after.machine = board.machine ∧ after.rest.jit.Coherent after.machine.bus := by
  have hpeeked : (prepareAndPeekJitBlock chip.compile true tired maxInstructions board.rest.jit
      board.machine).2.Coherent board.machine.bus := by
    unfold prepareAndPeekJitBlock
    have hprepared := h.prepareJitBlock chip.compile false
    dsimp only
    split_ifs <;> first | exact h | exact hprepared
  unfold batchLimit
  dsimp only
  split
  · split
    · exact ⟨rfl, hpeeked⟩
    · split <;> exact ⟨rfl, hpeeked⟩
  · exact ⟨rfl, h⟩

/-- Every turn of the core leaves a good cache. -/
lemma stepBlock_coherent :
    let after := (chip.stepBlockWithFetchTiming allowJit deadline maxInstructions prevalidated tired
      board).2
    after.rest.jit.Coherent after.machine.bus := by
  obtain ⟨-, hlimited⟩ :=
    batchLimit_coherent chip allowJit deadline maxInstructions prevalidated tired h
  unfold stepBlockWithFetchTiming
  dsimp only
  generalize chip.batchLimit allowJit deadline maxInstructions prevalidated tired board = limited
    at *
  split
  · obtain ⟨hsame, hkept⟩ := tryStepPrepared_codeKept chip.env chip.compile limited.1
      limited.2.rest.jit limited.2.machine
    rcases hrun : tryStepPreparedJitBlock chip.env chip.compile limited.1 limited.2.rest.jit
      limited.2.machine with ⟨_ | out, jit, machine⟩
    · rw [hrun] at hsame hkept
      subst hsame
      have hgood : (withJit { limited.2 with machine } limited.2.rest.jit).rest.jit.Coherent
          (withJit { limited.2 with machine } limited.2.rest.jit).machine.bus := hlimited.kept hkept
      exact stepSingle_coherent chip allowJit hgood
    · rw [hrun] at hsame hkept
      subst hsame
      unfold fetchBatch
      dsimp only
      split <;> exact hlimited.kept hkept
  · exact stepSingle_coherent chip allowJit hlimited

end

/-- What happens to a board: a turn of the core, or an access that somebody else makes
in between, a DMA channel or a debugger. -/
inductive BoardMove
  | turn (allowJit : Bool) (deadline : Option (BitVec 64)) (maxInstructions : Nat)
      (prevalidated tired : Bool)
  | access (request : Request)

def move (board : Board δ Pace) : BoardMove → Board δ Pace
  | .turn allowJit deadline maxInstructions prevalidated tired =>
    (chip.stepBlockWithFetchTiming allowJit deadline maxInstructions prevalidated tired board).2
  | .access request =>
    { board with machine.bus := (request.perform board.machine.bus).2 }

/-- **No cached block is stale.** In whatever order the core and others take their turns,
a block that is ready for the code as it stands is what this code decodes to. -/
theorem no_cached_block_is_stale (board : Board δ Pace) (moves : List BoardMove) :
    let after := moves.foldl chip.move (withJit board {})
    after.rest.jit.Coherent after.machine.bus := by
  have hempty : (withJit board {}).rest.jit.Coherent board.machine.bus := emptyCache_coherent _
  refine foldlRecOn (motive := fun b : Board δ Pace => b.rest.jit.Coherent b.machine.bus) moves _
    hempty fun board h move _ => ?_
  cases move with
  | turn allowJit deadline maxInstructions prevalidated tired =>
    exact stepBlock_coherent chip allowJit deadline maxInstructions prevalidated tired h
  | access request => exact h.kept (perform_codeKept request _)

end

end Chip

end Fil.Sim
