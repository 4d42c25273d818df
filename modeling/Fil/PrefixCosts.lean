-- The prices that a board reports ahead of time. A prefix of a prepared block is
-- priced by the tables of the block, and one instruction alone by the prediction
-- of the core. The tables are right. The prediction is wrong where the core
-- misjudges a branch, and where the instruction itself changes how flash is read.
import Fil.BatchedSteps

open Dialogue Fil.Mem List

namespace Fil.Sim

open Fil.Cpu
open JitOp (place previewCycles)

namespace Chip

variable {δ : Type} {chip : Chip δ} {board : Board δ Pace}

/-! ## Prefixes of a block -/

lemma prefixCosts_mem {lastEnd : Option (BitVec 32)} {cycles instructions : Nat}
    {exact : List JitOp} {reported : PredictedBlockCost}
    (h : reported ∈ chip.prefixCosts board lastEnd cycles instructions
      (exact.map fun op => (op.place, op.previewCycles))) :
    ∃ count ≤ exact.length, reported.instructions = instructions + count ∧
      reported.cost.cycles = cycles + ((exact.take count).map previewCycles).sum +
        ((chip.flash board.machine.bus.deviceState).fetchAll lastEnd
          ((exact.take count).map place)).1 := by
  induction exact generalizing lastEnd cycles instructions with
  | nil => exact absurd h not_mem_nil
  | cons op rest ih =>
    rw [map_cons] at h
    unfold prefixCosts at h
    dsimp only [place] at h
    split at h
    · exact absurd h not_mem_nil
    rcases mem_cons.mp h with rfl | h
    · refine ⟨1, by simp, rfl, ?_⟩
      rfl
    obtain ⟨count, hcount, hinstructions, hcycles⟩ := ih h
    refine ⟨count + 1, by simpa using hcount, by omega, ?_⟩
    rw [hcycles, take_succ_cons, map_cons, map_cons, sum_cons,
      Flash.fetchAll_cons]
    dsimp only [place]
    omega

lemma preview_exact (ops : List JitOp) (count : Nat) :
    ((previewOf ops count).fetched.zip (previewOf ops count).instructionCycles).take
        (previewOf ops count).exactCyclePrefixCount =
      (ops.take (previewOf ops count).exactCyclePrefixCount).map
        fun op => (op.place, op.previewCycles) := by
  unfold previewOf
  dsimp only
  rw [zip_map', ← map_take, take_take]
  congr 2
  omega

lemma mem_exactPrefix {ops : List JitOp} {count : Nat} {op : JitOp}
    (h : op ∈ ops.take count) (hcount : count ≤ previewExactPrefix ops) :
    op.previewExact = true := by
  unfold previewExactPrefix at hcount
  have htaken : ops.take count = (ops.takeWhile JitOp.previewExact).take count := by
    have hfront := takeWhile_prefix (l := ops) JitOp.previewExact
    conv_rhs => rw [List.prefix_iff_eq_take.mp hfront, take_take, Nat.min_eq_left hcount]
  rw [htaken] at h
  exact mem_takeWhile_imp (mem_of_mem_take h)

lemma singleSteps_exact {count : Nat} (hruns : Runs board.machine.cpu)
    (hcount : count ≤ previewExactPrefix (blockOps board.machine.bus maxBlock board.machine.cpu.pc))
    (allowJit : Bool) :
    let ops := (blockOps board.machine.bus maxBlock board.machine.cpu.pc).take count
    (chip.singleSteps allowJit ops.length board).2.1 =
      (ops.map previewCycles).sum +
        ((chip.flash board.machine.bus.deviceState).fetchAll board.lastFetchEnd
          (ops.map place)).1 := by
  have hchain := (blockOps_chained board.machine.bus maxBlock board.machine.cpu.pc).take count
  obtain ⟨last, hsteps⟩ := SteppedThrough.of_exact chip.env hchain
    (fun op hop => mem_exactPrefix hop hcount) hruns rfl rfl
  exact (singleSteps_through hsteps (.refl board.machine) allowJit).2.1

/-! ## One instruction alone -/

/-- The stall of fetching the next instruction, from how flash is read in a state of
the devices. -/
def nextStall (chip : Chip δ) (board : Board δ Pace) (d : δ) : Nat :=
  (chip.flash d).fetchStallCycles board.machine.cpu.pc
    (board.lastFetchEnd = some board.machine.cpu.pc)

/-- The data accesses of an instruction, told from the core before it: the push of a
frame that waits for it, and its own. -/
def dataAccesses (size : Nat) (d : DecodedInstruction) (s : CpuState) : List Request :=
  let s := entered s size
  (if flushes d s then flushTransfers s else []) ++ transfers d s

/-- The devices behind the data accesses of an instruction, which stop at the first one
that is refused. -/
def devicesBehind (size : Nat) (d : DecodedInstruction) (m : Machine δ) : δ :=
  (Prog.inquire Served Request.perform (dataAccesses size d m.cpu) m.bus).2.deviceState

/-- The next instruction, if it executes, is not misjudged by the core, and flash is
read behind its accesses with the stall that its own fetch had before them. -/
def WellPriced (chip : Chip δ) (board : Board δ Pace) : Prop :=
  ∀ size d, NextExecutes board.machine size d →
    ¬Misjudged size d board.machine ∧
      chip.nextStall board (devicesBehind size d board.machine) =
        chip.nextStall board board.machine.bus.deviceState

variable {raw : BitVec 32} {size : Nat} {d : DecodedInstruction}

section

variable (env : Environment δ) {m : Machine δ}

lemma stepFast_devices (hat : StandsAt raw size d m) (hpass : passes d m.cpu = true) :
    (stepFast env m).2.bus.deviceState = devicesBehind size d m := by
  have hadjusted : ∀ wasInIt, dataAccesses size (itAdjusted wasInIt d) m.cpu =
      dataAccesses size d m.cpu := by
    intro wasInIt
    unfold itAdjusted
    split <;> rfl
  have hasks : AsksFor (execute env.fp (env.aspen m.bus.deviceState)
      (itAdjusted (inItBlock m.cpu.itState) d) (entered m.cpu size))
      (dataAccesses size (itAdjusted (inItBlock m.cpu.itState) d) m.cpu) := execute_asks _ _
  rw [hadjusted] at hasks
  rw [stepFast_of_fetchDecode hat, retireChecked_eq, conclude_bus]
  unfold reference
  rw [body_reference, if_pos hpass]
  exact congrArg MemoryBus.deviceState (hasks.run_eq Request.perform m.bus).1

/-- What the core misjudges has no data accesses. -/
lemma devicesBehind_misjudged (h : Misjudged size d m) : devicesBehind size d m = m.bus.deviceState := by
  have hnone : dataAccesses size d m.cpu = [] := by
    unfold Misjudged at h
    unfold dataAccesses flushes transfers isFpRegisterAccess
    cases hk : d.kind <;> rw [hk] at h <;> first | rfl | exact absurd h id
  unfold devicesBehind
  rw [hnone]
  rfl

lemma stepFast_bus_of_skipped (hat : StandsAt raw size d m) (hskip : passes d m.cpu = false) :
    (stepFast env m).2.bus = m.bus := by
  rw [stepFast_of_fetchDecode hat, retireChecked_eq, conclude_bus]
  unfold reference
  rw [body_reference, if_neg (Bool.eq_false_iff.mp hskip)]

end

/-- The predicted price of one instruction is what its single step charges, exactly if
it is well priced. -/
lemma single_cost_iff {cost : PredictedCost} (hcost : chip.peekPredictedCost board = some cost)
    (hone : (stepFast chip.env board.machine).1.instructions = 1) (allowJit : Bool) :
    (chip.singleSteps allowJit 1 board).2.1 = cost.cycles ↔ WellPriced chip board := by
  obtain ⟨pipeline, hpeek, rfl⟩ : ∃ pipeline, peekPredictableCycles board.machine = some pipeline ∧
      cost = ⟨pipeline + chip.nextStall board board.machine.bus.deviceState,
        chip.systemClockHz board.machine.bus.deviceState, board.rest.timeFraction⟩ := by
    unfold peekPredictedCost at hcost
    obtain ⟨-, hcost⟩ := some_of_guard hcost
    obtain ⟨pipeline, hpeek, heq⟩ := Option.map_eq_some_iff.mp hcost
    exact ⟨pipeline, hpeek, heq.symm⟩
  obtain ⟨raw, size, d, hat⟩ := runs_of_peek hpeek
  have hf := hat.fetched
  obtain ⟨-, hcycles, -, -⟩ := stepSingle_retired (.refl board.machine) hf hone allowJit
  have hcharged : (chip.singleSteps allowJit 1 board).2.1 =
      (stepFast chip.env board.machine).1.cycles +
        chip.nextStall board (stepFast chip.env board.machine).2.bus.deviceState := hcycles
  have hnext : ∀ size' d', NextExecutes board.machine size' d' →
      size' = size ∧ d' = d ∧ passes d board.machine.cpu = true := by
    rintro size' d' ⟨-, ⟨raw', hf'⟩, hpass⟩
    rw [hf] at hf'
    cases hf'
    exact ⟨rfl, rfl, hpass⟩
  rw [hcharged]
  rw [peekPredictableCycles_eq hat] at hpeek
  obtain ⟨hload, hpeek⟩ := some_of_guard hpeek
  cases hpass : passes d board.machine.cpu with
  | false =>
    rw [hpass] at hpeek
    have hpipeline : 1 = pipeline := Option.some.inj hpeek
    rw [(stepFast_cycles hat hone).1 hpass, hpipeline, stepFast_bus_of_skipped _ hat hpass]
    refine ⟨fun _ size' d' hexecutes => ?_, fun _ => rfl⟩
    rw [(hnext size' d' hexecutes).2.2] at hpass
    cases hpass
  | true =>
    rw [hpass] at hpeek
    replace hpeek : predictedCycles false d size board.machine.cpu = some pipeline := hpeek
    have hload' := Bool.eq_false_of_not_eq_true hload
    have hright := predicted_iff hat hpass hone hpeek hload'
    have hpriced : WellPriced chip board ↔ ¬Misjudged size d board.machine ∧
        chip.nextStall board (devicesBehind size d board.machine) =
          chip.nextStall board board.machine.bus.deviceState := by
      refine ⟨fun h => h size d ⟨hat.runs, ⟨raw, hf⟩, hpass⟩, fun h size' d' hexecutes => ?_⟩
      obtain ⟨rfl, rfl, -⟩ := hnext size' d' hexecutes
      exact h
    rw [hpriced, stepFast_devices _ hat hpass]
    by_cases hmis : Misjudged size d board.machine
    · rw [devicesBehind_misjudged hmis]
      exact ⟨fun heq => absurd hmis (hright.mp (Nat.add_right_cancel heq)),
        fun h => absurd hmis h.1⟩
    · rw [hright.mpr hmis]
      exact ⟨fun heq => ⟨hmis, Nat.add_left_cancel heq⟩, fun h => by rw [h.2]⟩

/-! ## The law of the reported prices -/

/-- Every reported prefix carries the cycles that as many single steps charge, if they
retire it. -/
def PrefixesCostTheirSteps (chip : Chip δ) (maxInstructions : Nat)
    (deadline : Option (BitVec 64)) (board : Board δ Pace) : Prop :=
  ∀ reported ∈ (chip.peekPredictedBlockCosts maxInstructions deadline board).1, ∀ allowJit,
    (chip.singleSteps allowJit reported.instructions board).1 = reported.instructions →
    (chip.singleSteps allowJit reported.instructions board).2.1 = reported.cost.cycles

/-- The price of the next instruction alone would be reported. -/
def Offers (chip : Chip δ) (maxInstructions : Nat) (deadline : Option (BitVec 64))
    (board : Board δ Pace) : Prop :=
  maxInstructions ≠ 0 ∧ chip.blockBoundaryPending board = false ∧
    ∃ cost, chip.peekPredictedCost board = some cost ∧
      chip.reachesTick cost.cycles board = false ∧
      chip.reachesHorizon deadline cost.cycles board = false

lemma exactSingle_mem {deadline : Option (BitVec 64)} {reported : PredictedBlockCost} :
    reported ∈ chip.exactSingle deadline board ↔
      ∃ cost, chip.peekPredictedCost board = some cost ∧
        chip.reachesTick cost.cycles board = false ∧
        chip.reachesHorizon deadline cost.cycles board = false ∧ reported = ⟨cost, 1⟩ := by
  unfold exactSingle
  cases hcost : chip.peekPredictedCost board with
  | none => simp
  | some cost =>
    dsimp only
    split
    · rename_i hlate
      rw [Bool.or_eq_true] at hlate
      constructor
      · exact fun h => absurd h not_mem_nil
      · rintro ⟨_, hsome, htick, hhorizon, -⟩
        cases hsome
        rcases hlate with h | h
        · rw [htick] at h
          cases h
        · rw [hhorizon] at h
          cases h
    · rename_i hintime
      rw [Bool.or_eq_true, not_or, Bool.not_eq_true, Bool.not_eq_true] at hintime
      rw [mem_singleton]
      constructor
      · exact fun h => ⟨cost, rfl, hintime.1, hintime.2, h⟩
      · rintro ⟨_, hsome, -, -, h⟩
        cases hsome
        exact h

structure PricedExactly (board : Board δ Pace) (raw : BitVec 32) (size : Nat)
    (d : DecodedInstruction) : Prop where
  runs : Runs board.machine.cpu
  fetched : fetchDecode board.machine.cpu.pc board.machine.bus = some (raw, size, d)
  admits : admitted d = true
  exact : (jitOp board.machine.cpu.pc raw size d).previewExact = true

lemma PricedExactly.wellPriced (h : PricedExactly board raw size d) : WellPriced chip board := by
  rintro size' d' ⟨hruns, ⟨raw', hf'⟩, hpass⟩
  rw [h.fetched] at hf'
  cases hf'
  obtain ⟨-, -, hbus, -⟩ := stepFast_exact chip.env h.runs h.fetched h.admits h.exact
  have hjudged : ¬Misjudged size d board.machine := by
    obtain ⟨-, -, hshape⟩ := previewExact_cases h.admits h.exact
    rcases hshape with ⟨hclass, -⟩ | ⟨hk | hk, -⟩
    · refine not_misjudged_of_still ?_
      by_contra hmoves
      have hflow := controlFlow_of_movesPc h.admits (Bool.eq_true_of_not_eq_false hmoves)
      rw [hclass] at hflow
      cases hflow
    · unfold Misjudged
      rw [hk]
      exact id
    · unfold Misjudged
      rw [hk]
      exact id
  refine ⟨hjudged, ?_⟩
  rw [← stepFast_devices chip.env ⟨hruns, h.fetched⟩ hpass, hbus]

/-- What is reported: prefixes of a block at the PC whose prices are exact, or the next
instruction alone. Where it is not that alone, its price is exact. -/
lemma peek_cases (hcache : board.rest.jit.Coherent board.machine.bus) (maxInstructions : Nat)
    (deadline : Option (BitVec 64)) (hpositive : maxInstructions ≠ 0)
    (hclear : chip.blockBoundaryPending board = false) :
    (chip.peekPredictedBlockCosts maxInstructions deadline board).1 =
        chip.exactSingle deadline board ∨
      (∃ raw size d, PricedExactly board raw size d) ∧
        ∀ reported ∈ (chip.peekPredictedBlockCosts maxInstructions deadline board).1,
          reported ∈ chip.exactSingle deadline board ∨
          ∃ count ≤ previewExactPrefix (blockOps board.machine.bus maxBlock board.machine.cpu.pc),
            let ops := (blockOps board.machine.bus maxBlock board.machine.cpu.pc).take count
            reported.instructions = ops.length ∧
              reported.cost.cycles = (ops.map previewCycles).sum +
                ((chip.flash board.machine.bus.deviceState).fetchAll board.lastFetchEnd
                  (ops.map place)).1 := by
  unfold peekPredictedBlockCosts
  dsimp only
  rw [if_neg (by simp [hpositive, hclear])]
  split
  · exact .inl rfl
  cases hpeek : (prepareAndPeekJitBlock chip.compile false false maxInstructions board.rest.jit
      board.machine).1 with
  | none => exact .inl rfl
  | some preview =>
    dsimp only
    split
    · exact .inl rfl
    rename_i hexact
    right
    obtain ⟨-, hallowed, ⟨hready, hpc, hgeneration⟩, count, hcount, -, hpreview⟩ :=
      prepareAndPeek_some hpeek
    have hops := (hcache.prepareJitBlock chip.compile false).ops hready hpc hgeneration
    rw [hops] at hpreview hcount
    have hchain := blockOps_chained board.machine.bus maxBlock board.machine.cpu.pc
    generalize blockOps board.machine.bus maxBlock board.machine.cpu.pc = ops at *
    have hleading : preview.exactCyclePrefixCount ≤ previewExactPrefix ops := by
      rw [hpreview]
      exact Nat.min_le_right _ _
    constructor
    · cases hchain with
      | nil => exact absurd (Nat.le_zero.mp hleading) hexact
      | @cons _ raw size d rest fetched admits ends next =>
        have hfirst : jitOp board.machine.cpu.pc raw size d ∈
            (jitOp board.machine.cpu.pc raw size d :: rest).take 1 := mem_cons_self
        exact ⟨raw, size, d, .of_allowed hallowed, fetched, admits,
          mem_exactPrefix hfirst (by omega)⟩
    · intro reported hmem
      split at hmem
      · exact absurd hmem not_mem_nil
      split at hmem
      · exact absurd hmem not_mem_nil
      split at hmem
      · exact .inl hmem
      right
      have hkept := (List.rdropWhile_prefix _ _).subset hmem
      rw [hpreview, preview_exact] at hkept
      obtain ⟨k, hk, hinstructions, hcycles⟩ := prefixCosts_mem hkept
      rw [length_take] at hk
      have htake : (ops.take (previewOf ops count).exactCyclePrefixCount).take k = ops.take k := by
        rw [take_take, Nat.min_eq_left (by omega)]
      rw [htake] at hcycles
      rw [hpreview] at hleading
      refine ⟨k, by omega, ?_, ?_⟩
      · rw [hinstructions, length_take]
        omega
      · rw [hcycles, Nat.zero_add]
        rfl

/-- **A batch stops short of every boundary, and prices are what steps charge but for
one instruction alone.** Whenever a call that was not validated before retires more than
one instruction, the last of them completes before the deadline and the next event, and
no tick comes in between; the engine taken to equal single steps, as many of them charge
the same and leave the same fetch behind. Every reported prefix carries the cycles of its
single steps if the next instruction, where its price alone can be reported, is not
misjudged and does not change the stall of its own fetch; and only then, if that
instruction retires. -/
theorem batches_stop_short_and_prefixes_cost_their_steps (chip : Chip δ) (board : Board δ Pace)
    (maxInstructions : Nat) (deadline : Option (BitVec 64)) (allowJit tired : Bool)
    (hcache : board.rest.jit.Coherent board.machine.bus)
    (hkernel : (chip.preparedBlock board).KernelGoes board.machine.cpu) :
    let stepped := chip.stepBlockWithFetchTiming allowJit deadline maxInstructions false tired board
    (1 < stepped.1.instructions →
      StopsShort chip deadline board stepped.2 stepped.1 ∧
        (EngineEqualsSteps chip maxInstructions board →
          CostsItsSteps chip board stepped.2 stepped.1)) ∧
    ((Offers chip maxInstructions deadline board → WellPriced chip board) →
      PrefixesCostTheirSteps chip maxInstructions deadline board) ∧
    ((stepFast chip.env board.machine).1.instructions = 1 →
      PrefixesCostTheirSteps chip maxInstructions deadline board →
        Offers chip maxInstructions deadline board → WellPriced chip board) := by
  have hretired : ∀ allowJit, (chip.singleSteps allowJit 1 board).1 =
      (stepFast chip.env board.machine).1.instructions := by
    intro allowJit
    have hresult : (stepFastImpl chip.env allowJit board.machine).1 =
        (stepFast chip.env board.machine).1 := (stepFastImpl_alike allowJit (.refl _)).1
    unfold singleSteps singleSteps stepSingleWithFetchTiming
    dsimp only
    rw [hresult]
    split <;> rfl
  refine ⟨stepBlock_batched hcache hkernel, fun hpriced reported hmem allowJit hsteps => ?_, ?_⟩
  · have hopen : maxInstructions ≠ 0 ∧ chip.blockBoundaryPending board = false := by
      by_contra hclosed
      unfold peekPredictedBlockCosts at hmem
      rw [if_pos (by simp only [Bool.or_eq_true, decide_eq_true_eq]; by_contra h; simp_all)] at hmem
      exact absurd hmem List.not_mem_nil
    obtain ⟨hpositive, hclear⟩ := hopen
    -- the next instruction alone
    have hsingle : reported ∈ chip.exactSingle deadline board →
        (chip.singleSteps allowJit reported.instructions board).2.1 = reported.cost.cycles := by
      intro hmem
      obtain ⟨cost, hcost, htick, hhorizon, rfl⟩ := exactSingle_mem.mp hmem
      exact (single_cost_iff hcost ((hretired allowJit).symm.trans hsteps) allowJit).mpr
        (hpriced ⟨hpositive, hclear, cost, hcost, htick, hhorizon⟩)
    rcases peek_cases hcache maxInstructions deadline hpositive hclear with
      honly | ⟨⟨_, _, _, hexact⟩, hreported⟩
    · exact hsingle (honly ▸ hmem)
    · rcases hreported reported hmem with halone | ⟨count, hcount, hinstructions, hcycles⟩
      · exact hsingle halone
      · rw [hcycles, hinstructions]
        exact singleSteps_exact hexact.runs hcount allowJit
  · rintro hone hright ⟨hpositive, hclear, cost, hcost, htick, hhorizon⟩
    rcases peek_cases hcache maxInstructions deadline hpositive hclear with
      hsingle | ⟨⟨raw, size, d, hexact⟩, -⟩
    · have hmem : (⟨cost, 1⟩ : PredictedBlockCost) ∈
          (chip.peekPredictedBlockCosts maxInstructions deadline board).1 := by
        rw [hsingle]
        exact exactSingle_mem.mpr ⟨cost, hcost, htick, hhorizon, rfl⟩
      exact (single_cost_iff hcost hone true).mp (hright _ hmem true ((hretired true).trans hone))
    · exact hexact.wellPriced

/-! ## Two boards -/

/-- A device with one register, the access control register of flash. -/
def acrDevice : MmioDevices (BitVec 32) where
  read _ _ _ _ acr := (.ok (acr.setWidth 64), acr)
  write _ _ _ value _ _ := (.ok 0, value.setWidth 32)
  domain _ _ _ _ := .boardLocal
  read_reason := by simp
  write_reason := by simp

def flashBoard (code : List (BitVec 16)) (registers : Nat → BitVec 32) :
    Board (BitVec 32) Pace where
  machine :=
    { cpu := { resetState with r := fun i => if i < 13 then registers i else resetState.r i }
      bus :=
        { map := (smallBoard code).map, bytes := (smallBoard code).bytes, devices := acrDevice,
          deviceState := 0 } }
  rest := { jit := { hot := fun _ => jitCompileThreshold } }

def flashChip : Chip (BitVec 32) where
  env := { fp := plainEnvironment.fp, aspen := fun _ => true }
  compile := fun _ => none
  system := fun _ => {}
  flash := fun acr => { acr }
  systemClockHz := fun _ => 16000000
  resetRequested := fun _ => false
  now := fun _ => 0
  nextScheduledTime := fun _ => none

lemma flashBoard_coherent (code : List (BitVec 16)) (registers : Nat → BitVec 32) :
    (flashBoard code registers).rest.jit.Coherent (flashBoard code registers).machine.bus :=
  ⟨fun _ => Nat.zero_le _, fun _ h => nomatch h⟩

/-- A literal load, a NOP and a branch to itself. -/
def loadBoard : Board (BitVec 32) Pace := flashBoard [0x4800, 0xbf00, 0xe7fe] fun _ => 0

lemma loadBoard_engine : EngineEqualsSteps flashChip 2 loadBoard := by
  intro limit hlimit out jit' after hrun
  obtain rfl | rfl | rfl : limit = 0 ∨ limit = 1 ∨ limit = 2 := by omega
  · cases hrun
  · cases hrun
    refine ⟨_, _, .cons rfl (by decide +kernel) (by decide +kernel) (by decide +kernel) (.nil _), ?_⟩
    decide +kernel
  · cases hrun
    refine ⟨_, _, .cons rfl (by decide +kernel) (by decide +kernel) (by decide +kernel)
      (.cons (by decide +kernel) (by decide +kernel) (by decide +kernel) (by decide +kernel)
        (.nil _)), ?_⟩
    decide +kernel

lemma loadBoard_priced : WellPriced flashChip loadBoard := by
  rintro size d ⟨-, ⟨raw, hf⟩, -⟩
  have hload : fetchDecode loadBoard.machine.cpu.pc loadBoard.machine.bus = some (0x4800, 2,
      { kind := .ldr, form := .literal, rd := 0, rn := 15, imm := 0, raw := 0x4800 }) := by
    decide +kernel
  rw [hload] at hf
  cases hf
  exact ⟨id, by decide +kernel⟩

/-- The load and the NOP are retired at once, before a deadline at 250 nanoseconds. -/
theorem a_load_and_a_nop_stop_short_and_cost_their_steps :
    let stepped := flashChip.stepBlockWithFetchTiming true (some 250) 2 false false loadBoard
    stepped.1.instructions = 2 ∧ StopsShort flashChip (some 250) loadBoard stepped.2 stepped.1 ∧
      CostsItsSteps flashChip loadBoard stepped.2 stepped.1 ∧
      PrefixesCostTheirSteps flashChip 2 (some 250) loadBoard := by
  have hlaw := batches_stop_short_and_prefixes_cost_their_steps flashChip loadBoard 2 (some 250)
    true false (flashBoard_coherent _ _) fun _ _ _ _ h => by cases h
  have hmany : (flashChip.stepBlockWithFetchTiming true (some 250) 2 false false
      loadBoard).1.instructions = 2 := by decide +kernel
  obtain ⟨hshort, hcosts⟩ := hlaw.1 (by rw [hmany]; decide)
  exact ⟨hmany, hshort, hcosts loadBoard_engine, hlaw.2.1 fun _ => loadBoard_priced⟩

/-- A store of four wait states to the flash register, as at the start of a program. -/
def waitBoard : Board (BitVec 32) Pace :=
  flashBoard [0x6001, 0xe7fe] fun i => if i = 0 then 0x40000000 else 4

/-- Two cycles are reported for the store. It is charged with the wait states that it
sets, and costs six. -/
theorem a_store_to_the_flash_register_costs_more_than_reported :
    (flashChip.peekPredictedBlockCosts 16 none waitBoard).1 = [⟨⟨2, 16000000, 0⟩, 1⟩] ∧
      (flashChip.singleSteps true 1 waitBoard).1 = 1 ∧
      (flashChip.singleSteps true 1 waitBoard).2.1 = 6 := by
  decide +kernel

end Chip

end Fil.Sim
