-- What a block says before it runs. When a block is prepared its leading
-- instructions are priced, with the longest divide and a refill behind every
-- branch. The price bounds what a step charges, and up to the first access,
-- divide, condition or computed branch it is what the steps charge.
import Fil.CyclePrediction
import Fil.HandlerLogs

open Dialogue Fil.Mem Fil.Mem.MemoryBus

namespace Fil.Cpu

/-! ## The price of a cached instruction -/

namespace JitOp

/-- Where B and BL go. -/
def directTarget (op : JitOp) : BitVec 32 :=
  BitVec.ofInt 32 (op.pc.toNat + 4 + op.decoded.branchOffset) &&& ~~~1

/-- The price is what the step will charge: no access, no divide, no condition,
and no branch but a direct one. -/
def previewExact (op : JitOp) : Bool :=
  !op.isMemory && !op.divideForm && op.decoded.condition = .al
    && (!op.isTerminator || op.decoded.kind = .b || op.decoded.kind = .bl)

/-- The refill that is counted on. A direct branch to the next instruction has
none. -/
def previewPenalty (op : JitOp) : Nat :=
  if op.isTerminator && op.previewExact && op.directTarget = op.nextPc then 0
  else op.branchPenalty

def previewCycles (op : JitOp) : Nat :=
  (if op.divideForm then 12 else op.baseCycles) + op.previewPenalty

end JitOp

/-- The leading instructions that touch no memory. -/
def previewCount (ops : List JitOp) : Nat := (ops.takeWhile fun op => !op.isMemory).length

/-- The leading instructions that touch memory through a handler at most. -/
def previewExtendedCount (ops : List JitOp) : Nat :=
  (ops.takeWhile fun op => !(op.isMemory && op.fast = .generic)).length

def previewExactPrefix (ops : List JitOp) : Nat := (ops.takeWhile JitOp.previewExact).length

structure JitBlockPreview where
  /-- Addresses and sizes of the instructions, in order. -/
  fetched : List (BitVec 32 × Nat)
  instructionCycles : List Nat
  maxCycles : Nat
  exactCyclePrefixCount : Nat
  cyclesExact : Bool

def JitBlockPreview.count (p : JitBlockPreview) : Nat := p.fetched.length

def previewOf (ops : List JitOp) (safeCount : Nat) : JitBlockPreview where
  fetched := (ops.take safeCount).map fun op => (op.pc, op.size)
  instructionCycles := (ops.take safeCount).map JitOp.previewCycles
  maxCycles := ((ops.take safeCount).map JitOp.previewCycles).sum
  exactCyclePrefixCount := min safeCount (previewExactPrefix ops)
  cyclesExact := safeCount ≤ previewExactPrefix ops

section Preview

variable {δ : Type}

def jitBlockReady (jit : JitCache) (m : Machine δ) : Bool :=
  let slot := jit.blocks (jitBlockIndex m.cpu.pc)
  !blockForbidden m.cpu && slot.state = .ready && slot.pc = m.cpu.pc
    && slot.generation = m.bus.executionGeneration

/-- Prepares the block at the PC and looks at it. An extended preview goes on behind
accesses that have a handler; it is refused while these accesses keep being declined
(`tired`: the block was declined twice in a row). -/
def prepareAndPeekJitBlock (compile : MicroBlock → Option MicroFunction) (extended tired : Bool)
    (maxInstructions : Nat) (jit : JitCache) (m : Machine δ) : Option JitBlockPreview × JitCache :=
  if maxInstructions = 0 then (none, jit)
  else
    let (ready, jit) := prepareJitBlock compile false jit m
    let slot := jit.blocks (jitBlockIndex m.cpu.pc)
    if !ready || slot.state ≠ .ready || slot.pc ≠ m.cpu.pc
      || slot.generation ≠ m.bus.executionGeneration then (none, jit)
    else
      let available := if extended then previewExtendedCount slot.ops else previewCount slot.ops
      let safeCount := min (min maxInstructions slot.ops.length) available
      if safeCount = 0 || (extended && tired) then (none, jit)
      else (some (previewOf slot.ops safeCount), jit)

def peekJitBlock (maxInstructions : Nat) (jit : JitCache) (m : Machine δ) :
    Option JitBlockPreview :=
  if maxInstructions = 0 || !jitBlockReady jit m then none
  else
    let slot := jit.blocks (jitBlockIndex m.cpu.pc)
    let safeCount := min (min maxInstructions slot.ops.length) (previewCount slot.ops)
    if safeCount = 0 then none else some (previewOf slot.ops safeCount)

/-! ## A cache that holds the code -/

/-- What is ready in the cache was decoded from the code as it is, unless the code
has changed since. -/
structure JitCache.Coherent (jit : JitCache) (b : MemoryBus δ) : Prop where
  dated : ∀ i, (jit.blocks i).generation ≤ b.executionGeneration
  decoded : ∀ i, (jit.blocks i).state = .ready →
    (jit.blocks i).generation = b.executionGeneration →
    (jit.blocks i).ops = blockOps b maxBlock (jit.blocks i).pc

variable {b b' : MemoryBus δ} {jit : JitCache}

theorem emptyCache_coherent (b : MemoryBus δ) : ({} : JitCache).Coherent b :=
  ⟨fun _ => Nat.zero_le _, fun _ h => nomatch h⟩

lemma JitCache.Coherent.store {entry : JitBlockEntry} (h : jit.Coherent b)
    (hdated : entry.generation ≤ b.executionGeneration)
    (hdecoded : entry.ops = blockOps b maxBlock entry.pc) : (jit.store entry).Coherent b := by
  have hentry : ∀ i, (jit.store entry).blocks i = entry ∨
      (jit.store entry).blocks i = jit.blocks i := by
    intro i
    unfold JitCache.store
    dsimp only
    by_cases hi : i = jitBlockIndex entry.pc
    · exact .inl (by rw [hi, Function.update_self])
    · exact .inr (Function.update_of_ne hi _ _)
  constructor
  · intro i
    rcases hentry i with he | he <;> rw [he]
    · exact hdated
    · exact h.dated i
  · intro i
    rcases hentry i with he | he <;> rw [he]
    · exact fun _ _ => hdecoded
    · exact h.decoded i

variable {m : Machine δ}

lemma JitCache.Coherent.prepareJitBlock (h : jit.Coherent m.bus)
    (compile : MicroBlock → Option MicroFunction) (allowSingle : Bool) :
    (prepareJitBlock compile allowSingle jit m).2.Coherent m.bus := by
  unfold Fil.Cpu.prepareJitBlock
  dsimp only
  split_ifs
  · exact h
  · exact h
  · exact h
  · exact ⟨h.dated, h.decoded⟩
  · exact h.store le_rfl rfl
  · exact h.store le_rfl rfl
  · exact h.store le_rfl rfl

section

variable (h : CodeKept b b') (hsame : b'.executionGeneration = b.executionGeneration)
include h hsame

lemma fetchDecode_kept (pc : BitVec 32) :
    fetchDecode pc b' = fetchDecode pc b := by
  have hfirst := h.fetch hsame pc pc
  have hsecond := h.fetch hsame (pc + 2) pc
  unfold fetchDecode
  dsimp only
  revert hfirst hsecond
  cases b'.tryFastRead pc .halfword ⟨.instructionFetch, pc⟩ <;>
    cases b.tryFastRead pc .halfword ⟨.instructionFetch, pc⟩ <;>
    cases b'.tryFastRead (pc + 2) .halfword ⟨.instructionFetch, pc⟩ <;>
    cases b.tryFastRead (pc + 2) .halfword ⟨.instructionFetch, pc⟩ <;>
    simp +contextual

lemma blockOps_kept (count : Nat) (pc : BitVec 32) :
    blockOps b' count pc = blockOps b count pc := by
  induction count generalizing pc with
  | zero => rfl
  | succ count ih =>
    unfold blockOps
    rw [fetchDecode_kept h hsame pc]
    simp only [ih]

end

/-- Whatever keeps the code keeps the cache good. -/
lemma JitCache.Coherent.kept (h : jit.Coherent b) (hk : CodeKept b b') : jit.Coherent b' where
  dated i := (h.dated i).trans hk.generation
  decoded i hready hsame := by
    have hdated := h.dated i
    have hgrows := hk.generation
    rw [blockOps_kept hk (by omega)]
    exact h.decoded i hready (by omega)

lemma perform_codeKept (r : Request) (b : MemoryBus δ) : CodeKept b (r.perform b).2 :=
  (perform_path r b).codeKept

lemma executeOn_codeKept (env : Environment δ) (d : DecodedInstruction) (s : CpuState)
    (b : MemoryBus δ) : CodeKept b (executeOn env d s b).2 :=
  Prog.run_rel CodeKept.refl CodeKept.trans perform_codeKept _ b

lemma executeJitFast_codeKept (d : DecodedInstruction) (fast : JitFast) (pc : BitVec 32)
    (s : CpuState) (b : MemoryBus δ) : CodeKept b (executeJitFast d fast pc s b).bus :=
  (executeJitFast_path d fast pc s b).kept.toCodeKept

lemma stepFastImpl_codeKept (env : Environment δ) (useJit : Bool) (m : Machine δ) :
    CodeKept m.bus (stepFastImpl env useJit m).2.bus :=
  stepFastImpl_rel (R := CodeKept) .refl (fun _ _ _ => .trans) perform_codeKept
    (fun h => h.kept.toCodeKept) env useJit m

lemma prepareAndPeek_some {compile : MicroBlock → Option MicroFunction} {extended tired : Bool}
    {maxInstructions : Nat} {preview : JitBlockPreview}
    (h : (prepareAndPeekJitBlock compile extended tired maxInstructions jit m).1 = some preview) :
    let prepared := (prepareJitBlock compile false jit m).2
    let slot := prepared.blocks (jitBlockIndex m.cpu.pc)
    (prepareAndPeekJitBlock compile extended tired maxInstructions jit m).2 = prepared ∧
      blockForbidden m.cpu = false ∧
      (slot.state = .ready ∧ slot.pc = m.cpu.pc ∧ slot.generation = m.bus.executionGeneration) ∧
      ∃ count ≤ slot.ops.length,
        count ≤ (if extended then previewExtendedCount slot.ops else previewCount slot.ops) ∧
        preview = previewOf slot.ops count := by
  unfold prepareAndPeekJitBlock at h ⊢
  dsimp only at h ⊢
  generalize (if extended = true then _ else _) = available at h ⊢
  split at h
  · cases h
  split at h
  · cases h
  rename_i hpositive hready
  split at h
  · cases h
  rename_i hshown
  rw [if_neg hpositive, if_neg hready, if_neg hshown]
  simp only [Bool.or_eq_true, decide_eq_true_eq, not_or, ne_eq, not_not] at hready
  cases h
  refine ⟨rfl, ?_, ⟨hready.1.1.2, hready.1.2, hready.2⟩, _,
    (Nat.min_le_left _ _).trans (Nat.min_le_right _ _), Nat.min_le_right _ _, rfl⟩
  by_contra hforbidden
  have hrefused : (prepareJitBlock compile false jit m).1 = false := by
    unfold prepareJitBlock
    rw [if_pos (Bool.eq_true_of_not_eq_false hforbidden)]
  exact hready.1.1.1 (by rw [hrefused]; rfl)

lemma JitCache.Coherent.ops (h : jit.Coherent m.bus)
    (hready : (jit.blocks (jitBlockIndex m.cpu.pc)).state = .ready)
    (hpc : (jit.blocks (jitBlockIndex m.cpu.pc)).pc = m.cpu.pc)
    (hgeneration : (jit.blocks (jitBlockIndex m.cpu.pc)).generation = m.bus.executionGeneration) :
    (jit.blocks (jitBlockIndex m.cpu.pc)).ops = blockOps m.bus maxBlock m.cpu.pc := by
  rw [h.decoded _ hready hgeneration, hpc]

/-! ## Instructions behind one another -/

/-- Cached instructions that follow one another in memory. Nothing follows a
terminator. -/
inductive Chained (b : MemoryBus δ) : BitVec 32 → List JitOp → Prop
  | nil (pc : BitVec 32) : Chained b pc []
  | cons {pc raw : BitVec 32} {size : Nat} {d : DecodedInstruction} {rest : List JitOp}
      (fetched : fetchDecode pc b = some (raw, size, d)) (admits : admitted d = true)
      (ends : (jitOp pc raw size d).isTerminator = true → rest = [])
      (next : Chained b (jitOp pc raw size d).nextPc rest) :
      Chained b pc (jitOp pc raw size d :: rest)

section

variable (b : MemoryBus δ) (count : Nat) (pc : BitVec 32)

lemma blockOps_chained :
    Chained b pc (blockOps b count pc) := by
  induction count generalizing pc with
  | zero => exact .nil pc
  | succ count ih =>
    unfold blockOps
    split
    · exact .nil pc
    rename_i raw size d hf
    dsimp only
    split_ifs with ha hend
    · exact .cons hf ha (fun _ => rfl) (.nil _)
    · exact .cons hf ha (fun h => absurd h hend) (ih _)
    · exact .nil pc

lemma blockOps_length :
    (blockOps b count pc).length ≤ count := by
  induction count generalizing pc with
  | zero => exact le_rfl
  | succ count ih =>
    unfold blockOps
    split
    · exact Nat.zero_le _
    dsimp only
    split_ifs
    · simp
    · simpa using ih _
    · exact Nat.zero_le _

end

variable {pc : BitVec 32}

lemma Chained.take {ops : List JitOp} (h : Chained b pc ops) (count : Nat) :
    Chained b pc (ops.take count) := by
  induction h generalizing count with
  | nil pc => rw [List.take_nil]; exact .nil pc
  | @cons pc raw size d rest fetched admits ends next ih =>
    cases count with
    | zero => exact .nil pc
    | succ count =>
      refine .cons fetched admits (fun h => ?_) (ih count)
      rw [ends h, List.take_nil]

/-- A cached instruction that a block can hold. -/
structure JitOp.Made (op : JitOp) : Prop where
  shape : op = jitOp op.pc op.raw op.size op.decoded
  admits : admitted op.decoded = true
  wellformed : Wellformed op.decoded

lemma Chained.made {ops : List JitOp} (h : Chained b pc ops) : ∀ op ∈ ops, op.Made := by
  induction h with
  | nil pc => exact fun _ h => nomatch h
  | cons fetched admits ends next ih =>
    intro op hop
    rcases List.mem_cons.mp hop with rfl | hop
    · exact ⟨rfl, admits, (fetchDecode_decoded fetched).wellformed⟩
    · exact ih op hop

/-! ## The price is a bound -/

variable {env : Environment δ} {m : Machine δ} {raw : BitVec 32} {size : Nat}
  {d : DecodedInstruction}

/-- What a block admits and what can move the PC ends it, but for a condition. -/
lemma controlFlow_of_movesPc (ha : admitted d = true) (hmoves : movesPc d = true) :
    classifyJitBoundary d = .controlFlow := by
  unfold admitted classifyJitBoundary at ha
  unfold movesPc at hmoves
  unfold classifyJitBoundary
  cases hk : d.kind <;> simp_all

lemma basePipelineCycles_le (d : DecodedInstruction) : basePipelineCycles d ≤ 17 := by
  have hlist : popcount d.registerList ≤ 16 := by
    unfold popcount listedRegisters
    exact (List.length_filter_le _ _).trans (by simp)
  unfold basePipelineCycles
  split <;> omega

lemma stepFast_cycles_small (env : Environment δ)
    (hat : StandsAt raw size d m) : (stepFast env m).1.cycles ≤ 19 := by
  have hbase : executedCycles (prepare raw size d) m.cpu ≤ 17 := by
    rw [executedCycles_eq]
    have := basePipelineCycles_le d
    split_ifs
    · unfold divideCycles
      split_ifs <;> omega
    · exact this
  have hpenalty : takenBranchPenalty d.kind ≤ 2 := by
    unfold takenBranchPenalty
    split <;> decide
  by_cases hone : (stepFast env m).1.instructions = 1
  · cases hpass : passes d m.cpu with
    | false =>
      rw [(stepFast_cycles hat hone).1 hpass]
      decide
    | true =>
      have := stepFast_cycles_le env hat hpass
      omega
  · rw [stepFast_idle hone]
    exact Nat.zero_le _

/-! ## The exact prefix -/

/-- The core is ready for the next instruction of a block. -/
structure Runs (s : CpuState) : Prop where
  fetches : (s.halted || invalidThumb s) = false
  outside : inItBlock s.itState = false

variable {s : CpuState}

lemma Runs.of_allowed (h : blockForbidden s = false) : Runs s := by
  unfold blockForbidden at h
  simp only [Bool.or_eq_false_iff] at h
  exact ⟨by rw [h.1.1.1.1, h.1.1.1.2]; rfl, h.1.1.2⟩

/-- The T bit of the status, as the two tests of it read. -/
lemma thumbBit_iff (x : BitVec 32) : (x &&& xpsrT == 0) = !x.getLsbD 24 := by
  have hbit : x &&& xpsrT = if x.getLsbD 24 then xpsrT else 0 := by
    apply BitVec.eq_of_getLsbD_eq
    intro i hi
    have hT : xpsrT = BitVec.twoPow 32 24 := rfl
    rw [BitVec.getLsbD_and, hT, BitVec.getLsbD_twoPow]
    by_cases h : 24 = i
    · subst h
      cases x.getLsbD 24 <;> simp
    · cases x.getLsbD 24 <;> simp [h]
  rw [hbit]
  cases x.getLsbD 24 <;> decide

/-- A core that was steady still runs, if its PC is even. -/
lemma Runs.steady {t : CpuState} (h : Runs s) (hsteady : Steady s t) (heven : t.pc &&& 1 = 0) :
    Runs t := by
  obtain ⟨hfetches, houtside⟩ := h
  unfold invalidThumb at hfetches
  simp only [Bool.or_eq_false_iff, thumbBit_iff, Bool.not_eq_false'] at hfetches
  obtain ⟨hhalted, ⟨hthumb, hbit⟩, -⟩ := hfetches
  refine ⟨?_, by rw [hsteady.itState]; exact houtside⟩
  unfold invalidThumb
  rw [thumbBit_iff, hsteady.halted, hhalted, hsteady.thumb hthumb, hsteady.bit hbit, heven]
  rfl

lemma dispatch_straight (fp : FpUnit) (s : CpuState) (h : classifyJitBoundary d = .none) :
    ∃ t, dispatch fp d s = pure (complete t) := by
  unfold classifyJitBoundary at h
  unfold dispatch
  cases hk : d.kind <;> rw [hk] at h
  case mov =>
    have hrd : d.rd ≠ 15 := by
      intro h15
      rw [if_pos h15] at h
      cases h
    exact ⟨_, congrArg pure (if_neg hrd)⟩
  all_goals dsimp only at h
  case ldr | str | ldrb | strb | ldrh | strh | ldrsb | ldrsh | ldrd | strd | ldm | stm | push
      | pop =>
    split_ifs at h
  all_goals first | exact ⟨_, rfl⟩ | cases h

lemma previewExact_cases (ha : admitted d = true)
    (he : (jitOp pc raw size d).previewExact = true) :
    d.condition = .al ∧ divideForm d.kind = false ∧
      (classifyJitBoundary d = .none ∧ (jitOp pc raw size d).isTerminator = false ∨
        (d.kind = .b ∨ d.kind = .bl) ∧ (jitOp pc raw size d).isTerminator = true) := by
  unfold JitOp.previewExact at he
  simp only [Bool.and_eq_true, Bool.not_eq_true', Bool.or_eq_true, decide_eq_true_eq] at he
  obtain ⟨⟨⟨hmemory, hdivide⟩, hcondition⟩, hends⟩ := he
  replace hcondition : d.condition = .al := hcondition
  replace hmemory : touchesMemory d = false := hmemory
  have hterm : (jitOp pc raw size d).isTerminator =
      decide (classifyJitBoundary d = .controlFlow) := by
    unfold jitOp condBranch
    simp [hcondition]
  refine ⟨hcondition, hdivide, ?_⟩
  unfold admitted at ha
  unfold touchesMemory at hmemory
  cases hclass : classifyJitBoundary d <;> rw [hclass] at ha hmemory hterm
  case none => exact .inl ⟨rfl, hterm⟩
  case controlFlow =>
    refine .inr ⟨?_, hterm⟩
    rcases hends with (hno | hk) | hk
    · rw [hterm] at hno
      cases hno
    · exact .inl hk
    · exact .inr hk
  case memoryMayTrap => simp at hmemory
  all_goals simp at ha

lemma isFpRegisterAccess_straight (h : classifyJitBoundary d = .none) :
    isFpRegisterAccess d.kind = false := by
  unfold classifyJitBoundary at h
  cases hk : d.kind <;> rw [hk] at h <;> first | rfl | cases h

lemma even_next (hd : Decoded d size) (h : pc &&& 1 = 0) :
    (pc + BitVec.ofNat 32 size) &&& 1 = 0 := by
  have hmod : ∀ x : BitVec 32, x &&& 1 = 0 ↔ x.toNat % 2 = 0 := by
    intro x
    rw [← BitVec.toNat_inj, BitVec.toNat_and, show BitVec.toNat (1 : BitVec 32) = 1 from rfl,
      Nat.and_one_is_mod]
    rfl
  have hsize : size = 2 ∨ size = 4 := by
    rcases hd with ⟨h2, -⟩ | ⟨h4, -⟩
    · exact .inl h2
    · exact .inr h4
  rw [hmod] at h ⊢
  rw [BitVec.toNat_add, BitVec.toNat_ofNat]
  rcases hsize with rfl | rfl <;> omega

lemma stepFast_cpu (hruns : Runs m.cpu) (hf : fetchDecode m.cpu.pc m.bus = some (raw, size, d))
    (hc : (reference env size d m).1.reason = .stepComplete) :
    (stepFast env m).2.cpu = (reference env size d m).1.cpu := by
  rw [stepFast_of_fetchDecode ⟨hruns.fetches, hf⟩, retireChecked_eq]
  unfold conclude
  rw [if_pos hc, hruns.outside]
  exact if_neg fun h => nomatch h.2

/-- **An exact price is charged.** The step completes, charges the price and leaves
the bus alone, and unless it ended the block the core goes on in sequence. -/
lemma stepFast_exact (env : Environment δ) (hruns : Runs m.cpu)
    (hf : fetchDecode m.cpu.pc m.bus = some (raw, size, d)) (ha : admitted d = true)
    (he : (jitOp m.cpu.pc raw size d).previewExact = true) :
    (stepFast env m).1.instructions = 1 ∧
      (stepFast env m).1.cycles = (jitOp m.cpu.pc raw size d).previewCycles ∧
      (stepFast env m).2.bus = m.bus ∧
      ((jitOp m.cpu.pc raw size d).isTerminator = false →
        (stepFast env m).2.cpu.pc = (jitOp m.cpu.pc raw size d).nextPc ∧
          Runs (stepFast env m).2.cpu) := by
  have hd := (fetchDecode_decoded hf).wellformed
  obtain ⟨hcondition, hdivide, hshape⟩ := previewExact_cases ha he
  have hpass := passes_always hcondition hruns.outside
  have hadjust : itAdjusted (inItBlock m.cpu.itState) d = d := by
    rw [hruns.outside]
    rfl
  have hfp : isFpRegisterAccess d.kind = false := by
    rcases hshape with ⟨h, -⟩ | ⟨h | h, -⟩
    · exact isFpRegisterAccess_straight h
    · rw [h]; rfl
    · rw [h]; rfl
  have hdispatch : ∃ t, dispatch env.fp d (entered m.cpu size) = pure (complete t) := by
    rcases hshape with ⟨h, -⟩ | ⟨h | h, -⟩
    · exact dispatch_straight _ _ h
    · exact ⟨executeB d _, by unfold dispatch; rw [h]⟩
    · exact ⟨executeBl d _, by unfold dispatch; rw [h]⟩
  obtain ⟨t, hdispatch⟩ := hdispatch
  have href : reference env size d m = (complete t, m.bus) :=
    reference_stays _ hpass hfp (by rw [hadjust]; exact hdispatch)
  have hreason : (reference env size d m).1.reason = .stepComplete := by rw [href]; rfl
  have hone : (stepFast env m).1.instructions = 1 :=
    stepFast_retired ⟨hruns.fetches, hf⟩ (by rw [hreason]; decide)
  have hprice : executedCycles (prepare raw size d) m.cpu =
      if divideForm d.kind then 12 else (jitOp m.cpu.pc raw size d).baseCycles := by
    rw [executedCycles_eq]
    unfold jitOp
    simp only [hdivide]
    rfl
  have hcharged : (stepFast env m).1.cycles = (jitOp m.cpu.pc raw size d).previewCycles := by
    change _ = (if divideForm d.kind then 12 else (jitOp m.cpu.pc raw size d).baseCycles) +
      (jitOp m.cpu.pc raw size d).previewPenalty
    obtain ⟨-, hrefilled, hstill⟩ := stepFast_cycles ⟨hruns.fetches, hf⟩ hone
    rw [← hprice]
    rcases hshape with ⟨hclass, hterm⟩ | ⟨hk, hterm⟩
    · have hstays : ¬LeavesSequence env size d m := by
        intro hleaves
        have hflow := controlFlow_of_movesPc ha (hleaves.movesPc hd hpass)
        rw [hclass] at hflow
        cases hflow
      have hpenalty : (jitOp m.cpu.pc raw size d).previewPenalty = 0 := by
        unfold JitOp.previewPenalty
        rw [hterm, if_neg (by simp)]
        exact if_neg (by rw [hclass]; decide)
      rw [hstill hpass hstays, hpenalty, Nat.add_zero]
    · have hpenalty : (jitOp m.cpu.pc raw size d).previewPenalty =
          if (jitOp m.cpu.pc raw size d).directTarget = (jitOp m.cpu.pc raw size d).nextPc then 0
          else takenBranchPenalty d.kind := by
        have hflow : classifyJitBoundary d = .controlFlow := by
          unfold classifyJitBoundary
          rcases hk with hk | hk <;> rw [hk]
        unfold JitOp.previewPenalty
        have hrefill : (jitOp m.cpu.pc raw size d).branchPenalty = takenBranchPenalty d.kind :=
          if_pos hflow
        rw [hterm, he, hrefill]
        simp
      have hleaves : LeavesSequence env size d m ↔ _ := leaves_branch hpass hk
      rw [hpenalty]
      split
      · rename_i htarget
        rw [hstill hpass fun h => hleaves.mp h htarget, Nat.add_zero]
      · rename_i htarget
        exact hrefilled hpass (hleaves.mpr htarget)
  have hbus : (stepFast env m).2.bus = m.bus := by
    rw [stepFast_of_fetchDecode ⟨hruns.fetches, hf⟩, retireChecked_eq, conclude_bus, href]
  refine ⟨hone, hcharged, hbus, fun hterm => ?_⟩
  have hclass : classifyJitBoundary d = .none := by
    rcases hshape with ⟨h, -⟩ | ⟨-, h⟩
    · exact h
    · rw [h] at hterm
      cases hterm
  have hstraight : movesPc d = false := by
    by_contra hmoves
    have hflow := controlFlow_of_movesPc ha (Bool.eq_true_of_not_eq_false hmoves)
    rw [hclass] at hflow
    cases hflow
  have hit : d.kind ≠ .it := by
    intro hk
    unfold admitted at ha
    simp [hk] at ha
  have hsequence := reference_inSequence hd hstraight hit hreason
  have hpc := hsequence.pc.trans (entered_pc m.cpu size)
  rw [stepFast_cpu hruns hf hreason]
  have hentered : Steady m.cpu (entered m.cpu size) := ⟨rfl, id, id, rfl⟩
  refine ⟨hpc, hruns.steady (hentered.trans hsequence.toSteady) ?_⟩
  rw [hpc]
  exact even_next (fetchDecode_decoded hf) (pc_even hruns.fetches)

end Preview

end Fil.Cpu
