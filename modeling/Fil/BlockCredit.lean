-- Blocks and traces under a budget. Generated code looks at its own credit, the
-- kernel of a block is planned with every refill it may cost, handlers are
-- admitted one by one, and a trace is cut where its costs are no longer
-- covered. None of them spends more than it was given.
import Fil.BudgetedBlocks
import Fil.StepCredit
import Mathlib.Data.List.TakeWhile

open Dialogue Fil.Mem List

namespace Fil.Cpu

variable {δ : Type} {env : Environment δ}

/-! ## Prepared instructions -/

/-- The instruction was prepared from its decoding. -/
def JitOp.Prepared (op : JitOp) : Prop := op = jitOp op.pc op.raw op.size op.decoded

def JitCache.Prepared (jit : JitCache) : Prop := ∀ i, ∀ op ∈ (jit.blocks i).ops, op.Prepared

lemma blockOps_prepared (b : MemoryBus δ) (count : Nat) (pc : BitVec 32) :
    ∀ op ∈ blockOps b count pc, op.Prepared := by
  induction count generalizing pc with
  | zero => simp [blockOps]
  | succ count ih =>
    unfold blockOps
    split
    · simp
    dsimp only
    split_ifs
    · rintro op (_ | ⟨_, h⟩)
      · rfl
      · cases h
    · rintro op (_ | ⟨_, h⟩)
      · rfl
      · exact ih _ op h
    · simp

lemma JitCache.Prepared.store {jit : JitCache} {entry : JitBlockEntry} (h : jit.Prepared)
    (he : ∀ op ∈ entry.ops, op.Prepared) : (jit.store entry).Prepared := by
  intro i
  unfold JitCache.store
  dsimp only
  by_cases hi : i = jitBlockIndex entry.pc
  · rw [hi, Function.update_self]
    exact he
  · rw [Function.update_of_ne hi]
    exact h i

lemma JitCache.Prepared.prepareJitBlock {jit : JitCache} (h : jit.Prepared)
    (compile : MicroBlock → Option MicroFunction) (allowSingle : Bool) (m : Machine δ) :
    (prepareJitBlock compile allowSingle jit m).2.Prepared := by
  have hops := blockOps_prepared m.bus maxBlock m.cpu.pc
  unfold Cpu.prepareJitBlock
  dsimp only
  split_ifs
  all_goals first
    | exact h
    | exact h.store hops

/-! ## Handlers -/

variable {op : JitOp}

section

variable (hop : op.Prepared) (h : op.reversibleFast ≠ .none)
include hop h

lemma reversibleFast_rd (hstore : op.reversibleFast ≠ .strWord) : op.decoded.rd ≠ 15 := by
  have hfast : op.fast = classifyJitFast op.decoded := by
    rw [hop]
    rfl
  have hgpr : classifyJitFast op.decoded = .ldrWordGpr → op.decoded.rd ≠ 15 := by
    intro hk h15
    have hword : wordGpr op.decoded = false := by simp [wordGpr, h15]
    unfold classifyJitFast byForm at hk
    simp [hword] at hk
    split at hk <;> first | cases hk | split_ifs at hk
  unfold JitOp.reversibleFast classifyReversibleFast at h hstore
  split at h
  · exact absurd rfl h
  rename_i hplain
  rw [if_neg hplain] at hstore
  split at h
  all_goals first
    | exact hgpr (hfast.symm.trans ‹_›)
    | exact absurd rfl h
    | (rename_i hk; rw [hk] at hstore; exact absurd rfl hstore)
    | (split at h
       · rename_i hrd
         intro h15
         simp [h15] at hrd
       · exact absurd rfl h)

lemma runReversible_pc (s : CpuState) (b : MemoryBus δ) : (runReversible op s b).cpu.pc = s.pc := by
  have hset : op.reversibleFast ≠ .strWord → ∀ v, (s.setCore op.decoded.rd v).pc = s.pc :=
    fun hs v => (setCore_sequential s v (reversibleFast_rd hop h hs)).pc
  unfold runReversible
  dsimp only
  split <;> rename_i hk
  case h_1 | h_2 | h_3 | h_4 => exact hset (by simp [hk]) _
  case h_5 =>
    split
    · rfl
    · exact hset (by simp [hk]) _
  case h_6 => split <;> rfl
  case h_7 => exact absurd hk h

end

/-- What was charged is covered by the budget and is what it lost: the counter
has not wrapped. -/
def Spent.Keeps (budget : ReversibleCycleBudget) (spent : Spent δ) : Prop :=
  Spends budget spent.budget spent.charges

/-- An attempt behind one that charged nothing. -/
lemma Spent.Keeps.behind {budget : ReversibleCycleBudget} {spent next : Spent δ}
    (h : spent.Keeps budget) (hnone : spent.charges = []) (hnext : next.Keeps spent.budget) :
    next.Keeps budget := by
  unfold Spent.Keeps at h
  rw [hnone] at h
  exact h.trans hnext

def BlockRun.Kept (start : ReversibleCycleBudget) (r : BlockRun δ) : Prop :=
  Spends start r.budget r.charges

section Runs

variable {start : ReversibleCycleBudget} {r : BlockRun δ}

lemma refill_le (hop : op.Prepared) (m : Machine δ) :
    op.refill m.cpu (runEntered op m).cpu ≤ op.worstRefill m.cpu := by
  unfold JitOp.refill JitOp.worstRefill
  cases hpassed : op.passed m.cpu with
  | false => exact le_refl _
  | true =>
    cases hcompact : op.compact with
    | false =>
      simp
      split <;> omega
    | true =>
      have hpc : (runEntered op m).cpu.pc = op.nextPc := by
        unfold runEntered
        rw [if_pos hpassed, if_pos hcompact,
          runReversible_pc hop (by simpa [JitOp.compact] using hcompact)]
        exact setPc_pc _ _
      simp [hpc]

lemma retireReversible_kept (hop : op.Prepared) (h : r.Kept start) :
    (retireReversible op r).1.Kept start := by
  have hrefill := refill_le hop r.machine
  unfold retireReversible
  dsimp only
  split
  · exact h
  rename_i hcovered
  split
  · exact h
  split
  · exact Spends.then h (by omega) _
  · exact h

variable {ops : List JitOp} {n : Nat} {charges : List Nat} (settings : NativeSettings)
  (failed : BitVec 32) (committed : Bool)

lemma runHandlers_kept (hops : ∀ op ∈ ops, op.Prepared) (h : r.Kept start) :
    (runHandlers ops r).1.Kept start := by
  induction ops generalizing r with
  | nil => exact h
  | cons op rest ih =>
    have hstep := retireReversible_kept (hops op (by simp)) h
    unfold runHandlers
    split
    · exact h
    split
    · rename_i r' e heq
      rw [heq] at hstep
      exact hstep
    · rename_i r' heq
      rw [heq] at hstep
      exact ih (fun op hmem => hops op (by simp [hmem])) hstep

/-! ## Generated code -/

/-- The credit covers what generated code retires, if nothing was certified: each
instruction has looked at it. -/
lemma runNativeInsts_covered (request : NativeRequest) (function : NativeFunction δ)
    {count cycles : Nat} (stop : Bool) (m : Machine δ)
    (hcycles : (request.chargedCycles.take count).sum = cycles) (h : cycles ≤ request.cycleLimit) :
    (request.chargedCycles.take
      (runNativeInsts request false function count cycles stop m).retiredCount).sum ≤
      request.cycleLimit := by
  induction function generalizing count cycles stop m with
  | nil => exact hcycles ▸ h
  | cons inst rest ih =>
    have hhere : (request.chargedCycles.take count).sum ≤ request.cycleLimit := hcycles ▸ h
    unfold runNativeInsts
    simp only [Bool.not_false, Bool.true_and, Bool.false_eq_true, if_false]
    split
    · exact hhere
    split
    · exact hhere
    rename_i hcount
    split
    · exact hhere
    split
    · exact hhere
    rename_i hcredit
    have hnext : (request.chargedCycles.take (count + 1)).sum =
        cycles + request.chargedCycles.getD count 0 := by
      have hlt : count < request.chargedCycles.length := by simpa using hcount
      simp [sum_take_succ _ _ hlt, hcycles, hlt]
    have hcovered : cycles + request.chargedCycles.getD count 0 ≤ request.cycleLimit := by
      simpa using hcredit
    split
    · exact ih _ _ hnext hcovered
    · exact hnext ▸ hcovered
    · exact hhere

lemma debitAll_spends (l : List (JitOp × Nat)) {b : ReversibleCycleBudget}
    (h : (l.map Prod.snd).sum ≤ b.remainingCycles.toNat) :
    Spends b (debitAll b l) (l.map Prod.snd) := by
  induction l generalizing b with
  | nil => exact .refl b
  | cons x rest ih =>
    rw [map_cons, sum_cons] at h
    have hfirst : Spends b (b.debit x.2 x.1.nextPc) [x.2] := .debit (by omega) _
    have hrest : (rest.map Prod.snd).sum ≤ (b.debit x.2 x.1.nextPc).remainingCycles.toNat := by
      rw [debit_remaining (by omega)]
      omega
    exact hfirst.trans (ih hrest)

lemma nativeCharges_length (b : ReversibleCycleBudget) (ops : List JitOp) :
    (nativeCharges b ops).length ≤ ops.length := by
  induction ops generalizing b with
  | nil => exact le_refl _
  | cons op rest ih =>
    unfold nativeCharges
    dsimp only
    split
    · simp
    · have := ih (b.fetched op.nextPc)
      simpa using this

lemma settleNative_kept (entry : JitBlockEntry) (answer : NativeAnswer δ)
    (hlength : charges.length ≤ ops.length)
    (hcovered : (charges.take answer.retiredCount).sum ≤ r.budget.remainingCycles.toNat)
    (h : Spends start r.budget []) : (settleNative entry ops charges answer r).Kept start := by
  have hsnd : ((ops.take answer.retiredCount).zip (charges.take answer.retiredCount)).map Prod.snd =
      charges.take answer.retiredCount := by
    rw [map_snd_zip]
    rw [length_take, length_take]
    omega
  have hspends := debitAll_spends _ (hsnd.symm ▸ hcovered)
  rw [hsnd] at hspends
  exact h.trans hspends

lemma runNative_kept (entry : JitBlockEntry) (executionCount : Nat) (hcharges : r.charges = [])
    (h : r.Kept start) : (runNative settings committed entry executionCount r).1.Kept start := by
  have hstart : Spends start r.budget [] := hcharges ▸ h
  unfold runNative
  split
  · exact h
  rename_i function prefixCount _
  dsimp only
  split_ifs
  · exact h
  · exact h
  · exact settleNative_kept entry _ (nativeCharges_length _ _)
      (runNativeInsts_covered _ function false _ rfl (Nat.zero_le _)) hstart
  · exact h

/-! ## The kernel of a block -/

/-- A plan charges what it says, at least the table cost of each instruction,
and could still pay the refill of any of them if it were the last. -/
structure Planned (staged : ReversibleCycleBudget) (ops : List JitOp)
    (plan : List Nat × ReversibleCycleBudget × Bool) : Prop where
  spends : Spends staged plan.2.1 plan.1
  costs : List.Forall₂ (fun op charged => op.baseCycles ≤ charged) (ops.take plan.1.length) plan.1
  refill : ∀ k op, ops[k]? = some op → k < plan.1.length →
    (plan.1.take (k + 1)).sum + op.branchPenalty ≤ staged.remainingCycles.toNat

lemma Planned.nothing (staged : ReversibleCycleBudget) (ops : List JitOp) (stopped : Bool) :
    Planned staged ops ([], staged, stopped) :=
  ⟨.refl staged, by simp, fun _ _ _ h => by simp at h⟩

lemma planMicro_planned (ops : List JitOp) (staged : ReversibleCycleBudget) (pc : BitVec 32) :
    Planned staged ops (planMicro staged pc ops) := by
  induction ops generalizing staged pc with
  | nil => exact .nothing staged [] false
  | cons op rest ih =>
    unfold planMicro
    dsimp only
    split
    · exact .nothing staged _ false
    split
    · rename_i hadmits
      have hle := (admits_iff.mp hadmits).1
      have hfirst : Spends staged (staged.debit (op.baseCycles + staged.stallAt op.pc) op.nextPc)
          [op.baseCycles + staged.stallAt op.pc] := .debit (by omega) _
      split
      · refine ⟨hfirst, by simp, fun k op' hk hlt => ?_⟩
        obtain rfl : k = 0 := by simpa using hlt
        cases hk
        simp
        omega
      obtain ⟨hspends, hcosts, hrefill⟩ :=
        ih (staged.debit (op.baseCycles + staged.stallAt op.pc) op.nextPc) (plannedTarget op)
      refine ⟨hfirst.trans hspends, ?_, fun k op' hk hlt => ?_⟩
      · simpa using hcosts
      · cases k with
        | zero =>
          cases hk
          simp
          omega
        | succ k =>
          have hrest := hrefill k op' hk (by simpa using hlt)
          rw [debit_remaining (by omega)] at hrest
          simp
          omega
    · exact .nothing staged _ true

variable {staged : ReversibleCycleBudget}

lemma Planned.of_take
    {plan : List Nat × ReversibleCycleBudget × Bool} (h : Planned staged (ops.take n) plan) :
    Planned staged ops plan := by
  have hlength := h.costs.length_eq
  rw [take_take, length_take] at hlength
  refine ⟨h.spends, ?_, fun k op hk hlt => h.refill k op ?_ hlt⟩
  · have hcosts := h.costs
    rwa [take_take, min_eq_left (by omega)] at hcosts
  · rw [getElem?_take, if_pos (by omega)]
    exact hk

lemma refillLast_sum (penalty : Nat) {l : List Nat} (h : l ≠ []) :
    (refillLast penalty l).sum = l.sum + penalty := by
  induction l with
  | nil => exact absurd rfl h
  | cons x rest ih =>
    cases rest with
    | nil => simp [refillLast]
    | cons y rest =>
      have hrest := ih (by simp)
      rw [refillLast, sum_cons, hrest]
      · simp only [sum_cons]
        omega
      · simp

lemma failedAdjusts_length (i : Nat) (ops : List JitOp) :
    (failedAdjusts failed i ops).length = ops.length := by
  induction ops generalizing i with
  | nil => rfl
  | cons op rest ih => simp [failedAdjusts, ih]

/-- What is given back for failed branches was charged before. -/
lemma failedAdjusts_sum (i : Nat)
    (h : List.Forall₂ (fun op charged => op.baseCycles ≤ charged) ops charges) :
    (charges.zipWith (· - ·) (failedAdjusts failed i ops)).sum +
      (failedAdjusts failed i ops).sum = charges.sum := by
  induction h generalizing i with
  | nil => rfl
  | @cons op charged ops charges hle _ ih =>
    have hrest := ih (i + 1)
    simp [failedAdjusts]
    split <;> omega

lemma toNat_add_refund {x : BitVec 64} (h : x.toNat + n < 2 ^ 64) :
    (x + BitVec.ofNat 64 n).toNat = x.toNat + n := by
  rw [BitVec.toNat_add, BitVec.toNat_ofNat, Nat.mod_eq_of_lt (a := n) (by omega),
    Nat.mod_eq_of_lt h]

variable {retired : Nat}

/-- Settling a plan charges the retired instructions and gives the rest back. -/
lemma settleMicro_kept {entry : List JitOp} {planned : List Nat}
    {stopped : Bool} {last : JitOp} (s : CpuState)
    (hplan : Planned r.budget entry (planned, staged, stopped))
    (hretired : retired ≤ planned.length) (hlast : (entry.take retired).getLast? = some last)
    (h : Spends start r.budget []) :
    (settleMicro failed (entry.take retired) last planned staged s r).Kept start := by
  obtain ⟨hspends, hcosts, hrefill⟩ := hplan
  dsimp only at hspends hcosts hrefill
  have hlength : (entry.take retired).length = retired := by
    have hsame := hcosts.length_eq
    rw [length_take] at hsame ⊢
    omega
  have hpos : 0 < retired := by
    rw [← hlength]
    exact List.length_pos_iff.mpr fun hnil => by simp [hnil] at hlast
  have hcosts : List.Forall₂ (fun op charged => op.baseCycles ≤ charged) (entry.take retired)
      (planned.take retired) := by
    have htake := forall₂_take retired hcosts
    rwa [take_take, min_eq_left hretired] at htake
  have hadjust := failedAdjusts_sum failed 0 hcosts
  have hpay : (planned.take retired).sum + last.branchPenalty ≤ r.budget.remainingCycles.toNat := by
    have hat : entry[retired - 1]? = some last := by
      rw [getLast?_eq_getElem?, hlength, getElem?_take] at hlast
      exact (by simpa using hlast : _ ∧ _).2
    have hrest := hrefill (retired - 1) last hat (by omega)
    rwa [Nat.sub_add_cancel hpos] at hrest
  have hsplit := sum_take_add_sum_drop planned retired
  have hleft := hspends.left
  -- the kernel left the sequence or it did not
  generalize hpenalty : (if s.pc ≠ last.nextPc then last.branchPenalty else 0) = penalty
  have hle : penalty ≤ last.branchPenalty := by
    rw [← hpenalty]
    split <;> omega
  have hzip : (planned.take retired).zipWith (· - ·) (failedAdjusts failed 0 (entry.take retired)) ≠
      [] := by
    refine ne_nil_of_length_pos ?_
    rw [length_zipWith, failedAdjusts_length, hlength, length_take]
    omega
  refine Spends.trans h ?_
  unfold settleMicro
  rw [hpenalty, hlength]
  constructor
  · rw [refillLast_sum penalty hzip]
    omega
  · rw [refillLast_sum penalty hzip]
    have hover : (staged.remainingCycles +
        BitVec.ofNat 64 (failedAdjusts failed 0 (entry.take retired)).sum).toNat = _ :=
      toNat_add_refund (by omega)
    have htail : (staged.remainingCycles +
        BitVec.ofNat 64 (failedAdjusts failed 0 (entry.take retired)).sum +
        BitVec.ofNat 64 (planned.drop retired).sum).toNat = _ := toNat_add_refund (by omega)
    rw [toNat_sub_charge (by omega), htail, hover]
    omega

variable {entry : JitBlockEntry}

/-- The kernel of a block keeps to the credit whatever it answers. -/
lemma runPlannedMicro_kept {executionCount : Nat} {r' : BlockRun δ}
    (h : r.Kept start) (hrun : runPlannedMicro entry executionCount r = some r') :
    r'.Kept start := by
  unfold runPlannedMicro at hrun
  split at hrun
  · cases hrun
    exact h
  rename_i function prefixCount _
  dsimp only at hrun
  split at hrun
  · cases hrun
    exact h
  rename_i hguard
  have hnone : r.charges = [] := by
    simp at hguard
    exact eq_nil_of_length_eq_zero hguard.2
  have hplan := (planMicro_planned (entry.ops.take
    (min (min executionCount entry.ops.length) prefixCount)) r.budget r.machine.cpu.pc).of_take
  generalize planMicro r.budget r.machine.cpu.pc (entry.ops.take
    (min (min executionCount entry.ops.length) prefixCount)) = plan at hrun hplan
  obtain ⟨planned, staged, stopped⟩ := plan
  split at hrun
  · cases hrun
  split at hrun
  · cases hrun
  rename_i hretired
  split at hrun
  · cases hrun
  rename_i last hlast
  simp at hretired
  have hsettled : ∀ failed s, (settleMicro failed _ last planned staged s r).Kept start :=
    fun failed s => settleMicro_kept failed s hplan hretired.2 hlast (hnone ▸ h)
  split at hrun <;> cases hrun <;> exact hsettled _ _

/-! ## A whole block -/

lemma concludeBlock_spends (entry : JitBlockEntry) (e : HandlersEnd) (h : r.Kept start) :
    (concludeBlock entry r e).1.Keeps start := by
  unfold concludeBlock
  split <;> exact h

lemma executeTrustedReversibleJitBlock_spends
    (hops : ∀ op ∈ entry.ops, op.Prepared) (slot : ReversibleSlot δ) (maxInstructions : Nat)
    (budget : ReversibleCycleBudget) (m : Machine δ) :
    (executeTrustedReversibleJitBlock settings committed entry slot maxInstructions budget
      m).1.Keeps budget := by
  unfold executeTrustedReversibleJitBlock
  split
  · exact .refl budget
  dsimp only
  have hnative : (runNative settings committed entry (min maxInstructions entry.ops.length)
      { cachedLimit := min maxInstructions entry.ops.length, budget, machine := m,
        slot }).1.Kept budget :=
    runNative_kept settings committed entry _ rfl (.refl budget)
  split
  · rename_i r message heq
    rw [heq] at hnative
    exact hnative
  rename_i r heq
  rw [heq] at hnative
  split
  · exact hnative
  rename_i r' hmicro
  have hkept := runPlannedMicro_kept hnative hmicro
  exact concludeBlock_spends _ _ (runHandlers_kept
    (fun op hop => hops op (mem_of_mem_take (mem_of_mem_drop hop))) hkept)

/-! ## Traces -/

lemma chargedPrefix_mono (charges : List Nat) {k : Nat} (h : k ≤ n) :
    chargedPrefix charges k ≤ chargedPrefix charges n := by
  unfold chargedPrefix
  have hsplit := sum_take_add_sum_drop (charges.take n) k
  rw [take_take, min_eq_left h] at hsplit
  omega

lemma plannedPrefix_covered (charges : List Nat) (available credit : Nat) :
    chargedPrefix charges (plannedPrefix charges available credit) ≤ credit := by
  unfold plannedPrefix
  split
  · unfold upperBound
    generalize hfit : ((range (available + 1)).map (chargedPrefix charges)).takeWhile
      (fun v => decide (v ≤ credit)) = fit
    cases hlength : fit.length with
    | zero => simp [chargedPrefix]
    | succ k =>
      have hk : k < fit.length := by omega
      have hlast : fit[k] = chargedPrefix charges k := by
        have hfront : fit <+: (range (available + 1)).map (chargedPrefix charges) :=
          hfit ▸ takeWhile_prefix _
        rw [hfront.getElem hk, getElem_map, getElem_range]
      have hfits : chargedPrefix charges k ∈ fit := hlast ▸ getElem_mem hk
      rw [← hfit] at hfits
      have hle := mem_takeWhile_imp hfits
      exact of_decide_eq_true hle
  · omega

lemma modifyHead_sum {l : List Nat} (h : l ≠ []) (extra : Nat) :
    (l.modifyHead (· + extra)).sum = l.sum + extra := by
  cases l with
  | nil => exact absurd rfl h
  | cons x rest =>
    simp
    omega

variable {budget : ReversibleCycleBudget}

lemma trace_spends {extra planned : Nat}
    (hextra : extra ≤ budget.remainingCycles.toNat)
    (hplanned : chargedPrefix charges planned ≤ budget.remainingCycles.toNat - extra)
    (hretired : retired ≤ planned) (hsome : charges.take retired ≠ []) (next : BitVec 32) :
    Spends budget (budget.debit (chargedPrefix charges retired + extra) next)
      ((charges.take retired).modifyHead (· + extra)) := by
  have hle := chargedPrefix_mono charges hretired
  have hcovered : chargedPrefix charges retired + extra ≤ budget.remainingCycles.toNat := by omega
  unfold chargedPrefix at hcovered ⊢
  constructor <;> rw [modifyHead_sum hsome]
  · exact hcovered
  · rw [debit_remaining hcovered]
    omega

lemma traceCharges_take (timing : FetchTiming) (plan : NativeTracePlan δ) (h : n ≠ 0) :
    (traceCharges timing plan).take n ≠ [] := by
  cases n with
  | zero => exact absurd rfl h
  | succ n => simp [traceCharges]

lemma executeNativeTrace_spends (detailed : Bool) (entry : NativeTraceEntry δ)
    (plan : NativeTracePlan δ) (maxInstructions : Nat) (budget : ReversibleCycleBudget)
    (m : Machine δ) :
    (executeNativeTrace settings committed detailed entry plan maxInstructions budget
      m).1.Keeps budget := by
  unfold executeNativeTrace
  dsimp only
  split
  · exact .refl budget
  rename_i hguard
  simp at hguard
  split
  · exact .refl budget
  split
  · exact .refl budget
  rename_i hretired
  split
  · exact .refl budget
  rename_i last hlast
  refine trace_spends hguard.1.2 (plannedPrefix_covered _ _ _) (not_lt.mp hretired)
    (traceCharges_take _ plan fun hzero => ?_) last.fetchEnd
  rw [hzero] at hlast
  cases hlast

/-! ## Entry points -/

variable {caches : ReversibleCaches δ} (env : Environment δ) (settings : NativeSettings)
  (compilers : Compilers δ)

lemma prepareReversible_prepared (h : caches.jit.Prepared) (m : Machine δ) :
    (prepareReversible settings compilers caches m).2.jit.Prepared := by
  have hjit := h.prepareJitBlock compilers.micro true m
  unfold prepareReversible
  dsimp only
  split <;> exact hjit

lemma executeNativeTrace_declined {settings : NativeSettings} {committed detailed : Bool}
    {entry : NativeTraceEntry δ} {plan : NativeTracePlan δ} {maxInstructions : Nat}
    {m : Machine δ}
    (h : (executeNativeTrace settings committed detailed entry plan maxInstructions budget
      m).1.settled = false) :
    (executeNativeTrace settings committed detailed entry plan maxInstructions budget
      m).1.charges = [] := by
  unfold executeNativeTrace at h ⊢
  dsimp only at h ⊢
  split at h
  · rename_i hguard
    rw [if_pos hguard]
  rename_i hguard
  rw [if_neg hguard]
  split at h
  · rename_i hplanned
    rw [if_pos hplanned]
  rename_i hplanned
  rw [if_neg hplanned]
  split at h
  · cases h
  rename_i hretired
  rw [if_neg hretired]
  split at h
  · rfl
  unfold Spent.settled settleTrace at h
  dsimp only at h
  split at h <;> cases h

lemma traceIf_spends (tried : Bool) (settings : NativeSettings) (compilers : Compilers δ)
    (committed detailed : Bool) (caches : ReversibleCaches δ) (maxInstructions : Nat)
    (budget : ReversibleCycleBudget) (m : Machine δ) :
    (traceIf tried settings compilers committed detailed caches maxInstructions budget m).2.jit =
        caches.jit ∧
      (traceIf tried settings compilers committed detailed caches maxInstructions budget
        m).1.Keeps budget ∧
      ((traceIf tried settings compilers committed detailed caches maxInstructions budget
          m).1.settled = false →
        (traceIf tried settings compilers committed detailed caches maxInstructions budget
          m).1.charges = []) := by
  unfold traceIf
  split
  · unfold tryStepNativeTrace
    split
    · exact ⟨rfl, .refl budget, fun _ => rfl⟩
    dsimp only
    split
    · exact ⟨rfl, .refl budget, fun _ => rfl⟩
    · exact ⟨rfl, executeNativeTrace_spends _ _ _ _ _ _ _ _, executeNativeTrace_declined⟩
  · exact ⟨rfl, .refl budget, fun _ => rfl⟩

lemma blockOrFallback_spends (committed : Bool) (h : caches.jit.Prepared) (maxInstructions : Nat)
    (budget : ReversibleCycleBudget) (m : Machine δ) :
    (blockOrFallback env settings compilers committed caches maxInstructions budget
      m).1.Keeps budget := by
  have hjit := prepareReversible_prepared settings compilers h m
  unfold blockOrFallback
  dsimp only
  split
  · exact executeTrustedReversibleJitBlock_spends _ _ (hjit _) _ _ _ _
  · exact tryStepItScalarFallback_spends env budget m

lemma tryStepBudgetedReversibleJitBlock_spends (committed detailed tryNativeTrace : Bool)
    (h : caches.jit.Prepared) (maxInstructions : Nat) (budget : ReversibleCycleBudget)
    (m : Machine δ) :
    (tryStepBudgetedReversibleJitBlock env settings compilers committed detailed tryNativeTrace
      caches maxInstructions budget m).1.Keeps budget := by
  unfold tryStepBudgetedReversibleJitBlock
  dsimp only
  split
  · exact .refl budget
  split
  · exact tryStepItScalarFallback_spends env budget m
  generalize (detailed && tryNativeTrace && settings.nativeMemoryJitEnabled
    && budget.fetchStall.isNone) = tried
  obtain ⟨hjit, htrace, hdeclined⟩ :=
    traceIf_spends tried settings compilers false true caches maxInstructions budget m
  split
  · exact htrace
  rename_i hopen
  exact htrace.behind (hdeclined (by simpa using hopen))
    (blockOrFallback_spends env settings compilers committed (hjit.symm ▸ h) maxInstructions _ _)

lemma finishItBlock_spends (fuel : Nat) {spent : Spent δ} (h : spent.Keeps start) :
    (finishItBlock env fuel spent).Keeps start := by
  induction fuel generalizing spent with
  | zero => exact h
  | succ fuel ih =>
    have hnext := tryStepItScalarFallback_spends env spent.budget spent.machine
    unfold finishItBlock
    dsimp only
    split
    · split
      · rename_i hnone
        rw [tryStepItScalarFallback_declined hnone] at hnext
        have hboth := h.trans hnext
        rwa [append_nil] at hboth
      · exact ih (h.trans hnext)
    · exact h

lemma tryStepCommittedRamSpan_spends (h : caches.jit.Prepared) (maxInstructions : Nat)
    (budget : ReversibleCycleBudget) (m : Machine δ) :
    (tryStepCommittedRamSpan env settings compilers caches maxInstructions budget
      m).1.Keeps budget := by
  unfold tryStepCommittedRamSpan
  dsimp only
  split
  · exact .refl budget
  generalize (!inItBlock m.cpu.itState && settings.nativeMemoryJitEnabled) = tried
  obtain ⟨hjit, htrace, hdeclined⟩ :=
    traceIf_spends tried settings compilers true false caches maxInstructions budget m
  generalize traceIf tried settings compilers true false caches maxInstructions budget m = first
    at hjit htrace hdeclined
  obtain ⟨spent, caches'⟩ := first
  split
  · exact htrace
  rename_i hopen
  have hnone := hdeclined (by simpa using hopen)
  generalize hnext : (if inItBlock spent.machine.cpu.itState then _ else _ :
    Spent δ × ReversibleCaches δ) = next
  have hspends : next.1.Keeps budget := by
    rw [← hnext]
    refine htrace.behind hnone ?_
    split
    · exact tryStepItScalarFallback_spends env _ _
    · exact tryStepBudgetedReversibleJitBlock_spends env settings compilers _ _ _
        (hjit.symm ▸ h) maxInstructions _ _
  split
  · exact hspends
  · exact finishItBlock_spends env _ hspends

end Runs

/-- Blocks, traces, spans and fallbacks never overspend their budget. A checked
single step overspends it exactly where the instruction at the PC is admitted at
a cost that leaves out the refill it turns out to need. -/
theorem budgets_are_kept_but_for_a_mispredicted_refill (env : Environment δ)
    (settings : NativeSettings) (compilers : Compilers δ) (caches : ReversibleCaches δ)
    (hjit : caches.jit.Prepared) (budget : ReversibleCycleBudget) (m : Machine δ) :
    (tryStepItScalarFallback env budget m).Keeps budget ∧
    (∀ committed index slot maxInstructions, (executeTrustedReversibleJitBlock settings committed
      (caches.jit.blocks index) slot maxInstructions budget m).1.Keeps budget) ∧
    (∀ committed detailed entry plan maxInstructions, (executeNativeTrace settings committed
      detailed entry plan maxInstructions budget m).1.Keeps budget) ∧
    (∀ committed detailed tryNativeTrace maxInstructions, (tryStepBudgetedReversibleJitBlock env
      settings compilers committed detailed tryNativeTrace caches maxInstructions budget
        m).1.Keeps budget) ∧
    (∀ maxInstructions, (tryStepCommittedRamSpan env settings compilers caches maxInstructions
      budget m).1.Keeps budget) ∧
    ((tryStepCheckedSingle env budget m).Keeps budget ↔
      ∀ raw size d, fetchDecode m.cpu.pc m.bus = some (raw, size, d) →
        ¬OutrunsCredit budget m size d) :=
  ⟨tryStepItScalarFallback_spends env budget m,
    fun _ index _ _ => executeTrustedReversibleJitBlock_spends settings _ (hjit index) _ _ budget m,
    fun _ _ _ _ _ => executeNativeTrace_spends settings _ _ _ _ _ budget m,
    fun _ _ _ _ => tryStepBudgetedReversibleJitBlock_spends env settings compilers _ _ _ hjit _
      budget m,
    fun _ => tryStepCommittedRamSpan_spends env settings compilers hjit _ budget m,
    tryStepCheckedSingle_spends_iff env budget m⟩

/-- Generated code for a block: the handlers of its instructions. -/
def handlerCode (ops : List JitOp) : NativeFunction δ :=
  ops.map fun op =>
    { body := fun _ _ m =>
        let h := executeJitFast op.decoded op.fast op.pc (entered m.cpu op.size) m.bus
        if h.handled then (.committed false, { m with cpu := h.cpu, bus := h.bus })
        else (.left .helperDeclined, m) }

/-- Two literal loads and a branch, at a hot address. -/
def loadsMachine : Machine Unit :=
  ⟨resetState, { smallBoard [0x4800, 0x4800, 0xe7fe] with
    reversibleRamOnly := true, trapAllMmio := true }, {}⟩

/-- The block is prepared with its generated code. A credit of five covers the two
loads, and the refill of the branch is not covered. -/
theorem two_loads_of_a_prepared_block_are_covered :
    let compilers : Compilers Unit :=
      ⟨fun _ => none, fun ops => some (handlerCode ops, 2), fun _ _ => none⟩
    let caches : ReversibleCaches Unit := { jit := { hot := fun _ => jitCompileThreshold } }
    let spent := tryStepBudgetedReversibleJitBlock plainEnvironment {} compilers false false false
      caches 16 { remainingCycles := 5 } loadsMachine
    caches.jit.Prepared ∧ spent.1.charges = [2, 2] ∧ spent.1.budget.remainingCycles = 1 ∧
      (spent.2.slots (jitBlockIndex 0x08000000)).native.isSome ∧
      spent.1.Keeps { remainingCycles := 5 } := by
  have hprepared : ({ hot := fun _ => jitCompileThreshold } : JitCache).Prepared :=
    fun _ _ h => by cases h
  exact ⟨hprepared, by decide +kernel, by decide +kernel, by decide +kernel,
    (budgets_are_kept_but_for_a_mispredicted_refill plainEnvironment {} _ _ hprepared _
      loadsMachine).2.2.2.1 false false false 16⟩

/-- A taken CBZ behind a NOP looks like a fall-through from the address of the
NOP. It is admitted on the last cycle of the credit, and the counter wraps. -/
theorem a_compare_and_branch_wraps_the_counter :
    let m : Machine Unit := ⟨resetState, smallBoard [0xbf00, 0xb100], {}⟩
    let first := tryStepCheckedSingle plainEnvironment { remainingCycles := 2 } m
    let second := tryStepCheckedSingle plainEnvironment first.budget first.machine
    first.charges = [1] ∧ second.charges = [2] ∧
      second.budget.remainingCycles = 0xffffffffffffffff := by
  decide

end Fil.Cpu
