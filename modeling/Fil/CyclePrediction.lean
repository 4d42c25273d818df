-- How far the cost of the next instruction is known before it executes. The
-- predictor works out branch targets from the state before the instruction and
-- with its own code. It is wrong for three forms: a compare-and-branch is judged by
-- the address of the instruction before, and so is a branch to the PC itself, and
-- ADD to the PC is taken for arithmetic.
import Fil.StepCredit

open Dialogue Fil.Mem
open BitVec (ofNat)

namespace Fil.Cpu

variable {δ : Type} {env : Environment δ} {size : Nat} {d : DecodedInstruction} {m : Machine δ}

def peekCycleUpperBound (m : Machine δ) : Option Nat := peekPipelineCycles true m

/-! ## What is charged -/

lemma conclude_failed {i : StepInstruction} {done : Executed} {b : MemoryBus δ}
    (h : done.reason ≠ .stepComplete) (hone : (conclude i m done b).1.instructions = 1) :
    (conclude i m done b).1.cycles =
      if passes i.decoded m.cpu then executedCycles i m.cpu else 1 := by
  unfold conclude at hone ⊢
  rw [if_neg h] at hone ⊢
  by_cases hback : done.reason = .synchronizationRequired ∧ (i.mayTrap && m.bus.mmioTrapping) = true
  · rw [if_pos hback] at hone
    cases hone
  · rw [if_neg hback]
    exact if_neg fun hand => h hand.2.1

variable {raw : BitVec 32}

/-- A step that is not taken back costs its table cost, and a refill if it left the
sequence. -/
lemma stepFast_cycles (hat : StandsAt raw size d m)
    (hone : (stepFast env m).1.instructions = 1) :
    (passes d m.cpu = false → (stepFast env m).1.cycles = 1) ∧
    (passes d m.cpu = true → LeavesSequence env size d m →
      (stepFast env m).1.cycles =
        executedCycles (prepare raw size d) m.cpu + takenBranchPenalty d.kind) ∧
    (passes d m.cpu = true → ¬LeavesSequence env size d m →
      (stepFast env m).1.cycles = executedCycles (prepare raw size d) m.cpu) := by
  rw [stepFast_of_fetchDecode hat, retireChecked_eq] at hone ⊢
  by_cases hc : (reference env size d m).1.reason = .stepComplete
  · obtain ⟨-, -, -, hcycles⟩ := conclude_complete (i := prepare raw size d) (m := m)
      (b := (reference env size d m).2) hc
    rw [hcycles]
    refine ⟨fun hfail => ?_, fun hpass hleaves => ?_, fun hpass hstays => ?_⟩
    · exact if_neg (Bool.eq_false_iff.mp hfail)
    · exact (if_pos hpass).trans (if_pos hleaves.2)
    · exact (if_pos hpass).trans (if_neg fun hne => hstays ⟨hc, hne⟩)
  · rw [conclude_failed hc hone]
    refine ⟨fun hfail => ?_, fun _ hleaves => absurd hleaves.1 hc, fun hpass _ => if_pos hpass⟩
    exact if_neg (Bool.eq_false_iff.mp hfail)

lemma conclude_idle {i : StepInstruction} {done : Executed} {b : MemoryBus δ}
    (h : (conclude i m done b).1.instructions ≠ 1) : (conclude i m done b).1.cycles = 0 := by
  unfold conclude at h ⊢
  by_cases hc : done.reason = .stepComplete
  · rw [if_pos hc] at h
    exact absurd rfl h
  rw [if_neg hc] at h ⊢
  by_cases hback : done.reason = .synchronizationRequired ∧ (i.mayTrap && m.bus.mmioTrapping) = true
  · rw [if_pos hback]
  · rw [if_neg hback] at h
    exact absurd rfl h

lemma stepFast_idle (h : (stepFast env m).1.instructions ≠ 1) :
    (stepFast env m).1.cycles = 0 := by
  unfold stepFast stepFastImpl at h ⊢
  dsimp only at h ⊢
  split_ifs at h ⊢
  · rfl
  · rfl
  split at h
  · rfl
  · rfl
  · exact conclude_idle h

/-! ## What is predicted -/

/-- The forms for which the prediction is wrong. A compare-and-branch that is taken is
judged by a target that is the next instruction when its own is not, or the other way
around. A branch to the PC is judged by an odd address and then refused. ADD to the PC
is predicted without a refill. -/
def Misjudged (size : Nat) (d : DecodedInstruction) (m : Machine δ) : Prop :=
  let s := m.cpu
  let next := s.pc + BitVec.ofNat 32 size
  let stale := s.architecturalPcForRead
  match d.kind with
  | .cbz | .cbnz =>
    compareTaken d s = true ∧ ¬((stale + d.imm) &&& ~~~1 ≠ next ↔ compareTarget d s ≠ next)
  | .bx | .blx =>
    d.rm = 15 ∧ ¬(d.kind = .bx ∧ isExceptionReturn stale) ∧ stale &&& 1 ≠ 0 ∧ stale &&& ~~~1 ≠ next
  | .add => d.rd = 15 ∧ addSum d (entered s size) &&& ~~~1 ≠ next
  | _ => False

/-- A compare-and-branch that is taken although the target it is judged by is the next
instruction. -/
structure Undershot (size : Nat) (d : DecodedInstruction) (s : CpuState) : Prop where
  kind : d.kind = .cbz ∨ d.kind = .cbnz
  high : d.ra ≠ 15
  taken : compareTaken d s = true
  judged : (s.architecturalPcForRead + d.imm) &&& ~~~1 = s.pc + BitVec.ofNat 32 size
  leaves : compareTarget d s ≠ s.pc + BitVec.ofNat 32 size

/-- What cannot move the PC is predicted at its cost. -/
lemma predicted_of_still (upper : Bool) (raw : BitVec 32) (h : movesPc d = false)
    (s : CpuState) :
    predictedCycles upper d size s = some (executedCycles (prepare raw size d) s) := by
  rw [executedCycles_eq]
  unfold predictedCycles
  split <;> rename_i hk
  case h_7 | h_8 => rw [hk, if_pos (by decide)]
  case h_9 =>
    unfold divideForm
    simp_all
  all_goals
    unfold movesPc at h
    rw [hk] at h
    cases h

lemma not_misjudged_of_still (h : movesPc d = false) : ¬Misjudged size d m := by
  unfold movesPc at h
  unfold Misjudged
  split at h <;> simp_all

lemma takenBranchPenalty_pos (kind : InstrKind) : 0 < takenBranchPenalty kind := by
  unfold takenBranchPenalty
  split <;> decide

section Judged

variable {raw : BitVec 32} {cycles : Nat} (hat : StandsAt raw size d m)
  (hpass : passes d m.cpu = true) (hone : (stepFast env m).1.instructions = 1)

include hat hpass hone

/-- An instruction that may leave the sequence, predicted by a judgement of its own:
the prediction is right if the judgement is. -/
lemma cycles_eq_iff (judged : Prop) [Decidable judged] (hmoves : movesPc d = true)
    (hpred : cycles = if judged then basePipelineCycles d + takenBranchPenalty d.kind
      else basePipelineCycles d) :
    (stepFast env m).1.cycles = cycles ↔ (judged ↔ LeavesSequence env size d m) := by
  obtain ⟨-, hrefilled, hstill⟩ := stepFast_cycles hat hone
  have hpos := takenBranchPenalty_pos d.kind
  rw [executedCycles_of_movesPc hmoves] at hrefilled hstill
  by_cases hleaves : LeavesSequence env size d m
  · rw [hrefilled hpass hleaves]
    split at hpred
    · rename_i hj
      exact ⟨fun _ => ⟨fun _ => hleaves, fun _ => hj⟩, fun _ => hpred.symm⟩
    · rename_i hj
      exact ⟨fun h => by omega, fun h => absurd (h.mpr hleaves) hj⟩
  · rw [hstill hpass hleaves]
    split at hpred
    · rename_i hj
      exact ⟨fun h => by omega, fun h => absurd (h.mp hj) hleaves⟩
    · rename_i hj
      exact ⟨fun _ => ⟨fun h => absurd h hj, fun h => absurd h hleaves⟩, fun _ => hpred.symm⟩

variable (hpred : predictedCycles false d size m.cpu = some cycles)
include hpred

lemma exchange_predicted_iff (hk : d.kind = .bx ∨ d.kind = .blx) :
    (stepFast env m).1.cycles = cycles ↔ ¬Misjudged size d m := by
  have hmoves : movesPc d = true := by
    unfold movesPc
    rcases hk with hk | hk <;> rw [hk]
  have hmis : Misjudged size d m ↔ d.rm = 15 ∧
      ¬(d.kind = .bx ∧ isExceptionReturn m.cpu.architecturalPcForRead) ∧
      m.cpu.architecturalPcForRead &&& 1 ≠ 0 ∧
      m.cpu.architecturalPcForRead &&& ~~~1 ≠ m.cpu.pc + ofNat 32 size := by
    unfold Misjudged
    rcases hk with hk | hk <;> rw [hk]
  have hpred' : (if d.kind = .bx ∧ isExceptionReturn (m.cpu.readRegister d.rm) then
        some (basePipelineCycles d)
      else if m.cpu.readRegister d.rm &&& 1 = 0 then none
      else some (if m.cpu.readRegister d.rm &&& ~~~1 ≠ m.cpu.pc + ofNat 32 size then
        basePipelineCycles d + takenBranchPenalty d.kind else basePipelineCycles d)) =
      some cycles := by
    rw [← hpred]
    unfold predictedCycles
    rcases hk with hk | hk <;> rw [hk] <;> rfl
  rw [hmis]
  by_cases hrm : d.rm = 15
  · -- the predictor reads another value than the branch, which is refused
    have hstays : ¬LeavesSequence env size d m := not_leaves_of_pc hpass hk (pc_even hat.runs) hrm
    have hread : m.cpu.readRegister d.rm = m.cpu.architecturalPcForRead := by
      rw [hrm]
      rfl
    rw [hread] at hpred'
    split_ifs at hpred' with hexc heven hfar <;> cases hpred'
    · exact (cycles_eq_iff hat hpass hone False hmoves rfl).trans
        ⟨fun _ h => h.2.1 hexc, fun _ => ⟨False.elim, fun h => hstays h⟩⟩
    · exact (cycles_eq_iff hat hpass hone True hmoves rfl).trans
        ⟨fun h => absurd (h.mp trivial) hstays, fun h => absurd ⟨hrm, hexc, heven, hfar⟩ h⟩
    · exact (cycles_eq_iff hat hpass hone False hmoves rfl).trans
        ⟨fun _ h => hfar h.2.2.2, fun _ => ⟨False.elim, fun h => hstays h⟩⟩
  · have hleaves := leaves_exchange hpass env size hk
    rw [readRegister_entered hrm] at hleaves
    refine ⟨fun _ h => hrm h.1, fun _ => ?_⟩
    split_ifs at hpred' with hexc heven hfar <;> cases hpred'
    · exact (cycles_eq_iff hat hpass hone False hmoves rfl).mpr
        ⟨False.elim, fun h => (hleaves.mp h).1 hexc⟩
    · exact (cycles_eq_iff hat hpass hone True hmoves rfl).mpr
        ⟨fun _ => hleaves.mpr ⟨hexc, heven, hfar⟩, fun _ => trivial⟩
    · exact (cycles_eq_iff hat hpass hone False hmoves rfl).mpr
        ⟨False.elim, fun h => hfar (hleaves.mp h).2.2⟩

lemma compare_predicted_iff (hk : d.kind = .cbz ∨ d.kind = .cbnz) :
    (stepFast env m).1.cycles = cycles ↔ ¬Misjudged size d m := by
  have hmoves : movesPc d = true := by
    unfold movesPc
    rcases hk with hk | hk <;> rw [hk]
  have hrn := (fetchDecode_decoded hat.fetched).wellformed.compared hk
  have hcycles := compare_predicted hk hpred
  have hmis : Misjudged size d m ↔ compareTaken d m.cpu = true ∧
      ¬((m.cpu.architecturalPcForRead + d.imm) &&& ~~~1 ≠ m.cpu.pc + ofNat 32 size ↔
        compareTarget d m.cpu ≠ m.cpu.pc + ofNat 32 size) := by
    unfold Misjudged
    rcases hk with hk | hk <;> rw [hk]
  rw [cycles_eq_iff hat hpass hone _ hmoves hcycles, hmis, leaves_compare hpass hk hrn]
  by_cases htaken : compareTaken d m.cpu = true
  · simp [htaken]
  · exact ⟨fun _ h => htaken h.1, fun _ => ⟨fun h => absurd h.1 htaken, fun h => absurd h.1 htaken⟩⟩

lemma arithmetic_predicted_iff (hmoves : movesPc d = true)
    (hbase : predictedCycles false d size m.cpu = some (basePipelineCycles d)) :
    (stepFast env m).1.cycles = cycles ↔ ¬LeavesSequence env size d m := by
  rw [hbase] at hpred
  rw [cycles_eq_iff hat hpass hone False hmoves (Option.some.inj hpred).symm, false_iff]

lemma predicted_iff (hload : loadedTarget d = false) :
    (stepFast env m).1.cycles = cycles ↔ ¬Misjudged size d m := by
  have hd := (fetchDecode_decoded hat.fetched).wellformed
  cases hmoves : movesPc d with
  | false =>
    obtain ⟨-, -, hstill⟩ := stepFast_cycles hat hone
    rw [predicted_of_still false raw hmoves] at hpred
    rw [hstill hpass fun h => by rw [h.movesPc hd hpass] at hmoves; cases hmoves]
    exact ⟨fun _ => not_misjudged_of_still hmoves, fun _ => Option.some.inj hpred⟩
  | true =>
    have hcases : (d.kind = .b ∨ d.kind = .bl) ∨ (d.kind = .bx ∨ d.kind = .blx) ∨
        (d.kind = .cbz ∨ d.kind = .cbnz) ∨ (d.kind = .add ∧ d.rd = 15) := by
      unfold movesPc at hmoves
      unfold loadedTarget at hload
      split at hmoves <;> simp_all
    rcases hcases with hk | hk | hk | ⟨hk, hrd⟩
    · have hmis : ¬Misjudged size d m := by
        unfold Misjudged
        rcases hk with hk | hk <;> rw [hk] <;> exact not_false
      refine ⟨fun _ => hmis, fun _ => ?_⟩
      refine (cycles_eq_iff hat hpass hone _ hmoves ?_).mpr (leaves_branch hpass hk).symm
      unfold predictedCycles at hpred
      rcases hk with hk | hk <;> rw [hk] at hpred ⊢ <;> exact (Option.some.inj hpred).symm
    · exact exchange_predicted_iff hat hpass hone hpred hk
    · exact compare_predicted_iff hat hpass hone hpred hk
    · rw [arithmetic_predicted_iff hat hpass hone hpred hmoves
        (by unfold predictedCycles; rw [hk]), leaves_add hpass hk hrd]
      unfold Misjudged
      rw [hk]
      simp [hrd]

end Judged

/-! ## The bound -/

lemma peekCycleUpperBound_eq
    (hat : StandsAt raw size d m) :
    peekCycleUpperBound m =
      if !passes d m.cpu then some 1
      else if divideForm d.kind then some (divideCycles (m.cpu.readRegister d.rm))
      else if loadedTarget d || d.rd = 15 || d.ra = 15 || (d.writeback && d.rn = 15) then
        some (basePipelineCycles d + takenBranchPenalty d.kind)
      else predictedCycles true d size m.cpu := by
  unfold peekCycleUpperBound peekPipelineCycles
  dsimp only
  rw [hat.runs, hat.fetched, passes_eq]
  simp

section

variable (env : Environment δ) (hat : StandsAt raw size d m) (hpass : passes d m.cpu = true)
include hat hpass

lemma stepFast_cycles_le :
    (stepFast env m).1.cycles ≤
      executedCycles (prepare raw size d) m.cpu + takenBranchPenalty d.kind := by
  by_cases hone : (stepFast env m).1.instructions = 1
  · obtain ⟨-, hrefilled, hstill⟩ := stepFast_cycles hat hone
    by_cases hleaves : LeavesSequence env size d m
    · exact (hrefilled hpass hleaves).le
    · exact (hstill hpass hleaves).le.trans (Nat.le_add_right _ _)
  · rw [stepFast_idle hone]
    exact Nat.zero_le _

lemma stepFast_cycles_still (hstays : ¬LeavesSequence env size d m) :
    (stepFast env m).1.cycles ≤ executedCycles (prepare raw size d) m.cpu := by
  by_cases hone : (stepFast env m).1.instructions = 1
  · exact ((stepFast_cycles hat hone).2.2 hpass hstays).le
  · rw [stepFast_idle hone]
    exact Nat.zero_le _

end

/-- An instruction is retired unless the bus takes it back. -/
lemma stepFast_retired (hat : StandsAt raw size d m)
    (h : (reference env size d m).1.reason ≠ .synchronizationRequired) :
    (stepFast env m).1.instructions = 1 := by
  rw [stepFast_of_fetchDecode hat, retireChecked_eq]
  unfold conclude
  by_cases hc : (reference env size d m).1.reason = .stepComplete
  · rw [if_pos hc]
  · rw [if_neg hc, if_neg fun hand => h hand.1]

lemma LeavesSequence.retired
    (hat : StandsAt raw size d m) (h : LeavesSequence env size d m) :
    (stepFast env m).1.instructions = 1 := by
  refine stepFast_retired hat ?_
  rw [h.1]
  decide

lemma refill_bounded {cycles : Nat} (hd : Wellformed d) (heven : m.cpu.pc &&& 1 = 0)
    (hload : loadedTarget d = false) (hrd : d.rd ≠ 15) (hra : d.ra ≠ 15)
    (hpass : passes d m.cpu = true) (hpred : predictedCycles true d size m.cpu = some cycles)
    (hleaves : LeavesSequence env size d m) :
    cycles = basePipelineCycles d + takenBranchPenalty d.kind ∨
      (cycles = basePipelineCycles d ∧ Undershot size d m.cpu) := by
  have hmoves := hleaves.movesPc hd hpass
  have hcases : (d.kind = .b ∨ d.kind = .bl) ∨ (d.kind = .bx ∨ d.kind = .blx) ∨
      (d.kind = .cbz ∨ d.kind = .cbnz) := by
    unfold movesPc at hmoves
    unfold loadedTarget at hload
    split at hmoves <;> simp_all
  rcases refill_cases hd heven hcases hpass hpred hleaves with
    hrefilled | ⟨hbase, hk, htaken, hjudged, hfar⟩
  · exact .inl hrefilled
  · exact .inr ⟨hbase, hk, hra, htaken, hjudged, hfar⟩

lemma Undershot.bound (env : Environment δ) (hd : Wellformed d) (hpass : passes d m.cpu = true)
    (h : Undershot size d m.cpu) :
    LeavesSequence env size d m ∧ divideForm d.kind = false ∧
      (loadedTarget d || d.rd = 15 || d.ra = 15 || (d.writeback && d.rn = 15)) = false ∧
      predictedCycles true d size m.cpu = some (basePipelineCycles d) := by
  have hleaves : LeavesSequence env size d m :=
    (leaves_compare hpass h.kind (hd.compared h.kind)).mpr ⟨h.taken, h.leaves⟩
  have hrd : d.rd ≠ 15 := by
    intro h15
    rcases hd.destination h15 with he | he | he | he | he | he | he <;>
      rcases h.kind with hk | hk <;> rw [hk] at he <;> cases he
  have hbase := hd.compared h.kind
  have hhigh := h.high
  refine ⟨hleaves, ?_, ?_, ?_⟩
  · rcases h.kind with hk | hk <;> rw [hk] <;> rfl
  · unfold loadedTarget
    rcases h.kind with hk | hk <;> rw [hk] <;> simp [hrd, hbase, hhigh]
  · unfold predictedCycles
    rcases h.kind with hk | hk
    all_goals
      rw [hk]
      dsimp only
      rw [if_neg fun hand => hand.2 h.judged]

lemma bound_iff {cycles : Nat}
    (hat : StandsAt raw size d m) (hpass : passes d m.cpu = true)
    (hbound : peekCycleUpperBound m = some cycles) :
    (stepFast env m).1.cycles ≤ cycles ↔ ¬Undershot size d m.cpu := by
  have hd := (fetchDecode_decoded hat.fetched).wellformed
  rw [peekCycleUpperBound_eq hat, hpass] at hbound
  simp only [Bool.not_true, Bool.false_eq_true, if_false] at hbound
  constructor
  · intro hle hunder
    obtain ⟨hleaves, hdivide, hguard, hpred⟩ := hunder.bound env hd hpass
    rw [hdivide, hguard, hpred] at hbound
    simp only [Bool.false_eq_true, if_false, Option.some.injEq] at hbound
    have hcost := (stepFast_cycles hat (hleaves.retired hat)).2.1 hpass hleaves
    rw [executedCycles_of_movesPc (hleaves.movesPc hd hpass)] at hcost
    have hpos := takenBranchPenalty_pos d.kind
    omega
  · intro hunder
    have hcost := stepFast_cycles_le env hat hpass
    have hstill := stepFast_cycles_still env hat hpass
    split at hbound
    · rename_i hdivide
      rw [Option.some.injEq] at hbound
      rw [← hbound]
      refine (hstill fun hleaves => ?_).trans_eq ?_
      · have hmoves := hleaves.movesPc hd hpass
        unfold movesPc at hmoves
        unfold divideForm at hdivide
        split at hmoves <;> simp_all
      · rw [executedCycles_eq, if_pos hdivide]
    · rename_i hdivide
      have hbase : executedCycles (prepare raw size d) m.cpu = basePipelineCycles d := by
        rw [executedCycles_eq, if_neg hdivide]
      split at hbound
      · rw [Option.some.injEq] at hbound
        rw [hbase] at hcost
        exact hbound ▸ hcost
      · rename_i hguard
        have hle := executed_le_predicted raw hbound
        by_cases hleaves : LeavesSequence env size d m
        · simp only [Bool.or_eq_true, decide_eq_true_eq, not_or, Bool.not_eq_true] at hguard
          rcases refill_bounded hd (pc_even hat.runs) hguard.1.1.1 hguard.1.1.2 hguard.1.2 hpass hbound
            hleaves with hrefilled | ⟨-, hbad⟩
          · rw [hrefilled, ← hbase]
            exact hcost
          · exact absurd hbad hunder
        · exact (hstill hleaves).trans hle

/-! ## The law of the predictions -/

/-- The next instruction, if it can be looked at and executes. -/
structure NextExecutes (m : Machine δ) (size : Nat) (d : DecodedInstruction) : Prop where
  runs : (m.cpu.halted || invalidThumb m.cpu) = false
  fetched : ∃ raw, fetchDecode m.cpu.pc m.bus = some (raw, size, d)
  passes : passes d m.cpu = true

lemma runs_of_peek {upper : Bool} {cycles : Nat} (h : peekPipelineCycles upper m = some cycles) :
    ∃ raw size d, StandsAt raw size d m := by
  unfold peekPipelineCycles at h
  dsimp only at h
  cases hs : m.cpu.halted || invalidThumb m.cpu with
  | true =>
    rw [hs] at h
    cases h
  | false =>
    cases hf : fetchDecode m.cpu.pc m.bus with
    | none =>
      rw [hs, hf] at h
      cases h
    | some fetched => exact ⟨fetched.1, fetched.2.1, fetched.2.2, hs, hf⟩

lemma Misjudged.predicted (env : Environment δ)
    (hat : StandsAt raw size d m) (hpass : passes d m.cpu = true)
    (h : Misjudged size d m) :
    loadedTarget d = false ∧ (∃ cycles, predictedCycles false d size m.cpu = some cycles) ∧
      (stepFast env m).1.instructions = 1 := by
  have hcases : (d.kind = .cbz ∨ d.kind = .cbnz) ∨ (d.kind = .bx ∨ d.kind = .blx) ∨
      d.kind = .add := by
    unfold Misjudged at h
    split at h <;> simp_all
  unfold Misjudged at h
  rcases hcases with hk | hk | hk
  · refine ⟨?_, ?_, stepFast_retired hat ?_⟩
    · unfold loadedTarget
      rcases hk with hk | hk <;> rw [hk]
    · unfold predictedCycles
      rcases hk with hk | hk <;> rw [hk] <;> exact ⟨_, rfl⟩
    · rw [reference_compare_eq hpass hk]
      exact nofun
  · have hexchange : d.rm = 15 ∧
        ¬(d.kind = .bx ∧ isExceptionReturn m.cpu.architecturalPcForRead) ∧
        m.cpu.architecturalPcForRead &&& 1 ≠ 0 := by
      rcases hk with hk | hk
      all_goals
        rw [hk] at h ⊢
        exact ⟨h.1, h.2.1, h.2.2.1⟩
    obtain ⟨hrm, hexc, hodd⟩ := hexchange
    refine ⟨?_, ?_, stepFast_retired hat ?_⟩
    · unfold loadedTarget
      rcases hk with hk | hk <;> rw [hk]
    · have hread : m.cpu.readRegister d.rm = m.cpu.architecturalPcForRead := by
        rw [hrm]
        rfl
      unfold predictedCycles
      rw [hread]
      rcases hk with hk | hk
      all_goals
        rw [hk] at hexc ⊢
        dsimp only
        rw [if_neg hexc, if_neg hodd]
        exact ⟨_, rfl⟩
    · rw [reference_exchange_eq hpass hk]
      unfold executeBranchExchange
      dsimp only
      split
      · exact nofun
      · split <;> exact nofun
  · rw [hk] at h
    refine ⟨?_, ?_, ((leaves_add hpass hk h.1).mpr h.2).retired hat⟩
    · unfold loadedTarget
      rw [hk]
    · unfold predictedCycles
      rw [hk]
      exact ⟨_, rfl⟩

/-- **The prediction is right but for three forms.** The exact prediction is what the
step charges unless the next instruction is a compare-and-branch that is judged by the
wrong target, a branch to the PC behind an odd address, or an ADD that moves the PC.
The bound fails for a compare-and-branch that looks like a fall-through and is
taken. A step that retires nothing is not charged. -/
theorem cycles_are_predicted_but_for_three_forms (env : Environment δ) (m : Machine δ) :
    ((∀ cycles, peekPredictableCycles m = some cycles → (stepFast env m).1.instructions = 1 →
        (stepFast env m).1.cycles = cycles) ↔
      ∀ size d, NextExecutes m size d → ¬Misjudged size d m) ∧
    ((∀ cycles, peekCycleUpperBound m = some cycles → (stepFast env m).1.cycles ≤ cycles) ↔
      ∀ size d, NextExecutes m size d → ¬Undershot size d m.cpu) ∧
    ((stepFast env m).1.instructions ≠ 1 → (stepFast env m).1.cycles = 0) := by
  refine ⟨⟨?_, ?_⟩, ⟨?_, ?_⟩, stepFast_idle⟩
  · rintro hright size d ⟨hs, ⟨raw, hf⟩, hpass⟩ hmis
    have hat : StandsAt raw size d m := ⟨hs, hf⟩
    obtain ⟨hload, ⟨cycles, hpred⟩, hone⟩ := hmis.predicted env hat hpass
    refine (predicted_iff hat hpass hone hpred hload).mp (hright cycles ?_ hone) hmis
    rw [peekPredictableCycles_eq hat, hload, hpass]
    exact hpred
  · intro hjudged cycles hpeek hone
    obtain ⟨raw, size, d, hat⟩ := runs_of_peek hpeek
    rw [peekPredictableCycles_eq hat] at hpeek
    obtain ⟨hload, hpeek⟩ := some_of_guard hpeek
    cases hpass : passes d m.cpu with
    | false =>
      rw [hpass] at hpeek
      rw [(stepFast_cycles hat hone).1 hpass]
      exact Option.some.inj hpeek
    | true =>
      rw [hpass] at hpeek
      exact (predicted_iff hat hpass hone hpeek (Bool.eq_false_of_not_eq_true hload)).mpr
        (hjudged size d ⟨hat.runs, ⟨raw, hat.fetched⟩, hpass⟩)
  · rintro hbounded size d ⟨hs, ⟨raw, hf⟩, hpass⟩ hunder
    have hat : StandsAt raw size d m := ⟨hs, hf⟩
    have hd := (fetchDecode_decoded hf).wellformed
    obtain ⟨-, hdivide, hguard, hpred⟩ := hunder.bound env hd hpass
    have hbound : peekCycleUpperBound m = some (basePipelineCycles d) := by
      rw [peekCycleUpperBound_eq hat, hpass, hdivide, hguard]
      exact hpred
    exact (bound_iff hat hpass hbound).mp (hbounded _ hbound) hunder
  · intro hunder cycles hbound
    obtain ⟨raw, size, d, hat⟩ := runs_of_peek hbound
    cases hpass : passes d m.cpu with
    | false =>
      rw [peekCycleUpperBound_eq hat, hpass] at hbound
      cases hbound
      by_cases hone : (stepFast env m).1.instructions = 1
      · exact ((stepFast_cycles hat hone).1 hpass).le
      · rw [stepFast_idle hone]
        exact Nat.zero_le _
    | true =>
      exact (bound_iff hat hpass hbound).mpr (hunder size d ⟨hat.runs, ⟨raw, hat.fetched⟩, hpass⟩)

/-- A NOP and a CBZ that skips one halfword: from the address of the NOP its target is
the halfword behind it. One cycle is predicted, and at most one, and two are charged. -/
theorem a_compare_and_branch_costs_more_than_its_bound :
    let m : Machine Unit := ⟨resetState, smallBoard [0xbf00, 0xb100], {}⟩
    let behind := (stepFast plainEnvironment m).2
    peekPredictableCycles behind = some 1 ∧ peekCycleUpperBound behind = some 1 ∧
      (stepFast plainEnvironment behind).1.instructions = 1 ∧
      (stepFast plainEnvironment behind).1.cycles = 2 := by
  decide

end Fil.Cpu
