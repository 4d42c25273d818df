-- One instruction under a budget. The fallback of an IT block never spends more
-- than it was given. The checked single step is admitted by a predicted cost,
-- and the prediction leaves out the refill of some branches: it keeps to its
-- budget except there.
import Fil.BlockFacts
import Fil.CycleBudget

open Dialogue Fil.Mem
open BitVec (ofInt ofNat toNat toNat_and)

namespace Fil.Cpu

variable {δ : Type} {env : Environment δ}

/-! ## Spending -/

structure Spends (before after : ReversibleCycleBudget) (charges : List Nat) : Prop where
  covered : charges.sum ≤ before.remainingCycles.toNat
  left : after.remainingCycles.toNat + charges.sum = before.remainingCycles.toNat

section Spending

variable {a b c : ReversibleCycleBudget}

lemma Spends.refl (b : ReversibleCycleBudget) : Spends b b [] := ⟨by simp, by simp⟩

lemma Spends.trans {xs ys : List Nat} (h1 : Spends a b xs) (h2 : Spends b c ys) :
    Spends a c (xs ++ ys) := by
  obtain ⟨hx, hb⟩ := h1
  obtain ⟨hy, hc⟩ := h2
  constructor <;> rw [List.sum_append] <;> omega

lemma toNat_sub_charge {x : BitVec 64} {n : Nat} (h : n ≤ x.toNat) :
    (x - ofNat 64 n).toNat = x.toNat - n := by
  have hle : ofNat 64 n ≤ x :=
    (Nat.mod_le _ _).trans h
  rw [BitVec.toNat_sub_of_le hle, BitVec.toNat_ofNat, Nat.mod_eq_of_lt (by omega)]

variable {charged : Nat}

section

variable (h : charged ≤ b.remainingCycles.toNat) (next : BitVec 32)
include h

lemma debit_remaining :
    (b.debit charged next).remainingCycles.toNat = b.remainingCycles.toNat - charged :=
  toNat_sub_charge h

lemma Spends.debit :
    Spends b (b.debit charged next) [charged] := by
  refine ⟨by simpa using h, ?_⟩
  rw [debit_remaining h]
  simp
  omega

end

lemma Spends.then {xs : List Nat} (h : Spends a b xs)
    (hc : charged ≤ b.remainingCycles.toNat) (next : BitVec 32) :
    Spends a (b.debit charged next) (xs ++ [charged]) := h.trans (.debit hc next)

lemma admits_iff {cycles : Nat} :
    b.admits cycles = true ↔ cycles ≤ b.remainingCycles.toNat ∧ cycles ≤ 65535 := by
  unfold ReversibleCycleBudget.admits
  simp

end Spending

/-! ## The PC behind one instruction -/

open CpuState

lemma entered_pc (s : CpuState) (size : Nat) :
    (entered s size).pc = s.pc + ofNat 32 size := by
  simp [entered, setPc, setCore, pc]

lemma movesPc_itAdjusted (wasInIt : Bool) (d : DecodedInstruction) :
    movesPc (itAdjusted wasInIt d) = movesPc d := by
  unfold itAdjusted
  split <;> rfl

variable {d : DecodedInstruction} {size : Nat} {m : Machine δ}

section

variable (hd : Wellformed d) (hpc : movesPc d = false) (hit : d.kind ≠ .it)
  (hc : (reference env size d m).1.reason = .stepComplete)
include hd hpc hit hc

/-- An instruction that cannot move the PC goes on in sequence. -/
lemma reference_inSequence :
    Sequential (entered m.cpu size) (reference env size d m).1.cpu := by
  unfold reference at hc ⊢
  rw [body_reference] at hc ⊢
  split at hc
  · rename_i hpass
    rw [if_pos hpass]
    have hends := (execute_inSequence (s := entered m.cpu size) env.fp
      (env.aspen m.bus.deviceState) (hd.itAdjusted _)
      ((movesPc_itAdjusted (inItBlock m.cpu.itState) d).trans hpc)
      (by rw [itAdjusted_kind]; exact hit)).ends Request.perform m.bus
    exact hends hc
  · rename_i hfail
    rw [if_neg hfail]
    exact .refl _

/-- An instruction that cannot move the PC leaves it at the next one. -/
lemma reference_sequential :
    (reference env size d m).1.cpu.pc = m.cpu.pc + ofNat 32 size :=
  (reference_inSequence hd hpc hit hc).pc.trans (entered_pc _ _)

end

section

variable (done : Executed) (hpass : passes d m.cpu = true)
  (hfp : isFpRegisterAccess d.kind = false)
  (hdone : dispatch env.fp (itAdjusted (inItBlock m.cpu.itState) d) (entered m.cpu size) = pure done)
include hpass hfp hdone

/-- An instruction that stays in the core ends as its dispatch does, and leaves the
bus alone. -/
lemma reference_stays :
    reference env size d m = (done, m.bus) := by
  unfold reference
  rw [body_reference, if_pos hpass]
  unfold executeOn
  rw [execute_eq_dispatch (by rw [itAdjusted_kind]; exact hfp), hdone]
  rfl

lemma reference_pure : (reference env size d m).1 = done :=
  congrArg Prod.fst (reference_stays done hpass hfp hdone)

end

/-! ## What is predicted and what it costs -/

def LeavesSequence (env : Environment δ) (size : Nat) (d : DecodedInstruction) (m : Machine δ) :
    Prop :=
  (reference env size d m).1.reason = .stepComplete ∧
    (reference env size d m).1.cpu.pc ≠ m.cpu.pc + BitVec.ofNat 32 size

section Prediction

variable {size : Nat} {d : DecodedInstruction} {m : Machine δ}

lemma itAdjusted_branch {wasInIt : Bool} (h : suppressImplicitFlagsInIt d.kind = false) :
    itAdjusted wasInIt d = d := by
  unfold itAdjusted
  rw [h, Bool.and_false]
  rfl

lemma readRegister_entered {s : CpuState} {i : Nat} (h : i ≠ 15) :
    (entered s size).readRegister i = s.readRegister i := by
  unfold readRegister
  split
  · simp [entered, activeSp, usesMsp, inHandlerMode, ipsr,
      setPc]
  · exact core_setCore_of_ne _ _ _ h

lemma setPc_pc (s : CpuState) (v : BitVec 32) : (s.setPc v).pc = v := by
  simp [setPc, setCore, pc]

lemma branchWritePc_pc {s t : CpuState} {v : BitVec 32} (h : s.branchWritePc v = some t) :
    t.pc = v &&& ~~~1 ∧ v &&& 1 ≠ 0 := by
  unfold branchWritePc at h
  split at h
  · cases h
  rename_i hodd
  cases h
  exact ⟨setPc_pc s _, hodd⟩

lemma add_four_and_one (x : BitVec 32) : (x + 4) &&& 1 = x &&& 1 := by
  apply BitVec.eq_of_toNat_eq
  rw [toNat_and, toNat_and, BitVec.toNat_add, show toNat (1 : BitVec 32) = 1 from rfl,
    show toNat (4 : BitVec 32) = 4 from rfl, Nat.and_one_is_mod, Nat.and_one_is_mod]
  omega

def compareTaken (d : DecodedInstruction) (s : CpuState) : Bool :=
  let zero := s.readRegister d.rn == 0
  if d.kind = .cbz then zero else !zero

/-- Where a compare-and-branch goes. -/
def compareTarget (d : DecodedInstruction) (s : CpuState) : BitVec 32 :=
  (s.pc + 4 + d.imm) &&& ~~~1

/-- The sum that ADD writes. -/
def addSum (d : DecodedInstruction) (s : CpuState) : BitVec 32 :=
  let left := s.readRegister d.rn
  (addWithCarry (if d.rn = 15 ∧ d.form = .immediate then left &&& ~~~3 else left)
    (operand2 d s) false).value

/-- The instructions that leave the sequence and are predicted to stay in it: a
compare-and-branch that is taken, with a target that looks like the next
instruction from the address of the instruction before, and ADD to the PC. -/
def Mispredicted (size : Nat) (d : DecodedInstruction) (s : CpuState) : Prop :=
  let next := s.pc + BitVec.ofNat 32 size
  match d.kind with
  | .cbz | .cbnz =>
    compareTaken d s = true ∧ (s.architecturalPcForRead + d.imm) &&& ~~~1 = next ∧
      compareTarget d s ≠ next
  | .add => d.rd = 15 ∧ addSum d (entered s size) &&& ~~~1 ≠ next
  | _ => False

variable (hpass : passes d m.cpu = true)
include hpass

lemma reference_core (done : Executed) (hfp : isFpRegisterAccess d.kind = false)
    (hflags : suppressImplicitFlagsInIt d.kind = false)
    (hdone : dispatch env.fp d (entered m.cpu size) = pure done) :
    (reference env size d m).1 = done :=
  reference_pure done hpass hfp (by rw [itAdjusted_branch hflags]; exact hdone)

lemma reference_branch (hk : d.kind = .b ∨ d.kind = .bl) :
    (reference env size d m).1.reason = .stepComplete ∧
      (reference env size d m).1.cpu.pc =
        ofInt 32 (m.cpu.pc.toNat + 4 + d.branchOffset) &&& ~~~1 := by
  have hat : (entered m.cpu size).currentInstrAddr = m.cpu.pc := entered_instructionAddress _ _
  rcases hk with hk | hk
  · rw [reference_core hpass (complete (executeB d (entered m.cpu size))) (by rw [hk]; rfl)
      (by rw [hk]; rfl) (by unfold dispatch; rw [hk])]
    exact ⟨rfl, by simp only [complete, executeB, setPc_pc, branchTarget, hat]⟩
  · rw [reference_core hpass (complete (executeBl d (entered m.cpu size))) (by rw [hk]; rfl)
      (by rw [hk]; rfl) (by unfold dispatch; rw [hk])]
    exact ⟨rfl, by simp only [complete, executeBl, setPc_pc, branchTarget, hat]⟩

lemma leaves_branch (hk : d.kind = .b ∨ d.kind = .bl) :
    LeavesSequence env size d m ↔
      ofInt 32 (m.cpu.pc.toNat + 4 + d.branchOffset) &&& ~~~1 ≠
        m.cpu.pc + ofNat 32 size := by
  unfold LeavesSequence
  rw [(reference_branch hpass hk).2]
  exact ⟨fun h => h.2, fun h => ⟨(reference_branch hpass hk).1, h⟩⟩

lemma reference_exchange_eq (hk : d.kind = .bx ∨ d.kind = .blx) :
    (reference env size d m).1 = executeBranchExchange d (entered m.cpu size) := by
  rcases hk with hk | hk <;>
    exact reference_core hpass _ (by rw [hk]; rfl) (by rw [hk]; rfl) (by unfold dispatch; rw [hk])

lemma reference_exchange (hk : d.kind = .bx ∨ d.kind = .blx)
    (hc : (reference env size d m).1.reason = .stepComplete) :
    (reference env size d m).1.cpu.pc =
        (if d.kind = .bx ∧ isExceptionReturn ((entered m.cpu size).readRegister d.rm) then
          m.cpu.pc + ofNat 32 size
        else (entered m.cpu size).readRegister d.rm &&& ~~~1) ∧
      (entered m.cpu size).readRegister d.rm &&& 1 ≠ 0 := by
  rw [reference_exchange_eq hpass hk] at hc ⊢
  have hlink : (if d.kind = .blx then
      (entered m.cpu size).setCore 14 ((entered m.cpu size).pc ||| 1) else entered m.cpu size).pc =
        m.cpu.pc + ofNat 32 size := by
    split
    · exact (setCore_sequential _ _ (by decide)).pc
    · rfl
  unfold executeBranchExchange at hc ⊢
  dsimp only at hc ⊢
  split at hc
  · rename_i hreturn
    rw [if_pos hreturn, if_pos hreturn]
    exact ⟨hlink, odd_of_isExceptionReturn hreturn.2⟩
  rename_i hreturn
  rw [if_neg hreturn, if_neg hreturn]
  split at hc
  · cases hc
  · rename_i t ht
    exact branchWritePc_pc ht

lemma leaves_exchange (env : Environment δ) (size : Nat) (hk : d.kind = .bx ∨ d.kind = .blx) :
    LeavesSequence env size d m ↔
      ¬(d.kind = .bx ∧ isExceptionReturn ((entered m.cpu size).readRegister d.rm)) ∧
        (entered m.cpu size).readRegister d.rm &&& 1 ≠ 0 ∧
        (entered m.cpu size).readRegister d.rm &&& ~~~1 ≠ m.cpu.pc + ofNat 32 size := by
  constructor
  · intro h
    obtain ⟨hpc, hodd⟩ := reference_exchange hpass hk h.1
    have hne := h.2
    rw [hpc] at hne
    have hnot : ¬(d.kind = .bx ∧ isExceptionReturn ((entered m.cpu size).readRegister d.rm)) :=
      fun hand => hne (if_pos hand)
    rw [if_neg hnot] at hne
    exact ⟨hnot, hodd, hne⟩
  · rintro ⟨hnot, hodd, hne⟩
    have hreason : (reference env size d m).1.reason = .stepComplete := by
      rw [reference_exchange_eq hpass hk]
      unfold executeBranchExchange branchWritePc
      rw [if_neg hnot, if_neg hodd]
      rfl
    refine ⟨hreason, ?_⟩
    rw [(reference_exchange hpass hk hreason).1, if_neg hnot]
    exact hne

/-- A branch that reads the PC reads an even value. -/
lemma not_leaves_of_pc (hk : d.kind = .bx ∨ d.kind = .blx)
    (heven : m.cpu.pc &&& 1 = 0) (hrm : d.rm = 15) : ¬LeavesSequence env size d m := by
  rw [leaves_exchange hpass env size hk, hrm]
  rintro ⟨-, hodd, -⟩
  refine hodd ?_
  rw [← heven]
  exact (congrArg (fun x : BitVec 32 => (x + 4) &&& 1) (entered_instructionAddress _ _)).trans
    (add_four_and_one _)

lemma reference_compare_eq (hk : d.kind = .cbz ∨ d.kind = .cbnz) :
    (reference env size d m).1 = complete (executeCompareBranch d (entered m.cpu size)) := by
  rcases hk with hk | hk <;>
    exact reference_core hpass _ (by rw [hk]; rfl) (by rw [hk]; rfl) (by unfold dispatch; rw [hk])

lemma leaves_compare (hk : d.kind = .cbz ∨ d.kind = .cbnz) (hrn : d.rn ≠ 15) :
    LeavesSequence env size d m ↔
      compareTaken d m.cpu = true ∧ compareTarget d m.cpu ≠ m.cpu.pc + ofNat 32 size := by
  have hpc : (executeCompareBranch d (entered m.cpu size)).pc =
      if compareTaken d m.cpu then compareTarget d m.cpu
      else m.cpu.pc + ofNat 32 size := by
    have htaken : compareTaken d (entered m.cpu size) = compareTaken d m.cpu := by
      unfold compareTaken
      rw [readRegister_entered hrn]
    show (if compareTaken d (entered m.cpu size) = true then
        (entered m.cpu size).setPc (((entered m.cpu size).architecturalPcForRead + d.imm) &&& ~~~1)
      else entered m.cpu size).pc = _
    rw [htaken]
    split
    · rw [setPc_pc]
      exact congrArg (fun x : BitVec 32 => (x + 4 + d.imm) &&& ~~~1)
        (entered_instructionAddress _ _)
    · exact entered_pc _ _
  unfold LeavesSequence
  rw [reference_compare_eq hpass hk]
  show _ ∧ (executeCompareBranch d (entered m.cpu size)).pc ≠ _ ↔ _
  rw [hpc]
  cases compareTaken d m.cpu <;> simp [complete]

/-- ADD writes the PC like any other register. -/
lemma leaves_add (hk : d.kind = .add) (hrd : d.rd = 15) :
    LeavesSequence env size d m ↔
      addSum d (entered m.cpu size) &&& ~~~1 ≠ m.cpu.pc + ofNat 32 size := by
  have hadjusted : ∀ wasInIt, addSum (itAdjusted wasInIt d) (entered m.cpu size) =
      addSum d (entered m.cpu size) ∧ (itAdjusted wasInIt d).rd = d.rd := by
    intro wasInIt
    unfold itAdjusted
    split <;> exact ⟨rfl, rfl⟩
  obtain ⟨hsum, hrd'⟩ := hadjusted (inItBlock m.cpu.itState)
  have hkind := itAdjusted_kind (inItBlock m.cpu.itState) d
  rw [hk] at hkind
  have hdone : (reference env size d m).1 =
      complete (executeAdd (itAdjusted (inItBlock m.cpu.itState) d) (entered m.cpu size)) := by
    refine reference_pure _ hpass (by rw [hk]; rfl) ?_
    unfold dispatch
    rw [hkind]
  have hpc : (executeAdd (itAdjusted (inItBlock m.cpu.itState) d) (entered m.cpu size)).pc =
      addSum d (entered m.cpu size) &&& ~~~1 := by
    rw [← hsum]
    unfold executeAdd addSum writeAluResult
    rw [hkind, hrd']
    dsimp only
    split
    · exact setPc_pc (entered m.cpu size) _
    · exact setPc_pc (entered m.cpu size) _
  unfold LeavesSequence
  rw [hdone]
  show _ ∧ (executeAdd _ (entered m.cpu size)).pc ≠ _ ↔ _
  rw [hpc]
  exact ⟨fun h => h.2, fun h => ⟨rfl, h⟩⟩

lemma Mispredicted.leaves (env : Environment δ) (hd : Wellformed d)
    (h : Mispredicted size d m.cpu) : LeavesSequence env size d m := by
  unfold Mispredicted at h
  dsimp only at h
  split at h <;> rename_i hk
  case h_1 => exact (leaves_compare hpass (.inl hk) (hd.compared (.inl hk))).mpr ⟨h.1, h.2.2⟩
  case h_2 => exact (leaves_compare hpass (.inr hk) (hd.compared (.inr hk))).mpr ⟨h.1, h.2.2⟩
  case h_3 => exact (leaves_add hpass hk h.1).mpr h.2
  case h_4 => exact absurd h id

lemma reference_it (hk : d.kind = .it)
    (hc : (reference env size d m).1.reason = .stepComplete) :
    (reference env size d m).1.cpu.pc = m.cpu.pc + ofNat 32 size := by
  rw [reference_core hpass (executeIt d (entered m.cpu size)) (by rw [hk]; rfl) (by rw [hk]; rfl)
    (by unfold dispatch; rw [hk])] at hc ⊢
  unfold executeIt at hc ⊢
  split_ifs at hc ⊢
  · cases hc
  · exact entered_pc _ _

omit hpass

/-- What can move the PC: the branches, the targets that are not predicted at
all, and ADD. -/
lemma movesPc_cases (h : movesPc d = true) :
    ((d.kind = .b ∨ d.kind = .bl) ∨ (d.kind = .bx ∨ d.kind = .blx) ∨
      d.kind = .cbz ∨ d.kind = .cbnz) ∨ loadedTarget d = true ∨ d.kind = .add ∧ d.rd = 15 := by
  unfold movesPc at h
  unfold loadedTarget
  split at h <;> rename_i hk <;> simp_all

lemma executedCycles_eq (raw : BitVec 32) (s : CpuState) :
    executedCycles (prepare raw size d) s =
      if divideForm d.kind then divideCycles (s.readRegister d.rm) else basePipelineCycles d := by
  unfold executedCycles prepare
  split <;> rfl

variable {cycles : Nat} {raw : BitVec 32} {s : CpuState} {upper : Bool}

lemma executed_le_predicted (raw : BitVec 32)
    (h : predictedCycles upper d size s = some cycles) :
    executedCycles (prepare raw size d) s ≤ cycles := by
  rw [executedCycles_eq]
  unfold predictedCycles at h
  dsimp only at h
  split at h <;> rename_i hk
  case h_7 | h_8 =>
    cases h
    rw [hk]
    exact le_refl _
  case h_9 =>
    cases h
    unfold divideForm
    simp_all
  all_goals
    rw [if_neg (by rw [hk]; decide)]
    split_ifs at h <;> cases h <;> omega

lemma compare_predicted (hk : d.kind = .cbz ∨ d.kind = .cbnz)
    (hpred : predictedCycles upper d size s = some cycles) :
    cycles = if compareTaken d s = true ∧
        (s.architecturalPcForRead + d.imm) &&& ~~~1 ≠ s.pc + ofNat 32 size then
      basePipelineCycles d + takenBranchPenalty d.kind else basePipelineCycles d := by
  unfold predictedCycles at hpred
  unfold compareTaken
  rcases hk with hk | hk <;> rw [hk] at hpred ⊢ <;> exact (Option.some.inj hpred).symm

/-- The refill of a branch is predicted, but for a compare-and-branch whose target looks
like the next instruction. -/
lemma refill_cases (hd : Wellformed d) (heven : m.cpu.pc &&& 1 = 0)
    (hk : (d.kind = .b ∨ d.kind = .bl) ∨ (d.kind = .bx ∨ d.kind = .blx) ∨
      d.kind = .cbz ∨ d.kind = .cbnz)
    (hpass : passes d m.cpu = true) (hpred : predictedCycles upper d size m.cpu = some cycles)
    (hleaves : LeavesSequence env size d m) :
    cycles = basePipelineCycles d + takenBranchPenalty d.kind ∨
      (cycles = basePipelineCycles d ∧ (d.kind = .cbz ∨ d.kind = .cbnz) ∧
        compareTaken d m.cpu = true ∧
        (m.cpu.architecturalPcForRead + d.imm) &&& ~~~1 = m.cpu.pc + ofNat 32 size ∧
        compareTarget d m.cpu ≠ m.cpu.pc + ofNat 32 size) := by
  rcases hk with hk | hk | hk
  · have htarget := (leaves_branch hpass hk).mp hleaves
    left
    unfold predictedCycles at hpred
    rcases hk with hk | hk
    all_goals
      rw [hk] at hpred ⊢
      dsimp only at hpred
      rw [if_pos htarget] at hpred
      exact (Option.some.inj hpred).symm
  · by_cases hrm : d.rm = 15
    · exact absurd hleaves (not_leaves_of_pc hpass hk heven hrm)
    have htarget := (leaves_exchange hpass env size hk).mp hleaves
    rw [readRegister_entered hrm] at htarget
    obtain ⟨hexc, hodd, hfar⟩ := htarget
    left
    unfold predictedCycles at hpred
    rcases hk with hk | hk
    all_goals
      rw [hk] at hpred hexc ⊢
      dsimp only at hpred
      rw [if_neg hexc, if_neg hodd, if_pos hfar] at hpred
      exact (Option.some.inj hpred).symm
  · obtain ⟨htaken, hfar⟩ := (leaves_compare hpass hk (hd.compared hk)).mp hleaves
    have hcycles := compare_predicted hk hpred
    by_cases hjudged : (m.cpu.architecturalPcForRead + d.imm) &&& ~~~1 =
        m.cpu.pc + ofNat 32 size
    · right
      rw [if_neg fun h => h.2 hjudged] at hcycles
      exact ⟨hcycles, hk, htaken, hjudged, hfar⟩
    · left
      rwa [if_pos ⟨htaken, hjudged⟩] at hcycles

lemma LeavesSequence.movesPc (hd : Wellformed d) (hpass : passes d m.cpu = true)
    (h : LeavesSequence env size d m) : movesPc d = true := by
  obtain ⟨hc, hne⟩ := h
  by_contra hstill
  by_cases hit : d.kind = .it
  · exact hne (reference_it hpass hit hc)
  · exact hne (reference_sequential hd (by simpa using hstill) hit hc)

lemma executedCycles_of_movesPc (h : movesPc d = true) (raw : BitVec 32) (s : CpuState) :
    executedCycles (prepare raw size d) s = basePipelineCycles d := by
  rw [executedCycles_eq, if_neg]
  unfold movesPc at h
  unfold divideForm
  split at h <;> simp_all

lemma refill_predicted (hd : Wellformed d) (heven : m.cpu.pc &&& 1 = 0)
    (hload : loadedTarget d = false) (hpass : passes d m.cpu = true)
    (hpred : predictedCycles false d size m.cpu = some cycles)
    (hok : ¬Mispredicted size d m.cpu) (hleaves : LeavesSequence env size d m) :
    cycles = basePipelineCycles d + takenBranchPenalty d.kind := by
  rcases movesPc_cases (hleaves.movesPc hd hpass) with hk | hk | ⟨hk, hrd⟩
  · rcases refill_cases hd heven hk hpass hpred hleaves with h | ⟨-, hk, hrest⟩
    · exact h
    · unfold Mispredicted at hok
      rcases hk with hk | hk <;> rw [hk] at hok <;> exact absurd hrest hok
  · rw [hload] at hk
    cases hk
  · unfold Mispredicted at hok
    rw [hk] at hok
    exact absurd ⟨hrd, (leaves_add hpass hk hrd).mp hleaves⟩ hok

lemma Mispredicted.base (h : Mispredicted size d s) :
    loadedTarget d = false ∧ predictedCycles false d size s = some (basePipelineCycles d) := by
  unfold Mispredicted at h
  unfold loadedTarget predictedCycles
  dsimp only at h
  split at h <;> rename_i hk
  case h_1 | h_2 =>
    rw [hk]
    dsimp only
    rw [if_neg fun hand => hand.2 h.2.1]
    exact ⟨rfl, rfl⟩
  case h_3 =>
    rw [hk]
    exact ⟨rfl, rfl⟩
  case h_4 => exact absurd h id

/-! ## One instruction under a budget -/

/-- What the step at an instruction costs, if it completes. -/
def stepCost (env : Environment δ) (size : Nat) (d : DecodedInstruction) (m : Machine δ) : Nat :=
  if passes d m.cpu then
    if (reference env size d m).1.cpu.pc ≠ m.cpu.pc + BitVec.ofNat 32 size then
      executedCycles (prepare 0 size d) m.cpu + takenBranchPenalty d.kind
    else executedCycles (prepare 0 size d) m.cpu
  else 1

lemma chargeStep_spends_iff (sizeOf : FastStepResult → Nat)
    (budget : ReversibleCycleBudget) (hat : StandsAt raw size d m) :
    Spends budget (chargeStep env sizeOf budget m).budget (chargeStep env sizeOf budget m).charges ↔
      ((reference env size d m).1.reason = .stepComplete →
        stepCost env size d m + budget.stallAt m.cpu.pc ≤ budget.remainingCycles.toNat) := by
  unfold chargeStep
  dsimp only
  rw [stepFast_of_fetchDecode hat, retireChecked_eq]
  by_cases hc : (reference env size d m).1.reason = .stepComplete
  · obtain ⟨hreason, hone, -, hcycles⟩ := conclude_complete (i := prepare raw size d) (m := m)
      (b := (reference env size d m).2) hc
    rw [if_neg (by simp [hreason, hone])]
    rw [hcycles]
    change Spends budget (budget.debit (stepCost env size d m + _) _) [stepCost env size d m + _] ↔ _
    exact ⟨fun h _ => by simpa using h.covered, fun h => .debit (h hc) _⟩
  · rw [if_pos (by simp [conclude_reason, hc])]
    exact ⟨fun _ h => absurd h hc, fun _ => .refl budget⟩

lemma fetchable_of_allowed (h : singleForbidden s = false) :
    (s.halted || invalidThumb s) = false := by
  unfold singleForbidden at h
  simp at h ⊢
  exact h.1.1

lemma pc_even (h : (s.halted || invalidThumb s) = false) : s.pc &&& 1 = 0 := by
  unfold invalidThumb at h
  simp at h
  exact h.2.2

/-- The instruction is admitted at a cost that leaves its refill out, and the
credit covers no more than that. -/
structure OutrunsCredit (budget : ReversibleCycleBudget) (m : Machine δ) (size : Nat)
    (d : DecodedInstruction) : Prop where
  allowed : singleForbidden m.cpu = false
  passed : passes d m.cpu = true
  mispredicted : Mispredicted size d m.cpu
  admitted : budget.admits (basePipelineCycles d + budget.stallAt m.cpu.pc) = true
  short : budget.remainingCycles.toNat <
    basePipelineCycles d + takenBranchPenalty d.kind + budget.stallAt m.cpu.pc

lemma passes_eq (d : DecodedInstruction) (s : CpuState) :
    passes d s = conditionPasses (effectiveCondition d s.itState) s.xpsr := by
  unfold passes
  cases h : effectiveCondition d s.itState <;> rfl

lemma peekPredictableCycles_eq
    (hat : StandsAt raw size d m) :
    peekPredictableCycles m =
      if loadedTarget d then none
      else if passes d m.cpu then predictedCycles false d size m.cpu else some 1 := by
  unfold peekPredictableCycles peekPipelineCycles
  dsimp only
  rw [hat.runs, hat.fetched, passes_eq]
  cases hload : loadedTarget d <;>
    cases hp : conditionPasses (effectiveCondition d m.cpu.itState) m.cpu.xpsr <;> simp [hload, hp]

lemma stepCost_le (hd : Wellformed d)
    (hat : StandsAt raw size d m)
    (hpeek : peekPredictableCycles m = some cycles)
    (hc : (reference env size d m).1.reason = .stepComplete)
    (hok : ¬(passes d m.cpu = true ∧ Mispredicted size d m.cpu)) :
    stepCost env size d m ≤ cycles := by
  rw [peekPredictableCycles_eq hat] at hpeek
  obtain ⟨hload, hpeek⟩ := some_of_guard hpeek
  unfold stepCost
  split
  · rename_i hpass
    rw [if_pos hpass] at hpeek
    split
    · rename_i hne
      have hmis : ¬Mispredicted size d m.cpu := fun hmis => hok ⟨hpass, hmis⟩
      have hleaves : LeavesSequence env size d m := ⟨hc, hne⟩
      rw [executedCycles_of_movesPc (hleaves.movesPc hd hpass)]
      exact (refill_predicted hd (pc_even hat.runs) (by simpa using hload) hpass hpeek hmis hleaves).ge
    · exact executed_le_predicted 0 hpeek
  · rename_i hfail
    rw [if_neg hfail] at hpeek
    cases hpeek
    exact le_refl 1

/-- A mispredicted instruction is looked at, and predicted at its table cost. -/
lemma peekPredictableCycles_of_mispredicted
    (hat : StandsAt raw size d m) (hpass : passes d m.cpu = true)
    (h : Mispredicted size d m.cpu) :
    peekPredictableCycles m = some (basePipelineCycles d) := by
  rw [peekPredictableCycles_eq hat, h.base.1, hpass]
  exact h.base.2

lemma stepCost_of_leaves (hd : Wellformed d) (hpass : passes d m.cpu = true)
    (h : LeavesSequence env size d m) :
    stepCost env size d m = basePipelineCycles d + takenBranchPenalty d.kind := by
  unfold stepCost
  rw [if_pos hpass, if_pos h.2, executedCycles_of_movesPc (h.movesPc hd hpass)]

/-- A charged step behind its admission keeps to the budget but for an
instruction that outruns its credit. -/
lemma chargeStep_admitted_iff (sizeOf : FastStepResult → Nat)
    (budget : ReversibleCycleBudget) (hallowed : singleForbidden m.cpu = false)
    (hf : fetchDecode m.cpu.pc m.bus = some (raw, size, d))
    (hpeek : peekPredictableCycles m = some cycles)
    (hadmits : budget.admits (cycles + budget.stallAt m.cpu.pc) = true) :
    Spends budget (chargeStep env sizeOf budget m).budget (chargeStep env sizeOf budget m).charges ↔
      ¬OutrunsCredit budget m size d := by
  have hat : StandsAt raw size d m := ⟨fetchable_of_allowed hallowed, hf⟩
  have hd := (fetchDecode_decoded hf).wellformed
  have hle := (admits_iff.mp hadmits).1
  rw [chargeStep_spends_iff sizeOf budget hat]
  constructor
  · intro hcovered hout
    have hleaves := hout.mispredicted.leaves hout.passed env hd
    have hcost := hcovered hleaves.1
    rw [stepCost_of_leaves hd hout.passed hleaves] at hcost
    exact absurd hcost (not_le.mpr hout.short)
  · intro hnot hc
    by_cases hmis : passes d m.cpu = true ∧ Mispredicted size d m.cpu
    · obtain ⟨hpass, hmis⟩ := hmis
      have hleaves := hmis.leaves hpass env hd
      have hbase := peekPredictableCycles_of_mispredicted hat hpass hmis
      rw [hpeek] at hbase
      cases hbase
      rw [stepCost_of_leaves hd hpass hleaves]
      by_contra hshort
      exact hnot ⟨hallowed, hpass, hmis, hadmits, not_le.mp hshort⟩
    · have hcost := stepCost_le hd hat hpeek hc hmis
      omega

/-- The checked single step keeps to its budget but for an instruction that
outruns its credit. -/
lemma tryStepCheckedSingle_spends_iff (env : Environment δ) (budget : ReversibleCycleBudget)
    (m : Machine δ) :
    Spends budget (tryStepCheckedSingle env budget m).budget
        (tryStepCheckedSingle env budget m).charges ↔
      ∀ raw size d, fetchDecode m.cpu.pc m.bus = some (raw, size, d) →
        ¬OutrunsCredit budget m size d := by
  unfold tryStepCheckedSingle
  cases hallowed : singleForbidden m.cpu with
  | true =>
    refine ⟨fun _ _ _ _ _ hout => ?_, fun _ => .refl budget⟩
    rw [hout.allowed] at hallowed
    cases hallowed
  | false =>
    rw [if_neg Bool.false_ne_true]
    cases hf : fetchDecode m.cpu.pc m.bus with
    | none =>
      refine ⟨fun _ _ _ _ h => ?_, fun _ => .refl budget⟩
      cases h
    | some fetched =>
      obtain ⟨raw, size, d⟩ := fetched
      have hat : StandsAt raw size d m := ⟨fetchable_of_allowed hallowed, hf⟩
      have honly : (∀ raw' size' d', some (raw, size, d) = some (raw', size', d') →
          ¬OutrunsCredit budget m size' d') ↔ ¬OutrunsCredit budget m size d :=
        ⟨fun h => h _ _ _ rfl, fun h _ _ _ he => by cases he; exact h⟩
      rw [if_neg (by simp), honly]
      cases hpeek : peekPredictableCycles m with
      | none =>
        refine ⟨fun _ hout => ?_, fun _ => .refl budget⟩
        rw [peekPredictableCycles_of_mispredicted hat hout.passed hout.mispredicted] at hpeek
        cases hpeek
      | some cycles =>
        dsimp only
        split
        · rename_i hadmits
          exact chargeStep_admitted_iff _ budget hallowed hf hpeek hadmits
        rename_i hrefused
        refine ⟨fun _ hout => ?_, fun _ => .refl budget⟩
        rw [peekPredictableCycles_of_mispredicted hat hout.passed hout.mispredicted] at hpeek
        cases hpeek
        exact hrefused hout.admitted

lemma basePipelineCycles_pos (d : DecodedInstruction) : 1 ≤ basePipelineCycles d := by
  unfold basePipelineCycles
  split <;> omega

lemma stepOnTheSpot_cycles (safeIt : Bool) (raw : BitVec 32) :
    (stepOnTheSpot safeIt raw size d m).1.cycles ≤ basePipelineCycles d := by
  have hpos := basePipelineCycles_pos d
  unfold stepOnTheSpot
  dsimp only
  split
  · exact hpos
  split
  · exact le_refl _
  · exact hpos

lemma stepCost_safeAlu {inIt : Bool} (hd : Wellformed d) (h : safeAlu inIt d = true)
    (hc : (reference env size d m).1.reason = .stepComplete) :
    stepCost env size d m ≤ basePipelineCycles d := by
  simp [safeAlu] at h
  obtain ⟨⟨⟨⟨⟨⟨-, hkind⟩, hrd⟩, -⟩, -⟩, -⟩, -⟩ := h
  have hstill : movesPc d = false ∧ divideForm d.kind = false ∧ d.kind ≠ .it := by
    unfold movesPc divideForm
    generalize d.kind = k at hkind
    revert hkind
    cases k <;> simp [safeItKind, hrd]
  have hpc := reference_sequential hd hstill.1 hstill.2.2 hc
  unfold stepCost
  rw [if_neg (not_not.mpr hpc), executedCycles_eq, hstill.2.1]
  split
  · exact le_refl _
  · exact basePipelineCycles_pos d

lemma tryStepItScalarFallback_spends (env : Environment δ) (budget : ReversibleCycleBudget)
    (m : Machine δ) :
    Spends budget (tryStepItScalarFallback env budget m).budget
      (tryStepItScalarFallback env budget m).charges := by
  unfold tryStepItScalarFallback
  split
  · exact .refl budget
  rename_i hallowed
  split
  · exact .refl budget
  rename_i raw size d hf
  dsimp only
  split_ifs with hsafe hadmits hspot
  · exact .refl budget
  · exact .refl budget
  · have hle : (stepOnTheSpot (d.kind = .it && !inItBlock m.cpu.itState) raw size d m).1.cycles ≤
        basePipelineCycles d := stepOnTheSpot_cycles _ _
    have hcovered := (admits_iff.mp (by simpa using hadmits)).1
    exact .debit (by omega) _
  have halu : safeAlu (inItBlock m.cpu.itState) d = true := by
    simp only [Bool.or_eq_true, not_or, Bool.not_eq_true] at hspot
    simpa [hspot.1, hspot.2] using hsafe
  refine (chargeStep_spends_iff _ budget
    ⟨fetchable_of_allowed (by simpa using hallowed), hf⟩).mpr fun hc => ?_
  have hcost := stepCost_safeAlu (fetchDecode_decoded hf).wellformed halu hc
  have hcovered := (admits_iff.mp (by simpa using hadmits)).1
  omega

variable {budget : ReversibleCycleBudget}

lemma chargeStep_declined {sizeOf : FastStepResult → Nat}
    (h : (chargeStep env sizeOf budget m).result = none) :
    (chargeStep env sizeOf budget m).charges = [] := by
  unfold chargeStep at h ⊢
  dsimp only at h ⊢
  split at h
  · rename_i hstopped
    rw [if_pos hstopped]
  · cases h

lemma tryStepItScalarFallback_declined
    (h : (tryStepItScalarFallback env budget m).result = none) :
    (tryStepItScalarFallback env budget m).charges = [] := by
  unfold tryStepItScalarFallback at h ⊢
  split at h
  · rename_i hforbidden
    rw [if_pos hforbidden]
  rename_i hallowed
  rw [if_neg hallowed]
  cases hf : fetchDecode m.cpu.pc m.bus with
  | none => rfl
  | some fetched =>
    rw [hf] at h
    dsimp only at h ⊢
    split at h
    · rename_i hsafe
      rw [if_pos hsafe]
    rename_i hsafe
    rw [if_neg hsafe]
    split at h
    · rename_i hrefused
      rw [if_pos hrefused]
    rename_i hadmitted
    rw [if_neg hadmitted]
    split at h
    · cases h
    rename_i hspot
    rw [if_neg hspot]
    exact chargeStep_declined h

end Prediction

end Fil.Cpu
