-- What a cached instruction has to do with a step. An instruction that is
-- decoded from backed memory is the one that a step fetches there, a step costs
-- what the tables say and one refill if it leaves the sequence, and the cache
-- holds nothing but instructions that were prepared from their encoding.
import Fil.BlockJit
import Fil.ExecutorFrame
import Fil.StepRefinement

open Dialogue Fil.Mem Fil.Mem.MemoryBus

namespace Fil.Cpu

variable {δ : Type} {env : Environment δ}

/-! ## Fetching -/

variable {b : MemoryBus δ}

lemma read16_of_fast {a pc : BitVec 32} {v : BitVec 64} {b' : MemoryBus δ}
    (h : b.tryFastRead a .halfword ⟨.instructionFetch, pc⟩ = some (v, b')) :
    b.read16 a ⟨.instructionFetch, pc⟩ = (.ok (v.setWidth 16), b) := by
  have hsame : b' = b := by
    rw [tryFastRead_fetch] at h
    obtain ⟨_, -, he⟩ := Option.map_eq_some_iff.mp h
    exact (congrArg Prod.snd he).symm
  unfold MemoryBus.read16
  rw [h, hsame]

variable {size : Nat} {d : DecodedInstruction} {m : Machine δ}

section

variable {pc raw : BitVec 32} (h : fetchDecode pc b = some (raw, size, d))
include h

/-- An instruction that is decoded from backed memory is fetched there, and the
fetch leaves the bus as it is. -/
lemma fetch_of_fetchDecode :
    fetch pc b = (.decoded raw size d, b) := by
  unfold fetchDecode at h
  dsimp only at h
  split at h
  · cases h
  rename_i first b1 hfirst
  unfold fetch
  dsimp only
  rw [read16_of_fast hfirst]
  dsimp only
  split at h
  · rename_i hwide
    rw [if_pos hwide]
    split at h
    · cases h
    rename_i hwrap
    rw [if_neg hwrap]
    split at h
    · cases h
    rename_i second b2 hsecond
    rw [read16_of_fast hsecond]
    obtain ⟨d', hd, he⟩ := Option.map_eq_some_iff.mp h
    cases he
    dsimp only
    rw [hd]
  · rename_i hwide
    rw [if_neg hwide]
    obtain ⟨d', hd, he⟩ := Option.map_eq_some_iff.mp h
    cases he
    rw [hd]

lemma fetchDecode_decoded :
    Decoded d size :=
  fetch_decoded (fetch_of_fetchDecode h)

end

structure StandsAt (raw : BitVec 32) (size : Nat) (d : DecodedInstruction) (m : Machine δ) :
    Prop where
  runs : (m.cpu.halted || invalidThumb m.cpu) = false
  fetched : fetchDecode m.cpu.pc m.bus = some (raw, size, d)

lemma stepFast_of_fetchDecode {raw : BitVec 32} (h : StandsAt raw size d m) :
    stepFast env m = retireChecked env false false (prepare raw size d) m := by
  obtain ⟨hhalted, hthumb⟩ := Bool.or_eq_false_iff.mp h.runs
  unfold stepFast stepFastImpl
  dsimp only
  rw [hhalted, hthumb, fetch_of_fetchDecode h.fetched]
  rfl

/-! ## The cost of a step -/

lemma advanceIt_pc (s : CpuState) : s.advanceIt.pc = s.pc := rfl

def reference (env : Environment δ) (size : Nat) (d : DecodedInstruction) (m : Machine δ) :
    Executed × MemoryBus δ :=
  body env false false (prepare 0 size d) m

lemma retireChecked_eq (raw : BitVec 32) (size : Nat) (d : DecodedInstruction) (m : Machine δ) :
    retireChecked env false false (prepare raw size d) m =
      conclude (prepare raw size d) m (reference env size d m).1 (reference env size d m).2 := rfl

section

variable {i : StepInstruction} {done : Executed}

lemma conclude_complete (h : done.reason = .stepComplete) :
    (conclude i m done b).1.reason = .stepComplete ∧
      (conclude i m done b).1.instructions = 1 ∧
      (conclude i m done b).2.cpu.pc = done.cpu.pc ∧
      (conclude i m done b).1.cycles =
        if passes i.decoded m.cpu then
          if done.cpu.pc ≠ m.cpu.pc + BitVec.ofNat 32 i.size then
            executedCycles i m.cpu + i.branchPenalty
          else executedCycles i m.cpu
        else 1 := by
  have hpc : (if i.decoded.kind ≠ .it ∧ inItBlock m.cpu.itState = true then done.cpu.advanceIt
      else done.cpu).pc = done.cpu.pc := by
    split
    · exact advanceIt_pc _
    · rfl
  unfold conclude
  rw [if_pos h]
  refine ⟨h, rfl, hpc, ?_⟩
  rw [hpc]
  cases passes i.decoded m.cpu <;> simp [h]

lemma conclude_reason :
    (conclude i m done b).1.reason = done.reason := by
  unfold conclude
  dsimp only
  split_ifs <;> rfl

end

lemma itAdjusted_kind (wasInIt : Bool) (d : DecodedInstruction) :
    (itAdjusted wasInIt d).kind = d.kind := by
  unfold itAdjusted
  split <;> rfl

end Fil.Cpu
