-- What the reference executor depends on: alike buses give the same end, and
-- a row of words that one region serves is read or written as the fast paths
-- read or write it.
import Fil.PlainAccesses
import Fil.Executor

open Dialogue Fil.Mem Fil.Mem.MemoryBus
open Fil.Cpu.Request (perform)

namespace Fil.Cpu

variable {δ : Type}

/-! ## Alike buses -/

lemma perform_blind (request : Request) : Blind fun b : MemoryBus δ => request.perform b := by
  cases request with
  | read8 a c =>
    simp only [perform, read8_eq]
    exact (read_blind a .byte c).map fun r => (r.map (·.setWidth 8)).map (·.setWidth 32)
  | read16 a c => exact (read16_blind a c).map _
  | read32 a c =>
    simp only [perform, read32_eq]
    exact (read_blind a .word c).map _
  | write8 a v c | write16 a v c | write32 a v c =>
    simp only [perform, write8_eq, write16_eq, write32_eq]
    exact (write_blind a _ _ c).map _

variable {b b' : MemoryBus δ}

lemma run_alike {α : Type} (p : BusM α) (h : Alike b b') :
    (p.run perform b).1 = (p.run perform b').1 ∧
      Alike (p.run perform b).2 (p.run perform b').2 :=
  Prog.run_sim (fun request _ _ hb => (perform_blind request).alike hb) p h

/-! ## Single accesses that a fast path serves -/

variable {c : AccessContext} {a v : BitVec 32}

lemma perform_read32
    (h : b.tryFastRead32 a c = some (v, b')) : (Request.read32 a c).perform b = (.ok v, b') := by
  simp only [perform, read32, h]

lemma perform_write32
    (h : b.tryFastWrite32 a v c = some b') : (Request.write32 a v c).perform b = (.ok 0, b') := by
  simp only [perform, write32, h]
  rfl

/-! ## Rows of words -/

variable {r : Region}

lemma tryFastRead32_of_region
    (h : b.fastReadRegion a 4 c = some r) :
    ∃ b', b.tryFastRead32 a c = some (b.loadWord a, b') ∧ Alike b' b := by
  have halike := alike_readNote_self c b a
  refine ⟨readNote c b a, ?_, halike⟩
  unfold tryFastRead32 loadWord
  rw [h, ← halike.bytes]
  rfl

lemma tryFastWrite32_of_region
    (h : b.fastWriteRegion a 4 false = some r) :
    ∃ b', b.tryFastWrite32 a v c = some b' ∧ Alike b' (b.storeBackedWord a v (c.pc = 0)) := by
  unfold tryFastWrite32
  rw [h]
  refine ⟨_, rfl, ?_⟩
  rw [Alike, unwatched_noteExecutable, unwatched_storeBackedWord, unwatched_storeBackedWord,
    unwatched_addStoreFootprint]

lemma run_readEach (regs : List Nat) (a : BitVec 32)
    {b0 : MemoryBus δ} (halike : Alike b b0)
    (h : b0.fastReadRegion a (regs.length * 4) c = some r ∨ regs = []) :
    ∃ b', (readEach c regs a).run perform b =
        (.ok (regs.zip ((List.range regs.length).map fun w =>
          b0.loadWord (a + BitVec.ofNat 32 (w * 4)))), b') ∧ Alike b' b0 := by
  induction regs generalizing a b with
  | nil => exact ⟨b, rfl, halike⟩
  | cons reg rest ih =>
    rcases h with h | h
    · have hfirst : b.fastReadRegion a 4 c = some r := by
        rw [halike.fastReadRegion]
        have := fastReadRegion_part h (i := 0) (w := 4) (by grind) (by omega)
        simpa using this
      have hrest : b0.fastReadRegion (a + 4) (rest.length * 4) c = some r ∨ rest = [] := by
        rcases rest with _ | ⟨x, rest⟩
        · exact .inr rfl
        · exact .inl (fastReadRegion_part h (i := 4) (by simp; omega) (by simp))
      obtain ⟨b1, hread, h1⟩ := tryFastRead32_of_region hfirst
      obtain ⟨b2, hrun, h2⟩ := ih (a + 4) (h1.trans halike) hrest
      refine ⟨b2, ?_, h2⟩
      have hword : b.loadWord a = b0.loadWord a := by unfold loadWord; rw [halike.bytes]
      have hwords : (List.range (rest.length + 1)).map (fun w =>
          b0.loadWord (a + BitVec.ofNat 32 (w * 4))) = b0.loadWord a ::
            (List.range rest.length).map fun w => b0.loadWord (a + 4 + BitVec.ofNat 32 (w * 4)) := by
        simp [List.range_succ_eq_map, Function.comp_def, next_word]
      simp only [readEach, request, Prog.run_bind, Prog.run_query, perform_read32 hread, hrun,
        Prog.run_pure, List.length_cons, hwords, List.zip_cons_cons, hword]
    · cases h

lemma run_writeEach (vs : List (BitVec 32)) (a : BitVec 32)
    {b0 : MemoryBus δ} (halike : Alike b b0)
    (h : b0.fastWriteRegion a (vs.length * 4) false = some r ∨ vs = []) :
    ∃ b', (writeEach c vs a).run perform b = (.ok (), b') ∧
      Alike b' (b0.storeWords (c.pc = 0) a vs) := by
  induction vs generalizing a b b0 with
  | nil => exact ⟨b, rfl, halike⟩
  | cons v rest ih =>
    rcases h with h | h
    · have hregion : b.fastWriteRegion = b0.fastWriteRegion :=
        halike.congr MemoryBus.fastWriteRegion fun _ => rfl
      have hfirst : b.fastWriteRegion a 4 false = some r := by
        rw [hregion]
        have := fastWriteRegion_part h (i := 0) (w := 4) (by grind) (by omega)
        simpa using this
      have hstore : (b0.storeBackedWord a v (c.pc = 0)).fastWriteRegion = b0.fastWriteRegion := by
        unfold storeBackedWord
        dsimp only
        split_ifs <;> rfl
      have hrest : (b0.storeBackedWord a v (c.pc = 0)).fastWriteRegion (a + 4) (rest.length * 4)
          false = some r ∨ rest = [] := by
        rw [hstore]
        rcases rest with _ | ⟨x, rest⟩
        · exact .inr rfl
        · exact .inl (fastWriteRegion_part h (i := 4) (by simp; omega) (by simp))
      obtain ⟨b1, hwrite, h1⟩ := tryFastWrite32_of_region (v := v) (c := c) hfirst
      have hword : Alike (b.storeBackedWord a v (c.pc = 0)) (b0.storeBackedWord a v (c.pc = 0)) := by
        unfold Alike
        rw [unwatched_storeBackedWord, unwatched_storeBackedWord, halike]
      obtain ⟨b2, hrun, h2⟩ := ih (a + 4) (h1.trans hword) hrest
      refine ⟨b2, ?_, h2⟩
      simp only [writeEach, request, Prog.run_bind, Prog.run_query, perform_write32 hwrite, hrun]
    · cases h

/-! ## Instructions that leave the floating-point registers alone -/

lemma execute_eq_dispatch {fp : FpUnit} {aspen : Bool} {i : DecodedInstruction} {s : CpuState}
    (h : isFpRegisterAccess i.kind = false) : execute fp aspen i s = dispatch fp i s := by
  simp only [execute, touchFp, h]
  rfl

end Fil.Cpu
