-- What a step of the core, an exception entry and a return do to the bus. Each is
-- a sequence of calls; an entry and a return that succeed end with one change of
-- the system control.
import Fil.BlockFacts
import Fil.Exceptions
import Fil.FastPaths

open Dialogue Fil.Mem Fil.Mem.MemoryBus
open Does (refl trans)

namespace Fil.Cpu

variable {δ : Type}

lemma perform_path (r : Request) (b : MemoryBus δ) : Path b (r.perform b).2 := by
  cases r with
  | read8 | read16 | read32 =>
    simp only [Request.perform, read8_eq, read16_eq, read32_eq]
    exact read_path b _ _ _
  | write8 | write16 | write32 =>
    simp only [Request.perform, write8_eq, write16_eq, write32_eq]
    exact write_path b _ _ _ _

lemma perform_does (r : Request) (b : MemoryBus δ) : Does b (r.perform b).2 :=
  (perform_path r b).does

lemma run_does {α : Type} (p : BusM α) (b : MemoryBus δ) : Does b (p.run Request.perform b).2 :=
  Prog.run_rel refl trans perform_does p b

/-! ## A step -/

lemma read16_does (b : MemoryBus δ) (a : BitVec 32) (c : AccessContext) :
    Does b (b.read16 a c).2 := perform_does (.read16 a c) b

lemma fetch_bus (pc : BitVec 32) (b : MemoryBus δ) :
    (fetch pc b).2 = (b.read16 pc ⟨.instructionFetch, pc⟩).2 ∨
      (fetch pc b).2 = ((b.read16 pc ⟨.instructionFetch, pc⟩).2.read16 (pc + 2)
        ⟨.instructionFetch, pc⟩).2 := by
  unfold fetch
  dsimp only
  rcases b.read16 pc ⟨.instructionFetch, pc⟩ with ⟨fault | first, b1⟩
  · exact .inl rfl
  dsimp only
  split_ifs
  · exact .inl rfl
  · rcases b1.read16 (pc + 2) ⟨.instructionFetch, pc⟩ with ⟨fault | second, b2⟩
    · exact .inr rfl
    · dsimp only
      cases decode32 first second <;> exact .inr rfl
  · cases decode16 first <;> exact .inl rfl

/-- What every call keeps, a fetch keeps. -/
lemma fetch_rel {R : MemoryBus δ → MemoryBus δ → Prop}
    (htrans : ∀ a b c, R a b → R b c → R a c) (hcall : ∀ (r : Request) b, R b (r.perform b).2)
    (pc : BitVec 32) (b : MemoryBus δ) : R b (fetch pc b).2 := by
  have hread : ∀ a c (b : MemoryBus δ), R b (b.read16 a c).2 := fun a c => hcall (.read16 a c)
  rcases fetch_bus pc b with h | h <;> rw [h]
  · exact hread _ _ _
  · exact htrans _ _ _ (hread _ _ _) (hread _ _ _)

lemma fetch_does (pc : BitVec 32) (b : MemoryBus δ) : Does b (fetch pc b).2 :=
  fetch_rel (R := Does) (fun _ _ _ => trans) perform_does pc b

lemma executeJitFast_path (d : DecodedInstruction) (fast : JitFast) (pc : BitVec 32)
    (s : CpuState) (b : MemoryBus δ) : BackedPath b (executeJitFast d fast pc s b).bus := by
  cases fast <;>
    dsimp only [executeJitFast, fastBxBlx, fastPopPc, fastLdrWordGpr, fastStrWordGpr, fastLdrImm,
      fastStrImm, fastLdrSub, fastStrSub, fastLdrdStrd, fastMultiple] <;>
    (repeat' split) <;>
    first
    | exact .refl b
    | exact tryFastRead_path (by assumption)
    | exact tryFastRead32_path (by assumption)
    | exact tryFastReadWords_path (by assumption)
    | exact tryFastWrite_path (by assumption)
    | exact tryFastWrite32_path (by assumption)
    | exact tryFastWriteWords_path (by assumption)

lemma conclude_bus (i : StepInstruction) (m : Machine δ) (done : Executed) (b : MemoryBus δ) :
    (conclude i m done b).2.bus = b := by
  unfold conclude
  dsimp only
  split_ifs <;> rfl

lemma stepFastImpl_rel {R : MemoryBus δ → MemoryBus δ → Prop} (hrefl : ∀ b, R b b)
    (htrans : ∀ a b c, R a b → R b c → R a c) (hcall : ∀ (r : Request) b, R b (r.perform b).2)
    (hbacked : ∀ {b b'}, BackedPath b b' → R b b') (env : Environment δ) (useJit : Bool)
    (m : Machine δ) : R m.bus (stepFastImpl env useJit m).2.bus := by
  have hfast : ∀ d fast pc s b, R b (executeJitFast d fast pc s b).bus :=
    fun d fast pc s b => hbacked (executeJitFast_path d fast pc s b)
  have hrun : ∀ d s b, R b (executeOn env d s b).2 :=
    fun d s b => Prog.run_rel hrefl (htrans _ _ _) hcall _ b
  have hchecked : ∀ (declined : Bool) (i : StepInstruction) (m : Machine δ),
      R m.bus (retireChecked env useJit declined i m).2.bus := by
    intro declined i m
    unfold retireChecked
    rw [conclude_bus]
    unfold body runBody
    dsimp only
    split
    · split
      · split
        · exact hfast _ _ _ _ _
        · exact htrans _ _ _ (hfast _ _ _ _ _) (hrun _ _ _)
      · exact hrun _ _ _
    · exact hrefl _
  have hfetch := fetch_rel htrans hcall m.cpu.pc m.bus
  unfold stepFastImpl
  dsimp only
  split_ifs
  · exact hrefl _
  · exact hrefl _
  rcases hresult : fetch m.cpu.pc m.bus with ⟨fetched, b⟩
  rw [hresult] at hfetch
  cases fetched with
  | faulted raw size fault message => exact hfetch
  | undefined raw size => exact hfetch
  | decoded raw size d =>
    refine htrans _ _ _ hfetch ?_
    unfold retire
    dsimp only
    split
    · split
      · exact hfast _ _ _ _ _
      · exact htrans _ _ _ (hfast d (classifyJitFast d) m.cpu.pc (entered m.cpu size) b)
          (hchecked true _ ⟨_, _, _⟩)
    · exact hchecked false _ { m with bus := b }

lemma stepFastImpl_does {env : Environment δ} (jit : Bool) (m : Machine δ) :
    Does m.bus (stepFastImpl env jit m).2.bus :=
  stepFastImpl_rel (R := Does) refl (fun _ _ _ => trans) perform_does
    (fun h => h.does) env jit m

/-! ## Frames -/

variable {c : AccessContext} {b b' : MemoryBus δ}

lemma stackCore_does {frame : List (BitVec 32)} {base : BitVec 32}
    {x : Except ExceptionError Unit} (h : stackCore c frame base b = (x, b')) : Does b b' := by
  have hrun := run_does (writeEach c frame base) b
  unfold stackCore at h
  split at h
  · rename_i hfast
    cases h
    exact (tryFastWriteWords_path hfast).does
  · split at h <;> rename_i hwrote <;> rw [hwrote] at hrun <;> cases h <;> exact hrun

lemma unstackCore_does {base : BitVec 32}
    {x : Except ExceptionError (List (BitVec 32))} (h : unstackCore c base b = (x, b')) :
    Does b b' := by
  have hrun := run_does (readEach c (List.range 8) base) b
  unfold unstackCore at h
  split at h
  · rename_i hfast
    cases h
    exact (tryFastReadWords_path hfast).does
  · split at h <;> rename_i hread <;> rw [hread] at hrun <;> cases h <;> exact hrun

lemma read32_does {a : BitVec 32} {x : Except BusFault (BitVec 32)}
    (h : b.read32 a c = (x, b')) : Does b b' := by
  have hread := perform_does (.read32 a c) b
  rwa [Request.perform, h] at hread

section Exceptions

variable {sys : SystemControl δ}

lemma pushFp_does {s : CpuState} {newSp : BitVec 32}
    {x : Except ExceptionError Unit} (h : pushFp sys s newSp b = (x, b')) : Does b b' := by
  have hrun := run_does (stackFp s newSp) b
  unfold pushFp at h
  split at h
  · rw [h] at hrun
    exact hrun
  · cases h
    exact refl _

lemma popFp_does {s : CpuState} {extended : Bool} {sp : BitVec 32}
    {x : Except ExceptionError Unit × CpuState} (h : popFp s extended sp b = (x, b')) :
    Does b b' := by
  have hrun := run_does (unstackFp s sp) b
  unfold popFp at h
  split at h
  · rw [h] at hrun
    exact hrun
  · cases h
    exact refl _

/-! ## Entry and return -/

/-- What an entry, a return or their parts leave behind: a failure leaves the
active exceptions, a success changes them and the system control last. -/
def Leaves (h : Handling δ) (stack : List (BitVec 16)) (change : δ → δ)
    (result : Except ExceptionError Unit × Handling δ) : Prop :=
  ((∃ e, result.1 = .error e) ∧ result.2.activeStack = h.activeStack ∧
      Does h.bus result.2.bus) ∨
    (result.1 = .ok () ∧ result.2.activeStack = stack ∧
      ∃ b, Does h.bus b ∧ result.2.bus = { b with deviceState := change b.deviceState })

variable {h : Handling δ}

lemma Leaves.failure {h' : Handling δ} {stack : List (BitVec 16)} {change : δ → δ}
    {e : ExceptionError} (hstack : h'.activeStack = h.activeStack) (hdoes : Does h.bus h'.bus) :
    Leaves h stack change (.error e, h') :=
  .inl ⟨⟨e, rfl⟩, hstack, hdoes⟩

lemma pushFrame_leaves (number : BitVec 16) (handler newSp : BitVec 32) (padding : Bool)
    (hdoes : Does h.bus b) :
    Leaves h (number :: h.activeStack) (sys.enter number)
      (pushFrame sys number handler newSp padding { h with bus := b }) := by
  unfold pushFrame
  split
  · rename_i hpushed
    exact Leaves.failure rfl (hdoes.trans (pushFp_does hpushed))
  rename_i hpushed
  dsimp only
  split
  · rename_i hstacked
    exact Leaves.failure rfl ((hdoes.trans (pushFp_does hpushed)).trans (stackCore_does hstacked))
  rename_i hstacked
  exact .inr ⟨rfl, rfl, _, (hdoes.trans (pushFp_does hpushed)).trans (stackCore_does hstacked),
    rfl⟩

variable {result : Except ExceptionError Unit × Handling δ}

lemma enter_leaves {number : BitVec 16}
    (heq : enter sys number h = result) :
    Leaves h (number :: h.activeStack) (sys.enter number) result := by
  subst heq
  unfold enter
  dsimp only
  split_ifs
  any_goals exact Leaves.failure rfl (refl _)
  · split
    · rename_i hvector
      exact Leaves.failure rfl (read32_does hvector)
    rename_i hvector
    split
    · exact Leaves.failure rfl (read32_does hvector)
    · exact pushFrame_leaves _ _ _ _ (read32_does hvector)

lemma exceptionReturn_leaves {token : BitVec 32}
    (heq : exceptionReturn sys token h = result) :
    Leaves h h.activeStack.tail (leaveActive sys h.activeStack) result := by
  subst heq
  unfold exceptionReturn
  dsimp only
  split_ifs
  any_goals exact Leaves.failure rfl (refl _)
  · split
    · rename_i hpopped
      exact Leaves.failure rfl (popFp_does hpopped)
    rename_i hpopped
    split
    · rename_i hcore
      exact Leaves.failure rfl ((popFp_does hpopped).trans (unstackCore_does hcore))
    rename_i hcore
    have hdoes := (popFp_does hpopped).trans (unstackCore_does hcore)
    split
    · exact Leaves.failure rfl hdoes
    · exact .inr ⟨rfl, rfl, _, hdoes, rfl⟩

/-! ## The boundary of an instruction -/

variable {R : Handling δ → Handling δ → Prop} (hrefl : ∀ h, R h h)
  (htrans : ∀ a b c, R a b → R b c → R a c)

include htrans hrefl

/-- What the four parts keep, settling a boundary keeps. -/
lemma settle_rel (hreturn : ∀ h, R h (settleReturn sys h).2)
    (hexception : ∀ h, R h (settleException sys h).2) (hpending : ∀ h, R h (settlePending sys h).2)
    (hreset : ∀ h, R h (settleReset sys h).2) (h : Handling δ) :
    R h (settleInstructionBoundary sys h).2 := by
  unfold settleInstructionBoundary
  split
  · have hreturned := hreturn h
    unfold settleInstructionBoundarySlow
    split
    · rename_i heq
      rwa [heq] at hreturned
    rename_i h₁ heq
    rw [heq] at hreturned
    have hraised := htrans _ _ _ hreturned (hexception h₁)
    split
    · rename_i heq'
      rwa [heq'] at hraised
    rename_i h₂ heq'
    rw [heq'] at hraised
    have htaken := htrans _ _ _ hraised (hpending h₂)
    split
    · rename_i heq''
      rwa [heq''] at htaken
    rename_i h₃ heq''
    rw [heq''] at htaken
    exact htrans _ _ _ htaken (hreset h₃)
  · exact hrefl h

/-- What entries and returns keep, settling a boundary keeps, if it may take what it settles
from the core. -/
lemma settle_rel_of_calls
    (hcleared : ∀ h token number, R h { h with
      cpu := { h.cpu with pendingExcReturn := token, pendingException := number } })
    (henter : ∀ number h, R h (enter sys number h).2)
    (hreturn : ∀ token h, R h (exceptionReturn sys token h).2)
    (hreset : ∀ h, R h (settleReset sys h).2) (h : Handling δ) :
    R h (settleInstructionBoundary sys h).2 := by
  refine settle_rel hrefl htrans (fun h => ?_) (fun h => ?_) (fun h => ?_) hreset h
  · unfold settleReturn
    split
    · exact hrefl h
    · exact htrans _ _ _ (hcleared h none h.cpu.pendingException) (hreturn _ _)
  · unfold settleException
    split
    · exact hrefl h
    · exact htrans _ _ _ (hcleared h h.cpu.pendingExcReturn none) (henter _ _)
  · unfold settlePending enterPending
    split
    · split
      · exact hrefl h
      · exact henter _ h
    · exact hrefl h

end Exceptions

end Fil.Cpu
