-- The exception number in the status of the core. No instruction changes it: it is
-- written by exception entries and returns only, so what firmware does between them
-- never moves the core from one handler to another.
import Fil.StepEffects

open Dialogue Fil.Mem

namespace Fil.Cpu

/-! ## Fields of the status word -/

section Status

variable {x flags : BitVec 32}

lemma ipsr_and_not (hf : ~~~flags &&& xpsrIpsrMask = xpsrIpsrMask) :
    (x &&& ~~~flags) &&& xpsrIpsrMask = x &&& xpsrIpsrMask := by
  rw [BitVec.and_assoc, hf]

lemma ipsr_or (hf : flags &&& xpsrIpsrMask = 0) :
    (x ||| flags) &&& xpsrIpsrMask = x &&& xpsrIpsrMask := by
  rw [or_and, hf]
  exact BitVec.or_zero

end Status

/-- The same exception runs. -/
def SameMode (s t : CpuState) : Prop := t.ipsr = s.ipsr

section Mode

variable {s t u : CpuState}

lemma SameMode.refl (s : CpuState) : SameMode s s := rfl

lemma SameMode.trans (h1 : SameMode s t) (h2 : SameMode t u) : SameMode s u := Eq.trans h2 h1

lemma SameMode.of_xpsr (h : t.xpsr = s.xpsr) : SameMode s t :=
  congrArg (fun x : BitVec 32 => x &&& xpsrIpsrMask) h

section

variable (s : CpuState) (i : Nat) (v : BitVec 32)

lemma setCore_sameMode : SameMode s (s.setCore i v) :=
  .of_xpsr (s.setCore_xpsr i v)

lemma setSingle_sameMode :
    SameMode s (s.setSingle i v) := by
  unfold CpuState.setSingle
  split <;> rfl

end

/-- The IT bits stand apart from the exception number. -/
lemma setItState_sameMode (s : CpuState) (v : BitVec 8) : SameMode s (s.setItState v) := by
  have hlow : ∀ v : BitVec 8, ((v &&& 0x03).setWidth 32 <<< 25) &&& xpsrIpsrMask = 0 := by
    decide +kernel
  have hhigh : ∀ v : BitVec 8, ((v &&& 0xfc).setWidth 32 <<< 8) &&& xpsrIpsrMask = 0 := by
    decide +kernel
  unfold SameMode CpuState.setItState CpuState.ipsr
  rw [ipsr_or (hhigh v), ipsr_or (hlow v), ipsr_and_not (by decide)]

lemma SameMode.ite {p : Prop} [Decidable p] (ht : SameMode s t) (hu : SameMode s u) :
    SameMode s (if p then t else u) := Frame.ite ht hu

/-- The exception number is no flag, and no register holds it. -/
lemma modeFrame : Frame SameMode (fun _ => True) where
  refl := .refl
  trans := .trans
  register s i v _ := .of_xpsr (s.writeRegister_xpsr i v)
  core s i v _ _ := setCore_sameMode s i v
  branch {s t v} _ h := by
    unfold CpuState.branchWritePc at h
    split at h
    · cases h
    · cases h
      exact ipsr_or (by decide)
  halt _ _ := rfl
  single := setSingle_sameMode
  status s x h := by
    have hmask : ~~~flagBits &&& xpsrIpsrMask = xpsrIpsrMask := by decide
    have hmode : (x &&& ~~~flagBits) &&& xpsrIpsrMask = (s.xpsr &&& ~~~flagBits) &&& xpsrIpsrMask :=
      congrArg (· &&& xpsrIpsrMask) h
    rwa [BitVec.and_assoc, BitVec.and_assoc, hmask] at hmode
  claim _ := rfl
  aside _ := rfl

end Mode

/-! ## Every instruction -/

structure StepFrame (R : CpuState → CpuState → Prop) : Prop extends Frame R (fun _ => True) where
  it (s : CpuState) (v : BitVec 8) : R s (s.setItState v)
  placed (s : CpuState) (instructionAddress : BitVec 32) : R s { s with instructionAddress }

namespace StepFrame

variable {R : CpuState → CpuState → Prop} (F : StepFrame R) (i : DecodedInstruction) (s : CpuState)

include F

lemma executeIt : R s (executeIt i s).cpu := by
  unfold Cpu.executeIt
  split
  · exact F.halt s trivial
  · exact F.it s _

/-- An MSR writes past the registers, and has to be looked at on its own. -/
lemma dispatch (fp : FpUnit) (hmsr : i.kind = .msr → R s (executeMsr i s).cpu) :
    Keeps R s (dispatch fp i s) := by
  cases hk : i.kind
  case it =>
    rw [Cpu.dispatch, hk]
    exact F.executeIt i s
  case msr =>
    rw [Cpu.dispatch, hk]
    exact hmsr hk
  case bkpt =>
    rw [Cpu.dispatch, hk]
    exact F.halt s trivial
  all_goals
    have hall : WritesOnly (fun _ => True) i := ⟨by simp, by simp, by simp, by simp, by simp⟩
    exact F.toFrame.dispatch hall fp s (by simp [hk]) (by simp [hk]) (by simp [hk])

lemma execute (fp : FpUnit) (aspen : Bool) (hmsr : i.kind = .msr → R s (executeMsr i s).cpu) :
    Keeps R s (execute fp aspen i s) := by
  by_cases hfp : isFpRegisterAccess i.kind = false
  · rw [execute_eq_dispatch hfp]
    exact F.dispatch i s fp hmsr
  refine (F.touchFp s aspen).bind fun v hv => ?_
  cases v with
  | error failed => exact hv
  | ok t =>
    refine (F.dispatch i t fp fun hk => ?_).mono fun e he => F.trans hv he
    rw [hk] at hfp
    exact absurd rfl hfp

variable {δ : Type} (env : Environment δ)

lemma body (i : StepInstruction) (m : Machine δ) (hmsr : i.decoded.kind = .msr →
      R (entered m.cpu i.size) (executeMsr i.decoded (entered m.cpu i.size)).cpu) :
    R m.cpu (body env false false i m).1.cpu := by
  have hentered : R m.cpu (entered m.cpu i.size) :=
    F.trans (F.placed _ m.cpu.pc) (F.core _ (i := 15) _ trivial (by decide))
  refine F.trans hentered ?_
  unfold Cpu.body
  split
  · refine (F.execute _ _ _ _ ?_).ends Request.perform m.bus
    unfold itAdjusted
    split <;> exact hmsr
  · exact F.refl _

lemma conclude (i : StepInstruction) {m : Machine δ} {done : Executed} {b : MemoryBus δ}
    (h : R m.cpu done.cpu) : R m.cpu (conclude i m done b).2.cpu := by
  have hadvanced : R m.cpu (if i.decoded.kind ≠ .it ∧ inItBlock m.cpu.itState = true then
      done.cpu.advanceIt else done.cpu) := Frame.ite (F.trans h (F.it _ _)) h
  unfold Cpu.conclude
  by_cases hc : done.reason = .stepComplete
  · rw [if_pos hc]
    exact hadvanced
  rw [if_neg hc]
  split
  · exact F.refl _
  · exact hadvanced

/-- A step keeps what its MSR keeps, if it runs one. -/
lemma stepFast (m : Machine δ) (hmsr : ∀ raw size d b, fetch m.cpu.pc m.bus =
      (.decoded raw size d, b) → d.kind = .msr →
        R (entered m.cpu size) (executeMsr d (entered m.cpu size)).cpu) :
    R m.cpu (stepFast env m).2.cpu := by
  unfold Cpu.stepFast stepFastImpl
  dsimp only
  split
  · exact F.refl _
  split
  · exact F.halt _ trivial
  split
  · exact F.refl _
  · exact F.refl _
  · rename_i raw size d b hfetch
    exact F.conclude _ (F.body env (prepare raw size d) { m with bus := b }
      (hmsr raw size d b hfetch))

/-! Returns pop the floating-point registers as loads do. -/

lemma unstackSingles (context : AccessContext) (count reg : Nat) (address : BitVec 32)
    (s : CpuState) :
    (unstackSingles context count reg address s).Every (fun _ => True) (fun x => R s x.2) := by
  induction count generalizing reg address s with
  | zero => exact F.refl s
  | succ count ih =>
    refine .query trivial fun v => ?_
    cases v with
    | error fault => exact F.refl s
    | ok value => exact (ih _ _ _).mono fun x hx => F.trans (F.single s _ _) hx

lemma unstackFp (s : CpuState) (sp : BitVec 32) :
    (unstackFp s sp).Every (fun _ => True) (fun x => R s x.2) := by
  refine (F.unstackSingles _ _ _ _ _).bind fun x hx => ?_
  obtain ⟨popped, t⟩ := x
  cases popped with
  | error fault => exact hx
  | ok _ =>
    refine .query trivial fun v => ?_
    cases v with
    | error fault => exact hx
    | ok value => exact F.trans hx (F.aside t)

lemma popFp {s t : CpuState} {extended : Bool} {sp : BitVec 32} {b b' : MemoryBus δ}
    {x : Except ExceptionError Unit} (h : popFp s extended sp b = ((x, t), b')) : R s t := by
  unfold Cpu.popFp at h
  split at h
  · have hends := (F.unstackFp s sp).ends Request.perform b
    rw [h] at hends
    exact hends
  · cases h
    exact F.refl s

end StepFrame

lemma modeStepFrame : StepFrame SameMode where
  toFrame := modeFrame
  it := setItState_sameMode
  placed _ _ := rfl

lemma executeMsr_sameMode (i : DecodedInstruction) (s : CpuState) :
    SameMode s (executeMsr i s).cpu := by
  unfold executeMsr
  split
  case h_1 => exact SameMode.ite (setCore_sameMode { s with msp := _ } _ _) rfl
  case h_2 => exact SameMode.ite rfl (setCore_sameMode { s with psp := _ } _ _)
  case h_5 => exact SameMode.ite rfl rfl
  all_goals rfl

/-- No step changes the exception number. -/
lemma stepFast_sameMode {δ : Type} (env : Environment δ) (m : Machine δ) :
    SameMode m.cpu (stepFast env m).2.cpu :=
  modeStepFrame.stepFast env m fun _ _ d _ _ _ => executeMsr_sameMode d _

end Fil.Cpu
