-- The stepper with its fast handlers gives what the stepper without them
-- gives: the same result and cycles, the same core and diagnostic, and a bus
-- that differs in its notes at most.
import Fil.HandlerRefinement

open Dialogue Fil.Mem Fil.Mem.MemoryBus

namespace Fil.Cpu

variable {δ : Type}

/-! ## Alike machines -/

/-- Two machines that differ in the notes of the bus only. -/
structure Machine.Alike (m m' : Machine δ) : Prop where
  cpu : m.cpu = m'.cpu
  bus : MemoryBus.Alike m.bus m'.bus
  lastDiagnostic : m.lastDiagnostic = m'.lastDiagnostic

lemma Machine.Alike.refl (m : Machine δ) : Machine.Alike m m := ⟨rfl, .refl _, rfl⟩

variable {m m' : Machine δ} {d : DecodedInstruction}

/-- Two ends of a step that nobody but a watcher of the bus can tell apart. -/
def SameStep (x y : FastStepResult × Machine δ) : Prop := x.1 = y.1 ∧ Machine.Alike x.2 y.2

/-- The same for the ends of an instruction. -/
def SameEnd (x y : Executed × MemoryBus δ) : Prop := x.1 = y.1 ∧ MemoryBus.Alike x.2 y.2

lemma SameEnd.trans {x y z : Executed × MemoryBus δ} (h1 : SameEnd x y) (h2 : SameEnd y z) :
    SameEnd x z := ⟨h1.1.trans h2.1, h1.2.trans h2.2⟩

variable {env : Environment δ}

lemma executeOn_alike (d : DecodedInstruction) (s : CpuState) {b b' : MemoryBus δ}
    (h : MemoryBus.Alike b b') : SameEnd (executeOn env d s b) (executeOn env d s b') := by
  unfold executeOn
  rw [h.deviceState]
  exact run_alike _ h

/-- What follows the body of an instruction does not look at the notes. -/
lemma conclude_alike (i : StepInstruction) (hm : Machine.Alike m m')
    {x y : Executed × MemoryBus δ} (h : SameEnd x y) :
    SameStep (conclude i m x.1 x.2) (conclude i m' y.1 y.2) := by
  obtain ⟨hcpu, hbus, hdiagnostic⟩ := hm
  obtain ⟨hdone, hb⟩ := h
  unfold conclude
  dsimp only
  rw [hcpu, hbus.mmioTrapping, hdiagnostic, hdone]
  split_ifs <;> exact ⟨rfl, rfl, hb, rfl⟩

/-! ## With and without handlers -/

lemma runBody_sound {s : CpuState} {b : MemoryBus δ} {fast : JitFast}
    (h : Sound env d s b fast) (attempt : Bool) :
    SameEnd (runBody env attempt fast s.instructionAddress d s b) (executeOn env d s b) := by
  unfold runBody
  dsimp only
  split_ifs with hattempt hhandled
  · obtain ⟨h1, h2⟩ := h.served hhandled
    exact ⟨h1.symm, h2.symm⟩
  · obtain ⟨h1, h2⟩ := h.declined (by simpa using hhandled)
    rw [h1]
    exact executeOn_alike d s h2
  · exact ⟨rfl, .refl _⟩

lemma classifyJitFast_itAdjusted (wasInIt : Bool) (d : DecodedInstruction) :
    classifyJitFast (itAdjusted wasInIt d) = classifyJitFast d := by
  unfold itAdjusted
  split <;> rfl

lemma Wellformed.itAdjusted (h : Wellformed d) (wasInIt : Bool) :
    Wellformed (itAdjusted wasInIt d) := by
  unfold Cpu.itAdjusted
  split
  · exact h.setFlags false
  · exact h

lemma entered_instructionAddress (s : CpuState) (size : Nat) :
    (entered s size).instructionAddress = s.pc := by
  simp [entered, CpuState.setPc]

lemma rewind_entered (s : CpuState) (size : Nat) :
    { entered s size with instructionAddress := s.instructionAddress }.setPc s.pc = s := by
  have h15 : Function.update (Function.update s.r 15 (s.pc + BitVec.ofNat 32 size)) 15 s.pc = s.r := by
    rw [Function.update_idem]
    exact Function.update_eq_self 15 s.r
  simp only [entered, CpuState.setPc, CpuState.setCore]
  exact congrArg (fun r => { s with r := r }) h15

section

variable (hd : Wellformed d) (raw : BitVec 32) (size : Nat) (useJit declined : Bool)
  (hm : Machine.Alike m m')
include hd hm

/-- The body with handlers against the body without, on alike buses. -/
lemma body_alike :
    SameEnd (body env useJit declined (prepare raw size d) m)
      (body env false false (prepare raw size d) m') := by
  obtain ⟨hcpu, hbus, -⟩ := hm
  unfold body
  rw [hcpu]
  split_ifs
  · have hsound : Sound env (itAdjusted (inItBlock m'.cpu.itState) d) (entered m'.cpu size) m.bus
        (classifyJitFast d) := by
      rw [← classifyJitFast_itAdjusted (inItBlock m'.cpu.itState) d]
      exact executeJitFast_faithful (hd.itAdjusted _)
    have hrun := runBody_sound hsound (useJit && !inItBlock m'.cpu.itState && !declined)
    rw [entered_instructionAddress] at hrun
    exact hrun.trans (executeOn_alike _ _ hbus)
  · exact ⟨rfl, hbus⟩

lemma retireChecked_alike :
    SameStep (retireChecked env useJit declined (prepare raw size d) m)
      (retireChecked env false false (prepare raw size d) m') :=
  conclude_alike _ hm (body_alike hd raw size useJit declined hm)

end

lemma passes_always {s : CpuState} (hc : d.condition = .al) (h : inItBlock s.itState = false) :
    passes d s = true := by
  have heffective : effectiveCondition d s.itState = .al := by
    unfold effectiveCondition
    rw [h, hc]
    split_ifs <;> first | rfl | contradiction
  simp [passes, heffective]

lemma passes_unconditional {s : CpuState} (hc : d.condition = .al) (hit : s.itState = 0) :
    passes d s = true := passes_always hc (by rw [hit]; rfl)

lemma body_reference (raw : BitVec 32) (size : Nat) (d : DecodedInstruction) (m : Machine δ) :
    body env false false (prepare raw size d) m =
      if passes d m.cpu then
        executeOn env (itAdjusted (inItBlock m.cpu.itState) d) (entered m.cpu size) m.bus
      else (complete (entered m.cpu size), m.bus) := rfl

lemma conclude_handled {i : StepInstruction} {m : Machine δ} (hc : i.decoded.condition = .al)
    (hit : m.cpu.itState = 0) (t : CpuState) (b : MemoryBus δ) :
    conclude i m (complete t) b =
      ({ suppressLoopObservation := i.suppressLoopObservation, instructionSize := i.size,
         instructions := 1, instructionAddress := m.cpu.pc, raw := i.raw,
         cycles := if t.pc ≠ m.cpu.pc + BitVec.ofNat 32 i.size then
             executedCycles i m.cpu + i.branchPenalty else executedCycles i m.cpu },
        { m with cpu := t, bus := b }) := by
  have hnot : ¬(i.decoded.kind ≠ .it ∧ inItBlock m.cpu.itState = true) := by
    rw [hit]
    exact fun h => absurd h.2 (by decide)
  unfold conclude
  simp [passes_unconditional hc hit, if_neg hnot, complete, noted]

/-- Retiring with handlers is retiring without them. -/
lemma retire_alike (hd : Wellformed d) (raw : BitVec 32) (size : Nat)
    (useJit : Bool) (hm : Machine.Alike m m') :
    SameStep (retire env useJit (prepare raw size d) m)
      (retire env false (prepare raw size d) m') := by
  have hreference : retire env false (prepare raw size d) m' =
      retireChecked env false false (prepare raw size d) m' := rfl
  rw [hreference]
  have hsound : Faithful env d (entered m.cpu size) m.bus
      (executeJitFast d (classifyJitFast d) m.cpu.pc (entered m.cpu size) m.bus) := by
    have h : Sound env d (entered m.cpu size) m.bus (classifyJitFast d) :=
      executeJitFast_faithful hd
    rwa [Sound, entered_instructionAddress] at h
  unfold retire
  split
  · rename_i hfast
    by_cases hhandled : (executeJitFast d (classifyJitFast d) m.cpu.pc (entered m.cpu size)
        m.bus).handled = true
    · -- the handler alone retired the instruction
      simp only [prepare, Bool.and_eq_true, decide_eq_true_eq] at hfast
      obtain ⟨⟨-, hit⟩, hc, -⟩ := hfast
      obtain ⟨h1, h2⟩ := hsound.served hhandled
      rw [if_pos (by exact hhandled), ← conclude_handled (i := prepare raw size d) hc hit]
      refine conclude_alike _ hm (x := (complete _, _)) (SameEnd.trans (y := body env false false
        (prepare raw size d) m) ?_ (body_alike hd raw size false false hm))
      rw [body_reference, if_pos (passes_unconditional hc hit), hit]
      exact ⟨h1.symm, h2.symm⟩
    · -- the handler declined, so the core is as it was
      rw [if_neg (by exact hhandled)]
      obtain ⟨h1, h2⟩ := hsound.declined (by simpa using hhandled)
      refine retireChecked_alike hd raw size useJit true ⟨?_, h2.trans hm.bus, hm.lastDiagnostic⟩
      exact (congrArg (fun s : CpuState =>
        { s with instructionAddress := m.cpu.instructionAddress }.setPc m.cpu.pc) h1).trans
        ((rewind_entered m.cpu size).trans hm.cpu)
  · exact retireChecked_alike hd raw size useJit false hm

/-! ## Whole steps -/

lemma fetch_blind (pc : BitVec 32) : Blind fun b : MemoryBus δ => fetch pc b := by
  intro b
  obtain ⟨h1, h2⟩ := read16_blind pc ⟨.instructionFetch, pc⟩ b
  dsimp only at h1 h2 ⊢
  unfold fetch
  dsimp only
  rcases h3 : b.read16 pc ⟨.instructionFetch, pc⟩ with ⟨fault | first, b1⟩ <;>
    rcases h4 : b.unwatched.read16 pc ⟨.instructionFetch, pc⟩ with ⟨fault' | first', b2⟩ <;>
    rw [h3, h4] at h1 h2 <;> cases h1
  · exact ⟨rfl, h2⟩
  · dsimp only
    split_ifs
    · exact ⟨rfl, h2⟩
    · obtain ⟨h5, h6⟩ := (read16_blind (pc + 2) ⟨.instructionFetch, pc⟩).alike h2
      rcases h7 : b1.read16 (pc + 2) ⟨.instructionFetch, pc⟩ with ⟨fault | second, b3⟩ <;>
        rcases h8 : b2.read16 (pc + 2) ⟨.instructionFetch, pc⟩ with ⟨fault' | second', b4⟩ <;>
        rw [h7, h8] at h5 h6 <;> cases h5
      · exact ⟨rfl, h6⟩
      · dsimp only
        cases decode32 first second <;> exact ⟨rfl, h6⟩
    · cases decode16 first <;> exact ⟨rfl, h2⟩

lemma fetch_decoded {pc raw : BitVec 32} {size : Nat}
    {b b' : MemoryBus δ} (h : fetch pc b = (.decoded raw size d, b')) : Decoded d size := by
  unfold fetch at h
  dsimp only at h
  split at h
  · cases h
  rename_i first b1 _
  split_ifs at h
  · cases h
  · split at h
    · cases h
    rename_i second b2 _
    split at h
    · cases h
    rename_i hd
    cases h
    exact .inr ⟨rfl, first, second, hd⟩
  · split at h
    · cases h
    rename_i hd
    cases h
    exact .inl ⟨rfl, first, hd⟩

/-- A step with handlers against a step without, from alike machines. -/
lemma stepFastImpl_alike (useJit : Bool) (hm : Machine.Alike m m') :
    SameStep (stepFastImpl env useJit m) (stepFast env m') := by
  obtain ⟨hcpu, hbus, hdiagnostic⟩ := hm
  unfold stepFast stepFastImpl
  dsimp only
  rw [hcpu, hdiagnostic]
  split_ifs
  · exact ⟨rfl, rfl, hbus, rfl⟩
  · exact ⟨rfl, rfl, hbus, rfl⟩
  obtain ⟨h1, h2⟩ := (fetch_blind m'.cpu.pc).alike hbus
  rcases h3 : fetch m'.cpu.pc m.bus with ⟨f, b⟩
  rcases h4 : fetch m'.cpu.pc m'.bus with ⟨f', b'⟩
  rw [h3, h4] at h1 h2
  dsimp only at h1 h2
  subst h1
  cases f with
  | faulted raw size fault message => exact ⟨rfl, rfl, h2, rfl⟩
  | undefined raw size => exact ⟨rfl, rfl, h2, rfl⟩
  | decoded raw size d =>
    exact retire_alike (fetch_decoded h3).wellformed raw size useJit ⟨rfl, h2, rfl⟩

/-- The handlers refine the executor. Given a decoded instruction, as it is
executed inside or outside IT, a handler that retires it ends with the core of
the executor and its memory, and a handler that declines it has changed
neither. So a step with handlers is a step without them, cycles included. -/
theorem fast_handlers_refine_the_executor (env : Environment δ) :
    (∀ d size, Decoded d size → ∀ (s : CpuState) (b : MemoryBus δ),
      let op := itAdjusted (inItBlock s.itState) d
      let h := executeJitFast op (classifyJitFast d) s.pc (entered s size) b
      let e := executeOn env op (entered s size) b
      (h.handled = true → e.1 = complete h.cpu ∧ MemoryBus.Alike e.2 h.bus) ∧
      (h.handled = false → h.cpu = entered s size ∧ MemoryBus.Alike h.bus b)) ∧
    ∀ m : Machine δ, SameStep (stepJitFast env m) (stepFast env m) := by
  refine ⟨fun d size hd s b => ?_, fun m => stepFastImpl_alike true (.refl m)⟩
  have h : Sound env (itAdjusted (inItBlock s.itState) d) (entered s size) b
      (classifyJitFast d) := by
    rw [← classifyJitFast_itAdjusted (inItBlock s.itState) d]
    exact executeJitFast_faithful (hd.wellformed.itAdjusted _)
  rw [Sound, entered_instructionAddress] at h
  exact ⟨h.served, h.declined⟩

/-! ## A small board -/

/-- Code in flash, some RAM, and one device. -/
def smallBoard (code : List (BitVec 16)) : MemoryBus Unit where
  map := ⟨[{ info := ⟨0x08000000, 0x1000, .flash, "flash", true, true, true⟩ },
      { info := ⟨0x20000000, 0x1000, .ram, "sram", true, true, false⟩ },
      { info := ⟨0x40000000, 0x400, .mmio, "timer", true, true, false⟩ }], by decide, by decide⟩
  bytes := fun a =>
    let offset := a.toNat - 0x08000000
    ByteLanes.byteAt (code.getD (offset / 2) 0) (offset % 2)
  devices := noDevices
  deviceState := ()

/-- No floating point to speak of. -/
def plainEnvironment : Environment Unit where
  fp :=
    { ofSigned := id, ofUnsigned := id, toSigned := id, toUnsigned := id, add := (· + ·),
      sub := (· - ·), mul := (· * ·), div := (· / ·), fma := fun a b c => a * b + c, neg := (- ·),
      abs := id, sqrt := id, isNan := fun _ => false, equal := (· == ·), less := (· < ·) }
  aspen := fun _ => true

/-- The core at the start of flash, with its stack at the end of RAM. -/
def resetState : CpuState :=
  { r := fun i => if i = 13 then 0x20001000 else if i = 15 then 0x08000000 else 0,
    msp := 0x20001000 }

/-- ADDS r0, r1, r2. -/
def sampleAdd : DecodedInstruction :=
  { kind := .add, form := .registerValue, rd := 0, rn := 1, rm := 2, setFlags := true,
    raw := 0x1888 }

theorem an_add_is_retired_by_its_handler :
    let h := executeJitFast sampleAdd (classifyJitFast sampleAdd) 0x08000000 (entered resetState 2)
      (smallBoard [0x1888])
    Decoded sampleAdd 2 ∧ h.handled = true ∧
      (executeOn plainEnvironment sampleAdd (entered resetState 2) (smallBoard [0x1888])).1 =
        complete h.cpu := by
  have hd : Decoded sampleAdd 2 := .inl ⟨rfl, 0x1888, by decide⟩
  exact ⟨hd, rfl, (((fast_handlers_refine_the_executor plainEnvironment).1 _ 2 hd resetState
    (smallBoard [0x1888])).1 rfl).1⟩

end Fil.Cpu
