-- The stepper: fetches one instruction, decodes it and retires it, through the
-- fast handlers or through the reference executor. The reference way is what
-- every faster way of running the core is measured against.
import Fil.DecoderFacts
import Fil.FastHandlers

open Dialogue Fil.Mem

namespace Fil.Cpu

/-! ## The machine -/

/-- What is kept about the last instruction that did not complete. -/
structure DiagnosticSnapshot where
  instructionAddress : BitVec 32 := 0
  nextPc : BitVec 32 := 0
  raw : BitVec 32 := 0
  instructionSize : Nat := 0
  registers : Fin 16 → BitVec 32 := fun _ => 0
  xpsr : BitVec 32 := 0
  busFault : Option BusFault := none
  message : String := ""

structure Machine (δ : Type) where
  cpu : CpuState
  bus : MemoryBus δ
  lastDiagnostic : DiagnosticSnapshot := {}

/-- What the core is built with: the arithmetic of the host, and the context
bit of the system control, which is one of the devices. -/
structure Environment (δ : Type) where
  fp : FpUnit
  aspen : δ → Bool

structure FastStepResult where
  reason : StopReason := .stepComplete
  suppressLoopObservation : Bool := false
  instructionSize : Nat := 0
  instructions : Nat := 0
  instructionAddress : BitVec 32 := 0
  raw : BitVec 32 := 0
  cycles : Nat := 0
  deriving DecidableEq

def capture (s : CpuState) (diagnostic : DiagnosticSnapshot) : DiagnosticSnapshot :=
  { diagnostic with
    nextPc := s.pc
    registers := Function.update s.r 13 s.activeSp
    xpsr := s.xpsr }

/-- The diagnostic of an instruction whose executor left a note. -/
def noted (note : Option Note) (diagnostic : DiagnosticSnapshot) : DiagnosticSnapshot :=
  match note with
  | none => diagnostic
  | some note => { diagnostic with busFault := note.busFault, message := note.message }

/-! ## Where a block of instructions has to stop -/

inductive JitBoundary
  | none
  | memoryMayTrap
  | controlFlow
  | exceptionOrSystem
  | floatingPoint
  | unsupported
  deriving DecidableEq

def classifyJitBoundary (i : DecodedInstruction) : JitBoundary :=
  match i.kind with
  | .mov | .add | .adc | .sub | .sbc | .movw | .movt => if i.rd = 15 then .controlFlow else .none
  | .rsb | .cmp | .cmn | .tst | .and_ | .orr | .eor | .bic | .mvn | .orn
  | .mul | .mla | .mls | .umull | .smull | .udiv | .sdiv
  | .clz | .bfc | .ubfx | .sxtb | .sxth | .uxtb | .uxth
  | .rev | .rev16 | .revsh | .uadd8 | .sel
  | .lsl | .lsr | .asr | .ror | .rrx | .nop => .none
  | .ldr | .str | .ldrb | .strb | .ldrh | .strh | .ldrsb | .ldrsh | .ldrd | .strd
  | .ldm | .stm | .push | .pop =>
    if i.rd = 15 then .controlFlow
    else if (i.kind = .ldm ∨ i.kind = .pop) ∧ i.registerList.getLsbD 15 then .controlFlow
    else .memoryMayTrap
  | .b | .bl | .bx | .blx | .cbz | .cbnz => .controlFlow
  | .tbb | .tbh | .it | .dmb | .dsb | .isb | .svc | .mrs | .msr | .cps
  | .wfi | .wfe | .sev | .bkpt => .exceptionOrSystem
  | .vstm | .vldm | .vldr | .vstr
  | .vmovCoreToSingle | .vmovSingleToCore | .vmovSingle | .vmovImmediate
  | .vcvtF32S32 | .vcvtF32U32 | .vcvtS32F32 | .vcvtU32F32
  | .vadd | .vsub | .vmul | .vnmul | .vdiv | .vfma | .vfms | .vfnms
  | .vcmp | .vneg | .vabs | .vsqrt | .vmrs => .floatingPoint
  | .undefined => .unsupported

/-! ## Fetch and decode -/

/-- What is at an address: an instruction, a halfword that cannot be fetched,
or an encoding that no row decodes. -/
inductive Fetched
  | faulted (raw : BitVec 32) (size : Nat) (fault : BusFault) (message : String)
  | undefined (raw : BitVec 32) (size : Nat)
  | decoded (raw : BitVec 32) (size : Nat) (instruction : DecodedInstruction)

def wrapFault (pc : BitVec 32) (context : AccessContext) : BusFault :=
  ⟨.addressOverflow, pc, .word, context, "", "32-bit instruction fetch wraps target address space"⟩

def fetch {δ : Type} (pc : BitVec 32) (b : MemoryBus δ) : Fetched × MemoryBus δ :=
  let context : AccessContext := ⟨.instructionFetch, pc⟩
  match b.read16 pc context with
  | (.error fault, b) => (.faulted 0 0 fault "instruction fetch failed", b)
  | (.ok first, b) =>
    if is32BitThumbPrefix first then
      let partly := first.setWidth 32 <<< 16
      if 0xfffffffd < pc then
        (.faulted partly 4 (wrapFault pc context) "second instruction halfword fetch failed", b)
      else
        match b.read16 (pc + 2) context with
        | (.error fault, b) =>
          (.faulted partly 4 fault "second instruction halfword fetch failed", b)
        | (.ok second, b) =>
          let raw := partly ||| second.setWidth 32
          match decode32 first second with
          | none => (.undefined raw 4, b)
          | some d => (.decoded raw 4 d, b)
    else
      match decode16 first with
      | none => (.undefined (first.setWidth 32) 2, b)
      | some d => (.decoded (first.setWidth 32) 2 d, b)

def hexDigits (width : Nat) (value : BitVec 32) : String :=
  String.ofList (((List.range width).map fun k =>
    Nat.digitChar (value.toNat / 16 ^ (width - 1 - k) % 16)))

def undefinedMessage (pc raw : BitVec 32) (size : Nat) : String :=
  "unimplemented instruction pc=0x" ++ hexDigits 8 pc ++ " raw" ++ toString (size * 8) ++ "=0x"
    ++ hexDigits (if size = 2 then 4 else 8) raw

/-! ## What the stepper keeps about a decoded instruction -/

structure StepInstruction where
  raw : BitVec 32
  decoded : DecodedInstruction
  size : Nat
  divideForm : Bool
  baseCycles : Nat
  jitFast : JitFast
  branchPenalty : Nat
  fastUnconditional : Bool
  suppressLoopObservation : Bool
  mayTrap : Bool

/-- Whether a kind divides, so that its cycles depend on the divisor. -/
def divideForm (kind : InstrKind) : Bool := kind = .udiv || kind = .sdiv

/-- Calls and returns, which no loop detector should look at. -/
def suppressesLoopObservation (d : DecodedInstruction) : Bool :=
  d.kind = .bl || d.kind = .blx || (d.kind = .bx && d.rm = 14)
    || (d.kind = .mov && d.rd = 15 && d.rm = 14)
    || ((d.kind = .pop || d.kind = .ldm) && d.registerList.getLsbD 15)

def mayTrap (d : DecodedInstruction) : Bool :=
  classifyJitBoundary d ≠ .none && classifyJitBoundary d ≠ .controlFlow

def prepare (raw : BitVec 32) (size : Nat) (d : DecodedInstruction) : StepInstruction where
  raw := raw
  decoded := d
  size := size
  divideForm := divideForm d.kind
  baseCycles := if divideForm d.kind then 7 else basePipelineCycles d
  jitFast := classifyJitFast d
  branchPenalty := takenBranchPenalty d.kind
  fastUnconditional := d.condition = .al && classifyJitFast d ≠ .generic
  suppressLoopObservation := suppressesLoopObservation d
  mayTrap := mayTrap d

/-! ## Retiring one instruction -/

/-- Instructions whose flags an IT block suppresses. -/
def suppressImplicitFlagsInIt : InstrKind → Bool
  | .mov | .add | .adc | .sub | .sbc | .rsb | .and_ | .orr | .eor | .bic | .mvn | .orn
  | .mul | .lsl | .lsr | .asr | .ror | .rrx => true
  | _ => false

def itAdjusted (wasInIt : Bool) (d : DecodedInstruction) : DecodedInstruction :=
  if wasInIt && d.setFlags && suppressImplicitFlagsInIt d.kind then { d with setFlags := false }
  else d

def effectiveCondition (d : DecodedInstruction) (itState : BitVec 8) : Condition :=
  if d.kind = .it then .al
  else if inItBlock itState then currentItCondition itState
  else d.condition

def passes (d : DecodedInstruction) (s : CpuState) : Bool :=
  effectiveCondition d s.itState = .al || conditionPasses (effectiveCondition d s.itState) s.xpsr

def executedCycles (i : StepInstruction) (s : CpuState) : Nat :=
  if i.divideForm then divideCycles (s.readRegister i.decoded.rm) else i.baseCycles

/-- The core as it executes the instruction at its PC. -/
def entered (s : CpuState) (size : Nat) : CpuState :=
  { s with instructionAddress := s.pc }.setPc (s.pc + BitVec.ofNat 32 size)

section Retire

variable {δ : Type} (env : Environment δ)

/-- Runs the reference executor. -/
def executeOn (d : DecodedInstruction) (s : CpuState) (b : MemoryBus δ) : Executed × MemoryBus δ :=
  (execute env.fp (env.aspen b.deviceState) d s).run Request.perform b

/-- The body of an instruction whose condition holds. `attempt` says whether
its handler is tried first. -/
def runBody (attempt : Bool) (fast : JitFast) (pc : BitVec 32) (d : DecodedInstruction)
    (s : CpuState) (b : MemoryBus δ) : Executed × MemoryBus δ :=
  if attempt && fast ≠ .generic then
    let h := executeJitFast d fast pc s b
    if h.handled then (complete h.cpu, h.bus) else executeOn env d h.cpu h.bus
  else executeOn env d s b

/-- What is left to do once the body of an instruction has run from `m`: the
IT state, the cycles, and the way back if it has to be restarted. -/
def conclude (i : StepInstruction) (m : Machine δ) (done : Executed) (b : MemoryBus δ) :
    FastStepResult × Machine δ :=
  let pc := m.cpu.pc
  let next := pc + BitVec.ofNat 32 i.size
  let passed := passes i.decoded m.cpu
  let baseCycles := if passed then executedCycles i m.cpu else 1
  let needRestart := i.mayTrap && m.bus.mmioTrapping
  let s := if i.decoded.kind ≠ .it ∧ inItBlock m.cpu.itState then done.cpu.advanceIt else done.cpu
  let diagnostic := noted done.note m.lastDiagnostic
  let cycles := if passed ∧ done.reason = .stepComplete ∧ s.pc ≠ next then
      baseCycles + i.branchPenalty else baseCycles
  let result : FastStepResult :=
    { reason := done.reason, suppressLoopObservation := i.suppressLoopObservation,
      instructionSize := i.size, instructions := 1, instructionAddress := pc, raw := i.raw, cycles }
  if done.reason = .stepComplete then (result, ⟨s, b, diagnostic⟩)
  else
    let diagnostic := { diagnostic with
      instructionAddress := pc, raw := i.raw, instructionSize := i.size }
    if done.reason = .synchronizationRequired ∧ needRestart then
      ({ result with instructions := 0, cycles := 0 },
        ⟨m.cpu, b, capture m.cpu diagnostic⟩)
    else (result, ⟨s, b, capture s diagnostic⟩)

/-- The body of an instruction at the PC, or nothing if its condition fails. -/
def body (useJit declined : Bool) (i : StepInstruction) (m : Machine δ) : Executed × MemoryBus δ :=
  let wasInIt := inItBlock m.cpu.itState
  let s := entered m.cpu i.size
  if passes i.decoded m.cpu then
    runBody env (useJit && !wasInIt && !declined) i.jitFast m.cpu.pc (itAdjusted wasInIt i.decoded)
      s m.bus
  else (complete s, m.bus)

def retireChecked (useJit declined : Bool) (i : StepInstruction) (m : Machine δ) :
    FastStepResult × Machine δ :=
  let done := body env useJit declined i m
  conclude i m done.1 done.2

/-- Retires an instruction that was fetched at the PC. An unconditional one
outside IT is first given to its handler alone. -/
def retire (useJit : Bool) (i : StepInstruction) (m : Machine δ) : FastStepResult × Machine δ :=
  if useJit && m.cpu.itState = 0 && i.fastUnconditional then
    let pc := m.cpu.pc
    let next := pc + BitVec.ofNat 32 i.size
    let fastCycles := executedCycles i m.cpu
    let h := executeJitFast i.decoded i.jitFast pc (entered m.cpu i.size) m.bus
    if h.handled then
      ({ suppressLoopObservation := i.suppressLoopObservation, instructionSize := i.size,
         instructions := 1, instructionAddress := pc, raw := i.raw,
         cycles := if h.cpu.pc ≠ next then fastCycles + i.branchPenalty else fastCycles },
        { m with cpu := h.cpu, bus := h.bus })
    else
      -- a decline rewinds the two fields that were moved
      let s := { h.cpu with instructionAddress := m.cpu.instructionAddress }.setPc pc
      retireChecked env useJit true i { m with cpu := s, bus := h.bus }
  else retireChecked env useJit false i m

/-! ## One step -/

/-- The states in which no instruction can be fetched. -/
def invalidThumb (s : CpuState) : Bool := !s.thumb || s.xpsr &&& xpsrT == 0 || s.pc &&& 1 != 0

def stepFastImpl (useJit : Bool) (m : Machine δ) : FastStepResult × Machine δ :=
  let pc := m.cpu.pc
  let result : FastStepResult := { instructionAddress := pc }
  if m.cpu.halted then
    ({ result with reason := .halted },
      { m with lastDiagnostic := capture m.cpu { m.lastDiagnostic with
          instructionAddress := pc, message := "CPU is halted", busFault := none } })
  else if invalidThumb m.cpu then
    let s := { m.cpu with halted := true }
    ({ result with reason := .invalidState },
      { m with
        cpu := s
        lastDiagnostic := capture s { m.lastDiagnostic with
          instructionAddress := pc, message := "invalid Cortex-M Thumb execution state",
          busFault := none } })
  else
    match fetch pc m.bus with
    | (.faulted raw size fault message, b) =>
      ({ result with reason := .busFault, raw, instructionSize := size },
        { m with
          bus := b
          lastDiagnostic := capture m.cpu { m.lastDiagnostic with
            instructionAddress := pc, raw, instructionSize := size, busFault := some fault,
            message } })
    | (.undefined raw size, b) =>
      ({ result with reason := .undefinedInstruction, raw, instructionSize := size },
        { m with
          bus := b
          lastDiagnostic := capture m.cpu { m.lastDiagnostic with
            instructionAddress := pc, raw, instructionSize := size, busFault := none,
            message := undefinedMessage pc raw size } })
    | (.decoded raw size d, b) => retire env useJit (prepare raw size d) { m with bus := b }

def stepFast (m : Machine δ) : FastStepResult × Machine δ :=
  stepFastImpl env false m

def stepJitFast (m : Machine δ) : FastStepResult × Machine δ :=
  stepFastImpl env true m

end Retire

end Fil.Cpu
