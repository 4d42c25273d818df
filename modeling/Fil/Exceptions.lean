-- Exception entry and return. Entry pushes a frame of eight words, below it the
-- floating-point registers if their context is live, or only the room for them;
-- return pops what entry pushed.
import Fil.Stepper

open Dialogue Fil.Mem

namespace Fil.Cpu

/-! ## What the controller is built with -/

/-- The system control as the exception unit uses it. It is one of the devices,
so its registers are read from their state. -/
structure SystemControl (δ : Type) where
  ccr : δ → BitVec 32
  fpccr : δ → BitVec 32
  vectorBase : δ → BitVec 32
  hasEnabledPending : δ → Bool
  nextPending : (primask basepri faultmask : BitVec 32) → δ → Option (BitVec 16)
  enter : BitVec 16 → δ → δ
  leave : BitVec 16 → δ → δ
  resume : BitVec 16 → δ → δ
  resetRequested : δ → Bool
  consumeResetRequest : δ → δ

def ccrStackAlign : BitVec 32 := 0x200

def fpccrLspen : BitVec 32 := 0x40000000

/-- The bit of a stacked status that says that the frame is padded. -/
def xpsrPadding : BitVec 32 := 0x200

/-- The bytes of the floating-point part of a frame. -/
def fpFrameSize : Nat := 18 * 4

structure ExceptionError where
  message : String
  fault : Option BusFault := none
  deriving DecidableEq

/-- The core, its bus and the exceptions that are active, the newest first. -/
structure Handling (δ : Type) where
  cpu : CpuState
  bus : MemoryBus δ
  activeStack : List (BitVec 16)

section Controller

variable {δ : Type} (sys : SystemControl δ)

/-- Some writable range that is not a device holds the bytes. -/
def containsWritableRange (b : MemoryBus δ) (address : BitVec 32) (size : Nat) : Bool :=
  b.map.regions.any fun region =>
    region.info.writable && region.info.kind ≠ .mmio && region.info.base ≤ address
      && address.toNat + size ≤ region.info.base.toNat + region.info.size.toNat

/-! ## Entry -/

variable (s : CpuState) (h : Handling δ)

/-- The stack that an entry pushes on is the process stack. -/
def usedPsp : Bool := !s.inHandlerMode && s.control &&& 2 != 0

def entrySp : BitVec 32 := if usedPsp s then s.psp else s.msp

/-- The floating-point context is live. -/
def extendedFpFrame : Bool := s.control &&& 4 != 0

def addPadding (d : δ) : Bool :=
  sys.ccr d &&& ccrStackAlign != 0 && entrySp s &&& 7 != 0

/-- Where the core frame stands above the stack pointer. -/
def coreFrameOffset (extended : Bool) : Nat := if extended then fpFrameSize else 0

def frameSize (d : δ) : Nat :=
  32 + coreFrameOffset (extendedFpFrame s) + (if addPadding sys s d then 4 else 0)

def coreFrame (padding : Bool) : List (BitVec 32) :=
  [s.r 0, s.r 1, s.r 2, s.r 3, s.r 12, s.r 14, s.pc ||| 1,
    s.xpsr ||| xpsrT ||| (if padding then xpsrPadding else 0)]

def exceptionLink : BitVec 32 :=
  if extendedFpFrame s then
    if s.inHandlerMode then 0xffffffe1 else if usedPsp s then 0xffffffed else 0xffffffe9
  else if s.inHandlerMode then 0xfffffff1 else if usedPsp s then 0xfffffffd else 0xfffffff9

/-- Pushes the floating-point registers, their status and a reserved word. -/
def stackFp (sp : BitVec 32) : BusM (Except ExceptionError Unit) := do
  match ← writeEach (writeContext s) (storeSingles s 0 16) sp with
  | .error fault => return .error ⟨"unable to stack floating-point exception frame: ", some fault⟩
  | .ok _ =>
    match ← request (.write32 (sp + 64) s.fpscr (writeContext s)) with
    | .error fault => return .error ⟨"unable to stack FPSCR: ", some fault⟩
    | .ok _ =>
      match ← request (.write32 (sp + 68) 0 (writeContext s)) with
      | .error fault =>
        return .error ⟨"unable to stack floating-point reserved word: ", some fault⟩
      | .ok _ => return .ok ()

/-- Pushes the core frame, at once if one range takes it. -/
def stackCore (context : AccessContext) (frame : List (BitVec 32)) (base : BitVec 32)
    (b : MemoryBus δ) : Except ExceptionError Unit × MemoryBus δ :=
  match b.tryFastWriteWords base frame context with
  | some b => (.ok (), b)
  | none =>
    match (writeEach context frame base).run Request.perform b with
    | (.error fault, b) => (.error ⟨"unable to stack exception frame: ", some fault⟩, b)
    | (.ok _, b) => (.ok (), b)

/-- The core at the first instruction of a handler. -/
def takeEntry (number : BitVec 16) (newSp handler : BitVec 32) : CpuState :=
  let link := exceptionLink s
  let s := if usedPsp s then { s with psp := newSp } else { s with msp := newSp }
  let s := ((s.setCore 13 s.msp).setCore 14 link).setPc (handler &&& ~~~1)
  CpuState.setItState
    { s with
      instructionAddress := handler &&& ~~~1
      thumb := true
      xpsr := s.xpsr &&& ~~~xpsrIpsrMask ||| number.setWidth 32 ||| xpsrT } 0

/-- An entry that only reserves the floating-point part. There is one reservation
at a time: an entry that finds one pending pushes its own registers. -/
def lazyFp (d : δ) : Bool :=
  extendedFpFrame s && sys.fpccr d &&& fpccrLspen != 0 && !s.fpLazyActive

/-- Pushes the floating-point part unless it is only reserved. -/
def pushFp (newSp : BitVec 32) (b : MemoryBus δ) : Except ExceptionError Unit × MemoryBus δ :=
  if extendedFpFrame s && !lazyFp sys s b.deviceState then
    (stackFp s newSp).run Request.perform b
  else (.ok (), b)

/-- The reservation after an entry. A pending one that the entry found is
abandoned. -/
def reserveFp (newSp : BitVec 32) (d : δ) : CpuState :=
  if lazyFp sys s d then { s with fpLazyActive := true, fpLazyBase := newSp }
  else { s with fpLazyActive := false }

def pushFrame (number : BitVec 16) (handler newSp : BitVec 32) (padding : Bool) (h : Handling δ) :
    Except ExceptionError Unit × Handling δ :=
  match pushFp sys h.cpu newSp h.bus with
  | (.error e, b) => (.error e, { h with bus := b })
  | (.ok _, b) =>
    let s := reserveFp sys h.cpu newSp h.bus.deviceState
    let base := newSp + BitVec.ofNat 32 (coreFrameOffset (extendedFpFrame s))
    match stackCore (writeContext s) (coreFrame s padding) base b with
    | (.error e, b) => (.error e, { h with cpu := s, bus := b })
    | (.ok _, b) =>
      (.ok (), ⟨takeEntry s number newSp handler,
        { b with deviceState := sys.enter number b.deviceState }, number :: h.activeStack⟩)

def enter (number : BitVec 16) (h : Handling δ) : Except ExceptionError Unit × Handling δ :=
  let size := frameSize sys h.cpu h.bus.deviceState
  let padding := addPadding sys h.cpu h.bus.deviceState
  if number = 0 || 256 ≤ number.toNat then
    (.error ⟨"invalid Cortex-M exception number", none⟩, h)
  else if (entrySp h.cpu).toNat < size then
    (.error ⟨"exception stack pointer underflow", none⟩, h)
  else
    let newSp := entrySp h.cpu - BitVec.ofNat 32 size
    let vector := (sys.vectorBase h.bus.deviceState).toNat + number.toNat * 4
    if !containsWritableRange h.bus newSp size then
      (.error ⟨"exception stack frame is outside writable memory", none⟩, h)
    else if 0xffffffff < vector then
      (.error ⟨"exception vector address wraps target space", none⟩, h)
    else
      match h.bus.read32 (BitVec.ofNat 32 vector) (readContext h.cpu) with
      | (.error fault, b) =>
        (.error ⟨"unable to read exception vector: ", some fault⟩, { h with bus := b })
      | (.ok handler, b) =>
        if handler &&& 1 = 0 then
          (.error ⟨"exception handler vector does not select Thumb state", none⟩,
            { h with bus := b })
        else pushFrame sys number handler newSp padding { h with bus := b }

def enterPending : Except ExceptionError Bool × Handling δ :=
  match sys.nextPending h.cpu.primask h.cpu.basepri h.cpu.faultmask h.bus.deviceState with
  | none => (.ok false, h)
  | some number =>
    let entered := enter sys number h
    (entered.1.map fun _ => true, entered.2)

/-! ## Return -/

/-- The stack that a token returns to is the process stack. -/
def returnsToPsp (excReturn : BitVec 32) : Bool := excReturn &&& 4 != 0

def returnSp (excReturn : BitVec 32) : BitVec 32 :=
  if returnsToPsp excReturn then s.psp else s.msp

/-- The frame of a token has a floating-point part. -/
def returnsExtended (excReturn : BitVec 32) : Bool := excReturn &&& 16 == 0

/-- Pops words into floating-point registers. What was popped before a fault
stays. -/
def unstackSingles (context : AccessContext) :
    Nat → Nat → BitVec 32 → CpuState → BusM (Except BusFault Unit × CpuState)
  | 0, _, _, s => return (.ok (), s)
  | count + 1, reg, address, s => do
    match ← request (.read32 address context) with
    | .error fault => return (.error fault, s)
    | .ok value => unstackSingles context count (reg + 1) (address + 4) (s.setSingle reg value)

/-- Pops the floating-point registers and their status. -/
def unstackFp (sp : BitVec 32) : BusM (Except ExceptionError Unit × CpuState) := do
  match ← unstackSingles (readContext s) 16 0 sp s with
  | (.error fault, s) =>
    return (.error ⟨"unable to unstack floating-point exception frame: ", some fault⟩, s)
  | (.ok _, s) =>
    match ← request (.read32 (sp + 64) (readContext s)) with
    | .error fault => return (.error ⟨"unable to unstack FPSCR: ", some fault⟩, s)
    | .ok value => return (.ok (), { s with fpscr := value })

/-- Pops the floating-point part, unless it was only reserved and never pushed. -/
def popFp (extended : Bool) (sp : BitVec 32) (b : MemoryBus δ) :
    (Except ExceptionError Unit × CpuState) × MemoryBus δ :=
  if extended && !s.fpLazyActive then (unstackFp s sp).run Request.perform b
  else ((.ok (), s), b)

/-- Pops the core frame, at once if one range gives it. -/
def unstackCore (context : AccessContext) (base : BitVec 32) (b : MemoryBus δ) :
    Except ExceptionError (List (BitVec 32)) × MemoryBus δ :=
  match b.tryFastReadWords base 8 context with
  | some (frame, b) => (.ok frame, b)
  | none =>
    match (readEach context (List.range 8) base).run Request.perform b with
    | (.error fault, b) => (.error ⟨"unable to unstack exception frame: ", some fault⟩, b)
    | (.ok loaded, b) => (.ok (loaded.map (·.2)), b)

/-- The core after the frame is popped. -/
def takeReturn (excReturn : BitVec 32) (frame : List (BitVec 32)) : CpuState :=
  let word := fun k => frame.getD k 0
  let usePsp := returnsToPsp excReturn
  let extended := returnsExtended excReturn
  let popped := returnSp s excReturn + BitVec.ofNat 32 (coreFrameOffset extended + 32
    + (if word 7 &&& xpsrPadding != 0 then 4 else 0))
  let s := (((((s.setCore 0 (word 0)).setCore 1 (word 1)).setCore 2 (word 2)).setCore 3 (word 3)
    ).setCore 12 (word 4)).setCore 14 (word 5)
  let s := { s.setPc (word 6 &&& ~~~1) with xpsr := word 7 &&& ~~~xpsrPadding, thumb := true }
  let s : CpuState := if usePsp then { s with psp := popped } else { s with msp := popped }
  let s : CpuState := if excReturn &&& 8 != 0 then
      { s with control := s.control &&& ~~~6 ||| (if usePsp then 2 else 0)
          ||| (if extended then 4 else 0) }
    else s
  let s := s.setCore 13 s.activeSp
  let it := s.xpsr >>> 8 &&& 0xfc ||| s.xpsr >>> 25 &&& 0x03
  { s with instructionAddress := s.pc }.setItState (it.setWidth 8)

def clearsThumb (sp : BitVec 32) (frame : List (BitVec 32)) : ExceptionError :=
  ⟨"exception return frame clears Thumb state sp=0x" ++ hexDigits 8 sp
    ++ " pc=0x" ++ hexDigits 8 (frame.getD 6 0) ++ " xpsr=0x" ++ hexDigits 8 (frame.getD 7 0), none⟩

/-- Leaves the newest exception and resumes the one below it. -/
def leaveActive (activeStack : List (BitVec 16)) (d : δ) : δ :=
  match activeStack with
  | [] => d
  | [number] => sys.leave number d
  | number :: below :: _ => sys.resume below (sys.leave number d)

def exceptionReturn (excReturn : BitVec 32) (h : Handling δ) :
    Except ExceptionError Unit × Handling δ :=
  let sp := returnSp h.cpu excReturn
  let extended := returnsExtended excReturn
  let offset := coreFrameOffset extended
  if !isExceptionReturn excReturn then (.error ⟨"invalid EXC_RETURN value", none⟩, h)
  else if h.activeStack.isEmpty || !h.cpu.inHandlerMode then
    (.error ⟨"EXC_RETURN attempted outside an active exception", none⟩, h)
  else if !containsWritableRange h.bus sp (offset + 32) then
    (.error ⟨"exception stack frame is outside writable memory", none⟩, h)
  else
    match popFp h.cpu extended sp h.bus with
    | ((.error e, s), b) => (.error e, { h with cpu := s, bus := b })
    | ((.ok _, s), b) =>
      let s := { s with fpLazyActive := false }
      match unstackCore (readContext s) (sp + BitVec.ofNat 32 offset) b with
      | (.error e, b) => (.error e, { h with cpu := s, bus := b })
      | (.ok frame, b) =>
        if frame.getD 7 0 &&& xpsrT = 0 then
          (.error (clearsThumb sp frame), { h with cpu := s, bus := b })
        else
          (.ok (), ⟨takeReturn s excReturn frame,
            { b with deviceState := leaveActive sys h.activeStack b.deviceState },
            h.activeStack.tail⟩)

/-! ## The boundary of an instruction -/

inductive BoundaryReason
  | architecturalFault
  | resetRequested
  deriving DecidableEq

structure BoundaryStop where
  reason : BoundaryReason
  message : String
  fault : Option BusFault := none
  deriving DecidableEq

def ExceptionError.stop (e : ExceptionError) : BoundaryStop :=
  ⟨.architecturalFault, e.message, e.fault⟩

def boundaryWorkPending : Bool :=
  h.cpu.pendingExcReturn.isSome || h.cpu.pendingException.isSome
    || sys.resetRequested h.bus.deviceState
    || (sys.nextPending h.cpu.primask h.cpu.basepri h.cpu.faultmask h.bus.deviceState).isSome

/-- A return that an instruction asked for. -/
def settleReturn : Except ExceptionError Unit × Handling δ :=
  match h.cpu.pendingExcReturn with
  | none => (.ok (), h)
  | some token => exceptionReturn sys token { h with cpu := { h.cpu with pendingExcReturn := none } }

/-- An exception that an instruction raised. -/
def settleException : Except ExceptionError Unit × Handling δ :=
  match h.cpu.pendingException with
  | none => (.ok (), h)
  | some number => enter sys number { h with cpu := { h.cpu with pendingException := none } }

/-- An exception that waits at the system control. -/
def settlePending : Except ExceptionError Unit × Handling δ :=
  if sys.hasEnabledPending h.bus.deviceState then
    let entered := enterPending sys h
    (entered.1.map fun _ => (), entered.2)
  else (.ok (), h)

def settleReset : Option BoundaryStop × Handling δ :=
  if sys.resetRequested h.bus.deviceState then
    (some ⟨.resetRequested, "firmware or watchdog requested reset", none⟩,
      { h with bus := { h.bus with
        deviceState := sys.consumeResetRequest h.bus.deviceState } })
  else (none, h)

def settleInstructionBoundarySlow : Option BoundaryStop × Handling δ :=
  match settleReturn sys h with
  | (.error e, h) => (some e.stop, h)
  | (.ok _, h) =>
    match settleException sys h with
    | (.error e, h) => (some e.stop, h)
    | (.ok _, h) =>
      match settlePending sys h with
      | (.error e, h) => (some e.stop, h)
      | (.ok _, h) => settleReset sys h

def settleInstructionBoundary : Option BoundaryStop × Handling δ :=
  if boundaryWorkPending sys h then settleInstructionBoundarySlow sys h else (none, h)

end Controller

end Fil.Cpu
