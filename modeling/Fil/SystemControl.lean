-- The private peripherals of the core: the interrupt controller, the system
-- timer, the cycle counter and the control block, as one device. Interrupts are
-- kept as words of bits; the exception that runs is one number, not a stack.
import Fil.Exceptions

namespace Fil.Cortexm

open Fil.Mem

/-! ## Registers -/

/-- Exception numbers that the device tells apart. -/
def nmi : BitVec 16 := 2

def hardFault : BitVec 16 := 3

def svCall : BitVec 16 := 11

def pendSv : BitVec 16 := 14

def sysTick : BitVec 16 := 15

structure ControlBlock where
  vtor : BitVec 32 := 0x08000000
  aircr : BitVec 32 := 0
  scr : BitVec 32 := 0
  ccr : BitVec 32 := 0x00000200
  shcsr : BitVec 32 := 0
  cfsr : BitVec 32 := 0
  hfsr : BitVec 32 := 0
  mmfar : BitVec 32 := 0
  bfar : BitVec 32 := 0
  cpacr : BitVec 32 := 0
  demcr : BitVec 32 := 0
  fpccr : BitVec 32 := 0
  deriving DecidableEq

/-- The registers of the device. The timer counts below 2 ^ 25. -/
structure SystemControl where
  nvicEnable : Fin 8 → BitVec 32 := fun _ => 0
  nvicPending : Fin 8 → BitVec 32 := fun _ => 0
  nvicActive : Fin 8 → BitVec 32 := fun _ => 0
  nvicLines : Fin 8 → BitVec 32 := fun _ => 0
  nvicPriority : Fin 240 → BitVec 8 := fun _ => 0
  systemPriority : Fin 12 → BitVec 8 := fun _ => 0
  systickCtrl : BitVec 32 := 0
  systickLoad : Nat := 0
  systickValue : Nat := 0
  systickCyclesToWrap : Nat := 0
  systickCountFlag : Bool := false
  control : ControlBlock := {}
  dwtCtrl : BitVec 32 := 0
  dwtCyccnt : BitVec 32 := 0
  activeException : BitVec 16 := 0
  pendsvPending : Bool := false
  systickPending : Bool := false
  externalPendingEnabled : Bool := false
  resetRequested : Bool := false
  deriving DecidableEq

namespace SystemControl

def reset (vectorBase : BitVec 32) : SystemControl :=
  { control := { vtor := vectorBase &&& 0xffffff80 } }

/-! ## Time -/

variable (c : SystemControl)

/-- Counts cycles. A wrap of the timer sets its flag and, if it may interrupt,
makes it pending. -/
def advanceCycles (cycles : Nat) : SystemControl :=
  let c := if c.dwtCtrl &&& 1 != 0 then
    { c with dwtCyccnt := c.dwtCyccnt + BitVec.ofNat 32 cycles } else c
  if c.systickCtrl &&& 1 = 0 || c.systickLoad = 0 || cycles = 0 then c
  else
    let period := c.systickLoad + 1
    let toWrap := if c.systickCyclesToWrap = 0 then period else c.systickCyclesToWrap
    if cycles < toWrap then
      { c with systickCyclesToWrap := toWrap - cycles, systickValue := toWrap - cycles - 1 }
    else
      let toNext := period - (cycles - toWrap) % period
      { c with
        systickCountFlag := true
        systickPending := c.systickPending || c.systickCtrl &&& 2 != 0
        systickCyclesToWrap := toNext
        systickValue := toNext - 1 }

/-- The cycles until the timer is pending, if it can be. -/
def cyclesUntilSysTickInterrupt : Option Nat :=
  if c.systickPending then some 0
  else if c.systickCtrl &&& 3 != 3 || c.systickLoad = 0 then none
  else some (if c.systickCyclesToWrap = 0 then c.systickLoad + 1 else c.systickCyclesToWrap)

/-! ## Interrupts -/

/-- The word and the bit of an interrupt. -/
def irqWord (irq : Nat) : Fin 8 := ⟨irq / 32 % 8, Nat.mod_lt _ (by decide)⟩

def irqMask (irq : Nat) : BitVec 32 := 1 <<< (irq % 32)

/-- A bank with the bit of an interrupt set, or clear. -/
def withBit (bank : Fin 8 → BitVec 32) (irq : Nat) (set : Bool) : Fin 8 → BitVec 32 :=
  let word := bank (irqWord irq)
  Function.update bank (irqWord irq)
    (if set then word ||| irqMask irq else word &&& ~~~(irqMask irq))

/-- An interrupt, if the exception is one. -/
def externalIrq (number : BitVec 16) : Option Nat :=
  if 16 ≤ number.toNat ∧ number.toNat < 256 then some (number.toNat - 16) else none

/-- Interrupts whose line is still up are pending again once they are not active. -/
def refreshPendingSummary : SystemControl :=
  let nvicPending := fun i => c.nvicPending i ||| (c.nvicLines i &&& ~~~(c.nvicActive i))
  { c with
    nvicPending
    externalPendingEnabled :=
      (List.finRange 8).any fun i => nvicPending i &&& c.nvicEnable i != 0 }

def pend (number : BitVec 16) : SystemControl :=
  if number = pendSv then { c with pendsvPending := true }
  else if number = sysTick then { c with systickPending := true }
  else
    match externalIrq number with
    | none => c
    | some irq =>
      { c with nvicPending := withBit c.nvicPending irq true }.refreshPendingSummary

def setInterruptLine (irq : Nat) (asserted : Bool) : SystemControl :=
  if 240 ≤ irq then c
  else
    let wasAsserted := c.nvicLines (irqWord irq) &&& irqMask irq != 0
    let c := { c with nvicLines := withBit c.nvicLines irq asserted }
    -- only a new edge is latched; a level that stays up is sampled again on leaving
    if asserted && !wasAsserted then
      { c with nvicPending := withBit c.nvicPending irq true }.refreshPendingSummary
    else c.refreshPendingSummary

def clearPending (number : BitVec 16) : SystemControl :=
  if number = pendSv then { c with pendsvPending := false }
  else if number = sysTick then { c with systickPending := false }
  else
    match externalIrq number with
    | none => c
    | some irq =>
      { c with nvicPending := withBit c.nvicPending irq false }.refreshPendingSummary

def enter (number : BitVec 16) : SystemControl :=
  let c := { c with activeException := number }
  let c := match externalIrq number with
    | none => c
    | some irq => { c with nvicActive := withBit c.nvicActive irq true }
  c.clearPending number

def resume (number : BitVec 16) : SystemControl :=
  { c with activeException := number }

def leave (number : BitVec 16) : SystemControl :=
  let c := match externalIrq number with
    | none => c
    | some irq => { c with nvicActive := withBit c.nvicActive irq false }
  let c := if c.activeException = number then { c with activeException := 0 } else c
  c.refreshPendingSummary

/-! ## The exception that is taken next -/

def isPending (number : BitVec 16) : Bool :=
  if number = pendSv then c.pendsvPending
  else if number = sysTick then c.systickPending
  else
    match externalIrq number with
    | none => false
    | some irq => c.nvicPending (irqWord irq) &&& irqMask irq != 0

def isEnabled (number : BitVec 16) : Bool :=
  if number.toNat < 16 then true
  else
    match externalIrq number with
    | none => false
    | some irq => c.nvicEnable (irqWord irq) &&& irqMask irq != 0

def priority (number : BitVec 16) : BitVec 8 :=
  if h : 4 ≤ number.toNat ∧ number.toNat ≤ 15 then c.systemPriority ⟨number.toNat - 4, by omega⟩
  else if h : 16 ≤ number.toNat ∧ number.toNat < 256 then
    c.nvicPriority ⟨number.toNat - 16, by omega⟩
  else 0

/-- The urgency of an exception, the smaller the more urgent. Two exceptions are
more urgent than any that can be programmed. -/
def architecturalPriority (number : BitVec 16) : Int :=
  if number = nmi then -2
  else if number = hardFault then -1
  else (c.priority number).toNat

def hasEnabledPending : Bool :=
  c.pendsvPending || c.systickPending || c.externalPendingEnabled

/-- The registers that mask exceptions. -/
structure Masks where
  primask : BitVec 32
  basepri : BitVec 32
  faultmask : BitVec 32

def Masks.allow (m : Masks) (number : BitVec 16) (priority : BitVec 8) : Bool :=
  !(m.faultmask != 0 && number != nmi)
    && !(m.primask != 0 && hardFault < number)
    && !(m.basepri &&& 0xf0 != 0 && hardFault < number
      && m.basepri &&& 0xf0 ≤ priority.setWidth 32)

def admissible (m : Masks) (number : BitVec 16) : Bool :=
  c.isPending number && c.isEnabled number && m.allow number (c.priority number)
    && (c.activeException = 0
      || c.architecturalPriority number < c.architecturalPriority c.activeException)

/-- The better of the exception chosen so far and a candidate. -/
def consider (m : Masks) (selected : Option (BitVec 16)) (number : BitVec 16) :
    Option (BitVec 16) :=
  if c.admissible m number then
    match selected with
    | none => some number
    | some best =>
      if c.priority number < c.priority best
          || c.priority number = c.priority best && number < best then some number
      else some best
  else selected

/-- The enabled pending interrupts, word by word from the lowest bit. -/
def externalCandidates : List (BitVec 16) :=
  (List.range 256).filterMap fun irq =>
    if c.nvicPending (irqWord irq) &&& c.nvicEnable (irqWord irq) &&& irqMask irq != 0 then
      some (BitVec.ofNat 16 (16 + irq))
    else none

def nextPending (m : Masks) : Option (BitVec 16) :=
  if c.hasEnabledPending then
    (pendSv :: sysTick :: c.externalCandidates).foldl (c.consider m) none
  else none

/-! ## The register block -/

def packBytes {n : Nat} (bytes : Fin n → BitVec 8) (first : Nat) : BitVec 32 :=
  let byte := fun k => if h : first + k < n then (bytes ⟨first + k, h⟩).setWidth 32 else 0
  byte 0 ||| byte 1 <<< 8 ||| byte 2 <<< 16 ||| byte 3 <<< 24

def bankWord (offset base : Nat) : Option (Fin 8) :=
  if base ≤ offset ∧ offset < base + 0x20 then
    some ⟨(offset - base) / 4 % 8, Nat.mod_lt _ (by decide)⟩
  else none

/-- What a word of the block reads as. -/
def wordAt (offset : Nat) : BitVec 32 :=
  if offset = 0x1000 then c.dwtCtrl
  else if offset = 0x1004 then c.dwtCyccnt
  else if offset = 0xe010 then
    c.systickCtrl &&& 7 ||| (if c.systickCountFlag then 0x10000 else 0)
  else if offset = 0xe014 then BitVec.ofNat 32 c.systickLoad
  else if offset = 0xe018 then BitVec.ofNat 32 c.systickValue
  else if offset = 0xe01c then 0x3e8
  else if let some i := bankWord offset 0xe100 then c.nvicEnable i
  else if let some i := bankWord offset 0xe180 then c.nvicEnable i
  else if let some i := bankWord offset 0xe200 then c.nvicPending i
  else if let some i := bankWord offset 0xe280 then c.nvicPending i
  else if let some i := bankWord offset 0xe300 then c.nvicActive i
  else if 0xe400 ≤ offset ∧ offset < 0xe4f0 then packBytes c.nvicPriority (offset - 0xe400)
  else if offset = 0xed00 then 0x410fc241
  else if offset = 0xed04 then
    c.activeException.setWidth 32
      ||| (if c.pendsvPending then 0x10000000 else 0)
      ||| (if c.systickPending then 0x4000000 else 0)
      ||| (match c.nextPending ⟨0, 0, 0⟩ with
        | none => 0
        | some number => number.setWidth 32 <<< 12)
  else if offset = 0xed08 then c.control.vtor
  else if offset = 0xed0c then 0xfa050000 ||| (c.control.aircr &&& 0x700)
  else if offset = 0xed10 then c.control.scr
  else if offset = 0xed14 then c.control.ccr
  else if 0xed18 ≤ offset ∧ offset < 0xed24 then packBytes c.systemPriority (offset - 0xed18)
  else if offset = 0xed24 then c.control.shcsr
  else if offset = 0xed28 then c.control.cfsr
  else if offset = 0xed2c then c.control.hfsr
  else if offset = 0xed34 then c.control.mmfar
  else if offset = 0xed38 then c.control.bfar
  else if offset = 0xed88 then c.control.cpacr
  else if offset = 0xedfc then c.control.demcr
  else if offset = 0xef34 then c.control.fpccr
  else 0

/-- A read. The timer's control word clears its flag. -/
def readWord (offset : Nat) : BitVec 32 × SystemControl :=
  (c.wordAt offset, if offset = 0xe010 then { c with systickCountFlag := false } else c)

/-- The lanes of a write replace those of the old value. -/
def merge (old value laneMask : BitVec 32) : BitVec 32 :=
  (old &&& ~~~laneMask) ||| (value &&& laneMask)

/-- The bytes of a priority table after a write. Four bits of a priority are
kept. -/
def writePriorities {n : Nat} (bytes : Fin n → BitVec 8) (first : Nat)
    (value laneMask : BitVec 32) : Fin n → BitVec 8 := fun i =>
  if first ≤ i.val ∧ i.val < first + 4
      ∧ laneMask &&& (0xff <<< ((i.val - first) * 8)) ≠ 0 then
    (value >>> ((i.val - first) * 8)).setWidth 8 &&& 0xf0
  else bytes i

/-- An interrupt control write. A bit that clears is looked at after the one that
sets. -/
def writeIcsr (value : BitVec 32) : SystemControl :=
  { c with
    pendsvPending := value &&& 0x8000000 = 0 && (value &&& 0x10000000 != 0 || c.pendsvPending)
    systickPending := value &&& 0x2000000 = 0 && (value &&& 0x4000000 != 0 || c.systickPending) }

/-- Writes of the cycle counter and the timer. -/
def writeTimer (offset : Nat) (value laneMask : BitVec 32) : Option SystemControl :=
  if offset = 0x1000 then some { c with dwtCtrl := merge c.dwtCtrl value laneMask }
  else if offset = 0x1004 then some { c with dwtCyccnt := merge c.dwtCyccnt value laneMask }
  else if offset = 0xe010 then
    let systickCtrl := merge c.systickCtrl value laneMask &&& 7
    let starts := systickCtrl &&& 1 = 0 || c.systickCtrl &&& 1 = 0
    some { c with
      systickCtrl, systickCyclesToWrap := if starts then 0 else c.systickCyclesToWrap }
  else if offset = 0xe014 then
    let load := merge (BitVec.ofNat 32 c.systickLoad) value laneMask &&& 0xffffff
    some { c with systickLoad := load.toNat, systickCyclesToWrap := 0 }
  else if offset = 0xe018 then
    some { c with systickValue := 0, systickCyclesToWrap := 0, systickCountFlag := false }
  else none

/-- Writes of the interrupt controller. -/
def writeNvic (offset : Nat) (value laneMask : BitVec 32) : Option SystemControl :=
  let bits := value &&& laneMask
  if let some i := bankWord offset 0xe100 then
    some { c with nvicEnable := Function.update c.nvicEnable i (c.nvicEnable i ||| bits)
      }.refreshPendingSummary
  else if let some i := bankWord offset 0xe180 then
    some { c with nvicEnable := Function.update c.nvicEnable i (c.nvicEnable i &&& ~~~bits)
      }.refreshPendingSummary
  else if let some i := bankWord offset 0xe200 then
    some { c with nvicPending := Function.update c.nvicPending i (c.nvicPending i ||| bits)
      }.refreshPendingSummary
  else if let some i := bankWord offset 0xe280 then
    some { c with nvicPending := Function.update c.nvicPending i (c.nvicPending i &&& ~~~bits)
      }.refreshPendingSummary
  else if 0xe400 ≤ offset ∧ offset < 0xe4f0 then
    some { c with nvicPriority := writePriorities c.nvicPriority (offset - 0xe400) value laneMask }
  else if offset = 0xef00 then
    let irq := (value &&& 0x1ff).toNat
    some (if irq < 240 then c.pend (BitVec.ofNat 16 (irq + 16)) else c)
  else none

/-- Writes of the plain registers of the control block. Fault flags are cleared by
writing ones. -/
def ControlBlock.write (b : ControlBlock) (offset : Nat) (value laneMask : BitVec 32) :
    ControlBlock :=
  if offset = 0xed08 then { b with vtor := merge b.vtor value laneMask &&& 0xffffff80 }
  else if offset = 0xed10 then { b with scr := merge b.scr value laneMask }
  else if offset = 0xed14 then { b with ccr := merge b.ccr value laneMask }
  else if offset = 0xed24 then { b with shcsr := merge b.shcsr value laneMask }
  else if offset = 0xed28 then { b with cfsr := b.cfsr &&& ~~~(value &&& laneMask) }
  else if offset = 0xed2c then { b with hfsr := b.hfsr &&& ~~~(value &&& laneMask) }
  else if offset = 0xed34 then { b with mmfar := merge b.mmfar value laneMask }
  else if offset = 0xed38 then { b with bfar := merge b.bfar value laneMask }
  else if offset = 0xed88 then { b with cpacr := merge b.cpacr value laneMask }
  else if offset = 0xedfc then { b with demcr := merge b.demcr value laneMask }
  else if offset = 0xef34 then { b with fpccr := merge b.fpccr value laneMask }
  else b

/-- Writes of the control block. -/
def writeControl (offset : Nat) (value laneMask : BitVec 32) : SystemControl :=
  if offset = 0xed04 then c.writeIcsr value
  else if offset = 0xed0c then
    -- only a write with the key counts
    if value >>> 16 = 0x05fa then
      { c with
        control := { c.control with aircr := value &&& 0x700 }
        resetRequested := c.resetRequested || value &&& 4 != 0 }
    else c
  else if 0xed18 ≤ offset ∧ offset < 0xed24 then
    { c with systemPriority := writePriorities c.systemPriority (offset - 0xed18) value laneMask }
  else { c with control := ControlBlock.write c.control offset value laneMask }

def writeWord (offset : Nat) (value laneMask : BitVec 32) : SystemControl :=
  match c.writeTimer offset value laneMask with
  | some c => c
  | none =>
    match c.writeNvic offset value laneMask with
    | some c => c
    | none => c.writeControl offset value laneMask

def systemBase : BitVec 32 := 0xe0000000

def withinWord (offset : BitVec 32) (size : AccessSize) : Bool :=
  byteCount size ≤ 4 && offset.toNat % 4 + byteCount size ≤ 4
    && offset.toNat ≤ 0xfffff - (byteCount size - 1)

def accessFault (offset : BitVec 32) (size : AccessSize) (context : AccessContext)
    (message : String) : BusFault :=
  MemoryBus.faultOf (systemBase + offset) size context .deviceError "cortexm-system" message

def read (c : SystemControl) (offset : BitVec 32) (size : AccessSize) (context : AccessContext) :
    Except BusFault (BitVec 64) × SystemControl :=
  if withinWord offset size then
    let word := c.readWord (offset &&& ~~~3).toNat
    (.ok ((word.1 >>> (offset.toNat % 4 * 8)).setWidth 64 &&& accessWidthMask size), word.2)
  else
    (.error (accessFault offset size context
      "unsupported or cross-register system-control read"), c)

def write (c : SystemControl) (offset : BitVec 32) (size : AccessSize) (value : BitVec 64)
    (context : AccessContext) : Except BusFault (BitVec 64) × SystemControl :=
  if withinWord offset size then
    let shift := offset.toNat % 4 * 8
    (.ok 0, c.writeWord (offset &&& ~~~3).toNat (value.setWidth 32 <<< shift)
      ((accessWidthMask size).setWidth 32 <<< shift))
  else
    (.error (accessFault offset size context
      "unsupported or cross-register system-control write"), c)

@[simp] lemma refreshPendingSummary_active (c : SystemControl) :
    c.refreshPendingSummary.activeException = c.activeException := rfl

@[simp] lemma clearPending_active (c : SystemControl) (number : BitVec 16) :
    (c.clearPending number).activeException = c.activeException := by
  unfold clearPending
  split_ifs
  · rfl
  · rfl
  · split <;> rfl

end SystemControl

end Fil.Cortexm
