-- The CAN controllers of the chip and the message RAM they share. A
-- controller filters what it receives into a FIFO of three elements in that
-- RAM, and sends the frames that firmware wrote there. What the bus does is
-- an input: it answers a request at once, later or never, and calls back.
import Fil.CanFrame
import Fil.Peripheral

namespace Fil.Stm32g4

open Fil.Mem Fil.Devices

/-! ## The message RAM -/

/-- The bytes of all three slices. -/
abbrev MessageRam := Nat → BitVec 8

namespace MessageRam

def controllerCount : Nat := 3

def controllerStride : Nat := 0x350

def sizeBytes : Nat := controllerCount * controllerStride

def standardFilterOffset : Nat := 0x000

def standardFilterCount : Nat := 28

def standardFilterElementSize : Nat := 4

def extendedFilterOffset : Nat := 0x070

def extendedFilterCount : Nat := 8

def extendedFilterElementSize : Nat := 8

def rxFifo0Offset : Nat := 0x0b0

def rxFifoElementCount : Nat := 3

def rxFifoElementSize : Nat := 72

def txFifoOffset : Nat := 0x278

def txFifoElementCount : Nat := 3

def txFifoElementSize : Nat := 72

/-- Where a range of a slice lies in the RAM, if it lies in the slice. -/
def absoluteOffset (index offset width : Nat) : Option Nat :=
  if controllerCount ≤ index || width = 0 || controllerStride < offset
    || controllerStride - offset < width then none
  else some (index * controllerStride + offset)

def loadWord (ram : MessageRam) (index offset : Nat) : BitVec 32 :=
  match absoluteOffset index offset 4 with
  | none => 0
  | some o =>
    (ram o).setWidth 32 ||| ((ram (o + 1)).setWidth 32 <<< 8) |||
      ((ram (o + 2)).setWidth 32 <<< 16) ||| ((ram (o + 3)).setWidth 32 <<< 24)

/-- The low `width` bytes of a value, from byte `o` on. -/
def storeBytes (ram : MessageRam) (o width : Nat) {w : Nat} (value : BitVec w) : MessageRam :=
  fun i => if o ≤ i ∧ i < o + width then (value >>> ((i - o) * 8)).setWidth 8 else ram i

def storeWord (ram : MessageRam) (index offset : Nat) (value : BitVec 32) : MessageRam :=
  match absoluteOffset index offset 4 with
  | none => ram
  | some o => ram.storeBytes o 4 value

def clearRange (ram : MessageRam) (index offset size : Nat) : MessageRam :=
  match absoluteOffset index offset size with
  | none => ram
  | some o => ram.storeBytes o size (0 : BitVec 8)

/-- A store of the core. One outside the RAM is a fault and changes nothing. -/
def write (ram : MessageRam) (offset : Nat) (size : AccessSize) (value : BitVec 64) : MessageRam :=
  if rangeFits offset (byteCount size) sizeBytes then ram.storeBytes offset (byteCount size) value
  else ram

end MessageRam

/-! ## The controller -/

/-- The registers that the controller knows, and all others by their offset. -/
inductive FdcanRegister
  | crel | endn | dbtp | cccr | nbtp | tocc | tocv | ecr | psr | ir | ie | ils | ile | rxgfc
  | xidam | hpms | rxf0s | rxf0a | rxf1s | rxf1a | txbc | txfqs | txbrp | txbar | txbcr | txbto
  | txbcf | txbtie | txefs | txefa
  | other (offset : Nat)
  deriving DecidableEq

def FdcanRegister.ofOffset : Nat → FdcanRegister
  | 0x000 => .crel
  | 0x004 => .endn
  | 0x00c => .dbtp
  | 0x018 => .cccr
  | 0x01c => .nbtp
  | 0x028 => .tocc
  | 0x02c => .tocv
  | 0x040 => .ecr
  | 0x044 => .psr
  | 0x050 => .ir
  | 0x054 => .ie
  | 0x058 => .ils
  | 0x05c => .ile
  | 0x080 => .rxgfc
  | 0x084 => .xidam
  | 0x088 => .hpms
  | 0x090 => .rxf0s
  | 0x094 => .rxf0a
  | 0x098 => .rxf1s
  | 0x09c => .rxf1a
  | 0x0c0 => .txbc
  | 0x0c4 => .txfqs
  | 0x0c8 => .txbrp
  | 0x0cc => .txbar
  | 0x0d0 => .txbcr
  | 0x0d4 => .txbto
  | 0x0d8 => .txbcf
  | 0x0dc => .txbtie
  | 0x0e4 => .txefs
  | 0x0e8 => .txefa
  | offset => .other offset

def FdcanRegister.resetValue : FdcanRegister → BitVec 32
  | .crel => 0x32141218
  | .endn => 0x87654321
  | .dbtp => 0x00000a33
  | .cccr => 1
  | .nbtp => 0x06000a03
  | .tocc => 0xffff0000
  | .tocv => 0x0000ffff
  | .psr => 0x00000707
  | .xidam => 0x1fffffff
  | _ => 0

def registerBlockSize : Nat := 0x100

/-- What CCCR last asked for. -/
inductive ControllerMode
  | initialization
  | normal
  | sleep
  deriving DecidableEq

/-- Where a transmit buffer stands. -/
inductive TxBufferState
  | idle
  | pending
  | complete
  deriving DecidableEq

/-- A pending request is given up. -/
def TxBufferState.withdrawn : TxBufferState → TxBufferState
  | .pending => .idle
  | state => state

structure FilterDecision where
  accepted : Bool := false
  nonMatching : Bool := true
  index : BitVec 8 := 0x7f
  deriving DecidableEq

/-- A call to the interrupt controller. -/
inductive Signal
  | level (line : Nat) (asserted : Bool)
  | raise (line : Nat)
  deriving DecidableEq

/-- One controller. The frames of other controllers reach it over the bus only. -/
structure Fdcan where
  instanceIndex : Nat
  registers : FdcanRegister → BitVec 32 := FdcanRegister.resetValue
  messageRam : MessageRam := fun _ => 0
  busNodeId : Option Nat := none
  controllerMode : ControllerMode := .initialization
  rxFillLevel : Nat := 0
  rxGetIndex : Nat := 0
  rxPutIndex : Nat := 0
  rxMessageLost : Bool := false
  txGetIndex : Nat := 0
  txPutIndex : Nat := 0
  txBufferState : Nat → TxBufferState := fun _ => .idle
  txGeneration : Nat → Nat := fun _ => 0
  interruptLineAsserted : Nat → Bool := fun _ => false
  interruptLevels : Nat → Bool := fun _ => false
  /-- The calls to the interrupt controller, in order. -/
  signals : List Signal := []

namespace Fdcan

variable (d : Fdcan)

def setRegister (r : FdcanRegister) (value : BitVec 32) : Fdcan :=
  { d with registers := Function.update d.registers r value }

def operational : Bool := d.controllerMode = .normal

def setTxBufferState (buffer : Nat) (state : TxBufferState) : Fdcan :=
  { d with txBufferState := Function.update d.txBufferState buffer state }

/-! ### Interrupts -/

def interruptMask : BitVec 32 := 0x00ffffff

def interruptRxFifo0New : BitVec 32 := 1#32 <<< 0

def interruptRxFifo0Full : BitVec 32 := 1#32 <<< 1

def interruptRxFifo0Lost : BitVec 32 := 1#32 <<< 2

def interruptTransmissionComplete : BitVec 32 := 1#32 <<< 7

def interruptProtocolArbitrationError : BitVec 32 := 1#32 <<< 21

/-- The flags that ILS moves between the two lines together. -/
def interruptGroups : List (BitVec 32) :=
  [0x000007, 0x000038, 0x0001c0, 0x001e00, 0x00e000, 0x030000, 0xfc0000]

/-- The line of interrupt group `group`. -/
def selectedLine (group : Nat) : Nat :=
  if d.registers .ils &&& (1#32 <<< group) = 0 then 0 else 1

def interruptLinePending (line : Nat) : Bool :=
  if 1 < line || d.registers .ile &&& (1#32 <<< line) = 0 then false
  else
    let pending := d.registers .ir &&& d.registers .ie &&& interruptMask
    interruptGroups.zipIdx.any fun (flags, group) =>
      d.selectedLine group = line && pending &&& flags ≠ 0

def setInterruptLevel (line : Nat) (asserted : Bool) : Fdcan :=
  if d.interruptLevels line = asserted then d
  else
    { d with
      interruptLevels := Function.update d.interruptLevels line asserted
      signals := d.signals ++ [.level line asserted] }

def setLineAsserted (line : Nat) (asserted : Bool) : Fdcan :=
  { d with interruptLineAsserted := Function.update d.interruptLineAsserted line asserted }

def updateInterruptLine (line : Nat) : Fdcan :=
  let pending := d.interruptLinePending line
  let d := d.setInterruptLevel line pending
  if !pending then d.setLineAsserted line false
  else if d.interruptLineAsserted line then d
  else
    let d := d.setLineAsserted line true
    { d with signals := d.signals ++ [.raise line] }

def updateInterruptLines : Fdcan := [0, 1].foldl updateInterruptLine d

def setInterruptFlags (flags : BitVec 32) : Fdcan :=
  let raised := flags &&& interruptMask
  let d := d.setRegister .ir (d.registers .ir ||| raised)
  let enabled := raised &&& d.registers .ie
  -- a flag that is raised again signals its line again
  let d := interruptGroups.zipIdx.foldl
    (fun d (flags, group) =>
      if enabled &&& flags = 0 then d else d.setLineAsserted (d.selectedLine group) false) d
  d.updateInterruptLines

/-! ### Control -/

def cccrWritableMask : BitVec 32 := 0x0000f3f7

def cccrInit : BitVec 32 := 1#32 <<< 0

def cccrCce : BitVec 32 := 1#32 <<< 1

def cccrCsa : BitVec 32 := 1#32 <<< 3

def cccrCsr : BitVec 32 := 1#32 <<< 4

/-- The mode after a write of CCCR. -/
def nextMode (initialization sleep : Bool) : ControllerMode → ControllerMode
  | .normal => if sleep then .sleep else if initialization then .initialization else .normal
  | .initialization => if sleep then .sleep else if !initialization then .normal else .initialization
  | .sleep => if sleep then .sleep else if initialization then .initialization else .normal

def applyControllerControl (value : BitVec 32) : Fdcan :=
  let control := value &&& cccrWritableMask
  let control :=
    if control &&& cccrCsr ≠ 0 then control ||| cccrInit ||| cccrCsa else control &&& ~~~cccrCsa
  let control := if control &&& cccrInit = 0 then control &&& ~~~cccrCce else control
  let d := d.setRegister .cccr control
  { d with
    controllerMode := nextMode (control &&& cccrInit ≠ 0) (control &&& cccrCsr ≠ 0) d.controllerMode }

/-! ### Receiving -/

def standardFilterMatches (filterType identifier identifier1 identifier2 : BitVec 32) : Bool :=
  match filterType.toNat with
  | 0 => identifier1 ≤ identifier && identifier ≤ identifier2
  | 1 => identifier = identifier1 || identifier = identifier2
  | 2 => identifier &&& identifier2 = identifier1 &&& identifier2
  | _ => false

def extendedFilterMatches (filterType identifier identifier1 identifier2 : BitVec 32) : Bool :=
  match filterType.toNat with
  | 0 | 3 => identifier1 ≤ identifier && identifier ≤ identifier2
  | 1 => identifier = identifier1 || identifier = identifier2
  | 2 => identifier &&& identifier2 = identifier1 &&& identifier2
  | _ => false

def actionStoresInFifo0 (action : BitVec 32) : Bool := action = 1 || action = 5

/-- The decision of standard filter `index`, if it takes the frame. -/
def standardFilter (frame : CanFrame) (index : Nat) : Option FilterDecision :=
  let element := d.messageRam.loadWord d.instanceIndex
    (MessageRam.standardFilterOffset + index * MessageRam.standardFilterElementSize)
  let action := (element >>> 27) &&& 0x7
  let filterType := element >>> 30
  if action = 0 || filterType = 3 then none
  else if standardFilterMatches filterType frame.id ((element >>> 16) &&& 0x7ff) (element &&& 0x7ff)
  then some ⟨actionStoresInFifo0 action, false, BitVec.ofNat 8 index⟩
  else none

/-- The decision of extended filter `index`, if it takes the frame. -/
def extendedFilter (frame : CanFrame) (index : Nat) : Option FilterDecision :=
  let offset := MessageRam.extendedFilterOffset + index * MessageRam.extendedFilterElementSize
  let word0 := d.messageRam.loadWord d.instanceIndex offset
  let word1 := d.messageRam.loadWord d.instanceIndex (offset + 4)
  let action := word0 >>> 29
  if action = 0 then none
  else if extendedFilterMatches (word1 >>> 30) frame.id (word0 &&& 0x1fffffff) (word1 &&& 0x1fffffff)
  then some ⟨actionStoresInFifo0 action, false, BitVec.ofNat 8 index⟩
  else none

/-- The first filter that takes the frame decides; else the global filter does. -/
def filter (frame : CanFrame) : FilterDecision :=
  let globalFilter := d.registers .rxgfc
  if !frame.extended then
    let count := min ((globalFilter >>> 16) &&& 0x1f).toNat MessageRam.standardFilterCount
    ((List.range count).findSome? (d.standardFilter frame)).getD
      ⟨(globalFilter >>> 4) &&& 0x3 = 0, true, 0x7f⟩
  else
    let count := min ((globalFilter >>> 24) &&& 0xf).toNat MessageRam.extendedFilterCount
    ((List.range count).findSome? (d.extendedFilter frame)).getD
      ⟨(globalFilter >>> 2) &&& 0x3 = 0, true, 0x7f⟩

def rxFifo0Full : BitVec 32 := 1#32 <<< 24

def rxFifo0Lost : BitVec 32 := 1#32 <<< 25

def rxFifo0Overwrite : BitVec 32 := 1#32 <<< 9

def updateRxFifo0Status : Fdcan :=
  let status := BitVec.ofNat 32 d.rxFillLevel ||| (BitVec.ofNat 32 d.rxGetIndex <<< 8) |||
    (BitVec.ofNat 32 d.rxPutIndex <<< 16)
  let status := if d.rxFillLevel = MessageRam.rxFifoElementCount then status ||| rxFifo0Full
    else status
  let status := if d.rxMessageLost then status ||| rxFifo0Lost else status
  d.setRegister .rxf0s status

/-- What a frame that passed the filters brings into the FIFO. -/
structure Received where
  frame : CanFrame
  time : BitVec 64
  decision : FilterDecision
  deriving DecidableEq

namespace Received

def word0 (r : Received) : BitVec 32 :=
  if r.frame.extended then (r.frame.id &&& 0x1fffffff) ||| (1#32 <<< 30)
  else (r.frame.id &&& 0x7ff) <<< 18

def word1 (r : Received) : BitVec 32 :=
  let word := (r.time &&& 0xffff).setWidth 32 ||| ((r.frame.dlc &&& 0x0f).setWidth 32 <<< 16) |||
    (if r.frame.brs then 1#32 <<< 20 else 0) ||| (if r.frame.fd then 1#32 <<< 21 else 0) |||
    ((r.decision.index &&& 0x7f).setWidth 32 <<< 24)
  if r.decision.nonMatching then word ||| (1#32 <<< 31) else word

/-- Payload word `i`. Bytes past the end of the payload are zero. -/
def dataWord (r : Received) (i : Nat) : BitVec 32 :=
  (List.range 4).foldl
    (fun word byte =>
      if 4 * i + byte < dlcToLength r.frame.dlc then
        word ||| ((r.frame.data.getD (4 * i + byte) 0).setWidth 32 <<< (byte * 8))
      else word) 0

end Received

/-- Where FIFO element `slot` starts. -/
def rxElementOffset (slot : Nat) : Nat :=
  MessageRam.rxFifo0Offset + slot * MessageRam.rxFifoElementSize

/-- Writes an element: cleared first, then the two header words and the payload. -/
def storeElement (ram : MessageRam) (index slot : Nat) (r : Received) : MessageRam :=
  let offset := rxElementOffset slot
  let ram := ram.clearRange index offset MessageRam.rxFifoElementSize
  let ram := ram.storeWord index offset r.word0
  let ram := ram.storeWord index (offset + 4) r.word1
  (List.range ((dlcToLength r.frame.dlc + 3) / 4)).foldl
    (fun ram i => ram.storeWord index (offset + 8 + 4 * i) (r.dataWord i)) ram

variable (d : Fdcan)

/-- Whether a frame that arrives gets past the mode, the checks and the filters. -/
def admits (frame : CanFrame) : Option FilterDecision :=
  if !d.operational then none
  else
    match validate frame with
    | .error _ => none
    | .ok () =>
      let decision := d.filter frame
      if decision.accepted then some decision else none

def overwriteMode : Bool := d.registers .rxgfc &&& rxFifo0Overwrite ≠ 0

/-- Puts an element into the FIFO, which has room. -/
def storeReceived (r : Received) (overwritten : Bool) : Fdcan :=
  let d := { d with
    messageRam := storeElement d.messageRam d.instanceIndex d.rxPutIndex r
    rxPutIndex := (d.rxPutIndex + 1) % MessageRam.rxFifoElementCount
    rxFillLevel := d.rxFillLevel + 1 }
  let d := d.updateRxFifo0Status
  let flags := interruptRxFifo0New
  let flags := if d.rxFillLevel = MessageRam.rxFifoElementCount then flags ||| interruptRxFifo0Full
    else flags
  let flags := if overwritten then flags ||| interruptRxFifo0Lost else flags
  d.setInterruptFlags flags

def receiveFrame (frame : CanFrame) (time : BitVec 64) : Bool × Fdcan :=
  match d.admits frame with
  | none => (false, d)
  | some decision =>
    if MessageRam.rxFifoElementCount ≤ d.rxFillLevel then
      let d := { d with rxMessageLost := true }
      if !d.overwriteMode then
        (false,
          d.updateRxFifo0Status.setInterruptFlags (interruptRxFifo0Full ||| interruptRxFifo0Lost))
      else
        let d := { d with
          rxGetIndex := (d.rxGetIndex + 1) % MessageRam.rxFifoElementCount
          rxFillLevel := d.rxFillLevel - 1 }
        (true, d.storeReceived ⟨frame, time, decision⟩ true)
    else (true, d.storeReceived ⟨frame, time, decision⟩ false)

def acknowledgeRxFifo0 (acknowledged : Nat) : Fdcan :=
  if d.rxFillLevel = 0 || MessageRam.rxFifoElementCount ≤ acknowledged then d
  else
    let distance := (acknowledged + MessageRam.rxFifoElementCount - d.rxGetIndex) %
      MessageRam.rxFifoElementCount + 1
    if d.rxFillLevel < distance then d
    else
      { d with
        rxFillLevel := d.rxFillLevel - distance
        rxGetIndex := (acknowledged + 1) % MessageRam.rxFifoElementCount }.updateRxFifo0Status

/-! ### Transmitting -/

def txBufferMask : BitVec 32 := 0x7

def bufferBit (buffer : Nat) : BitVec 32 := 1#32 <<< buffer

/-- Moves an index on while `p` holds; there are three buffers. -/
def skipWhile (p : Nat → Bool) : Nat → Nat → Nat
  | 0, index => index
  | fuel + 1, index =>
    if p index then skipWhile p fuel ((index + 1) % MessageRam.txFifoElementCount) else index

def popcount (value : BitVec 32) : Nat := ((List.range 32).filter value.getLsbD).length

def updateTxFifoStatus : Fdcan :=
  let pending := d.registers .txbrp &&& txBufferMask
  let free := MessageRam.txFifoElementCount - popcount pending
  let isPending := fun index => pending &&& bufferBit index ≠ 0
  let txPutIndex := if free ≠ 0 then skipWhile isPending 3 d.txPutIndex else d.txPutIndex
  let txGetIndex :=
    if pending = 0 then txPutIndex else skipWhile (fun i => !isPending i) 3 d.txGetIndex
  let status := BitVec.ofNat 32 txPutIndex <<< 16
  let status := if d.registers .txbc &&& (1#32 <<< 24) = 0 then
      status ||| (BitVec.ofNat 32 free ||| (BitVec.ofNat 32 txGetIndex <<< 8))
    else status
  let status := if free = 0 then status ||| (1#32 <<< 21) else status
  { d with txPutIndex, txGetIndex }.setRegister .txfqs status

def frameOfWords (word : Nat → BitVec 32) : CanFrame :=
  let word0 := word 0
  let word1 := word 1
  let extended : Bool := word0 &&& (1#32 <<< 30) ≠ 0
  let dlc := ((word1 >>> 16) &&& 0x0f).setWidth 8
  { extended
    id := if extended then word0 &&& 0x1fffffff else (word0 >>> 18) &&& 0x7ff
    dlc
    brs := word1 &&& (1#32 <<< 20) ≠ 0
    fd := word1 &&& (1#32 <<< 21) ≠ 0
    data := (List.range (dlcToLength dlc)).map fun i =>
      (word (2 + i / 4) >>> (i % 4 * 8)).setWidth 8 }

def txFrame (buffer : Nat) : CanFrame :=
  let offset := MessageRam.txFifoOffset + buffer * MessageRam.txFifoElementSize
  frameOfWords fun i => d.messageRam.loadWord d.instanceIndex (offset + 4 * i)

/-- The request of a buffer did not get through. -/
def failTransmission (buffer : Nat) : Fdcan :=
  let d := d.setRegister .txbrp (d.registers .txbrp &&& ~~~(bufferBit buffer))
  ((d.setTxBufferState buffer .idle).updateTxFifoStatus).setInterruptFlags
    interruptProtocolArbitrationError

/-- Whether a completion is for the request that the buffer is waiting for. A
buffer that was cancelled or reset is not pending any more. -/
def awaits (buffer generation : Nat) : Bool :=
  d.txGeneration buffer = generation && d.txBufferState buffer = .pending

def completeTransmission (buffer generation : Nat) : Fdcan :=
  if !d.awaits buffer generation then d
  else
    let d := d.setRegister .txbrp (d.registers .txbrp &&& ~~~(bufferBit buffer))
    let d := d.setRegister .txbto (d.registers .txbto ||| bufferBit buffer)
    let d := (d.setTxBufferState buffer .complete).updateTxFifoStatus
    if d.registers .txbtie &&& bufferBit buffer ≠ 0 then
      d.setInterruptFlags interruptTransmissionComplete
    else d

/-- The callback that goes with a frame to the bus. -/
def completion (buffer generation : Nat) (success : Bool) : Fdcan :=
  if d.txGeneration buffer ≠ generation then d
  else if success then d.completeTransmission buffer generation
  else d.failTransmission buffer

def bumpGeneration (buffer : Nat) : Fdcan :=
  { d with txGeneration := Function.update d.txGeneration buffer (d.txGeneration buffer + 1) }

def requestBuffer (buffer : Nat) : Fdcan :=
  let pending := d.registers .txbrp
  let d := if pending = 0 then { d with txGetIndex := buffer } else d
  let d := (d.setRegister .txbrp (pending ||| bufferBit buffer)).setTxBufferState buffer .pending
  let d := { d with
    txPutIndex := (buffer + 1) % MessageRam.txFifoElementCount }.updateTxFifoStatus
  d.setRegister .txbto (d.registers .txbto &&& ~~~(bufferBit buffer))

/-! ### The bus and resets -/

def detachBus : Fdcan :=
  match d.busNodeId with
  | none => d
  | some _ =>
    let d := d.setRegister .txbrp 0
    let d := { d with txBufferState := fun buffer => (d.txBufferState buffer).withdrawn }
    { d.updateTxFifoStatus with busNodeId := none }

def attachBus (node : Option Nat) : Fdcan :=
  match node with
  | none => d.detachBus
  | some id => { d.detachBus with busNodeId := some id }

def onReset : Fdcan :=
  let d := { d with
    txGeneration := fun buffer => d.txGeneration buffer + 1
    rxFillLevel := 0
    rxGetIndex := 0
    rxPutIndex := 0
    rxMessageLost := false
    txGetIndex := 0
    txPutIndex := 0
    controllerMode := .initialization
    txBufferState := fun _ => .idle
    interruptLineAsserted := fun _ => false }
  let d := d.setRegister .cccr cccrInit
  let d := [FdcanRegister.ir, .rxf0a, .rxf1a, .txbrp, .txbar, .txbto, .txbcr, .txefa].foldl
    (fun d r => d.setRegister r 0) d
  d.updateRxFifo0Status.updateTxFifoStatus

def reset : Fdcan :=
  let d := { d with registers := FdcanRegister.resetValue }
  ((List.range 8).foldl (fun d line => d.setInterruptLevel line false) d).onReset

/-- The value of a register, and what reading it brings up to date. -/
def loadRegister (r : FdcanRegister) : BitVec 32 × Fdcan :=
  match r with
  | .rxf0s => let d := d.updateRxFifo0Status; (d.registers .rxf0s, d)
  | .txfqs => let d := d.updateTxFifoStatus; (d.registers .txfqs, d)
  | .txbar | .rxf0a | .rxf1a | .txbcr | .txefa => (0, d)
  | r => (d.registers r, d)

/-- A read of the core. One outside the block is a fault and changes nothing. -/
def read (offset : Nat) (size : AccessSize) : BitVec 64 × Fdcan :=
  if rangeFits offset (byteCount size) registerBlockSize then
    (lanes offset (byteCount size)).foldl
      (fun (value, d) lane =>
        let (word, d) := d.loadRegister (.ofOffset (lane.word offset))
        (value ||| lane.extract offset word, d)) (0, d)
  else (0, d)

end Fdcan

/-! ## The controller and the bus -/

/-- The callback of a request, as the bus keeps it: the buffer and the
generation it was made for. Requests are numbered in the order they are made. -/
structure Token where
  buffer : Nat
  generation : Nat
  request : Nat
  deriving DecidableEq

/-- What reaches the controller from outside its registers. -/
inductive BusEvent
  | receive (frame : CanFrame) (time : BitVec 64)
  | answer (token : Token) (success : Bool)
  | attach (node : Option Nat)
  | detach
  | reset

/-- What the bus does with a frame while it is handed over: the calls that come
back from it, and whether it takes the frame. -/
structure SendOutcome where
  during : List BusEvent := []
  accepted : Bool := true

/-- What has happened, as an observer of the controller tells it. -/
inductive Happening
  | admitted (r : Fdcan.Received) (overwrite : Bool)
  | acknowledged (index : Nat)
  | lostCleared
  | requested (buffer : Nat)
  | refused (buffer request : Nat)
  | finished (buffer request : Nat)
  | answered (token : Token) (success : Bool)
  | detached
  | reset
  deriving DecidableEq

/-- A controller, the callbacks that the bus still holds, the number of requests
so far, those that the controller has marked as sent, and the record. -/
structure Controller where
  dev : Fdcan
  outstanding : List Token := []
  requests : Nat := 0
  completed : List Nat := []
  record : List Happening := []

namespace Controller

variable (c : Controller)

def note (h : Happening) : Controller := { c with record := c.record ++ [h] }

def receive (frame : CanFrame) (time : BitVec 64) : Controller :=
  match c.dev.admits frame with
  | none => c
  | some decision =>
    { c with dev := (c.dev.receiveFrame frame time).2 }.note
      (.admitted ⟨frame, time, decision⟩ c.dev.overwriteMode)

/-- The requests marked as sent, when a completion for `request` comes in. -/
def marked (buffer generation request : Nat) : List Nat :=
  if c.dev.awaits buffer generation then c.completed ++ [request] else c.completed

/-- The bus uses a callback that it holds; it holds it no longer. -/
def answer (token : Token) (success : Bool) : Controller :=
  if token ∈ c.outstanding then
    { c with
      dev := c.dev.completion token.buffer token.generation success
      outstanding := c.outstanding.erase token
      completed := if success then c.marked token.buffer token.generation token.request
        else c.completed }.note (.answered token success)
  else c

def detach : Controller :=
  if c.dev.busNodeId.isSome then { c with dev := c.dev.detachBus }.note .detached else c

def attach (node : Option Nat) : Controller :=
  { c.detach with dev := c.dev.attachBus node }

def reset (c : Controller) : Controller := { c with dev := c.dev.reset }.note .reset

def event : BusEvent → Controller
  | .receive frame time => c.receive frame time
  | .answer token success => c.answer token success
  | .attach node => c.attach node
  | .detach => c.detach
  | .reset => c.reset

/-- The request of a buffer ends without an answer from the bus. -/
def refuse (buffer request : Nat) : Controller :=
  { c with dev := c.dev.failTransmission buffer }.note (.refused buffer request)

/-- With no bus attached a frame counts as sent. -/
def finish (buffer request : Nat) : Controller :=
  let c := { c with dev := c.dev.bumpGeneration buffer }
  { c with
    dev := c.dev.completeTransmission buffer (c.dev.txGeneration buffer)
    completed := c.marked buffer (c.dev.txGeneration buffer) request }.note
    (.finished buffer request)

/-- Hands the frame of a buffer over with a callback for a new generation. -/
def submit (buffer request : Nat) : Controller :=
  let dev := c.dev.bumpGeneration buffer
  { c with dev, outstanding := ⟨buffer, dev.txGeneration buffer, request⟩ :: c.outstanding }

def transmitBuffer (buffer request : Nat) (outcome : SendOutcome) : Controller :=
  match validate (c.dev.txFrame buffer) with
  | .error _ => c.refuse buffer request
  | .ok () =>
    if c.dev.busNodeId.isSome then
      let token : Token := ⟨buffer, c.dev.txGeneration buffer + 1, request⟩
      let c := outcome.during.foldl event (c.submit buffer request)
      -- a bus that does not take the frame keeps no callback
      if !outcome.accepted then
        { c.refuse buffer request with outstanding := c.outstanding.erase token }
      -- a call that came back may have detached the controller
      else if c.dev.busNodeId.isNone then c.finish buffer request
      else c
    else c.finish buffer request

/-- One turn of the loop over the buffers of TXBAR. -/
def requestOne (requests : BitVec 32) (outcomes : Nat → SendOutcome) (c : Controller)
    (buffer : Nat) :
    Controller :=
  if requests &&& Fdcan.bufferBit buffer = 0 || c.dev.txBufferState buffer = .pending then c
  else
    let request := c.requests
    let c := { c with dev := c.dev.requestBuffer buffer, requests := request + 1 }.note
      (.requested buffer)
    c.transmitBuffer buffer request (outcomes buffer)

/-- A word of the block was written; the bank already holds the new value. -/
def storeRegister (outcomes : Nat → SendOutcome) (r : FdcanRegister)
    (previous value writeMask : BitVec 32) : Controller :=
  match r with
  | .cccr => { c with dev := c.dev.applyControllerControl value }
  | .ir =>
    let cleared := value &&& writeMask &&& Fdcan.interruptMask
    let c := { c with dev := c.dev.setRegister .ir (previous &&& ~~~cleared) }
    let c := if cleared &&& Fdcan.interruptRxFifo0Lost ≠ 0 then
        { c with dev := { c.dev with rxMessageLost := false }.updateRxFifo0Status }.note .lostCleared
      else c
    { c with dev := c.dev.updateInterruptLines }
  | .ie =>
    { c with dev := (c.dev.setRegister .ie (value &&& Fdcan.interruptMask)).updateInterruptLines }
  | .ils => { c with dev := (c.dev.setRegister .ils (value &&& 0x7f)).updateInterruptLines }
  | .ile => { c with dev := (c.dev.setRegister .ile (value &&& 0x3)).updateInterruptLines }
  | .rxf0a =>
    { c with dev := (c.dev.acknowledgeRxFifo0 (value &&& 0x7).toNat).setRegister .rxf0a 0 }.note
      (.acknowledged (value &&& 0x7).toNat)
  | .txbar =>
    let c := { c with dev := c.dev.setRegister .txbar 0 }
    if !c.dev.operational then c
    else [0, 1, 2].foldl (requestOne (value &&& writeMask &&& Fdcan.txBufferMask) outcomes) c
  | .txbtie => { c with dev := c.dev.setRegister .txbtie (value &&& Fdcan.txBufferMask) }
  | .crel | .endn | .ecr | .psr | .hpms | .rxf0s | .rxf1s | .txfqs | .txbrp | .txbto | .txbcf
  | .txefs => { c with dev := c.dev.setRegister r previous }
  | _ => c

def writeLane (offset : Nat) (value : BitVec 64) (outcomes : Nat → SendOutcome) (c : Controller)
    (lane : Lane) : Controller :=
  let r := FdcanRegister.ofOffset (lane.word offset)
  let previous := c.dev.registers r
  let merged := lane.merge offset value previous
  { c with dev := c.dev.setRegister r merged }.storeRegister outcomes r previous merged
    (lane.mask offset)

/-- A write of the core. One outside the block is a fault and changes nothing. -/
def write (offset : Nat) (size : AccessSize) (value : BitVec 64) (outcomes : Nat → SendOutcome) :
    Controller :=
  if rangeFits offset (byteCount size) registerBlockSize then
    (lanes offset (byteCount size)).foldl (writeLane offset value outcomes) c
  else c

/-- One thing that happens to a controller. -/
inductive Op
  | event (e : BusEvent)
  | read (offset : Nat) (size : AccessSize)
  | write (offset : Nat) (size : AccessSize) (value : BitVec 64) (outcomes : Nat → SendOutcome)
  | writeRam (offset : Nat) (size : AccessSize) (value : BitVec 64)

def step : Op → Controller
  | .event e => c.event e
  | .read offset size => { c with dev := (c.dev.read offset size).2 }
  | .write offset size value outcomes => c.write offset size value outcomes
  | .writeRam offset size value =>
    { c with dev := { c.dev with messageRam := c.dev.messageRam.write offset size value } }

def run (ops : List Op) : Controller := ops.foldl step c

def fresh (index : Nat) (ram : MessageRam) : Controller where
  dev := { instanceIndex := index, messageRam := ram : Fdcan }.reset

end Controller

end Fil.Stm32g4
