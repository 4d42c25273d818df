-- The receive FIFO of a CAN controller is a queue of three. Whatever is
-- received, acknowledged and set, the elements in the message RAM are those of
-- the queue, in order from the get index, and RXF0S describes the queue.
import Fil.FdcanFacts
import Fil.RingSlots

namespace Fil.Stm32g4

open Fil.Mem Fil.Devices RingSlots List
open MessageRam (rxFifoElementCount controllerCount controllerStride)
open Fdcan (Received elementWord rxElementOffset)

/-! ## The queue -/

/-- A queue of at most three frames, each in a slot of its own, the slot that is
next, and whether a frame was lost. -/
structure RxQueue where
  entries : List (Nat × Received) := []
  next : Nat := 0
  lost : Bool := false

namespace RxQueue

def slots (q : RxQueue) : List Nat := q.entries.map Prod.fst

def push (q : RxQueue) (r : Received) : RxQueue :=
  { q with entries := q.entries ++ [(q.next, r)], next := (q.next + 1) % 3 }

/-- Takes a frame. When the queue is full the newest is lost, or with `overwrite`
the oldest. -/
def feed (q : RxQueue) (r : Received) (overwrite : Bool) : RxQueue :=
  if q.entries.length < 3 then q.push r
  else if overwrite then { q with entries := q.entries.tail, lost := true }.push r
  else { q with lost := true }

/-- Gives back everything up to and including a slot. A slot that is not in use
gives back nothing. -/
def acknowledge (q : RxQueue) (slot : Nat) : RxQueue :=
  if slot ∈ q.slots then
    { q with entries := (q.entries.dropWhile fun e => decide (e.1 ≠ slot)).tail }
  else q

/-- The slot of the oldest frame, or the next one if there is none. -/
def getIndex (q : RxQueue) : Nat := q.slots.head?.getD q.next

def happen (q : RxQueue) : Happening → RxQueue
  | .admitted r overwrite => q.feed r overwrite
  | .acknowledged slot => q.acknowledge slot
  | .lostCleared => { q with lost := false }
  | .reset => {}
  | _ => q

def ofRecord (record : List Happening) : RxQueue := record.foldl happen {}

lemma ofRecord_note (record : List Happening) (h : Happening) :
    ofRecord (record ++ [h]) = (ofRecord record).happen h := by
  simp [ofRecord]

end RxQueue

/-! ## The part of a controller that is the FIFO -/

structure RxPart where
  index : Nat
  ram : MessageRam
  fill : Nat
  get : Nat
  put : Nat
  lost : Bool
  status : BitVec 32

namespace RxPart

def statusWord (fill get put : Nat) (lost : Bool) : BitVec 32 :=
  let status := BitVec.ofNat 32 fill ||| (BitVec.ofNat 32 get <<< 8) ||| (BitVec.ofNat 32 put <<< 16)
  let status := if fill = rxFifoElementCount then status ||| Fdcan.rxFifo0Full else status
  if lost then status ||| Fdcan.rxFifo0Lost else status

def refreshed (p : RxPart) : RxPart := { p with status := statusWord p.fill p.get p.put p.lost }

end RxPart

namespace Fdcan

variable (d : Fdcan)

def rx : RxPart where
  index := d.instanceIndex
  ram := d.messageRam
  fill := d.rxFillLevel
  get := d.rxGetIndex
  put := d.rxPutIndex
  lost := d.rxMessageLost
  status := d.registers .rxf0s

@[simp] lemma rx_updateRxFifo0Status : d.updateRxFifo0Status.rx = d.rx.refreshed := by
  rfl

lemma rx_setRegister {r : FdcanRegister} (v : BitVec 32) (h : r ≠ .rxf0s) :
    (d.setRegister r v).rx = d.rx := by
  simp [rx, setRegister, Function.update_of_ne h.symm]

@[simp] lemma rx_setTxBufferState (buffer : Nat) (state : TxBufferState) :
    (d.setTxBufferState buffer state).rx = d.rx := rfl

lemma OnlyInterrupts.rx_eq {d d' : Fdcan} (h : OnlyInterrupts d d') : d'.rx = d.rx := by
  obtain ⟨ir, _, _, _, rfl⟩ := h
  exact rx_setRegister d (r := .ir) ir (by decide)

@[simp] lemma rx_setInterruptLevel (line : Nat) (asserted : Bool) :
    (d.setInterruptLevel line asserted).rx = d.rx := (OnlyInterrupts.level d line asserted).rx_eq

@[simp] lemma rx_updateInterruptLines : d.updateInterruptLines.rx = d.rx :=
  (OnlyInterrupts.lines d).rx_eq

@[simp] lemma rx_setInterruptFlags (flags : BitVec 32) :
    (d.setInterruptFlags flags).rx = d.rx := (OnlyInterrupts.flags d flags).rx_eq

@[simp] lemma rx_updateTxFifoStatus : d.updateTxFifoStatus.rx = d.rx := by
  exact rx_setRegister _ _ (by decide)

@[simp] lemma rx_failTransmission (buffer : Nat) : (d.failTransmission buffer).rx = d.rx := by
  unfold failTransmission
  simp [rx_setRegister]

@[simp] lemma rx_completeTransmission (buffer generation : Nat) :
    (d.completeTransmission buffer generation).rx = d.rx := by
  unfold completeTransmission
  dsimp only
  split_ifs <;> simp [rx_setRegister]

@[simp] lemma rx_completion (buffer generation : Nat) (success : Bool) :
    (d.completion buffer generation success).rx = d.rx := by
  unfold completion
  split_ifs <;> simp

@[simp] lemma rx_bumpGeneration (buffer : Nat) : (d.bumpGeneration buffer).rx = d.rx := rfl

@[simp] lemma rx_requestBuffer (buffer : Nat) : (d.requestBuffer buffer).rx = d.rx := by
  unfold requestBuffer
  dsimp only
  split_ifs
  · exact rx_setRegister { d with txGetIndex := buffer } (r := .txbrp)
      (d.registers .txbrp ||| bufferBit buffer) (by decide)
  · exact rx_setRegister d (r := .txbrp) (d.registers .txbrp ||| bufferBit buffer) (by decide)

lemma rx_withBus (node : Option Nat) : { d with busNodeId := node }.rx = d.rx := rfl

lemma rx_withStates (states : Nat → TxBufferState) :
    { d with txBufferState := states }.rx = d.rx := rfl

lemma rx_withMode (mode : ControllerMode) : { d with controllerMode := mode }.rx = d.rx := rfl

@[simp] lemma rx_detachBus : d.detachBus.rx = d.rx := by
  unfold detachBus
  split
  · rfl
  · rw [rx_withBus, rx_updateTxFifoStatus, rx_withStates, rx_setRegister _ _ (by decide)]

@[simp] lemma rx_attachBus (node : Option Nat) : (d.attachBus node).rx = d.rx := by
  cases node with
  | none => exact rx_detachBus d
  | some id =>
    unfold attachBus
    rw [rx_withBus, rx_detachBus]

@[simp] lemma rx_applyControllerControl (value : BitVec 32) :
    (d.applyControllerControl value).rx = d.rx := by
  unfold applyControllerControl
  rw [rx_withMode, rx_setRegister _ _ (by decide)]

end Fdcan

/-! ## The FIFO and the queue -/

/-- The FIFO holds the queue: the slots in use are the run from the get index
on, each with the words of its frame, and the status word says so. -/
structure Holds (index : Nat) (p : RxPart) (q : RxQueue) : Prop where
  inside : index < controllerCount
  index : p.index = index
  get : p.get < rxFifoElementCount
  fill : p.fill ≤ rxFifoElementCount
  slots : q.slots = turn rxFifoElementCount p.get p.fill
  put : p.put = (p.get + p.fill) % rxFifoElementCount
  next : q.next = p.put
  lost : q.lost = p.lost
  words : ∀ e ∈ q.entries, ∀ i < 18, elementWord p.ram p.index e.1 i = e.2.word i
  valid : ∀ e ∈ q.entries, validate e.2.frame = .ok ()
  status : p.status = RxPart.statusWord p.fill p.get p.put p.lost

namespace Holds

variable {index : Nat} {p : RxPart} {q : RxQueue}

section

variable (h : Holds index p q)
include h

lemma length : q.entries.length = p.fill := by
  have hlen := congrArg List.length h.slots
  rwa [RxQueue.slots, length_map, length_turn] at hlen

lemma index_lt : p.index < controllerCount := by
  rw [h.index]
  exact h.inside

lemma slot_lt {e : Nat × Received} (he : e ∈ q.entries) : e.1 < rxFifoElementCount := by
  have hmem : e.1 ∈ q.slots := mem_map_of_mem he
  rw [h.slots, mem_turn h.get h.fill] at hmem
  exact hmem.1

lemma put_lt : p.put < rxFifoElementCount := by
  rw [h.put]
  exact Nat.mod_lt _ (by decide)

end

lemma empty (hindex : index < controllerCount) (ram : MessageRam) :
    Holds index (RxPart.refreshed ⟨index, ram, 0, 0, 0, false, 0⟩) {} where
  inside := hindex
  index := rfl
  get := Nat.zero_lt_succ 2
  fill := Nat.zero_le 3
  slots := rfl
  put := rfl
  next := rfl
  lost := rfl
  words e he := by simp at he
  valid e he := by simp at he
  status := rfl

section

variable (h : Holds index p q)
include h

lemma setLost (lost : Bool) : Holds index ({ p with lost }).refreshed { q with lost } :=
  ⟨h.inside, h.index, h.get, h.fill, h.slots, h.put, h.next, rfl, h.words, h.valid, rfl⟩

lemma pop (hpos : 0 < p.fill) :
    Holds index ({ p with get := (p.get + 1) % rxFifoElementCount, fill := p.fill - 1 }).refreshed
      { q with entries := q.entries.tail } where
  inside := h.inside
  index := h.index
  get := Nat.mod_lt _ (by decide)
  fill := (Nat.sub_le _ _).trans h.fill
  slots := by
    have hslots : ({ q with entries := q.entries.tail } : RxQueue).slots = q.slots.tail :=
      map_tail
    rw [hslots, h.slots, turn_tail]
    exact (turn_mod _ _ _).symm
  put := by
    have hput := h.put
    simp only [RxPart.refreshed]
    rw [hput, Nat.mod_add_mod]
    congr 1
    omega
  next := h.next
  lost := h.lost
  words e he := h.words e (mem_of_mem_tail he)
  valid e he := h.valid e (mem_of_mem_tail he)
  status := rfl

lemma push (hroom : p.fill < rxFifoElementCount) {r : Received}
    (hvalid : validate r.frame = .ok ()) :
    Holds index ({ p with
        ram := Fdcan.storeElement p.ram p.index p.put r
        put := (p.put + 1) % rxFifoElementCount
        fill := p.fill + 1 }).refreshed (q.push r) where
  inside := h.inside
  index := h.index
  get := h.get
  fill := hroom
  slots := by
    have hslots : (q.push r).slots = q.slots ++ [q.next] := by
      simp [RxQueue.slots, RxQueue.push]
    rw [hslots, h.slots, h.next, h.put]
    exact (turn_push _ _ _).symm
  put := by
    simp only [RxPart.refreshed]
    rw [h.put, Nat.mod_add_mod, Nat.add_assoc]
  next := by
    simp only [RxQueue.push, RxPart.refreshed]
    rw [h.next]
    rfl
  lost := h.lost
  words e he i hi := by
    rcases mem_append.mp he with hold | hnew
    · have hslot := h.slot_lt hold
      have hne : e.1 ≠ p.put := by
        intro heq
        have hmem : e.1 ∈ q.slots := mem_map_of_mem hold
        rw [h.slots] at hmem
        simp [turn] at hmem
        obtain ⟨k, hk, hat⟩ := hmem
        rw [heq, h.put] at hat
        have := slot_inj (by omega) hroom hat
        omega
      exact (Fdcan.elementWord_storeElement_of_ne p.ram h.index_lt h.put_lt hslot hne r hi).trans
        (h.words e hold i hi)
    · obtain rfl : e = (q.next, r) := by simpa using hnew
      rw [h.next]
      exact Fdcan.elementWord_storeElement p.ram h.index_lt h.put_lt r hi
  valid e he := by
    rcases mem_append.mp he with hold | hnew
    · exact h.valid e hold
    · obtain rfl : e = (q.next, r) := by simpa using hnew
      exact hvalid
  status := rfl

lemma refreshed : p.refreshed = p := by
  unfold RxPart.refreshed
  rw [← h.status]

lemma acknowledge {slot : Nat} (hslot : slot < rxFifoElementCount)
    (hin : ahead rxFifoElementCount p.get slot < p.fill) :
    Holds index ({ p with
        fill := p.fill - (ahead rxFifoElementCount p.get slot + 1)
        get := (slot + 1) % rxFifoElementCount }).refreshed (q.acknowledge slot) := by
  have hmem : slot ∈ q.slots := by
    rw [h.slots, mem_turn h.get h.fill]
    exact ⟨hslot, hin⟩
  have hat := add_ahead h.get hslot
  generalize hk : ahead rxFifoElementCount p.get slot = k at *
  have hrun : (q.slots.dropWhile fun s => decide (s ≠ slot)).tail =
      turn rxFifoElementCount ((slot + 1) % rxFifoElementCount) (p.fill - (k + 1)) := by
    rw [h.slots, ← hat, dropWhile_turn p.get h.fill hin, turn_tail, turn_mod, Nat.sub_sub,
      ← turn_mod _ (p.get + k + 1), ← turn_mod _ ((p.get + k) % rxFifoElementCount + 1),
      Nat.mod_add_mod]
  unfold RxQueue.acknowledge
  rw [if_pos hmem]
  refine ⟨h.inside, h.index, Nat.mod_lt _ (by decide), (Nat.sub_le _ _).trans h.fill, ?_, ?_,
    h.next, h.lost, ?_, ?_, rfl⟩
  · refine Eq.trans ?_ hrun
    rw [RxQueue.slots, RxQueue.slots, map_tail, dropWhile_map]
    rfl
  · simp only [RxPart.refreshed]
    rw [h.put, ← hat, Nat.mod_add_mod, Nat.add_assoc, Nat.mod_add_mod]
    congr 1
    omega
  · intro e he
    exact h.words e ((dropWhile_sublist _).subset (mem_of_mem_tail he))
  · intro e he
    exact h.valid e ((dropWhile_sublist _).subset (mem_of_mem_tail he))

lemma acknowledge_other {slot : Nat}
    (hout : ¬(slot < rxFifoElementCount ∧ ahead rxFifoElementCount p.get slot < p.fill)) :
    q.acknowledge slot = q := by
  unfold RxQueue.acknowledge
  rw [if_neg]
  rw [h.slots, mem_turn h.get h.fill]
  exact hout

end

end Holds

/-! ## One call -/

namespace Fdcan

variable {d : Fdcan} {q : RxQueue} {index : Nat}

lemma acknowledgeRxFifo0_holds (h : Holds index d.rx q) (slot : Nat) :
    Holds index (d.acknowledgeRxFifo0 slot).rx (q.acknowledge slot) := by
  unfold acknowledgeRxFifo0
  dsimp only
  split_ifs with hnone hfar
  · rw [h.acknowledge_other]
    · exact h
    · simp at hnone
      simp only [rx]
      omega
  · rw [h.acknowledge_other]
    · exact h
    · simp only [rx, ahead]
      omega
  · simp at hnone
    refine h.acknowledge hnone.2 ?_
    simp only [rx, ahead]
    omega

lemma validate_of_admits {frame : CanFrame} {decision : FilterDecision}
    (h : d.admits frame = some decision) : validate frame = .ok () := by
  unfold admits at h
  split_ifs at h
  split at h
  · cases h
  · assumption

lemma receiveFrame_holds (h : Holds index d.rx q) {frame : CanFrame} {decision : FilterDecision}
    (hadmits : d.admits frame = some decision) (time : BitVec 64) :
    Holds index (d.receiveFrame frame time).2.rx (q.feed ⟨frame, time, decision⟩ d.overwriteMode) := by
  have hlen := h.length
  have hvalid := validate_of_admits hadmits
  unfold receiveFrame RxQueue.feed
  rw [hadmits]
  dsimp only
  have hcount : rxFifoElementCount = 3 := rfl
  by_cases hfull : rxFifoElementCount ≤ d.rxFillLevel
  · have hnoroom : ¬q.entries.length < 3 := by
      rw [hlen]
      simp only [rx]
      omega
    rw [if_pos hfull, if_neg hnoroom]
    -- the mode does not depend on the flag that was just set
    change Holds index (if !d.overwriteMode then _ else _ : Bool × Fdcan).2.rx _
    cases d.overwriteMode with
    | false =>
      simp [rx_setInterruptFlags, rx_updateRxFifo0Status]
      exact h.setLost true
    | true =>
      simp [storeReceived, rx_setInterruptFlags, rx_updateRxFifo0Status]
      have hpos : 0 < d.rx.fill := by
        omega
      have hpopped := (h.pop hpos).setLost true
      refine hpopped.push ?_ hvalid
      simp only [RxPart.refreshed, rx]
      have := h.fill
      simp only [rx] at this
      omega
  · have hroom : q.entries.length < 3 := by
      rw [hlen]
      simp only [rx]
      omega
    rw [if_neg hfull, if_pos hroom]
    simp only [storeReceived, rx_setInterruptFlags, rx_updateRxFifo0Status]
    refine h.push ?_ hvalid
    omega

lemma reset_holds (hindex : index < controllerCount) (hd : d.instanceIndex = index) :
    Holds index d.reset.rx {} := by
  have hkeep : ∀ (rs : List FdcanRegister) (d : Fdcan), .rxf0s ∉ rs →
      (rs.foldl (fun d r => d.setRegister r 0) d).rx = d.rx := by
    intro rs
    induction rs with
    | nil => exact fun d _ => rfl
    | cons r rs ih =>
      intro d hr
      rw [mem_cons, not_or] at hr
      rw [foldl_cons, ih _ hr.2, rx_setRegister _ _ (Ne.symm hr.1)]
  have hlevels :=
    (OnlyInterrupts.levels (range 8) { d with registers := FdcanRegister.resetValue }).rx_eq
  have hsame : d.reset.rx = RxPart.refreshed ⟨d.instanceIndex, d.messageRam, 0, 0, 0, false, 0⟩ := by
    unfold reset onReset
    rw [rx_updateTxFifoStatus, rx_updateRxFifo0Status, hkeep _ _ (by decide),
      rx_setRegister _ _ (by decide)]
    generalize (range 8).foldl _ _ = e at hlevels ⊢
    have hi : e.instanceIndex = d.instanceIndex := congrArg RxPart.index hlevels
    have hr : e.messageRam = d.messageRam := congrArg RxPart.ram hlevels
    simp only [rx, RxPart.refreshed, hi, hr]
  rw [hsame, hd]
  exact Holds.empty hindex _

lemma loadRegister_holds (h : Holds index d.rx q) (r : FdcanRegister) :
    (d.loadRegister r).2.rx = d.rx := by
  unfold loadRegister
  split
  · exact (rx_updateRxFifo0Status d).trans h.refreshed
  · exact rx_updateTxFifoStatus d
  all_goals rfl

lemma read_holds (h : Holds index d.rx q) (offset : Nat) (size : AccessSize) :
    (d.read offset size).2.rx = d.rx := by
  unfold read
  split_ifs
  · refine foldlRecOn (motive := fun p : BitVec 64 × Fdcan => p.2.rx = d.rx) _ _ rfl
      fun p hp lane _ => ?_
    have hload := loadRegister_holds (d := p.2) (hp ▸ h) (.ofOffset (lane.word offset))
    exact hload.trans hp
  · rfl

end Fdcan

/-! ## Runs -/

namespace Controller

def Describes (index : Nat) (c : Controller) : Prop :=
  Holds index c.dev.rx (RxQueue.ofRecord c.record)

variable {index : Nat} {c : Controller}

section

variable (h : Describes index c)
include h

/-- What touches neither the FIFO nor its record leaves both. -/
lemma Describes.same {c' : Controller} (hrx : c'.dev.rx = c.dev.rx)
    (hrecord : RxQueue.ofRecord c'.record = RxQueue.ofRecord c.record) : Describes index c' := by
  unfold Describes
  rw [hrx, hrecord]
  exact h

lemma describes_receive (frame : CanFrame) (time : BitVec 64) :
    Describes index (c.receive frame time) := by
  unfold receive
  split
  · exact h
  · rename_i decision hadmits
    simp only [Describes, note, RxQueue.ofRecord_note]
    exact Fdcan.receiveFrame_holds h hadmits time

lemma describes_answer (token : Token) (success : Bool) :
    Describes index (c.answer token success) := by
  unfold answer
  split
  · refine h.same ?_ ?_
    · simp [note]
    · simp only [note, RxQueue.ofRecord_note]
      rfl
  · exact h

lemma describes_detach : Describes index c.detach := by
  unfold detach
  split_ifs
  · refine h.same ?_ ?_
    · simp [note]
    · simp only [note, RxQueue.ofRecord_note]
      rfl
  · exact h

lemma describes_attach (node : Option Nat) : Describes index (c.attach node) := by
  refine (describes_detach h).same ?_ rfl
  unfold attach detach
  rw [Fdcan.rx_attachBus]
  split_ifs
  · simp [note]
  · rfl

lemma describes_reset : Describes index c.reset := by
  simp only [Describes, reset, note, RxQueue.ofRecord_note]
  exact Fdcan.reset_holds h.inside h.index

lemma describes_event (e : BusEvent) : Describes index (c.event e) := by
  cases e with
  | receive frame time => exact describes_receive h frame time
  | answer token success => exact describes_answer h token success
  | attach node => exact describes_attach h node
  | detach => exact describes_detach h
  | reset => exact describes_reset h

lemma describes_events (es : List BusEvent) : Describes index (es.foldl event c) := by
  induction es generalizing c with
  | nil => exact h
  | cons e es ih => exact ih (describes_event h e)

section

variable (buffer request : Nat)

lemma describes_refuse : Describes index (c.refuse buffer request) := by
  refine h.same ?_ ?_
  · simp [refuse, note]
  · simp only [refuse, note, RxQueue.ofRecord_note]
    rfl

lemma describes_finish : Describes index (c.finish buffer request) := by
  refine h.same ?_ ?_
  · simp [finish, note]
  · simp only [finish, note, RxQueue.ofRecord_note]
    rfl

lemma describes_transmitBuffer (outcome : SendOutcome) :
    Describes index (c.transmitBuffer buffer request outcome) := by
  have hsubmit : Describes index (c.submit buffer request) := h.same rfl rfl
  have hduring := describes_events hsubmit outcome.during
  unfold transmitBuffer
  split
  · exact describes_refuse h buffer request
  dsimp only
  split_ifs
  · exact (describes_refuse hduring buffer request).same rfl rfl
  · exact describes_finish hduring buffer request
  · exact hduring
  · exact describes_finish h buffer request

end

lemma describes_requestOne (requests : BitVec 32) (outcomes : Nat → SendOutcome) (buffer : Nat) :
    Describes index (requestOne requests outcomes c buffer) := by
  unfold requestOne
  split_ifs
  · exact h
  apply describes_transmitBuffer
  refine h.same ?_ ?_
  · simp [note]
  · simp only [note, RxQueue.ofRecord_note]
    rfl

lemma Describes.setDev {d : Fdcan} (hrx : d.rx = c.dev.rx) :
    Describes index { c with dev := d } := h.same hrx rfl

end

lemma describes_writes : WriteKeeps [.rxf0s] (Describes index) where
  few := by decide
  register v hr h := h.setDev (Fdcan.rx_setRegister _ v (mem_singleton.not.mp hr))
  control v h := h.setDev (Fdcan.rx_applyControllerControl _ v)
  lines h := h.setDev (Fdcan.rx_updateInterruptLines _)
  lost h := by
    simp only [Describes, note, RxQueue.ofRecord_note]
    exact Holds.setLost h false
  acknowledged slot h := by
    simp only [Describes, note, RxQueue.ofRecord_note]
    exact Fdcan.acknowledgeRxFifo0_holds h slot
  requested requests outcomes buffer _ h := describes_requestOne h requests outcomes buffer

/-- A store of the core to the message RAM stays out of the FIFO. -/
def Spares (index : Nat) : Op → Prop
  | .writeRam offset size _ =>
    offset + byteCount size ≤ index * controllerStride + rxElementOffset 0 ∨
      index * controllerStride + rxElementOffset rxFifoElementCount ≤ offset
  | _ => True

lemma describes_step (h : Describes index c) {op : Op} (hop : Spares index op) :
    Describes index (c.step op) := by
  cases op with
  | event e => exact describes_event h e
  | read offset size => exact h.setDev (Fdcan.read_holds h offset size)
  | write offset size value outcomes => exact describes_writes.write h offset size value outcomes
  | writeRam offset size value =>
    refine ⟨h.inside, h.index, h.get, h.fill, h.slots, h.put, h.next, h.lost, ?_, h.valid, h.status⟩
    intro e he i hi
    refine Eq.trans ?_ (h.words e he i hi)
    refine Fdcan.elementWord_write c.dev.messageRam h.index_lt (h.slot_lt he) offset size value ?_ hi
    rw [h.index]
    exact hop

lemma describes_run (h : Describes index c) {ops : List Op} (hops : ∀ op ∈ ops, Spares index op) :
    Describes index (c.run ops) := by
  induction ops generalizing c with
  | nil => exact h
  | cons op ops ih =>
    exact ih (describes_step h (hops op (by simp))) fun o ho => hops o (by simp [ho])

lemma describes_fresh (hindex : index < controllerCount) (ram : MessageRam) :
    Describes index (fresh index ram) := Fdcan.reset_holds hindex rfl

end Controller

/-! ## The law -/

/-- What RXF0S says, field by field. -/
structure RxStatus where
  fillLevel : Nat
  getIndex : Nat
  putIndex : Nat
  full : Bool
  lost : Bool
  deriving DecidableEq

def RxStatus.ofWord (word : BitVec 32) : RxStatus where
  fillLevel := (word &&& 0xff).toNat
  getIndex := ((word >>> 8) &&& 0xff).toNat
  putIndex := ((word >>> 16) &&& 0xff).toNat
  full := word.getLsbD 24
  lost := word.getLsbD 25

lemma ofWord_statusWord {fill get put : Nat} (lost : Bool) (hfill : fill ≤ 3) (hget : get < 3)
    (hput : put < 3) :
    RxStatus.ofWord (RxPart.statusWord fill get put lost) = ⟨fill, get, put, fill = 3, lost⟩ := by
  interval_cases fill <;> interval_cases get <;> interval_cases put <;> cases lost <;> decide

lemma getIndex_turn {q : RxQueue} {get fill : Nat} (hget : get < 3)
    (hslots : q.slots = turn 3 get fill) (hnext : q.next = (get + fill) % 3) : q.getIndex = get := by
  unfold RxQueue.getIndex
  rw [hslots]
  cases fill with
  | zero => simpa [turn, Nat.mod_eq_of_lt hget] using hnext
  | succ fill =>
    rw [turn_succ, Nat.mod_eq_of_lt hget]
    rfl

/-- **The receive FIFO.** Take a controller as it is built, and let anything be
received, acknowledged, set, sent and reset, with stores of the core that stay
out of the FIFO. Then entry `i` of the queue stands `i` slots after the get
index, its element holds its frame, and RXF0S describes the queue. -/
theorem the_receive_fifo_is_a_queue_of_three {index : Nat} (hindex : index < controllerCount)
    (ram : MessageRam) (ops : List Controller.Op) (hops : ∀ op ∈ ops, Controller.Spares index op) :
    let c := (Controller.fresh index ram).run ops
    let q := RxQueue.ofRecord c.record
    (∀ i slot r, q.entries[i]? = some (slot, r) → slot = (q.getIndex + i) % 3 ∧
      (∀ k < 18, elementWord c.dev.messageRam index slot k = r.word k) ∧
      Fdcan.frameOfWords (elementWord c.dev.messageRam index slot) = Fdcan.padded r.frame) ∧
    RxStatus.ofWord (c.dev.registers .rxf0s) =
      ⟨q.entries.length, q.getIndex, q.next, q.entries.length = 3, q.lost⟩ ∧
    (c.dev.loadRegister .rxf0s).1 = c.dev.registers .rxf0s ∧
    q.entries.length ≤ 3 ∧ q.next = (q.getIndex + q.entries.length) % 3 := by
  intro c q
  have h : Holds index c.dev.rx q :=
    Controller.describes_run (Controller.describes_fresh hindex ram) hops
  have hget : q.getIndex = c.dev.rxGetIndex := getIndex_turn h.get h.slots (h.next.trans h.put)
  have hlen : q.entries.length = c.dev.rxFillLevel := h.length
  have hwords : ∀ (i slot : Nat) (r : Received), q.entries[i]? = some (slot, r) →
      ∀ k < 18, elementWord c.dev.messageRam index slot k = r.word k := by
    intro i slot r he k hk
    have hword := h.words (slot, r) (List.mem_of_getElem? he) k hk
    rw [h.index] at hword
    exact hword
  refine ⟨fun i slot r he => ⟨?_, hwords i slot r he, ?_⟩, ?_, ?_, ?_, ?_⟩
  · have hslot : q.slots[i]? = some slot := by
      simp [RxQueue.slots, he]
    rw [h.slots, turn] at hslot
    simp at hslot
    obtain ⟨j, hj, hat⟩ := hslot
    obtain ⟨hi, rfl⟩ := List.getElem?_eq_some_iff.mp hj
    rw [List.getElem_range] at hat
    rw [hget]
    exact hat.symm
  · rw [Fdcan.frameOfWords_congr (hwords i slot r he)]
    exact r.frame_readable (h.valid (slot, r) (List.mem_of_getElem? he))
  · have hstatus : c.dev.registers .rxf0s = _ := h.status
    rw [hstatus, ofWord_statusWord _ h.fill h.get h.put_lt, hget, hlen, h.next, h.lost]
    rfl
  · have hsame := h.refreshed
    exact congrArg RxPart.status hsame
  · rw [hlen]
    exact h.fill
  · rw [hget, hlen, h.next]
    exact h.put

/-- Four frames in overwrite mode, then firmware acknowledges slot 2. -/
def overrun : List Controller.Op :=
  [.write 0x018 .word 0 fun _ => {}, .write 0x080 .word 0x200 fun _ => {},
    .event (.receive { id := 1, dlc := 1, data := [0x11] } 10),
    .event (.receive { id := 2, dlc := 1, data := [0x22] } 20),
    .event (.receive { id := 3, dlc := 1, data := [0x33] } 30),
    .event (.receive { id := 4, dlc := 1, data := [0x44] } 40), .write 0x094 .word 2 fun _ => {}]

/-- The oldest frame is overwritten, two are given back, and the last is left. -/
theorem an_overrun_leaves_the_last_frame :
    let c := (Controller.fresh 0 fun _ => 0).run overrun
    let q := RxQueue.ofRecord c.record
    (∀ op ∈ overrun, Controller.Spares 0 op) ∧ q.slots = [0] ∧ q.lost = true ∧
      RxStatus.ofWord (c.dev.registers .rxf0s) = ⟨1, 0, 1, false, true⟩ ∧
      RxStatus.ofWord (c.dev.registers .rxf0s) =
        ⟨q.entries.length, q.getIndex, q.next, q.entries.length = 3, q.lost⟩ := by
  have hops : ∀ op ∈ overrun, Controller.Spares 0 op := by simp [overrun, Controller.Spares]
  exact ⟨hops, by decide +kernel, by decide +kernel, by decide +kernel,
    (the_receive_fifo_is_a_queue_of_three (by decide) _ overrun hops).2.1⟩

end Fil.Stm32g4
