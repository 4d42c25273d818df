-- The timed CAN bus on its event loop. A bus function runs until it calls user
-- code: a trace, a receiver, a barrier or a completion. There it waits, and user
-- code may do all that it may do from outside, call the bus again and run the
-- event loop among it. A ledger and the history of the wire are kept beside.
import Fil.CanFrame
import Fil.EventClock

open Fil.Sim

namespace Fil.Devices

/-! ## The bus -/

structure Node where
  id : Nat
  name : String
  loopback : Bool
  deriving DecidableEq

/-- One request to transmit. Of the completion callback only its presence
matters here. -/
structure Transmission where
  frame : CanFrame
  sender : Option Nat
  senderName : String
  requestedNs : Nat
  sequence : Nat := 0
  completion : Bool
  deriving DecidableEq

inductive TimedState
  | idle
  | arbitrating
  | inFlight
  deriving DecidableEq

/-- A bus in timed mode. Times and their fractions stay far below the width of
the source's counters, except where the source checks for overflow. -/
structure VirtualCanBus where
  bitrate : Nat
  queueCapacity : Nat
  nextNodeId : Nat := 1
  nextSequence : Nat := 0
  nodes : List Node := []
  pending : List Transmission := []
  inFlight : Option Transmission := none
  nextStartNs : Nat := 0
  fractionalNumerator : Nat := 0
  inFlightFractionBeforeStart : Nat := 0
  nextTransmissionSequence : Nat := 0
  timedEventId : Nat := 0
  timedState : TimedState := .idle
  deriving DecidableEq

namespace VirtualCanBus

def queuedTransmissions (b : VirtualCanBus) : Nat :=
  b.pending.length + if b.inFlight.isSome then 1 else 0

/-- The ids of the attached nodes. -/
def attached (b : VirtualCanBus) : List Nat := b.nodes.map Node.id

end VirtualCanBus

/-- The first waiting request of every sender. -/
def senderHeads : List Transmission → List Transmission
  | [] => []
  | t :: ts => t :: (senderHeads ts).filter fun x => x.sender ≠ t.sender

/-- The nodes that a frame goes to: all but its sender, unless that listens to
itself. -/
def receivers (nodes : List Node) (sender : Option Nat) : List Node :=
  nodes.filter fun node => !(sender = some node.id && !node.loopback)

def beats (a b : Transmission) : Bool :=
  arbitrationKey a.frame < arbitrationKey b.frame
    || (arbitrationKey a.frame = arbitrationKey b.frame && a.sequence < b.sequence)

def winner (pending : List Transmission) (start : Nat) : Option Transmission :=
  ((senderHeads pending).filter fun t => t.requestedNs ≤ start).foldl
    (fun best t =>
      match best with
      | none => some t
      | some b => if beats t b then some t else some b) none

/-- How long a frame and the gap after it take, and the part of a nanosecond
that is left over. -/
structure WireTimes where
  duration : Nat
  intermission : Nat
  fraction : Nat
  deriving DecidableEq

/-- The times of a frame of that many bits, with what was left over before. -/
def frameTimes (bitrate fraction bits : Nat) : WireTimes :=
  let frameNumerator := bits * 1000000000 + fraction
  let intermissionNumerator := 3000000000 + frameNumerator % bitrate
  ⟨frameNumerator / bitrate, intermissionNumerator / bitrate, intermissionNumerator % bitrate⟩

/-- A frame that starts then, and the gap after it, are over by the last time of
the clock. -/
def WireTimes.fits (times : WireTimes) (start : Nat) : Bool :=
  start ≤ simTimeMax - times.duration && start + times.duration ≤ simTimeMax - times.intermission

/-- The times of a frame that starts now, unless they pass the end of the
clock. -/
def VirtualCanBus.wireTimes (b : VirtualCanBus) (frame : CanFrame) (start : Nat) :
    Option WireTimes :=
  match classicCanStuffedFrameBits frame with
  | .error _ => none
  | .ok bits =>
    if b.bitrate = 0 then none
    else
      let times := frameTimes b.bitrate b.fractionalNumerator bits
      if times.fits start then some times else none

/-! ## The bus, its loop and its callers -/

/-- Whose event it is: an arbitration or a completion of the bus, or another. -/
inductive Callback
  | arbitration
  | completion
  | other
  deriving DecidableEq

/-- A bus function that waits for user code, by what it waits in. -/
inductive Waiting
  | rejected
  | startOfFrame
  | failing
  | barrier (t : Transmission) (time : Nat)
  | tracing (t : Transmission) (time : Nat) (node : Node) (rest : List Node)
  | receiving (t : Transmission) (time : Nat) (rest : List Node)
  | completing
  deriving DecidableEq

/-- What the ledger says about a request. Where it matters who is attached, the
note holds that too. -/
inductive Note
  | accept (t : Transmission)
  | start (sequence : Nat)
  | cancel (sequence sender : Nat)
  | fail (sequence start fraction : Nat) (called : Bool)
  | delivery (sequence : Nat) (nodes : List Node)
  | turn (sequence node : Nat) (attached : List Nat) (received : Bool)
  | finish (sequence : Nat) (attached : List Nat) (called : Bool)
  deriving DecidableEq

/-- The bus on its loop. `calls` are the bus functions that wait, the innermost
first, each with the number of runs of the loop that were open. `wire` are the
times at which frames took the bus and gave it back, the newest first. -/
structure CanSystem where
  loop : Dispatcher Callback
  bus : VirtualCanBus
  calls : List (Waiting × Nat) := []
  ledger : List Note := []
  wire : List (Nat × Nat) := []

namespace CanSystem

variable (c : CanSystem)

def now : Nat := c.loop.impl.timeFor c.loop.impl.activeOwner

def note (n : Note) : CanSystem := { c with ledger := n :: c.ledger }

/-- Hands over to user code. -/
def call (what : Waiting) : CanSystem :=
  { c with calls := (what, c.loop.running.length) :: c.calls }

/-- Hands over to the trace sink. -/
def trace (what : Waiting) : CanSystem :=
  { c with bus := { c.bus with nextSequence := c.bus.nextSequence + 1 } }.call what

/-- An event function of the bus is over, and its run goes on. -/
def endEvent : CanSystem := { c with loop := (c.loop.comeBack false).getD c.loop }

/-- Arms the event of the bus. There is no next state when the ids of the loop
are used up. -/
def arm (due : Nat) (callback : Callback) (state : TimedState) : Option CanSystem :=
  match c.loop.impl.scheduleAs sharedEventOwner due callback false with
  | (none, _, _) => none
  | (some id, impl, _) =>
    some { c with
      loop := { c.loop with impl }
      bus := { c.bus with timedEventId := id, timedState := state } }

/-- Takes the event of the bus back. -/
def disarm : CanSystem :=
  { c with
    loop := { c.loop with impl := (c.loop.impl.cancelAs c.bus.timedEventId).2.1 }
    bus := { c.bus with timedEventId := 0, timedState := .idle } }

def scheduleArbitration : Option CanSystem :=
  if c.bus.timedState ≠ .idle then some c
  else if c.bus.pending = [] then some c
  else
    let earliest := (senderHeads c.bus.pending).foldl (fun e t => min e t.requestedNs) simTimeMax
    c.arm (max c.bus.nextStartNs (max earliest c.now)) .arbitration .arbitrating

/-- Gives up the request on the wire, which ends its time there. -/
def abortInFlight (t : Transmission) (sender : Nat) : CanSystem :=
  -- the clock is read after the event is cancelled, which does not move it
  let time := c.now
  let c := c.disarm.note (.cancel t.sequence sender)
  { c with
    bus := { c.bus with
      inFlight := none
      fractionalNumerator := c.bus.inFlightFractionBeforeStart
      nextStartNs := time }
    wire := match c.wire with
      | [] => []
      | (start, _) :: wire => (start, time) :: wire }

/-- Takes the waiting requests of a sender out of the queue. -/
def dropPending (sender : Nat) : CanSystem :=
  let dropped : List Transmission := c.bus.pending.filter fun t => t.sender = some sender
  { c with
    bus := { c.bus with pending := c.bus.pending.filter fun t => t.sender ≠ some sender }
    ledger := (dropped.map fun t => Note.cancel t.sequence sender).reverse ++ c.ledger }

/-- Stops what is armed if it may be about the sender: its own frame on the wire,
or an arbitration. -/
def withdraw (sender : Nat) : CanSystem :=
  match c.bus.timedState with
  | .inFlight =>
    match c.bus.inFlight with
    | none => c
    | some t => if t.sender = some sender then c.abortInFlight t sender else c
  | .arbitrating => c.disarm
  | .idle => c

def cancelSender (sender : Nat) : Option CanSystem :=
  ((c.dropPending sender).withdraw sender).scheduleArbitration

/-- Attaches a node, or says why not. -/
def attach (name : String) (loopback callback : Bool) : Except CanError Nat × CanSystem :=
  if name = "" then (.error ⟨.invalidArgument, "CAN node name is empty"⟩, c)
  else if !callback then (.error ⟨.invalidArgument, "CAN node receive callback is empty"⟩, c)
  else if c.bus.nodes.any fun node => node.name = name then
    (.error ⟨.invalidArgument, "duplicate CAN node name '" ++ name ++ "'"⟩, c)
  else
    (.ok c.bus.nextNodeId,
      { c with bus := { c.bus with
          nextNodeId := c.bus.nextNodeId + 1
          nodes := c.bus.nodes ++ [⟨c.bus.nextNodeId, name, loopback⟩] } })

def detach (id : Nat) : Option CanSystem :=
  (c.cancelSender id).map fun c =>
    { c with bus := { c.bus with nodes := c.bus.nodes.filter fun node => node.id ≠ id } }

/-- Puts a numbered request at the end of the queue. -/
def enqueue (t : Transmission) : CanSystem :=
  { c with bus := { c.bus with
    nextTransmissionSequence := c.bus.nextTransmissionSequence + 1
    pending := c.bus.pending ++ [t] } }.note (.accept t)

/-- Admits a request into the queue, or traces that it is refused. -/
def submit (t : Transmission) : Option (Except CanError Unit × CanSystem) :=
  if c.bus.bitrate = 0 then
    some (.error ⟨.invalidArgument, "CAN bitrate must be nonzero"⟩, c.trace .rejected)
  else if t.frame.fd then
    some (.error ⟨.unsupported, "timed CAN bus currently supports classic CAN frames only"⟩,
      c.trace .rejected)
  else if c.bus.queueCapacity = 0 || c.bus.queueCapacity ≤ c.bus.queuedTransmissions then
    some (.error ⟨.runtime, "CAN transmit queue full"⟩, c.trace .rejected)
  else
    let c := c.enqueue { t with sequence := c.bus.nextTransmissionSequence }
    let c := if c.bus.timedState = .arbitrating then c.disarm else c
    c.scheduleArbitration.map fun c => (.ok (), c)

def send (sender : Nat) (frame : CanFrame) (time : BitVec 64) (completion : Bool) :
    Option (Except CanError Unit × CanSystem) :=
  match validate frame with
  | .error e => some (.error e, c)
  | .ok () =>
    match c.bus.nodes.find? fun node => node.id = sender with
    | none => some (.error ⟨.invalidArgument, "CAN sender is not attached"⟩, c)
    | some node => c.submit
        { frame, sender := some sender, senderName := node.name, requestedNs := time.toNat,
          completion }

def inject (frame : CanFrame) (time : BitVec 64) (completion : Bool) :
    Option (Except CanError Unit × CanSystem) :=
  match validate frame with
  | .error e => some (.error e, c)
  | .ok () => c.submit
      { frame, sender := none, senderName := "external", requestedNs := time.toNat, completion }

/-! ## Event functions -/

/-- The last thing of an event function: the next arbitration is scheduled. -/
def finishEvent : Option CanSystem := c.scheduleArbitration.map endEvent

/-- A request that does not fit before the end of the clock. -/
def failTransmission (t : Transmission) (start : Nat) : Option CanSystem :=
  let c := c.note (.fail t.sequence start c.bus.fractionalNumerator t.completion)
  if t.completion then some (c.call .failing) else c.finishEvent

/-- The winner takes the wire. -/
def carry (t : Transmission) (start : Nat) (times : WireTimes) : CanSystem :=
  { c with
    bus := { c.bus with
      inFlight := some t
      inFlightFractionBeforeStart := c.bus.fractionalNumerator
      fractionalNumerator := times.fraction
      nextStartNs := start + times.duration + times.intermission }
    wire := (start, start + times.duration) :: c.wire }.note (.start t.sequence)

def startTransmission (t : Transmission) (start : Nat) (times : WireTimes) : Option CanSystem :=
  ((c.carry t start times).arm (start + times.duration) .completion .inFlight).map fun c =>
    c.trace .startOfFrame

/-- Takes a request out of the queue. -/
def unqueue (t : Transmission) : CanSystem :=
  { c with bus := { c.bus with pending := c.bus.pending.eraseP fun x => x.sequence = t.sequence } }

def arbitrate : Option CanSystem :=
  if c.bus.timedState = .inFlight then some c.endEvent
  else if c.bus.pending = [] then some c.endEvent
  else
    let start := max c.bus.nextStartNs c.now
    match winner c.bus.pending start with
    | none => c.finishEvent
    | some t =>
      let c := c.unqueue t
      match c.bus.wireTimes t.frame start with
      | none => c.failTransmission t start
      | some times => c.startTransmission t start times

def arbitrationEvent : Option CanSystem :=
  { c with bus := { c.bus with timedEventId := 0, timedState := .idle } }.arbitrate

/-- The completion callback is called, if there is one and its owner is there. -/
def completes (t : Transmission) : Bool :=
  t.completion && (match t.sender with
    | none => true
    | some sender => decide (sender ∈ c.bus.attached))

/-- Goes on with the nodes that a frame still goes to, and ends the delivery
after the last. -/
def deliver (c : CanSystem) (t : Transmission) (time : Nat) : List Node → Option CanSystem
  | [] =>
    let called := c.completes t
    let c := c.note (.finish t.sequence c.bus.attached called)
    if called then some (c.call .completing) else c.finishEvent
  | node :: rest =>
    if node.id ∈ c.bus.attached then some (c.trace (.tracing t time node rest))
    else (c.note (.turn t.sequence node.id c.bus.attached false)).deliver t time rest

def completionEvent : Option CanSystem :=
  let c := { c with bus := { c.bus with timedEventId := 0 } }
  match c.bus.inFlight with
  | none => some c.endEvent
  | some t =>
    some ({ c with bus := { c.bus with inFlight := none, timedState := .idle } }.call
      (.barrier t c.now))

/-- What a bus function does when its user code comes back. -/
def resume : Waiting → Option CanSystem
  | .rejected => some c
  | .startOfFrame => some c.endEvent
  | .failing => c.finishEvent
  | .completing => c.finishEvent
  | .barrier t time =>
    (c.note (.delivery t.sequence c.bus.nodes)).deliver t time (receivers c.bus.nodes t.sender)
  | .tracing t time node rest =>
    if node.id ∈ c.bus.attached then
      some ((c.note (.turn t.sequence node.id c.bus.attached true)).call (.receiving t time rest))
    else (c.note (.turn t.sequence node.id c.bus.attached false)).deliver t time rest
  | .receiving t time rest => c.deliver t time rest

/-! ## Moves -/

/-- What happens next: user code calls the bus, under the owner it chose, or it
calls the loop, or it comes back to the bus function that waits. The rounds of
the loop and the ends of other callbacks are moves of the loop. -/
inductive CanMove
  | attach (name : String) (loopback callback : Bool)
  | detach (owner id : Nat)
  | send (owner sender : Nat) (frame : CanFrame) (time : BitVec 64) (completion : Bool)
  | inject (owner : Nat) (frame : CanFrame) (time : BitVec 64) (completion : Bool)
  | cancelSender (owner sender : Nat)
  | loop (move : Move Unit)
  | back

def useOwner (owner : Nat) : CanSystem :=
  { c with loop := { c.loop with impl := { c.loop.impl with activeOwner := owner } } }

/-- Runs a call inside a scope of an owner. -/
def underOwner (owner : Nat) (f : CanSystem → Option CanSystem) : Option CanSystem :=
  (f (c.useOwner owner)).map fun after => after.useOwner c.loop.impl.activeOwner

/-- One round of the innermost run. An event of the bus runs its function. -/
def nextRound : Option CanSystem :=
  match c.loop.running with
  | [] => none
  | a :: outer =>
    if a.inside.isSome then none
    else
      match c.loop.impl.turn a with
      | (impl, none) => some { c with loop := ⟨impl, outer⟩ }
      | (impl, some a') =>
        let next := { c with loop := ⟨impl, a' :: outer⟩ }
        match (c.loop.impl.frontSlot a).map Slot.callback with
        | some .arbitration => next.arbitrationEvent
        | some .completion => next.completionEvent
        | _ => some next

/-- The bus functions called by the innermost callback of the loop are over. -/
def callsBelow : Bool := c.calls.all fun call => call.2 < c.loop.running.length

/-- No event of the bus has this id: user code knows its own ids only. -/
def foreign (id : Nat) : Bool :=
  c.loop.impl.slots.all fun slot =>
    !(slot.state = .queued && slot.id = id && slot.callback ≠ .other)

/-- A move of the loop that user code makes, or a step of an open run. -/
def loopMove (m : Move Unit) : Option CanSystem :=
  let act (m : Move Callback) := (c.loop.act m).map fun loop => { c with loop }
  match m with
  | .next => c.nextRound
  | .finish => if c.callsBelow then act .finish else none
  | .fail => if c.callsBelow then act .fail else none
  | .schedule owner due () guarded => act (.schedule owner due .other guarded)
  | .cancel id => if c.foreign id then act (.cancel id) else none
  | .runDueEvents deadline => act (.runDueEvents deadline)
  | .advanceBy delta => act (.advanceBy delta)
  | .runOwnedEvents owner deadline => act (.runOwnedEvents owner deadline)

/-- The innermost bus function gets control back from its user code, once all
runs opened there are over. -/
def comeBack : Option CanSystem :=
  match c.calls with
  | [] => none
  | (what, depth) :: calls =>
    if c.loop.userCode && depth = c.loop.running.length then { c with calls }.resume what else none

/-- One move, if it can be made. -/
def act (m : CanMove) : Option CanSystem :=
  match m with
  | .loop m => c.loopMove m
  | .back => c.comeBack
  | .attach name loopback callback =>
    if c.loop.userCode then some (c.attach name loopback callback).2 else none
  | .detach owner id =>
    if c.loop.userCode then c.underOwner owner fun c => c.detach id else none
  | .send owner sender frame time completion =>
    if c.loop.userCode then
      c.underOwner owner fun c => (c.send sender frame time completion).map Prod.snd
    else none
  | .inject owner frame time completion =>
    if c.loop.userCode then
      c.underOwner owner fun c => (c.inject frame time completion).map Prod.snd
    else none
  | .cancelSender owner sender =>
    if c.loop.userCode then c.underOwner owner fun c => c.cancelSender sender else none

/-- Moves one after the other, as long as they can be made. -/
def run (c : CanSystem) : List CanMove → Option CanSystem
  | [] => some c
  | m :: moves => (c.act m).bind fun c => c.run moves

/-- A new bus on an empty loop. -/
def start (bitrate : BitVec 32) (queueCapacity limit : Nat) : CanSystem :=
  { loop := Dispatcher.start limit, bus := { bitrate := bitrate.toNat, queueCapacity } }

end CanSystem

end Fil.Devices
