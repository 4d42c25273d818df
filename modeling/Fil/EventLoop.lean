-- The simulated-time event loop. Events live in slots that are used again, and
-- wait in several queues at once. A queue keeps entries of events that are
-- gone; they are told apart by the id and dropped when they reach the front.
import Fil.Tickets
import Mathlib.Algebra.Group.Nat.Defs
import Mathlib.Data.List.Sort
import Mathlib.Logic.Function.Basic

namespace Fil.Sim

/-- The owner of events that belong to no board. -/
def sharedEventOwner : Nat := 2 ^ 32 - 1

def laneIdMarker : Nat := 2 ^ 63

def laneIdCounterMask : Nat := 2 ^ 56 - 1

def sequencePartition : Nat := 2 ^ 56

/-! ## The state -/

inductive SlotState
  | free
  | queued
  deriving DecidableEq

/-- Storage of one event. `κ` names the callbacks, built-in ones included. The
source calls the time of an event `at`. -/
structure Slot (κ : Type) where
  due : Nat
  id : Nat
  sequence : Nat
  owner : Nat
  callback : κ
  guarded : Bool
  globallyObserved : Bool
  state : SlotState

/-- What a queue holds of an event. -/
structure Entry where
  due : Nat
  sequence : Nat
  slot : Nat
  id : Nat
  deriving DecidableEq

/-- The order of a queue: time first, then the number of the scheduling call. -/
def Entry.NotAfter (a b : Entry) : Prop :=
  a.due < b.due ∨ (a.due = b.due ∧ a.sequence ≤ b.sequence)

instance (a b : Entry) : Decidable (a.NotAfter b) :=
  inferInstanceAs (Decidable (_ ∨ _))

/-- A priority queue as the list of its entries, first one first. -/
def push (e : Entry) (q : List Entry) : List Entry := q.orderedInsert Entry.NotAfter e

structure EventRunResult where
  eventsExecuted : Nat := 0
  sameTimeLimitHit : Bool := false
  stoppedAt : Nat := 0
  localOwnerMask : Nat := 0
  sharedEventExecuted : Bool := false
  deriving DecidableEq

/-- One event domain. The dense tables for owners below 64 and the hash maps
for the others are one function of the owner here. `liveEvents` gives the slot
of every event that waits. -/
structure Impl (κ : Type) where
  sharedNow : Nat := 0
  nextId : Nat := 1
  nextSequence : Nat := 0
  maximumSameTimeEvents : Nat := 100000
  readOffset : Nat := 0
  activeOwner : Nat := sharedEventOwner
  slots : List (Slot κ) := []
  freeSlots : List Nat := []
  events : List Entry := []
  globallyObservedEvents : List Entry := []
  ownerEvents : Nat → List Entry := fun _ => []
  liveEvents : List (Nat × Nat) := []
  ownerNow : Nat → Option Nat := fun _ => none
  executedCallbacks : Nat := 0
  laneDomain : Bool := false
  laneOwner : Nat := sharedEventOwner
  laneNextId : Nat := 1
  nextLaneIds : Nat → Nat := fun _ => 1

namespace Impl

variable {κ : Type}

/-! ## Clocks -/

variable (s : Impl κ)

/-- The clock of an owner. It never reads behind the shared clock. -/
def timeFor (owner : Nat) : Nat :=
  if owner = sharedEventOwner then s.sharedNow + s.readOffset
  else
    match s.ownerNow owner with
    | none => s.sharedNow + s.readOffset
    | some time => max time s.sharedNow + s.readOffset

def setTime (owner time : Nat) : Impl κ :=
  if owner = sharedEventOwner then { s with sharedNow := time }
  else { s with ownerNow := Function.update s.ownerNow owner (some time) }

/-! ## Queues -/

/-- An entry whose event still waits in its slot. -/
def entryLive (slots : List (Slot κ)) (e : Entry) : Bool :=
  match slots[e.slot]? with
  | none => false
  | some slot => slot.state = .queued && slot.id = e.id

def discardDeadFront (slots : List (Slot κ)) (queue : List Entry) : List Entry :=
  queue.dropWhile fun e => !entryLive slots e

/-! ## Slots -/

/-- The next id, or `none` when the ids are used up. A lane's ids carry the
lane's owner above a counter of their own; the three parts share no bits. -/
def allocateId : Option (Nat × Impl κ) :=
  if s.laneDomain then
    if s.laneNextId = 0 || laneIdCounterMask < s.laneNextId then none
    else some (laneIdMarker + s.laneOwner * 2 ^ 56 + s.laneNextId,
      { s with laneNextId := s.laneNextId + 1 })
  else if s.nextId = 0 || laneIdMarker ≤ s.nextId then none
  else some (s.nextId, { s with nextId := s.nextId + 1 })

/-- The slot a new event gets: the one freed last, or a new one. -/
def acquireSlot : Nat × List Nat :=
  match s.freeSlots with
  | index :: rest => (index, rest)
  | [] => (s.slots.length, [])

/-- Puts a slot into the table, at its end if the index is new. -/
def putSlot (slots : List (Slot κ)) (index : Nat) (slot : Slot κ) : List (Slot κ) :=
  if index < slots.length then slots.set index slot else slots ++ [slot]

/-- What a new event of the active owner carries. -/
def newSlot (id due : Nat) (callback : κ) (guarded : Bool) : Slot κ :=
  { due, id, sequence := s.nextSequence, owner := s.activeOwner, callback, guarded,
    globallyObserved := !guarded || s.activeOwner = sharedEventOwner, state := .queued }

/-- Stores a new event and enters it into its queues. -/
def enqueue (slot : Slot κ) : Impl κ :=
  let (index, freeSlots) := s.acquireSlot
  let entry : Entry := ⟨slot.due, slot.sequence, index, slot.id⟩
  let slots := putSlot s.slots index slot
  { s with
    freeSlots
    slots
    nextSequence := s.nextSequence + 1
    events := push entry s.events
    globallyObservedEvents :=
      if slot.globallyObserved then push entry s.globallyObservedEvents
      else s.globallyObservedEvents
    ownerEvents := Function.update s.ownerEvents slot.owner
      (push entry (discardDeadFront slots (s.ownerEvents slot.owner)))
    liveEvents := (slot.id, index) :: s.liveEvents }

/-- Schedules for the active owner. `none` stands for the exceptions: a lane
that schedules for another owner, a time in the past, or ids used up. -/
def schedule (due : Nat) (callback : κ) (guarded : Bool) : Option (Nat × Impl κ) :=
  if s.laneDomain && s.activeOwner ≠ s.laneOwner then none
  else if due < s.timeFor s.activeOwner then none
  else
    match s.allocateId with
    | none => none
    | some (id, s) => some (id, s.enqueue (s.newSlot id due callback guarded))

def releaseSlot (index : Nat) : Impl κ :=
  { s with
    slots := s.slots.modify index fun slot => { slot with state := .free }
    freeSlots := index :: s.freeSlots }

def cancelId (id : Nat) : Bool × Impl κ :=
  if id = 0 then (false, s)
  else
    match s.liveEvents.lookup id with
    | none => (false, s)
    | some index =>
      let liveEvents := s.liveEvents.filter fun e => e.1 ≠ id
      match s.slots[index]? with
      | none => (false, { s with liveEvents })
      | some slot =>
        if slot.id ≠ id then (false, { s with liveEvents })
        else
          let s := s.releaseSlot index
          (true,
            { s with
              liveEvents
              globallyObservedEvents := discardDeadFront s.slots s.globallyObservedEvents })

def markOwner (result : EventRunResult) (owner : Nat) : EventRunResult :=
  if owner < 64 then { result with localOwnerMask := result.localOwnerMask ||| (1 <<< owner) }
  else { result with sharedEventExecuted := true }

end Impl

/-! ## Callbacks -/

/-- What a callback does: it schedules for owners, cancels ids and reads
clocks, one call after the other, and ends in a state of its own. A call that
throws gives it `none`. -/
inductive Program (σ κ : Type)
  | done (state : σ)
  | schedule (owner due : Nat) (callback : κ) (guarded : Bool) (next : Option Nat → Program σ κ)
  | cancel (id : Nat) (next : Bool → Program σ κ)
  | now (owner : Nat) (next : Option Nat → Program σ κ)

/-- What the outside can see of a run: events that are scheduled, cancelled by
their id, and run. -/
abbrev Happening (κ : Type) := Tickets.Act Nat (Slot κ)

namespace Impl

variable {σ κ : Type} (s : Impl κ)

/-- Schedules inside a scope of the given owner. -/
def scheduleAs (owner due : Nat) (callback : κ) (guarded : Bool) :
    Option Nat × Impl κ × List (Happening κ) :=
  match { s with activeOwner := owner }.schedule due callback guarded with
  | none => (none, s, [])
  | some (id, s') =>
    (some id, { s' with activeOwner := s.activeOwner },
      [.issue ({ s with activeOwner := owner }.newSlot id due callback guarded)])

def cancelAs (id : Nat) : Bool × Impl κ × List (Happening κ) :=
  match s.cancelId id with
  | (true, s) => (true, s, [.withdraw id])
  | (false, s) => (false, s, [])

/-- Reads a clock. A lane cannot read the clock of another owner. -/
def now (owner : Nat) : Option Nat :=
  if s.laneDomain && owner ≠ s.laneOwner then none else some (s.timeFor owner)

def perform (s : Impl κ) : Program σ κ → σ × Impl κ × List (Happening κ)
  | .done state => (state, s, [])
  | .schedule owner due callback guarded next =>
    let (id, s, h) := s.scheduleAs owner due callback guarded
    let (state, s, hs) := s.perform (next id)
    (state, s, h ++ hs)
  | .cancel id next =>
    let (found, s, h) := s.cancelAs id
    let (state, s, hs) := s.perform (next found)
    (state, s, h ++ hs)
  | .now owner next => s.perform (next (s.now owner))

/-- Takes the event of a queue's front out of its slot. -/
def retire (entry : Entry) (slot : Slot κ) : Impl κ :=
  let s := s.releaseSlot entry.slot
  let s := { s with
    liveEvents := s.liveEvents.filter fun e => e.1 ≠ slot.id
    globallyObservedEvents := discardDeadFront s.slots s.globallyObservedEvents }
  s.setTime slot.owner slot.due

/-- Runs one event: it leaves its slot first, then its callback works as its
owner. The observers of the source act inside the callback's program. -/
def invoke (behave : κ → σ → Program σ κ) (entry : Entry) (result : EventRunResult) (state : σ)
    (s : Impl κ) : EventRunResult × σ × Impl κ × List (Happening κ) :=
  match s.slots[entry.slot]? with
  | none => (result, state, s, [])
  | some slot =>
    let result := markOwner result slot.owner
    let result := { result with eventsExecuted := result.eventsExecuted + 1 }
    let previous := s.activeOwner
    let s := { s.retire entry slot with activeOwner := slot.owner }
    let (state, s, hs) := s.perform (behave slot.callback state)
    (result, state,
      { s with activeOwner := previous, executedCallbacks := s.executedCallbacks + 1 },
      .use slot :: hs)

/-! ## Runs -/

/-- Which events a run takes: all of them, or those of one owner. -/
inductive Scope
  | all
  | owner (owner : Nat)
  deriving DecidableEq

def queue : Scope → List Entry
  | .all => s.events
  | .owner o => s.ownerEvents o

def setQueue : Scope → List Entry → Impl κ
  | .all, q => { s with events := q }
  | .owner o, q => { s with ownerEvents := Function.update s.ownerEvents o q }

/-- The clock that a run moves. -/
def setClock : Scope → Nat → Impl κ
  | .all, time => { s with sharedNow := time }
  | .owner o, time => s.setTime o time

def reachEvent : Scope → Nat → Impl κ
  | .all, time => { s with sharedNow := time }
  | .owner _, _ => s

/-- The loop of a run, up to `fuel` rounds. `countedTime` and `eventsAtTime`
count the callbacks at the current time. `none` means that the rounds did not
do. -/
def runLoop (behave : κ → σ → Program σ κ) (scope : Scope) (deadline : Nat) :
    (fuel countedTime eventsAtTime : Nat) → EventRunResult → σ → Impl κ → List (Happening κ) →
      Option (EventRunResult × σ × Impl κ × List (Happening κ))
  | 0, _, _, _, _, _, _ => none
  | fuel + 1, countedTime, eventsAtTime, result, state, s, done =>
    let s := s.setQueue scope (discardDeadFront s.slots (s.queue scope))
    match s.queue scope with
    | [] =>
      some ({ result with stoppedAt := deadline }, state, s.setClock scope deadline, done)
    | entry :: rest =>
      if deadline < entry.due then
        some ({ result with stoppedAt := deadline }, state, s.setClock scope deadline, done)
      else
        let fresh := eventsAtTime = 0 || entry.due ≠ countedTime
        let eventsAtTime := if fresh then 0 else eventsAtTime
        if s.maximumSameTimeEvents ≤ eventsAtTime then
          some ({ result with sameTimeLimitHit := true, stoppedAt := entry.due }, state,
            s.setClock scope entry.due, done)
        else
          let s := (s.setQueue scope rest).reachEvent scope entry.due
          let (result, state, s, hs) := invoke behave entry result state s
          runLoop behave scope deadline fuel entry.due (eventsAtTime + 1) result state s
            (done ++ hs)

/-- Enough rounds: one for every callback that the limit allows at each time up
to the deadline, and one to see that nothing is left. -/
def rounds (deadline : Nat) : Nat := (deadline + 1) * s.maximumSameTimeEvents + 1

/-- `none` stands for the exceptions: a lane, which cannot dispatch for all
owners, or a clock that would run backwards. -/
def runDueEvents (behave : κ → σ → Program σ κ) (deadline : Nat) (state : σ) (s : Impl κ) :
    Option (EventRunResult × σ × Impl κ × List (Happening κ)) :=
  if s.laneDomain then none
  else if deadline < s.sharedNow then none
  else runLoop behave .all deadline (s.rounds deadline) 0 0 { stoppedAt := s.sharedNow } state s []

/-- `none` stands for the exceptions: another lane's owner, or a clock that would
run backwards. -/
def runOwnedEvents (behave : κ → σ → Program σ κ) (owner deadline : Nat) (state : σ)
    (s : Impl κ) : Option (EventRunResult × σ × Impl κ × List (Happening κ)) :=
  if s.laneDomain && owner ≠ s.laneOwner then none
  else if deadline < s.timeFor owner then none
  else
    runLoop behave (.owner owner) deadline (s.rounds deadline) 0 0
      { stoppedAt := s.timeFor owner } state s []

def runSharedEvents (behave : κ → σ → Program σ κ) (deadline : Nat) (state : σ) (s : Impl κ) :
    Option (EventRunResult × σ × Impl κ × List (Happening κ)) :=
  runOwnedEvents behave sharedEventOwner deadline state s

end Impl

end Fil.Sim
