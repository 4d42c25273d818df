-- The windowed scheduler of a world, as far as the shared bus goes. In a window
-- every board works alone and stages its bus commands; after it the coordinator
-- sorts them and replays them between the shared events. What is left over when
-- the run ends becomes shared events.
import Fil.EventClock
import Fil.StableSort

namespace Fil.Sim

/-! ## Staged commands -/

/-- A command for the shared bus that a board staged. `α` names what it asks of
the bus. -/
structure DeferredCanCommand (α : Type) where
  timestamp : Nat
  boardIndex : Nat
  laneSequence : Nat
  action : α
  deriving DecidableEq

namespace DeferredCanCommand

variable {α : Type}

/-- Time first, then the lower board. Commands of one board and one time are tied. -/
def NotAfter (a b : DeferredCanCommand α) : Prop :=
  a.timestamp < b.timestamp ∨ (a.timestamp = b.timestamp ∧ a.boardIndex ≤ b.boardIndex)

instance : DecidableRel (@NotAfter α) := fun _ _ => inferInstanceAs (Decidable (_ ∨ _))

instance : Std.Total (@NotAfter α) where
  total a b := by
    unfold NotAfter
    omega

instance : IsTrans (DeferredCanCommand α) NotAfter where
  trans a b c := by
    unfold NotAfter
    omega

/-- The order that a window sorts by: a tie goes to the lower lane sequence. -/
def SortsBefore (a b : DeferredCanCommand α) : Prop :=
  a.timestamp < b.timestamp ∨ (a.timestamp = b.timestamp ∧
    (a.boardIndex < b.boardIndex ∨ (a.boardIndex = b.boardIndex ∧
      a.laneSequence ≤ b.laneSequence)))

instance : DecidableRel (@SortsBefore α) := fun _ _ => inferInstanceAs (Decidable (_ ∨ _))

instance : Std.Total (@SortsBefore α) where
  total a b := by
    unfold SortsBefore
    omega

instance : IsTrans (DeferredCanCommand α) SortsBefore where
  trans a b c := by
    unfold SortsBefore
    omega

end DeferredCanCommand

/-- Where a lane stages its commands. Its numbers start at zero. -/
structure DeferredCanScope (α : Type) where
  outbox : List (DeferredCanCommand α) := []
  board : Nat
  sequence : Nat := 0

def DeferredCanScope.stage {α : Type} (scope : DeferredCanScope α) (time : Nat) (action : α) :
    DeferredCanScope α :=
  { scope with
    outbox := scope.outbox ++ [⟨time, scope.board, scope.sequence, action⟩]
    sequence := scope.sequence + 1 }

/-- A command as firmware, or an event of its board, gives it: with the time that
the board has come to. -/
structure Request (α : Type) where
  localTime : UInt64
  action : α

namespace Windows

variable {σ κ α : Type}

/-- What a lane stages in a window. Its clock never reads behind the shared clock,
which stands at the start of the window while lanes work. -/
def executeLane (now board : Nat) (requests : List (Request α)) : List (DeferredCanCommand α) :=
  let scope : DeferredCanScope α := { board }
  (requests.foldl (fun scope r => scope.stage (max r.localTime.toNat now) r.action) scope).outbox

/-! ## Windows -/

/-- What lanes do to the event store and to the devices. They keep the books. -/
structure LaneWork (σ κ : Type) where
  run : σ → Impl κ → σ × Impl κ
  keeps : ∀ state store, store.Good → (run state store).2.Good

/-- The options of a run. A deadline of zero is none. -/
structure Options where
  crossBoardWindowNs : Nat
  deadline : Nat := 0
  parallel : Bool := false
  stopOnBoardFailure : Bool := false
  debugHeld : Bool := false
  deriving DecidableEq

/-- What the boards and the outside do in one window. `throws` is the livelock of
an owner's events, and `debugStops` a stop of the board that is debugged. -/
structure Window (σ κ α : Type) where
  lanes : List (List (Request α))
  work : LaneWork σ κ
  throws : Bool := false
  failed : Bool := false
  runnable : Bool := true
  debugStops : Bool := false
  yields : Bool := false

structure Replayed (κ α : Type) where
  command : DeferredCanCommand α
  store : Impl κ

/-- The coordinator between two windows. `staged` and `applied` record the
commands of the run. -/
structure Session (σ κ α : Type) where
  now : Nat
  runnable : Bool
  state : σ
  store : Impl κ
  pending : List (DeferredCanCommand α) := []
  staged : List (DeferredCanCommand α) := []
  applied : List (Replayed κ α) := []

def Window.outboxes (w : Window σ κ α) (now : Nat) : List (DeferredCanCommand α) :=
  (w.lanes.zipIdx.map fun lane => executeLane now lane.2 lane.1).flatten

/-- Why a run ends. `thrown` stands for an exception that leaves the run. -/
inductive Ending
  | boardsStopped
  | deadlineReached
  | clockOverflow
  | failedSerially
  | debuggerStop
  | boardFailure
  | yielded
  | thrown
  deriving DecidableEq

/-- What the callbacks of events and the commands do, and which callback replays
a command later. -/
structure Behaviour (σ κ α : Type) where
  behave : κ → σ → Program σ κ
  replay : α → σ → Program σ κ
  later : DeferredCanCommand α → κ

namespace Session

def drainShared (b : Behaviour σ κ α) (s : Session σ κ α) (time : Nat) : Option (Session σ κ α) :=
  match s.store.runSharedEvents b.behave time s.state with
  | none => none
  | some (result, state, store, _) =>
    if result.sameTimeLimitHit then none else some { s with state, store }

def replay (b : Behaviour σ κ α) (s : Session σ κ α) (c : DeferredCanCommand α) :
    Session σ κ α :=
  let after := s.store.perform (b.replay c.action s.state)
  { s with state := after.1, store := after.2.1, applied := s.applied ++ [⟨c, s.store⟩] }

def replayBatch (b : Behaviour σ κ α) (s : Session σ κ α) (time : Nat) : Session σ κ α :=
  { (s.pending.takeWhile fun c => c.timestamp ≤ time).foldl (replay b) s with
    pending := s.pending.dropWhile fun c => c.timestamp ≤ time }

/-- Replays what is due in a window: shared events up to the first command's time,
the commands of that time, and shared events again. -/
def replayDue (b : Behaviour σ κ α) (finish : Nat) : Nat → Session σ κ α →
    Option (Session σ κ α)
  | 0, s => some s
  | fuel + 1, s =>
    match s.pending with
    | [] => some s
    | c :: _ =>
      if c.timestamp ≤ finish then
        (s.drainShared b (max s.now c.timestamp)).bind fun s₁ =>
          ((s₁.replayBatch b (max s.now c.timestamp)).drainShared b (max s.now c.timestamp)).bind
            (replayDue b finish fuel)
      else some s

/-- Every round takes a command, so their number is enough rounds. -/
def replayWindow (b : Behaviour σ κ α) (s : Session σ κ α) (finish : Nat) :
    Option (Session σ κ α) :=
  (s.replayDue b finish s.pending.length).bind fun s => s.drainShared b finish

/-- After the lanes: their commands join those left over, and all are sorted. -/
def collect (s : Session σ κ α) (w : Window σ κ α) : Session σ κ α :=
  { s with
    runnable := w.runnable
    state := (w.work.run s.state s.store).1
    store := (w.work.run s.state s.store).2
    pending := (s.pending ++ w.outboxes s.now).insertionSort DeferredCanCommand.SortsBefore
    staged := s.staged ++ w.outboxes s.now }

end Session

/-! ## Runs -/

def saturatingAdd (a b : Nat) : Nat := min (a + b) simTimeMax

/-- Whether the loop ends before another window. -/
def loopEnds (o : Options) (s : Session σ κ α) : Option Ending :=
  if !s.runnable then
    if !o.debugHeld || o.deadline = 0 || o.deadline ≤ s.now then some .boardsStopped else none
  else if o.deadline ≠ 0 && o.deadline ≤ s.now then some .deadlineReached
  else none

def windowEnd (o : Options) (now : Nat) : Nat :=
  let finish := saturatingAdd now o.crossBoardWindowNs
  if o.deadline ≠ 0 then min finish o.deadline else finish

/-- What a window comes to. -/
inductive Turn (σ κ α : Type)
  | again (s : Session σ κ α)
  | over (ending : Ending) (s : Session σ κ α)

def afterWindow (o : Options) (w : Window σ κ α) (s : Session σ κ α) : Turn σ κ α :=
  if w.debugStops then .over .debuggerStop s
  else if w.failed && o.stopOnBoardFailure then .over .boardFailure s
  else if w.yields then .over .yielded s
  else .again s

/-- One pass of the loop. -/
def window (o : Options) (b : Behaviour σ κ α) (s : Session σ κ α) (w : Window σ κ α) :
    Turn σ κ α :=
  if windowEnd o s.now = s.now then .over .clockOverflow s
  else if w.throws then .over .thrown s
  else if !o.parallel && w.failed && o.stopOnBoardFailure then
    .over .failedSerially (s.collect w)
  else
    match (s.collect w).replayWindow b (windowEnd o s.now) with
    | none => .over .thrown (s.collect w)
    | some s' => afterWindow o w { s' with now := windowEnd o s.now }

/-- The loop over the windows that the boards play, or `none` if it would go on
after them. -/
def windows (o : Options) (b : Behaviour σ κ α) : Session σ κ α → List (Window σ κ α) →
    Option (Ending × Session σ κ α)
  | s, [] => (loopEnds o s).map fun ending => (ending, s)
  | s, w :: ws =>
    match loopEnds o s with
    | some ending => some (ending, s)
    | none =>
      match window o b s w with
      | .over ending s => some (ending, s)
      | .again s => windows o b s ws

def scheduleTail (b : Behaviour σ κ α) : List (DeferredCanCommand α) → Impl κ →
    Option (List (Slot κ × DeferredCanCommand α) × Impl κ)
  | [], store => some ([], store)
  | c :: cs, store =>
    match store.scheduleAs sharedEventOwner
        (max (store.timeFor sharedEventOwner) c.timestamp) (b.later c) false with
    | (some _, store, [.issue slot]) =>
      (scheduleTail b cs store).map fun tail => ((slot, c) :: tail.1, tail.2)
    | _ => none

/-- What a run leaves behind. -/
structure Outcome (κ α : Type) where
  ending : Ending
  staged : List (DeferredCanCommand α)
  applied : List (Replayed κ α)
  tail : List (Slot κ × DeferredCanCommand α)
  store : Impl κ

/-- The commands of an outcome: those replayed, then those scheduled. -/
def Outcome.commands (out : Outcome κ α) : List (DeferredCanCommand α) :=
  out.applied.map Replayed.command ++ out.tail.map Prod.snd

/-- The lanes' stores are joined, which can throw, and what is left is scheduled. -/
def close (b : Behaviour σ κ α) (joins : Option (LaneWork σ κ)) (ending : Ending)
    (s : Session σ κ α) : Outcome κ α :=
  match joins with
  | none => ⟨.thrown, s.staged, s.applied, [], s.store⟩
  | some work =>
    match scheduleTail b s.pending (work.run s.state s.store).2 with
    | none => ⟨.thrown, s.staged, s.applied, [], (work.run s.state s.store).2⟩
    | some (tail, store) => ⟨ending, s.staged, s.applied, tail, store⟩

def finishRun (b : Behaviour σ κ α) (joins : Option (LaneWork σ κ)) (ending : Ending)
    (s : Session σ κ α) : Outcome κ α :=
  match ending with
  | .thrown | .clockOverflow => ⟨ending, s.staged, s.applied, [], s.store⟩
  | _ => close b joins ending s

def startRun (runnable : Bool) (state : σ) (store : Impl κ) : Session σ κ α :=
  { now := store.timeFor sharedEventOwner, runnable, state, store }

def runIndependent (o : Options) (b : Behaviour σ κ α) (joins : Option (LaneWork σ κ))
    (s : Session σ κ α) (ws : List (Window σ κ α)) : Option (Outcome κ α) :=
  (windows o b s ws).map fun final => finishRun b joins final.1 final.2

end Windows

end Fil.Sim
