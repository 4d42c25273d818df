-- The shared clock when callbacks start runs of their own. A callback may do
-- all that a caller from outside may do, so the loop is taken step by step
-- here: user code calls it, an open run takes its next event or ends, and a
-- callback comes back. The clock goes back in two ways only, and both can be
-- told from the state before the step.
import Fil.EventDispatch

open Tickets.Office (out)
open Relation (ReflTransGen)

namespace Fil.Sim

variable {σ κ : Type}

/-! ## One round of a run -/

/-- A run that is not over yet. -/
structure Activation where
  scope : Impl.Scope
  deadline : Nat
  countedTime : Nat := 0
  eventsAtTime : Nat := 0
  /-- While a callback of this run works, the owner that was active before. -/
  inside : Option Nat := none
  deriving DecidableEq

namespace Impl

/-- The callbacks at the time of the next event so far. -/
def countAt (a : Activation) (due : Nat) : Nat :=
  if a.eventsAtTime = 0 || due ≠ a.countedTime then 0 else a.eventsAtTime

/-- Takes the event at the front of the queue and hands over to its callback. -/
def takeEvent (s : Impl κ) (a : Activation) (entry : Entry) (rest : List Entry) :
    Impl κ × Activation :=
  let a := { a with countedTime := entry.due, eventsAtTime := countAt a entry.due + 1 }
  let previous := s.activeOwner
  let s := (s.setQueue a.scope rest).reachEvent a.scope entry.due
  match s.slots[entry.slot]? with
  | none => (s, a)
  | some slot =>
    ({ s.retire entry slot with activeOwner := slot.owner }, { a with inside := some previous })

/-- One round of the loop of a run: it ends, or it takes an event. -/
def turn (s : Impl κ) (a : Activation) : Impl κ × Option Activation :=
  let s := s.setQueue a.scope (discardDeadFront s.slots (s.queue a.scope))
  match s.queue a.scope with
  | [] => (s.setClock a.scope a.deadline, none)
  | entry :: rest =>
    if a.deadline < entry.due then (s.setClock a.scope a.deadline, none)
    else if s.maximumSameTimeEvents ≤ countAt a entry.due then
      (s.setClock a.scope entry.due, none)
    else
      let taken := s.takeEvent a entry rest
      (taken.1, some taken.2)

/-- The event that the next round of a run would take. -/
def frontSlot (s : Impl κ) (a : Activation) : Option (Slot κ) :=
  match discardDeadFront s.slots (s.queue a.scope) with
  | [] => none
  | entry :: _ => s.slots[entry.slot]?

end Impl

/-! ## The loop and those who call it -/

/-- The loop with its open runs, the innermost first. -/
structure Dispatcher (κ : Type) where
  impl : Impl κ
  running : List Activation := []

/-- What happens to the loop: a call by user code, or the next step of a run
that is open. `next` is a round of the innermost run, `finish` the return of
its callback, and `fail` an exception of its callback, which ends the run. -/
inductive Move (κ : Type)
  | schedule (owner due : Nat) (callback : κ) (guarded : Bool)
  | cancel (id : Nat)
  | runDueEvents (deadline : Nat)
  | advanceBy (delta : Nat)
  | runOwnedEvents (owner deadline : Nat)
  | next
  | finish
  | fail

def Move.runSharedEvents (deadline : Nat) : Move κ := .runOwnedEvents sharedEventOwner deadline

def Move.startsNoRun : Move κ → Bool
  | .runDueEvents _ | .advanceBy _ | .runOwnedEvents _ _ => false
  | _ => true

def simTimeMax : Nat := 2 ^ 64 - 1

namespace Dispatcher

variable (c : Dispatcher κ)

def ownerDispatchActive : Bool := c.running.any fun a => a.scope ≠ .all

/-- User code works: nothing runs, or a callback of the innermost run. -/
def userCode : Bool :=
  match c.running with
  | [] => true
  | a :: _ => a.inside.isSome

/-- Opens a run over all events. A refused call throws and changes nothing. -/
def openDue (deadline : Nat) : Dispatcher κ :=
  if c.impl.laneDomain || c.ownerDispatchActive || deadline < c.impl.sharedNow then c
  else { c with running := { scope := .all, deadline } :: c.running }

def openOwned (owner deadline : Nat) : Dispatcher κ :=
  if (c.impl.laneDomain && owner ≠ c.impl.laneOwner) || c.ownerDispatchActive
    || deadline < c.impl.timeFor owner then c
  else { c with running := { scope := .owner owner, deadline } :: c.running }

/-- The innermost run goes on. -/
def proceed : Option (Dispatcher κ) :=
  match c.running with
  | [] => none
  | a :: outer =>
    if a.inside.isSome then none
    else
      match c.impl.turn a with
      | (impl, none) => some ⟨impl, outer⟩
      | (impl, some a) => some ⟨impl, a :: outer⟩

/-- The callback of the innermost run is over. -/
def comeBack (failed : Bool) : Option (Dispatcher κ) :=
  match c.running with
  | [] => none
  | a :: outer =>
    match a.inside with
    | none => none
    | some previous =>
      let impl := { c.impl with activeOwner := previous }
      if failed then some ⟨impl, outer⟩
      else some ⟨{ impl with executedCallbacks := impl.executedCallbacks + 1 },
        { a with inside := none } :: outer⟩

/-- One move, if it can be made. -/
def act (m : Move κ) : Option (Dispatcher κ) :=
  match m with
  | .next => c.proceed
  | .finish => c.comeBack false
  | .fail => c.comeBack true
  | .schedule owner due callback guarded =>
    if c.userCode then some { c with impl := (c.impl.scheduleAs owner due callback guarded).2.1 }
    else none
  | .cancel id => if c.userCode then some { c with impl := (c.impl.cancelAs id).2.1 } else none
  | .runDueEvents deadline => if c.userCode then some (c.openDue deadline) else none
  | .advanceBy delta =>
    if c.userCode then
      some (if simTimeMax - c.impl.sharedNow < delta then c
        else c.openDue (c.impl.sharedNow + delta))
    else none
  | .runOwnedEvents owner deadline => if c.userCode then some (c.openOwned owner deadline) else none

/-- An empty loop. -/
def start (limit : Nat) : Dispatcher κ := ⟨{ maximumSameTimeEvents := limit }, []⟩

/-- The values of the shared clock along moves, up to the first that cannot be
made. -/
def clocks (c : Dispatcher κ) : List (Move κ) → List Nat
  | [] => [c.impl.sharedNow]
  | m :: moves =>
    c.impl.sharedNow :: match c.act m with
      | none => []
      | some c => clocks c moves

/-- A condition on every move that is made and on the state before it. -/
def Along (P : Dispatcher κ → Move κ → Prop) (c : Dispatcher κ) : List (Move κ) → Prop
  | [] => True
  | m :: moves => ∀ c', c.act m = some c' → P c m ∧ Along P c' moves

end Dispatcher

/-! ## What a round does -/

namespace Impl

/-- A run that moves the shared clock: one over all events, or one over the
shared ones. -/
def Scope.MovesShared (scope : Scope) : Prop := scope = .all ∨ scope = .owner sharedEventOwner

instance (scope : Scope) : Decidable scope.MovesShared := inferInstanceAs (Decidable (_ ∨ _))

/-- A round of a run comes to a time: the deadline, or the time of the first
event that the run wants. -/
structure Turned (s : Impl κ) (a : Activation) (time : Nat) (s' : Impl κ) : Prop where
  good : Good s'
  fewer : s'.pending ⊆ s.pending
  clock : s'.sharedNow = if a.scope.MovesShared then time else s.sharedNow
  within : time ≤ a.deadline
  least : ∀ b ∈ s.pending, a.scope.Wants b → time ≤ b.due
  reached : time = a.deadline ∨ ∃ b ∈ s.pending, a.scope.Wants b ∧ b.due = time

lemma sharedNow_setClock (s : Impl κ) (scope : Scope) (time : Nat) :
    (s.setClock scope time).sharedNow = if scope.MovesShared then time else s.sharedNow := by
  cases scope with
  | all => simp [setClock, Scope.MovesShared]
  | owner o =>
    by_cases ho : o = sharedEventOwner
    · simp [setClock, setTime, Scope.MovesShared, ho]
    · simp [setClock, setTime, Scope.MovesShared, ho]

lemma sharedNow_atEvent (s : Impl κ) {scope : Scope} {entry : Entry} (rest : List Entry)
    {slot : Slot κ} (hdue : slot.due = entry.due) (hwant : scope.Wants slot) :
    (s.atEvent scope entry rest slot).sharedNow =
      if scope.MovesShared then entry.due else s.sharedNow := by
  cases scope with
  | all =>
    simp [atEvent, retire, setTime, hdue, Scope.MovesShared]
    split_ifs <;> rfl
  | owner o =>
    obtain rfl : slot.owner = o := hwant
    by_cases ho : slot.owner = sharedEventOwner
    · simp [atEvent, retire, setTime, Scope.MovesShared, ho, hdue]
    · simp [atEvent, retire, setTime, Scope.MovesShared, ho, Scope.owner.injEq]
      rfl

variable {s : Impl κ} {time : Nat} {s' : Impl κ} {a : Activation}

lemma Turned.of_clock (hgood : Good s) (hwithin : time ≤ a.deadline)
    (hleast : ∀ b ∈ s.pending, a.scope.Wants b → time ≤ b.due)
    (hreached : time = a.deadline ∨ ∃ b ∈ s.pending, a.scope.Wants b ∧ b.due = time) :
    Turned s a time
      ((s.setQueue a.scope (discardDeadFront s.slots (s.queue a.scope))).setClock a.scope time) := by
  have hdiscard := hgood.setQueue (hgood.queue a.scope).discard
  obtain ⟨hg, hoffice⟩ := hdiscard.setClock a.scope time
  refine ⟨hg, ?_, ?_, hwithin, hleast, hreached⟩
  · have hpending := congrArg out hoffice
    refine (hpending.trans ?_).le
    cases a.scope <;> rfl
  · rw [sharedNow_setClock]
    cases a.scope <;> rfl

lemma takeEvent_eq (a : Activation) {entry : Entry} (rest : List Entry) {slot : Slot κ}
    (hw : Waits s.slots entry.slot slot) :
    s.takeEvent a entry rest = (s.atEvent a.scope entry rest slot,
      { a with countedTime := entry.due, eventsAtTime := countAt a entry.due + 1,
               inside := some s.activeOwner }) := by
  have hget : ((s.setQueue a.scope rest).reachEvent a.scope entry.due).slots[entry.slot]? =
      some slot := by
    cases a.scope <;> exact hw.1
  unfold takeEvent atEvent
  dsimp only
  rw [hget]

lemma turn_turned (h : Good s) (a : Activation) : ∃ time, Turned s a time (s.turn a).1 := by
  have hqueue := h.queue a.scope
  unfold turn
  dsimp only
  rw [queue_setQueue]
  split
  · -- nothing that the run wants is left
    rename_i hnone
    refine ⟨a.deadline, .of_clock h le_rfl ?_ (.inl rfl)⟩
    rintro b ⟨i, hw⟩ hwant
    exact absurd hwant (hqueue.none_waits hnone hw)
  rename_i entry rest hfront
  obtain ⟨slot, hw, hentry, hwant, hfirst⟩ := hqueue.front hfront
  have hdue : slot.due = entry.due := congrArg Entry.due hentry
  have hleast : ∀ b ∈ s.pending, a.scope.Wants b → entry.due ≤ b.due := by
    rintro b ⟨i, hwb⟩ hwantb
    have hle := hfirst i b hwb hwantb
    unfold Entry.NotAfter Slot.entry at hle
    dsimp only at hle
    omega
  split_ifs with hlate
  · refine ⟨a.deadline, .of_clock h le_rfl ?_ (.inl rfl)⟩
    intro b hb hwantb
    exact hlate.le.trans (hleast b hb hwantb)
  · exact ⟨entry.due, .of_clock h (Nat.not_lt.mp hlate) hleast
      (.inr ⟨slot, ⟨entry.slot, hw⟩, hwant, hdue⟩)⟩
  -- the event leaves its slot
  have hgood := h.setQueue hqueue.discard
  have hwaits : Waits (s.setQueue a.scope (discardDeadFront s.slots
      (s.queue a.scope))).slots entry.slot slot := by
    cases a.scope <;> exact hw
  rw [hfront] at hgood hwaits ⊢
  have hq := queue_setQueue s a.scope (entry :: rest)
  obtain ⟨hg, hoffice, -⟩ := hgood.atEvent hq hwaits
  rw [takeEvent_eq a rest hwaits]
  refine ⟨entry.due, hg, ?_, ?_, Nat.not_lt.mp hlate, hleast,
    .inr ⟨slot, ⟨entry.slot, hw⟩, hwant, hdue⟩⟩
  · intro b hb
    rw [show pending _ = _ from congrArg out hoffice] at hb
    have hout : (s.setQueue a.scope (entry :: rest)).pending = s.pending := by
      cases a.scope <;> rfl
    exact hout ▸ hb.1
  · rw [sharedNow_atEvent _ rest hdue hwant]
    cases a.scope <;> rfl

lemma turn_none (h : Good s) (hturn : s.turn a = (s', none)) :
    Good s' ∧ s'.pending = s.pending ∧ s'.activeOwner = s.activeOwner := by
  have hgood := h.setQueue (h.queue a.scope).discard
  have hend : ∀ time, Good ((s.setQueue a.scope (discardDeadFront s.slots
      (s.queue a.scope))).setClock a.scope time) ∧ ((s.setQueue a.scope (discardDeadFront s.slots
      (s.queue a.scope))).setClock a.scope time).pending = s.pending ∧
      ((s.setQueue a.scope (discardDeadFront s.slots (s.queue a.scope))).setClock a.scope
        time).activeOwner = s.activeOwner := by
    intro time
    obtain ⟨hg, hoffice⟩ := hgood.setClock a.scope time
    refine ⟨hg, (congrArg out hoffice).trans ?_, ?_⟩
    · cases a.scope <;> rfl
    · cases a.scope with
      | all => rfl
      | owner o =>
        obtain ⟨_, _, heq⟩ := setTime_eq (s.setQueue (.owner o) (discardDeadFront s.slots
          (s.queue (.owner o)))) o time
        exact (congrArg activeOwner heq).trans rfl
  unfold turn at hturn
  dsimp only at hturn
  split at hturn
  · cases hturn
    exact hend _
  split_ifs at hturn
  · cases hturn
    exact hend _
  · cases hturn
    exact hend _
  · cases hturn

lemma turn_some (h : Good s) {a' : Activation} (hturn : s.turn a = (s', some a')) :
    ∃ slot, s.frontSlot a = some slot ∧ slot ∈ s.pending ∧ Good s' ∧
      s'.pending = {b ∈ s.pending | b.id ≠ slot.id} ∧ s'.activeOwner = slot.owner ∧
      a'.inside = some s.activeOwner := by
  unfold turn at hturn
  dsimp only at hturn
  rw [queue_setQueue] at hturn
  unfold frontSlot
  cases hfront : discardDeadFront s.slots (s.queue a.scope) with
  | nil => rw [hfront] at hturn; cases hturn
  | cons entry rest =>
    rw [hfront] at hturn
    dsimp only at hturn ⊢
    split_ifs at hturn
    · cases hturn
    · cases hturn
    obtain ⟨slot, hw, -⟩ := (h.queue a.scope).front hfront
    have hgood := h.setQueue (h.queue a.scope).discard
    rw [hfront] at hgood
    have hwaits : Waits (s.setQueue a.scope (entry :: rest)).slots entry.slot slot := by
      cases a.scope <;> exact hw
    obtain ⟨hg, hoffice, -⟩ := hgood.atEvent (queue_setQueue s a.scope (entry :: rest)) hwaits
    rw [takeEvent_eq a rest hwaits] at hturn
    cases hturn
    refine ⟨slot, hw.1, ⟨_, hw⟩, hg, (congrArg out hoffice).trans ?_, rfl, ?_⟩
    · cases a.scope <;> rfl
    · cases a.scope <;> rfl

lemma runLoop_succ (behave : κ → σ → Program σ κ) (s : Impl κ) (a : Activation) (fuel : Nat)
    (result : EventRunResult) (state : σ) (done : List (Happening κ)) :
    runLoop behave a.scope a.deadline (fuel + 1) a.countedTime a.eventsAtTime result state s done =
      let s := s.setQueue a.scope (discardDeadFront s.slots (s.queue a.scope))
      match s.queue a.scope with
      | [] => some ({ result with stoppedAt := a.deadline }, state, s.setClock a.scope a.deadline,
          done)
      | entry :: rest =>
        if a.deadline < entry.due then
          some ({ result with stoppedAt := a.deadline }, state, s.setClock a.scope a.deadline, done)
        else if s.maximumSameTimeEvents ≤ countAt a entry.due then
          some ({ result with sameTimeLimitHit := true, stoppedAt := entry.due }, state,
            s.setClock a.scope entry.due, done)
        else
          let after := invoke behave entry result state
            ((s.setQueue a.scope rest).reachEvent a.scope entry.due)
          runLoop behave a.scope a.deadline fuel entry.due (countAt a entry.due + 1) after.1
            after.2.1 after.2.2.1 (done ++ after.2.2.2) := rfl

/-! ## What holds in every state -/

def SharedAhead (s : Impl κ) : Prop :=
  ∀ b ∈ s.pending, b.owner = sharedEventOwner → s.sharedNow ≤ b.due

lemma Effect.sharedAhead {log : List (Happening κ)} (heffect : Effect s log s') (hgood : Good s)
    (h : SharedAhead s) : SharedAhead s' := by
  intro b hb howner
  rw [heffect.shared]
  rcases ((heffect.run.out_iff hgood.sound).mp hb).1 with hold | hnew
  · exact h b hold howner
  · exact (timeFor_ge_shared s b.owner).trans (heffect.late b hnew)

lemma Turned.sharedAhead (hturn : Turned s a time s') (h : SharedAhead s) : SharedAhead s' := by
  intro b hb howner
  have hold := hturn.fewer hb
  rw [hturn.clock]
  split_ifs with hmoves
  · refine hturn.least b hold ?_
    rcases hmoves with hscope | hscope <;> rw [hscope]
    · trivial
    · exact howner
  · exact h b hold howner

/-- When a round moves the shared clock back: the clock has passed the deadline
of the run, or the run takes all events and one of them lies behind the clock. -/
lemma Turned.forward_iff (hturn : Turned s a time s') (h : SharedAhead s) :
    s.sharedNow ≤ s'.sharedNow ↔ (a.scope.MovesShared → s.sharedNow ≤ a.deadline ∧
      (a.scope = .all → ∀ b ∈ s.pending, s.sharedNow ≤ b.due)) := by
  rw [hturn.clock]
  split
  · rename_i hmoves
    refine ⟨fun hle _ => ⟨hle.trans hturn.within, fun hall b hb => ?_⟩, fun hahead => ?_⟩
    · exact hle.trans (hturn.least b hb (by rw [hall]; trivial))
    · obtain ⟨hdeadline, hpending⟩ := hahead hmoves
      rcases hturn.reached with htime | ⟨b, hb, hwant, htime⟩
      · rwa [htime]
      rw [← htime]
      rcases hmoves with hscope | hscope
      · exact hpending hscope b hb
      · rw [hscope] at hwant
        exact h b hb hwant
  · rename_i hmoves
    exact ⟨fun _ hm => absurd hm hmoves, fun _ => le_rfl⟩

end Impl

namespace Dispatcher

open Impl

/-- The states that runs come to. -/
structure Sound (c : Dispatcher κ) : Prop where
  good : Good c.impl
  ahead : SharedAhead c.impl

lemma sound_start (limit : Nat) : Sound (start limit : Dispatcher κ) :=
  ⟨good_empty limit, fun _ _ _ => Nat.zero_le _⟩

/-- What a move needs to leave the shared clock where it is or move it on: a run
that looks for its next event has a deadline that the clock has not passed, and
if it takes the events of all owners then none of them lies behind the clock. -/
def Ahead (c : Dispatcher κ) : Move κ → Prop
  | .next => ∀ a ∈ c.running.head?, a.scope.MovesShared → c.impl.sharedNow ≤ a.deadline ∧
      (a.scope = .all → ∀ b ∈ c.impl.pending, c.impl.sharedNow ≤ b.due)
  | _ => True

lemma sound_of_effect {c : Dispatcher κ} (h : Sound c) {log : List (Happening κ)} {s : Impl κ}
    (heffect : Effect c.impl log s) (running : List Activation) :
    Sound ⟨s, running⟩ ∧ s.sharedNow = c.impl.sharedNow :=
  ⟨⟨heffect.good, heffect.sharedAhead h.good h.ahead⟩, heffect.shared⟩

lemma openDue_impl (c : Dispatcher κ) (deadline : Nat) : (c.openDue deadline).impl = c.impl := by
  unfold openDue
  split <;> rfl

lemma openOwned_impl (c : Dispatcher κ) (owner deadline : Nat) :
    (c.openOwned owner deadline).impl = c.impl := by
  unfold openOwned
  split <;> rfl

section

variable {c c' : Dispatcher κ} (h : Sound c)
include h

lemma comeBack_spec {failed : Bool}
    (hstep : c.comeBack failed = some c') :
    Sound c' ∧ c'.impl.sharedNow = c.impl.sharedNow := by
  unfold comeBack at hstep
  split at hstep
  · cases hstep
  split at hstep
  · cases hstep
  rename_i previous _
  have hgood : ∀ executed, Good { c.impl with
      activeOwner := previous, executedCallbacks := executed } := fun executed =>
    h.good.clocks c.impl.sharedNow previous executed c.impl.ownerNow
  split at hstep <;> cases hstep
  · exact ⟨⟨hgood _, h.ahead⟩, rfl⟩
  · exact ⟨⟨hgood _, h.ahead⟩, rfl⟩

lemma proceed_spec (hstep : c.proceed = some c') :
    Sound c' ∧ (c.impl.sharedNow ≤ c'.impl.sharedNow ↔ c.Ahead .next) := by
  unfold proceed at hstep
  split at hstep
  · cases hstep
  rename_i a outer hrunning
  split at hstep
  · cases hstep
  obtain ⟨time, hturn⟩ := turn_turned h.good a
  have hsound : ∀ running, Sound ⟨(c.impl.turn a).1, running⟩ := fun _ =>
    ⟨hturn.good, hturn.sharedAhead h.ahead⟩
  have hiff : c.impl.sharedNow ≤ (c.impl.turn a).1.sharedNow ↔ c.Ahead .next := by
    rw [hturn.forward_iff h.ahead, Ahead, hrunning]
    simp
  split at hstep <;> cases hstep <;> rename_i heq <;> rw [heq] at hsound hiff <;>
    exact ⟨hsound _, hiff⟩

/-- Every move leads to a sound state, and it leaves the shared clock in place or
moves it on exactly when nothing is behind. -/
lemma act_spec {m : Move κ} (hstep : c.act m = some c') :
    Sound c' ∧ (c.impl.sharedNow ≤ c'.impl.sharedNow ↔ c.Ahead m) := by
  have hkept : ∀ {m : Move κ}, c.Ahead m → Sound c' ∧ c'.impl.sharedNow = c.impl.sharedNow →
      Sound c' ∧ (c.impl.sharedNow ≤ c'.impl.sharedNow ↔ c.Ahead m) := fun hm hc =>
    ⟨hc.1, iff_of_true hc.2.ge hm⟩
  have hopened : ∀ d : Dispatcher κ, d.impl = c.impl → some d = some c' →
      Sound c' ∧ c'.impl.sharedNow = c.impl.sharedNow := by
    rintro d hd ⟨rfl⟩
    exact ⟨⟨hd ▸ h.good, hd ▸ h.ahead⟩, by rw [hd]⟩
  cases m with
  | next => exact proceed_spec h hstep
  | finish => exact hkept trivial (comeBack_spec h hstep)
  | fail => exact hkept trivial (comeBack_spec h hstep)
  | schedule owner due callback guarded =>
    simp [act] at hstep
    obtain ⟨-, ⟨rfl⟩⟩ := hstep
    exact hkept trivial (sound_of_effect h (scheduleAs_effect h.good owner due callback guarded) _)
  | cancel id =>
    simp [act] at hstep
    obtain ⟨-, ⟨rfl⟩⟩ := hstep
    exact hkept trivial (sound_of_effect h (cancelAs_effect h.good id) _)
  | runDueEvents deadline =>
    simp only [act, Option.ite_none_right_eq_some] at hstep
    exact hkept trivial (hopened _ (openDue_impl c deadline) hstep.2)
  | advanceBy delta =>
    simp only [act, Option.ite_none_right_eq_some] at hstep
    refine hkept trivial (hopened _ ?_ hstep.2)
    split
    · rfl
    · exact openDue_impl c _
  | runOwnedEvents owner deadline =>
    simp only [act, Option.ite_none_right_eq_some] at hstep
    exact hkept trivial (hopened _ (openOwned_impl c owner deadline) hstep.2)

end

lemma clocks_head (c : Dispatcher κ) (moves : List (Move κ)) :
    ∃ rest, c.clocks moves = c.impl.sharedNow :: rest := by
  cases moves with
  | nil => exact ⟨[], rfl⟩
  | cons m moves => exact ⟨_, rfl⟩

lemma clocks_forward_iff {c : Dispatcher κ} (h : Sound c) (moves : List (Move κ)) :
    (c.clocks moves).IsChain (· ≤ ·) ↔ c.Along Ahead moves := by
  induction moves generalizing c with
  | nil => simp [clocks, Along]
  | cons m moves ih =>
    unfold clocks Along
    cases hstep : c.act m with
    | none => simp
    | some c' =>
      obtain ⟨hsound, hiff⟩ := act_spec h hstep
      obtain ⟨rest, hrest⟩ := clocks_head c' moves
      have hnext := ih hsound
      dsimp only
      rw [hrest] at hnext ⊢
      rw [List.isChain_cons_cons, hnext, hiff]
      simp

/-- The shared clock never goes back in a run of moves, user code and callbacks
together, exactly when every round of a run over all or over shared events
starts with the clock at or before the deadline of that run, and every round of
a run over all events also with no event behind the clock. -/
theorem the_shared_clock_goes_on_while_nothing_is_behind (limit : Nat) (moves : List (Move κ)) :
    ((start limit : Dispatcher κ).clocks moves).Pairwise (· ≤ ·) ↔
      (start limit : Dispatcher κ).Along Ahead moves := by
  rw [← List.isChain_iff_pairwise]
  exact clocks_forward_iff (sound_start limit) moves

/-- An event of owner 0 at time 50 is left behind by a run over shared events up
to 100. The next run over all events takes the clock back to it. -/
theorem an_event_left_behind_takes_the_shared_clock_back :
    let moves : List (Move Unit) := [.schedule 0 50 () false, .runSharedEvents 100, .next,
      .runDueEvents 150, .next]
    (start 4 : Dispatcher Unit).clocks moves = [0, 0, 0, 100, 100, 50] ∧
      ¬((start 4 : Dispatcher Unit).clocks moves).Pairwise (· ≤ ·) := by
  decide

/-- A callback that runs all events up to 200 inside a run up to 100 has the clock
taken back when the outer run ends. -/
example : (start 4 : Dispatcher Unit).clocks [.schedule 0 50 () false, .runDueEvents 100, .next,
    .runDueEvents 200, .next, .finish, .next] = [0, 0, 0, 50, 50, 200, 200, 100] := by
  decide

/-! ## Callbacks that start no run -/

/-- A move of a run or of a callback that starts no run of its own. -/
def Works (c c' : Dispatcher κ) : Prop := ∃ m : Move κ, m.startsNoRun = true ∧ c.act m = some c'

lemma perform_works (program : Program σ κ) {s : Impl κ} {running : List Activation}
    (huser : (⟨s, running⟩ : Dispatcher κ).userCode = true) :
    ReflTransGen Works ⟨s, running⟩ ⟨(s.perform program).2.1, running⟩ := by
  induction program generalizing s with
  | done state => exact .refl
  | schedule owner due callback guarded next ih =>
    exact .head ⟨.schedule owner due callback guarded, rfl, if_pos huser⟩ (ih _ huser)
  | cancel id next ih => exact .head ⟨.cancel id, rfl, if_pos huser⟩ (ih _ huser)
  | now owner next ih => exact ih _ huser

/-- A run whose callbacks are programs is made of such moves, whatever runs are open around
it. The induction is on the rounds. -/
lemma runLoop_works (behave : κ → σ → Program σ κ) (fuel : Nat) {a : Activation}
    (hinside : a.inside = none) {result result' : EventRunResult} {state state' : σ}
    {s s' : Impl κ} {done log : List (Happening κ)}
    (hrun : Impl.runLoop behave a.scope a.deadline fuel a.countedTime a.eventsAtTime result state s
      done = some (result', state', s', log)) (outer : List Activation) :
    ReflTransGen Works ⟨s, a :: outer⟩ ⟨s', outer⟩ := by
  induction fuel generalizing a result state s done with
  | zero => cases hrun
  | succ fuel ih =>
    have hnext : (⟨s, a :: outer⟩ : Dispatcher κ).act .next = match s.turn a with
        | (impl, none) => some ⟨impl, outer⟩
        | (impl, some a) => some ⟨impl, a :: outer⟩ := by
      simp [act, proceed, hinside]
    rw [runLoop_succ] at hrun
    unfold Impl.turn at hnext
    dsimp only at hrun hnext
    split at hrun
    · rename_i hq
      rw [hq] at hnext
      cases hrun
      exact .single ⟨.next, rfl, hnext⟩
    rename_i entry rest hq
    rw [hq] at hnext
    dsimp only at hnext
    split_ifs at hrun hnext with hlate hfull
    · cases hrun
      exact .single ⟨.next, rfl, hnext⟩
    · cases hrun
      exact .single ⟨.next, rfl, hnext⟩
    unfold takeEvent at hnext
    unfold invoke at hrun
    dsimp only at hrun hnext
    split at hrun
    · -- the slot is gone: the round does nothing more
      rename_i hslot
      rw [hslot] at hnext
      exact .head ⟨.next, rfl, hnext⟩ (ih (a := { a with
        countedTime := entry.due, eventsAtTime := countAt a entry.due + 1 }) hinside hrun)
    · rename_i slot hslot
      rw [hslot] at hnext
      refine .head ⟨.next, rfl, hnext⟩ (.trans (perform_works (behave slot.callback state) rfl)
        (.head ⟨.finish, rfl, rfl⟩ ?_))
      have hactive : (((s.setQueue a.scope (discardDeadFront s.slots (s.queue a.scope))).setQueue
          a.scope rest).reachEvent a.scope entry.due).activeOwner =
          (s.setQueue a.scope (discardDeadFront s.slots (s.queue a.scope))).activeOwner := by
        cases a.scope <;> rfl
      rw [hactive] at hrun
      exact ih (a := { a with
        countedTime := entry.due, eventsAtTime := countAt a entry.due + 1, inside := none })
        rfl hrun

/-- However callbacks that start no run go on scheduling at the current time, a run ends,
with no more callbacks at a time than the limit, and leaves what it has not run. It is a
run of the loop that callbacks could also have called. -/
theorem zero_delay_storms_are_cut (behave : κ → σ → Program σ κ) {s : Impl κ} (h : Good s)
    (state : σ) (deadline : Nat) :
    (s.laneDomain = false → s.sharedNow ≤ deadline → ∃ result state' s' log,
      s.runDueEvents behave deadline state = some (result, state', s', log) ∧
        StormCut .all deadline s log result s' ∧
        ∀ outer, ReflTransGen Works ⟨s, { scope := .all, deadline } :: outer⟩ ⟨s', outer⟩) ∧
    ∀ owner, (s.laneDomain = true → owner = s.laneOwner) → s.timeFor owner ≤ deadline →
      ∃ result state' s' log,
        s.runOwnedEvents behave owner deadline state = some (result, state', s', log) ∧
          StormCut (.owner owner) deadline s log result s' ∧
          ∀ outer, ReflTransGen Works ⟨s, { scope := .owner owner, deadline } :: outer⟩
            ⟨s', outer⟩ := by
  constructor
  · intro hroot hle
    obtain ⟨result, state', s', log, heq, hf, hcut⟩ := runDueEvents_spec behave h hroot hle state
    refine ⟨result, state', s', log, heq, hf.stormCut h hcut, ?_⟩
    rw [runDueEvents, hroot, if_neg Bool.false_ne_true, if_neg hle.not_gt] at heq
    exact runLoop_works behave _ (a := { scope := .all, deadline }) rfl heq
  · intro owner hlane hle
    obtain ⟨result, state', s', log, heq, hf, hcut⟩ := runOwnedEvents_spec behave h hlane hle state
    refine ⟨result, state', s', log, heq, hf.stormCut h hcut, ?_⟩
    rw [runOwnedEvents, if_neg (by simpa using hlane), if_neg hle.not_gt] at heq
    exact runLoop_works behave _ (a := { scope := .owner owner, deadline }) rfl heq

/-- A callback that schedules itself for the time it runs at. -/
def stormBehave (_ : Unit) (_ : Unit) : Program Unit Unit :=
  .now 0 fun time => .schedule 0 (time.getD 0) () false fun _ => .done ()

theorem a_storm_is_cut_at_three :
    let s := (Impl.history stormBehave { maximumSameTimeEvents := 3 } [.schedule 0 10 () false]).1
    ∃ result state' s' log, s.runDueEvents stormBehave 30 () = some (result, state', s', log) ∧
      result.sameTimeLimitHit = true ∧ callbacksAt log 10 = 3 ∧ ∃ a ∈ s'.pending, a.due = 10 := by
  intro s
  have hgood := (history_kept stormBehave (good_empty 3) [.schedule 0 10 () false]).good
  obtain ⟨result, state', s', log, heq, hcut, -⟩ :=
    (zero_delay_storms_are_cut stormBehave hgood () 30).1 (by decide) (by decide)
  have hres : (s.runDueEvents stormBehave 30 ()).map
      (fun r => (r.1.sameTimeLimitHit, r.1.stoppedAt)) = some (true, 10) := by
    decide
  rw [heq] at hres
  obtain ⟨hhit, hstopped⟩ : result.sameTimeLimitHit = true ∧ result.stoppedAt = 10 := by
    simpa using hres
  obtain ⟨hcount, a, ha, -, hdue⟩ := hcut.hit hhit
  rw [hstopped] at hcount hdue
  exact ⟨result, state', s', log, heq, hhit, hcount, a, ha, hdue⟩

/-- Under a limit of one, a callback schedules an event for the time it runs at and runs it
itself: the inner run counts anew, and two callbacks have run at time 10. -/
theorem a_run_inside_a_callback_counts_anew :
    let moves : List (Move Unit) := [.schedule 0 10 () false, .runDueEvents 10, .next,
      .schedule 0 10 () false, .runDueEvents 10, .next, .finish, .next, .finish, .next]
    (moves.foldlM act (start 1)).map (fun c => (c.impl.executedCallbacks, c.impl.sharedNow,
      c.impl.maximumSameTimeEvents, c.running)) = some (2, 10, 1, []) := by
  decide

end Dispatcher

end Fil.Sim
