-- What the functions of the CAN bus are made of. Every move of user code or of
-- the loop is a row of small steps, and between two steps the function at work
-- has something in hand: a frame that it delivers, or the duty to schedule the
-- next arbitration. All laws of the bus are proved of these steps.
import Fil.CanBus
import Mathlib.Logic.Relation

open Fil.Sim Fil.Sim.Impl

namespace Fil.Devices

/-! ## Steps -/

/-- What the bus function at work has in hand. -/
inductive Hand
  | free
  | owing
  | arrived (t : Transmission)
  | delivering (t : Transmission) (nodes : List Nat)

/-- What a function that waits has in hand when its user code comes back. -/
def Waiting.hand : Waiting → Hand
  | .rejected => .free
  | .startOfFrame => .free
  | .failing => .owing
  | .completing => .owing
  | .barrier t _ => .arrived t
  | .tracing t _ node rest => .delivering t (node.id :: rest.map Node.id)
  | .receiving t _ rest => .delivering t (rest.map Node.id)

def busEvents (s : Impl Callback) : Set (Slot Callback) :=
  {slot ∈ s.pending | slot.callback ≠ .other}

structure Taken (s : Impl Callback) (slot : Slot Callback) (s' : Impl Callback) : Prop where
  good : Good s'
  waited : slot ∈ busEvents s
  rest : busEvents s' = {b ∈ busEvents s | b.id ≠ slot.id}

namespace CanSystem

/-- A frame that is cancelled now has begun before. -/
def BeganBefore (c : CanSystem) (time : Nat) : Prop := ∀ w ∈ c.wire.head?, w.1 ≤ time

/-- One small step, with what is in hand before and after it. With `timely`, a
frame on the wire is only cancelled at a clock that has reached its start. -/
inductive Step (timely : Prop) : Hand × CanSystem → Hand × CanSystem → Prop
  | loop {h : Hand} {c : CanSystem} {loop : Dispatcher Callback} (good : Good loop.impl)
      (same : busEvents loop.impl = busEvents c.loop.impl) : Step timely (h, c) (h, { c with loop })
  | nodes {h : Hand} {c : CanSystem} (nodes : List Node) (nextNodeId : Nat) :
      Step timely (h, c) (h, { c with bus := { c.bus with nodes, nextNodeId } })
  | count {h : Hand} {c : CanSystem} :
      Step timely (h, c) (h, { c with bus := { c.bus with
        nextSequence := c.bus.nextSequence + 1 } })
  | park {c : CanSystem} (what : Waiting) (depth : Nat) :
      Step timely (what.hand, c) (.free, { c with calls := (what, depth) :: c.calls })
  | unpark {c : CanSystem} {what : Waiting} {depth : Nat} {calls : List (Waiting × Nat)}
      (waits : c.calls = (what, depth) :: calls) :
      Step timely (.free, c) (what.hand, { c with calls })
  | owe {c : CanSystem} : Step timely (.free, c) (.owing, c)
  | settle {c : CanSystem} (done : c.bus.timedState ≠ .idle ∨ c.bus.pending = []) :
      Step timely (.owing, c) (.free, c)
  | drop {c : CanSystem} (sender : Nat) : Step timely (.owing, c) (.owing, c.dropPending sender)
  | enqueue {c : CanSystem} {t : Transmission} (fresh : t.sequence = c.bus.nextTransmissionSequence)
      (room : c.bus.queuedTransmissions < c.bus.queueCapacity)
      (classic : ∃ bits, classicCanStuffedFrameBits t.frame = .ok bits) (rate : c.bus.bitrate ≠ 0) :
      Step timely (.owing, c) (.owing, c.enqueue t)
  | disarm {c : CanSystem} (armed : c.bus.timedState = .arbitrating) :
      Step timely (.owing, c) (.owing, c.disarm)
  | abort {c : CanSystem} {t : Transmission} {sender : Nat} (flies : c.bus.timedState = .inFlight)
      (carried : c.bus.inFlight = some t) (sent : t.sender = some sender)
      (began : timely → c.BeganBefore c.now) :
      Step timely (.owing, c) (.owing, c.abortInFlight t sender)
  | arm {c c' : CanSystem} {due : Nat} (idle : c.bus.timedState = .idle)
      (armed : c.arm due .arbitration .arbitrating = some c') : Step timely (.owing, c) (.free, c')
  | arbitration {c : CanSystem} {loop : Dispatcher Callback} {slot : Slot Callback}
      (taken : Taken c.loop.impl slot loop.impl) (callback : slot.callback = .arbitration) :
      Step timely (.free, c) (.owing, { c with
        loop, bus := { c.bus with timedEventId := 0, timedState := .idle } })
  | fail {c : CanSystem} {t : Transmission} {start : Nat} (waits : t ∈ c.bus.pending)
      (late : c.bus.wireTimes t.frame start = none) :
      Step timely (.owing, c) (.owing, (c.unqueue t).note
        (.fail t.sequence start c.bus.fractionalNumerator t.completion))
  | start {c c' : CanSystem} {t : Transmission} {start : Nat} {times : WireTimes}
      (waits : t ∈ c.bus.pending) (idle : c.bus.timedState = .idle)
      (gap : c.bus.nextStartNs ≤ start)
      (armed : ((c.unqueue t).carry t start times).arm (start + times.duration) .completion
        .inFlight = some c') :
      Step timely (.owing, c) (.free, c')
  | completion {c : CanSystem} {loop : Dispatcher Callback} {slot : Slot Callback}
      {t : Transmission} (taken : Taken c.loop.impl slot loop.impl)
      (callback : slot.callback = .completion) (carried : c.bus.inFlight = some t) :
      Step timely (.free, c) (.arrived t, { c with
        loop, bus := { c.bus with timedEventId := 0, inFlight := none, timedState := .idle } })
  | stray {c : CanSystem} {loop : Dispatcher Callback} {slot : Slot Callback}
      (taken : Taken c.loop.impl slot loop.impl) (callback : slot.callback = .completion)
      (carried : c.bus.inFlight = none) :
      Step timely (.free, c) (.free, { c with loop, bus := { c.bus with timedEventId := 0 } })
  | delivery {c : CanSystem} {t : Transmission} :
      Step timely (.arrived t, c) (.delivering t ((receivers c.bus.nodes t.sender).map Node.id),
        c.note (.delivery t.sequence c.bus.nodes))
  | turn {c : CanSystem} {t : Transmission} {node : Nat} {rest : List Nat} {received : Bool}
      (told : received = decide (node ∈ c.bus.attached)) :
      Step timely (.delivering t (node :: rest), c) (.delivering t rest,
        c.note (.turn t.sequence node c.bus.attached received))
  | finish {c : CanSystem} {t : Transmission} :
      Step timely (.delivering t [], c) (.owing,
        c.note (.finish t.sequence c.bus.attached (c.completes t)))

def Steps (timely : Prop) : Hand × CanSystem → Hand × CanSystem → Prop :=
  Relation.ReflTransGen (Step timely)

variable {timely : Prop} {h h' : Hand} {c c' : CanSystem}

lemma Steps.refl : Steps timely (h, c) (h, c) := Relation.ReflTransGen.refl

instance : Trans (Steps timely) (Steps timely) (Steps timely) := ⟨Relation.ReflTransGen.trans⟩

lemma Steps.trans {h₁ : Hand} {c₁ : CanSystem} (hfirst : Steps timely (h, c) (h₁, c₁))
    (hrest : Steps timely (h₁, c₁) (h', c')) : Steps timely (h, c) (h', c') :=
  Relation.ReflTransGen.trans hfirst hrest

lemma Steps.one (hstep : Step timely (h, c) (h', c')) : Steps timely (h, c) (h', c') :=
  Relation.ReflTransGen.single hstep

/-! ## The event of the bus -/

lemma arm_spec (hgood : Good c.loop.impl) {due : Nat} {callback : Callback} {state : TimedState}
    (harm : c.arm due callback state = some c') :
    ∃ impl slot, c' = { c with
        loop := { c.loop with impl }
        bus := { c.bus with timedEventId := slot.id, timedState := state } } ∧
      Good impl ∧ slot.callback = callback ∧ impl.pending = insert slot c.loop.impl.pending := by
  unfold arm at harm
  split at harm
  · cases harm
  rename_i id impl log heq
  cases harm
  obtain ⟨slot, rfl, hcallback, -, hpending, -⟩ := scheduleAs_pending hgood heq
  have hgood' := (scheduleAs_effect hgood sharedEventOwner due callback false).good
  rw [heq] at hgood'
  exact ⟨impl, slot, rfl, hgood', hcallback, hpending⟩

lemma disarm_spec (hgood : Good c.loop.impl) :
    Good c.disarm.loop.impl ∧ c.disarm.loop.impl.pending =
      {b ∈ c.loop.impl.pending | b.id ≠ c.bus.timedEventId} :=
  ⟨(cancelAs_effect hgood _).good, cancelAs_pending hgood _⟩

lemma Step.good (hstep : Step timely (h, c) (h', c')) (hgood : Good c.loop.impl) :
    Good c'.loop.impl := by
  cases hstep with
  | loop good => exact good
  | disarm => exact (disarm_spec hgood).1
  | abort => exact (disarm_spec hgood).1
  | arm idle armed =>
    obtain ⟨impl, slot, rfl, himpl, -⟩ := arm_spec hgood armed
    exact himpl
  | start waits idle gap armed =>
    obtain ⟨impl, slot, rfl, himpl, -⟩ := arm_spec (by exact hgood) armed
    exact himpl
  | arbitration taken => exact taken.good
  | completion taken => exact taken.good
  | stray taken => exact taken.good
  | _ => exact hgood

lemma Steps.good (hsteps : Steps timely (h, c) (h', c')) (hgood : Good c.loop.impl) :
    Good c'.loop.impl := by
  generalize hx : (h, c) = x at hsteps
  generalize hy : (h', c') = y at hsteps
  induction hsteps generalizing h' c' with
  | refl => cases hx.trans hy.symm; exact hgood
  | tail _ hstep ih =>
    subst hy
    exact hstep.good (ih rfl)

/-! ## The functions of the bus as rows of steps -/

lemma scheduleArbitration_steps (hfun : c.scheduleArbitration = some c') :
    Steps timely (.owing, c) (.free, c') := by
  unfold scheduleArbitration at hfun
  split_ifs at hfun with hstate hpending
  · cases hfun
    exact .one (.settle (.inl hstate))
  · cases hfun
    exact .one (.settle (.inr hpending))
  · exact .one (.arm (not_not.mp hstate) hfun)

lemma busEvents_comeBack {loop loop' : Dispatcher Callback} {failed : Bool}
    (hgood : Good loop.impl) (hback : loop.comeBack failed = some loop') :
    Good loop'.impl ∧ busEvents loop'.impl = busEvents loop.impl := by
  unfold Dispatcher.comeBack at hback
  split at hback
  · cases hback
  split at hback
  · cases hback
  rename_i previous _
  have hclocks : ∀ executed, Good { loop.impl with
      activeOwner := previous, executedCallbacks := executed } := fun executed =>
    hgood.clocks loop.impl.sharedNow previous executed loop.impl.ownerNow
  split at hback <;> cases hback <;> exact ⟨hclocks _, rfl⟩

lemma endEvent_steps (hgood : Good c.loop.impl) : Steps timely (h, c) (h, c.endEvent) := by
  unfold endEvent
  cases hback : c.loop.comeBack false with
  | none => exact .refl
  | some loop =>
    obtain ⟨hgood', hsame⟩ := busEvents_comeBack hgood hback
    exact .one (.loop hgood' hsame)

lemma finishEvent_steps (hgood : Good c.loop.impl) (hfun : c.finishEvent = some c') :
    Steps timely (.owing, c) (.free, c') := by
  obtain ⟨c₁, hschedule, rfl⟩ := Option.map_eq_some_iff.mp hfun
  have hfirst : Steps timely (.owing, c) (.free, c₁) := scheduleArbitration_steps hschedule
  exact hfirst.trans (endEvent_steps (hfirst.good hgood))

section

variable {sender : Nat}
  (hbegan : timely → ∀ t ∈ c.bus.inFlight, t.sender = some sender → c.BeganBefore c.now)
include hbegan

lemma withdraw_steps :
    Steps timely (.owing, c) (.owing, c.withdraw sender) := by
  unfold withdraw
  cases hstate : c.bus.timedState with
  | idle => exact .refl
  | arbitrating => exact .one (.disarm hstate)
  | inFlight =>
    cases hflight : c.bus.inFlight with
    | none => exact .refl
    | some t =>
      dsimp only
      split_ifs with hsender
      · exact .one (.abort hstate hflight hsender fun ht => hbegan ht t hflight hsender)
      · exact .refl

lemma cancelSender_steps (hfun : c.cancelSender sender = some c') :
    Steps timely (.free, c) (.free, c') :=
  calc Steps timely (.free, c) (.owing, c) := .one .owe
    Steps timely _ (.owing, c.dropPending sender) := .one (.drop sender)
    Steps timely _ (.owing, (c.dropPending sender).withdraw sender) := withdraw_steps hbegan
    Steps timely _ (.free, c') := scheduleArbitration_steps hfun

end

lemma detach_steps {id : Nat}
    (hbegan : timely → ∀ t ∈ c.bus.inFlight, t.sender = some id → c.BeganBefore c.now)
    (hfun : c.detach id = some c') :
    Steps timely (.free, c) (.free, c') := by
  obtain ⟨c₁, hcancel, rfl⟩ := Option.map_eq_some_iff.mp hfun
  exact (cancelSender_steps hbegan hcancel).trans (.one (.nodes _ _))

lemma attach_steps (name : String) (loopback callback : Bool) :
    Steps timely (.free, c) (.free, (c.attach name loopback callback).2) := by
  unfold attach
  split_ifs
  · exact .refl
  · exact .refl
  · exact .refl
  · exact .one (.nodes _ _)

open Steps

lemma trace_steps (what : Waiting) : Steps timely (what.hand, c) (.free, c.trace what) :=
  (one .count).trans (.one (.park what _))

variable {t : Transmission}

lemma submit_steps {result : Except CanError Unit}
    (hvalid : validate t.frame = .ok ()) (hfun : c.submit t = some (result, c')) :
    Steps timely (.free, c) (.free, c') := by
  unfold submit at hfun
  split_ifs at hfun with hrate hfd hroom
  · cases hfun
    exact trace_steps .rejected
  · cases hfun
    exact trace_steps .rejected
  · cases hfun
    exact trace_steps .rejected
  obtain ⟨c₁, hschedule, hc⟩ := Option.map_eq_some_iff.mp hfun
  cases hc
  have hfree : c.bus.queuedTransmissions < c.bus.queueCapacity := by
    simp at hroom
    exact hroom.2
  have henqueue : Steps timely (.free, c)
      (.owing, c.enqueue { t with sequence := c.bus.nextTransmissionSequence }) :=
    (one .owe).trans (.one (.enqueue rfl hfree
      (stuffedFrameBits_of_valid hvalid (by simpa using hfd)) hrate))
  refine henqueue.trans (.trans ?_ (scheduleArbitration_steps hschedule))
  split_ifs with harmed
  · exact .one (.disarm harmed)
  · exact .refl

lemma send_steps {sender : Nat} {frame : CanFrame} {time : BitVec 64} {completion : Bool}
    (hfun : (c.send sender frame time completion).map Prod.snd = some c') :
    Steps timely (.free, c) (.free, c') := by
  obtain ⟨⟨result, c₁⟩, hsend, rfl⟩ := Option.map_eq_some_iff.mp hfun
  unfold send at hsend
  split at hsend
  · cases hsend
    exact .refl
  rename_i hvalid
  split at hsend
  · cases hsend
    exact .refl
  · exact submit_steps hvalid hsend

lemma inject_steps {frame : CanFrame} {time : BitVec 64} {completion : Bool}
    (hfun : (c.inject frame time completion).map Prod.snd = some c') :
    Steps timely (.free, c) (.free, c') := by
  obtain ⟨⟨result, c₁⟩, hinject, rfl⟩ := Option.map_eq_some_iff.mp hfun
  unfold inject at hinject
  split at hinject
  · cases hinject
    exact .refl
  · rename_i hvalid
    exact submit_steps hvalid hinject

lemma senderHeads_subset (pending : List Transmission) : senderHeads pending ⊆ pending := by
  induction pending with
  | nil => exact List.Subset.refl _
  | cons t ts ih =>
    intro x hx
    rcases List.mem_cons.mp hx with rfl | hx
    · exact List.mem_cons_self
    · exact List.mem_cons_of_mem t (ih (List.mem_of_mem_filter hx))

lemma winner_mem {pending : List Transmission} {start : Nat}
    (hwinner : winner pending start = some t) : t ∈ pending := by
  refine List.foldlRecOn (motive := fun best : Option Transmission => ∀ b ∈ best, b ∈ pending) _ _
    (fun _ hb => absurd hb (by simp)) (fun best hbest x hx b hb => ?_) t hwinner
  have hx : x ∈ pending := senderHeads_subset _ (List.mem_of_mem_filter hx)
  cases best with
  | none => cases hb; exact hx
  | some b' =>
    dsimp only at hb
    split_ifs at hb <;> cases hb
    · exact hx
    · exact hbest _ rfl

lemma failTransmission_steps {start : Nat} (hgood : Good c.loop.impl)
    (hwaits : t ∈ c.bus.pending) (hlate : c.bus.wireTimes t.frame start = none)
    (hfun : (c.unqueue t).failTransmission t start = some c') :
    Steps timely (.owing, c) (.free, c') := by
  refine (one (.fail hwaits hlate)).trans ?_
  unfold failTransmission at hfun
  split_ifs at hfun
  · cases hfun
    exact .one (.park .failing _)
  · exact finishEvent_steps (by exact hgood) hfun

lemma startTransmission_steps {start : Nat} {times : WireTimes}
    (hwaits : t ∈ c.bus.pending) (hidle : c.bus.timedState = .idle)
    (hgap : c.bus.nextStartNs ≤ start)
    (hfun : (c.unqueue t).startTransmission t start times = some c') :
    Steps timely (.owing, c) (.free, c') := by
  obtain ⟨c₁, harm, rfl⟩ := Option.map_eq_some_iff.mp hfun
  exact (one (.start hwaits hidle hgap harm)).trans (trace_steps .startOfFrame)

section

variable (hgood : Good c.loop.impl)
include hgood

lemma arbitrate_steps (hidle : c.bus.timedState = .idle)
    (hfun : c.arbitrate = some c') : Steps timely (.owing, c) (.free, c') := by
  unfold arbitrate at hfun
  split_ifs at hfun with hstate hpending
  · rw [hidle] at hstate
    cases hstate
  · cases hfun
    exact (one (.settle (.inr hpending))).trans (endEvent_steps hgood)
  dsimp only at hfun
  split at hfun
  · exact finishEvent_steps hgood hfun
  rename_i t hwinner
  split at hfun
  · rename_i hlate
    exact failTransmission_steps hgood (winner_mem hwinner) hlate hfun
  · exact startTransmission_steps (winner_mem hwinner) hidle (le_max_left _ _) hfun

lemma deliver_steps {time : Nat} {nodes : List Node}
    (hfun : c.deliver t time nodes = some c') :
    Steps timely (.delivering t (nodes.map Node.id), c) (.free, c') := by
  induction nodes generalizing c with
  | nil =>
    refine (one .finish).trans ?_
    unfold deliver at hfun
    dsimp only at hfun
    split_ifs at hfun
    · cases hfun
      exact .one (.park .completing _)
    · exact finishEvent_steps (by exact hgood) hfun
  | cons node rest ih =>
    unfold deliver at hfun
    split_ifs at hfun with hattached
    · cases hfun
      exact trace_steps (.tracing t time node rest)
    · refine (one (.turn ?_)).trans (ih (by exact hgood) hfun)
      rw [decide_eq_false hattached]

lemma resume_steps {what : Waiting} (hfun : c.resume what = some c') :
    Steps timely (what.hand, c) (.free, c') := by
  cases what with
  | rejected => cases hfun; exact .refl
  | startOfFrame => cases hfun; exact endEvent_steps hgood
  | failing => exact finishEvent_steps hgood hfun
  | completing => exact finishEvent_steps hgood hfun
  | barrier t time => exact (one .delivery).trans (deliver_steps (by exact hgood) hfun)
  | receiving t time rest => exact deliver_steps hgood hfun
  | tracing t time node rest =>
    unfold resume at hfun
    dsimp only at hfun
    split_ifs at hfun with hattached
    · cases hfun
      exact (one (.turn (decide_eq_true hattached).symm)).trans
        (.one (.park (.receiving t time rest) _))
    · refine (one (.turn ?_)).trans (deliver_steps (by exact hgood) hfun)
      rw [decide_eq_false hattached]

lemma comeBack_steps (hfun : c.comeBack = some c') : Steps timely (.free, c) (.free, c') := by
  unfold comeBack at hfun
  split at hfun
  · cases hfun
  · rename_i what depth calls hcalls
    split_ifs at hfun
    exact (one (.unpark hcalls)).trans (resume_steps (by exact hgood) hfun)

end

/-! ## The moves of the loop -/

lemma taken_of_turn {s s' : Impl Callback} (hgood : Good s) {a a' : Activation}
    (hturn : s.turn a = (s', some a')) :
    ∃ slot, s.frontSlot a = some slot ∧
      ((slot.callback = .other ∧ Good s' ∧ busEvents s' = busEvents s) ∨
        (slot.callback ≠ .other ∧ Taken s slot s')) := by
  obtain ⟨slot, hfront, hwaits, hgood', hpending, -⟩ := turn_some hgood hturn
  refine ⟨slot, hfront, ?_⟩
  have hrest : busEvents s' = {b ∈ busEvents s | b.id ≠ slot.id} := by
    unfold busEvents
    rw [hpending]
    ext b
    simp
    tauto
  by_cases hother : slot.callback = .other
  · refine .inl ⟨hother, hgood', hrest.trans (Set.sep_eq_self_iff_mem_true.mpr ?_)⟩
    intro b hb hid
    rw [hgood.sound.one b hb.1 slot hwaits hid] at hb
    exact hb.2 hother
  · exact .inr ⟨hother, hgood', ⟨hwaits, hother⟩, hrest⟩

lemma nextRound_steps (hgood : Good c.loop.impl) (hfun : c.nextRound = some c') :
    Steps timely (.free, c) (.free, c') := by
  unfold nextRound at hfun
  split at hfun
  · cases hfun
  rename_i a outer _
  split_ifs at hfun
  split at hfun
  · rename_i impl hturn
    cases hfun
    obtain ⟨hgood', hpending, -⟩ := turn_none hgood hturn
    exact .one (.loop hgood' (by unfold busEvents; rw [hpending]))
  rename_i impl a' hturn
  obtain ⟨slot, hfront, ⟨hother, hgood', hsame⟩ | ⟨hbus, htaken⟩⟩ := taken_of_turn hgood hturn
  · rw [hfront, Option.map_some, hother] at hfun
    cases hfun
    exact .one (.loop hgood' hsame)
  · rw [hfront, Option.map_some] at hfun
    cases hcallback : slot.callback with
    | other => exact absurd hcallback hbus
    | arbitration =>
      rw [hcallback] at hfun
      have hevent := @Step.arbitration timely c ⟨impl, a' :: outer⟩ slot htaken hcallback
      exact (one hevent).trans (arbitrate_steps (by exact htaken.good) rfl hfun)
    | completion =>
      rw [hcallback] at hfun
      unfold completionEvent at hfun
      dsimp only at hfun
      split at hfun
      · rename_i hnone
        cases hfun
        have hevent := @Step.stray timely c ⟨impl, a' :: outer⟩ slot htaken hcallback hnone
        exact (one hevent).trans (endEvent_steps (by exact htaken.good))
      rename_i t hcarried
      cases hfun
      have hevent := @Step.completion timely c ⟨impl, a' :: outer⟩ slot t htaken hcallback hcarried
      exact (one hevent).trans (.one (.park (.barrier t _) _))

lemma busEvents_cancel {id : Nat} (hgood : Good c.loop.impl) (hforeign : c.foreign id = true) :
    busEvents (c.loop.impl.cancelAs id).2.1 = busEvents c.loop.impl := by
  unfold busEvents
  rw [cancelAs_pending hgood]
  ext b
  simp
  rintro hbus ⟨i, hget, hqueued⟩ rfl
  have hall := List.all_eq_true.mp hforeign b (List.mem_of_getElem? hget)
  simp [hqueued, hbus] at hall

lemma busEvents_schedule {s : Impl Callback} (hgood : Good s) (owner due : Nat)
    (guarded : Bool) : busEvents (s.scheduleAs owner due .other guarded).2.1 = busEvents s := by
  rcases heq : s.scheduleAs owner due .other guarded with ⟨_ | id, s', log⟩
  · unfold scheduleAs at heq
    split at heq
    · cases heq
      rfl
    · cases heq
  · obtain ⟨slot, -, hother, -, hpending, -⟩ := scheduleAs_pending hgood heq
    unfold busEvents
    ext b
    simp [hpending]
    rintro hbus rfl
    exact absurd hother hbus

lemma loopMove_steps {m : Move Unit} (hgood : Good c.loop.impl)
    (hfun : c.loopMove m = some c') : Steps timely (.free, c) (.free, c') := by
  have hopen : ∀ loop : Dispatcher Callback, loop.impl = c.loop.impl →
      Steps timely (.free, c) (.free, { c with loop }) := fun loop himpl =>
    .one (.loop (himpl ▸ hgood) (by rw [himpl]))
  have hback : ∀ {failed : Bool} {loop}, c.loop.comeBack failed = some loop →
      Steps timely (.free, c) (.free, { c with loop }) := by
    intro failed loop hloop
    obtain ⟨hgood', hsame⟩ := busEvents_comeBack hgood hloop
    exact .one (.loop hgood' hsame)
  cases m <;> simp [loopMove, Dispatcher.act] at hfun
  case next => exact nextRound_steps hgood hfun
  case finish | fail =>
    obtain ⟨-, loop, hloop, rfl⟩ := hfun
    exact hback hloop
  case schedule owner due callback guarded =>
    obtain ⟨loop, ⟨-, ⟨rfl⟩⟩, rfl⟩ := hfun
    exact .one (.loop (scheduleAs_effect hgood owner due .other guarded).good
      (busEvents_schedule hgood owner due guarded))
  case cancel id =>
    obtain ⟨hforeign, loop, ⟨-, ⟨rfl⟩⟩, rfl⟩ := hfun
    exact .one (.loop (cancelAs_effect hgood id).good (busEvents_cancel hgood hforeign))
  case runDueEvents deadline =>
    obtain ⟨loop, ⟨-, ⟨rfl⟩⟩, rfl⟩ := hfun
    exact hopen _ (Dispatcher.openDue_impl c.loop deadline)
  case advanceBy delta =>
    obtain ⟨loop, ⟨-, ⟨rfl⟩⟩, rfl⟩ := hfun
    refine hopen _ ?_
    split
    · rfl
    · exact Dispatcher.openDue_impl c.loop _
  case runOwnedEvents owner deadline =>
    obtain ⟨loop, ⟨-, ⟨rfl⟩⟩, rfl⟩ := hfun
    exact hopen _ (Dispatcher.openOwned_impl c.loop owner deadline)

/-! ## Runs -/

/-- A move that cancels the frame on the wire comes at a clock that has reached
the start of the frame. -/
def InTime (c : CanSystem) : CanMove → Prop
  | .detach owner sender | .cancelSender owner sender =>
    ∀ t ∈ c.bus.inFlight, t.sender = some sender → c.BeganBefore (c.loop.impl.timeFor owner)
  | _ => True

instance (c : CanSystem) (time : Nat) : Decidable (c.BeganBefore time) :=
  inferInstanceAs (Decidable (∀ w ∈ c.wire.head?, w.1 ≤ time))

instance (c : CanSystem) : (m : CanMove) → Decidable (c.InTime m)
  | .detach owner sender | .cancelSender owner sender =>
    inferInstanceAs (Decidable (∀ t ∈ c.bus.inFlight, t.sender = some sender →
      c.BeganBefore (c.loop.impl.timeFor owner)))
  | .attach .. | .send .. | .inject .. | .loop .. | .back => inferInstanceAs (Decidable True)

section

variable (hgood : Good c.loop.impl)
include hgood

lemma good_useOwner (owner : Nat) : Good (c.useOwner owner).loop.impl :=
  hgood.clocks c.loop.impl.sharedNow owner c.loop.impl.executedCallbacks c.loop.impl.ownerNow

lemma useOwner_steps (owner : Nat) : Steps timely (h, c) (h, c.useOwner owner) :=
  .one (.loop (good_useOwner hgood owner) rfl)

lemma underOwner_steps {owner : Nat} {f : CanSystem → Option CanSystem}
    (hsteps : ∀ c', f (c.useOwner owner) = some c' →
      Steps timely (.free, c.useOwner owner) (.free, c'))
    (hfun : c.underOwner owner f = some c') : Steps timely (.free, c) (.free, c') := by
  obtain ⟨c₂, hf, rfl⟩ := Option.map_eq_some_iff.mp hfun
  have hinside := hsteps c₂ hf
  have hgood₂ := hinside.good (good_useOwner hgood owner)
  exact (useOwner_steps hgood owner).trans (hinside.trans (useOwner_steps hgood₂ _))

/-- Every move is a row of steps that begins and ends with nothing in hand. -/
lemma act_steps {m : CanMove} (htime : timely → c.InTime m)
    (hact : c.act m = some c') : Steps timely (.free, c) (.free, c') := by
  cases m with
  | loop m => exact loopMove_steps hgood hact
  | back => exact comeBack_steps hgood hact
  | attach name loopback callback =>
    simp [act] at hact
    obtain ⟨-, ⟨rfl⟩⟩ := hact
    exact attach_steps name loopback callback
  | detach owner id =>
    simp [act] at hact
    exact underOwner_steps hgood (fun _ hf => detach_steps (by exact htime) hf) hact.2
  | send owner sender frame time completion =>
    simp [act] at hact
    exact underOwner_steps hgood (fun _ hf => send_steps hf) hact.2
  | inject owner frame time completion =>
    simp [act] at hact
    exact underOwner_steps hgood (fun _ hf => inject_steps hf) hact.2
  | cancelSender owner sender =>
    simp [act] at hact
    exact underOwner_steps hgood (fun _ hf => cancelSender_steps (by exact htime) hf) hact.2

end

/-- A condition on every move of a run and on the state before it. -/
def Along (P : CanSystem → CanMove → Prop) (c : CanSystem) : List CanMove → Prop
  | [] => True
  | m :: moves => ∀ c', c.act m = some c' → P c m ∧ Along P c' moves

instance decidableAlong {P : CanSystem → CanMove → Prop} [∀ c m, Decidable (P c m)] :
    (c : CanSystem) → (moves : List CanMove) → Decidable (c.Along P moves)
  | _, [] => isTrue trivial
  | c, m :: moves =>
    match hact : c.act m with
    | none => isTrue (by simp [Along, hact])
    | some c' =>
      letI : Decidable (c'.Along P moves) := decidableAlong c' moves
      decidable_of_iff (P c m ∧ Along P c' moves) (by simp [Along, hact])

lemma run_steps {moves : List CanMove} (hgood : Good c.loop.impl)
    (htime : timely → c.Along InTime moves) (hrun : c.run moves = some c') :
    Steps timely (.free, c) (.free, c') := by
  induction moves generalizing c with
  | nil =>
    cases hrun
    exact .refl
  | cons m moves ih =>
    obtain ⟨c₁, hact, hrest⟩ := Option.bind_eq_some_iff.mp hrun
    have hfirst : Steps timely (.free, c) (.free, c₁) :=
      act_steps hgood (fun ht => (htime ht c₁ hact).1) hact
    exact hfirst.trans (ih (hfirst.good hgood) (fun ht => (htime ht c₁ hact).2) hrest)

/-- What holds of a new bus and is kept by every step holds in every run. -/
lemma run_induct {P : Hand → CanSystem → Prop} {bitrate : BitVec 32} {queueCapacity limit : Nat}
    {moves : List CanMove}
    (htime : timely → (start bitrate queueCapacity limit).Along InTime moves)
    (hrun : (start bitrate queueCapacity limit).run moves = some c)
    (hstart : P .free (start bitrate queueCapacity limit))
    (hstep : ∀ {h c h' c'}, Step timely (h, c) (h', c') → Good c.loop.impl → P h c → P h' c') :
    P .free c := by
  have hgood : Good (start bitrate queueCapacity limit).loop.impl := good_empty limit
  have hsteps := run_steps hgood htime hrun
  have hall : ∀ x, Relation.ReflTransGen (Step timely)
      (.free, start bitrate queueCapacity limit) x → P x.1 x.2 := by
    intro x hx
    induction hx with
    | refl => exact hstart
    | tail hpast hlast ih => exact hstep hlast (good hpast hgood) ih
  exact hall _ hsteps

end CanSystem

end Fil.Devices
