-- The state of the CAN bus and its one event in the loop, and the times of
-- frames on the wire. The first holds in every run, whatever callbacks do. The
-- second rests on the clock: a frame that is cancelled at a time before its own
-- start gives the wire back too early.
import Fil.CanSteps

open Fil.Sim Fil.Sim.Impl List

namespace Fil.Devices

/-! ## The event of the bus -/

def OneEvent (s : Impl Callback) (id : Nat) (callback : Callback) : Prop :=
  ∃ slot, busEvents s = {slot} ∧ slot.id = id ∧ slot.callback = callback

variable {s : Impl Callback} {slot : Slot Callback} {callback : Callback}

section

variable {s' : Impl Callback} (htaken : Taken s slot s') {id : Nat} (hone : OneEvent s id callback)
include htaken hone

lemma Taken.none_left : busEvents s' = ∅ := by
  obtain ⟨only, hevents, -⟩ := hone
  have hwaited := htaken.waited
  rw [htaken.rest, hevents] at *
  rw [Set.mem_singleton_iff.mp hwaited]
  ext b
  simp +contextual

lemma Taken.callback_eq :
    slot.callback = callback := by
  obtain ⟨only, hevents, -, rfl⟩ := hone
  have hwaited := htaken.waited
  rw [hevents] at hwaited
  rw [Set.mem_singleton_iff.mp hwaited]

end

namespace CanSystem

def Armed (c : CanSystem) : Prop :=
  match c.bus.timedState with
  | .idle => busEvents c.loop.impl = ∅
  | .arbitrating => OneEvent c.loop.impl c.bus.timedEventId .arbitration
  | .inFlight => OneEvent c.loop.impl c.bus.timedEventId .completion

/-- The bus at rest: what holds when none of its functions is at work. -/
structure Agrees (c : CanSystem) : Prop where
  armed : c.Armed
  carries : c.bus.inFlight.isSome ↔ c.bus.timedState = .inFlight
  room : c.bus.queuedTransmissions ≤ c.bus.queueCapacity
  awake : c.bus.pending ≠ [] → c.bus.timedState ≠ .idle

/-- The bus at work. An idle bus with requests that wait has a function at work
that owes the next arbitration. -/
structure Consistent (h : Hand) (c : CanSystem) : Prop where
  armed : c.Armed
  carries : c.bus.inFlight.isSome ↔ c.bus.timedState = .inFlight
  room : c.bus.queuedTransmissions ≤ c.bus.queueCapacity
  owed : c.bus.pending ≠ [] → c.bus.timedState = .idle →
    h ≠ .free ∨ ∃ call ∈ c.calls, call.1.hand ≠ .free

lemma Consistent.agrees {c : CanSystem} (h : Consistent .free c) (hcalls : c.calls = []) :
    c.Agrees where
  armed := h.armed
  carries := h.carries
  room := h.room
  awake hpending hidle := by
    rcases h.owed hpending hidle with hfree | ⟨call, hcall, -⟩
    · exact hfree rfl
    · rw [hcalls] at hcall
      cases hcall

variable {timely : Prop} {h h' : Hand} {c c' : CanSystem}

section

variable (hc : Consistent h c)
include hc

lemma Consistent.no_event (hidle : c.bus.timedState = .idle) : busEvents c.loop.impl = ∅ := by
  have harmed := hc.armed
  unfold Armed at harmed
  rwa [hidle] at harmed

lemma Consistent.not_carried (hstate : c.bus.timedState ≠ .inFlight) : c.bus.inFlight = none := by
  cases hflight : c.bus.inFlight with
  | none => rfl
  | some t => exact absurd (hc.carries.mp (by rw [hflight]; rfl)) hstate

lemma Consistent.taken
    (htaken : Taken c.loop.impl slot s) : busEvents s = ∅ ∧
      (slot.callback = .arbitration → c.bus.timedState = .arbitrating) ∧
      (slot.callback = .completion → c.bus.timedState = .inFlight) := by
  have harmed := hc.armed
  unfold Armed at harmed
  cases hstate : c.bus.timedState with
  | idle =>
    have hwaited := htaken.waited
    rw [hc.no_event hstate] at hwaited
    cases hwaited
  | arbitrating =>
    rw [hstate] at harmed
    refine ⟨htaken.none_left harmed, fun _ => rfl, fun hcallback => ?_⟩
    rw [htaken.callback_eq harmed] at hcallback
    cases hcallback
  | inFlight =>
    rw [hstate] at harmed
    refine ⟨htaken.none_left harmed, fun hcallback => ?_, fun _ => rfl⟩
    rw [htaken.callback_eq harmed] at hcallback
    cases hcallback

lemma Consistent.disarmed (hgood : Good c.loop.impl)
    (hstate : c.bus.timedState ≠ .idle) : busEvents c.disarm.loop.impl = ∅ := by
  have hone : ∃ callback, OneEvent c.loop.impl c.bus.timedEventId callback := by
    have harmed := hc.armed
    unfold Armed at harmed
    cases hs : c.bus.timedState with
    | idle => exact absurd hs hstate
    | arbitrating => rw [hs] at harmed; exact ⟨_, harmed⟩
    | inFlight => rw [hs] at harmed; exact ⟨_, harmed⟩
  obtain ⟨callback, slot, hevents, hid, -⟩ := hone
  rw [Set.eq_empty_iff_forall_notMem]
  rintro b ⟨hb, hbus⟩
  rw [(disarm_spec hgood).2] at hb
  have hmem : b ∈ busEvents c.loop.impl := ⟨hb.1, hbus⟩
  rw [hevents, Set.mem_singleton_iff] at hmem
  exact hb.2 (hmem ▸ hid)

end

lemma oneEvent_armed {pending : Set (Slot Callback)}
    (hpending : s.pending = insert slot pending) (hbus : slot.callback ≠ .other)
    (hnone : {b ∈ pending | b.callback ≠ .other} = ∅) : OneEvent s slot.id slot.callback := by
  refine ⟨slot, ?_, rfl, rfl⟩
  unfold busEvents
  rw [hpending]
  ext b
  constructor
  · rintro ⟨rfl | hold, hb⟩
    · rfl
    · exact absurd ⟨hold, hb⟩ (Set.eq_empty_iff_forall_notMem.mp hnone b)
  · rintro rfl
    exact ⟨.inl rfl, hbus⟩

/-! ## Every step keeps the bus consistent -/

lemma length_unqueue {t : Transmission} (hwaits : t ∈ c.bus.pending) :
    (c.unqueue t).bus.pending.length + 1 = c.bus.pending.length := by
  have hpos := length_pos_of_mem hwaits
  unfold unqueue
  rw [length_eraseP_of_mem hwaits (by simp)]
  omega

/-- A step that leaves the queue, the wire and the event of the bus alone. -/
lemma Consistent.frame (hc : Consistent h c)
    (hevents : busEvents c'.loop.impl = busEvents c.loop.impl)
    (hbus : ∃ nodes nextNodeId nextSequence, c'.bus = { c.bus with nodes, nextNodeId, nextSequence })
    (howed : c.bus.pending ≠ [] → c.bus.timedState = .idle →
      h' ≠ .free ∨ ∃ call ∈ c'.calls, call.1.hand ≠ .free) : Consistent h' c' := by
  obtain ⟨nodes, nextNodeId, nextSequence, hbus⟩ := hbus
  have harmed := hc.armed
  refine ⟨?_, ?_, ?_, ?_⟩
  · unfold Armed OneEvent at harmed ⊢
    rw [hbus, hevents]
    exact harmed
  · rw [hbus]
    exact hc.carries
  · rw [hbus]
    exact hc.room
  · rw [hbus]
    exact howed

lemma Consistent.step (hstep : Step timely (h, c) (h', c')) (hgood : Good c.loop.impl)
    (hc : Consistent h c) : Consistent h' c' := by
  cases hstep with
  | loop good same => exact hc.frame same ⟨_, _, _, rfl⟩ hc.owed
  | nodes | count => exact hc.frame rfl ⟨_, _, _, rfl⟩ hc.owed
  | delivery | turn | finish | owe => exact hc.frame rfl ⟨_, _, _, rfl⟩ fun _ _ => .inl (by simp)
  | settle done =>
    refine hc.frame rfl ⟨_, _, _, rfl⟩ fun hpending hidle => ?_
    rcases done with hstate | hnone
    · exact absurd hidle hstate
    · exact absurd hnone hpending
  | park what depth =>
    refine hc.frame rfl ⟨_, _, _, rfl⟩ fun hpending hidle => .inr ?_
    rcases hc.owed hpending hidle with hhand | ⟨call, hcall, howes⟩
    · exact ⟨_, mem_cons_self, hhand⟩
    · exact ⟨call, mem_cons_of_mem _ hcall, howes⟩
  | @unpark _ what depth calls waits =>
    refine hc.frame rfl ⟨_, _, _, rfl⟩ fun hpending hidle => ?_
    rcases hc.owed hpending hidle with hfree | ⟨call, hcall, howes⟩
    · exact absurd rfl hfree
    · rw [waits] at hcall
      rcases mem_cons.mp hcall with rfl | hcall
      · exact .inl howes
      · exact .inr ⟨call, hcall, howes⟩
  | drop sender =>
    refine ⟨hc.armed, hc.carries, le_trans (Nat.add_le_add_right ?_ _) hc.room, ?_⟩
    · exact length_filter_le _ _
    · exact fun _ _ => .inl (by simp)
  | enqueue fresh room =>
    refine ⟨hc.armed, hc.carries, ?_, fun _ _ => .inl (by simp)⟩
    unfold VirtualCanBus.queuedTransmissions at room ⊢
    unfold CanSystem.enqueue note
    rw [length_append, length_singleton, Nat.add_right_comm]
    exact room
  | disarm armed =>
    refine ⟨hc.disarmed hgood (by simp [armed]), ?_, hc.room, fun _ _ => .inl (by simp)⟩
    have hnone := hc.not_carried (by simp [armed])
    simp [CanSystem.disarm, hnone]
  | abort flies carried =>
    refine ⟨hc.disarmed hgood (by simp [flies]), by simp [abortInFlight, CanSystem.disarm, note], ?_,
      fun _ _ => .inl (by simp)⟩
    exact le_trans (Nat.add_le_add_left (Nat.zero_le _) _) hc.room
  | arm idle armed =>
    obtain ⟨impl, slot, rfl, -, hcallback, hpending⟩ := arm_spec hgood armed
    refine ⟨?_, ?_, hc.room, fun _ hstate => by cases hstate⟩
    · have hone := oneEvent_armed hpending (by simp [hcallback]) (hc.no_event idle)
      rw [hcallback] at hone
      exact hone
    · have hnone := hc.not_carried (by simp [idle])
      simp [hnone]
  | arbitration taken callback =>
    obtain ⟨hnone, hstate, -⟩ := hc.taken taken
    refine ⟨hnone, ?_, hc.room, fun _ _ => .inl (by simp)⟩
    have hflight := hc.not_carried (by simp [hstate callback])
    simp [hflight]
  | fail waits =>
    have hlen := length_unqueue waits
    refine ⟨hc.armed, hc.carries, ?_, fun _ _ => .inl (by simp)⟩
    refine le_trans (Nat.add_le_add_right ?_ _) hc.room
    exact (Nat.le_succ _).trans hlen.le
  | start waits idle gap armed =>
    have hlen := length_unqueue waits
    have hflight := hc.not_carried (by simp [idle])
    obtain ⟨impl, slot, rfl, -, hcallback, hpending⟩ := arm_spec (by exact hgood) armed
    refine ⟨?_, ?_, ?_, fun _ hstate => by cases hstate⟩
    · have hone := oneEvent_armed hpending (by simp [hcallback]) (hc.no_event idle)
      rw [hcallback] at hone
      exact hone
    · simp [carry, note]
    · have hroom := hc.room
      unfold VirtualCanBus.queuedTransmissions at hroom ⊢
      rw [hflight] at hroom
      exact hlen.le.trans hroom
  | completion taken callback carried =>
    obtain ⟨hnone, -, -⟩ := hc.taken taken
    refine ⟨hnone, by simp, ?_, fun _ _ => .inl (by simp)⟩
    exact le_trans (Nat.add_le_add_left (Nat.zero_le _) _) hc.room
  | stray taken callback carried =>
    obtain ⟨-, -, hstate⟩ := hc.taken taken
    have hsome := hc.carries.mpr (hstate callback)
    rw [carried] at hsome
    cases hsome

/-! ## Frames on the wire -/

/-- No frame took the wire before another gave it back. -/
def FramesApart (c : CanSystem) : Prop := c.wire.Pairwise fun newer older => older.2 ≤ newer.1

instance (c : CanSystem) : Decidable c.FramesApart :=
  inferInstanceAs (Decidable (c.wire.Pairwise _))

/-- All frames so far end before the next may start. -/
structure Exclusive (c : CanSystem) : Prop where
  apart : c.FramesApart
  before : ∀ w ∈ c.wire, w.2 ≤ c.bus.nextStartNs

lemma Exclusive.carry (hc : c.Exclusive) {t : Transmission} {start : Nat} {times : WireTimes}
    (hgap : c.bus.nextStartNs ≤ start) : (c.carry t start times).Exclusive where
  apart := List.pairwise_cons.mpr ⟨fun w hw => (hc.before w hw).trans hgap, hc.apart⟩
  before w hw := by
    unfold CanSystem.carry note at hw ⊢
    dsimp only at hw ⊢
    rcases mem_cons.mp hw with rfl | hw
    · exact Nat.le_add_right _ _
    · have hold := (hc.before w hw).trans hgap
      omega

lemma Exclusive.abort (hc : c.Exclusive) {t : Transmission} {sender : Nat}
    (hbegan : c.BeganBefore c.now) : (c.abortInFlight t sender).Exclusive := by
  obtain ⟨hapart, hbefore⟩ := hc
  unfold FramesApart at hapart
  cases hwire : c.wire with
  | nil =>
    have hnone : (c.abortInFlight t sender).wire = [] := by
      simp [abortInFlight, CanSystem.disarm, note, hwire]
    exact ⟨by unfold FramesApart; rw [hnone]; exact .nil, by rw [hnone]; simp⟩
  | cons head wire =>
    obtain ⟨begun, planned⟩ := head
    rw [hwire] at hapart hbefore
    have hstart : begun ≤ c.now := hbegan (begun, planned) (by simp [hwire])
    have hnow : (c.abortInFlight t sender).bus.nextStartNs = c.now := rfl
    have hnew : (c.abortInFlight t sender).wire = (begun, c.now) :: wire := by
      simp [abortInFlight, CanSystem.disarm, note, hwire]
    obtain ⟨hhead, hrest⟩ := List.pairwise_cons.mp hapart
    refine ⟨?_, ?_⟩
    · unfold FramesApart
      rw [hnew]
      exact List.pairwise_cons.mpr ⟨hhead, hrest⟩
    · rw [hnew, hnow]
      intro w hw
      rcases mem_cons.mp hw with rfl | hw
      · exact le_rfl
      · exact (hhead w hw).trans hstart

lemma Exclusive.step (hstep : Step timely (h, c) (h', c')) (htimely : timely)
    (hgood : Good c.loop.impl) (hc : c.Exclusive) : c'.Exclusive := by
  cases hstep with
  | abort flies carried sent began => exact hc.abort (began htimely)
  | arm idle armed =>
    obtain ⟨impl, slot, rfl, -⟩ := arm_spec hgood armed
    exact ⟨hc.apart, hc.before⟩
  | @start _ _ t start times waits idle gap armed =>
    obtain ⟨impl, slot, rfl, -⟩ := arm_spec (by exact hgood) armed
    have hunqueued : (c.unqueue t).Exclusive := ⟨hc.apart, hc.before⟩
    have hcarried : ((c.unqueue t).carry t start times).Exclusive := hunqueued.carry gap
    exact ⟨hcarried.apart, hcarried.before⟩
  | _ => exact ⟨hc.apart, hc.before⟩

/-! ## The laws of the bus -/

variable {bitrate : BitVec 32} {queueCapacity limit : Nat} {moves : List CanMove}

lemma consistent_start : Consistent .free (start bitrate queueCapacity limit) := by
  refine ⟨?_, by simp [start], Nat.zero_le _, by simp [start]⟩
  exact (congrArg (fun events : Set (Slot Callback) =>
    {slot ∈ events | slot.callback ≠ .other}) (pending_empty limit)).trans (by simp)

lemma run_consistent (hrun : (start bitrate queueCapacity limit).run moves = some c) :
    Consistent .free c :=
  run_induct False.elim hrun consistent_start Consistent.step

/-- In every run, whenever no function of the bus is at work, the state of the
bus agrees with the loop, a frame is carried exactly in flight, the queue keeps
to its capacity, and requests wait only on a bus that is not idle. And if frames
are only cancelled at a clock that has reached their start, then no two frames
are on the wire at one time. -/
theorem the_bus_agrees_with_its_loop_and_frames_stay_apart
    (hrun : (start bitrate queueCapacity limit).run moves = some c) :
    (c.calls = [] → c.Agrees) ∧
      ((start bitrate queueCapacity limit).Along InTime moves → c.FramesApart) := by
  refine ⟨(run_consistent hrun).agrees, fun htime => ?_⟩
  have hexclusive : c.Exclusive := by
    refine run_induct (P := fun _ c => c.Exclusive) (fun _ : True => htime) hrun ?_ ?_
    · exact ⟨.nil, by simp [start]⟩
    · exact fun hstep hgood hc => hc.step hstep trivial hgood
  exact hexclusive.apart

def threeFrames : List CanMove :=
  [.attach "a" false true, .attach "b" false true,
    .send sharedEventOwner 2 { id := 0 } 0 false, .send sharedEventOwner 1 { id := 1 } 0 false,
    .send sharedEventOwner 2 { id := 2 } 0 false]

/-- The first frame is cancelled in the middle, and the second takes the wire. -/
def cancelledInTime : List CanMove :=
  threeFrames ++ [.loop (.runDueEvents 30), .loop .next, .back, .loop .next,
    .cancelSender sharedEventOwner 2, .loop (.runDueEvents 40), .loop .next, .back, .loop .next]

theorem frames_cancelled_in_time_stay_apart :
    ∃ c, (start 1000000000 8 100).run cancelledInTime = some c ∧
      c.wire = [(30, 77), (0, 30)] ∧ c.Agrees ∧ c.FramesApart := by
  have hend : ((start 1000000000 8 100).run cancelledInTime).map (fun c => (c.calls, c.wire)) =
      some ([], [(30, 77), (0, 30)]) := by decide +kernel
  obtain ⟨c, hrun, heq⟩ := Option.map_eq_some_iff.mp hend
  have hlaws := the_bus_agrees_with_its_loop_and_frames_stay_apart hrun
  refine ⟨c, hrun, congrArg Prod.snd heq, hlaws.1 (congrArg Prod.fst heq), hlaws.2 ?_⟩
  decide +kernel

/-- A callback runs the loop on to 70, and the run it is called from ends at 30
and takes the clock back there. The frame that started at 53 is then cancelled
at 30, and the next frame starts in the middle of the first. -/
def cancelledBeforeItsStart : List CanMove :=
  threeFrames ++ [.loop (.runDueEvents 30), .loop .next, .loop (.runDueEvents 70), .loop .next,
    .back, .back, .back, .loop .next, .back, .loop .next, .back, .loop .next,
    .cancelSender sharedEventOwner 1, .loop (.runDueEvents 30), .loop .next]

theorem a_frame_cancelled_before_its_start_lets_frames_overlap :
    ((start 1000000000 8 100).run cancelledBeforeItsStart).map CanSystem.wire =
      some [(30, 77), (53, 30), (0, 50)] ∧
    ∀ c ∈ (start 1000000000 8 100).run cancelledBeforeItsStart, ¬ c.FramesApart := by
  decide +kernel

end CanSystem

end Fil.Devices
