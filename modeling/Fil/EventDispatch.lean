-- The order in which events run. A run takes the first waiting event that is
-- due until none is left, so what it runs comes out sorted by time and then by
-- the scheduling call, even while callbacks schedule and cancel. Over a whole
-- history no event runs twice, and a cancelled one never runs.
import Fil.EventStore

open List

namespace Fil.Sim

variable {σ κ : Type}

/-- The order of dispatch: time first, then the number of the scheduling call. -/
def Slot.Before (a b : Slot κ) : Prop :=
  a.due < b.due ∨ (a.due = b.due ∧ a.sequence < b.sequence)

lemma Slot.Before.trans {a b c : Slot κ} (h₁ : a.Before b) (h₂ : b.Before c) : a.Before c := by
  unfold Slot.Before at *
  omega

namespace Impl

/-- The events that a run of this scope takes. -/
def Scope.Wants (scope : Scope) (slot : Slot κ) : Prop :=
  match scope with
  | .all => True
  | .owner o => slot.owner = o

/-! ## One event of a run -/

variable {s : Impl κ} {scope : Scope} {deadline : Nat} {done : List (Happening κ)}

lemma Good.queue (h : Good s) (scope : Scope) :
    QueueOk s.slots (fun id => ¬ s.Future id) scope.Wants (s.queue scope) := by
  cases scope with
  | all => exact h.events
  | owner o => exact h.owners o

lemma ownerEvents_setQueue (s : Impl κ) (o o' : Nat) (q : List Entry) :
    (s.setQueue (.owner o) q).ownerEvents o' = if o' = o then q else s.ownerEvents o' :=
  Function.update_apply ..

lemma Good.setQueue (h : Good s) {q : List Entry}
    (hq : QueueOk s.slots (fun id => ¬ s.Future id) scope.Wants q) : Good (s.setQueue scope q) := by
  cases scope with
  | all =>
    exact ⟨h.live, h.liveOnce, h.named, h.oneId, h.oneSequence, h.sequence, h.free, h.freeOnce, hq,
      h.observed, h.owners⟩
  | owner o =>
    refine ⟨h.live, h.liveOnce, h.named, h.oneId, h.oneSequence, h.sequence, h.free, h.freeOnce,
      h.events, h.observed, ?_⟩
    intro o'
    rw [ownerEvents_setQueue]
    split_ifs with ho
    · subst ho
      exact hq
    · exact h.owners o'

lemma queue_setQueue (s : Impl κ) (scope : Scope) (q : List Entry) :
    (s.setQueue scope q).queue scope = q := by
  cases scope with
  | all => rfl
  | owner o => simp [queue, Impl.setQueue]

/-- The store that a callback finds when its event has left. -/
def atEvent (s : Impl κ) (scope : Scope) (entry : Entry) (rest : List Entry) (slot : Slot κ) :
    Impl κ :=
  { ((s.setQueue scope rest).reachEvent scope entry.due).retire entry slot with
    activeOwner := slot.owner }

/-- `atEvent` is the store without the event, at the event's time. -/
lemma atEvent_eq (s : Impl κ) (scope : Scope) (entry : Entry) (rest : List Entry)
    (slot : Slot κ) :
    ∃ sharedNow ownerNow, s.atEvent scope entry rest slot =
      { s.leave entry.slot slot.id (s.setQueue scope rest).events
          (discardDeadFront (s.releaseSlot entry.slot).slots s.globallyObservedEvents)
          (s.setQueue scope rest).ownerEvents with
        sharedNow, ownerNow, activeOwner := slot.owner } := by
  unfold atEvent retire
  cases scope with
  | all | owner o =>
    obtain ⟨sharedNow, ownerNow, heq⟩ := setTime_eq _ slot.owner slot.due
    exact ⟨sharedNow, ownerNow, by rw [heq]; rfl⟩

lemma timeFor_ge_shared (s : Impl κ) (o : Nat) : s.sharedNow ≤ s.timeFor o := by
  unfold timeFor
  split_ifs
  · omega
  cases s.ownerNow o with
  | none => simp
  | some time =>
    show s.sharedNow ≤ max time s.sharedNow + s.readOffset
    omega

lemma timeFor_setTime (s : Impl κ) (o time : Nat) : time ≤ (s.setTime o time).timeFor o := by
  unfold setTime timeFor
  by_cases ho : o = sharedEventOwner
  · simp [ho]
  · simp [ho]
    omega

variable {log : List (Happening κ)} {entry : Entry} {slot : Slot κ} (behave : κ → σ → Program σ κ)

lemma atEvent_clock (s : Impl κ) (rest : List Entry) (hdue : slot.due = entry.due)
    (hwant : scope.Wants slot) (a : Slot κ) (ha : scope.Wants a) :
    slot.due ≤ (s.atEvent scope entry rest slot).timeFor a.owner := by
  cases scope with
  | owner o =>
    have hsame : a.owner = slot.owner := Eq.trans ha (Eq.symm hwant)
    rw [hsame]
    exact timeFor_setTime _ slot.owner slot.due
  | all =>
    have hshared : (s.atEvent .all entry rest slot).sharedNow = slot.due := by
      simp only [atEvent, retire, setTime, hdue]
      split_ifs <;> rfl
    exact hshared ▸ timeFor_ge_shared _ _

variable {rest : List Entry}

/-- The event at the front of a queue leaves the books, and nothing else does. -/
lemma Good.atEvent (h : Good s) (hq : s.queue scope = entry :: rest)
    (hw : Waits s.slots entry.slot slot) :
    Good (s.atEvent scope entry rest slot) ∧
      (s.atEvent scope entry rest slot).office =
        ⟨{b ∈ s.office.out | b.id ≠ slot.id}, s.office.given⟩ ∧
      Grows s [] (s.atEvent scope entry rest slot) := by
  obtain ⟨sharedNow, ownerNow, heq⟩ := atEvent_eq s scope entry rest slot
  have hpop := (hq ▸ h.queue scope).pop
  have hevents : QueueOk (s.releaseSlot entry.slot).slots (fun id => ¬ s.Future id)
      (fun _ => True) (s.setQueue scope rest).events := by
    cases scope with
    | all => exact hpop
    | owner o => exact h.events.release entry.slot
  have howners : ∀ o, QueueOk (s.releaseSlot entry.slot).slots (fun id => ¬ s.Future id)
      (fun slot => slot.owner = o) ((s.setQueue scope rest).ownerEvents o) := by
    intro o
    cases scope with
    | all => exact (h.owners o).release entry.slot
    | owner o' =>
      rw [ownerEvents_setQueue]
      split_ifs with ho
      · subst ho
        exact hpop
      · exact (h.owners o).release entry.slot
  obtain ⟨hgood, hoffice⟩ := h.leave hw hevents (h.observed.release entry.slot).discard howners
  rw [heq]
  exact ⟨hgood.clocks sharedNow slot.owner _ ownerNow, hoffice, rfl, rfl, fun _ => ⟨rfl, id⟩, rfl,
    rfl, rfl, rfl⟩

lemma Good.setClock (h : Good s) (scope : Scope) (time : Nat) :
    Good (s.setClock scope time) ∧ (s.setClock scope time).office = s.office := by
  cases scope with
  | all => exact ⟨h.clocks time s.activeOwner s.executedCallbacks s.ownerNow, rfl⟩
  | owner o =>
    obtain ⟨sharedNow, ownerNow, heq⟩ := setTime_eq s o time
    show Good (s.setTime o time) ∧ (s.setTime o time).office = s.office
    rw [heq]
    exact ⟨h.clocks sharedNow s.activeOwner s.executedCallbacks ownerNow, rfl⟩

/-! ## A whole run -/

/-- How far a run of a scope has come since `start`: what it ran is in order and
due, and everything it still wants comes later. -/
structure Progress (scope : Scope) (deadline : Nat) (start : Impl κ) (done : List (Happening κ))
    (s : Impl κ) : Prop where
  good : Good s
  run : Tickets.Run Slot.id start.office done s.office
  order : (Tickets.used done).Pairwise Slot.Before
  mine : ∀ a ∈ Tickets.used done, scope.Wants a ∧ a.due ≤ deadline
  behind : ∀ a ∈ Tickets.used done, ∀ b ∈ s.office.out, scope.Wants b → a.Before b
  grows : Grows start done s

open Tickets

lemma Progress.start (h : Good s) (scope : Scope) (deadline : Nat) :
    Progress scope deadline s [] s :=
  ⟨h, .nil, .nil, by simp [used], by simp [used], .refl s⟩

lemma invoke_eq (behave : κ → σ → Program σ κ) (result : EventRunResult)
    (state : σ) (hw : Waits s.slots entry.slot slot) : let s' := s.atEvent scope entry rest slot
    let after := s'.perform (behave slot.callback state)
    invoke behave entry result state ((s.setQueue scope rest).reachEvent scope entry.due) =
      ({ markOwner result slot.owner with
          eventsExecuted := (markOwner result slot.owner).eventsExecuted + 1 },
        after.1,
        { after.2.1 with
          activeOwner := s.activeOwner, executedCallbacks := after.2.1.executedCallbacks + 1 },
        .use slot :: after.2.2) := by
  have hget : ((s.setQueue scope rest).reachEvent scope entry.due).slots[entry.slot]? =
      some slot := by
    cases scope <;> exact hw.1
  have hactive : ((s.setQueue scope rest).reachEvent scope entry.due).activeOwner =
      s.activeOwner := by
    cases scope <;> rfl
  simp only [invoke, hget, hactive, atEvent]

lemma before_of_notAfter (h : Good s) {i j : Nat} {a b : Slot κ}
    (ha : Waits s.slots i a) (hb : Waits s.slots j b) (hne : b.id ≠ a.id)
    (hle : (a.entry i).NotAfter (b.entry j)) : a.Before b := by
  have hseq : a.sequence ≠ b.sequence := by
    intro he
    obtain rfl := h.oneSequence i j a b ha hb he
    exact hne (congrArg Slot.id (hb.unique ha))
  unfold Entry.NotAfter Slot.entry at hle
  unfold Slot.Before
  simp only at hle
  omega

variable {s : Impl κ}

/-- Running the front event keeps a run going: everything that is left, and
everything the callback adds, comes after it. -/
lemma Progress.invoke (behave : κ → σ → Program σ κ)
    {start : Impl κ} (h : Progress scope deadline start done s)
    {entry : Entry} (hq : s.queue scope = entry :: rest) {slot : Slot κ}
    (hw : Waits s.slots entry.slot slot) (hentry : slot.entry entry.slot = entry)
    (hwant : scope.Wants slot) (hdue : slot.due ≤ deadline)
    (hfirst : ∀ i b, Waits s.slots i b → scope.Wants b → entry.NotAfter (b.entry i))
    (result : EventRunResult) (state : σ) :
    let after :=
      Impl.invoke behave entry result state ((s.setQueue scope rest).reachEvent scope entry.due)
    Progress scope deadline start (done ++ after.2.2.2) after.2.2.1 ∧
      used after.2.2.2 = [slot] ∧
      ∀ b ∈ after.2.2.1.office.out, scope.Wants b → slot.Before b := by
  rw [invoke_eq behave result state hw]
  obtain ⟨hgood, hoffice, hsame⟩ := h.good.atEvent hq hw
  set s' := s.atEvent scope entry rest slot with hs'
  have heffect := perform_effect hgood (behave slot.callback state)
  set after := s'.perform (behave slot.callback state)
  have hrun : Tickets.Run Slot.id s.office (.use slot :: after.2.2) after.2.1.office := by
    refine .cons ?_ heffect.run
    rw [hoffice]
    exact .use ⟨entry.slot, hw⟩
  have hlater : ∀ b ∈ after.2.1.office.out, scope.Wants b → slot.Before b := by
    intro b hb hwb
    rcases ((heffect.run.out_iff hgood.sound).mp hb).1 with hold | hnew
    · -- it waited already, and the front is first
      rw [hoffice] at hold
      obtain ⟨⟨j, hwj⟩, hne⟩ := hold
      exact before_of_notAfter h.good hw hwj hne (hentry ▸ hfirst j b hwj hwb)
    -- the callback scheduled it
    have hlate := heffect.late b hnew
    have hnext := (heffect.grows.number hnew).1
    have hclock := atEvent_clock s rest (congrArg Entry.due hentry) hwant b hwb
    have := h.good.sequence _ _ hw
    rw [hsame.next] at hnext
    rcases (hclock.trans hlate).lt_or_eq with hlt | heq
    · exact .inl hlt
    · exact .inr ⟨heq, lt_of_lt_of_le this hnext⟩
  have hbehind : ∀ a ∈ used done, a.Before slot := fun a ha =>
    h.behind a ha slot ⟨entry.slot, hw⟩ hwant
  have hone : used (.use slot :: after.2.2) = [slot] := by
    rw [used, heffect.unused]
  have hused : used (done ++ (.use slot :: after.2.2)) = used done ++ [slot] := by
    rw [used_append, hone]
  have hgrows : Grows s (.use slot :: after.2.2) after.2.1 := by
    have := hsame.trans heffect.grows
    exact ⟨this.numbers, this.next, this.laneIds, this.domain, this.owner, this.lanes, this.limit⟩
  refine ⟨⟨?_, h.run.append hrun, ?_, ?_, ?_, ?_⟩, hone, hlater⟩
  · exact heffect.good.clocks _ s.activeOwner _ _
  · rw [hused]
    exact pairwise_append.mpr ⟨h.order, pairwise_singleton _ _, by simpa using hbehind⟩
  · rw [hused]
    intro a ha
    rcases mem_append.mp ha with ha | ha
    · exact h.mine a ha
    · obtain rfl := mem_singleton.mp ha
      exact ⟨hwant, hdue⟩
  · rw [hused]
    intro a ha b hb hwb
    rcases mem_append.mp ha with ha | ha
    · exact (hbehind a ha).trans (hlater b hb hwb)
    · obtain rfl := mem_singleton.mp ha
      exact hlater b hb hwb
  · have := h.grows.trans hgrows
    exact ⟨this.numbers, this.next, this.laneIds, this.domain, this.owner, this.lanes, this.limit⟩

variable {s' : Impl κ}

lemma Progress.of_same {start : Impl κ} (h : Progress scope deadline start done s)
    (hg : Good s')
    (ho : s'.office = s.office) (hs : Grows s [] s') : Progress scope deadline start done s' :=
  ⟨hg, ho ▸ h.run, h.order, h.mine, ho ▸ h.behind, by simpa using h.grows.trans hs⟩

lemma setClock_grows (s : Impl κ) (scope : Scope) (time : Nat) :
    Grows s [] (s.setClock scope time) := by
  cases scope with
  | all => exact ⟨rfl, rfl, fun _ => ⟨rfl, id⟩, rfl, rfl, rfl, rfl⟩
  | owner o =>
    obtain ⟨sharedNow, ownerNow, heq⟩ := setTime_eq s o time
    show Grows s [] (s.setTime o time)
    rw [heq]
    exact ⟨rfl, rfl, fun _ => ⟨rfl, id⟩, rfl, rfl, rfl, rfl⟩

section

variable {start : Impl κ} (h : Progress scope deadline start done s)
include h

lemma Progress.setClock (time : Nat) :
    Progress scope deadline start done (s.setClock scope time) := by
  obtain ⟨hg, ho⟩ := h.good.setClock scope time
  exact h.of_same hg ho (setClock_grows s scope time)

lemma Progress.discard :
    Progress scope deadline start done
      (s.setQueue scope (discardDeadFront s.slots (s.queue scope))) := by
  refine h.of_same (h.good.setQueue (h.good.queue scope).discard) ?_ ?_
  · cases scope <;> rfl
  · cases scope <;> exact ⟨rfl, rfl, fun _ => ⟨rfl, id⟩, rfl, rfl, rfl, rfl⟩

end

/-- What a run of a scope up to a deadline has done in the end. It may stop early
only at the limit of callbacks for one time. -/
structure Finished (scope : Scope) (deadline : Nat) (start : Impl κ) (log : List (Happening κ))
    (result : EventRunResult) (s : Impl κ) : Prop where
  progress : Progress scope deadline start log s
  settled : result.sameTimeLimitHit = false →
    ∀ b ∈ s.office.out, scope.Wants b → deadline < b.due

variable {result : EventRunResult}

lemma Finished.setClock {start : Impl κ}
    (hp : Progress scope deadline start log s) (time : Nat)
    (hs : result.sameTimeLimitHit = false → ∀ b ∈ s.office.out, scope.Wants b → deadline < b.due) :
    Finished scope deadline start log result (s.setClock scope time) := by
  refine ⟨hp.setClock time, ?_⟩
  rw [(hp.good.setClock scope time).2]
  exact hs

def callbacksAt (log : List (Happening κ)) (time : Nat) : Nat :=
  (Tickets.used log).countP fun a => a.due = time

structure Tally (limit counted atTime : Nat) (done : List (Happening κ)) : Prop where
  most : ∀ time, callbacksAt done time ≤ limit
  here : callbacksAt done counted = atTime
  past : ∀ a ∈ Tickets.used done, a.due ≤ counted
  fresh : atTime = 0 → Tickets.used done = []

/-- A run that runs no more callbacks at a time than the limit. It stops early only where
the limit is reached and an event is left. -/
structure Cut (scope : Scope) (limit : Nat) (log : List (Happening κ)) (result : EventRunResult)
    (s : Impl κ) : Prop where
  most : ∀ time, callbacksAt log time ≤ limit
  hit : result.sameTimeLimitHit = true → callbacksAt log result.stoppedAt = limit ∧
    ∃ b ∈ s.office.out, scope.Wants b ∧ b.due = result.stoppedAt

lemma Tally.start (limit : Nat) : Tally limit 0 0 ([] : List (Happening κ)) :=
  ⟨fun _ => Nat.zero_le _, rfl, by simp [used], fun _ => rfl⟩

variable {limit counted atTime due : Nat} {done : List (Happening κ)}

lemma Tally.next
    (h : Tally limit counted atTime done) (hlater : atTime ≠ 0 → counted ≤ due) :
    callbacksAt done due = if atTime = 0 || due ≠ counted then 0 else atTime := by
  by_cases h0 : atTime = 0
  · simp [callbacksAt, h.fresh h0, h0]
  by_cases hd : due = counted
  · simp [h0, hd, h.here]
  have hnone : ∀ a ∈ used done, ¬a.due = due := by
    intro a ha
    have := h.past a ha
    have := hlater h0
    omega
  simpa [h0, hd, callbacksAt, countP_eq_zero] using hnone

lemma Tally.step {hs : List (Happening κ)}
    {slot : Slot κ} (h : Tally limit counted atTime done) (hone : used hs = [slot])
    (hdue : slot.due = due) (hlater : atTime ≠ 0 → counted ≤ due)
    (hlt : callbacksAt done due < limit) :
    Tally limit due (callbacksAt done due + 1) (done ++ hs) := by
  subst hdue
  have hcount : ∀ time, callbacksAt (done ++ hs) time =
      callbacksAt done time + if slot.due = time then 1 else 0 := by
    intro time
    simp [callbacksAt, used_append, hone, countP_append, countP_singleton]
  refine ⟨fun time => ?_, by rw [hcount, if_pos rfl], fun a ha => ?_, by omega⟩
  · rw [hcount]
    split
    · rename_i hd
      exact hd ▸ hlt
    · exact h.most time
  · rw [used_append, hone, mem_append, mem_singleton] at ha
    rcases ha with ha | rfl
    · by_cases h0 : atTime = 0
      · rw [h.fresh h0] at ha
        cases ha
      · exact (h.past a ha).trans (hlater h0)
    · exact le_rfl

/-- Rounds that are left: those of the times after the current one, and those of
callbacks that the limit still allows now. -/
def Budget (deadline limit counted atTime fuel : Nat) : Prop :=
  if atTime = 0 then (deadline + 1) * limit + 1 ≤ fuel
  else (deadline - counted) * limit + (limit - atTime) + 1 ≤ fuel

variable {deadline : Nat}

lemma Budget.step {fuel : Nat}
    (h : Budget deadline limit counted atTime (fuel + 1)) (hdue : due ≤ deadline)
    (hlater : atTime ≠ 0 → counted ≤ due) :
    let atTime' := if atTime = 0 || due ≠ counted then 0 else atTime
    atTime' < limit → Budget deadline limit due (atTime' + 1) fuel := by
  intro atTime' hlt
  unfold Budget at h
  have hgoal : (deadline - due) * limit + (limit - (atTime' + 1)) + 1 ≤ fuel := by
    by_cases h0 : atTime = 0
    · have hzero : atTime' = 0 := by simp [atTime', h0]
      rw [if_pos h0] at h
      have hle : (deadline - due + 1) * limit ≤ (deadline + 1) * limit :=
        Nat.mul_le_mul_right _ (by omega)
      rw [Nat.add_mul] at hle
      omega
    rw [if_neg h0] at h
    by_cases hd : due = counted
    · have hsame : atTime' = atTime := by simp [atTime', h0, hd]
      rw [hd]
      omega
    have hzero : atTime' = 0 := by simp [atTime', hd]
    have hle : (deadline - due + 1) * limit ≤ (deadline - counted) * limit :=
      Nat.mul_le_mul_right _ (by omega)
    rw [Nat.add_mul] at hle
    omega
  simpa [Budget] using hgoal

lemma sameTimeLimitHit_invoke (entry : Entry) (result : EventRunResult) (state : σ) (s : Impl κ) :
    (Impl.invoke behave entry result state s).1.sameTimeLimitHit = result.sameTimeLimitHit := by
  unfold Impl.invoke
  cases s.slots[entry.slot]? with
  | none => rfl
  | some slot =>
    show (markOwner result slot.owner).sameTimeLimitHit = _
    unfold markOwner
    split_ifs <;> rfl

section

variable (behave : κ → σ → Program σ κ)

/-- A run ends within its budget, and has then done all it should. The induction
is on the rounds; `Progress` is what one round keeps. -/
lemma runLoop_spec (scope : Scope) (deadline : Nat)
    {start : Impl κ} (fuel counted atTime : Nat) (result : EventRunResult) (state : σ) (s : Impl κ)
    (done : List (Happening κ)) (h : Progress scope deadline start done s)
    (hr : result.sameTimeLimitHit = false)
    (hlater : atTime ≠ 0 → ∀ b ∈ s.office.out, scope.Wants b → counted ≤ b.due)
    (hb : Budget deadline start.maximumSameTimeEvents counted atTime fuel)
    (ht : Tally start.maximumSameTimeEvents counted atTime done) :
    ∃ result' state' s' log,
      runLoop behave scope deadline fuel counted atTime result state s done =
        some (result', state', s', log) ∧ Finished scope deadline start log result' s' ∧
        Cut scope start.maximumSameTimeEvents log result' s' := by
  induction fuel generalizing counted atTime result state s done with
  | zero =>
    unfold Budget at hb
    split_ifs at hb <;> omega
  | succ fuel ih =>
    rw [runLoop]
    have hp := h.discard
    have hquiet : ∀ (time : Nat) (s' : Impl κ), Cut scope start.maximumSameTimeEvents done
        { result with stoppedAt := time } s' :=
      fun _ _ => ⟨ht.most, fun hhit => absurd (hr.symm.trans hhit) Bool.false_ne_true⟩
    have hslots : (s.setQueue scope (discardDeadFront s.slots (s.queue scope))).slots = s.slots := by
      cases scope <;> rfl
    have hout : (s.setQueue scope (discardDeadFront s.slots (s.queue scope))).office = s.office := by
      cases scope <;> rfl
    have hqueue := queue_setQueue s scope (discardDeadFront s.slots (s.queue scope))
    set s₀ := s.setQueue scope (discardDeadFront s.slots (s.queue scope)) with hs₀
    cases hq : discardDeadFront s.slots (s.queue scope) with
    | nil =>
      simp only [hqueue, hq]
      refine ⟨_, _, _, _, rfl, .setClock hp deadline fun _ b hb hwb => ?_, hquiet _ _⟩
      rw [hout] at hb
      obtain ⟨i, hwi⟩ := hb
      exact absurd hwb ((h.good.queue scope).none_waits hq hwi)
    | cons entry rest =>
      obtain ⟨slot, hw, hentry, hwant, hfirst⟩ := (h.good.queue scope).front hq
      have hdue : slot.due = entry.due := congrArg Entry.due hentry
      simp only [hqueue, hq]
      split
      · rename_i hlate
        refine ⟨_, _, _, _, rfl, .setClock hp deadline fun _ b hb hwb => ?_, hquiet _ _⟩
        rw [hout] at hb
        obtain ⟨i, hwi⟩ := hb
        rcases hfirst i b hwi hwb with hlt | ⟨heq, -⟩
        · exact hlate.trans hlt
        · exact lt_of_lt_of_eq hlate heq
      · rename_i hlate
        have hcounted : atTime ≠ 0 → counted ≤ slot.due :=
          fun hne => hlater hne slot ⟨entry.slot, hw⟩ hwant
        rw [hdue] at hcounted
        have hnow := ht.next hcounted
        set atTime' := if atTime = 0 || entry.due ≠ counted then 0 else atTime
        split
        · rename_i hfull
          refine ⟨_, _, _, _, rfl, .setClock hp entry.due fun hfalse => by simp at hfalse,
            ht.most, fun _ => ⟨?_, slot, ?_, hwant, hdue⟩⟩
          · rw [hp.grows.limit, ← hnow] at hfull
            exact le_antisymm (ht.most _) hfull
          · rw [(hp.good.setClock scope _).2, hout]
            exact ⟨entry.slot, hw⟩
        · rename_i hfull
          have hw₀ : Waits s₀.slots entry.slot slot := hslots ▸ hw
          obtain ⟨hnext, hone, hmore⟩ := hp.invoke behave (hqueue.trans hq) hw₀ hentry hwant (by omega)
            (hslots ▸ hfirst) result state
          rw [hp.grows.limit, Nat.not_le] at hfull
          refine ih entry.due (atTime' + 1) _ _ _ _ hnext ?_ ?_
            (hb.step (Nat.not_lt.mp hlate) hcounted hfull) ?_
          · rw [sameTimeLimitHit_invoke, hr]
          · intro _ b hb hwb
            rcases hmore b hb hwb with hlt | ⟨heq, -⟩ <;> omega
          · rw [← hnow] at hfull ⊢
            exact ht.step hone hdue hcounted hfull

/-- A run over all events fails only if the clock would run backwards. -/
lemma runDueEvents_spec (h : Good s)
    (hroot : s.laneDomain = false) (hle : s.sharedNow ≤ deadline) (state : σ) :
    ∃ result state' s' log, s.runDueEvents behave deadline state = some (result, state', s', log) ∧
      Finished .all deadline s log result s' ∧ Cut .all s.maximumSameTimeEvents log result s' := by
  unfold runDueEvents
  rw [if_neg (by simp [hroot]), if_neg (Nat.not_lt.mpr hle)]
  refine runLoop_spec behave .all deadline _ 0 0 _ state s [] (.start h .all deadline) rfl
    (fun h0 => absurd rfl h0) ?_ (.start _)
  simp [Budget, rounds]

lemma runOwnedEvents_spec (h : Good s)
    {owner : Nat} (hlane : s.laneDomain = true → owner = s.laneOwner)
    (hle : s.timeFor owner ≤ deadline) (state : σ) :
    ∃ result state' s' log,
      s.runOwnedEvents behave owner deadline state = some (result, state', s', log) ∧
        Finished (.owner owner) deadline s log result s' ∧
        Cut (.owner owner) s.maximumSameTimeEvents log result s' := by
  unfold runOwnedEvents
  rw [if_neg (by simpa using hlane), if_neg (Nat.not_lt.mpr hle)]
  refine runLoop_spec behave (.owner owner) deadline _ 0 0 _ state s []
    (.start h (.owner owner) deadline) rfl (fun h0 => absurd rfl h0) ?_ (.start _)
  simp [Budget, rounds]

end

/-! ## Whole histories -/

/-- A call from outside. A run starts from a state of the callbacks of its own,
so the outside may do anything to it between two runs. -/
inductive Call (σ κ : Type)
  | schedule (owner due : Nat) (callback : κ) (guarded : Bool)
  | cancel (id : Nat)
  | runDueEvents (state : σ) (deadline : Nat)
  | runOwnedEvents (state : σ) (owner deadline : Nat)
  | runSharedEvents (state : σ) (deadline : Nat)

/-- A run that throws leaves the store as it was. -/
def afterRun (s : Impl κ) : Option (EventRunResult × σ × Impl κ × List (Happening κ)) →
    Impl κ × List (Happening κ)
  | none => (s, [])
  | some (_, _, s', log) => (s', log)

def call (behave : κ → σ → Program σ κ) (s : Impl κ) : Call σ κ → Impl κ × List (Happening κ)
  | .schedule owner due callback guarded => (s.scheduleAs owner due callback guarded).2
  | .cancel id => (s.cancelAs id).2
  | .runDueEvents state deadline => s.afterRun (s.runDueEvents behave deadline state)
  | .runOwnedEvents state owner deadline => s.afterRun (s.runOwnedEvents behave owner deadline state)
  | .runSharedEvents state deadline => s.afterRun (s.runSharedEvents behave deadline state)

def history (behave : κ → σ → Program σ κ) (s : Impl κ) : List (Call σ κ) →
    Impl κ × List (Happening κ)
  | [] => (s, [])
  | c :: calls =>
    let (s, log) := s.call behave c
    let (s, rest) := history behave s calls
    (s, log ++ rest)

/-- What every call does: the books stay in order, the log tells what happened to
the events, and the counters follow it. -/
structure Kept (s : Impl κ) (log : List (Happening κ)) (s' : Impl κ) : Prop where
  good : Good s'
  run : Tickets.Run Slot.id s.office log s'.office
  grows : Grows s log s'

lemma Kept.refl (h : Good s) : Kept s [] s := ⟨h, .nil, .refl s⟩

lemma Kept.trans {s₁ s₂ : Impl κ} {log₁ log₂ : List (Happening κ)} (h₁ : Kept s log₁ s₁)
    (h₂ : Kept s₁ log₂ s₂) : Kept s (log₁ ++ log₂) s₂ :=
  ⟨h₂.good, h₁.run.append h₂.run, h₁.grows.trans h₂.grows⟩

lemma Effect.kept (h : Effect s log s') : Kept s log s' :=
  ⟨h.good, h.run, h.grows⟩

lemma afterRun_kept
    {run : Option (EventRunResult × σ × Impl κ × List (Happening κ))}
    (hrun : ∃ result state' s' log,
      run = some (result, state', s', log) ∧ Finished scope deadline s log result s' ∧
        Cut scope s.maximumSameTimeEvents log result s') :
    Kept s (s.afterRun run).2 (s.afterRun run).1 := by
  obtain ⟨result, state', s', log, rfl, hf, -⟩ := hrun
  exact ⟨hf.progress.good, hf.progress.run, hf.progress.grows⟩

lemma runOwnedEvents_kept (behave : κ → σ → Program σ κ) (h : Good s)
    (owner deadline : Nat) (state : σ) :
    let after := s.afterRun (s.runOwnedEvents behave owner deadline state)
    Kept s after.2 after.1 := by
  by_cases hlane : s.laneDomain = true ∧ owner ≠ s.laneOwner
  · have hnone : s.runOwnedEvents behave owner deadline state = none := by
      simp [runOwnedEvents, hlane]
    rw [hnone]
    exact .refl h
  by_cases hlt : deadline < s.timeFor owner
  · have hnone : s.runOwnedEvents behave owner deadline state = none := by
      simp [runOwnedEvents, hlt]
    rw [hnone]
    exact .refl h
  · refine afterRun_kept (runOwnedEvents_spec behave h ?_ (Nat.not_lt.mp hlt) state)
    simpa using hlane

lemma call_kept (h : Good s) (c : Call σ κ) : Kept s (s.call behave c).2 (s.call behave c).1 := by
  cases c with
  | schedule owner due callback guarded => exact (scheduleAs_effect h owner due callback guarded).kept
  | cancel id => exact (cancelAs_effect h id).kept
  | runDueEvents state deadline =>
    by_cases hbad : s.laneDomain = true ∨ deadline < s.sharedNow
    · have hnone : s.runDueEvents behave deadline state = none := by
        rcases hbad with hbad | hbad <;> simp [runDueEvents, hbad]
      rw [call, hnone]
      exact .refl h
    · push Not at hbad
      exact afterRun_kept (runDueEvents_spec behave h (by simpa using hbad.1) hbad.2 state)
  | runOwnedEvents state owner deadline => exact runOwnedEvents_kept behave h owner deadline state
  | runSharedEvents state deadline => exact runOwnedEvents_kept behave h sharedEventOwner deadline state

lemma history_kept (h : Good s) (calls : List (Call σ κ)) :
    Kept s (s.history behave calls).2 (s.history behave calls).1 := by
  induction calls generalizing s with
  | nil => exact .refl h
  | cons c calls ih =>
    have hfirst := call_kept behave h c
    exact hfirst.trans (ih hfirst.good)

/-- Cancelling takes out the event with that id if it waits, says so and books it, and
takes out no other. -/
def Cancels (s : Impl κ) : Prop :=
  ∀ id, ((s.cancelAs id).1 = true ↔ ∃ a ∈ s.pending, a.id = id) ∧
    (s.cancelAs id).2.1.pending = {a ∈ s.pending | a.id ≠ id} ∧
    ((s.cancelAs id).1 = true → (s.cancelAs id).2.2 = [.withdraw id])

/-- What holds of the events of a history, from its log and the store it ends in. -/
structure Booked (log : List (Happening κ)) (s : Impl κ) : Prop where
  /-- No event runs twice. -/
  once : ((Tickets.used log).map Slot.id).Nodup
  /-- A cancelled event never runs. -/
  cancelled : ∀ a, .withdraw a.id ∈ log → .use a ∉ log
  /-- An event waits from its scheduling until it runs or is cancelled by its own id. -/
  waits : ∀ a, a ∈ s.pending ↔ .issue a ∈ log ∧ .withdraw a.id ∉ log ∧ .use a ∉ log
  /-- Cancelling an event that ran or was cancelled before does nothing. -/
  late : ∀ a, (.use a ∈ log ∨ .withdraw a.id ∈ log) → s.cancelAs a.id = (false, s, [])
  /-- Cancelling an event that waits takes it out. -/
  cancels : s.Cancels

/-- What a run over all events has run, if it did not stop at the limit. -/
structure Dispatched (deadline : Nat) (before after : Impl κ) (log : List (Happening κ)) :
    Prop where
  order : (Tickets.used log).Pairwise Slot.Before
  exact : ∀ a, .use a ∈ log ↔
    (a ∈ before.pending ∨ .issue a ∈ log) ∧ a.due ≤ deadline ∧ .withdraw a.id ∉ log
  rest : ∀ a ∈ after.pending, deadline < a.due

lemma pending_empty (limit : Nat) :
    ({ maximumSameTimeEvents := limit } : Impl κ).pending = ∅ := by
  simp [pending, Waits]

lemma cancelAs_none (h : Good s) {id : Nat} (hn : ∀ a ∈ s.pending, a.id ≠ id) :
    s.cancelAs id = (false, s, []) := by
  rcases cancelAs_spec h id with ⟨a, ha, he, -⟩ | ⟨-, heq⟩
  · exact absurd he (hn a ha)
  · exact heq

lemma Good.cancels (h : Good s) : s.Cancels := by
  intro id
  refine ⟨?_, cancelAs_pending h id, ?_⟩
  all_goals rcases cancelAs_spec h id with ⟨a, ha, he, hfound, hlog, -⟩ | ⟨hnone, heq⟩
  · exact ⟨fun _ => ⟨a, ha, he⟩, fun _ => hfound⟩
  · rw [heq]
    exact ⟨nofun, fun ⟨a, ha, he⟩ => absurd he (hnone a ha)⟩
  · exact fun _ => hlog
  · rw [heq]
    exact nofun

lemma history_booked (behave : κ → σ → Program σ κ) (limit : Nat) (calls : List (Call σ κ)) :
    let last := Impl.history behave { maximumSameTimeEvents := limit } calls
    Booked last.2 last.1 := by
  intro last
  obtain ⟨hgood, hrun, -⟩ := history_kept behave (good_empty limit) calls
  have hsound : Tickets.Sound Slot.id ({ maximumSameTimeEvents := limit } : Impl κ).office :=
    (good_empty limit).sound
  have hwaits : ∀ a, a ∈ last.1.pending ↔
      .issue a ∈ last.2 ∧ .withdraw a.id ∉ last.2 ∧ .use a ∉ last.2 := by
    intro a
    have := hrun.out_iff hsound (a := a)
    simpa [office, pending_empty] using this
  refine ⟨hrun.used_nodup hsound, ?_, hwaits, ?_, hgood.cancels⟩
  · intro a hw hu
    exact (hrun.of_used hsound hu).2 hw
  · intro a ha
    refine cancelAs_none hgood ?_
    intro b hb he
    obtain ⟨hissue, hnot, hunused⟩ := (hwaits b).mp hb
    rcases ha with hu | hw
    · exact hrun.used_gone hsound hu b hb he
    · exact hnot (he ▸ hw)

/-- A run over all events that did not stop at the limit has run exactly what was
due and not cancelled, in order. -/
lemma Finished.dispatched (h : Good s)
    (hf : Finished .all deadline s log result s') (hlimit : result.sameTimeLimitHit = false) :
    Dispatched deadline s s' log := by
  have hrest : ∀ a ∈ s'.pending, deadline < a.due := fun a ha => hf.settled hlimit a ha trivial
  refine ⟨hf.progress.order, ?_, hrest⟩
  intro a
  constructor
  · intro hu
    obtain ⟨hfrom, hnot⟩ := hf.progress.run.of_used h.sound hu
    exact ⟨hfrom, (hf.progress.mine a (mem_used.mpr hu)).2, hnot⟩
  · rintro ⟨hfrom, hdue, hnot⟩
    by_contra hu
    have hleft := (hf.progress.run.out_iff h.sound).mpr ⟨hfrom, hnot, hu⟩
    exact absurd (hrest a hleft) (Nat.not_lt.mpr hdue)

/-- Events run in the order of time and scheduling, each at most once, and never
after they were cancelled. This holds after every history of calls, and a run
over all events that comes next runs exactly the events that are due. A callback
that cancels finds a store in order as well, and takes out what waits there. -/
theorem events_run_once_and_in_order (behave : κ → σ → Program σ κ) (limit : Nat)
    (calls : List (Call σ κ)) :
    let last := Impl.history behave { maximumSameTimeEvents := limit } calls
    Booked last.2 last.1 ∧
      (∀ (state : σ) (deadline : Nat), last.1.sharedNow ≤ deadline →
        ∃ result state' s' log,
          last.1.runDueEvents behave deadline state = some (result, state', s', log) ∧
            (result.sameTimeLimitHit = false → Dispatched deadline last.1 s' log)) ∧
      ∀ (s : Impl κ) (program : Program σ κ), Good s →
        s.Cancels ∧ Good (s.perform program).2.1 := by
  intro last
  refine ⟨history_booked behave limit calls, ?_,
    fun s program h => ⟨h.cancels, (perform_effect h program).good⟩⟩
  intro state deadline hle
  have hkept := history_kept behave (good_empty limit) calls
  obtain ⟨result, state', s', log, heq, hf, -⟩ :=
    runDueEvents_spec behave hkept.good hkept.grows.domain hle state
  exact ⟨result, state', s', log, heq, hf.dispatched hkept.good⟩

/-- Callbacks for a small history: one that schedules another event at its own
time and cancels the event with id 3, and one that does nothing. -/
def chainBehave : Bool → Unit → Program Unit Bool
  | true, _ => .schedule 1 20 false false fun _ => .cancel 3 fun _ => .done ()
  | false, _ => .done ()

/-- Three events, one of them cancelled by the first callback. -/
def chainCalls : List (Call Unit Bool) :=
  [.schedule 0 10 true false, .schedule 1 20 false false, .schedule 2 20 false true,
    .cancel 7, .runOwnedEvents () 2 5]

theorem a_chain_runs_once_and_in_order :
    let last := Impl.history chainBehave { maximumSameTimeEvents := 4 } chainCalls
    ∃ result state' s' log,
      last.1.runDueEvents chainBehave 30 () = some (result, state', s', log) ∧
        (Tickets.used log).map Slot.id = [1, 2, 4] ∧ Dispatched 30 last.1 s' log := by
  obtain ⟨result, state', s', log, heq, hd⟩ :=
    (events_run_once_and_in_order chainBehave 4 chainCalls).2.1 () 30 (by decide)
  have hres : ((Impl.history chainBehave { maximumSameTimeEvents := 4 } chainCalls).1.runDueEvents
      chainBehave 30 ()).map (fun r => (r.1.sameTimeLimitHit, (Tickets.used r.2.2.2).map Slot.id)) =
        some (false, [1, 2, 4]) := by
    decide
  rw [heq] at hres
  obtain ⟨hlimit, hids⟩ : result.sameTimeLimitHit = false ∧
      (Tickets.used log).map Slot.id = [1, 2, 4] := by simpa using hres
  exact ⟨result, state', s', log, heq, hids, hd hlimit⟩

/-! ## Storms -/

/-- What a run of a scope leaves: no time has had more callbacks than the limit, the events
that did not run and were not cancelled wait as before, and if the limit was not hit nothing
is left to do. -/
structure StormCut (scope : Scope) (deadline : Nat) (before : Impl κ)
    (log : List (Happening κ)) (result : EventRunResult) (after : Impl κ) : Prop
    extends Cut scope before.maximumSameTimeEvents log result after where
  waits : ∀ a, a ∈ after.pending ↔
    (a ∈ before.pending ∨ .issue a ∈ log) ∧ .withdraw a.id ∉ log ∧ .use a ∉ log
  settled : result.sameTimeLimitHit = false → ∀ a ∈ after.pending, scope.Wants a → deadline < a.due

lemma Finished.stormCut (h : Good s)
    (hf : Finished scope deadline s log result s')
    (hcut : Cut scope s.maximumSameTimeEvents log result s') :
    StormCut scope deadline s log result s' :=
  ⟨hcut, fun _ => hf.progress.run.out_iff h.sound, hf.settled⟩

end Impl

end Fil.Sim
