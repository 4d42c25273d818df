-- The event store holds nothing twice and loses nothing. Between any two steps of
-- the event loop, in a session or not, every waiting event has one entry in each
-- of its queues that still counts, every other slot is free, and no id was given
-- away twice. A run is cut into its rounds here, so that the calls of its callbacks
-- can come between them.
import Fil.LaneSessions

open List

namespace Fil.Sim

variable {σ κ : Type} {s : Impl κ} {wants : Slot κ → Prop}

namespace Impl

/-! ## What can happen to a store -/

/-- Forgets all events. The slot that `clear` lists last is given away first. -/
def clear (s : Impl κ) : Impl κ :=
  { s with
    events := []
    globallyObservedEvents := []
    ownerEvents := fun _ => []
    liveEvents := []
    slots := s.slots.map fun slot => { slot with state := .free }
    freeSlots := (List.range s.slots.length).reverse }

/-- One step of the work on a store. A run drops dead entries from the front of its
queue (`discard`), takes the front event out and lets its callback act (`dispatch`), goes
on when the callback is back (`returned`), and sets the clock at its end (`settle`). -/
inductive Act (κ : Type)
  | schedule (owner due : Nat) (callback : κ) (guarded : Bool)
  | cancel (id : Nat)
  | discard (scope : Scope)
  | dispatch (scope : Scope)
  | returned (owner : Nat)
  | settle (scope : Scope) (time : Nat)
  | clear

/-- The store with no dead entry at the front of a queue. -/
def discarded (s : Impl κ) (scope : Scope) : Impl κ :=
  s.setQueue scope (discardDeadFront s.slots (s.queue scope))

/-- A round of a run up to its callback, which finds its event gone. -/
def dispatch (s : Impl κ) (scope : Scope) : Impl κ × List (Happening κ) :=
  let s := s.discarded scope
  match s.queue scope with
  | [] => (s, [])
  | entry :: rest =>
    match s.slots[entry.slot]? with
    | none => (s, [])
    | some slot => (s.atEvent scope entry rest slot, [.use slot])

def act (s : Impl κ) : Act κ → Impl κ × List (Happening κ)
  | .schedule owner due callback guarded => (s.scheduleAs owner due callback guarded).2
  | .cancel id => (s.cancelAs id).2
  | .discard scope => (s.discarded scope, [])
  | .dispatch scope => s.dispatch scope
  | .returned owner =>
    ({ s with activeOwner := owner, executedCallbacks := s.executedCallbacks + 1 }, [])
  | .settle scope time => (s.setClock scope time, [])
  | .clear => (s.clear, [])

/-- Steps one after the other. -/
def acts (s : Impl κ) : List (Act κ) → Impl κ × List (Happening κ)
  | [] => (s, [])
  | a :: as =>
    let (s, log) := s.act a
    let (s, rest) := s.acts as
    (s, log ++ rest)

/-! ## The calls of the interface are such steps -/

lemma acts_append (s : Impl κ) (as bs : List (Act κ)) :
    s.acts (as ++ bs) = ((((s.acts as).1).acts bs).1,
      (s.acts as).2 ++ ((s.acts as).1.acts bs).2) := by
  induction as generalizing s with
  | nil => rfl
  | cons a as ih =>
    show ((((s.act a).1.acts (as ++ bs)).1), (s.act a).2 ++ ((s.act a).1.acts (as ++ bs)).2) = _
    rw [ih, ← append_assoc]
    rfl

lemma perform_acts (s : Impl κ) (program : Program σ κ) :
    ∃ as, s.acts as = (s.perform program).2 := by
  induction program generalizing s with
  | done state => exact ⟨[], rfl⟩
  | schedule owner due callback guarded next ih =>
    obtain ⟨as, has⟩ := ih (s.scheduleAs owner due callback guarded).1
      (s.scheduleAs owner due callback guarded).2.1
    refine ⟨.schedule owner due callback guarded :: as, ?_⟩
    show (((s.scheduleAs owner due callback guarded).2.1.acts as).1, _ ++ _) = _
    rw [has]
    rfl
  | cancel id next ih =>
    obtain ⟨as, has⟩ := ih (s.cancelAs id).1 (s.cancelAs id).2.1
    refine ⟨.cancel id :: as, ?_⟩
    show (((s.cancelAs id).2.1.acts as).1, _ ++ _) = _
    rw [has]
    rfl
  | now owner next ih => exact ih (s.now owner) s

variable {s : Impl κ}

lemma Good.discarded (h : Good s) (scope : Scope) : Good (s.discarded scope) :=
  h.setQueue (h.queue scope).discard

lemma slots_discarded (s : Impl κ) (scope : Scope) : (s.discarded scope).slots = s.slots := by
  cases scope <;> rfl

variable {q : List Entry} {scope : Scope} {entry : Entry} {rest : List Entry}

lemma Good.front (h : Good s) (hq : (s.discarded scope).queue scope = entry :: rest) :
    ∃ slot, Waits (s.discarded scope).slots entry.slot slot := by
  rw [slots_discarded]
  obtain ⟨slot, hw, -⟩ := (h.queue scope).front ((queue_setQueue s scope _).symm.trans hq)
  exact ⟨slot, hw⟩

lemma dispatch_eq {slot : Slot κ} (hq : (s.discarded scope).queue scope = entry :: rest)
    (hw : Waits (s.discarded scope).slots entry.slot slot) :
    s.dispatch scope = ((s.discarded scope).atEvent scope entry rest slot, [.use slot]) := by
  unfold dispatch
  dsimp only
  rw [hq]
  dsimp only
  rw [hw.1]

lemma Good.invoke_acts (h : Good s) (behave : κ → σ → Program σ κ)
    (hq : (s.discarded scope).queue scope = entry :: rest) (result : EventRunResult) (state : σ) :
    let after := invoke behave entry result state
      (((s.discarded scope).setQueue scope rest).reachEvent scope entry.due)
    ∃ as, s.acts as = after.2.2 ∧ Good after.2.2.1 := by
  obtain ⟨slot, hw⟩ := h.front hq
  have hround : invoke behave entry result state
      (((s.discarded scope).setQueue scope rest).reachEvent scope entry.due) = _ :=
    invoke_eq behave result state hw
  have hat := ((h.discarded scope).atEvent hq hw).1
  have hcallback := perform_effect hat (behave slot.callback state)
  obtain ⟨calls, hcalls⟩ := perform_acts
    ((s.discarded scope).atEvent scope entry rest slot) (behave slot.callback state)
  rw [hround]
  refine ⟨.dispatch scope :: (calls ++ [.returned (s.discarded scope).activeOwner]), ?_,
    hcallback.good.clocks _ _ _ _⟩
  have hfirst : s.act (.dispatch scope) = _ := dispatch_eq hq hw
  rw [acts, hfirst]
  dsimp only
  rw [acts_append, hcalls]
  refine Prod.ext rfl ?_
  show [Tickets.Act.use slot] ++ (_ ++ ([] ++ [])) = _
  rw [append_nil, append_nil]
  rfl

section

variable (behave : κ → σ → Program σ κ)

/-- A run is a series of rounds, with what the callbacks do in between. The induction is
on the rounds. -/
lemma runLoop_acts (scope : Scope) (deadline fuel : Nat)
    {countedTime eventsAtTime : Nat} {result result' : EventRunResult} {state state' : σ}
    {s' : Impl κ} {done log : List (Happening κ)} (h : Good s)
    (hrun : runLoop behave scope deadline fuel countedTime eventsAtTime result state s done =
      some (result', state', s', log)) :
    ∃ as, (s.acts as).1 = s' ∧ done ++ (s.acts as).2 = log := by
  induction fuel generalizing countedTime eventsAtTime result state s done with
  | zero => exact nomatch hrun
  | succ fuel ih =>
    have hends : ∀ time, (s.discarded scope).setClock scope time = s' → done = log →
        ∃ as, (s.acts as).1 = s' ∧ done ++ (s.acts as).2 = log := by
      intro time hs hlog
      refine ⟨[.discard scope, .settle scope time], hs, ?_⟩
      rw [← hlog]
      exact append_nil done
    change (match (s.discarded scope).queue scope with | [] => _ | entry :: rest => _) = _ at hrun
    split at hrun
    · simp at hrun
      exact hends deadline hrun.2.2.1 hrun.2.2.2
    · rename_i entry _ hq
      dsimp only at hrun
      split at hrun
      · simp at hrun
        exact hends deadline hrun.2.2.1 hrun.2.2.2
      generalize (if decide (eventsAtTime = 0) || decide (entry.due ≠ countedTime) then 0
        else eventsAtTime) = atTime at hrun
      by_cases hfull : (s.discarded scope).maximumSameTimeEvents ≤ atTime
      · change (if (s.discarded scope).maximumSameTimeEvents ≤ atTime then _ else _) = _ at hrun
        rw [if_pos hfull] at hrun
        simp at hrun
        exact hends entry.due hrun.2.2.1 hrun.2.2.2
      change (if (s.discarded scope).maximumSameTimeEvents ≤ atTime then _ else _) = _ at hrun
      rw [if_neg hfull] at hrun
      obtain ⟨round, hround, hgood⟩ := h.invoke_acts behave hq result state
      obtain ⟨later, hstate, hlog⟩ := ih hgood hrun
      refine ⟨round ++ later, ?_, ?_⟩
      · rw [acts_append, hround]
        exact hstate
      · rw [acts_append, hround, ← append_assoc]
        exact hlog

/-- Every call of the interface is a series of such steps. -/
lemma call_acts (h : Good s) (c : Call σ κ) :
    ∃ as, s.acts as = s.call behave c := by
  have hruns : ∀ (scope : Scope) (deadline fuel : Nat) (result : EventRunResult) (state : σ),
      ∃ as, s.acts as = s.afterRun (runLoop behave scope deadline fuel 0 0 result state s []) := by
    intro scope deadline fuel result state
    cases hrun : runLoop behave scope deadline fuel 0 0 result state s [] with
    | none => exact ⟨[], rfl⟩
    | some after =>
      obtain ⟨as, hs, hlog⟩ := runLoop_acts behave scope deadline fuel h hrun
      exact ⟨as, Prod.ext hs hlog⟩
  have howned : ∀ (state : σ) (owner deadline : Nat),
      ∃ as, s.acts as = s.afterRun (s.runOwnedEvents behave owner deadline state) := by
    intro state owner deadline
    unfold runOwnedEvents
    split_ifs
    · exact ⟨[], rfl⟩
    · exact ⟨[], rfl⟩
    · exact hruns ..
  cases c with
  | schedule owner due callback guarded =>
    exact ⟨[.schedule owner due callback guarded], Prod.ext rfl (append_nil _)⟩
  | cancel id => exact ⟨[.cancel id], Prod.ext rfl (append_nil _)⟩
  | runDueEvents state deadline =>
    show ∃ as, s.acts as = s.afterRun (s.runDueEvents behave deadline state)
    unfold runDueEvents
    split_ifs
    · exact ⟨[], rfl⟩
    · exact ⟨[], rfl⟩
    · exact hruns ..
  | runOwnedEvents state owner deadline => exact howned state owner deadline
  | runSharedEvents state deadline => exact howned state sharedEventOwner deadline

/-- **Whatever is called, the store only takes such steps.** A history of calls, with all
that its callbacks call while they run, leaves the store and the log of a series of
steps, one after the other. -/
theorem every_history_is_a_series_of_steps (limit : Nat) (calls : List (Call σ κ)) :
    let start : Impl κ := { maximumSameTimeEvents := limit }
    ∃ as, start.acts as = start.history behave calls := by
  suffices hfrom : ∀ s : Impl κ, Good s → ∃ as, s.acts as = s.history behave calls from
    hfrom _ (good_empty limit)
  induction calls with
  | nil => exact fun s _ => ⟨[], rfl⟩
  | cons c calls ih =>
    intro s h
    obtain ⟨as, has⟩ := call_acts behave h c
    obtain ⟨later, hlater⟩ := ih _ (call_kept behave h c).good
    refine ⟨as ++ later, ?_⟩
    rw [acts_append, has, hlater]
    rfl

end

/-! ## Nothing twice, nothing lost -/

/-- What the books do not say yet: a queue has one entry for an id at most, and a slot
without a waiting event is free. -/
structure Exact (s : Impl κ) : Prop where
  events : (s.events.map Entry.id).Nodup
  observed : (s.globallyObservedEvents.map Entry.id).Nodup
  owners : ∀ o, ((s.ownerEvents o).map Entry.id).Nodup
  free : ∀ i < s.slots.length, (∀ slot, ¬ Waits s.slots i slot) → i ∈ s.freeSlots

lemma exact_empty (limit : Nat) : Exact ({ maximumSameTimeEvents := limit } : Impl κ) :=
  ⟨.nil, .nil, fun _ => .nil, fun _ hi => absurd hi (Nat.not_lt_zero _)⟩

lemma push_once {e : Entry} (h : (q.map Entry.id).Nodup) (hnew : ∀ x ∈ q, x.id ≠ e.id) :
    ((push e q).map Entry.id).Nodup := by
  refine (((perm_orderedInsert _ e q).map Entry.id).nodup_iff).mpr ?_
  refine nodup_cons.mpr ⟨?_, h⟩
  intro hmem
  obtain ⟨x, hx, heq⟩ := mem_map.mp hmem
  exact hnew x hx heq

lemma discardDeadFront_sublist (slots : List (Slot κ)) (q : List Entry) :
    (discardDeadFront slots q).Sublist q :=
  dropWhile_sublist _

lemma QueueOk.new {id : Nat}
    (h : QueueOk s.slots (fun id => ¬ s.Future id) wants q) (hid : s.Future id) :
    ∀ x ∈ q, x.id ≠ id := by
  intro x hx heq
  exact h.old x hx (heq ▸ hid)

lemma Exact.acquireSlot (h : Good s) (he : Exact s) {index : Nat}
    {freeSlots : List Nat} (hacq : s.acquireSlot = (index, freeSlots)) (new : Slot κ) {i : Nat}
    (hi : i < (putSlot s.slots index new).length) (hne : i ≠ index)
    (hnone : ∀ slot, ¬ Waits s.slots i slot) : i ∈ freeSlots := by
  unfold Impl.acquireSlot at hacq
  have hfree := he.free i
  have hin := h.free
  cases hf : s.freeSlots with
  | nil =>
    rw [hf] at hacq hfree
    obtain ⟨rfl, rfl⟩ : s.slots.length = index ∧ [] = freeSlots := by simpa using hacq
    unfold putSlot at hi
    rw [if_neg (Nat.lt_irrefl _), length_append, length_singleton] at hi
    exact hfree (by omega) hnone
  | cons first rest =>
    rw [hf] at hacq hfree hin
    obtain ⟨rfl, rfl⟩ : first = index ∧ rest = freeSlots := by simpa using hacq
    unfold putSlot at hi
    rw [if_pos (hin first mem_cons_self).1, length_set] at hi
    exact (mem_cons.mp (hfree hi hnone)).resolve_left hne

lemma Exact.enqueue {s₁ : Impl κ} {id : Nat} (h : Good s) (he : Exact s)
    (hid : s.allocateId = some (id, s₁)) (new : Slot κ) (hnew : new.id = id)
    (hq : new.state = .queued) : Exact (s₁.enqueue new) := by
  obtain ⟨-, hfut, -, -, n, l, rfl, -⟩ := allocateId_spec hid
  subst hnew
  set s₁ : Impl κ := { s with nextId := n, laneNextId := l } with hs₁
  rcases hacq : s₁.acquireSlot with ⟨index, freeSlots⟩
  obtain ⟨hi, -⟩ := h.acquireSlot hacq
  unfold Impl.enqueue
  rw [hacq]
  refine ⟨push_once he.events (QueueOk.new h.events hfut), ?_, ?_, ?_⟩
  · split_ifs
    · exact push_once he.observed (QueueOk.new h.observed hfut)
    · exact he.observed
  · intro o
    dsimp only
    rw [Function.update_apply]
    split_ifs with ho
    · have hsub := discardDeadFront_sublist (putSlot s₁.slots index new) (s.ownerEvents new.owner)
      refine push_once ((he.owners new.owner).sublist (hsub.map _)) ?_
      intro x hx
      exact QueueOk.new (h.owners new.owner) hfut x (hsub.subset hx)
    · exact he.owners o
  · intro i hlt hnone
    have hne : i ≠ index := by
      rintro rfl
      exact hnone new ((waits_putSlot hi hq).mpr (.inl ⟨rfl, rfl⟩))
    refine Exact.acquireSlot h he hacq new hlt hne ?_
    intro slot hw
    exact hnone slot ((waits_putSlot hi hq).mpr (.inr ⟨hne, hw⟩))

section

variable (he : Exact s)
include he

lemma Exact.clocks (sharedNow activeOwner executedCallbacks : Nat)
    (ownerNow : Nat → Option Nat) :
    Exact { s with sharedNow, ownerNow, activeOwner, executedCallbacks } :=
  ⟨he.events, he.observed, he.owners, he.free⟩

/-- An event that leaves gives its slot back, and the queues only lose entries. -/
lemma Exact.leave (index id : Nat) {events observed : List Entry}
    {ownerEvents : Nat → List Entry} (hevents : events.Sublist s.events)
    (hobserved : observed.Sublist s.globallyObservedEvents)
    (howners : ∀ o, (ownerEvents o).Sublist (s.ownerEvents o)) :
    Exact (s.leave index id events observed ownerEvents) := by
  refine ⟨he.events.sublist (hevents.map _), he.observed.sublist (hobserved.map _),
    fun o => (he.owners o).sublist ((howners o).map _), ?_⟩
  intro i hlt hnone
  change i < (s.slots.modify index _).length at hlt
  rw [length_modify] at hlt
  by_cases hi : i = index
  · exact hi ▸ mem_cons_self
  refine mem_cons_of_mem _ (he.free i hlt ?_)
  intro slot hw
  exact hnone slot (waits_release.mpr ⟨hi, hw⟩)

lemma Exact.setQueue (hq : q.Sublist (s.queue scope)) :
    Exact (s.setQueue scope q) := by
  cases scope with
  | all => exact ⟨he.events.sublist (hq.map _), he.observed, he.owners, he.free⟩
  | owner o =>
    refine ⟨he.events, he.observed, ?_, he.free⟩
    intro o'
    rw [ownerEvents_setQueue]
    split_ifs with ho
    · subst ho
      exact (he.owners o').sublist (hq.map _)
    · exact he.owners o'

lemma Exact.discarded (scope : Scope) : Exact (s.discarded scope) :=
  he.setQueue (discardDeadFront_sublist s.slots (s.queue scope))

lemma Exact.atEvent (slot : Slot κ) (hq : s.queue scope = entry :: rest) :
    Exact (s.atEvent scope entry rest slot) := by
  obtain ⟨sharedNow, ownerNow, heq⟩ := atEvent_eq s scope entry rest slot
  have hrest : rest.Sublist (s.queue scope) := hq ▸ sublist_cons_self entry rest
  rw [heq]
  refine Exact.clocks (.leave he _ _ ?_ (discardDeadFront_sublist _ _) ?_) _ _ _ _
  · cases scope with
    | all => exact hrest
    | owner o => exact .refl _
  · intro o
    cases scope with
    | all => exact .refl _
    | owner o' =>
      rw [ownerEvents_setQueue]
      split_ifs with ho
      · subst ho
        exact hrest
      · exact .refl _

end

lemma Exact.schedule (h : Good s) (he : Exact s) (owner due : Nat) (callback : κ)
    (guarded : Bool) : Exact (s.scheduleAs owner due callback guarded).2.1 := by
  unfold scheduleAs Impl.schedule
  set s₀ : Impl κ := { s with activeOwner := owner }
  have hgood : Good s₀ := h.clocks s.sharedNow owner s.executedCallbacks s.ownerNow
  have hexact : Exact s₀ := he.clocks s.sharedNow owner s.executedCallbacks s.ownerNow
  split_ifs
  · exact he
  · exact he
  cases hid : s₀.allocateId with
  | none => exact he
  | some p =>
    exact (Exact.enqueue hgood hexact hid (p.2.newSlot p.1 due callback guarded) rfl rfl).clocks
      _ s.activeOwner _ _

lemma Exact.cancel (he : Exact s) (id : Nat) : Exact (s.cancelAs id).2.1 := by
  have hless : Exact { s with liveEvents := s.liveEvents.filter fun e => e.1 ≠ id } :=
    ⟨he.events, he.observed, he.owners, he.free⟩
  have hleft : ∀ index, Exact (s.leave index id s.events (discardDeadFront
      (s.releaseSlot index).slots s.globallyObservedEvents) s.ownerEvents) := fun index =>
    he.leave index id (.refl _) (discardDeadFront_sublist _ _) fun _ => .refl _
  have hcancel : Exact (s.cancelId id).2 := by
    unfold cancelId
    split_ifs
    · exact he
    cases s.liveEvents.lookup id with
    | none => exact he
    | some index =>
      dsimp only
      cases s.slots[index]? with
      | none => exact hless
      | some slot =>
        dsimp only
        split_ifs
        · exact hless
        · exact hleft index
  unfold cancelAs
  split <;> rename_i heq <;> rw [heq] at hcancel <;> exact hcancel

/-! ## Forgetting all events -/

lemma not_waits_clear (s : Impl κ) (i : Nat) (slot : Slot κ) : ¬ Waits s.clear.slots i slot := by
  rintro ⟨hget, hstate⟩
  obtain ⟨a, -, rfl⟩ := mem_map.mp (mem_of_getElem? hget)
  cases hstate

lemma exact_clear (s : Impl κ) : Exact s.clear := by
  refine ⟨.nil, .nil, fun _ => .nil, ?_⟩
  intro i hlt _
  change i < (s.slots.map _).length at hlt
  rw [length_map] at hlt
  exact mem_reverse.mpr (mem_range.mpr hlt)

lemma good_clear (s : Impl κ) : Good s.clear := by
  refine .of_idle (not_waits_clear s) rfl (fun i hi => ?_)
    (List.nodup_reverse.mpr nodup_range) rfl rfl fun _ => rfl
  show i < (s.slots.map _).length
  rw [length_map]
  exact mem_range.mp (mem_reverse.mp hi)

/-! ## Steps keep the store exact -/

lemma act_exact (h : Good s) (he : Exact s) (a : Act κ) : Exact (s.act a).1 := by
  cases a with
  | schedule owner due callback guarded => exact .schedule h he owner due callback guarded
  | cancel id => exact he.cancel id
  | discard scope => exact he.discarded scope
  | dispatch scope =>
    show Exact (s.dispatch scope).1
    unfold dispatch
    dsimp only
    cases hq : (s.discarded scope).queue scope with
    | nil => exact he.discarded scope
    | cons entry rest =>
      dsimp only
      cases (s.discarded scope).slots[entry.slot]? with
      | none => exact he.discarded scope
      | some slot => exact (he.discarded scope).atEvent slot hq
  | returned owner => exact he.clocks s.sharedNow owner (s.executedCallbacks + 1) s.ownerNow
  | settle scope time =>
    cases scope with
    | all => exact he.clocks time s.activeOwner s.executedCallbacks s.ownerNow
    | owner o =>
      obtain ⟨sharedNow, ownerNow, heq⟩ := setTime_eq s o time
      show Exact (s.setTime o time)
      rw [heq]
      exact he.clocks sharedNow s.activeOwner s.executedCallbacks ownerNow
  | clear => exact exact_clear s

/-- Everything but `clear` is told by the log. -/
lemma act_kept (h : Good s) {a : Act κ} (ha : a ≠ .clear) : Kept s (s.act a).2 (s.act a).1 := by
  have hsame : ∀ s' : Impl κ, Good s' → s'.office = s.office → Grows s [] s' → Kept s [] s' :=
    fun s' hgood hoffice hgrows => ⟨hgood, hoffice ▸ .nil, hgrows⟩
  have hdiscard : ∀ scope, Kept s [] (s.discarded scope) := by
    intro scope
    refine hsame _ (h.discarded scope) ?_ ?_
    · cases scope <;> rfl
    · cases scope <;> exact ⟨rfl, rfl, fun _ => ⟨rfl, id⟩, rfl, rfl, rfl, rfl⟩
  cases a with
  | schedule owner due callback guarded =>
    exact (scheduleAs_effect h owner due callback guarded).kept
  | cancel id => exact (cancelAs_effect h id).kept
  | discard scope => exact hdiscard scope
  | dispatch scope =>
    show Kept s (s.dispatch scope).2 (s.dispatch scope).1
    cases hq : (s.discarded scope).queue scope with
    | nil =>
      have hnothing : s.dispatch scope = (s.discarded scope, []) := by
        unfold dispatch
        dsimp only
        rw [hq]
      rw [hnothing]
      exact hdiscard scope
    | cons entry rest =>
      obtain ⟨slot, hw⟩ := h.front hq
      obtain ⟨hgood, hoffice, hgrows⟩ := (h.discarded scope).atEvent hq hw
      rw [dispatch_eq hq hw]
      refine (hdiscard scope).trans ⟨hgood, .single ?_, hgrows.numbers, hgrows.next,
        hgrows.laneIds, hgrows.domain, hgrows.owner, hgrows.lanes, hgrows.limit⟩
      rw [hoffice]
      exact .use ⟨entry.slot, hw⟩
  | returned owner =>
    exact hsame _ (h.clocks s.sharedNow owner (s.executedCallbacks + 1) s.ownerNow) rfl
      ⟨rfl, rfl, fun _ => ⟨rfl, id⟩, rfl, rfl, rfl, rfl⟩
  | settle scope time =>
    obtain ⟨hgood, hoffice⟩ := h.setClock scope time
    exact hsame _ hgood hoffice (setClock_grows s scope time)
  | clear => exact absurd rfl ha

/-! ## Moving events -/

lemma queueOf_once {live : List (Nat × Slot κ)} (h : (live.map fun e => e.2.id).Nodup) :
    ((queueOf live).map Entry.id).Nodup := by
  have hperm : ∀ q : List Entry, (live.foldl (fun q e => push (e.2.entry e.1) q) q).Perm
      (live.map (fun e => e.2.entry e.1) ++ q) := by
    induction live with
    | nil => exact fun q => .refl q
    | cons e live ih =>
      intro q
      have hrest := ih (nodup_cons.mp h).2 (push (e.2.entry e.1) q)
      refine hrest.trans ?_
      have hpush : (push (e.2.entry e.1) q).Perm (e.2.entry e.1 :: q) :=
        perm_orderedInsert _ _ q
      exact (hpush.append_left _).trans perm_middle
  refine (((hperm []).map Entry.id).nodup_iff).mpr ?_
  rw [append_nil, map_map]
  exact h

lemma exact_fill {slots : List (Slot κ)} (h : Fits s slots) : Exact (s.fill slots) := by
  have hids : ((s.fill slots).liveEntries.map fun e => e.2.id).Nodup := by
    have heq : (s.fill slots).liveEntries.map (fun e => e.2.id) =
        (s.fill slots).liveSlots.map Slot.id := by
      unfold liveSlots
      rw [map_map]
      rfl
    rw [heq, liveSlots_fill h.queued]
    exact h.ids
  have hsome : ∀ p : Nat × Slot κ → Bool,
      (((s.fill slots).liveEntries.filter p).map fun e => e.2.id).Nodup := fun p =>
    hids.sublist (filter_sublist.map _)
  refine ⟨queueOf_once hids, queueOf_once (hsome _), fun o => queueOf_once (hsome _), ?_⟩
  intro i hlt hnone
  have hget : slots[i]? = some (slots.get ⟨i, hlt⟩) := getElem?_eq_getElem hlt
  exact absurd ⟨hget, h.queued _ (mem_of_getElem? hget)⟩ (hnone _)

end Impl

namespace Session

variable {n m : Nat}

/-! ## What can happen to an event loop -/

/-- The coordinator forgets all events, those of the lanes too. -/
def clear (S : Session κ n) : Session κ n := { S with domain := fun d => (S.domain d).clear }

/-- The coordinator looks for an event in all stores. -/
def cancelAnywhere (S : Session κ n) (id : Nat) : Session κ n × Log κ n :=
  S.cancelIn id (none :: (List.finRange n).map some)

/-- One step of an event loop; outside of a session it is a session without lanes. A lane
works on its own store, the coordinator on the root and, while the lanes are parked, on
the store of each owner. The log tells which events came and went. The checks that refuse
a call are left out, so that there are more runs here than in the source. -/
inductive Step : (n m : Nat) → Session κ n → List (Happening κ) → Session κ m → Prop
  | act {n : Nat} (S : Session κ n) (d : Option (Fin n)) (a : Impl.Act κ) :
      Step n n S ((S.domain d).act a).2 (S.put d ((S.domain d).act a).1)
  | sync {n : Nat} (S : Session κ n) (d : Option (Fin n)) : Step n n S [] (S.put d (S.synced d))
  | cancel {n : Nat} (S : Session κ n) (id : Nat) :
      Step n n S ((S.cancelAnywhere id).2.map Prod.snd) (S.cancelAnywhere id).1
  | settle {n : Nat} (S : Session κ n) (owner time : Nat) :
      Step n n S [] (S.settleClock owner time)
  | clear {n : Nat} (S : Session κ n) : Step n n S [] S.clear
  | opens {n : Nat} (S : Session κ 0) (T : Session κ n)
      (opened : (S.domain none).beginLaneDomains n = some T) : Step 0 n S [] T
  | closes {n : Nat} (S : Session κ n) (inSession : 0 < n) :
      Step n 0 S [] (alone S.finishLaneDomains)

/-- The event loops that a new one can become, with the ids that were handed out so far. -/
inductive Reaches : (n : Nat) → Session κ n → List Nat → Prop
  | new (limit : Nat) : Reaches 0 (alone { maximumSameTimeEvents := limit }) []
  | step {n m : Nat} {S : Session κ n} {T : Session κ m} {ids : List Nat}
      {log : List (Happening κ)} (before : Reaches n S ids) (next : Step n m S log T) :
      Reaches m T (ids ++ (Tickets.issued log).map Slot.id)

/-! ## Steps keep the loop exact -/

structure Exact (S : Session κ n) : Prop where
  books : Good S
  exact : ∀ d, (S.domain d).Exact

/-- What a step does to the ids: those it hands out were never handed out and never will
be, and none comes back. -/
structure HandsOut (S : Session κ n) (ids : List Nat) (T : Session κ m) : Prop where
  fresh : ∀ id ∈ ids, S.Future id
  gone : ∀ id ∈ ids, ¬ T.Future id
  once : ids.Nodup
  less : ∀ id, T.Future id → S.Future id

variable {S : Session κ n}

lemma handsOut_nothing {T : Session κ m}
    (h : ∀ id, T.Future id → S.Future id) : HandsOut S [] T :=
  ⟨by simp, by simp, .nil, h⟩

variable {T S : Session κ n}

lemma Kept.handsOut {log : Log κ n} (h : Kept S log T) :
    HandsOut S ((Tickets.issued (log.map Prod.snd)).map Slot.id) T := by
  have hmem : ∀ id ∈ (Tickets.issued (log.map Prod.snd)).map Slot.id,
      ∃ a : Slot κ, .issue a ∈ log.map Prod.snd ∧ a.id = id := by
    intro id hid
    obtain ⟨a, ha, heq⟩ := mem_map.mp hid
    exact ⟨a, Tickets.mem_issued.mp ha, heq⟩
  refine ⟨?_, ?_, h.run.issued_nodup, ?_⟩
  · intro id hid
    obtain ⟨a, ha, rfl⟩ := hmem id hid
    exact not_not.mp (h.run.issued_once ha).1
  · intro id hid
    obtain ⟨a, ha, rfl⟩ := hmem id hid
    exact (h.run.issued_once ha).2
  · intro id hid
    by_contra hnot
    exact h.run.given_mono hnot hid

lemma Exact.put (h : Exact S) {d : Option (Fin n)}
    (hgood : Good (S.put d s)) (hs : s.Exact) : Exact (S.put d s) := by
  refine ⟨hgood, ?_⟩
  intro e
  by_cases he : e = d
  · subst he
    rw [put_domain_self]
    exact hs
  · rw [put_domain_ne S he]
    exact h.exact e

lemma future_of_counters
    (h : ∀ d id, (T.domain d).Future id ↔ (S.domain d).Future id)
    (hlanes : (T.domain none).nextLaneIds = (S.domain none).nextLaneIds) (id : Nat) :
    T.Future id ↔ S.Future id := by
  unfold Future
  rw [hlanes]
  simp only [h]

/-- Stores that forget their events give no id back. -/
lemma Good.forget (h : Good S)
    (hdomain : ∀ d, T.domain d = S.domain d ∨ T.domain d = (S.domain d).clear) :
    Good T ∧ ∀ id, T.Future id ↔ S.Future id := by
  have hfuture : ∀ id, T.Future id ↔ S.Future id := by
    refine future_of_counters ?_ ?_
    · intro d id
      rcases hdomain d with hd | hd <;> rw [hd]
      exact Iff.rfl
    · rcases hdomain none with hd | hd <;> rw [hd]
      rfl
  have hpending : ∀ d, ∀ a ∈ (T.domain d).pending, a ∈ (S.domain d).pending := by
    intro d a ha
    rcases hdomain d with hd | hd
    · rwa [hd] at ha
    rw [hd] at ha
    obtain ⟨i, hw⟩ := ha
    exact absurd hw (Impl.not_waits_clear _ i a)
  refine ⟨?_, hfuture⟩
  exact
    { good := by
        intro d
        rcases hdomain d with hd | hd <;> rw [hd]
        · exact h.good d
        · exact Impl.good_clear _
      root := by
        rcases hdomain none with hd | hd <;> rw [hd]
        · exact h.root
        · exact h.root
      lane := by
        intro k
        rcases hdomain (some k) with hd | hd <;> rw [hd]
        · exact h.lane k
        · exact h.lane k
      absent := by
        rcases hdomain none with hd | hd <;> rw [hd]
        · exact h.absent
        · exact h.absent
      given := fun d a ha hf => h.given d a (hpending d a ha) ((hfuture a.id).mp hf)
      apart := fun d e a ha b hb => h.apart d e a (hpending d a ha) b (hpending e b hb) }

lemma act_handsOut (h : Exact S) (d : Option (Fin n)) (a : Impl.Act κ) :
    let after := (S.domain d).act a
    Exact (S.put d after.1) ∧
      HandsOut S ((Tickets.issued after.2).map Slot.id) (S.put d after.1) := by
  have hexact := Impl.act_exact (h.books.good d) (h.exact d) a
  by_cases ha : a = .clear
  · subst ha
    obtain ⟨hgood, hfuture⟩ := h.books.forget (T := S.put d (S.domain d).clear) fun e => by
      by_cases he : e = d
      · subst he
        exact .inr (put_domain_self ..)
      · exact .inl (put_domain_ne S he _)
    exact ⟨h.put hgood hexact, handsOut_nothing fun id => (hfuture id).mp⟩
  · have hkept := Kept.put h.books (Impl.act_kept (h.books.good d) ha)
    refine ⟨h.put hkept.good hexact, ?_⟩
    have hids := hkept.handsOut
    simpa [Function.comp_def] using hids

lemma cancelIn_exact (h : Exact S) (id : Nat) (ds : List (Option (Fin n))) :
    Exact (S.cancelIn id ds).1 := by
  refine ⟨(cancelIn_kept h.books id ds).good, ?_⟩
  induction ds with
  | nil => exact h.exact
  | cons d ds ih =>
    rw [cancelIn]
    rcases Impl.cancelAs_spec (h.books.good d) id with ⟨slot, -, -, hfound, -⟩ | ⟨-, heq⟩
    · simp only [hfound, if_true]
      have hgood := (Kept.put h.books (Impl.cancelAs_effect (h.books.good d) id).kept).good
      exact (h.put hgood ((h.exact d).cancel id)).exact
    simp [heq, put_domain]
    exact ih

lemma synced_exact (h : Exact S) (d : Option (Fin n)) : (S.synced d).Exact := by
  cases d with
  | none => exact h.exact none
  | some k => exact (h.exact (some k)).clocks _ _ _ _

lemma settleClock_exact (h : Exact S) (owner time : Nat) : Exact (S.settleClock owner time) := by
  have hgood := (settleClock_kept h.books owner time).good
  have hroot : ((S.domain none).setTime owner time).Exact := by
    obtain ⟨sharedNow, ownerNow, heq⟩ := Impl.setTime_eq (S.domain none) owner time
    rw [heq]
    exact (h.exact none).clocks _ _ _ _
  refine ⟨hgood, ?_⟩
  unfold settleClock
  by_cases ho : owner = sharedEventOwner
  · simp only [ho, if_true] at hroot ⊢
    intro d
    cases d with
    | none => exact hroot
    | some k => exact (h.exact (some k)).clocks _ _ _ _
  · simp only [ho, if_false]
    intro d
    by_cases hd : d = none
    · subst hd
      exact hroot
    · rw [put_domain_ne S hd]
      exact h.exact d

lemma Good.rested {S : Session κ 0} (h : Good S) : (S.domain none).Rested := by
  have heq : ∀ d, (alone (S.domain none)).domain d = S.domain d := by
    rintro (_ | k)
    · rfl
    · exact k.elim0
  exact ⟨fun _ => h.good none, h.root, fun k => k.elim0, h.absent, fun _ a ha hf => by
    refine h.given none a ha ?_
    unfold Future at hf ⊢
    simpa only [heq] using hf, by
    rintro (_ | k) (_ | j)
    · exact fun _ _ _ _ _ => rfl
    · exact j.elim0
    · exact k.elim0
    · exact k.elim0⟩

lemma opens_exact {S : Session κ 0} (h : Exact S)
    (hb : (S.domain none).beginLaneDomains n = some T) :
    Exact T ∧ ∀ id, T.Future id → S.Future id := by
  have hrested := h.books.rested
  obtain ⟨-, -, -, -, hroot, hlane⟩ := beginLaneDomains_some hb
  refine ⟨⟨begin_good hrested hb, ?_⟩, ?_⟩
  · intro d
    cases d with
    | none =>
      rw [hroot]
      exact Impl.exact_fill (fits_root hrested n)
    | some k =>
      rw [hlane]
      exact Impl.exact_fill (fits_lane hrested rfl rfl rfl (Nat.le_add_right _ _))
  · rintro id (⟨d, hf⟩ | ⟨k, -, hf⟩)
    · cases d with
      | none =>
        rw [hroot] at hf
        exact .inl ⟨none, hf⟩
      | some k =>
        rw [hlane] at hf
        exact .inr ⟨k, Nat.zero_le _, hf⟩
    · rw [hroot] at hf
      exact .inr ⟨k, Nat.zero_le _, hf⟩

lemma closes_exact (h : Exact S) :
    Exact (alone S.finishLaneDomains) ∧
      ∀ id, (alone S.finishLaneDomains).Future id → S.Future id := by
  refine ⟨⟨finish_rested h.books, fun _ => ?_⟩, ?_⟩
  · exact Impl.exact_fill (fits_merged h.books _ (fun _ hf => hf) rfl)
  · rintro id (⟨_, hf⟩ | ⟨k, -, hf⟩)
    · exact .inl ⟨none, hf⟩
    · change Impl.LaneFuture k (S.ownersView Impl.laneNextId (S.domain none).nextLaneIds k) id at hf
      unfold ownersView at hf
      split_ifs at hf with hk
      · exact .inl ⟨some ⟨k, hk⟩, (h.books.future_lane ⟨k, hk⟩ id).mpr hf⟩
      · exact .inr ⟨k, Nat.not_lt.mp hk, hf⟩

lemma Step.keeps {T : Session κ m} {log : List (Happening κ)}
    (hstep : Step n m S log T) (h : Exact S) :
    Exact T ∧ HandsOut S ((Tickets.issued log).map Slot.id) T := by
  cases hstep with
  | act _ d a => exact act_handsOut h d a
  | sync _ d =>
    have hkept := Kept.put h.books (synced_kept h.books d)
    exact ⟨h.put hkept.good (synced_exact h d), hkept.handsOut⟩
  | cancel _ id =>
    exact ⟨cancelIn_exact h id _, (cancelIn_kept h.books id _).handsOut⟩
  | settle _ owner time =>
    exact ⟨settleClock_exact h owner time, (settleClock_kept h.books owner time).handsOut⟩
  | clear =>
    obtain ⟨hgood, hfuture⟩ := h.books.forget (T := S.clear) fun d => .inr rfl
    exact ⟨⟨hgood, fun d => Impl.exact_clear _⟩, handsOut_nothing fun id => (hfuture id).mp⟩
  | opens _ _ opened =>
    obtain ⟨hexact, hless⟩ := opens_exact h opened
    exact ⟨hexact, handsOut_nothing hless⟩
  | closes =>
    obtain ⟨hexact, hless⟩ := closes_exact h
    exact ⟨hexact, handsOut_nothing hless⟩

/-- What every run keeps: the stores are exact, and the ids handed out so far are all
different and will not be handed out again. -/
lemma Reaches.keeps {ids : List Nat} (h : Reaches n S ids) :
    Exact S ∧ ids.Nodup ∧ ∀ id ∈ ids, ¬ S.Future id := by
  induction h with
  | new limit =>
    exact ⟨⟨Impl.rested_empty limit, fun _ => Impl.exact_empty limit⟩, .nil, by simp⟩
  | step before next ih =>
    obtain ⟨hexact, honce, hgone⟩ := ih
    obtain ⟨hexact', hout⟩ := next.keeps hexact
    refine ⟨hexact', ?_, ?_⟩
    · refine honce.append hout.once ?_
      intro id hold hnew
      exact hgone id hold (hout.fresh id hnew)
    · intro id hid hf
      rcases mem_append.mp hid with hid | hid
      · exact hgone id hid (hout.less id hf)
      · exact hout.gone id hid hf

end Session

/-! ## The representation of the events -/

namespace Impl

/-- The entries of a queue that still count and point to slot `i`. -/
def current (s : Impl κ) (i : Nat) (q : List Entry) : List Entry :=
  q.filter fun e => entryLive s.slots e && e.slot = i

structure Represents (s : Impl κ) : Prop where
  /-- A live id has one slot, and that slot is queued under this id and no other is. -/
  live : ∀ id ∈ s.liveEvents.map Prod.fst, ∃ i slot, (∀ j, (id, j) ∈ s.liveEvents ↔ j = i) ∧
    ∀ j other, (Waits s.slots j other ∧ other.id = id) ↔ j = i ∧ other = slot
  /-- A queued slot has a live id. -/
  queued : ∀ i slot, Waits s.slots i slot → (slot.id, i) ∈ s.liveEvents
  /-- A queued slot has one entry that counts in each of its queues, with its own time,
  number and id. -/
  entries : ∀ i slot, Waits s.slots i slot →
    s.current i s.events = [slot.entry i] ∧
    (∀ o, s.current i (s.ownerEvents o) = if slot.owner = o then [slot.entry i] else []) ∧
    s.current i s.globallyObservedEvents = if slot.globallyObserved then [slot.entry i] else []
  /-- The free slots are those that are not queued, each listed once. -/
  free : s.freeSlots.Nodup ∧
    ∀ i, i ∈ s.freeSlots ↔ i < s.slots.length ∧ ∀ slot, ¬ Waits s.slots i slot
  /-- The numbers of queued slots are different and below the next one. -/
  numbers : (∀ i j a b, Waits s.slots i a → Waits s.slots j b → a.sequence = b.sequence → i = j) ∧
    ∀ i a, Waits s.slots i a → a.sequence < s.nextSequence

lemma current_eq {old : Nat → Prop} [DecidablePred wants]
    {q : List Entry} (h : QueueOk s.slots old wants q) (honce : (q.map Entry.id).Nodup) {i : Nat}
    {slot : Slot κ} (hw : Waits s.slots i slot) :
    s.current i q = if wants slot then [slot.entry i] else [] := by
  have hall : ∀ e ∈ s.current i q, e = slot.entry i ∧ wants slot := by
    intro e he
    obtain ⟨hmem, hlive⟩ := mem_filter.mp he
    obtain ⟨hcounts, hslot⟩ := (Bool.and_eq_true ..).mp hlive
    obtain rfl : e.slot = i := of_decide_eq_true hslot
    obtain ⟨a, ha, hid⟩ := entryLive_iff.mp hcounts
    obtain rfl := ha.unique hw
    obtain ⟨hentry, hwant⟩ := h.right e hmem a ha hid
    exact ⟨hentry.symm, hwant⟩
  split
  · rename_i hwant
    have hin : slot.entry i ∈ s.current i q := by
      refine mem_filter.mpr ⟨h.holds i slot hw hwant, ?_⟩
      have hlive : entryLive s.slots (slot.entry i) = true := entryLive_iff.mpr ⟨slot, hw, rfl⟩
      rw [hlive]
      exact decide_eq_true rfl
    have hnodup : (s.current i q).Nodup := (List.Nodup.of_map _ honce).sublist filter_sublist
    -- a list of copies of one entry without repetition
    have hcopies := eq_replicate_of_mem fun e he => (hall e he).1
    rw [hcopies] at hnodup hin ⊢
    have hshort := List.nodup_replicate.mp hnodup
    have hsome := length_pos_of_mem hin
    rw [length_replicate] at hsome
    rw [show (s.current i q).length = 1 by omega]
    rfl
  · rename_i hwant
    exact eq_nil_iff_forall_not_mem.mpr fun e he => hwant (hall e he).2

lemma Exact.represents (h : Good s) (he : Exact s) : s.Represents := by
  refine ⟨?_, ?_, ?_, ?_, h.oneSequence, h.sequence⟩
  · intro id hid
    obtain ⟨⟨id, i⟩, hmem, rfl⟩ := mem_map.mp hid
    obtain ⟨slot, hw, heq⟩ := (h.live _ i).mp hmem
    refine ⟨i, slot, ?_, ?_⟩
    · intro j
      rw [h.live]
      constructor
      · rintro ⟨other, hother, hsame⟩
        exact h.oneId j i other slot hother hw (hsame.trans heq.symm)
      · rintro rfl
        exact ⟨slot, hw, heq⟩
    · intro j other
      constructor
      · rintro ⟨hother, hsame⟩
        obtain rfl := h.oneId j i other slot hother hw (hsame.trans heq.symm)
        exact ⟨rfl, hother.unique hw⟩
      · rintro ⟨rfl, rfl⟩
        exact ⟨hw, heq⟩
  · intro i slot hw
    exact (h.live slot.id i).mpr ⟨slot, hw, rfl⟩
  · intro i slot hw
    refine ⟨?_, fun o => current_eq (h.owners o) (he.owners o) hw,
      current_eq h.observed he.observed hw⟩
    exact (current_eq h.events he.events hw).trans (if_pos trivial)
  · refine ⟨h.freeOnce, ?_⟩
    intro i
    exact ⟨h.free i, fun ⟨hlt, hnone⟩ => he.free i hlt hnone⟩

end Impl

namespace Session

variable {n : Nat}

/-- **Every event is stored once.** In every state that an event loop can come to, in a
session or not, each store represents its events: one queued slot for a live id, one
entry that counts in each queue of the slot, all other slots free, and numbers that are
different. No two stores have an event of one id, and no id was ever handed out twice. -/
theorem every_event_is_stored_once {S : Session κ n} {ids : List Nat} (h : Reaches n S ids) :
    (∀ d, (S.domain d).Represents) ∧
    (∀ d e, ∀ a ∈ (S.domain d).pending, ∀ b ∈ (S.domain e).pending, a.id = b.id → d = e) ∧
    ids.Nodup := by
  obtain ⟨hexact, honce, -⟩ := h.keeps
  refine ⟨?_, hexact.books.apart, honce⟩
  intro d
  exact Impl.Exact.represents (hexact.books.good d) (hexact.exact d)

/-- A store with one event of board 0. -/
def oneEvent (s : Impl Unit) : Impl Unit := (s.act (.schedule 0 5 () false)).1

/-- A session in which the lane of board 0 has two events. -/
def busyLane : Session Unit 1 :=
  let S : Session Unit 1 :=
    { laneCounterBaseline := 0
      domain := fun d =>
        match d with
        | none => (oneEvent {}).fill []
        | some k => (oneEvent {}).laneOf k }
  S.put (some (.last 0)) (oneEvent (S.domain (some (.last 0))))

theorem two_events_are_stored_once :
    busyLane.finishLaneDomains.Represents ∧ [1, laneIdMarker + 1].Nodup := by
  have hroot := (Reaches.new 100000).step (.act _ none (.schedule 0 5 () false))
  have hlane := (hroot.step (.opens (n := 1) _ _ rfl)).step
    (.act _ (some 0) (.schedule 0 5 () false))
  have hall := every_event_is_stored_once (hlane.step (.closes _ (by decide)))
  exact ⟨hall.1 none, hall.2.2⟩

end Session

/-! ## When the next event is due -/

namespace Impl

/-- The time at the front of a queue. Dead entries are dropped on the way. -/
def nextScheduledTime (s : Impl κ) (scope : Scope) : Option Nat × Impl κ :=
  let s := s.discarded scope
  ((s.queue scope).head?.map Entry.due, s)

/-- The earliest time of the waiting events that are wanted, if there are any. -/
def Earliest (s : Impl κ) (wants : Slot κ → Prop) : Option Nat → Prop
  | none => ∀ a ∈ s.pending, ¬wants a
  | some time => (∃ a ∈ s.pending, wants a ∧ a.due = time) ∧
      ∀ a ∈ s.pending, wants a → time ≤ a.due

lemma Good.nextScheduledTime {s : Impl κ} (h : Good s) (scope : Scope) :
    s.Earliest scope.Wants (s.nextScheduledTime scope).1 := by
  change s.Earliest _ (((s.discarded scope).queue scope).head?.map Entry.due)
  rw [Impl.discarded, queue_setQueue]
  cases hq : discardDeadFront s.slots (s.queue scope) with
  | nil =>
    rintro a ⟨i, hw⟩
    exact (h.queue scope).none_waits hq hw
  | cons e rest =>
    obtain ⟨slot, hw, hentry, hwant, hfirst⟩ := (h.queue scope).front hq
    refine ⟨⟨slot, ⟨_, hw⟩, hwant, congrArg Entry.due hentry⟩, ?_⟩
    rintro a ⟨i, hwa⟩ hwanta
    rcases hfirst i a hwa hwanta with hlt | heq
    · exact hlt.le
    · exact heq.1.le

/-- **The next time is that of a scan.** After every history of calls, with events
cancelled anywhere in their queues, the answer is the earliest time of the events that
the question is about, and all events go on to wait. -/
theorem the_next_time_is_that_of_a_scan (behave : κ → σ → Program σ κ) (limit : Nat)
    (calls : List (Call σ κ)) (scope : Scope) :
    let s := (Impl.history behave { maximumSameTimeEvents := limit } calls).1
    let asked := s.nextScheduledTime scope
    s.Earliest scope.Wants asked.1 ∧ asked.2.Good ∧ asked.2.pending = s.pending := by
  intro s
  have h : Good s := (history_kept behave (good_empty limit) calls).good
  refine ⟨h.nextScheduledTime scope, h.discarded scope, ?_⟩
  exact congrArg (fun slots => {a | ∃ i, Waits slots i a}) (slots_discarded s scope)

end Impl

end Fil.Sim
