-- The event store keeps its books. Every event that waits has one queued slot
-- and an entry in every queue it belongs to; every entry that still counts
-- tells the truth about its slot. Scheduling, cancelling and running keep that.
import Fil.EventLoop
import Mathlib.Data.List.Pairwise
import Mathlib.Data.List.TakeWhile
import Mathlib.Tactic.SplitIfs

open List

namespace Fil.Sim

variable {σ κ : Type}

/-! ## The order of entries -/

instance : IsTrans Entry Entry.NotAfter where
  trans a b c h1 h2 := by
    unfold Entry.NotAfter at *
    omega

instance : Std.Total Entry.NotAfter where
  total a b := by
    unfold Entry.NotAfter
    omega

variable {e : Entry}

lemma mem_push {x : Entry} {q : List Entry} : x ∈ push e q ↔ x = e ∨ x ∈ q :=
  mem_orderedInsert _

lemma push_sorted {q : List Entry} (h : q.Pairwise Entry.NotAfter) :
    (push e q).Pairwise Entry.NotAfter :=
  h.orderedInsert e q

/-! ## Slots -/

/-- The event in slot `i` waits. -/
def Waits (slots : List (Slot κ)) (i : Nat) (slot : Slot κ) : Prop :=
  slots[i]? = some slot ∧ slot.state = .queued

/-- The entry that a waiting event has in its queues. -/
def Slot.entry (slot : Slot κ) (i : Nat) : Entry := ⟨slot.due, slot.sequence, i, slot.id⟩

variable {slots : List (Slot κ)} {i : Nat}

lemma Waits.unique {a b : Slot κ} (ha : Waits slots i a) (hb : Waits slots i b) : a = b := by
  have := ha.1.symm.trans hb.1
  simpa using this

lemma entryLive_iff :
    Impl.entryLive slots e = true ↔ ∃ slot, Waits slots e.slot slot ∧ slot.id = e.id := by
  unfold Impl.entryLive Waits
  cases slots[e.slot]? with
  | none => simp
  | some slot => simp

variable {index : Nat} {new slot : Slot κ}

lemma waits_putSlot
    (hi : index ≤ slots.length) (hq : new.state = .queued) :
    Waits (Impl.putSlot slots index new) i slot ↔
      (i = index ∧ slot = new) ∨ (i ≠ index ∧ Waits slots i slot) := by
  unfold Waits Impl.putSlot
  by_cases he : i = index
  · subst he
    have hget : (if i < slots.length then slots.set i new else slots ++ [new])[i]? = some new := by
      split_ifs with hlt
      · exact getElem?_set_self hlt
      · obtain rfl : i = slots.length := by omega
        exact getElem?_concat_length
    rw [hget]
    constructor
    · rintro ⟨h, -⟩
      exact .inl ⟨rfl, by simpa using h.symm⟩
    · rintro (⟨-, rfl⟩ | ⟨h, -⟩)
      · exact ⟨rfl, hq⟩
      · exact absurd rfl h
  · simp only [he, false_and, not_false_eq_true, true_and, false_or, ne_eq]
    split_ifs with hlt
    · rw [getElem?_set_ne (Ne.symm he)]
    obtain rfl : index = slots.length := by omega
    rcases Nat.lt_or_ge i slots.length with h | h
    · rw [getElem?_append_left h]
    · rw [getElem?_eq_none (by simp; omega), getElem?_eq_none h]

lemma waits_release :
    Waits (slots.modify index fun s => { s with state := .free }) i slot ↔
      i ≠ index ∧ Waits slots i slot := by
  unfold Waits
  rw [getElem?_modify]
  by_cases he : index = i
  · subst he
    cases slots[index]? with
    | none => simp
    | some x =>
      simp only [if_true, Option.map_eq_map, Option.map_some, Option.some.injEq, ne_eq,
        not_true_eq_false, false_and, iff_false, not_and]
      rintro rfl
      simp
  · simp [he, Ne.symm he]

/-! ## One queue -/

/-- A queue that holds every waiting event it wants, in order, and whose
entries are right about the events that still wait. -/
structure QueueOk (slots : List (Slot κ)) (old : Nat → Prop) (wants : Slot κ → Prop)
    (q : List Entry) : Prop where
  sorted : q.Pairwise Entry.NotAfter
  holds : ∀ i slot, Waits slots i slot → wants slot → slot.entry i ∈ q
  right : ∀ e ∈ q, ∀ slot, Waits slots e.slot slot → slot.id = e.id →
    slot.entry e.slot = e ∧ wants slot
  old : ∀ e ∈ q, old e.id

section Queue

variable {slots : List (Slot κ)} {old : Nat → Prop} {wants : Slot κ → Prop} {q : List Entry}

lemma QueueOk.sublist {q' : List Entry} (h : QueueOk slots old wants q) (hs : q'.Sublist q)
    (hh : ∀ i slot, Waits slots i slot → wants slot → slot.entry i ∈ q') :
    QueueOk slots old wants q' :=
  ⟨h.sorted.sublist hs, hh, fun e he => h.right e (hs.subset he), fun e he => h.old e (hs.subset he)⟩

lemma mem_discardDeadFront (he : e ∈ q) (hl : Impl.entryLive slots e = true) :
    e ∈ Impl.discardDeadFront slots q := by
  rw [← takeWhile_append_dropWhile (p := fun e => !Impl.entryLive slots e) (l := q)] at he
  rcases mem_append.mp he with h | h
  · have := mem_takeWhile_imp h
    simp [hl] at this
  · exact h

section

variable (h : QueueOk slots old wants q)
include h

lemma QueueOk.discard_later {slots' : List (Slot κ)}
    (hmore : ∀ i slot, Waits slots i slot → Waits slots' i slot) :
    QueueOk slots old wants (Impl.discardDeadFront slots' q) := by
  refine h.sublist (dropWhile_sublist _) ?_
  intro i slot hw hwant
  have hlive : Impl.entryLive slots' (slot.entry i) = true :=
    entryLive_iff.mpr ⟨slot, hmore i slot hw, rfl⟩
  exact mem_discardDeadFront (h.holds i slot hw hwant) hlive

lemma QueueOk.discard : QueueOk slots old wants (Impl.discardDeadFront slots q) :=
  h.discard_later fun _ _ hw => hw

/-- The first entry after dropping dead ones is a waiting event, and no waiting
event of the queue comes before it. -/
lemma QueueOk.front {rest : List Entry}
    (hq : Impl.discardDeadFront slots q = e :: rest) :
    ∃ slot, Waits slots e.slot slot ∧ slot.entry e.slot = e ∧ wants slot ∧
      ∀ i other, Waits slots i other → wants other → e.NotAfter (other.entry i) := by
  have hd := h.discard
  rw [hq] at hd
  have hlive : Impl.entryLive slots e = true := by
    have := head?_dropWhile_not (fun e => !Impl.entryLive slots e) q
    unfold Impl.discardDeadFront at hq
    rw [hq] at this
    simpa using this
  obtain ⟨slot, hw, hid⟩ := entryLive_iff.mp hlive
  obtain ⟨hentry, hwant⟩ := hd.right e (by simp) slot hw hid
  refine ⟨slot, hw, hentry, hwant, ?_⟩
  intro i other hwo hwanto
  rcases mem_cons.mp (hd.holds i other hwo hwanto) with heq | hmem
  · rw [heq]
    exact .inr ⟨rfl, le_rfl⟩
  · exact (List.pairwise_cons.mp hd.sorted).1 _ hmem

lemma QueueOk.none_waits (hq : Impl.discardDeadFront slots q = [])
    (hw : Waits slots i slot) : ¬ wants slot := by
  intro hwant
  have := h.discard.holds i slot hw hwant
  rw [hq] at this
  cases this

lemma QueueOk.release (index : Nat) :
    QueueOk (slots.modify index fun s => { s with state := .free }) old wants q := by
  refine ⟨h.sorted, ?_, ?_, h.old⟩
  · intro i slot hw
    exact h.holds i slot (waits_release.mp hw).2
  · intro e he slot hw
    exact h.right e he slot (waits_release.mp hw).2

end

lemma QueueOk.pop {rest : List Entry} (h : QueueOk slots old wants (e :: rest)) :
    QueueOk (slots.modify e.slot fun s => { s with state := .free }) old wants rest := by
  refine (h.release e.slot).sublist (sublist_cons_self e rest) ?_
  intro i slot hw hwant
  obtain ⟨hne, hw⟩ := waits_release.mp hw
  rcases mem_cons.mp (h.holds i slot hw hwant) with heq | hmem
  · exact absurd (congrArg Entry.slot heq) hne
  · exact hmem

/-- A new event with a new id keeps a queue right: it is pushed where it is
wanted. -/
lemma QueueOk.put {old' : Nat → Prop} {q' : List Entry}
    (h : QueueOk slots old wants q) (hi : index ≤ slots.length) (hqueued : new.state = .queued)
    (hfree : ∀ slot, ¬ Waits slots index slot) (hnew : ¬ old new.id)
    (hold : ∀ id, old id → old' id) (hid : old' new.id)
    (hq : (wants new ∧ q' = push (new.entry index) q) ∨ (¬ wants new ∧ q' = q)) :
    QueueOk (Impl.putSlot slots index new) old' wants q' := by
  have hmem : ∀ e, e ∈ q' ↔ e ∈ q ∨ (wants new ∧ e = new.entry index) := by
    intro e
    rcases hq with ⟨hw, rfl⟩ | ⟨hw, rfl⟩
    · rw [mem_push]
      tauto
    · tauto
  refine ⟨?_, ?_, ?_, ?_⟩
  · rcases hq with ⟨-, rfl⟩ | ⟨-, rfl⟩
    · exact push_sorted h.sorted
    · exact h.sorted
  · intro i slot hw hwant
    rw [hmem]
    rcases (waits_putSlot hi hqueued).mp hw with ⟨rfl, rfl⟩ | ⟨-, hw⟩
    · exact .inr ⟨hwant, rfl⟩
    · exact .inl (h.holds i slot hw hwant)
  · intro e he slot hw hsame
    rcases (hmem e).mp he with heq | ⟨hwant, rfl⟩
    · rcases (waits_putSlot hi hqueued).mp hw with ⟨-, rfl⟩ | ⟨-, hw⟩
      · -- an entry that was there before cannot carry the new id
        exact absurd (hsame ▸ h.old e heq) hnew
      · exact h.right e heq slot hw hsame
    · rcases (waits_putSlot hi hqueued).mp hw with ⟨-, rfl⟩ | ⟨hne, -⟩
      · exact ⟨rfl, hwant⟩
      · exact absurd rfl hne
  · intro e he
    rcases (hmem e).mp he with heq | ⟨-, rfl⟩
    · exact hold _ (h.old e heq)
    · exact hid

end Queue

namespace Impl

/-! ## The whole store -/

/-- Ids that the lane of an owner can still give when its counter is at `next`. -/
def LaneFuture (owner next id : Nat) : Prop :=
  ∃ count, next ≤ count ∧ count ≤ laneIdCounterMask ∧ id = laneIdMarker + owner * 2 ^ 56 + count

/-- Ids that were not given away so far. A lane gives ids of its own range. -/
def Future (s : Impl κ) (id : Nat) : Prop :=
  if s.laneDomain then LaneFuture s.laneOwner s.laneNextId id
  else s.nextId ≤ id ∧ id < laneIdMarker

/-- The events that wait. -/
def pending (s : Impl κ) : Set (Slot κ) := {slot | ∃ i, Waits s.slots i slot}

/-- The events that wait, and the ids that were given away. -/
def office (s : Impl κ) : Tickets.Office Nat (Slot κ) := ⟨s.pending, {id | ¬ s.Future id}⟩

/-- The books of a store are in order. -/
structure Good (s : Impl κ) : Prop where
  live : ∀ id i, (id, i) ∈ s.liveEvents ↔ ∃ slot, Waits s.slots i slot ∧ slot.id = id
  liveOnce : s.liveEvents.Nodup
  named : ∀ i a, Waits s.slots i a → a.id ≠ 0
  oneId : ∀ i j a b, Waits s.slots i a → Waits s.slots j b → a.id = b.id → i = j
  oneSequence : ∀ i j a b, Waits s.slots i a → Waits s.slots j b → a.sequence = b.sequence → i = j
  sequence : ∀ i a, Waits s.slots i a → a.sequence < s.nextSequence
  free : ∀ i ∈ s.freeSlots, i < s.slots.length ∧ ∀ slot, ¬ Waits s.slots i slot
  freeOnce : s.freeSlots.Nodup
  events : QueueOk s.slots (fun id => ¬ s.Future id) (fun _ => True) s.events
  observed : QueueOk s.slots (fun id => ¬ s.Future id) (fun slot => slot.globallyObserved = true)
    s.globallyObservedEvents
  owners : ∀ o, QueueOk s.slots (fun id => ¬ s.Future id) (fun slot => slot.owner = o)
    (s.ownerEvents o)

variable {s : Impl κ}

lemma Good.given (h : Good s) (hw : Waits s.slots i slot) : ¬ s.Future slot.id :=
  h.events.old _ (h.events.holds i slot hw trivial)

lemma Good.sound (h : Good s) : Tickets.Sound Slot.id s.office := by
  refine ⟨?_, ?_⟩
  · rintro a ⟨i, hw⟩
    exact h.given hw
  · rintro a ⟨i, ha⟩ b ⟨j, hb⟩ he
    obtain rfl := h.oneId i j a b ha hb he
    exact ha.unique hb

lemma Good.of_idle (hnone : ∀ i slot, ¬ Waits s.slots i slot) (hlive : s.liveEvents = [])
    (hfree : ∀ i ∈ s.freeSlots, i < s.slots.length) (honce : s.freeSlots.Nodup)
    (hevents : s.events = []) (hobserved : s.globallyObservedEvents = [])
    (howners : ∀ o, s.ownerEvents o = []) : Good s := by
  have hqueue : ∀ old wants, QueueOk s.slots old wants [] := fun _ _ =>
    ⟨.nil, fun i slot hw => absurd hw (hnone i slot), by simp, by simp⟩
  exact
    { live := by simp [hlive, hnone]
      liveOnce := by simp [hlive]
      named := fun i a hw => absurd hw (hnone i a)
      oneId := fun i j a b hw => absurd hw (hnone i a)
      oneSequence := fun i j a b hw => absurd hw (hnone i a)
      sequence := fun i a hw => absurd hw (hnone i a)
      free := fun i hi => ⟨hfree i hi, hnone i⟩
      freeOnce := honce
      events := hevents ▸ hqueue _ _
      observed := hobserved ▸ hqueue _ _
      owners := fun o => howners o ▸ hqueue _ _ }

lemma good_empty (limit : Nat) : Good ({ maximumSameTimeEvents := limit } : Impl κ) :=
  .of_idle (by simp [Waits]) rfl (by simp) .nil rfl rfl fun _ => rfl

variable {s s' : Impl κ} {id : Nat}

/-- A new id was not given away before, and is now. -/
lemma allocateId_spec (h : s.allocateId = some (id, s')) :
    id ≠ 0 ∧ s.Future id ∧ ¬ s'.Future id ∧ (∀ x, s'.Future x → s.Future x) ∧
      ∃ n l, s' = { s with nextId := n, laneNextId := l } ∧
        (s.laneDomain = true → l = s.laneNextId + 1 ∧ s.laneNextId ≤ laneIdCounterMask) := by
  unfold allocateId at h
  split at h
  · rename_i hlane
    split_ifs at h with hc
    obtain ⟨rfl, rfl⟩ : _ = id ∧ _ = s' := by simpa using h
    simp at hc
    refine ⟨?_, ?_, ?_, ?_, s.nextId, s.laneNextId + 1, rfl, fun _ => ⟨rfl, hc.2⟩⟩
    · omega
    · simp only [Future, LaneFuture, hlane, if_true]
      exact ⟨s.laneNextId, le_rfl, hc.2, rfl⟩
    · simp only [Future, LaneFuture, hlane, if_true]
      rintro ⟨count, hle, -, heq⟩
      omega
    · simp only [Future, LaneFuture, hlane, if_true]
      rintro x ⟨count, hle, hmask, rfl⟩
      exact ⟨count, by omega, hmask, rfl⟩
  · rename_i hlane
    split_ifs at h with hc
    obtain ⟨rfl, rfl⟩ : _ = id ∧ _ = s' := by simpa using h
    simp at hc
    refine ⟨hc.1, ?_, ?_, ?_, s.nextId + 1, s.laneNextId, rfl, fun h => absurd h hlane⟩
    · simp only [Future, hlane, Bool.false_eq_true, if_false]
      exact ⟨le_rfl, hc.2⟩
    · simp only [Future, hlane, Bool.false_eq_true, if_false]
      omega
    · simp [Future, hlane]
      omega

lemma length_putSlot {slots : List (Slot κ)}
    (hi : index ≤ slots.length) : index < (putSlot slots index new).length ∧
      slots.length ≤ (putSlot slots index new).length := by
  unfold putSlot
  split_ifs with h
  · simp [h]
  · simp
    omega

lemma Good.acquireSlot (h : Good s) {freeSlots : List Nat}
    (he : s.acquireSlot = (index, freeSlots)) :
    index ≤ s.slots.length ∧ (∀ slot, ¬ Waits s.slots index slot) ∧ freeSlots.Nodup ∧
      ∀ i ∈ freeSlots, i ≠ index ∧ i < s.slots.length ∧ ∀ slot, ¬ Waits s.slots i slot := by
  unfold Impl.acquireSlot at he
  have hfree := h.free
  have honce := h.freeOnce
  cases hf : s.freeSlots with
  | nil =>
    rw [hf] at he
    obtain ⟨rfl, rfl⟩ : s.slots.length = index ∧ [] = freeSlots := by simpa using he
    refine ⟨le_rfl, ?_, .nil, by simp⟩
    intro slot hw
    have := hw.1
    simp at this
  | cons first rest =>
    rw [hf] at he hfree honce
    obtain ⟨rfl, rfl⟩ : first = index ∧ rest = freeSlots := by simpa using he
    obtain ⟨hlt, hnone⟩ := hfree first (by simp)
    obtain ⟨hnot, hrest⟩ := nodup_cons.mp honce
    refine ⟨hlt.le, hnone, hrest, ?_⟩
    intro i hi
    refine ⟨?_, hfree i (by simp [hi])⟩
    rintro rfl
    exact hnot hi

variable {s₁ : Impl κ}

/-- Storing a new event with a new id keeps the books in order. -/
lemma Good.enqueue (h : Good s) (hid : s.allocateId = some (id, s₁))
    (new : Slot κ) (hnew : new.id = id) (hseq : new.sequence = s.nextSequence)
    (hq : new.state = .queued) :
    Good (s₁.enqueue new) ∧ Tickets.Step Slot.id s.office (.issue new) (s₁.enqueue new).office := by
  obtain ⟨hpos, hfut, hpast, hmono, n, l, rfl, -⟩ := allocateId_spec hid
  subst hnew
  set s₁ : Impl κ := { s with nextId := n, laneNextId := l } with hs₁
  rcases hacq : s₁.acquireSlot with ⟨index, freeSlots⟩
  have hacq' : s.acquireSlot = (index, freeSlots) := hacq
  obtain ⟨hi, hnone, honce, hrest⟩ := h.acquireSlot hacq'
  have hwaits : ∀ {i : Nat} {slot : Slot κ}, Waits (putSlot s.slots index new) i slot ↔
      (i = index ∧ slot = new) ∨ (i ≠ index ∧ Waits s.slots i slot) := waits_putSlot hi hq
  have hold : ∀ x, ¬ s.Future x → ¬ s₁.Future x := fun x hx hx' => hx (hmono x hx')
  have hput : ∀ {wants : Slot κ → Prop} {q q' : List Entry},
      QueueOk s.slots (fun id => ¬ s.Future id) wants q →
      ((wants new ∧ q' = push (new.entry index) q) ∨ (¬ wants new ∧ q' = q)) →
      QueueOk (putSlot s.slots index new) (fun id => ¬ s₁.Future id) wants q' :=
    fun hok hcase => hok.put hi hq hnone (fun hn => hn hfut) hold hpast hcase
  have hslots : (s₁.enqueue new).slots = putSlot s.slots index new := by
    simp only [Impl.enqueue, hacq]
    rfl
  have hmore : ∀ i slot, Waits s.slots i slot → Waits (putSlot s.slots index new) i slot := by
    intro i slot hw
    refine hwaits.mpr (.inr ⟨?_, hw⟩)
    rintro rfl
    exact hnone slot hw
  have hdiff : ∀ i a, Waits s.slots i a → a.id ≠ new.id := fun i a ha he =>
    h.given ha (he ▸ hfut)
  refine ⟨?_, ?_⟩
  · unfold Impl.enqueue
    rw [hacq]
    exact
      { live := by
          intro id i
          simp [h.live, hs₁]
          constructor
          · rintro (⟨rfl, rfl⟩ | ⟨slot, hw, rfl⟩)
            · exact ⟨new, hwaits.mpr (.inl ⟨rfl, rfl⟩), rfl⟩
            · exact ⟨slot, hmore i slot hw, rfl⟩
          · rintro ⟨slot, hw, rfl⟩
            rcases hwaits.mp hw with ⟨rfl, rfl⟩ | ⟨-, hw⟩
            · exact .inl ⟨rfl, rfl⟩
            · exact .inr ⟨slot, hw, rfl⟩
        liveOnce := by
          refine nodup_cons.mpr ⟨?_, h.liveOnce⟩
          intro hmem
          obtain ⟨slot, hw, he⟩ := (h.live new.id index).mp hmem
          exact hdiff index slot hw he
        named := by
          intro i a ha
          rcases hwaits.mp ha with ⟨-, rfl⟩ | ⟨-, ha'⟩
          · exact hpos
          · exact h.named i a ha'
        oneId := by
          intro i j a b ha hb he
          rcases hwaits.mp ha with ⟨rfl, rfl⟩ | ⟨-, ha'⟩ <;>
            rcases hwaits.mp hb with ⟨rfl, rfl⟩ | ⟨-, hb'⟩
          · rfl
          · exact absurd he.symm (hdiff j b hb')
          · exact absurd he (hdiff i a ha')
          · exact h.oneId i j a b ha' hb' he
        oneSequence := by
          intro i j a b ha hb he
          rcases hwaits.mp ha with ⟨rfl, rfl⟩ | ⟨-, ha'⟩ <;>
            rcases hwaits.mp hb with ⟨rfl, rfl⟩ | ⟨-, hb'⟩
          · rfl
          · have := h.sequence j b hb'
            omega
          · have := h.sequence i a ha'
            omega
          · exact h.oneSequence i j a b ha' hb' he
        sequence := by
          intro i a ha
          show a.sequence < s.nextSequence + 1
          rcases hwaits.mp ha with ⟨rfl, rfl⟩ | ⟨-, ha⟩
          · omega
          · have := h.sequence i a ha
            omega
        free := by
          intro i hmem
          obtain ⟨hne, hlt, hnone⟩ := hrest i hmem
          refine ⟨lt_of_lt_of_le hlt (length_putSlot hi).2, ?_⟩
          intro slot hw
          rcases hwaits.mp hw with ⟨rfl, -⟩ | ⟨-, hw⟩
          · exact hne rfl
          · exact hnone slot hw
        freeOnce := honce
        events := hput h.events (.inl ⟨trivial, rfl⟩)
        observed := by
          refine hput h.observed ?_
          by_cases hobs : new.globallyObserved = true
          · exact .inl ⟨hobs, if_pos hobs⟩
          · exact .inr ⟨hobs, if_neg hobs⟩
        owners := by
          intro o
          by_cases ho : new.owner = o
          · subst ho
            have hkept := (h.owners new.owner).discard_later hmore
            exact hput hkept (.inl ⟨rfl, Function.update_self ..⟩)
          · refine hput (h.owners o) (.inr ⟨ho, ?_⟩)
            exact Function.update_of_ne (Ne.symm ho) _ _ }
  · have hout : (s₁.enqueue new).office = ⟨insert new s.office.out, {id | ¬ s₁.Future id}⟩ := by
      have hset : {slot | ∃ i, Waits (s₁.enqueue new).slots i slot} = insert new s.office.out := by
        ext slot
        rw [hslots]
        constructor
        · rintro ⟨i, hw⟩
          rcases hwaits.mp hw with ⟨-, rfl⟩ | ⟨-, hw'⟩
          · exact .inl rfl
          · exact .inr ⟨i, hw'⟩
        · rintro (rfl | ⟨i, hw⟩)
          · exact ⟨index, hwaits.mpr (.inl ⟨rfl, rfl⟩)⟩
          · exact ⟨i, hmore i slot hw⟩
      exact congrArg (Tickets.Office.mk · _) hset
    rw [hout]
    exact .issue (fun hn => hn hfut) hold hpast

/-- The store without the event of a slot, with the queues it then has. -/
def leave (s : Impl κ) (index id : Nat) (events observed : List Entry)
    (ownerEvents : Nat → List Entry) : Impl κ :=
  { s.releaseSlot index with
    liveEvents := s.liveEvents.filter fun e => e.1 ≠ id
    events
    globallyObservedEvents := observed
    ownerEvents }

/-- An event that leaves its slot takes only itself out of the books. -/
lemma Good.leave (h : Good s)
    (hw : Waits s.slots index slot) {events observed : List Entry} {ownerEvents : Nat → List Entry}
    (hevents : QueueOk (s.releaseSlot index).slots (fun id => ¬ s.Future id) (fun _ => True) events)
    (hobserved : QueueOk (s.releaseSlot index).slots (fun id => ¬ s.Future id)
      (fun slot => slot.globallyObserved = true) observed)
    (howners : ∀ o, QueueOk (s.releaseSlot index).slots (fun id => ¬ s.Future id)
      (fun slot => slot.owner = o) (ownerEvents o)) :
    Good (s.leave index slot.id events observed ownerEvents) ∧
      (s.leave index slot.id events observed ownerEvents).office =
        ⟨{b ∈ s.office.out | b.id ≠ slot.id}, s.office.given⟩ := by
  have hwaits : ∀ {i : Nat} {a : Slot κ}, Waits (s.releaseSlot index).slots i a ↔
      i ≠ index ∧ Waits s.slots i a := waits_release
  have hother : ∀ {i : Nat} {a : Slot κ}, Waits s.slots i a → (i ≠ index ↔ a.id ≠ slot.id) := by
    intro i a ha
    constructor
    · intro hne he
      exact hne (h.oneId i index a slot ha hw he)
    · rintro hne rfl
      exact hne (ha.unique hw ▸ rfl)
  refine ⟨?_, ?_⟩
  · exact
      { live := by
          intro id i
          simp [Impl.leave, h.live]
          constructor
          · rintro ⟨⟨a, ha, rfl⟩, hne⟩
            exact ⟨a, hwaits.mpr ⟨(hother ha).mpr hne, ha⟩, rfl⟩
          · rintro ⟨a, ha, rfl⟩
            obtain ⟨hne, ha⟩ := hwaits.mp ha
            exact ⟨⟨a, ha, rfl⟩, (hother ha).mp hne⟩
        liveOnce := h.liveOnce.filter _
        named := fun i a ha => h.named i a (hwaits.mp ha).2
        oneId := fun i j a b ha hb => h.oneId i j a b (hwaits.mp ha).2 (hwaits.mp hb).2
        oneSequence := fun i j a b ha hb =>
          h.oneSequence i j a b (hwaits.mp ha).2 (hwaits.mp hb).2
        sequence := fun i a ha => h.sequence i a (hwaits.mp ha).2
        free := by
          intro i hi
          show i < (s.slots.modify index _).length ∧ _
          rw [length_modify]
          rcases mem_cons.mp hi with rfl | hi
          · exact ⟨(List.getElem?_eq_some_iff.mp hw.1).1, fun a ha => (hwaits.mp ha).1 rfl⟩
          · exact ⟨(h.free i hi).1, fun a ha => (h.free i hi).2 a (hwaits.mp ha).2⟩
        freeOnce := nodup_cons.mpr ⟨fun hi => (h.free index hi).2 slot hw, h.freeOnce⟩
        events := hevents
        observed := hobserved
        owners := howners }
  · have hset : {a | ∃ i, Waits (s.releaseSlot index).slots i a} =
        {b ∈ s.office.out | b.id ≠ slot.id} := by
      ext a
      constructor
      · rintro ⟨i, ha⟩
        obtain ⟨hne, ha⟩ := hwaits.mp ha
        exact ⟨⟨i, ha⟩, (hother ha).mp hne⟩
      · rintro ⟨⟨i, ha⟩, hne⟩
        exact ⟨i, hwaits.mpr ⟨(hother ha).mpr hne, ha⟩⟩
    exact congrArg (Tickets.Office.mk · _) hset

lemma setTime_eq (s : Impl κ) (owner time : Nat) :
    ∃ sharedNow ownerNow, s.setTime owner time = { s with sharedNow, ownerNow } := by
  unfold setTime
  split_ifs
  · exact ⟨time, s.ownerNow, rfl⟩
  · exact ⟨s.sharedNow, Function.update s.ownerNow owner (some time), rfl⟩

/-- Clocks, the active owner and the count of callbacks are not in the books. -/
lemma Good.clocks (h : Good s) (sharedNow activeOwner executedCallbacks : Nat)
    (ownerNow : Nat → Option Nat) :
    Good { s with sharedNow, ownerNow, activeOwner, executedCallbacks } :=
  ⟨h.live, h.liveOnce, h.named, h.oneId, h.oneSequence, h.sequence, h.free, h.freeOnce, h.events,
    h.observed, h.owners⟩

/-! ## What a callback can do -/

/-- How the counters of a store move along a log: sequence numbers are given one
after the other, a lane counts its ids with them, and the rest is fixed. -/
structure Grows (s : Impl κ) (hs : List (Happening κ)) (s' : Impl κ) : Prop where
  numbers : (Tickets.issued hs).map Slot.sequence =
    List.range' s.nextSequence (Tickets.issued hs).length
  next : s'.nextSequence = s.nextSequence + (Tickets.issued hs).length
  laneIds : s.laneDomain = true → s'.laneNextId = s.laneNextId + (Tickets.issued hs).length ∧
    (s.laneNextId ≤ laneIdCounterMask + 1 → s'.laneNextId ≤ laneIdCounterMask + 1)
  domain : s'.laneDomain = s.laneDomain
  owner : s'.laneOwner = s.laneOwner
  lanes : s'.nextLaneIds = s.nextLaneIds
  limit : s'.maximumSameTimeEvents = s.maximumSameTimeEvents

lemma Grows.refl (s : Impl κ) : Grows s [] s :=
  ⟨rfl, rfl, fun _ => ⟨rfl, id⟩, rfl, rfl, rfl, rfl⟩

lemma Grows.trans {s₂ : Impl κ} {hs₁ hs₂ : List (Happening κ)} (h₁ : Grows s hs₁ s₁)
    (h₂ : Grows s₁ hs₂ s₂) : Grows s (hs₁ ++ hs₂) s₂ := by
  refine ⟨?_, ?_, ?_, h₂.domain.trans h₁.domain, h₂.owner.trans h₁.owner,
    h₂.lanes.trans h₁.lanes, h₂.limit.trans h₁.limit⟩
  · rw [Tickets.issued_append, map_append, h₁.numbers, h₂.numbers, h₁.next,
      length_append, range'_append_1]
  · rw [h₂.next, h₁.next, Tickets.issued_append, length_append, Nat.add_assoc]
  · intro hl
    obtain ⟨he₁, hroom₁⟩ := h₁.laneIds hl
    obtain ⟨he₂, hroom₂⟩ := h₂.laneIds (h₁.domain.trans hl)
    refine ⟨?_, fun hroom => hroom₂ (hroom₁ hroom)⟩
    rw [he₂, he₁, Tickets.issued_append, length_append, Nat.add_assoc]

lemma Grows.number {hs : List (Happening κ)} (h : Grows s hs s') {a : Slot κ}
    (ha : .issue a ∈ hs) : s.nextSequence ≤ a.sequence ∧ a.sequence < s'.nextSequence := by
  have hmem : a.sequence ∈ range' s.nextSequence (Tickets.issued hs).length := by
    rw [← h.numbers]
    exact mem_map_of_mem (Tickets.mem_issued.mpr ha)
  rw [h.next]
  exact List.mem_range'_1.mp hmem

/-- What calls outside of a run do to the store: events come and go, none runs,
no clock moves, and a new event lies in the future of its owner. -/
structure Effect (s : Impl κ) (hs : List (Happening κ)) (s' : Impl κ) : Prop where
  good : Good s'
  run : Tickets.Run Slot.id s.office hs s'.office
  grows : Grows s hs s'
  unused : Tickets.used hs = []
  late : ∀ a, .issue a ∈ hs → s.timeFor a.owner ≤ a.due
  clock : s'.timeFor = s.timeFor
  shared : s'.sharedNow = s.sharedNow

lemma Effect.refl (h : Good s) : Effect s [] s :=
  ⟨h, .nil, .refl s, rfl, by simp, rfl, rfl⟩

lemma Effect.trans {s₂ : Impl κ} {hs₁ hs₂ : List (Happening κ)} (h₁ : Effect s hs₁ s₁)
    (h₂ : Effect s₁ hs₂ s₂) : Effect s (hs₁ ++ hs₂) s₂ := by
  refine ⟨h₂.good, h₁.run.append h₂.run, h₁.grows.trans h₂.grows, ?_, ?_,
    h₂.clock.trans h₁.clock, h₂.shared.trans h₁.shared⟩
  · rw [Tickets.used_append, h₁.unused, h₂.unused]
    rfl
  · intro a ha
    rcases mem_append.mp ha with ha | ha
    · exact h₁.late a ha
    · have hdue := h₂.late a ha
      rw [h₁.clock] at hdue
      exact hdue

section

variable (h : Good s)
include h

lemma scheduleAs_effect (owner due : Nat) (callback : κ)
    (guarded : Bool) :
    Effect s (s.scheduleAs owner due callback guarded).2.2
      (s.scheduleAs owner due callback guarded).2.1 := by
  unfold scheduleAs schedule
  set s₀ : Impl κ := { s with activeOwner := owner } with hs₀
  have hgood : Good s₀ := h.clocks s.sharedNow owner s.executedCallbacks s.ownerNow
  split_ifs with hlane hpast
  · exact .refl h
  · exact .refl h
  cases hid : s₀.allocateId with
  | none => exact .refl h
  | some p =>
    obtain ⟨id, s₁⟩ := p
    obtain ⟨n, l, rfl, hcount⟩ := (allocateId_spec hid).2.2.2.2
    obtain ⟨hg, hstep⟩ := hgood.enqueue hid (s₀.newSlot id due callback guarded) rfl rfl rfl
    refine ⟨hg.clocks _ s.activeOwner _ _, .single hstep, ?_, rfl, ?_, rfl, rfl⟩
    · refine ⟨rfl, rfl, ?_, rfl, rfl, rfl, rfl⟩
      intro hl
      obtain ⟨rfl, hroom⟩ := hcount hl
      exact ⟨rfl, fun _ => Nat.succ_le_succ hroom⟩
    · intro a ha
      obtain rfl : a = s₀.newSlot id due callback guarded := by simpa using ha
      exact Nat.not_lt.mp hpast

/-- A call that gets an id has stored one event under it, and no other had it. -/
lemma scheduleAs_pending {owner due : Nat} {callback : κ}
    {guarded : Bool} {log : List (Happening κ)}
    (heq : s.scheduleAs owner due callback guarded = (some id, s', log)) :
    ∃ slot, slot.id = id ∧ slot.callback = callback ∧ slot.due = due ∧
      s'.pending = insert slot s.pending ∧ ∀ b ∈ s.pending, b.id ≠ id := by
  unfold scheduleAs schedule at heq
  set s₀ : Impl κ := { s with activeOwner := owner } with hs₀
  have hgood : Good s₀ := h.clocks s.sharedNow owner s.executedCallbacks s.ownerNow
  split_ifs at heq
  · cases heq
  · cases heq
  cases hid : s₀.allocateId with
  | none => rw [hid] at heq; cases heq
  | some p =>
    obtain ⟨id', s₁⟩ := p
    rw [hid] at heq
    cases heq
    obtain ⟨-, hstep⟩ := hgood.enqueue hid (s₀.newSlot id due callback guarded) rfl rfl rfl
    generalize hoffice : (s₁.enqueue (s₀.newSlot id due callback guarded)).office = office at hstep
    cases hstep with
    | issue fresh keeps gives =>
      have hout := congrArg Tickets.Office.out hoffice
      refine ⟨s₀.newSlot id due callback guarded, rfl, rfl, rfl, ?_, ?_⟩
      · obtain ⟨_, _, rfl, -⟩ := (allocateId_spec hid).2.2.2.2
        exact hout
      · rintro b hb rfl
        exact fresh (hgood.sound.given b hb)

/-- Cancelling finds the event with that id if it waits, and takes out no other. -/
lemma cancelAs_spec (id : Nat) :
    (∃ slot ∈ s.office.out, slot.id = id ∧ (s.cancelAs id).1 = true ∧
      (s.cancelAs id).2.2 = [.withdraw id] ∧
      (s.cancelAs id).2.1.office = ⟨{b ∈ s.office.out | b.id ≠ id}, s.office.given⟩ ∧
      Effect s [.withdraw id] (s.cancelAs id).2.1) ∨
    ((∀ slot ∈ s.office.out, slot.id ≠ id) ∧ s.cancelAs id = (false, s, [])) := by
  unfold cancelAs cancelId
  by_cases h0 : id = 0
  · refine .inr ⟨?_, by simp [h0]⟩
    rintro slot ⟨i, hw⟩
    exact h0 ▸ h.named i slot hw
  cases hl : s.liveEvents.lookup id with
  | none =>
    refine .inr ⟨?_, by simp [h0]⟩
    rintro slot ⟨i, hw⟩ he
    have hmem := (h.live id i).mpr ⟨slot, hw, he⟩
    rw [lookup_eq_none_iff] at hl
    simpa using hl _ hmem
  | some index =>
    have hmem : (id, index) ∈ s.liveEvents := by
      obtain ⟨l₁, l₂, heq, -⟩ := List.lookup_eq_some_iff.mp hl
      simp [heq]
    obtain ⟨slot, hw, hid⟩ := (h.live id index).mp hmem
    subst hid
    refine .inl ⟨slot, ⟨index, hw⟩, rfl, ?_⟩
    obtain ⟨hgood, hoffice⟩ := h.leave hw (h.events.release index)
      (h.observed.release index).discard (fun o => (h.owners o).release index)
    simp only [h0, if_false, hw.1, ne_eq, not_true_eq_false]
    refine ⟨trivial, trivial, hoffice, ?_⟩
    refine ⟨hgood, .single ?_, ⟨rfl, rfl, fun _ => ⟨rfl, id⟩, rfl, rfl, rfl, rfl⟩, rfl, by simp,
      rfl, rfl⟩
    have hstep : Tickets.Step Slot.id s.office (.withdraw slot.id)
      ⟨{b ∈ s.office.out | b.id ≠ slot.id}, s.office.given⟩ := .withdraw ⟨index, hw⟩
    rw [← hoffice] at hstep
    exact hstep

lemma cancelAs_effect (id : Nat) :
    Effect s (s.cancelAs id).2.2 (s.cancelAs id).2.1 := by
  rcases cancelAs_spec h id with ⟨slot, -, -, -, hlog, -, heffect⟩ | ⟨-, heq⟩
  · rw [hlog]
    exact heffect
  · rw [heq]
    exact .refl h

lemma cancelAs_pending (id : Nat) :
    (s.cancelAs id).2.1.pending = {b ∈ s.pending | b.id ≠ id} := by
  rcases cancelAs_spec h id with ⟨slot, -, -, -, -, hoffice, -⟩ | ⟨hnone, heq⟩
  · exact congrArg Tickets.Office.out hoffice
  · rw [heq]
    exact (Set.sep_eq_self_iff_mem_true.mpr hnone).symm

lemma perform_effect (program : Program σ κ) :
    Effect s (s.perform program).2.2 (s.perform program).2.1 := by
  induction program generalizing s with
  | done state => exact .refl h
  | schedule owner due callback guarded next ih =>
    have hfirst := scheduleAs_effect h owner due callback guarded
    exact hfirst.trans (ih _ hfirst.good)
  | cancel id next ih =>
    have hfirst := cancelAs_effect h id
    exact hfirst.trans (ih _ hfirst.good)
  | now owner next ih => exact ih _ h

end

end Impl

end Fil.Sim
