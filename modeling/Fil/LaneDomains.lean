-- Lane domains. A session gives the events of the first boards to lanes, each a
-- store of its own with its own ids and sequence numbers, so that the lanes can
-- work at the same time. The end of the session merges all stores and numbers
-- the events again. A store that is filled with events has its books in order, and
-- renumbering keeps the order of the events.
import Fil.EventDispatch
import Fil.StableSort
import Mathlib.Data.List.FinRange

namespace Fil.Sim

variable {σ κ : Type}

namespace Impl

/-! ## Storage -/

/-- The event of an entry of the live table, if it still waits in its slot. -/
def liveEntry (slots : List (Slot κ)) (e : Nat × Nat) : Option (Nat × Slot κ) :=
  match slots[e.2]? with
  | none => none
  | some slot => if slot.state = .queued ∧ slot.id = e.1 then some (e.2, slot) else none

/-- The events that wait with their slots, in the order of the live table. -/
def liveEntries (s : Impl κ) : List (Nat × Slot κ) := s.liveEvents.filterMap (liveEntry s.slots)

def liveSlots (s : Impl κ) : List (Slot κ) := s.liveEntries.map Prod.snd

def queueOf (live : List (Nat × Slot κ)) : List Entry :=
  live.foldl (fun q e => push (e.2.entry e.1) q) []

def rebuildQueues (s : Impl κ) : Impl κ :=
  { s with
    events := queueOf s.liveEntries
    globallyObservedEvents := queueOf (s.liveEntries.filter fun e => e.2.globallyObserved)
    ownerEvents := fun o => queueOf (s.liveEntries.filter fun e => e.2.owner = o) }

def fill (s : Impl κ) (slots : List (Slot κ)) : Impl κ :=
  let filled : Impl κ :=
    { s with
      slots
      freeSlots := []
      liveEvents := slots.zipIdx.map fun e => (e.1.id, e.2) }
  filled.rebuildQueues

def laneOf (s : Impl κ) (owner : Nat) : Impl κ :=
  let lane : Impl κ :=
    { laneDomain := true
      laneOwner := owner
      laneNextId := s.nextLaneIds owner
      sharedNow := s.sharedNow
      readOffset := s.readOffset
      ownerNow := fun o => if o = owner then s.ownerNow owner else none
      maximumSameTimeEvents := s.maximumSameTimeEvents
      nextSequence := s.nextSequence + (owner + 1) * sequencePartition
      executedCallbacks := s.executedCallbacks }
  lane.fill (s.liveSlots.filter fun a => a.owner = owner)

end Impl

/-- A session with `n` lanes. `none` is the root, `some k` the lane of owner `k`. -/
structure Session (κ : Type) (n : Nat) where
  laneCounterBaseline : Nat
  domain : Option (Fin n) → Impl κ

/-- Opens a session. `none` stands for the exceptions: a lane cannot open one, there
are 1 to 64 lanes, and the numbers in use must leave room for the lanes. -/
def Impl.beginLaneDomains (s : Impl κ) (n : Nat) : Option (Session κ n) :=
  if s.laneDomain then none
  else if n = 0 || 64 < n then none
  else if laneIdMarker ≤ s.nextId || sequencePartition ≤ s.nextSequence then none
  else
    some
      { laneCounterBaseline := s.executedCallbacks
        domain := fun d =>
          match d with
          | none => s.fill (s.liveSlots.filter fun a => n ≤ a.owner)
          | some k => s.laneOf k }

def Slot.numbered (number : Nat) (slot : Slot κ) : Slot κ := { slot with sequence := number }

/-- Numbers events from zero on, in the order of their old numbers. -/
def renumber (slots : List (Slot κ)) : List (Slot κ) :=
  Ranking.relabel Slot.sequence Slot.numbered slots

namespace Session

variable {n : Nat}

/-- The events of all stores, the root's first. -/
def liveSlots (S : Session κ n) : List (Slot κ) :=
  (S.domain none).liveSlots ++ (List.finRange n).flatMap fun k => (S.domain (some k)).liveSlots

def ownersView {α : Type} (S : Session κ n) (lane : Impl κ → α) (root : Nat → α) (owner : Nat) :
    α :=
  if h : owner < n then lane (S.domain (some ⟨owner, h⟩)) else root owner

/-- Closes a session: the root gets all events back under new numbers, and the
clocks, id counters and counts of callbacks of the lanes. -/
def finishLaneDomains (S : Session κ n) : Impl κ :=
  let root := S.domain none
  let count (s : Impl κ) : Nat := s.executedCallbacks - S.laneCounterBaseline
  let merged : Impl κ :=
    { root with
      nextSequence := S.liveSlots.length
      ownerNow := fun o => S.ownersView (fun lane => lane.ownerNow o) root.ownerNow o
      nextLaneIds := S.ownersView Impl.laneNextId root.nextLaneIds
      executedCallbacks := (List.finRange n).foldl (fun total k => total + count (S.domain (some k)))
        (S.laneCounterBaseline + count root)
      maximumSameTimeEvents :=
        S.ownersView Impl.maximumSameTimeEvents (fun _ => root.maximumSameTimeEvents) 0 }
  merged.fill (renumber S.liveSlots)

/-! ## Operations in a session -/

/-- Happenings with the store they happened in. -/
abbrev Log (κ : Type) (n : Nat) := List (Option (Fin n) × Happening κ)

def put (S : Session κ n) (d : Option (Fin n)) (s : Impl κ) : Session κ n :=
  { S with domain := Function.update S.domain d s }

/-- Which store has the events of an owner. -/
def home (n owner : Nat) : Option (Fin n) :=
  if h : owner < n then some ⟨owner, h⟩ else none

/-- A lane sees the shared clock of the root before it works. -/
def synced (S : Session κ n) : Option (Fin n) → Impl κ
  | none => S.domain none
  | some k =>
    let lane := S.domain (some k)
    { lane with sharedNow := max lane.sharedNow (S.domain none).sharedNow }

/-- Stores what a call made of one domain. -/
def result (S : Session κ n) (d : Option (Fin n)) (after : Impl κ × List (Happening κ)) :
    Session κ n × Log κ n :=
  (S.put d after.1, after.2.map fun h => (d, h))

/-- Cancels in the first of some domains that has the event. -/
def cancelIn (S : Session κ n) (id : Nat) : List (Option (Fin n)) → Session κ n × Log κ n
  | [] => (S, [])
  | d :: ds =>
    let after := (S.domain d).cancelAs id
    if after.1 then S.result d after.2 else (S.put d after.2.1).cancelIn id ds

/-- Sets an owner's clock in the root. The shared clock is passed on to the lanes. -/
def settleClock (S : Session κ n) (owner time : Nat) : Session κ n :=
  let root := (S.domain none).setTime owner time
  if owner = sharedEventOwner then
    { S with
      domain := fun d =>
        match d with
        | none => root
        | some k => { S.domain (some k) with sharedNow := root.sharedNow } }
  else S.put none root

end Session

open List

variable {i : Nat}

namespace Impl

/-! ## The live table -/

variable {slots : List (Slot κ)} {s : Impl κ} {a : Slot κ}

lemma liveEntry_some {e : Nat × Nat} :
    liveEntry slots e = some (i, a) ↔ e = (a.id, i) ∧ Waits slots i a := by
  obtain ⟨id, index⟩ := e
  unfold liveEntry Waits
  cases hget : slots[index]? with
  | none =>
    simp only [reduceCtorEq, Prod.mk.injEq, false_iff, not_and]
    rintro ⟨-, rfl⟩ h
    simp [hget] at h
  | some slot =>
    simp
    constructor
    · rintro ⟨⟨hstate, rfl⟩, rfl, rfl⟩
      exact ⟨⟨rfl, rfl⟩, hget, hstate⟩
    · rintro ⟨⟨rfl, rfl⟩, h, hstate⟩
      obtain rfl : slot = a := Option.some.inj (hget.symm.trans h)
      exact ⟨⟨hstate, rfl⟩, rfl, rfl⟩

section

variable (h : Good s)
include h

lemma mem_liveEntries : (i, a) ∈ s.liveEntries ↔ Waits s.slots i a := by
  unfold liveEntries
  rw [mem_filterMap]
  constructor
  · rintro ⟨e, -, heq⟩
    exact (liveEntry_some.mp heq).2
  · intro hw
    exact ⟨(a.id, i), (h.live a.id i).mpr ⟨a, hw, rfl⟩, liveEntry_some.mpr ⟨rfl, hw⟩⟩

lemma mem_liveSlots : a ∈ s.liveSlots ↔ a ∈ s.pending := by
  unfold liveSlots
  rw [mem_map]
  constructor
  · rintro ⟨⟨i, b⟩, hmem, rfl⟩
    exact ⟨i, (mem_liveEntries h).mp hmem⟩
  · rintro ⟨i, hw⟩
    exact ⟨(i, a), (mem_liveEntries h).mpr hw, rfl⟩

lemma liveSlots_map_nodup {f : Slot κ → Nat}
    (hf : ∀ i j a b, Waits s.slots i a → Waits s.slots j b → f a = f b → i = j) :
    (s.liveSlots.map f).Nodup := by
  have hmap : s.liveSlots.map f = s.liveEntries.map fun e => f e.2 := by
    simp [liveSlots]
  have hentries : s.liveEntries.Nodup := by
    refine List.Nodup.filterMap ?_ h.liveOnce
    rintro e e' ⟨i, a⟩ h₁ h₂
    rw [(liveEntry_some.mp h₁).1, (liveEntry_some.mp h₂).1]
  rw [hmap]
  refine hentries.map_on ?_
  rintro ⟨i, a⟩ ha ⟨j, b⟩ hb he
  have hwa := (mem_liveEntries h).mp ha
  have hwb := (mem_liveEntries h).mp hb
  obtain rfl := hf i j a b hwa hwb he
  rw [hwa.unique hwb]

lemma liveSlots_ids : (s.liveSlots.map Slot.id).Nodup :=
  liveSlots_map_nodup h h.oneId

lemma liveSlots_sequences : (s.liveSlots.map Slot.sequence).Nodup :=
  liveSlots_map_nodup h h.oneSequence

end

/-! ## Filling a store -/

lemma mem_foldl_push (live : List (Nat × Slot κ)) (q : List Entry) (e : Entry) :
    e ∈ live.foldl (fun q e => push (e.2.entry e.1) q) q ↔
      e ∈ q ∨ ∃ p ∈ live, e = p.2.entry p.1 := by
  induction live generalizing q with
  | nil => simp
  | cons p live ih =>
    rw [foldl_cons, ih, mem_push]
    simp
    tauto

lemma foldl_push_sorted (live : List (Nat × Slot κ)) {q : List Entry}
    (h : q.Pairwise Entry.NotAfter) :
    (live.foldl (fun q e => push (e.2.entry e.1) q) q).Pairwise Entry.NotAfter := by
  induction live generalizing q with
  | nil => exact h
  | cons p live ih => exact ih (push_sorted h)

lemma queueOf_ok {old : Nat → Prop} {wants : Slot κ → Prop}
    {live : List (Nat × Slot κ)}
    (hlive : ∀ i a, (i, a) ∈ live ↔ Waits slots i a ∧ wants a)
    (hold : ∀ i a, Waits slots i a → old a.id) : QueueOk slots old wants (queueOf live) := by
  have hmem : ∀ e, e ∈ queueOf live ↔ ∃ p ∈ live, e = p.2.entry p.1 := by
    intro e
    rw [queueOf, mem_foldl_push]
    simp
  refine ⟨foldl_push_sorted live .nil, ?_, ?_, ?_⟩
  · intro i a hw hwant
    exact (hmem _).mpr ⟨(i, a), (hlive i a).mpr ⟨hw, hwant⟩, rfl⟩
  · intro e he a hw _
    obtain ⟨⟨i, b⟩, hp, rfl⟩ := (hmem e).mp he
    obtain ⟨hwb, hwant⟩ := (hlive i b).mp hp
    obtain rfl := hw.unique hwb
    exact ⟨rfl, hwant⟩
  · intro e he
    obtain ⟨⟨i, b⟩, hp, rfl⟩ := (hmem e).mp he
    exact hold i b ((hlive i b).mp hp).1

/-- Events that can fill a store. -/
structure Fits (s : Impl κ) (slots : List (Slot κ)) : Prop where
  queued : ∀ a ∈ slots, a.state = .queued
  named : ∀ a ∈ slots, a.id ≠ 0
  ids : (slots.map Slot.id).Nodup
  sequences : (slots.map Slot.sequence).Nodup
  below : ∀ a ∈ slots, a.sequence < s.nextSequence
  given : ∀ a ∈ slots, ¬ s.Future a.id

lemma Fits.filter {s s' : Impl κ} (h : Good s) (p : Slot κ → Bool)
    (hn : s.nextSequence ≤ s'.nextSequence) (hf : ∀ a ∈ s.pending, ¬ s'.Future a.id) :
    Fits s' (s.liveSlots.filter p) := by
  have hmem : ∀ {a}, a ∈ s.liveSlots.filter p → a ∈ s.pending := fun ha =>
    (mem_liveSlots h).mp (mem_filter.mp ha).1
  refine ⟨?_, ?_, ?_, ?_, ?_, fun a ha => hf a (hmem ha)⟩
  · intro a ha
    obtain ⟨i, hw⟩ := hmem ha
    exact hw.2
  · intro a ha
    obtain ⟨i, hw⟩ := hmem ha
    exact h.named i a hw
  · exact (liveSlots_ids h).sublist (filter_sublist.map _)
  · exact (liveSlots_sequences h).sublist (filter_sublist.map _)
  · intro a ha
    obtain ⟨i, hw⟩ := hmem ha
    exact lt_of_lt_of_le (h.sequence i a hw) hn

lemma liveEntries_fill (h : ∀ a ∈ slots, a.state = .queued) :
    (s.fill slots).liveEntries = slots.zipIdx.map fun e => (e.2, e.1) := by
  show filterMap _ (slots.zipIdx.map _) = _
  rw [filterMap_map, ← filterMap_eq_map]
  refine filterMap_congr ?_
  rintro ⟨a, i⟩ hmem
  have hget := List.mem_zipIdx_iff_getElem?.mp hmem
  have hstate := h a (mem_of_getElem? hget)
  exact liveEntry_some.mpr ⟨rfl, hget, hstate⟩

lemma liveSlots_fill (h : ∀ a ∈ slots, a.state = .queued) : (s.fill slots).liveSlots = slots := by
  unfold liveSlots
  rw [liveEntries_fill h, map_map]
  exact zipIdx_map_fst 0 slots

lemma fill_good (h : Fits s slots) : Good (s.fill slots) := by
  have hwaits : ∀ i a, Waits slots i a ↔ slots[i]? = some a := by
    intro i a
    exact ⟨fun hw => hw.1, fun hget => ⟨hget, h.queued a (mem_of_getElem? hget)⟩⟩
  have hmem : ∀ {i a}, Waits slots i a → a ∈ slots := fun hw => mem_of_getElem? hw.1
  have hinj : ∀ {f : Slot κ → Nat}, (slots.map f).Nodup →
      ∀ i j a b, Waits slots i a → Waits slots j b → f a = f b → i = j := by
    intro f hnd i j a b ha hb he
    have hi : (slots.map f)[i]? = some (f a) := by simp [ha.1]
    have hj : (slots.map f)[j]? = some (f a) := by simp [hb.1, he]
    have hlt : i < (slots.map f).length := (List.getElem?_eq_some_iff.mp hi).1
    exact (getElem?_inj hlt hnd).mp (hi.trans hj.symm)
  have hentries : ∀ i a, (i, a) ∈ (s.fill slots).liveEntries ↔ Waits slots i a := by
    intro i a
    rw [liveEntries_fill h.queued, hwaits, mem_map]
    constructor
    · rintro ⟨⟨b, j⟩, hb, heq⟩
      obtain ⟨rfl, rfl⟩ : j = i ∧ b = a := by simpa using heq
      exact List.mem_zipIdx_iff_getElem?.mp hb
    · intro hget
      exact ⟨(a, i), List.mem_zipIdx_iff_getElem?.mpr hget, rfl⟩
  have hold : ∀ i a, Waits slots i a → ¬ s.Future a.id := fun i a hw => h.given a (hmem hw)
  exact
    { live := by
        intro id i
        show (id, i) ∈ slots.zipIdx.map _ ↔ _
        rw [mem_map]
        constructor
        · rintro ⟨⟨a, j⟩, hmem, heq⟩
          obtain ⟨rfl, rfl⟩ : a.id = id ∧ j = i := by simpa using heq
          exact ⟨a, (hwaits j a).mpr (List.mem_zipIdx_iff_getElem?.mp hmem), rfl⟩
        · rintro ⟨a, hw, rfl⟩
          exact ⟨(a, i), List.mem_zipIdx_iff_getElem?.mpr hw.1, rfl⟩
      liveOnce := by
        show (slots.zipIdx.map _).Nodup
        refine List.Nodup.of_map Prod.snd ?_
        rw [map_map]
        have hsnd : slots.zipIdx.map (Prod.snd ∘ fun e : Slot κ × Nat => (e.1.id, e.2)) =
            slots.zipIdx.map Prod.snd := rfl
        rw [hsnd, zipIdx_map_snd]
        exact nodup_range'
      named := fun i a hw => h.named a (hmem hw)
      oneId := hinj h.ids
      oneSequence := hinj h.sequences
      sequence := fun i a hw => h.below a (hmem hw)
      free := by simp [fill, rebuildQueues]
      freeOnce := .nil
      events := queueOf_ok (fun i a => (hentries i a).trans (iff_of_eq (and_true _)).symm) hold
      observed := queueOf_ok (fun i a => mem_filter.trans (and_congr_left' (hentries i a))) hold
      owners := fun o => queueOf_ok
        (fun i a => mem_filter.trans (and_congr (hentries i a) decide_eq_true_iff)) hold }

lemma pending_fill (h : Fits s slots) : (s.fill slots).pending = {a | a ∈ slots} := by
  ext a
  rw [← mem_liveSlots (fill_good h), liveSlots_fill h.queued]
  rfl

end Impl

/-! ## Renumbering -/

open Ranking

lemma length_renumber (slots : List (Slot κ)) : (renumber slots).length = slots.length := by
  simp [renumber, relabel]

variable {slots : List (Slot κ)}

theorem getElem?_renumber {b : Slot κ} :
    (renumber slots)[i]? = some b ↔
      ∃ a, slots[i]? = some a ∧ b = a.numbered (rank Slot.sequence slots i) := by
  rw [renumber, relabel, getElem?_mapIdx]
  simp [eq_comm]

lemma mem_renumber {b : Slot κ} (hb : b ∈ renumber slots) :
    ∃ i, ∃ a : Slot κ, slots[i]? = some a ∧ b = a.numbered (rank Slot.sequence slots i) := by
  obtain ⟨i, hi⟩ := List.mem_iff_getElem?.mp hb
  obtain ⟨a, ha, he⟩ := getElem?_renumber.mp hi
  exact ⟨i, a, ha, he⟩

section

variable (slots : List (Slot κ))

lemma renumber_ids : (renumber slots).map Slot.id = slots.map Slot.id := by
  refine ext_getElem? ?_
  intro i
  rw [getElem?_map, getElem?_map, renumber, relabel, getElem?_mapIdx, Option.map_map]
  rfl

lemma renumber_sequences :
    ((renumber slots).map Slot.sequence).Nodup := by
  refine List.nodup_iff_injective_getElem.mpr ?_
  rintro ⟨i, hi⟩ ⟨j, hj⟩ he
  have hi' : i < slots.length := by simpa [length_renumber] using hi
  simp [renumber, relabel] at he
  exact Fin.ext (rank_inj hi' he)

end

end Fil.Sim
