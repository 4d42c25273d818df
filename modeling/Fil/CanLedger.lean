-- The ledger of the CAN bus. Every accepted request goes through the stages of
-- its life once: it waits, takes the wire, is delivered node by node and ends.
-- The ledger is written where the code does these things, so what it tells of a
-- request is what happened to it, however deep the callbacks are nested.
import Fil.CanWire
import Fil.Journeys

open Fil.Sim Fil.Sim.Impl List

namespace Fil.Devices

/-! ## The life of a request -/

/-- Where a request is. `delivering` lists the nodes that it still goes to. -/
inductive Stage
  | waiting (t : Transmission)
  | onWire (t : Transmission)
  | delivering (t : Transmission) (nodes : List Nat)
  | finished
  | cancelled
  | failed

/-- The request that a note is about. -/
def Note.sequence : Note → Nat
  | .accept t => t.sequence
  | .start k => k
  | .cancel k _ => k
  | .fail k _ _ _ => k
  | .delivery k _ => k
  | .turn k _ _ _ => k
  | .finish k _ _ => k

/-- The sender of a request may hear of its end. -/
def senderThere (t : Transmission) (attached : List Nat) : Bool :=
  match t.sender with
  | none => true
  | some sender => decide (sender ∈ attached)

/-- The frame and the gap after it go past the last time of the clock. -/
def pastClock (bitrate fraction : Nat) (frame : CanFrame) (start : Nat) : Bool :=
  match classicCanStuffedFrameBits frame with
  | .error _ => false
  | .ok bits => bitrate ≠ 0 && !(frameTimes bitrate fraction bits).fits start

def nextStage (bitrate : Nat) : Stage → Note → Option Stage
  | .waiting t, .start _ => some (.onWire t)
  | .waiting t, .cancel _ sender => if t.sender = some sender then some .cancelled else none
  | .waiting t, .fail _ start fraction called =>
    if called = t.completion && pastClock bitrate fraction t.frame start then some .failed else none
  | .onWire t, .cancel _ sender => if t.sender = some sender then some .cancelled else none
  | .onWire t, .delivery _ nodes =>
    some (.delivering t ((receivers nodes t.sender).map Node.id))
  | .delivering t (node :: rest), .turn _ id attached received =>
    if id = node && received = decide (node ∈ attached) then some (.delivering t rest) else none
  | .delivering t [], .finish _ attached called =>
    if called = (t.completion && senderThere t attached) then some .finished else none
  | _, _ => none

def lifeRules (bitrate : Nat) : Journeys.Rules Nat Stage Note where
  key := Note.sequence
  begins
    | .accept t => some (.waiting t)
    | _ => none
  next := nextStage bitrate
  «over»
    | .finished | .cancelled | .failed => True
    | _ => False

/-! ## Stories -/

/-- A node's turn: it receives the frame exactly if it is attached then. -/
def TurnOf (k : Nat) (node : Nat) (n : Note) : Prop :=
  ∃ attached, n = .turn k node attached (decide (node ∈ attached))

/-- The whole story of a request, the oldest note first. -/
inductive Ended (bitrate : Nat) (t : Transmission) : List Note → Prop
  /-- It was delivered to all who were attached when the delivery began, the sender
  only if it listens to itself, in the order of attachment, and its completion was
  called if the sender was still there. -/
  | finished (nodes : List Node) (turns : List Note) (attached : List Nat)
      (each : List.Forall₂ (TurnOf t.sequence) ((receivers nodes t.sender).map Node.id) turns) :
      Ended bitrate t ([.accept t, .start t.sequence, .delivery t.sequence nodes] ++ turns ++
        [.finish t.sequence attached (t.completion && senderThere t attached)])
  /-- Its sender was cancelled while it waited. -/
  | cancelledWaiting (sender : Nat) (sent : t.sender = some sender) :
      Ended bitrate t [.accept t, .cancel t.sequence sender]
  /-- Its sender was cancelled while it was on the wire. -/
  | cancelledOnWire (sender : Nat) (sent : t.sender = some sender) :
      Ended bitrate t [.accept t, .start t.sequence, .cancel t.sequence sender]
  /-- It would have gone past the end of the clock, and its completion was told so. -/
  | failed (start fraction : Nat) (late : pastClock bitrate fraction t.frame start = true) :
      Ended bitrate t [.accept t, .fail t.sequence start fraction t.completion]

/-- The story of a request so far. -/
def StoryAt (bitrate k : Nat) : Stage → List Note → Prop
  | .waiting t, notes => t.sequence = k ∧ notes = [.accept t]
  | .onWire t, notes => t.sequence = k ∧ notes = [.accept t, .start k]
  | .delivering t rest, notes => t.sequence = k ∧ ∃ nodes done turns,
      (receivers nodes t.sender).map Node.id = done ++ rest ∧ List.Forall₂ (TurnOf k) done turns ∧
      notes = [.accept t, .start k, .delivery k nodes] ++ turns
  | _, notes => ∃ t : Transmission, t.sequence = k ∧ Ended bitrate t notes

variable {bitrate k : Nat} {notes : List Note} {n : Note} {s : Stage}

lemma storyAt_begins (hkey : n.sequence = k)
    (hbegins : (lifeRules bitrate).begins n = some s) : StoryAt bitrate k s [n] := by
  cases n with
  | accept t => cases hbegins; exact ⟨hkey, rfl⟩
  | _ => cases hbegins

lemma storyAt_next {s' : Stage} (hkey : n.sequence = k)
    (hnext : nextStage bitrate s n = some s') (hstory : StoryAt bitrate k s notes) :
    StoryAt bitrate k s' (notes ++ [n]) := by
  unfold nextStage at hnext
  split at hnext
  · cases hnext
    obtain ⟨hk, rfl⟩ := hstory
    cases hkey
    exact ⟨hk, rfl⟩
  · split_ifs at hnext with hsender
    cases hnext
    obtain ⟨hk, rfl⟩ := hstory
    cases hkey
    subst hk
    exact ⟨_, rfl, .cancelledWaiting _ hsender⟩
  · split_ifs at hnext with hlate
    cases hnext
    obtain ⟨hk, rfl⟩ := hstory
    cases hkey
    subst hk
    simp at hlate
    obtain ⟨rfl, hlate⟩ := hlate
    exact ⟨_, rfl, .failed _ _ hlate⟩
  · split_ifs at hnext with hsender
    cases hnext
    obtain ⟨hk, rfl⟩ := hstory
    cases hkey
    subst hk
    exact ⟨_, rfl, .cancelledOnWire _ hsender⟩
  · cases hnext
    obtain ⟨hk, rfl⟩ := hstory
    cases hkey
    exact ⟨hk, _, [], [], rfl, .nil, rfl⟩
  · rename_i t node rest k' id attached received
    split_ifs at hnext with hturn
    cases hnext
    obtain ⟨hk, nodes, done, turns, hsplit, heach, rfl⟩ := hstory
    cases hkey
    simp at hturn
    obtain ⟨rfl, rfl⟩ := hturn
    have hlast : List.Forall₂ (TurnOf k') (done ++ [id])
        (turns ++ [.turn k' id attached (decide (id ∈ attached))]) :=
      rel_append heach (.cons ⟨attached, rfl⟩ .nil)
    refine ⟨hk, nodes, done ++ [id], _, ?_, hlast, append_assoc _ _ _⟩
    rw [hsplit, append_assoc]
    rfl
  · split_ifs at hnext with hcalled
    cases hnext
    obtain ⟨hk, nodes, done, turns, hsplit, heach, rfl⟩ := hstory
    cases hkey
    subst hk hcalled
    rw [append_nil] at hsplit
    rw [← hsplit] at heach
    exact ⟨_, rfl, .finished nodes turns _ heach⟩
  · cases hnext

lemma turns_missed (k : Nat) (nodes : List Nat) :
    List.Forall₂ (TurnOf k) nodes (nodes.map fun node => .turn k node [] false) := by
  induction nodes with
  | nil => exact .nil
  | cons node rest ih => exact .cons ⟨[], by simp⟩ ih

/-- Every story can come to an end, so it is the beginning of a whole one. -/
lemma storyAt_unended (hstory : StoryAt bitrate k s notes) :
    ∃ t : Transmission, t.sequence = k ∧ ∃ later, Ended bitrate t (notes ++ later) := by
  have hdelivery : ∀ t : Transmission, t.sequence = k → ∃ later,
      Ended bitrate t ([.accept t, .start k] ++ later) := by
    rintro t rfl
    exact ⟨_, .finished [] [] [] .nil⟩
  cases s with
  | waiting t =>
    obtain ⟨hk, rfl⟩ := hstory
    obtain ⟨later, hended⟩ := hdelivery t hk
    exact ⟨t, hk, .start k :: later, hended⟩
  | onWire t =>
    obtain ⟨hk, rfl⟩ := hstory
    exact ⟨t, hk, hdelivery t hk⟩
  | delivering t rest =>
    obtain ⟨rfl, nodes, done, turns, hsplit, heach, rfl⟩ := hstory
    have hall : List.Forall₂ (TurnOf t.sequence) (done ++ rest)
        (turns ++ rest.map fun node => .turn t.sequence node [] false) :=
      rel_append heach (turns_missed t.sequence rest)
    rw [← hsplit] at hall
    have hended : Ended bitrate t _ := .finished nodes _ [] hall
    rw [← append_assoc _ turns, append_assoc _ (rest.map _)] at hended
    exact ⟨t, rfl, _, hended⟩
  | finished | cancelled | failed =>
    obtain ⟨t, hk, hended⟩ := hstory
    exact ⟨t, hk, [], by rwa [append_nil]⟩

lemma accept_not_turn {nodes : List Nat} {turns : List Note} (t : Transmission)
    (heach : List.Forall₂ (TurnOf k) nodes turns) : .accept t ∉ turns := by
  induction heach with
  | nil => simp
  | cons hturn _ ih =>
    obtain ⟨attached, rfl⟩ := hturn
    simp [ih]

lemma Ended.accepted {t t' : Transmission} (hended : Ended bitrate t' notes)
    (haccept : .accept t ∈ notes) : t = t' := by
  cases hended with
  | finished nodes turns attached each =>
    simp [Note.accept.injEq] at haccept
    exact haccept.resolve_right (accept_not_turn t each)
  | _ => simpa using haccept

/-! ## What the bus has at hand -/

def Hand.held : Hand → List (Nat × Stage)
  | .free => []
  | .owing => []
  | .arrived t => [(t.sequence, .onWire t)]
  | .delivering t nodes => [(t.sequence, .delivering t nodes)]

namespace CanSystem

def parked (c : CanSystem) : List (Nat × Stage) :=
  c.calls.flatMap (fun call => call.1.hand.held) ++
    (c.bus.inFlight.toList.map (fun t => (t.sequence, .onWire t)) ++
      c.bus.pending.map fun t => (t.sequence, .waiting t))

/-- The ledger tells where every request is. -/
structure Told (h : Hand) (c : CanSystem) : Prop where
  tells : Journeys.Tells (R := lifeRules c.bus.bitrate) (h.held ++ c.parked) c.ledger
  fresh : ∀ n ∈ c.ledger, n.sequence < c.bus.nextTransmissionSequence
  classic : ∀ t ∈ c.bus.pending, ∃ bits, classicCanStuffedFrameBits t.frame = .ok bits
  rate : c.bus.pending ≠ [] → c.bus.bitrate ≠ 0

variable {timely : Prop} {h h' : Hand} {c c' : CanSystem}

lemma Told.frame (hc : Told h c) (hheld : h'.held ++ c'.parked = h.held ++ c.parked)
    (hledger : c'.ledger = c.ledger) (hrate : c'.bus.bitrate = c.bus.bitrate)
    (hnext : c'.bus.nextTransmissionSequence = c.bus.nextTransmissionSequence)
    (hpending : c'.bus.pending = c.bus.pending) : Told h' c' where
  tells := by
    rw [hheld, hledger, hrate]
    exact hc.tells
  fresh := by
    rw [hledger, hnext]
    exact hc.fresh
  classic := by
    rw [hpending]
    exact hc.classic
  rate := by
    rw [hpending, hrate]
    exact hc.rate

lemma Told.numbered (hc : Told h c) {k : Nat} (hk : (k, s) ∈ h.held ++ c.parked) :
    k < c.bus.nextTransmissionSequence := by
  obtain ⟨n, hn, rfl⟩ := hc.tells.named hk
  exact hc.fresh n hn

variable {t : Transmission}

lemma Told.waiting (hc : Told h c) (hwaits : t ∈ c.bus.pending) :
    t.sequence < c.bus.nextTransmissionSequence := by
  have hmem : (t.sequence, Stage.waiting t) ∈ h.held ++ c.parked := by
    unfold parked
    simp only [mem_append, mem_map]
    exact .inr (.inr (.inr ⟨t, hwaits, rfl⟩))
  exact hc.numbered hmem

lemma Told.unqueue (hc : Told .owing c) (hwaits : t ∈ c.bus.pending) :
    c.parked.Perm ((t.sequence, .waiting t) :: (c.unqueue t).parked) := by
  have hnumbers : (c.bus.pending.map Transmission.sequence).Nodup := by
    have honce := hc.tells.once
    have hsub : (c.bus.pending.map fun t => (t.sequence, Stage.waiting t)).Sublist
        (Hand.owing.held ++ c.parked) :=
      (sublist_append_right _ _).trans (sublist_append_right _ _)
    have hqueue := honce.sublist (hsub.map Prod.fst)
    rw [map_map] at hqueue
    exact hqueue
  -- the first request with that number is the one that is meant
  have hperm : c.bus.pending.Perm (t :: (c.unqueue t).bus.pending) := by
    obtain ⟨x, before, after, hbefore, hx, hsplit, hrest⟩ :=
      exists_of_eraseP (p := fun x => decide (x.sequence = t.sequence)) hwaits (by simp)
    have hsame : x = t := inj_on_of_nodup_map hnumbers (by rw [hsplit]; simp) hwaits
      (by simpa using hx)
    subst hsame
    unfold CanSystem.unqueue
    rw [hrest, hsplit]
    exact perm_middle
  have hqueue := hperm.map fun t : Transmission => (t.sequence, Stage.waiting t)
  refine ((hqueue.append_left _).append_left _).trans ?_
  refine (List.Perm.append_left _ perm_middle).trans ?_
  exact perm_middle

/-- The frame on the wire, apart from the rest. -/
lemma parked_carried (hcarried : c.bus.inFlight = some t) :
    c.parked.Perm ((t.sequence, .onWire t) ::
      { c with bus := { c.bus with inFlight := none } }.parked) := by
  unfold parked
  rw [hcarried]
  exact perm_middle

lemma pastClock_of_late {start : Nat} (hc : Told h c)
    (hwaits : t ∈ c.bus.pending) (hlate : c.bus.wireTimes t.frame start = none) :
    pastClock c.bus.bitrate c.bus.fractionalNumerator t.frame start = true := by
  obtain ⟨bits, hbits⟩ := hc.classic t hwaits
  have hrate := hc.rate (ne_nil_of_mem hwaits)
  unfold VirtualCanBus.wireTimes at hlate
  unfold pastClock
  rw [hbits] at hlate ⊢
  simpa [hrate] using hlate

/-- The requests of a cancelled sender leave the queue. -/
lemma Told.drop (hc : Told .owing c) (sender : Nat) : Told .owing (c.dropPending sender) := by
  have hsub : (c.dropPending sender).bus.pending ⊆ c.bus.pending := fun _ => mem_of_mem_filter
  refine ⟨?_, ?_, fun t ht => hc.classic t (hsub ht), fun hsome => hc.rate ?_⟩
  · have hperm := (filter_append_perm (fun t => decide (t.sender = some sender))
      c.bus.pending).symm.map fun t : Transmission => (t.sequence, Stage.waiting t)
    simp only [← decide_not, map_append] at hperm
    have hparked : (Hand.owing.held ++ c.parked).Perm
        ((c.bus.pending.filter fun t => t.sender = some sender).map
          (fun t => (t.sequence, Stage.waiting t)) ++ (c.dropPending sender).parked) := by
      refine ((hperm.append_left _).append_left _).trans ?_
      refine (List.Perm.append_left _ (perm_append_comm_assoc _ _ _)).trans ?_
      exact perm_append_comm_assoc _ _ _
    refine Journeys.Tells.leaveAll Transmission.sequence .waiting
      (fun t => .cancel t.sequence sender) (fun _ => rfl) ?_ (hc.tells.perm hparked)
    intro t ht
    have hsender : t.sender = some sender := by simpa using (mem_filter.mp ht).2
    exact ⟨.cancelled, if_pos hsender, trivial⟩
  · intro n hn
    rcases mem_append.mp hn with hnew | hold
    · obtain ⟨t, ht, rfl⟩ := mem_map.mp (mem_reverse.mp hnew)
      exact hc.waiting (mem_of_mem_filter ht)
    · exact hc.fresh n hold
  · rintro hnone
    exact hsome (eq_nil_of_subset_nil (hnone ▸ hsub))

lemma Told.enqueue (hc : Told .owing c)
    (hfresh : t.sequence = c.bus.nextTransmissionSequence)
    (hclassic : ∃ bits, classicCanStuffedFrameBits t.frame = .ok bits) (hrate : c.bus.bitrate ≠ 0) :
    Told .owing (c.enqueue t) := by
  have hunnamed : Journeys.stage (lifeRules c.bus.bitrate) t.sequence c.ledger = some none :=
    Journeys.stage_unnamed fun n hn => by
      have hlt := hc.fresh n hn
      rw [← hfresh] at hlt
      exact hlt.ne
  have henter : Journeys.Tells (R := lifeRules c.bus.bitrate)
      ((t.sequence, .waiting t) :: c.parked) (.accept t :: c.ledger) :=
    Journeys.Tells.enter (n := Note.accept t) hc.tells (by exact hunnamed) rfl
  refine ⟨henter.perm ?_, ?_, ?_, fun _ => hrate⟩
  · unfold parked CanSystem.enqueue note
    dsimp [Hand.held]
    rw [map_append, ← append_assoc, ← append_assoc, ← append_assoc]
    exact (perm_append_singleton _ _).symm
  · intro n hn
    rcases mem_cons.mp hn with rfl | hold
    · exact hfresh.trans_lt (Nat.lt_succ_self _)
    · exact Nat.lt_succ_of_lt (hc.fresh n hold)
  · intro x hx
    rcases mem_append.mp hx with hold | hnew
    · exact hc.classic x hold
    · rw [mem_singleton.mp hnew]
      exact hclassic

lemma Told.noted (hc : Told h c)
    (hheld : (n.sequence, s) ∈ h.held ++ c.parked) :
    ∀ m ∈ n :: c.ledger, m.sequence < c.bus.nextTransmissionSequence := by
  intro m hm
  rcases mem_cons.mp hm with rfl | hold
  · exact hc.numbered hheld
  · exact hc.fresh m hold

lemma Told.next (hc : Told h c) {s' : Stage}
    (hheld : h.held = [(n.sequence, s)]) (hnext : nextStage c.bus.bitrate s n = some s')
    (hafter : h'.held = [(n.sequence, s')] ∨ h'.held = [] ∧ (lifeRules c.bus.bitrate).over s') :
    Told h' (c.note n) := by
  have htells := hc.tells
  rw [hheld, singleton_append] at htells
  refine ⟨?_, hc.noted (by rw [hheld]; exact mem_cons_self), hc.classic, hc.rate⟩
  rcases hafter with heq | ⟨heq, hover⟩
  · rw [heq]
    exact htells.move hnext
  · rw [heq]
    exact htells.leave hnext hover

lemma Told.rearranged (hc : Told .owing c) {rest : List (Nat × Stage)}
    (hparked : c.parked.Perm ((n.sequence, s) :: rest)) :
    Journeys.Tells (R := lifeRules c.bus.bitrate) ((n.sequence, s) :: rest) c.ledger ∧
      ∀ m ∈ n :: c.ledger, m.sequence < c.bus.nextTransmissionSequence :=
  ⟨hc.tells.perm hparked, hc.noted (hparked.mem_iff.mpr mem_cons_self)⟩

lemma Told.step (hstep : Step timely (h, c) (h', c')) (hgood : Good c.loop.impl)
    (hconsistent : Consistent h c) (hc : Told h c) : Told h' c' := by
  cases hstep with
  | loop => exact hc.frame rfl rfl rfl rfl rfl
  | nodes => exact hc.frame rfl rfl rfl rfl rfl
  | count => exact hc.frame rfl rfl rfl rfl rfl
  | owe => exact hc.frame rfl rfl rfl rfl rfl
  | settle => exact hc.frame rfl rfl rfl rfl rfl
  | disarm => exact hc.frame rfl rfl rfl rfl rfl
  | arbitration => exact hc.frame rfl rfl rfl rfl rfl
  | stray => exact hc.frame rfl rfl rfl rfl rfl
  | park what depth =>
    refine hc.frame ?_ rfl rfl rfl rfl
    unfold parked
    dsimp [Hand.held]
    rw [flatMap_cons, append_assoc]
  | unpark waits =>
    refine hc.frame ?_ rfl rfl rfl rfl
    unfold parked
    dsimp [Hand.held]
    rw [waits, flatMap_cons, append_assoc]
  | arm idle armed =>
    obtain ⟨impl, slot, rfl, -⟩ := arm_spec hgood armed
    exact hc.frame rfl rfl rfl rfl rfl
  | drop sender => exact hc.drop sender
  | enqueue fresh room classic rate => exact hc.enqueue fresh classic rate
  | @abort _ t sender flies carried sent began =>
    obtain ⟨htells, hfresh⟩ := hc.rearranged (n := .cancel t.sequence sender)
      (parked_carried carried)
    have hnext : (lifeRules c.bus.bitrate).next (.onWire t) (.cancel t.sequence sender) =
        some .cancelled := if_pos sent
    have hover : (lifeRules c.bus.bitrate).over .cancelled := trivial
    have hleft := htells.leave hnext hover
    exact ⟨hleft, hfresh, hc.classic, hc.rate⟩
  | @fail _ t start waits late =>
    obtain ⟨htells, hfresh⟩ := hc.rearranged
      (n := .fail t.sequence start c.bus.fractionalNumerator t.completion) (hc.unqueue waits)
    have hlate := pastClock_of_late hc waits late
    have hnext : (lifeRules c.bus.bitrate).next (.waiting t)
        (.fail t.sequence start c.bus.fractionalNumerator t.completion) = some .failed :=
      if_pos (by simp [hlate])
    have hover : (lifeRules c.bus.bitrate).over .failed := trivial
    have hleft := htells.leave hnext hover
    refine ⟨hleft, hfresh, ?_, ?_⟩
    · exact fun x hx => hc.classic x (mem_of_mem_eraseP hx)
    · exact fun _ => hc.rate (ne_nil_of_mem waits)
  | @start _ _ t start times waits idle gap armed =>
    obtain ⟨impl, slot, rfl, -⟩ := arm_spec (by exact hgood) armed
    obtain ⟨htells, hfresh⟩ := hc.rearranged (n := .start t.sequence) (hc.unqueue waits)
    have hnone := hconsistent.not_carried (by simp [idle])
    have hnext : nextStage c.bus.bitrate (.waiting t) (.start t.sequence) = some (.onWire t) := rfl
    refine ⟨(htells.move hnext).perm ?_, hfresh, ?_, ?_⟩
    · unfold parked CanSystem.unqueue carry note
      rw [hnone]
      exact perm_middle.symm
    · exact fun x hx => hc.classic x (mem_of_mem_eraseP hx)
    · exact fun _ => hc.rate (ne_nil_of_mem waits)
  | completion taken callback carried =>
    exact ⟨hc.tells.perm (parked_carried carried), hc.fresh, hc.classic, hc.rate⟩
  | delivery => exact hc.next rfl rfl (.inl rfl)
  | turn told => exact hc.next rfl (if_pos (by simp [told])) (.inl rfl)
  | finish => exact hc.next rfl (if_pos rfl) (.inr ⟨rfl, trivial⟩)

/-! ## The law of the ledger -/

/-- The loop has no event left. -/
def Drained (c : CanSystem) : Prop := ∀ slot ∈ c.loop.impl.slots, slot.state ≠ .queued

instance (c : CanSystem) : Decidable c.Drained :=
  inferInstanceAs (Decidable (∀ slot ∈ c.loop.impl.slots, slot.state ≠ .queued))

/-- The notes about a request, the oldest first. -/
def story (c : CanSystem) (k : Nat) : List Note :=
  (c.ledger.filter fun n => n.sequence = k).reverse

lemma Consistent.nothing_parked (hc : Consistent .free c) (hcalls : c.calls = [])
    (hdrained : c.Drained) : c.parked = [] := by
  have hagrees := hc.agrees hcalls
  have hnone : busEvents c.loop.impl = ∅ := by
    rw [Set.eq_empty_iff_forall_notMem]
    rintro slot ⟨⟨i, hget, hqueued⟩, -⟩
    exact hdrained slot (mem_of_getElem? hget) hqueued
  have hno : ∀ id callback, ¬ OneEvent c.loop.impl id callback := by
    rintro id callback ⟨slot, hevents, -⟩
    rw [hnone] at hevents
    exact Set.singleton_ne_empty slot hevents.symm
  have hidle : c.bus.timedState = .idle := by
    have harmed := hagrees.armed
    unfold Armed at harmed
    cases hstate : c.bus.timedState with
    | idle => rfl
    | arbitrating => rw [hstate] at harmed; exact absurd harmed (hno _ _)
    | inFlight => rw [hstate] at harmed; exact absurd harmed (hno _ _)
  have hpending : c.bus.pending = [] := by
    by_contra hsome
    exact hagrees.awake hsome hidle
  unfold parked
  rw [hcalls, hc.not_carried (by simp [hidle]), hpending]
  rfl

variable {bitrate : BitVec 32} {queueCapacity limit : Nat} {moves : List CanMove}

lemma Step.keeps_bitrate (hstep : Step timely (h, c) (h', c')) (hgood : Good c.loop.impl) :
    c'.bus.bitrate = c.bus.bitrate := by
  cases hstep with
  | arm idle armed =>
    obtain ⟨impl, slot, rfl, -⟩ := arm_spec hgood armed
    rfl
  | start waits idle gap armed =>
    obtain ⟨impl, slot, rfl, -⟩ := arm_spec (by exact hgood) armed
    rfl
  | _ => rfl

lemma run_told (hrun : (start bitrate queueCapacity limit).run moves = some c) :
    Told .free c ∧ c.bus.bitrate = bitrate.toNat := by
  have hboth : Consistent .free c ∧ Told .free c ∧ c.bus.bitrate = bitrate.toNat := by
    refine run_induct (P := fun h c => Consistent h c ∧ Told h c ∧ c.bus.bitrate = bitrate.toNat)
      False.elim hrun ?_ ?_
    · exact ⟨consistent_start, ⟨Journeys.tells_nothing, by simp [start], by simp [start],
        by simp [start]⟩, rfl⟩
    · rintro h c h' c' hstep hgood ⟨hconsistent, htold, hrate⟩
      exact ⟨hconsistent.step hstep hgood, htold.step hstep hgood hconsistent,
        (hstep.keeps_bitrate hgood).trans hrate⟩
  exact hboth.2

/-! ## Notes and the bus -/

/-- The user code that a move has called last. -/
def working (c : CanSystem) : Option Waiting := c.calls.head?.map Prod.fst

/-- A note that a move has written is right: it names the nodes that are attached at
that moment, and where it says that a receiver or a completion was called, that one is at
work after the move. -/
def Records (c c' : CanSystem) : Note → Prop
  | .delivery _ nodes => nodes = c.bus.nodes
  | .turn k _ attached received => attached = c.bus.attached ∧
      (received = true → ∃ t time rest, t.sequence = k ∧
        c'.working = some (.receiving t time rest))
  | .finish _ attached called => attached = c.bus.attached ∧
      (called = true → c'.working = some .completing)
  | .fail _ _ _ called => called = true → c'.working = some .failing
  | _ => True

/-- What a function writes into the ledger is right. -/
def Adds (c c' : CanSystem) : Prop :=
  ∃ new, c'.ledger = new ++ c.ledger ∧ ∀ n ∈ new, Records c c' n

def Recorded (c : CanSystem) (m : CanMove) : Prop := ∀ c', c.act m = some c' → c.Adds c'

lemma Adds.nothing (h : c'.ledger = c.ledger) : Adds c c' := ⟨[], h, by simp⟩

lemma Adds.single (h : c'.ledger = n :: c.ledger) (hn : Records c c' n) : Adds c c' :=
  ⟨[n], h, by simpa using hn⟩

/-- A note, and what a call behind it writes. -/
lemma Adds.behind (h : Adds (c.note n) c') (hn : Records c c' n) : Adds c c' := by
  obtain ⟨new, hnew, hall⟩ := h
  exact ⟨new ++ [n], hnew.trans (append_cons _ _ _),
    forall_mem_append.mpr ⟨hall, forall_mem_singleton.mpr hn⟩⟩

lemma arm_ledger {due : Nat} {callback : Callback} {state : TimedState}
    (h : c.arm due callback state = some c') : c'.ledger = c.ledger := by
  unfold arm at h
  split at h <;> cases h
  rfl

lemma scheduleArbitration_ledger (h : c.scheduleArbitration = some c') :
    c'.ledger = c.ledger := by
  unfold scheduleArbitration at h
  split_ifs at h
  · cases h
    rfl
  · cases h
    rfl
  · exact arm_ledger h

lemma finishEvent_ledger (h : c.finishEvent = some c') : c'.ledger = c.ledger := by
  obtain ⟨c₁, hschedule, rfl⟩ := Option.map_eq_some_iff.mp h
  show c₁.ledger = c.ledger
  exact scheduleArbitration_ledger hschedule

lemma cancelSender_adds {sender : Nat} (h : c.cancelSender sender = some c') :
    Adds c c' := by
  have hdropped : ∃ new, (c.dropPending sender).ledger = new ++ c.ledger ∧
      ∀ n ∈ new, Records c c' n := by
    refine ⟨_, rfl, fun n hn => ?_⟩
    obtain ⟨t, -, rfl⟩ := mem_map.mp (mem_reverse.mp hn)
    trivial
  obtain ⟨new, hnew, hall⟩ := hdropped
  have hledger := scheduleArbitration_ledger h
  unfold withdraw at hledger
  split at hledger
  · split at hledger
    · exact ⟨new, hledger.trans hnew, hall⟩
    split_ifs at hledger
    · exact ⟨_ :: new, hledger.trans (congrArg _ hnew), forall_mem_cons.mpr ⟨trivial, hall⟩⟩
    · exact ⟨new, hledger.trans hnew, hall⟩
  · exact ⟨new, hledger.trans hnew, hall⟩
  · exact ⟨new, hledger.trans hnew, hall⟩

lemma submit_adds {result : Except CanError Unit} {t : Transmission}
    (h : c.submit t = some (result, c')) : Adds c c' := by
  unfold submit at h
  split_ifs at h
  · cases h
    exact .nothing rfl
  · cases h
    exact .nothing rfl
  · cases h
    exact .nothing rfl
  obtain ⟨c₁, hschedule, hc⟩ := Option.map_eq_some_iff.mp h
  cases hc
  have hledger := scheduleArbitration_ledger hschedule
  split_ifs at hledger <;> exact .single hledger trivial

lemma arbitrate_adds (h : c.arbitrate = some c') : Adds c c' := by
  unfold arbitrate at h
  split_ifs at h
  · cases h
    exact .nothing rfl
  · cases h
    exact .nothing rfl
  dsimp only at h
  split at h
  · exact .nothing (finishEvent_ledger h)
  split at h
  · unfold failTransmission at h
    split_ifs at h with hcalled
    · cases h
      exact .single rfl fun _ => rfl
    · exact .single (finishEvent_ledger h) fun htrue => absurd htrue hcalled
  · obtain ⟨c₁, harm, rfl⟩ := Option.map_eq_some_iff.mp h
    exact .single (arm_ledger harm) trivial

lemma deliver_adds {t : Transmission} {time : Nat} {nodes : List Node}
    (h : c.deliver t time nodes = some c') : Adds c c' := by
  induction nodes generalizing c with
  | nil =>
    unfold deliver at h
    dsimp only at h
    split_ifs at h with hcalled
    · cases h
      exact .single rfl ⟨rfl, fun _ => rfl⟩
    · exact .single (finishEvent_ledger h) ⟨rfl, fun htrue => absurd htrue hcalled⟩
  | cons node rest ih =>
    unfold deliver at h
    split_ifs at h
    · cases h
      exact .nothing rfl
    · exact (ih h).behind ⟨rfl, fun h => absurd h Bool.false_ne_true⟩

lemma resume_adds {what : Waiting} (h : c.resume what = some c') : Adds c c' := by
  cases what with
  | rejected | startOfFrame =>
    cases h
    exact .nothing rfl
  | failing | completing => exact .nothing (finishEvent_ledger h)
  | receiving t time rest => exact deliver_adds h
  | barrier t time => exact (deliver_adds h).behind rfl
  | tracing t time node rest =>
    unfold resume at h
    dsimp only at h
    split_ifs at h
    · cases h
      exact .single rfl ⟨rfl, fun _ => ⟨t, time, rest, rfl, rfl⟩⟩
    · exact (deliver_adds h).behind ⟨rfl, fun h => absurd h Bool.false_ne_true⟩

lemma nextRound_adds (h : c.nextRound = some c') : Adds c c' := by
  unfold nextRound at h
  split at h
  · cases h
  split_ifs at h
  split at h
  · cases h
    exact .nothing rfl
  dsimp only at h
  split at h
  · have hadds := arbitrate_adds h
    exact hadds
  · unfold completionEvent at h
    dsimp only at h
    split at h <;> cases h <;> exact .nothing rfl
  · cases h
    exact .nothing rfl

/-- Whatever a move writes into the ledger is right at that moment. -/
lemma act_adds (m : CanMove) : c.Recorded m := by
  intro c' h
  have hunder : ∀ {owner : Nat} {f : CanSystem → Option CanSystem},
      (∀ c₂, f (c.useOwner owner) = some c₂ → Adds (c.useOwner owner) c₂) →
      c.underOwner owner f = some c' → Adds c c' := by
    intro owner f hf hunder
    obtain ⟨c₂, hcall, rfl⟩ := Option.map_eq_some_iff.mp hunder
    exact hf c₂ hcall
  cases m with
  | loop m =>
    cases m
    case next => exact nextRound_adds h
    all_goals
      simp [act, loopMove] at h
      obtain ⟨-, _, -, rfl⟩ := h
      exact .nothing rfl
  | back =>
    change c.comeBack = some c' at h
    unfold comeBack at h
    split at h
    · cases h
    split_ifs at h
    have hadds := resume_adds h
    exact hadds
  | attach name loopback callback =>
    simp [act] at h
    obtain ⟨-, rfl⟩ := h
    unfold CanSystem.attach
    split_ifs <;> exact .nothing rfl
  | detach owner id =>
    simp [act] at h
    refine hunder (fun c₂ hdetach => ?_) h.2
    obtain ⟨c₃, hcancel, rfl⟩ := Option.map_eq_some_iff.mp hdetach
    have hadds := cancelSender_adds hcancel
    exact hadds
  | send owner sender frame time completion =>
    simp [act] at h
    refine hunder (fun c₂ hcall => ?_) h.2
    obtain ⟨⟨result, _⟩, hsend, rfl⟩ := Option.map_eq_some_iff.mp hcall
    unfold CanSystem.send at hsend
    split at hsend
    · cases hsend
      exact .nothing rfl
    split at hsend
    · cases hsend
      exact .nothing rfl
    · exact submit_adds hsend
  | inject owner frame time completion =>
    simp [act] at h
    refine hunder (fun c₂ hcall => ?_) h.2
    obtain ⟨⟨result, _⟩, hinject, rfl⟩ := Option.map_eq_some_iff.mp hcall
    unfold CanSystem.inject at hinject
    split at hinject
    · cases hinject
      exact .nothing rfl
    · exact submit_adds hinject
  | cancelSender owner sender =>
    simp [act] at h
    exact hunder (fun c₂ hcancel => cancelSender_adds hcancel) h.2

lemma along_of_all {P : CanSystem → CanMove → Prop} (h : ∀ c m, P c m) (moves : List CanMove) :
    Along P c moves := by
  induction moves generalizing c with
  | nil => trivial
  | cons m moves ih => exact fun c' _ => ⟨h c m, ih⟩

/-- Every accepted request ends once. What the ledger tells of it is the beginning
of a whole story, in which it is delivered in order to all who are attached at
their turn and completed, or cancelled with its sender, or failed at the end of
the clock, and never two of these. When the loop is drained and no function of
the bus is at work, the story is whole. Who is attached, and that a receiver or a
completion is called, is told as it is in the move that writes it down. -/
theorem every_accepted_request_ends_once
    (hrun : (start bitrate queueCapacity limit).run moves = some c) {t : Transmission}
    (haccept : .accept t ∈ c.ledger) :
    (∃ later, Ended bitrate.toNat t (c.story t.sequence ++ later)) ∧
      (c.calls = [] → c.Drained → Ended bitrate.toNat t (c.story t.sequence)) ∧
      (start bitrate queueCapacity limit).Along Recorded moves := by
  obtain ⟨htold, hrate⟩ := run_told hrun
  have htells := htold.tells
  rw [hrate] at htells
  obtain ⟨hunbegun, hstory⟩ := Journeys.stage_story (R := lifeRules bitrate.toNat)
    (k := t.sequence) (P := StoryAt bitrate.toNat t.sequence)
    (fun n s => storyAt_begins) (fun s n s' notes => storyAt_next) c.ledger
  have hmem : .accept t ∈ c.story t.sequence := by
    unfold story
    rw [List.mem_reverse, List.mem_filter]
    exact ⟨haccept, decide_eq_true rfl⟩
  have hbegun : Journeys.stage (lifeRules bitrate.toNat) t.sequence c.ledger ≠ some none := by
    intro hnone
    have hempty : c.story t.sequence = [] := hunbegun hnone
    rw [hempty] at hmem
    cases hmem
  refine ⟨?_, ?_, along_of_all (fun _ => act_adds) moves⟩
  · obtain ⟨place, hplace⟩ := htells.follows t.sequence
    cases place with
    | none => exact absurd hplace hbegun
    | some s =>
      obtain ⟨t', -, later, hended⟩ := storyAt_unended (hstory s hplace)
      obtain rfl := hended.accepted (List.mem_append_left later hmem)
      exact ⟨later, hended⟩
  · intro hcalls hdrained
    have hnothing := (run_consistent hrun).nothing_parked hcalls hdrained
    rw [hnothing] at htells
    rcases htells.gone t.sequence (by simp [Hand.held]) with hnone | ⟨s, hs, hover⟩
    · exact absurd hnone hbegun
    have hended : ∃ t' : Transmission, t'.sequence = t.sequence ∧
        Ended bitrate.toNat t' (c.story t.sequence) := by
      have hat := hstory s hs
      cases s with
      | finished => exact hat
      | cancelled => exact hat
      | failed => exact hat
      | _ => exact hover.elim
    obtain ⟨t', -, hended⟩ := hended
    obtain rfl := hended.accepted hmem
    exact hended

/-- Node 2 sends a frame with a completion callback, to node 1. -/
def oneFrame (time : BitVec 64) : List CanMove :=
  [.attach "a" false true, .attach "b" false true, .send sharedEventOwner 2 { id := 0 } time true]

def oneRequest (time : Nat) : Transmission :=
  { frame := { id := 0 }, sender := some 2, senderName := "b", requestedNs := time,
    completion := true }

theorem a_frame_is_delivered_and_completed :
    ∃ c, (start 1000000000 8 100).run (oneFrame 0 ++ [.loop (.runDueEvents 100), .loop .next,
      .back, .loop .next, .back, .back, .back, .back, .loop .next]) = some c ∧
      c.story 0 = [.accept (oneRequest 0), .start 0,
        .delivery 0 [⟨1, "a", false⟩, ⟨2, "b", false⟩], .turn 0 1 [1, 2] true,
        .finish 0 [1, 2] true] ∧
      Ended 1000000000 (oneRequest 0) (c.story 0) := by
  refine ⟨_, (Option.some_get (by decide +kernel)).symm, by decide +kernel, ?_⟩
  refine (@every_accepted_request_ends_once _ 1000000000 8 100 _ (Option.some_get _).symm
    (oneRequest 0) ?_).2.1 ?_ ?_ <;> decide +kernel

/-- A frame that is asked for at the last nanosecond of the clock is accepted. It
is neither finished nor cancelled when the loop is drained. -/
theorem a_frame_at_the_end_of_the_clock_fails :
    ((start 1000000000 8 100).run (oneFrame (BitVec.allOnes 64) ++
      [.loop (.runDueEvents simTimeMax), .loop .next, .back, .loop .next])).map
        (fun c => (c.calls, c.ledger, decide c.Drained)) =
      some ([], [.fail 0 simTimeMax 0 true, .accept (oneRequest simTimeMax)], true) := by
  decide +kernel

end CanSystem

end Fil.Devices
