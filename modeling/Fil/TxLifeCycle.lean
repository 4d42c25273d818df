-- The life of a transmit request. A buffer is marked pending exactly while its
-- latest request is outstanding, and sent exactly when that request went out.
-- An answer that comes too late changes nothing, unless it is the failure of a
-- request that was withdrawn by a detach: then the controller reports an error.
import Fil.FdcanFacts
import Mathlib.Data.List.Induction

namespace Fil.Stm32g4

open Fil.Mem Fil.Devices List Function

/-! ## The ledger of requests -/

inductive RequestStatus
  | outstanding
  | completed
  | failed
  | withdrawn
  deriving DecidableEq

/-- Requests in the order they were made: the latest of each buffer and how it
stands, and the numbers of those that went out. -/
structure Ledger where
  next : Nat := 0
  latest : Nat → Option (Nat × RequestStatus) := fun _ => none
  completions : List Nat := []

variable {b r : Nat} {s : RequestStatus}

namespace Ledger

def Outstanding (l : Ledger) (buffer : Nat) : Prop :=
  ∃ request, l.latest buffer = some (request, .outstanding)

def Completed (l : Ledger) (buffer : Nat) : Prop :=
  ∃ request, l.latest buffer = some (request, .completed)

/-- A request ends; only one that is outstanding can. -/
def settle (l : Ledger) (buffer request : Nat) (status : RequestStatus) : Ledger :=
  if l.latest buffer = some (request, .outstanding) then
    { l with
      latest := Function.update l.latest buffer (some (request, status))
      completions := if status = .completed then l.completions ++ [request] else l.completions }
  else l

/-- How a request stands after a detach. -/
def withdraw : Option (Nat × RequestStatus) → Option (Nat × RequestStatus)
  | some (request, .outstanding) => some (request, .withdrawn)
  | entry => entry

def happen (l : Ledger) : Happening → Ledger
  | .requested buffer =>
    { l with
      next := l.next + 1
      latest := Function.update l.latest buffer (some (l.next, .outstanding)) }
  | .refused buffer request => l.settle buffer request .failed
  | .finished buffer request => l.settle buffer request .completed
  | .answered token success =>
    l.settle token.buffer token.request (if success then .completed else .failed)
  | .detached => { l with latest := fun buffer => withdraw (l.latest buffer) }
  | .reset => { l with latest := fun _ => none }
  | _ => l

def ofRecord (record : List Happening) : Ledger := record.foldl happen {}

lemma ofRecord_note (record : List Happening) (h : Happening) :
    ofRecord (record ++ [h]) = (ofRecord record).happen h := by
  simp [ofRecord]

/-- Numbers are used once, and a request that is outstanding has not gone out. -/
structure Sound (l : Ledger) : Prop where
  below : ∀ b r s, l.latest b = some (r, s) → r < l.next
  apart : ∀ b b' r s s', l.latest b = some (r, s) → l.latest b' = some (r, s') → b = b'
  open_ : ∀ b r, l.latest b = some (r, .outstanding) → r ∉ l.completions
  sent : ∀ r ∈ l.completions, r < l.next
  once : l.completions.Nodup

/-- An entry that was replaced is the new one; the others are old. -/
lemma update_cases {f : Nat → Option (Nat × RequestStatus)} {buffer r' : Nat}
    {s' : RequestStatus} (h : Function.update f buffer (some (r', s')) b = some (r, s)) :
    (b = buffer ∧ r = r' ∧ s = s') ∨ (b ≠ buffer ∧ f b = some (r, s)) := by
  by_cases hb : b = buffer
  · subst hb
    rw [update_self] at h
    cases h
    exact .inl ⟨rfl, rfl, rfl⟩
  · rw [update_of_ne hb] at h
    exact .inr ⟨hb, h⟩

variable {l : Ledger}

lemma Sound.settle (h : l.Sound) (buffer request : Nat) {status : RequestStatus}
    (hstatus : status ≠ .outstanding) : (l.settle buffer request status).Sound := by
  unfold Ledger.settle
  split
  · rename_i hopen
    have hnew := h.open_ buffer request hopen
    refine ⟨?_, ?_, ?_, ?_, ?_⟩
    · intro b r s hb
      rcases update_cases hb with ⟨rfl, rfl, rfl⟩ | ⟨-, hold⟩
      · exact h.below _ _ _ hopen
      · exact h.below b r s hold
    · intro b b' r s s' hb hb'
      rcases update_cases hb with ⟨rfl, rfl, rfl⟩ | ⟨-, hold⟩
      · rcases update_cases hb' with ⟨rfl, -, -⟩ | ⟨-, hold'⟩
        · rfl
        · exact h.apart _ _ _ _ _ hopen hold'
      · rcases update_cases hb' with ⟨rfl, rfl, -⟩ | ⟨-, hold'⟩
        · exact h.apart _ _ _ _ _ hold hopen
        · exact h.apart _ _ _ _ _ hold hold'
    · intro b r hb
      rcases update_cases hb with ⟨-, -, hs⟩ | ⟨hne, hold⟩
      · exact absurd hs.symm hstatus
      have hr : r ≠ request := by
        rintro rfl
        exact hne (h.apart _ _ _ _ _ hold hopen)
      split_ifs
      · simp [h.open_ b r hold, hr]
      · exact h.open_ b r hold
    · intro r hr
      split_ifs at hr
      · rcases mem_append.mp hr with hold | hlast
        · exact h.sent r hold
        · rw [mem_singleton.mp hlast]
          exact h.below _ _ _ hopen
      · exact h.sent r hr
    · split_ifs
      · exact List.nodup_append.mpr ⟨h.once, nodup_singleton _, by
          rintro a ha b hb rfl
          rw [mem_singleton.mp hb] at ha
          exact hnew ha⟩
      · exact h.once
  · exact h

lemma Sound.requested (h : l.Sound) (buffer : Nat) : (l.happen (.requested buffer)).Sound := by
  refine ⟨?_, ?_, ?_, ?_, h.once⟩
  · intro b r s hb
    rcases update_cases hb with ⟨-, rfl, -⟩ | ⟨-, hold⟩
    · exact Nat.lt_succ_self _
    · exact (h.below b r s hold).trans (Nat.lt_succ_self _)
  · intro b b' r s s' hb hb'
    rcases update_cases hb with ⟨rfl, rfl, -⟩ | ⟨-, hold⟩
    · rcases update_cases hb' with ⟨rfl, -, -⟩ | ⟨-, hold'⟩
      · rfl
      · exact absurd (h.below _ _ _ hold') (lt_irrefl _)
    · rcases update_cases hb' with ⟨rfl, rfl, -⟩ | ⟨-, hold'⟩
      · exact absurd (h.below _ _ _ hold) (lt_irrefl _)
      · exact h.apart _ _ _ _ _ hold hold'
  · intro b r hb
    rcases update_cases hb with ⟨-, rfl, -⟩ | ⟨-, hold⟩
    · exact fun hin => absurd (h.sent _ hin) (lt_irrefl _)
    · exact h.open_ b r hold
  · intro r hr
    exact (h.sent r hr).trans (Nat.lt_succ_self _)

/-- A detach keeps the numbers, and nothing is outstanding after it. -/
lemma withdraw_cases {entry : Option (Nat × RequestStatus)}
    (h : withdraw entry = some (r, s)) : (∃ s', entry = some (r, s')) ∧ s ≠ .outstanding := by
  unfold withdraw at h
  split at h
  · cases h
    exact ⟨⟨_, rfl⟩, by decide⟩
  rename_i hnot
  subst h
  refine ⟨⟨s, rfl⟩, ?_⟩
  rintro rfl
  exact hnot r rfl

lemma Sound.detached (h : l.Sound) : (l.happen .detached).Sound := by
  refine ⟨?_, ?_, ?_, h.sent, h.once⟩
  · intro b r s hb
    obtain ⟨⟨s', hold⟩, -⟩ := withdraw_cases hb
    exact h.below b r s' hold
  · intro b b' r s s' hb hb'
    obtain ⟨⟨_, hold⟩, -⟩ := withdraw_cases hb
    obtain ⟨⟨_, hold'⟩, -⟩ := withdraw_cases hb'
    exact h.apart _ _ _ _ _ hold hold'
  · intro b r hb
    exact absurd rfl (withdraw_cases hb).2

lemma Sound.reset (h : l.Sound) : (l.happen .reset).Sound where
  below _ _ _ hb := nomatch hb
  apart _ _ _ _ _ hb := nomatch hb
  open_ _ _ hb := nomatch hb
  sent := h.sent
  once := h.once

lemma Sound.happen (h : l.Sound) (e : Happening) : (l.happen e).Sound := by
  cases e with
  | requested buffer => exact h.requested buffer
  | refused buffer request => exact h.settle buffer request (by decide)
  | finished buffer request => exact h.settle buffer request (by decide)
  | answered token success =>
    refine h.settle token.buffer token.request ?_
    cases success <;> decide
  | detached => exact h.detached
  | reset => exact h.reset
  | admitted | acknowledged | lostCleared => exact h

lemma sound_ofRecord (record : List Happening) : (ofRecord record).Sound := by
  induction record using reverseRecOn with
  | nil => exact ⟨by simp [ofRecord], by simp [ofRecord], by simp [ofRecord], by simp [ofRecord],
      nodup_nil⟩
  | append_singleton record e ih =>
    rw [ofRecord_note]
    exact ih.happen e

end Ledger

/-! ## The part of a controller that sends -/

structure TxPart where
  brp : BitVec 32
  bto : BitVec 32
  states : Nat → TxBufferState
  generations : Nat → Nat

namespace TxPart

variable (p : TxPart) (buffer : Nat)

def request : TxPart :=
  { p with
    brp := p.brp ||| Fdcan.bufferBit buffer
    bto := p.bto &&& ~~~(Fdcan.bufferBit buffer)
    states := Function.update p.states buffer .pending }

def fail : TxPart :=
  { p with
    brp := p.brp &&& ~~~(Fdcan.bufferBit buffer)
    states := Function.update p.states buffer .idle }

def complete : TxPart :=
  { p with
    brp := p.brp &&& ~~~(Fdcan.bufferBit buffer)
    bto := p.bto ||| Fdcan.bufferBit buffer
    states := Function.update p.states buffer .complete }

def bump : TxPart :=
  { p with generations := Function.update p.generations buffer (p.generations buffer + 1) }

def detach : TxPart :=
  { p with brp := 0, states := fun buffer => (p.states buffer).withdrawn }

def reset : TxPart :=
  { p with
    brp := 0, bto := 0, states := fun _ => .idle
    generations := fun buffer => p.generations buffer + 1 }

end TxPart

namespace Fdcan

variable (d : Fdcan)

def tx : TxPart where
  brp := d.registers .txbrp
  bto := d.registers .txbto
  states := d.txBufferState
  generations := d.txGeneration

lemma tx_setRegister {r : FdcanRegister} (v : BitVec 32) (h : r ≠ .txbrp) (h' : r ≠ .txbto) :
    (d.setRegister r v).tx = d.tx := by
  simp [tx, setRegister, update_of_ne h.symm, update_of_ne h'.symm]

lemma OnlyInterrupts.tx_eq {d d' : Fdcan} (h : OnlyInterrupts d d') : d'.tx = d.tx := by
  obtain ⟨ir, _, _, _, rfl⟩ := h
  exact tx_setRegister d (r := .ir) ir (by decide) (by decide)

@[simp] lemma tx_setInterruptFlags (flags : BitVec 32) :
    (d.setInterruptFlags flags).tx = d.tx := (OnlyInterrupts.flags d flags).tx_eq

@[simp] lemma tx_updateInterruptLines : d.updateInterruptLines.tx = d.tx :=
  (OnlyInterrupts.lines d).tx_eq

@[simp] lemma tx_updateTxFifoStatus : d.updateTxFifoStatus.tx = d.tx := by
  exact tx_setRegister _ _ (by decide) (by decide)

@[simp] lemma tx_updateRxFifo0Status : d.updateRxFifo0Status.tx = d.tx := by
  exact tx_setRegister _ _ (by decide) (by decide)

variable (buffer : Nat)

lemma tx_failTransmission : (d.failTransmission buffer).tx = d.tx.fail buffer := by
  unfold failTransmission
  rw [tx_setInterruptFlags, tx_updateTxFifoStatus]
  simp [tx, setRegister, setTxBufferState, TxPart.fail]

lemma tx_completeTransmission (generation : Nat) :
    (d.completeTransmission buffer generation).tx =
      if d.awaits buffer generation then d.tx.complete buffer else d.tx := by
  unfold completeTransmission
  cases d.awaits buffer generation with
  | false => rfl
  | true =>
    simp only [Bool.not_true, Bool.false_eq_true, if_false, if_true]
    split_ifs
    · rw [tx_setInterruptFlags, tx_updateTxFifoStatus]
      simp [tx, setRegister, setTxBufferState, TxPart.complete]
    · rw [tx_updateTxFifoStatus]
      simp [tx, setRegister, setTxBufferState, TxPart.complete]

lemma tx_completion_true (generation : Nat) :
    (d.completion buffer generation true).tx =
      if d.awaits buffer generation then d.tx.complete buffer else d.tx := by
  unfold completion
  split_ifs with hgen hawaits
  · simp [awaits, hgen] at hawaits
  · rfl
  all_goals simp_all [tx_completeTransmission]

lemma tx_storeReceived (r : Received) (overwritten : Bool) :
    (d.storeReceived r overwritten).tx = d.tx := by
  unfold storeReceived
  rw [tx_setInterruptFlags, tx_updateRxFifo0Status]
  rfl

lemma tx_receiveFrame (frame : CanFrame) (time : BitVec 64) :
    (d.receiveFrame frame time).2.tx = d.tx := by
  unfold receiveFrame
  split
  · rfl
  dsimp only
  split_ifs
  · rw [tx_setInterruptFlags, tx_updateRxFifo0Status]
    rfl
  · exact tx_storeReceived _ _ _
  · exact tx_storeReceived _ _ _

lemma tx_requestBuffer : (d.requestBuffer buffer).tx = d.tx.request buffer := by
  have hset : ∀ (e : Fdcan) (v : BitVec 32),
      (e.setRegister .txbto v).tx = { e.tx with bto := v } := by
    intro e v
    simp [tx, setRegister]
  unfold requestBuffer
  have hbto : ∀ e : Fdcan, e.registers .txbto = e.tx.bto := fun _ => rfl
  rw [hset, hbto, tx_updateTxFifoStatus]
  split_ifs <;> simp [tx, setRegister, setTxBufferState, TxPart.request]

lemma tx_withBus (node : Option Nat) : { d with busNodeId := node }.tx = d.tx := rfl

lemma tx_detachBus (h : d.busNodeId.isSome) : d.detachBus.tx = d.tx.detach := by
  obtain ⟨node, hnode⟩ := Option.isSome_iff_exists.mp h
  unfold detachBus
  rw [hnode]
  rw [tx_withBus, tx_updateTxFifoStatus]
  simp [tx, setRegister, TxPart.detach]

lemma detachBus_of_none (h : d.busNodeId.isSome = false) : d.detachBus = d := by
  unfold detachBus
  rw [Option.isSome_eq_false_iff, Option.isNone_iff_eq_none] at h
  rw [h]

lemma tx_acknowledgeRxFifo0 (slot : Nat) : (d.acknowledgeRxFifo0 slot).tx = d.tx := by
  unfold acknowledgeRxFifo0
  dsimp only
  split_ifs
  · rfl
  · rfl
  · exact tx_updateRxFifo0Status _

lemma tx_applyControllerControl (value : BitVec 32) :
    (d.applyControllerControl value).tx = d.tx := by
  have hmode : ∀ (e : Fdcan) (mode : ControllerMode), { e with controllerMode := mode }.tx = e.tx :=
    fun _ _ => rfl
  unfold applyControllerControl
  rw [hmode, tx_setRegister _ _ (by decide) (by decide)]

lemma tx_loadRegister (r : FdcanRegister) : (d.loadRegister r).2.tx = d.tx := by
  unfold loadRegister
  split
  · exact tx_updateRxFifo0Status d
  · exact tx_updateTxFifoStatus d
  all_goals rfl

lemma tx_read (offset : Nat) (size : AccessSize) : (d.read offset size).2.tx = d.tx := by
  unfold read
  split_ifs
  · exact foldlRecOn (motive := fun p : BitVec 64 × Fdcan => p.2.tx = d.tx) _ _ rfl
      fun p hp _ _ => (tx_loadRegister p.2 _).trans hp
  · rfl

lemma tx_reset : d.reset.tx = d.tx.reset := by
  have hlevels :=
    (OnlyInterrupts.levels (range 8) { d with registers := FdcanRegister.resetValue }).tx_eq
  unfold reset onReset
  rw [tx_updateTxFifoStatus, tx_updateRxFifo0Status]
  generalize (range 8).foldl _ _ = e at hlevels ⊢
  have hg : e.txGeneration = d.txGeneration := congrArg TxPart.generations hlevels
  simp [tx, setRegister, TxPart.reset, hg]

end Fdcan

/-! ## Buffers and requests -/

variable {b : Nat}

open Fdcan

lemma getLsbD_bufferBit (hb : b < 32) (buffer : Nat) :
    (bufferBit buffer).getLsbD b = decide (b = buffer) := by
  unfold bufferBit
  rw [BitVec.getLsbD_shiftLeft, Bool.eq_iff_iff]
  simp
  omega

lemma getLsbD_set (x : BitVec 32) (hb : b < 32) (buffer : Nat) :
    (x ||| bufferBit buffer).getLsbD b = (x.getLsbD b || decide (b = buffer)) := by
  rw [BitVec.getLsbD_or, getLsbD_bufferBit hb]

lemma getLsbD_clear (x : BitVec 32) (hb : b < 32) (buffer : Nat) :
    (x &&& ~~~(bufferBit buffer)).getLsbD b = (x.getLsbD b && !decide (b = buffer)) := by
  rw [BitVec.getLsbD_and, BitVec.getLsbD_not, getLsbD_bufferBit hb]
  simp [hb]

/-- A buffer is marked as the ledger has its latest request. -/
structure Linked (p : TxPart) (l : Ledger) (b : Nat) : Prop where
  brp : p.brp.getLsbD b = true ↔ l.Outstanding b
  bto : p.bto.getLsbD b = true ↔ l.Completed b
  state : p.states b = .pending ↔ l.Outstanding b

/-- What does not touch a buffer leaves it linked. -/
lemma Linked.congr {p p' : TxPart} {l l' : Ledger} (h : Linked p l b)
    (hbrp : p'.brp.getLsbD b = p.brp.getLsbD b) (hbto : p'.bto.getLsbD b = p.bto.getLsbD b)
    (hstate : p'.states b = p.states b) (hlatest : l'.latest b = l.latest b) : Linked p' l' b := by
  obtain ⟨h1, h2, h3⟩ := h
  refine ⟨?_, ?_, ?_⟩
  · simpa only [hbrp, Ledger.Outstanding, hlatest] using h1
  · simpa only [hbto, Ledger.Completed, hlatest] using h2
  · simpa only [hstate, Ledger.Outstanding, hlatest] using h3

/-- A callback that the bus holds. While its request is outstanding it is of the
current generation, and no other request of the buffer is then. -/
structure TokenOk (p : TxPart) (l : Ledger) (t : Token) : Prop where
  buffer : t.buffer < 3
  number : t.request < l.next
  old : t.generation ≤ p.generations t.buffer
  current : l.latest t.buffer = some (t.request, .outstanding) →
    t.generation = p.generations t.buffer
  owner : t.generation = p.generations t.buffer →
    ∀ r, l.latest t.buffer = some (r, .outstanding) → r = t.request

namespace Ledger

variable {l : Ledger} {buffer request : Nat} {s : RequestStatus}

/-- The only request of a buffer that can be outstanding is `request`. -/
def Only (l : Ledger) (buffer request : Nat) : Prop :=
  ∀ r, l.latest buffer = some (r, .outstanding) → r = request

lemma settle_latest (hopen : l.latest buffer = some (request, .outstanding)) :
    (l.settle buffer request s).latest = Function.update l.latest buffer (some (request, s)) := by
  unfold settle
  rw [if_pos hopen]

lemma settle_closed (hopen : ¬l.latest buffer = some (request, .outstanding)) :
    l.settle buffer request s = l := by
  unfold settle
  rw [if_neg hopen]

lemma settle_next : (l.settle buffer request s).next = l.next := by
  unfold settle
  split_ifs <;> rfl

lemma settle_sent (hopen : l.latest buffer = some (request, .outstanding)) :
    (l.settle buffer request .completed).completions = l.completions ++ [request] := by
  unfold settle
  rw [if_pos hopen]
  rfl

lemma settle_failed : (l.settle buffer request .failed).completions = l.completions := by
  unfold settle
  split_ifs <;> first | rfl | contradiction

lemma settle_of_ne (hb : b ≠ buffer) : (l.settle buffer request s).latest b = l.latest b := by
  by_cases hopen : l.latest buffer = some (request, .outstanding)
  · rw [settle_latest hopen, update_of_ne hb]
  · rw [settle_closed hopen]

lemma settle_not_outstanding (honly : l.Only buffer request) (hs : s ≠ .outstanding) :
    ¬(l.settle buffer request s).Outstanding buffer := by
  rintro ⟨r, hr⟩
  by_cases hopen : l.latest buffer = some (request, .outstanding)
  · rw [settle_latest hopen, update_self] at hr
    cases hr
    exact hs rfl
  · rw [settle_closed hopen] at hr
    obtain rfl := honly r hr
    exact hopen hr

lemma settle_outstanding (hs : s ≠ .outstanding)
    (h : (l.settle buffer request s).latest b = some (r, .outstanding)) :
    l.latest b = some (r, .outstanding) := by
  by_cases hopen : l.latest buffer = some (request, .outstanding)
  · rw [settle_latest hopen] at h
    rcases update_cases h with ⟨-, -, hopen'⟩ | ⟨-, hold⟩
    · exact absurd hopen'.symm hs
    · exact hold
  · rwa [settle_closed hopen] at h

lemma settle_completed (honly : l.Only buffer request) :
    (l.settle buffer request s).Completed buffer ↔
      l.Completed buffer ∨ (s = .completed ∧ l.Outstanding buffer) := by
  by_cases hopen : l.latest buffer = some (request, .outstanding)
  · unfold Completed
    rw [settle_latest hopen, update_self, hopen]
    constructor
    · rintro ⟨r, hr⟩
      cases hr
      exact .inr ⟨rfl, _, hopen⟩
    · rintro (⟨r, hr⟩ | ⟨rfl, -⟩)
      · cases hr
      · exact ⟨request, rfl⟩
  · rw [settle_closed hopen]
    constructor
    · exact .inl
    · rintro (h | ⟨-, r, hr⟩)
      · exact h
      · obtain rfl := honly r hr
        exact absurd hr hopen

end Ledger

variable {p : TxPart} {l : Ledger} {buffer number : Nat}

section

variable (hb : b < 3) (h : Linked p l b)
include hb h

lemma Linked.request :
    Linked (p.request buffer) (l.happen (.requested buffer)) b := by
  by_cases hbb : b = buffer
  · subst hbb
    have hlatest : (l.happen (.requested b)).latest b = some (l.next, .outstanding) :=
      update_self ..
    have hopen : (l.happen (.requested b)).Outstanding b := ⟨_, hlatest⟩
    have hsent : ¬(l.happen (.requested b)).Completed b := by
      rintro ⟨r, hr⟩
      rw [hlatest] at hr
      cases hr
    refine ⟨?_, ?_, ?_⟩
    · simp [TxPart.request, getLsbD_set _ (by omega : b < 32), hopen]
    · simp [TxPart.request, getLsbD_clear _ (by omega : b < 32), hsent]
    · simp [TxPart.request, hopen]
  · refine h.congr ?_ ?_ ?_ ?_
    · simp [TxPart.request, getLsbD_set _ (by omega : b < 32), hbb]
    · simp [TxPart.request, getLsbD_clear _ (by omega : b < 32), hbb]
    · exact update_of_ne hbb _ _
    · exact update_of_ne hbb _ _

lemma Linked.fail (honly : l.Only buffer number) :
    Linked (p.fail buffer) (l.settle buffer number .failed) b := by
  by_cases hbb : b = buffer
  · subst hbb
    have hnot := Ledger.settle_not_outstanding honly (s := .failed) (by decide)
    have hcomp := Ledger.settle_completed honly (s := .failed)
    refine ⟨?_, ?_, ?_⟩
    · simp [TxPart.fail, getLsbD_clear _ (by omega : b < 32), hnot]
    · rw [hcomp]
      simpa [TxPart.fail] using h.bto
    · simp [TxPart.fail, hnot]
  · refine h.congr ?_ rfl ?_ (Ledger.settle_of_ne hbb)
    · simp [TxPart.fail, getLsbD_clear _ (by omega : b < 32), hbb]
    · exact update_of_ne hbb _ _

lemma Linked.complete (hopen : l.latest buffer = some (number, .outstanding)) :
    Linked (p.complete buffer) (l.settle buffer number .completed) b := by
  by_cases hbb : b = buffer
  · subst hbb
    have honly : l.Only b number := by
      intro r hr
      rw [hopen] at hr
      cases hr
      rfl
    have hnot := Ledger.settle_not_outstanding honly (s := .completed) (by decide)
    have hcomp : (l.settle b number .completed).Completed b :=
      (Ledger.settle_completed honly).mpr (.inr ⟨rfl, _, hopen⟩)
    refine ⟨?_, ?_, ?_⟩
    · simp [TxPart.complete, getLsbD_clear _ (by omega : b < 32), hnot]
    · simp [TxPart.complete, getLsbD_set _ (by omega : b < 32), hcomp]
    · simp [TxPart.complete, hnot]
  · refine h.congr ?_ ?_ ?_ (Ledger.settle_of_ne hbb)
    · simp [TxPart.complete, getLsbD_clear _ (by omega : b < 32), hbb]
    · simp [TxPart.complete, getLsbD_set _ (by omega : b < 32), hbb]
    · exact update_of_ne hbb _ _

end

lemma Linked.detach (h : Linked p l b) : Linked p.detach (l.happen .detached) b := by
  have hnot : ¬(l.happen .detached).Outstanding b := fun ⟨_, hr⟩ => (Ledger.withdraw_cases hr).2 rfl
  refine ⟨?_, ?_, ?_⟩
  · simp [TxPart.detach, hnot]
  · refine h.bto.trans ⟨?_, ?_⟩
    · rintro ⟨r, hr⟩
      exact ⟨r, by simp [Ledger.happen, hr, Ledger.withdraw]⟩
    · rintro ⟨r, hr⟩
      simp only [Ledger.happen, Ledger.withdraw] at hr
      split at hr
      · cases hr
      · exact ⟨r, hr⟩
  · have hstate : p.detach.states b ≠ .pending := by
      simp only [TxPart.detach]
      cases p.states b <;> decide
    simp [hnot, hstate]

lemma Linked.reset (b : Nat) : Linked p.reset (l.happen .reset) b := by
  refine ⟨?_, ?_, ?_⟩
  · simp [TxPart.reset, Ledger.happen, Ledger.Outstanding]
  · simp [TxPart.reset, Ledger.happen, Ledger.Completed]
  · simp [TxPart.reset, Ledger.happen, Ledger.Outstanding]

/-! ## Callbacks -/

variable {t : Token}

/-- A callback stays in order while its generation stays and nothing becomes
outstanding. -/
lemma TokenOk.fewer {p' : TxPart} {l' : Ledger} (h : TokenOk p l t)
    (hgen : p'.generations t.buffer = p.generations t.buffer) (hnext : l.next ≤ l'.next)
    (hfewer : ∀ r, l'.latest t.buffer = some (r, .outstanding) →
      l.latest t.buffer = some (r, .outstanding)) : TokenOk p' l' t where
  buffer := h.buffer
  number := h.number.trans_le hnext
  old := hgen ▸ h.old
  current ho := hgen ▸ h.current (hfewer _ ho)
  owner hg r hr := h.owner (hgen ▸ hg) r (hfewer r hr)

lemma TokenOk.of_idle (hbuffer : t.buffer < 3) (hnumber : t.request < l.next)
    (hold : t.generation ≤ p.generations t.buffer) (hnot : ¬l.Outstanding t.buffer) :
    TokenOk p l t where
  buffer := hbuffer
  number := hnumber
  old := hold
  current ho := absurd ⟨_, ho⟩ hnot
  owner _ r hr := absurd ⟨r, hr⟩ hnot

/-! ## What one call keeps -/

namespace Controller

def ledger (c : Controller) : Ledger := Ledger.ofRecord c.record

lemma ledger_note (c : Controller) (h : Happening) : (c.note h).ledger = c.ledger.happen h :=
  Ledger.ofRecord_note c.record h

/-- Buffers, callbacks and counts agree with the ledger. -/
structure LifeCycle (c : Controller) : Prop where
  linked : ∀ b < 3, Linked c.dev.tx c.ledger b
  tokens : ∀ t ∈ c.outstanding, TokenOk c.dev.tx c.ledger t
  numbers : c.requests = c.ledger.next
  completed : c.completed = c.ledger.completions

variable {c : Controller}

lemma LifeCycle.of {p : TxPart} {l : Ledger} (htx : c.dev.tx = p) (hledger : c.ledger = l)
    (linked : ∀ b < 3, Linked p l b) (tokens : ∀ t ∈ c.outstanding, TokenOk p l t)
    (numbers : c.requests = l.next) (completed : c.completed = l.completions) : LifeCycle c := by
  subst htx hledger
  exact ⟨linked, tokens, numbers, completed⟩

section

variable (h : LifeCycle c)
include h

/-- What touches neither sending nor its record leaves both. -/
lemma LifeCycle.same {c' : Controller} (htx : c'.dev.tx = c.dev.tx)
    (hledger : c'.ledger = c.ledger) (hout : c'.outstanding ⊆ c.outstanding)
    (hrequests : c'.requests = c.requests) (hcompleted : c'.completed = c.completed) :
    LifeCycle c' :=
  .of htx hledger h.linked (fun t ht => h.tokens t (hout ht)) (hrequests.trans h.numbers)
    (hcompleted.trans h.completed)

lemma lifeCycle_receive (frame : CanFrame) (time : BitVec 64) :
    LifeCycle (c.receive frame time) := by
  unfold receive
  split
  · exact h
  · exact h.same (tx_receiveFrame c.dev frame time) (ledger_note _ _) (fun _ ht => ht) rfl rfl

/-- Whether the device waits for a callback, by the ledger. -/
lemma awaits_iff {t : Token} (ht : TokenOk c.dev.tx c.ledger t) :
    c.dev.awaits t.buffer t.generation = true ↔
      c.ledger.latest t.buffer = some (t.request, .outstanding) := by
  have hstate := (h.linked t.buffer ht.buffer).state
  unfold awaits
  simp only [Bool.and_eq_true, decide_eq_true_eq]
  constructor
  · rintro ⟨hgen, hpending⟩
    obtain ⟨r, hr⟩ := hstate.mp hpending
    rw [hr, ht.owner hgen.symm r hr]
  · intro ho
    exact ⟨(ht.current ho).symm, hstate.mpr ⟨_, ho⟩⟩

/-- A request ends, and callbacks stay in order. -/
lemma LifeCycle.tokens_settle {buffer number : Nat}
    (hs : s ≠ .outstanding) {p : TxPart} (hgen : p.generations = c.dev.tx.generations)
    {t : Token} (ht : t ∈ c.outstanding) : TokenOk p (c.ledger.settle buffer number s) t := by
  refine (h.tokens t ht).fewer (by rw [hgen]) ?_ ?_
  · rw [Ledger.settle_next]
  · intro r hr
    exact Ledger.settle_outstanding hs hr

end

variable {token : Token}

lemma answer_eq (hin : token ∈ c.outstanding) (success : Bool) :
    let next := c.answer token success
    next.ledger = c.ledger.settle token.buffer token.request
        (if success then .completed else .failed) ∧
      next.dev = c.dev.completion token.buffer token.generation success ∧
      (∀ t ∈ next.outstanding, t ∈ c.outstanding) ∧ next.requests = c.requests ∧
      next.completed = if success then c.marked token.buffer token.generation token.request
        else c.completed := by
  cases success <;> rw [answer, if_pos hin] <;>
    exact ⟨ledger_note _ _, rfl, fun _ ht => mem_of_mem_erase ht, rfl, rfl⟩

section

variable (h : LifeCycle c)
include h

lemma lifeCycle_sent (hin : token ∈ c.outstanding) : LifeCycle (c.answer token true) := by
  have hawaits := awaits_iff h (h.tokens token hin)
  obtain ⟨hledger, hdev, hout, hrequests, hcompleted⟩ := answer_eq hin true
  have htx : (c.answer token true).dev.tx =
      if c.dev.awaits token.buffer token.generation then c.dev.tx.complete token.buffer
      else c.dev.tx := by
    rw [hdev]
    exact tx_completion_true c.dev token.buffer token.generation
  rw [if_pos rfl] at hledger hcompleted
  by_cases hopen : c.ledger.latest token.buffer = some (token.request, .outstanding)
  · have hyes := hawaits.mpr hopen
    rw [hyes, if_pos rfl] at htx
    refine .of htx hledger (fun b hb => (h.linked b hb).complete hb hopen)
      (fun t ht => h.tokens_settle (by decide) (by rfl) (hout t ht)) ?_ ?_
    · rw [hrequests, Ledger.settle_next, h.numbers]
    · rw [hcompleted, Ledger.settle_sent hopen, marked, if_pos hyes, h.completed]
  · have hno : ¬c.dev.awaits token.buffer token.generation = true := fun hyes =>
      hopen (hawaits.mp hyes)
    rw [if_neg hno] at htx
    rw [Ledger.settle_closed hopen] at hledger
    refine h.same htx hledger hout hrequests ?_
    rw [hcompleted, marked, if_neg hno]

lemma lifeCycle_failed (hin : token ∈ c.outstanding) : LifeCycle (c.answer token false) := by
  have ht := h.tokens token hin
  obtain ⟨hledger, hdev, hout, hrequests, hcompleted⟩ := answer_eq hin false
  rw [if_neg Bool.false_ne_true] at hledger hcompleted
  by_cases hgen : c.dev.txGeneration token.buffer = token.generation
  · have htx : (c.answer token false).dev.tx = c.dev.tx.fail token.buffer := by
      rw [hdev, completion, if_neg (not_not.mpr hgen)]
      exact tx_failTransmission c.dev token.buffer
    have honly : c.ledger.Only token.buffer token.request := ht.owner hgen.symm
    refine .of htx hledger (fun b hb => (h.linked b hb).fail hb honly)
      (fun t ht => h.tokens_settle (by decide) (by rfl) (hout t ht)) ?_ ?_
    · rw [hrequests, Ledger.settle_next, h.numbers]
    · rw [hcompleted, Ledger.settle_failed, h.completed]
  · have hopen : ¬c.ledger.latest token.buffer = some (token.request, .outstanding) := fun ho =>
      hgen (ht.current ho).symm
    rw [Ledger.settle_closed hopen] at hledger
    refine h.same ?_ hledger hout hrequests hcompleted
    rw [hdev, completion, if_pos hgen]

lemma lifeCycle_answer (token : Token) (success : Bool) : LifeCycle (c.answer token success) := by
  by_cases hin : token ∈ c.outstanding
  · cases success with
    | true => exact lifeCycle_sent h hin
    | false => exact lifeCycle_failed h hin
  · rw [answer, if_neg hin]
    exact h

lemma lifeCycle_detach : LifeCycle c.detach := by
  unfold detach
  split_ifs with hbus
  · refine .of (tx_detachBus c.dev hbus) (ledger_note _ _)
      (fun b hb => (h.linked b hb).detach) (fun t ht => ?_) h.numbers h.completed
    refine (h.tokens t ht).fewer rfl le_rfl fun r hr => ?_
    exact absurd rfl (Ledger.withdraw_cases hr).2
  · exact h

lemma lifeCycle_attach (node : Option Nat) : LifeCycle (c.attach node) := by
  have hdetach := lifeCycle_detach h
  have hdev : c.detach.dev = c.dev.detachBus := by
    unfold detach
    split_ifs with hbus
    · rfl
    · exact (detachBus_of_none c.dev (by simpa using hbus)).symm
  refine hdetach.same ?_ rfl (fun _ ht => ht) rfl rfl
  rw [hdev, attach]
  cases node with
  | none => rfl
  | some id => exact tx_withBus c.dev.detachBus (some id)

lemma lifeCycle_reset : LifeCycle c.reset := by
  refine .of (tx_reset c.dev) (ledger_note _ _) (fun b _ => Linked.reset b)
    (fun t ht => ?_) h.numbers h.completed
  have hold := h.tokens t ht
  refine TokenOk.of_idle hold.buffer hold.number (hold.old.trans (Nat.le_succ _)) ?_
  rintro ⟨r, hr⟩
  cases hr

lemma lifeCycle_event (e : BusEvent) : LifeCycle (c.event e) := by
  cases e with
  | receive frame time => exact lifeCycle_receive h frame time
  | answer token success => exact lifeCycle_answer h token success
  | attach node => exact lifeCycle_attach h node
  | detach => exact lifeCycle_detach h
  | reset => exact lifeCycle_reset h

end

lemma detach_outstanding (h : c.detach.ledger.latest b = some (r, .outstanding)) :
    c.ledger.latest b = some (r, .outstanding) := by
  unfold detach at h
  split_ifs at h
  · rw [ledger_note] at h
    exact absurd rfl (Ledger.withdraw_cases h).2
  · exact h

lemma event_outstanding (e : BusEvent)
    (h : (c.event e).ledger.latest b = some (r, .outstanding)) :
    c.ledger.latest b = some (r, .outstanding) := by
  cases e with
  | receive frame time =>
    simp only [event, receive] at h
    split at h
    · exact h
    · rwa [ledger_note] at h
  | answer token success =>
    simp only [event, answer] at h
    by_cases hin : token ∈ c.outstanding
    · rw [if_pos hin, ledger_note] at h
      refine Ledger.settle_outstanding ?_ h
      cases success <;> decide
    · rwa [if_neg hin] at h
  | attach node => exact detach_outstanding h
  | detach => exact detach_outstanding h
  | reset =>
    simp only [event, reset] at h
    rw [ledger_note] at h
    cases h

lemma lifeCycle_events (h : LifeCycle c) {buffer number : Nat}
    (honly : c.ledger.Only buffer number) (es : List BusEvent) :
    LifeCycle (es.foldl event c) ∧ (es.foldl event c).ledger.Only buffer number := by
  induction es generalizing c with
  | nil => exact ⟨h, honly⟩
  | cons e es ih =>
    exact ih (lifeCycle_event h e) fun r hr => honly r (event_outstanding e hr)

/-! ## Sending -/

/-- Request `number` of a buffer was just made, and is not on its way yet. -/
structure Requested (c : Controller) (buffer number : Nat) : Prop where
  linked : ∀ b < 3, Linked c.dev.tx c.ledger b
  others : ∀ t ∈ c.outstanding, t.buffer ≠ buffer → TokenOk c.dev.tx c.ledger t
  earlier : ∀ t ∈ c.outstanding, t.buffer = buffer →
    t.request < number ∧ t.generation ≤ c.dev.tx.generations buffer
  inside : buffer < 3
  latest : c.ledger.latest buffer = some (number, .outstanding)
  made : number < c.ledger.next
  numbers : c.requests = c.ledger.next
  completed : c.completed = c.ledger.completions

variable {buffer number : Nat}

lemma Requested.only (h : Requested c buffer number) : c.ledger.Only buffer number := by
  intro r hr
  rw [h.latest] at hr
  cases hr
  rfl

lemma requested_of_lifeCycle (h : LifeCycle c) (hbuffer : buffer < 3) :
    Requested ({ c with dev := c.dev.requestBuffer buffer, requests := c.requests + 1 }.note
      (.requested buffer)) buffer c.requests := by
  have hledger := ledger_note
    { c with dev := c.dev.requestBuffer buffer, requests := c.requests + 1 } (.requested buffer)
  have htx := tx_requestBuffer c.dev buffer
  refine ⟨fun b hb => ?_, fun t ht hne => ?_, fun t ht heq => ?_, hbuffer, ?_, ?_, ?_, ?_⟩
  · rw [hledger]
    simp only [note]
    rw [htx]
    exact (h.linked b hb).request hb
  · rw [hledger]
    simp only [note]
    rw [htx]
    refine (h.tokens t ht).fewer rfl (Nat.le_succ _) fun r hr => ?_
    rcases Ledger.update_cases hr with ⟨heq, -, -⟩ | ⟨-, hold⟩
    · exact absurd heq hne
    · exact hold
  · have hold := h.tokens t ht
    simp only [note]
    rw [htx, h.numbers]
    subst heq
    exact ⟨hold.number, hold.old⟩
  · rw [hledger, h.numbers]
    exact update_self ..
  · rw [hledger, h.numbers]
    exact Nat.lt_succ_self _
  · rw [hledger]
    exact congrArg (· + 1) h.numbers
  · rw [hledger]
    exact h.completed

/-- A buffer whose request may be on its way: the callbacks of the others are in order, and
those of its own are of earlier requests or of the current one. -/
structure Sending (c : Controller) (buffer number : Nat) : Prop where
  linked : ∀ b < 3, Linked c.dev.tx c.ledger b
  others : ∀ t ∈ c.outstanding, t.buffer ≠ buffer → TokenOk c.dev.tx c.ledger t
  earlier : ∀ t ∈ c.outstanding, t.buffer = buffer →
    t.request < c.ledger.next ∧ t.generation ≤ c.dev.tx.generations buffer
  inside : buffer < 3
  only : c.ledger.Only buffer number
  numbers : c.requests = c.ledger.next
  completed : c.completed = c.ledger.completions

lemma Requested.sending (h : Requested c buffer number) : Sending c buffer number :=
  ⟨h.linked, h.others, fun t ht hb => ⟨(h.earlier t ht hb).1.trans h.made, (h.earlier t ht hb).2⟩,
    h.inside, h.only, h.numbers, h.completed⟩

lemma LifeCycle.sending (h : LifeCycle c) (hbuffer : buffer < 3)
    (honly : c.ledger.Only buffer number) : Sending c buffer number :=
  ⟨h.linked, fun t ht _ => h.tokens t ht, fun t ht hb => ⟨(h.tokens t ht).number,
    hb ▸ (h.tokens t ht).old⟩, hbuffer, honly, h.numbers, h.completed⟩

section

variable (h : Sending c buffer number)
include h

/-- The request ends, and all callbacks are in order. -/
lemma Sending.tokens_settle
    (hs : s ≠ .outstanding) {p : TxPart}
    (hgen : ∀ b, b ≠ buffer → p.generations b = c.dev.tx.generations b)
    (hgrows : c.dev.tx.generations buffer ≤ p.generations buffer) (t : Token)
    (ht : t ∈ c.outstanding) : TokenOk p (c.ledger.settle buffer number s) t := by
  by_cases hb : t.buffer = buffer
  · obtain ⟨hnumber, hold⟩ := h.earlier t ht hb
    refine TokenOk.of_idle (hb ▸ h.inside) (by rwa [Ledger.settle_next]) ?_ ?_
    · rw [hb]
      exact hold.trans hgrows
    · rw [hb]
      exact Ledger.settle_not_outstanding h.only hs
  · refine (h.others t ht hb).fewer (hgen _ hb) (by rw [Ledger.settle_next]) fun r hr => ?_
    exact Ledger.settle_outstanding hs hr

/-- A request of a frame that does not pass its check, or that no bus takes. -/
lemma lifeCycle_refuse : LifeCycle (c.refuse buffer number) :=
  .of (tx_failTransmission c.dev buffer) (ledger_note _ _)
    (fun b hb => (h.linked b hb).fail hb h.only)
    (h.tokens_settle (by decide) (fun _ _ => rfl) le_rfl)
    (h.numbers.trans Ledger.settle_next.symm) (h.completed.trans Ledger.settle_failed.symm)

/-- With no bus a frame counts as sent, if the buffer still waits for it. -/
lemma lifeCycle_finish : LifeCycle (c.finish buffer number) := by
  have hbumped : ∀ b < 3, Linked (c.dev.tx.bump buffer) c.ledger b :=
    fun b hb => (h.linked b hb).congr rfl rfl rfl rfl
  have hawaits : (c.dev.bumpGeneration buffer).awaits buffer
      ((c.dev.bumpGeneration buffer).txGeneration buffer) = true ↔
      c.ledger.latest buffer = some (number, .outstanding) := by
    simp [awaits]
    refine (h.linked buffer h.inside).state.trans ⟨?_, fun ho => ⟨_, ho⟩⟩
    rintro ⟨r, hr⟩
    rw [hr, h.only r hr]
  have htx : (c.finish buffer number).dev.tx = _ :=
    tx_completeTransmission (c.dev.bumpGeneration buffer) buffer
      ((c.dev.bumpGeneration buffer).txGeneration buffer)
  have hgen : (c.finish buffer number).dev.tx.generations = (c.dev.tx.bump buffer).generations := by
    rw [htx]
    split_ifs <;> rfl
  have hledger : (c.finish buffer number).ledger = c.ledger.settle buffer number .completed :=
    ledger_note _ _
  refine .of rfl hledger (fun b hb => ?_)
    (h.tokens_settle (by decide) (fun b hb => ?_) ?_) (h.numbers.trans Ledger.settle_next.symm) ?_
  · rw [htx]
    by_cases hopen : c.ledger.latest buffer = some (number, .outstanding)
    · rw [if_pos (hawaits.mpr hopen)]
      exact (hbumped b hb).complete hb hopen
    · rw [if_neg fun hyes => hopen (hawaits.mp hyes), Ledger.settle_closed hopen]
      exact hbumped b hb
  · rw [hgen]
    exact update_of_ne hb _ _
  · rw [hgen]
    simp only [TxPart.bump, update_self]
    omega
  · simp only [finish, note, marked]
    by_cases hopen : c.ledger.latest buffer = some (number, .outstanding)
    · rw [if_pos (hawaits.mpr hopen), Ledger.settle_sent hopen, h.completed]
    · rw [if_neg fun hyes => hopen (hawaits.mp hyes), Ledger.settle_closed hopen, h.completed]

end

lemma lifeCycle_submit (h : Requested c buffer number) : LifeCycle (c.submit buffer number) := by
  refine ⟨fun b hb => (h.linked b hb).congr rfl rfl rfl rfl, fun t ht => ?_, h.numbers, h.completed⟩
  rcases mem_cons.mp ht with rfl | hold
  · refine ⟨h.inside, h.made, le_rfl, fun _ => rfl, fun _ r hr => h.only r hr⟩
  by_cases hb : t.buffer = buffer
  · obtain ⟨hnumber, hgen⟩ := h.earlier t hold hb
    have hnew : (c.submit buffer number).dev.tx.generations t.buffer =
        c.dev.tx.generations buffer + 1 := by
      rw [hb]
      exact update_self ..
    refine ⟨hb ▸ h.inside, hnumber.trans h.made, by omega, fun ho => ?_, fun hg => by omega⟩
    have hlatest : c.ledger.latest t.buffer = some (t.request, .outstanding) := ho
    rw [hb] at hlatest
    have := h.only _ hlatest
    omega
  · exact (h.others t hold hb).fewer (update_of_ne hb _ _) le_rfl fun r hr => hr

lemma lifeCycle_transmitBuffer (h : Requested c buffer number) (outcome : SendOutcome) :
    LifeCycle (c.transmitBuffer buffer number outcome) := by
  obtain ⟨hlife, honly⟩ := lifeCycle_events (lifeCycle_submit h) (h.only : (c.submit buffer
    number).ledger.Only buffer number) outcome.during
  have hsending := hlife.sending h.inside honly
  unfold transmitBuffer
  split
  · exact lifeCycle_refuse h.sending
  dsimp only
  split_ifs
  · exact (lifeCycle_refuse hsending).same rfl rfl (fun t ht => mem_of_mem_erase ht) rfl rfl
  · exact lifeCycle_finish hsending
  · exact hlife
  · exact lifeCycle_finish h.sending

section

variable (h : LifeCycle c)
include h

lemma lifeCycle_requestOne (requests : BitVec 32) (outcomes : Nat → SendOutcome)
    (hbuffer : buffer < 3) : LifeCycle (requestOne requests outcomes c buffer) := by
  unfold requestOne
  split_ifs
  · exact h
  · exact lifeCycle_transmitBuffer (requested_of_lifeCycle h hbuffer) _

/-! ## Runs -/

lemma LifeCycle.setDev {d : Fdcan} (htx : d.tx = c.dev.tx) :
    LifeCycle { c with dev := d } := h.same htx rfl (fun _ ht => ht) rfl rfl

omit h in
lemma lifeCycle_writes : WriteKeeps [.txbrp, .txbto] LifeCycle where
  few := by decide
  register v hr h := by
    simp at hr
    exact h.setDev (tx_setRegister _ v hr.1 hr.2)
  control v h := h.setDev (tx_applyControllerControl _ v)
  lines h := h.setDev (tx_updateInterruptLines _)
  lost h := h.same (tx_updateRxFifo0Status _) (ledger_note _ _) (fun _ ht => ht) rfl rfl
  acknowledged slot h := by
    refine h.same ?_ (ledger_note _ _) (fun _ ht => ht) rfl rfl
    simp only [note]
    rw [tx_setRegister _ _ (by decide) (by decide), tx_acknowledgeRxFifo0]
  requested requests outcomes _ hbuffer h := lifeCycle_requestOne h requests outcomes hbuffer

lemma lifeCycle_step (op : Op) : LifeCycle (c.step op) := by
  cases op with
  | event e => exact lifeCycle_event h e
  | read offset size => exact h.setDev (tx_read c.dev offset size)
  | write offset size value outcomes => exact lifeCycle_writes.write h offset size value outcomes
  | writeRam offset size value => exact h.setDev rfl

lemma lifeCycle_run (ops : List Op) : LifeCycle (c.run ops) := by
  induction ops generalizing c with
  | nil => exact h
  | cons op ops ih => exact ih (lifeCycle_step h op)

end

lemma lifeCycle_fresh (index : Nat) (ram : MessageRam) : LifeCycle (fresh index ram) := by
  have htx : (fresh index ram).dev.tx = TxPart.reset ⟨0, 0, fun _ => .idle, fun _ => 0⟩ :=
    tx_reset _
  refine ⟨fun b hb => ?_, fun t ht => ?_, rfl, rfl⟩
  · rw [htx]
    exact Linked.reset (l := {}) b
  · cases ht

/-! ## The law -/

/-- Nothing that comes back from the bus is a request. -/
lemma requests_event (c : Controller) (e : BusEvent) : (c.event e).requests = c.requests := by
  cases e with
  | receive frame time =>
    show (c.receive frame time).requests = _
    unfold receive
    split <;> rfl
  | answer token success =>
    show (c.answer token success).requests = _
    unfold answer
    split <;> rfl
  | attach | detach =>
    show c.detach.requests = _
    unfold detach
    split <;> rfl
  | reset => rfl

lemma requests_requestOne (c : Controller) (requests : BitVec 32) (outcomes : Nat → SendOutcome)
    (buffer : Nat) : (requestOne requests outcomes c buffer).requests = c.requests +
      if requests &&& Fdcan.bufferBit buffer = 0 ∨ c.dev.txBufferState buffer = .pending then 0
      else 1 := by
  have hduring (c : Controller) : ((outcomes buffer).during.foldl event c).requests = c.requests :=
    List.foldlRecOn (motive := fun c' : Controller => c'.requests = c.requests) _ _ rfl
      fun c' h e _ => (requests_event c' e).trans h
  unfold requestOne transmitBuffer
  simp only [Bool.or_eq_true, decide_eq_true_eq]
  split
  · rfl
  split
  · rfl
  split_ifs
  any_goals exact hduring _
  rfl

def Awaited (c : Controller) (t : Token) : Prop :=
  c.ledger.latest t.buffer = some (t.request, .outstanding)

/-- A failure finds its buffer pending, if the generation of the buffer is still
the one it was made for. -/
def InTime (c : Controller) (t : Token) (success : Bool) : Prop :=
  success = false → c.dev.txGeneration t.buffer = t.generation →
    c.dev.txBufferState t.buffer = .pending

/-- **The life cycle.** Take a controller as it is built and let anything happen:
requests, answers of the bus at once, later or never, attaching, detaching and
resets. TXBRP has the bit of a buffer exactly while its latest request is
outstanding, and TXBTO exactly when that request went out. No request goes out
twice. And an answer to a request that is not awaited any more leaves the whole
controller as it was, if it is in time. A store to TXBAR makes a request of each
buffer whose bit it has and which is not pending when its turn comes. -/
theorem every_request_lives_once (index : Nat) (ram : MessageRam) (ops : List Op) :
    let c := (fresh index ram).run ops
    (∀ requests outcomes, ∀ b < 3, (requestOne requests outcomes c b).ledger.next =
      c.ledger.next + if requests &&& Fdcan.bufferBit b = 0 ∨ c.dev.txBufferState b = .pending
        then 0 else 1) ∧
    (∀ b < 3, ((c.dev.registers .txbrp).getLsbD b = true ↔ c.ledger.Outstanding b) ∧
      ((c.dev.registers .txbto).getLsbD b = true ↔ c.ledger.Completed b)) ∧
    c.completed.Nodup ∧
    ∀ t success, ¬c.Awaited t → c.InTime t success → (c.answer t success).dev = c.dev := by
  intro c
  have h : LifeCycle c := lifeCycle_run (lifeCycle_fresh index ram) ops
  refine ⟨fun requests outcomes b hb => ?_,
    fun b hb => ⟨(h.linked b hb).brp, (h.linked b hb).bto⟩, ?_, ?_⟩
  · rw [← (lifeCycle_requestOne h requests outcomes hb).numbers, ← h.numbers]
    exact requests_requestOne c requests outcomes b
  · rw [h.completed]
    exact (Ledger.sound_ofRecord c.record).once
  · intro t success hstale htime
    unfold answer
    split
    · rename_i hin
      have hok := h.tokens t hin
      have hno : c.dev.awaits t.buffer t.generation = false := by
        rw [Bool.eq_false_iff]
        exact fun hyes => hstale ((awaits_iff h hok).mp hyes)
      simp only [note, Fdcan.completion]
      split_ifs with hgen hsuccess
      · rfl
      · simp [Fdcan.completeTransmission, hno]
      · rw [not_not] at hgen
        have hpending := htime (by simpa using hsuccess) hgen
        simp [Fdcan.awaits, hgen, hpending] at hno
    · rfl

/-- A controller on a bus asks for buffer 0 to be sent, with the interrupt for
protocol errors on. The bus takes the frame and has not answered yet. -/
def asking : List Op :=
  [.event (.attach (some 1)), .write 0x018 .word 0 fun _ => {},
    .write 0x054 .word 0x200000 fun _ => {}, .write 0x05c .word 1 fun _ => {},
    .write 0x0cc .word 1 fun _ => {}]

/-- The callback of that request. -/
def asked : Token := ⟨0, 2, 0⟩

/-- After a reset a late answer changes nothing. -/
theorem an_answer_after_a_reset_changes_nothing :
    let c := (fresh 0 fun _ => 0).run (asking ++ [.event .reset])
    asked ∈ c.outstanding ∧ ¬c.Awaited asked ∧ c.InTime asked false ∧
      (c.answer asked false).dev = c.dev := by
  have hlaw := (every_request_lives_once 0 (fun _ => 0) (asking ++ [.event .reset])).2.2.2 asked false
  have hheld : asked ∈ ((fresh 0 fun _ => 0).run (asking ++ [.event .reset])).outstanding := by
    decide +kernel
  have hstale : ((fresh 0 fun _ => 0).run (asking ++ [.event .reset])).ledger.latest 0 = none := by
    decide +kernel
  have hgen : ((fresh 0 fun _ => 0).run (asking ++ [.event .reset])).dev.txGeneration 0 = 3 := by
    decide +kernel
  revert hlaw hheld hstale hgen
  generalize (fresh 0 fun _ => 0).run (asking ++ [.event .reset]) = c
  intro hlaw hheld hstale hgen
  have hnot : ¬c.Awaited asked := by
    intro h
    rw [Awaited, asked, hstale] at h
    cases h
  have htime : c.InTime asked false := by
    intro _ h
    rw [asked, hgen] at h
    cases h
  exact ⟨hheld, hnot, htime, hlaw hnot htime⟩

/-- The controller is detached while the request waits in the outbox of its board.
The replay finds no sender and reports a failure. The request was withdrawn, but
the controller sets its error flag and raises its line. -/
theorem a_failure_after_a_detach_raises_an_interrupt :
    let c := (fresh 0 fun _ => 0).run (asking ++ [.event .detach])
    asked ∈ c.outstanding ∧ ¬c.Awaited asked ∧
      c.dev.registers .ir = 0 ∧ c.dev.signals = [] ∧
      (c.answer asked false).dev.registers .ir = 0x200000 ∧
      (c.answer asked false).dev.signals = [.level 0 true, .raise 0] := by
  refine ⟨by decide +kernel, ?_, by decide +kernel, by decide +kernel, by decide +kernel,
    by decide +kernel⟩
  unfold Awaited
  decide +kernel

end Controller

end Fil.Stm32g4
