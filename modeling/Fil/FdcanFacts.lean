-- What the message RAM holds after the stores of a controller: words come back
-- as they were stored, and an element of the receive FIFO holds its frame. And
-- raising an interrupt changes the interrupt state of a controller only, and what
-- a write of the core keeps.
import Fil.ByteLanes
import Fil.Fdcan

namespace Fil.Stm32g4

open Fil.Mem Fil.Devices ByteLanes List BitVec

variable {a : Nat}

namespace MessageRam

variable {ram : MessageRam} {index offset : Nat}

/-! ## Words -/

variable {width : Nat}

lemma absoluteOffset_eq (hindex : index < controllerCount) (hwidth : 0 < width)
    (hfit : offset + width ≤ controllerStride) :
    absoluteOffset index offset width = some (index * controllerStride + offset) := by
  unfold absoluteOffset
  rw [if_neg]
  simp
  omega

lemma loadWord_congr {ram' : MessageRam} (hindex : index < controllerCount)
    (hfit : offset + 4 ≤ controllerStride)
    (h : ∀ i < 4, ram' (index * controllerStride + offset + i) =
      ram (index * controllerStride + offset + i)) :
    ram'.loadWord index offset = ram.loadWord index offset := by
  have h0 := h 0 (by omega)
  rw [Nat.add_zero] at h0
  unfold loadWord
  rw [absoluteOffset_eq hindex (by omega) hfit]
  dsimp only
  rw [h0, h 1 (by omega), h 2 (by omega), h 3 (by omega)]

lemma storeBytes_of_mem {o i w : Nat} (value : BitVec w) (hi : i < width) :
    ram.storeBytes o width value (o + i) = (value >>> (i * 8)).setWidth 8 := by
  unfold storeBytes
  rw [if_pos (by omega), Nat.add_sub_cancel_left]

lemma storeBytes_of_not_mem {o i w : Nat} (value : BitVec w)
    (hi : i < o ∨ o + width ≤ i) : ram.storeBytes o width value i = ram i := by
  unfold storeBytes
  rw [if_neg (by omega)]

section

variable (hindex : index < controllerCount)
include hindex

section

variable (hfit : offset + 4 ≤ controllerStride) (v : BitVec 32)
include hfit

lemma loadWord_storeWord :
    (ram.storeWord index offset v).loadWord index offset = v := by
  unfold loadWord storeWord
  rw [absoluteOffset_eq hindex (by omega) hfit]
  dsimp only
  have h0 : ram.storeBytes (index * controllerStride + offset) 4 v
      (index * controllerStride + offset + 0) = _ := storeBytes_of_mem v (by omega : 0 < 4)
  rw [Nat.add_zero] at h0
  rw [h0, storeBytes_of_mem v (by omega), storeBytes_of_mem v (by omega),
    storeBytes_of_mem v (by omega)]
  exact word_of_bytes v

lemma storeWord_outside (ha : a < index * controllerStride + offset ∨
      index * controllerStride + offset + 4 ≤ a) :
    ram.storeWord index offset v a = ram a := by
  unfold storeWord
  rw [absoluteOffset_eq hindex (by omega) hfit]
  exact storeBytes_of_not_mem v ha

end

variable {offset' : Nat}

lemma loadWord_storeWord_of_apart (hfit : offset + 4 ≤ controllerStride)
    (hfit' : offset' + 4 ≤ controllerStride) (v : BitVec 32)
    (hapart : offset' + 4 ≤ offset ∨ offset + 4 ≤ offset') :
    (ram.storeWord index offset v).loadWord index offset' = ram.loadWord index offset' :=
  loadWord_congr hindex hfit' fun i hi => storeWord_outside hindex hfit v (by omega)

lemma loadWord_clearRange {size : Nat} (hfit : offset + size ≤ controllerStride)
    (hlow : offset ≤ offset') (hhigh : offset' + 4 ≤ offset + size) :
    (ram.clearRange index offset size).loadWord index offset' = 0 := by
  have hzero : ∀ i < 4, ram.clearRange index offset size (index * controllerStride + offset' + i) =
      0 := by
    intro i hi
    unfold clearRange
    rw [absoluteOffset_eq hindex (by omega) hfit]
    have hat : index * controllerStride + offset' + i =
        index * controllerStride + offset + (offset' - offset + i) := by omega
    dsimp only
    rw [hat, storeBytes_of_mem _ (by omega)]
    simp
  have h0 := hzero 0 (by omega)
  rw [Nat.add_zero] at h0
  unfold loadWord
  rw [absoluteOffset_eq hindex (by omega) (by omega)]
  dsimp only
  rw [h0, hzero 1 (by omega), hzero 2 (by omega), hzero 3 (by omega)]
  rfl

lemma clearRange_outside {size : Nat} (hsize : 0 < size)
    (hfit : offset + size ≤ controllerStride)
    (ha : a < index * controllerStride + offset ∨ index * controllerStride + offset + size ≤ a) :
    ram.clearRange index offset size a = ram a := by
  unfold clearRange
  rw [absoluteOffset_eq hindex hsize hfit]
  exact storeBytes_of_not_mem _ ha

section

variable (f : Nat → BitVec 32) (n : Nat) (hfit : offset + 4 * n ≤ controllerStride)
include hfit

/-- A row of word stores: the words of the row are there. -/
lemma loadWord_storeWords {j : Nat} (hj : j < n) :
    ((range n).foldl (fun ram i => ram.storeWord index (offset + 4 * i) (f i)) ram).loadWord
      index (offset + 4 * j) = f j := by
  induction n with
  | zero => omega
  | succ n ih =>
    rw [range_succ, List.foldl_concat]
    rcases Nat.lt_succ_iff_lt_or_eq.mp hj with hlt | rfl
    · rw [loadWord_storeWord_of_apart hindex (by omega) (by omega) _ (by omega)]
      exact ih (by omega) hlt
    · exact loadWord_storeWord hindex (by omega) _

/-- A row of word stores: the bytes outside of the row are left. -/
lemma storeWords_outside (ha : a < index * controllerStride + offset ∨
      index * controllerStride + offset + 4 * n ≤ a) :
    (range n).foldl (fun ram i => ram.storeWord index (offset + 4 * i) (f i)) ram a = ram a := by
  induction n with
  | zero => rfl
  | succ n ih =>
    rw [range_succ, List.foldl_concat, storeWord_outside hindex (by omega) _ (by omega)]
    exact ih (by omega) (by omega)

lemma loadWord_storeWords_of_apart (hfit' : offset' + 4 ≤ controllerStride)
    (hapart : offset' + 4 ≤ offset ∨ offset + 4 * n ≤ offset') :
    ((range n).foldl (fun ram i => ram.storeWord index (offset + 4 * i) (f i)) ram).loadWord
      index offset' = ram.loadWord index offset' :=
  loadWord_congr hindex hfit' fun i hi => storeWords_outside hindex f n hfit (by omega)

end

end

end MessageRam

/-! ## Elements -/

namespace Fdcan

open MessageRam

lemma dlcToLength_le (dlc : BitVec 8) : dlcToLength dlc ≤ 64 := by
  have hlow : (dlc &&& 0x0f).toNat < 16 :=
    lt_of_le_of_lt Nat.and_le_right (by decide)
  unfold dlcToLength
  interval_cases (dlc &&& 0x0f).toNat <;> decide

/-- Word `i` of the element that a frame is kept in. -/
def Received.word (r : Received) : Nat → BitVec 32
  | 0 => r.word0
  | 1 => r.word1
  | i + 2 => r.dataWord i

variable {i : Nat} (ram : MessageRam) (r : Received)

lemma Received.dataWord_zero (hi : dlcToLength r.frame.dlc ≤ 4 * i) : r.dataWord i = 0 := by
  unfold Received.dataWord
  have hnone : ∀ byte, ¬4 * i + byte < dlcToLength r.frame.dlc := by
    intro byte
    omega
  simp only [hnone, if_false]
  rfl

/-- Word `i` of FIFO element `slot`, as firmware reads it. -/
def elementWord (ram : MessageRam) (index slot i : Nat) : BitVec 32 :=
  ram.loadWord index (rxElementOffset slot + 4 * i)

variable {slot : Nat}

lemma rxElement_fits (hslot : slot < rxFifoElementCount) (hi : i < 18) :
    rxElementOffset slot + 4 * i + 4 ≤ controllerStride := by
  unfold rxFifoElementCount at hslot
  unfold rxElementOffset rxFifo0Offset rxFifoElementSize controllerStride
  omega

variable {index : Nat}

section

variable (hindex : index < controllerCount) (hslot : slot < rxFifoElementCount) (r : Received)
include hindex hslot

lemma elementWord_storeElement (hi : i < 18) :
    elementWord (storeElement ram index slot r) index slot i = r.word i := by
  have hlen := dlcToLength_le r.frame.dlc
  have hend := rxElement_fits hslot (i := 17) (by omega)
  unfold elementWord storeElement
  match i, hi with
  | 0, _ =>
    rw [loadWord_storeWords_of_apart hindex _ _ (by omega) (by omega) (by omega),
      loadWord_storeWord_of_apart hindex (by omega) (by omega) _ (by omega)]
    exact loadWord_storeWord hindex (by omega) _
  | 1, _ =>
    rw [loadWord_storeWords_of_apart hindex _ _ (by omega) (by omega) (by omega)]
    exact loadWord_storeWord hindex (by omega) _
  | i + 2, hi =>
    have hat : rxElementOffset slot + 4 * (i + 2) = rxElementOffset slot + 8 + 4 * i := by omega
    rw [hat]
    by_cases hin : i < (dlcToLength r.frame.dlc + 3) / 4
    · exact loadWord_storeWords hindex _ _ (by omega) hin
    · rw [loadWord_storeWords_of_apart hindex _ _ (by omega) (by omega) (by omega),
        loadWord_storeWord_of_apart hindex (by omega) (by omega) _ (by omega),
        loadWord_storeWord_of_apart hindex (by omega) (by omega) _ (by omega)]
      have hsize : rxFifoElementSize = 72 := rfl
      rw [loadWord_clearRange hindex (by omega) (by omega) (by omega)]
      exact (r.dataWord_zero (by omega)).symm

lemma storeElement_outside (ha : a < index * controllerStride + rxElementOffset slot ∨
      index * controllerStride + rxElementOffset slot + 72 ≤ a) :
    storeElement ram index slot r a = ram a := by
  have hlen := dlcToLength_le r.frame.dlc
  have hend := rxElement_fits hslot (i := 17) (by omega)
  have hsize : rxFifoElementSize = 72 := rfl
  unfold storeElement
  rw [storeWords_outside hindex _ _ (by omega) (by omega),
    storeWord_outside hindex (by omega) _ (by omega),
    storeWord_outside hindex (by omega) _ (by omega),
    clearRange_outside hindex (by omega) (by omega) (by omega)]

end

lemma elementWord_storeElement_of_ne {slot' : Nat} (hindex : index < controllerCount)
    (hslot : slot < rxFifoElementCount) (hslot' : slot' < rxFifoElementCount) (hne : slot' ≠ slot)
    (r : Received) (hi : i < 18) :
    elementWord (storeElement ram index slot r) index slot' i = elementWord ram index slot' i := by
  have hapart : rxElementOffset slot' + 72 ≤ rxElementOffset slot ∨
      rxElementOffset slot + 72 ≤ rxElementOffset slot' := by
    unfold rxElementOffset rxFifoElementSize
    omega
  refine MessageRam.loadWord_congr hindex (rxElement_fits hslot' hi) fun k hk => ?_
  exact storeElement_outside ram hindex hslot r (by omega)

lemma elementWord_write (hindex : index < controllerCount)
    (hslot : slot < rxFifoElementCount) (offset : Nat) (size : AccessSize) (value : BitVec 64)
    (hapart : offset + byteCount size ≤ index * controllerStride + rxElementOffset 0 ∨
      index * controllerStride + rxElementOffset rxFifoElementCount ≤ offset)
    (hi : i < 18) :
    elementWord (ram.write offset size value) index slot i = elementWord ram index slot i := by
  have hfit := rxElement_fits hslot hi
  have hlow : rxElementOffset 0 ≤ rxElementOffset slot := by
    unfold rxElementOffset
    omega
  have hhigh : rxElementOffset slot + 72 ≤ rxElementOffset rxFifoElementCount := by
    unfold rxElementOffset rxFifoElementSize
    omega
  apply loadWord_congr hindex (by omega)
  intro k hk
  unfold MessageRam.write
  split_ifs
  · exact storeBytes_of_not_mem value (by omega)
  · rfl

/-! ## Reading a frame back -/

/-- A frame with its payload written out to its length. -/
def padded (frame : CanFrame) : CanFrame :=
  { frame with data := (List.range (dlcToLength frame.dlc)).map fun i => frame.data.getD i 0 }

lemma frameOfWords_congr {f g : Nat → BitVec 32} (h : ∀ i < 18, f i = g i) :
    frameOfWords f = frameOfWords g := by
  unfold frameOfWords
  dsimp only
  rw [h 0 (by omega), h 1 (by omega)]
  congr 1
  apply map_congr_left
  intro i hi
  have hlen := dlcToLength_le (((g 1 >>> 16) &&& 0x0f).setWidth 8)
  have hi' := mem_range.mp hi
  rw [h (2 + i / 4) (by omega)]

section

variable {frame : CanFrame} (h : validate frame = .ok ())
include h

lemma valid_dlc :
    frame.dlc &&& 0x0f = frame.dlc := by
  have table : ∀ dlc : BitVec 8, ¬15 < dlc → dlc &&& 0x0f = dlc := by decide +kernel
  unfold validate at h
  split_ifs at h with h1
  all_goals exact table _ h1

lemma valid_id :
    (if frame.extended then frame.id ≤ 0x1fffffff else frame.id ≤ 0x7ff) := by
  unfold validate at h
  split_ifs at h with h1 h2 h3
  all_goals
    split_ifs
    all_goals simp_all

end

lemma Received.dataWord_byte (hi : i < dlcToLength r.frame.dlc) :
    (r.dataWord (i / 4) >>> (i % 4 * 8)).setWidth 8 = r.frame.data.getD i 0 := by
  have hsplit : 4 * (i / 4) + i % 4 = i := by omega
  apply eq_of_getLsbD_eq
  intro n hn
  have e1 : (i % 4 * 8 + n) / 8 = i % 4 := by omega
  have e2 : (i % 4 * 8 + n) % 8 = n := by omega
  have e3 : i % 4 * 8 + n < 4 * 8 := by omega
  unfold Received.dataWord
  rw [getLsbD_setWidth, getLsbD_ushiftRight,
    getLsbD_packed (fun byte => 4 * (i / 4) + byte < dlcToLength r.frame.dlc)
      (fun byte => r.frame.data.getD (4 * (i / 4) + byte) 0) le_rfl, e1, e2, hsplit]
  simp [hn, e3, hi]

lemma Received.word1_dlc : ((r.word1 >>> 16) &&& 0x0f).setWidth 8 = r.frame.dlc &&& 0x0f := by
  apply eq_of_getLsbD_eq
  intro n hn
  unfold Received.word1
  cases r.decision.nonMatching <;> cases r.frame.brs <;> cases r.frame.fd <;>
    interval_cases n <;> simp

lemma Received.word1_brs : r.word1.getLsbD 20 = r.frame.brs := by
  unfold Received.word1
  cases r.decision.nonMatching <;> cases r.frame.brs <;> cases r.frame.fd <;> simp

lemma Received.word1_fd : r.word1.getLsbD 21 = r.frame.fd := by
  unfold Received.word1
  cases r.decision.nonMatching <;> cases r.frame.brs <;> cases r.frame.fd <;> simp

lemma Received.word0_extended : r.word0.getLsbD 30 = r.frame.extended := by
  unfold Received.word0
  cases r.frame.extended <;> simp

lemma Received.word0_id (h : validate r.frame = .ok ()) :
    (if r.frame.extended then r.word0 &&& 0x1fffffff else (r.word0 >>> 18) &&& 0x7ff) = r.frame.id := by
  have hid := valid_id h
  unfold Received.word0
  cases hext : r.frame.extended with
  | true =>
    simp only [hext, if_true] at hid ⊢
    have hlow : r.frame.id &&& 0x1fffffff = r.frame.id := by
      apply eq_of_toNat_eq
      exact (Nat.and_two_pow_sub_one_eq_mod _ 29).trans (Nat.mod_eq_of_lt (by bv_omega))
    calc (r.frame.id &&& 0x1fffffff ||| 1#32 <<< 30) &&& 0x1fffffff = r.frame.id &&& 0x1fffffff := by
          apply eq_of_getLsbD_eq
          intro k hk
          interval_cases k <;> simp
      _ = r.frame.id := hlow
  | false =>
    simp [hext] at hid ⊢
    have hlow : r.frame.id &&& 0x7ff = r.frame.id := by
      apply eq_of_toNat_eq
      exact (Nat.and_two_pow_sub_one_eq_mod _ 11).trans (Nat.mod_eq_of_lt (by bv_omega))
    calc ((r.frame.id &&& 0x7ff) <<< 18) >>> 18 &&& 0x7ff = r.frame.id &&& 0x7ff := by
          apply eq_of_getLsbD_eq
          intro k hk
          interval_cases k <;> simp
      _ = r.frame.id := hlow

/-- The frame can be read back from its element, with the payload written out to
its length. -/
lemma Received.frame_readable (h : validate r.frame = .ok ()) :
    frameOfWords r.word = padded r.frame := by
  have hdlc : ((r.word1 >>> 16) &&& 0x0f).setWidth 8 = r.frame.dlc := by
    rw [r.word1_dlc, valid_dlc h]
  have hext : decide (r.word0 &&& (1#32 <<< 30) ≠ 0) = r.frame.extended := by
    rw [Bool.eq_iff_iff, decide_eq_true_eq, ← r.word0_extended]
    exact and_twoPow_ne_zero _ (by omega)
  have hbrs : decide (r.word1 &&& (1#32 <<< 20) ≠ 0) = r.frame.brs := by
    rw [Bool.eq_iff_iff, decide_eq_true_eq, ← r.word1_brs]
    exact and_twoPow_ne_zero _ (by omega)
  have hfd : decide (r.word1 &&& (1#32 <<< 21) ≠ 0) = r.frame.fd := by
    rw [Bool.eq_iff_iff, decide_eq_true_eq, ← r.word1_fd]
    exact and_twoPow_ne_zero _ (by omega)
  unfold frameOfWords
  dsimp only [Received.word]
  rw [hdlc, hext, hbrs, hfd, r.word0_id h]
  congr 1
  apply map_congr_left
  intro i hi
  rw [Nat.add_comm 2 (i / 4)]
  exact r.dataWord_byte (mem_range.mp hi)

/-! ## Interrupts -/

/-- Two controllers that differ in IR and their interrupt lines only. -/
def OnlyInterrupts (d d' : Fdcan) : Prop :=
  ∃ (ir : BitVec 32) (interruptLineAsserted interruptLevels : Nat → Bool) (signals : List Signal),
    d' = { d.setRegister .ir ir with interruptLineAsserted, interruptLevels, signals }

namespace OnlyInterrupts

variable (d : Fdcan)

lemma of_lines (interruptLineAsserted interruptLevels : Nat → Bool) (signals : List Signal) :
    OnlyInterrupts d { d with interruptLineAsserted, interruptLevels, signals } :=
  ⟨d.registers .ir, interruptLineAsserted, interruptLevels, signals, by simp [setRegister]⟩

lemma refl : OnlyInterrupts d d :=
  of_lines d d.interruptLineAsserted d.interruptLevels d.signals

lemma trans {a b c : Fdcan} (hab : OnlyInterrupts a b) (hbc : OnlyInterrupts b c) :
    OnlyInterrupts a c := by
  obtain ⟨_, _, _, _, rfl⟩ := hab
  obtain ⟨ir, asserted, levels, signals, rfl⟩ := hbc
  exact ⟨ir, asserted, levels, signals, by simp [setRegister]⟩

lemma level (line : Nat) (asserted : Bool) :
    OnlyInterrupts d (d.setInterruptLevel line asserted) := by
  unfold setInterruptLevel
  split_ifs
  · exact refl d
  · exact of_lines d d.interruptLineAsserted _ _

lemma asserted (line : Nat) (asserted : Bool) :
    OnlyInterrupts d (d.setLineAsserted line asserted) :=
  of_lines d _ d.interruptLevels d.signals

lemma signal (signals : List Signal) : OnlyInterrupts d { d with signals } :=
  of_lines d d.interruptLineAsserted d.interruptLevels signals

lemma line (d : Fdcan) (line : Nat) : OnlyInterrupts d (d.updateInterruptLine line) := by
  unfold updateInterruptLine
  dsimp only
  have hlevel := level d line (d.interruptLinePending line)
  split_ifs
  · exact hlevel.trans (asserted _ _ _)
  · exact hlevel
  · exact (hlevel.trans (asserted _ _ _)).trans (signal _ _)

lemma lines (d : Fdcan) : OnlyInterrupts d d.updateInterruptLines :=
  (line d 0).trans (line _ 1)

lemma levels (lines : List Nat) (d : Fdcan) :
    OnlyInterrupts d (lines.foldl (fun d line => d.setInterruptLevel line false) d) := by
  induction lines generalizing d with
  | nil => exact refl d
  | cons line lines ih => exact (level d line false).trans (ih _)

lemma flags (flags : BitVec 32) : OnlyInterrupts d (d.setInterruptFlags flags) := by
  refine trans (foldlRecOn _ _ ⟨_, _, _, _, rfl⟩ fun e he group _ => ?_) (lines _)
  dsimp only
  split_ifs
  · exact he
  · exact he.trans (asserted e _ _)

end OnlyInterrupts

lemma setRegister_back (d : Fdcan) (r : FdcanRegister) (v : BitVec 32) :
    (d.setRegister r v).setRegister r (d.registers r) = d := by
  simp [setRegister]

end Fdcan

/-! ## Writes of the core -/

namespace Controller

/-- A fact that a write of the core keeps, if it holds across each thing a write can
do. The registers `own` are its own: a write gives them their old values back. -/
structure WriteKeeps (own : List FdcanRegister) (P : Controller → Prop) : Prop where
  few : own ⊆ [.rxf0s, .txbrp, .txbto]
  register : ∀ {c : Controller} {r : FdcanRegister} (v : BitVec 32), r ∉ own → P c →
    P { c with dev := c.dev.setRegister r v }
  control : ∀ {c : Controller} (v : BitVec 32), P c →
    P { c with dev := c.dev.applyControllerControl v }
  lines : ∀ {c : Controller}, P c → P { c with dev := c.dev.updateInterruptLines }
  lost : ∀ {c : Controller}, P c → P ({ c with
    dev := { c.dev with rxMessageLost := false }.updateRxFifo0Status }.note .lostCleared)
  acknowledged : ∀ {c : Controller} (slot : Nat), P c → P ({ c with
    dev := (c.dev.acknowledgeRxFifo0 slot).setRegister .rxf0a 0 }.note (.acknowledged slot))
  requested : ∀ {c : Controller} (requests : BitVec 32) (outcomes : Nat → SendOutcome)
    {buffer : Nat}, buffer < 3 → P c → P (requestOne requests outcomes c buffer)

namespace WriteKeeps

variable {own : List FdcanRegister} {P : Controller → Prop} (hP : WriteKeeps own P)
  {c : Controller} (h : P c)
include hP h

lemma storeRegister (outcomes : Nat → SendOutcome) {r : FdcanRegister} (hr : r ∉ own)
    (previous value mask : BitVec 32) : P (c.storeRegister outcomes r previous value mask) := by
  have hfree : ∀ {c : Controller} {r : FdcanRegister} (v : BitVec 32),
      r ∉ [.rxf0s, .txbrp, .txbto] → P c → P { c with dev := c.dev.setRegister r v } :=
    fun v hr => hP.register v fun hown => hr (hP.few hown)
  have hset : ∀ (r : FdcanRegister) (v : BitVec 32), r ∉ [.rxf0s, .txbrp, .txbto] →
      P { c with dev := (c.dev.setRegister r v).updateInterruptLines } := by
    intro r v hr
    have hlines := hP.lines (hfree v hr h)
    exact hlines
  cases r with
  | cccr => exact hP.control _ h
  | ir =>
    have hir := hfree (r := .ir) (previous &&& ~~~(value &&& mask &&& Fdcan.interruptMask))
      (by decide) h
    simp only [Controller.storeRegister]
    split_ifs
    · exact hP.lines (hP.lost hir)
    · exact hP.lines hir
  | ie => exact hset .ie (value &&& Fdcan.interruptMask) (by decide)
  | ils => exact hset .ils (value &&& 0x7f) (by decide)
  | ile => exact hset .ile (value &&& 0x3) (by decide)
  | rxf0a => exact hP.acknowledged _ h
  | txbar =>
    have hbar := hfree (r := .txbar) 0 (by decide) h
    simp only [Controller.storeRegister]
    split_ifs
    · exact hbar
    · exact hP.requested _ _ (by decide) (hP.requested _ _ (by decide)
        (hP.requested _ _ (by decide) hbar))
  | txbtie | crel | endn | ecr | psr | hpms | rxf1s | txfqs | txbcf | txefs =>
    exact hfree _ (by decide) h
  | rxf0s | txbrp | txbto => exact hP.register _ hr h
  | dbtp | nbtp | tocc | tocv | rxgfc | xidam | rxf1a | txbc | txbcr | txefa | other => exact h

lemma writeLane (offset : Nat) (value : BitVec 64) (outcomes : Nat → SendOutcome)
    (lane : Lane) : P (writeLane offset value outcomes c lane) := by
  unfold Controller.writeLane
  generalize FdcanRegister.ofOffset (lane.word offset) = r
  by_cases hr : r ∈ own
  · have hback := Fdcan.setRegister_back c.dev r (lane.merge offset value (c.dev.registers r))
    have hknown := hP.few hr
    simp at hknown
    rcases hknown with rfl | rfl | rfl <;> simp only [Controller.storeRegister, hback] <;> exact h
  · exact hP.storeRegister (hP.register _ hr h) outcomes hr _ _ _

lemma write (offset : Nat) (size : AccessSize) (value : BitVec 64)
    (outcomes : Nat → SendOutcome) : P (c.write offset size value outcomes) := by
  unfold Controller.write
  split_ifs
  · induction lanes offset (byteCount size) generalizing c with
    | nil => exact h
    | cons lane ls ih => exact ih (hP.writeLane h offset value outcomes lane)
  · exact h

end WriteKeeps

end Controller

end Fil.Stm32g4
