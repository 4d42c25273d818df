-- The debugger's view of the registers: the text of all of them, and what a text does
-- when it is written back.
import Fil.StackMirror

namespace Fil.Debug

open Cpu (CpuState)
open ByteLanes (byteAt)
open List

/-! ## Digits -/

def hexDigits : List (BitVec 8) := "0123456789abcdef".toList.map (BitVec.ofNat 8 ·.toNat)

def hexDigitValue (character : BitVec 8) : Option Nat :=
  if 0x30 ≤ character ∧ character ≤ 0x39 then some (character.toNat - 0x30)
  else if 0x61 ≤ character ∧ character ≤ 0x66 then some (character.toNat - 0x61 + 10)
  else if 0x41 ≤ character ∧ character ≤ 0x46 then some (character.toNat - 0x41 + 10)
  else none

/-- Two digits for each byte, the lowest byte first. -/
def hexValue (value : BitVec 64) (bytes : Nat) : List (BitVec 8) :=
  (List.range bytes).flatMap fun index =>
    let digit := ByteLanes.byteAt value index
    [hexDigits.getD (digit >>> 4).toNat 0, hexDigits.getD (digit &&& 0x0f).toNat 0]

/-- The bytes of a text from a position on, put above those that were read. -/
def parsePairs : Nat → BitVec 64 → List (BitVec 8) → Option (BitVec 64)
  | _, value, [] => some value
  | _, _, [_] => none
  | position, value, high :: low :: rest => do
    let high ← hexDigitValue high
    let low ← hexDigitValue low
    parsePairs (position + 2) (value ||| BitVec.ofNat 64 (high <<< 4 ||| low) <<< (position * 4)) rest

def parseLittleEndianHex (text : List (BitVec 8)) : Option (BitVec 64) :=
  if text = [] ∨ text.length % 2 ≠ 0 ∨ 16 < text.length then none else parsePairs 0 0 text

lemma hexDigitValue_hexDigits : ∀ digit : BitVec 8,
    hexDigitValue (hexDigits.getD (digit >>> 4).toNat 0) = some (digit >>> 4).toNat ∧
      hexDigitValue (hexDigits.getD (digit &&& 0x0f).toNat 0) = some (digit &&& 0x0f).toNat ∧
      BitVec.ofNat 64 ((digit >>> 4).toNat <<< 4 ||| (digit &&& 0x0f).toNat) =
        digit.setWidth 64 := by
  decide +kernel

/-- The bytes below some number of them. -/
def lowBytes (value : BitVec 64) (n : Nat) : BitVec 64 := (value.setWidth (8 * n)).setWidth 64

variable (value : BitVec 64)

lemma lowBytes_succ (n : Nat) :
    lowBytes value n ||| (byteAt value n).setWidth 64 <<< (2 * n * 4) =
      lowBytes value (n + 1) := by
  apply BitVec.eq_of_getLsbD_eq
  intro k hk
  simp only [lowBytes, byteAt, BitVec.getLsbD_or, BitVec.getLsbD_setWidth,
    BitVec.getLsbD_shiftLeft, BitVec.getLsbD_ushiftRight, hk, decide_true, Bool.true_and]
  by_cases hlow : k < 8 * n
  · simp [hlow, show k < 2 * n * 4 by omega, show k < 8 * (n + 1) by omega]
  · simp [hlow, show ¬k < 2 * n * 4 by omega, show n * 8 + (k - 2 * n * 4) = k by omega,
      show k - 2 * n * 4 < 64 by omega, show k - 2 * n * 4 < 8 ↔ k < 8 * (n + 1) by omega]

lemma parsePairs_digits (start count : Nat) :
    parsePairs (2 * start) (lowBytes value start) ((range' start count).flatMap fun index =>
      [hexDigits.getD (byteAt value index >>> 4).toNat 0,
        hexDigits.getD (byteAt value index &&& 0x0f).toNat 0]) =
      some (lowBytes value (start + count)) := by
  induction count generalizing start with
  | zero => rfl
  | succ count ih =>
    obtain ⟨hhigh, hlow, hbyte⟩ := hexDigitValue_hexDigits (byteAt value start)
    rw [range'_succ, flatMap_cons, cons_append, cons_append, nil_append,
      parsePairs, hhigh, hlow]
    simp only [Option.bind_eq_bind, Option.bind_some, hbyte, lowBytes_succ]
    rw [show 2 * start + 2 = 2 * (start + 1) by omega, ih,
      show start + 1 + count = start + (count + 1) by omega]

lemma length_hexValue (bytes : Nat) :
    (hexValue value bytes).length = bytes * 2 := by
  simp [hexValue, length_flatMap]

lemma parse_hexValue {bytes : Nat} (hpos : 0 < bytes) (hle : bytes ≤ 8) :
    parseLittleEndianHex (hexValue value bytes) = some (lowBytes value bytes) := by
  have hlength := length_hexValue value bytes
  have hsome : hexValue value bytes ≠ [] := ne_nil_of_length_pos (by omega)
  unfold parseLittleEndianHex
  rw [if_neg (by simp [hsome, hlength]; omega), hexValue, range_eq_range']
  have hnone : lowBytes value 0 = 0 := by
    apply BitVec.eq_of_getLsbD_eq
    simp [lowBytes]
  have hparsed := parsePairs_digits value 0 bytes
  rwa [hnone, Nat.zero_add] at hparsed

/-! ## Registers -/

def wideRegisterIndex (index : Nat) : Bool := 23 ≤ index && index < 39

def wide (s : CpuState) (pair : Nat) : BitVec 64 :=
  (s.single (pair * 2)).setWidth 64 ||| (s.single (pair * 2 + 1)).setWidth 64 <<< 32

def registerValue (s : CpuState) (index : Nat) : BitVec 64 :=
  if wideRegisterIndex index then wide s (index - 23)
  else BitVec.setWidth 64 (match index with
    | 13 => s.readRegister 13
    | 15 => s.core 15 &&& ~~~1
    | 16 => s.xpsr
    | 17 => s.msp
    | 18 => s.psp
    | 19 => s.control
    | 20 => s.primask
    | 21 => s.basepri
    | 22 => s.faultmask
    | 39 => s.fpscr
    | _ => s.core index)

def registerNibbles (index : Nat) : Nat := if wideRegisterIndex index then 16 else 8

def readSingleRegister (s : CpuState) (index : Nat) : Option (List (BitVec 8)) :=
  if index < 40 then some (hexValue (registerValue s index) (registerNibbles index / 2)) else none

def readAllRegisters (s : CpuState) : List (BitVec 8) :=
  (List.range 40).flatMap fun index => hexValue (registerValue s index) (registerNibbles index / 2)

def writeRegisters : List Nat → CpuState → List (BitVec 8) → Bool × CpuState
  | [], s, text => (text.isEmpty, s)
  | index :: rest, s, text =>
    let nibbles := registerNibbles index
    if text.length < nibbles then (false, s)
    else
      match (parseLittleEndianHex (text.take nibbles)).bind (writeSingleRegister s index) with
      | none => (false, s)
      | some s => writeRegisters rest s (text.drop nibbles)

def writeAllRegisters (s : CpuState) (text : List (BitVec 8)) : Bool × CpuState :=
  writeRegisters (List.range 40) s text

/-! ## Transfers -/

variable (s : CpuState)

lemma lowBytes_registerValue (index : Nat) :
    lowBytes (registerValue s index) (registerNibbles index / 2) = registerValue s index := by
  unfold registerValue registerNibbles
  split
  · simp [lowBytes]
  · apply BitVec.eq_of_getLsbD_eq
    intro k hk
    simp [lowBytes, hk]

lemma writeSingleRegister_some {index : Nat} (h : index < 40)
    (value : BitVec 64) : ∃ t, writeSingleRegister s index value = some t := by
  interval_cases index <;> exact ⟨_, rfl⟩

/-- Stores a register by its number. -/
def store (s : CpuState) (register : Nat × BitVec 64) : CpuState :=
  (writeSingleRegister s register.1 register.2).getD s

lemma writeRegisters_text (a : CpuState) {l : List Nat} (hl : ∀ index ∈ l, index < 40) :
    writeRegisters l s (l.flatMap fun index =>
      hexValue (registerValue a index) (registerNibbles index / 2)) =
        (true, (l.map fun index => (index, registerValue a index)).foldl store s) := by
  induction l generalizing s with
  | nil => rfl
  | cons index l ih =>
    have hbytes : 0 < registerNibbles index / 2 ∧ registerNibbles index / 2 ≤ 8 ∧
        registerNibbles index / 2 * 2 = registerNibbles index := by
      unfold registerNibbles
      split <;> decide
    have hlength := length_hexValue (registerValue a index) (registerNibbles index / 2)
    rw [hbytes.2.2] at hlength
    obtain ⟨t, ht⟩ := writeSingleRegister_some s (hl index mem_cons_self)
      (registerValue a index)
    have hnext : store s (index, registerValue a index) = t := by rw [store, ht, Option.getD_some]
    rw [flatMap_cons, writeRegisters, map_cons, foldl_cons, hnext, if_neg (by simp [hlength]),
      take_left' hlength, drop_left' hlength, parse_hexValue _ hbytes.1 hbytes.2.1,
      lowBytes_registerValue, Option.bind_some, ht]
    exact ih t fun i hi => hl i (mem_cons_of_mem _ hi)

/-! ## Cells -/

/-- What a register is made of. The stack pointer is one of two others, and the status has
two fields of its own beside it. -/
def cell (s : CpuState) (index : Nat) : List (BitVec 32) :=
  if wideRegisterIndex index then [s.single ((index - 23) * 2), s.single ((index - 23) * 2 + 1)]
  else match index with
    | 13 => []
    | 16 => [s.xpsr, (BitVec.ofBool s.thumb).setWidth 32, s.itState.setWidth 32]
    | 17 => [s.msp]
    | 18 => [s.psp]
    | 19 => [s.control]
    | 20 => [s.primask]
    | 21 => [s.basepri]
    | 22 => [s.faultmask]
    | 39 => [s.fpscr]
    | _ => [s.core index]

/-- What a value makes of a register. -/
def cellOf (index : Nat) (value : BitVec 64) : List (BitVec 32) :=
  let word := value.setWidth 32
  if wideRegisterIndex index then [word, (value >>> 32).setWidth 32]
  else match index with
    | 13 => []
    | 15 => [word &&& ~~~1]
    | 16 => [word, (BitVec.ofBool (word &&& Cpu.xpsrT != 0)).setWidth 32,
        ((word >>> 25 &&& 0x3 ||| (word >>> 10 &&& 0x3f) <<< 2).setWidth 8).setWidth 32]
    | _ => [word]

lemma cell_store {index : Nat} (h : index < 40) (value : BitVec 64) :
    cell (store s (index, value)) index = cellOf index value := by
  interval_cases index <;> rfl

lemma cell_setCore {i j : Nat} (h : i ≠ j ∨ j = 13) (v : BitVec 32) :
    cell (s.setCore j v) i = cell s i := by
  by_cases hsp : i = 13
  · subst hsp
    rfl
  unfold cell
  rw [CpuState.core_setCore_of_ne s j v (by omega)]
  unfold CpuState.setCore
  by_cases hj : j < 16
  · rw [dif_pos hj]
    rfl
  · rw [dif_neg hj]

lemma cell_msp {i : Nat} (h : i ≠ 17) (v : BitVec 32) : cell { s with msp := v } i = cell s i := by
  unfold cell
  split
  · rfl
  · split <;> first | rfl | exact absurd rfl h

lemma cell_psp {i : Nat} (h : i ≠ 18) (v : BitVec 32) : cell { s with psp := v } i = cell s i := by
  unfold cell
  split
  · rfl
  · split <;> first | rfl | exact absurd rfl h

lemma cell_setSingle {i j : Nat} (h : j < 32) (hne : i ≠ 23 + j / 2) (v : BitVec 32) :
    cell (s.setSingle j v) i = cell s i := by
  have hsingle : ∀ k, k ≠ j → (s.setSingle j v).single k = s.single k := by
    intro k hk
    simp [CpuState.single, CpuState.setSingle, h, Function.update, hk]
  unfold cell
  split
  · rename_i hwide
    simp [wideRegisterIndex] at hwide
    rw [hsingle _ (by omega), hsingle _ (by omega)]
  · unfold CpuState.setSingle
    rw [dif_pos h]
    rfl

lemma cell_store_of_ne {i j : Nat} (hj : j < 40) (hne : i ≠ j)
    (hsp : j = 13 → i ≠ 17 ∧ i ≠ 18) (value : BitVec 64) :
    cell (store s (j, value)) i = cell s i := by
  have hkept : ∀ t : CpuState, cell (refreshActiveSpMirror t) i = cell t i := fun t =>
    cell_setCore t (.inr rfl) _
  by_cases hlow : j < 13
  · unfold store writeSingleRegister
    dsimp only
    rw [if_pos hlow]
    exact cell_setCore s (.inl hne) _
  by_cases hwide : 23 ≤ j ∧ j < 39
  · have hstore : ∀ v w, cell ((s.setSingle ((j - 23) * 2) v).setSingle ((j - 23) * 2 + 1) w) i =
        cell s i := fun v w =>
      (cell_setSingle _ (by omega) (by omega) w).trans (cell_setSingle s (by omega) (by omega) v)
    obtain ⟨_, _⟩ := hwide
    interval_cases j <;> exact hstore _ _
  obtain rfl | rfl | rfl | rfl | rfl | rfl | rfl | rfl | rfl | rfl | rfl : j = 13 ∨ j = 14 ∨
    j = 15 ∨ j = 17 ∨ j = 18 ∨ j = 16 ∨ j = 19 ∨ j = 20 ∨ j = 21 ∨ j = 22 ∨ j = 39 := by omega
  · refine (cell_setCore _ (.inr rfl) _).trans ?_
    unfold CpuState.setActiveSp
    split
    · exact cell_msp s (hsp rfl).1 _
    · exact cell_psp s (hsp rfl).2 _
  · exact cell_setCore s (.inl hne) _
  · exact cell_setCore s (.inl hne) _
  · exact (hkept _).trans (cell_msp s hne _)
  · exact (hkept _).trans (cell_psp s hne _)
  on_goal 1 => refine (hkept _).trans ?_
  on_goal 2 => refine (hkept _).trans ?_
  all_goals
    unfold cell
    split
    · rfl
    · split <;> first | rfl | exact absurd rfl hne

section

variable {registers : List (Nat × BitVec 64)} (hlt : ∀ r ∈ registers, r.1 < 40)
include hlt

lemma cell_stored {i : Nat} (hne : ∀ r ∈ registers, i ≠ r.1 ∧ (r.1 = 13 → i ≠ 17 ∧ i ≠ 18)) :
    cell (registers.foldl store s) i = cell s i := by
  refine foldlRecOn (motive := fun t => cell t i = cell s i) _ _ rfl fun t ht r hr => ?_
  rw [← ht]
  exact cell_store_of_ne t (hlt r hr) (hne r hr).1 (hne r hr).2 r.2

/-- Each register is left as its last value makes it. -/
lemma cell_stored_of_mem (hsorted : registers.Pairwise (·.1 < ·.1)) {register : Nat × BitVec 64}
    (hmem : register ∈ registers) :
    cell (registers.foldl store s) register.1 = cellOf register.1 register.2 := by
  obtain ⟨before, after, rfl⟩ := append_of_mem hmem
  have hafter := (pairwise_cons.mp (pairwise_append.mp hsorted).2.1).1
  rw [foldl_append, foldl_cons, cell_stored _ (fun r hr => hlt r (by simp [hr])) fun r hr => ?_]
  · exact cell_store _ (hlt _ hmem) _
  · have := hafter r hr
    omega

end

lemma wide_of_halves (v : BitVec 64) :
    (v.setWidth 32).setWidth 64 ||| ((v >>> 32).setWidth 32).setWidth 64 <<< 32 = v := by
  apply BitVec.eq_of_getLsbD_eq
  intro k hk
  by_cases hlow : k < 32
  · simp [hlow, hk]
  · simp [hlow, hk, show k - 32 < 32 by omega, show k - 32 < 64 by omega,
      show 32 + (k - 32) = k by omega]

/-- The registers of a core whose cells hold the registers of another. -/
lemma registerValue_of_cells {a t : CpuState}
    (h : ∀ i < 40, cell t i = cellOf i (registerValue a i)) {j : Nat} (hj : j < 40) :
    registerValue t j = registerValue a j := by
  have hhead : ∀ i < 40, (cell t i).head? = (cellOf i (registerValue a i)).head? := fun i hi => by
    rw [h i hi]
  have hword : ∀ w : BitVec 32, (w.setWidth 64).setWidth 32 = w := fun w => by simp
  by_cases hwide : wideRegisterIndex j = true
  · have hcell := h j hj
    unfold cell cellOf at hcell
    rw [if_pos hwide, if_pos hwide] at hcell
    obtain ⟨hlow, hhigh⟩ := cons.inj hcell
    rw [show registerValue t j = wide t (j - 23) from if_pos hwide, wide, hlow, (cons.inj hhigh).1,
      wide_of_halves]
  have hstatus : t.xpsr = a.xpsr := (Option.some.inj (hhead 16 (by decide))).trans (hword _)
  have hmsp : t.msp = a.msp := (Option.some.inj (hhead 17 (by decide))).trans (hword _)
  have hpsp : t.psp = a.psp := (Option.some.inj (hhead 18 (by decide))).trans (hword _)
  have hcontrol : t.control = a.control := (Option.some.inj (hhead 19 (by decide))).trans (hword _)
  have hsp : t.activeSp = a.activeSp := by
    unfold CpuState.activeSp CpuState.usesMsp CpuState.inHandlerMode CpuState.ipsr
    rw [hstatus, hmsp, hpsp, hcontrol]
  have hpc : t.core 15 &&& ~~~1 = a.core 15 &&& ~~~1 := by
    have hcell : t.core 15 = ((a.core 15 &&& ~~~1).setWidth 64).setWidth 32 &&& ~~~1 :=
      Option.some.inj (hhead 15 (by decide))
    rw [hcell, hword, BitVec.and_assoc, BitVec.and_assoc, BitVec.and_self, BitVec.and_self]
  have hcell := hhead j hj
  interval_cases j
  all_goals
    first
    | exact absurd rfl hwide
    | exact congrArg (BitVec.setWidth 64) hsp
    | exact congrArg (BitVec.setWidth 64) hpc
    | exact congrArg (BitVec.setWidth 64) ((Option.some.inj hcell).trans (hword _))

/-- **The registers of a core can be carried over.** Whatever two cores were doing, the text
of the one, written to the other, is taken, and every register then reads the same. -/
theorem registers_are_carried_over (a b : CpuState) :
    ∃ after, writeAllRegisters b (readAllRegisters a) = (true, after) ∧
      readAllRegisters after = readAllRegisters a ∧
      ∀ index, readSingleRegister after index = readSingleRegister a index := by
  have hcells : ∀ i < 40, cell (((range 40).map fun i => (i, registerValue a i)).foldl store b) i =
      cellOf i (registerValue a i) := fun i hi =>
    cell_stored_of_mem b (by simp) (pairwise_map.mpr pairwise_lt_range)
      (mem_map_of_mem (List.mem_range.mpr hi))
  refine ⟨_, writeRegisters_text b a fun index h => List.mem_range.mp h, ?_, fun index => ?_⟩
  · refine List.flatMap_congr fun index h => ?_
    rw [registerValue_of_cells hcells (List.mem_range.mp h)]
  · unfold readSingleRegister
    split
    · rw [registerValue_of_cells hcells ‹_›]
    · rfl

/-! ## Refused texts -/

/-- The registers at the start of a text, up to one that cannot be read. -/
def parsedRegisters : List Nat → List (BitVec 8) → List (Nat × BitVec 64)
  | [], _ => []
  | index :: rest, text =>
    let nibbles := registerNibbles index
    if text.length < nibbles then []
    else
      match parseLittleEndianHex (text.take nibbles) with
      | none => []
      | some value => (index, value) :: parsedRegisters rest (text.drop nibbles)

/-- Taken or not, a text leaves the registers that could be read written. -/
lemma writeRegisters_parsed {l : List Nat} (hl : ∀ index ∈ l, index < 40)
    (text : List (BitVec 8)) :
    (writeRegisters l s text).2 = (parsedRegisters l text).foldl store s := by
  induction l generalizing s text with
  | nil => rfl
  | cons index l ih =>
    unfold writeRegisters parsedRegisters
    dsimp only
    split
    · rfl
    cases hvalue : parseLittleEndianHex (text.take (registerNibbles index)) with
    | none => rfl
    | some value =>
      obtain ⟨t, ht⟩ := writeSingleRegister_some s (hl index mem_cons_self) value
      simp only [Option.bind_some, ht, foldl_cons, store, Option.getD_some]
      exact ih t (fun i hi => hl i (mem_cons_of_mem _ hi)) _

lemma parsedRegisters_front (l : List Nat) (text : List (BitVec 8)) :
    (parsedRegisters l text).map Prod.fst <+: l := by
  induction l generalizing text with
  | nil => exact nil_prefix
  | cons index l ih =>
    unfold parsedRegisters
    dsimp only
    split
    · exact nil_prefix
    split
    · exact nil_prefix
    · exact (prefix_cons_inj index).mpr (ih _)

/-- What no register shows. -/
def unseen (s : CpuState) :
    Bool × Option (BitVec 16) × Option (BitVec 32) × Bool × BitVec 32 × BitVec 32 :=
  (s.halted, s.pendingException, s.pendingExcReturn, s.fpLazyActive, s.fpLazyBase,
    s.instructionAddress)

lemma unseen_setCore (i : Nat) (v : BitVec 32) : unseen (s.setCore i v) = unseen s := by
  unfold CpuState.setCore
  split <;> rfl

lemma unseen_setSingle (i : Nat) (v : BitVec 32) : unseen (s.setSingle i v) = unseen s := by
  unfold CpuState.setSingle
  split <;> rfl

lemma unseen_store (register : Nat × BitVec 64) : unseen (store s register) = unseen s := by
  unfold store writeSingleRegister
  dsimp only
  split
  · exact unseen_setCore s _ _
  split
  case h_1 =>
    show unseen ((s.setActiveSp _).setCore 13 _) = _
    unfold CpuState.setActiveSp
    split <;> rfl
  case h_12 =>
    split
    · exact (unseen_setSingle _ _ _).trans (unseen_setSingle s _ _)
    · rfl
  all_goals rfl

/-- A state is its cells, the mirror of the stack pointer and what no register shows. -/
lemma eq_of_cells {t : CpuState} (hcells : ∀ i < 40, cell t i = cell s i)
    (hmirror : t.core 13 = s.core 13) (hunseen : unseen t = unseen s) : t = s := by
  have hcore : ∀ i < 16, t.core i = s.core i := by
    intro i hi
    by_cases hsp : i = 13
    · exact hsp ▸ hmirror
    have hcell := hcells i (by omega)
    interval_cases i <;> first | exact absurd rfl hsp | exact (cons.inj hcell).1
  have hsingle : ∀ i < 32, t.single i = s.single i := by
    intro i hi
    have hcell := hcells (23 + i / 2) (by omega)
    simp [cell, wideRegisterIndex, show 23 + i / 2 < 39 by omega] at hcell
    rcases Nat.mod_two_eq_zero_or_one i with heven | hodd
    · rw [show i = i / 2 * 2 by omega]
      exact hcell.1
    · rw [show i = i / 2 * 2 + 1 by omega]
      exact hcell.2
  have hr : t.r = s.r := funext fun i => by simpa [CpuState.core] using hcore i i.isLt
  have hs : t.s = s.s := funext fun i => by simpa [CpuState.single] using hsingle i i.isLt
  have hword : ∀ i < 40, (cell t i).head? = (cell s i).head? := fun i hi => by rw [hcells i hi]
  have hstatus := hcells 16 (by decide)
  simp [cell, wideRegisterIndex] at hstatus
  simp [unseen] at hunseen
  have hthumb : t.thumb = s.thumb := by
    cases ht : t.thumb <;> cases hs : s.thumb <;> simp_all
  have hit : t.itState = s.itState := by
    bv_omega
  obtain ⟨h₁, h₂, h₃, h₄, h₅, h₆⟩ := hunseen
  exact CpuState.ext hr hstatus.1 (Option.some.inj (hword 17 (by decide)))
    (Option.some.inj (hword 18 (by decide))) (Option.some.inj (hword 20 (by decide)))
    (Option.some.inj (hword 21 (by decide))) (Option.some.inj (hword 22 (by decide)))
    (Option.some.inj (hword 19 (by decide))) hthumb h₁ h₂ h₃ hs
    (Option.some.inj (hword 39 (by decide))) hit h₄ h₅ h₆

/-- The register that the stack pointer is. -/
def spIndex : Nat := if s.usesMsp then 17 else 18

lemma cell_spIndex : cell s (spIndex s) = [s.activeSp] := by
  unfold spIndex CpuState.activeSp
  split <;> rfl

lemma cell_store_sp (value : BitVec 64) (i : Nat) : cell (store s (13, value)) i =
    if i = spIndex s then [value.setWidth 32] else cell s i := by
  refine (cell_setCore (s.setActiveSp (value.setWidth 32)) (.inr rfl) _).trans ?_
  unfold CpuState.setActiveSp spIndex
  split
  · split
    · rename_i hi
      rw [hi]
      rfl
    · exact cell_msp s ‹_› _
  · split
    · rename_i hi
      rw [hi]
      rfl
    · exact cell_psp s ‹_› _

lemma spIndex_of_cells {t : CpuState} (hstatus : cell t 16 = cell s 16)
    (hcontrol : cell t 19 = cell s 19) : spIndex t = spIndex s := by
  unfold spIndex CpuState.usesMsp CpuState.inHandlerMode CpuState.ipsr
  rw [(cons.inj hstatus).1, (cons.inj hcontrol).1]

lemma store_sp_mirrored (value : BitVec 64) : (store s (13, value)).Mirrored := by
  show ((s.setActiveSp (value.setWidth 32)).setCore 13 (value.setWidth 32)).Mirrored
  refine CpuState.mirrored_setCore ?_
  unfold CpuState.setActiveSp CpuState.activeSp
  split
  · rename_i h
    exact (if_pos h).symm
  · rename_i h
    exact (if_neg h).symm

section

variable {registers : List (Nat × BitVec 64)} (hlt : ∀ r ∈ registers, r.1 < 40)
include hlt

lemma stored_mirrored (h : s.Mirrored) : (registers.foldl store s).Mirrored := by
  refine foldlRecOn (motive := CpuState.Mirrored) _ _ h fun t ht r hr => ?_
  obtain ⟨u, hu⟩ := writeSingleRegister_some t (hlt r hr) r.2
  unfold store
  rw [hu]
  exact writeSingleRegister_mirrors hu ht

/-- The registers that the values do not name, once the stack pointer is written. -/
lemma cell_stored_sp (hsorted : registers.Pairwise (·.1 < ·.1)) {value : BitVec 64}
    (hmem : (13, value) ∈ registers) :
    (registers.foldl store s).Mirrored ∧ ∀ i, (∀ v, (i, v) ∉ registers) →
      cell (registers.foldl store s) i =
        if i = spIndex s then [value.setWidth 32] else cell s i := by
  obtain ⟨low, high, rfl⟩ := append_of_mem hmem
  obtain ⟨-, hhigh, hcross⟩ := pairwise_append.mp hsorted
  have hhigh := (pairwise_cons.mp hhigh).1
  have hlow : ∀ r ∈ low, r.1 < 13 := fun r hr => hcross r hr _ mem_cons_self
  have hbefore : ∀ i, (∀ r ∈ low, i ≠ r.1) → cell (low.foldl store s) i = cell s i := by
    intro i hi
    refine cell_stored s (fun r hr => hlt r (by simp [hr])) fun r hr => ⟨hi r hr, ?_⟩
    have := hlow r hr
    omega
  have hindex : spIndex (low.foldl store s) = spIndex s := by
    refine spIndex_of_cells s (hbefore 16 fun r hr => ?_) (hbefore 19 fun r hr => ?_)
    · have := hlow r hr
      omega
    · have := hlow r hr
      omega
  rw [foldl_append, foldl_cons]
  refine ⟨stored_mirrored _ (fun r hr => hlt r (by simp [hr])) (store_sp_mirrored _ value), ?_⟩
  intro i hi
  rw [cell_stored _ (fun r hr => hlt r (by simp [hr])) fun r hr => ⟨?_, ?_⟩, cell_store_sp, hindex,
    hbefore i]
  · rintro r hr rfl
    exact hi r.2 (by simp [hr])
  · rintro rfl
    exact hi r.2 (by simp [hr])
  · have := hhigh r hr
    omega

end

lemma unseen_stored (registers : List (Nat × BitVec 64)) :
    unseen (registers.foldl store s) = unseen s :=
  foldlRecOn (motive := fun t => unseen t = unseen s) _ _ rfl fun t ht r _ =>
    (unseen_store t r).trans ht

/-- Registers below the stack pointer leave its mirror alone. -/
lemma stored_mirror {registers : List (Nat × BitVec 64)} (hlow : ∀ r ∈ registers, r.1 < 13) :
    (registers.foldl store s).core 13 = s.core 13 := by
  refine foldlRecOn (motive := fun t : CpuState => t.core 13 = s.core 13) _ _ rfl fun t ht r hr => ?_
  have hr := hlow r hr
  unfold store writeSingleRegister
  dsimp only
  rw [if_pos hr]
  exact (CpuState.core_setCore_of_ne _ _ _ (by omega)).trans ht

/-- What a text leaves, whether it is taken or refused: it leaves no trace exactly if the
registers at its start, as far as they can be read, are made as they are, and if one of
them is the stack pointer, the mirror is right and the stack pointer has its value, or gets
it back later in the text. -/
theorem a_text_leaves_no_trace_exactly_if_it_repeats (s : CpuState) (text : List (BitVec 8)) :
    let parsed := parsedRegisters (List.range 40) text
    (writeAllRegisters s text).2 = s ↔
      (∀ register ∈ parsed, cellOf register.1 register.2 = cell s register.1) ∧
        ∀ value, (13, value) ∈ parsed → s.Mirrored ∧
          ((∀ v, (spIndex s, v) ∉ parsed) → value.setWidth 32 = s.activeSp) := by
  intro parsed
  have hfront : parsed.map Prod.fst <+: List.range 40 := parsedRegisters_front _ text
  have hlt : ∀ r ∈ parsed, r.1 < 40 := fun r hr =>
    List.mem_range.mp (hfront.subset (mem_map_of_mem hr))
  have hsorted : parsed.Pairwise (·.1 < ·.1) :=
    pairwise_map.mp (pairwise_lt_range.sublist hfront.sublist)
  rw [writeAllRegisters, writeRegisters_parsed s (fun index h => List.mem_range.mp h)]
  change parsed.foldl store s = s ↔ _
  have hmade : ∀ r ∈ parsed, cell (parsed.foldl store s) r.1 = cellOf r.1 r.2 := fun r hr =>
    cell_stored_of_mem s hlt hsorted hr
  constructor
  · intro hkept
    refine ⟨fun r hr => by rw [← hmade r hr, hkept], fun value hmem => ?_⟩
    obtain ⟨hmirrored, hothers⟩ := cell_stored_sp s hlt hsorted hmem
    rw [hkept] at hmirrored hothers
    refine ⟨hmirrored, fun hnone => ?_⟩
    have hcell := hothers _ hnone
    rw [if_pos rfl, cell_spIndex] at hcell
    exact (cons.inj hcell).1.symm
  · rintro ⟨hrepeats, hpointer⟩
    have hcells : (∀ i, (∀ v, (i, v) ∉ parsed) → cell (parsed.foldl store s) i = cell s i) →
        ∀ i, cell (parsed.foldl store s) i = cell s i := by
      intro hothers i
      by_cases hi : ∃ v, (i, v) ∈ parsed
      · obtain ⟨v, hv⟩ := hi
        exact (hmade _ hv).trans (hrepeats _ hv)
      · exact hothers i (not_exists.mp hi)
    by_cases hsp : ∃ value, (13, value) ∈ parsed
    · obtain ⟨value, hmem⟩ := hsp
      obtain ⟨hmirrored, hothers⟩ := cell_stored_sp s hlt hsorted hmem
      obtain ⟨hbefore, hvalue⟩ := hpointer value hmem
      have hall := hcells fun i hi => by
        rw [hothers i hi]
        split
        · rename_i hsp
          subst hsp
          rw [hvalue hi, cell_spIndex]
        · rfl
      refine eq_of_cells s (fun i _ => hall i) ?_ (unseen_stored s parsed)
      have hindex := spIndex_of_cells s (hall 16) (hall 19)
      have hactive := cell_spIndex (parsed.foldl store s)
      rw [hindex, hall, cell_spIndex] at hactive
      exact hmirrored.trans ((cons.inj hactive).1.symm.trans hbefore.symm)
    · -- the text ends before the stack pointer
      have hlow : ∀ r ∈ parsed, r.1 < 13 := by
        intro r hr
        have hrange := prefix_iff_eq_take.mp hfront
        rw [take_range] at hrange
        have hmem := mem_map_of_mem (f := Prod.fst) hr
        by_contra hge
        refine hsp ?_
        have hsp : 13 ∈ parsed.map Prod.fst := by
          rw [hrange, List.mem_range] at hmem ⊢
          omega
        simpa using hsp
      refine eq_of_cells s (fun i _ => hcells (fun j hj => ?_) i) (stored_mirror s hlow)
        (unseen_stored s parsed)
      refine cell_stored s hlt fun r hr => ⟨?_, ?_⟩
      · rintro rfl
        exact hj r.2 hr
      · have := hlow r hr
        omega

/-- A refused text that gives the registers after reset with another stack pointer, and has
the main stack pointer behind it. -/
theorem a_stack_pointer_put_right_leaves_no_trace :
    let s : CpuState := .reset 0x20001000 0x08000001
    let text := ((List.range 18).flatMap fun index =>
      hexValue (if index = 13 then 1 else registerValue s index) 4) ++ [0x7a, 0x7a]
    (writeAllRegisters s text).1 = false ∧ (writeAllRegisters s text).2 = s := by
  intro s text
  refine ⟨by decide +kernel, (a_text_leaves_no_trace_exactly_if_it_repeats s text).mpr
    ⟨by decide +kernel, fun value _ => ⟨?_, fun hnone => ?_⟩⟩⟩
  · show s.core 13 = s.activeSp
    decide +kernel
  have hmem : (spIndex s, 0x20001000) ∈ parsedRegisters (List.range 40) text := by decide +kernel
  exact absurd hmem (hnone 0x20001000)

/-- A register and two characters that are none: the register is written. -/
theorem a_refused_text_leaves_its_first_register :
    let text := hexValue 1 4 ++ [0x7a, 0x7a]
    (writeAllRegisters (.reset 0x20001000 0x08000001) text).1 = false ∧
      (writeAllRegisters (.reset 0x20001000 0x08000001) text).2.core 0 = 1 ∧
      (CpuState.reset 0x20001000 0x08000001).core 0 = 0 := by
  decide +kernel

end Fil.Debug
