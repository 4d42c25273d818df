-- A port of pins. Its levels follow the drives from outside and the outputs of the
-- core. A callback hears of the edges, but not of those that a change of mode or
-- a reset makes.
import Fil.Peripheral

open List

namespace Fil.Stm32g4

/-- A call of one of the two callbacks of a port. -/
inductive PinCall where
  | output (pin : Nat) (high : Bool)
  | edge (pin : Nat) (high : Bool)
  deriving DecidableEq

def PinCall.toEdge : PinCall → Option (Nat × Bool)
  | edge pin high => some (pin, high)
  | output _ _ => none

/-- The port. The masks of the pins that are driven from outside are functions of the pin. -/
structure Gpio where
  registers : Nat → BitVec 32
  externalInputMask : Nat → Bool
  externalInputValue : Nat → Bool
  resetModer : BitVec 32
  calls : List PinCall

namespace Gpio

def moder : Nat := 0x00
def idr : Nat := 0x10
def odr : Nat := 0x14
def bsrr : Nat := 0x18
def brr : Nat := 0x28

variable (g : Gpio)

def setRegister (word : Nat) (value : BitVec 32) : Gpio :=
  { g with registers := Function.update g.registers word value }

/-- The bits that IDR reads: what drives a pin from outside, or the output in a mode
that drives it. -/
def inputValue (pin : Nat) : Bool :=
  if g.externalInputMask pin then g.externalInputValue pin
  else
    let mode := (g.registers moder >>> (pin * 2)) &&& 0x3
    (mode == 1 || mode == 2) && (g.registers odr).getLsbD pin

/-- The edge of one pin, if its level is a new one. -/
def reportEdge (pin : Nat) (oldLevel : Bool) : Gpio :=
  if g.inputValue pin ≠ oldLevel then
    { g with calls := g.calls ++ [.edge pin (g.inputValue pin)] }
  else g

def setInput (pin : Nat) (high : Bool) : Gpio :=
  if 16 ≤ pin then g
  else { g with
    externalInputMask := Function.update g.externalInputMask pin true
    externalInputValue := Function.update g.externalInputValue pin high }.reportEdge pin
      (g.inputValue pin)

def releaseInput (pin : Nat) : Gpio :=
  if pin < 16 then
    { g with externalInputMask := Function.update g.externalInputMask pin false }.reportEdge pin
      (g.inputValue pin)
  else g

def applyOutput (newOutput : BitVec 32) : Gpio :=
  let previousOdr := g.registers odr &&& 0xffff
  let nextOdr := newOutput &&& 0xffff
  let next := g.setRegister odr nextOdr
  { next with calls := g.calls ++ (List.range 16).flatMap fun pin =>
      (if previousOdr.getLsbD pin ≠ nextOdr.getLsbD pin then
        [.output pin (nextOdr.getLsbD pin)] else []) ++
      if g.inputValue pin ≠ next.inputValue pin then [.edge pin (next.inputValue pin)] else [] }

def storeRegister (word : Nat) (previous value mask : BitVec 32) : Gpio :=
  if word = odr then (g.setRegister odr (previous &&& 0xffff)).applyOutput value
  else if word = bsrr then
    let command := value &&& mask
    (g.setRegister bsrr 0).applyOutput
      ((g.registers odr &&& ~~~((command >>> 16) &&& 0xffff)) ||| (command &&& 0xffff))
  else if word = brr then
    (g.setRegister brr 0).applyOutput (g.registers odr &&& ~~~(value &&& mask &&& 0xffff))
  else if word = idr then g.setRegister idr previous
  else g

def reset : Gpio :=
  { g with registers := fun word => if word = moder then g.resetModer else 0 }

/-- What can happen to a port. -/
inductive Step where
  | setInput (pin : Nat) (high : Bool)
  | releaseInput (pin : Nat)
  | store (s : Store)
  | reset
  deriving DecidableEq

def step : Step → Gpio
  | .setInput pin high => g.setInput pin high
  | .releaseInput pin => g.releaseInput pin
  | .store s =>
    (g.setRegister s.word (s.merged (g.registers s.word))).storeRegister s.word
      (g.registers s.word) (s.merged (g.registers s.word)) s.mask
  | .reset => g.reset

/-! ## Levels and reports -/

/-- The pins whose level two ports differ in, with the level of the second. -/
def changes (g' : Gpio) : List (Nat × Bool) :=
  (List.range 16).filterMap fun pin =>
    if g.inputValue pin ≠ g'.inputValue pin then some (pin, g'.inputValue pin) else none

def edges : List (Nat × Bool) := g.calls.filterMap PinCall.toEdge

/-- Every change of a level is reported, once and with the new level, and nothing else is. -/
def Reports (g' : Gpio) : Prop := g'.edges = g.edges ++ g.changes g'

variable {g} {g' : Gpio}

lemma changes_eq_nil : g.changes g' = [] ↔ ∀ pin < 16, g.inputValue pin = g'.inputValue pin := by
  simp [changes]

/-- Where nothing is reported no level may change. -/
lemma reports_silent (hcalls : g'.calls = g.calls) :
    Reports g g' ↔ ∀ pin < 16, g.inputValue pin = g'.inputValue pin := by
  rw [← changes_eq_nil, Reports, edges, edges, hcalls, self_eq_append_right]

lemma filterMap_range_one {α : Type} {f : Nat → Option α} {pin n : Nat} (hpin : pin < n)
    (h : ∀ k, k ≠ pin → f k = none) : (range n).filterMap f = (f pin).toList := by
  induction n with
  | zero => omega
  | succ n ih =>
    rw [range_succ, filterMap_append]
    by_cases hn : pin = n
    · subst hn
      have hnone : (range pin).filterMap f = [] :=
        List.filterMap_eq_nil_iff.mpr fun k hk => h k (mem_range.mp hk).ne
      rw [hnone]
      cases hf : f pin <;> simp [hf]
    · simp [ih (by omega), h n (Ne.symm hn)]

lemma reports_reportEdge {pin : Nat} (hpin : pin < 16) (hcalls : g'.calls = g.calls)
    (hothers : ∀ k, k ≠ pin → g.inputValue k = g'.inputValue k) :
    Reports g (g'.reportEdge pin (g.inputValue pin)) := by
  have hchanges : g.changes g' = _ :=
    filterMap_range_one hpin fun k hk => if_neg (not_not.mpr (hothers k hk))
  have hedges : g'.edges = g.edges := congrArg (filterMap PinCall.toEdge) hcalls
  unfold reportEdge
  split_ifs with hedge
  · show (g'.calls ++ _).filterMap _ = g.edges ++ g.changes g'
    rw [hchanges, if_pos (Ne.symm hedge), filterMap_append, ← hedges]
    rfl
  · rw [not_not] at hedge
    rw [Reports, hchanges, if_neg (not_not.mpr hedge.symm), hedges]
    exact (append_nil _).symm

/-- An output reports the changes since a port with the same levels. -/
lemma reports_applyOutput (hcalls : g'.calls = g.calls)
    (hsame : ∀ pin < 16, g.inputValue pin = g'.inputValue pin) (newOutput : BitVec 32) :
    Reports g (g'.applyOutput newOutput) := by
  unfold Reports edges applyOutput
  rw [filterMap_append, hcalls, filterMap_flatMap]
  congr 1
  rw [changes, filterMap_eq_flatMap_toList]
  refine flatMap_congr fun pin hpin => ?_
  rw [hsame pin (mem_range.mp hpin), filterMap_append]
  split_ifs <;> first | rfl | contradiction

/-! ## One step -/

/-- A change of mode and a reset may not change a level, for they tell nobody. -/
def Quiet (g : Gpio) : Step → Prop
  | .store s => s.word = moder → ∀ pin < 16, g.inputValue pin =
      (g.setRegister moder (s.merged (g.registers moder))).inputValue pin
  | .reset => ∀ pin < 16, g.inputValue pin = g.reset.inputValue pin
  | _ => True

/-- A level depends on two registers. -/
lemma setRegister_inputValue {word : Nat} (hmoder : word ≠ moder) (hodr : word ≠ odr)
    (value : BitVec 32) (pin : Nat) :
    (g.setRegister word value).inputValue pin = g.inputValue pin := by
  unfold inputValue setRegister
  dsimp only
  rw [Function.update_of_ne hmoder.symm, Function.update_of_ne hodr.symm]

/-- The upper half of the output register drives no pin. -/
lemma setOdr_inputValue (value : BitVec 32) {pin : Nat} (hpin : pin < 16) :
    ((g.setRegister odr value).setRegister odr (g.registers odr &&& 0xffff)).inputValue pin =
      g.inputValue pin := by
  have hbit : ∀ pin < 16, (0xffff#32).getLsbD pin = true := by decide
  simp [inputValue, setRegister, moder, odr, hbit pin hpin]

lemma reports_store (s : Store) : Reports g (g.step (.store s)) ↔ g.Quiet (.store s) := by
  by_cases hmoder : s.word = moder
  · have hstep : g.step (.store s) = g.setRegister moder (s.merged (g.registers moder)) := by
      dsimp only [step]
      rw [hmoder]
      rfl
    rw [hstep, reports_silent (by rfl)]
    exact ⟨fun h _ => h, fun h => h hmoder⟩
  refine iff_of_true ?_ fun h => absurd h hmoder
  change Reports g (storeRegister _ _ _ _ _)
  unfold storeRegister
  split_ifs with hodr hbsrr hbrr hidr
  · rw [hodr]
    exact reports_applyOutput (by rfl) (fun pin hpin => (setOdr_inputValue _ hpin).symm) _
  iterate 2
    refine reports_applyOutput (by rfl) (fun pin _ => ?_) _
    rw [setRegister_inputValue (by decide) (by decide), setRegister_inputValue hmoder hodr]
  · refine (reports_silent (by rfl)).mpr fun pin _ => ?_
    rw [setRegister_inputValue (by decide) (by decide), setRegister_inputValue hmoder hodr]
  · exact (reports_silent (by rfl)).mpr fun pin _ => (setRegister_inputValue hmoder hodr _ pin).symm

lemma reports_step (g : Gpio) (step : Step) : Reports g (g.step step) ↔ g.Quiet step := by
  have hsame : Reports g g := (reports_silent (by rfl)).mpr fun _ _ => rfl
  cases step with
  | setInput pin high =>
    refine iff_of_true ?_ trivial
    change Reports g (g.setInput pin high)
    unfold setInput
    split_ifs with hpin
    · exact hsame
    · exact reports_reportEdge (by omega) (by rfl) fun k hk => by simp [inputValue, hk]
  | releaseInput pin =>
    refine iff_of_true ?_ trivial
    change Reports g (g.releaseInput pin)
    unfold releaseInput
    split_ifs with hpin
    · exact reports_reportEdge hpin (by rfl) fun k hk => by simp [inputValue, hk]
    · exact hsame
  | store s => exact reports_store s
  | reset => exact reports_silent (by rfl)

/-- What is done to a port from outside: drives and releases, writes of any width, resets. -/
inductive Act where
  | setInput (pin : Nat) (high : Bool)
  | releaseInput (pin : Nat)
  | write (offset : Nat) (size : Mem.AccessSize) (value : BitVec 64)
  | reset

def Act.steps : Act → List Step
  | setInput pin high => [.setInput pin high]
  | releaseInput pin => [.releaseInput pin]
  | write offset size value => (stores 0x2c offset size value).map .store
  | reset => [.reset]

/-- The edges of a port are reported exactly, in every run in which changes of mode and
resets change no level. -/
theorem edges_are_reported_exactly (g : Gpio) (acts : List Act) :
    (∀ before step rest, acts.flatMap Act.steps = before ++ step :: rest →
      Reports (before.foldl Gpio.step g) ((before.foldl Gpio.step g).step step)) ↔
    ∀ before step rest, acts.flatMap Act.steps = before ++ step :: rest →
      (before.foldl Gpio.step g).Quiet step := by
  simp only [reports_step]

/-- A pin with its output high is made an output: its level rises, and nothing is reported. -/
theorem a_change_of_mode_is_not_reported :
    let g : Gpio := ⟨fun word => if word = odr then 1 else 0, fun _ => false, fun _ => false, 0, []⟩
    ¬∀ before step rest, [Act.write 0x00 .word 1].flatMap Act.steps = before ++ step :: rest →
      Reports (before.foldl Gpio.step g) ((before.foldl Gpio.step g).step step) := by
  intro g h
  have hreport := h [] (.store ⟨0, 1, 0xffffffff⟩) [] (by decide)
  unfold Reports at hreport
  revert hreport
  decide

end Gpio

end Fil.Stm32g4
