-- Who knows which exceptions are active: the stack of the exception unit, the number
-- and the bits that the system control keeps, and the number in the status of the
-- core. Entries keep them together. A return takes the number of the core from a frame
-- in memory, and clears the bit of an exception even if it is active once more below.
import Fil.HandlerMode
import Fil.Preemption

open Dialogue Fil.Mem Fil.Mem.MemoryBus

namespace Fil.Cortexm

open Fil.Cpu (Handling CpuState exceptionReturn popFp unstackCore takeReturn takeEntry
  settleReturn settleException settlePending settleReset settleInstructionBoundary
  settleInstructionBoundarySlow xpsrT xpsrIpsrMask SameMode)
open Fil.Cpu.SameMode (refl trans)
open Prod (ext fst snd)

/-! ## The bits of the system control -/

namespace SystemControl

/-- An interrupt that is marked active. Other exceptions have no such bit. -/
def markedActive (c : SystemControl) (number : BitVec 16) : Bool :=
  match externalIrq number with
  | none => false
  | some irq => bitOf c.nvicActive irq

/-- A bank with the bit of an exception set or clear, if it has one. -/
def withMark (bank : Fin 8 → BitVec 32) (number : BitVec 16) (set : Bool) : Fin 8 → BitVec 32 :=
  match externalIrq number with
  | none => bank
  | some irq => withBit bank irq set

variable (c : SystemControl) (number : BitVec 16)

lemma clearPending_nvicActive : (c.clearPending number).nvicActive = c.nvicActive := by
  unfold clearPending
  split_ifs
  · rfl
  · rfl
  · split <;> rfl

lemma enter_nvicActive : (c.enter number).nvicActive = withMark c.nvicActive number true := by
  unfold enter withMark
  rw [clearPending_nvicActive]
  cases externalIrq number <;> rfl

lemma leave_nvicActive : (c.leave number).nvicActive = withMark c.nvicActive number false := by
  have hsame : ∀ c' : SystemControl,
      (if c'.activeException = number then { c' with activeException := 0 } else c').nvicActive =
        c'.nvicActive := by
    intro c'
    split <;> rfl
  unfold leave withMark
  show (if _ then _ else _ : SystemControl).nvicActive = _
  rw [hsame]
  cases externalIrq number <;> rfl

/-- Marks of a bank after a change of one. -/
lemma markedActive_of_withMark {c c' : SystemControl} {number other : BitVec 16} {set : Bool}
    (h : c'.nvicActive = withMark c.nvicActive number set) (hother : (externalIrq other).isSome) :
    c'.markedActive other = if other = number then set else c.markedActive other := by
  obtain ⟨irq, hirq⟩ := Option.isSome_iff_exists.mp hother
  have hlt := (externalIrq_eq_some hirq).1
  unfold markedActive
  rw [hirq, h]
  dsimp only
  unfold withMark
  cases hnumber : externalIrq number with
  | none =>
    have hne : other ≠ number := by
      rintro rfl
      rw [hirq] at hnumber
      cases hnumber
    rw [if_neg hne]
  | some entered =>
    have hlt' := (externalIrq_eq_some hnumber).1
    rw [bitOf_withBit set (by omega) (by omega)]
    by_cases hsame : irq = entered
    · have heq : other = number := externalIrq_inj hirq (hsame ▸ hnumber)
      rw [if_pos hsame, if_pos heq]
    have hne : other ≠ number := by
      rintro rfl
      rw [hirq] at hnumber
      exact hsame (Option.some.inj hnumber)
    rw [if_neg hsame, if_neg hne]

end SystemControl

open SystemControl (Masks externalIrq)

variable {δ : Type}

/-! ## The bus -/

namespace SystemView

variable (v : SystemView δ)

/-- No access to a device changes which exceptions are active. -/
structure Untouched (devices : MmioDevices δ) : Prop where
  read : ∀ device offset size context d,
    (v.get (devices.read device offset size context d).2).activity = (v.get d).activity
  write : ∀ device offset size value context d,
    (v.get (devices.write device offset size value context d).2).activity = (v.get d).activity

variable {v}

lemma Untouched.does {b b' : MemoryBus δ} (hdevices : v.Untouched b.devices) (h : Does b b') :
    b'.devices = b.devices ∧ (v.get b'.deviceState).activity = (v.get b.deviceState).activity :=
  h.kept (f := fun d => (v.get d).activity) ⟨hdevices.read, hdevices.write⟩

end SystemView

/-! ## The core -/

section Core

lemma and_ipsrMask {number : BitVec 16} (h : number.toNat < 256) :
    number.setWidth 32 &&& xpsrIpsrMask = number.setWidth 32 := by
  apply BitVec.eq_of_toNat_eq
  rw [BitVec.toNat_and, show BitVec.toNat xpsrIpsrMask = 2 ^ 9 - 1 from rfl,
    Nat.and_two_pow_sub_one_eq_mod, BitVec.toNat_setWidth]
  omega

lemma takeEntry_ipsr {number : BitVec 16} (s : CpuState) (newSp handler : BitVec 32)
    (h : number.toNat < 256) : (takeEntry s number newSp handler).ipsr = number.setWidth 32 := by
  have hfield : ∀ x : BitVec 32,
      (x &&& ~~~xpsrIpsrMask ||| number.setWidth 32 ||| xpsrT) &&& xpsrIpsrMask =
        number.setWidth 32 := by
    intro x
    have hnone : ~~~xpsrIpsrMask &&& xpsrIpsrMask = 0#32 := by decide
    rw [Cpu.ipsr_or (by decide), Cpu.or_and, and_ipsrMask h, BitVec.and_assoc, hnone,
      BitVec.and_zero, BitVec.zero_or]
  unfold takeEntry
  exact Eq.trans (Cpu.setItState_sameMode _ 0) (hfield _)

lemma takeReturn_ipsr (s : CpuState) (token : BitVec 32) (frame : List (BitVec 32)) :
    (takeReturn s token frame).ipsr = frame.getD 7 0 &&& xpsrIpsrMask := by
  have hframe : (frame.getD 7 0 &&& ~~~Cpu.xpsrPadding) &&& xpsrIpsrMask =
      frame.getD 7 0 &&& xpsrIpsrMask := Cpu.ipsr_and_not (by decide)
  rw [← hframe]
  unfold takeReturn
  refine Eq.trans (Cpu.setItState_sameMode _ _) ?_
  unfold CpuState.ipsr
  split <;> split <;> rfl

end Core

/-! ## Entries and returns -/

variable (sys : Cpu.SystemControl δ)

/-- What an entry does to the number of the core: a failure leaves it, a success sets
it. -/
def EntersMode (number : BitVec 16) (s : CpuState)
    (result : Except Cpu.ExceptionError Unit × Handling δ) : Prop :=
  ((∃ e, result.1 = .error e) ∧ SameMode s result.2.cpu) ∨
    (result.1 = .ok () ∧ number ≠ 0 ∧ number.toNat < 256 ∧
      result.2.cpu.ipsr = number.setWidth 32)

/-- The core after an entry. A failure at most ends or makes a reservation. -/
def EntersCpu (number : BitVec 16) (s : CpuState)
    (result : Except Cpu.ExceptionError Unit × Handling δ) : Prop :=
  ((∃ e, result.1 = .error e) ∧ ∃ fpLazyActive fpLazyBase,
      result.2.cpu = { s with fpLazyActive, fpLazyBase }) ∨
    (result.1 = .ok () ∧ number ≠ 0 ∧ number.toNat < 256 ∧ ∃ t newSp handler,
      result.2.cpu = takeEntry t number newSp handler)

lemma pushFrame_cpu {number : BitVec 16} (hzero : number ≠ 0) (hlt : number.toNat < 256)
    (handler newSp : BitVec 32) (padding : Bool) (h : Handling δ) :
    EntersCpu number h.cpu (Cpu.pushFrame sys number handler newSp padding h) := by
  unfold Cpu.pushFrame
  split
  · exact .inl ⟨⟨_, rfl⟩, _, _, rfl⟩
  dsimp only
  split
  · refine .inl ⟨⟨_, rfl⟩, ?_⟩
    unfold Cpu.reserveFp
    split
    · exact ⟨_, _, rfl⟩
    · exact ⟨_, _, rfl⟩
  · exact .inr ⟨rfl, hzero, hlt, _, _, _, rfl⟩

lemma enter_cpu (number : BitVec 16) (h : Handling δ) :
    EntersCpu number h.cpu (Cpu.enter sys number h) := by
  have hkept : ∃ fpLazyActive fpLazyBase, h.cpu = { h.cpu with fpLazyActive, fpLazyBase } :=
    ⟨_, _, rfl⟩
  unfold Cpu.enter
  dsimp only
  split
  · exact .inl ⟨⟨_, rfl⟩, hkept⟩
  rename_i hnumber
  simp at hnumber
  split
  · exact .inl ⟨⟨_, rfl⟩, hkept⟩
  split
  · exact .inl ⟨⟨_, rfl⟩, hkept⟩
  split
  · exact .inl ⟨⟨_, rfl⟩, hkept⟩
  split
  · exact .inl ⟨⟨_, rfl⟩, hkept⟩
  · split
    · exact .inl ⟨⟨_, rfl⟩, hkept⟩
    · exact pushFrame_cpu sys hnumber.1 hnumber.2 _ _ _ { h with bus := _ }

lemma enter_mode (number : BitVec 16) (h : Handling δ) :
    EntersMode number h.cpu (Cpu.enter sys number h) := by
  rcases enter_cpu sys number h with ⟨hfailed, _, _, hcpu⟩ | ⟨hok, hzero, hlt, _, _, _, hcpu⟩
  · refine .inl ⟨hfailed, ?_⟩
    rw [hcpu]
    rfl
  · refine .inr ⟨hok, hzero, hlt, ?_⟩
    rw [hcpu]
    exact takeEntry_ipsr _ _ _ hlt

def poppedFrame (token : BitVec 32) (h : Handling δ) : Option (List (BitVec 32)) :=
  let sp := Cpu.returnSp h.cpu token
  let extended := Cpu.returnsExtended token
  match popFp h.cpu extended sp h.bus with
  | ((.error _, _), _) => none
  | ((.ok _, s), b) =>
    (unstackCore (Cpu.readContext { s with fpLazyActive := false })
      (sp + BitVec.ofNat 32 (Cpu.coreFrameOffset extended)) b).1.toOption

structure Pops (token : BitVec 32) (h : Handling δ) (frame : List (BitVec 32)) : Prop where
  accepted : Cpu.isExceptionReturn token = true
  active : h.activeStack ≠ []
  handler : h.cpu.inHandlerMode = true
  writable : Cpu.containsWritableRange h.bus (Cpu.returnSp h.cpu token)
    (Cpu.coreFrameOffset (Cpu.returnsExtended token) + 32) = true
  stacked : poppedFrame token h = some frame
  thumb : frame.getD 7 0 &&& xpsrT ≠ 0

/-- What a return does to the number of the core: it fails and leaves it, or takes it
from the frame. -/
lemma exceptionReturn_mode (token : BitVec 32) (h : Handling δ) :
    ((∃ e, (exceptionReturn sys token h).1 = .error e) ∧
      SameMode h.cpu (exceptionReturn sys token h).2.cpu ∧ ∀ frame, ¬Pops token h frame) ∨
    ∃ frame, Pops token h frame ∧ (exceptionReturn sys token h).1 = .ok () ∧
      (exceptionReturn sys token h).2.cpu.ipsr = frame.getD 7 0 &&& xpsrIpsrMask := by
  unfold exceptionReturn
  dsimp only
  split
  · rename_i haccepted
    refine .inl ⟨⟨_, rfl⟩, refl _, fun frame hpops => ?_⟩
    rw [hpops.accepted] at haccepted
    cases haccepted
  rename_i haccepted
  split
  · rename_i hactive
    refine .inl ⟨⟨_, rfl⟩, refl _, fun frame hpops => ?_⟩
    rw [hpops.handler, List.isEmpty_eq_false_iff.mpr hpops.active] at hactive
    cases hactive
  rename_i hactive
  split
  · rename_i hwritable
    refine .inl ⟨⟨_, rfl⟩, refl _, fun frame hpops => ?_⟩
    rw [hpops.writable] at hwritable
    cases hwritable
  rename_i hwritable
  split
  · rename_i hpopped
    refine .inl ⟨⟨_, rfl⟩, Cpu.modeStepFrame.popFp hpopped, fun frame hpops => ?_⟩
    have hstacked := hpops.stacked
    unfold poppedFrame at hstacked
    dsimp only at hstacked
    rw [hpopped] at hstacked
    cases hstacked
  · rename_i s b hpopped
    have hsame : SameMode h.cpu { s with fpLazyActive := false } :=
      trans (Cpu.modeStepFrame.popFp hpopped) rfl
    have hframe : poppedFrame token h = (unstackCore
        (Cpu.readContext { s with fpLazyActive := false })
        (Cpu.returnSp h.cpu token + BitVec.ofNat 32
          (Cpu.coreFrameOffset (Cpu.returnsExtended token))) b).1.toOption := by
      unfold poppedFrame
      dsimp only
      rw [hpopped]
    split
    · rename_i hcore
      refine .inl ⟨⟨_, rfl⟩, hsame, fun frame hpops => ?_⟩
      have hstacked := hpops.stacked
      rw [hframe, hcore] at hstacked
      cases hstacked
    rename_i frame b' hcore
    rw [hcore] at hframe
    split
    · rename_i hthumb
      refine .inl ⟨⟨_, rfl⟩, hsame, fun frame' hpops => ?_⟩
      have hstacked := hpops.stacked
      rw [hframe] at hstacked
      cases hstacked
      exact hpops.thumb hthumb
    · rename_i hthumb
      simp at haccepted hactive hwritable
      exact .inr ⟨frame, ⟨haccepted, hactive.1, hactive.2, hwritable, hframe, hthumb⟩, rfl,
        takeReturn_ipsr _ _ _⟩

/-! ## Agreement -/

/-- The newest active exception, zero if there is none. -/
def newest (stack : List (BitVec 16)) : BitVec 16 := stack.headD 0

section Agreement

variable (v : SystemView δ)

structure Agrees (h : Handling δ) : Prop where
  thread : h.activeStack = [] ↔ h.cpu.inHandlerMode = false
  status : h.cpu.ipsr = (newest h.activeStack).setWidth 32
  recorded : v.running h = newest h.activeStack
  marked : ∀ number, (externalIrq number).isSome = true →
    ((v.get h.bus.deviceState).markedActive number = true ↔ number ∈ h.activeStack)

/-- The numbers of the stack are those of exceptions. -/
def Numbered (h : Handling δ) : Prop := ∀ number ∈ h.activeStack, number ≠ 0 ∧ number.toNat < 256

/-- A board after a reset. -/
structure Restarted (h : Handling δ) : Prop where
  activeStack : h.activeStack = []
  status : h.cpu.ipsr = 0
  activity : (v.get h.bus.deviceState).activity = (0, fun _ => 0)
  devices : v.Untouched h.bus.devices

/-- Nothing was entered and nothing was left. -/
structure Unmoved (h h' : Handling δ) : Prop where
  activeStack : h'.activeStack = h.activeStack
  mode : SameMode h.cpu h'.cpu
  activity : (v.get h'.bus.deviceState).activity = (v.get h.bus.deviceState).activity
  devices : h'.bus.devices = h.bus.devices

/-- What happens to a board: calls of the exception unit, a reset, or anything else. -/
inductive Op
  | enter (number : BitVec 16)
  | exceptionReturn (token : BitVec 32)
  | reset
  | work

/-- A call that fails leaves what it did before it failed. -/
inductive Happens : Handling δ → Op → Handling δ → Prop
  | enter (number : BitVec 16) (h : Handling δ) :
      Happens h (.enter number) (Cpu.enter v.unit number h).2
  | exceptionReturn (token : BitVec 32) (h : Handling δ) :
      Happens h (.exceptionReturn token) (exceptionReturn v.unit token h).2
  | reset {h h' : Handling δ} (hreset : Restarted v h') : Happens h .reset h'
  | work {h h' : Handling δ} (hsame : Unmoved v h h') : Happens h .work h'

/-- A return that goes where it came from: the frame that it pops names the exception
below, and an interrupt that it leaves is not active below once more. -/
def Faithful : Op → Handling δ → Prop
  | .exceptionReturn token, h => ∀ frame leaving below, Pops token h frame →
      h.activeStack = leaving :: below →
      frame.getD 7 0 &&& xpsrIpsrMask = (newest below).setWidth 32 ∧
        ((externalIrq leaving).isSome = true → leaving ∉ below)
  | _, _ => True

variable {v} {h h' : Handling δ}

open SystemControl

lemma Agrees.of_unmoved (hagrees : Agrees v h) (hsame : Unmoved v h h') : Agrees v h' := by
  obtain ⟨hstack, hmode, hactivity, -⟩ := hsame
  have hrecorded : v.running h' = v.running h := congrArg fst hactivity
  have hbank : (v.get h'.bus.deviceState).nvicActive = (v.get h.bus.deviceState).nvicActive :=
    congrArg snd hactivity
  refine ⟨?_, ?_, ?_, fun number hnumber => ?_⟩
  · unfold CpuState.inHandlerMode
    rw [hstack, hmode]
    exact hagrees.thread
  · rw [hstack, hmode]
    exact hagrees.status
  · rw [hstack, hrecorded]
    exact hagrees.recorded
  · unfold markedActive
    rw [hstack, hbank]
    exact hagrees.marked number hnumber

lemma Restarted.agrees (hreset : Restarted v h) : Agrees v h := by
  have hrecorded : v.running h = 0 := congrArg fst hreset.activity
  have hbank : (v.get h.bus.deviceState).nvicActive = fun _ => 0 :=
    congrArg snd hreset.activity
  refine ⟨?_, ?_, ?_, fun number hnumber => ?_⟩
  · rw [hreset.activeStack]
    simp [CpuState.inHandlerMode, hreset.status]
  · rw [hreset.activeStack, hreset.status]
    rfl
  · rw [hreset.activeStack, hrecorded]
    rfl
  · obtain ⟨irq, hirq⟩ := Option.isSome_iff_exists.mp hnumber
    unfold markedActive bitOf
    rw [hreset.activeStack, hbank, hirq]
    simp

/-- A status that names an exception is that of a handler. -/
lemma inHandlerMode_of_number {s : CpuState} {number : BitVec 16} (hzero : number ≠ 0)
    (h : s.ipsr = number.setWidth 32) : s.inHandlerMode = true := by
  unfold CpuState.inHandlerMode
  rw [h, bne_iff_ne]
  intro heq
  apply hzero
  apply BitVec.eq_of_toNat_eq
  have := congrArg BitVec.toNat heq
  exact this

lemma Agrees.of_enter {number : BitVec 16} (hagrees : Agrees v h)
    (hzero : number ≠ 0) (hstatus : h'.cpu.ipsr = number.setWidth 32)
    (hstack : h'.activeStack = number :: h.activeStack) {c : SystemControl}
    (hactivity : c.activity = (v.get h.bus.deviceState).activity)
    (hget : v.get h'.bus.deviceState = c.enter number) : Agrees v h' := by
  have hbank : c.nvicActive = (v.get h.bus.deviceState).nvicActive := congrArg snd hactivity
  have hhandler := inHandlerMode_of_number hzero hstatus
  refine ⟨?_, ?_, ?_, fun other hother => ?_⟩
  · rw [hstack, hhandler]
    exact ⟨nofun, nofun⟩
  · rw [hstack, hstatus]
    rfl
  · unfold SystemView.running
    rw [hget, hstack, enter_active]
    rfl
  · have hset : (v.get h'.bus.deviceState).nvicActive =
        withMark (v.get h.bus.deviceState).nvicActive number true := by
      rw [hget, enter_nvicActive, hbank]
    have hmarks := markedActive_of_withMark hset hother
    rw [hmarks, hstack, List.mem_cons]
    split
    · rename_i heq
      exact ⟨fun _ => .inl heq, fun _ => rfl⟩
    · rename_i heq
      rw [hagrees.marked other hother]
      exact ⟨.inr, fun hmem => hmem.resolve_left heq⟩

variable {leaving : BitVec 16} {below : List (BitVec 16)}

lemma leaveActive_activity {d : δ}
    (hrecorded : (v.get d).activeException = leaving) :
    (v.get (Cpu.leaveActive v.unit (leaving :: below) d)).activity =
      (newest below, withMark (v.get d).nvicActive leaving false) := by
  cases below with
  | nil =>
    show (v.get (v.unit.leave leaving d)).activity = _
    rw [SystemView.get_leave]
    exact ext (leave_active _ _ hrecorded) (leave_nvicActive _ _)
  | cons next below =>
    show (v.get (v.unit.resume next (v.unit.leave leaving d))).activity = _
    rw [SystemView.get_resume, SystemView.get_leave]
    exact ext rfl (leave_nvicActive _ _)

/-- A return that succeeds keeps the agreement exactly if it goes where it came
from. -/
lemma Agrees.return_iff {status : BitVec 32}
    (hagrees : Agrees v h) (hnumbered : Numbered h) (hbefore : h.activeStack = leaving :: below)
    (hstack : h'.activeStack = below) (hstatus : h'.cpu.ipsr = status)
    (hactivity : (v.get h'.bus.deviceState).activity =
      (newest below, withMark (v.get h.bus.deviceState).nvicActive leaving false)) :
    Agrees v h' ↔ status = (newest below).setWidth 32 ∧
      ((externalIrq leaving).isSome = true → leaving ∉ below) := by
  have hmarks : ∀ other, (externalIrq other).isSome = true →
      (v.get h'.bus.deviceState).markedActive other =
        if other = leaving then false else (v.get h.bus.deviceState).markedActive other :=
    fun other hother => markedActive_of_withMark (congrArg snd hactivity) hother
  constructor
  · intro hafter
    refine ⟨?_, fun hexternal hmem => ?_⟩
    · rw [← hstatus, hafter.status, hstack]
    · have hmark := (hafter.marked leaving hexternal).mpr (hstack ▸ hmem)
      rw [hmarks leaving hexternal, if_pos rfl] at hmark
      cases hmark
  · rintro ⟨hframe, hleft⟩
    refine ⟨?_, ?_, ?_, fun other hother => ?_⟩
    · rw [hstack]
      cases below with
      | nil =>
        rw [hframe] at hstatus
        simp [CpuState.inHandlerMode, hstatus, newest]
      | cons next below =>
        have hvalid := hnumbered next (by rw [hbefore]; simp)
        rw [inHandlerMode_of_number hvalid.1 (hstatus.trans hframe)]
        simp
    · rw [hstatus, hframe, hstack]
    · rw [hstack]
      exact congrArg fst hactivity
    · rw [hmarks other hother, hstack]
      split
      · rename_i heq
        simpa using heq ▸ hleft (heq ▸ hother)
      · rename_i heq
        rw [hagrees.marked other hother, hbefore, List.mem_cons]
        exact ⟨fun hmem => hmem.resolve_left heq, .inr⟩

/-! ## Runs -/

/-- A call that failed leaves the active exceptions. -/
lemma Unmoved.of_does (hdevices : v.Untouched h.bus.devices)
    (hstack : h'.activeStack = h.activeStack) (hmode : SameMode h.cpu h'.cpu)
    (hdoes : Does h.bus h'.bus) : Unmoved v h h' := by
  obtain ⟨hkept, hactivity⟩ := hdevices.does hdoes
  exact ⟨hstack, hmode, hactivity, hkept⟩

lemma Unmoved.numbered (hsame : Unmoved v h h') (hnumbered : Numbered h) : Numbered h' := by
  unfold Numbered
  rw [hsame.activeStack]
  exact hnumbered

/-- A call after which the numbers of the stack are good and the devices are the same,
and everybody agrees exactly under a condition. -/
structure AgreesAfter (v : SystemView δ) (h' : Handling δ) (condition : Prop) : Prop where
  numbered : Numbered h'
  devices : v.Untouched h'.bus.devices
  agrees_iff : Agrees v h' ↔ condition

/-- What everybody agrees on, and what it takes to go on. -/
structure Sound (v : SystemView δ) (h : Handling δ) : Prop where
  agrees : Agrees v h
  numbered : Numbered h
  devices : v.Untouched h.bus.devices

lemma Sound.of_unmoved (hsound : Sound v h) (hsame : Unmoved v h h') {condition : Prop}
    (hcondition : condition) : AgreesAfter v h' condition :=
  ⟨hsame.numbered hsound.numbered, hsame.devices ▸ hsound.devices,
    fun _ => hcondition, fun _ => hsound.agrees.of_unmoved hsame⟩

lemma Restarted.sound (hreset : Restarted v h) : Sound v h := by
  refine ⟨hreset.agrees, ?_, hreset.devices⟩
  unfold Numbered
  rw [hreset.activeStack]
  nofun

lemma Sound.enter (hsound : Sound v h) (number : BitVec 16) :
    AgreesAfter v (Cpu.enter v.unit number h).2 True := by
  have hleaves := Cpu.enter_leaves (rfl : Cpu.enter v.unit number h = _)
  rcases enter_mode v.unit number h with ⟨⟨e, hfailed⟩, hmode⟩ | ⟨hok, hzero, hlt, hstatus⟩
  · obtain ⟨-, hstack, hdoes⟩ | ⟨hok, -⟩ := hleaves
    · exact hsound.of_unmoved (Unmoved.of_does hsound.devices hstack hmode hdoes) trivial
    · rw [hfailed] at hok
      cases hok
  obtain ⟨⟨e, hfailed⟩, -⟩ | ⟨-, hstack, b, hdoes, hbus⟩ := hleaves
  · rw [hfailed] at hok
    cases hok
  · obtain ⟨hkept, hactivity⟩ := hsound.devices.does hdoes
    have hget : v.get (Cpu.enter v.unit number h).2.bus.deviceState =
        (v.get b.deviceState).enter number := by
      rw [hbus]
      exact v.get_enter number b.deviceState
    refine ⟨?_, ?_, fun _ => trivial,
      fun _ => hsound.agrees.of_enter hzero hstatus hstack hactivity hget⟩
    · unfold Numbered
      rw [hstack]
      intro other hother
      rcases List.mem_cons.mp hother with rfl | hother
      · exact ⟨hzero, hlt⟩
      · exact hsound.numbered other hother
    · rw [hbus]
      exact hkept ▸ hsound.devices

lemma Sound.exceptionReturn (hsound : Sound v h) (token : BitVec 32) :
    AgreesAfter v (exceptionReturn v.unit token h).2 (Faithful (.exceptionReturn token) h) := by
  have hleaves := Cpu.exceptionReturn_leaves (rfl : Cpu.exceptionReturn v.unit token h = _)
  rcases exceptionReturn_mode v.unit token h with ⟨⟨e, hfailed⟩, hmode, hnone⟩ |
    ⟨frame, hpops, hok, hstatus⟩
  · obtain ⟨-, hstack, hdoes⟩ | ⟨hok, -⟩ := hleaves
    · exact hsound.of_unmoved (Unmoved.of_does hsound.devices hstack hmode hdoes)
        fun frame _ _ hpops => absurd hpops (hnone frame)
    · rw [hfailed] at hok
      cases hok
  · obtain ⟨⟨e, hfailed⟩, -⟩ | ⟨-, hstack, b, hdoes, hbus⟩ := hleaves
    · rw [hfailed] at hok
      cases hok
    · obtain ⟨hkept, hactivity⟩ := hsound.devices.does hdoes
      obtain ⟨leaving, below, hbefore⟩ := List.exists_cons_of_ne_nil hpops.active
      have hrecorded : (v.get b.deviceState).activeException = leaving := by
        have hrunning := hsound.agrees.recorded
        rw [hbefore] at hrunning
        exact (congrArg fst hactivity).trans hrunning
      have hafter : (v.get (Cpu.exceptionReturn v.unit token h).2.bus.deviceState).activity =
          (newest below,
            withMark (v.get h.bus.deviceState).nvicActive leaving false) := by
        have hbank : (v.get b.deviceState).nvicActive = (v.get h.bus.deviceState).nvicActive :=
          congrArg snd hactivity
        rw [hbus, hbefore]
        exact (leaveActive_activity hrecorded).trans (by rw [hbank])
      rw [hbefore, List.tail_cons] at hstack
      refine ⟨?_, ?_, ?_⟩
      · unfold Numbered
        rw [hstack]
        exact fun other hother => hsound.numbered other (hbefore ▸ List.mem_cons_of_mem _ hother)
      · rw [hbus]
        exact hkept ▸ hsound.devices
      · rw [hsound.agrees.return_iff hsound.numbered hbefore hstack hstatus hafter]
        refine ⟨fun hfaithful frame' leaving' below' hpops' hbefore' => ?_,
          fun hfaithful => hfaithful frame leaving below hpops hbefore⟩
        have hframe := hpops'.stacked
        rw [hpops.stacked] at hframe
        rw [hbefore] at hbefore'
        cases hframe
        cases hbefore'
        exact hfaithful

/-- One thing that happens to a board where everybody agrees: they still do, exactly
if it is not a return that goes somewhere else. -/
lemma Sound.happens {op : Op} (hsound : Sound v h) (hhappens : Happens v h op h') :
    AgreesAfter v h' (Faithful op h) := by
  cases hhappens with
  | enter number => exact hsound.enter number
  | exceptionReturn token => exact hsound.exceptionReturn token
  | reset hreset =>
    exact ⟨hreset.sound.numbered, hreset.devices, fun _ => trivial, fun _ => hreset.agrees⟩
  | work hsame => exact hsound.of_unmoved hsame trivial

variable (v)

/-- The states of a board whose returns go where they came from. -/
inductive Reached : Handling δ → Prop
  | start {h : Handling δ} (hreset : Restarted v h) : Reached h
  | step {h h' : Handling δ} {op : Op} (hreached : Reached h) (hhappens : Happens v h op h')
      (hfaithful : Faithful op h) : Reached h'

variable {v}

lemma Reached.sound (hreached : Reached v h) : Sound v h := by
  induction hreached with
  | start hreset => exact hreset.sound
  | step _ hhappens hfaithful ih =>
    have hafter := ih.happens hhappens
    exact ⟨hafter.agrees_iff.mpr hfaithful, hafter.numbered, hafter.devices⟩

/-! ## A board is made of these -/

/-- Things that happen, one after the other. -/
def Run (v : SystemView δ) : Handling δ → Handling δ → Prop :=
  Relation.ReflTransGen fun h h' => ∃ op, Happens v h op h'

lemma Run.single {op : Op} (hhappens : Happens v h op h') : Run v h h' :=
  Relation.ReflTransGen.single ⟨op, hhappens⟩

/-- A step of the core enters nothing and leaves nothing. -/
theorem stepFast_unmoved (env : Cpu.Environment δ) (hdevices : v.Untouched h.bus.devices)
    (diagnostic : Cpu.DiagnosticSnapshot) :
    Unmoved v h { h with
      cpu := (Cpu.stepFast env ⟨h.cpu, h.bus, diagnostic⟩).2.cpu
      bus := (Cpu.stepFast env ⟨h.cpu, h.bus, diagnostic⟩).2.bus } :=
  Unmoved.of_does hdevices rfl (Cpu.stepFast_sameMode env ⟨h.cpu, h.bus, diagnostic⟩)
    (Cpu.stepFastImpl_does (m := ⟨h.cpu, h.bus, diagnostic⟩) false)

variable (h : Handling δ)

lemma settleReset_run : Run v h (settleReset v.unit h).2 := by
  unfold settleReset
  split
  · refine Run.single (.work ⟨rfl, refl _, ?_, rfl⟩)
    unfold SystemView.unit
    dsimp only
    split
    · unfold SystemView.update
      rw [v.get_set]
      rfl
    · rw [v.consumePeripheralReset_get]
  · exact Relation.ReflTransGen.refl

theorem settleInstructionBoundary_run : Run v h (settleInstructionBoundary v.unit h).2 :=
  Cpu.settle_rel_of_calls (fun _ => Relation.ReflTransGen.refl)
    (fun _ _ _ => Relation.ReflTransGen.trans)
    (fun _ _ _ => Run.single (.work ⟨rfl, SameMode.refl _, rfl, rfl⟩))
    (fun _ _ => Run.single (.enter _ _)) (fun _ _ => Run.single (.exceptionReturn _ _))
    settleReset_run h

end Agreement

/-- **Everybody agrees as long as returns go back where they came from.** In every
state of such a run the stack, the system control and the core name the same active
exceptions. And whatever happens next, they go on to agree exactly if it is not a
return whose frame names another exception, or that leaves an interrupt which is
active once more below. -/
theorem active_exceptions_agree_while_returns_go_back (v : SystemView δ) (h : Handling δ)
    (hreached : Reached v h) :
    Agrees v h ∧ ∀ op h', Happens v h op h' → (Agrees v h' ↔ Faithful op h) :=
  ⟨hreached.sound.agrees, fun _ _ hhappens => (hreached.sound.happens hhappens).agrees_iff⟩

/-! ## A core on its own -/

lemma coreDevices_untouched : coreView.Untouched coreDevices :=
  ⟨fun _ offset size context c => c.read_activity offset size context,
    fun _ offset size value context c => c.write_activity offset size value context⟩

/-- An SVC whose handler adds five to the status in its frame and returns: LDR, ADDS,
STR and BX. Its vector is at the 44th byte, that of the first interrupt at the 64th. -/
def forgingCode : List (BitVec 16) :=
  [0xdf00, 0x9807, 0x3005, 0x9007, 0x4770] ++ List.replicate 17 0 ++ [0x0003, 0x0800] ++
    List.replicate 8 0 ++ [0x0003, 0x0800]

def forgingCore : Handling SystemControl :=
  ⟨Cpu.resetState,
    { (coreMachine 0x08000000).bus with bytes := (Cpu.smallBoard forgingCode).bytes }, []⟩

lemma forgingCore_restarted : Restarted coreView forgingCore :=
  ⟨rfl, by decide, rfl, coreDevices_untouched⟩

/-- An SVC is entered and left, and everybody knows. -/
theorem an_svc_and_its_return_are_known_to_everybody :
    let entered := Cpu.enter coreView.unit svCall forgingCore
    let left := exceptionReturn coreView.unit 0xfffffff9 entered.2
    entered.1 = .ok () ∧ left.1 = .ok () ∧ Agrees coreView entered.2 ∧ Agrees coreView left.2 := by
  intro entered left
  have hentered : Reached coreView entered.2 :=
    .step (.start forgingCore_restarted) (.enter svCall forgingCore) trivial
  have hframe : (poppedFrame 0xfffffff9 entered.2).map (·.getD 7 0 &&& xpsrIpsrMask) = some 0 ∧
      entered.2.activeStack = [svCall] := by decide +kernel
  have hfaithful : Faithful (.exceptionReturn 0xfffffff9) entered.2 := by
    intro frame leaving below hpops hstack
    rw [hframe.2] at hstack
    cases hstack
    rw [hpops.stacked] at hframe
    exact ⟨Option.some.inj hframe.1, fun _ => List.not_mem_nil⟩
  obtain ⟨hagrees, hnext⟩ := active_exceptions_agree_while_returns_go_back coreView _ hentered
  exact ⟨by decide +kernel, by decide +kernel, hagrees,
    (hnext _ _ (.exceptionReturn 0xfffffff9 entered.2)).mpr hfaithful⟩

def forgingHandler : Handling SystemControl :=
  (settleException coreView.unit (coreStep forgingCore)).2

def forgedReturn : Handling SystemControl := coreStep^[4] forgingHandler

/-- The first interrupt, entered twice and left once. -/
def enteredTwice : Handling SystemControl :=
  (exceptionReturn coreView.unit 0xfffffff1
    (Cpu.enter coreView.unit 16 (Cpu.enter coreView.unit 16 forgingCore).2).2).2

/-- Firmware that changes the status in its frame returns to thread mode with nothing
active, and its core runs exception five. And an interrupt that was entered twice is not
marked active although it still is. -/
theorem a_forged_frame_returns_into_no_handler :
    (settleReturn coreView.unit forgedReturn).1 = .ok () ∧
      (settleReturn coreView.unit forgedReturn).2.activeStack = [] ∧
      coreView.running (settleReturn coreView.unit forgedReturn).2 = 0 ∧
      (settleReturn coreView.unit forgedReturn).2.cpu.ipsr = 5 ∧
      enteredTwice.activeStack = [16] ∧ enteredTwice.cpu.ipsr = 16 ∧
      enteredTwice.bus.deviceState.markedActive 16 = false := by
  refine ⟨?_, ?_, ?_, ?_, ?_, ?_, ?_⟩ <;> decide +kernel

end Fil.Cortexm
