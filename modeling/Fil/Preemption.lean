-- Preemption and priorities. An exception that waits at the system control is
-- entered only if no mask holds it back and it outranks the one that runs; as the
-- active exceptions are nested by urgency, it outranks them all. An exception that
-- an instruction raises is entered with no such look.
import Fil.PendingInterrupts
import Fil.StepEffects

open Fil.Mem Fil.Mem.MemoryBus

namespace Fil.Cortexm

open Fil.Cpu (Handling CpuState Machine settleReturn settleException settlePending settleReset
  settleInstructionBoundary)

variable {δ : Type}

/-! ## Entry and leave of the device -/

namespace SystemControl

section

variable (c : SystemControl) (number : BitVec 16)

@[simp] lemma enter_active :
    (c.enter number).activeException = number := by
  unfold enter
  rw [clearPending_active]
  split <;> rfl

lemma leave_active (h : c.activeException = number) :
    (c.leave number).activeException = 0 := by
  have hsame : ∀ c' : SystemControl, c'.activeException = number →
      (if c'.activeException = number then { c' with activeException := 0 } else c').activeException
        = 0 := by
    intro c' hc'
    rw [if_pos hc']
  apply hsame
  split
  · exact h
  · exact h

end

end SystemControl

open SystemControl (Masks)

/-! ## The system control among the devices -/

/-- Where the registers of the system control stand in the state of the devices,
and what else can ask for a reset. -/
structure SystemView (δ : Type) where
  get : δ → SystemControl
  set : SystemControl → δ → δ
  peripheralReset : δ → Bool
  consumePeripheralReset : δ → δ
  get_set : ∀ c d, get (set c d) = c
  consumePeripheralReset_get : ∀ d, get (consumePeripheralReset d) = get d

namespace SystemView

def update (v : SystemView δ) (f : SystemControl → SystemControl) (d : δ) : δ :=
  v.set (f (v.get d)) d

def unit (v : SystemView δ) : Cpu.SystemControl δ where
  ccr d := (v.get d).control.ccr
  fpccr d := (v.get d).control.fpccr
  vectorBase d := (v.get d).control.vtor
  hasEnabledPending d := (v.get d).hasEnabledPending
  nextPending primask basepri faultmask d := (v.get d).nextPending ⟨primask, basepri, faultmask⟩
  enter number := v.update (·.enter number)
  leave number := v.update (·.leave number)
  resume number := v.update (·.resume number)
  resetRequested d := (v.get d).resetRequested || v.peripheralReset d
  consumeResetRequest d :=
    if (v.get d).resetRequested then v.update (fun c => { c with resetRequested := false }) d
    else v.consumePeripheralReset d

variable (v : SystemView δ) (number : BitVec 16)

@[simp] lemma get_enter (d : δ) :
    v.get (v.unit.enter number d) = (v.get d).enter number := v.get_set _ d

@[simp] lemma get_leave (d : δ) :
    v.get (v.unit.leave number d) = (v.get d).leave number := v.get_set _ d

@[simp] lemma get_resume (d : δ) :
    v.get (v.unit.resume number d) = (v.get d).resume number := v.get_set _ d

variable (v : SystemView δ)

/-- The exception that runs, zero if none does. -/
def running (h : Handling δ) : BitVec 16 := (v.get h.bus.deviceState).activeException

/-- The urgency of an exception, the smaller the more urgent. -/
def urgency (h : Handling δ) (number : BitVec 16) : Int :=
  (v.get h.bus.deviceState).architecturalPriority number

/-- No mask holds the exception back. -/
def Open (h : Handling δ) (number : BitVec 16) : Prop :=
  Unmasked ⟨h.cpu.primask, h.cpu.basepri, h.cpu.faultmask⟩ number
    ((v.get h.bus.deviceState).priority number)

/-- The exception is more urgent than every active one. -/
def Outranks (h : Handling δ) (number : BitVec 16) : Prop :=
  ∀ active ∈ h.activeStack, v.urgency h number < v.urgency h active

structure Undisturbed (devices : MmioDevices δ) : Prop where
  read : ∀ device offset size context d,
    (v.get (devices.read device offset size context d).2).activeException =
      (v.get d).activeException
  write : ∀ device offset size value context d,
    (v.get (devices.write device offset size value context d).2).activeException =
      (v.get d).activeException

/-- What everything but an entry and a return keeps. -/
structure Kept (h h' : Handling δ) : Prop where
  activeStack : h'.activeStack = h.activeStack
  devices : h'.bus.devices = h.bus.devices
  running : v.running h' = v.running h

variable {v}

lemma Kept.refl (h : Handling δ) : v.Kept h h := ⟨rfl, rfl, rfl⟩

lemma Undisturbed.does {b b' : MemoryBus δ} (hdevices : v.Undisturbed b.devices)
    (h : Does b b') : b'.devices = b.devices ∧
      (v.get b'.deviceState).activeException = (v.get b.deviceState).activeException :=
  h.kept (f := fun d => (v.get d).activeException) ⟨hdevices.read, hdevices.write⟩

end SystemView

/-! ## Moves of a board -/

/-- What a move of a board is: anything but an exception, a return, an exception
that an instruction raised, or one that was pending. -/
inductive Happening
  | work
  | returned
  | raised (number : BitVec 16)
  | taken (number : BitVec 16)

/-- The exception that a move enters. -/
def Happening.entered : Happening → Option (BitVec 16)
  | .raised number | .taken number => some number
  | .work | .returned => none

/-- The moves of a board. Exceptions and returns are what the boundary of an
instruction makes of them. -/
inductive Move (v : SystemView δ) : Handling δ → Happening → Handling δ → Prop
  | work {h h' : Handling δ} (kept : v.Kept h h') : Move v h .work h'
  | returned {h h' : Handling δ} (heq : settleReturn v.unit h = (.ok (), h')) :
      Move v h .returned h'
  | raised {h h' : Handling δ} {number : BitVec 16} (hraised : h.cpu.pendingException = some number)
      (heq : settleException v.unit h = (.ok (), h')) : Move v h (.raised number) h'
  | taken {h h' : Handling δ} {number : BitVec 16}
      (hnext : v.unit.nextPending h.cpu.primask h.cpu.basepri h.cpu.faultmask h.bus.deviceState
        = some number)
      (heq : settlePending v.unit h = (.ok (), h')) : Move v h (.taken number) h'

/-- Priorities stay fixed while exceptions are active. -/
def Fixed (v : SystemView δ) (h h' : Handling δ) : Prop :=
  h.activeStack ≠ [] → ∀ number, v.urgency h' number = v.urgency h number

variable {v : SystemView δ} {h h' : Handling δ} {number : BitVec 16}

lemma Fixed.of_deviceState (heq : h'.bus.deviceState = h.bus.deviceState) : Fixed v h h' :=
  fun _ number => congrArg (fun d => (v.get d).architecturalPriority number) heq

/-- An exception that an instruction raises is one that could be taken if it were
pending. -/
def Becoming (v : SystemView δ) (h : Handling δ) : Happening → Prop
  | .raised number => v.Open h number ∧
      (v.running h = 0 ∨ v.urgency h number < v.urgency h (v.running h))
  | _ => True

/-- The states of the runs from a board with no active exception, by moves that
meet a condition. -/
inductive Reaches (v : SystemView δ) (P : Handling δ → Happening → Prop) : Handling δ → Prop
  | start {h : Handling δ} (hstack : h.activeStack = []) (hrunning : v.running h = 0)
      (hdevices : v.Undisturbed h.bus.devices) : Reaches v P h
  | move {h h' : Handling δ} {what : Happening} (hreaches : Reaches v P h)
      (hmove : Move v h what h') (hfixed : Fixed v h h') (hmeets : P h what) : Reaches v P h'

/-! ## A run of a board is made of moves -/

/-- Moves, one after the other. -/
def Moves (v : SystemView δ) : Handling δ → Handling δ → Prop :=
  Relation.ReflTransGen fun h h' => ∃ what, Move v h what h'

variable {cpu : CpuState} {stack : List (BitVec 16)}

open Cpu

section Moves

variable {v : SystemView δ} {h h' : Handling δ}

lemma Moves.single {what : Happening} (hmove : Move v h what h') : Moves v h h' :=
  Relation.ReflTransGen.single ⟨what, hmove⟩

lemma SystemView.Kept.moves (hkept : v.Kept h h') : Moves v h h' := Moves.single (.work hkept)

lemma SystemView.Kept.of_does (hdevices : v.Undisturbed h.bus.devices)
    (hstack : h'.activeStack = h.activeStack) (hdoes : Does h.bus h'.bus) :
    v.Kept h h' := by
  obtain ⟨hkept, hrunning⟩ := hdevices.does hdoes
  exact ⟨hstack, hkept, hrunning⟩

def Goes (v : SystemView δ) (h h' : Handling δ) : Prop :=
  v.Undisturbed h.bus.devices → Moves v h h' ∧ v.Undisturbed h'.bus.devices

lemma SystemView.Kept.goes (hkept : v.Kept h h') : Goes v h h' :=
  fun hdevices => ⟨hkept.moves, hkept.devices ▸ hdevices⟩

lemma Goes.refl (h : Handling δ) : Goes v h h := (SystemView.Kept.refl h).goes

/-- An entry or a return is a move if its success is one: a failure is work. -/
lemma Leaves.goes {change : δ → δ}
    {result : Except Cpu.ExceptionError Unit × Handling δ}
    (hleaves : Cpu.Leaves { h with cpu } stack change result)
    (hok : result.1 = .ok () → ∃ what, Move v h what result.2) : Goes v h result.2 := by
  intro hdevices
  obtain ⟨-, hstack, hdoes⟩ | ⟨hsuccess, -, b, hdoes, hbus⟩ := hleaves
  · exact (SystemView.Kept.of_does hdevices hstack hdoes).goes hdevices
  · obtain ⟨what, hmove⟩ := hok hsuccess
    refine ⟨Moves.single hmove, ?_⟩
    rw [hbus]
    exact (hdevices.does hdoes).1 ▸ hdevices

variable {x : Except Cpu.ExceptionError Unit}

lemma settleReturn_goes (heq : settleReturn v.unit h = (x, h')) : Goes v h h' := by
  have hmove : x = .ok () → ∃ what, Move v h what h' := by
    rintro rfl
    exact ⟨_, .returned heq⟩
  unfold settleReturn at heq
  split at heq
  · cases heq
    exact .refl h
  · exact Leaves.goes (exceptionReturn_leaves heq) hmove

lemma settleException_goes (heq : settleException v.unit h = (x, h')) : Goes v h h' := by
  have hmove : ∀ number, h.cpu.pendingException = some number → x = .ok () →
      ∃ what, Move v h what h' := by
    rintro number hraised rfl
    exact ⟨_, .raised hraised heq⟩
  unfold settleException at heq
  split at heq
  · cases heq
    exact .refl h
  · rename_i number hraised
    exact Leaves.goes (enter_leaves heq) (hmove number hraised)

lemma settlePending_goes (heq : settlePending v.unit h = (x, h')) : Goes v h h' := by
  have hmove : ∀ number, v.unit.nextPending h.cpu.primask h.cpu.basepri h.cpu.faultmask
      h.bus.deviceState = some number → x = .ok () → ∃ what, Move v h what h' := by
    rintro number hnext rfl
    exact ⟨_, .taken hnext heq⟩
  unfold settlePending enterPending at heq
  split at heq
  · dsimp only at heq
    split at heq
    · cases heq
      exact .refl h
    rename_i number hnext
    cases heq
    refine Leaves.goes (enter_leaves rfl) fun hok => hmove number hnext ?_
    rw [hok]
    rfl
  · cases heq
    exact .refl h

lemma settleReset_kept (h : Handling δ) : v.Kept h (settleReset v.unit h).2 := by
  unfold settleReset
  split
  · refine ⟨rfl, rfl, ?_⟩
    unfold SystemView.running SystemView.unit SystemView.update
    dsimp only
    split
    · rw [v.get_set]
    · rw [v.consumePeripheralReset_get]
  · exact SystemView.Kept.refl h

/-- What settling a boundary does to a board are moves. -/
theorem settle_goes : Goes v h (settleInstructionBoundary v.unit h).2 := by
  refine settle_rel (R := Goes v) .refl (fun _ _ _ h1 h2 hdevices => ?_)
    (fun _ => settleReturn_goes rfl) (fun _ => settleException_goes rfl)
    (fun _ => settlePending_goes rfl) (fun h => (settleReset_kept h).goes) h
  obtain ⟨hmoves, hdevices⟩ := h1 hdevices
  exact ⟨hmoves.trans (h2 hdevices).1, (h2 hdevices).2⟩

end Moves

variable {what : Happening} {h : Handling δ}

lemma Move.undisturbed (hmove : Move v h what h') (hdevices : v.Undisturbed h.bus.devices) :
    v.Undisturbed h'.bus.devices := by
  cases hmove with
  | work hkept => exact (hkept.goes hdevices).2
  | returned heq => exact (settleReturn_goes heq hdevices).2
  | raised _ heq => exact (settleException_goes heq hdevices).2
  | taken _ heq => exact (settlePending_goes heq hdevices).2

lemma Reaches.undisturbed {P : Handling δ → Happening → Prop} (hreaches : Reaches v P h) :
    v.Undisturbed h.bus.devices := by
  induction hreaches with
  | start _ _ hdevices => exact hdevices
  | move _ hmove _ _ ih => exact hmove.undisturbed ih

/-! ## The active exceptions are nested -/

/-- The newest active exception runs, and each is more urgent than those below. -/
structure Nested (v : SystemView δ) (h : Handling δ) : Prop where
  devices : v.Undisturbed h.bus.devices
  running : v.running h = h.activeStack.headD 0
  numbered : ∀ active ∈ h.activeStack, active ≠ 0
  nested : h.activeStack.Pairwise fun newer older => v.urgency h newer < v.urgency h older

lemma Nested.outranks (hnested : Nested v h)
    (hurgent : v.running h = 0 ∨ v.urgency h number < v.urgency h (v.running h)) :
    v.Outranks h number := by
  rw [hnested.running] at hurgent
  intro active hactive
  obtain ⟨-, -, hnumbered, hpairwise⟩ := hnested
  cases hstack : h.activeStack with
  | nil =>
    rw [hstack] at hactive
    cases hactive
  | cons newest older =>
    rw [hstack] at hactive hurgent hnumbered hpairwise
    have hnewest : v.urgency h number < v.urgency h newest :=
      hurgent.resolve_left (hnumbered newest (by simp))
    rcases List.mem_cons.mp hactive with rfl | holder
    · exact hnewest
    · exact hnewest.trans ((List.pairwise_cons.mp hpairwise).1 active holder)

/-- Fixed priorities keep the order of the active exceptions. -/
lemma Nested.still (hnested : Nested v h) (hfixed : Fixed v h h') :
    h.activeStack.Pairwise fun newer older => v.urgency h' newer < v.urgency h' older := by
  by_cases hempty : h.activeStack = []
  · rw [hempty]
    exact List.Pairwise.nil
  refine hnested.nested.imp ?_
  intro newer older hurgent
  rw [hfixed hempty, hfixed hempty]
  exact hurgent

lemma Nested.of_kept (hnested : Nested v h)
    (hkept : v.Kept h h') (hfixed : Fixed v h h') : Nested v h' where
  devices := by
    rw [hkept.devices]
    exact hnested.devices
  running := by
    rw [hkept.running, hkept.activeStack]
    exact hnested.running
  numbered := by
    rw [hkept.activeStack]
    exact hnested.numbered
  nested := by
    rw [hkept.activeStack]
    exact hnested.still hfixed

lemma enter_numbered {sys : Cpu.SystemControl δ}
    (heq : enter sys number h = (.ok (), h')) : number ≠ 0 := by
  rintro rfl
  cases heq

lemma Nested.of_enter (hnested : Nested v h)
    (heq : enter v.unit number { h with cpu } = (.ok (), h'))
    (houtranks : v.Outranks h number) (hfixed : Fixed v h h') : Nested v h' := by
  obtain ⟨⟨_, hfailed⟩, -⟩ | ⟨-, hstack, b, hdoes, hbus⟩ := enter_leaves heq
  · cases hfailed
  have hsame : b.devices = h.bus.devices :=
    (hnested.devices.does hdoes).1
  refine ⟨?_, ?_, ?_, ?_⟩
  · rw [hbus]
    exact hsame ▸ hnested.devices
  · unfold SystemView.running
    rw [hbus, hstack, v.get_enter, SystemControl.enter_active]
    rfl
  · rw [hstack]
    exact List.forall_mem_cons.mpr ⟨enter_numbered heq, hnested.numbered⟩
  · rw [hstack]
    refine List.pairwise_cons.mpr ⟨fun active hactive => ?_, hnested.still hfixed⟩
    have hactive' := List.ne_nil_of_mem hactive
    rw [hfixed hactive', hfixed hactive']
    exact houtranks active hactive

lemma leaveActive_running {d : δ}
    (h : (v.get d).activeException = stack.headD 0) :
    (v.get (leaveActive v.unit stack d)).activeException = stack.tail.headD 0 := by
  match stack, h with
  | [], h => exact h
  | [number], h =>
    unfold leaveActive
    rw [v.get_leave]
    exact SystemControl.leave_active _ _ h
  | number :: below :: _, _ =>
    unfold leaveActive
    rw [v.get_resume]
    rfl

lemma Nested.of_return
    {token : BitVec 32} (hnested : Nested v h)
    (heq : exceptionReturn v.unit token { h with cpu } = (.ok (), h'))
    (hfixed : Fixed v h h') : Nested v h' := by
  obtain ⟨⟨_, hfailed⟩, -⟩ | ⟨-, hstack, b, hdoes, hbus⟩ := exceptionReturn_leaves heq
  · cases hfailed
  obtain ⟨hdevices, hrunning⟩ := hnested.devices.does hdoes
  refine ⟨?_, ?_, ?_, ?_⟩
  · rw [hbus]
    exact hdevices ▸ hnested.devices
  · unfold SystemView.running
    rw [hbus, hstack]
    exact leaveActive_running (hrunning.trans hnested.running)
  · rw [hstack]
    exact fun active hactive => hnested.numbered active (List.mem_of_mem_tail hactive)
  · rw [hstack]
    exact (hnested.still hfixed).tail

/-- An exception that the system control offers outranks the one that runs, and no
mask holds it back. -/
lemma offered
    (hnext : v.unit.nextPending h.cpu.primask h.cpu.basepri h.cpu.faultmask h.bus.deviceState =
      some number) :
    v.Open h number ∧ (v.running h = 0 ∨ v.urgency h number < v.urgency h (v.running h)) := by
  have hadmissible := SystemControl.nextPending_admissible hnext
  unfold SystemControl.admissible at hadmissible
  rw [Bool.and_eq_true, Bool.and_eq_true, Bool.or_eq_true, decide_eq_true_eq,
    decide_eq_true_eq] at hadmissible
  exact ⟨(allow_iff _ _ _).mp hadmissible.1.2, hadmissible.2⟩

/-- An exception that is entered passes the look of the system control, if those
that instructions raise do. -/
lemma Move.entry_becoming (hmove : Move v h what h') (hmeets : Becoming v h what)
    (hentered : what.entered = some number) :
    v.Open h number ∧ (v.running h = 0 ∨ v.urgency h number < v.urgency h (v.running h)) := by
  cases hmove with
  | work _ => cases hentered
  | returned _ => cases hentered
  | raised _ _ =>
    cases hentered
    exact hmeets
  | taken hnext _ =>
    cases hentered
    exact offered hnext

lemma settlePending_enters {sys : Cpu.SystemControl δ}
    (hnext : sys.nextPending h.cpu.primask h.cpu.basepri h.cpu.faultmask h.bus.deviceState
      = some number) (heq : settlePending sys h = (.ok (), h')) :
    enter sys number h = (.ok (), h') ∨ h' = h := by
  unfold settlePending enterPending at heq
  split at heq
  · left
    rw [hnext] at heq
    obtain ⟨hok, hstate⟩ := Prod.ext_iff.mp heq
    refine Prod.ext ?_ hstate
    cases hentered : (enter sys number h).1 with
    | error e =>
      dsimp only at hok
      rw [hentered] at hok
      cases hok
    | ok _ => rfl
  · cases heq
    exact .inr rfl

lemma Nested.move (hnested : Nested v h) (hmove : Move v h what h') (hfixed : Fixed v h h')
    (hmeets : Becoming v h what) : Nested v h' := by
  have hurgent : ∀ number, what.entered = some number →
      v.running h = 0 ∨ v.urgency h number < v.urgency h (v.running h) :=
    fun _ hentered => (hmove.entry_becoming hmeets hentered).2
  cases hmove with
  | work hkept => exact hnested.of_kept hkept hfixed
  | returned heq =>
    unfold settleReturn at heq
    split at heq
    · cases heq
      exact hnested
    · exact hnested.of_return heq hfixed
  | raised hraised heq =>
    unfold settleException at heq
    rw [hraised] at heq
    exact hnested.of_enter heq (hnested.outranks (hurgent _ rfl)) hfixed
  | taken hnext heq =>
    obtain hentered | rfl := settlePending_enters hnext heq
    · exact hnested.of_enter hentered (hnested.outranks (hurgent _ rfl)) hfixed
    · exact hnested

lemma Reaches.nested (hreaches : Reaches v (Becoming v) h) : Nested v h := by
  induction hreaches with
  | start hstack hrunning hdevices =>
    refine ⟨hdevices, ?_, ?_, ?_⟩ <;> rw [hstack]
    · exact hrunning
    · simp
    · exact List.Pairwise.nil
  | move _ hmove hfixed hmeets ih => exact ih.move hmove hfixed hmeets

/-- In a run whose raised exceptions could be taken if they were pending, every
exception that is entered outranks all active ones and no mask holds it back. -/
theorem every_entered_exception_outranks_the_active_ones (v : SystemView δ) (h h' : Handling δ)
    (what : Happening) (number : BitVec 16) (hreaches : Reaches v (Becoming v) h)
    (hmove : Move v h what h') (hmeets : Becoming v h what)
    (hentered : what.entered = some number) : v.Outranks h number ∧ v.Open h number := by
  obtain ⟨hopen, hurgent⟩ := hmove.entry_becoming hmeets hentered
  exact ⟨hreaches.nested.outranks hurgent, hopen⟩

/-! ## A core on its own -/

def coreDevices : MmioDevices SystemControl where
  read _ offset size context c := c.read offset size context
  write _ offset size value context c := c.write offset size value context
  domain _ _ _ _ := .boardLocal
  read_reason _ offset size context c f h := by
    unfold SystemControl.read at h
    split at h <;> cases h
    exact BusFaultReason.noConfusion
  write_reason _ offset size value context c f h := by
    unfold SystemControl.write at h
    split at h <;> cases h
    exact BusFaultReason.noConfusion

def coreView : SystemView SystemControl where
  get := id
  set c _ := c
  peripheralReset _ := false
  consumePeripheralReset := id
  get_set _ _ := rfl
  consumePeripheralReset_get _ := rfl

/-- Firmware cannot write which exception runs. -/
lemma coreDevices_undisturbed : coreView.Undisturbed coreDevices :=
  ⟨fun _ offset size context c => congrArg Prod.fst (c.read_activity offset size context),
    fun _ offset size value context c =>
      congrArg Prod.fst (c.write_activity offset size value context)⟩

/-- CPSID i, then an SVC whose vector, at the 44th byte, leads back to it. -/
def supervisorCode : List (BitVec 16) := [0xb672, 0xdf00] ++ List.replicate 20 0 ++ [0x0003, 0x0800]

def coreMachine (pc : BitVec 32) : Machine SystemControl where
  cpu := Cpu.resetState.setPc pc
  bus :=
    { map := ⟨[{ info := ⟨0x08000000, 0x1000, .flash, "flash", true, true, true⟩ },
        { info := ⟨0x20000000, 0x1000, .ram, "sram", true, true, false⟩ },
        { info := ⟨0xe0000000, 0x100000, .mmio, "system", true, true, false⟩ }],
        by decide, by decide⟩
      bytes := (Cpu.smallBoard supervisorCode).bytes
      devices := coreDevices
      deviceState := SystemControl.reset 0x08000000 }

/-- A step of the core, without floating point. -/
def coreStep (h : Handling SystemControl) : Handling SystemControl :=
  let m := (Cpu.stepFastImpl ⟨Cpu.plainEnvironment.fp, fun _ => true⟩ false ⟨h.cpu, h.bus, {}⟩).2
  { h with cpu := m.cpu, bus := m.bus }

lemma coreStep_kept {h : Handling SystemControl} (hdevices : coreView.Undisturbed h.bus.devices) :
    coreView.Kept h (coreStep h) := by
  refine SystemView.Kept.of_does hdevices rfl ?_
  exact stepFastImpl_does (m := ⟨h.cpu, h.bus, {}⟩) false

def coreAt (pc : BitVec 32) : Handling SystemControl :=
  ⟨(coreMachine pc).cpu, (coreMachine pc).bus, []⟩

lemma reaches_coreStep {P : Handling SystemControl → Happening → Prop} (pc : BitVec 32)
    (hP : ∀ h, P h .work) (n : Nat) : Reaches coreView P (coreStep^[n] (coreAt pc)) := by
  have hreaches : Reaches coreView P (coreStep^[n] (coreAt pc)) ∧
      (coreStep^[n] (coreAt pc)).activeStack = [] := by
    induction n with
    | zero => exact ⟨.start rfl rfl coreDevices_undisturbed, rfl⟩
    | succ n ih =>
      obtain ⟨hreaches, hstack⟩ := ih
      rw [Function.iterate_succ_apply']
      exact ⟨.move hreaches (.work (coreStep_kept hreaches.undisturbed))
        (fun h => absurd hstack h) (hP _), hstack⟩
  exact hreaches.1

lemma Move.of_raised (hraised : h.cpu.pendingException = some number)
    (hok : (settleException v.unit h).1 = .ok ()) :
    Move v h (.raised number) (settleException v.unit h).2 :=
  .raised hraised (Prod.ext hok rfl)

/-- An SVC outside of handlers, with no mask set, is entered in its turn. -/
theorem an_svc_outside_of_handlers_is_becoming :
    ∃ h h' : Handling SystemControl, Reaches coreView (Becoming coreView) h ∧
      Move coreView h (.raised svCall) h' ∧ coreView.Outranks h svCall ∧
      coreView.Open h svCall := by
  have hreaches : Reaches coreView (Becoming coreView) (coreStep^[1] (coreAt 0x08000002)) :=
    reaches_coreStep _ (fun _ => trivial) 1
  have hmove : Move coreView (coreStep^[1] (coreAt 0x08000002)) (.raised svCall)
      (settleException coreView.unit (coreStep^[1] (coreAt 0x08000002))).2 :=
    .of_raised (by decide +kernel) (by decide +kernel)
  have hmeets : Becoming coreView (coreStep^[1] (coreAt 0x08000002)) (.raised svCall) := by
    refine ⟨(allow_iff _ _ _).mp (by decide +kernel), .inl (by decide +kernel)⟩
  obtain ⟨houtranks, hopen⟩ := every_entered_exception_outranks_the_active_ones coreView _ _ _ _
    hreaches hmove hmeets rfl
  exact ⟨_, _, hreaches, hmove, houtranks, hopen⟩

/-- The core once an SVC with PRIMASK set is retired, in its handler, and once the
handler's own SVC is retired. -/
def maskedCall : Handling SystemControl := coreStep^[2] (coreAt 0x08000000)

def maskedHandler : Handling SystemControl := (settleException coreView.unit maskedCall).2

def nestedCall : Handling SystemControl := coreStep maskedHandler

/-- With PRIMASK set an SVC is entered all the same; in its handler a second one
is entered over the first, which is as urgent. -/
theorem an_svc_is_entered_under_a_mask_and_over_its_equal :
    Reaches coreView (fun _ _ => True) maskedCall ∧
      Move coreView maskedCall (.raised svCall) maskedHandler ∧
      ¬coreView.Open maskedCall svCall ∧
      Reaches coreView (fun _ _ => True) nestedCall ∧
      Move coreView nestedCall (.raised svCall) (settleException coreView.unit nestedCall).2 ∧
      ¬coreView.Outranks nestedCall svCall := by
  have hreaches : Reaches coreView (fun _ _ => True) maskedCall :=
    reaches_coreStep _ (fun _ => trivial) 2
  have hmove : Move coreView maskedCall (.raised svCall) maskedHandler :=
    .of_raised (by decide +kernel) (by decide +kernel)
  have hentered := hreaches.move hmove (fun h => absurd (by decide +kernel) h) trivial
  have hstate : nestedCall.bus.deviceState = maskedHandler.bus.deviceState := by decide +kernel
  have hagain : Reaches coreView (fun _ _ => True) nestedCall :=
    hentered.move (.work (coreStep_kept hentered.undisturbed)) (Fixed.of_deviceState hstate) trivial
  refine ⟨hreaches, hmove, fun h => ?_, hagain,
    .of_raised (by decide +kernel) (by decide +kernel), fun h => ?_⟩
  · exact absurd (h.primask (by decide +kernel)) (by decide)
  · exact absurd (h svCall (by decide +kernel)) (lt_irrefl _)

end Fil.Cortexm
