-- The data accesses of an instruction, told from the core before it: which
-- addresses it reads and writes, in order. They do not depend on what the bus
-- answers, so an instruction asks for all of them or stops at the first one
-- that is refused.
import Fil.Stepper

open Dialogue Fil.Mem

namespace Fil.Cpu

variable {δ : Type}

/-! ## The accesses -/

/-- Words read upwards from an address. -/
def readWords (c : AccessContext) : Nat → BitVec 32 → List Request
  | 0, _ => []
  | count + 1, address => .read32 address c :: readWords c count (address + 4)

/-- Words written upwards from an address. -/
def writeWords (c : AccessContext) : List (BitVec 32) → BitVec 32 → List Request
  | [], _ => []
  | value :: rest, address => .write32 address value c :: writeWords c rest (address + 4)

def scalarAddress (i : DecodedInstruction) (s : CpuState) : BitVec 32 :=
  if i.add then transferBase i s + i.imm else transferBase i s - i.imm

def scalarWords (i : DecodedInstruction) : Nat := if i.fpDouble then 2 else 1

def vfpListStart (i : DecodedInstruction) (s : CpuState) : BitVec 32 :=
  if decrementBefore i then s.readRegister i.rn - i.imm * 4 else s.readRegister i.rn

/-- The data accesses of an instruction whose condition holds. -/
def transfers (i : DecodedInstruction) (s : CpuState) : List Request :=
  match i.kind with
  | .ldr => [.read32 (transferAddress i s) (readContext s)]
  | .ldrb | .ldrsb => [.read8 (transferAddress i s) (readContext s)]
  | .ldrh | .ldrsh => [.read16 (transferAddress i s) (readContext s)]
  | .str => [.write32 (transferAddress i s) (s.readRegister i.rd) (writeContext s)]
  | .strb => [.write8 (transferAddress i s) ((s.readRegister i.rd).setWidth 8) (writeContext s)]
  | .strh => [.write16 (transferAddress i s) ((s.readRegister i.rd).setWidth 16) (writeContext s)]
  | .ldrd => readWords (readContext s) 2 (pairAddress i s)
  | .strd => writeWords (writeContext s) [s.readRegister i.rd, s.readRegister i.ra] (pairAddress i s)
  | .pop | .ldm =>
    readWords (readContext s) (listedRegisters i.registerList).length (listStart i s)
  | .push | .stm =>
    writeWords (writeContext s) ((listedRegisters i.registerList).map s.readRegister)
      (listStart i s)
  | .tbb => [.read8 (s.readRegister i.rn + s.readRegister i.rm) (readContext s)]
  | .tbh => [.read16 (s.readRegister i.rn + s.readRegister i.rm * 2) (readContext s)]
  | .vldr => readWords (readContext s) (scalarWords i) (scalarAddress i s)
  | .vstr => writeWords (writeContext s) (storeSingles s i.rd (scalarWords i)) (scalarAddress i s)
  | .vldm => readWords (readContext s) i.imm.toNat (vfpListStart i s)
  | .vstm => writeWords (writeContext s) (storeSingles s i.rd i.imm.toNat) (vfpListStart i s)
  | _ => []

/-- The stores that push a reserved floating-point frame. -/
def flushTransfers (s : CpuState) : List Request :=
  writeWords (writeContext s) (lazyRegisters s) s.fpLazyBase ++
    [.write32 (s.fpLazyBase + 64) s.fpscr (writeContext s),
      .write32 (s.fpLazyBase + 68) 0 (writeContext s)]

/-- Whether an instruction finds a frame that is still to be pushed. -/
def flushes (i : DecodedInstruction) (s : CpuState) : Bool :=
  isFpRegisterAccess i.kind && s.inHandlerMode && s.fpLazyActive

/-- The bytes of an access, and whether it stores. -/
def Request.access : Request → AccessWatchEntry
  | .read8 a _ => ⟨a, 1, false⟩
  | .read16 a _ => ⟨a, 2, false⟩
  | .read32 a _ => ⟨a, 4, false⟩
  | .write8 a _ _ => ⟨a, 1, true⟩
  | .write16 a _ _ => ⟨a, 2, true⟩
  | .write32 a _ _ => ⟨a, 4, true⟩

/-- An access of the instruction at `pc` to its data. -/
def Request.OfData (pc : BitVec 32) : Request → Prop
  | .read8 _ c | .read16 _ c | .read32 _ c => c = ⟨.dataRead, pc⟩
  | .write8 _ _ c | .write16 _ _ c | .write32 _ _ c => c = ⟨.dataWrite, pc⟩

lemma readWords_ofData {pc : BitVec 32} (count : Nat) (address : BitVec 32) :
    ∀ r ∈ readWords ⟨.dataRead, pc⟩ count address, r.OfData pc := by
  induction count generalizing address with
  | zero => simp [readWords]
  | succ count ih => exact List.forall_mem_cons.mpr ⟨rfl, ih (address + 4)⟩

lemma writeWords_ofData {pc : BitVec 32} (values : List (BitVec 32)) (address : BitVec 32) :
    ∀ r ∈ writeWords ⟨.dataWrite, pc⟩ values address, r.OfData pc := by
  induction values generalizing address with
  | nil => simp [writeWords]
  | cons value rest ih => exact List.forall_mem_cons.mpr ⟨rfl, ih (address + 4)⟩

lemma transfers_ofData (i : DecodedInstruction) (s : CpuState) :
    ∀ r ∈ transfers i s, r.OfData s.instructionAddress := by
  cases hk : i.kind <;> simp only [transfers, hk]
  case ldrd | pop | ldm | vldr | vldm => exact readWords_ofData _ _
  case strd | push | stm | vstr | vstm => exact writeWords_ofData _ _
  case ldr | ldrb | ldrsb | ldrh | ldrsh | str | strb | strh | tbb | tbh =>
    exact List.forall_mem_singleton.mpr rfl
  all_goals exact List.forall_mem_nil _

/-! ## An instruction asks for its accesses -/

/-- An access that the bus served. -/
def Served (v : Answer) : Prop := ∃ value, v = .ok value

instance : DecidablePred Served := fun v =>
  match v with
  | .ok value => .isTrue ⟨value, rfl⟩
  | .error _ => .isFalse fun ⟨_, h⟩ => by cases h

/-- The end of an instruction that was refused an access. -/
def Refused (x : Executed) : Prop := x.reason = .busFault ∨ x.reason = .synchronizationRequired

/-- The end of an instruction that was given every access it asked for. -/
def Unrefused (x : Executed) : Prop := x.reason ≠ .busFault ∧ x.reason ≠ .synchronizationRequired

abbrev AsksFor (p : BusM Executed) (requests : List Request) : Prop :=
  Prog.Asks Served Unrefused Refused p requests

abbrev PartAsksFor {α β : Type} (failed : β → Prop) (p : BusM (Except β α))
    (requests : List Request) : Prop :=
  Prog.Asks Served (fun x => ∃ y, x = .ok y) (fun x => ∃ e, failed e ∧ x = .error e) p requests

variable (c : AccessContext) (s : CpuState)

lemma failBus_refused (f : BusFault) (message : String) : Refused (failBus s f message) := by
  unfold Refused failBus
  split <;> simp

lemma unrefused_complete : Unrefused (complete s) := by simp [Unrefused, complete]

lemma unrefused_failInvalid (message : String) :
    Unrefused (failInvalid s message) := by simp [Unrefused, failInvalid]

lemma access_asks {α : Type} {good bad : α → Prop} {request : Request} {requests : List Request}
    {f : Answer → BusM α} (ok : ∀ value, Prog.Asks Served good bad (f (.ok value)) requests)
    (error : ∀ fault, ∃ x, bad x ∧ f (.error fault) = .done x) :
    Prog.Asks Served good bad (Prog.query request >>= f) (request :: requests) := by
  refine .query ?_ fun v hv => ?_
  · rintro v ⟨value, rfl⟩
    exact ok value
  · cases v with
    | ok value => exact absurd ⟨value, rfl⟩ hv
    | error fault => exact error fault

lemma readEach_asks (regs : List Nat) (address : BitVec 32) :
    PartAsksFor (fun _ => True) (readEach c regs address) (readWords c regs.length address) := by
  induction regs generalizing address with
  | nil => exact .done ⟨_, rfl⟩
  | cons reg rest ih =>
    refine access_asks (fun _ => (ih (address + 4)).thenDone ?_ ?_)
      fun fault => ⟨_, ⟨fault, trivial, rfl⟩, rfl⟩
    · rintro x ⟨values, rfl⟩
      exact ⟨_, ⟨_, rfl⟩, rfl⟩
    · rintro x ⟨fault, -, rfl⟩
      exact ⟨_, ⟨fault, trivial, rfl⟩, rfl⟩

lemma writeEach_asks (values : List (BitVec 32)) (address : BitVec 32) :
    PartAsksFor (fun _ => True) (writeEach c values address) (writeWords c values address) := by
  induction values generalizing address with
  | nil => exact .done ⟨_, rfl⟩
  | cons value rest ih =>
    exact access_asks (fun _ => ih (address + 4)) fun fault => ⟨_, ⟨fault, trivial, rfl⟩, rfl⟩

lemma loadSingles_asks (message : String) (count reg : Nat) (address : BitVec 32) (s : CpuState) :
    PartAsksFor Refused (loadSingles c message count reg address s) (readWords c count address) := by
  induction count generalizing reg address s with
  | zero => exact .done ⟨_, rfl⟩
  | succ count ih =>
    exact access_asks (fun _ => ih (reg + 1) (address + 4) _)
      fun fault => ⟨_, ⟨_, failBus_refused _ fault message, rfl⟩, rfl⟩

lemma single_asks {request : Request} {f : Answer → BusM Executed}
    (ok : ∀ value, ∃ x, Unrefused x ∧ f (.ok value) = .done x)
    (error : ∀ fault, ∃ x, Refused x ∧ f (.error fault) = .done x) :
    AsksFor (Prog.query request >>= f) [request] := by
  refine access_asks (fun value => ?_) error
  obtain ⟨x, hx, hf⟩ := ok value
  rw [hf]
  exact .done hx

variable (i : DecodedInstruction) (s : CpuState)

lemma loaded_ends (pc : Prop) [Decidable pc] (target : Option CpuState) (s' : CpuState)
    (message : String) (f : CpuState → CpuState) :
    ∃ x, Unrefused x ∧
      (if pc then
        match target with
        | none => pure (failInvalid s message)
        | some t => pure (complete (f t))
      else pure (complete s') : BusM Executed) = .done x := by
  split
  · cases target with
    | none => exact ⟨_, unrefused_failInvalid _ _, rfl⟩
    | some t => exact ⟨_, unrefused_complete _, rfl⟩
  · exact ⟨_, unrefused_complete _, rfl⟩

lemma executeLdr_asks :
    AsksFor (executeLdr i s) [.read32 (transferAddress i s) (readContext s)] := by
  refine single_asks (fun value => ?_) fun fault => ⟨_, failBus_refused s fault _, rfl⟩
  exact loaded_ends ..

lemma executeStore_asks (hk : i.kind = .str ∨ i.kind = .strb ∨ i.kind = .strh) :
    AsksFor (executeStore i s) (transfers i s) := by
  unfold executeStore transfers
  rcases hk with hk | hk | hk <;> rw [hk] <;>
    exact single_asks (fun _ => ⟨_, unrefused_complete _, rfl⟩)
      fun fault => ⟨_, failBus_refused s fault _, rfl⟩

lemma executeLoadPart_asks
    (hk : i.kind = .ldrb ∨ i.kind = .ldrsb ∨ i.kind = .ldrh ∨ i.kind = .ldrsh) :
    AsksFor (executeLoadPart i s) (transfers i s) := by
  unfold executeLoadPart transfers
  rcases hk with hk | hk | hk | hk <;> rw [hk] <;>
    exact single_asks (fun value => loaded_ends ..)
      fun fault => ⟨_, failBus_refused s fault _, rfl⟩

lemma executeLdrd_asks :
    AsksFor (executeLdrd i s) (readWords (readContext s) 2 (pairAddress i s)) := by
  refine access_asks (fun _ => single_asks ?_ ?_) ?_
  · exact fun _ => ⟨_, unrefused_complete _, rfl⟩
  all_goals exact fun fault => ⟨_, failBus_refused s fault _, rfl⟩

lemma executeStrd_asks :
    AsksFor (executeStrd i s)
      (writeWords (writeContext s) [s.readRegister i.rd, s.readRegister i.ra] (pairAddress i s)) := by
  refine access_asks (fun _ => single_asks ?_ ?_) ?_
  · exact fun _ => ⟨_, unrefused_complete _, rfl⟩
  all_goals exact fun fault => ⟨_, failBus_refused s fault _, rfl⟩

lemma executeLoadMultiple_asks :
    AsksFor (executeLoadMultiple i s)
      (readWords (readContext s) (listedRegisters i.registerList).length (listStart i s)) := by
  refine (readEach_asks _ _ _).thenDone ?_ ?_
  · rintro x ⟨loaded, rfl⟩
    exact loaded_ends ..
  · rintro x ⟨fault, -, rfl⟩
    exact ⟨_, failBus_refused s fault _, rfl⟩

lemma storeWords_asks (c : AccessContext) (values : List (BitVec 32)) (address : BitVec 32)
    (message : String) (s' : CpuState) :
    AsksFor
      (do
        match ← writeEach c values address with
        | .error fault => return failBus s fault message
        | .ok _ => return complete s')
      (writeWords c values address) := by
  refine (writeEach_asks c values address).thenDone ?_ ?_
  · rintro x ⟨_, rfl⟩
    exact ⟨_, unrefused_complete _, rfl⟩
  · rintro x ⟨fault, -, rfl⟩
    exact ⟨_, failBus_refused s fault _, rfl⟩

lemma loadSingles_ends_asks (c : AccessContext) (message : String) (count reg : Nat)
    (address : BitVec 32) (f : CpuState → CpuState) :
    AsksFor
      (do
        match ← loadSingles c message count reg address s with
        | .error failed => return failed
        | .ok s => return complete (f s))
      (readWords c count address) := by
  refine (loadSingles_asks c message count reg address s).thenDone ?_ ?_
  · rintro x ⟨_, rfl⟩
    exact ⟨_, unrefused_complete _, rfl⟩
  · rintro x ⟨failed, hfailed, rfl⟩
    exact ⟨_, hfailed, rfl⟩

lemma executeTableBranch_asks (hk : i.kind = .tbb ∨ i.kind = .tbh) :
    AsksFor (executeTableBranch i s) (transfers i s) := by
  unfold executeTableBranch transfers
  rcases hk with hk | hk <;> rw [hk] <;>
    exact single_asks (fun _ => ⟨_, unrefused_complete _, rfl⟩)
      fun fault => ⟨_, failBus_refused s fault _, rfl⟩

lemma executeVfpScalar_asks (hk : i.kind = .vldr ∨ i.kind = .vstr) :
    AsksFor (executeVfpScalar i s) (transfers i s) := by
  unfold executeVfpScalar transfers
  rcases hk with hk | hk <;> rw [hk]
  · exact loadSingles_ends_asks s _ _ _ _ _ id
  · exact storeWords_asks s _ _ _ _ s

lemma executeVfpMultiple_asks (hk : i.kind = .vldm ∨ i.kind = .vstm) :
    AsksFor (executeVfpMultiple i s) (transfers i s) := by
  unfold executeVfpMultiple transfers
  rcases hk with hk | hk <;> rw [hk]
  · exact loadSingles_ends_asks s _ _ _ _ _ _
  · exact storeWords_asks s _ _ _ _ _

lemma stays_asks {x : Executed} (hx : Unrefused x) : AsksFor (pure x) [] := .done hx

lemma executeMov_unrefused : Unrefused (executeMov i s) := by
  unfold executeMov
  dsimp only
  split
  · cases s.branchWritePc (shiftedOperand i s).value with
    | none => exact unrefused_failInvalid _ _
    | some s' => exact unrefused_complete _
  · exact unrefused_complete _

lemma executeBranchExchange_unrefused : Unrefused (executeBranchExchange i s) := by
  unfold executeBranchExchange
  dsimp only
  split
  · exact unrefused_complete _
  · split
    · exact unrefused_failInvalid _ _
    · exact unrefused_complete _

lemma executeMrs_unrefused : Unrefused (executeMrs i s) := by
  unfold executeMrs
  dsimp only
  split
  · exact unrefused_complete _
  · simp [Unrefused]

lemma executeMsr_unrefused : Unrefused (executeMsr i s) := by
  unfold executeMsr
  split <;> first | exact unrefused_complete _ | simp [Unrefused]

lemma executeIt_unrefused : Unrefused (executeIt i s) := by
  unfold executeIt
  split
  · exact unrefused_failInvalid _ _
  · exact unrefused_complete _

/-- Every instruction asks for its data accesses, until one is refused. -/
lemma dispatch_asks (fp : FpUnit) : AsksFor (dispatch fp i s) (transfers i s) := by
  unfold dispatch
  cases hk : i.kind
  case ldr => simpa only [transfers, hk] using executeLdr_asks i s
  case str | strb | strh => exact executeStore_asks i s (by simp [hk])
  case ldrb | ldrh | ldrsb | ldrsh => exact executeLoadPart_asks i s (by simp [hk])
  case ldrd => simpa only [transfers, hk] using executeLdrd_asks i s
  case strd => simpa only [transfers, hk] using executeStrd_asks i s
  case pop | ldm => simpa only [transfers, hk] using executeLoadMultiple_asks i s
  case push | stm =>
    simp only [transfers, hk]
    exact storeWords_asks s _ _ _ _ _
  case tbb | tbh => exact executeTableBranch_asks i s (by simp [hk])
  case vldr | vstr => exact executeVfpScalar_asks i s (by simp [hk])
  case vldm | vstm => exact executeVfpMultiple_asks i s (by simp [hk])
  case mov => simpa only [transfers, hk] using stays_asks (executeMov_unrefused i s)
  case bx | blx => simpa only [transfers, hk] using stays_asks (executeBranchExchange_unrefused i s)
  case mrs => simpa only [transfers, hk] using stays_asks (executeMrs_unrefused i s)
  case msr => simpa only [transfers, hk] using stays_asks (executeMsr_unrefused i s)
  case it => simpa only [transfers, hk] using stays_asks (executeIt_unrefused i s)
  case bkpt => simpa only [transfers, hk] using stays_asks (x := executeBkpt i s) (by
    simp [Unrefused, executeBkpt])
  case undefined =>
    simpa only [transfers, hk] using stays_asks (x := ⟨.undefinedInstruction, s,
      some ⟨none, "decoded instruction has no executor"⟩⟩) (by simp [Unrefused])
  all_goals simpa only [transfers, hk] using stays_asks (unrefused_complete _)

lemma flushLazyFrame_asks :
    Prog.Asks Served (fun x => x = .ok { s with fpLazyActive := false })
      (fun x => ∃ e, Refused e ∧ x = .error e) (flushLazyFrame s) (flushTransfers s) := by
  refine (writeEach_asks _ _ _).bind ?_ ?_
  · rintro x ⟨_, rfl⟩
    refine access_asks (fun _ => access_asks (fun _ => .done rfl) ?_) ?_
    all_goals exact fun fault => ⟨_, ⟨_, failBus_refused s fault _, rfl⟩, rfl⟩
  · rintro x ⟨fault, -, rfl⟩
    exact ⟨_, ⟨_, failBus_refused s fault _, rfl⟩, rfl⟩

/-! ## A touch of the floating-point registers -/

variable {i s}

/-- The accesses depend on the registers, the carry and the address of the
instruction only. -/
lemma transfers_congr {t : CpuState} (hregister : t.readRegister = s.readRegister)
    (hxpsr : t.xpsr = s.xpsr) (haddress : t.instructionAddress = s.instructionAddress)
    (hsingle : t.s = s.s) : transfers i t = transfers i s := by
  unfold transfers transferAddress pairAddress listStart scalarAddress vfpListStart offsetAddress
    pairOffsetAddress storeSingles transferOffset transferBase readContext writeContext
    CpuState.architecturalPcForRead CpuState.currentInstrAddr CpuState.carryFlag CpuState.single
  rw [hregister, hxpsr, haddress, hsingle]

lemma readRegister_claimed :
    CpuState.readRegister { s with control := s.control ||| 4 } = s.readRegister := by
  have hbit : (s.control ||| 4) &&& 2 = s.control &&& 2 := by
    rw [BitVec.and_or_distrib_right]
    simp
  funext index
  unfold CpuState.readRegister CpuState.activeSp CpuState.usesMsp
  rw [hbit]
  rfl

lemma transfers_touched (aspen : Bool) :
    transfers i (if aspen then { s with control := s.control ||| 4 } else s) = transfers i s := by
  cases aspen with
  | false => rfl
  | true => exact transfers_congr readRegister_claimed rfl rfl rfl

lemma claimed_frame (aspen : Bool) (s : CpuState) :
    let t := if aspen then { s with control := s.control ||| 4 } else s
    t.inHandlerMode = s.inHandlerMode ∧ t.fpLazyActive = s.fpLazyActive ∧
      flushTransfers t = flushTransfers s ∧ t.s = s.s := by
  cases aspen <;> exact ⟨rfl, rfl, rfl, rfl⟩

/-- A whole instruction: the frame that is still to be pushed, then its own
accesses. -/
lemma execute_asks (fp : FpUnit) (aspen : Bool) :
    AsksFor (execute fp aspen i s)
      ((if flushes i s then flushTransfers s else []) ++ transfers i s) := by
  unfold execute touchFp flushes
  split
  · rename_i hfp
    rw [hfp, Bool.true_and]
    obtain ⟨hmode, hactive, hflush, -⟩ := claimed_frame aspen s
    dsimp only
    rw [hmode, hactive, ← hflush, ← transfers_touched (i := i) (s := s) aspen]
    split
    · refine (flushLazyFrame_asks _).bind ?_ ?_
      · rintro x rfl
        exact dispatch_asks i _ fp
      · rintro x ⟨failed, hfailed, rfl⟩
        exact ⟨_, hfailed, rfl⟩
    · exact dispatch_asks i _ fp
  · rename_i hfp
    rw [Bool.eq_false_iff.mpr hfp]
    exact dispatch_asks i s fp

end Fil.Cpu
