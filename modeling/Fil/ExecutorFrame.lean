-- What an instruction leaves alone. A relation between the core before and after
-- that each kind of write keeps is kept by whole instructions, however they end. No
-- instruction but IT leaves the Thumb state or touches the IT state, and only a
-- branch or a write to the PC moves the PC.
import Fil.CodeMemory
import Fil.ExecutorFacts
import Fil.FlagFacts
import Fil.Stepper

open Dialogue Fil.Mem Fil.Mem.MemoryBus

namespace Fil.Cpu

/-! ## Writes to the core -/

/-- The bits of the status that are flags: of the last result, and of byte sums. -/
def flagBits : BitVec 32 := 0xf80f0000

/-- A status with the same bits but for the flags. -/
def SameButFlags (x y : BitVec 32) : Prop := y &&& ~~~flagBits = x &&& ~~~flagBits

section Status

variable {x y flags : BitVec 32}

lemma SameButFlags.or (h : SameButFlags x y) (hf : flags &&& ~~~flagBits = 0) :
    SameButFlags x (y ||| flags) := by
  unfold SameButFlags
  rw [or_and, hf, h]
  exact BitVec.or_zero

lemma SameButFlags.or_ite {p : Prop} [Decidable p] (h : SameButFlags x y)
    (hf : flags &&& ~~~flagBits = 0) : SameButFlags x (if p then y ||| flags else y) := by
  split
  · exact h.or hf
  · exact h

lemma SameButFlags.clear (x : BitVec 32) (hf : ~~~flags &&& ~~~flagBits = ~~~flagBits) :
    SameButFlags x (x &&& ~~~flags) := by
  unfold SameButFlags
  rw [BitVec.and_assoc, hf]

lemma SameButFlags.bit (h : SameButFlags x y) : y.getLsbD 24 = x.getLsbD 24 := by
  have hbit := congrArg (fun z : BitVec 32 => z.getLsbD 24) h
  simpa [flagBits] using hbit

end Status

/-- A relation between the core before and after, kept by everything that an
instruction writes. Of the core registers it writes those that `writes` names. -/
structure Frame (R : CpuState → CpuState → Prop) (writes : Nat → Prop) : Prop where
  refl (s : CpuState) : R s s
  trans {s t u : CpuState} (h1 : R s t) (h2 : R t u) : R s u
  register (s : CpuState) {i : Nat} (v : BitVec 32) (h : writes i) : R s (s.writeRegister i v)
  core (s : CpuState) {i : Nat} (v : BitVec 32) (h : writes i) (hsp : i ≠ 13) : R s (s.setCore i v)
  branch {s t : CpuState} {v : BitVec 32} (h : writes 15) (ht : s.branchWritePc v = some t) : R s t
  /-- Where a write to the PC selects no Thumb state, the core halts. -/
  halt (s : CpuState) (h : writes 15) : R s { s with halted := true }
  single (s : CpuState) (i : Nat) (v : BitVec 32) : R s (s.setSingle i v)
  status (s : CpuState) {x : BitVec 32} (h : SameButFlags s.xpsr x) : R s { s with xpsr := x }
  claim (s : CpuState) : R s { s with control := s.control ||| 4 }
  /-- What stands aside from the registers and the status. -/
  aside (s : CpuState) {fpscr primask faultmask : BitVec 32} {fpLazyActive : Bool}
    {pendingExcReturn : Option (BitVec 32)} {pendingException : Option (BitVec 16)} :
    R s { s with fpscr, primask, faultmask, fpLazyActive, pendingExcReturn, pendingException }

def movesPc (d : DecodedInstruction) : Bool :=
  match d.kind with
  | .b | .bl | .bx | .blx | .cbz | .cbnz | .tbb | .tbh => true
  | .ldm | .pop => d.registerList.getLsbD 15
  | .mov | .add | .ldr => d.rd = 15
  | _ => false

/-- The kinds whose `rd` is a core register that they write. -/
def InstrKind.writesRd (k : InstrKind) : Bool :=
  !(k.floating || k = .cmp || k = .cmn || k = .tst)

/-- All core registers that an instruction can write are named. -/
structure WritesOnly (writes : Nat → Prop) (i : DecodedInstruction) : Prop where
  rd : i.kind.writesRd = true → writes i.rd
  second : i.kind = .umull ∨ i.kind = .smull ∨ i.kind = .ldrd → writes i.ra
  base : i.writeback = true → writes i.rn
  low : ∀ reg < 15, writes reg
  pc : movesPc i = true → writes 15

/-- However the program ends, the core is related to the one before. -/
abbrev Keeps (R : CpuState → CpuState → Prop) (s : CpuState) (p : BusM Executed) : Prop :=
  p.Every (fun _ => True) (fun e => R s e.cpu)

/-- A part of an instruction, with the core it leaves. -/
def PartKeeps (R : CpuState → CpuState → Prop) (s : CpuState) : Except Executed CpuState → Prop
  | .error failed => R s failed.cpu
  | .ok t => R s t

lemma every_true {α : Type} (p : BusM α) : p.Every (fun _ => True) (fun _ => True) := by
  induction p with
  | done x => trivial
  | ask request next ih => exact ⟨trivial, ih⟩

/-- A part that may fail, and what follows either way. -/
lemma every_attempt {ε α β : Type} {Q : β → Prop} {p : BusM (Except ε α)}
    {f : Except ε α → BusM β} (herror : ∀ e, (f (.error e)).Every (fun _ => True) Q)
    (hok : ∀ x, (f (.ok x)).Every (fun _ => True) Q) :
    (p >>= f).Every (fun _ => True) Q := by
  refine (every_true p).bind fun v _ => ?_
  cases v with
  | error e => exact herror e
  | ok x => exact hok x

lemma uadd8_flags (left right : BitVec 32) : (uadd8 left right).2 &&& ~~~flagBits = 0 := by
  have hflag : ∀ lane < 4, ((1 : BitVec 32) <<< (16 + lane)) &&& ~~~flagBits = 0 := by decide
  exact List.foldlRecOn (motive := fun acc : BitVec 32 × BitVec 32 => SameButFlags 0 acc.2) _ _ rfl
    fun _ hacc lane hlane => hacc.or_ite (hflag lane (List.mem_range.mp hlane))

/-! ## Every instruction -/

namespace Frame

variable {R : CpuState → CpuState → Prop} {writes : Nat → Prop} (F : Frame R writes)
  {i : DecodedInstruction} (hw : WritesOnly writes i) {s t u : CpuState}
include F

lemma setNz (s : CpuState) (v : BitVec 32) : R s (s.setNz v) :=
  F.status s (((SameButFlags.clear _ (by decide)).or_ite (by decide)).or_ite (by decide))

lemma setNzc (s : CpuState) (v : BitVec 32) (c : Bool) : R s (s.setNzc v c) :=
  F.trans (F.setNz s v) (F.status _ ((SameButFlags.clear _ (by decide)).or_ite (by decide)))

lemma setNzcv (s : CpuState) (r : AddResult) : R s (s.setNzcv r) :=
  F.status s (((((SameButFlags.clear _ (by decide)).or_ite (by decide)).or_ite
    (by decide)).or_ite (by decide)).or_ite (by decide))

omit F in
lemma ite {p : Prop} [Decidable p] (ht : R s t) (hu : R s u) : R s (if p then t else u) := by
  split
  · exact ht
  · exact hu

lemma flagged {p : Prop} [Decidable p] (ht : R s t) (hu : R t u) : R s (if p then u else t) :=
  ite (F.trans ht hu) ht

lemma loadPc {v : BitVec 32} (h : writes 15) (ht : Cpu.loadPc s v = some t) : R s t := by
  unfold Cpu.loadPc at ht
  split at ht
  · cases ht
    exact F.aside s
  · exact F.branch h ht

include hw

lemma writeBack (ht : R s t) (a : BitVec 32) : R s (writeBack i a t) := by
  unfold Cpu.writeBack
  split
  · rename_i hback
    exact F.trans ht (F.register t a (hw.base hback))
  · exact ht

lemma writeLoaded (s : CpuState) (loaded : List (Nat × BitVec 32)) :
    R s (writeLoaded s loaded) := by
  unfold Cpu.writeLoaded
  induction loaded generalizing s with
  | nil => exact F.refl s
  | cons x loaded ih =>
    rw [List.foldl_cons]
    refine F.trans ?_ (ih _)
    split
    · rename_i hlow
      exact F.register s x.2 (hw.low _ hlow)
    · exact F.refl s

section Kinds

variable (s) (hrd : writes i.rd)
include hrd

omit hw

lemma executeMov : R s (executeMov i s).cpu := by
  unfold Cpu.executeMov
  dsimp only
  split
  · rename_i hpc
    split
    · exact F.halt s (hpc ▸ hrd)
    · rename_i t ht
      exact F.flagged (F.branch (hpc ▸ hrd) ht) (F.setNzc t _ _)
  · exact F.flagged (F.register s _ hrd) (F.setNzc _ _ _)

lemma executeAdd : R s (executeAdd i s) := by
  refine F.flagged ?_ (F.setNzcv _ _)
  unfold writeAluResult
  split
  · rename_i hpc
    exact F.core s _ (hpc ▸ hrd) (by decide)
  · exact F.register s _ hrd

lemma executeUadd8 : R s (executeUadd8 i s) :=
  F.trans (F.register s _ hrd)
    (F.status _ ((SameButFlags.clear _ (by decide)).or (uadd8_flags _ _)))

lemma executeMrs : R s (executeMrs i s).cpu := by
  unfold Cpu.executeMrs
  dsimp only
  split
  · exact F.register s _ hrd
  · exact F.refl s

include hw

lemma executeLdr : Keeps R s (executeLdr i s) := by
  refine every_attempt (fun _ => F.refl s) fun value => ?_
  dsimp only
  split
  · rename_i hpc
    split
    · exact F.halt s (hpc ▸ hrd)
    · rename_i t ht
      exact F.writeBack hw (F.loadPc (hpc ▸ hrd) ht) _
  · exact F.writeBack hw (F.register s value hrd) _

lemma executeLoadPart : Keeps R s (executeLoadPart i s) := by
  refine every_attempt (fun _ => F.refl s) fun value => ?_
  dsimp only
  split
  · rename_i hpc
    split
    · exact F.halt s (hpc ▸ hrd)
    · rename_i t ht
      exact F.writeBack hw (F.branch (hpc ▸ hrd) ht) _
  · exact F.writeBack hw (F.register s _ hrd) _

lemma executeLdrd (hra : writes i.ra) : Keeps R s (executeLdrd i s) := by
  refine every_attempt (fun _ => F.refl s) fun first => ?_
  refine every_attempt (fun _ => F.refl s) fun second => ?_
  exact F.writeBack hw (F.trans (F.register s first hrd) (F.register _ second hra)) _

end Kinds

section

variable (s : CpuState)

lemma executeStore : Keeps R s (executeStore i s) :=
  every_attempt (fun _ => F.refl s) fun _ => F.writeBack hw (F.refl s) _

lemma executeStrd : Keeps R s (executeStrd i s) := by
  refine every_attempt (fun _ => F.refl s) fun _ => ?_
  exact every_attempt (fun _ => F.refl s) fun _ => F.writeBack hw (F.refl s) _

lemma executeLoadMultiple (hpc : i.registerList.getLsbD 15 = true → writes 15) :
    Keeps R s (executeLoadMultiple i s) := by
  refine every_attempt (fun _ => F.refl s) fun loaded => ?_
  have hloaded := F.writeBack hw (F.writeLoaded hw s loaded) (listEnd i s)
  dsimp only
  split
  · rename_i hlist
    split
    · exact F.trans hloaded (F.halt _ (hpc hlist))
    · rename_i t ht
      exact F.trans hloaded (F.loadPc (hpc hlist) ht)
  · exact hloaded

lemma executeStoreMultiple : Keeps R s (executeStoreMultiple i s) :=
  every_attempt (fun _ => F.refl s) fun _ => F.writeBack hw (F.refl s) _

end

omit hw

lemma loadSingles (context : AccessContext) (message : String) (count reg : Nat)
    (address : BitVec 32) (h : R s t) :
    (loadSingles context message count reg address t).Every (fun _ => True) (PartKeeps R s) := by
  induction count generalizing reg address t with
  | zero => exact h
  | succ count ih =>
    refine every_attempt (fun _ => h) fun value => ?_
    exact ih (reg + 1) (address + 4) (F.trans h (F.single t reg value))

lemma executeVfpScalar (s : CpuState) : Keeps R s (executeVfpScalar i s) := by
  unfold Cpu.executeVfpScalar
  dsimp only
  split
  · refine (F.loadSingles _ _ _ _ _ (F.refl s)).bind fun v hv => ?_
    cases v with
    | error failed => exact hv
    | ok t => exact hv
  · exact every_attempt (fun _ => F.refl s) fun _ => F.refl s

include hw in
lemma executeVfpMultiple (s : CpuState) : Keeps R s (executeVfpMultiple i s) := by
  unfold Cpu.executeVfpMultiple
  dsimp only
  split
  · refine (F.loadSingles _ _ _ _ _ (F.refl s)).bind fun v hv => ?_
    cases v with
    | error failed => exact hv
    | ok t => exact F.writeBack hw hv _
  · exact every_attempt (fun _ => F.refl s) fun _ => F.writeBack hw (F.refl s) _

lemma executeVfpData (fp : FpUnit) (s : CpuState)
    (h : i.kind = .vmovSingleToCore → writes i.rd) : R s (executeVfpData fp i s) := by
  unfold Cpu.executeVfpData
  split
  case h_2 hk => exact F.register s _ (h hk)
  case h_20 => exact F.aside s
  case h_21 => exact F.refl s
  all_goals exact F.single s _ _

section

variable (s : CpuState)

lemma executeVmrs : R s (executeVmrs s) :=
  F.status s ((SameButFlags.clear _ (by decide)).or (by
    rw [BitVec.and_assoc]
    exact BitVec.and_zero))

lemma executeCps : R s (executeCps i s) := by
  unfold Cpu.executeCps
  split_ifs <;> exact F.aside s

lemma executeBranchExchange (hlink : writes 14) (hpc : writes 15) :
    R s (executeBranchExchange i s).cpu := by
  have hlinked : R s (if i.kind = .blx then s.setCore 14 (s.pc ||| 1) else s) :=
    ite (F.core s _ hlink (by decide)) (F.refl s)
  unfold Cpu.executeBranchExchange
  dsimp only
  split
  · exact F.trans hlinked (F.aside _)
  split
  · exact F.trans hlinked (F.halt _ hpc)
  · rename_i t ht
    exact F.trans hlinked (F.branch hpc ht)

lemma flushLazyFrame : (flushLazyFrame s).Every (fun _ => True) (PartKeeps R s) := by
  refine every_attempt (fun _ => F.refl s) fun _ => ?_
  refine every_attempt (fun _ => F.refl s) fun _ => ?_
  exact every_attempt (fun _ => F.refl s) fun _ => F.aside s

lemma touchFp (aspen : Bool) : (touchFp aspen i s).Every (fun _ => True) (PartKeeps R s) := by
  have hclaim : R s (if aspen then { s with control := s.control ||| 4 } else s) :=
    ite (F.claim s) (F.refl s)
  unfold Cpu.touchFp
  generalize (if aspen then { s with control := s.control ||| 4 } else s) = t at hclaim ⊢
  split
  · dsimp only
    split
    · refine (F.flushLazyFrame t).mono fun v hv => ?_
      cases v with
      | error failed => exact F.trans hclaim hv
      | ok u => exact F.trans hclaim hv
    · exact hclaim
  · exact F.refl s

end

include hw

/-- Every instruction but three: IT, MSR and BKPT write something else. -/
lemma dispatch (fp : FpUnit) (s : CpuState) (hit : i.kind ≠ .it) (hmsr : i.kind ≠ .msr)
    (hbkpt : i.kind ≠ .bkpt) : Keeps R s (dispatch fp i s) := by
  have hpc : ∀ k, i.kind = k → (k = .b ∨ k = .bl ∨ k = .bx ∨ k = .blx ∨ k = .cbz ∨ k = .cbnz ∨
      k = .tbb ∨ k = .tbh) → writes 15 := by
    rintro k hk h
    refine hw.pc ?_
    rcases h with rfl | rfl | rfl | rfl | rfl | rfl | rfl | rfl <;> simp [movesPc, hk]
  have hrd : ∀ k, i.kind = k → k.writesRd = true → writes i.rd :=
    fun k hk h => hw.rd (hk ▸ h)
  have hwrite : ∀ k, i.kind = k → k.writesRd = true → ∀ v, R s (s.writeRegister i.rd v) :=
    fun k hk h v => F.register s v (hrd k hk h)
  unfold Cpu.dispatch
  cases hk : i.kind
  case it => exact absurd hk hit
  case msr => exact absurd hk hmsr
  case bkpt => exact absurd hk hbkpt
  case mov => exact F.executeMov s (hrd _ hk rfl)
  case add | adc | sub | sbc => exact F.executeAdd s (hrd _ hk rfl)
  case rsb => exact F.flagged (hwrite _ hk rfl _) (F.setNzcv _ _)
  case cmp | cmn => exact F.setNzcv s _
  case tst => exact F.setNzc s _ _
  case and_ | orr | eor | bic | mvn | orn | lsl | lsr | asr | ror | rrx =>
    exact F.flagged (hwrite _ hk rfl _) (F.setNzc _ _ _)
  case mul => exact F.flagged (hwrite _ hk rfl _) (F.setNz _ _)
  case umull | smull =>
    exact F.trans (hwrite _ hk rfl _) (F.register _ _ (hw.second (by simp [hk])))
  case uadd8 => exact F.executeUadd8 s (hrd _ hk rfl)
  case ldr => exact F.executeLdr hw s (hrd _ hk rfl)
  case str | strb | strh => exact F.executeStore hw s
  case ldrb | ldrh | ldrsb | ldrsh => exact F.executeLoadPart hw s (hrd _ hk rfl)
  case ldrd => exact F.executeLdrd hw s (hrd _ hk rfl) (hw.second (by simp [hk]))
  case strd => exact F.executeStrd hw s
  case pop | ldm => exact F.executeLoadMultiple hw s fun h => hw.pc (by simp [movesPc, hk, h])
  case push | stm => exact F.executeStoreMultiple hw s
  case b => exact F.core s _ (hpc _ hk (by simp)) (by decide)
  case bl =>
    exact F.trans (F.core s _ (hw.low 14 (by decide)) (by decide))
      (F.core _ _ (hpc _ hk (by simp)) (by decide))
  case bx | blx =>
    exact F.executeBranchExchange s (hw.low 14 (by decide)) (hpc _ hk (by simp))
  case tbb | tbh =>
    exact every_attempt (fun _ => F.refl s) fun entry => F.core s _ (hpc _ hk (by simp)) (by decide)
  case cbz | cbnz => exact ite (F.core s _ (hpc _ hk (by simp)) (by decide)) (F.refl s)
  case vldr | vstr => exact F.executeVfpScalar s
  case vldm | vstm => exact F.executeVfpMultiple hw s
  case vmrs => exact F.executeVmrs s
  case mrs => exact F.executeMrs s (hrd _ hk rfl)
  case cps => exact F.executeCps s
  case svc => exact F.aside s
  case nop | dmb | dsb | isb | wfi | wfe | sev | undefined => exact F.refl s
  case movw | movt | mla | mls | udiv | sdiv | sel | bfc | ubfx | uxtb | uxth | sxtb | sxth
    | clz | rev | rev16 | revsh => exact hwrite _ hk rfl _
  all_goals exact F.executeVfpData fp s fun h => hrd _ h rfl

end Frame

/-! ## In sequence -/

/-- A core that is as able to fetch as the one before it. -/
structure Steady (s t : CpuState) : Prop where
  halted : t.halted = s.halted
  thumb : s.thumb = true → t.thumb = true
  bit : s.xpsr.getLsbD 24 = true → t.xpsr.getLsbD 24 = true
  itState : t.itState = s.itState

structure Sequential (s t : CpuState) : Prop extends Steady s t where
  pc : t.pc = s.pc

section Sequential

variable {s t u : CpuState} {i : DecodedInstruction}

lemma Sequential.refl (s : CpuState) : Sequential s s := ⟨⟨rfl, id, id, rfl⟩, rfl⟩

lemma Steady.trans (h1 : Steady s t) (h2 : Steady t u) : Steady s u :=
  ⟨h2.halted.trans h1.halted, h2.thumb ∘ h1.thumb, h2.bit ∘ h1.bit, h2.itState.trans h1.itState⟩

lemma Sequential.trans (h1 : Sequential s t) (h2 : Sequential t u) : Sequential s u :=
  ⟨h1.toSteady.trans h2.toSteady, h2.pc.trans h1.pc⟩

lemma setCore_sequential (s : CpuState) {i : Nat} (v : BitVec 32) (hi : i ≠ 15) :
    Sequential s (s.setCore i v) := by
  unfold CpuState.setCore
  split
  · exact ⟨⟨rfl, id, id, rfl⟩, Function.update_of_ne (fun he => hi (congrArg Fin.val he).symm) _ _⟩
  · exact .refl s

lemma setActiveSp_sequential (s : CpuState) (v : BitVec 32) : Sequential s (s.setActiveSp v) := by
  unfold CpuState.setActiveSp
  split <;> exact ⟨⟨rfl, id, id, rfl⟩, rfl⟩

/-- Whatever does not write the PC goes on in sequence. -/
lemma sequentialFrame : Frame Sequential (· ≠ 15) where
  refl := .refl
  trans := .trans
  register s i v hi := by
    unfold CpuState.writeRegister
    split
    · exact (setActiveSp_sequential s v).trans (setCore_sequential _ v (by decide))
    · exact setCore_sequential s v hi
  core s i v hi _ := setCore_sequential s v hi
  branch h := absurd rfl h
  halt _ h := absurd rfl h
  single s i v := by
    unfold CpuState.setSingle
    split
    · exact ⟨⟨rfl, id, id, rfl⟩, rfl⟩
    · exact .refl s
  status s x h := ⟨⟨rfl, id, fun hbit => h.bit.trans hbit, rfl⟩, rfl⟩
  claim s := ⟨⟨rfl, id, id, rfl⟩, rfl⟩
  aside s := ⟨⟨rfl, id, id, rfl⟩, rfl⟩

lemma executeMsr_sequential (i : DecodedInstruction) (s : CpuState) :
    Sequential s (executeMsr i s).cpu := by
  have hplain : ∀ t : CpuState, t = { s with
      msp := t.msp, psp := t.psp, primask := t.primask, basepri := t.basepri,
      faultmask := t.faultmask, control := t.control } → Sequential s t := by
    intro t ht
    rw [ht]
    exact ⟨⟨rfl, id, id, rfl⟩, rfl⟩
  have hstack : ∀ (t : CpuState) v, Sequential s t → Sequential s (t.setCore 13 v) :=
    fun t v ht => ht.trans (setCore_sequential t v (by decide))
  unfold executeMsr
  split
  case h_1 => exact Frame.ite (hstack _ _ (hplain _ rfl)) (hplain _ rfl)
  case h_2 => exact Frame.ite (hplain _ rfl) (hstack _ _ (hplain _ rfl))
  case h_5 => exact Frame.ite (hplain _ rfl) (.refl s)
  all_goals exact hplain _ rfl

/-- If it completes, the core goes on in sequence. -/
def Executed.InSequence (s : CpuState) (e : Executed) : Prop :=
  e.reason = .stepComplete → Sequential s e.cpu

/-- Every end of the program goes on in sequence, if it completes. -/
abbrev StaysInSequence (s : CpuState) (p : BusM Executed) : Prop :=
  p.Every (fun _ => True) (Executed.InSequence s)

/-- An instruction that cannot move the PC does not write it either. -/
lemma writesOnly_of_still (hd : Wellformed i) (hpc : movesPc i = false) :
    WritesOnly (· ≠ 15) i where
  rd h h15 := by
    unfold movesPc at hpc
    rcases hd.destination h15 with he | he | he | he | he | he | he
    case inl | inr.inl | inr.inr.inr.inr.inr.inl =>
      rw [he] at hpc
      exact absurd h15 (by simpa using hpc)
    all_goals simp [InstrKind.writesRd, he] at h
  second := hd.second
  base := hd.base
  low reg hlt := by omega
  pc h := by
    rw [hpc] at h
    cases h

/-- An instruction that cannot move the PC goes on in sequence, whatever the bus
answers. -/
lemma execute_inSequence (fp : FpUnit) (aspen : Bool) (hd : Wellformed i)
    (hpc : movesPc i = false) (hit : i.kind ≠ .it) :
    StaysInSequence s (execute fp aspen i s) := by
  refine (sequentialFrame.touchFp s aspen).bind fun v hv => ?_
  cases v with
  | error failed => exact fun _ => hv
  | ok t =>
    suffices h : StaysInSequence t (dispatch fp i t) from
      h.mono fun e he hr => Sequential.trans hv (he hr)
    by_cases hmsr : i.kind = .msr
    · rw [dispatch, hmsr]
      exact fun _ => executeMsr_sequential i t
    by_cases hbkpt : i.kind = .bkpt
    · rw [dispatch, hbkpt]
      exact fun h => by cases h
    · exact (sequentialFrame.dispatch (writesOnly_of_still hd hpc) fp t hit hmsr hbkpt).mono
        fun e he _ => he

end Sequential

end Fil.Cpu
