-- The stack helpers of native traces. They move a whole frame at once, a pop
-- straight from the bytes of the host if a window shows them. They agree with
-- PUSH and POP, but for three kinds of pop: the frame begins before the window and
-- ends in it, the target is a token of an extended frame, or a declined pop has
-- logged its reads.
import Fil.FastPaths
import Fil.StepRefinement

open ByteLanes Dialogue Fil.Mem Fil.Mem.MemoryBus List
open BitVec (getLsbD_and ofNat toNat_add toNat_ofNat toNat_setWidth toNat_sub)
open Fil.Cpu.CpuState (branchWritePc readRegister setActiveSp setCore setPc writeRegister)

namespace Fil.Cpu

variable {δ : Type}

/-! ## The direct read window -/

/-- A window on the bytes of a region. `bytes` is what the host has at a distance
from the first byte. Distances wrap at 64 bits, so those before the region are the
largest. -/
structure DirectReadWindow where
  bytes : BitVec 64 → BitVec 8
  begin : BitVec 32
  size : BitVec 32

def windowRegion (probe : BitVec 32) (b : MemoryBus δ) : Option Region :=
  if b.readFootprintTracking then none
  else (b.map.find probe).filter fun region => region.info.readable && region.backed

/-- The window on a region. Around it stands what the host has there. -/
def regionWindow (host : BitVec 64 → BitVec 8) (region : Region) (b : MemoryBus δ) :
    DirectReadWindow :=
  { bytes := fun offset =>
      if offset.toNat < region.info.size.toNat then
        b.bytes (region.info.base + offset.setWidth 32)
      else host offset
    begin := region.info.base
    size := region.info.size }

/-- The window at a probed address. -/
def directReadWindow (host : BitVec 64 → BitVec 8) (probe : BitVec 32) (b : MemoryBus δ) :
    Option DirectReadWindow :=
  (windowRegion probe b).map (regionWindow host · b)

/-- The distance of an address from the first byte of a window. -/
def windowOffset (begin start : BitVec 32) : BitVec 64 := start.setWidth 64 - begin.setWidth 64

/-- The bounds test, in the wrapping arithmetic of the host. -/
def windowCovers (begin size start : BitVec 32) (bytes : Nat) : Bool :=
  (windowOffset begin start + BitVec.ofNat 64 bytes).toNat ≤ size.toNat

namespace DirectReadWindow

def covers (w : DirectReadWindow) (start : BitVec 32) (bytes : Nat) : Bool :=
  windowCovers w.begin w.size start bytes

/-- A word of the frame at `start`. -/
def word (w : DirectReadWindow) (start : BitVec 32) (n : Nat) : BitVec 32 :=
  (littleEndian (fun distance => w.bytes (windowOffset w.begin start + distance.setWidth 64))
    (BitVec.ofNat 32 (n * 4)) 4).setWidth 32

end DirectReadWindow

/-! ## The helpers -/

inductive NativeStackResult
  | success
  | memoryDeclined
  | branchMismatch
  | dynamicReturn
  deriving DecidableEq

/-- The registers of a list, lowest first, or none if the list is refused. -/
structure NativeStackPlan where
  registers : List Nat
  push : Bool
  deriving DecidableEq

namespace NativeStackPlan

def refuses (mask : BitVec 32) (push : Bool) : Bool :=
  mask == 0 || mask &&& 0xffff0000 != 0 || mask.getLsbD 13 || (push && mask.getLsbD 15)
    || (!push && mask &&& 0xc000 == 0xc000)

def ofMask (mask : BitVec 32) (push : Bool) : NativeStackPlan :=
  ⟨if refuses mask push then [] else listedRegisters (mask.setWidth 16), push⟩

def count (plan : NativeStackPlan) : Nat := plan.registers.length

def loadsPc (plan : NativeStackPlan) : Bool := !plan.push && plan.registers.getLast? == some 15

end NativeStackPlan

/-- What a native trace gives its helpers. -/
structure NativeExecutionContext where
  window : Option DirectReadWindow := none
  allowDynamicReturns : Bool := true

structure StackTransfer (δ : Type) where
  result : NativeStackResult
  cpu : CpuState
  bus : MemoryBus δ

def nativePushTransferPrepared (pc : BitVec 32) (plan : NativeStackPlan) (s : CpuState)
    (b : MemoryBus δ) : StackTransfer δ :=
  let bytes := plan.count * 4
  if !plan.push || plan.count = 0 || s.activeSp.toNat < bytes then ⟨.memoryDeclined, s, b⟩
  else
    let start := s.activeSp - BitVec.ofNat 32 bytes
    match b.tryFastWriteWords start (plan.registers.map s.core) ⟨.dataWrite, pc⟩ true with
    | none => ⟨.memoryDeclined, s, b⟩
    | some b => ⟨.success, s.writeRegister 13 start, b⟩

def popFrame (window : Option DirectReadWindow) (pc : BitVec 32) (count : Nat)
    (start : BitVec 32) (b : MemoryBus δ) : Option (List (BitVec 32) × MemoryBus δ) :=
  match window.filter (·.covers start (count * 4)) with
  | some w => some ((List.range count).map (w.word start), b)
  | none => b.tryFastReadWords start count ⟨.dataRead, pc⟩

/-- A return target that is left to the interpreter. -/
def refusesTarget (target : BitVec 32) : Bool :=
  target &&& 0xfffffff0 == 0xfffffff0 || target &&& 1 == 0

/-- The core once the words of a frame are in their registers, all but the PC. -/
def popRegisters (plan : NativeStackPlan) (words : List (BitVec 32)) (s : CpuState) : CpuState :=
  let ordinaryCount := plan.count - (if plan.loadsPc then 1 else 0)
  let loaded := ((plan.registers.zip words).take ordinaryCount).foldl
    (fun s x => s.setCore x.1 x.2) s
  loaded.writeRegister 13 (s.activeSp + BitVec.ofNat 32 (plan.count * 4))

def commitFrame (plan : NativeStackPlan) (words : List (BitVec 32)) (target : BitVec 32)
    (s : CpuState) : CpuState :=
  if plan.loadsPc then (popRegisters plan words s).setPc (target &&& ~~~1)
  else popRegisters plan words s

/-- A pop whose frame was read. The bus `after` the reads is given back its
footprint if the target is refused. -/
def popWords (allowDynamicReturns : Bool) (plan : NativeStackPlan) (expectedPc : BitVec 32)
    (words : List (BitVec 32)) (after : MemoryBus δ) (s : CpuState) (b : MemoryBus δ) :
    StackTransfer δ :=
  let undone := if b.readFootprintTracking then { after with readFootprint := b.readFootprint }
    else after
  let target := words.getD (plan.count - 1) 0
  let alternate := plan.loadsPc && target &&& ~~~1 != expectedPc
  if plan.loadsPc && refusesTarget target then ⟨.memoryDeclined, s, undone⟩
  else if alternate && !allowDynamicReturns then ⟨.branchMismatch, s, undone⟩
  else ⟨if alternate then .dynamicReturn else .success, commitFrame plan words target s, after⟩

def nativeStackTransferPrepared (c : NativeExecutionContext) (pc : BitVec 32)
    (plan : NativeStackPlan) (expectedPc : BitVec 32) (s : CpuState) (b : MemoryBus δ) :
    StackTransfer δ :=
  if plan.push then nativePushTransferPrepared pc plan s b
  else if plan.count = 0 then ⟨.memoryDeclined, s, b⟩
  else
    match popFrame c.window pc plan.count s.activeSp b with
    | none => ⟨.memoryDeclined, s, b⟩
    | some (words, after) => popWords c.allowDynamicReturns plan expectedPc words after s b

def nativeStackTransfer (c : NativeExecutionContext) (pc mask : BitVec 32) (push : Bool)
    (expectedPc : BitVec 32) (s : CpuState) (b : MemoryBus δ) : StackTransfer δ :=
  nativeStackTransferPrepared c pc (.ofMask mask push) expectedPc s b

/-! ## What is asked of them -/

/-- The PUSH or POP of a register list. -/
def stackInstruction (mask : BitVec 32) (push : Bool) : DecodedInstruction :=
  { kind := if push then .push else .pop, form := .registerList
    registerList := mask.setWidth 16, rn := 13, writeback := true, add := !push, index := push }

/-- The core as a native trace keeps it: in Thumb state, with no address of its
instruction. -/
def traced (s : CpuState) : CpuState :=
  { s with instructionAddress := 0, thumb := true, xpsr := s.xpsr ||| xpsrT }

/-- A transfer `t` that agrees with the instruction, leaves everything alone if it
declines, and is the same as `t'`. -/
structure Agrees (env : Environment δ) (pc mask : BitVec 32) (push : Bool) (s : CpuState)
    (b : MemoryBus δ) (t t' : StackTransfer δ) : Prop where
  commits : t.result = .success ∨ t.result = .dynamicReturn →
    ∃ s', (executeOn env (stackInstruction mask push) { s with instructionAddress := pc } b).1 =
        complete s' ∧ traced s' = traced t.cpu ∧
      Alike (executeOn env (stackInstruction mask push) { s with instructionAddress := pc } b).2
        t.bus
  declines : t.result = .memoryDeclined ∨ t.result = .branchMismatch → t.cpu = s ∧ t.bus = b
  windowless : t.result = t'.result ∧ t.cpu = t'.cpu ∧ Alike t.bus t'.bus

/-- A transfer with a window agrees with the instruction and with the transfer
without one. -/
def Right (env : Environment δ) (c : NativeExecutionContext) (pc mask : BitVec 32) (push : Bool)
    (expectedPc : BitVec 32) (s : CpuState) (b : MemoryBus δ) : Prop :=
  Agrees env pc mask push s b (nativeStackTransfer c pc mask push expectedPc s b)
    (nativeStackTransfer { c with window := none } pc mask push expectedPc s b)

/-! ## Register lists -/

variable (list : BitVec 16)

abbrev belowPc : List Nat := (List.range 15).filter (list.getLsbD ·)

lemma listedRegisters_eq :
    listedRegisters list = belowPc list ++
      if list.getLsbD 15 then [15] else [] := by
  unfold listedRegisters
  rw [range_succ, filter_append, filter_singleton, Bool.cond_eq_ite]

variable {reg : Nat}

lemma mem_listedRegisters {list : BitVec 16} :
    reg ∈ listedRegisters list ↔ reg < 16 ∧ list.getLsbD reg = true := by
  simp [listedRegisters]

lemma listedRegisters_nodup : (listedRegisters list).Nodup :=
  nodup_range.filter _

lemma getLast_listedRegisters :
    (listedRegisters list).getLast? = some 15 ↔ list.getLsbD 15 = true := by
  constructor
  · intro h
    exact (mem_listedRegisters.mp (mem_of_getLast? h)).2
  · intro h
    rw [listedRegisters_eq, if_pos h]
    simp

structure Takes (plan : NativeStackPlan) (list : BitVec 16) : Prop where
  registers : plan.registers = listedRegisters list
  noSp : list.getLsbD 13 = false
  noPc : plan.push = true → list.getLsbD 15 = false

variable {mask : BitVec 32}

lemma ofMask_takes {push : Bool}
    (h : (NativeStackPlan.ofMask mask push).count ≠ 0) :
    Takes (.ofMask mask push) (mask.setWidth 16) := by
  unfold NativeStackPlan.count NativeStackPlan.ofMask at h
  cases hrefuses : NativeStackPlan.refuses mask push with
  | true =>
    rw [hrefuses] at h
    exact absurd rfl h
  | false =>
    refine ⟨by simp [NativeStackPlan.ofMask, hrefuses], ?_, fun hpush => ?_⟩
    · simp [NativeStackPlan.refuses] at hrefuses
      simpa using hrefuses.1.1.2
    · simp [NativeStackPlan.refuses] at hrefuses
      simpa using hrefuses.1.2 hpush

structure Pops (plan : NativeStackPlan) (list : BitVec 16) : Prop extends Takes plan list where
  pop : plan.push = false
  some : plan.count ≠ 0

lemma ofMask_pops (h : (NativeStackPlan.ofMask mask false).count ≠ 0) :
    Pops (.ofMask mask false) (mask.setWidth 16) := ⟨ofMask_takes h, rfl, h⟩

section Lists

variable {plan : NativeStackPlan} {list : BitVec 16}

namespace Takes

lemma count_eq (h : Takes plan list) : plan.count = popcount list := by
  rw [NativeStackPlan.count, h.registers]
  rfl

lemma most (h : Takes plan list) : plan.count ≤ 16 := by
  rw [h.count_eq]
  exact (length_filter_le _ _).trans (by simp)

lemma ne_sp (h : Takes plan list) (hreg : reg ∈ listedRegisters list) : reg ≠ 13 := by
  rintro rfl
  have hbit := (mem_listedRegisters.mp hreg).2
  rw [h.noSp] at hbit
  cases hbit

end Takes

namespace Pops

variable (h : Pops plan list)
include h

lemma loadsPc_eq : plan.loadsPc = list.getLsbD 15 := by
  rw [NativeStackPlan.loadsPc, h.pop, h.registers, Bool.eq_iff_iff]
  simp [getLast_listedRegisters]

lemma listed_eq :
    listedRegisters list = belowPc list ++
        (if plan.loadsPc then [15] else []) ∧
      (belowPc list).length = plan.count - (if plan.loadsPc then 1 else 0) := by
  have hlist := listedRegisters_eq list
  rw [← h.loadsPc_eq] at hlist
  refine ⟨hlist, ?_⟩
  rw [h.count_eq, popcount, hlist]
  cases plan.loadsPc <;> simp

lemma writeLoaded_eq (s : CpuState) (words : List (BitVec 32)) :
    writeLoaded s ((listedRegisters list).zip words) =
      (((listedRegisters list).zip words).take
        (plan.count - (if plan.loadsPc then 1 else 0))).foldl (fun s x => s.setCore x.1 x.2) s := by
  obtain ⟨hlist, hlength⟩ := h.listed_eq
  have htake : (listedRegisters list).take (plan.count - (if plan.loadsPc then 1 else 0)) =
      belowPc list := by
    rw [hlist, ← hlength, take_left']
    rfl
  have hdrop : (listedRegisters list).drop (plan.count - (if plan.loadsPc then 1 else 0)) =
      if plan.loadsPc then [15] else [] := by
    rw [hlist, ← hlength, drop_left']
    rfl
  have hskip : ∀ (l : List (Nat × BitVec 32)) (t : CpuState), (∀ x ∈ l, x.1 = 15) →
      l.foldl (fun s x => if x.1 < 15 then s.writeRegister x.1 x.2 else s) t = t := by
    refine fun l t hl => foldlRecOn (motive := (· = t)) _ _ rfl fun u hu x hx => ?_
    rw [if_neg (by have := hl x hx; omega), hu]
  unfold writeLoaded
  rw [← take_append_drop (plan.count - (if plan.loadsPc then 1 else 0))
    ((listedRegisters list).zip words), foldl_append, hskip, take_append_drop]
  · refine foldl_ext _ _ s fun t x hx => ?_
    rw [zip, take_zipWith, htake] at hx
    have hreg := (of_mem_zip (a := x.1) (b := x.2) hx).1
    rw [mem_filter, mem_range] at hreg
    have hsp : x.1 ≠ 13 := h.ne_sp (mem_listedRegisters.mpr ⟨by omega, hreg.2⟩)
    rw [if_pos hreg.1, writeRegister, if_neg hsp]
  · intro x hx
    rw [zip, drop_zipWith, hdrop] at hx
    have hreg := (of_mem_zip (a := x.1) (b := x.2) hx).1
    split at hreg
    · exact mem_singleton.mp hreg
    · cases hreg

lemma loadedFor_pc (hpc : plan.loadsPc = true) {words : List (BitVec 32)}
    (hwords : words.length = plan.count) :
    loadedFor ((listedRegisters list).zip words) 15 = words.getD (plan.count - 1) 0 := by
  obtain ⟨hlist, hlength⟩ := h.listed_eq
  rw [hpc, if_pos rfl] at hlist hlength
  obtain rfl | ⟨first, last, rfl⟩ := eq_nil_or_concat' words
  · exact absurd hwords.symm h.some
  rw [length_append, length_singleton] at hwords
  have hfirst : (belowPc list).length = first.length := by omega
  have hnone : ((belowPc list).zip first).find? (fun x => decide (x.1 = 15)) = none := by
    rw [find?_eq_none]
    intro x hx
    have hreg := (of_mem_zip (a := x.1) (b := x.2) hx).1
    rw [mem_filter, mem_range] at hreg
    simp
    omega
  unfold loadedFor
  rw [hlist, zip_append hfirst, find?_append, hnone, ← hwords]
  simp

end Pops

end Lists

/-! ## The core after a pop -/

/-- The core at the address of its instruction. -/
abbrev placed (s : CpuState) (pc : BitVec 32) : CpuState := { s with instructionAddress := pc }

lemma setCore_address (s : CpuState) (pc : BitVec 32) (reg : Nat) (value : BitVec 32) :
    (placed s pc).setCore reg value = placed (s.setCore reg value) pc := by
  unfold setCore
  split <;> rfl

lemma foldl_setCore_address (loaded : List (Nat × BitVec 32)) (s : CpuState) (pc : BitVec 32) :
    loaded.foldl (fun s x => s.setCore x.1 x.2) (placed s pc) =
      placed (loaded.foldl (fun s x => s.setCore x.1 x.2) s) pc := by
  induction loaded generalizing s with
  | nil => rfl
  | cons x xs ih =>
    rw [foldl_cons, setCore_address, ih]
    rfl

lemma writeSp_address (s : CpuState) (pc value : BitVec 32) :
    (placed s pc).writeRegister 13 value = placed (s.writeRegister 13 value) pc := by
  have hbank : (placed s pc).setActiveSp value = placed (s.setActiveSp value) pc := by
    unfold setActiveSp
    cases hmsp : s.usesMsp
    · exact (if_neg (hmsp ▸ Bool.false_ne_true)).trans (by rw [if_neg Bool.false_ne_true])
    · exact (if_pos hmsp).trans (by rw [if_pos rfl])
  rw [writeRegister, if_pos rfl, hbank, setCore_address]
  rfl

lemma Pops.popRegisters_eq {plan : NativeStackPlan}
    (h : Pops plan (mask.setWidth 16)) (s : CpuState) (pc : BitVec 32)
    (words : List (BitVec 32)) :
    writeBack (stackInstruction mask false)
        (listEnd (stackInstruction mask false) (placed s pc))
        (writeLoaded (placed s pc) (spread (stackInstruction mask false) words)) =
      placed (popRegisters plan words s) pc := by
  have hend : listEnd (stackInstruction mask false) (placed s pc) =
      s.activeSp + ofNat 32 (plan.count * 4) := by
    rw [h.count_eq]
    rfl
  unfold popRegisters
  rw [hend, h.registers, ← writeSp_address, ← foldl_setCore_address, ← h.writeLoaded_eq]
  rfl

variable {target : BitVec 32}

lemma traced_branch {s t : CpuState} {pc : BitVec 32}
    (h : (placed s pc).branchWritePc target = some t) :
    traced t = traced (s.setPc (target &&& ~~~1)) := by
  unfold branchWritePc at h
  split at h
  · cases h
  obtain rfl := Option.some.inj h
  unfold traced setPc setCore
  rw [BitVec.or_assoc, BitVec.or_self]
  rfl

/-! ## A pop without a window -/

def frameWords (b : MemoryBus δ) (start : BitVec 32) (count : Nat) : List (BitVec 32) :=
  (List.range count).map fun w => b.loadWord (start + BitVec.ofNat 32 (w * 4))

def frameNoted (pc : BitVec 32) (b : MemoryBus δ) (start : BitVec 32) (count : Nat) :
    MemoryBus δ :=
  (List.range count).foldl
    (fun b w => readNote ⟨.dataRead, pc⟩ b (start + BitVec.ofNat 32 (w * 4))) b

def frameRegion (b : MemoryBus δ) (start : BitVec 32) (count : Nat) : Option Region :=
  b.fastReadRegion start (count * 4) ⟨.dataRead, 0⟩

variable (pc : BitVec 32) (b : MemoryBus δ) (start : BitVec 32) {count : Nat}

lemma popFrame_windowless (b : MemoryBus δ) (hcount : count ≠ 0)
    (hmost : count ≤ 16) :
    popFrame none pc count start b = (frameRegion b start count).map fun _ =>
        (frameWords b start count, frameNoted pc b start count) := by
  have hlimits : (decide (count = 0) || decide (0xffffffff < count * 4)) = false := by
    rw [Bool.or_eq_false_iff, decide_eq_false_iff_not, decide_eq_false_iff_not]
    omega
  have hread := tryFastReadWords_eq b ⟨.dataRead, pc⟩ start count
  rw [hlimits, if_neg Bool.false_ne_true] at hread
  exact hread

lemma alike_frameNoted (count : Nat) : Alike (frameNoted pc b start count) b :=
  alike_foldl_readNote _ _ _ b

/-- Reads of a frame change the footprint, if it is kept, and the log. -/
structure OnlyNotes (pc : BitVec 32) (count : Nat) (b b' : MemoryBus δ) : Prop where
  frame : ∃ readFootprint accessWatchLog, b' = { b with readFootprint, accessWatchLog }
  untracked : b.readFootprintTracking = false → b'.readFootprint = b.readFootprint
  logged : b.accessWatchLogEnabled = true → pc ≠ 0 →
    b'.accessWatchLog.length = b.accessWatchLog.length + count
  unlogged : b.accessWatchLogEnabled = false ∨ pc = 0 → b'.accessWatchLog = b.accessWatchLog

lemma readNote_eq (a : BitVec 32) :
    readNote ⟨.dataRead, pc⟩ b a =
      { b with
        readFootprint := if pc ≠ 0 ∧ b.readFootprintTracking = true then
          (if a &&& 3 = 0 then addReadFootprint b.readFootprint a
            else addSpanFootprint b.readFootprint a 4)
          else b.readFootprint
        accessWatchLog := if pc ≠ 0 ∧ b.accessWatchLogEnabled = true then
          b.accessWatchLog ++ [⟨a, 4, false⟩] else b.accessWatchLog } := by
  unfold readNote addAccessFootprint logAccess
  obtain ⟨_, _, _, _, _, _, _, _, _, _, _, _, _, tracking, _, enabled, _, _, _, _⟩ := b
  by_cases hpc : pc = 0#32 <;> by_cases halign : a &&& 3#32 = 0#32 <;> cases tracking <;>
    cases enabled <;> simp [hpc, halign]

lemma readNote_only (a : BitVec 32) : OnlyNotes pc 1 b (readNote ⟨.dataRead, pc⟩ b a) := by
  rw [readNote_eq]
  refine ⟨⟨_, _, rfl⟩, fun h => ?_, fun h hpc => ?_, fun h => ?_⟩ <;> dsimp only
  · rw [h, if_neg (by simp)]
  · rw [if_pos ⟨hpc, h⟩, length_append, length_singleton]
  · rw [if_neg (by rcases h with h | h <;> simp [h])]

lemma OnlyNotes.trans {pc : BitVec 32} {m n : Nat} {b b' b'' : MemoryBus δ}
    (h : OnlyNotes pc m b b') (h' : OnlyNotes pc n b' b'') : OnlyNotes pc (m + n) b b'' := by
  obtain ⟨⟨f, log, rfl⟩, huntracked, hlogged, hunlogged⟩ := h
  obtain ⟨⟨f', log', rfl⟩, huntracked', hlogged', hunlogged'⟩ := h'
  exact ⟨⟨_, _, rfl⟩, fun h => (huntracked' h).trans (huntracked h),
    fun h hpc => by rw [hlogged' h hpc, hlogged h hpc, Nat.add_assoc],
    fun h => (hunlogged' h).trans (hunlogged h)⟩

lemma frameNoted_only (count : Nat) : OnlyNotes pc count b (frameNoted pc b start count) := by
  induction count with
  | zero => exact ⟨⟨_, _, rfl⟩, fun _ => rfl, fun _ _ => rfl, fun _ => rfl⟩
  | succ n ih =>
    unfold frameNoted
    rw [range_succ, foldl_append]
    exact ih.trans (readNote_only pc _ _)

abbrev unread (b after : MemoryBus δ) : MemoryBus δ :=
  if b.readFootprintTracking then { after with readFootprint := b.readFootprint } else after

lemma unread_self (b : MemoryBus δ) : unread b b = b := by
  unfold unread
  split <;> rfl

/-- With its footprint back, the bus after the reads of a frame differs in the log
only. -/
lemma unread_eq {pc : BitVec 32} {b b' : MemoryBus δ}
    (h : OnlyNotes pc count b b') :
    unread b b' = { b with accessWatchLog := b'.accessWatchLog } := by
  obtain ⟨⟨f, log, rfl⟩, huntracked, -, -⟩ := h
  unfold unread
  split
  · rfl
  rename_i htracking
  have hf : f = b.readFootprint := huntracked (Bool.eq_false_iff.mpr htracking)
  rw [hf]

variable {region : Region}

section Pop

variable (env : Environment δ) {plan : NativeStackPlan} {mask : BitVec 32} (pc : BitVec 32)
  {s : CpuState} {b : MemoryBus δ}

/-- What POP does with a frame that can be read at once. -/
lemma execute_pop (h : Pops plan (mask.setWidth 16))
    (hregion : frameRegion b s.activeSp plan.count = some region) :
    let words := frameWords b s.activeSp plan.count
    let popped := placed (popRegisters plan words s) pc
    ∃ b', (executeOn env (stackInstruction mask false) (placed s pc) b) =
        (if plan.loadsPc then
          match loadPc popped (words.getD (plan.count - 1) 0) with
          | none => failInvalid popped "POP/LDM selected non-Thumb state"
          | some s' => complete s'
        else complete popped, b') ∧ Alike b' b := by
  intro words popped
  have hread : b.tryFastReadWords s.activeSp plan.count ⟨.dataRead, pc⟩ =
      some (frameWords b s.activeSp plan.count, frameNoted pc b s.activeSp plan.count) := by
    have hframe := popFrame_windowless pc s.activeSp b h.some h.most
    rw [hregion] at hframe
    exact hframe
  have hlist : popcount (stackInstruction mask false).registerList = plan.count :=
    h.count_eq.symm
  rw [← hlist] at hread
  obtain ⟨b', hrun, hb'⟩ := run_readList (d := stackInstruction mask false)
    (s := (placed s pc)) hread
  refine ⟨b', ?_, hb'.trans (alike_frameNoted pc b _ _)⟩
  rw [hlist] at hrun
  have hpc : (stackInstruction mask false).registerList.getLsbD 15 = plan.loadsPc :=
    h.loadsPc_eq.symm
  have hlength : words.length = plan.count := by simp [words, frameWords]
  have hdispatch : dispatch env.fp (stackInstruction mask false) (placed s pc) =
      executeLoadMultiple (stackInstruction mask false) (placed s pc) := rfl
  unfold executeOn
  rw [execute_eq_dispatch (by rfl), hdispatch]
  simp only [executeLoadMultiple, Prog.run_bind]
  rw [show readContext (placed s pc) = ⟨.dataRead, pc⟩ from rfl, hrun]
  dsimp only
  rw [hpc, h.popRegisters_eq]
  cases hloads : plan.loadsPc with
  | false => rfl
  | true =>
    rw [spread, show (stackInstruction mask false).registerList = mask.setWidth 16 from rfl,
      h.loadedFor_pc hloads hlength]
    cases loadPc popped (words.getD (plan.count - 1) 0) <;> rfl

end Pop

/-! ## The bytes that a window shows -/

lemma windowCovers_iff {begin size start : BitVec 32} {bytes : Nat} (hbytes : bytes ≤ 64) :
    windowCovers begin size start bytes = true ↔
      begin.toNat ≤ start.toNat + bytes ∧ start.toNat + bytes ≤ begin.toNat + size.toNat := by
  have hoffset : (windowOffset begin start + ofNat 64 bytes).toNat =
      (start.toNat + (2 ^ 64 - begin.toNat) + bytes) % 2 ^ 64 := by
    unfold windowOffset
    rw [toNat_add, toNat_sub, toNat_setWidth, toNat_setWidth,
      toNat_ofNat]
    omega
  unfold windowCovers
  rw [decide_eq_true_eq, hoffset]
  omega

section Window

variable {b : MemoryBus δ} {region : Region} {start : BitVec 32} {n : Nat}

lemma word_inside (host : BitVec 64 → BitVec 8)
    (hlow : region.info.base.toNat ≤ start.toNat + n * 4)
    (hhigh : start.toNat + n * 4 + 4 ≤ region.endAddress) (hend : region.endAddress ≤ 2 ^ 32) :
    (regionWindow host region b).word start n = b.loadWord (start + ofNat 32 (n * 4)) := by
  unfold DirectReadWindow.word loadWord
  congr 1
  refine littleEndian_congr fun i hi => ?_
  have hdistance : (windowOffset region.info.base start +
      (ofNat 32 (n * 4) + ofNat 32 i).setWidth 64).toNat =
        start.toNat + n * 4 + i - region.info.base.toNat := by
    unfold windowOffset
    rw [toNat_add, toNat_sub, toNat_setWidth, toNat_setWidth,
      toNat_setWidth, toNat_add, toNat_ofNat, toNat_ofNat]
    omega
  unfold Region.endAddress at hhigh hend
  unfold regionWindow
  dsimp only
  rw [hdistance, if_pos (by omega)]
  congr 1
  apply BitVec.eq_of_toNat_eq
  rw [toNat_add, toNat_setWidth, hdistance, toNat_add, toNat_add,
    toNat_ofNat, toNat_ofNat]
  omega

lemma word_before (value : BitVec 8) (hbefore : start.toNat + n * 4 < region.info.base.toNat)
    (hend : region.endAddress ≤ 2 ^ 32) :
    byteAt ((regionWindow (fun _ => value) region b).word start n) 0 = value := by
  unfold DirectReadWindow.word
  rw [byteAt_littleEndian _ _ (by decide)]
  have hdistance : region.info.size.toNat ≤ (windowOffset region.info.base start +
      (ofNat 32 (n * 4) + ofNat 32 0).setWidth 64).toNat := by
    unfold windowOffset
    rw [toNat_add, toNat_sub, toNat_setWidth, toNat_setWidth,
      toNat_setWidth, toNat_add, toNat_ofNat, toNat_ofNat]
    unfold Region.endAddress at hend
    omega
  exact if_neg (Nat.not_lt.mpr hdistance)

end Window

def returnTarget (plan : NativeStackPlan) (s : CpuState) (b : MemoryBus δ) : BitVec 32 :=
  b.loadWord (s.activeSp + BitVec.ofNat 32 ((plan.count - 1) * 4))

lemma frameWords_target {plan : NativeStackPlan} {s : CpuState} {b : MemoryBus δ}
    (hcount : plan.count ≠ 0) :
    (frameWords b s.activeSp plan.count).getD (plan.count - 1) 0 = returnTarget plan s b := by
  have hlast : plan.count - 1 < plan.count := by omega
  simp [frameWords, returnTarget, getD, hlast]

def shownWords (host : BitVec 64 → BitVec 8) (region : Region) (plan : NativeStackPlan)
    (s : CpuState) (b : MemoryBus δ) : List (BitVec 32) :=
  (List.range plan.count).map ((regionWindow host region b).word s.activeSp)

lemma shownWords_target (host : BitVec 64 → BitVec 8) (region : Region) {plan : NativeStackPlan}
    (s : CpuState) (b : MemoryBus δ) (hcount : plan.count ≠ 0) :
    (shownWords host region plan s b).getD (plan.count - 1) 0 =
      (regionWindow host region b).word s.activeSp (plan.count - 1) := by
  have hlast : plan.count - 1 < plan.count := by omega
  simp [shownWords, getD, hlast]

variable {x : BitVec 32}

lemma low_bits {value : BitVec 8} (h : byteAt x 0 = value) {k : Nat}
    (hk : k < 8) : x.getLsbD k = value.getLsbD k := by
  rw [← h, getLsbD_byteAt]
  simp [hk]

/-- An even low byte is refused, a one is not. -/
lemma refusesTarget_of_low_zero (h : byteAt x 0 = 0) : refusesTarget x = true := by
  have heven : x &&& 1#32 = 0 := by
    rw [BitVec.and_one_eq_setWidth_ofBool_getLsbD, low_bits h (by decide)]
    rfl
  unfold refusesTarget
  rw [Bool.or_eq_true, beq_iff_eq, beq_iff_eq]
  exact .inr heven

lemma refusesTarget_of_low_one (h : byteAt x 0 = 1) : refusesTarget x = false := by
  unfold refusesTarget
  rw [Bool.or_eq_false_iff, beq_eq_false_iff_ne, beq_eq_false_iff_ne]
  constructor
  · intro htoken
    have hbit := congrArg (fun v : BitVec 32 => v.getLsbD 4) htoken
    rw [getLsbD_and, low_bits h (by decide)] at hbit
    exact absurd hbit (by decide)
  · intro heven
    have hbit := congrArg (fun v : BitVec 32 => v.getLsbD 0) heven
    rw [getLsbD_and, low_bits h (by decide)] at hbit
    exact absurd hbit (by decide)

section Frames

variable {plan : NativeStackPlan} {s : CpuState} {b : MemoryBus δ} {region : Region}

lemma windowRegion_some {probe : BitVec 32} (h : windowRegion probe b = some region) :
    region ∈ b.map.regions ∧ region.info.readable = true ∧ region.backed = true := by
  unfold windowRegion at h
  split at h
  · cases h
  · rw [Option.filter_eq_some_iff, Bool.and_eq_true] at h
    exact ⟨(RegionMap.find_some h.1).1, h.2⟩

lemma frameRegion_inside {probe start : BitVec 32}
    (hregion : windowRegion probe b = some region) (hcount : count ≠ 0)
    (hlow : region.info.base.toNat ≤ start.toNat)
    (hhigh : start.toNat + count * 4 ≤ region.endAddress) :
    frameRegion b start count = some region := by
  obtain ⟨hmem, hreadable, hbacked⟩ := windowRegion_some hregion
  have hcontains : region.contains start = true :=
    (region.contains_iff start).mpr ⟨hlow, by omega⟩
  have hrange : region.containsRange start (count * 4) = true :=
    (region.containsRange_iff start _).mpr ⟨hlow, hhigh⟩
  unfold frameRegion fastReadRegion
  rw [RegionMap.find_of_contains hmem hcontains]
  simp [hbacked, hreadable, hrange]

/-- A frame across the start of a region cannot. -/
lemma frameRegion_across {start : BitVec 32} (hmem : region ∈ b.map.regions)
    (hlow : start.toNat < region.info.base.toNat)
    (hhigh : region.info.base.toNat < start.toNat + count * 4) :
    frameRegion b start count = none := by
  unfold frameRegion fastReadRegion
  split
  · rfl
  rename_i other hfind
  split
  · rfl
  rename_i hserved
  exfalso
  simp only [Bool.or_eq_true, Bool.not_eq_true', not_or, Bool.not_eq_false] at hserved
  obtain ⟨hother, hcontains⟩ := RegionMap.find_some hfind
  have hrange := (other.containsRange_iff start _).mp hserved.1.2
  -- the other region would hold the first byte of this one
  have hfirst : other.contains region.info.base = true :=
    (other.contains_iff _).mpr ⟨by omega, by omega⟩
  have hbase : region.contains region.info.base = true := by
    have hsize := ((validRange_iff _ _).mp (b.map.ranges region hmem)).1
    exact (region.contains_iff _).mpr ⟨le_rfl, by unfold Region.endAddress; omega⟩
  have hsame : some other = some region :=
    (RegionMap.find_of_contains hother hfirst).symm.trans (RegionMap.find_of_contains hmem hbase)
  obtain rfl := Option.some.inj hsame
  omega

/-- The window of a trace, if it has one. -/
def windowAt (host : BitVec 64 → BitVec 8) (probe : Option (BitVec 32)) (b : MemoryBus δ) :
    Option DirectReadWindow := probe.bind (directReadWindow host · b)

/-- The window of a trace is taken for the frame of a pop. -/
def Shows (probe : Option (BitVec 32)) (plan : NativeStackPlan) (s : CpuState) (b : MemoryBus δ)
    (region : Region) : Prop :=
  probe.bind (windowRegion · b) = some region ∧
    windowCovers region.info.base region.info.size s.activeSp (plan.count * 4) = true

variable {probe : Option (BitVec 32)}

section Shown

variable (h : Shows probe plan s b region)
include h

lemma Shows.bounds (hmost : plan.count ≤ 16) :
    region ∈ b.map.regions ∧ region.info.base.toNat ≤ s.activeSp.toNat + plan.count * 4 ∧
      s.activeSp.toNat + plan.count * 4 ≤ region.endAddress ∧ region.endAddress ≤ 2 ^ 32 := by
  obtain ⟨address, -, hregion⟩ := Option.bind_eq_some_iff.mp h.1
  obtain ⟨hmem, -, -⟩ := windowRegion_some hregion
  obtain ⟨hlow, hhigh⟩ := (windowCovers_iff (by omega)).mp h.2
  exact ⟨hmem, hlow, hhigh, RegionMap.end_le hmem⟩

lemma popFrame_shown (host : BitVec 64 → BitVec 8) (pc : BitVec 32) :
    popFrame (windowAt host probe b) pc plan.count s.activeSp b =
      some (shownWords host region plan s b, b) := by
  have hwindow : windowAt host probe b = some (regionWindow host region b) := by
    obtain ⟨address, rfl, hregion⟩ := Option.bind_eq_some_iff.mp h.1
    simp [windowAt, directReadWindow, hregion]
  have hcovers : (regionWindow host region b).covers s.activeSp (plan.count * 4) = true := h.2
  unfold popFrame
  rw [hwindow, Option.filter_some, if_pos hcovers]
  rfl

lemma shown_inside (hmost : plan.count ≤ 16)
    (hlow : region.info.base.toNat ≤ s.activeSp.toNat) (host : BitVec 64 → BitVec 8) :
    shownWords host region plan s b = frameWords b s.activeSp plan.count := by
  obtain ⟨-, -, hhigh, hend⟩ := h.bounds hmost
  refine map_congr_left fun n hn => ?_
  rw [mem_range] at hn
  exact word_inside host (by omega) (by omega) hend

lemma shown_target (hcount : plan.count ≠ 0) (hmost : plan.count ≤ 16)
    (hslot : region.info.base.toNat ≤ s.activeSp.toNat + (plan.count - 1) * 4)
    (host : BitVec 64 → BitVec 8) :
    (shownWords host region plan s b).getD (plan.count - 1) 0 = returnTarget plan s b := by
  obtain ⟨-, -, hhigh, hend⟩ := h.bounds hmost
  rw [shownWords_target _ _ _ _ hcount]
  exact word_inside host hslot (by omega) hend

end Shown

lemma popFrame_unshown (h : ∀ region, ¬Shows probe plan s b region)
    (host : BitVec 64 → BitVec 8) (pc : BitVec 32) :
    popFrame (windowAt host probe b) pc plan.count s.activeSp b =
      popFrame none pc plan.count s.activeSp b := by
  have hnone : (windowAt host probe b).filter (·.covers s.activeSp (plan.count * 4)) = none := by
    rw [Option.filter_eq_none_iff]
    intro w hw
    obtain ⟨address, rfl, hwindow⟩ := Option.bind_eq_some_iff.mp hw
    obtain ⟨region, hregion, rfl⟩ := Option.map_eq_some_iff.mp hwindow
    exact fun hcovers => h region ⟨hregion, hcovers⟩
  unfold popFrame
  rw [hnone]
  rfl

end Frames

/-! ## The pops that go wrong -/

section Wrong

variable (probe : Option (BitVec 32)) (allowDynamicReturns : Bool) (pc : BitVec 32)
  (plan : NativeStackPlan) (expectedPc : BitVec 32) (s : CpuState) (b : MemoryBus δ)

/-- The frame begins before the window that is taken for it, so the host's bytes
before the region are popped; unless the return stands in the window and is refused. -/
def Misreads : Prop :=
  plan.push = false ∧ plan.count ≠ 0 ∧ ∃ region, Shows probe plan s b region ∧
    s.activeSp.toNat < region.info.base.toNat ∧
    ¬(plan.loadsPc = true ∧ region.info.base.toNat ≤ s.activeSp.toNat + (plan.count - 1) * 4 ∧
      refusesTarget (returnTarget plan s b) = true)

def MistakesToken : Prop :=
  plan.loadsPc = true ∧ (frameRegion b s.activeSp plan.count).isSome = true ∧
    isExceptionReturn (returnTarget plan s b) = true ∧
    refusesTarget (returnTarget plan s b) = false ∧
    (returnTarget plan s b &&& ~~~1 = expectedPc ∨ allowDynamicReturns = true) ∧
    ¬(s.pc = returnTarget plan s b &&& ~~~1 ∧
      s.pendingExcReturn = some (returnTarget plan s b))

def LogsDeclined : Prop :=
  plan.loadsPc = true ∧ (∀ region, ¬Shows probe plan s b region) ∧
    (frameRegion b s.activeSp plan.count).isSome = true ∧ b.accessWatchLogEnabled = true ∧
    pc ≠ 0 ∧ (refusesTarget (returnTarget plan s b) = true ∨
      returnTarget plan s b &&& ~~~1 ≠ expectedPc ∧ allowDynamicReturns = false)

end Wrong

/-! ## What a pop writes -/

lemma core_foldl {loaded : List (Nat × BitVec 32)} {s : CpuState}
    (h : ∀ x ∈ loaded, x.1 ≠ reg) :
    (loaded.foldl (fun s x => s.setCore x.1 x.2) s).core reg = s.core reg := by
  induction loaded generalizing s with
  | nil => rfl
  | cons x xs ih =>
    rw [foldl_cons, ih fun y hy => h y (by simp [hy]),
      CpuState.core_setCore_of_ne _ _ _ (h x (by simp)).symm]

lemma core_writeSp {s : CpuState} {value : BitVec 32} (hsp : reg ≠ 13) :
    (s.writeRegister 13 value).core reg = s.core reg := by
  rw [writeRegister, if_pos rfl, CpuState.core_setCore_of_ne _ _ _ hsp]
  unfold setActiveSp
  split <;> rfl

lemma setCore_pending (s : CpuState) (reg : Nat) (value : BitVec 32) :
    (s.setCore reg value).pendingExcReturn = s.pendingExcReturn := by
  unfold setCore
  split <;> rfl

lemma setActiveSp_pending (s : CpuState) (value : BitVec 32) :
    (s.setActiveSp value).pendingExcReturn = s.pendingExcReturn := by
  unfold setActiveSp
  split <;> rfl

lemma popRegisters_pending (plan : NativeStackPlan) (words : List (BitVec 32)) (s : CpuState) :
    (popRegisters plan words s).pendingExcReturn = s.pendingExcReturn := by
  unfold popRegisters
  rw [writeRegister, if_pos rfl, setCore_pending, setActiveSp_pending]
  exact foldlRecOn (motive := fun t : CpuState => t.pendingExcReturn = s.pendingExcReturn) _ _ rfl
    fun t ht x _ => (setCore_pending t x.1 x.2).trans ht

namespace Pops

variable {plan : NativeStackPlan} {list : BitVec 16} (h : Pops plan list)
include h

lemma popRegisters_pc (words : List (BitVec 32)) (s : CpuState) :
    (popRegisters plan words s).pc = s.pc := by
  have hcore : (popRegisters plan words s).core 15 = s.core 15 := by
    obtain ⟨hlist, hlength⟩ := h.listed_eq
    unfold popRegisters
    rw [core_writeSp (by decide)]
    refine core_foldl fun x hx => ?_
    rw [zip, take_zipWith, h.registers, hlist, ← hlength, take_left' rfl] at hx
    have hreg := (of_mem_zip (a := x.1) (b := x.2) hx).1
    rw [mem_filter, mem_range] at hreg
    omega
  exact hcore

/-- The first register of a list that does not begin with the PC takes the first
word. -/
lemma popRegisters_first (hpc : plan.loadsPc = false) :
    ∃ reg < 16, ∀ (words : List (BitVec 32)) (s : CpuState), words.length = plan.count →
      (popRegisters plan words s).core reg = words.getD 0 0 := by
  have hnodup := listedRegisters_nodup list
  have hcount := h.some
  rw [NativeStackPlan.count, h.registers] at hcount
  cases hlist : listedRegisters list with
  | nil =>
    rw [hlist] at hcount
    exact absurd rfl hcount
  | cons reg rest =>
    have hmem : reg ∈ listedRegisters list := by
      rw [hlist]
      exact mem_cons_self
    refine ⟨reg, (mem_listedRegisters.mp hmem).1, fun words s hwords => ?_⟩
    rw [hlist] at hnodup
    cases words with
    | nil =>
      rw [NativeStackPlan.count, h.registers, hlist] at hwords
      cases hwords
    | cons word words =>
      unfold popRegisters
      rw [core_writeSp (h.ne_sp hmem), hpc, h.registers, hlist]
      rw [take_of_length_le (by
        rw [NativeStackPlan.count, h.registers, hlist, length_zip]
        exact Nat.min_le_left _ _), zip_cons_cons, foldl_cons, core_foldl]
      · exact CpuState.core_setCore_self _ _ _ (mem_listedRegisters.mp hmem).1
      · intro x hx
        have hreg := (of_mem_zip (a := x.1) (b := x.2) hx).1
        rintro rfl
        exact (nodup_cons.mp hnodup).1 hreg

end Pops

/-! ## The helpers against the instructions -/

def declinesTarget (allowDynamicReturns : Bool) (plan : NativeStackPlan)
    (expectedPc target : BitVec 32) : Bool :=
  plan.loadsPc && (refusesTarget target || (target &&& ~~~1 != expectedPc && !allowDynamicReturns))

section Refinement

variable {env : Environment δ} {plan : NativeStackPlan} {mask pc expectedPc : BitVec 32}
  {allowDynamicReturns : Bool} {s : CpuState} {b after : MemoryBus δ} {words : List (BitVec 32)}
  {probe : Option (BitVec 32)} {region : Region}

section

variable (htarget : words.getD (plan.count - 1) 0 = target)
include htarget

lemma popWords_declined (h : declinesTarget allowDynamicReturns plan expectedPc target = true) :
    popWords allowDynamicReturns plan expectedPc words after s b =
      ⟨if refusesTarget target then .memoryDeclined else .branchMismatch, s, unread b after⟩ := by
  unfold declinesTarget at h
  unfold popWords
  rw [htarget]
  rw [Bool.and_eq_true] at h
  dsimp only
  rw [h.1, Bool.true_and, Bool.true_and]
  cases hrefuses : refusesTarget target with
  | true => rfl
  | false =>
    rw [hrefuses, Bool.false_or] at h
    rw [if_neg Bool.false_ne_true, if_pos h.2]
    rfl

lemma popWords_committed (h : declinesTarget allowDynamicReturns plan expectedPc target = false) :
    popWords allowDynamicReturns plan expectedPc words after s b =
      ⟨if plan.loadsPc && target &&& ~~~1 != expectedPc then .dynamicReturn else .success,
        commitFrame plan words target s, after⟩ := by
  unfold declinesTarget at h
  unfold popWords
  rw [htarget]
  dsimp only
  cases hpc : plan.loadsPc with
  | false => rfl
  | true =>
    rw [hpc, Bool.true_and, Bool.or_eq_false_iff] at h
    rw [Bool.true_and, Bool.true_and, h.1, if_neg Bool.false_ne_true, h.2,
      if_neg Bool.false_ne_true]

end

lemma alike_popWords (h : Alike after b) :
    Alike (popWords allowDynamicReturns plan expectedPc words after s b).bus b := by
  have hundone : Alike (unread b after) b := by
    unfold unread
    split
    · exact h
    · exact h
  unfold popWords
  dsimp only
  split
  · exact hundone
  split
  · exact hundone
  · exact h

section Frame

variable (h : Pops plan (mask.setWidth 16))
include h

/-- What POP makes of a frame whose return is a token. -/
lemma execute_token (hregion : frameRegion b s.activeSp plan.count = some region)
    (hpc : plan.loadsPc = true) (htoken : isExceptionReturn (returnTarget plan s b) = true) :
    (executeOn env (stackInstruction mask false) (placed s pc) b).1 =
      complete { popRegisters plan (frameWords b s.activeSp plan.count) s with
        instructionAddress := pc, pendingExcReturn := some (returnTarget plan s b) } := by
  obtain ⟨b', hexecute, -⟩ := execute_pop env pc h hregion
  rw [hexecute, frameWords_target h.some, hpc, loadPc, if_pos htoken]
  rfl

lemma traced_token_iff (words : List (BitVec 32)) (target : BitVec 32)
    (hpc : plan.loadsPc = true) :
    traced { popRegisters plan words s with
        instructionAddress := pc, pendingExcReturn := some target } =
      traced (commitFrame plan words target s) ↔
      s.pc = target &&& ~~~1 ∧ s.pendingExcReturn = some target := by
  have hcommit : commitFrame plan words target s =
      (popRegisters plan words s).setPc (target &&& ~~~1) := by
    rw [commitFrame, hpc, if_pos rfl]
  rw [hcommit, ← h.popRegisters_pc words s, ← popRegisters_pending plan words s]
  generalize popRegisters plan words s = popped
  constructor
  · intro h
    have hpcs := congrArg CpuState.pc h
    have hpending := congrArg CpuState.pendingExcReturn h
    exact ⟨hpcs.trans (CpuState.core_setCore_self popped 15 _ (by decide)),
      (hpending.trans (setCore_pending _ _ _)).symm⟩
  · rintro ⟨hsame, hpending⟩
    have hset : popped.setPc popped.pc = popped := by
      unfold setPc setCore
      exact congrArg (fun r => { popped with r }) (Function.update_eq_self _ _)
    rw [← hsame, hset, ← hpending]
    rfl

/-- A pop that commits a frame of memory is POP. -/
lemma commits_of_frame (hregion : frameRegion b s.activeSp plan.count = some region)
    (htoken : ¬MistakesToken allowDynamicReturns plan expectedPc s b)
    (hcommits : declinesTarget allowDynamicReturns plan expectedPc (returnTarget plan s b) =
      false) :
    ∃ s', (executeOn env (stackInstruction mask false) (placed s pc) b).1 =
        complete s' ∧
      traced s' = traced (commitFrame plan (frameWords b s.activeSp plan.count)
        (returnTarget plan s b) s) ∧
      Alike (executeOn env (stackInstruction mask false) (placed s pc) b).2 b := by
  obtain ⟨b', hexecute, hb'⟩ := execute_pop env pc h hregion
  cases hpc : plan.loadsPc with
  | false =>
    rw [hexecute, hpc]
    refine ⟨_, rfl, ?_, hb'⟩
    rw [commitFrame, hpc]
    rfl
  | true =>
    rw [declinesTarget, hpc, Bool.true_and, Bool.or_eq_false_iff, Bool.and_eq_false_iff,
      bne_eq_false_iff_eq, Bool.not_eq_false'] at hcommits
    cases hexc : isExceptionReturn (returnTarget plan s b) with
    | true =>
      refine ⟨_, execute_token h hregion hpc hexc, ?_, by rw [hexecute]; exact hb'⟩
      rw [traced_token_iff h _ _ hpc]
      by_contra hdiffers
      exact htoken ⟨hpc, by rw [hregion]; rfl, hexc, hcommits.1, hcommits.2, hdiffers⟩
    | false =>
      have hodd : returnTarget plan s b &&& 1 ≠ 0 := by
        have hrefuses := hcommits.1
        unfold refusesTarget at hrefuses
        rw [Bool.or_eq_false_iff, beq_eq_false_iff_ne, beq_eq_false_iff_ne] at hrefuses
        exact hrefuses.2
      rw [hexecute, frameWords_target h.some, hpc, loadPc, hexc, if_neg Bool.false_ne_true]
      cases hbranch : branchWritePc _ (returnTarget plan s b) with
      | none =>
        rw [branchWritePc, if_neg hodd] at hbranch
        cases hbranch
      | some s' =>
        refine ⟨s', rfl, ?_, hb'⟩
        rw [traced_branch hbranch, commitFrame, hpc]
        rfl

end Frame

lemma agrees_declined {push : Bool} :
    Agrees env pc mask push s b ⟨.memoryDeclined, s, b⟩ ⟨.memoryDeclined, s, b⟩ where
  commits h := by rcases h with h | h <;> cases h
  declines _ := ⟨rfl, rfl⟩
  windowless := ⟨rfl, rfl, Alike.refl b⟩

lemma fastWriteRegion_anyRam {a : BitVec 32} {width : Nat}
    (h : b.fastWriteRegion a width true = some region) :
    b.fastWriteRegion a width false = some region := by
  unfold fastWriteRegion at h ⊢
  split at h
  · cases h
  split at h
  · cases h
  rename_i hserved
  rw [Bool.or_eq_true, not_or] at hserved
  obtain rfl := Option.some.inj h
  simp only [Bool.or_false, Bool.not_eq_true, Bool.or_true, Bool.true_and] at hserved ⊢
  rw [hserved.1, hserved.2]
  simp

lemma tryFastWriteWords_anyRam {a : BitVec 32} {values : List (BitVec 32)}
    {context : AccessContext}
    (h : b.tryFastWriteWords a values context true = some after) :
    b.tryFastWriteWords a values context = some after := by
  unfold tryFastWriteWords at h ⊢
  dsimp only at h ⊢
  split at h
  · cases h
  split at h
  · cases h
  rename_i hregion
  rw [fastWriteRegion_anyRam hregion]
  rename_i hlimits _ _
  rw [if_neg hlimits]
  exact h

/-- What PUSH does with registers that can be stored at once. -/
lemma execute_push (htakes : Takes plan (mask.setWidth 16)) (hpush : plan.push = true)
    (hcount : plan.count ≠ 0)
    (hwrite : b.tryFastWriteWords (s.activeSp - ofNat 32 (plan.count * 4))
      (plan.registers.map s.core) ⟨.dataWrite, pc⟩ = some after) :
    (executeOn env (stackInstruction mask true) (placed s pc) b).1 =
        complete (placed (s.writeRegister 13 (s.activeSp - ofNat 32 (plan.count * 4))) pc) ∧
      Alike (executeOn env (stackInstruction mask true) (placed s pc) b).2 after := by
  have hlist : popcount (stackInstruction mask true).registerList = plan.count :=
    htakes.count_eq.symm
  have hvalues : (listedRegisters (mask.setWidth 16)).map
      (readRegister (placed s pc)) = plan.registers.map s.core := by
    rw [htakes.registers]
    refine map_congr_left fun reg hreg => ?_
    have hpc : reg ≠ 15 := by
      rintro rfl
      have hbit := (mem_listedRegisters.mp hreg).2
      rw [htakes.noPc hpush] at hbit
      cases hbit
    rw [readRegister, if_neg (htakes.ne_sp hreg), if_neg hpc]
    rfl
  have hfast : fastMultiple false (stackInstruction mask true) pc
      (placed s pc) b =
        ⟨true, placed (s.writeRegister 13 (s.activeSp - ofNat 32 (plan.count * 4))) pc,
          after⟩ := by
    unfold fastMultiple
    rw [hlist, if_neg hcount, if_neg Bool.false_ne_true]
    change (match b.tryFastWriteWords (s.activeSp - ofNat 32 (plan.count * 4))
      ((listedRegisters (mask.setWidth 16)).map
        (readRegister (placed s pc))) ⟨.dataWrite, pc⟩ with
      | none => _
      | some b => _) = _
    rw [hvalues, hwrite, ← writeSp_address, ← hlist]
    rfl
  have hfaithful : Faithful env (stackInstruction mask true) (placed s pc) b
      (fastMultiple false (stackInstruction mask true) pc (placed s pc) b) :=
    faithful_storeMultiple (.inl rfl)
  rw [hfast] at hfaithful
  exact hfaithful.served rfl

/-- A push is PUSH, or leaves everything alone. -/
lemma right_push (c : NativeExecutionContext) : Right env c pc mask true expectedPc s b := by
  change Agrees env pc mask true s b (nativePushTransferPrepared pc (.ofMask mask true) s b)
    (nativePushTransferPrepared pc (.ofMask mask true) s b)
  unfold nativePushTransferPrepared
  dsimp only
  split
  · exact agrees_declined
  rename_i hserved
  have hcount : (NativeStackPlan.ofMask mask true).count ≠ 0 := by
    intro hzero
    simp [hzero] at hserved
  split
  · exact agrees_declined
  rename_i after hwrite
  refine ⟨fun _ => ?_, fun h => ?_, rfl, rfl, Alike.refl _⟩
  · obtain ⟨hexecute, halike⟩ := execute_push (ofMask_takes hcount) rfl hcount
      (tryFastWriteWords_anyRam hwrite)
    exact ⟨_, hexecute, rfl, halike⟩
  · rcases h with h | h <;> cases h

/-- A transfer of a plan agrees with the instruction of its list and with the
transfer without a window. -/
def RightPlan (env : Environment δ) (c : NativeExecutionContext) (pc mask : BitVec 32)
    (plan : NativeStackPlan) (expectedPc : BitVec 32) (s : CpuState) (b : MemoryBus δ) : Prop :=
  Agrees env pc mask plan.push s b (nativeStackTransferPrepared c pc plan expectedPc s b)
    (nativeStackTransferPrepared { c with window := none } pc plan expectedPc s b)

section Plan

variable (h : Pops plan (mask.setWidth 16))
include h

/-- A pop of a frame of memory, with and without a window. -/
lemma agrees_of_frame (hregion : frameRegion b s.activeSp plan.count = some region)
    {after after' : MemoryBus δ} (hafter : Alike after b) (hafter' : Alike after' b)
    (htoken : ¬MistakesToken allowDynamicReturns plan expectedPc s b)
    (hundone : declinesTarget allowDynamicReturns plan expectedPc (returnTarget plan s b) = true →
      (unread b after) = b) :
    Agrees env pc mask plan.push s b
      (popWords allowDynamicReturns plan expectedPc (frameWords b s.activeSp plan.count) after s b)
      (popWords allowDynamicReturns plan expectedPc (frameWords b s.activeSp plan.count) after'
        s b) := by
  have htarget : (frameWords b s.activeSp plan.count).getD (plan.count - 1) 0 =
      returnTarget plan s b := frameWords_target h.some
  have halike : ∀ words, Alike (popWords allowDynamicReturns plan expectedPc words after s b).bus
      (popWords allowDynamicReturns plan expectedPc words after' s b).bus :=
    fun _ => (alike_popWords hafter).trans (alike_popWords hafter').symm
  specialize halike (frameWords b s.activeSp plan.count)
  rw [h.pop]
  cases hdeclines : declinesTarget allowDynamicReturns plan expectedPc (returnTarget plan s b) with
  | true =>
    rw [popWords_declined htarget hdeclines, popWords_declined htarget hdeclines] at halike ⊢
    refine ⟨fun h => ?_, fun _ => ⟨rfl, hundone hdeclines⟩, rfl, rfl, halike⟩
    split at h <;> rcases h with h | h <;> cases h
  | false =>
    rw [popWords_committed htarget hdeclines, popWords_committed htarget hdeclines] at halike ⊢
    refine ⟨fun _ => ?_, fun h => ?_, rfl, rfl, halike⟩
    · obtain ⟨s', hexecute, htraced, hmemory⟩ := commits_of_frame h hregion htoken hdeclines
      exact ⟨s', hexecute, htraced, hmemory.trans hafter.symm⟩
    · split at h <;> rcases h with h | h <;> cases h

lemma transfer_pop (c : NativeExecutionContext) :
    nativeStackTransferPrepared c pc plan expectedPc s b =
      match popFrame c.window pc plan.count s.activeSp b with
      | none => ⟨.memoryDeclined, s, b⟩
      | some (words, after) => popWords c.allowDynamicReturns plan expectedPc words after s b := by
  unfold nativeStackTransferPrepared
  rw [h.pop]
  exact (if_neg Bool.false_ne_true).trans (if_neg h.some)

/-- A pop that does not go wrong is POP. -/
lemma right_pop (host : BitVec 64 → BitVec 8) (hmisreads : ¬Misreads probe plan s b)
    (htoken : ¬MistakesToken allowDynamicReturns plan expectedPc s b)
    (hlogs : ¬LogsDeclined probe allowDynamicReturns pc plan expectedPc s b) :
    RightPlan env ⟨windowAt host probe b, allowDynamicReturns⟩ pc mask plan expectedPc s b := by
  unfold RightPlan
  rw [transfer_pop h, transfer_pop h]
  by_cases hshown : ∃ region, Shows probe plan s b region
  · obtain ⟨region, hshown⟩ := hshown
    rw [popFrame_shown hshown]
    obtain ⟨hmem, hlow, hhigh, hend⟩ := hshown.bounds h.most
    by_cases hinside : region.info.base.toNat ≤ s.activeSp.toNat
    · obtain ⟨address, rfl, hregion⟩ := Option.bind_eq_some_iff.mp hshown.1
      have hframe := frameRegion_inside hregion h.some hinside hhigh
      rw [popFrame_windowless pc _ b h.some h.most, hframe, shown_inside hshown h.most hinside]
      refine agrees_of_frame h hframe (Alike.refl b) (alike_frameNoted pc b _ _) htoken fun _ =>
        unread_self b
    -- all that is left is a return that stands in the window and is refused
    have hrefused : plan.loadsPc = true ∧
        region.info.base.toNat ≤ s.activeSp.toNat + (plan.count - 1) * 4 ∧
        refusesTarget (returnTarget plan s b) = true := by
      by_contra hnot
      exact hmisreads ⟨h.pop, h.some, region, hshown, by omega, hnot⟩
    obtain ⟨hpc, hslot, hrefuses⟩ := hrefused
    have htarget := shown_target hshown h.some h.most hslot host
    have hdeclines : declinesTarget allowDynamicReturns plan expectedPc
        (returnTarget plan s b) = true := by
      rw [declinesTarget, hpc, hrefuses]
      rfl
    rw [popFrame_windowless pc _ b h.some h.most,
      frameRegion_across hmem (by omega) (by omega), Option.map_none]
    dsimp only
    rw [popWords_declined htarget hdeclines, if_pos hrefuses, unread_self]
    exact agrees_declined
  · rw [popFrame_unshown (fun region h => hshown ⟨region, h⟩),
      popFrame_windowless pc _ b h.some h.most]
    cases hframe : frameRegion b s.activeSp plan.count with
    | none => exact agrees_declined
    | some region =>
      refine agrees_of_frame h hframe (alike_frameNoted pc b _ _) (alike_frameNoted pc b _ _)
        htoken fun hdeclines => ?_
      have hnotes := frameNoted_only pc b s.activeSp plan.count
      rw [unread_eq hnotes, hnotes.unlogged]
      rw [declinesTarget, Bool.and_eq_true, Bool.or_eq_true, Bool.and_eq_true, bne_iff_ne,
        Bool.not_eq_true'] at hdeclines
      by_contra hlogged
      rw [not_or, Bool.not_eq_false] at hlogged
      exact hlogs ⟨hdeclines.1, fun region h => hshown ⟨region, h⟩, by rw [hframe]; rfl,
        hlogged.1, hlogged.2, hdeclines.2⟩

end Plan

/-! ## The condition is needed -/

lemma count_of_loadsPc (h : plan.loadsPc = true) : plan.count ≠ 0 := by
  intro hzero
  rw [NativeStackPlan.count, length_eq_zero_iff] at hzero
  rw [NativeStackPlan.loadsPc, hzero] at h
  simp at h

lemma popWords_memoryDeclined_iff :
    (popWords allowDynamicReturns plan expectedPc words after s b).result = .memoryDeclined ↔
      (plan.loadsPc && refusesTarget (words.getD (plan.count - 1) 0)) = true := by
  unfold popWords
  dsimp only
  split
  · rename_i h
    exact ⟨fun _ => h, fun _ => rfl⟩
  rename_i h
  refine ⟨fun hresult => ?_, fun h' => absurd h' h⟩
  split at hresult
  · cases hresult
  · dsimp only at hresult
    split at hresult <;> cases hresult

section Wrong

variable (h : Pops plan (mask.setWidth 16))
include h

/-- Bytes of the host cannot be told from the frame. -/
lemma misreads_wrong (hmisreads : Misreads probe plan s b) :
    ¬∀ host, RightPlan env ⟨windowAt host probe b, allowDynamicReturns⟩ pc mask plan expectedPc
      s b := by
  intro hright
  obtain ⟨-, hcount, region, hshown, hbefore, hnot⟩ := hmisreads
  obtain ⟨hmem, hlow, hhigh, hend⟩ := hshown.bounds h.most
  -- what the host has before the region makes no difference to the transfer without a window
  generalize hnone : nativeStackTransferPrepared ⟨none, allowDynamicReturns⟩ pc plan expectedPc
    s b = windowless
  generalize hpopped : (fun host => popWords allowDynamicReturns plan expectedPc
    (shownWords host region plan s b) b s b) = popped
  have hsame : ∀ host, (popped host).result = windowless.result ∧
      (popped host).cpu = windowless.cpu := by
    intro host
    have hwindowless := (hright host).windowless
    rw [hnone, transfer_pop h ⟨windowAt host probe b, _⟩] at hwindowless
    rw [popFrame_shown hshown] at hwindowless
    rw [← hpopped]
    exact ⟨hwindowless.1, hwindowless.2.1⟩
  cases hpc : plan.loadsPc with
  | false =>
    obtain ⟨reg, -, hfirst⟩ := h.popRegisters_first hpc
    have hword : ∀ host, (popped host).cpu.core reg =
        (regionWindow host region b).word s.activeSp 0 := by
      intro host
      rw [← hpopped]
      dsimp only
      rw [popWords_committed rfl (by rw [declinesTarget, hpc]; rfl), commitFrame, hpc]
      rw [if_neg Bool.false_ne_true, hfirst _ _ (by simp [shownWords])]
      simp [shownWords, getD, Nat.pos_of_ne_zero hcount]
    have hequal : (regionWindow (fun _ => 0) region b).word s.activeSp 0 =
        (regionWindow (fun _ => 1) region b).word s.activeSp 0 := by
      rw [← hword, ← hword, (hsame _).2, (hsame _).2]
    have hbyte := congrArg (byteAt · 0) hequal
    rw [word_before 0 (by omega) hend, word_before 1 (by omega) hend] at hbyte
    exact absurd hbyte (by decide)
  | true =>
    have hrefuses : ∀ host, windowless.result = .memoryDeclined ↔
        refusesTarget ((regionWindow host region b).word s.activeSp (plan.count - 1)) = true := by
      intro host
      rw [← (hsame host).1, ← hpopped]
      rw [popWords_memoryDeclined_iff, hpc, Bool.true_and, shownWords_target _ _ _ _ hcount]
    by_cases hslot : region.info.base.toNat ≤ s.activeSp.toNat + (plan.count - 1) * 4
    · have hdeclined : windowless.result = .memoryDeclined := by
        rw [← hnone, transfer_pop h, popFrame_windowless pc _ b hcount h.most,
          frameRegion_across hmem hbefore (by omega)]
        rfl
      have hrefused := (hrefuses fun _ => 0).mp hdeclined
      rw [word_inside _ hslot (by omega) hend] at hrefused
      exact hnot ⟨hpc, hslot, hrefused⟩
    · have hzero := (hrefuses fun _ => 0).mpr
        (refusesTarget_of_low_zero (word_before 0 (by omega) hend))
      have hone := (hrefuses fun _ => 1).mp hzero
      rw [refusesTarget_of_low_one (word_before 1 (by omega) hend)] at hone
      cases hone

/-- A token that is taken for an address is not pended. -/
lemma mistakesToken_wrong (host : BitVec 64 → BitVec 8) (hmisreads : ¬Misreads probe plan s b)
    (htoken : MistakesToken allowDynamicReturns plan expectedPc s b) :
    ¬RightPlan env ⟨windowAt host probe b, allowDynamicReturns⟩ pc mask plan expectedPc s b := by
  intro hright
  obtain ⟨hpc, hframe, hexc, hrefuses, haccepted, hdiffers⟩ := htoken
  obtain ⟨region, hregion⟩ := Option.isSome_iff_exists.mp hframe
  have hread : ∃ after, popFrame (windowAt host probe b) pc plan.count s.activeSp b =
      some (frameWords b s.activeSp plan.count, after) := by
    by_cases hshown : ∃ shown, Shows probe plan s b shown
    · obtain ⟨shown, hshown⟩ := hshown
      have hinside : shown.info.base.toNat ≤ s.activeSp.toNat := by
        by_contra hbefore
        refine hmisreads ⟨h.pop, h.some, shown, hshown, by omega, fun hrefused => ?_⟩
        rw [hrefused.2.2] at hrefuses
        cases hrefuses
      exact ⟨b, by rw [popFrame_shown hshown, shown_inside hshown h.most hinside]⟩
    · rw [popFrame_unshown (fun shown h => hshown ⟨shown, h⟩),
        popFrame_windowless pc _ b h.some h.most, hregion]
      exact ⟨_, rfl⟩
  obtain ⟨after, hread⟩ := hread
  have hcommits : declinesTarget allowDynamicReturns plan expectedPc (returnTarget plan s b) =
      false := by
    rw [declinesTarget, hpc, hrefuses, Bool.true_and, Bool.false_or, Bool.and_eq_false_iff,
      bne_eq_false_iff_eq, Bool.not_eq_false']
    exact haccepted
  have hagrees := hright.commits
  rw [transfer_pop h, h.pop] at hagrees
  rw [hread] at hagrees
  dsimp only at hagrees
  rw [popWords_committed (frameWords_target h.some) hcommits] at hagrees
  obtain ⟨s', hexecute, htraced, -⟩ := hagrees (by dsimp only; split <;> simp)
  rw [execute_token h hregion hpc hexc] at hexecute
  obtain rfl : _ = s' := congrArg Executed.cpu hexecute
  exact hdiffers ((traced_token_iff h _ _ hpc).mp htraced)

lemma logsDeclined_wrong (host : BitVec 64 → BitVec 8)
    (hlogs : LogsDeclined probe allowDynamicReturns pc plan expectedPc s b) :
    ¬RightPlan env ⟨windowAt host probe b, allowDynamicReturns⟩ pc mask plan expectedPc s b := by
  intro hright
  obtain ⟨hpc, hunshown, hframe, henabled, hplaced, hrefused⟩ := hlogs
  obtain ⟨region, hregion⟩ := Option.isSome_iff_exists.mp hframe
  have hdeclines : declinesTarget allowDynamicReturns plan expectedPc (returnTarget plan s b) =
      true := by
    rw [declinesTarget, hpc, Bool.true_and, Bool.or_eq_true, Bool.and_eq_true, bne_iff_ne,
      Bool.not_eq_true']
    exact hrefused
  have hnotes := frameNoted_only pc b s.activeSp plan.count
  have hagrees := hright.declines
  rw [transfer_pop h] at hagrees
  rw [popFrame_unshown hunshown, popFrame_windowless pc _ b h.some h.most, hregion] at hagrees
  dsimp only [Option.map_some] at hagrees
  rw [popWords_declined (frameWords_target h.some) hdeclines, unread_eq hnotes] at hagrees
  obtain ⟨-, hbus⟩ := hagrees (by dsimp only; split <;> simp)
  have hlength := congrArg (fun b => b.accessWatchLog.length) hbus
  rw [hnotes.logged henabled hplaced] at hlength
  have hcount := h.some
  omega

end Wrong

end Refinement

/-- The native stack helpers agree with PUSH and POP, whatever the host has around
the window, if and only if the pop misreads no frame, mistakes no token and logs no
reads that it then declines. -/
theorem native_stack_helpers_refine_push_and_pop (env : Environment δ)
    (probe : Option (BitVec 32)) (allowDynamicReturns : Bool) (pc mask : BitVec 32) (push : Bool)
    (expectedPc : BitVec 32) (s : CpuState) (b : MemoryBus δ) :
    (∀ host, Right env ⟨windowAt host probe b, allowDynamicReturns⟩ pc mask push expectedPc s b) ↔
      ¬Misreads probe (.ofMask mask push) s b ∧
        ¬MistakesToken allowDynamicReturns (.ofMask mask push) expectedPc s b ∧
        ¬LogsDeclined probe allowDynamicReturns pc (.ofMask mask push) expectedPc s b := by
  cases push with
  | true =>
    refine ⟨fun _ => ⟨fun h => ?_, fun h => ?_, fun h => ?_⟩, fun _ host => right_push _⟩
    · cases h.1
    · cases h.1
    · cases h.1
  | false =>
    by_cases hcount : (NativeStackPlan.ofMask mask false).count = 0
    · refine ⟨fun _ => ⟨fun h => h.2.1 hcount, fun h => count_of_loadsPc h.1 hcount,
        fun h => count_of_loadsPc h.1 hcount⟩, fun _ host => ?_⟩
      have hdeclined : ∀ c, nativeStackTransfer c pc mask false expectedPc s b =
          ⟨.memoryDeclined, s, b⟩ := by
        intro c
        unfold nativeStackTransfer nativeStackTransferPrepared
        exact (if_neg Bool.false_ne_true).trans (if_pos hcount)
      rw [Right, hdeclined, hdeclined]
      exact agrees_declined
    · have hpops := ofMask_pops hcount
      refine ⟨fun hright => ?_, fun h host => right_pop hpops host h.1 h.2.1 h.2.2⟩
      have hmisreads : ¬Misreads probe (.ofMask mask false) s b :=
        fun h => misreads_wrong hpops h hright
      exact ⟨hmisreads, fun h => mistakesToken_wrong hpops (fun _ => 0) hmisreads h (hright _),
        fun h => logsDeclined_wrong hpops (fun _ => 0) h (hright _)⟩

/-- The core with its stack pointer at an address. -/
def stackedAt (sp : BitVec 32) : CpuState := resetState.writeRegister 13 sp

/-- A frame that ends where the window begins is popped from bytes of the host; a
token of an extended frame is popped as an address; a pop that is declined for its
token leaves its read in the log. -/
theorem native_pops_go_wrong_in_three_ways :
    (let board := { smallBoard [] with readFootprintTracking := false }
      let window := windowAt (fun _ => 0xaa) (some 0x20000000) board
      let popped := nativeStackTransfer ⟨window, true⟩ 0x08000000 0x1 false 0
        (stackedAt 0x1ffffffc) board
      let windowless := nativeStackTransfer ⟨none, true⟩ 0x08000000 0x1 false 0
        (stackedAt 0x1ffffffc) board
      popped.result = .success ∧ popped.cpu.r 0 = 0xaaaaaaaa ∧
        windowless.result = .memoryDeclined) ∧
    (let popped := nativeStackTransfer ⟨none, true⟩ 0x08000000 0x8000 false 0
        (stackedAt 0x08000000) (smallBoard [0xffe9, 0xffff])
      let reference := (executeOn plainEnvironment (stackInstruction 0x8000 false)
        { stackedAt 0x08000000 with instructionAddress := 0x08000000 }
        (smallBoard [0xffe9, 0xffff])).1
      popped.result = .dynamicReturn ∧ popped.cpu.pc = 0xffffffe8 ∧
        popped.cpu.pendingExcReturn = none ∧ reference.reason = .stepComplete ∧
        reference.cpu.pc = 0x08000000 ∧ reference.cpu.pendingExcReturn = some 0xffffffe9) ∧
    (let board := { smallBoard [0xfff9, 0xffff] with accessWatchLogEnabled := true }
      let popped := nativeStackTransfer ⟨none, true⟩ 0x08000000 0x8000 false 0
        (stackedAt 0x08000000) board
      popped.result = .memoryDeclined ∧
        popped.bus.accessWatchLog = [⟨0x08000000, 4, false⟩] ∧ board.accessWatchLog = []) := by
  decide +kernel

end Fil.Cpu
