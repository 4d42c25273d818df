-- What the watch log says of an instruction that goes through the handlers. A
-- handler logs the bytes that the executor would log, but for the store of more
-- than two registers, which it logs as its first two words.
import Fil.WatchLog

open Dialogue Fil.Mem Fil.Mem.MemoryBus List

namespace Fil.Sim

open Fil.Cpu

variable {δ : Type}

section Logs

variable {b : MemoryBus δ} {pc a : BitVec 32}

/-! ## What a handler logs -/

/-- The data accesses of an instruction whose condition holds. -/
def accesses (d : DecodedInstruction) (s : CpuState) : List AccessWatchEntry :=
  (transfers d s).map Request.access

/-- Those that the log of a handler shows. A bulk store is logged once, with a
width of at most two words. -/
def shown (d : DecodedInstruction) (s : CpuState) : List AccessWatchEntry :=
  if d.kind = .push ∨ d.kind = .stm then (accesses d s).take 2 else accesses d s

variable {w : Watchpoint}

lemma meets_accesses {d : DecodedInstruction} {s : CpuState}
    (h : w.Meets (shown d s)) : w.Meets (accesses d s) := by
  obtain ⟨access, hmem, hw⟩ := h
  refine ⟨access, ?_, hw⟩
  unfold shown at hmem
  split at hmem
  · exact mem_of_mem_take hmem
  · exact hmem

/-- What the entries of a handler say: nothing but accesses of its instruction,
and all that are shown if it retired the instruction. -/
structure Tells (d : DecodedInstruction) (s : CpuState) (handled : Bool)
    (entries : List AccessWatchEntry) : Prop where
  width : ∀ e ∈ entries, 0 < e.width
  sound : ∀ w : Watchpoint, w.Meets entries → w.Meets (accesses d s)
  complete : handled = true → ∀ w : Watchpoint, w.Meets (shown d s) → w.Meets entries

def Logs (d : DecodedInstruction) (s : CpuState) (b : MemoryBus δ) (h : Handled δ) : Prop :=
  ∃ entries, h.bus.accessWatchLog = b.accessWatchLog ++ entries ∧ Tells d s h.handled entries

variable {d : DecodedInstruction} {s : CpuState}

lemma access_width (r : Cpu.Request) : 0 < r.access.width := by
  cases r <;> simp [Request.access]

lemma accesses_width (d : DecodedInstruction) (s : CpuState) :
    ∀ e ∈ accesses d s, 0 < e.width := by
  intro e he
  obtain ⟨r, -, rfl⟩ := mem_map.mp he
  exact access_width r

lemma tells_accesses (handled : Bool) : Tells d s handled (accesses d s) :=
  ⟨accesses_width d s, fun _ h => h, fun _ _ => meets_accesses⟩

lemma Logs.decline : Logs d s b ⟨false, s, b⟩ :=
  ⟨[], (append_nil _).symm, by simp, by simp [Watchpoint.Meets], by simp⟩

lemma Logs.exact {h : Handled δ}
    (hlog : h.bus.accessWatchLog = b.accessWatchLog ++ accesses d s) : Logs d s b h :=
  ⟨_, hlog, tells_accesses _⟩

lemma Logs.of_exact {env : Environment δ} {h : Handled δ} (hexact : Cpu.Exact env d s b h)
    (henabled : b.accessWatchLogEnabled = true) (hpc : s.instructionAddress ≠ 0)
    (hflush : flushes d s = false) (hdirect : ∀ e ∈ accesses d s, Direct b e.address) :
    Logs d s b h := by
  cases hhandled : h.handled with
  | false =>
    refine ⟨[], ?_, by simp, by simp [Watchpoint.Meets], fun hserved => ?_⟩
    · rw [(hexact.declined hhandled).2, append_nil]
    · rw [hhandled] at hserved
      cases hserved
  | true =>
    have hcomplete : (executeOn env d s b).1.reason = .stepComplete := by
      rw [hexact.served hhandled]
      rfl
    have hlogs := executeOn_logs henabled hpc hflush
      (fun r hr => hdirect _ (mem_map.mpr ⟨r, hr, rfl⟩)) hcomplete
    rw [hexact.served hhandled] at hlogs
    exact .exact hlogs

variable {b' : MemoryBus δ} {raw : BitVec 32}

lemma foldl_readNote_log (henabled : b.accessWatchLogEnabled = true) (hpc : pc ≠ 0)
    (f : Nat → BitVec 32) (l : List Nat) :
    (l.foldl (fun b w => readNote ⟨.dataRead, pc⟩ b (f w)) b).accessWatchLog =
      b.accessWatchLog ++ l.map fun w => ⟨f w, 4, false⟩ := by
  induction l generalizing b with
  | nil => simp
  | cons w l ih =>
    have hnote : readNote ⟨.dataRead, pc⟩ b (f w) = b.addAccessFootprint (f w) 4 :=
      if_pos (decide_eq_true hpc)
    have hkept : (b.addAccessFootprint (f w) 4).accessWatchLogEnabled = true :=
      (SameWatch.of_alike (unwatched_addAccessFootprint b (f w) 4)).enabled.trans henabled
    have hlog : (b.addAccessFootprint (f w) 4).accessWatchLog =
        b.accessWatchLog ++ [⟨f w, 4, false⟩] := addAccessFootprint_log henabled (by omega)
    rw [foldl_cons, hnote, ih hkept, hlog, map_cons, append_assoc,
      singleton_append]

lemma readWords_access (c : AccessContext) (count : Nat) (a : BitVec 32) :
    (readWords c count a).map Request.access =
      (range count).map fun w => ⟨a + BitVec.ofNat 32 (w * 4), 4, false⟩ := by
  induction count generalizing a with
  | zero => rfl
  | succ count ih =>
    rw [readWords, map_cons, ih, range_succ_eq_map, map_cons, map_map]
    simp [Request.access, Function.comp_def, next_word]

lemma tryFastReadWords_logs (henabled : b.accessWatchLogEnabled = true) (hpc : pc ≠ 0)
    {count : Nat} {words : List (BitVec 32)}
    (h : b.tryFastReadWords a count ⟨.dataRead, pc⟩ = some (words, b')) :
    b'.accessWatchLog =
      b.accessWatchLog ++ (readWords ⟨.dataRead, pc⟩ count a).map Request.access := by
  rw [tryFastReadWords_eq] at h
  split at h
  · cases h
  obtain ⟨r, -, heq⟩ := Option.map_eq_some_iff.mp h
  cases heq
  rw [readWords_access]
  exact foldl_readNote_log henabled hpc _ _

lemma writeWords_access_take (c : AccessContext) (vs : List (BitVec 32)) (a : BitVec 32) :
    ((writeWords c vs a).map Request.access).take 2 =
      match vs with
      | [] => []
      | [_] => [⟨a, 4, true⟩]
      | _ :: _ :: _ => [⟨a, 4, true⟩, ⟨a + 4, 4, true⟩] := by
  match vs with
  | [] => rfl
  | [_] => rfl
  | _ :: _ :: _ => rfl

lemma meets_pair {write : Bool} (h : a.toNat + 8 ≤ 2 ^ 32) :
    w.Meets [⟨a, 8, write⟩] ↔ w.Meets [⟨a, 4, write⟩, ⟨a + 4, 4, write⟩] := by
  have hnext : (a + 4).toNat = a.toNat + 4 := by
    exact Nat.mod_eq_of_lt (by simp; omega)
  simp [Watchpoint.Meets, Watchpoint.Watches]
  constructor
  · rintro ⟨hsees, byte, ⟨h1, h2⟩, hw⟩
    by_cases hbyte : byte < a.toNat + 4
    · exact .inl ⟨hsees, byte, ⟨h1, hbyte⟩, hw⟩
    · exact .inr ⟨hsees, byte, ⟨by omega, by omega⟩, hw⟩
  · rintro (⟨hsees, byte, ⟨h1, h2⟩, hw⟩ | ⟨hsees, byte, ⟨h1, h2⟩, hw⟩)
    · exact ⟨hsees, byte, ⟨h1, by omega⟩, hw⟩
    · exact ⟨hsees, byte, ⟨by omega, by omega⟩, hw⟩

/-- A bulk store logs one entry, which covers its first two words. -/
lemma tryFastWriteWords_logs (henabled : b.accessWatchLogEnabled = true) (hpc : pc ≠ 0)
    {vs : List (BitVec 32)}
    (h : b.tryFastWriteWords a vs ⟨.dataWrite, pc⟩ = some b') :
    ∃ entry : AccessWatchEntry, b'.accessWatchLog = b.accessWatchLog ++ [entry] ∧
      0 < entry.width ∧ ∀ w : Watchpoint, w.Meets [entry] ↔
        w.Meets (((writeWords ⟨.dataWrite, pc⟩ vs a).map Request.access).take 2) := by
  rw [tryFastWriteWords_eq] at h
  split at h
  · cases h
  rename_i hcount
  simp only [Bool.or_eq_true, decide_eq_true_eq, not_or] at hcount
  obtain ⟨r, hr, heq⟩ := Option.map_eq_some_iff.mp h
  obtain ⟨hfind, -, -, hc⟩ := fastWriteRegion_some hr
  have hend := RegionMap.end_le (RegionMap.find_some hfind).1
  obtain ⟨-, hhigh⟩ := (r.containsRange_iff a _).mp hc
  obtain ⟨_, _, _, _, hnoted⟩ :=
    noted_words b ⟨.dataWrite, pc⟩ r a vs (show 0 < vs.length * 4 by omega)
  have hentries : b.storeEntries ⟨.dataWrite, pc⟩ a (vs.length * 4) =
      [⟨a, min (vs.length * 4) 8, true⟩] :=
    if_pos (by rw [henabled, Bool.and_true]; exact decide_eq_true hpc)
  refine ⟨⟨a, min (vs.length * 4) 8, true⟩, ?_, ?_, fun w => ?_⟩
  · rw [← heq, hnoted, ← hentries]
  · dsimp only
    omega
  · rw [writeWords_access_take]
    match vs, hcount with
    | [_], _ => exact Iff.rfl
    | _ :: _ :: rest, _ =>
      have hwidth : min ((rest.length + 1 + 1) * 4) 8 = 8 := by omega
      rw [length_cons, length_cons, hwidth]
      refine meets_pair ?_
      simp only [length_cons] at hhigh
      omega

/-! ## Handler by handler -/

section Handlers

variable (henabled : b.accessWatchLogEnabled = true) (hpc : s.instructionAddress ≠ 0)

include henabled hpc

lemma Logs.words {vs : List (BitVec 32)} {b' : MemoryBus δ} {t : CpuState}
    (htransfers : transfers d s = writeWords (writeContext s) vs a)
    (hshown : shown d s = (accesses d s).take 2)
    (h : b.tryFastWriteWords a vs ⟨.dataWrite, s.instructionAddress⟩ = some b') :
    Logs d s b ⟨true, t, b'⟩ := by
  obtain ⟨entry, hlog, hwidth, hmeets⟩ := tryFastWriteWords_logs henabled hpc h
  have hall : shown d s = ((writeWords ⟨.dataWrite, s.instructionAddress⟩ vs a).map
      Request.access).take 2 := by
    rw [hshown, accesses, htransfers]
    rfl
  refine ⟨[entry], hlog, by simpa using hwidth, fun w hw => ?_, fun _ w hw => ?_⟩
  · refine meets_accesses ?_
    rw [hall]
    exact (hmeets w).mp hw
  · rw [hall] at hw
    exact (hmeets w).mpr hw

lemma logs_pair (hk : d.kind = .ldrd ∨ d.kind = .strd) (hform : d.form = .immediate) :
    Logs d s b (fastLdrdStrd d s.instructionAddress s b) := by
  unfold fastLdrdStrd
  rw [fastPair_address hform]
  dsimp only
  rcases hk with hk | hk
  · rw [if_pos hk]
    split
    · exact .decline
    rename_i hread
    refine .exact ?_
    simp only [accesses, transfers, hk]
    exact tryFastReadWords_logs henabled hpc hread
  · rw [if_neg (by rw [hk]; decide)]
    split
    · exact .decline
    rename_i hwrite
    refine Logs.words henabled hpc (by simp only [transfers, hk]) ?_ hwrite
    simp only [shown, accesses, transfers, hk, reduceCtorEq, or_self, if_false]
    rfl

omit henabled hpc in
lemma transfers_loadMultiple (hk : d.kind = .pop ∨ d.kind = .ldm) : transfers d s =
    readWords (readContext s) (popcount d.registerList) (listStart d s) := by
  rcases hk with hk | hk <;> simp only [transfers, hk] <;> rfl

lemma logs_loadMultiple (hk : d.kind = .pop ∨ d.kind = .ldm) :
    Logs d s b (fastMultiple true d s.instructionAddress s b) := by
  unfold fastMultiple
  dsimp only
  rw [if_pos rfl]
  split
  · exact .decline
  split
  · exact .decline
  rename_i hread
  refine .exact ?_
  rw [accesses, transfers_loadMultiple hk]
  exact tryFastReadWords_logs henabled hpc hread

lemma logs_popPc (hk : d.kind = .pop ∨ d.kind = .ldm) :
    Logs d s b (fastPopPc d s.instructionAddress s b) := by
  unfold fastPopPc
  dsimp only
  split
  · exact .decline
  split
  · exact .decline
  rename_i hread
  have hlog := tryFastReadWords_logs henabled hpc hread
  -- the words are logged whether their target is taken or declined
  split_ifs <;> refine .exact ?_ <;> rw [accesses, transfers_loadMultiple hk] <;> exact hlog

lemma logs_storeMultiple (hk : d.kind = .push ∨ d.kind = .stm) :
    Logs d s b (fastMultiple false d s.instructionAddress s b) := by
  have htransfers : transfers d s = writeWords (writeContext s)
      ((listedRegisters d.registerList).map s.readRegister) (listStart d s) := by
    rcases hk with hk | hk <;> simp only [transfers, hk]
  unfold fastMultiple
  dsimp only
  rw [if_neg Bool.false_ne_true]
  split
  · exact .decline
  split
  · exact .decline
  · rename_i hwrite
    exact Logs.words henabled hpc htransfers (if_pos hk) hwrite

omit henabled hpc

def reachesMemory : InstrKind → Bool
  | .ldr | .ldrb | .ldrsb | .ldrh | .ldrsh | .str | .strb | .strh | .ldrd | .strd | .pop | .ldm
  | .push | .stm | .tbb | .tbh | .vldr | .vstr | .vldm | .vstm => true
  | _ => false

lemma transfers_core (h : reachesMemory d.kind = false) : transfers d s = [] := by
  unfold transfers
  revert h
  cases d.kind <;> intro h <;> first | rfl | cases h

include henabled hpc

/-- The handlers of the decoded instructions. Only those that move several words at
once do not log as the executor does. -/
lemma executeJitFast_logs (env : Environment δ) (hflush : flushes d s = false)
    (hdirect : ∀ e ∈ accesses d s, Direct b e.address) (hd : Wellformed d) :
    Logs d s b (executeJitFast d (classifyJitFast d) s.instructionAddress s b) := by
  by_cases hmoves : d.kind.moves = true
  swap
  · have hexact : Precise env d s b _ := executeJitFast_exact (Bool.eq_false_iff.mpr hmoves)
    exact .of_exact hexact henabled hpc hflush hdirect
  revert hmoves
  unfold classifyJitFast
  cases hk : d.kind <;> dsimp only <;> intro hmoves
  case ldrd | strd =>
    split
    · exact logs_pair henabled hpc (by simp [hk]) (hd.pair (by simp [hk]))
    · exact .decline
  case pop | ldm =>
    split
    · exact logs_popPc henabled hpc (by simp [hk])
    · simpa [executeJitFast, hk] using logs_loadMultiple henabled hpc (by simp [hk])
  case push | stm =>
    rw [if_neg (by rw [hd.storeList (by simp [hk])]; decide)]
    simpa [executeJitFast, hk] using logs_storeMultiple henabled hpc (by simp [hk])
  all_goals cases hmoves

end Handlers

/-! ## What a step logs -/

/-- The accesses of an instruction that a run sees, with handlers or without. -/
def seen (jit : Bool) (d : DecodedInstruction) (s : CpuState) : List AccessWatchEntry :=
  if jit then shown d s else accesses d s

structure Reports (jit : Bool) (d : DecodedInstruction) (s : CpuState)
    (entries : List AccessWatchEntry) : Prop where
  width : ∀ e ∈ entries, 0 < e.width
  sound : ∀ w : Watchpoint, w.Meets entries → w.Meets (accesses d s)
  complete : ∀ w : Watchpoint, w.Meets (seen jit d s) → w.Meets entries

lemma meets_append {l l' : List AccessWatchEntry} :
    w.Meets (l ++ l') ↔ w.Meets l ∨ w.Meets l' := by
  simp only [Watchpoint.Meets, mem_append, or_and_right, exists_or]

lemma reports_accesses (jit : Bool) : Reports jit d s (accesses d s) where
  width := accesses_width d s
  sound _ hw := hw
  complete w hw := by
    unfold seen at hw
    split at hw
    · exact meets_accesses hw
    · exact hw

variable {entries : List AccessWatchEntry} {jit : Bool}

lemma Tells.followed {entries' : List AccessWatchEntry}
    (h : Tells d s false entries) (h' : Reports jit d s entries') :
    Reports jit d s (entries ++ entries') where
  width e he := (mem_append.mp he).elim (h.width e) (h'.width e)
  sound w hw := (meets_append.mp hw).elim (h.sound w) (h'.sound w)
  complete w hw := meets_append.mpr (.inr (h'.complete w hw))

lemma Tells.retired (h : Tells d s true entries) :
    Reports true d s entries where
  width := h.width
  sound := h.sound
  complete w hw := h.complete rfl w hw

lemma tells_nothing : Tells d s false [] :=
  ⟨by simp, by simp [Watchpoint.Meets], by simp⟩

variable {env : Environment δ}

/-- The reference executor, on a bus that a handler may have been tried on. -/
lemma executeOn_reports
    (henabled : b.accessWatchLogEnabled = true) (hsame : SameWatch b b')
    (hlog : b'.accessWatchLog = b.accessWatchLog ++ entries) (h : Tells d s false entries)
    (hpc : s.instructionAddress ≠ 0) (hflush : flushes d s = false)
    (hdirect : ∀ e ∈ accesses d s, Direct b e.address)
    (hdone : (executeOn env d s b').1.reason = .stepComplete) (jit : Bool) :
    ∃ entries, (executeOn env d s b').2.accessWatchLog = b.accessWatchLog ++ entries ∧
      Reports jit d s entries := by
  refine ⟨entries ++ accesses d s, ?_, h.followed (reports_accesses jit)⟩
  have hdirect' : ∀ r ∈ transfers d s, Direct b' r.access.address := by
    intro r hr
    unfold Direct
    rw [hsame.map]
    exact hdirect _ (mem_map.mpr ⟨r, hr, rfl⟩)
  rw [executeOn_logs (hsame.enabled.trans henabled) hpc hflush hdirect' hdone, hlog,
    append_assoc]
  rfl

lemma runBody_reports (hd : Wellformed d) (henabled : b.accessWatchLogEnabled = true)
    (hpc : s.instructionAddress ≠ 0) (hflush : flushes d s = false)
    (hdirect : ∀ e ∈ accesses d s, Direct b e.address) {attempt : Bool}
    (hjit : attempt = true → jit = true)
    (hdone : (runBody env attempt (classifyJitFast d) s.instructionAddress d s b).1.reason =
      .stepComplete) :
    ∃ entries, (runBody env attempt (classifyJitFast d) s.instructionAddress d s b).2.accessWatchLog
        = b.accessWatchLog ++ entries ∧ Reports jit d s entries := by
  have hfaithful : Cpu.Sound env d s b (classifyJitFast d) := executeJitFast_faithful hd
  unfold runBody at hdone ⊢
  dsimp only at hdone ⊢
  split at hdone
  · rename_i hattempt
    rw [if_pos hattempt]
    obtain ⟨entries, hlog, htells⟩ := executeJitFast_logs henabled hpc env hflush hdirect hd
    split at hdone
    · rename_i hhandled
      rw [if_pos hhandled]
      rw [hhandled] at htells
      rw [Bool.and_eq_true] at hattempt
      rw [hjit hattempt.1]
      exact ⟨entries, hlog, htells.retired⟩
    · rename_i hhandled
      rw [if_neg hhandled]
      rw [Bool.not_eq_true] at hhandled
      obtain ⟨hcpu, halike⟩ := hfaithful.declined hhandled
      rw [hhandled] at htells
      rw [hcpu] at hdone ⊢
      exact executeOn_reports henabled (SameWatch.of_alike halike) hlog htells hpc hflush hdirect
        hdone jit
  · rename_i hattempt
    rw [if_neg hattempt]
    exact executeOn_reports henabled (SameWatch.refl b) (append_nil _).symm tells_nothing hpc
      hflush hdirect hdone jit

lemma transfers_itAdjusted (wasInIt : Bool) (d : DecodedInstruction) (s : CpuState) :
    transfers (itAdjusted wasInIt d) s = transfers d s := by
  unfold itAdjusted
  split <;> rfl

lemma Reports.of_itAdjusted {wasInIt : Bool}
    (h : Reports jit (itAdjusted wasInIt d) s entries) : Reports jit d s entries := by
  have haccesses : accesses (itAdjusted wasInIt d) s = accesses d s := by
    rw [accesses, transfers_itAdjusted]
    rfl
  have hseen : seen jit (itAdjusted wasInIt d) s = seen jit d s := by
    rw [seen, seen, shown, shown, haccesses, itAdjusted_kind]
  exact ⟨h.width, haccesses ▸ h.sound, hseen ▸ h.complete⟩

structure Plain (d : DecodedInstruction) (s : CpuState) (b : MemoryBus δ) : Prop where
  enabled : b.accessWatchLogEnabled = true
  placed : s.instructionAddress ≠ 0
  pushed : flushes d s = false
  direct : ∀ e ∈ accesses d s, Direct b e.address

lemma Plain.itAdjusted (h : Plain d s b) (wasInIt : Bool) :
    Plain (itAdjusted wasInIt d) s b where
  enabled := h.enabled
  placed := h.placed
  pushed := by
    rw [flushes, itAdjusted_kind]
    exact h.pushed
  direct := by
    rw [accesses, transfers_itAdjusted]
    exact h.direct

variable {size : Nat} {useJit : Bool} {m : Machine δ}

lemma retireChecked_reports {declined : Bool} (hd : Wellformed d)
    (hpasses : passes d m.cpu = true) (hplain : Plain d (entered m.cpu size) m.bus)
    (hdone : (retireChecked env useJit declined (prepare raw size d) m).1.reason = .stepComplete) :
    ∃ entries, (retireChecked env useJit declined (prepare raw size d) m).2.bus.accessWatchLog =
        m.bus.accessWatchLog ++ entries ∧ Reports useJit d (entered m.cpu size) entries := by
  have hadjusted := hplain.itAdjusted (inItBlock m.cpu.itState)
  unfold retireChecked at hdone ⊢
  rw [conclude_reason] at hdone
  rw [conclude_bus]
  unfold body at hdone ⊢
  rw [if_pos (by exact hpasses)] at hdone ⊢
  have hclass : (prepare raw size d).jitFast =
      classifyJitFast (itAdjusted (inItBlock m.cpu.itState) d) :=
    (classifyJitFast_itAdjusted _ d).symm
  have hpc : m.cpu.pc = (entered m.cpu size).instructionAddress :=
    (entered_instructionAddress m.cpu size).symm
  have hjit : (useJit && !inItBlock m.cpu.itState && !declined) = true → useJit = true := by
    intro hattempt
    simp only [Bool.and_eq_true] at hattempt
    exact hattempt.1.1
  rw [hclass, hpc] at hdone ⊢
  obtain ⟨entries, hlog, hreports⟩ := runBody_reports (hd.itAdjusted _) hadjusted.enabled
    hadjusted.placed hadjusted.pushed hadjusted.direct hjit hdone
  exact ⟨entries, hlog, hreports.of_itAdjusted⟩

def handlerOf (size : Nat) (d : DecodedInstruction) (m : Machine δ) : Handled δ :=
  executeJitFast d (classifyJitFast d) m.cpu.pc (entered m.cpu size) m.bus

section

variable (hfast : (useJit && m.cpu.itState = 0 && (prepare raw size d).fastUnconditional) = true)
include hfast

lemma retire_declined (hhandled : (handlerOf size d m).handled = false)
    (hcpu : (handlerOf size d m).cpu = entered m.cpu size) :
    retire env useJit (prepare raw size d) m =
      retireChecked env useJit true (prepare raw size d)
        { m with bus := (handlerOf size d m).bus } := by
  have hrewound : { (handlerOf size d m).cpu with
      instructionAddress := m.cpu.instructionAddress }.setPc m.cpu.pc = m.cpu := by
    rw [hcpu]
    exact rewind_entered m.cpu size
  unfold retire
  rw [if_pos hfast, if_neg (by exact Bool.eq_false_iff.mp hhandled)]
  exact congrArg (fun s => retireChecked env useJit true (prepare raw size d)
    { m with cpu := s, bus := (handlerOf size d m).bus }) hrewound

lemma retire_handled (hhandled : (handlerOf size d m).handled = true) :
    (retire env useJit (prepare raw size d) m).2.bus = (handlerOf size d m).bus := by
  unfold retire
  rw [if_pos hfast, if_pos (by exact hhandled)]
  rfl

end

lemma retire_reports (hd : Wellformed d) (hpasses : passes d m.cpu = true)
    (hplain : Plain d (entered m.cpu size) m.bus)
    (hdone : (retire env useJit (prepare raw size d) m).1.reason = .stepComplete) :
    ∃ entries, (retire env useJit (prepare raw size d) m).2.bus.accessWatchLog =
        m.bus.accessWatchLog ++ entries ∧ Reports useJit d (entered m.cpu size) entries := by
  have hfaithful : Cpu.Sound env d (entered m.cpu size) m.bus (classifyJitFast d) :=
    executeJitFast_faithful hd
  obtain ⟨entries, hlog, htells⟩ :=
    executeJitFast_logs hplain.enabled hplain.placed env hplain.pushed hplain.direct hd
  unfold Cpu.Sound at hfaithful
  change (handlerOf size d m).bus.accessWatchLog = _ at hlog
  change Tells d _ (handlerOf size d m).handled entries at htells
  by_cases hfast : (useJit && m.cpu.itState = 0 && (prepare raw size d).fastUnconditional) = true
  · cases hhandled : (handlerOf size d m).handled with
    | true =>
      rw [hhandled] at htells
      have hjit : useJit = true := by
        simp only [Bool.and_eq_true] at hfast
        exact hfast.1.1
      rw [retire_handled hfast hhandled, hjit]
      exact ⟨entries, hlog, htells.retired⟩
    | false =>
      rw [hhandled] at htells
      obtain ⟨hcpu, halike⟩ := hfaithful.declined hhandled
      have hsame : SameWatch m.bus (handlerOf size d m).bus := SameWatch.of_alike halike
      have hplain' : Plain d (entered m.cpu size) (handlerOf size d m).bus := by
        refine ⟨hsame.enabled.trans hplain.enabled, hplain.placed, hplain.pushed, fun e he => ?_⟩
        unfold Direct
        rw [hsame.map]
        exact hplain.direct e he
      rw [retire_declined hfast hhandled hcpu] at hdone ⊢
      obtain ⟨entries', hlog', hreports⟩ := retireChecked_reports hd (by exact hpasses)
        (by exact hplain') hdone
      refine ⟨entries ++ entries', ?_, htells.followed hreports⟩
      rw [hlog', hlog, append_assoc]
  · rw [retire, if_neg hfast] at hdone ⊢
    exact retireChecked_reports hd hpasses hplain hdone

lemma retire_skipped (hpasses : passes d m.cpu = false) :
    (retire env useJit (prepare raw size d) m).2.bus = m.bus := by
  have hslow : ¬(useJit && m.cpu.itState = 0 && (prepare raw size d).fastUnconditional) = true := by
    intro hfast
    simp [prepare] at hfast
    rw [passes_unconditional hfast.2.1 hfast.1.2] at hpasses
    cases hpasses
  have hbody : body env useJit false (prepare raw size d) m =
      (complete (entered m.cpu size), m.bus) :=
    if_neg (Bool.eq_false_iff.mp hpasses)
  rw [retire, if_neg hslow, retireChecked, conclude_bus, hbody]

end Logs

end Fil.Sim
