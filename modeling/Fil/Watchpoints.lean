-- Watchpoints over a whole run. Every turn of the loop logs the data accesses of
-- the instruction that it retires, so the run stops at the first instruction that
-- touches a watched byte, where the log shows its accesses. It does not show all
-- of them: the later words of a bulk store, accesses through an alias and those
-- of an instruction at address zero are missing, and a frame that is pushed late
-- is taken for an access of the instruction that has it pushed.
import Fil.HandlerLogs

open Dialogue Fil.Mem Fil.Mem.MemoryBus List

namespace Fil.Sim

open Fil.Cpu

variable {δ β : Type}

/-! ## The fetch is not logged -/

/-- No device range can be executed, as no device is mapped so. -/
def NoDeviceCode (m : RegionMap) : Prop :=
  ∀ r ∈ m.regions, r.info.kind = .mmio → r.info.executable = false

variable {b : MemoryBus δ}

theorem mapMmio_noDeviceCode {b' : MemoryBus δ} {base size : BitVec 32} {device : Nat}
    {name : String} (h : NoDeviceCode b.map) (hmap : b.mapMmio base size device name = .ok b') :
    NoDeviceCode b'.map := by
  unfold mapMmio MemoryBus.addRegion at hmap
  split at hmap
  · cases hmap
  rename_i map hadd
  cases hmap
  intro q hq
  rcases mem_cons.mp ((RegionMap.addRegion_ok hadd).2.mem_iff.mp hq) with rfl | hq
  · exact fun _ => rfl
  · exact h q hq

lemma readRoute_mmio_fetch {a : BitVec 32} {size : AccessSize} {pc : BitVec 32} {r : Region}
    (h : b.readRoute a size ⟨.instructionFetch, pc⟩ = .mmio r) :
    b.map.find a = some r ∧ r.info.kind = .mmio ∧ r.info.executable = true := by
  unfold readRoute at h
  dsimp only at h
  split_ifs at h
  split at h
  · cases h
  rename_i q hq
  split_ifs at h with hc hreadable hexecutable
  split at h <;> cases h
  rename_i hk
  exact ⟨hq, hk, by simpa using hexecutable⟩

lemma read_fetch_log (hdevices : NoDeviceCode b.map) (a : BitVec 32) (size : AccessSize)
    (pc : BitVec 32) :
    (b.read a size ⟨.instructionFetch, pc⟩).2.accessWatchLog = b.accessWatchLog := by
  unfold MemoryBus.read
  rcases readFrom_cases maximumAliasDepth b a size ⟨.instructionFetch, pc⟩ with
    ⟨f, h⟩ | ⟨a', r, hroute, h⟩ | ⟨a', r, hroute, h⟩
  · rw [h]
  · obtain ⟨hfind, hk, hexecutable⟩ := readRoute_mmio_fetch hroute
    rw [hdevices r (RegionMap.find_some hfind).1 hk] at hexecutable
    cases hexecutable
  · rw [h]
    rfl

lemma fetch_same (pc : BitVec 32) (b : MemoryBus δ) : SameWatch b (fetch pc b).2 :=
  SameWatch.of_does (fetch_does pc b)

lemma fetch_log (hdevices : NoDeviceCode b.map) (pc : BitVec 32) :
    (fetch pc b).2.accessWatchLog = b.accessWatchLog := by
  have hfirst : (b.read16 pc ⟨.instructionFetch, pc⟩).2.accessWatchLog = b.accessWatchLog := by
    rw [read16_eq]
    exact read_fetch_log hdevices pc .halfword pc
  rcases fetch_bus pc b with h | h <;> rw [h]
  · exact hfirst
  · rw [← hfirst, read16_eq]
    exact read_fetch_log (by rw [(read16_does b pc _).map]; exact hdevices) _ .halfword pc

/-! ## What a step logs -/

/-- The instruction at the PC and its size, if its condition holds. -/
def atPc (m : Machine δ) : Option (Nat × DecodedInstruction) :=
  match (fetch m.cpu.pc m.bus).1 with
  | .decoded _ size d => if passes d m.cpu then some (size, d) else none
  | _ => none

def dataAccesses (m : Machine δ) : List AccessWatchEntry :=
  match atPc m with
  | some (size, d) => accesses d (entered m.cpu size)
  | none => []

/-- Those that a run sees. -/
def seenAccesses (jit : Bool) (m : Machine δ) : List AccessWatchEntry :=
  match atPc m with
  | some (size, d) => seen jit d (entered m.cpu size)
  | none => []

def pushesFrame (m : Machine δ) : Bool :=
  match atPc m with
  | some (size, d) => flushes d (entered m.cpu size)
  | none => false

/-- An instruction whose accesses the log tells of. -/
structure InSight (m : Machine δ) : Prop where
  placed : m.cpu.pc ≠ 0
  pushed : pushesFrame m = false
  direct : ∀ e ∈ dataAccesses m, Direct m.bus e.address

variable {env : Environment δ} {jit : Bool} {m : Machine δ}

lemma stepFastImpl_complete
    (hdone : (stepFastImpl env jit m).1.reason = .stepComplete) :
    ∃ raw size d, (fetch m.cpu.pc m.bus).1 = .decoded raw size d ∧
      stepFastImpl env jit m =
        retire env jit (prepare raw size d) { m with bus := (fetch m.cpu.pc m.bus).2 } := by
  unfold stepFastImpl at hdone ⊢
  dsimp only at hdone ⊢
  split at hdone
  · cases hdone
  rename_i hhalted
  rw [if_neg hhalted]
  split at hdone
  · cases hdone
  rename_i hthumb
  rw [if_neg hthumb]
  rcases hfetch : fetch m.cpu.pc m.bus with ⟨fetched, b⟩
  rw [hfetch] at hdone
  cases fetched with
  | faulted raw size fault message => cases hdone
  | undefined raw size => cases hdone
  | decoded raw size d => exact ⟨raw, size, d, rfl, rfl⟩

/-- The bus after a step that completes: nothing but accesses of the instruction
was logged, and all that a run sees. -/
lemma step_logs (hdevices : NoDeviceCode m.bus.map)
    (henabled : m.bus.accessWatchLogEnabled = true) (hsight : InSight m)
    (hdone : (stepFastImpl env jit m).1.reason = .stepComplete) :
    ∃ entries, (stepFastImpl env jit m).2.bus.accessWatchLog = m.bus.accessWatchLog ++ entries ∧
      (∀ e ∈ entries, 0 < e.width) ∧ ∀ w : Watchpoint,
        (w.Meets entries → w.Meets (dataAccesses m)) ∧
        (w.Meets (seenAccesses jit m) → w.Meets entries) := by
  obtain ⟨hplaced, hpushed, hdirect⟩ := hsight
  obtain ⟨raw, size, d, hfetch, hstep⟩ := stepFastImpl_complete hdone
  have hlog := fetch_log hdevices m.cpu.pc
  have hsame := fetch_same m.cpu.pc m.bus
  have hd : Wellformed d :=
    (fetch_decoded (show fetch m.cpu.pc m.bus = (.decoded raw size d, _) from
      Prod.ext hfetch rfl)).wellformed
  rw [hstep] at hdone ⊢
  by_cases hpasses : passes d m.cpu = true
  · have hat : atPc m = some (size, d) := by
      unfold atPc
      rw [hfetch]
      exact if_pos hpasses
    unfold pushesFrame at hpushed
    unfold dataAccesses at hdirect ⊢
    unfold seenAccesses
    rw [hat] at hpushed hdirect ⊢
    have hplain : Plain d (entered m.cpu size) (fetch m.cpu.pc m.bus).2 := by
      refine ⟨hsame.enabled.trans henabled, ?_, hpushed, fun e he => ?_⟩
      · rw [entered_instructionAddress]
        exact hplaced
      · unfold Direct
        rw [hsame.map]
        exact hdirect e he
    obtain ⟨entries, hentries, hreports⟩ := retire_reports hd (by exact hpasses) (by exact hplain)
      hdone
    rw [hentries, ← hlog]
    exact ⟨entries, rfl, hreports.width, fun w => ⟨hreports.sound w, hreports.complete w⟩⟩
  · have hat : atPc m = none := by
      unfold atPc
      rw [hfetch]
      exact if_neg hpasses
    unfold dataAccesses seenAccesses
    rw [hat]
    refine ⟨[], ?_, by simp, fun w => ⟨id, id⟩⟩
    have hskipped : (retire env jit (prepare raw size d)
        { m with bus := (fetch m.cpu.pc m.bus).2 }).2.bus = (fetch m.cpu.pc m.bus).2 :=
      retire_skipped (by exact Bool.eq_false_iff.mpr hpasses)
    rw [hskipped, hlog, append_nil]

lemma stepFastImpl_same (jit : Bool) (m : Machine δ) :
    SameWatch m.bus (stepFastImpl env jit m).2.bus :=
  SameWatch.of_does (stepFastImpl_does jit m)

/-! ## Exceptions keep the watch -/

section Exceptions

variable {sys : SystemControl δ}

lemma SameWatch.of_leaves {h : Handling δ} {stack : List (BitVec 16)} {change : δ → δ}
    {result : Except ExceptionError Unit × Handling δ} (hleaves : Leaves h stack change result) :
    SameWatch h.bus result.2.bus := by
  rcases hleaves with ⟨-, -, hdoes⟩ | ⟨-, -, b, hdoes, hbus⟩
  · exact of_does hdoes
  have hsame := of_does hdoes
  rw [hbus]
  exact ⟨hsame.map, hsame.enabled⟩

lemma enter_same (number : BitVec 16) (h : Handling δ) :
    SameWatch h.bus (enter sys number h).2.bus :=
  SameWatch.of_leaves (enter_leaves rfl)

lemma exceptionReturn_same (token : BitVec 32) (h : Handling δ) :
    SameWatch h.bus (exceptionReturn sys token h).2.bus :=
  SameWatch.of_leaves (exceptionReturn_leaves rfl)

/-- Settling the boundary of an instruction keeps the map and the setting of the
log. -/
lemma settle_same (sys : SystemControl δ) (h : Handling δ) :
    SameWatch h.bus (settleInstructionBoundary sys h).2.bus := by
  refine settle_rel_of_calls (R := fun h h' => SameWatch h.bus h'.bus) (fun _ => .refl _)
    (fun _ _ _ => .trans) (fun _ _ _ => .refl _) enter_same exceptionReturn_same (fun h => ?_) h
  unfold settleReset
  split
  · exact ⟨rfl, rfl⟩
  · exact .refl _

end Exceptions

/-! ## One turn -/

section Run

variable {host : Surroundings δ β} {options : BoardRunOptions}

/-- The instruction at the PC touches a watched byte. -/
def Touches (options : BoardRunOptions) (m : Machine δ) : Prop :=
  ∃ w ∈ options.watchpoints, w.Meets (dataAccesses m)

/-- A retired instruction that the run can see: its log tells of it, a watchpoint
that it meets meets a part of it that is logged, and the log stays where it is
while its boundary is settled. -/
structure Observed (host : Surroundings δ β) (options : BoardRunOptions) (r : Retirement δ) :
    Prop where
  sight : InSight r.start
  shown : ∀ w ∈ options.watchpoints, w.Meets (dataAccesses r.start) →
    w.Meets (seenAccesses options.jitOk r.start)
  kept : host.watchAccesses r.retired r.settled = r.retired.accessWatchLog

/-- What holds of a run that goes on. -/
structure Watching (options : BoardRunOptions) (st : RunState δ β) : Prop where
  devices : NoDeviceCode st.board.machine.bus.map
  enabled : options.watchpoints ≠ [] → st.board.machine.bus.accessWatchLogEnabled = true
  untouched : ∀ r ∈ st.retirements, ¬Touches options r.start

/-- What holds of a run that ended: it stopped for a watchpoint if its last
instruction touched a watched byte, and no instruction before did. -/
def StopsRight (options : BoardRunOptions) (result : BoardRunResult δ β) : Prop :=
  (result.reason = .watchpoint ↔
      ∃ last, result.retirements.getLast? = some last ∧ Touches options last.start) ∧
    ∀ r ∈ result.retirements.dropLast, ¬Touches options r.start

lemma stopsRight_untouched {result : BoardRunResult δ β}
    (h : ∀ r ∈ result.retirements, ¬Touches options r.start)
    (hreason : result.reason ≠ .watchpoint) : StopsRight options result := by
  refine ⟨⟨fun heq => absurd heq hreason, ?_⟩, fun r hr => h r (mem_of_mem_dropLast hr)⟩
  rintro ⟨last, hlast, htouches⟩
  exact absurd htouches (h last (mem_of_getLast? hlast))

variable {st : RunState δ β} {result : FastStepResult}

lemma finished_reason {reason : BoardStopReason} {message : String}
    {hit : Option WatchpointStop} (h : reason ≠ .watchpoint) :
    (finished host options st reason message hit).reason ≠ .watchpoint := by
  unfold finished
  split
  · simp
  · exact h

lemma watchMessage_ne (hit : WatchpointStop) : watchMessage hit ≠ "" := by
  intro h
  have hlength := congrArg String.length h
  have hhead : "watchpoint hit at ".length = 18 := rfl
  have hempty : "".length = 0 := rfl
  unfold watchMessage at hlength
  rw [String.length_append, String.length_append] at hlength
  omega

structure LogTells (options : BoardRunOptions) (start : Machine δ) (b : MemoryBus δ) : Prop where
  width : ∀ e ∈ b.accessWatchLog, 0 < e.width
  sound : ∀ w : Watchpoint, w.Meets b.accessWatchLog → w.Meets (dataAccesses start)
  complete : ∀ w : Watchpoint, w.Meets (seenAccesses options.jitOk start) →
    w.Meets b.accessWatchLog

lemma hit_iff {r : Retirement δ} (hobserved : Observed host options r)
    (hlog : options.watchpoints ≠ [] → InSight r.start → LogTells options r.start r.retired) :
    (watchpointHit options.watchpoints (host.watchAccesses r.retired r.settled)).isSome = true ↔
      Touches options r.start := by
  rw [hobserved.kept]
  by_cases hnone : options.watchpoints = []
  · unfold Touches watchpointHit
    rw [hnone]
    simp
  have htells := hlog hnone hobserved.sight
  rw [watchpointHit_isSome htells.width]
  constructor
  · rintro ⟨w, hw, hmeets⟩
    exact ⟨w, hw, htells.sound w hmeets⟩
  · rintro ⟨w, hw, hmeets⟩
    exact ⟨w, hw, htells.complete w (hobserved.shown w hw hmeets)⟩

variable {st st' : RunState δ β}

lemma detectSpin_ok
    (heq : detectSpin host options result st = .ok st') :
    st'.retirements = st.retirements ∧ SameWatch st.board.machine.bus st'.board.machine.bus := by
  have hsame := host.observe_same result st.instructions st.cycles st.board
  unfold detectSpin at heq
  split at heq
  · cases heq
    exact ⟨rfl, SameWatch.refl _⟩
  split at heq
  · rename_i hloop
    rw [hloop] at hsame
    cases heq
    exact ⟨rfl, hsame⟩
  rename_i hloop
  rw [hloop] at hsame
  dsimp only at heq
  split at heq <;> cases heq
  exact ⟨rfl, hsame⟩

lemma detectSpin_error
    {ended : BoardRunResult δ β} (heq : detectSpin host options result st = .error ended) :
    ended.retirements = st.retirements ∧ ended.reason ≠ .watchpoint := by
  unfold detectSpin at heq
  split at heq
  · cases heq
  split at heq
  · cases heq
  dsimp only at heq
  split at heq <;> cases heq
  exact ⟨rfl, finished_reason (by decide)⟩

/-- The instructions retired when a part of a run is over. -/
def soFar : Except (BoardRunResult δ β) (RunState δ β) → List (Retirement δ)
  | .ok st => st.retirements
  | .error ended => ended.retirements

lemma detectSpin_soFar (result : FastStepResult) (st : RunState δ β) :
    soFar (detectSpin host options result st) = st.retirements := by
  cases h : detectSpin host options result st with
  | ok st' => exact (detectSpin_ok h).1
  | error ended => exact (detectSpin_error h).1

lemma concludeTurn_extends (result : FastStepResult) (start : Machine δ) (st : RunState δ β) :
    st.retirements <+: soFar (concludeTurn host options result start st) := by
  unfold concludeTurn
  dsimp only
  split
  · exact prefix_rfl
  split
  · exact prefix_append _ _
  · rw [detectSpin_soFar]
    exact prefix_append _ _

lemma turn_extends (deadline : Nat) (st : RunState δ β) :
    st.retirements <+: soFar (turn host options deadline st) := by
  unfold turn
  split
  · exact prefix_rfl
  dsimp only
  split
  · exact prefix_rfl
  · refine List.IsPrefix.trans ?_ (concludeTurn_extends _ _ _)
    exact prefix_rfl

/-- What is retired stays retired to the end of the run. -/
lemma runLoop_extends (deadline fuel : Nat) (st : RunState δ β) :
    st.retirements <+: (runLoop host options deadline fuel st).retirements := by
  induction fuel generalizing st with
  | zero => exact prefix_rfl
  | succ fuel ih =>
    have hturn : st.retirements <+: soFar (turn host options deadline st) :=
      turn_extends deadline st
    unfold runLoop
    split
    · cases hnext : turn host options deadline st with
      | error ended =>
        rw [hnext] at hturn
        exact hturn
      | ok st' =>
        rw [hnext] at hturn
        exact hturn.trans (ih st')
    · exact prefix_rfl

/-- A part of a run: if all that is retired is observed, the run goes on untouched
or ends right. -/
structure GoesRight (host : Surroundings δ β) (options : BoardRunOptions)
    (next : Except (BoardRunResult δ β) (RunState δ β)) : Prop where
  goes : ∀ st, next = .ok st → (∀ r ∈ st.retirements, Observed host options r) →
    Watching options st
  ends : ∀ ended, next = .error ended → (∀ r ∈ ended.retirements, Observed host options r) →
    StopsRight options ended

/-- A run that ends for another reason, with nothing touched so far. -/
lemma GoesRight.ended {ended : BoardRunResult δ β}
    (huntouched : ∀ r ∈ ended.retirements, ¬Touches options r.start)
    (hreason : ended.reason ≠ .watchpoint) : GoesRight host options (.error ended) := by
  refine ⟨fun st heq => ?_, fun ended' heq _ => ?_⟩ <;> cases heq
  exact stopsRight_untouched huntouched hreason

lemma Watching.of_same (h : Watching options st)
    (hsame : SameWatch st.board.machine.bus st'.board.machine.bus)
    (hretirements : ∀ r ∈ st'.retirements, ¬Touches options r.start) : Watching options st' :=
  ⟨by rw [hsame.map]; exact h.devices, fun hw => hsame.enabled.trans (h.enabled hw), hretirements⟩

lemma concludeTurn_right {start : Machine δ}
    (h : Watching options st)
    (hlog : options.watchpoints ≠ [] → InSight start →
      LogTells options start st.board.machine.bus) :
    GoesRight host options (concludeTurn host options result start st) := by
  have hsame := settle_same host.sys st.board.handling
  unfold concludeTurn
  dsimp only
  split
  · rename_i stop _
    refine .ended h.untouched (finished_reason ?_)
    cases stop.reason <;> simp [boundaryReasonOf]
  generalize hr : (⟨start, st.board.machine.bus,
    (settleInstructionBoundary host.sys st.board.handling).2.bus⟩ : Retirement δ) = r
  have hhit : Observed host options r →
      ((watchpointHit options.watchpoints (host.watchAccesses r.retired r.settled)).isSome = true ↔
        Touches options r.start) := fun hobserved => hit_iff hobserved (by rw [← hr]; exact hlog)
  split
  · rename_i hit hsome
    refine ⟨fun st' heq => ?_, fun ended heq hobserved => ?_⟩ <;> cases heq
    refine ⟨⟨fun _ => ⟨r, ?_, ?_⟩, fun _ => ?_⟩, ?_⟩
    · exact getLast?_concat
    · refine (hhit (hobserved r (by simp [finished]))).mp ?_
      rw [← hr, hsome]
      rfl
    · exact if_neg fun hmessage => watchMessage_ne hit hmessage.2
    · intro q hq
      rw [finished, dropLast_concat] at hq
      exact h.untouched q hq
  · rename_i hnone
    have huntouched : Observed host options r →
        ∀ q ∈ st.retirements ++ [r], ¬Touches options q.start := by
      intro hobserved q hq
      rcases mem_append.mp hq with hq | hq
      · exact h.untouched q hq
      rw [mem_singleton.mp hq]
      intro htouches
      have hsome := (hhit hobserved).mpr htouches
      rw [← hr, hnone] at hsome
      cases hsome
    refine ⟨fun st' heq hobserved => ?_, fun ended heq hobserved => ?_⟩
    · obtain ⟨hretirements, hkept⟩ := detectSpin_ok heq
      rw [hretirements] at hobserved
      refine h.of_same (hsame.trans hkept) ?_
      rw [hretirements]
      exact huntouched (hobserved r (by simp))
    · obtain ⟨hretirements, hreason⟩ := detectSpin_error heq
      rw [hretirements] at hobserved
      refine stopsRight_untouched ?_ hreason
      rw [hretirements]
      exact huntouched (hobserved r (by simp))

/-! ## A whole run -/

lemma clearLog_same (board : Board δ β) :
    SameWatch board.machine.bus (clearLog options board).machine.bus := by
  unfold clearLog
  split
  · exact SameWatch.refl _
  · exact ⟨rfl, rfl⟩

lemma stepSingle_same (jit : Bool) (board : Board δ β) :
    SameWatch board.machine.bus (stepSingleWithFetchTiming host jit board).2.machine.bus := by
  have hsame : SameWatch board.machine.bus (stepFastImpl host.env jit board.machine).2.bus :=
    stepFastImpl_same jit board.machine
  unfold stepSingleWithFetchTiming
  dsimp only
  split <;> exact hsame

lemma stepOnce_same (st : RunState δ β) (board : Board δ β) :
    SameWatch board.machine.bus (stepOnce host options st board).2.2.machine.bus := by
  unfold stepOnce
  split
  · exact stepSingle_same _ _
  · exact host.stepBlock_same _ _

lemma stepOnce_single (host : Surroundings δ β) (h : options.watchpoints ≠ [])
    (st : RunState δ β) (board : Board δ β) :
    (stepOnce host options st board).1.reason =
        (stepFastImpl host.env options.jitOk board.machine).1.reason ∧
      (stepOnce host options st board).2.2.machine =
        (stepFastImpl host.env options.jitOk board.machine).2 := by
  have hexact : options.exactStops = true := by
    simp [BoardRunOptions.exactStops, h]
  unfold stepOnce stepSingleWithFetchTiming
  rw [if_pos hexact]
  dsimp only
  split <;> exact ⟨rfl, rfl⟩

lemma turn_logs (h : Watching options st)
    (hw : options.watchpoints ≠ []) (hsight : InSight (clearLog options st.board).machine)
    (hdone : (stepOnce host options st (clearLog options st.board)).1.reason = .stepComplete) :
    LogTells options (clearLog options st.board).machine
      (stepOnce host options st (clearLog options st.board)).2.2.machine.bus := by
  have hstart : SameWatch st.board.machine.bus (clearLog options st.board).machine.bus :=
    clearLog_same st.board
  have hcleared : (clearLog options st.board).machine.bus.accessWatchLog = [] := by
    unfold clearLog
    rw [if_neg (by simpa using hw)]
  obtain ⟨hreason, hmachine⟩ :=
    stepOnce_single host hw st (clearLog options st.board)
  rw [hreason] at hdone
  obtain ⟨entries, hlog, hwidth, hmeets⟩ := step_logs (by rw [hstart.map]; exact h.devices)
    (hstart.enabled.trans (h.enabled hw)) hsight hdone
  rw [hcleared, nil_append] at hlog
  rw [hmachine]
  exact ⟨hlog ▸ hwidth, fun w => hlog ▸ (hmeets w).1, fun w => hlog ▸ (hmeets w).2⟩

variable {deadline : Nat}

lemma turn_right (h : Watching options st) :
    GoesRight host options (turn host options deadline st) := by
  unfold turn
  split
  · rename_i reason message hstop
    refine .ended h.untouched (finished_reason ?_)
    unfold stopBefore at hstop
    dsimp only at hstop
    split_ifs at hstop <;> cases hstop <;> decide
  dsimp only
  have hstart : SameWatch st.board.machine.bus (clearLog options st.board).machine.bus :=
    clearLog_same st.board
  have hstep : SameWatch (clearLog options st.board).machine.bus
      (stepOnce host options st (clearLog options st.board)).2.2.machine.bus :=
    stepOnce_same st _
  have hsame := hstart.trans (hstep.trans (host.advanceTime_same
    (stepOnce host options st (clearLog options st.board)).2.1 _))
  split
  · refine .ended h.untouched ?_
    unfold cpuFailure
    cases (stepOnce host options st (clearLog options st.board)).1.reason <;>
      simp [stopReasonOf]
  rename_i hdone
  rw [not_not] at hdone
  refine concludeTurn_right ?_ fun hw hsight => ?_
  · exact h.of_same hsame h.untouched
  · obtain ⟨hwidth, hsound, hcomplete⟩ := turn_logs h hw hsight hdone
    refine ⟨?_, ?_, ?_⟩ <;> dsimp only <;> rw [host.advanceTime_log]
    · exact hwidth
    · exact hsound
    · exact hcomplete

lemma runLoop_right {fuel : Nat} (h : Watching options st)
    (hobserved : ∀ r ∈ (runLoop host options deadline fuel st).retirements,
      Observed host options r) :
    StopsRight options (runLoop host options deadline fuel st) := by
  induction fuel generalizing st with
  | zero => exact stopsRight_untouched h.untouched (finished_reason (by decide))
  | succ fuel ih =>
    unfold runLoop at hobserved ⊢
    split
    · rename_i hbudget
      rw [if_pos hbudget] at hobserved
      have hturn : GoesRight host options (turn host options deadline st) := turn_right h
      cases hnext : turn host options deadline st with
      | error ended =>
        rw [hnext] at hobserved
        exact hturn.ends ended hnext hobserved
      | ok st' =>
        rw [hnext] at hobserved
        have hkept : st'.retirements <+: (runLoop host options deadline fuel st').retirements :=
          runLoop_extends deadline fuel st'
        exact ih (hturn.goes st' hnext fun r hr => hobserved r (hkept.subset hr)) hobserved
    · exact stopsRight_untouched h.untouched (finished_reason (by decide))

/-! ## No run takes more turns than its budget -/

lemma detectSpin_instructions
    (heq : detectSpin host options result st = .ok st') : st'.instructions = st.instructions := by
  unfold detectSpin at heq
  split at heq
  · cases heq
    rfl
  split at heq
  · cases heq
    rfl
  dsimp only at heq
  split at heq <;> cases heq
  rfl

lemma concludeTurn_instructions {start : Machine δ}
    (heq : concludeTurn host options result start st = .ok st') :
    st'.instructions = st.instructions := by
  unfold concludeTurn at heq
  dsimp only at heq
  split at heq
  · cases heq
  split at heq
  · cases heq
  · rw [detectSpin_instructions heq]

lemma conclude_retires {i : StepInstruction} {done : Executed}
    {b : MemoryBus δ} (h : (conclude i m done b).1.reason = .stepComplete) :
    (conclude i m done b).1.instructions = 1 :=
  (conclude_complete (conclude_reason.symm.trans h)).2.1

lemma retire_retires {i : StepInstruction}
    (h : (retire env jit i m).1.reason = .stepComplete) :
    (retire env jit i m).1.instructions = 1 := by
  unfold retire at h ⊢
  dsimp only at h ⊢
  split
  · rename_i hfast
    rw [if_pos hfast] at h
    split
    · rfl
    rename_i hdeclined
    rw [if_neg hdeclined] at h
    exact conclude_retires h
  · rename_i hslow
    rw [if_neg hslow] at h
    exact conclude_retires h

lemma stepOnce_retires {board : Board δ β}
    (hdone : (stepOnce host options st board).1.reason = .stepComplete) :
    (stepOnce host options st board).1.instructions ≠ 0 := by
  unfold stepOnce at hdone ⊢
  split at hdone
  · rename_i hexact
    rw [if_pos hexact]
    have hreason : (stepFastImpl host.env options.jitOk board.machine).1.reason = .stepComplete := by
      unfold stepSingleWithFetchTiming at hdone
      dsimp only at hdone
      split at hdone <;> exact hdone
    obtain ⟨raw, size, d, -, hstep⟩ := stepFastImpl_complete hreason
    have hone : (stepFastImpl host.env options.jitOk board.machine).1.instructions = 1 := by
      rw [hstep] at hreason ⊢
      exact retire_retires hreason
    unfold stepSingleWithFetchTiming
    dsimp only
    split <;> rw [hone] <;> decide
  · rename_i hexact
    rw [if_neg hexact]
    exact host.stepBlock_retires _ _ hdone

lemma turn_retires (heq : turn host options deadline st = .ok st') :
    st.instructions < st'.instructions := by
  unfold turn at heq
  split at heq
  · cases heq
  dsimp only at heq
  split at heq
  · cases heq
  rename_i hdone
  have hretired := stepOnce_retires (not_not.mp hdone)
  rw [concludeTurn_instructions heq]
  dsimp only
  omega

/-- A run that has a turn for every instruction left in its budget does not change
with more of them. -/
lemma runLoop_enough {fuel : Nat} (h : options.maxInstructions ≤ st.instructions + fuel)
    (more : Nat) :
    runLoop host options deadline (fuel + more) st = runLoop host options deadline fuel st := by
  induction fuel generalizing st with
  | zero =>
    cases more with
    | zero => rfl
    | succ more => exact if_neg (by omega)
  | succ fuel ih =>
    rw [Nat.add_right_comm]
    unfold runLoop
    split
    · split
      · rfl
      rename_i hturn
      have hlt := turn_retires hturn
      exact ih (by omega)
    · rfl

/-- **A run ends within its budget.** A loop that may take any number of turns more
than the budget has instructions ends as the run does. -/
theorem no_run_takes_more_turns_than_its_budget (host : Surroundings δ β)
    (options : BoardRunOptions) (board : Board δ β) (more : Nat) :
    runLoop host options (deadlineOf host options board) (options.maxInstructions + more)
      { board := watched options board } = run host options board :=
  runLoop_enough (Nat.le_add_left _ _) more

/-- A run stops for a watchpoint right after the first instruction that makes an
access of the watched kind to a watched byte, and for no other, if the run can see
every instruction that it retires. -/
theorem a_run_stops_at_the_first_watched_access (host : Surroundings δ β)
    (options : BoardRunOptions) (board : Board δ β)
    (hdevices : NoDeviceCode board.machine.bus.map)
    (hobserved : ∀ r ∈ (run host options board).retirements, Observed host options r) :
    StopsRight options (run host options board) := by
  refine runLoop_right ⟨hdevices, fun hw => ?_, by simp⟩ hobserved
  simpa [watched, setAccessWatchLog] using hw

end Run

/-! ## Two pushes -/

/-- A system control that never asks for anything. -/
def quietControl : SystemControl Unit where
  ccr _ := 0
  fpccr _ := 0
  vectorBase _ := 0
  hasEnabledPending _ := false
  nextPending _ _ _ _ := none
  enter _ := id
  leave _ := id
  resume _ := id
  resetRequested _ := false
  consumeResetRequest := id

/-- A board on its own: no events, no waiting for the flash, no blocks. -/
def quietHost : Surroundings Unit Unit where
  env := plainEnvironment
  sys := quietControl
  now _ := 0
  fetchStallCycles _ _ _ := 0
  advanceTime _ board := board
  stepBlock _ board := ({ reason := .instructionBudget }, 0, board)
  observeLoopBoundary _ _ _ board := (none, board)
  symbolText _ := ""
  watchAccesses before _ := before.accessWatchLog
  advanceTime_log _ _ := rfl
  advanceTime_same _ _ := SameWatch.refl _
  stepBlock_retires _ _ h := by cases h
  stepBlock_same _ _ := SameWatch.refl _
  observe_same _ _ _ _ := SameWatch.refl _
  watchAccesses_kept _ _ _ := rfl

def watchLastWord : BoardRunOptions :=
  { maxInstructions := 1, watchpoints := [⟨0x20000ffc, 4, .write⟩] }

def boardWith (code : List (BitVec 16)) : Board Unit Unit :=
  { machine := ⟨resetState, smallBoard code, {}⟩, rest := () }

/-- NOP stores nothing, and PUSH {r0, r1} behind it stores to the watched word and is
caught. -/
theorem a_push_of_two_is_caught :
    let options := { watchLastWord with maxInstructions := 3 }
    let result := run quietHost options (boardWith [0xbf00, 0xb403])
    StopsRight options result ∧ result.reason = .watchpoint ∧ result.retirements.length = 2 := by
  intro options result
  refine ⟨a_run_stops_at_the_first_watched_access quietHost options (boardWith [0xbf00, 0xb403])
    ?_ fun r hr => ?_, by decide +kernel, by decide +kernel⟩
  · unfold NoDeviceCode
    decide
  · have hstart : ∀ r ∈ result.retirements,
        r.start.cpu.pc ≠ 0 ∧ pushesFrame r.start = false ∧
          (∀ e ∈ dataAccesses r.start, (r.start.bus.map.find e.address).map (·.info.kind) =
            some .ram) ∧
          seenAccesses options.jitOk r.start = dataAccesses r.start := by decide +kernel
    obtain ⟨hplaced, hpushed, hram, hseen⟩ := hstart r hr
    refine ⟨⟨hplaced, hpushed, fun e he region hregion => ?_⟩, fun w _ hw => ?_, rfl⟩
    · have hkind := hram e he
      rw [hregion, Option.map_some, Option.some.injEq] at hkind
      rw [hkind]
      decide
    · rw [hseen]
      exact hw

/-- PUSH {r0, r1, r2} stores to the watched word too, and is missed. -/
theorem a_push_of_three_is_missed :
    let result := run quietHost watchLastWord (boardWith [0xb407])
    result.reason = .instructionBudget ∧ result.retirements.length = 1 ∧
      ∀ r ∈ result.retirements, Touches watchLastWord r.start := by
  refine ⟨by decide +kernel, by decide +kernel, fun r hr => ?_⟩
  have hmakes : ∀ r ∈ (run quietHost watchLastWord (boardWith [0xb407])).retirements,
      (⟨0x20000ffc, 4, true⟩ : AccessWatchEntry) ∈ dataAccesses r.start := by decide +kernel
  exact ⟨_, List.mem_singleton_self _, _, hmakes r hr, rfl, 0x20000ffc, by decide, by decide⟩

end Fil.Sim
