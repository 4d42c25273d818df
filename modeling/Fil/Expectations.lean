-- The expectations of stimulus scripts. A check waits for a record in its window and
-- gets one verdict, from the record, from the deadline of the window or from the end
-- of the run. A record that comes once the evaluator has finished does not count, even
-- if the clock has not moved.
import Mathlib.Algebra.GroupWithZero.Nat
import Mathlib.Data.List.Basic
import Mathlib.Tactic.Common

open List

namespace Fil.Sim.Stimulus

/-! ## Trace records -/

structure TraceRecord where
  timeNs : Nat
  source : String
  type : String
  fields : List (String × String)
  deriving DecidableEq

def TraceRecord.field (record : TraceRecord) (name : String) : Option String :=
  (record.fields.find? (·.1 == name)).map (·.2)

def hexBytes (bytes : List (BitVec 8)) : String :=
  String.ofList (bytes.flatMap fun byte =>
    [Nat.digitChar (byte.toNat / 16), Nat.digitChar (byte.toNat % 16)])

def hexId (id : BitVec 32) : String := "0x" ++ String.ofList (Nat.toDigits 16 id.toNat)

def boolText (value : Bool) : String := if value then "true" else "false"

def levelText (level : Bool) : String := if level then "1" else "0"

/-! ## Expectations -/

structure CanExpectation where
  bus : String
  id : BitVec 32
  extended : Bool
  data : List (BitVec 8)
  atMs : Nat
  windowMs : Nat
  deriving DecidableEq

structure GpioExpectation where
  board : String
  port : String
  pin : BitVec 8
  level : Bool
  atMs : Nat
  windowMs : Nat
  deriving DecidableEq

inductive Expectation
  | can (expectation : CanExpectation)
  | gpio (expectation : GpioExpectation)
  deriving DecidableEq

def nsPerMs : Nat := 1000000

def maxTimeNs : Nat := 2 ^ 64 - 1

def windowFits (atMs windowMs : Nat) : Bool :=
  atMs ≤ maxTimeNs / nsPerMs && windowMs ≤ maxTimeNs / nsPerMs - atMs

def inWindow (atMs windowMs timeNs : Nat) : Bool :=
  atMs * nsPerMs ≤ timeNs && timeNs ≤ (atMs + windowMs) * nsPerMs

/-- The record is of the frame that is expected, sent by a firmware. -/
def CanExpectation.describes (x : CanExpectation) (record : TraceRecord) : Bool :=
  record.type == "can_tx" &&
    match record.field "bus", record.field "origin", record.field "id", record.field "extended",
      record.field "data" with
    | some bus, some origin, some id, some extended, some data =>
      bus == x.bus && origin != "external" && id == hexId x.id &&
        extended == boolText x.extended && data == hexBytes x.data
    | _, _, _, _, _ => false

def GpioExpectation.describes (x : GpioExpectation) (record : TraceRecord) : Bool :=
  record.type == "gpio_output" && record.source == x.board ++ "." ++ x.port &&
    match record.field "pin", record.field "value" with
    | some pin, some value => pin == toString x.pin.toNat && value == levelText x.level
    | _, _ => false

def matchesCanExpectation (x : CanExpectation) (record : TraceRecord) : Bool :=
  windowFits x.atMs x.windowMs && inWindow x.atMs x.windowMs record.timeNs && x.describes record

def matchesGpioExpectation (x : GpioExpectation) (record : TraceRecord) : Bool :=
  windowFits x.atMs x.windowMs && inWindow x.atMs x.windowMs record.timeNs && x.describes record

def matchesExpectation : Expectation → TraceRecord → Bool
  | .can x => matchesCanExpectation x
  | .gpio x => matchesGpioExpectation x

def expectationStartMs : Expectation → Nat
  | .can x => x.atMs
  | .gpio x => x.atMs

def expectationWindowMs : Expectation → Nat
  | .can x => x.windowMs
  | .gpio x => x.windowMs

namespace Expectation

def startNs (x : Expectation) : Nat := expectationStartMs x * nsPerMs

def endNs (x : Expectation) : Nat := (expectationStartMs x + expectationWindowMs x) * nsPerMs

def describes : Expectation → TraceRecord → Bool
  | .can x => x.describes
  | .gpio x => x.describes

end Expectation

/-! ## The evaluator -/

structure ExpectationCheck where
  script : String
  index : Nat
  expectation : Expectation
  stimulusIndex : Nat
  deriving DecidableEq

inductive CheckStatus
  | pending
  | pass
  | fail
  | incomplete
  deriving DecidableEq

def statusName : CheckStatus → String
  | .pending => "pending"
  | .pass => "pass"
  | .fail => "fail"
  | .incomplete => "incomplete"

inductive Lifecycle
  | created
  | running
  | finished
  deriving DecidableEq

structure CheckState where
  check : ExpectationCheck
  status : CheckStatus
  deriving DecidableEq

structure Emission where
  position : Nat
  status : CheckStatus
  record : TraceRecord
  deriving DecidableEq

structure Evaluator where
  checks : List CheckState
  lifecycle : Lifecycle
  emitted : List Emission
  deriving DecidableEq

/-- What the recorder calls with each record. -/
abbrev Observer := TraceRecord → Evaluator → Evaluator

def expectedFields : Expectation → List (String × String)
  | .can x => [("expected_bus", x.bus), ("expected_id", hexId x.id),
      ("expected_extended", boolText x.extended), ("expected_data", hexBytes x.data)]
  | .gpio x => [("expected_board", x.board), ("expected_port", x.port),
      ("expected_pin", toString x.pin.toNat), ("expected_level", levelText x.level)]

def matchedFields (record : TraceRecord) : List (String × String) :=
  [("matched_type", record.type), ("matched_source", record.source)] ++
    ["bus", "id", "data", "origin", "pin", "value"].map
      (fun name => ("matched_" ++ name, (record.field name).getD "")) ++
    [("matched_time_ns", toString record.timeNs)]

def statusRecord (check : ExpectationCheck) (status : CheckStatus) (timeNs : Nat)
    (matched : Option TraceRecord) : TraceRecord where
  timeNs
  source := "expectation/" ++ check.script
  type := "expectation_" ++ statusName status
  fields :=
    [("check_id", "stimulus/" ++ toString check.stimulusIndex ++ "/" ++ check.script ++
        "/expect/" ++ toString check.index),
      ("script", check.script), ("stimulus_index", toString check.stimulusIndex),
      ("expect_index", toString check.index), ("status", statusName status)] ++
    expectedFields check.expectation ++
    [("window_start_ns", toString check.expectation.startNs),
      ("window_end_ns", toString check.expectation.endNs)] ++
    (matched.map matchedFields).getD []

namespace Evaluator

/-- Why a check is refused. -/
def refusal (check : ExpectationCheck) : Option String :=
  if !windowFits (expectationStartMs check.expectation) (expectationWindowMs check.expectation)
  then some "expectation time window overflows simulated time"
  else if check.expectation.endNs = maxTimeNs
  then some "expectation deadline overflows simulated time"
  else none

def create (checks : List ExpectationCheck) : Except String Evaluator :=
  match checks.findSome? refusal with
  | some text => .error text
  | none => .ok ⟨checks.map (⟨·, .pending⟩), .created, []⟩

def emit (observer : Observer) (position : Nat) (check : ExpectationCheck) (status : CheckStatus)
    (timeNs : Nat) (matched : Option TraceRecord) (e : Evaluator) : Evaluator :=
  let record := statusRecord check status timeNs matched
  observer record { e with emitted := e.emitted ++ [⟨position, status, record⟩] }

/-- One round of the loops that end checks: a pending check that the loop is about
gets its status, and the status is emitted. -/
def settleOne (observer : Observer) (next : CheckStatus) (timeNs : Nat)
    (matched : Option TraceRecord) (applies : ExpectationCheck → Bool) (e : Evaluator)
    (position : Nat) : Evaluator :=
  match e.checks[position]? with
  | none => e
  | some state =>
    if state.status = .pending && applies state.check then
      emit observer position state.check next timeNs matched
        { e with checks := e.checks.set position { state with status := next } }
    else e

def settle (observer : Observer) (next : CheckStatus) (timeNs : Nat)
    (matched : Option TraceRecord) (applies : ExpectationCheck → Bool) (e : Evaluator) :
    Evaluator :=
  (List.range e.checks.length).foldl (settleOne observer next timeNs matched applies) e

/-- A record is observed. What is emitted meanwhile comes back here, so a depth of
such calls is given; beyond it nothing is observed. -/
def observe : Nat → Observer
  | 0, _, e => e
  | depth + 1, record, e =>
    if e.lifecycle ≠ .running then e
    else if record.type ≠ "can_tx" ∧ record.type ≠ "gpio_output" then e
    else settle (observe depth) .pass record.timeNs (some record)
      (fun check => matchesExpectation check.expectation record) e

def advance (depth nowNs loopNow : Nat) (e : Evaluator) : Except String Evaluator :=
  if e.lifecycle ≠ .running then .ok e
  else if nowNs ≠ loopNow then
    .error "expectation advance time must equal the event-loop time"
  else .ok (settle (observe depth) .fail nowNs none
    (fun check => check.expectation.endNs < nowNs) e)

/-- The checks are announced, one after the other. -/
def announce (depth nowNs : Nat) (e : Evaluator) : Evaluator :=
  (List.range e.checks.length).foldl (fun e position =>
    match e.checks[position]? with
    | none => e
    | some state => emit (observe depth) position state.check .pending nowNs none e) e

/-- The times of the deadline events: the first instant after a window. -/
def deadlinesAfter (nowNs : Nat) (e : Evaluator) : List Nat :=
  (e.checks.map (·.check.expectation.endNs + 1)).filter (nowNs < ·)

def begin (depth nowNs loopNow : Nat) (e : Evaluator) : Except String (Evaluator × List Nat) :=
  if nowNs ≠ loopNow then
    .error "expectation start time must equal the event-loop time"
  else if e.lifecycle ≠ .created then .ok (e, [])
  else do
    let begun := announce depth nowNs { e with lifecycle := .running }
    let advanced ← advance depth nowNs loopNow begun
    .ok (advanced, deadlinesAfter nowNs begun)

def finish (depth nowNs loopNow : Nat) (e : Evaluator) : Except String Evaluator :=
  if e.lifecycle ≠ .running then .ok e
  else if nowNs ≠ loopNow then
    .error "expectation finish time must equal the event-loop time"
  else do
    let advanced ← advance depth loopNow loopNow e
    .ok { settle (observe depth) .incomplete loopNow none (fun _ => true) advanced with
      lifecycle := .finished }

end Evaluator

/-! ## Runs -/

/-- The evaluator beside the event loop: its clock, and the deadlines that wait. -/
structure Stage where
  evaluator : Evaluator
  now : Nat
  deadlines : List Nat
  deriving DecidableEq

inductive Op
  | begin (nowNs : Nat)
  | observe (record : TraceRecord)
  | advance (nowNs : Nat)
  | deadline (timeNs : Nat)
  | finish (nowNs : Nat)
  | elapse (nowNs : Nat)
  deriving DecidableEq

namespace Stage

open Evaluator

/-- One step of a run. The clock does not go back, a record is observed at its own
time, a deadline is called at its own time, and an exception ends the run. -/
def step (depth : Nat) (s : Stage) : Op → Option Stage
  | .begin nowNs => (begin depth nowNs s.now s.evaluator).toOption.map fun begun =>
      { s with evaluator := begun.1, deadlines := s.deadlines ++ begun.2 }
  | .observe record =>
      if record.timeNs = s.now then
        some { s with evaluator := observe (depth + 1) record s.evaluator }
      else none
  | .advance nowNs => (advance depth nowNs s.now s.evaluator).toOption.map fun e =>
      { s with evaluator := e }
  | .deadline timeNs =>
      if timeNs ∈ s.deadlines ∧ s.now ≤ timeNs then
        (advance depth timeNs timeNs s.evaluator).toOption.map fun e =>
          ⟨e, timeNs, s.deadlines.erase timeNs⟩
      else none
  | .finish nowNs => (finish depth nowNs s.now s.evaluator).toOption.map fun e =>
      { s with
        evaluator := e
        deadlines := if s.evaluator.lifecycle = .running then [] else s.deadlines }
  | .elapse nowNs => if s.now ≤ nowNs then some { s with now := nowNs } else none

def run (depth : Nat) : List Op → Stage → Option Stage
  | [], s => some s
  | op :: ops, s => (s.step depth op).bind (run depth ops)

end Stage

/-- The records that a run observes. -/
def recordsOf (ops : List Op) : List TraceRecord :=
  ops.filterMap fun
    | .observe record => some record
    | _ => none

/-! ## One check -/

/-- What the evaluator knows of a check, and the statuses that were emitted for it. -/
abbrev View := Option CheckState × List CheckStatus

def Evaluator.view (e : Evaluator) (position : Nat) : View :=
  (e.checks[position]?, (e.emitted.filter (·.position = position)).map (·.status))

/-- A loop that ends checks, seen from one of them. -/
def View.settle (next : CheckStatus) (applies : ExpectationCheck → Bool) : View → View
  | (some state, statuses) =>
    if state.status = .pending && applies state.check then
      (some { state with status := next }, statuses ++ [next])
    else (some state, statuses)
  | (none, statuses) => (none, statuses)

lemma View.settle_pending (check : ExpectationCheck) (next : CheckStatus)
    (applies : ExpectationCheck → Bool) (statuses : List CheckStatus) :
    settle next applies (some ⟨check, .pending⟩, statuses) =
      if applies check then (some ⟨check, next⟩, statuses ++ [next])
      else (some ⟨check, .pending⟩, statuses) := by
  simp [settle]

namespace Evaluator

/-- An observer that has no use for the records of statuses. -/
def Quiet (observer : Observer) : Prop :=
  ∀ check status timeNs matched e, observer (statusRecord check status timeNs matched) e = e

lemma observe_quiet (depth : Nat) : Quiet (observe depth) := by
  intro check status timeNs matched e
  cases depth with
  | zero => rfl
  | succ depth =>
    have hother : (statusRecord check status timeNs matched).type ≠ "can_tx" ∧
        (statusRecord check status timeNs matched).type ≠ "gpio_output" := by
      change "expectation_" ++ statusName status ≠ "can_tx" ∧
        "expectation_" ++ statusName status ≠ "gpio_output"
      cases status <;> decide
    unfold observe
    rw [if_pos hother]
    split <;> rfl

variable {observer : Observer} {next : CheckStatus} {timeNs : Nat} {matched : Option TraceRecord}
  {applies : ExpectationCheck → Bool} {e : Evaluator} {i : Nat}

lemma emit_eq (h : Quiet observer) (position : Nat) (check : ExpectationCheck)
    (e : Evaluator) :
    emit observer position check next timeNs matched e =
      { e with
        emitted := e.emitted ++ [⟨position, next, statusRecord check next timeNs matched⟩] } :=
  h _ _ _ _ _

lemma settleOne_view (h : Quiet observer) (e : Evaluator) (position i : Nat) :
    (settleOne observer next timeNs matched applies e position).view i =
      if i = position then (e.view i).settle next applies else e.view i := by
  unfold settleOne
  by_cases hi : i = position
  · subst hi
    rw [if_pos rfl]
    cases hstate : e.checks[i]? with
    | none => simp [view, View.settle, hstate]
    | some state =>
      have hlt : i < e.checks.length := (List.getElem?_eq_some_iff.mp hstate).1
      have hview : e.view i = (some state, (e.emitted.filter (·.position = i)).map (·.status)) := by
        rw [view, hstate]
      dsimp only
      rw [emit_eq h, hview, View.settle]
      split
      · simp [view, hlt]
      · exact hview
  · rw [if_neg hi]
    split
    · rfl
    rw [emit_eq h]
    split
    · simp [view, Ne.symm hi]
    · rfl

lemma settleOne_lifecycle (h : Quiet observer) (e : Evaluator) (position : Nat) :
    (settleOne observer next timeNs matched applies e position).lifecycle = e.lifecycle := by
  unfold settleOne
  split
  · rfl
  · rw [emit_eq h]
    split <;> rfl

section

variable {f : Evaluator → Nat → Evaluator}

lemma foldl_view {g : View → View} (n : Nat) (e : Evaluator)
    (i : Nat) (hf : ∀ e position, (f e position).view i =
      if i = position then g (e.view i) else e.view i) :
    ((range n).foldl f e).view i = if i < n then g (e.view i) else e.view i := by
  induction n with
  | zero => rfl
  | succ n ih =>
    rw [range_succ, foldl_append, foldl_cons, foldl_nil, hf, ih]
    split
    · rw [if_neg (by omega), if_pos (by omega)]
    split
    · rw [if_pos (by omega)]
    · rw [if_neg (by omega)]

lemma foldl_lifecycle (positions : List Nat) (e : Evaluator)
    (hf : ∀ e position, (f e position).lifecycle = e.lifecycle) :
    (positions.foldl f e).lifecycle = e.lifecycle := by
  induction positions generalizing e with
  | nil => rfl
  | cons position positions ih => exact (ih _).trans (hf e position)

end

lemma view_none (h : ¬i < e.checks.length) : (e.view i).1 = none :=
  getElem?_eq_none (Nat.le_of_not_lt h)

lemma settle_view (h : Quiet observer) (e : Evaluator) (i : Nat) :
    (settle observer next timeNs matched applies e).view i = (e.view i).settle next applies := by
  unfold settle
  rw [foldl_view _ e i fun e position => settleOne_view h e position i]
  split
  · rfl
  rename_i hi
  have hnone := view_none hi
  generalize e.view i = v at hnone
  obtain ⟨state, statuses⟩ := v
  obtain rfl : state = none := hnone
  rfl

lemma settle_lifecycle (h : Quiet observer) (e : Evaluator) :
    (settle observer next timeNs matched applies e).lifecycle = e.lifecycle :=
  foldl_lifecycle _ e fun e position => settleOne_lifecycle h e position

lemma announce_view (depth nowNs : Nat) (hi : i < e.checks.length) :
    (announce depth nowNs e).view i = ((e.view i).1, (e.view i).2 ++ [.pending]) := by
  unfold announce
  rw [foldl_view (g := fun v => (v.1, v.2 ++ v.1.toList.map fun _ => .pending)) _ e i, if_pos hi]
  · simp [view, hi]
  · intro e position
    by_cases hi : i = position
    · subst hi
      cases hstate : e.checks[i]? with
      | none => simp [view, hstate]
      | some state => simp [emit_eq (observe_quiet depth), view, hstate]
    · rw [if_neg hi]
      split
      · rfl
      · simp [emit_eq (observe_quiet depth), view, Ne.symm hi]

lemma announce_lifecycle (depth nowNs : Nat) (e : Evaluator) :
    (announce depth nowNs e).lifecycle = e.lifecycle := by
  refine foldl_lifecycle _ e fun e position => ?_
  split
  · rfl
  · rw [emit_eq (observe_quiet depth)]

end Evaluator

/-! ## Verdicts -/

namespace Expectation

def Meets (x : Expectation) (record : TraceRecord) : Prop :=
  x.startNs ≤ record.timeNs ∧ record.timeNs ≤ x.endNs ∧ x.describes record = true

instance (x : Expectation) (record : TraceRecord) : Decidable (x.Meets record) :=
  inferInstanceAs (Decidable (_ ∧ _ ∧ _))

def Met (x : Expectation) (records : List TraceRecord) : Prop := ∃ record ∈ records, x.Meets record

instance (x : Expectation) (records : List TraceRecord) : Decidable (x.Met records) :=
  inferInstanceAs (Decidable (∃ record ∈ records, x.Meets record))

/-- The verdict on an expectation, from the records of the run and the time of its
end alone. -/
def verdict (x : Expectation) (records : List TraceRecord) (finishNs : Nat) : CheckStatus :=
  if x.Met records then .pass else if x.endNs < finishNs then .fail else .incomplete

variable {x : Expectation} {record : TraceRecord} {records : List TraceRecord}

lemma met_append : x.Met (records ++ [record]) ↔ x.Met records ∨ x.Meets record := by
  simp [Met, or_and_right, exists_or]

lemma matches_iff (h : windowFits (expectationStartMs x) (expectationWindowMs x) = true) :
    matchesExpectation x record = true ↔ x.Meets record := by
  cases x with
  | can x =>
    change windowFits x.atMs x.windowMs = true at h
    simp only [matchesExpectation, matchesCanExpectation, h, inWindow, Bool.true_and,
      Bool.and_eq_true, decide_eq_true_eq, and_assoc]
    rfl
  | gpio x =>
    change windowFits x.atMs x.windowMs = true at h
    simp only [matchesExpectation, matchesGpioExpectation, h, inWindow, Bool.true_and,
      Bool.and_eq_true, decide_eq_true_eq, and_assoc]
    rfl

lemma Meets.type (h : x.Meets record) : record.type = "can_tx" ∨ record.type = "gpio_output" := by
  have hdescribes := h.2.2
  cases x with
  | can x =>
    simp only [describes, CanExpectation.describes, Bool.and_eq_true, beq_iff_eq] at hdescribes
    exact .inl hdescribes.1
  | gpio x =>
    simp only [describes, GpioExpectation.describes, Bool.and_eq_true, beq_iff_eq] at hdescribes
    exact .inr hdescribes.1.1

end Expectation

open Expectation

inductive Standing (check : ExpectationCheck) (records : List TraceRecord) (now : Nat) : View → Prop
  | waits (h : ¬check.expectation.Met records) :
      Standing check records now (some ⟨check, .pending⟩, [.pending])
  | passed (h : check.expectation.Met records) :
      Standing check records now (some ⟨check, .pass⟩, [.pending, .pass])
  | failed (h : ¬check.expectation.Met records) (hend : check.expectation.endNs < now) :
      Standing check records now (some ⟨check, .fail⟩, [.pending, .fail])

namespace Standing

variable {check : ExpectationCheck} {records : List TraceRecord} {now : Nat} {v : View}

section

variable (h : Standing check records now v)
include h

lemma later {now' : Nat} (hle : now ≤ now') : Standing check records now' v := by
  cases h with
  | waits h => exact .waits h
  | passed h => exact .passed h
  | failed h hend => exact .failed h (Nat.lt_of_lt_of_le hend hle)

variable {record : TraceRecord}

lemma unmet (hrecord : ¬check.expectation.Meets record) :
    Standing check (records ++ [record]) now v := by
  have hmet : check.expectation.Met (records ++ [record]) ↔ check.expectation.Met records := by
    rw [met_append, or_iff_left hrecord]
  cases h with
  | waits h => exact .waits (hmet.not.mpr h)
  | passed h => exact .passed (hmet.mpr h)
  | failed h hend => exact .failed (hmet.not.mpr h) hend

lemma observed
    (hfits : windowFits (expectationStartMs check.expectation)
      (expectationWindowMs check.expectation) = true)
    (htime : record.timeNs = now) :
    Standing check (records ++ [record]) now
      (v.settle .pass fun check => matchesExpectation check.expectation record) := by
  by_cases hmeets : check.expectation.Meets record
  · have hmet : check.expectation.Met (records ++ [record]) := met_append.mpr (.inr hmeets)
    have hmatches := (matches_iff hfits).mpr hmeets
    cases h with
    | waits h =>
      rw [View.settle, if_pos (by simp [hmatches])]
      exact .passed hmet
    | passed h => exact .passed hmet
    | failed h hend =>
      -- the window is over, but the record is in it
      have hin := hmeets.2.1
      omega
  · have hmatches : ¬matchesExpectation check.expectation record = true :=
      (matches_iff hfits).not.mpr hmeets
    have hsame : (v.settle .pass fun check => matchesExpectation check.expectation record) = v := by
      cases h <;> simp [View.settle, hmatches]
    rw [hsame]
    exact h.unmet hmeets

lemma advanced :
    Standing check records now (v.settle .fail fun check => check.expectation.endNs < now) := by
  cases h with
  | waits h =>
    by_cases hend : check.expectation.endNs < now
    · rw [View.settle, if_pos (by simp [hend])]
      exact .failed h hend
    · rw [View.settle, if_neg (by simp [hend])]
      exact .waits h
  | passed h => exact .passed h
  | failed h hend => exact .failed h hend

lemma finished :
    (v.settle .fail fun check => check.expectation.endNs < now).settle .incomplete (fun _ => true) =
      (some ⟨check, check.expectation.verdict records now⟩,
        [.pending, check.expectation.verdict records now]) := by
  cases h with
  | waits h =>
    rw [View.settle_pending]
    by_cases hend : check.expectation.endNs < now
    · rw [verdict, if_neg h, if_pos hend, if_pos (decide_eq_true hend)]
      rfl
    · rw [verdict, if_neg h, if_neg hend, if_neg (by simpa using hend)]
      rfl
  | passed h =>
    rw [verdict, if_pos h]
    rfl
  | failed h hend =>
    rw [verdict, if_neg h, if_pos hend]
    rfl

end

end Standing

/-! ## Every run -/

variable {nowNs : Nat}

namespace Evaluator

lemma create_ok {checks : List ExpectationCheck} (h : create checks = .ok e) :
    e = ⟨checks.map (⟨·, .pending⟩), .created, []⟩ ∧ ∀ check ∈ checks, windowFits
      (expectationStartMs check.expectation) (expectationWindowMs check.expectation) = true := by
  unfold create at h
  split at h
  · cases h
  rename_i hnone
  refine ⟨(Except.ok.inj h).symm, fun check hcheck => ?_⟩
  have hrefusal := List.findSome?_eq_none_iff.mp hnone check hcheck
  unfold refusal at hrefusal
  split at hrefusal
  · cases hrefusal
  · rename_i hfits
    simpa using hfits

lemma advance_running {e' : Evaluator} {depth loopNow : Nat}
    (hrunning : e.lifecycle = .running) (h : (advance depth nowNs loopNow e).toOption = some e') :
    nowNs = loopNow ∧ e'.lifecycle = .running ∧ ∀ i, e'.view i =
      (e.view i).settle .fail fun check => check.expectation.endNs < nowNs := by
  unfold advance at h
  rw [if_neg (by simp [hrunning])] at h
  split at h
  · cases h
  rename_i hnow
  cases h
  exact ⟨Decidable.not_not.mp hnow, (settle_lifecycle (observe_quiet depth) e).trans hrunning,
    settle_view (observe_quiet depth) e⟩

end Evaluator

namespace Stage

open Evaluator

/-- The evaluator runs, and every check stands as the records so far have it. -/
structure Watching (checks : List ExpectationCheck) (records : List TraceRecord) (s : Stage) :
    Prop where
  running : s.evaluator.lifecycle = .running
  standing : ∀ i check, checks[i]? = some check →
    Standing check records s.now (s.evaluator.view i)

variable {depth : Nat} {checks : List ExpectationCheck} {records : List TraceRecord}
  {s s' : Stage} {op : Op}

lemma begin_watching (hcreate : create checks = .ok e)
    (hs : s.evaluator = e) (h : s.step depth (.begin nowNs) = some s') :
    Watching checks [] s' := by
  obtain ⟨rfl, -⟩ := create_ok hcreate
  obtain ⟨⟨begun, deadlines⟩, hbegin, rfl⟩ := Option.map_eq_some_iff.mp h
  rw [begin, hs] at hbegin
  split at hbegin
  · cases hbegin
  rename_i hnow
  rw [if_neg (by simp)] at hbegin
  generalize hannounced : announce depth nowNs _ = announced at hbegin
  dsimp only at hbegin
  have hlifecycle : announced.lifecycle = .running := by rw [← hannounced, announce_lifecycle]
  cases hadvance : advance depth nowNs s.now announced with
  | error text =>
    rw [hadvance] at hbegin
    cases hbegin
  | ok advanced =>
    rw [hadvance] at hbegin
    cases hbegin
    obtain ⟨-, hrunning, hviews⟩ := advance_running hlifecycle (by rw [hadvance]; rfl)
    refine ⟨hrunning, fun i check hcheck => ?_⟩
    have hi : i < checks.length := (List.getElem?_eq_some_iff.mp hcheck).1
    rw [hviews, ← hannounced, announce_view depth nowNs (by simpa using hi),
      Decidable.not_not.mp hnow]
    have hview : Standing check [] s.now (some ⟨check, .pending⟩, [.pending]) :=
      .waits (by simp [Met])
    have hadvanced := hview.advanced
    simpa [view, hcheck] using hadvanced

section

variable (hfits : ∀ check ∈ checks, windowFits (expectationStartMs check.expectation)
  (expectationWindowMs check.expectation) = true)
include hfits

lemma step_watching (hs : Watching checks records s) (h : s.step depth op = some s')
    (hop : ∀ nowNs, op ≠ .finish nowNs) : Watching checks (records ++ recordsOf [op]) s' := by
  cases op with
  | «begin» nowNs =>
    obtain ⟨⟨begun, deadlines⟩, hbegin, rfl⟩ := Option.map_eq_some_iff.mp h
    rw [begin] at hbegin
    split at hbegin
    · cases hbegin
    rw [if_pos (by simp [hs.running])] at hbegin
    cases hbegin
    simpa [recordsOf] using hs
  | observe record =>
    rw [step] at h
    split at h
    · rename_i htime
      cases h
      unfold observe
      rw [if_neg (by simp [hs.running])]
      split
      · rename_i hother
        refine ⟨hs.running, fun i check hcheck =>
          (hs.standing i check hcheck).unmet fun hmeets => ?_⟩
        rcases hmeets.type with htype | htype
        · exact hother.1 htype
        · exact hother.2 htype
      · refine ⟨(settle_lifecycle (observe_quiet depth) _).trans hs.running,
          fun i check hcheck => ?_⟩
        rw [settle_view (observe_quiet depth)]
        exact (hs.standing i check hcheck).observed
          (hfits check (mem_of_getElem? hcheck)) htime
    · cases h
  | advance nowNs =>
    obtain ⟨e, he, rfl⟩ := Option.map_eq_some_iff.mp h
    obtain ⟨hnow, hrunning, hviews⟩ := advance_running hs.running he
    refine ⟨hrunning, fun i check hcheck => ?_⟩
    rw [hviews, hnow]
    simpa [recordsOf] using (hs.standing i check hcheck).advanced
  | deadline timeNs =>
    rw [step] at h
    split at h
    · rename_i hdue
      obtain ⟨e, he, rfl⟩ := Option.map_eq_some_iff.mp h
      obtain ⟨-, hrunning, hviews⟩ := advance_running hs.running he
      refine ⟨hrunning, fun i check hcheck => ?_⟩
      rw [hviews]
      simpa [recordsOf] using ((hs.standing i check hcheck).later hdue.2).advanced
    · cases h
  | finish nowNs => exact absurd rfl (hop nowNs)
  | elapse nowNs =>
    rw [step] at h
    split at h
    · rename_i hle
      cases h
      refine ⟨hs.running, fun i check hcheck => ?_⟩
      simpa [recordsOf] using (hs.standing i check hcheck).later hle
    · cases h

lemma run_watching {ops : List Op} (hs : Watching checks records s)
    (h : run depth ops s = some s') (hops : ∀ nowNs, .finish nowNs ∉ ops) :
    Watching checks (records ++ recordsOf ops) s' := by
  induction ops generalizing s records with
  | nil =>
    obtain rfl := Option.some.inj h
    simpa [recordsOf] using hs
  | cons op ops ih =>
    obtain ⟨t, hstep, hrest⟩ := Option.bind_eq_some_iff.mp h
    have ht := step_watching hfits hs hstep fun nowNs hop => hops nowNs (by simp [hop])
    have hrun := ih ht hrest fun nowNs hmem => hops nowNs (mem_cons_of_mem _ hmem)
    have hrecords : recordsOf (op :: ops) = recordsOf [op] ++ recordsOf ops := by
      rw [← singleton_append, recordsOf, filterMap_append]
      rfl
    rwa [hrecords, ← append_assoc]

end

/-- An evaluator that does not run is left alone, but for its beginning. -/
lemma step_idle (h : s.step depth op = some s') (hidle : s.evaluator.lifecycle ≠ .running)
    (hop : s.evaluator.lifecycle = .created → ∀ nowNs, op ≠ .begin nowNs) :
    s'.evaluator = s.evaluator := by
  cases op with
  | «begin» nowNs =>
    obtain ⟨⟨begun, deadlines⟩, hbegin, rfl⟩ := Option.map_eq_some_iff.mp h
    rw [begin] at hbegin
    split at hbegin
    · cases hbegin
    rw [if_pos fun hcreated => hop hcreated nowNs rfl] at hbegin
    cases hbegin
    rfl
  | observe record =>
    rw [step] at h
    split at h
    · cases h
      exact if_pos hidle
    · cases h
  | advance nowNs =>
    obtain ⟨e, he, rfl⟩ := Option.map_eq_some_iff.mp h
    rw [advance, if_pos hidle] at he
    cases he
    rfl
  | deadline timeNs =>
    rw [step] at h
    split at h
    · obtain ⟨e, he, rfl⟩ := Option.map_eq_some_iff.mp h
      rw [advance, if_pos hidle] at he
      cases he
      rfl
    · cases h
  | finish nowNs =>
    obtain ⟨e, he, rfl⟩ := Option.map_eq_some_iff.mp h
    rw [finish, if_pos hidle] at he
    cases he
    rfl
  | elapse nowNs =>
    rw [step] at h
    split at h
    · cases h
      rfl
    · cases h

lemma run_idle {ops : List Op} (h : run depth ops s = some s')
    (hidle : s.evaluator.lifecycle ≠ .running)
    (hops : s.evaluator.lifecycle = .created → ∀ nowNs, .begin nowNs ∉ ops) :
    s'.evaluator = s.evaluator := by
  induction ops generalizing s with
  | nil =>
    obtain rfl := Option.some.inj h
    rfl
  | cons op ops ih =>
    obtain ⟨t, hstep, hrest⟩ := Option.bind_eq_some_iff.mp h
    have ht := step_idle hstep hidle fun hc nowNs hop => hops hc nowNs (by simp [hop])
    rw [← ht] at hidle
    rw [ih hrest hidle fun hc nowNs hmem => hops (ht ▸ hc) nowNs (mem_cons_of_mem _ hmem), ht]

lemma finish_watching (hs : Watching checks records s)
    (h : s.step depth (.finish nowNs) = some s') :
    s'.evaluator.lifecycle = .finished ∧ ∀ i check, checks[i]? = some check →
      s'.evaluator.view i = (some ⟨check, check.expectation.verdict records nowNs⟩,
        [.pending, check.expectation.verdict records nowNs]) := by
  obtain ⟨e, he, rfl⟩ := Option.map_eq_some_iff.mp h
  rw [finish, if_neg (by simp [hs.running])] at he
  split at he
  · cases he
  rename_i hnow
  obtain rfl : nowNs = s.now := Decidable.not_not.mp hnow
  cases hadvance : advance depth s.now s.now s.evaluator with
  | error text =>
    rw [hadvance] at he
    cases he
  | ok advanced =>
    rw [hadvance] at he
    cases he
    obtain ⟨-, -, hviews⟩ := advance_running hs.running (by rw [hadvance]; rfl)
    refine ⟨rfl, fun i check hcheck => ?_⟩
    have hsettled : (settle (observe depth) .incomplete s.now none (fun _ => true)
        advanced).view i = _ := settle_view (observe_quiet depth) advanced i
    rw [hviews, (hs.standing i check hcheck).finished] at hsettled
    exact hsettled

lemma run_append (ops ops' : List Op) (s : Stage) :
    run depth (ops ++ ops') s = (run depth ops s).bind (run depth ops') := by
  induction ops generalizing s with
  | nil => rfl
  | cons op ops ih =>
    simp only [cons_append, run, Option.bind_assoc]
    exact congrArg _ (funext ih)

/-- A run of an evaluator from its creation to after its end. Between its beginning
and its end it observes `between`, and it ends at `finishNs`. -/
structure Evaluated (depth : Nat) (checks : List ExpectationCheck) (between : List Op)
    (finishNs : Nat) (s : Stage) : Prop where
  run : ∃ e start before nowNs after, create checks = .ok e ∧
    (∀ nowNs, .begin nowNs ∉ before) ∧
    run depth (before ++ .begin nowNs :: between ++ .finish finishNs :: after) ⟨e, start, []⟩ =
      some s
  unfinished : ∀ nowNs, .finish nowNs ∉ between

lemma Evaluated.views {between : List Op} {finishNs : Nat}
    (h : Evaluated depth checks between finishNs s) {check : ExpectationCheck}
    (hcheck : checks[i]? = some check) :
    s.evaluator.view i = (some ⟨check, check.expectation.verdict (recordsOf between) finishNs⟩,
      [.pending, check.expectation.verdict (recordsOf between) finishNs]) := by
  obtain ⟨⟨e, start, before, nowNs, after, hcreate, hbefore, hrun⟩, hbetween⟩ := h
  obtain ⟨he, hfits⟩ := create_ok hcreate
  rw [append_assoc, run_append, Option.bind_eq_some_iff] at hrun
  obtain ⟨s1, hrun1, hrun⟩ := hrun
  have hs1 : s1.evaluator = e := run_idle hrun1 (by simp [he]) fun _ => hbefore
  rw [cons_append] at hrun
  obtain ⟨s2, hbegin, hrun⟩ := Option.bind_eq_some_iff.mp hrun
  rw [run_append, Option.bind_eq_some_iff] at hrun
  obtain ⟨s3, hrun3, hrun⟩ := hrun
  obtain ⟨s4, hfinish, hafter⟩ := Option.bind_eq_some_iff.mp hrun
  have hs3 := run_watching hfits (begin_watching hcreate hs1 hbegin) hrun3 hbetween
  obtain ⟨hfinished, hviews⟩ := finish_watching hs3 hfinish
  rw [run_idle hafter (by simp [hfinished]) (by simp [hfinished]), hviews i check hcheck]
  rfl

end Stage

open Stage

/-- **Every check gets exactly one verdict.** It is the verdict on the records between
the beginning and the end, it is emitted once, and another run with the same records,
in whatever order and with whatever deadlines between and after them, gives the same
verdicts. -/
theorem every_check_gets_one_verdict {depth finishNs : Nat} {checks : List ExpectationCheck}
    {between : List Op} {s : Stage} (h : Evaluated depth checks between finishNs s) :
    (∀ i check, checks[i]? = some check →
      s.evaluator.checks[i]? =
        some ⟨check, check.expectation.verdict (recordsOf between) finishNs⟩ ∧
      (s.evaluator.emitted.filter (·.position = i)).map (·.status) =
        [.pending, check.expectation.verdict (recordsOf between) finishNs]) ∧
    ∀ depth' between' s', Evaluated depth' checks between' finishNs s' →
      (∀ record, record ∈ recordsOf between' ↔ record ∈ recordsOf between) →
      ∀ i < checks.length, s'.evaluator.checks[i]? = s.evaluator.checks[i]? := by
  refine ⟨fun i check hcheck => Prod.mk.inj (h.views hcheck), ?_⟩
  intro depth' between' s' h' hsame i hi
  obtain ⟨check, hcheck⟩ : ∃ check, checks[i]? = some check := ⟨_, List.getElem?_eq_getElem hi⟩
  have hmet : check.expectation.Met (recordsOf between') ↔
      check.expectation.Met (recordsOf between) := by
    simp only [Met, hsame]
  have hverdict : check.expectation.verdict (recordsOf between') finishNs =
      check.expectation.verdict (recordsOf between) finishNs := by
    unfold verdict
    simp only [hmet]
  rw [(Prod.mk.inj (h.views hcheck)).1, (Prod.mk.inj (h'.views hcheck)).1, hverdict]

/-- A frame that is expected in the first millisecond, and its record. -/
def frameCheck : ExpectationCheck := ⟨"script", 0, .can ⟨"can0", 0x123, false, [0xab], 0, 1⟩, 0⟩

def frameRecord : TraceRecord :=
  ⟨5, "board", "can_tx", [("id", "0x123"), ("extended", "false"), ("data", "ab"), ("bus", "can0"),
    ("origin", "board")]⟩

/-- Another frame is expected at the same time, and does not come. -/
def missedCheck : ExpectationCheck := ⟨"script", 1, .can ⟨"can0", 0x124, false, [0xab], 0, 1⟩, 0⟩

theorem one_frame_comes_and_one_misses_its_deadline :
    let between := [.elapse 5, .observe frameRecord, .deadline 1000001]
    ∃ s, Evaluated 1 [frameCheck, missedCheck] between 1000001 s ∧
      s.evaluator.checks[0]? = some ⟨frameCheck, .pass⟩ ∧
      s.evaluator.checks[1]? = some ⟨missedCheck, .fail⟩ := by
  intro between
  obtain ⟨s, hs⟩ : ∃ s, run 1 (.begin 0 :: between ++ [.finish 1000001])
      ⟨⟨[⟨frameCheck, .pending⟩, ⟨missedCheck, .pending⟩], .created, []⟩, 0, []⟩ = some s :=
    Option.isSome_iff_exists.mp (by decide +kernel)
  have hevaluated : Evaluated 1 [frameCheck, missedCheck] between 1000001 s :=
    ⟨⟨_, 0, [], 0, [], rfl, by simp, hs⟩, by simp [between]⟩
  have hverdicts := (every_check_gets_one_verdict hevaluated).1
  refine ⟨s, hevaluated, ?_, ?_⟩
  · rw [(hverdicts 0 frameCheck rfl).1]
    decide +kernel
  · rw [(hverdicts 1 missedCheck rfl).1]
    decide +kernel

/-- At one time the record comes before the end or after it, and the verdict is not
the same. -/
theorem a_record_after_the_finish_does_not_count :
    let start : Stage := ⟨⟨[⟨frameCheck, .pending⟩], .created, []⟩, 0, []⟩
    ((run 1 [.begin 0, .elapse 5, .observe frameRecord, .finish 5] start).map fun s =>
      s.evaluator.checks.map (·.status)) = some [.pass] ∧
    ((run 1 [.begin 0, .elapse 5, .finish 5, .observe frameRecord] start).map fun s =>
      s.evaluator.checks.map (·.status)) = some [.incomplete] := by
  decide +kernel

end Fil.Sim.Stimulus
