-- The trace recorder. While the lanes run, what a lane records waits in a buffer of
-- its own. The flush merges the buffers by time into the trace, if the trace is
-- retained and nobody who is told of a record records more.
import Fil.Expectations
import Fil.StableSort
import Mathlib.Data.List.Permutation

open List

namespace Fil.Sim

open Stimulus (TraceRecord)

inductive CaptureMode
  | live
  | laneBuffered
  deriving DecidableEq

/-- A record of the trace comes with its sequence number. -/
structure TraceRecorder where
  enabled : Bool := true
  retainRecords : Bool := true
  allowlist : List String := []
  captureMode : CaptureMode := .live
  laneRecords : List (List TraceRecord) := []
  records : List (Nat × TraceRecord) := []
  nextSequence : Nat := 0

namespace TraceRecorder

def passesFilter (t : TraceRecorder) (type : String) : Bool :=
  t.allowlist.isEmpty || t.allowlist.contains type

def beginLaneCapture (laneCount : Nat) (t : TraceRecorder) : TraceRecorder :=
  { t with captureMode := .laneBuffered, laneRecords := replicate laneCount [] }

/-- What the observer makes of the recorder when it is told of a record. -/
abbrev Observer := Nat × TraceRecord → TraceRecorder → TraceRecorder

variable (observer : Observer)

/-- Numbers a record and appends it. -/
def appendRecord (t : TraceRecorder) (r : TraceRecord) : TraceRecorder :=
  let x := (t.nextSequence, r)
  observer x { t with
    nextSequence := t.nextSequence + 1
    records := if t.retainRecords then t.records ++ [x] else t.records }

/-- A record of a lane, or of the coordinator. -/
def record (t : TraceRecorder) (lane : Option Nat) (r : TraceRecord) : Nat × TraceRecorder :=
  if !t.enabled then (t.nextSequence, t)
  else if !t.passesFilter r.type then
    (t.nextSequence, if t.captureMode = .laneBuffered then t
      else { t with nextSequence := t.nextSequence + 1 })
  else
    match lane.filter fun k => t.captureMode = .laneBuffered && k < t.laneRecords.length with
    | some k => (t.nextSequence, { t with laneRecords := t.laneRecords.modify k (· ++ [r]) })
    | none => (t.nextSequence, appendRecord observer t r)

def flushLaneCapture (t : TraceRecorder) : TraceRecorder :=
  let pending := t.laneRecords.flatten.insertionSort fun a b => a.timeNs ≤ b.timeNs
  pending.foldl (appendRecord observer)
    { t with captureMode := .live, laneRecords := t.laneRecords.map fun _ => [] }

/-- A window: what the lanes and the coordinator record, in any interleaving. -/
def capture (t : TraceRecorder) (calls : List (Option Nat × TraceRecord)) : TraceRecorder :=
  calls.foldl (fun t c => (record observer t c.1 c.2).2) t

variable {observer} {t : TraceRecorder} (hquiet : ∀ x t, observer x t = t)
include hquiet

lemma foldl_appendRecord (l : List TraceRecord) (hretain : t.retainRecords = true) :
    l.foldl (appendRecord observer) t = { t with
      nextSequence := t.nextSequence + l.length
      records := t.records ++ (l.zipIdx t.nextSequence).map Prod.swap } := by
  induction l generalizing t with
  | nil => simp
  | cons r l ih =>
    rw [foldl_cons, ih (by simpa [appendRecord, hquiet] using hretain)]
    simp [appendRecord, hquiet, hretain]
    omega

/-- While lanes are captured, a record of a lane goes to the buffer of the lane. -/
lemma record_captures (hmode : t.captureMode = .laneBuffered) (lane : Option Nat)
    (r : TraceRecord) :
    let t' := (record observer t lane r).2
    t'.captureMode = .laneBuffered ∧ t'.enabled = t.enabled ∧ t'.passesFilter = t.passesFilter ∧
      t'.retainRecords = t.retainRecords ∧ ∀ k, t'.laneRecords[k]? = t.laneRecords[k]?.map
        (· ++ if lane = some k && t.enabled && t.passesFilter r.type then [r] else []) := by
  unfold record
  split_ifs with henabled hfilter
  · simp_all
  · simp_all
  split
  · rename_i k hk
    simp_all [Option.filter_eq_some_iff, getElem?_modify]
    refine ⟨rfl, fun j => ?_⟩
    by_cases h : k = j <;> simp [h]
  · rename_i hk
    simp_all [appendRecord, Option.filter_eq_none_iff]
    refine ⟨rfl, fun j => ?_⟩
    by_cases h : lane = some j
    · rw [getElem?_eq_none (hk j h)]
      rfl
    · simp [h]

/-- What a lane has recorded stands in its buffer, whatever the others did. -/
lemma capture_lane (calls : List (Option Nat × TraceRecord))
    (hmode : t.captureMode = .laneBuffered) :
    let t' := capture observer t calls
    t'.retainRecords = t.retainRecords ∧ ∀ k, t'.laneRecords[k]? = t.laneRecords[k]?.map
      (· ++ (calls.filter fun c => c.1 = some k && t.enabled && t.passesFilter c.2.type).map
        (·.2)) := by
  induction calls generalizing t with
  | nil => simp [capture]
  | cons c calls ih =>
    obtain ⟨hmode', henabled, hfilter, hretain, hlane⟩ := record_captures hquiet hmode c.1 c.2
    obtain ⟨hretain', hlanes⟩ := ih hmode'
    refine ⟨hretain'.trans hretain, fun k => ?_⟩
    rw [capture, foldl_cons]
    refine (hlanes k).trans ?_
    rw [hlane, henabled, hfilter, Option.map_map]
    congr 1
    funext buffer
    by_cases hc : (c.1 = some k && t.enabled && t.passesFilter c.2.type) = true <;> simp [hc]

/-- **The flush merges what the lanes have recorded.** However the lanes took turns,
each captured record is appended once, by time, and at one time by lane and then as
the lane recorded it. The sequence numbers go on from the last one, and the buffers
are empty. -/
theorem flush_merges_the_lanes (hretain : t.retainRecords = true) (laneCount : Nat)
    (calls : List (Option Nat × TraceRecord)) :
    let captured := capture observer (t.beginLaneCapture laneCount) calls
    let after := flushLaneCapture observer captured
    captured.laneRecords = ((range laneCount).map fun k => (calls.filter fun c =>
      c.1 = some k && t.enabled && t.passesFilter c.2.type).map (·.2)) ∧
    ∃ merged, merged ~ captured.laneRecords.flatten ∧
      (merged.Pairwise fun a b => a.timeNs ≤ b.timeNs) ∧
      (∀ time, merged.filter (·.timeNs = time) =
        captured.laneRecords.flatten.filter (·.timeNs = time)) ∧
      after.records = captured.records ++ (merged.zipIdx captured.nextSequence).map Prod.swap ∧
      after.nextSequence = captured.nextSequence + merged.length ∧
      after.laneRecords.flatten = [] := by
  intro captured after
  obtain ⟨hretained, hlanes⟩ := capture_lane hquiet calls (t := t.beginLaneCapture laneCount) rfl
  have : IsTrans TraceRecord fun a b => a.timeNs ≤ b.timeNs := ⟨fun _ _ _ => le_trans⟩
  have : Std.Total fun a b : TraceRecord => a.timeNs ≤ b.timeNs := ⟨fun _ _ => le_total _ _⟩
  have hafter : after = _ := foldl_appendRecord hquiet _ (hretained.trans hretain)
  refine ⟨ext_getElem? fun k => (hlanes k).trans ?_, _, perm_insertionSort _ _,
    pairwise_insertionSort _ _, fun time => ?_, by rw [hafter], by rw [hafter], by simp [hafter]⟩
  · rw [beginLaneCapture, getElem?_map, getElem?_replicate]
    by_cases hk : k < laneCount
    · rw [if_pos hk, getElem?_range hk]
      rfl
    · simp [hk]
  · have hties := StableSort.ties_insertionSort (fun a b => a.timeNs ≤ b.timeNs) ⟨time, "", "", []⟩
      captured.laneRecords.flatten
    simpa [StableSort.ties, ← le_antisymm_iff, eq_comm] using hties

omit hquiet

theorem two_lanes_are_merged :
    let a : TraceRecord := ⟨9, "a", "gpio", []⟩
    let b : TraceRecord := ⟨7, "b", "gpio", []⟩
    let captured := capture (fun _ t => t) (beginLaneCapture 2 {}) [(some 1, b), (some 0, a)]
    captured.laneRecords = [[a], [b]] ∧
      (flushLaneCapture (fun _ t => t) captured).records = [(0, b), (1, a)] := by
  intro a b captured
  obtain ⟨hlanes, merged, hperm, hsorted, -, hrecords, -, -⟩ :=
    @flush_merges_the_lanes (fun _ t => t) {} (fun _ _ => rfl) rfl 2 [(some 1, b), (some 0, a)]
  rw [hlanes] at hperm
  have hmerged : merged = [a, b] ∨ merged = [b, a] := perm_pair.mp hperm
  obtain rfl | rfl := hmerged
  · exact absurd hsorted (by decide)
  · exact ⟨hlanes, hrecords⟩

/-- A trace that is not retained gets nothing, and a verdict that an observer
records comes between the records of the lanes. -/
theorem flush_appends_nothing_or_more :
    let judge : Observer := fun x t => if x.2.type = "gpio" then
      appendRecord (fun _ t => t) t ⟨7, "", "verdict", []⟩ else t
    let flushed := fun observer t => (flushLaneCapture observer (capture observer
      (beginLaneCapture 2 t) [(some 1, ⟨7, "b", "gpio", []⟩), (some 0, ⟨9, "a", "gpio", []⟩)])).records
    flushed (fun _ t => t) { retainRecords := false } = [] ∧
      (flushed judge {}).map (·.2.type) = ["gpio", "verdict", "gpio", "verdict"] := by
  decide

end TraceRecorder

end Fil.Sim
