-- The fast and bulk paths against the general bus. A fast path finds its region
-- once and moves whole words; here each is compared with the ordinary accesses
-- of the same words, down to the journal and the notes.
import Fil.Rollback

open ByteLanes List
open BitVec (add_zero ofNat)

namespace Fil.Mem

namespace MemoryBus

variable {δ : Type} {a : BitVec 32} {r : Region} {context : AccessContext} {b : MemoryBus δ}

/-! ## Words in a row, the general way -/

def readEach (context : AccessContext) :
    Nat → BitVec 32 → MemoryBus δ → Except BusFault (List (BitVec 64)) × MemoryBus δ
  | 0, _, b => (.ok [], b)
  | count + 1, a, b =>
    match b.read a .word context with
    | (.error fault, b) => (.error fault, b)
    | (.ok value, b) =>
      let (rest, b) := readEach context count (a + 4) b
      (rest.map (value :: ·), b)

/-- Ordinary writes of words at rising addresses, up to the first fault. -/
def writeEach (context : AccessContext) :
    List (BitVec 32) → BitVec 32 → MemoryBus δ → Except BusFault (List (BitVec 64)) × MemoryBus δ
  | [], _, b => (.ok [], b)
  | value :: values, a, b =>
    match b.write a .word (value.setWidth 64) context with
    | (.error fault, b) => (.error fault, b)
    | (.ok _, b) => writeEach context values (a + 4) b

/-- Where every word can be served, the ordinary reads give all of them and note
each one. -/
lemma readEach_spec {n : Nat}
    (h : ∀ w < n, b.fastReadRegion (a + ofNat 32 (w * 4)) 4 context = some r) :
    readEach context n a b =
      (.ok ((range n).map fun w => (b.loadWord (a + ofNat 32 (w * 4))).setWidth 64),
        (range n).foldl (fun b w => readNote context b (a + ofNat 32 (w * 4))) b) := by
  induction n generalizing a b with
  | zero => rfl
  | succ n ih =>
    have h0 := h 0 (by omega)
    rw [Nat.zero_mul, add_zero] at h0
    have hnote := alike_readNote_self context b a
    have hrest : ∀ w < n, (readNote context b a).fastReadRegion
        (a + 4 + ofNat 32 (w * 4)) 4 context = some r := by
      intro w hw
      rw [hnote.fastReadRegion, ← next_word]
      exact h (w + 1) (by omega)
    have hread : b.read a .word context =
        (.ok ((b.loadWord a).setWidth 64), readNote context b a) := by
      have hbacked : b.read a .word context = b.readBacked a .word context :=
        read_of_fastReadRegion h0
      rw [hbacked, loadWord, setWidth_littleEndian, ← hnote.bytes]
      rfl
    have hload : (readNote context b a).loadWord = b.loadWord := by
      funext x
      rw [loadWord, hnote.bytes, loadWord]
    rw [readEach, hread]
    dsimp only
    rw [ih hrest, hload, range_succ_eq_map, map_cons, foldl_cons, map_map,
      foldl_map]
    simp [next_word, Except.map]

lemma write_word {a v : BitVec 32} {ram : Bool} (h : b.fastWriteRegion a 4 ram = some r) :
    b.write a .word (v.setWidth 64) context =
      (.ok 0, ((b.addStoreFootprint a 4 context).storeBackedWord a v (context.pc = 0)).noteExecutable
        r) := by
  have hfast : b.tryFastWrite32 a v context ram =
      some (((b.addStoreFootprint a 4 context).storeBackedWord a v (context.pc = 0)).noteExecutable
        r) := by
    unfold tryFastWrite32
    rw [h]
  exact tryFastWrite32_write hfast

/-- Words stored under one note: the memory, its journal and their counts
change, and each note once. -/
lemma noted_words (b : MemoryBus δ) (context : AccessContext) (r : Region) (a : BitVec 32)
    (vs : List (BitVec 32)) {width : Nat} (hw : 0 < width) :
    ∃ bytes mutationJournal mutationSequence sideEffectGeneration,
      ((b.addStoreFootprint a width context).storeWords (context.pc = 0) a vs).noteExecutable r =
        { b with
          bytes, mutationJournal, mutationSequence, sideEffectGeneration
          executionGeneration := b.executionGeneration + if r.info.executable then 1 else 0
          accessWatchLog := b.accessWatchLog ++ b.storeEntries context a width
          readFootprint := b.storeFootprint context a width } := by
  obtain ⟨bytes, journal, sequence, generation, h⟩ :=
    storeWords_frame (context.pc = 0) vs a (b.addStoreFootprint a width context)
  rw [h, addStoreFootprint_eq b context a hw, noteExecutable]
  split
  · exact ⟨bytes, journal, sequence, generation, rfl⟩
  · exact ⟨bytes, journal, sequence, generation, rfl⟩

def eachEntries (b : MemoryBus δ) (context : AccessContext) (a : BitVec 32) (count : Nat) :
    List AccessWatchEntry :=
  if context.pc ≠ 0 && b.accessWatchLogEnabled then
    (List.range count).map fun w => ⟨a + BitVec.ofNat 32 (w * 4), 4, true⟩
  else []

lemma eachEntries_succ (b : MemoryBus δ) (context : AccessContext) (a : BitVec 32) (count : Nat) :
    b.eachEntries context a (count + 1) =
      b.storeEntries context a 4 ++ b.eachEntries context (a + 4) count := by
  unfold eachEntries storeEntries
  split
  · simp [range_succ_eq_map, Function.comp_def, next_word]
  · rfl

/-- What ordinary writes of words at rising addresses leave behind. -/
structure WroteEach (b after : MemoryBus δ) (context : AccessContext) (r : Region) (a : BitVec 32)
    (vs : List (BitVec 32)) : Prop where
  alike : Alike after (b.storeWords (context.pc = 0) a vs)
  code : after.executionGeneration =
    b.executionGeneration + if r.info.executable then vs.length else 0
  log : after.accessWatchLog = b.accessWatchLog ++ b.eachEntries context a vs.length
  footprint : after.readFootprint = b.storeFootprint context a (vs.length * 4)

def wroteWord (b : MemoryBus δ) (context : AccessContext) (r : Region) (a v : BitVec 32) :
    MemoryBus δ :=
  ((b.addStoreFootprint a 4 context).storeBackedWord a v (context.pc = 0)).noteExecutable r

section

variable (b : MemoryBus δ) (context : AccessContext) (r : Region) (a v : BitVec 32)

lemma wroteWord_frame :
    ∃ bytes mutationJournal mutationSequence sideEffectGeneration,
      b.wroteWord context r a v =
        { b with
          bytes, mutationJournal, mutationSequence, sideEffectGeneration
          executionGeneration := b.executionGeneration + if r.info.executable then 1 else 0
          accessWatchLog := b.accessWatchLog ++ b.storeEntries context a 4
          readFootprint := b.storeFootprint context a 4 } :=
  noted_words b context r a [v] (by omega)

lemma wroteWord_each :
    WroteEach b (b.wroteWord context r a v) context r a [v] := by
  obtain ⟨_, _, _, _, hframe⟩ := wroteWord_frame b context r a v
  have hlast : b.eachEntries context (a + 4) 0 = [] := by simp [eachEntries]
  refine ⟨?_, by rw [hframe]; rfl, ?_, by rw [hframe]; rfl⟩
  · rw [Alike, wroteWord, unwatched_noteExecutable, unwatched_storeBackedWord,
      unwatched_addStoreFootprint, ← unwatched_storeBackedWord]
    rfl
  · rw [hframe, length_singleton, eachEntries_succ, hlast, append_nil]

end

lemma WroteEach.cons {b after : MemoryBus δ}
    {a v : BitVec 32} {vs : List (BitVec 32)} (hfit : a.toNat + 4 < 2 ^ 32) (hne : vs ≠ [])
    (h : WroteEach (b.wroteWord context r a v) after context r (a + 4) vs) :
    WroteEach b after context r a (v :: vs) := by
  have hfirst := (wroteWord_each b context r a v).alike
  obtain ⟨bytes, journal, sequence, generation, hframe⟩ := wroteWord_frame b context r a v
  obtain ⟨halike, hcode, hlog, hfootprint⟩ := h
  refine ⟨halike.trans ?_, ?_, ?_, ?_⟩
  · rw [Alike, unwatched_storeWords, hfirst, ← unwatched_storeWords]
    rfl
  · rw [hcode, hframe, length_cons]
    dsimp only
    split <;> omega
  · rw [hlog, hframe, length_cons, eachEntries_succ, ← append_assoc]
    rfl
  · have hpos : 0 < vs.length := length_pos_of_ne_nil hne
    have hspan : (vs.length + 1) * 4 = 4 + vs.length * 4 := by omega
    rw [hfootprint, hframe, length_cons, hspan]
    unfold storeFootprint
    dsimp only
    split
    · exact addSpanFootprint_append _ a (n := vs.length * 4) (by omega) (by omega) hfit
    · rfl

lemma writeEach_spec {ram : Bool}
    {vs : List (BitVec 32)} (hne : vs ≠ [])
    (hfit : a.toNat + vs.length * 4 ≤ 2 ^ 32)
    (h : ∀ w < vs.length, b.fastWriteRegion (a + ofNat 32 (w * 4)) 4 ram = some r) :
    ∃ after, writeEach context vs a b = (.ok [], after) ∧ WroteEach b after context r a vs := by
  induction vs generalizing a b with
  | nil => exact absurd rfl hne
  | cons v vs ih =>
    have h0 := h 0 (by simp)
    rw [Nat.zero_mul, add_zero] at h0
    rw [writeEach, write_word h0]
    by_cases hvs : vs = []
    · subst hvs
      exact ⟨_, rfl, wroteWord_each b context r a v⟩
    have hpos : 0 < vs.length := length_pos_of_ne_nil hvs
    rw [length_cons] at hfit h
    have hnext : (a + 4).toNat = a.toNat + 4 := by
      exact Nat.mod_eq_of_lt (by simp; omega)
    -- the first word leaves the map and the store restriction as they were
    have hserved : (b.wroteWord context r a v).fastWriteRegion = b.fastWriteRegion := by
      obtain ⟨_, _, _, _, hframe⟩ := wroteWord_frame b context r a v
      rw [hframe]
      rfl
    obtain ⟨after, hrun, hafter⟩ := ih (b := b.wroteWord context r a v) (a := a + 4) hvs
      (by omega) (fun w hw => by
        rw [hserved, ← next_word]
        exact h (w + 1) (by omega))
    exact ⟨after, hrun, hafter.cons (by omega) hvs⟩

/-! ## The fast paths and the ordinary accesses -/

/-- A call of one of the fast paths. -/
inductive FastAccess
  | read (address : BitVec 32) (size : AccessSize)
  | read32 (address : BitVec 32)
  | readWords (address : BitVec 32) (count : Nat)
  | write (address : BitVec 32) (size : AccessSize) (value : BitVec 64) (ram : Bool)
  | write32 (address value : BitVec 32) (ram : Bool)
  | writeWords (address : BitVec 32) (values : List (BitVec 32)) (ram : Bool)

/-- What the caller of a fast path sees: the values, or nothing when it declines,
and the bus afterwards. -/
def attempt (b : MemoryBus δ) (context : AccessContext) :
    FastAccess → Option (List (BitVec 64)) × MemoryBus δ
  | .read a size =>
    match b.tryFastRead a size context with
    | some (value, b) => (some [value], b)
    | none => (none, b)
  | .read32 a =>
    match b.tryFastRead32 a context with
    | some (value, b) => (some [value.setWidth 64], b)
    | none => (none, b)
  | .readWords a count =>
    match b.tryFastReadWords a count context with
    | some (values, b) => (some (values.map (·.setWidth 64)), b)
    | none => (none, b)
  | .write a size value ram =>
    match b.tryFastWrite a size value context ram with
    | some b => (some [], b)
    | none => (none, b)
  | .write32 a value ram =>
    match b.tryFastWrite32 a value context ram with
    | some b => (some [], b)
    | none => (none, b)
  | .writeWords a values ram =>
    match b.tryFastWriteWords a values context ram with
    | some b => (some [], b)
    | none => (none, b)

/-- The ordinary accesses of the same words, at rising addresses. -/
def ordinary (b : MemoryBus δ) (context : AccessContext) :
    FastAccess → Except BusFault (List (BitVec 64)) × MemoryBus δ
  | .read a size =>
    let (result, b) := b.read a size context
    (result.map ([·]), b)
  | .read32 a => readEach context 1 a b
  | .readWords a count => readEach context count a b
  | .write a size value _ =>
    let (result, b) := b.write a size value context
    (result.map fun _ => [], b)
  | .write32 a value _ => writeEach context [value] a b
  | .writeWords a values _ => writeEach context values a b

/-- A fast path that serves leaves what the ordinary accesses leave, and one
that declines leaves the bus as it was. -/
def Refines (b : MemoryBus δ) (context : AccessContext) (x : FastAccess) : Prop :=
  (∀ values after, b.attempt context x = (some values, after) →
    b.ordinary context x = (.ok values, after)) ∧
  ∀ after, b.attempt context x = (none, after) → after = b

/-- The bulk paths apart, every fast path is exact. The bulk read does not ask
whether a fetch may execute, and the bulk store notes several words once. -/
def Exact (b : MemoryBus δ) (context : AccessContext) : FastAccess → Prop
  | .readWords a count =>
    ∀ r, 0 < count → count * 4 ≤ 0xffffffff →
      b.fastReadRegion a (count * 4) { context with type := .dataRead } = some r →
      context.type = .instructionFetch → r.info.executable = true
  | .writeWords a values ram =>
    ∀ r, 1 < values.length → values.length * 4 ≤ 0xffffffff →
      b.fastWriteRegion a (values.length * 4) ram = some r →
      r.info.executable = false ∧ (b.accessWatchLogEnabled = true → context.pc = 0)
  | _ => True

lemma fastReadRegion_context {width : Nat}
    (h : b.fastReadRegion a width { context with type := .dataRead } = some r)
    (hx : context.type = .instructionFetch → r.info.executable = true) :
    b.fastReadRegion a width context = some r := by
  obtain ⟨hfind, hb, hreadable, hc⟩ := fastReadRegion_some h
  unfold fastReadRegion
  rw [hfind]
  by_cases hf : context.type = .instructionFetch
  · simp [hb, hreadable, hc, hx hf]
  · simp [hb, hreadable, hc, hf]

lemma read_execute_protected
    (h : b.fastReadRegion a 4 { context with type := .dataRead } = some r)
    (hf : context.type = .instructionFetch) (hx : r.info.executable = false) :
    ∃ fault, b.read a .word context = (.error fault, b) := by
  obtain ⟨hfind, hb, hreadable, hc⟩ := fastReadRegion_some h
  have hrange := validRange_of_containsRange (RegionMap.find_some hfind).1 hc (by omega) (by omega)
  have hc' : r.containsRange a (byteCount .word) = true := hc
  have hrange' : validRange a (ofNat 32 (byteCount .word)) = true := hrange
  have hroute : b.readRoute a .word context = .refused (faultOf a .word context .executeProtected
      r.info.name "memory region is not executable") := by
    unfold readRoute
    dsimp only
    rw [hrange', hfind]
    dsimp only
    rw [hc', hreadable, if_neg (by simp), if_neg (by simp), if_neg (by simp),
      if_pos (by simp [hf, hx])]
  exact ⟨_, by rw [read, readFrom, hroute]⟩

section

variable (b : MemoryBus δ) (context : AccessContext) (a : BitVec 32)

lemma readWords_refines_iff (count : Nat) :
    Refines b context (.readWords a count) ↔ Exact b context (.readWords a count) := by
  have hfast := tryFastReadWords_eq b context a count
  split at hfast
  · rename_i hcount
    simp at hcount
    constructor
    · intro _ r h0 hspan
      omega
    · intro _
      simp [Refines, attempt, hfast]
  · rename_i hcount
    simp at hcount
    cases hr : b.fastReadRegion a (count * 4) { context with type := .dataRead } with
    | none =>
      simp [Refines, Exact, attempt, hfast, hr]
    | some r =>
      rw [hr, Option.map_some] at hfast
      have hpart : ∀ w < count, b.fastReadRegion (a + ofNat 32 (w * 4)) 4
          { context with type := .dataRead } = some r :=
        fun w hw => fastReadRegion_part hr (by omega) (by omega)
      constructor
      · intro h r' _ _ hr' hf
        obtain rfl : r = r' := Option.some.inj (hr.symm.trans hr')
        by_contra hx
        rw [Bool.not_eq_true] at hx
        have h0 := hpart 0 (by omega)
        rw [Nat.zero_mul, add_zero] at h0
        obtain ⟨fault, hfault⟩ := read_execute_protected h0 hf hx
        have hordinary := h.1 _ _ (by rw [attempt, hfast])
        obtain ⟨n, rfl⟩ : ∃ n, count = n + 1 := ⟨count - 1, by omega⟩
        rw [ordinary, readEach, hfault] at hordinary
        cases hordinary
      · intro h
        have hx := h r (by omega) (by omega) hr
        have hserved := readEach_spec fun w hw => fastReadRegion_context (hpart w hw) hx
        simp only [Refines, attempt, ordinary, hfast, hserved]
        constructor
        · intro values after heq
          cases heq
          simp [Function.comp_def]
        · intro after heq
          cases heq

/-- One note for several words says less than one note for each. -/
lemma eachEntries_eq_iff {n : Nat}
    (hn : 0 < n) :
    b.eachEntries context a n = b.storeEntries context a (n * 4) ↔
      (1 < n → b.accessWatchLogEnabled = true → context.pc = 0) := by
  by_cases hnoted : (context.pc ≠ 0 && b.accessWatchLogEnabled) = true
  · rw [eachEntries, storeEntries, if_pos hnoted, if_pos hnoted]
    simp at hnoted
    constructor
    · intro h hlt _
      have hlength := congrArg List.length h
      simp at hlength
      omega
    · intro h
      obtain rfl : n = 1 := by
        by_contra hne
        exact hnoted.1 (h (by omega) hnoted.2)
      simp [range_succ_eq_map]
  · rw [eachEntries, storeEntries, if_neg hnoted, if_neg hnoted]
    simp only [Bool.and_eq_true, decide_eq_true_eq, not_and] at hnoted
    refine iff_of_true rfl fun _ hl => ?_
    by_contra hp
    exact hnoted hp hl

lemma writeWords_refines_iff (vs : List (BitVec 32)) (ram : Bool) :
    Refines b context (.writeWords a vs ram) ↔ Exact b context (.writeWords a vs ram) := by
  have hfast := tryFastWriteWords_eq b context a vs ram
  split at hfast
  · rename_i hcount
    simp only [Bool.or_eq_true, decide_eq_true_eq] at hcount
    constructor
    · intro _ r h0 hspan
      omega
    · intro _
      simp [Refines, attempt, hfast]
  · rename_i hcount
    simp only [Bool.or_eq_true, decide_eq_true_eq, not_or] at hcount
    cases hr : b.fastWriteRegion a (vs.length * 4) ram with
    | none =>
      simp [Refines, Exact, attempt, hfast, hr]
    | some r =>
      rw [hr, Option.map_some] at hfast
      obtain ⟨hfind, -, -, hc⟩ := fastWriteRegion_some hr
      have hend := RegionMap.end_le (RegionMap.find_some hfind).1
      obtain ⟨-, hhigh⟩ := (r.containsRange_iff a _).mp hc
      have hspec : ∃ after, writeEach context vs a b = (.ok [], after) ∧
          WroteEach b after context r a vs :=
        writeEach_spec (by rintro rfl; simp at hcount) (by omega)
          fun w hw => fastWriteRegion_part hr (by omega) (by omega)
      obtain ⟨after, hrun, hwrote⟩ := hspec
      obtain ⟨bytes, journal, sequence, generation, hnoted⟩ :=
        noted_words b context r a vs (show 0 < vs.length * 4 by omega)
      have halike : Alike after
          (((b.addStoreFootprint a (vs.length * 4) context).storeWords (context.pc = 0) a
            vs).noteExecutable r) := hwrote.alike.trans (by
        rw [Alike, unwatched_noteExecutable, unwatched_storeWords, unwatched_storeWords,
          unwatched_addStoreFootprint])
      have hlog := eachEntries_eq_iff b context a (n := vs.length) (by omega)
      rw [hnoted] at hfast halike
      have hsame : Refines b context (.writeWords a vs ram) ↔
          after.executionGeneration = b.executionGeneration + (if r.info.executable then 1 else 0) ∧
          b.eachEntries context a vs.length = b.storeEntries context a (vs.length * 4) := by
        simp only [Refines, attempt, ordinary, hfast, hrun]
        constructor
        · intro h
          have hafter := congrArg Prod.snd (h.1 _ _ rfl)
          dsimp only at hafter
          refine ⟨by rw [hafter], (append_right_inj b.accessWatchLog).mp ?_⟩
          rw [← hwrote.log, hafter]
        · rintro ⟨hcode, hentries⟩
          have hafter := halike.eq hcode hwrote.footprint (by rw [hwrote.log, hentries])
          rw [hafter]
          constructor
          · intro values after' heq
            cases heq
            rfl
          · intro after' heq
            cases heq
      rw [hsame, hlog, hwrote.code]
      constructor
      · rintro ⟨hcode, hentries⟩ r' hlt _ hr'
        obtain rfl : r = r' := Option.some.inj (hr.symm.trans hr')
        refine ⟨?_, hentries hlt⟩
        by_contra hx
        rw [Bool.not_eq_false] at hx
        rw [if_pos hx, if_pos hx] at hcode
        omega
      · intro h
        refine ⟨?_, fun hlt => (h r hlt (by omega) hr).2⟩
        by_cases hlt : 1 < vs.length
        · rw [(h r hlt (by omega) hr).1]
          rfl
        · rw [show vs.length = 1 by omega]

end

/-- **Fast paths.** Whatever the map, the addresses, the values and the context,
a fast path leaves exactly what the ordinary accesses of its words leave, values,
bytes, journal, counts and notes, and a declined one changes nothing. Only a bulk
store that has more than one word to note and a bulk fetch outside executable
memory differ. -/
theorem a_fast_path_leaves_what_ordinary_accesses_leave_unless_it_notes_words_once
    (b : MemoryBus δ) (context : AccessContext) (x : FastAccess) :
    Refines b context x ↔ Exact b context x := by
  cases x with
  | readWords a count => exact readWords_refines_iff b context a count
  | writeWords a vs ram => exact writeWords_refines_iff b context a vs ram
  | read a size =>
    refine iff_of_true ?_ trivial
    cases h : b.tryFastRead a size context with
    | none => simp [Refines, attempt, h]
    | some p => simp [Refines, attempt, ordinary, h, tryFastRead_read h, Except.map]
  | read32 a =>
    refine iff_of_true ?_ trivial
    cases h : b.tryFastRead32 a context with
    | none => simp [Refines, attempt, h]
    | some p => simp [Refines, attempt, ordinary, readEach, h, tryFastRead32_read h, Except.map]
  | write a size v ram =>
    refine iff_of_true ?_ trivial
    cases h : b.tryFastWrite a size v context ram with
    | none => simp [Refines, attempt, h]
    | some p => simp [Refines, attempt, ordinary, h, tryFastWrite_write h, Except.map]
  | write32 a v ram =>
    refine iff_of_true ?_ trivial
    cases h : b.tryFastWrite32 a v context ram with
    | none => simp [Refines, attempt, h]
    | some p => simp [Refines, attempt, ordinary, writeEach, h, tryFastWrite32_write h]

def watchedSram : MemoryBus Unit := { sram with accessWatchLogEnabled := true }

/-- A bulk store of three words is noted once, and the note ends after eight
bytes. -/
theorem a_bulk_store_of_three_words_hides_the_third :
    let store := FastAccess.writeWords sramBase [1, 2, 3] false
    ((watchedSram.attempt storeContext store).1 = some [] ∧
      (watchedSram.attempt storeContext store).2.accessWatchLog = [⟨sramBase, 8, true⟩]) ∧
    (watchedSram.ordinary storeContext store).2.accessWatchLog =
      [⟨sramBase, 4, true⟩, ⟨sramBase + 4, 4, true⟩, ⟨sramBase + 8, 4, true⟩] ∧
    ¬Refines watchedSram storeContext store := by
  refine ⟨by decide, by decide, fun h => ?_⟩
  have hexact := (writeWords_refines_iff watchedSram storeContext sramBase [1, 2, 3] false).mp h
  exact absurd ((hexact sramRegion (by decide) (by decide) (by decide)).2 rfl) (by decide)

end MemoryBus

end Fil.Mem
