-- The laws of rollback. A checkpoint comes back exactly as long as only
-- checkpoints inside it were restored since, and the journal never ran more
-- than one turn of the ring past it. A refused rollback changes nothing. When
-- the ring has wrapped and an inner rollback came back, neither holds.
import Fil.BusEffects
import Mathlib.Data.List.Infix

open ByteLanes UndoRing List
open BitVec (ofNat)

namespace Fil.Mem

/-- One call that a board makes on its bus. -/
inductive BusOp
  | read8 (address : BitVec 32) (context : AccessContext)
  | read16 (address : BitVec 32) (context : AccessContext)
  | read32 (address : BitVec 32) (context : AccessContext)
  | read64 (address : BitVec 32) (context : AccessContext)
  | write8 (address : BitVec 32) (value : BitVec 8) (context : AccessContext)
  | write16 (address : BitVec 32) (value : BitVec 16) (context : AccessContext)
  | write32 (address : BitVec 32) (value : BitVec 32) (context : AccessContext)
  | write64 (address : BitVec 32) (value : BitVec 64) (context : AccessContext)
  | tryFastRead (address : BitVec 32) (size : AccessSize) (context : AccessContext)
  | tryFastRead32 (address : BitVec 32) (context : AccessContext)
  | tryFastReadWords (address : BitVec 32) (count : Nat) (context : AccessContext)
  | tryFastWrite (address : BitVec 32) (size : AccessSize) (value : BitVec 64)
      (context : AccessContext) (ram : Bool)
  | tryFastWrite32 (address value : BitVec 32) (context : AccessContext) (ram : Bool)
  | tryFastWriteWords (address : BitVec 32) (values : List (BitVec 32)) (context : AccessContext)
      (ram : Bool)
  | loadBytes (address : BitVec 32) (bytes : List (BitVec 8))
  | restoreSideEffects (checkpoint : SideEffectCheckpoint)

namespace MemoryBus

variable {δ : Type}

/-- The bus after one call. A fast path that declines leaves it as it was. -/
def apply (b : MemoryBus δ) : BusOp → MemoryBus δ
  | .read8 a c => (b.read8 a c).2
  | .read16 a c => (b.read16 a c).2
  | .read32 a c => (b.read32 a c).2
  | .read64 a c => (b.read64 a c).2
  | .write8 a v c => (b.write8 a v c).2
  | .write16 a v c => (b.write16 a v c).2
  | .write32 a v c => (b.write32 a v c).2
  | .write64 a v c => (b.write64 a v c).2
  | .tryFastRead a s c => ((b.tryFastRead a s c).map Prod.snd).getD b
  | .tryFastRead32 a c => ((b.tryFastRead32 a c).map Prod.snd).getD b
  | .tryFastReadWords a n c => ((b.tryFastReadWords a n c).map Prod.snd).getD b
  | .tryFastWrite a s v c r => (b.tryFastWrite a s v c r).getD b
  | .tryFastWrite32 a v c r => (b.tryFastWrite32 a v c r).getD b
  | .tryFastWriteWords a vs c r => (b.tryFastWriteWords a vs c r).getD b
  | .loadBytes a bs => (b.loadBytes a bs).2
  | .restoreSideEffects c => (b.restoreSideEffects c).2

/-- The bus after a history of calls. -/
def run (b : MemoryBus δ) (ops : List BusOp) : MemoryBus δ := ops.foldl apply b

/-! ## What one call does -/

variable {b : MemoryBus δ} {past : Nat → BitVec 32 → BitVec 8}

lemma getD_does {o : Option (MemoryBus δ)}
    (h : ∀ b', o = some b' → Does b b') : Does b (o.getD b) := by
  cases o with
  | none => exact Does.refl b
  | some b' => exact h b' rfl

lemma getD_snd_does {α : Type} {o : Option (α × MemoryBus δ)}
    (h : ∀ v b', o = some (v, b') → Does b b') : Does b ((o.map Prod.snd).getD b) := by
  cases o with
  | none => exact Does.refl b
  | some p => exact h p.1 p.2 rfl

/-- Every call but a rollback only notes, stores and talks to devices. -/
lemma apply_does (b : MemoryBus δ) (op : BusOp)
    (h : ∀ c, op ≠ .restoreSideEffects c) : Does b (b.apply op) := by
  cases op with
  | read8 | read16 | read32 | read64 =>
    simp only [apply, read8_eq, read16_eq, read32_eq]
    exact (read_path b _ _ _).does
  | write8 | write16 | write32 | write64 =>
    simp only [apply, write8_eq, write16_eq, write32_eq]
    exact (write_path b _ _ _ _).does
  | tryFastRead a s c => exact getD_snd_does fun _ _ h => (tryFastRead_path h).does
  | tryFastRead32 a c => exact getD_snd_does fun _ _ h => (tryFastRead32_path h).does
  | tryFastReadWords a n c => exact getD_snd_does fun _ _ h => (tryFastReadWords_path h).does
  | tryFastWrite a s v c r => exact getD_does fun _ h => (tryFastWrite_path h).does
  | tryFastWrite32 a v c r => exact getD_does fun _ h => (tryFastWrite32_path h).does
  | tryFastWriteWords a vs c r => exact getD_does fun _ h => (tryFastWriteWords_path h).does
  | loadBytes a bs => exact (loadBytes_path b a bs).does
  | restoreSideEffects c => exact absurd rfl (h c)

/-- The journal of a bus still knows every store from number `low` on. -/
def Knows (b : MemoryBus δ) (past : Nat → BitVec 32 → BitVec 8) (low : Nat) : Prop :=
  Intact mutationJournalCapacity b.map.Backed b.log past low

lemma log_undoMutation (b : MemoryBus δ) (slot : Nat) :
    (b.undoMutation slot).log =
      { b.log with
        mem := Function.update b.log.mem (b.log.slot slot).key (b.log.slot slot).old
        slot := Function.update b.log.slot slot ⟨0, 0⟩ } := by
  simp only [undoMutation, log]
  congr 1
  funext i
  by_cases hi : i = slot
  · subst hi
    simp
  · simp [Function.update_of_ne hi]

variable {low : Nat}

/-- Taking back stores the journal knows always works, and gives the bytes of
the number it goes back to. -/
lemma restoreLoop_spec {base : Nat} (hbase : base ≤ low)
    (n : Nat) (b : MemoryBus δ) (e : Bool)
    (h : Intact mutationJournalCapacity b.map.Backed { b.log with seq := low + n } past base) :
    ∃ b' e', restoreLoop low n b e = (true, b', e') ∧
      Intact mutationJournalCapacity b.map.Backed { b'.log with seq := low } past base ∧
      b'.map = b.map ∧ b'.writeJournalTracking = b.writeJournalTracking := by
  induction n generalizing b e with
  | zero => exact ⟨b, e, rfl, h, rfl, rfl⟩
  | succ n ih =>
    obtain ⟨r, hfind, hb⟩ := h.keys (low + n) (by omega) (by dsimp only; omega)
    have hundo := intact_undo (c := ⟨0, 0⟩) h (n := low + n) rfl (by omega)
    unfold restoreLoop
    dsimp only [log] at hfind ⊢
    rw [hfind]
    simp only [hb, Bool.not_true, Bool.false_eq_true, if_false]
    apply ih
    rw [log_undoMutation]
    exact hundo

variable {cp : SideEffectCheckpoint}

/-- A rollback that the journal still knows goes through and gives the bytes
of its checkpoint. -/
lemma restoreSideEffects_spec {base : Nat} (h : b.Knows past base)
    (hbase : base ≤ cp.mutationSequence) (hcan : b.canRestoreSideEffects cp = true) :
    (b.restoreSideEffects cp).1 = true ∧
      (b.restoreSideEffects cp).2.bytes = past cp.mutationSequence ∧
      (b.restoreSideEffects cp).2.Knows past base ∧
      (b.restoreSideEffects cp).2.writeJournalTracking = b.writeJournalTracking := by
  have hle : cp.mutationSequence ≤ b.mutationSequence := by
    unfold canRestoreSideEffects at hcan
    split_ifs at hcan with h1 h2
    · omega
    · simp at h1
      exact h1.2
  have hlog : b.log = { b.log with
      seq := cp.mutationSequence + (b.mutationSequence - cp.mutationSequence) } := by
    simp [log, Nat.add_sub_cancel' hle]
  unfold Knows at h
  rw [hlog] at h
  obtain ⟨b', e', hrun, hk, hm, ht⟩ := restoreLoop_spec hbase _ b false h
  unfold restoreSideEffects
  rw [hcan, hrun]
  refine ⟨rfl, hk.now.symm, ?_, ht⟩
  unfold Knows
  dsimp only
  rw [hm]
  exact hk

/-- What a rollback never touches. -/
lemma restoreLoop_frame (low n : Nat) (b : MemoryBus δ) (e : Bool) :
    (restoreLoop low n b e).2.1.map = b.map ∧
      (restoreLoop low n b e).2.1.mmioGeneration = b.mmioGeneration ∧
      (restoreLoop low n b e).2.1.journalGeneration = b.journalGeneration := by
  induction n generalizing b e with
  | zero => exact ⟨rfl, rfl, rfl⟩
  | succ n ih =>
    unfold restoreLoop
    dsimp only
    split
    · exact ⟨rfl, rfl, rfl⟩
    split_ifs
    · exact ⟨rfl, rfl, rfl⟩
    · exact ih _ _

lemma restoreSideEffects_true {b b' : MemoryBus δ} {e : Bool}
    (hcan : b.canRestoreSideEffects cp = true)
    (h : restoreLoop cp.mutationSequence (b.mutationSequence - cp.mutationSequence) b false =
      (true, b', e)) :
    (b.restoreSideEffects cp).2.mutationSequence = cp.mutationSequence ∧
      (b.restoreSideEffects cp).2.mutationJournal = b'.mutationJournal ∧
      (b.restoreSideEffects cp).2.map = b.map ∧
      (b.restoreSideEffects cp).2.mmioGeneration = b.mmioGeneration ∧
      (b.restoreSideEffects cp).2.journalGeneration = b.journalGeneration := by
  have hframe := restoreLoop_frame cp.mutationSequence
    (b.mutationSequence - cp.mutationSequence) b false
  rw [h] at hframe
  unfold restoreSideEffects
  rw [hcan, h]
  exact ⟨rfl, rfl, hframe⟩

/-- A refused rollback does nothing at all. -/
lemma restoreSideEffects_refused
    (h : b.canRestoreSideEffects cp = false) : b.restoreSideEffects cp = (false, b) := by
  simp [restoreSideEffects, h]

/-! ## What a history does -/

/-- One call keeps what the journal knows from `low` on, if it restores no
checkpoint below `low` and does not run a full ring past it. -/
lemma apply_knows {op : BusOp}
    (ht : b.writeJournalTracking = true) (h : b.Knows past low)
    (hnest : ∀ c, op = .restoreSideEffects c → low ≤ c.mutationSequence)
    (hroom : (b.apply op).mutationSequence ≤ low + mutationJournalCapacity) :
    (b.apply op).writeJournalTracking = true ∧
      ∃ past', (b.apply op).Knows past' low ∧ past' low = past low := by
  by_cases hop : ∃ c, op = .restoreSideEffects c
  · obtain ⟨c, rfl⟩ := hop
    cases hcan : b.canRestoreSideEffects c with
    | true =>
      obtain ⟨-, -, hk, htr⟩ := restoreSideEffects_spec h (hnest c rfl) hcan
      exact ⟨htr.trans ht, past, hk, rfl⟩
    | false =>
      simp only [apply, restoreSideEffects_refused hcan]
      exact ⟨ht, past, h, rfl⟩
  · have hj := (apply_does b op fun c hc => hop ⟨c, hc⟩).journaled
    obtain ⟨ws, hok, hlog⟩ := hj.stores ht
    refine ⟨hj.tracking.trans ht, ?_⟩
    have hroom' : (b.log.writes mutationJournalCapacity ws).seq ≤ low + mutationJournalCapacity := by
      rw [← hlog]
      exact hroom
    obtain ⟨past', hp, he⟩ := intact_writes h hok hroom'
    refine ⟨past', ?_, he⟩
    unfold Knows
    rw [hj.map, hlog]
    exact hp

/-- A history that stays inside the checkpoint taken at `low` and inside one
turn of the ring keeps everything known. -/
lemma run_knows {ops : List BusOp} (ht : b.writeJournalTracking = true)
    (h : b.Knows past low)
    (hnest : ∀ c, BusOp.restoreSideEffects c ∈ ops → low ≤ c.mutationSequence)
    (hroom : ∀ pre, pre <+: ops → (b.run pre).mutationSequence ≤ low + mutationJournalCapacity) :
    (b.run ops).writeJournalTracking = true ∧
      ∃ past', (b.run ops).Knows past' low ∧ past' low = past low := by
  induction ops generalizing b past with
  | nil => exact ⟨ht, past, h, rfl⟩
  | cons op ops ih =>
    have hone := hroom [op] (by simp)
    obtain ⟨ht', past', hk, he⟩ := apply_knows ht h (fun c hc => hnest c (by simp [hc])) hone
    obtain ⟨htr, past'', hk', he'⟩ := ih ht' hk (fun c hc => hnest c (by simp [hc]))
      (fun pre hpre => hroom (op :: pre) (by simpa using hpre))
    exact ⟨htr, past'', hk', he'.trans he⟩

/-- A checkpoint taken at `b` is restored exactly after any history in which
only checkpoints at or above it were restored and the journal stayed within
one turn of the ring above it. A rollback that reports failure changes no
byte. -/
theorem a_checkpoint_inside_the_ring_comes_back_exactly (b : MemoryBus δ) (ops : List BusOp)
    (ht : b.writeJournalTracking = true)
    (hnest : ∀ c, BusOp.restoreSideEffects c ∈ ops → b.mutationSequence ≤ c.mutationSequence)
    (hroom : ∀ pre, pre <+: ops →
      (b.run pre).mutationSequence ≤ b.mutationSequence + mutationJournalCapacity) :
    ((b.run ops).canRestoreSideEffects b.sideEffectCheckpoint = true →
      ((b.run ops).restoreSideEffects b.sideEffectCheckpoint).1 = true ∧
      ∀ a, ((b.run ops).restoreSideEffects b.sideEffectCheckpoint).2.bytes a = b.bytes a) ∧
    (((b.run ops).restoreSideEffects b.sideEffectCheckpoint).1 = false →
      ∀ a, ((b.run ops).restoreSideEffects b.sideEffectCheckpoint).2.bytes a =
        (b.run ops).bytes a) := by
  have hstart : b.Knows (fun _ => b.bytes) b.mutationSequence := intact_start b.log
  obtain ⟨-, past, hk, he⟩ := run_knows ht hstart hnest hroom
  refine ⟨fun hcan => ?_, fun hfail a => ?_⟩
  · obtain ⟨h1, h2, -, -⟩ := restoreSideEffects_spec hk le_rfl hcan
    exact ⟨h1, fun a => by rw [h2]; exact congrFun he a⟩
  cases hcan : (b.run ops).canRestoreSideEffects b.sideEffectCheckpoint with
  | true =>
    rw [(restoreSideEffects_spec hk le_rfl hcan).1] at hfail
    cases hfail
  | false => rw [restoreSideEffects_refused hcan]

/-! ## A run past the ring -/

def sramBase : BitVec 32 := 0x20000000

def sramRegion : Region := { info := ⟨sramBase, 0x1000, .ram, "sram", true, true, false⟩ }

/-- A store made by the instruction at the start of flash. -/
def storeContext : AccessContext := ⟨.dataWrite, 0x08000000⟩

/-- A bus with one block of RAM. -/
def sram : MemoryBus Unit where
  map := ⟨[sramRegion], by decide, by simp⟩
  bytes := fun _ => 0
  devices := noDevices
  deviceState := ()

/-- Two stores to one word, the second taken back and made once more, come back as one. -/
theorem a_checkpoint_comes_back_after_an_inner_restore :
    let first := BusOp.write8 sramBase 1 storeContext
    let second := BusOp.write32 sramBase 0x01020304 storeContext
    let ops := [first, second, .restoreSideEffects (sram.run [first]).sideEffectCheckpoint, second]
    (sram.run ops).canRestoreSideEffects sram.sideEffectCheckpoint = true ∧
      ((sram.run ops).restoreSideEffects sram.sideEffectCheckpoint).1 = true ∧
      ∀ a, ((sram.run ops).restoreSideEffects sram.sideEffectCheckpoint).2.bytes a =
        sram.bytes a := by
  intro first second ops
  have hcan : (sram.run ops).canRestoreSideEffects sram.sideEffectCheckpoint = true := by
    decide
  refine ⟨hcan, (a_checkpoint_inside_the_ring_comes_back_exactly sram ops rfl ?_ ?_).1 hcan⟩
  · exact fun c _ => Nat.zero_le c.mutationSequence
  · intro pre hpre
    have hmem := List.mem_inits _ _ |>.mpr hpre
    have hall : ∀ p ∈ ops.inits, (sram.run p).mutationSequence ≤
        sram.mutationSequence + mutationJournalCapacity := by
      decide
    exact hall pre hmem

/-- The store that flips the first byte of RAM for the time numbered `i`. -/
def flip (i : Nat) : BusOp :=
  .write8 sramBase (BitVec.ofNat 8 ((i + 1) % 2)) storeContext

def flips (n : Nat) : List BusOp := (List.range n).map flip

/-- The state of the bus after `n` flips, as far as the run below needs it. -/
structure Flipped (n : Nat) (b : MemoryBus Unit) : Prop where
  map : b.map = sram.map
  byte : b.bytes sramBase = BitVec.ofNat 8 (n % 2)
  seq : b.mutationSequence = n
  tracking : b.writeJournalTracking = true
  mmio : b.mmioGeneration = 1
  journal : b.journalGeneration = 1
  free : b.reversibleRamOnly = false
  unwatched : b.accessWatchLogEnabled = false
  untraced : b.storeFootprintTracking = false

variable {n : Nat}

lemma apply_flip {b : MemoryBus Unit} (h : Flipped n b) :
    b.apply (flip n) = b.storeByte sramBase (ofNat 8 ((n + 1) % 2)) false := by
  have hfind : b.map.find sramBase = some sramRegion := by
    rw [h.map]
    decide
  have hregion : b.fastWriteRegion sramBase 1 false = some sramRegion := by
    unfold fastWriteRegion
    rw [hfind, h.free]
    decide
  have hfoot : b.addStoreFootprint sramBase 1 storeContext = b := by
    simp [addStoreFootprint, h.unwatched, h.untraced]
  have hbyte : byteAt ((ofNat 8 ((n + 1) % 2)).setWidth 64) 0 =
      ofNat 8 ((n + 1) % 2) := by
    simp [byteAt]
  have hpc : decide (storeContext.pc = 0) = false := by decide
  simp only [apply, flip, write8, tryFastWrite, byteCount, hregion, hfoot, hpc]
  simp [storeBytes, hbyte, noteExecutable, sramRegion]

lemma flipped_apply {b : MemoryBus Unit} (h : Flipped n b) :
    Flipped (n + 1) (b.apply (flip n)) := by
  have hne : b.bytes sramBase ≠ ofNat 8 ((n + 1) % 2) := by
    rw [h.byte]
    rcases Nat.mod_two_eq_zero_or_one n with hn | hn
    · rw [hn, show (n + 1) % 2 = 1 by omega]
      decide
    · rw [hn, show (n + 1) % 2 = 0 by omega]
      decide
  rw [apply_flip h, storeByte, if_neg hne]
  refine ⟨h.map, ?_, by simp [recordMutation, h.seq], h.tracking, h.mmio, h.journal, h.free,
    h.unwatched, h.untraced⟩
  simp [recordMutation]

lemma run_flips_succ (n : Nat) :
    sram.run (flips (n + 1)) = (sram.run (flips n)).apply (flip n) := by
  simp [flips, range_succ, run]

lemma flipped_run (n : Nat) : Flipped n (sram.run (flips n)) := by
  induction n with
  | zero => exact ⟨rfl, rfl, rfl, rfl, rfl, rfl, rfl, rfl, rfl⟩
  | succ n ih =>
    rw [run_flips_succ]
    exact flipped_apply ih

/-- A rollback never fills a slot that was cleared. -/
lemma restoreLoop_keeps_clear (low n : Nat) (b : MemoryBus δ) (e : Bool) {j : Nat}
    (h : b.mutationJournal j = {}) : (restoreLoop low n b e).2.1.mutationJournal j = {} := by
  induction n generalizing b e with
  | zero => exact h
  | succ n ih =>
    unfold restoreLoop
    dsimp only
    split
    · exact h
    split_ifs
    · exact h
    apply ih
    by_cases hj : j = (low + n) % mutationJournalCapacity
    · simp [undoMutation, hj]
    · simp [undoMutation, Function.update_of_ne hj, h]

lemma restoreLoop_clears (low : Nat) (b : MemoryBus δ) (e : Bool)
    (h : (restoreLoop low 1 b e).1 = true) :
    (restoreLoop low 1 b e).2.1.mutationJournal (low % mutationJournalCapacity) = {} := by
  unfold restoreLoop at h ⊢
  dsimp only at h ⊢
  split at h
  · cases h
  · split_ifs at h ⊢
    simp [restoreLoop, undoMutation]

lemma restoreLoop_add (low k n : Nat) (b : MemoryBus δ) (e : Bool) :
    restoreLoop low (k + n) b e =
      match restoreLoop (low + k) n b e with
      | (true, b', e') => restoreLoop low k b' e'
      | (false, b', e') => (false, b', e') := by
  induction n generalizing b e with
  | zero => rfl
  | succ n ih =>
    rw [← Nat.add_assoc, restoreLoop, restoreLoop, Nat.add_assoc]
    split
    · rfl
    split_ifs
    · rfl
    · exact ih _ _

lemma run_append (b : MemoryBus δ) (us ws : List BusOp) : b.run (us ++ ws) = (b.run us).run ws :=
  foldl_append

/-- Every flip but the first, seen from the state after the first. -/
lemma flips_after_first (n : Nat) :
    (sram.run (flips 1)).run ((range n).map fun i => flip (i + 1)) =
      sram.run (flips (n + 1)) := by
  rw [← run_append]
  congr 1
  simp [flips, range_succ_eq_map, Function.comp_def]

/-- The state after one flip more than the ring holds, and the rollback of a
checkpoint taken just before that flip. -/
structure Wrapped (b : MemoryBus Unit) : Prop where
  map : b.map = sram.map
  byte : b.bytes sramBase = 0
  seq : b.mutationSequence = mutationJournalCapacity
  tracking : b.writeJournalTracking = true
  mmio : b.mmioGeneration = 1
  journal : b.journalGeneration = 1
  cleared : b.mutationJournal 0 = {}

/-- Restoring the checkpoint before the last store, when the journal knows
that store. -/
lemma restore_last {b b' : MemoryBus δ} {op : BusOp} (hop : ∀ c, op ≠ .restoreSideEffects c)
    (ht : b.writeJournalTracking = true) (hlast : b' = b.apply op)
    (hseq : b'.mutationSequence = b.mutationSequence + 1)
    (hmmio : b'.mmioGeneration = b.mmioGeneration)
    (hjournal : b'.journalGeneration = b.journalGeneration) :
    let c := (b'.restoreSideEffects b.sideEffectCheckpoint).2
    c.bytes = b.bytes ∧ c.mutationSequence = b.mutationSequence ∧ c.map = b'.map ∧
      c.writeJournalTracking = true ∧ c.mmioGeneration = b.mmioGeneration ∧
      c.journalGeneration = b.journalGeneration ∧
      c.mutationJournal (b.mutationSequence % mutationJournalCapacity) = {} := by
  intro c
  have hstart : b.Knows (fun _ => b.bytes) b.mutationSequence := intact_start b.log
  have hroom : (b.apply op).mutationSequence ≤ b.mutationSequence + mutationJournalCapacity := by
    rw [← hlast, hseq]
    exact Nat.add_le_add_left (by decide) _
  obtain ⟨ht', past, hk, he⟩ := apply_knows ht hstart (fun c hc => absurd hc (hop c)) hroom
  rw [← hlast] at hk ht'
  have hcan : b'.canRestoreSideEffects b.sideEffectCheckpoint = true := by
    simp [canRestoreSideEffects, sideEffectCheckpoint, hmmio, hjournal, hseq, ht',
      mutationJournalCapacity]
  obtain ⟨-, hbytes, -, htr⟩ := restoreSideEffects_spec hk le_rfl hcan
  have hlog : b'.log = { b'.log with seq := b.mutationSequence + 1 } := by
    rw [← hseq]
    rfl
  unfold Knows at hk
  rw [hlog] at hk
  obtain ⟨d, e, hrun, -⟩ := restoreLoop_spec (le_refl b.mutationSequence) 1 b' false hk
  have hcount : b'.mutationSequence - b.sideEffectCheckpoint.mutationSequence = 1 := by
    rw [hseq]
    exact Nat.add_sub_cancel_left _ _
  obtain ⟨h1, h2, h3, h4, h5⟩ := restoreSideEffects_true hcan (by rw [hcount]; exact hrun)
  refine ⟨hbytes.trans he, h1, h3, htr.trans ht', h4.trans hmmio, h5.trans hjournal, ?_⟩
  rw [h2, ← show (restoreLoop b.mutationSequence 1 b' false).2.1 = d by rw [hrun]]
  exact restoreLoop_clears b.mutationSequence b' false (by rw [hrun])

lemma wrapped_run (hn : n = mutationJournalCapacity) :
    Wrapped (sram.run (flips (n + 1) ++
      [.restoreSideEffects (sram.run (flips n)).sideEffectCheckpoint])) := by
  have hin := flipped_run n
  have hend := flipped_run (n + 1)
  obtain ⟨h1, h2, h3, h4, h5, h6, h7⟩ := restore_last
    (by simp [flip]) hin.tracking (run_flips_succ n) (by rw [hend.seq, hin.seq])
    (by rw [hend.mmio, hin.mmio]) (by rw [hend.journal, hin.journal])
  have heven : ofNat 8 (n % 2) = 0 := by
    rw [hn]
    simp [mutationJournalCapacity]
  have hslot : (sram.run (flips n)).mutationSequence % mutationJournalCapacity = 0 := by
    rw [hin.seq, hn, Nat.mod_self]
  rw [run_append]
  rw [hslot] at h7
  exact ⟨h3.trans hend.map, (congrFun h1 sramBase).trans (hin.byte.trans heven),
    h2.trans (hin.seq.trans hn), h4, h5.trans hin.mmio, h6.trans hin.journal, h7⟩

/-- From the state after the first flip on, the journal of the wrapped run
knows everything. -/
lemma wrapped_knows (hn : n = mutationJournalCapacity) :
    ∃ past, (sram.run (flips (n + 1) ++
        [.restoreSideEffects (sram.run (flips n)).sideEffectCheckpoint])).Knows past 1 ∧
      past 1 sramBase = 1 := by
  have hone := flipped_run 1
  have hstart : (sram.run (flips 1)).Knows (fun _ => (sram.run (flips 1)).bytes) 1 := by
    have h : (sram.run (flips 1)).Knows _ _ := intact_start (sram.run (flips 1)).log
    rwa [show (sram.run (flips 1)).log.seq = 1 from hone.seq] at h
  have hops : sram.run (flips (n + 1) ++
        [.restoreSideEffects (sram.run (flips n)).sideEffectCheckpoint]) =
      (sram.run (flips 1)).run (((range n).map fun i => flip (i + 1)) ++
        [.restoreSideEffects (sram.run (flips n)).sideEffectCheckpoint]) := by
    rw [run_append, ← flips_after_first, ← run_append]
  have hwrap := wrapped_run hn
  rw [hops] at hwrap ⊢
  refine Exists.imp (fun past h => ⟨h.1, ?_⟩) (run_knows hone.tracking hstart ?_ ?_).2
  · rw [h.2, hone.byte]
    rfl
  · intro c hc
    simp only [mem_append, mem_map, mem_singleton, flip] at hc
    rcases hc with ⟨i, -, hi⟩ | hc
    · cases hi
    cases hc
    rw [show (sram.run (flips n)).sideEffectCheckpoint.mutationSequence = n from
      (flipped_run n).seq, hn]
    decide
  · intro pre hpre
    rcases List.prefix_concat_iff.mp hpre with hall | hpre
    · rw [hall, hwrap.seq]
      exact Nat.le_add_left _ _
    -- a part of the flips after the first
    have htake := List.prefix_iff_eq_take.mp hpre
    have hlen : pre.length ≤ n := by simpa using hpre.length_le
    rw [← map_take, take_range, Nat.min_eq_left hlen] at htake
    rw [htake, flips_after_first, (flipped_run _).seq]
    omega

/-- In such a state a rollback to number 0 is accepted, fails at the slot that
was cleared, and leaves the byte changed. -/
lemma wrapped_rollback_breaks {b : MemoryBus Unit}
    (hwrap : Wrapped b) (hk : b.Knows past 1) (hone : past 1 sramBase = 1) :
    b.canRestoreSideEffects sram.sideEffectCheckpoint = true ∧
      (b.restoreSideEffects sram.sideEffectCheckpoint).1 = false ∧
      (b.restoreSideEffects sram.sideEffectCheckpoint).2.bytes sramBase ≠ b.bytes sramBase := by
  have hcan : b.canRestoreSideEffects sram.sideEffectCheckpoint = true := by
    simp [canRestoreSideEffects, sideEffectCheckpoint, hwrap.mmio, hwrap.journal, hwrap.seq,
      hwrap.tracking, sram]
  obtain ⟨n, hn⟩ : ∃ n, mutationJournalCapacity = 1 + n := Nat.exists_eq_add_of_le (by decide)
  have hlog : b.log = { b.log with seq := 1 + n } := by
    rw [← hn, ← hwrap.seq]
    rfl
  unfold Knows at hk
  rw [hlog] at hk
  obtain ⟨c, e, hrun, hkc, hmap, -⟩ := restoreLoop_spec le_rfl n b false hk
  have hclear : c.mutationJournal 0 = {} := by
    have := restoreLoop_keeps_clear 1 n b false hwrap.cleared
    rwa [hrun] at this
  have hnone : c.map.find (c.mutationJournal 0).address = none := by
    rw [hclear, hmap, hwrap.map]
    decide
  have hloop : restoreLoop sram.sideEffectCheckpoint.mutationSequence
      (b.mutationSequence - sram.sideEffectCheckpoint.mutationSequence) b false =
      (false, c, e) := by
    rw [show sram.sideEffectCheckpoint.mutationSequence = 0 from rfl, Nat.sub_zero, hwrap.seq, hn,
      restoreLoop_add, Nat.zero_add, hrun]
    simp [restoreLoop, hnone]
  have hres : b.restoreSideEffects sram.sideEffectCheckpoint = (false, c) := by
    unfold restoreSideEffects
    rw [hcan, hloop]
    rfl
  have hbyte : c.bytes sramBase = 1 := by
    rw [← hone]
    exact congrFun hkc.now.symm sramBase
  refine ⟨hcan, by rw [hres], ?_⟩
  rw [hres, hwrap.byte, hbyte]
  decide

/-- The outer checkpoint stands at number 0. After as many flips as the ring
holds an inner checkpoint is taken, one more flip wraps the ring, and the inner
checkpoint is restored. The outer one is then accepted, reports failure, and
leaves a byte changed. -/
theorem an_outer_rollback_breaks_once_the_ring_wraps :
    let outer := sram.sideEffectCheckpoint
    let inner := (sram.run (flips mutationJournalCapacity)).sideEffectCheckpoint
    let b := sram.run (flips (mutationJournalCapacity + 1) ++ [.restoreSideEffects inner])
    b.canRestoreSideEffects outer = true ∧ (b.restoreSideEffects outer).1 = false ∧
      (b.restoreSideEffects outer).2.bytes sramBase ≠ b.bytes sramBase := by
  obtain ⟨past, hk, hone⟩ := wrapped_knows (n := mutationJournalCapacity) rfl
  exact wrapped_rollback_breaks (wrapped_run rfl) hk hone

end MemoryBus

end Fil.Mem
