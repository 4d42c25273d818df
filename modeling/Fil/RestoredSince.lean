-- The proof that a loop left no side effects. The bus compares the bytes that
-- the journal says were changed with what their first change replaced, and
-- takes equal numbers for equal memory. That is right as long as no rollback
-- since went below the checkpoint; a number that was reached again by other
-- stores is taken for the old one.
import Fil.Rollback

open ByteLanes UndoRing

namespace Fil.Mem

namespace MemoryBus

variable {δ : Type}

/-- The journal entry of store number `low + i`. -/
def mutationAfter (b : MemoryBus δ) (low i : Nat) : BackedMutation :=
  b.mutationJournal ((low + i) % mutationJournalCapacity)

/-- Whether no backed byte differs from the checkpoint and no device was reached
since, as far as the counters and the journal tell. -/
def sideEffectsRestoredSince (b : MemoryBus δ) (checkpoint : SideEffectCheckpoint) : Bool :=
  let low := checkpoint.mutationSequence
  if checkpoint.mmioGeneration ≠ b.mmioGeneration
    || checkpoint.journalGeneration ≠ b.journalGeneration then false
  else if low = b.mutationSequence then true
  else if !b.writeJournalTracking || b.mutationSequence < low
    || mutationJournalCapacity < b.mutationSequence - low then false
  else
    (List.range (b.mutationSequence - low)).all fun i =>
      let current := b.mutationAfter low i
      -- only the first entry of an address holds the value at the checkpoint
      if (List.range i).any fun prior => (b.mutationAfter low prior).address = current.address then
        true
      else
        match b.map.find current.address with
        | none => false
        | some region => region.backed && b.bytes current.address = current.oldValue

/-! ## What the check has seen -/

variable {b : MemoryBus δ}

lemma sideEffectsRestoredSince_cases {cp : SideEffectCheckpoint}
    (h : b.sideEffectsRestoredSince cp = true) :
    cp.mmioGeneration = b.mmioGeneration ∧
      (cp.mutationSequence = b.mutationSequence ∨
        b.writeJournalTracking = true ∧ cp.mutationSequence ≤ b.mutationSequence ∧
        b.mutationSequence ≤ cp.mutationSequence + mutationJournalCapacity ∧
        ∀ i < b.mutationSequence - cp.mutationSequence,
          (∀ j < i, (b.mutationAfter cp.mutationSequence j).address ≠
            (b.mutationAfter cp.mutationSequence i).address) →
          b.bytes (b.mutationAfter cp.mutationSequence i).address =
            (b.mutationAfter cp.mutationSequence i).oldValue) := by
  unfold sideEffectsRestoredSince at h
  dsimp only at h
  split_ifs at h with hgen hsame hring
  · simp at hgen
    exact ⟨hgen.1, .inl hsame⟩
  simp at hgen
  simp at hring
  refine ⟨hgen.1, .inr ⟨hring.1.1, hring.1.2, by omega, fun i hi hfirst => ?_⟩⟩
  have hall := List.all_eq_true.mp h i (List.mem_range.mpr hi)
  rw [if_neg (by simpa using hfirst)] at hall
  split at hall
  · cases hall
  · simp at hall
    exact hall.2

/-- A check that passes on entries the journal still knows has seen the bytes of
the checkpoint. -/
lemma bytes_of_restoredSince {cp : SideEffectCheckpoint}
    {past : Nat → BitVec 32 → BitVec 8} (hk : b.Knows past cp.mutationSequence)
    (h : b.sideEffectsRestoredSince cp = true) : b.bytes = past cp.mutationSequence := by
  obtain ⟨-, hsame | ⟨-, -, -, hfirst⟩⟩ := sideEffectsRestoredSince_cases h
  · rw [hsame]
    exact hk.now.symm
  · refine Intact.restored hk fun s hs hlt hkeys => ?_
    obtain ⟨i, rfl⟩ := Nat.exists_eq_add_of_le hs
    have hi : i < b.mutationSequence - cp.mutationSequence := by
      dsimp only [log] at hlt
      omega
    exact hfirst i hi fun j hj => hkeys (cp.mutationSequence + j) (by omega) (by omega)

/-! ## What a history leaves -/

/-- Numbers only rise, and a number that stays stands for bytes or devices that
stay. -/
structure Advanced (b b' : MemoryBus δ) : Prop where
  sequence : b.mutationSequence ≤ b'.mutationSequence
  bytes : b'.mutationSequence = b.mutationSequence → b'.bytes = b.bytes
  mmio : b.mmioGeneration ≤ b'.mmioGeneration
  devices : b'.mmioGeneration = b.mmioGeneration → b'.deviceState = b.deviceState

lemma Advanced.refl (b : MemoryBus δ) : Advanced b b :=
  ⟨le_rfl, fun _ => rfl, le_rfl, fun _ => rfl⟩

lemma Advanced.trans {a b c : MemoryBus δ} (h1 : Advanced a b) (h2 : Advanced b c) :
    Advanced a c where
  sequence := h1.sequence.trans h2.sequence
  bytes h := by
    have hs1 := h1.sequence
    have hs2 := h2.sequence
    rw [h2.bytes (by omega), h1.bytes (by omega)]
  mmio := h1.mmio.trans h2.mmio
  devices h := by
    have hs1 := h1.mmio
    have hs2 := h2.mmio
    rw [h2.devices (by omega), h1.devices (by omega)]

lemma Effect.advanced {b b' : MemoryBus δ} (h : Effect b b') : Advanced b b' := by
  cases h with
  | note h =>
    have hsequence := h.congr mutationSequence fun _ => rfl
    have hmmio := h.congr mmioGeneration fun _ => rfl
    exact ⟨hsequence.ge, fun _ => h.bytes, hmmio.ge, fun _ => h.deviceState⟩
  | store ha v external =>
    unfold storeByte
    split
    · exact Advanced.refl b
    · refine ⟨Nat.le_succ _, fun h => ?_, le_rfl, fun _ => rfl⟩
      exact absurd h (Nat.succ_ne_self _)
  | readMmio =>
    exact (readMmio_reached ..).keeps (.refl b) fun _ _ =>
      ⟨le_rfl, fun _ => rfl, Nat.le_succ _, fun h => absurd h (Nat.succ_ne_self _)⟩
  | writeMmio =>
    exact (writeMmio_reached ..).keeps (.refl b) fun _ _ =>
      ⟨le_rfl, fun _ => rfl, Nat.le_succ _, fun h => absurd h (Nat.succ_ne_self _)⟩

lemma Does.advanced {b b' : MemoryBus δ} (h : Does b b') : Advanced b b' :=
  h.lift Advanced.refl (fun _ _ _ => Advanced.trans) fun _ _ => Effect.advanced

lemma restoreLoop_only (low n : Nat) (b : MemoryBus δ) (e : Bool) :
    ∃ bytes mutationJournal, (restoreLoop low n b e).2.1 = { b with bytes, mutationJournal } := by
  induction n generalizing b e with
  | zero => exact ⟨_, _, rfl⟩
  | succ n ih =>
    unfold restoreLoop
    dsimp only
    split
    · exact ⟨_, _, rfl⟩
    split_ifs
    · exact ⟨_, _, rfl⟩
    · obtain ⟨bytes, journal, h⟩ := ih (b.undoMutation _) _
      rw [h]
      exact ⟨_, _, rfl⟩

section

variable (b : MemoryBus δ)

lemma restoreSideEffects_devices (c : SideEffectCheckpoint) :
    (b.restoreSideEffects c).2.mmioGeneration = b.mmioGeneration ∧
      (b.restoreSideEffects c).2.deviceState = b.deviceState ∧
      (b.restoreSideEffects c).2.writeJournalTracking = b.writeJournalTracking := by
  unfold restoreSideEffects
  split
  · exact ⟨rfl, rfl, rfl⟩
  obtain ⟨bytes, journal, h⟩ := restoreLoop_only c.mutationSequence
    (b.mutationSequence - c.mutationSequence) b false
  split
  all_goals
    rename_i b' e heq
    rw [heq] at h
    rw [show b' = _ from h]
    exact ⟨rfl, rfl, rfl⟩

lemma apply_devices (op : BusOp) :
    b.mmioGeneration ≤ (b.apply op).mmioGeneration ∧
      ((b.apply op).mmioGeneration = b.mmioGeneration →
        (b.apply op).deviceState = b.deviceState) := by
  by_cases hop : ∃ c, op = .restoreSideEffects c
  · obtain ⟨c, rfl⟩ := hop
    obtain ⟨hmmio, hdevices, -⟩ := restoreSideEffects_devices b c
    exact ⟨hmmio.ge, fun _ => hdevices⟩
  · have h := (apply_does b op fun c hc => hop ⟨c, hc⟩).advanced
    exact ⟨h.mmio, h.devices⟩

lemma run_devices (ops : List BusOp) :
    b.mmioGeneration ≤ (b.run ops).mmioGeneration ∧
      ((b.run ops).mmioGeneration = b.mmioGeneration →
        (b.run ops).deviceState = b.deviceState) := by
  induction ops generalizing b with
  | nil => exact ⟨le_rfl, fun _ => rfl⟩
  | cons op ops ih =>
    obtain ⟨h1, h2⟩ := apply_devices b op
    obtain ⟨h3, h4⟩ := ih (b.apply op)
    refine ⟨h1.trans h3, fun h => ?_⟩
    have hlast : (b.run (op :: ops)).mmioGeneration = ((b.apply op).run ops).mmioGeneration := rfl
    exact (h4 (by omega)).trans (h2 (by omega))

end

lemma apply_advanced (ht : b.writeJournalTracking = false) (op : BusOp) :
    Advanced b (b.apply op) ∧ (b.apply op).writeJournalTracking = false := by
  by_cases hop : ∃ c, op = .restoreSideEffects c
  · obtain ⟨c, rfl⟩ := hop
    refine ⟨?_, (restoreSideEffects_devices b c).2.2.trans ht⟩
    cases hcan : b.canRestoreSideEffects c with
    | false =>
      rw [apply, restoreSideEffects_refused hcan]
      exact Advanced.refl b
    | true =>
      have hsame : c.mutationSequence = b.mutationSequence := by
        unfold canRestoreSideEffects at hcan
        rw [ht] at hcan
        split_ifs at hcan with h1 h2
        · exact h2
        · simp at hcan
      have hloop : restoreLoop c.mutationSequence (b.mutationSequence - c.mutationSequence) b false =
          (true, b, false) := by
        rw [hsame, Nat.sub_self, restoreLoop]
      rw [apply, restoreSideEffects, hcan, hloop]
      exact ⟨hsame.ge, fun _ => rfl, le_rfl, fun _ => rfl⟩
  · have h := apply_does b op fun c hc => hop ⟨c, hc⟩
    exact ⟨h.advanced, h.journaled.tracking.trans ht⟩

lemma run_advanced (ht : b.writeJournalTracking = false) (ops : List BusOp) :
    Advanced b (b.run ops) ∧ (b.run ops).writeJournalTracking = false := by
  induction ops generalizing b with
  | nil => exact ⟨Advanced.refl b, ht⟩
  | cons op ops ih =>
    obtain ⟨h1, ht'⟩ := apply_advanced ht op
    obtain ⟨h2, hend⟩ := ih ht'
    exact ⟨h1.trans h2, hend⟩

/-! ## The law -/

/-- Every rollback that the bus accepts goes to the checkpoint of `b` or above
it, and starts within one turn of the ring from there. -/
def StaysAbove (b : MemoryBus δ) (ops : List BusOp) : Prop :=
  b.writeJournalTracking = true → ∀ pre c, pre ++ [.restoreSideEffects c] <+: ops →
    (b.run pre).canRestoreSideEffects c = true →
    b.mutationSequence ≤ c.mutationSequence ∧
      (b.run pre).mutationSequence ≤ b.mutationSequence + mutationJournalCapacity

/-- The journal knows the way back to the bytes at number `low`, or it has gone
a full turn past that number. -/
def Remembers (b : MemoryBus δ) (low : Nat) (bytes : BitVec 32 → BitVec 8) : Prop :=
  (∃ past, b.Knows past low ∧ past low = bytes) ∨
    low + mutationJournalCapacity < b.mutationSequence

lemma apply_remembers {op : BusOp} {low : Nat} {bytes : BitVec 32 → BitVec 8}
    (ht : b.writeJournalTracking = true) (h : b.Remembers low bytes)
    (hop : ∀ c, op = .restoreSideEffects c → b.canRestoreSideEffects c = true →
      low ≤ c.mutationSequence ∧ b.mutationSequence ≤ low + mutationJournalCapacity) :
    (b.apply op).writeJournalTracking = true ∧ (b.apply op).Remembers low bytes := by
  by_cases hrestore : ∃ c, op = .restoreSideEffects c
  · obtain ⟨c, rfl⟩ := hrestore
    refine ⟨(restoreSideEffects_devices b c).2.2.trans ht, ?_⟩
    cases hcan : b.canRestoreSideEffects c with
    | false =>
      rw [apply, restoreSideEffects_refused hcan]
      exact h
    | true =>
      obtain ⟨hlow, hroom⟩ := hop c rfl hcan
      rcases h with ⟨past, hk, hpast⟩ | hpassed
      · exact .inl ⟨past, (restoreSideEffects_spec hk hlow hcan).2.2.1, hpast⟩
      · omega
  · have hdoes := apply_does b op fun c hc => hrestore ⟨c, hc⟩
    refine ⟨hdoes.journaled.tracking.trans ht, ?_⟩
    rcases Nat.lt_or_ge (low + mutationJournalCapacity) (b.apply op).mutationSequence with hlt | hge
    · exact .inr hlt
    rcases h with ⟨past, hk, hpast⟩ | hpassed
    · obtain ⟨-, past', hk', he⟩ := apply_knows ht hk (fun c hc => absurd ⟨c, hc⟩ hrestore) hge
      exact .inl ⟨past', hk', he.trans hpast⟩
    · have := hdoes.advanced.sequence
      omega

lemma run_remembers {ops : List BusOp} (ht : b.writeJournalTracking = true)
    (h : b.StaysAbove ops) :
    (b.run ops).writeJournalTracking = true ∧ (b.run ops).Remembers b.mutationSequence b.bytes := by
  induction ops using List.reverseRecOn with
  | nil => exact ⟨ht, .inl ⟨_, intact_start b.log, rfl⟩⟩
  | append_singleton ops op ih =>
    obtain ⟨ht', hr⟩ := ih fun ht pre c hpre => h ht pre c (hpre.trans (List.prefix_append _ _))
    rw [run_append]
    refine apply_remembers ht' hr fun c hc => ?_
    subst hc
    exact h ht ops c (List.prefix_refl _)

/-- **Restored since.** Take a checkpoint, and let any calls follow in which the
accepted rollbacks stay above it. When the bus then says that side effects are
restored, every byte is what it was, and no device was reached on the way,
whatever the devices are. -/
theorem restored_since_a_checkpoint_means_the_same_bytes_and_no_device (b : MemoryBus δ)
    (ops : List BusOp) (habove : b.StaysAbove ops)
    (h : (b.run ops).sideEffectsRestoredSince b.sideEffectCheckpoint = true) :
    (∀ a, (b.run ops).bytes a = b.bytes a) ∧
      ∀ pre, pre <+: ops → (b.run pre).mmioGeneration = b.mmioGeneration ∧
        (b.run pre).deviceState = b.deviceState := by
  obtain ⟨hmmio, hnumbers⟩ := sideEffectsRestoredSince_cases h
  constructor
  · intro a
    cases ht : b.writeJournalTracking with
    | false =>
      obtain ⟨hadv, htr⟩ := run_advanced ht ops
      rcases hnumbers with hsame | ⟨htrue, -⟩
      · rw [hadv.bytes hsame.symm]
      · rw [htr] at htrue
        cases htrue
    | true =>
      obtain ⟨-, ⟨past, hk, hpast⟩ | hpassed⟩ := run_remembers ht habove
      · have hbytes := @bytes_of_restoredSince _ _ b.sideEffectCheckpoint past hk h
        rw [hbytes]
        exact congrFun hpast a
      · have hlow : b.sideEffectCheckpoint.mutationSequence = b.mutationSequence := rfl
        rcases hnumbers with hsame | ⟨-, -, hroom, -⟩
        · omega
        · omega
  · rintro pre ⟨rest, rfl⟩
    obtain ⟨h1, hdevices⟩ := run_devices b pre
    obtain ⟨h2, -⟩ := run_devices (b.run pre) rest
    rw [run_append] at hmmio
    have hcp : b.sideEffectCheckpoint.mmioGeneration = b.mmioGeneration := rfl
    have hsame : (b.run pre).mmioGeneration = b.mmioGeneration := by omega
    exact ⟨hsame, hdevices hsame⟩

/-- A byte is changed and put back: the check sees it. -/
theorem a_byte_put_back_reads_restored :
    let ops := [BusOp.write8 sramBase 1 storeContext, BusOp.write8 sramBase 0 storeContext]
    sram.StaysAbove ops ∧
      (sram.run ops).sideEffectsRestoredSince sram.sideEffectCheckpoint = true ∧
      (∀ a, (sram.run ops).bytes a = sram.bytes a) ∧
      ∀ pre, pre <+: ops → (sram.run pre).mmioGeneration = sram.mmioGeneration ∧
        (sram.run pre).deviceState = sram.deviceState := by
  intro ops
  have habove : sram.StaysAbove ops := by
    intro _ pre c hpre
    have hmem : BusOp.restoreSideEffects c ∈ ops := hpre.subset (by simp)
    simp [ops] at hmem
  have hcheck : (sram.run ops).sideEffectsRestoredSince sram.sideEffectCheckpoint = true := by
    decide
  exact ⟨habove, hcheck,
    restored_since_a_checkpoint_means_the_same_bytes_and_no_device sram ops habove hcheck⟩

/-- A rollback below the checkpoint and one other store bring its number back,
and the check takes the new byte for the old. -/
theorem a_number_reached_again_reads_restored :
    let first := sram.run [.write8 sramBase 1 storeContext]
    let later := first.run [.restoreSideEffects sram.sideEffectCheckpoint,
      .write8 sramBase 2 storeContext]
    later.sideEffectsRestoredSince first.sideEffectCheckpoint = true ∧
      first.bytes sramBase = 1 ∧ later.bytes sramBase = 2 := by
  decide

end MemoryBus

end Fil.Mem
