-- Which exceptions wait and which one is next. The device keeps a summary of the
-- pending interrupts, and it is right after every operation, so the scan finds the
-- most urgent exception that may be taken. A line that stays up makes its interrupt
-- pending again on leaving, and nothing is pending without a reason.
import Fil.SystemControl
import Mathlib.Data.List.MinMax

open Fil.Mem List BitVec

namespace Fil.Cortexm

variable {number : BitVec 16} {irq : Nat}

namespace SystemControl

/-! ## The bits of an interrupt -/

/-- The bit of an interrupt in a bank. -/
def bitOf (bank : Fin 8 → BitVec 32) (irq : Nat) : Bool := bank (irqWord irq) &&& irqMask irq != 0

lemma and_irqMask (w : BitVec 32) (irq : Nat) :
    (w &&& irqMask irq != 0) = w.getLsbD (irq % 32) := by
  have hlt : irq % 32 < 32 := Nat.mod_lt _ (by decide)
  have hne : twoPow 32 (irq % 32) ≠ 0#32 := by
    intro h
    have := congrArg (fun x : BitVec 32 => x.getLsbD (irq % 32)) h
    simp [hlt] at this
  have hmask : irqMask irq = twoPow 32 (irq % 32) := rfl
  rw [hmask, and_twoPow]
  cases w.getLsbD (irq % 32)
  · rfl
  · simpa using hne

lemma bitOf_eq (bank : Fin 8 → BitVec 32) (irq : Nat) :
    bitOf bank irq = (bank (irqWord irq)).getLsbD (irq % 32) := and_irqMask _ _

lemma bitOf_update (bank : Fin 8 → BitVec 32) (i : Fin 8) (w : BitVec 32) (irq : Nat) :
    bitOf (Function.update bank i w) irq =
      if irqWord irq = i then w.getLsbD (irq % 32) else bitOf bank irq := by
  rw [bitOf_eq, bitOf_eq, Function.update_apply]
  split <;> rfl

lemma irqWord_inj {i j : Nat} (hi : i < 256) (hj : j < 256) (hword : irqWord i = irqWord j)
    (hbit : i % 32 = j % 32) : i = j := by
  have := congrArg Fin.val hword
  simp only [irqWord] at this
  omega

lemma bitOf_withBit {bank : Fin 8 → BitVec 32} {i j : Nat} (set : Bool) (hi : i < 256)
    (hj : j < 256) :
    bitOf (withBit bank i set) j = if j = i then set else bitOf bank j := by
  unfold withBit
  rw [bitOf_eq, bitOf_eq]
  have hlt : j % 32 < 32 := Nat.mod_lt _ (by decide)
  have hmask : irqMask i = twoPow 32 (i % 32) := rfl
  by_cases hword : irqWord j = irqWord i
  · rw [hword, Function.update_self]
    by_cases hbit : j % 32 = i % 32
    · rw [if_pos (irqWord_inj hj hi hword hbit), hmask]
      cases set <;> simp [hbit, hbit ▸ hlt]
    have hne : j ≠ i := fun h => hbit (congrArg (· % 32) h)
    rw [if_neg hne, hmask]
    cases set <;> simp [hlt, hbit]
  · have hne : j ≠ i := fun h => hword (congrArg irqWord h)
    rw [if_neg hne, Function.update_of_ne hword]

lemma externalIrq_eq_some (h : externalIrq number = some irq) :
    irq < 240 ∧ number.toNat = irq + 16 := by
  unfold externalIrq at h
  split at h
  · cases h
    omega
  · cases h

lemma externalIrq_inj {i j : BitVec 16} (hi : externalIrq i = some irq)
    (hj : externalIrq j = some irq) : i = j := by
  apply eq_of_toNat_eq
  rw [(externalIrq_eq_some hi).2, (externalIrq_eq_some hj).2]

variable (c : SystemControl)

lemma bitOf_refresh (irq : Nat) :
    bitOf c.refreshPendingSummary.nvicPending irq =
      (bitOf c.nvicPending irq || bitOf c.nvicLines irq && !bitOf c.nvicActive irq) := by
  have hlt : irq % 32 < 32 := Nat.mod_lt _ (by decide)
  rw [bitOf_eq, bitOf_eq, bitOf_eq, bitOf_eq]
  simp [refreshPendingSummary, hlt]

/-! ## The scan -/

/-- The order of the scan: by priority, then by number. -/
def rank (c : SystemControl) (number : BitVec 16) : Nat :=
  (c.priority number).toNat * 65536 + number.toNat

lemma rank_lt_iff (n k : BitVec 16) :
    c.rank n < c.rank k ↔ c.priority n < c.priority k ∨ c.priority n = c.priority k ∧ n < k := by
  unfold rank
  rw [lt_def, lt_def, ← toNat_inj]
  omega

/-- The scan keeps the least of what may be taken. -/
lemma foldl_consider (m : Masks) (numbers : List (BitVec 16)) :
    numbers.foldl (c.consider m) none = (numbers.filter (c.admissible m)).argmin c.rank := by
  rw [argmin, foldl_filter]
  congr 1
  funext selected number
  unfold consider argAux
  cases selected with
  | none => rfl
  | some best =>
    dsimp only
    congr 1
    by_cases h : c.rank number < c.rank best
    · rw [if_pos h, if_pos (by simpa using (c.rank_lt_iff _ _).mp h)]
    · rw [if_neg h, if_neg (by simpa using mt (c.rank_lt_iff _ _).mpr h)]

lemma nextPending_admissible {c : SystemControl} {m : Masks}
    (h : c.nextPending m = some number) : c.admissible m number = true := by
  unfold nextPending at h
  split at h
  · rw [foldl_consider] at h
    exact (mem_filter.mp (argmin_mem h)).2
  · cases h

end SystemControl

open SystemControl (Masks)

/-! ## Masks -/

/-- No mask register holds an exception back. FAULTMASK lets only the NMI through,
PRIMASK only what cannot be programmed, BASEPRI what is more urgent than it. -/
structure Unmasked (m : Masks) (number : BitVec 16) (priority : BitVec 8) : Prop where
  faultmask : m.faultmask ≠ 0 → number = nmi
  primask : m.primask ≠ 0 → number ≤ hardFault
  basepri : m.basepri &&& 0xf0 ≠ 0 → hardFault < number →
    priority.setWidth 32 < m.basepri &&& 0xf0

lemma allow_iff (m : Masks) (number : BitVec 16) (priority : BitVec 8) :
    m.allow number priority = true ↔ Unmasked m number priority := by
  unfold Masks.allow
  simp only [Bool.and_eq_true, Bool.not_eq_true', Bool.and_eq_false_imp, bne_iff_ne, ne_eq,
    decide_eq_true_eq, decide_eq_false_iff_not, BitVec.not_lt, BitVec.not_le,
    bne_eq_false_iff_eq, and_imp]
  exact ⟨fun h => ⟨h.1.1, h.1.2, h.2⟩, fun ⟨hf, hp, hb⟩ => ⟨⟨hf, hp⟩, hb⟩⟩

namespace SystemControl

/-! ## What may be taken -/

/-- How urgent an exception must be for the masks. Nothing is less urgent than 256. -/
def Masks.priority (m : Masks) : Int :=
  let effectiveBasepri := m.basepri &&& 0xf0
  min (if effectiveBasepri = 0 then 256 else effectiveBasepri.toNat)
    (min (if m.primask = 0 then 256 else 0) (if m.faultmask = 0 then 256 else -1))

/-- How urgent an exception must be to be taken: more than the masks ask for, and more
than the one that runs. -/
def executionPriority (c : SystemControl) (m : Masks) : Int :=
  min (if c.activeException = 0 then 256 else c.architecturalPriority c.activeException) m.priority

structure Takable (c : SystemControl) (m : Masks) (number : BitVec 16) : Prop where
  pending : c.isPending number = true
  enabled : c.isEnabled number = true
  urgent : c.architecturalPriority number < c.executionPriority m

variable {c : SystemControl} {offset : Nat} {number : BitVec 16}

/-- What can be pending: PendSV, the timer, and the interrupts by their bits. -/
lemma isPending_cases (h : c.isPending number = true) :
    number = pendSv ∧ c.pendsvPending = true ∨ number = sysTick ∧ c.systickPending = true ∨
      ∃ irq, externalIrq number = some irq ∧ bitOf c.nvicPending irq = true := by
  unfold isPending at h
  split_ifs at h with hsv htick
  · exact .inl ⟨hsv, h⟩
  · exact .inr (.inl ⟨htick, h⟩)
  split at h
  · cases h
  · exact .inr (.inr ⟨_, ‹_›, h⟩)

lemma isPending_external (hirq : externalIrq number = some irq) :
    c.isPending number = bitOf c.nvicPending irq := by
  unfold isPending
  rw [if_neg (by rintro rfl; cases hirq), if_neg (by rintro rfl; cases hirq), hirq]
  rfl

lemma isEnabled_external (hirq : externalIrq number = some irq) :
    c.isEnabled number = bitOf c.nvicEnable irq := by
  have hnumber := externalIrq_eq_some hirq
  unfold isEnabled
  rw [if_neg (by omega), hirq]
  rfl

lemma allow_iff_lt {m : Masks} (h : 4 ≤ number.toNat) (p : BitVec 8) :
    m.allow number p = true ↔ (p.toNat : Int) < m.priority := by
  have hnmi : number ≠ nmi := by
    rintro rfl
    exact absurd h (by decide)
  have hhard : hardFault < number :=
    h
  have hbase : ∀ base : BitVec 32, p.setWidth 32 < base ↔ p.toNat < base.toNat := by
    intro base
    rw [lt_def, toNat_setWidth, Nat.mod_eq_of_lt (by omega)]
  rw [allow_iff]
  unfold Masks.priority
  constructor
  · rintro ⟨hfault, hprimask, hbasepri⟩
    have hnofault : m.faultmask = 0 := by
      by_contra h
      exact hnmi (hfault h)
    have hnomask : m.primask = 0 := by
      by_contra h
      exact absurd (hprimask h) (BitVec.not_le.mpr hhard)
    dsimp only
    split
    · omega
    rename_i h
    have := (hbase _).mp (hbasepri h hhard)
    omega
  · intro h
    dsimp only at h
    refine ⟨fun hfault => ?_, fun hprimask => ?_, fun hbasepri _ => (hbase _).mpr ?_⟩
    · rw [if_neg hfault] at h
      omega
    · rw [if_neg hprimask] at h
      omega
    · rw [if_neg hbasepri] at h
      omega

lemma admissible_iff (c : SystemControl) (m : Masks) (number : BitVec 16) :
    c.admissible m number = true ↔ c.Takable m number := by
  have hlow : c.isPending number = true → 14 ≤ number.toNat := by
    intro h
    rcases isPending_cases h with ⟨rfl, -⟩ | ⟨rfl, -⟩ | ⟨irq, hirq, -⟩
    · decide
    · decide
    · have := externalIrq_eq_some hirq
      omega
  have hurgency : 14 ≤ number.toNat → c.architecturalPriority number = (c.priority number).toNat := by
    intro h
    unfold architecturalPriority
    rw [if_neg (by rintro rfl; revert h; decide), if_neg (by rintro rfl; revert h; decide)]
  have hactive : 14 ≤ number.toNat → (c.architecturalPriority number <
      (if c.activeException = 0 then 256 else c.architecturalPriority c.activeException) ↔
        (c.activeException = 0 ∨
          c.architecturalPriority number < c.architecturalPriority c.activeException)) := by
    intro h
    have := (c.priority number).isLt
    split
    · grind
    · grind
  unfold admissible
  simp
  constructor
  · rintro ⟨⟨⟨hpending, henabled⟩, hallow⟩, hrun⟩
    have h := hlow hpending
    rw [allow_iff_lt (by omega), ← hurgency h] at hallow
    exact ⟨hpending, henabled, lt_min ((hactive h).mpr hrun) hallow⟩
  · rintro ⟨hpending, henabled, hurgent⟩
    have h := hlow hpending
    obtain ⟨hrun, hallow⟩ := lt_min_iff.mp hurgent
    rw [hurgency h] at hallow
    exact ⟨⟨⟨hpending, henabled⟩, (allow_iff_lt (by omega) _).mpr hallow⟩, (hactive h).mp hrun⟩

/-- The exception that is taken now, if one can be. -/
def hasTakablePending (c : SystemControl) (m : Masks) : Bool := (c.nextPending m).isSome

/-! ## The summary -/

def Summed (c : SystemControl) : Prop :=
  c.externalPendingEnabled = (List.finRange 8).any fun i => c.nvicPending i &&& c.nvicEnable i != 0

/-- What waits and is enabled is known to the summary, and the scan comes to it. -/
lemma Summed.found (h : c.Summed) (hpending : c.isPending number = true)
    (henabled : c.isEnabled number = true) :
    c.hasEnabledPending = true ∧ number ∈ pendSv :: sysTick :: c.externalCandidates := by
  unfold hasEnabledPending
  rcases isPending_cases hpending with ⟨rfl, hset⟩ | ⟨rfl, hset⟩ | ⟨irq, hirq, hset⟩
  · exact ⟨by simp [hset], by simp⟩
  · exact ⟨by simp [hset], by simp⟩
  have hnumber := externalIrq_eq_some hirq
  rw [isEnabled_external hirq, bitOf_eq] at henabled
  rw [bitOf_eq] at hset
  have hboth : (c.nvicPending (irqWord irq) &&& c.nvicEnable (irqWord irq) &&& irqMask irq != 0) =
      true := by rw [and_irqMask, getLsbD_and, hset, henabled]; rfl
  constructor
  · have hsome : c.externalPendingEnabled = true := by
      rw [h, any_eq_true]
      refine ⟨irqWord irq, mem_finRange _, ?_⟩
      rw [bne_iff_ne]
      intro hzero
      rw [hzero] at hboth
      simp at hboth
    simp [hsome]
  · refine mem_cons_of_mem _ (mem_cons_of_mem _ (mem_filterMap.mpr ⟨irq, ?_, ?_⟩))
    · rw [mem_range]
      omega
    · rw [if_pos hboth]
      congr 1
      apply eq_of_toNat_eq
      rw [toNat_ofNat]
      omega

/-- An exception that may be taken, and none comes before it by priority and number. -/
def Foremost (c : SystemControl) (m : Masks) (n : BitVec 16) : Prop :=
  c.Takable m n ∧ ∀ k, c.Takable m k →
    ¬(c.priority k < c.priority n ∨ c.priority k = c.priority n ∧ k < n)

section

variable (h : c.Summed) (m : Masks)
include h

/-- With a right summary the scan looks at what may be taken. -/
lemma Summed.nextPending_eq :
    ∃ l : List (BitVec 16), c.nextPending m = l.argmin c.rank ∧ ∀ k, k ∈ l ↔ c.Takable m k := by
  have hmem : ∀ k, k ∈ (pendSv :: sysTick :: c.externalCandidates).filter (c.admissible m) ↔
      c.Takable m k := by
    intro k
    rw [mem_filter, admissible_iff]
    exact ⟨And.right, fun hk => ⟨(h.found hk.pending hk.enabled).2, hk⟩⟩
  refine ⟨_, ?_, hmem⟩
  unfold nextPending
  split
  · exact foldl_consider c m _
  rename_i hnone
  refine (argmin_eq_none.mpr (eq_nil_iff_forall_not_mem.mpr fun k hk => ?_)).symm
  have htakable := (hmem k).mp hk
  exact hnone (h.found htakable.pending htakable.enabled).1

lemma Summed.nextPending_some (n : BitVec 16) :
    c.nextPending m = some n ↔ c.Foremost m n := by
  obtain ⟨l, heq, hmem⟩ := h.nextPending_eq m
  rw [heq]
  unfold Foremost
  simp only [← rank_lt_iff, Nat.not_lt]
  constructor
  · intro hn
    exact ⟨(hmem n).mp (argmin_mem hn), fun k hk => le_of_mem_argmin ((hmem k).mpr hk) hn⟩
  · rintro ⟨htakable, hleast⟩
    cases hbest : l.argmin c.rank with
    | none => exact absurd ((hmem n).mpr htakable) (by simp [argmin_eq_none.mp hbest])
    | some best =>
      have hle := hleast best ((hmem best).mp (argmin_mem hbest))
      have hge : c.rank best ≤ c.rank n := le_of_mem_argmin ((hmem n).mpr htakable) hbest
      unfold rank at hle hge
      exact congrArg some (eq_of_toNat_eq (by omega))

lemma Summed.nextPending_none :
    c.nextPending m = none ↔ ∀ k, ¬c.Takable m k := by
  obtain ⟨l, heq, hmem⟩ := h.nextPending_eq m
  rw [heq, argmin_eq_none, eq_nil_iff_forall_not_mem]
  simp only [hmem]

end

/-! ## Operations -/

/-- What is done to the device. -/
inductive Op
  | reset (vectorBase : BitVec 32)
  | advanceCycles (cycles : Nat)
  | pend (number : BitVec 16)
  | setInterruptLine (irq : Nat) (asserted : Bool)
  | clearPending (number : BitVec 16)
  | enter (number : BitVec 16)
  | resume (number : BitVec 16)
  | leave (number : BitVec 16)
  | consumeResetRequest
  | readWord (offset : Nat)
  | writeWord (offset : Nat) (value laneMask : BitVec 32)

def apply (c : SystemControl) : Op → SystemControl
  | .reset vectorBase => reset vectorBase
  | .advanceCycles cycles => c.advanceCycles cycles
  | .pend number => c.pend number
  | .setInterruptLine irq asserted => c.setInterruptLine irq asserted
  | .clearPending number => c.clearPending number
  | .enter number => c.enter number
  | .resume number => c.resume number
  | .leave number => c.leave number
  | .consumeResetRequest => { c with resetRequested := false }
  | .readWord offset => (c.readWord offset).2
  | .writeWord offset value laneMask => c.writeWord offset value laneMask

/-- The device after operations, from its reset. -/
def run (ops : List Op) : SystemControl := ops.foldl apply (reset 0x08000000)

/-- What only entries, returns and resets change. -/
def activity (c : SystemControl) : BitVec 16 × (Fin 8 → BitVec 32) :=
  (c.activeException, c.nvicActive)

/-- Software makes the interrupt pending. -/
def Op.pends (irq : Nat) : Op → Bool
  | .pend number => externalIrq number = some irq
  | .writeWord offset value laneMask =>
    bankWord offset 0xe200 = some (irqWord irq) && (value &&& laneMask).getLsbD (irq % 32)
      || offset = 0xef00 && (value &&& 0x1ff).toNat = irq
  | _ => false

/-- The interrupt is taken, or its pending bit cleared. -/
def Op.clears (irq : Nat) : Op → Bool
  | .reset _ => true
  | .clearPending number | .enter number => externalIrq number = some irq
  | .writeWord offset value laneMask =>
    bankWord offset 0xe280 = some (irqWord irq) && (value &&& laneMask).getLsbD (irq % 32)
  | _ => false

/-- The level of a line behind an operation, by the calls alone. -/
def Op.drives (irq : Nat) (level : Bool) : Op → Bool
  | .reset _ => false
  | .setInterruptLine other asserted => if other = irq then asserted else level
  | _ => level

/-- The level to which the operations have last driven a line. It is down at first. -/
def levelAfter (irq : Nat) (ops : List Op) : Bool := ops.foldl (Op.drives irq) false

/-- What is as it was after an operation that has nothing to do with interrupts. -/
structure SameInterrupts (c c' : SystemControl) : Prop where
  enable : c'.nvicEnable = c.nvicEnable
  pending : c'.nvicPending = c.nvicPending
  summary : c'.externalPendingEnabled = c.externalPendingEnabled
  running : c'.activeException = c.activeException
  active : c'.nvicActive = c.nvicActive
  lines : c'.nvicLines = c.nvicLines

variable {c' : SystemControl}

lemma SameInterrupts.activity (h : SameInterrupts c c') :
    c'.activity = c.activity := Prod.ext h.running h.active

variable {laneMask : BitVec 32}

lemma writeTimer_same {value : BitVec 32}
    (h : c.writeTimer offset value laneMask = some c') : SameInterrupts c c' := by
  unfold writeTimer at h
  split_ifs at h <;> obtain rfl := Option.some.inj h <;> exact ⟨rfl, rfl, rfl, rfl, rfl, rfl⟩

section

variable (c : SystemControl)

lemma writeControl_same (offset : Nat) (value laneMask : BitVec 32) :
    SameInterrupts c (c.writeControl offset value laneMask) := by
  unfold writeControl writeIcsr
  split_ifs <;> exact ⟨rfl, rfl, rfl, rfl, rfl, rfl⟩

lemma readWord_same (offset : Nat) :
    SameInterrupts c (c.readWord offset).2 := by
  unfold readWord
  split <;> exact ⟨rfl, rfl, rfl, rfl, rfl, rfl⟩

lemma advanceCycles_same (cycles : Nat) :
    SameInterrupts c (c.advanceCycles cycles) := by
  unfold advanceCycles
  dsimp only
  split_ifs <;> exact ⟨rfl, rfl, rfl, rfl, rfl, rfl⟩

end

lemma bankWord_range {base : Nat} {i : Fin 8} (h : bankWord offset base = some i) :
    base ≤ offset ∧ offset < base + 0x20 := by
  unfold bankWord at h
  split at h
  · assumption
  · cases h

lemma pend_activity (c : SystemControl) (number : BitVec 16) :
    (c.pend number).activity = c.activity := by
  unfold pend
  split_ifs
  · rfl
  · rfl
  · split <;> rfl

lemma writeNvic_activity {value : BitVec 32}
    (h : c.writeNvic offset value laneMask = some c') : c'.activity = c.activity := by
  unfold writeNvic at h
  dsimp only at h
  repeat' split at h
  all_goals cases h
  all_goals first | exact pend_activity _ _ | exact congrArg₂ Prod.mk rfl rfl

section

variable (c : SystemControl) (offset : BitVec 32) (size : AccessSize)

lemma write_activity (value : BitVec 64) (context : AccessContext) :
    (c.write offset size value context).2.activity = c.activity := by
  unfold write writeWord
  split
  · dsimp only
    split
    · next h => exact (writeTimer_same h).activity
    split
    · next h => exact writeNvic_activity h
    · exact (c.writeControl_same _ _ _).activity
  · rfl

lemma read_activity (context : AccessContext) :
    (c.read offset size context).2.activity = c.activity := by
  unfold read
  split
  · exact (c.readWord_same _).activity
  · rfl

end

/-- What an operation may do to an interrupt: the summary stays right, and the interrupt is
pending for a reason. -/
structure Accounts (irq : Nat) (op : Op) (c c' : SystemControl) : Prop where
  summed : c.Summed → c'.Summed
  reason : bitOf c'.nvicPending irq = true → op.pends irq = true ∨ bitOf c'.nvicLines irq = true ∨
    bitOf c.nvicPending irq = true ∧ op.clears irq = false

section Steps

variable {irq : Nat} {op : Op} {c c' : SystemControl}

lemma Accounts.of_same (h : SameInterrupts c c') (hclears : op.clears irq = false) :
    Accounts irq op c c' where
  summed hc := by
    unfold Summed
    rw [h.summary, h.pending, h.enable]
    exact hc
  reason hbit := .inr (.inr ⟨h.pending ▸ hbit, hclears⟩)

lemma Accounts.of_refresh
    (h : bitOf c.nvicPending irq = true → op.pends irq = true ∨ bitOf c.nvicLines irq = true ∨
      bitOf c'.nvicPending irq = true ∧ op.clears irq = false) :
    Accounts irq op c' c.refreshPendingSummary where
  summed _ := rfl
  reason hbit := by
    rw [bitOf_refresh, Bool.or_eq_true, Bool.and_eq_true] at hbit
    rcases hbit with hbit | ⟨hline, -⟩
    · exact h hbit
    · exact .inr (.inl hline)

variable (hirq : irq < 240)
include hirq

lemma pend_accounts
    (hpends : externalIrq number = some irq → op.pends irq = true) (hclears : op.clears irq = false)
    (c : SystemControl) : Accounts irq op c (c.pend number) := by
  unfold pend
  split_ifs
  · exact .of_same ⟨rfl, rfl, rfl, rfl, rfl, rfl⟩ hclears
  · exact .of_same ⟨rfl, rfl, rfl, rfl, rfl, rfl⟩ hclears
  split
  · exact .of_same ⟨rfl, rfl, rfl, rfl, rfl, rfl⟩ hclears
  rename_i other hother
  have hlt := (externalIrq_eq_some hother).1
  refine .of_refresh fun hbit => ?_
  rw [bitOf_withBit _ (by omega) (by omega)] at hbit
  split_ifs at hbit with hsame
  · exact .inl (hpends (hsame ▸ hother))
  · exact .inr (.inr ⟨hbit, hclears⟩)

lemma clearPending_accounts
    (hclears : op.clears irq = decide (externalIrq number = some irq)) (c : SystemControl) :
    Accounts irq op c (c.clearPending number) := by
  have hother : externalIrq number = none → op.clears irq = false := by
    intro h
    rw [hclears, h]
    rfl
  unfold clearPending
  split_ifs with hsv htick
  · exact .of_same ⟨rfl, rfl, rfl, rfl, rfl, rfl⟩ (hother (hsv ▸ rfl))
  · exact .of_same ⟨rfl, rfl, rfl, rfl, rfl, rfl⟩ (hother (htick ▸ rfl))
  split
  · exact .of_same ⟨rfl, rfl, rfl, rfl, rfl, rfl⟩ (hother ‹_›)
  rename_i other hnumber
  have hlt := (externalIrq_eq_some hnumber).1
  refine .of_refresh fun hbit => ?_
  rw [bitOf_withBit _ (by omega) (by omega)] at hbit
  split_ifs at hbit with hsame
  refine .inr (.inr ⟨hbit, ?_⟩)
  rw [hclears, hnumber]
  simpa using fun h => hsame h.symm

lemma setInterruptLine_accounts (other : Nat) (asserted : Bool) (c : SystemControl) :
    Accounts irq (.setInterruptLine other asserted) c (c.setInterruptLine other asserted) := by
  unfold setInterruptLine
  split
  · exact .of_same ⟨rfl, rfl, rfl, rfl, rfl, rfl⟩ rfl
  dsimp only
  split
  · rename_i hedge
    simp only [Bool.and_eq_true] at hedge
    refine .of_refresh fun hbit => ?_
    rw [bitOf_withBit _ (by omega) (by omega)] at hbit ⊢
    split_ifs at hbit ⊢ with hsame
    · exact .inr (.inl hedge.1)
    · exact .inr (.inr ⟨hbit, rfl⟩)
  · exact .of_refresh fun hbit => .inr (.inr ⟨hbit, rfl⟩)

section

variable (offset : Nat) (value laneMask : BitVec 32) (c : SystemControl)

lemma writeNvic_accounts :
    match c.writeNvic offset value laneMask with
    | some c' => Accounts irq (.writeWord offset value laneMask) c c'
    | none => Op.clears irq (.writeWord offset value laneMask) = false := by
  have hclears : (offset < 0xe280 ∨ 0xe2a0 ≤ offset) →
      Op.clears irq (.writeWord offset value laneMask) = false := by
    intro hout
    have hnone : bankWord offset 0xe280 = none := if_neg (by omega)
    simp [Op.clears, hnone]
  unfold writeNvic
  cases henable : bankWord offset 0xe100 with
  | some i =>
    have := bankWord_range henable
    exact .of_refresh fun hbit => .inr (.inr ⟨hbit, hclears (by omega)⟩)
  | none =>
  cases hdisable : bankWord offset 0xe180 with
  | some i =>
    have := bankWord_range hdisable
    exact .of_refresh fun hbit => .inr (.inr ⟨hbit, hclears (by omega)⟩)
  | none =>
  cases hset : bankWord offset 0xe200 with
  | some i =>
    have := bankWord_range hset
    refine .of_refresh fun hbit => ?_
    rw [bitOf_update] at hbit
    split_ifs at hbit with hword
    · rw [getLsbD_or, Bool.or_eq_true, ← hword, ← bitOf_eq] at hbit
      rcases hbit with hbit | hbit
      · exact .inr (.inr ⟨hbit, hclears (by omega)⟩)
      · exact .inl (by simp only [Op.pends, hset, hword, hbit]; simp)
    · exact .inr (.inr ⟨hbit, hclears (by omega)⟩)
  | none =>
  cases hclear : bankWord offset 0xe280 with
  | some i =>
    refine .of_refresh fun hbit => ?_
    rw [bitOf_update] at hbit
    split_ifs at hbit with hword
    · rw [getLsbD_and, getLsbD_not, ← hword, ← bitOf_eq] at hbit
      simp only [Bool.and_eq_true, Bool.not_eq_true'] at hbit
      exact .inr (.inr ⟨hbit.1, by simp [Op.clears, hbit.2.2]⟩)
    · have hne : i ≠ irqWord irq := fun h => hword h.symm
      exact .inr (.inr ⟨hbit, by simp [Op.clears, hclear, hne]⟩)
  | none =>
  have hkeeps : Op.clears irq (.writeWord offset value laneMask) = false := by
    simp [Op.clears, hclear]
  by_cases hpriority : 0xe400 ≤ offset ∧ offset < 0xe4f0
  · rw [if_pos hpriority]
    exact .of_same ⟨rfl, rfl, rfl, rfl, rfl, rfl⟩ hkeeps
  rw [if_neg hpriority]
  by_cases hstir : offset = 0xef00
  · rw [if_pos hstir]
    dsimp only
    split
    · refine pend_accounts hirq (fun h => ?_) hkeeps c
      have := externalIrq_eq_some h
      rw [toNat_ofNat] at this
      simp only [Op.pends, hstir, Bool.or_eq_true, Bool.and_eq_true, decide_eq_true_eq]
      exact .inr ⟨trivial, by omega⟩
    · exact .of_same ⟨rfl, rfl, rfl, rfl, rfl, rfl⟩ hkeeps
  · rw [if_neg hstir]
    exact hkeeps

lemma writeWord_accounts :
    Accounts irq (.writeWord offset value laneMask) c (c.writeWord offset value laneMask) := by
  have hnvic := writeNvic_accounts hirq offset value laneMask c
  unfold writeWord
  split
  · rename_i h
    refine .of_same (writeTimer_same h) ?_
    unfold writeTimer at h
    split_ifs at h <;> subst_vars <;> simp [Op.clears, bankWord]
  split
  · rename_i h
    rw [h] at hnvic
    exact hnvic
  · rename_i h
    rw [h] at hnvic
    exact .of_same (c.writeControl_same _ _ _) hnvic

end

lemma apply_accounts (op : Op) (c : SystemControl) : Accounts irq op c (c.apply op) := by
  cases op with
  | reset vectorBase =>
    exact ⟨fun _ => by simp [Summed, apply, reset], fun h => by simp [apply, reset, bitOf] at h⟩
  | advanceCycles cycles => exact .of_same (c.advanceCycles_same cycles) rfl
  | pend number => exact pend_accounts hirq (by simp [Op.pends]) rfl c
  | setInterruptLine other asserted => exact setInterruptLine_accounts hirq other asserted c
  | clearPending number => exact clearPending_accounts hirq rfl c
  | enter number =>
    have hentered : ∀ active, Accounts irq (.enter number) c
        ({ c with activeException := number, nvicActive := active }.clearPending number) := by
      intro active
      have hcleared : Accounts irq (.enter number) { c with
          activeException := number, nvicActive := active } _ := clearPending_accounts hirq rfl _
      exact ⟨hcleared.summed, hcleared.reason⟩
    unfold apply enter
    dsimp only
    split <;> exact hentered _
  | resume number => exact ⟨id, fun h => .inr (.inr ⟨h, rfl⟩)⟩
  | leave number =>
    refine .of_refresh fun hbit => .inr (.inr ⟨?_, rfl⟩)
    revert hbit
    split <;> split <;> exact id
  | consumeResetRequest => exact .of_same ⟨rfl, rfl, rfl, rfl, rfl, rfl⟩ rfl
  | readWord offset => exact .of_same (c.readWord_same offset) rfl
  | writeWord offset value laneMask => exact writeWord_accounts hirq offset value laneMask c

end Steps

/-! ## Lines -/

lemma pend_lines (c : SystemControl) (number : BitVec 16) :
    (c.pend number).nvicLines = c.nvicLines := by
  unfold pend
  split_ifs
  · rfl
  · rfl
  · split <;> rfl

lemma clearPending_lines (c : SystemControl) (number : BitVec 16) :
    (c.clearPending number).nvicLines = c.nvicLines := by
  unfold clearPending
  split_ifs
  · rfl
  · rfl
  · split <;> rfl

lemma writeWord_lines (c : SystemControl) (offset : Nat) (value laneMask : BitVec 32) :
    (c.writeWord offset value laneMask).nvicLines = c.nvicLines := by
  unfold writeWord
  split
  · rename_i h
    exact (writeTimer_same h).lines
  split
  · rename_i h
    unfold writeNvic at h
    dsimp only at h
    repeat' split at h
    all_goals cases h
    all_goals first | exact pend_lines _ _ | rfl
  · exact (c.writeControl_same _ _ _).lines

/-- The bit of a line is what the operations make of it. -/
lemma apply_lines (hirq : irq < 240) (op : Op) (c : SystemControl) :
    bitOf (c.apply op).nvicLines irq = op.drives irq (bitOf c.nvicLines irq) := by
  have hkept : ∀ {c' : SystemControl}, c'.nvicLines = c.nvicLines →
      bitOf c'.nvicLines irq = bitOf c.nvicLines irq := fun h => by rw [h]
  cases op with
  | reset vectorBase => simp [apply, reset, bitOf, Op.drives]
  | setInterruptLine other asserted =>
    have hdriven : other < 240 →
        bitOf (withBit c.nvicLines other asserted) irq =
          Op.drives irq (bitOf c.nvicLines irq) (.setInterruptLine other asserted) := by
      intro hother
      rw [bitOf_withBit _ (by omega) (by omega)]
      simp only [Op.drives, eq_comm]
    unfold apply setInterruptLine
    dsimp only
    split
    · have hne : other ≠ irq := by omega
      simp [Op.drives, hne]
    · split <;> exact hdriven (by omega)
  | advanceCycles cycles => exact hkept (c.advanceCycles_same cycles).lines
  | pend number => exact hkept (c.pend_lines number)
  | clearPending number => exact hkept (c.clearPending_lines number)
  | enter number =>
    refine hkept ((clearPending_lines _ _).trans ?_)
    split <;> rfl
  | resume number => rfl
  | leave number =>
    refine hkept ?_
    unfold apply leave
    dsimp only
    split <;> split <;> rfl
  | consumeResetRequest => rfl
  | readWord offset => exact hkept (c.readWord_same offset).lines
  | writeWord offset value laneMask => exact hkept (c.writeWord_lines offset value laneMask)

lemma run_lines (hirq : irq < 240) (ops : List Op) :
    bitOf (run ops).nvicLines irq = levelAfter irq ops := by
  induction ops using reverseRecOn with
  | nil => simp [run, reset, bitOf, levelAfter]
  | append_singleton ops op ih =>
    rw [run, levelAfter, foldl_append, foldl_append, ← levelAfter, ← ih]
    exact apply_lines hirq op _

/-! ## Runs -/

lemma run_summed (ops : List Op) : (run ops).Summed := by
  induction ops using reverseRecOn with
  | nil => simp [run, Summed, reset]
  | append_singleton ops op ih =>
    rw [run, foldl_append]
    exact (apply_accounts (show 0 < 240 by decide) op _).summed ih

/-- **The next exception.** After any operations, the exception that is selected is the one
that comes first among those that are pending, enabled and urgent enough, and none is
selected exactly if there is none. The quick checks never miss it. -/
theorem next_pending_is_the_foremost (ops : List Op) (m : Masks) :
    (∀ n, (run ops).nextPending m = some n ↔ (run ops).Foremost m n) ∧
      ((run ops).nextPending m = none ↔ ∀ k, ¬(run ops).Takable m k) ∧
      ((run ops).nextPending m ≠ none →
        (run ops).hasEnabledPending = true ∧ (run ops).hasTakablePending m = true) := by
  have hsummed := run_summed ops
  refine ⟨hsummed.nextPending_some m, hsummed.nextPending_none m, fun hsome => ?_⟩
  obtain ⟨n, hn⟩ := Option.ne_none_iff_exists'.mp hsome
  have htakable := ((hsummed.nextPending_some m n).mp hn).1
  exact ⟨(hsummed.found htakable.pending htakable.enabled).1, by simp [hasTakablePending, hn]⟩

/-- Why an interrupt is pending: software asked for it or its line was driven up, and since
then it was neither taken nor cleared. -/
def Owed (irq : Nat) (ops : List Op) : Prop :=
  ∃ before op after, ops = before ++ op :: after ∧
    (op.pends irq = true ∨ levelAfter irq (before ++ [op]) = true) ∧
    ∀ later ∈ after, later.clears irq = false

lemma run_owed (hirq : irq < 240) (ops : List Op)
    (h : bitOf (run ops).nvicPending irq = true) : Owed irq ops := by
  induction ops using reverseRecOn with
  | nil => simp [run, reset, bitOf] at h
  | append_singleton ops op ih =>
    have hrun : run (ops ++ [op]) = (run ops).apply op := foldl_append
    rw [hrun] at h
    rcases (apply_accounts hirq op (run ops)).reason h with hpends | hline | ⟨hbefore, hkept⟩
    · exact ⟨ops, op, [], rfl, .inl hpends, by simp⟩
    · exact ⟨ops, op, [], rfl, .inr (run_lines hirq _ ▸ hrun ▸ hline), by simp⟩
    obtain ⟨before, cause, after, rfl, hcause, hlater⟩ := ih hbefore
    refine ⟨before, cause, after ++ [op], by simp, hcause, ?_⟩
    exact List.forall_mem_append.mpr ⟨hlater, by simpa using hkept⟩

def irqNumber (irq : Fin 240) : BitVec 16 := BitVec.ofNat 16 (irq + 16)

lemma externalIrq_irqNumber (irq : Fin 240) : externalIrq (irqNumber irq) = some irq.val := by
  have hnumber : (irqNumber irq).toNat = irq + 16 := by
    rw [irqNumber, toNat_ofNat]
    omega
  unfold externalIrq
  rw [hnumber, if_pos (by omega)]
  rfl

lemma leave_pending (hirq : externalIrq number = some irq)
    (c : SystemControl) (hline : bitOf c.nvicLines irq = true) :
    bitOf (c.leave number).nvicPending irq = true := by
  have hlt := (externalIrq_eq_some hirq).1
  have hleft : bitOf (withBit c.nvicActive irq false) irq = false := by
    rw [bitOf_withBit _ (by omega) (by omega), if_pos rfl]
  unfold leave
  rw [hirq, bitOf_refresh]
  dsimp only
  split <;> simp [hline, hleft]

lemma setInterruptLine_pending (hirq : irq < 240) (c : SystemControl)
    (hdown : bitOf c.nvicLines irq = false) :
    bitOf (c.setInterruptLine irq true).nvicPending irq = true := by
  have hedge : (c.nvicLines (irqWord irq) &&& irqMask irq != 0) = false := hdown
  unfold setInterruptLine
  rw [if_neg (by omega)]
  dsimp only
  rw [hedge, Bool.not_false, Bool.and_true, if_pos rfl, bitOf_refresh,
    bitOf_withBit _ (by omega) (by omega), if_pos rfl, Bool.true_or]

/-- **Level-sensitive lines.** After any operations, an interrupt whose line is driven up is
pending at once, and if it is still up it is pending again when its handler is left. One
that is pending is owed, and the summary is what a scan of the pending and enabled bits
gives. -/
theorem interrupt_lines_are_level_sensitive (ops : List Op) (irq : Fin 240) :
    (levelAfter irq ops = false →
        (run (ops ++ [.setInterruptLine irq true])).isPending (irqNumber irq) = true) ∧
      (levelAfter irq ops = true →
        (run (ops ++ [.leave (irqNumber irq)])).isPending (irqNumber irq) = true) ∧
      ((run ops).isPending (irqNumber irq) = true → Owed irq ops) ∧
      (run ops).externalPendingEnabled =
        (List.finRange 8).any fun i => (run ops).nvicPending i &&& (run ops).nvicEnable i != 0 := by
  have hirq := externalIrq_irqNumber irq
  rw [isPending_external hirq, isPending_external hirq, isPending_external hirq,
    ← run_lines irq.isLt ops]
  refine ⟨fun hdown => ?_, fun hline => ?_, run_owed irq.isLt ops, run_summed ops⟩
  · rw [run, List.foldl_append]
    exact setInterruptLine_pending irq.isLt _ hdown
  · rw [run, List.foldl_append]
    exact leave_pending hirq _ hline

end SystemControl

end Fil.Cortexm
