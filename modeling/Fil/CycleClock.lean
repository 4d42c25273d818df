-- The clock of a board. Cycles are charged at the frequency of the moment, in
-- whole nanoseconds, and what is left over is carried to the next charge. It is
-- carried as a numerator without its denominator, so a change of frequency gives
-- it another worth.
import Fil.SystemControl
import Mathlib.Algebra.BigOperators.Group.List.Basic
import Mathlib.Algebra.Order.Field.Basic
import Mathlib.Algebra.Order.Ring.Abs
import Mathlib.Data.Rat.Cast.Order
import Mathlib.Tactic.FieldSimp
import Mathlib.Tactic.Linarith
import Mathlib.Tactic.NormNum
import Mathlib.Tactic.Ring

namespace Fil.Cortexm.SystemControl

/-! ## The timer -/

def countdown (period left cycles : Nat) : Nat :=
  if cycles < left then left - cycles else period - (cycles - left) % period

lemma countdown_pos {period : Nat} (hp : 0 < period) (left cycles : Nat) :
    0 < countdown period left cycles := by
  have := Nat.mod_lt (cycles - left) hp
  unfold countdown
  split_ifs <;> omega

lemma countdown_add {period : Nat} (hp : 0 < period) (left a b : Nat) :
    countdown period (countdown period left a) b = countdown period left (a + b) := by
  unfold countdown
  by_cases ha : a < left
  · rw [if_pos ha, show b - (left - a) = a + b - left by omega]
    split_ifs <;> omega
  have hsum : (a + b - left) % period = ((a - left) % period + b) % period := by
    rw [Nat.mod_add_mod, show a - left + b = a + b - left by omega]
  have hr := Nat.mod_lt (a - left) hp
  rw [if_neg ha, if_neg (by omega : ¬a + b < left), hsum]
  generalize (a - left) % period = r at hr
  split
  · rw [Nat.mod_eq_of_lt (by omega : r + b < period)]
    omega
  · rw [show r + b = b - (period - r) + period by omega, Nat.add_mod_right]

lemma wraps_add (period left a b : Nat) :
    (decide (left ≤ a) || decide (countdown period left a ≤ b)) = decide (left ≤ a + b) := by
  unfold countdown
  rw [← Bool.decide_or, decide_eq_decide]
  split_ifs <;> omega

variable (c : SystemControl)

def counts : Bool := c.systickCtrl &&& 1 != 0 && c.systickLoad != 0

/-- The cycles until the timer wraps. -/
def toWrap : Nat := if c.systickCyclesToWrap = 0 then c.systickLoad + 1 else c.systickCyclesToWrap

def counted (cycles : Nat) : BitVec 32 :=
  if c.dwtCtrl &&& 1 != 0 then c.dwtCyccnt + BitVec.ofNat 32 cycles else c.dwtCyccnt

lemma advanceCycles_still {cycles : Nat} (h : ¬c.counts ∨ cycles = 0) :
    c.advanceCycles cycles = { c with dwtCyccnt := c.counted cycles } := by
  have hoff : (c.systickCtrl &&& 1 = 0 || c.systickLoad = 0 || cycles = 0 : Bool) = true := by
    grind [counts]
  unfold advanceCycles counted
  cases c.dwtCtrl &&& 1 != 0 <;> simp only [hoff, if_true, if_false, Bool.false_eq_true]

lemma advanceCycles_zero : c.advanceCycles 0 = c := by
  rw [advanceCycles_still c (.inr rfl), counted, BitVec.ofNat_eq_ofNat, BitVec.add_zero, ite_self]

lemma advanceCycles_counts {cycles : Nat} (h : c.counts) (hn : cycles ≠ 0) :
    c.advanceCycles cycles =
      { c with
        dwtCyccnt := c.counted cycles
        systickCountFlag := c.systickCountFlag || decide (c.toWrap ≤ cycles)
        systickPending := c.systickPending || decide (c.toWrap ≤ cycles) && c.systickCtrl &&& 2 != 0
        systickCyclesToWrap := countdown (c.systickLoad + 1) c.toWrap cycles
        systickValue := countdown (c.systickLoad + 1) c.toWrap cycles - 1 } := by
  have hon : (c.systickCtrl &&& 1 = 0 || c.systickLoad = 0 || cycles = 0 : Bool) = false := by
    grind [counts]
  have hfold : (if c.systickCyclesToWrap = 0 then c.systickLoad + 1 else c.systickCyclesToWrap) =
      c.toWrap := rfl
  have hdone : decide (c.toWrap ≤ cycles) = !decide (cycles < c.toWrap) := by grind
  unfold advanceCycles counted countdown
  by_cases hw : cycles < c.toWrap <;> cases c.dwtCtrl &&& 1 != 0 <;>
    simp only [hon, hfold, hdone, hw, decide_true, decide_false, Bool.not_true, Bool.not_false,
      if_true, if_false, Bool.false_eq_true, Bool.or_false, Bool.or_true, Bool.false_and,
      Bool.true_and]

lemma advanceCycles_add (a b : Nat) :
    (c.advanceCycles a).advanceCycles b = c.advanceCycles (a + b) := by
  have hcount : ∀ d : SystemControl, d.dwtCtrl = c.dwtCtrl → d.dwtCyccnt = c.counted a →
      d.counted b = c.counted (a + b) := by
    intro d hctrl hcyccnt
    unfold counted at hcyccnt ⊢
    rw [hctrl, hcyccnt]
    split_ifs
    · rw [BitVec.ofNat_add, BitVec.add_assoc]
    · rfl
  rcases Nat.eq_zero_or_pos a with rfl | ha
  · rw [advanceCycles_zero, Nat.zero_add]
  rcases Nat.eq_zero_or_pos b with rfl | hb
  · rw [advanceCycles_zero, Nat.add_zero]
  by_cases h : c.counts
  · have hfirst := c.advanceCycles_counts h ha.ne'
    generalize c.advanceCycles a = d at hfirst
    have hcounts : d.counts := by rw [hfirst]; exact h
    have hwrap : d.toWrap = countdown (c.systickLoad + 1) c.toWrap a := by
      rw [hfirst]
      exact if_neg (countdown_pos (Nat.succ_pos _) _ _).ne'
    rw [d.advanceCycles_counts hcounts hb.ne', hwrap, hcount d (by rw [hfirst]) (by rw [hfirst]),
      hfirst, c.advanceCycles_counts h (by omega : a + b ≠ 0)]
    simp only [countdown_add (Nat.succ_pos _), ← wraps_add (c.systickLoad + 1) _ a b, Bool.or_assoc,
      Bool.and_or_distrib_right]
  · have hfirst : c.advanceCycles a = _ := c.advanceCycles_still (.inl h)
    generalize c.advanceCycles a = d at hfirst
    have hstill : ¬d.counts := by rw [hfirst]; exact h
    rw [d.advanceCycles_still (.inl hstill), hcount d (by rw [hfirst]) (by rw [hfirst]), hfirst,
      c.advanceCycles_still (.inl h)]

lemma tick_bits (x : BitVec 32) : x &&& 3 = 3 ↔ x &&& 1 ≠ 0 ∧ x &&& 2 ≠ 0 := by
  have h1 : x &&& 1 = (x &&& 3) &&& 1 := by rw [BitVec.and_assoc]; rfl
  have h2 : x &&& 2 = (x &&& 3) &&& 2 := by rw [BitVec.and_assoc]; rfl
  have hlt : (x &&& 3).toNat < 4 :=
    Nat.lt_succ_of_le Nat.and_le_right
  rw [h1, h2]
  obtain ⟨n, hn⟩ : ∃ n : Nat, x &&& 3 = BitVec.ofNat 32 n ∧ n < 4 :=
    ⟨(x &&& 3).toNat, by simp, hlt⟩
  rw [hn.1]
  obtain rfl | rfl | rfl | rfl : n = 0 ∨ n = 1 ∨ n = 2 ∨ n = 3 := by omega
  all_goals decide

lemma toWrap_pos : 0 < c.toWrap := by
  unfold toWrap
  split_ifs <;> omega

/-- The timer is pending once its time is over, and not before. -/
lemma advanceCycles_pending (cycles : Nat) :
    (c.advanceCycles cycles).systickPending = true ↔
      ∃ least ∈ c.cyclesUntilSysTickInterrupt, least ≤ cycles := by
  have hpending : (c.advanceCycles cycles).systickPending = (c.systickPending ||
      c.counts && c.systickCtrl &&& 2 != 0 && decide (c.toWrap ≤ cycles)) := by
    by_cases h : c.counts ∧ cycles ≠ 0
    · rw [c.advanceCycles_counts h.1 h.2, h.1, Bool.true_and, Bool.and_comm]
    · rw [c.advanceCycles_still (by tauto)]
      have := c.toWrap_pos
      grind
  have huntil : c.cyclesUntilSysTickInterrupt = if c.systickPending then some 0
      else if c.counts && c.systickCtrl &&& 2 != 0 then some c.toWrap else none := by
    have hbits := tick_bits c.systickCtrl
    unfold cyclesUntilSysTickInterrupt counts toWrap
    grind
  rw [hpending, huntil]
  cases c.systickPending
  · cases c.counts && c.systickCtrl &&& 2 != 0 <;> simp
  · simp

end Fil.Cortexm.SystemControl

namespace Fil.Sim

/-! ## One charge -/

def nanosecondsPerSecond : Nat := 1000000000

/-- A quotient. Two frequencies have a constant divisor of their own. -/
def cycleTimeQuotient (numerator frequency : Nat) : Nat :=
  if frequency = 16000000 then numerator / 16000000
  else if frequency = 170000000 then numerator / 170000000
  else numerator / frequency

lemma cycleTimeQuotient_eq (numerator frequency : Nat) :
    cycleTimeQuotient numerator frequency = numerator / frequency := by
  unfold cycleTimeQuotient
  split_ifs with h16 h170
  · rw [h16]
  · rw [h170]
  · rfl

/-- The timers of a board and the part of a nanosecond it has not charged yet. -/
structure BoardClock where
  system : Cortexm.SystemControl := {}
  timeFraction : Nat := 0
  deriving DecidableEq

/-- Charges cycles: the nanoseconds that pass, and the clock after them. -/
def accountCycles (frequency cycles : Nat) (c : BoardClock) : Nat × BoardClock :=
  let system := c.system.advanceCycles cycles
  if frequency = 0 then (0, ⟨system, 0⟩)
  else
    let numerator := (cycles * nanosecondsPerSecond + c.timeFraction) % 2 ^ 64
    let elapsed := cycleTimeQuotient numerator frequency
    (elapsed, ⟨system, numerator - elapsed * frequency⟩)

/-- The nanoseconds that a charge would take. -/
def elapsedForCycles (frequency cycles : Nat) (c : BoardClock) : Nat :=
  if frequency = 0 then 0
  else if (2 ^ 64 - 1 - c.timeFraction) / nanosecondsPerSecond < cycles then 2 ^ 64 - 1
  else cycleTimeQuotient (cycles * nanosecondsPerSecond + c.timeFraction) frequency

/-- The product of a charge and what is carried into it fit in 64 bits. -/
def Fits (cycles : Nat) (c : BoardClock) : Prop :=
  cycles * nanosecondsPerSecond + c.timeFraction < 2 ^ 64

variable {c : BoardClock} {frequency cycles : Nat}

lemma accountCycles_of_fits (hf : frequency ≠ 0)
    (h : Fits cycles c) :
    accountCycles frequency cycles c =
      ((cycles * nanosecondsPerSecond + c.timeFraction) / frequency,
        ⟨c.system.advanceCycles cycles,
          (cycles * nanosecondsPerSecond + c.timeFraction) % frequency⟩) := by
  have hmod : (cycles * nanosecondsPerSecond + c.timeFraction) % 2 ^ 64 =
      cycles * nanosecondsPerSecond + c.timeFraction := Nat.mod_eq_of_lt h
  unfold accountCycles
  rw [if_neg hf]
  simp only [cycleTimeQuotient_eq, hmod]
  rw [← Nat.mod_eq_sub_div_mul]

/-- A prediction is what the charge then takes. -/
lemma elapsedForCycles_eq (h : Fits cycles c) :
    elapsedForCycles frequency cycles c = (accountCycles frequency cycles c).1 := by
  by_cases hf : frequency = 0
  · simp [elapsedForCycles, accountCycles, hf]
  rw [accountCycles_of_fits hf h]
  unfold elapsedForCycles
  rw [if_neg hf, if_neg, cycleTimeQuotient_eq]
  unfold Fits nanosecondsPerSecond at h
  unfold nanosecondsPerSecond
  omega

/-- **Cycles add up.** Charging cycles in two parts moves the time, the carried part of a
nanosecond, the timer and the cycle counter as charging them at once, and both the
time of a charge and the next interrupt of the timer are foreseen. -/
theorem cycles_add_up (c : BoardClock) (frequency : Nat) (hf : frequency ≠ 0) :
    (∀ a b, Fits (a + b) c →
      let first := accountCycles frequency a c
      let second := accountCycles frequency b first.2
      accountCycles frequency (a + b) c = (first.1 + second.1, second.2)) ∧
    (∀ cycles, Fits cycles c →
      elapsedForCycles frequency cycles c = (accountCycles frequency cycles c).1) ∧
    ∀ least, c.system.cyclesUntilSysTickInterrupt = some least ↔
      IsLeast { cycles | (accountCycles frequency cycles c).2.system.systickPending = true } least := by
  refine ⟨fun a b h => ?_, fun cycles h => elapsedForCycles_eq h, fun least => ?_⟩
  · have hsum : (a + b) * nanosecondsPerSecond + c.timeFraction =
        b * nanosecondsPerSecond + (a * nanosecondsPerSecond + c.timeFraction) := by ring
    have hlt : (a + b) * nanosecondsPerSecond + c.timeFraction < 2 ^ 64 := h
    rw [hsum] at hlt
    have hfirst : Fits a c := (Nat.le_add_left _ _).trans_lt hlt
    have hsecond : Fits b (accountCycles frequency a c).2 := by
      rw [accountCycles_of_fits hf hfirst]
      exact (Nat.add_le_add_left (Nat.mod_le _ _) _).trans_lt hlt
    dsimp only
    rw [accountCycles_of_fits hf h, accountCycles_of_fits hf hsecond, accountCycles_of_fits hf hfirst,
      c.system.advanceCycles_add, Nat.add_mod_mod, hsum]
    generalize a * nanosecondsPerSecond + c.timeFraction = x
    congr 1
    conv_lhs => rw [← Nat.mod_add_div x frequency, ← Nat.add_assoc,
      Nat.add_mul_div_left _ _ (Nat.pos_of_ne_zero hf), Nat.add_comm]
  · have hsystem : ∀ cycles, (accountCycles frequency cycles c).2.system =
        c.system.advanceCycles cycles := by
      intro cycles
      unfold accountCycles
      rw [if_neg hf]
    simp only [hsystem, c.system.advanceCycles_pending]
    cases c.system.cyclesUntilSysTickInterrupt with
    | none => simp [IsLeast]
    | some n =>
      have hset : { k | ∃ least ∈ some n, least ≤ k } = Set.Ici n := by
        ext
        simp
      rw [hset, Option.some.injEq]
      exact ⟨fun h => h ▸ isLeast_Ici, fun h => isLeast_Ici.unique h⟩

/-- Seventeen cycles at 170 MHz, five of them first. -/
theorem five_cycles_and_twelve_are_seventeen :
    accountCycles 170000000 17 {} =
      (29 + (accountCycles 170000000 12 (accountCycles 170000000 5 {}).2).1,
        (accountCycles 170000000 12 (accountCycles 170000000 5 {}).2).2) :=
  (cycles_add_up {} 170000000 (by decide)).1 5 12 (by unfold Fits; decide)

/-! ## A run of charges -/

structure Charge where
  cycles : Nat
  frequency : Nat
  deriving DecidableEq

def chargeAll : List Charge → BoardClock → Nat × BoardClock
  | [], c => (0, c)
  | x :: xs, c =>
    let charged := accountCycles x.frequency x.cycles c
    let rest := chargeAll xs charged.2
    (charged.1 + rest.1, rest.2)

def exactTime (charges : List Charge) : ℚ :=
  (charges.map fun x => (x.cycles * nanosecondsPerSecond : ℚ) / x.frequency).sum

def worth (fraction frequency : Nat) : ℚ := (fraction : ℚ) / frequency

def lastFrequency (before : Nat) (charges : List Charge) : Nat :=
  charges.foldl (fun _ x => x.frequency) before

/-- What the changes of frequency add to the carried numerators. -/
def drift (before : Nat) : List Charge → BoardClock → ℚ
  | [], _ => 0
  | x :: xs, c =>
    worth c.timeFraction x.frequency - worth c.timeFraction before
      + drift x.frequency xs (accountCycles x.frequency x.cycles c).2

def Sound : List Charge → BoardClock → Prop
  | [], _ => True
  | x :: xs, c =>
    x.frequency ≠ 0 ∧ Fits x.cycles c ∧ Sound xs (accountCycles x.frequency x.cycles c).2

/-- The frequency changes only when nothing is carried. -/
def Steady (before : Nat) : List Charge → BoardClock → Prop
  | [], _ => True
  | x :: xs, c =>
    (x.frequency = before ∨ c.timeFraction = 0)
      ∧ Steady x.frequency xs (accountCycles x.frequency x.cycles c).2

/-- One charge takes its cycles, and trades what it finds for what it leaves. -/
lemma charge_exact (hf : frequency ≠ 0)
    (h : Fits cycles c) :
    ((accountCycles frequency cycles c).1 : ℚ) =
      (cycles * nanosecondsPerSecond : ℚ) / frequency + worth c.timeFraction frequency
        - worth (accountCycles frequency cycles c).2.timeFraction frequency := by
  rw [accountCycles_of_fits hf h]
  have hdiv := Nat.div_add_mod (cycles * nanosecondsPerSecond + c.timeFraction) frequency
  have hcast : (frequency : ℚ) * ((cycles * nanosecondsPerSecond + c.timeFraction) / frequency : ℕ)
      + ((cycles * nanosecondsPerSecond + c.timeFraction) % frequency : ℕ) =
      cycles * nanosecondsPerSecond + c.timeFraction := by exact_mod_cast hdiv
  unfold worth
  field_simp
  linarith

lemma charge_lt (hf : frequency ≠ 0)
    (h : Fits cycles c) : (accountCycles frequency cycles c).2.timeFraction < frequency := by
  rw [accountCycles_of_fits hf h]
  exact Nat.mod_lt _ (Nat.pos_of_ne_zero hf)

lemma exactTime_cons (x : Charge) (xs : List Charge) :
    exactTime (x :: xs) = (x.cycles * nanosecondsPerSecond : ℚ) / x.frequency + exactTime xs :=
  List.sum_cons

variable {charges : List Charge}

/-- A run takes its cycles, trades what it finds for what it leaves, and drifts
where the frequency changes. -/
lemma chargeAll_exact (before : Nat)
    (h : Sound charges c) :
    ((chargeAll charges c).1 : ℚ) =
      exactTime charges + worth c.timeFraction before
        - worth (chargeAll charges c).2.timeFraction (lastFrequency before charges)
        + drift before charges c := by
  induction charges generalizing before c with
  | nil => simp [chargeAll, exactTime, lastFrequency, drift]
  | cons x xs ih =>
    obtain ⟨hf, hfits, hsound⟩ := h
    unfold chargeAll drift
    rw [Nat.cast_add, charge_exact hf hfits, ih _ hsound, exactTime_cons]
    unfold lastFrequency
    rw [List.foldl_cons]
    ring

lemma drift_of_steady {before : Nat}
    (h : Steady before charges c) : drift before charges c = 0 := by
  induction charges generalizing before c with
  | nil => rfl
  | cons x xs ih =>
    obtain ⟨hchange, hsteady⟩ := h
    unfold drift
    rw [ih hsteady]
    obtain rfl | hzero := hchange
    · ring
    · simp [worth, hzero]

/-- What a run leaves is less than a nanosecond. -/
lemma chargeAll_lt {before : Nat}
    (hc : c.timeFraction < before) (h : Sound charges c) :
    (chargeAll charges c).2.timeFraction < lastFrequency before charges := by
  induction charges generalizing before c with
  | nil => exact hc
  | cons x xs ih => exact ih (charge_lt h.1 h.2.1) h.2.2

lemma worth_lt {fraction frequency : Nat} (h : fraction < frequency) :
    0 ≤ worth fraction frequency ∧ worth fraction frequency < 1 := by
  have hpos : (0 : ℚ) < frequency := by exact_mod_cast (Nat.zero_le _).trans_lt h
  unfold worth
  exact ⟨div_nonneg (Nat.cast_nonneg _) hpos.le, (div_lt_one hpos).mpr (by exact_mod_cast h)⟩

/-- The time that a run charges is within a nanosecond of its cycles, as long as
the frequency changes only when nothing is carried. -/
theorem charged_time_stays_within_a_nanosecond (charges : List Charge) (before : Nat)
    (c : BoardClock) (hc : c.timeFraction < before) (hsound : Sound charges c)
    (hsteady : Steady before charges c) :
    |((chargeAll charges c).1 : ℚ) - exactTime charges| < 1 := by
  rw [chargeAll_exact before hsound, drift_of_steady hsteady]
  obtain ⟨hstart0, hstart1⟩ := worth_lt hc
  obtain ⟨hend0, hend1⟩ := worth_lt (chargeAll_lt hc hsound)
  rw [abs_lt]
  constructor <;> linarith

/-- Seventeen cycles at 170 MHz are a hundred nanoseconds, so the clock may change
after them. -/
theorem a_change_with_nothing_carried_is_charged_right :
    |((chargeAll [⟨17, 170000000⟩, ⟨1, 16000000⟩] {}).1 : ℚ)
      - exactTime [⟨17, 170000000⟩, ⟨1, 16000000⟩]| < 1 :=
  charged_time_stays_within_a_nanosecond _ 170000000 {} (by decide)
    ⟨by decide, by unfold Fits; decide, by decide, by unfold Fits; decide, trivial⟩
    ⟨by decide, by decide, trivial⟩

/-- Eleven cycles at 170 MHz leave most of a nanosecond, which is worth seven of
them at 16 MHz. -/
theorem a_carried_numerator_is_worth_more_at_a_slower_clock :
    (∀ x ∈ [(⟨11, 170000000⟩ : Charge), ⟨1, 16000000⟩],
      x.frequency ≠ 0 ∧ x.cycles * nanosecondsPerSecond < 2 ^ 64) ∧
    6 < ((chargeAll [⟨11, 170000000⟩, ⟨1, 16000000⟩] {}).1 : ℚ)
      - exactTime [⟨11, 170000000⟩, ⟨1, 16000000⟩] := by
  refine ⟨by decide, ?_⟩
  have htotal : (chargeAll [⟨11, 170000000⟩, ⟨1, 16000000⟩] {}).1 = 134 := by decide
  rw [htotal]
  norm_num [exactTime, nanosecondsPerSecond]

end Fil.Sim
