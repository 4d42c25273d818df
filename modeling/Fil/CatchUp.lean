-- How a converter catches up with conversions that had no event, next to the
-- same converter with its sample history kept, which has an event for each of
-- them. Without decimation, running those events and catching up come to the
-- same registers.
import Fil.Adc

namespace Fil.Stm32g4

open Fil.Mem Function
open Agree (bind ite)

/-- The setup that has an event for every conversion. -/
def AdcSetup.keepHistory (setup : AdcSetup) : AdcSetup :=
  { setup with sampleHistoryEnabled := true }

namespace Adc

/-! ## The converter with events -/

/-- The converter with its history kept, and with a count of scans, a state and
an event of its own. -/
def dressed (adc : Adc) (scanIndex : Nat) (samples : List AdcSample) (state : ConversionState)
    (event : Option (Nat × ConversionThunk)) : Adc :=
  { adc with
    setup := adc.setup.keepHistory
    scanIndex
    samples
    conversionState := state
    conversionEvent := event }

def withEvents (adc : Adc) (scanIndex : Nat) (samples : List AdcSample) : Adc :=
  adc.dressed scanIndex samples
    (if adc.conversionState = .lazy then .scheduled else adc.conversionState)
    (if adc.conversionState = .lazy then adc.nextConversionNs.map (·, .conversion)
      else adc.conversionEvent)

/-! ## What holds of a converter without decimation -/

/-- What does not depend on the deadline and its event. -/
structure Steady (adc : Adc) : Prop where
  decimation : adc.setup.decimation ≤ 1
  rank : adc.sequenceRank < adc.sequenceLength
  kept : adc.skipScan = false
  masked : adc.registers ier &&& (eoc ||| eos) = 0 → adc.interruptLevel = false

/-- The event and the deadline that go with each state. Gaps never come up. -/
inductive Armed (adc : Adc) : Prop
  | resting (state : adc.conversionState = .idle ∨ adc.conversionState = .suspended)
    (next : adc.nextConversionNs = none) (event : adc.conversionEvent = none)
  | scheduled (n : Nat) (state : adc.conversionState = .scheduled)
    (next : adc.nextConversionNs = some n) (event : adc.conversionEvent = some (n, .conversion))
  | lazy (n : Nat) (state : adc.conversionState = .lazy)
    (next : adc.nextConversionNs = some n) (event : adc.conversionEvent = none)

structure Sound (adc : Adc) : Prop extends Steady adc where
  armed : adc.Armed
  clocked : adc.nextConversionNs ≠ none → adc.inputClockHz ≠ 0

/-- The deadline is still to come. -/
def Ahead (now : Nat) (adc : Adc) : Prop := ∀ n, adc.nextConversionNs = some n → now < n

/-- Only a converter that nobody watches is lazy. -/
def Fitting (adc : Adc) : Prop := adc.conversionState = .lazy → adc.lazyConversionEligible

/-- The two agree but for the history, the count of scans and the event. -/
def Alike (adc other : Adc) : Prop :=
  ∃ k samples state event, other = adc.dressed k samples state event

/-- In the middle of an operation: the deadlines have been caught up with. -/
structure Abreast (now : Nat) (adc other : Adc) : Prop where
  sound : adc.Sound
  ahead : adc.Ahead now
  same : ∃ k samples, other = adc.withEvents k samples

/-- The two at the end of an operation that brought the lazy one up to date. -/
structure Level (now : Nat) (adc other : Adc) : Prop extends Abreast now adc other where
  fitting : adc.Fitting

lemma delay_pos (adc : Adc) (rank : Nat) : 0 < adc.conversionDelayForRank rank := by
  unfold conversionDelayForRank
  split_ifs with hoverride
  · exact Nat.pos_of_ne_zero fun h => hoverride (BitVec.eq_of_toNat_eq h)
  · decide
  · omega

/-! ## Arming a conversion -/

section Refresh

variable {adc other : Adc} {now n : Nat}

lemma refresh_resting (h : adc.conversionState = .idle ∨ adc.conversionState = .suspended) :
    adc.refreshConversionScheduling now = .ok adc := by
  rcases h with h | h <;> simp [refreshConversionScheduling, h]

structure Pending (n : Nat) (adc : Adc) : Prop where
  state : adc.conversionState = .scheduled ∨ adc.conversionState = .lazy
  next : adc.nextConversionNs = some n
  event : adc.conversionEvent = none ∨ adc.conversionEvent = some (n, .conversion)

/-- The armed conversion with an event or without, as fits. -/
def refreshed (adc : Adc) (n : Nat) : Adc :=
  if adc.lazyConversionEligible then
    { adc with conversionEvent := none, conversionState := .lazy }
  else { adc with conversionEvent := some (n, .conversion), conversionState := .scheduled }

lemma refresh_pending (h : Pending n adc) (hlater : now < n) :
    adc.refreshConversionScheduling now = .ok (adc.refreshed n) := by
  have hpast : ¬ n < now := by omega
  have hn := h.next
  unfold refreshed
  split
  · rename_i he
    rcases h.state with hs | hs <;>
      simp [refreshConversionScheduling, conversionIsGap, hs, hn, he]
  rename_i he
  rcases h.state with hs | hs <;> rcases h.event with hv | hv <;>
    simp [refreshConversionScheduling, conversionIsGap, scheduleConversionEvent, scheduleAt, hs,
      hn, he, hv, hpast]

lemma Alike.not_eligible (h : Alike adc other) : other.lazyConversionEligible = false := by
  obtain ⟨k, samples, state, event, rfl⟩ := h
  simp [lazyConversionEligible, conversionObservable, dressed, AdcSetup.keepHistory]

lemma refreshed_withEvents (h : Alike adc other) (hn : adc.nextConversionNs = some n) :
    ∃ k samples, other.refreshed n = (adc.refreshed n).withEvents k samples := by
  have hne := h.not_eligible
  obtain ⟨k, samples, state, event, rfl⟩ := h
  refine ⟨k, samples, ?_⟩
  unfold refreshed
  rw [hne]
  by_cases he : adc.lazyConversionEligible
  · simp [he, withEvents, dressed, hn]
  · simp [he, withEvents, dressed]

lemma refreshed_sound (h : Steady adc) (hn : adc.nextConversionNs = some n)
    (hclock : adc.inputClockHz ≠ 0) : (adc.refreshed n).Sound := by
  unfold refreshed
  split_ifs
  · exact ⟨⟨h.decimation, h.rank, h.kept, h.masked⟩, .lazy n rfl hn rfl, fun _ => hclock⟩
  · exact ⟨⟨h.decimation, h.rank, h.kept, h.masked⟩, .scheduled n rfl hn rfl, fun _ => hclock⟩

lemma refreshed_next (adc : Adc) (n : Nat) :
    (adc.refreshed n).nextConversionNs = adc.nextConversionNs := by
  unfold refreshed
  split_ifs <;> rfl

lemma refreshed_fitting (adc : Adc) (n : Nat) : (adc.refreshed n).Fitting := by
  intro hstate
  unfold refreshed at *
  by_cases he : adc.lazyConversionEligible
  · rw [if_pos he]
    exact he
  · rw [if_neg he] at hstate
    cases hstate

lemma refresh_level (hsteady : Steady adc) (hlike : Alike adc other)
    (hclock : adc.inputClockHz ≠ 0) (hadc : Pending n adc) (hother : Pending n other)
    (hlater : now < n) :
    Agree (Level now) (adc.refreshConversionScheduling now)
      (other.refreshConversionScheduling now) := by
  rw [refresh_pending hadc hlater, refresh_pending hother hlater]
  refine ⟨⟨refreshed_sound hsteady hadc.next hclock, ?_, refreshed_withEvents hlike hadc.next⟩,
    refreshed_fitting adc n⟩
  intro t ht
  rw [refreshed_next, hadc.next, Option.some.injEq] at ht
  omega

end Refresh

section Arm

variable {adc other : Adc} {now t rank : Nat}

lemma armNextConversion_level (hsteady : Steady adc) (hlike : Alike adc other)
    (hclock : adc.inputClockHz ≠ 0) (hadc : adc.conversionEvent = none)
    (hother : other.conversionEvent = none) (hlater : now < t) :
    Agree (Level now) (adc.armNextConversion now t) (other.armNextConversion now t) := by
  unfold armNextConversion
  apply refresh_level (n := t)
  · exact ⟨hsteady.decimation, hsteady.rank, hsteady.kept, hsteady.masked⟩
  · obtain ⟨k, samples, state, event, rfl⟩ := hlike
    exact ⟨k, samples, .scheduled, event, rfl⟩
  · exact hclock
  · exact ⟨.inl rfl, rfl, .inl hadc⟩
  · exact ⟨.inl rfl, rfl, .inl hother⟩
  · exact hlater

lemma Alike.delay (h : Alike adc other) (rank : Nat) :
    other.conversionDelayForRank rank = adc.conversionDelayForRank rank := by
  obtain ⟨k, samples, state, event, rfl⟩ := h
  rfl

lemma armRank_level (hsteady : Steady adc) (hlike : Alike adc other)
    (hclock : adc.inputClockHz ≠ 0) (hadc : adc.conversionEvent = none)
    (hother : other.conversionEvent = none) :
    Agree (Level now) (adc.armRank now rank) (other.armRank now rank) := by
  unfold armRank
  rw [hlike.delay rank]
  by_cases hfit : simTimeMax - now < adc.conversionDelayForRank rank
  · simp only [if_pos hfit]
    rfl
  simp only [if_neg hfit]
  have := adc.delay_pos rank
  exact armNextConversion_level hsteady hlike hclock hadc hother (by omega)

end Arm

/-! ## Ending a conversion -/

variable {k : Nat} {samples : List AdcSample}

section Complete

variable {adc other : Adc} {now time : Nat}

def resultRegisters (adc : Adc) (time : Nat) : Nat → BitVec 32 :=
  Function.update
    (Function.update adc.registers dr
      ((adc.channelReading (adc.channelForRank adc.sequenceRank) time).setWidth 32))
    isr
    (adc.registers isr ||| eoc |||
      (if adc.sequenceLength ≤ adc.sequenceRank + 1 then eos else 0))

/-- The interrupt line after that conversion. -/
def resultLevel (adc : Adc) (time : Nat) : Bool :=
  adc.registers ier &&& adc.resultRegisters time isr &&& (eoc ||| eos) ≠ 0

lemma resultRegisters_of_ne {offset : Nat} (hdr : offset ≠ dr) (hisr : offset ≠ isr) :
    adc.resultRegisters time offset = adc.registers offset := by
  unfold resultRegisters
  rw [update_of_ne hisr, update_of_ne hdr]

section Materialize

variable (adc : Adc) (time : Nat) (observable : Bool)

@[simp] lemma materialize_registers :
    (adc.materializeConversion time observable).registers = adc.resultRegisters time := by
  cases observable <;> rfl

@[simp] lemma materialize_interruptLevel :
    (adc.materializeConversion time observable).interruptLevel = adc.resultLevel time := by
  cases observable <;> rfl

@[simp] lemma materialize_kept :
    let after := adc.materializeConversion time observable
    after.setup = adc.setup ∧ after.sequenceRank = adc.sequenceRank ∧
      after.skipScan = adc.skipScan ∧ after.conversionState = adc.conversionState ∧
      after.conversionEvent = adc.conversionEvent ∧
      after.nextConversionNs = adc.nextConversionNs := by
  cases observable <;> exact ⟨rfl, rfl, rfl, rfl, rfl, rfl⟩

end Materialize

/-- A conversion does the same to both, but for the history. -/
lemma materialize_alike (h : Alike adc other) (time : Nat) :
    Alike (adc.materializeConversion time true) (other.materializeConversion time true) := by
  obtain ⟨k, samples, state, event, rfl⟩ := h
  exact ⟨k, _, state, event, rfl⟩

@[simp] lemma materialize_sequenceLength (adc : Adc) (time : Nat) (observable : Bool) :
    (adc.materializeConversion time observable).sequenceLength = adc.sequenceLength := by
  unfold sequenceLength
  rw [materialize_registers, resultRegisters_of_ne (by decide) (by decide)]

lemma masked_low {enabled mask : BitVec 32} (h : enabled &&& mask = 0) (flags : BitVec 32) :
    decide (enabled &&& flags &&& mask ≠ 0) = false := by
  rw [BitVec.and_assoc, BitVec.and_comm flags, ← BitVec.and_assoc, h]
  simp

lemma resultLevel_masked (h : adc.registers ier &&& (eoc ||| eos) = 0) :
    adc.resultLevel time = false :=
  masked_low h _

lemma materialize_steady (h : Steady adc) (time : Nat) (observable : Bool) :
    Steady (adc.materializeConversion time observable) := by
  constructor
  · simpa using h.decimation
  · simpa using h.rank
  · simpa using h.kept
  · intro hzero
    rw [materialize_registers, resultRegisters_of_ne (by decide) (by decide)] at hzero
    rw [materialize_interruptLevel, resultLevel_masked hzero]

lemma sequenceLength_pos (adc : Adc) : 0 < adc.sequenceLength := by
  unfold sequenceLength lengthOf
  omega

/-- The converter has no conversion armed, as in its own event. -/
structure Retired (adc : Adc) : Prop where
  event : adc.conversionEvent = none
  next : adc.nextConversionNs = none
  state : adc.conversionState = .idle

lemma resting_level (hsteady : Steady adc)
    (hstate : adc.conversionState = .idle ∨ adc.conversionState = .suspended)
    (hnext : adc.nextConversionNs = none) (hevent : adc.conversionEvent = none) :
    Level now adc (adc.withEvents k samples) := by
  refine ⟨⟨⟨hsteady, .resting hstate hnext hevent, ?_⟩, ?_, k, samples, rfl⟩, ?_⟩
  · intro h
    exact absurd hnext h
  · intro n hn
    rw [hnext] at hn
    cases hn
  · intro h
    rcases hstate with hs | hs <;> rw [hs] at h <;> cases h

lemma Retired.level (hsteady : Steady adc) (hlike : Alike adc other) (hadc : Retired adc)
    (hother : Retired other) : Level now adc other := by
  obtain ⟨k, samples, state, event, rfl⟩ := hlike
  obtain rfl : state = .idle := hother.state
  obtain rfl : event = none := hother.event
  have hsame : adc.dressed k samples .idle none = adc.withEvents k samples := by
    simp [withEvents, hadc.state, hadc.event]
  rw [hsame]
  exact resting_level hsteady (.inl hadc.state) hadc.next hadc.event

lemma beginNextScan_undecimated (hdec : adc.setup.decimation ≤ 1) :
    adc.beginNextScan now =
      if !adc.continuousMode || !adc.started then
        .ok { adc.setRegister cr (adc.registers cr &&& ~~~adstart) with
          sequenceRank := 0, conversionState := .idle }
      else if adc.inputClockHz = 0 then .ok { adc with sequenceRank := 0, conversionState := .idle }
      else { adc with sequenceRank := 0, skipScan := false }.armRank now 0 := by
  have hone : ¬ 1 < adc.setup.decimation := by omega
  unfold beginNextScan
  simp [hone]
  rfl

lemma beginNextScan_level (hsteady : Steady adc) (hlike : Alike adc other) (hadc : Retired adc)
    (hother : Retired other) :
    Agree (Level now) (adc.beginNextScan now) (other.beginNextScan now) := by
  obtain ⟨k, samples, state, event, rfl⟩ := hlike
  have hdec := hsteady.decimation
  have hdec' : (adc.dressed k samples state event).setup.decimation ≤ 1 := hdec
  rw [beginNextScan_undecimated hdec, beginNextScan_undecimated hdec']
  refine ite rfl (fun _ => ?_) (fun _ => ite rfl (fun _ => ?_) (fun hclock => ?_))
  iterate 2
    apply Retired.level
    · exact ⟨hdec, sequenceLength_pos _, hsteady.kept, hsteady.masked⟩
    · exact ⟨k, samples, .idle, event, rfl⟩
    · exact ⟨hadc.event, hadc.next, rfl⟩
    · exact ⟨hother.event, hother.next, rfl⟩
  · apply armRank_level
    · exact ⟨hdec, sequenceLength_pos _, rfl, hsteady.masked⟩
    · exact ⟨k, samples, state, event, rfl⟩
    · exact hclock
    · exact hadc.event
    · exact hother.event

lemma finishRank_undecimated (hdec : adc.setup.decimation ≤ 1) :
    adc.finishRank now = adc.materializeConversion now true := by
  have hone : adc.decimated = false := by
    simp [decimated, Nat.not_lt.mpr hdec]
  have hmark : adc.markScan = adc := by simp [markScan, hone]
  unfold finishRank
  rw [hmark]
  simp [hone]

lemma completeConversion_undecimated (hdec : adc.setup.decimation ≤ 1) :
    adc.completeConversion now =
      let kept := adc.materializeConversion now true
      if adc.sequenceLength ≤ adc.sequenceRank + 1 then
        { kept with sequenceRank := 0, scanIndex := kept.scanIndex + 1 }.beginNextScan now
      else
        let kept := { kept with sequenceRank := adc.sequenceRank + 1 }
        if kept.inputClockHz = 0 then .ok kept
        else if kept.started then kept.armRank now kept.sequenceRank
        else
          .ok { kept.setRegister cr (kept.registers cr &&& ~~~adstart) with
            conversionState := .idle } := by
  unfold completeConversion
  rw [finishRank_undecimated hdec]
  rfl

lemma Retired.materialize (h : Retired adc) (time : Nat) (observable : Bool) :
    Retired (adc.materializeConversion time observable) :=
  ⟨by simpa using h.event, by simpa using h.next, by simpa using h.state⟩

lemma completeConversion_level (hsteady : Steady adc) (hlike : Alike adc other)
    (hadc : Retired adc) (hother : Retired other) :
    Agree (Level now) (adc.completeConversion now) (other.completeConversion now) := by
  obtain ⟨k', samples', state', event', hkept⟩ := materialize_alike hlike now
  have hsteady' := materialize_steady hsteady now true
  have hretired := hadc.materialize now true
  have hretired' := hother.materialize now true
  have hlen := adc.materialize_sequenceLength now true
  obtain ⟨k, samples, state, event, rfl⟩ := hlike
  have hdec : (adc.dressed k samples state event).setup.decimation ≤ 1 := hsteady.decimation
  rw [completeConversion_undecimated hsteady.decimation, completeConversion_undecimated hdec]
  rw [hkept] at hretired' ⊢
  generalize adc.materializeConversion now true = kept at *
  refine ite rfl (fun _ => ?_) (fun hmore => ite rfl (fun _ => ?_) (fun hclock =>
    ite rfl (fun _ => ?_) (fun _ => ?_)))
  · apply beginNextScan_level
    · exact ⟨hsteady'.decimation, sequenceLength_pos _, hsteady'.kept, hsteady'.masked⟩
    · exact ⟨k' + 1, samples', state', event', rfl⟩
    · exact ⟨hretired.event, hretired.next, hretired.state⟩
    · exact ⟨hretired'.event, hretired'.next, hretired'.state⟩
  all_goals
    have hnext : Steady { kept with sequenceRank := adc.sequenceRank + 1 } := by
      refine ⟨hsteady'.decimation, ?_, hsteady'.kept, hsteady'.masked⟩
      change adc.sequenceRank + 1 < kept.sequenceLength
      omega
  · apply Retired.level hnext
    · exact ⟨k', samples', state', event', rfl⟩
    · exact ⟨hretired.event, hretired.next, hretired.state⟩
    · exact ⟨hretired'.event, hretired'.next, hretired'.state⟩
  · apply armRank_level hnext
    · exact ⟨k', samples', state', event', rfl⟩
    · exact hclock
    · exact hretired.event
    · exact hretired'.event
  · apply Retired.level
    · exact ⟨hnext.decimation, hnext.rank, hnext.kept, hnext.masked⟩
    · exact ⟨k', samples', .idle, event', rfl⟩
    · exact ⟨hretired.event, hretired.next, rfl⟩
    · exact ⟨hretired'.event, hretired'.next, rfl⟩

lemma fire_level {n : Nat} (h : Abreast now adc other)
    (hn : adc.conversionEvent = some (n, .conversion))
    (hstate : adc.conversionState = .scheduled) : Agree (Level n) adc.fire other.fire := by
  obtain ⟨hsound, -, k, samples, rfl⟩ := h
  have hn' : (adc.withEvents k samples).conversionEvent = some (n, .conversion) := by
    simp [withEvents, dressed, hstate, hn]
  unfold fire
  rw [hn, hn']
  apply completeConversion_level
  · exact ⟨hsound.decimation, hsound.rank, hsound.kept, hsound.masked⟩
  · exact ⟨k, samples, .idle, none, rfl⟩
  · exact ⟨rfl, rfl, rfl⟩
  · exact ⟨rfl, rfl, rfl⟩

end Complete

/-! ## Catching up -/

section CatchUp

variable {adc : Adc} {now n t time : Nat}

/-- The converter after a conversion that ended at some time, with the next one armed. -/
def advanced (adc : Adc) (time : Nat) : Adc :=
  { adc with
    registers := adc.resultRegisters time
    nextConversionNs := some (time + adc.conversionDelayForRank 0) }

def caughtUp (adc : Adc) (now : Nat) : Adc :=
  match adc.conversionState, adc.nextConversionNs with
  | .lazy, some n =>
    if now < n then adc
    else adc.advanced (latestConversion n (adc.conversionDelayForRank 0) now)
  | _, _ => adc

lemma advanced_registers {offset : Nat} (hdr : offset ≠ dr) (hisr : offset ≠ isr) :
    (adc.advanced time).registers offset = adc.registers offset :=
  resultRegisters_of_ne hdr hisr

lemma advanced_channelForRank (rank : Nat) :
    (adc.advanced time).channelForRank rank = adc.channelForRank rank := by
  unfold channelForRank
  split_ifs <;> simp (disch := decide) only [advanced_registers]

lemma advanced_delay (adc : Adc) (time rank : Nat) :
    (adc.advanced time).conversionDelayForRank rank = adc.conversionDelayForRank rank := by
  have hbudget : (adc.advanced time).conversionCycleBudget rank =
      adc.conversionCycleBudget rank := by
    unfold conversionCycleBudget
    rw [advanced_channelForRank]
    by_cases hlow : adc.channelForRank rank ≤ 9
    · simp (disch := decide) only [hlow, if_true, advanced_registers]
    · simp (disch := decide) only [hlow, if_false, advanced_registers]
  unfold conversionDelayForRank
  rw [hbudget]
  rfl

lemma advanced_sequenceLength : (adc.advanced time).sequenceLength = adc.sequenceLength := by
  unfold sequenceLength
  rw [advanced_registers (by decide) (by decide)]

lemma or_or_absorb (x y z : BitVec 32) : x ||| y ||| z ||| y ||| z = x ||| y ||| z := by
  ext i
  simp
  cases x[i] <;> cases y[i] <;> cases z[i] <;> rfl

/-- A later conversion overwrites what an earlier one left. -/
lemma advanced_resultRegisters :
    (adc.advanced t).resultRegisters time = adc.resultRegisters time := by
  funext offset
  by_cases hisr : offset = isr
  · subst hisr
    unfold resultRegisters
    exact or_or_absorb _ _ _
  by_cases hdr : offset = dr
  · subst hdr
    unfold resultRegisters
    rw [update_of_ne hisr, update_of_ne hisr, update_self,
      update_self, advanced_channelForRank]
    rfl
  · rw [resultRegisters_of_ne hdr hisr, resultRegisters_of_ne hdr hisr, advanced_registers hdr hisr]

lemma advanced_advanced : (adc.advanced t).advanced time = adc.advanced time := by
  have hregisters : (adc.advanced t).resultRegisters time = adc.resultRegisters time :=
    advanced_resultRegisters
  have hdelay := adc.advanced_delay t 0
  unfold advanced at *
  rw [hregisters, hdelay]

/-! ### The latest conversion -/

variable {delay : Nat}

lemma latestConversion_le (h : n ≤ now) : latestConversion n delay now ≤ now := by
  have := Nat.div_mul_le_self (now - n) delay
  unfold latestConversion
  omega

lemma lt_latestConversion_add (hdelay : 0 < delay) :
    now < latestConversion n delay now + delay := by
  have := Nat.lt_div_mul_add hdelay (a := now - n)
  unfold latestConversion
  omega

lemma latestConversion_steps (hdelay : 0 < delay) (k : Nat) (h : n + k * delay ≤ now) :
    latestConversion (n + k * delay) delay now = latestConversion n delay now := by
  have hsplit : now - n = now - (n + k * delay) + k * delay := by omega
  unfold latestConversion
  rw [hsplit, Nat.add_mul_div_right _ _ hdelay, Nat.add_mul]
  omega

lemma latestConversion_of_lt (hn : n ≤ now) (h : now < n + delay) :
    latestConversion n delay now = n := by
  unfold latestConversion
  rw [Nat.div_eq_of_lt (by omega)]
  omega

lemma latestConversion_again {later : Nat} (hdelay : 0 < delay) (hlater : now ≤ later) :
    (if later < latestConversion n delay now + delay then latestConversion n delay now
      else latestConversion (latestConversion n delay now + delay) delay later) =
      latestConversion n delay later := by
  have hstep : latestConversion n delay now + delay = n + ((now - n) / delay + 1) * delay := by
    unfold latestConversion
    rw [Nat.add_mul, Nat.one_mul]
    omega
  split_ifs with h
  · rw [hstep] at h
    unfold latestConversion
    have hle := Nat.div_le_div_right (c := delay) (Nat.sub_le_sub_right hlater n)
    have hlt : (later - n) / delay < (now - n) / delay + 1 :=
      (Nat.div_lt_iff_lt_mul hdelay).mpr (by
        have : 0 < ((now - n) / delay + 1) * delay := Nat.mul_pos (Nat.succ_pos _) hdelay
        omega)
    rw [show (later - n) / delay = (now - n) / delay by omega]
  · rw [hstep] at h ⊢
    exact latestConversion_steps hdelay _ (by omega)

/-! ### What catching up keeps -/

lemma caughtUp_lazy (hstate : adc.conversionState = .lazy) (hn : adc.nextConversionNs = some n) :
    adc.caughtUp now = if now < n then adc
      else adc.advanced (latestConversion n (adc.conversionDelayForRank 0) now) := by
  unfold caughtUp
  rw [hstate, hn]

lemma caughtUp_of_not_lazy (hstate : adc.conversionState ≠ .lazy) : adc.caughtUp now = adc := by
  unfold caughtUp
  split
  · contradiction
  · rfl

section

variable (h : Sound adc) (hstate : adc.conversionState = .lazy)
include h hstate

lemma Sound.lazy :
    ∃ n, adc.nextConversionNs = some n ∧ adc.conversionEvent = none := by
  rcases h.armed with ⟨hs | hs, -, -⟩ | ⟨n, hs, -, -⟩ | ⟨n, -, hn, hevent⟩
  · rw [hs] at hstate
    cases hstate
  · rw [hs] at hstate
    cases hstate
  · rw [hs] at hstate
    cases hstate
  · exact ⟨n, hn, hevent⟩

lemma advanced_sound :
    Sound (adc.advanced time) := by
  obtain ⟨n, hn, hevent⟩ := h.lazy hstate
  refine ⟨⟨h.decimation, ?_, h.kept, ?_⟩, ?_, ?_⟩
  · rw [advanced_sequenceLength]
    exact h.rank
  · rw [advanced_registers (by decide) (by decide)]
    exact h.masked
  · exact .lazy _ hstate rfl hevent
  · intro _
    exact h.clocked (by rw [hn]; simp)

end

lemma caughtUp_sound (h : Sound adc) : Sound (adc.caughtUp now) := by
  unfold caughtUp
  split
  · split_ifs
    · exact h
    · exact advanced_sound h ‹_›
  · exact h

lemma caughtUp_fitting (h : adc.Fitting) : (adc.caughtUp now).Fitting := by
  unfold caughtUp
  split
  · split_ifs
    · exact h
    · intro hstate
      exact h hstate
  · exact h

lemma caughtUp_state : (adc.caughtUp now).conversionState = adc.conversionState := by
  unfold caughtUp
  split
  · split_ifs <;> rfl
  · rfl

lemma caughtUp_delay (rank : Nat) :
    (adc.caughtUp now).conversionDelayForRank rank = adc.conversionDelayForRank rank := by
  unfold caughtUp
  split
  · split_ifs
    · rfl
    · rw [advanced_delay]
  · rfl

/-- Catching up twice is catching up once. -/
lemma caughtUp_caughtUp {later : Nat} (hlater : now ≤ later) :
    (adc.caughtUp now).caughtUp later = adc.caughtUp later := by
  by_cases hstate : adc.conversionState = .lazy
  · rcases hn : adc.nextConversionNs with _ | n
    · have hsame : adc.caughtUp now = adc := by simp [caughtUp, hstate, hn]
      rw [hsame]
    have hdelay := adc.delay_pos 0
    have hfirst : adc.caughtUp now = _ := caughtUp_lazy hstate hn
    rw [hfirst]
    by_cases hnow : now < n
    · rw [if_pos hnow]
    have hagain : ∀ time, (adc.advanced time).caughtUp later = _ :=
      fun _ => caughtUp_lazy hstate rfl
    have hlast : adc.caughtUp later = _ := caughtUp_lazy hstate hn
    rw [if_neg hnow, hagain, advanced_delay, hlast, if_neg (show ¬ later < n by omega),
      ← latestConversion_again (n := n) hdelay hlater]
    split_ifs
    · rfl
    · exact advanced_advanced
  · have hsame : adc.caughtUp now = adc := caughtUp_of_not_lazy hstate
    rw [hsame]

/-- At the end of a conversion, that one is the latest. -/
lemma caughtUp_deadline (hstate : adc.conversionState = .lazy)
    (hn : adc.nextConversionNs = some n) : adc.caughtUp n = adc.advanced n := by
  have hdelay := adc.delay_pos 0
  rw [caughtUp_lazy hstate hn, if_neg (by omega), latestConversion_of_lt (by omega) (by omega)]

lemma caughtUp_ahead (h : Sound adc) (hstate : adc.conversionState = .lazy) :
    (adc.caughtUp now).Ahead now := by
  obtain ⟨n, hn, -⟩ := h.lazy hstate
  rw [caughtUp_lazy hstate hn]
  intro t ht
  split_ifs at ht with hnow
  · rw [hn, Option.some.injEq] at ht
    omega
  obtain rfl : latestConversion n (adc.conversionDelayForRank 0) now +
      adc.conversionDelayForRank 0 = t := Option.some.inj ht
  exact lt_latestConversion_add (adc.delay_pos 0)

/-! ### The two ways of catching up -/

/-- What is known of a converter that nobody watches. -/
structure Quiet (adc : Adc) : Prop where
  single : adc.sequenceLength = 1
  continuous : adc.continuousMode
  started : adc.started
  unmasked : adc.registers ier &&& (eoc ||| eos) = 0
  unheard : adc.setup.sampleCallback = false

lemma quiet_of_eligible (h : adc.lazyConversionEligible) : Quiet adc := by
  simp [lazyConversionEligible, conversionObservable] at h
  exact ⟨h.1.1.1, h.1.1.2, h.1.2, h.2.1.1.1, h.2.1.1.2⟩

section

variable (hsteady : Steady adc) (hquiet : Quiet adc)
include hsteady hquiet

lemma quiet_level :
    adc.resultLevel time = adc.interruptLevel := by
  rw [hsteady.masked hquiet.unmasked, resultLevel_masked hquiet.unmasked]

lemma materialize_quiet :
    adc.materializeConversion time false = { adc with registers := adc.resultRegisters time } := by
  change { adc with
    registers := adc.resultRegisters time
    interruptLevel := adc.resultLevel time
    signals := if adc.interruptLevel = adc.resultLevel time then adc.signals else _ } = _
  rw [quiet_level hsteady hquiet, if_pos rfl]

lemma materialize_unheard :
    ∃ samples, adc.materializeConversion time true =
      { adc with registers := adc.resultRegisters time, samples } := by
  have hier : adc.resultRegisters time ier &&& (eoc ||| eos) = 0 :=
    hquiet.unmasked
  refine ⟨(adc.materializeConversion time true).samples, ?_⟩
  change { adc with
    registers := adc.resultRegisters time
    interruptLevel := adc.resultLevel time
    samples := (adc.materializeConversion time true).samples
    signals := (if adc.interruptLevel = adc.resultLevel time then adc.signals else _) ++
      (if adc.setup.sampleCallback then _ else []) ++
      (if adc.setup.interruptCallback && decide (adc.resultRegisters time ier &&& (eoc ||| eos) ≠ 0)
        then _ else []) } = _
  rw [quiet_level hsteady hquiet, if_pos rfl, hquiet.unheard, if_neg Bool.false_ne_true,
    if_neg (by simp [hier]), List.append_nil, List.append_nil]

end

/-- What catching up does when the clock can show the next conversion. -/
lemma synchronize_caughtUp (hsound : Sound adc) (hfit : adc.Fitting)
    (hroom : adc.conversionState = .lazy → adc.conversionDelayForRank 0 + now ≤ simTimeMax) :
    adc.synchronizeLazyConversions now = .ok (adc.caughtUp now) := by
  by_cases hstate : adc.conversionState = .lazy
  · have hroom := hroom hstate
    have hdelay := adc.delay_pos 0
    obtain ⟨n, hn, -⟩ := hsound.lazy hstate
    rw [caughtUp_lazy hstate hn]
    unfold synchronizeLazyConversions
    rw [hstate, hn]
    dsimp only
    by_cases hnow : now < n
    · simp [hnow]
    have hlatest : latestConversion n (adc.conversionDelayForRank 0) now ≤ now :=
      latestConversion_le (Nat.not_lt.mp hnow)
    rw [if_neg (by simp; omega), if_neg (by omega), if_neg hnow,
      materialize_quiet hsound.toSteady (quiet_of_eligible (hfit hstate))]
    rfl
  · rw [caughtUp_of_not_lazy hstate]
    unfold synchronizeLazyConversions
    rcases hsound.armed with ⟨hs | hs, -, -⟩ | ⟨n, hs, -, -⟩ | ⟨n, hs, -, -⟩
    · simp [hs]
    · simp [hs]
    · simp [hs]
    · exact absurd hs hstate

lemma Quiet.advanced (h : Quiet adc) (time : Nat) : Quiet (adc.advanced time) := by
  constructor
  · rw [advanced_sequenceLength]
    exact h.single
  · unfold continuousMode
    exact h.continuous
  · unfold Adc.started
    exact h.started
  · rw [advanced_registers (by decide) (by decide)]
    exact h.unmasked
  · exact h.unheard

lemma beginNextScan_watched (hsteady : Steady adc) (hwatched : adc.setup.sampleHistoryEnabled)
    (hcontinuous : adc.continuousMode) (hstarted : adc.started) (hclock : adc.inputClockHz ≠ 0)
    (hevent : adc.conversionEvent = none) (hroom : adc.conversionDelayForRank 0 + n ≤ simTimeMax) :
    adc.beginNextScan n = .ok { adc with
      sequenceRank := 0
      conversionState := .scheduled
      nextConversionNs := some (n + adc.conversionDelayForRank 0)
      conversionEvent := some (n + adc.conversionDelayForRank 0, .conversion) } := by
  have hdelay := adc.delay_pos 0
  have hkept := hsteady.kept
  rw [beginNextScan_undecimated hsteady.decimation, ← hkept]
  refine (if_neg (by simp [hcontinuous, hstarted])).trans ((if_neg hclock).trans ?_)
  refine (if_neg ?_).trans ?_
  · change ¬ simTimeMax - n < adc.conversionDelayForRank 0
    omega
  refine (refresh_pending ⟨.inl rfl, rfl, .inl ?_⟩ ?_).trans ?_
  · exact hevent
  · change n < n + adc.conversionDelayForRank 0
    omega
  · unfold refreshed
    rw [if_neg (by simp [lazyConversionEligible, conversionObservable, hwatched])]
    rfl

/-- The event of a conversion that the lazy converter does without. -/
lemma fire_lazy (hsound : Sound adc)
    (hstate : adc.conversionState = .lazy) (hquiet : Quiet adc)
    (hn : adc.nextConversionNs = some n)
    (hroom : adc.conversionDelayForRank 0 + n ≤ simTimeMax) :
    ∃ k' samples', (adc.withEvents k samples).fire =
      .ok ((adc.advanced n).withEvents k' samples') := by
  have hrank : adc.sequenceRank = 0 := by
    have := hsound.rank
    rw [hquiet.single] at this
    omega
  -- The event finds the converter without a deadline.
  let retired := { adc.dressed k samples .idle none with nextConversionNs := none }
  have hfire : (adc.withEvents k samples).fire = retired.completeConversion n := by
    simp [fire, withEvents, dressed, hstate, hn, retired]
  have hsteady : Steady retired :=
    ⟨hsound.decimation, hsound.rank, hsound.kept, hsound.masked⟩
  obtain ⟨samples', hmat⟩ : ∃ samples', retired.materializeConversion n true =
      { retired with registers := retired.resultRegisters n, samples := samples' } :=
    materialize_unheard hsteady
      ⟨hquiet.single, hquiet.continuous, hquiet.started, hquiet.unmasked, hquiet.unheard⟩
  -- Its result is there, and the next scan begins at once.
  let next : Adc := { (adc.advanced n).dressed (k + 1) samples' .idle none with
    nextConversionNs := none, sequenceRank := 0 }
  have hnext := hquiet.advanced n
  have hsound' : Sound (adc.advanced n) := advanced_sound hsound hstate
  have hscan : retired.completeConversion n = next.beginNextScan n := by
    rw [completeConversion_undecimated hsteady.decimation, hmat]
    refine (if_pos ?_).trans rfl
    change adc.sequenceLength ≤ adc.sequenceRank + 1
    rw [hquiet.single]
    omega
  have hdelay : next.conversionDelayForRank 0 = adc.conversionDelayForRank 0 :=
    adc.advanced_delay n 0
  rw [hfire, hscan, beginNextScan_watched]
  · refine ⟨k + 1, samples', ?_⟩
    rw [hdelay]
    simp [next, withEvents, dressed, advanced, hstate, hrank]
  · exact ⟨hsound'.decimation, sequenceLength_pos _, hsound'.kept, hsound'.masked⟩
  · rfl
  · exact hnext.continuous
  · exact hnext.started
  · exact hsound.clocked (by simp [hn])
  · rfl
  · rwa [hdelay]

end CatchUp

/-! ## The event loop comes to rest -/

section Rest

variable {adc adc' : Adc} {now t : Nat} {thunk : ConversionThunk}

lemma scheduleConversionEvent_cases (h : adc.scheduleConversionEvent now = .ok adc') :
    adc' = adc ∨ ∃ n thunk, adc.nextConversionNs = some n ∧ now ≤ n ∧
      adc' = { adc with conversionEvent := some (n, thunk) } := by
  unfold scheduleConversionEvent scheduleAt at h
  split at h
  · split_ifs at h
    cases h
    exact .inr ⟨_, _, ‹_›, by omega, rfl⟩
  · split_ifs at h
    cases h
    exact .inr ⟨_, _, ‹_›, by omega, rfl⟩
  · cases h
    exact .inl rfl

/-- All that a refresh can do: only the deadline gets an event. -/
lemma refresh_cases (h : adc.refreshConversionScheduling now = .ok adc') :
    ∃ state event, adc' = { adc with conversionState := state, conversionEvent := event } ∧
      (event = adc.conversionEvent ∨ event = none ∨
        ∃ n thunk, adc.nextConversionNs = some n ∧ now ≤ n ∧ event = some (n, thunk)) := by
  unfold refreshConversionScheduling at h
  split at h
  case h_5 =>
    split at h
    · cases h
      exact ⟨_, _, rfl, .inr (.inl rfl)⟩
    by_cases hv : adc.conversionEvent.isNone
    · rw [if_pos hv] at h
      rcases scheduleConversionEvent_cases h with hsame | ⟨n, thunk, hn, hle, hscheduled⟩
      · exact ⟨_, _, hsame, .inl rfl⟩
      · exact ⟨_, _, hscheduled, .inr (.inr ⟨n, thunk, hn, hle, rfl⟩)⟩
    · rw [if_neg hv] at h
      cases h
      exact ⟨_, _, rfl, .inl rfl⟩
  all_goals
    cases h
    exact ⟨_, _, rfl, .inl rfl⟩

end Rest

/-! ## The events that are due -/

section Dispatch

variable {adc other : Adc} {now : Nat}

/-- The two between operations: what the lazy one would catch up with, the other
one has done. -/
structure Behind (now : Nat) (adc other : Adc) : Prop where
  sound : adc.Sound
  fitting : adc.Fitting
  ahead : (adc.caughtUp now).Ahead now
  same : ∃ k samples, other = (adc.caughtUp now).withEvents k samples

lemma caughtUp_of_ahead (h : adc.Ahead now) : adc.caughtUp now = adc := by
  unfold caughtUp
  split
  · rename_i n _ hn
    rw [if_pos (h n hn)]
  · rfl

lemma Level.behind (h : Level now adc other) : Behind now adc other := by
  have hsame : adc.caughtUp now = adc := caughtUp_of_ahead h.ahead
  refine ⟨h.sound, h.fitting, ?_, ?_⟩
  · rw [hsame]
    exact h.ahead
  · rw [hsame]
    exact h.same

/-- The clock can show the end of the conversion after the latest. -/
def Room (now : Nat) (adc : Adc) : Prop :=
  adc.conversionState = .lazy → adc.conversionDelayForRank 0 + now ≤ simTimeMax

variable {samples : List AdcSample}

/-- The events of the converter that has them do what catching up does. -/
lemma settle_lazy {n fuel : Nat} (hsound : Sound adc) (hfit : adc.Fitting)
    (hstate : adc.conversionState = .lazy) (hroom : adc.Room now)
    (hn : adc.nextConversionNs = some n) (henough : now < n + fuel) :
    ∃ k' samples', alarm.settle now fuel (adc.withEvents k samples) =
      .ok ((adc.caughtUp now).withEvents k' samples') := by
  have hdue : alarm.due (adc.withEvents k samples) = some n := by
    simp [alarm, withEvents, dressed, hstate, hn]
  -- One event after the other, each a period after the one before.
  induction fuel generalizing adc n k samples with
  | zero =>
    refine ⟨k, samples, ?_⟩
    rw [caughtUp_lazy hstate hn, if_pos (by omega)]
    rfl
  | succ fuel ih =>
    by_cases hnow : now < n
    · refine ⟨k, samples, ?_⟩
      rw [caughtUp_lazy hstate hn, if_pos hnow, Alarm.settle_later hdue hnow]
    have hroomed := hroom hstate
    obtain ⟨k', samples', hfire⟩ : ∃ k' samples', (adc.withEvents k samples).fire = _ :=
      fire_lazy hsound hstate (quiet_of_eligible (hfit hstate)) hn (by omega)
    have hdelay := adc.delay_pos 0
    rw [Alarm.settle_due hdue (by omega)]
    change ∃ _ _, ((adc.withEvents k samples).fire >>= _) = _
    rw [hfire]
    obtain ⟨k'', samples'', hrest⟩ : ∃ k'' samples'',
        alarm.settle now fuel ((adc.advanced n).withEvents k' samples') =
          .ok (((adc.advanced n).caughtUp now).withEvents k'' samples'') := by
      apply ih (advanced_sound hsound hstate) (n := n + adc.conversionDelayForRank 0)
      · intro _
        exact hfit hstate
      · exact hstate
      · intro _
        rw [advanced_delay]
        exact hroomed
      · rfl
      · omega
      · simp [alarm, withEvents, dressed, advanced, hstate]
    refine ⟨k'', samples'', hrest.trans ?_⟩
    rw [← caughtUp_deadline hstate hn, caughtUp_caughtUp (by omega)]

lemma withEvents_of_not_lazy (hstate : adc.conversionState ≠ .lazy) :
    (adc.withEvents k samples).conversionEvent = adc.conversionEvent := by
  simp [withEvents, dressed, hstate]

/-- The events of both run until the lazy one has none left. -/
lemma settle_level {fuel start : Nat} (h : Level start adc other)
    (henough : ∀ n, adc.nextConversionNs = some n → now < n + fuel)
    (hroom : ∀ met, alarm.settle now fuel adc = .ok met → met.Room now) :
    Agree (Behind now) (alarm.settle now fuel adc) (alarm.settle now fuel other) := by
  induction fuel generalizing adc other start with
  | zero =>
    have hahead : adc.Ahead now := fun n hn => by
      have := henough n hn
      omega
    exact Level.behind ⟨⟨h.sound, hahead, h.same⟩, h.fitting⟩
  | succ fuel ih =>
    obtain ⟨k, samples, hother⟩ := h.same
    rcases h.sound.armed with ⟨hs, hn, hevent⟩ | ⟨n, hs, hn, hevent⟩ | ⟨n, hs, hn, hevent⟩
    · have hlazy : adc.conversionState ≠ .lazy := by
        rcases hs with hs | hs <;> simp [hs]
      have hunset : alarm.due adc = none := by simp [alarm, hevent]
      have hunset' : alarm.due other = none := by
        rw [hother]
        simp [alarm, withEvents_of_not_lazy hlazy, hevent]
      rw [Alarm.settle_unset hunset, Alarm.settle_unset hunset']
      exact Level.behind ⟨⟨h.sound, fun n hn' => by simp [hn] at hn', h.same⟩, h.fitting⟩
    · have hlazy : adc.conversionState ≠ .lazy := by simp [hs]
      have hdue : alarm.due adc = some n := by simp [alarm, hevent]
      have hdue' : alarm.due other = some n := by
        rw [hother]
        simp [alarm, withEvents_of_not_lazy hlazy, hevent]
      by_cases hnow : now < n
      · rw [Alarm.settle_later hdue hnow, Alarm.settle_later hdue' hnow]
        refine Level.behind ⟨⟨h.sound, fun t ht => ?_, h.same⟩, h.fitting⟩
        rw [hn, Option.some.injEq] at ht
        omega
      have hle : n ≤ now := Nat.not_lt.mp hnow
      have hrun : alarm.settle now (fuel + 1) adc = _ := Alarm.settle_due hdue hle
      rw [hrun, Alarm.settle_due hdue' hle]
      apply bind (fire_level h.toAbreast hevent hs)
      intro fired fired' hfired hlevel
      apply ih hlevel
      · intro t ht
        have hlater := hlevel.ahead t ht
        have := henough n hn
        omega
      · intro met hmet
        apply hroom met
        rw [hrun]
        change adc.fire >>= _ = _
        rw [hfired]
        exact hmet
    · have hunset : alarm.due adc = none := by simp [alarm, hevent]
      rw [Alarm.settle_unset hunset] at hroom ⊢
      obtain ⟨k', samples', hsettled⟩ := settle_lazy h.sound h.fitting hs (hroom adc rfl) hn
        (henough n hn)
      rw [hother, hsettled]
      exact ⟨h.sound, h.fitting, caughtUp_ahead h.sound hs, k', samples', rfl⟩

/-- When events have run in both, the one with events has caught up again. -/
lemma dispatch_behind {start : Nat} (h : Behind start adc other) (hstart : start ≤ now)
    (hroom : ∀ met, adc.dispatch now = .ok met → met.Room now) :
    Agree (Behind now) (adc.dispatch now) (other.dispatch now) := by
  unfold dispatch at *
  by_cases hstate : adc.conversionState = .lazy
  · obtain ⟨n, -, hevent⟩ := h.sound.lazy hstate
    have hunset : alarm.due adc = none := by simp [alarm, hevent]
    rw [Alarm.settle_unset hunset] at hroom ⊢
    obtain ⟨k, samples, hother⟩ := h.same
    have hstate' : (adc.caughtUp start).conversionState = .lazy := by rw [caughtUp_state, hstate]
    have hsound' : Sound (adc.caughtUp start) := caughtUp_sound h.sound
    obtain ⟨m, hm, -⟩ := hsound'.lazy hstate'
    have hroom' : (adc.caughtUp start).Room now := by
      intro _
      rw [caughtUp_delay]
      exact hroom adc rfl hstate
    obtain ⟨k', samples', hsettled⟩ := settle_lazy hsound' (caughtUp_fitting h.fitting) hstate'
      hroom' hm (by omega : now < m + (now + 1))
    rw [caughtUp_caughtUp hstart] at hsettled
    rw [hother, hsettled]
    exact ⟨h.sound, h.fitting, caughtUp_ahead h.sound hstate, k', samples', rfl⟩
  · have hsame : adc.caughtUp start = adc := caughtUp_of_not_lazy hstate
    have hlevel : Level start adc other := by
      rw [← hsame]
      exact ⟨⟨caughtUp_sound h.sound, h.ahead, h.same⟩, caughtUp_fitting h.fitting⟩
    apply settle_level hlevel
    · intro n _
      omega
    · exact hroom

lemma synchronize_withEvents (h : Sound adc) :
    (adc.withEvents k samples).synchronizeLazyConversions now = .ok (adc.withEvents k samples) := by
  rcases h.armed with ⟨hs | hs, -, -⟩ | ⟨n, hs, -, -⟩ | ⟨n, hs, -, -⟩ <;>
    simp [synchronizeLazyConversions, withEvents, dressed, hs]

lemma synchronize_level (h : Behind now adc other) (hroom : adc.Room now) :
    Agree (Level now) (adc.synchronizeLazyConversions now)
      (other.synchronizeLazyConversions now) := by
  rw [synchronize_caughtUp h.sound h.fitting hroom]
  have hother : other.synchronizeLazyConversions now = .ok other := by
    obtain ⟨k, samples, rfl⟩ := h.same
    exact synchronize_withEvents (caughtUp_sound h.sound)
  rw [hother]
  exact ⟨⟨caughtUp_sound h.sound, h.ahead, h.same⟩, caughtUp_fitting h.fitting⟩

end Dispatch

end Adc

end Fil.Stm32g4
