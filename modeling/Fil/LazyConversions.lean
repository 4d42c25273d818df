-- A converter that works out its conversions late against one that has an
-- event for each of them. Without decimation the two give the same answers to
-- every access and clock change, as long as no sequence is cut short while one
-- of its later ranks is converted.
import Fil.CatchUp
import Mathlib.Data.BitVec

namespace Fil.Stm32g4

open Fil.Mem
open Agree (ite refl)

namespace Adc

variable {adc other : Adc} {now : Nat}

/-! ## Loads -/

variable {samples : List AdcSample}

lemma abreast_registers {k : Nat} (hsound : Sound adc)
    (hahead : adc.Ahead now) (registers : Nat → BitVec 32) (level : Bool)
    (signals : List AdcSignal) (hrank : adc.sequenceRank < lengthOf (registers sqr1))
    (hmasked : registers ier &&& (eoc ||| eos) = 0 → level = false) :
    Abreast now { adc with registers, interruptLevel := level, signals }
      ({ adc with registers, interruptLevel := level, signals }.withEvents k samples) := by
  refine ⟨⟨⟨hsound.decimation, hrank, hsound.kept, hmasked⟩, ?_, hsound.clocked⟩, hahead, k,
    samples, rfl⟩
  rcases hsound.armed with ⟨hs, hn, he⟩ | ⟨n, hs, hn, he⟩ | ⟨n, hs, hn, he⟩
  · exact .resting hs hn he
  · exact .scheduled n hs hn he
  · exact .lazy n hs hn he

lemma load_level (h : Level now adc other) (word : Nat) :
    (other.loadRegister word).1 = (adc.loadRegister word).1 ∧
      Level now (adc.loadRegister word).2 (other.loadRegister word).2 := by
  obtain ⟨⟨hsound, hahead, k, samples, rfl⟩, hfit⟩ := h
  unfold loadRegister
  by_cases hdr : word = dr
  · rw [if_pos hdr, if_pos hdr]
    refine ⟨rfl, abreast_registers hsound hahead _ _ _ ?_ ?_, hfit⟩
    · exact hsound.rank
    · intro hzero
      exact masked_low hzero _
  · rw [if_neg hdr, if_neg hdr]
    exact ⟨rfl, ⟨hsound, hahead, k, samples, rfl⟩, hfit⟩

lemma loads_level (offset : Nat) (ls : List Lane) (value : BitVec 64) (h : Level now adc other) :
    let load := fun (x : BitVec 64 × Adc) (lane : Lane) =>
      (x.1 ||| lane.extract offset (x.2.loadRegister (lane.word offset)).1,
        (x.2.loadRegister (lane.word offset)).2)
    (ls.foldl load (value, other)).1 = (ls.foldl load (value, adc)).1 ∧
      Level now (ls.foldl load (value, adc)).2 (ls.foldl load (value, other)).2 := by
  induction ls generalizing value adc other with
  | nil => exact ⟨rfl, h⟩
  | cons lane ls ih =>
    obtain ⟨hword, hnext⟩ := load_level h (lane.word offset)
    simp only [List.foldl_cons, hword]
    exact ih _ hnext

/-- Replies that are the same, and converters that are level after them. -/
def Alongside (now : Nat) (x y : Reply × Adc) : Prop := x.1 = y.1 ∧ Behind now x.2 y.2

lemma read_alongside (h : Behind now adc other) (hroom : adc.Room now) (offset : Nat)
    (size : AccessSize) :
    Agree (Alongside now) (adc.read now offset size) (other.read now offset size) := by
  unfold read
  apply Agree.bind (synchronize_level h hroom)
  intro adc other _ hlevel
  apply ite rfl
  · intro _
    exact ⟨rfl, hlevel.behind⟩
  · intro _
    obtain ⟨hvalue, hnext⟩ := loads_level offset (lanes offset (byteCount size)) 0 hlevel
    exact ⟨congrArg Reply.value hvalue.symm, hnext.behind⟩

/-! ## Stores -/

variable {adc' : Adc} {offset : Nat}

section

variable (h : Abreast now adc other)
include h

lemma Abreast.setRegister (value : BitVec 32) (hsqr : offset ≠ sqr1) (hier : offset ≠ ier) :
    Abreast now (adc.setRegister offset value) (other.setRegister offset value) := by
  obtain ⟨hsound, hahead, k, samples, rfl⟩ := h
  refine abreast_registers hsound hahead _ _ _ ?_ ?_
  · rw [Function.update_of_ne hsqr.symm]
    exact hsound.rank
  · rw [Function.update_of_ne hier.symm]
    exact hsound.masked

lemma Abreast.cancel : Abreast now adc.cancelConversion other.cancelConversion := by
  obtain ⟨hsound, hahead, k, samples, rfl⟩ := h
  refine ⟨⟨⟨hsound.decimation, hsound.rank, hsound.kept, hsound.masked⟩, ?_, ?_⟩, ?_, k, samples,
    rfl⟩
  · exact .resting (.inl rfl) rfl rfl
  · intro hnext
    exact absurd rfl hnext
  · intro n hn
    cases hn

lemma startConversion_abreast :
    Agree (Abreast now) (adc.startConversion now) (other.startConversion now) := by
  obtain ⟨hsound, hahead, k, samples, rfl⟩ := h
  have hsteady : Steady { adc.cancelConversion with
      sequenceRank := 0, scanIndex := 0, skipScan := false } :=
    ⟨hsound.decimation, sequenceLength_pos _, rfl, hsound.masked⟩
  unfold startConversion
  apply ite rfl
  · -- The clock stands: the whole conversion is held.
    intro _
    refine Level.toAbreast (resting_level (k := 0) ?_ (.inr rfl) rfl rfl)
    exact ⟨hsteady.decimation, hsteady.rank, hsteady.kept, hsteady.masked⟩
  · intro hclock
    apply (armRank_level hsteady ⟨0, samples, .idle, none, rfl⟩ hclock rfl rfl).mono
    intro _ _ _ hlevel
    exact hlevel.toAbreast

lemma Abreast.registers : other.registers = adc.registers := by
  obtain ⟨-, -, k, samples, rfl⟩ := h
  rfl

lemma Abreast.disable : Abreast now adc.disable other.disable := by
  unfold Adc.disable
  rw [h.registers]
  exact (h.setRegister _ (by decide) (by decide)).cancel

lemma Abreast.enable : Abreast now adc.enable other.enable := by
  unfold Adc.enable
  rw [h.registers]
  exact h.setRegister _ (by decide) (by decide)

lemma Abreast.ite {c : Prop} [Decidable c] {other' : Adc} (h' : Abreast now adc' other') :
    Abreast now (if c then adc' else adc) (if c then other' else other) := by
  split_ifs
  · exact h'
  · exact h

lemma storeControl_abreast (value : BitVec 32) :
    Agree (Abreast now) (adc.storeControl now value) (other.storeControl now value) := by
  unfold storeControl
  dsimp only
  generalize (if value &&& adcal ≠ 0 then value &&& ~~~adcal else value) = asked
  generalize (if asked &&& addis ≠ 0 then asked &&& ~~~(addis ||| aden ||| adstart) else asked) =
    control
  have hoff := h.ite (c := asked &&& addis ≠ 0) h.disable
  have hon := hoff.ite (c := control &&& aden ≠ 0) hoff.enable
  have hcontrol := hon.setRegister control (by decide : cr ≠ sqr1) (by decide : cr ≠ ier)
  apply ite rfl
  · intro _
    exact startConversion_abreast hcontrol
  · intro _
    exact hcontrol

end

/-- What was there before is put back. -/
lemma setRegister_restore (adc : Adc) (word : Nat) (value : BitVec 32) :
    (adc.setRegister word value).setRegister word (adc.registers word) = adc := by
  unfold setRegister
  simp

/-- One lane of a write. The length of the sequence changes only at its first rank. -/
lemma storeLane_abreast (h : Abreast now adc other) (offset : Nat) (value : BitVec 64)
    (lane : Lane) (hrank : lane.word offset = sqr1 → adc.sequenceRank = 0) :
    Agree (Abreast now) (storeLane now offset value adc lane)
      (storeLane now offset value other lane) := by
  unfold storeLane
  dsimp only
  rw [h.registers]
  generalize lane.merge offset value (adc.registers (lane.word offset)) = merged
  generalize hword : lane.word offset = word at *
  unfold storeRegister
  refine ite ?_ (fun _ => ?_) (fun _ => ite rfl (fun hat => ?_) (fun _ =>
    ite rfl (fun hat => ?_) (fun hier => ite rfl (fun hdr => ?_) (fun _ =>
      ite rfl (fun hcr => ?_) (fun _ => ?_)))))
  · obtain ⟨-, -, k, samples, rfl⟩ := h
    rfl
  · have hback := setRegister_restore other word merged
    rw [h.registers] at hback
    rw [setRegister_restore, hback]
    exact h
  iterate 2
    subst hat
    obtain ⟨hsound, hahead, k, samples, rfl⟩ := h
    refine abreast_registers hsound hahead _ _ _ ?_ ?_
    · exact hsound.rank
    · intro hzero
      exact masked_low hzero _
  · subst hdr
    have hback := setRegister_restore other dr merged
    rw [h.registers] at hback
    rw [setRegister_restore, hback]
    exact h
  · subst hcr
    exact storeControl_abreast (h.setRegister merged (by decide) (by decide)) merged
  · by_cases hsqr : word = sqr1
    · obtain ⟨hsound, hahead, k, samples, rfl⟩ := h
      refine abreast_registers hsound hahead _ _ _ ?_ ?_
      · rw [hrank hsqr]
        exact sequenceLength_pos (adc.setRegister word merged)
      · rw [Function.update_of_ne (Ne.symm hier)]
        exact hsound.masked
    · exact h.setRegister merged hsqr hier

/-! ### The rank during a write -/

lemma refresh_rank (h : adc.refreshConversionScheduling now = .ok adc') :
    adc'.sequenceRank = adc.sequenceRank := by
  obtain ⟨state, event, rfl, -⟩ := refresh_cases h
  rfl

lemma armRank_rank {rank : Nat} (h : adc.armRank now rank = .ok adc') :
    adc'.sequenceRank = adc.sequenceRank := by
  unfold armRank armNextConversion at h
  dsimp only at h
  split_ifs at h
  have hsame := refresh_rank h
  exact hsame

lemma startConversion_rank (h : adc.startConversion now = .ok adc') : adc'.sequenceRank = 0 := by
  unfold startConversion at h
  by_cases hclock : adc.cancelConversion.inputClockHz = 0
  · rw [if_pos hclock] at h
    cases h
    rfl
  · rw [if_neg hclock] at h
    have hsame := armRank_rank h
    exact hsame

lemma storeControl_rank {value : BitVec 32} (h : adc.storeControl now value = .ok adc')
    (hrank : adc.sequenceRank = 0) : adc'.sequenceRank = 0 := by
  unfold storeControl at h
  dsimp only at h
  generalize (if value &&& adcal ≠ 0 then value &&& ~~~adcal else value) = asked at h
  generalize (if asked &&& addis ≠ 0 then asked &&& ~~~(addis ||| aden ||| adstart) else asked) =
    control at h
  split at h
  · exact startConversion_rank h
  cases h
  unfold Adc.setRegister
  split_ifs <;> exact hrank

lemma storeLane_rank {value : BitVec 64} {lane : Lane}
    (h : storeLane now offset value adc lane = .ok adc') (hrank : adc.sequenceRank = 0) :
    adc'.sequenceRank = 0 := by
  unfold storeLane at h
  dsimp only at h
  generalize lane.merge offset value (adc.registers (lane.word offset)) = merged at h
  unfold storeRegister at h
  split at h
  · cases h
    exact hrank
  split at h
  · cases h
    exact hrank
  split at h
  · cases h
    exact hrank
  split at h
  · cases h
    exact hrank
  split at h
  · exact storeControl_rank h hrank
  · cases h
    exact hrank

/-- The first rank is being converted when the write touches the length of the
sequence. -/
def Unshortened (offset : Nat) (size : AccessSize) (adc : Adc) : Prop :=
  (∃ lane ∈ lanes offset (byteCount size), lane.word offset = sqr1) → adc.sequenceRank = 0

lemma caughtUp_clock : (adc.caughtUp now).inputClockHz = adc.inputClockHz := by
  unfold caughtUp
  split
  · split_ifs <;> rfl
  · rfl

lemma caughtUp_rank : (adc.caughtUp now).sequenceRank = adc.sequenceRank := by
  unfold caughtUp
  split
  · split_ifs <;> rfl
  · rfl

lemma refresh_abreast (h : Abreast now adc other) :
    Agree (Level now) (adc.refreshConversionScheduling now)
      (other.refreshConversionScheduling now) := by
  obtain ⟨hsound, hahead, k, samples, rfl⟩ := h
  rcases hsound.armed with ⟨hs, hn, he⟩ | ⟨n, hs, hn, he⟩ | ⟨n, hs, hn, he⟩
  · have hs' : (adc.withEvents k samples).conversionState = .idle ∨
        (adc.withEvents k samples).conversionState = .suspended := by
      rcases hs with hs | hs <;> simp [withEvents, dressed, hs]
    rw [refresh_resting hs, refresh_resting hs']
    exact resting_level hsound.toSteady hs hn he
  · refine refresh_level hsound.toSteady ⟨_, _, _, _, rfl⟩ (hsound.clocked (by simp [hn]))
      ⟨.inl hs, hn, .inr he⟩ ⟨.inl ?_, hn, .inr ?_⟩ (hahead n hn)
    · simp [withEvents, dressed, hs]
    · simp [withEvents, dressed, hs, he]
  · refine refresh_level hsound.toSteady ⟨_, _, _, _, rfl⟩ (hsound.clocked (by simp [hn]))
      ⟨.inr hs, hn, .inl he⟩ ⟨.inl ?_, hn, .inr ?_⟩ (hahead n hn)
    · simp [withEvents, dressed, hs]
    · simp [withEvents, dressed, hs, hn]

lemma write_alongside (h : Behind now adc other) (hroom : adc.Room now) {size : AccessSize}
    (value : BitVec 64) (hlength : Unshortened offset size adc) :
    Agree (Alongside now) (adc.write now offset size value)
      (other.write now offset size value) := by
  unfold write
  apply Agree.bind (synchronize_level h hroom)
  intro synced synced' hsynced hlevel
  rw [synchronize_caughtUp h.sound h.fitting hroom, Except.ok.injEq] at hsynced
  apply ite rfl
  · intro _
    exact ⟨rfl, hlevel.behind⟩
  · intro _
    -- The lanes keep the two abreast, and keep the first rank.
    let Kept := fun a b : Adc => Abreast now a b ∧ Unshortened offset size a
    have hstart : Kept synced synced' := by
      refine ⟨hlevel.toAbreast, ?_⟩
      intro htouch
      rw [← hsynced, caughtUp_rank]
      exact hlength htouch
    have hlanes : Agree Kept
        ((lanes offset (byteCount size)).foldlM (storeLane now offset value) synced)
        ((lanes offset (byteCount size)).foldlM (storeLane now offset value) synced') := by
      apply Agree.foldlM _ hstart
      intro lane hlane a b hkept
      have hstored := storeLane_abreast hkept.1 offset value lane
        fun hword => hkept.2 ⟨lane, hlane, hword⟩
      apply hstored.mono
      intro a' b' ha' hab
      exact ⟨hab, fun htouch => storeLane_rank ha' (hkept.2 htouch)⟩
    apply Agree.bind hlanes
    intro a b _ hkept
    apply Agree.bind (refresh_abreast hkept.1)
    intro a' b' _ hend
    exact ⟨rfl, hend.behind⟩

/-! ## The clock -/

lemma not_gap (h : Sound adc) : adc.conversionIsGap = false := by
  rcases h.armed with ⟨hs | hs, -, -⟩ | ⟨n, hs, -, -⟩ | ⟨n, hs, -, -⟩ <;>
    simp [conversionIsGap, hs]

lemma withEvents_not_gap {k : Nat} (h : Sound adc) :
    (adc.withEvents k samples).conversionIsGap = false := by
  rcases h.armed with ⟨hs | hs, -, -⟩ | ⟨n, hs, -, -⟩ | ⟨n, hs, -, -⟩ <;>
    simp [conversionIsGap, withEvents, dressed, hs]

lemma hold_level (h : Level now adc other) :
    Agree (fun a b => Level now a.stopClock b.stopClock) (adc.holdProgress now)
      (other.holdProgress now) := by
  obtain ⟨⟨hsound, -, k, samples, rfl⟩, -⟩ := h
  have hgap : (adc.withEvents k samples).conversionIsGap = false := withEvents_not_gap hsound
  have hsteady : ∀ state cycles override, Steady (stopClock { adc with
      conversionState := state
      suspendedConversionCycles := cycles
      suspendedOverrideNs := override }) :=
    fun _ _ _ => ⟨hsound.decimation, hsound.rank, hsound.kept, hsound.masked⟩
  unfold holdProgress
  rw [not_gap hsound, hgap]
  rcases hn : adc.nextConversionNs with _ | n
  · rw [show (adc.withEvents k samples).nextConversionNs = none from hn]
    exact resting_level (k := k) (hsteady .idle _ _) (.inl rfl) rfl rfl
  rw [show (adc.withEvents k samples).nextConversionNs = some n from hn]
  refine ite rfl (fun _ => ?_) (fun _ => ite rfl (fun _ => rfl) (fun _ => ?_))
  · exact resting_level (k := k) (hsteady .suspended _ _) (.inr rfl) rfl rfl
  · exact resting_level (k := k) (hsteady .suspended _ _) (.inr rfl) rfl rfl

lemma delayAt_pos (product hz : Nat) : 0 < delayAt product hz := by
  unfold delayAt
  omega

lemma rescheduledTime_later {nextHz t : Nat} (h : adc.rescheduledTime now nextHz = .ok (some t)) :
    now < t := by
  unfold rescheduledTime at h
  dsimp only at h
  split at h
  · split_ifs at h
    cases h
    omega
  split at h
  · have := delayAt_pos adc.suspendedConversionCycles nextHz
    split_ifs at h
    cases h
    omega
  rcases hn : adc.nextConversionNs with _ | n
  · rw [hn] at h
    cases h
  rw [hn] at h
  have := delayAt_pos ((n - now) * adc.inputClockHz) nextHz
  dsimp only at h
  split_ifs at h
  · cases h
  · cases h
    omega

/-- Both at the new rate, with an event for neither. -/
lemma withClock_event (h : Sound adc) (nextHz : Nat) (rescheduled : Option Nat) :
    (adc.withClock nextHz rescheduled).conversionEvent = none := by
  unfold withClock
  rcases h.armed with ⟨hs | hs, -, he⟩ | ⟨n, hs, -, he⟩ | ⟨n, hs, -, he⟩ <;>
    cases rescheduled <;> simp [conversionEventArmed, hs, he]

lemma withClock_withEvents {k : Nat} (h : Sound adc) (nextHz : Nat)
    (rescheduled : Option Nat) :
    (adc.withEvents k samples).withClock nextHz rescheduled =
      ((adc.withClock nextHz rescheduled).dressed k samples
        (if rescheduled.isSome then .scheduled
          else if adc.conversionState = .lazy then .scheduled else adc.conversionState) none) := by
  unfold withClock
  rcases h.armed with ⟨hs | hs, -, he⟩ | ⟨n, hs, -, he⟩ | ⟨n, hs, -, he⟩ <;>
    cases rescheduled <;> simp [conversionEventArmed, conversionIsGap, withEvents, dressed, hs, he]

lemma beginHeld_armed (h : adc.nextConversionNs ≠ none) : adc.beginHeld now = adc := by
  unfold beginHeld
  simp [h]

lemma beginHeld_waiting (h : ¬ (adc.started ∧
    adc.conversionDelayForRank adc.sequenceRank ≤ simTimeMax - now)) : adc.beginHeld now = adc := by
  unfold beginHeld
  rw [if_neg]
  simp only [Bool.and_eq_true, decide_eq_true_eq, not_and] at *
  exact fun hall => h hall.2

lemma beginHeld_begins (hn : adc.nextConversionNs = none) (h : adc.started ∧
    adc.conversionDelayForRank adc.sequenceRank ≤ simTimeMax - now) :
    adc.beginHeld now = { adc with
      nextConversionNs := some (now + adc.conversionDelayForRank adc.sequenceRank)
      conversionState := .scheduled } := by
  unfold beginHeld
  simp [hn, h.1, h.2]

/-- A converter at rest begins what was asked for, or stays at rest. -/
lemma beginHeld_level {k : Nat} (hsteady : Steady adc)
    (hclock : adc.inputClockHz ≠ 0)
    (hs : adc.conversionState = .idle ∨ adc.conversionState = .suspended)
    (hn : adc.nextConversionNs = none) (he : adc.conversionEvent = none) :
    Agree (Level now)
      (if (adc.beginHeld now).nextConversionNs.isSome then
        (adc.beginHeld now).refreshConversionScheduling now else .ok (adc.beginHeld now))
      (if ((adc.withEvents k samples).beginHeld now).nextConversionNs.isSome then
        ((adc.withEvents k samples).beginHeld now).refreshConversionScheduling now
        else .ok ((adc.withEvents k samples).beginHeld now)) := by
  have hn' : (adc.withEvents k samples).nextConversionNs = none := hn
  by_cases hbegin : adc.started ∧ adc.conversionDelayForRank adc.sequenceRank ≤ simTimeMax - now
  · have hdelay := adc.delay_pos adc.sequenceRank
    have hevent : (adc.withEvents k samples).conversionEvent = none := by
      rcases hs with hs | hs <;> simp [withEvents, dressed, hs, he]
    rw [beginHeld_begins hn hbegin, beginHeld_begins hn' hbegin, if_pos (by simp), if_pos (by simp)]
    refine refresh_level ?_ ⟨k, samples, _, _, rfl⟩ hclock ⟨.inl rfl, rfl, .inl he⟩
      ⟨.inl rfl, rfl, .inl hevent⟩ (by omega)
    exact ⟨hsteady.decimation, hsteady.rank, hsteady.kept, hsteady.masked⟩
  · have hwait : (adc.withEvents k samples).beginHeld now = adc.withEvents k samples :=
      beginHeld_waiting hbegin
    rw [beginHeld_waiting hbegin, hwait, if_neg (by simp [hn]), if_neg (by simp [hn'])]
    exact resting_level hsteady hs hn he

lemma changeClock_level (h : Level now adc other) {nextHz : Nat} (hhz : nextHz ≠ 0) :
    Agree (Level now) (adc.changeClock now nextHz) (other.changeClock now nextHz) := by
  obtain ⟨⟨hsound, hahead, k, samples, rfl⟩, hfit⟩ := h
  unfold changeClock
  apply Agree.bind (refl (adc.rescheduledTime now nextHz))
  rintro rescheduled _ hrescheduled rfl
  rw [withClock_withEvents hsound]
  have hevent := withClock_event hsound nextHz rescheduled
  have hsteady : Steady (adc.withClock nextHz rescheduled) := by
    unfold withClock
    cases rescheduled <;>
      exact ⟨hsound.decimation, hsound.rank, hsound.kept, hsound.masked⟩
  have hclock : (adc.withClock nextHz rescheduled).inputClockHz ≠ 0 := by
    unfold withClock
    cases rescheduled <;> exact hhz
  cases rescheduled with
  | some t =>
    -- The rest of the conversion was worked out anew.
    rw [beginHeld_armed (by simp [withClock]), beginHeld_armed (by simp [withClock, dressed]),
      if_pos (by simp), if_pos (by simp)]
    refine refresh_level hsteady ⟨k, samples, _, _, rfl⟩ hclock ⟨.inl ?_, rfl, .inl hevent⟩
      ⟨.inl rfl, rfl, .inl rfl⟩ (rescheduledTime_later hrescheduled)
    simp [withClock, not_gap hsound]
  | none =>
    rcases hsound.armed with ⟨hs, hn, he⟩ | ⟨n, hs, hn, he⟩ | ⟨n, hs, hn, he⟩
    · have hlazy : adc.conversionState ≠ .lazy := by rcases hs with hs | hs <;> simp [hs]
      have hunarmed : adc.conversionEventArmed = false := by
        rcases hs with hs | hs <;> simp [conversionEventArmed, hs]
      have hunarmed' : (adc.withEvents k samples).conversionEventArmed = false := by
        rcases hs with hs | hs <;> simp [conversionEventArmed, withEvents, dressed, hs]
      have hsame : (adc.withClock nextHz none).dressed k samples adc.conversionState none =
          (adc.withClock nextHz none).withEvents k samples := by
        have hs' : (adc.withClock nextHz none).conversionState = adc.conversionState := rfl
        simp [withEvents, hs', hlazy, hevent]
      simp [hunarmed, hunarmed', if_neg hlazy, hsame]
      exact beginHeld_level hsteady hclock hs hn hevent
    all_goals
      have hn' : (adc.withClock nextHz none).nextConversionNs = some n := hn
      rw [beginHeld_armed (by simp [hn']), beginHeld_armed (by simp [dressed, hn']),
        if_pos (by simp [hn']), if_pos (by simp [dressed, hn'])]
      refine refresh_level hsteady ⟨k, samples, _, _, rfl⟩ hclock
        ⟨by simp [withClock, hs], hn, .inl hevent⟩
        ⟨.inl ?_, hn, .inl rfl⟩ (hahead n hn)
      simp [dressed, hs]

section

variable (h : Behind now adc other) (hroom : adc.Room now)
include h hroom

lemma setInputClockHz_behind (frequencyHz : Nat) :
    Agree (Behind now) (adc.setInputClockHz now frequencyHz)
      (other.setInputClockHz now frequencyHz) := by
  have hsame : other.inputClockHz = adc.inputClockHz := by
    obtain ⟨k, samples, rfl⟩ := h.same
    exact caughtUp_clock
  unfold setInputClockHz
  rw [hsame]
  apply ite rfl
  · intro _
    exact h
  · intro _
    apply Agree.bind (synchronize_level h hroom)
    intro synced synced' _ hlevel
    apply ite rfl
    · intro _
      apply Agree.bind (hold_level hlevel)
      intro a b _ hheld
      exact hheld.behind
    · intro hhz
      apply (changeClock_level hlevel hhz).mono
      intro _ _ _ hchanged
      exact hchanged.behind

/-! ## Channel values and resets -/

lemma setChannelValue_behind (channel : Nat)
    (value : BitVec 16) :
    Agree (Behind now) (adc.setChannelValue now channel value)
      (other.setChannelValue now channel value) := by
  unfold setChannelValue
  apply Agree.bind (synchronize_level h hroom)
  intro synced synced' _ hlevel
  apply ite rfl
  · intro _
    apply Level.behind
    obtain ⟨⟨hsound, hahead, k, samples, rfl⟩, hfit⟩ := hlevel
    refine ⟨⟨⟨⟨hsound.decimation, hsound.rank, hsound.kept, hsound.masked⟩, ?_, hsound.clocked⟩,
      hahead, k, samples, rfl⟩, hfit⟩
    rcases hsound.armed with ⟨hs, hn, he⟩ | ⟨n, hs, hn, he⟩ | ⟨n, hs, hn, he⟩
    · exact .resting hs hn he
    · exact .scheduled n hs hn he
    · exact .lazy n hs hn he
  · intro _
    exact hlevel.behind

end

lemma caughtUp_reset : (adc.caughtUp now).reset = adc.reset := by
  unfold caughtUp
  split
  · split_ifs <;> rfl
  · rfl

lemma reset_level (h : Behind now adc other) : Level now adc.reset other.reset := by
  obtain ⟨k, samples, rfl⟩ := h.same
  have hsame : ((adc.caughtUp now).withEvents k samples).reset = adc.reset.withEvents 0 [] := by
    change (adc.caughtUp now).reset.withEvents 0 [] = _
    rw [caughtUp_reset]
  rw [hsame]
  apply resting_level
  · exact ⟨h.sound.decimation, sequenceLength_pos _, rfl, fun _ => rfl⟩
  · exact .inl rfl
  · rfl
  · rfl

lemma caughtUp_resetHeld (held : Bool) :
    { adc with resetHeld := held }.caughtUp now = { adc.caughtUp now with resetHeld := held } := by
  unfold caughtUp
  dsimp only
  split
  · split_ifs <;> rfl
  · rfl

lemma Behind.withResetHeld (h : Behind now adc other) (held : Bool) :
    Behind now { adc with resetHeld := held } { other with resetHeld := held } := by
  refine ⟨⟨⟨h.sound.decimation, h.sound.rank, h.sound.kept, h.sound.masked⟩, ?_, h.sound.clocked⟩,
    h.fitting, ?_, ?_⟩
  · rcases h.sound.armed with ⟨hs, hn, he⟩ | ⟨n, hs, hn, he⟩ | ⟨n, hs, hn, he⟩
    · exact .resting hs hn he
    · exact .scheduled n hs hn he
    · exact .lazy n hs hn he
  · rw [caughtUp_resetHeld]
    exact h.ahead
  · obtain ⟨k, samples, rfl⟩ := h.same
    have hsame : { adc with resetHeld := held }.caughtUp now = _ := caughtUp_resetHeld held
    rw [hsame]
    exact ⟨k, samples, rfl⟩

lemma caughtUp_held : (adc.caughtUp now).resetHeld = adc.resetHeld := by
  unfold caughtUp
  split
  · split_ifs <;> rfl
  · rfl

lemma setResetHeld_behind (h : Behind now adc other) (asserted : Bool) :
    Behind now (adc.setResetHeld asserted) (other.setResetHeld asserted) := by
  have hsame : other.resetHeld = adc.resetHeld := by
    obtain ⟨k, samples, rfl⟩ := h.same
    exact caughtUp_held
  unfold setResetHeld
  rw [hsame]
  by_cases hheld : adc.resetHeld = asserted
  · rw [if_pos hheld, if_pos hheld]
    exact h
  rw [if_neg hheld, if_neg hheld]
  have hmoved := h.withResetHeld asserted
  cases asserted
  · exact hmoved
  · exact (reset_level hmoved).behind

/-! ## Runs -/

/-- Whether an operation leaves the sequence its later ranks, and comes while the
clock can still show the end of the next conversion. -/
def suits (adc : Adc) (now : Nat) (op : Op) : Bool :=
  (adc.conversionState ≠ .lazy || adc.conversionDelayForRank 0 + now ≤ simTimeMax) &&
    match op with
    | .write offset size _ =>
      adc.sequenceRank = 0 ||
        (lanes offset (byteCount size)).all fun lane => lane.word offset ≠ sqr1
    | _ => true

/-- Whether every operation of a run suits the converter that it meets. -/
def covered (adc : Adc) (now : Nat) : List (Nat × Op) → Bool
  | [] => true
  | (wait, op) :: rest =>
    match adc.dispatch (now + wait) with
    | .error _ => true
    | .ok met =>
      met.suits (now + wait) op &&
        match met.perform (now + wait) op with
        | .error _ => true
        | .ok (_, next) => next.covered (now + wait) rest

lemma room_of_suits {op : Op} (h : adc.suits now op) : adc.Room now := by
  intro hstate
  simp [suits, hstate] at h
  exact h.1

lemma unshortened_of_suits {size : AccessSize} {value : BitVec 64}
    (h : adc.suits now (.write offset size value)) : Unshortened offset size adc := by
  rintro ⟨lane, hlane, hword⟩
  simp only [suits, Bool.and_eq_true, Bool.or_eq_true, decide_eq_true_eq, List.all_eq_true] at h
  rcases h.2 with hrank | hall
  · exact hrank
  · exact absurd hword (hall lane hlane)

lemma perform_alongside (h : Behind now adc other) {op : Op} (hsuits : adc.suits now op) :
    Agree (Alongside now) (adc.perform now op) (other.perform now op) := by
  have hroom := room_of_suits hsuits
  cases op with
  | read offset size => exact read_alongside h hroom offset size
  | write offset size value =>
    exact write_alongside h hroom value (unshortened_of_suits hsuits)
  | setInputClockHz frequencyHz =>
    apply Agree.bind (setInputClockHz_behind h hroom frequencyHz)
    intro a b _ hbehind
    exact ⟨rfl, hbehind⟩
  | setChannelValue channel value =>
    apply Agree.bind (setChannelValue_behind h hroom channel value)
    intro a b _ hbehind
    exact ⟨rfl, hbehind⟩
  | setResetHeld asserted => exact ⟨rfl, setResetHeld_behind h asserted⟩

/-- What is seen of the two from outside is the same. -/
lemma Behind.seen (h : Behind now adc other) :
    adc.interruptLevel = other.interruptLevel ∧ adc.signals = other.signals := by
  obtain ⟨k, samples, rfl⟩ := h.same
  unfold caughtUp
  split
  · split_ifs <;> exact ⟨rfl, rfl⟩
  · exact ⟨rfl, rfl⟩

lemma answers_eq {start : Nat} (h : Behind start adc other) (ops : List (Nat × Op))
    (hcovered : adc.covered start ops) : adc.answers start ops = other.answers start ops := by
  induction ops generalizing adc other start with
  | nil => rfl
  | cons op ops ih =>
    obtain ⟨wait, op⟩ := op
    unfold covered at hcovered
    unfold answers step
    have hroom : ∀ met, adc.dispatch (start + wait) = .ok met → met.Room (start + wait) := by
      intro met hmet
      rw [hmet] at hcovered
      simp only [Bool.and_eq_true] at hcovered
      exact room_of_suits hcovered.1
    rcases (dispatch_behind h (Nat.le_add_right start wait) hroom).cases_on with
      ⟨e, hmet, hmet'⟩ | ⟨met, met', hmet, hmet', hbehind⟩
    · rw [hmet, hmet']
    · rw [hmet] at hcovered ⊢
      rw [hmet']
      simp only [Bool.and_eq_true] at hcovered
      rcases (perform_alongside hbehind hcovered.1).cases_on with
        ⟨e, hdone, hdone'⟩ | ⟨⟨reply, next⟩, ⟨reply', next'⟩, hdone, hdone', hreply, hnext⟩
      · simp only [bind, Except.bind, hdone, hdone']
      · obtain rfl : reply = reply' := hreply
        have hnext : Behind (start + wait) next next' := hnext
        obtain ⟨hlevel, hsignals⟩ := hnext.seen
        simp only [hdone] at hcovered
        simp only [bind, Except.bind, hdone, hdone', pure, Except.pure, hlevel, hsignals,
          ih hnext hcovered.2]

/-- **A converter without decimation answers as if every conversion had its
event.** Whatever is read, written and done to its clock, and whenever, the
replies, the interrupt line and all that it tells others are those of the same
converter with an event for each conversion. A sequence must not be cut short
while a later rank is converted, and the clock must have room for the next
conversion. -/
theorem lazy_conversions_answer_as_with_events (setup : AdcSetup)
    (hdecimation : setup.decimation ≤ 1) (start : Nat) (ops : List (Nat × Op))
    (hcovered : (fresh setup).covered start ops) :
    (fresh setup).answers start ops = (fresh setup.keepHistory).answers start ops := by
  have hlevel : Level start (fresh setup) ((fresh setup).withEvents 0 []) :=
    resting_level ⟨hdecimation, sequenceLength_pos _, rfl, fun _ => rfl⟩ (.inl rfl) rfl rfl
  exact answers_eq hlevel.behind ops hcovered

/-- A converter whose readings tell the channel and the time, and which nobody
watches. -/
def clockReader (decimation : Nat) (delay : BitVec 64) : AdcSetup where
  channelProvider := some fun channel time => BitVec.ofNat 16 (0x100 * channel + time)
  sampleHistoryEnabled := false
  conversionDelayOverrideNs := delay
  decimation

/-- Continuous conversion is turned on and started. -/
def startUp : List (Nat × Op) := [(0, .write 0x0c .word 0x2000), (0, .write 0x08 .word 0x5)]

/-- Conversions end at 10, 20, 30 and so on. A read at 25 gets what the second
one found. -/
theorem a_late_read_gets_the_latest_conversion :
    ((fresh (clockReader 1 10)).answers 0 (startUp ++ [(25, .read 0x40 .word)])).getLast? =
      some (.ok ⟨.value 20, false, []⟩) ∧
    (fresh (clockReader 1 10)).answers 0 (startUp ++ [(25, .read 0x40 .word)]) =
      (fresh (clockReader 1 10).keepHistory).answers 0 (startUp ++ [(25, .read 0x40 .word)]) := by
  refine ⟨by decide +kernel, ?_⟩
  exact lazy_conversions_answer_as_with_events _ (by decide) 0 _ (by decide +kernel)

/-- With every second scan skipped, the read at 25 gets the scan at 20, which
should have been skipped. Without decimation, a sequence of the channels 1 and 2
that is cut to its first rank while the second is converted stays on channel 2.
And a conversion after which the clock has no room is there to be read, where
its event would have failed. -/
theorem a_lazy_converter_keeps_a_skipped_scan :
    ((fresh (clockReader 2 10)).answers 0 (startUp ++ [(25, .read 0x40 .word)])).getLast? =
      some (.ok ⟨.value 20, false, []⟩) ∧
    ((fresh (clockReader 2 10).keepHistory).answers 0
        (startUp ++ [(25, .read 0x40 .word)])).getLast? = some (.ok ⟨.value 10, false, []⟩) ∧
    ((fresh (clockReader 1 10)).answers 0 ((0, .write 0x30 .word 0x2041) :: startUp ++
        [(15, .write 0x30 .word 0x2040), (20, .read 0x40 .word)])).getLast? =
      some (.ok ⟨.value 0x21e, false, []⟩) ∧
    ((fresh (clockReader 1 10).keepHistory).answers 0 ((0, .write 0x30 .word 0x2041) :: startUp ++
        [(15, .write 0x30 .word 0x2040), (20, .read 0x40 .word)])).getLast? =
      some (.ok ⟨.value 0x11e, false, []⟩) ∧
    ((fresh (clockReader 1 (2 ^ 63))).answers 0
        (startUp ++ [(2 ^ 63, .read 0x40 .word)])).getLast? = some (.ok ⟨.value 0, false, []⟩) ∧
    ((fresh (clockReader 1 (2 ^ 63)).keepHistory).answers 0
        (startUp ++ [(2 ^ 63, .read 0x40 .word)])).getLast? =
      some (.error "ADC conversion time overflow") := by
  decide +kernel

end Adc

end Fil.Stm32g4
