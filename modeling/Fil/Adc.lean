-- The analog converters of the chip. A conversion that somebody watches ends
-- with an event. A continuous conversion of one channel that nobody watches
-- has no event: the next access works out which conversion was the latest.
-- With decimation, only one of every few scans is kept.
import Fil.Alarm
import Fil.Peripheral

namespace Fil.Stm32g4

open Fil.Mem

/-- The last time that the clock of the simulation can show. -/
def simTimeMax : Nat := 2 ^ 64 - 1

/-! ## The state of a converter -/

structure AdcSample where
  timeNs : Nat
  channel : Nat
  value : BitVec 16
  deriving DecidableEq

/-- What the conversion engine is doing. -/
inductive ConversionState
  /-- No conversion is armed or held. -/
  | idle
  /-- A conversion is armed and has its event. -/
  | scheduled
  /-- A conversion is armed without an event. -/
  | lazy
  /-- An event ends a run of skipped scans. -/
  | skippedGap
  /-- A run of skipped scans without an event. -/
  | lazyGap
  /-- The clock stopped during a conversion. -/
  | suspended
  /-- The clock stopped during a run of skipped scans. -/
  | suspendedGap
  deriving DecidableEq

/-- What the event of a converter calls. -/
inductive ConversionThunk
  | conversion
  | skippedScan
  deriving DecidableEq

/-- What a converter tells the rest of the chip. -/
inductive AdcSignal
  | level (asserted : Bool)
  | sample (sample : AdcSample)
  | interrupt
  deriving DecidableEq

/-- What is attached to a converter and how it is set up. -/
structure AdcSetup where
  channelProvider : Option (Nat → Nat → BitVec 16) := none
  sampleCallback : Bool := false
  interruptCallback : Bool := false
  traceEnabled : Bool := false
  sampleHistoryEnabled : Bool := true
  conversionDelayOverrideNs : BitVec 64 := 0
  decimation : Nat := 1

structure Adc where
  setup : AdcSetup
  registers : Nat → BitVec 32
  interruptLevel : Bool
  /-- All that was told so far, in order. -/
  signals : List AdcSignal
  channelValues : Nat → BitVec 16
  channelOverrides : Nat → Bool
  inputClockHz : Nat
  resetHeld : Bool
  sequenceRank : Nat
  scanIndex : Nat
  skipScan : Bool
  skippedScanCount : Nat
  conversionState : ConversionState
  conversionEvent : Option (Nat × ConversionThunk)
  nextConversionNs : Option Nat
  suspendedConversionCycles : Nat
  suspendedOverrideNs : Nat
  samples : List AdcSample

namespace Adc

def isr : Nat := 0x00
def ier : Nat := 0x04
def cr : Nat := 0x08
def cfgr : Nat := 0x0c
def smpr1 : Nat := 0x14
def smpr2 : Nat := 0x18
def sqr1 : Nat := 0x30
def sqr2 : Nat := 0x34
def sqr3 : Nat := 0x38
def sqr4 : Nat := 0x3c
def dr : Nat := 0x40

def blockSize : Nat := 0x50

def adrdy : BitVec 32 := 1#32 <<< 0
def eoc : BitVec 32 := 1#32 <<< 2
def eos : BitVec 32 := 1#32 <<< 3
def aden : BitVec 32 := 1#32 <<< 0
def addis : BitVec 32 := 1#32 <<< 1
def adstart : BitVec 32 := 1#32 <<< 2
def adcal : BitVec 32 := 1#32 <<< 31
def continuous : BitVec 32 := 1#32 <<< 13

/-- A converter as it is built. -/
def fresh (setup : AdcSetup) : Adc where
  setup
  registers := fun _ => 0
  interruptLevel := false
  signals := []
  channelValues := fun _ => 0
  channelOverrides := fun _ => false
  inputClockHz := 16000000
  resetHeld := false
  sequenceRank := 0
  scanIndex := 0
  skipScan := false
  skippedScanCount := 0
  conversionState := .idle
  conversionEvent := none
  nextConversionNs := none
  suspendedConversionCycles := 0
  suspendedOverrideNs := 0
  samples := []

variable (adc : Adc)

def setRegister (offset : Nat) (value : BitVec 32) : Adc :=
  { adc with registers := Function.update adc.registers offset value }

def setInterruptLevel (asserted : Bool) : Adc :=
  { adc with
    interruptLevel := asserted
    -- Only a change is told.
    signals :=
      if adc.interruptLevel = asserted then adc.signals else adc.signals ++ [.level asserted] }

/-- The interrupt line follows the flags that are enabled. -/
def updateInterruptLevel : Adc :=
  adc.setInterruptLevel (adc.registers ier &&& adc.registers isr &&& (eoc ||| eos) ≠ 0)

/-! ## The sequence and its timing -/

/-- The number of ranks that a value of the first sequence register asks for. -/
def lengthOf (value : BitVec 32) : Nat := min ((value &&& 0x0f).toNat + 1) 16

def sequenceLength : Nat := lengthOf (adc.registers sqr1)

def channelForRank (rank : Nat) : Nat :=
  let (sequenceRegister, shift) :=
    if 14 ≤ rank then (sqr4, 6 * (rank - 14))
    else if 9 ≤ rank then (sqr3, 6 * (rank - 9))
    else if 4 ≤ rank then (sqr2, 6 * (rank - 4))
    else (sqr1, 6 + 6 * rank)
  let channel := ((adc.registers sequenceRegister >>> shift) &&& 0x1f).toNat
  if channel < 20 then channel else 0

def sampleHalfCycles : List Nat := [5, 13, 25, 49, 95, 185, 495, 1281]

def conversionHalfCycles : List Nat := [25, 21, 17, 13]

def conversionCycleBudget (rank : Nat) : Nat :=
  let channel := adc.channelForRank rank
  let sampleRegister := if channel ≤ 9 then smpr1 else smpr2
  let sampleShift := 3 * (if channel ≤ 9 then channel else channel - 10)
  let sampleSelector := ((adc.registers sampleRegister >>> sampleShift) &&& 0x7).toNat
  let resolution := ((adc.registers cfgr >>> 3) &&& 0x3).toNat
  -- The extra clock of SMPPLUS is only for the shortest sample time.
  let samplePlus :=
    if sampleSelector = 0 then ((adc.registers smpr1 >>> 31) &&& 1).toNat * 2 else 0
  let halfCycles :=
    sampleHalfCycles.getD sampleSelector 0 + conversionHalfCycles.getD resolution 0 + samplePlus
  halfCycles * 500000000

def conversionDelayForRank (rank : Nat) : Nat :=
  if adc.setup.conversionDelayOverrideNs ≠ 0 then adc.setup.conversionDelayOverrideNs.toNat
  else if adc.inputClockHz = 0 then simTimeMax
  else max ((adc.conversionCycleBudget rank + adc.inputClockHz - 1) / adc.inputClockHz) 1

/-! ## Whether a conversion needs an event -/

def continuousMode : Bool := adc.registers cfgr &&& continuous ≠ 0

def started : Bool := adc.registers cr &&& adstart ≠ 0

def conversionObservable : Bool :=
  adc.registers ier &&& (eoc ||| eos) ≠ 0 || adc.setup.sampleCallback || adc.setup.traceEnabled
    || adc.setup.sampleHistoryEnabled

def lazyConversionEligible : Bool :=
  adc.sequenceLength = 1 && adc.continuousMode && adc.started && !adc.conversionObservable

def conversionEventArmed : Bool :=
  adc.conversionState = .scheduled || adc.conversionState = .skippedGap

def conversionIsGap : Bool :=
  adc.conversionState = .skippedGap || adc.conversionState = .lazyGap
    || adc.conversionState = .suspendedGap

/-- The event loop takes no event for a time that has passed. -/
def scheduleAt (now t : Nat) (thunk : ConversionThunk) : Except String Adc :=
  if t < now then .error "cannot schedule a simulation event in the past"
  else .ok { adc with conversionEvent := some (t, thunk) }

def scheduleConversionEvent (now : Nat) : Except String Adc :=
  match adc.nextConversionNs, adc.conversionState with
  | some t, .skippedGap => adc.scheduleAt now t .skippedScan
  | some t, .scheduled => adc.scheduleAt now t .conversion
  | _, _ => .ok adc

def refreshConversionScheduling (now : Nat) : Except String Adc :=
  match adc.conversionState, adc.nextConversionNs with
  | .idle, _ | .suspended, _ | .suspendedGap, _ | _, none => .ok adc
  | _, some _ =>
    let gap := adc.conversionIsGap
    if adc.lazyConversionEligible then
      .ok { adc with conversionEvent := none, conversionState := if gap then .lazyGap else .lazy }
    else
      let adc := { adc with conversionState := if gap then .skippedGap else .scheduled }
      if adc.conversionEvent.isNone then adc.scheduleConversionEvent now else .ok adc

def armNextConversion (now completionTime : Nat) : Except String Adc :=
  { adc with
    nextConversionNs := some completionTime
    conversionState := .scheduled }.refreshConversionScheduling now

def cancelConversion : Adc :=
  { adc with
    conversionEvent := none
    suspendedConversionCycles := 0
    suspendedOverrideNs := 0
    nextConversionNs := none
    skippedScanCount := 0
    conversionState := .idle }

/-! ## Conversions -/

def channelReading (channel time : Nat) : BitVec 16 :=
  match adc.setup.channelProvider with
  | none => adc.channelValues channel
  | some provider =>
    if adc.channelOverrides channel then adc.channelValues channel else provider channel time

/-- Hands a sample to those who watch. -/
def publish (sample : AdcSample) : Adc :=
  { adc with
    samples := if adc.setup.sampleHistoryEnabled then adc.samples ++ [sample] else adc.samples
    signals := adc.signals ++ (if adc.setup.sampleCallback then [.sample sample] else []) ++
      (if adc.setup.interruptCallback && adc.registers ier &&& (eoc ||| eos) ≠ 0 then [.interrupt]
        else []) }

def materializeConversion (completionTime : Nat) (observable : Bool) : Adc :=
  let channel := adc.channelForRank adc.sequenceRank
  let value := adc.channelReading channel completionTime
  let adc := adc.setRegister dr (value.setWidth 32)
  let sequenceComplete := adc.sequenceLength ≤ adc.sequenceRank + 1
  let adc := adc.setRegister isr
    (adc.registers isr ||| eoc ||| (if sequenceComplete then eos else 0))
  let adc := adc.updateInterruptLevel
  if observable then adc.publish ⟨completionTime, channel, value⟩ else adc

/-- The time that all ranks take, if the clock can show it. -/
def scanPeriod : Option Nat :=
  (List.range adc.sequenceLength).foldlM
    (fun period rank =>
      let delay := adc.conversionDelayForRank rank
      if delay ≤ simTimeMax - period then some (period + delay) else none) 0

def armSkippedScans (now count : Nat) : Except String Adc :=
  match adc.scanPeriod with
  | some period =>
    if 0 < count && 0 < period && count ≤ simTimeMax / period
        && count * period ≤ simTimeMax - now then
      { adc with
        nextConversionNs := some (now + count * period)
        conversionState := .skippedGap
        skippedScanCount := count }.refreshConversionScheduling now
    else adc.armNextConversion now ((now + adc.conversionDelayForRank 0) % 2 ^ 64)
  | none => adc.armNextConversion now ((now + adc.conversionDelayForRank 0) % 2 ^ 64)

/-- Arms a conversion that takes as long as one of the rank. -/
def armRank (now rank : Nat) : Except String Adc :=
  let delay := adc.conversionDelayForRank rank
  if simTimeMax - now < delay then .error "ADC conversion time overflow"
  else adc.armNextConversion now (now + delay)

def beginNextScan (now : Nat) : Except String Adc :=
  let adc := { adc with sequenceRank := 0 }
  if !adc.continuousMode || !adc.started then
    .ok { adc.setRegister cr (adc.registers cr &&& ~~~adstart) with conversionState := .idle }
  else if adc.inputClockHz = 0 then .ok { adc with conversionState := .idle }
  else
    let upcoming := adc.scanIndex % adc.setup.decimation
    -- One event jumps over all scans up to the next one that is kept.
    if 1 < adc.setup.decimation && upcoming ≠ 0 then
      { adc with skipScan := true }.armSkippedScans now (adc.setup.decimation - upcoming)
    else { adc with skipScan := false }.armRank now 0

def startConversion (now : Nat) : Except String Adc :=
  let adc := { adc.cancelConversion with sequenceRank := 0, scanIndex := 0, skipScan := false }
  if adc.inputClockHz = 0 then
    let override := adc.setup.conversionDelayOverrideNs
    .ok { adc with
      suspendedOverrideNs := if override ≠ 0 then override.toNat else adc.suspendedOverrideNs
      suspendedConversionCycles :=
        if override ≠ 0 then adc.suspendedConversionCycles
        else adc.conversionCycleBudget adc.sequenceRank
      conversionState := .suspended }
  else adc.armRank now adc.sequenceRank

def decimated : Bool := adc.continuousMode && 1 < adc.setup.decimation

def markScan : Adc :=
  if adc.decimated && adc.sequenceRank = 0 then
    { adc with skipScan := adc.scanIndex % adc.setup.decimation ≠ 0 }
  else adc

def finishRank (now : Nat) : Adc :=
  let adc := adc.markScan
  if adc.decimated && adc.skipScan then adc else adc.materializeConversion now true

def completeConversion (now : Nat) : Except String Adc :=
  let sequenceComplete := adc.sequenceLength ≤ adc.sequenceRank + 1
  let adc := adc.finishRank now
  if sequenceComplete then
    { adc with sequenceRank := 0, scanIndex := adc.scanIndex + 1 }.beginNextScan now
  else
    let adc := { adc with sequenceRank := adc.sequenceRank + 1 }
    if adc.inputClockHz = 0 then .ok adc
    else if adc.started then adc.armRank now adc.sequenceRank
    else
      .ok { adc.setRegister cr (adc.registers cr &&& ~~~adstart) with conversionState := .idle }

def completeSkippedScans (now skipped : Nat) : Except String Adc :=
  { adc with
    conversionState := .idle
    skippedScanCount := 0
    sequenceRank := 0
    scanIndex := adc.scanIndex + skipped }.beginNextScan now

/-- The event of the converter, at the time it was scheduled for. -/
def fire : Except String Adc :=
  match adc.conversionEvent with
  | none => .ok adc
  | some (t, thunk) =>
    let retired := { adc with
      conversionEvent := none
      nextConversionNs := none
      conversionState := .idle }
    match thunk with
    | .conversion => retired.completeConversion t
    | .skippedScan => retired.completeSkippedScans t adc.skippedScanCount

/-- The event of a converter as an alarm. -/
def alarm : Alarm Adc String where
  due adc := adc.conversionEvent.map Prod.fst
  ring := fire

/-- The event loop runs all events that are due. -/
def dispatch (now : Nat) : Except String Adc := alarm.settle now (now + 1) adc

/-- The last of the times `next`, `next + delay`, ... that has come. -/
def latestConversion (next delay now : Nat) : Nat := next + (now - next) / delay * delay

def synchronizeLazyConversions (now : Nat) : Except String Adc :=
  match adc.conversionState, adc.nextConversionNs with
  | .lazyGap, some next =>
    if now < next then .ok adc
    else { adc with nextConversionNs := none }.completeSkippedScans now adc.skippedScanCount
  | .lazy, some next =>
    let delay := adc.conversionDelayForRank 0
    if now < next || delay = 0 then .ok adc
    else
      let latest := latestConversion next delay now
      let adc := adc.materializeConversion latest false
      if simTimeMax - delay < latest then
        .ok { adc with nextConversionNs := none, conversionState := .idle }
      else .ok { adc with nextConversionNs := some (latest + delay) }
  | _, _ => .ok adc

/-! ## The clock -/

/-- What is left of the conversion is kept while the clock stands. -/
def holdProgress (now : Nat) : Except String Adc :=
  match adc.nextConversionNs with
  | none => .ok { adc with conversionState := .idle }
  | some next =>
    let state : ConversionState := if adc.conversionIsGap then .suspendedGap else .suspended
    if adc.setup.conversionDelayOverrideNs ≠ 0 then
      .ok { adc with suspendedOverrideNs := next - now, conversionState := state }
    else if simTimeMax / adc.inputClockHz < next - now then
      .error "ADC suspended-cycle count overflow"
    else
      .ok { adc with
        suspendedConversionCycles := (next - now) * adc.inputClockHz
        conversionState := state }

def stopClock : Adc :=
  { adc with conversionEvent := none, nextConversionNs := none, inputClockHz := 0 }

/-- The time that a product of cycles takes at a rate, rounded up. -/
def delayAt (product hz : Nat) : Nat :=
  max (if product % hz ≠ 0 then product / hz + 1 else product / hz) 1

/-- The end of the conversion under the new clock, if its rest has to be worked out. -/
def rescheduledTime (now nextHz : Nat) : Except String (Option Nat) :=
  if adc.suspendedOverrideNs ≠ 0 then
    if simTimeMax - now < adc.suspendedOverrideNs then
      .error "ADC conversion time overflow during override resume"
    else .ok (some (now + adc.suspendedOverrideNs))
  else if adc.suspendedConversionCycles ≠ 0 then
    let delay := delayAt adc.suspendedConversionCycles nextHz
    if simTimeMax - now < delay then .error "ADC conversion time overflow during clock resume"
    else .ok (some (now + delay))
  else
    match adc.nextConversionNs with
    | none => .ok none
    | some next =>
      if adc.setup.conversionDelayOverrideNs ≠ 0 then .ok none
      else if simTimeMax / adc.inputClockHz < next - now then
        .error "ADC clock reschedule multiplication overflow"
      else
        let product := (next - now) * adc.inputClockHz
        let delay := delayAt product nextHz
        if product % nextHz ≠ 0 && product / nextHz = simTimeMax then
          .error "ADC clock reschedule rounding overflow"
        else
          if simTimeMax - now < delay then
            .error "ADC conversion time overflow during clock change"
          else .ok (some (now + delay))

/-- The converter at its new rate, with the deadline moved. What was held while
the clock stood is used up. -/
def withClock (nextHz : Nat) (rescheduled : Option Nat) : Adc :=
  let gap := adc.conversionIsGap
  let adc := { adc with
    suspendedOverrideNs := 0
    suspendedConversionCycles :=
      if adc.suspendedOverrideNs ≠ 0 then adc.suspendedConversionCycles else 0
    conversionEvent := if adc.conversionEventArmed then none else adc.conversionEvent
    inputClockHz := nextHz }
  match rescheduled with
  | some t => { adc with
      nextConversionNs := some t
      conversionState := if gap then .skippedGap else .scheduled }
  | none => adc

/-- A conversion that was asked for while the clock stood begins. -/
def beginHeld (now : Nat) : Adc :=
  let delay := adc.conversionDelayForRank adc.sequenceRank
  if adc.nextConversionNs.isNone && adc.started && delay ≤ simTimeMax - now then
    { adc with nextConversionNs := some (now + delay), conversionState := .scheduled }
  else adc

/-- The clock runs at a new rate, other than zero. -/
def changeClock (now nextHz : Nat) : Except String Adc := do
  let rescheduled ← adc.rescheduledTime now nextHz
  let changed := (adc.withClock nextHz rescheduled).beginHeld now
  if adc.conversionEventArmed || rescheduled.isSome || changed.nextConversionNs.isSome then
    changed.refreshConversionScheduling now
  else .ok changed

def setInputClockHz (now frequencyHz : Nat) : Except String Adc := do
  if frequencyHz = adc.inputClockHz then return adc
  let adc ← adc.synchronizeLazyConversions now
  if frequencyHz = 0 then
    let held ← adc.holdProgress now
    return held.stopClock
  else adc.changeClock now frequencyHz

/-! ## Accesses -/

def loadRegister (word : Nat) : BitVec 32 × Adc :=
  let value := adc.registers word
  -- Reading the data clears EOC; EOS is cleared only through the flags.
  if word = dr then
    (value, (adc.setRegister isr (adc.registers isr &&& ~~~eoc)).updateInterruptLevel)
  else (value, adc)

/-- The converter is turned off. -/
def disable : Adc :=
  (adc.setRegister isr (adc.registers isr &&& ~~~adrdy)).cancelConversion

/-- The converter is ready as soon as it is turned on. -/
def enable : Adc := adc.setRegister isr (adc.registers isr ||| adrdy)

def storeControl (now : Nat) (value : BitVec 32) : Except String Adc :=
  -- Calibration completes at once.
  let asked := if value &&& adcal ≠ 0 then value &&& ~~~adcal else value
  let control := if asked &&& addis ≠ 0 then asked &&& ~~~(addis ||| aden ||| adstart) else asked
  let adc := if asked &&& addis ≠ 0 then adc.disable else adc
  let adc := if control &&& aden ≠ 0 then adc.enable else adc
  let adc := adc.setRegister cr control
  if control &&& adstart ≠ 0 then adc.startConversion now else .ok adc

def storeRegister (now word : Nat) (previous value mask : BitVec 32) : Except String Adc :=
  if adc.resetHeld then .ok (adc.setRegister word previous)
  else if word = isr then
    .ok (adc.setRegister isr (previous &&& ~~~(value &&& mask))).updateInterruptLevel
  else if word = ier then
    .ok (adc.setInterruptLevel (value &&& adc.registers isr &&& (eoc ||| eos) ≠ 0))
  else if word = dr then .ok (adc.setRegister dr previous)
  else if word = cr then adc.storeControl now value
  else .ok adc

def storeLane (now offset : Nat) (value : BitVec 64) (adc : Adc) (lane : Lane) :
    Except String Adc :=
  let word := lane.word offset
  let previous := adc.registers word
  let merged := lane.merge offset value previous
  (adc.setRegister word merged).storeRegister now word previous merged (lane.mask offset)

/-- What comes back from an operation. -/
inductive Reply
  | value (value : BitVec 64)
  | fault
  | done
  deriving DecidableEq

def read (now offset : Nat) (size : AccessSize) : Except String (Reply × Adc) := do
  let adc ← adc.synchronizeLazyConversions now
  if !rangeFits offset (byteCount size) blockSize then return (.fault, adc)
  let (value, adc) := (lanes offset (byteCount size)).foldl
    (fun (value, adc) lane =>
      let (word, adc) := adc.loadRegister (lane.word offset)
      (value ||| lane.extract offset word, adc)) ((0 : BitVec 64), adc)
  return (.value value, adc)

def write (now offset : Nat) (size : AccessSize) (value : BitVec 64) :
    Except String (Reply × Adc) := do
  let adc ← adc.synchronizeLazyConversions now
  if !rangeFits offset (byteCount size) blockSize then return (.fault, adc)
  let adc ← (lanes offset (byteCount size)).foldlM (storeLane now offset value) adc
  let adc ← adc.refreshConversionScheduling now
  return (.value 0, adc)

/-- An external value for a channel, which comes before the provider. -/
def setChannelValue (now channel : Nat) (value : BitVec 16) : Except String Adc := do
  let adc ← adc.synchronizeLazyConversions now
  if channel < 20 then
    return { adc with
      channelValues := Function.update adc.channelValues channel
        (if 0x0fff < value then 0x0fff else value)
      channelOverrides := Function.update adc.channelOverrides channel true }
  else return adc

def reset : Adc :=
  let adc := { adc with registers := fun _ => 0 }.setInterruptLevel false
  { adc.cancelConversion with samples := [], sequenceRank := 0, scanIndex := 0, skipScan := false }

def setResetHeld (asserted : Bool) : Adc :=
  if adc.resetHeld = asserted then adc
  else
    let adc := { adc with resetHeld := asserted }
    if asserted then adc.reset else adc

/-! ## Runs -/

/-- What can be done to a converter from outside. -/
inductive Op
  | read (offset : Nat) (size : AccessSize)
  | write (offset : Nat) (size : AccessSize) (value : BitVec 64)
  | setInputClockHz (frequencyHz : Nat)
  | setChannelValue (channel : Nat) (value : BitVec 16)
  | setResetHeld (asserted : Bool)
  deriving DecidableEq

def perform (now : Nat) : Op → Except String (Reply × Adc)
  | .read offset size => adc.read now offset size
  | .write offset size value => adc.write now offset size value
  | .setInputClockHz frequencyHz => do
    let adc ← adc.setInputClockHz now frequencyHz
    return (.done, adc)
  | .setChannelValue channel value => do
    let adc ← adc.setChannelValue now channel value
    return (.done, adc)
  | .setResetHeld asserted => return (.done, adc.setResetHeld asserted)

/-- What is seen of a converter after an operation: the reply, the interrupt
line and all that the converter told others. -/
structure Answer where
  reply : Reply
  interruptLevel : Bool
  signals : List AdcSignal
  deriving DecidableEq

/-- The events that are due run before an operation. -/
def step (now : Nat) (op : Op) : Except String (Answer × Adc) := do
  let adc ← adc.dispatch now
  let (reply, adc) ← adc.perform now op
  return (⟨reply, adc.interruptLevel, adc.signals⟩, adc)

/-- The answers to a list of operations, each a while after the one before. An
error ends the run. -/
def answers (adc : Adc) (now : Nat) : List (Nat × Op) → List (Except String Answer)
  | [] => []
  | (wait, op) :: rest =>
    match adc.step (now + wait) op with
    | .error e => [.error e]
    | .ok (answer, adc) => .ok answer :: adc.answers (now + wait) rest

end Adc

end Fil.Stm32g4
