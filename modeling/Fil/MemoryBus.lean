-- The memory bus: backed bytes, peripheral dispatch, aliases, and the fast
-- paths that skip the general lookup. Every change of a backed byte goes
-- through the mutation journal.
import Fil.ByteLanes
import Fil.MemoryMap
import Mathlib.Tactic.SplitIfs

open ByteLanes

namespace Fil.Mem

/-! ## The state of the bus -/

/-- Whether other boards can see an access to a device. -/
inductive MmioDomain
  | boardLocal
  | shared
  deriving DecidableEq

/-- The peripherals of a board over one state of theirs. The first argument
is the number of the device, the second the offset in its range. -/
structure MmioDevices (δ : Type) where
  read : Nat → BitVec 32 → AccessSize → AccessContext → δ → Except BusFault (BitVec 64) × δ
  write : Nat → BitVec 32 → AccessSize → BitVec 64 → AccessContext → δ →
    Except BusFault (BitVec 64) × δ
  domain : Nat → BitVec 32 → AccessSize → δ → MmioDomain
  /-- Only the bus asks for synchronization, never a device. -/
  read_reason : ∀ d o s c t f, (read d o s c t).1 = .error f →
    f.reason ≠ .synchronizationRequired
  write_reason : ∀ d o s v c t f, (write d o s v c t).1 = .error f →
    f.reason ≠ .synchronizationRequired

/-- A journal entry: the byte a write replaced. -/
structure BackedMutation where
  address : BitVec 32 := 0
  oldValue : BitVec 8 := 0
  external : Bool := false
  deriving DecidableEq

/-- A set of words that were read, as a 256-bit filter. -/
structure ReadFootprint where
  words : BitVec 256 := 0
  complete : Bool := true
  deriving DecidableEq

structure AccessWatchEntry where
  address : BitVec 32
  width : Nat
  write : Bool
  deriving DecidableEq

def mutationJournalCapacity : Nat := 8192

def maximumAliasDepth : Nat := 8

/-- The bus. `bytes` gives the byte of every backed address; `mutationJournal`
is the ring, read and written below its capacity only. -/
structure MemoryBus (δ : Type) where
  map : RegionMap
  bytes : BitVec 32 → BitVec 8
  devices : MmioDevices δ
  deviceState : δ
  executionGeneration : Nat := 1
  sideEffectGeneration : Nat := 1
  mmioGeneration : Nat := 1
  mutationSequence : Nat := 0
  journalGeneration : Nat := 1
  restorationGeneration : Nat := 0
  writeJournalTracking : Bool := true
  mutationJournal : Nat → BackedMutation := fun _ => {}
  readFootprint : ReadFootprint := {}
  readFootprintTracking : Bool := true
  accessWatchLog : List AccessWatchEntry := []
  accessWatchLogEnabled : Bool := false
  storeFootprintTracking : Bool := false
  trapSharedMmio : Bool := false
  trapAllMmio : Bool := false
  reversibleRamOnly : Bool := false

namespace MemoryBus

variable {δ : Type}

/-- A board with no devices to speak of. -/
def noDevices : MmioDevices Unit where
  read := fun _ _ _ _ s => (.ok 0, s)
  write := fun _ _ _ _ _ s => (.ok 0, s)
  domain := fun _ _ _ _ => .boardLocal
  read_reason := by simp
  write_reason := by simp

variable (b : MemoryBus δ)

def mmioTrapping : Bool := b.trapSharedMmio || b.trapAllMmio

/-! ## Mapping -/

def addRegion (b : MemoryBus δ) (r : Region) : Except MapError (MemoryBus δ) :=
  match b.map.addRegion r with
  | .error e => .error e
  | .ok map => .ok { b with map, executionGeneration := b.executionGeneration + 1 }

/-- Maps a backed range whose bytes all start at `fill`. -/
def mapBacked (info : MemoryRegionInfo) (fill : BitVec 8) : Except MapError (MemoryBus δ) :=
  let region : Region := { info }
  match b.addRegion region with
  | .error e => .error e
  | .ok b => .ok { b with bytes := fun a => if region.contains a then fill else b.bytes a }

def mapRam (base size : BitVec 32) (name : String) (executable : Bool := false) :
    Except MapError (MemoryBus δ) :=
  b.mapBacked ⟨base, size, .ram, name, true, true, executable⟩ 0

def mapRom (base size : BitVec 32) (name : String) (executable : Bool := true) :
    Except MapError (MemoryBus δ) :=
  b.mapBacked ⟨base, size, .rom, name, true, false, executable⟩ 0xff

def mapFlash (base size : BitVec 32) (name : String) (executable : Bool := true) :
    Except MapError (MemoryBus δ) :=
  b.mapBacked ⟨base, size, .flash, name, true, true, executable⟩ 0xff

def mapAlias (aliasBase targetBase size : BitVec 32) (name : String) :
    Except MapError (MemoryBus δ) :=
  if !validRange targetBase size then
    .error ⟨"alias '" ++ name ++ "' has an empty or wrapping target range"⟩
  else
    let outside : MapError :=
      ⟨"alias '" ++ name ++ "' target range is not contained in one mapped region"⟩
    match b.map.find targetBase with
    | none => .error outside
    | some target =>
      if !target.containsRange targetBase size.toNat then .error outside
      else b.addRegion
        { info := ⟨aliasBase, size, .alias, name, target.info.readable, target.info.writable,
            target.info.executable⟩
          aliasTarget := targetBase }

def mapMmio (base size : BitVec 32) (device : Nat) (name : String) :
    Except MapError (MemoryBus δ) :=
  b.addRegion { info := ⟨base, size, .mmio, name, true, true, false⟩, device }

/-! ## Footprints and the watch log -/

/-- The two filter bits of an address. -/
def footprintBitIndices (address : BitVec 32) : BitVec 8 × BitVec 8 :=
  let word := address >>> 2
  let first := word * 0x9e3779b1
  let second := (word ^^^ (word >>> 16)) * 0x85ebca6b
  ((first >>> 24).setWidth 8, (second >>> 24).setWidth 8)

def addReadFootprint (footprint : ReadFootprint) (address : BitVec 32) : ReadFootprint :=
  let bits := footprintBitIndices address
  { footprint with words := footprint.words ||| (1 <<< bits.1.toNat) ||| (1 <<< bits.2.toNat) }

/-- Marks every word that the range touches. -/
def addSpanFootprint (footprint : ReadFootprint) (address : BitVec 32) (width : Nat) :
    ReadFootprint :=
  let firstWord := (address &&& ~~~3).toNat
  let words := (address.toNat + width - firstWord + 3) / 4
  (List.range words).foldl
    (fun footprint i => addReadFootprint footprint (BitVec.ofNat 32 (firstWord + 4 * i))) footprint

def logAccess (entry : AccessWatchEntry) : MemoryBus δ :=
  { b with accessWatchLog := b.accessWatchLog ++ [entry] }

def addAccessFootprint (address : BitVec 32) (width : Nat) : MemoryBus δ :=
  let b := if b.accessWatchLogEnabled && width ≠ 0 then b.logAccess ⟨address, min width 8, false⟩
    else b
  if !b.readFootprintTracking || width = 0 then b
  else if address &&& 3 = 0 && width ≤ 4 then
    { b with readFootprint := addReadFootprint b.readFootprint address }
  else { b with readFootprint := addSpanFootprint b.readFootprint address width }

def addStoreFootprint (address : BitVec 32) (width : Nat) (context : AccessContext) : MemoryBus δ :=
  if context.pc = 0 || width = 0 then b
  else
    let b := if b.accessWatchLogEnabled then b.logAccess ⟨address, min width 8, true⟩ else b
    if !b.storeFootprintTracking then b
    else { b with readFootprint := addSpanFootprint b.readFootprint address width }

def footprintContains (footprint : ReadFootprint) (address : BitVec 32) : Bool :=
  let bits := footprintBitIndices address
  footprint.words.getLsbD bits.1.toNat && footprint.words.getLsbD bits.2.toNat

def setAccessWatchLog (enabled : Bool) : MemoryBus δ :=
  { b with accessWatchLogEnabled := enabled, accessWatchLog := [] }

/-! ## Backed bytes and their journal -/

def recordMutation (address : BitVec 32) (oldValue : BitVec 8) (external : Bool) : MemoryBus δ :=
  { b with
    mutationSequence := b.mutationSequence + 1
    mutationJournal :=
      if b.writeJournalTracking then
        Function.update b.mutationJournal (b.mutationSequence % mutationJournalCapacity)
          ⟨address, oldValue, external⟩
      else b.mutationJournal }

/-- Stores one byte of a backed range. A byte that keeps its value leaves no
trace. -/
def storeByte (address : BitVec 32) (byte : BitVec 8) (external : Bool) : MemoryBus δ :=
  if b.bytes address = byte then b
  else
    let b := b.recordMutation address (b.bytes address) external
    { b with
      sideEffectGeneration := b.sideEffectGeneration + 1
      bytes := Function.update b.bytes address byte }

/-- Stores the low `width` bytes of a value, low byte first. -/
def storeBytes (address : BitVec 32) (width : Nat) {w : Nat} (value : BitVec w) (external : Bool) :
    MemoryBus δ :=
  (List.range width).foldl
    (fun b i => b.storeByte (address + BitVec.ofNat 32 i) (byteAt value i) external) b

def loadWord (address : BitVec 32) : BitVec 32 :=
  (littleEndian b.bytes address 4).setWidth 32

/-- Copies the low bytes of a value over memory, low byte first. -/
def copyBytes (bytes : BitVec 32 → BitVec 8) (address : BitVec 32) (width : Nat) {w : Nat}
    (value : BitVec w) : BitVec 32 → BitVec 8 :=
  (List.range width).foldl
    (fun bytes i => Function.update bytes (address + BitVec.ofNat 32 i) (byteAt value i)) bytes

/-- Journals lane `lane` of a word store if its byte changes. The pair is the
journal and the next number. -/
def recordLane (address oldValue difference : BitVec 32) (external : Bool)
    (journal : (Nat → BackedMutation) × Nat) (lane : Nat) : (Nat → BackedMutation) × Nat :=
  if difference &&& (0xff#32 <<< (lane * 8)) = 0 then journal
  else
    (Function.update journal.1 (journal.2 % mutationJournalCapacity)
        ⟨address + BitVec.ofNat 32 lane, byteAt oldValue lane, external⟩,
      journal.2 + 1)

/-- How many byte lanes of a difference are not zero, by folding each lane on
its low bit. -/
def changedByteCount (difference : BitVec 32) : Nat :=
  let changed := difference ||| (difference >>> 4)
  let changed := changed ||| (changed >>> 2)
  let changed := changed ||| (changed >>> 1)
  let changed := changed &&& 0x01010101
  ((changed * 0x01010101) >>> 24).toNat

/-- Stores a whole word at once. The journal gets the bytes that change, in
address order. -/
def storeBackedWord (address value : BitVec 32) (external : Bool) : MemoryBus δ :=
  let oldValue := b.loadWord address
  if oldValue = value then b
  else
    let difference := oldValue ^^^ value
    let bytes := copyBytes b.bytes address 4 value
    if b.writeJournalTracking then
      let journal := (List.range 4).foldl (recordLane address oldValue difference external)
        (b.mutationJournal, b.mutationSequence)
      { b with
        mutationJournal := journal.1
        mutationSequence := journal.2
        bytes
        sideEffectGeneration := b.sideEffectGeneration + (journal.2 - b.mutationSequence) }
    else
      { b with
        mutationSequence := b.mutationSequence + changedByteCount difference
        bytes
        sideEffectGeneration := b.sideEffectGeneration + changedByteCount difference }

/-- A change in executable memory ends the life of decoded instructions. -/
def noteExecutable (region : Region) : MemoryBus δ :=
  if region.info.executable then { b with executionGeneration := b.executionGeneration + 1 } else b

/-- Puts an image into RAM, ROM or flash, whatever the write permission. -/
def loadBytes (address : BitVec 32) (bytes : List (BitVec 8)) :
    Except MapError Unit × MemoryBus δ :=
  if bytes.isEmpty then (.ok (), b)
  else if 0xffffffff < bytes.length || !validRange address (BitVec.ofNat 32 bytes.length) then
    (.error ⟨"load byte range wraps target address space"⟩, b)
  else
    match b.map.find address with
    | none => (.error ⟨"load byte range is not contained in one mapped region"⟩, b)
    | some region =>
      if !region.containsRange address bytes.length then
        (.error ⟨"load byte range is not contained in one mapped region"⟩, b)
      else if !region.backed then
        (.error ⟨"load bytes require directly backed RAM, ROM, or flash, not region '"
          ++ region.info.name ++ "'"⟩, b)
      else
        let b := bytes.zipIdx.foldl
          (fun b x => b.storeByte (address + BitVec.ofNat 32 x.2) x.1 true) b
        (.ok (), b.noteExecutable region)

/-! ## The general access path -/

def faultOf (address : BitVec 32) (size : AccessSize) (context : AccessContext)
    (reason : BusFaultReason) (region message : String) : BusFault :=
  ⟨reason, address, size, context, region, message⟩

def mmioTrapped (region : Region) (offset : BitVec 32) (size : AccessSize) : Bool :=
  b.trapAllMmio || (b.trapSharedMmio &&
    b.devices.domain region.device offset size b.deviceState = .shared)

/-- A fault of a device gets the name of its region if it has none. -/
def nameRegion (region : Region) : Except BusFault (BitVec 64) → Except BusFault (BitVec 64)
  | .error f => .error (if f.region = "" then { f with region := region.info.name } else f)
  | .ok v => .ok v

def readMmio (region : Region) (address : BitVec 32) (size : AccessSize) (context : AccessContext) :
    Except BusFault (BitVec 64) × MemoryBus δ :=
  let offset := address - region.info.base
  if b.mmioTrapped region offset size then
    (.error (faultOf address size context .synchronizationRequired region.info.name
      "MMIO access requires coordinator synchronization"), b)
  else
    let b := if b.accessWatchLogEnabled && context.pc ≠ 0 then
      b.logAccess ⟨address, byteCount size, false⟩ else b
    let (result, deviceState) := b.devices.read region.device offset size context b.deviceState
    ((nameRegion region result).map (· &&& accessWidthMask size),
      { b with
        deviceState
        sideEffectGeneration := b.sideEffectGeneration + 1
        mmioGeneration := b.mmioGeneration + 1 })

def writeMmio (region : Region) (address : BitVec 32) (size : AccessSize) (value : BitVec 64)
    (context : AccessContext) : Except BusFault (BitVec 64) × MemoryBus δ :=
  let offset := address - region.info.base
  if b.mmioTrapped region offset size then
    (.error (faultOf address size context .synchronizationRequired region.info.name
      "MMIO access requires coordinator synchronization"), b)
  else
    let b := if b.accessWatchLogEnabled && context.pc ≠ 0 then
      b.logAccess ⟨address, byteCount size, true⟩ else b
    let (result, deviceState) := b.devices.write region.device offset size
      (value &&& accessWidthMask size) context b.deviceState
    (nameRegion region result,
      { b with
        deviceState
        sideEffectGeneration := b.sideEffectGeneration + 1
        mmioGeneration := b.mmioGeneration + 1 })

/-- Where an access goes once its checks are done. -/
inductive Route
  | refused (fault : BusFault)
  | alias (region : Region)
  | mmio (region : Region)
  | backed (region : Region)

/-- The checks of the general read, in order. -/
def readRoute (address : BitVec 32) (size : AccessSize) (context : AccessContext) : Route :=
  let width := byteCount size
  let fault := fun reason region message =>
    Route.refused (faultOf address size context reason region message)
  if !validRange address (BitVec.ofNat 32 width) then
    fault .addressOverflow "" "memory read wraps target address space"
  else
    match b.map.find address with
    | none => fault .unmapped "" "read from unmapped memory"
    | some region =>
      if !region.containsRange address width then
        fault .crossRegion region.info.name "memory read crosses a region boundary"
      else if !region.info.readable then
        fault .readProtected region.info.name "memory region is not readable"
      else if context.type = .instructionFetch && !region.info.executable then
        fault .executeProtected region.info.name "memory region is not executable"
      else
        match region.info.kind with
        | .alias => .alias region
        | .mmio => .mmio region
        | .ram | .rom | .flash => .backed region

/-- The checks of the general write, in order. The target of an alias is asked
for its own permissions. -/
def writeRoute (address : BitVec 32) (size : AccessSize) (context : AccessContext) : Route :=
  let width := byteCount size
  let fault := fun reason region message =>
    Route.refused (faultOf address size context reason region message)
  if !validRange address (BitVec.ofNat 32 width) then
    fault .addressOverflow "" "memory write wraps target address space"
  else
    match b.map.find address with
    | none => fault .unmapped "" "write to unmapped memory"
    | some region =>
      if !region.containsRange address width then
        fault .crossRegion region.info.name "memory write crosses a region boundary"
      else if region.info.kind = .alias then .alias region
      else if !region.info.writable then
        fault .writeProtected region.info.name "memory region is not writable"
      else if b.reversibleRamOnly && (region.info.kind ≠ .ram || region.info.executable) then
        fault .synchronizationRequired region.info.name
          "store requires coordinator synchronization outside reversible RAM"
      else if region.info.kind = .mmio then .mmio region
      else .backed region

def aliasCycle (region : Region) (address : BitVec 32) (size : AccessSize)
    (context : AccessContext) : BusFault :=
  faultOf address size context .aliasCycle region.info.name
    "alias translation exceeded its recursion limit"

def readBacked (address : BitVec 32) (size : AccessSize) (context : AccessContext) :
    Except BusFault (BitVec 64) × MemoryBus δ :=
  let b := if context.type = .dataRead && context.pc ≠ 0 then
    b.addAccessFootprint address (byteCount size) else b
  (.ok (littleEndian b.bytes address (byteCount size)), b)

def writeBacked (region : Region) (address : BitVec 32) (size : AccessSize) (value : BitVec 64)
    (context : AccessContext) : Except BusFault (BitVec 64) × MemoryBus δ :=
  let b := b.addStoreFootprint address (byteCount size) context
  let b := b.storeBytes address (byteCount size) value (context.pc = 0)
  (.ok 0, b.noteExecutable region)

/-- A read with `depth` more alias steps allowed. -/
def readFrom (depth : Nat) (b : MemoryBus δ) (address : BitVec 32) (size : AccessSize)
    (context : AccessContext) : Except BusFault (BitVec 64) × MemoryBus δ :=
  match b.readRoute address size context with
  | .refused fault => (.error fault, b)
  | .alias region =>
    match depth with
    | 0 => (.error (aliasCycle region address size context), b)
    | depth + 1 =>
      readFrom depth b (region.aliasTarget + (address - region.info.base)) size context
  | .mmio region => b.readMmio region address size context
  | .backed _ => b.readBacked address size context

/-- A write with `depth` more alias steps allowed. -/
def writeFrom (depth : Nat) (b : MemoryBus δ) (address : BitVec 32) (size : AccessSize)
    (value : BitVec 64) (context : AccessContext) : Except BusFault (BitVec 64) × MemoryBus δ :=
  match b.writeRoute address size context with
  | .refused fault => (.error fault, b)
  | .alias region =>
    match depth with
    | 0 => (.error (aliasCycle region address size context), b)
    | depth + 1 =>
      writeFrom depth b (region.aliasTarget + (address - region.info.base)) size value context
  | .mmio region => b.writeMmio region address size value context
  | .backed region => b.writeBacked region address size value context

def read (address : BitVec 32) (size : AccessSize) (context : AccessContext) :
    Except BusFault (BitVec 64) × MemoryBus δ :=
  readFrom maximumAliasDepth b address size context

def write (address : BitVec 32) (size : AccessSize) (value : BitVec 64) (context : AccessContext) :
    Except BusFault (BitVec 64) × MemoryBus δ :=
  writeFrom maximumAliasDepth b address size value context

/-! ## The fast paths -/

/-- The region of a backed read that can be served without the general path. -/
def fastReadRegion (address : BitVec 32) (width : Nat) (context : AccessContext) : Option Region :=
  match b.map.find address with
  | none => none
  | some region =>
    if !region.backed || !region.info.readable || !region.containsRange address width
      || (context.type = .instructionFetch && !region.info.executable) then none
    else some region

/-- The region of a backed store that can be served without the general path. -/
def fastWriteRegion (address : BitVec 32) (width : Nat) (requireNonexecutableRam : Bool) :
    Option Region :=
  match b.map.find address with
  | none => none
  | some region =>
    if !region.backed || !region.info.writable || !region.containsRange address width
      || ((b.reversibleRamOnly || requireNonexecutableRam)
        && (region.info.kind ≠ .ram || region.info.executable)) then none
    else some region

def tryFastRead (address : BitVec 32) (size : AccessSize) (context : AccessContext) :
    Option (BitVec 64 × MemoryBus δ) :=
  let width := byteCount size
  if width ≠ 1 && width ≠ 2 && width ≠ 4 then none
  else
    match b.fastReadRegion address width context with
    | none => none
    | some _ =>
      let b := if context.type = .dataRead && context.pc ≠ 0 then
        b.addAccessFootprint address width else b
      some (littleEndian b.bytes address width, b)

def tryFastRead32 (address : BitVec 32) (context : AccessContext) :
    Option (BitVec 32 × MemoryBus δ) :=
  match b.fastReadRegion address 4 context with
  | none => none
  | some _ =>
    let b := if context.type = .dataRead && context.pc ≠ 0 then
      b.addAccessFootprint address 4 else b
    some (b.loadWord address, b)

def tryFastWrite (address : BitVec 32) (size : AccessSize) (value : BitVec 64)
    (context : AccessContext) (requireNonexecutableRam : Bool := false) : Option (MemoryBus δ) :=
  let width := byteCount size
  if width ≠ 1 && width ≠ 2 && width ≠ 4 then none
  else
    match b.fastWriteRegion address width requireNonexecutableRam with
    | none => none
    | some region =>
      let b := b.addStoreFootprint address width context
      let b := if width = 4 then b.storeBackedWord address (value.setWidth 32) (context.pc = 0)
        else b.storeBytes address width value (context.pc = 0)
      some (b.noteExecutable region)

def tryFastWrite32 (address value : BitVec 32) (context : AccessContext)
    (requireNonexecutableRam : Bool := false) : Option (MemoryBus δ) :=
  match b.fastWriteRegion address 4 requireNonexecutableRam with
  | none => none
  | some region =>
    let b := b.addStoreFootprint address 4 context
    some ((b.storeBackedWord address value (context.pc = 0)).noteExecutable region)

def tryFastReadWords (address : BitVec 32) (count : Nat) (context : AccessContext) :
    Option (List (BitVec 32) × MemoryBus δ) :=
  if count = 0 || 0xffffffff < count * 4 then none
  else
    match b.fastReadRegion address (count * 4) { context with type := .dataRead } with
    | none => none
    | some _ =>
      let data := context.type = .dataRead && context.pc ≠ 0
      let tracked := (b.readFootprintTracking && data) || (b.accessWatchLogEnabled && data)
      let b := if tracked then
        (List.range count).foldl
          (fun b w => b.addAccessFootprint (address + BitVec.ofNat 32 (w * 4)) 4) b
        else b
      some ((List.range count).map fun w => b.loadWord (address + BitVec.ofNat 32 (w * 4)), b)

def tryFastWriteWords (address : BitVec 32) (values : List (BitVec 32)) (context : AccessContext)
    (requireNonexecutableRam : Bool := false) : Option (MemoryBus δ) :=
  let span := values.length * 4
  if values.length = 0 || 0xffffffff < span then none
  else
    match b.fastWriteRegion address span requireNonexecutableRam with
    | none => none
    | some region =>
      let b := b.addStoreFootprint address span context
      let b := values.zipIdx.foldl
        (fun b x => b.storeBackedWord (address + BitVec.ofNat 32 (x.2 * 4)) x.1 (context.pc = 0)) b
      some (b.noteExecutable region)

/-! ## Accesses by width -/

def read8 (address : BitVec 32) (context : AccessContext) :
    Except BusFault (BitVec 8) × MemoryBus δ :=
  match b.tryFastRead address .byte context with
  | some (value, b) => (.ok (value.setWidth 8), b)
  | none =>
    let (result, b) := b.read address .byte context
    (result.map (·.setWidth 8), b)

def read16 (address : BitVec 32) (context : AccessContext) :
    Except BusFault (BitVec 16) × MemoryBus δ :=
  match b.tryFastRead address .halfword context with
  | some (value, b) => (.ok (value.setWidth 16), b)
  | none =>
    let (result, b) := b.read address .halfword context
    (result.map (·.setWidth 16), b)

def read32 (address : BitVec 32) (context : AccessContext) :
    Except BusFault (BitVec 32) × MemoryBus δ :=
  match b.tryFastRead32 address context with
  | some (value, b) => (.ok value, b)
  | none =>
    let (result, b) := b.read address .word context
    (result.map (·.setWidth 32), b)

def read64 (address : BitVec 32) (context : AccessContext) :
    Except BusFault (BitVec 64) × MemoryBus δ :=
  b.read address .doubleword context

def write8 (address : BitVec 32) (value : BitVec 8) (context : AccessContext) :
    Except BusFault (BitVec 64) × MemoryBus δ :=
  match b.tryFastWrite address .byte (value.setWidth 64) context with
  | some b => (.ok 0, b)
  | none => b.write address .byte (value.setWidth 64) context

def write16 (address : BitVec 32) (value : BitVec 16) (context : AccessContext) :
    Except BusFault (BitVec 64) × MemoryBus δ :=
  match b.tryFastWrite address .halfword (value.setWidth 64) context with
  | some b => (.ok 0, b)
  | none => b.write address .halfword (value.setWidth 64) context

def write32 (address value : BitVec 32) (context : AccessContext) :
    Except BusFault (BitVec 64) × MemoryBus δ :=
  match b.tryFastWrite32 address value context with
  | some b => (.ok 0, b)
  | none => b.write address .word (value.setWidth 64) context

def write64 (address : BitVec 32) (value : BitVec 64) (context : AccessContext) :
    Except BusFault (BitVec 64) × MemoryBus δ :=
  b.write address .doubleword value context

/-! ## Where accesses can go -/

variable {r : Region} {b : MemoryBus δ} {a : BitVec 32}

lemma backed_of_kind (ha : r.info.kind ≠ .alias) (hm : r.info.kind ≠ .mmio) :
    r.backed = true := by
  unfold Region.backed
  cases hk : r.info.kind <;> simp_all

lemma writeRoute_backed {size : AccessSize} {context : AccessContext}
    (h : b.writeRoute a size context = .backed r) :
    b.map.find a = some r ∧ r.backed = true ∧ r.containsRange a (byteCount size) = true := by
  unfold writeRoute at h
  dsimp only at h
  split_ifs at h
  split at h
  · cases h
  rename_i q hq
  split_ifs at h with hc ha hw hr hm
  cases h
  exact ⟨hq, backed_of_kind ha hm, by simpa using hc⟩

section

variable (depth : Nat) (b : MemoryBus δ) (a : BitVec 32) (size : AccessSize)

/-- How a read ends: refused with the bus untouched, at a device, or at backed
bytes. Aliases may have moved the address. -/
lemma readFrom_cases (context : AccessContext) :
    (∃ f, readFrom depth b a size context = (.error f, b)) ∨
    (∃ a' r, b.readRoute a' size context = .mmio r ∧
      readFrom depth b a size context = b.readMmio r a' size context) ∨
    (∃ a' r, b.readRoute a' size context = .backed r ∧
      readFrom depth b a size context = b.readBacked a' size context) := by
  fun_induction readFrom depth b a size context with
  | case1 | case2 => exact .inl ⟨_, rfl⟩
  | case3 a region hr depth ih => exact ih
  | case4 _ a r hr => exact .inr (.inl ⟨a, r, hr, rfl⟩)
  | case5 _ a r hr => exact .inr (.inr ⟨a, r, hr, rfl⟩)

/-- How a write ends: refused with the bus untouched, at a device, or at backed
bytes. -/
lemma writeFrom_cases (v : BitVec 64) (context : AccessContext) :
    (∃ f, writeFrom depth b a size v context = (.error f, b)) ∨
    (∃ a' r, b.writeRoute a' size context = .mmio r ∧
      writeFrom depth b a size v context = b.writeMmio r a' size v context) ∨
    (∃ a' r, b.writeRoute a' size context = .backed r ∧
      writeFrom depth b a size v context = b.writeBacked r a' size v context) := by
  fun_induction writeFrom depth b a size v context with
  | case1 | case2 => exact .inl ⟨_, rfl⟩
  | case3 a region hr depth ih => exact ih
  | case4 _ a r hr => exact .inr (.inl ⟨a, r, hr, rfl⟩)
  | case5 _ a r hr => exact .inr (.inr ⟨a, r, hr, rfl⟩)

end

lemma fastReadRegion_some {width : Nat} {context : AccessContext}
    (h : b.fastReadRegion a width context = some r) :
    b.map.find a = some r ∧ r.backed = true ∧ r.info.readable = true ∧
      r.containsRange a width = true := by
  unfold fastReadRegion at h
  split at h
  · cases h
  split_ifs at h with hc
  cases h
  simp_all

lemma fastWriteRegion_some {width : Nat} {ram : Bool} (h : b.fastWriteRegion a width ram = some r) :
    b.map.find a = some r ∧ r.backed = true ∧ r.info.writable = true ∧
      r.containsRange a width = true := by
  unfold fastWriteRegion at h
  split at h
  · cases h
  split_ifs at h with hc
  cases h
  simp_all

end MemoryBus

end Fil.Mem
