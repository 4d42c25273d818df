-- The frames of the stdio protocol. A frame has a header of sixteen bytes that
-- tells its length; the decoder collects chunks in a bounded buffer and gives out
-- frames as they are complete. What it gives out does not depend on how the stream
-- is cut, as long as no chunk is too large for the room that is left.
import Fil.ByteLanes
import Fil.SelfDelimiting

open ByteLanes List

namespace Fil.Cli.NetworkProtocol

/-! ## The format -/

def magic : List (BitVec 8) := [0x46, 0x49, 0x4c, 0x4e]

def headerSize : Nat := 16

def maximumPayloadSize : Nat := 64 * 1024

def maximumBufferedSize : Nat := maximumPayloadSize + headerSize + 4096

def protocolVersion : BitVec 8 := 2

/-- A frame. Kinds that no handler knows are kept. -/
structure Frame where
  kind : BitVec 8
  requestId : BitVec 32
  payload : List (BitVec 8)
  deriving DecidableEq

inductive ErrorCategory
  | parse
  | invalidArgument
  deriving DecidableEq

structure Error where
  category : ErrorCategory
  message : String
  deriving DecidableEq

def parseError (message : String) : Error := ⟨.parse, message⟩

def byteOf (bytes : List (BitVec 8)) (i : Nat) : BitVec 8 := bytes.getD i 0

def readU16 (bytes : List (BitVec 8)) (offset : Nat) : BitVec 16 :=
  (byteOf bytes offset).setWidth 16 ||| (byteOf bytes (offset + 1)).setWidth 16 <<< 8

def readU32 (bytes : List (BitVec 8)) (offset : Nat) : BitVec 32 :=
  (byteOf bytes offset).setWidth 32 ||| (byteOf bytes (offset + 1)).setWidth 32 <<< 8
    ||| (byteOf bytes (offset + 2)).setWidth 32 <<< 16
    ||| (byteOf bytes (offset + 3)).setWidth 32 <<< 24

def writeU16 (value : BitVec 16) : List (BitVec 8) := (List.range 2).map (byteAt value)

def writeU32 (value : BitVec 32) : List (BitVec 8) := (List.range 4).map (byteAt value)

def headerOf (frame : Frame) : List (BitVec 8) :=
  magic ++ [protocolVersion, frame.kind] ++ writeU16 0 ++
    writeU32 (BitVec.ofNat 32 frame.payload.length) ++ writeU32 frame.requestId

/-- The bytes of a frame on a stream that takes them. -/
def writeFrame (frame : Frame) : Except Error (List (BitVec 8)) :=
  if maximumPayloadSize < frame.payload.length then
    .error ⟨.invalidArgument, "stdio protocol payload exceeds the 64 KiB limit"⟩
  else .ok (headerOf frame ++ frame.payload)

/-! ## The decoder -/

/-- `header` waits for a header, `payload` has checked it and waits for the rest. -/
inductive Phase
  | header
  | payload
  deriving DecidableEq

structure FrameDecoder where
  bytes : List (BitVec 8) := []
  payloadSize : Nat := 0
  phase : Phase := .header
  deriving DecidableEq

namespace FrameDecoder

def append (d : FrameDecoder) (bytes : List (BitVec 8)) : Except Error FrameDecoder :=
  if maximumBufferedSize - d.bytes.length < bytes.length then
    .error (parseError "stdio protocol input buffer exceeds its limit")
  else .ok { d with bytes := d.bytes ++ bytes }

/-- A frame whose header was checked, if all of it is there. -/
def nextPayload (d : FrameDecoder) : Except Error (Option Frame) × FrameDecoder :=
  let frameSize := headerSize + d.payloadSize
  if d.bytes.length < frameSize then (.ok none, d)
  else
    (.ok (some
      { kind := byteOf d.bytes 5
        requestId := readU32 d.bytes 12
        payload := (d.bytes.take frameSize).drop headerSize }),
      { bytes := d.bytes.drop frameSize, payloadSize := 0, phase := .header })

def next (d : FrameDecoder) : Except Error (Option Frame) × FrameDecoder :=
  match d.phase with
  | .header =>
    if d.bytes.length < headerSize then (.ok none, d)
    else if d.bytes.take 4 ≠ magic then (.error (parseError "invalid stdio protocol magic"), d)
    else if byteOf d.bytes 4 ≠ protocolVersion then
      (.error (parseError "unsupported stdio protocol version"), d)
    else if readU16 d.bytes 6 ≠ 0 then
      (.error (parseError "stdio protocol flags must be zero in version 1"), d)
    else
      let payloadSize := (readU32 d.bytes 8).toNat
      if maximumPayloadSize < payloadSize then
        (.error (parseError "stdio protocol payload exceeds the 64 KiB limit"),
          { d with payloadSize })
      else nextPayload { d with payloadSize, phase := .payload }
  | .payload => d.nextPayload

def finish (d : FrameDecoder) : Except Error Unit :=
  match d.phase with
  | .header =>
    if d.bytes ≠ [] then .error (parseError "truncated stdio protocol frame at end of input")
    else .ok ()
  | .payload => .error (parseError "truncated stdio protocol frame at end of input")

end FrameDecoder

/-! ## A caller -/

/-- What a caller of the decoder sees. -/
inductive Report
  | frame (frame : Frame)
  | error (error : Error)
  deriving DecidableEq

/-- Calls `next` until it has no frame or an error. Every frame takes bytes, so
their number and one more are enough calls. -/
def drain : Nat → FrameDecoder → List Report × FrameDecoder
  | 0, d => ([], d)
  | calls + 1, d =>
    match d.next with
    | (.error e, d) => ([.error e], d)
    | (.ok none, d) => ([], d)
    | (.ok (some frame), d) => (.frame frame :: (drain calls d).1, (drain calls d).2)

def Report.isError : Report → Bool
  | .frame _ => false
  | .error _ => true

def receive (d : FrameDecoder) : List (List (BitVec 8)) → List Report × FrameDecoder
  | [] => ([], d)
  | chunk :: chunks =>
    match d.append chunk with
    | .error e => ([.error e], d)
    | .ok d =>
      let drained := drain (d.bytes.length + 1) d
      if drained.1.any Report.isError then drained
      else
        let rest := receive drained.2 chunks
        (drained.1 ++ rest.1, rest.2)

/-! ## Headers -/

lemma length_headerOf (frame : Frame) : (headerOf frame).length = headerSize := rfl

/-- What is wrong with the header at the front of some bytes. -/
def headerFault (l : List (BitVec 8)) : Option Error :=
  if l.take 4 ≠ magic then some (parseError "invalid stdio protocol magic")
  else if byteOf l 4 ≠ protocolVersion then
    some (parseError "unsupported stdio protocol version")
  else if readU16 l 6 ≠ 0 then
    some (parseError "stdio protocol flags must be zero in version 1")
  else if maximumPayloadSize < (readU32 l 8).toNat then
    some (parseError "stdio protocol payload exceeds the 64 KiB limit")
  else none

variable {l x : List (BitVec 8)} {i : Nat}

lemma byteOf_append (h : i < l.length) : byteOf (l ++ x) i = byteOf l i := by
  unfold byteOf
  rw [getD_eq_getElem?_getD, getD_eq_getElem?_getD, getElem?_append_left h]

lemma readU16_append (h : i + 2 ≤ l.length) : readU16 (l ++ x) i = readU16 l i := by
  unfold readU16
  rw [byteOf_append (by omega), byteOf_append (by omega)]

lemma readU32_append (h : i + 4 ≤ l.length) : readU32 (l ++ x) i = readU32 l i := by
  unfold readU32
  rw [byteOf_append (by omega), byteOf_append (by omega), byteOf_append (by omega),
    byteOf_append (by omega)]

lemma headerFault_append (h : headerSize ≤ l.length)
    (x : List (BitVec 8)) : headerFault (l ++ x) = headerFault l := by
  unfold headerSize at h
  unfold headerFault
  rw [take_append_of_le_length (by omega), byteOf_append (by omega),
    readU16_append (by omega), readU32_append (by omega)]

lemma headerOf_passes {frame : Frame} (h : frame.payload.length ≤ maximumPayloadSize) :
    headerFault (headerOf frame) = none ∧
      (readU32 (headerOf frame) 8).toNat = frame.payload.length := by
  have hsize : readU32 (headerOf frame) 8 = BitVec.ofNat 32 frame.payload.length :=
    word_of_bytes _
  have hnat : (readU32 (headerOf frame) 8).toNat = frame.payload.length := by
    rw [hsize, BitVec.toNat_ofNat]
    unfold maximumPayloadSize at h
    exact Nat.mod_eq_of_lt (by omega)
  have hflags : readU16 (headerOf frame) 6 = 0 := by
    show readU16 (magic ++ [protocolVersion, 0] ++ writeU16 0) 6 = 0
    decide
  refine ⟨?_, hnat⟩
  have hmagic : (headerOf frame).take 4 = magic := rfl
  have hversion : byteOf (headerOf frame) 4 = protocolVersion := rfl
  unfold headerFault
  rw [if_neg (not_not.mpr hmagic), if_neg (not_not.mpr hversion), if_neg (not_not.mpr hflags),
    hnat, if_neg (Nat.not_lt.mpr h)]

/-! ## One call of the decoder -/

open FrameDecoder

section Next

variable {d : FrameDecoder}

lemma next_short (hphase : d.phase = .header) (h : d.bytes.length < headerSize) :
    d.next = (.ok none, d) := by
  unfold FrameDecoder.next
  rw [hphase]
  exact if_pos h

lemma next_passed (hphase : d.phase = .header) (hlen : headerSize ≤ d.bytes.length)
    (h : headerFault d.bytes = none) :
    d.next = nextPayload
      { d with payloadSize := (readU32 d.bytes 8).toNat, phase := .payload } := by
  unfold headerFault at h
  unfold FrameDecoder.next
  rw [hphase]
  dsimp only
  rw [if_neg (Nat.not_lt.mpr hlen)]
  split_ifs at h ⊢
  rfl

lemma next_failed {e : Error} (hphase : d.phase = .header) (hlen : headerSize ≤ d.bytes.length)
    (h : headerFault d.bytes = some e) :
    ∃ d', d.next = (.error e, d') ∧ d'.bytes = d.bytes ∧ d'.phase = .header := by
  obtain ⟨bytes, payloadSize, phase⟩ := d
  cases hphase
  unfold headerFault at h
  unfold FrameDecoder.next
  dsimp only at h hlen ⊢
  rw [if_neg (Nat.not_lt.mpr hlen)]
  split_ifs at h ⊢ <;> cases h <;> exact ⟨_, rfl, rfl, rfl⟩

lemma nextPayload_short (h : d.bytes.length < headerSize + d.payloadSize) :
    d.nextPayload = (.ok none, d) :=
  if_pos h

lemma nextPayload_complete (h : headerSize + d.payloadSize ≤ d.bytes.length) :
    d.nextPayload =
      (.ok (some
        { kind := byteOf d.bytes 5
          requestId := readU32 d.bytes 12
          payload := (d.bytes.take (headerSize + d.payloadSize)).drop headerSize }),
        { bytes := d.bytes.drop (headerSize + d.payloadSize) }) :=
  if_neg (Nat.not_lt.mpr h)

end Next

/-! ## The code -/

/-- The frame that some bytes start with, as a decoder without a history finds it. -/
def takeFrame (l : List (BitVec 8)) : SelfDelimiting.Answer Frame (BitVec 8) Error :=
  match FrameDecoder.next { bytes := l } with
  | (.ok (some frame), d) => .message frame d.bytes
  | (.ok none, _) => .more
  | (.error e, _) => .refused e

def encodeFrame (frame : Frame) : List (BitVec 8) := headerOf frame ++ frame.payload

lemma takeFrame_encode (frame : Frame) (rest : List (BitVec 8))
    (h : frame.payload.length ≤ maximumPayloadSize) :
    takeFrame (encodeFrame frame ++ rest) = .message frame rest := by
  obtain ⟨hfault, hsize⟩ := headerOf_passes h
  have hbytes : encodeFrame frame ++ rest = headerOf frame ++ (frame.payload ++ rest) :=
    append_assoc ..
  have hlen : headerSize ≤ (encodeFrame frame ++ rest).length := by
    rw [hbytes, length_append, length_headerOf]
    exact Nat.le_add_right _ _
  have hread : (readU32 (encodeFrame frame ++ rest) 8).toNat = frame.payload.length := by
    rw [hbytes, readU32_append (by rw [length_headerOf]; decide), hsize]
  have hpass : headerFault (encodeFrame frame ++ rest) = none := by
    rw [hbytes, headerFault_append (Nat.le_of_eq (length_headerOf frame).symm), hfault]
  have hall : headerSize + frame.payload.length = (encodeFrame frame).length := by
    rw [encodeFrame, length_append, length_headerOf]
  unfold takeFrame
  rw [next_passed rfl hlen hpass]
  rw [hread, nextPayload_complete (by
    rw [hall, length_append]
    exact Nat.le_add_right _ _)]
  rw [hall, drop_left, take_left]
  have hid : readU32 (encodeFrame frame ++ rest) 12 = frame.requestId :=
    word_of_bytes frame.requestId
  have hpayload : (encodeFrame frame).drop headerSize = frame.payload :=
    drop_left' (length_headerOf frame)
  rw [hid, hpayload]
  rfl

lemma takeFrame_start (frame : Frame) (l t : List (BitVec 8))
    (h : frame.payload.length ≤ maximumPayloadSize) (heq : l ++ t = encodeFrame frame)
    (hne : t ≠ []) : takeFrame l = .more := by
  have hshort : l.length < headerSize + frame.payload.length := by
    have hall := congrArg List.length heq
    rw [encodeFrame, length_append, length_append, length_headerOf] at hall
    have := List.length_pos_iff.mpr hne
    omega
  unfold takeFrame
  rcases Nat.lt_or_ge l.length headerSize with hlen | hlen
  · rw [next_short rfl hlen]
  obtain ⟨hfault, hsize⟩ := headerOf_passes h
  have hfront : ∀ x, headerFault (l ++ x) = headerFault l := headerFault_append hlen
  have hpass : headerFault l = none := by
    rw [← hfront t, heq, encodeFrame,
      headerFault_append (Nat.le_of_eq (length_headerOf frame).symm), hfault]
  have hread : (readU32 l 8).toNat = frame.payload.length := by
    unfold headerSize at hlen
    have hsame : readU32 (l ++ t) 8 = readU32 l 8 := readU32_append (by omega)
    rw [← hsame, heq, encodeFrame, readU32_append (by rw [length_headerOf]; decide), hsize]
  rw [next_passed rfl hlen hpass]
  rw [hread, nextPayload_short hshort]

def frameCode : SelfDelimiting.Code Frame (BitVec 8) Error where
  Valid frame := frame.payload.length ≤ maximumPayloadSize
  encode := encodeFrame
  take := takeFrame
  take_encode := takeFrame_encode
  take_start := takeFrame_start

/-! ## A decoder with a history -/

def Tracks (d : FrameDecoder) : Prop :=
  d.phase = .payload → headerSize ≤ d.bytes.length ∧ headerFault d.bytes = none ∧
    d.payloadSize = (readU32 d.bytes 8).toNat

variable {d : FrameDecoder} {frames : List Frame} {tail : List (BitVec 8)}

lemma Tracks.append (h : Tracks d) (x : List (BitVec 8)) :
    Tracks { d with bytes := d.bytes ++ x } := by
  intro hphase
  obtain ⟨hlen, hfault, hsize⟩ := h hphase
  refine ⟨?_, ?_, ?_⟩
  · rw [length_append]
    exact Nat.le_trans hlen (Nat.le_add_right _ _)
  · exact (headerFault_append hlen x).trans hfault
  · unfold headerSize at hlen
    rw [readU32_append (by omega), hsize]

/-- A call of `next` on these bytes does what the answer says. -/
def Follows (bytes : List (BitVec 8)) (call : Except Error (Option Frame) × FrameDecoder) :
    SelfDelimiting.Answer Frame (BitVec 8) Error → Prop
  | .message frame rest =>
    ∃ d, call = (.ok (some frame), d) ∧ d.bytes = rest ∧ Tracks d ∧ rest.length < bytes.length
  | .more => ∃ d, call = (.ok none, d) ∧ d.bytes = bytes ∧ Tracks d
  | .refused e => ∃ d, call = (.error e, d) ∧ d.bytes = bytes ∧ d.phase = .header

lemma nextPayload_follows (hlen : headerSize ≤ d.bytes.length)
    (hfault : headerFault d.bytes = none) (hphase : d.phase = .payload)
    (hsize : d.payloadSize = (readU32 d.bytes 8).toNat) :
    Follows d.bytes d.nextPayload (takeFrame d.bytes) := by
  -- past the header a decoder without a history is this one
  have hfresh : FrameDecoder.next { bytes := d.bytes } = d.nextPayload := by
    rw [next_passed (d := { bytes := d.bytes }) rfl hlen hfault, ← hsize]
    obtain ⟨bytes, payloadSize, phase⟩ := d
    cases hphase
    rfl
  unfold takeFrame
  rw [hfresh]
  rcases Nat.lt_or_ge d.bytes.length (headerSize + d.payloadSize) with hshort | hlong
  · rw [nextPayload_short hshort]
    exact ⟨d, rfl, rfl, fun _ => ⟨hlen, hfault, hsize⟩⟩
  rw [nextPayload_complete hlong]
  refine ⟨_, rfl, rfl, nofun, ?_⟩
  unfold headerSize at hlong hlen ⊢
  rw [length_drop]
  omega

/-- What a call of `next` comes to depends on the bytes alone. -/
lemma next_follows (h : Tracks d) : Follows d.bytes d.next (takeFrame d.bytes) := by
  cases hphase : d.phase with
  | payload =>
    obtain ⟨hlen, hfault, hsize⟩ := h hphase
    have hnext : d.next = d.nextPayload := by
      unfold FrameDecoder.next
      rw [hphase]
    rw [hnext]
    exact nextPayload_follows hlen hfault hphase hsize
  | header =>
    rcases Nat.lt_or_ge d.bytes.length headerSize with hshort | hlen
    · have hmore : takeFrame d.bytes = .more := by
        unfold takeFrame
        rw [next_short (d := { bytes := d.bytes }) rfl hshort]
      rw [hmore]
      exact ⟨d, next_short hphase hshort, rfl, h⟩
    cases hfault : headerFault d.bytes with
    | some e =>
      have hrefused : takeFrame d.bytes = .refused e := by
        obtain ⟨d₁, hnext₁, -⟩ := next_failed (d := { bytes := d.bytes }) rfl hlen hfault
        unfold takeFrame
        rw [hnext₁]
      rw [hrefused]
      exact next_failed hphase hlen hfault
    | none =>
      rw [next_passed hphase hlen hfault]
      exact nextPayload_follows
        (d := { d with payloadSize := (readU32 d.bytes 8).toNat, phase := .payload })
        hlen hfault rfl rfl

def refusal : SelfDelimiting.Answer Frame (BitVec 8) Error → List Report
  | .refused e => [.error e]
  | _ => []

variable {l : List (BitVec 8)} {e : Error}

lemma drain_of_drains {r : List (BitVec 8)} (h : SelfDelimiting.Drains frameCode l frames r)
    {calls : Nat} (htracks : Tracks d) (hbytes : d.bytes = l) (hcalls : l.length < calls) :
    ∃ d', drain calls d = (frames.map .frame ++ refusal (takeFrame r), d') ∧ d'.bytes = r ∧
      Tracks d' ∧ ((∃ e, takeFrame r = .refused e) → d'.phase = .header) := by
  induction h generalizing d calls with
  | @rests l hrests =>
    subst hbytes
    obtain ⟨calls, rfl⟩ : ∃ n, calls = n + 1 := ⟨calls - 1, by omega⟩
    have hnext := next_follows htracks
    cases hanswer : takeFrame d.bytes with
    | message frame rest => exact absurd hanswer (hrests frame rest)
    | more =>
      rw [hanswer] at hnext
      obtain ⟨d', hd', hsame, htracks'⟩ := hnext
      refine ⟨d', ?_, hsame, htracks', ?_⟩
      · rw [drain, hd']
        rfl
      · rintro ⟨e, he⟩
        cases he
    | refused e =>
      rw [hanswer] at hnext
      obtain ⟨d', hd', hsame, hheader⟩ := hnext
      refine ⟨d', ?_, hsame, ?_, fun _ => hheader⟩
      · rw [drain, hd']
        rfl
      · intro hphase
        rw [hheader] at hphase
        cases hphase
  | @takes l rest r frame frames htakes hrest ih =>
    subst hbytes
    obtain ⟨calls, rfl⟩ : ∃ n, calls = n + 1 := ⟨calls - 1, by omega⟩
    have hnext := next_follows htracks
    have hanswer : takeFrame d.bytes = .message frame rest := htakes
    rw [hanswer] at hnext
    obtain ⟨d₁, hd₁, hbytes₁, htracks₁, hshorter⟩ := hnext
    obtain ⟨d', hdrain, hlast⟩ := ih htracks₁ hbytes₁ (show _ < calls by omega)
    refine ⟨d', ?_, hlast⟩
    rw [drain, hd₁]
    dsimp only
    rw [hdrain]
    rfl

/-! ## Whole streams -/

variable {chunk : List (BitVec 8)}

lemma append_ok
    (h : d.bytes.length + chunk.length ≤ maximumBufferedSize) :
    d.append chunk = .ok { d with bytes := d.bytes ++ chunk } :=
  if_neg (by omega)

lemma append_error
    (h : maximumBufferedSize < d.bytes.length + chunk.length)
    (hroom : d.bytes.length ≤ maximumBufferedSize) :
    d.append chunk = .error (parseError "stdio protocol input buffer exceeds its limit") :=
  if_pos (by omega)

lemma any_isError_append (frames : List Frame)
    (answer : SelfDelimiting.Answer Frame (BitVec 8) Error) :
    (frames.map Report.frame ++ refusal answer).any Report.isError =
      (refusal answer).any Report.isError := by
  rw [any_append, any_map]
  have hnone : frames.any (Report.isError ∘ Report.frame) = false :=
    List.any_eq_false.mpr fun _ _ => nofun
  rw [hnone, Bool.false_or]

/-- The end of a stream: every piece of it waits for more or is refused, and once
refused it stays so. -/
def Ends (tail : List (BitVec 8)) : Prop :=
  ∀ p t, p ++ t = tail →
    takeFrame p = .more ∨ ∃ e, takeFrame p = .refused e ∧ takeFrame tail = .refused e

lemma Ends.inert (h : Ends tail) : SelfDelimiting.Inert frameCode tail := by
  intro p t hp frame rest hmessage
  have hmessage : takeFrame p = .message frame rest := hmessage
  rcases h p t hp with hmore | ⟨e, he, -⟩
  · rw [hmore] at hmessage
    cases hmessage
  · rw [he] at hmessage
    cases hmessage

open SelfDelimiting

section

variable (htail : Ends tail) (chunks : List (List (BitVec 8)))
  (hframes : ∀ f ∈ frames, f.payload.length ≤ maximumPayloadSize) (htracks : Tracks d)
include htail hframes htracks

/-- What is received of a stream, if every chunk fits: all frames, then the refusal
of the tail, if it is refused. The induction is on the chunks; the decoder keeps
what came of a frame that is not complete. -/
lemma receive_of_fits (hwaits : takeFrame d.bytes = .more)
    (hstream : d.bytes ++ chunks.flatten = encodeAll frameCode frames ++ tail)
    (hfits : fits maximumBufferedSize (lengths frameCode frames)
      d.bytes.length (chunks.map List.length) = true) :
    ∃ d', receive d chunks = (frames.map .frame ++ refusal (takeFrame tail), d') ∧ Tracks d' ∧
      (takeFrame tail = .more → d'.bytes = tail) ∧
      ∀ e, takeFrame tail = .refused e → takeFrame d'.bytes = .refused e ∧ d'.phase = .header := by
  induction chunks generalizing frames d with
  | nil =>
    rw [flatten_nil, append_nil] at hstream
    cases frames with
    | cons f frames =>
      -- a complete frame would have been taken
      have hmessage : takeFrame d.bytes =
          .message f (encodeAll frameCode frames ++ tail) := by
        rw [hstream, encodeAll, flatMap_cons, append_assoc]
        exact takeFrame_encode f _ (hframes f mem_cons_self)
      rw [hwaits] at hmessage
      cases hmessage
    | nil =>
      have hbytes : d.bytes = tail := hstream
      rw [hbytes] at hwaits
      refine ⟨d, ?_, htracks, fun _ => hbytes, fun e he => ?_⟩
      · rw [hwaits]
        rfl
      · rw [hwaits] at he
        cases he
  | cons chunk chunks ih =>
    obtain ⟨hroom, hfits⟩ := Bool.and_eq_true_iff.mp hfits
    have hroom : d.bytes.length + chunk.length ≤ maximumBufferedSize := of_decide_eq_true hroom
    rw [flatten_cons, ← append_assoc] at hstream
    obtain ⟨done, left, r, hsplit⟩ :=
      split_of_stream frameCode hframes htail.inert hstream
    obtain ⟨d₁, hdrain, hbytes, htracks₁, hheader⟩ :=
      drain_of_drains hsplit.drains (htracks.append chunk) rfl (Nat.lt_succ_self _)
    rw [receive, append_ok hroom]
    dsimp only
    rw [hdrain, any_isError_append]
    have hends : takeFrame r = .more ∨
        left = [] ∧ ∃ e, takeFrame r = .refused e ∧ takeFrame tail = .refused e := by
      by_cases hempty : left = []
      · rw [hempty] at hsplit
        exact (htail r chunks.flatten hsplit.stream).imp_right fun h => ⟨hempty, h⟩
      · exact .inl (hsplit.waits hempty)
    rcases hends with hmore | ⟨rfl, e, he, htailed⟩
    · -- the rest of the stream
      have hleft : ∀ f ∈ left, f.payload.length ≤ maximumPayloadSize := fun f hf =>
        hframes f (hsplit.parts ▸ mem_append_right _ hf)
      have hcount := hsplit.counted
      rw [length_append] at hcount
      rw [hcount] at hfits
      obtain ⟨d', hrest, hlast⟩ := ih hleft htracks₁ (hbytes ▸ hmore)
        (hbytes ▸ hsplit.stream) (hbytes ▸ hfits)
      refine ⟨d', ?_, hlast⟩
      rw [hmore, hrest, hsplit.parts]
      simp [refusal]
    · refine ⟨d₁, ?_, htracks₁, ?_, ?_⟩
      · rw [he, htailed, hsplit.parts, append_nil]
        rfl
      · intro hmore
        rw [htailed] at hmore
        cases hmore
      · intro e' he'
        rw [htailed] at he'
        cases he'
        exact ⟨hbytes ▸ he, hheader ⟨e, he⟩⟩

/-- A stream with a chunk that does not fit is not received without an error. -/
lemma receive_of_not_fits (hroom : d.bytes.length ≤ maximumBufferedSize)
    (hstream : d.bytes ++ chunks.flatten = encodeAll frameCode frames ++ tail)
    (hfits : fits maximumBufferedSize (lengths frameCode frames)
      d.bytes.length (chunks.map List.length) = false) :
    ∃ e, .error e ∈ (receive d chunks).1 := by
  induction chunks generalizing frames d with
  | nil => cases hfits
  | cons chunk chunks ih =>
    rcases Nat.lt_or_ge maximumBufferedSize (d.bytes.length + chunk.length) with hlarge | hsmall
    · rw [receive, append_error hlarge hroom]
      exact ⟨_, mem_singleton_self _⟩
    rw [map_cons, fits, decide_eq_true hsmall, Bool.true_and] at hfits
    rw [flatten_cons, ← append_assoc] at hstream
    obtain ⟨done, left, r, hsplit⟩ :=
      split_of_stream frameCode hframes htail.inert hstream
    obtain ⟨d₁, hdrain, hbytes, htracks₁, -⟩ :=
      drain_of_drains hsplit.drains (htracks.append chunk) rfl (Nat.lt_succ_self _)
    rw [receive, append_ok hsmall]
    dsimp only
    rw [hdrain]
    split
    · rename_i herror
      obtain ⟨report, hreport, hbad⟩ := any_eq_true.mp herror
      cases report with
      | frame f => cases hbad
      | error e => exact ⟨e, hreport⟩
    have hleft : ∀ f ∈ left, f.payload.length ≤ maximumPayloadSize := fun f hf =>
      hframes f (hsplit.parts ▸ mem_append_right _ hf)
    have hcount := hsplit.counted
    rw [length_append] at hcount
    rw [hcount] at hfits
    have hshorter : d₁.bytes.length ≤ maximumBufferedSize := by
      have hle := leftover_le (lengths frameCode frames)
        (d.bytes.length + chunk.length)
      rw [hcount] at hle
      rw [hbytes]
      exact Nat.le_trans hle hsmall
    obtain ⟨e, he⟩ := ih hleft htracks₁ hshorter (hbytes ▸ hsplit.stream) (hbytes ▸ hfits)
    exact ⟨e, mem_append_right _ he⟩

end

/-! ## After a refusal -/

inductive Call
  | append (bytes : List (BitVec 8))
  | next
  | finish

/-- What a call answers, and the decoder after it. A chunk that does not fit is not
appended. -/
def call (d : FrameDecoder) : Call → Except Error (Option Frame) × FrameDecoder
  | .append bytes =>
    match d.append bytes with
    | .ok d => (.ok none, d)
    | .error e => (.error e, d)
  | .next => d.next
  | .finish => (d.finish.map fun _ => none, d)

def answers (d : FrameDecoder) : List Call → List (Call × Except Error (Option Frame))
  | [] => []
  | c :: calls => (c, (call d c).1) :: answers (call d c).2 calls

/-- A bad header stands at the front. -/
structure Stuck (e : Error) (d : FrameDecoder) : Prop where
  phase : d.phase = .header
  complete : headerSize ≤ d.bytes.length
  fault : headerFault d.bytes = some e

lemma Stuck.call (h : Stuck e d) (c : Call) : Stuck e (call d c).2 := by
  cases c with
  | append bytes =>
    unfold NetworkProtocol.call
    dsimp only
    cases happend : d.append bytes with
    | error e' => exact h
    | ok d' =>
      have hd' : d' = { d with bytes := d.bytes ++ bytes } := by
        unfold append at happend
        split_ifs at happend
        exact (Except.ok.inj happend).symm
      subst hd'
      refine ⟨h.phase, ?_, ?_⟩
      · rw [length_append]
        exact Nat.le_trans h.complete (Nat.le_add_right _ _)
      · exact (headerFault_append h.complete bytes).trans h.fault
  | next =>
    obtain ⟨d', hnext, hbytes, hphase⟩ := next_failed h.phase h.complete h.fault
    have hd' : (NetworkProtocol.call d .next).2 = d' := congrArg Prod.snd hnext
    rw [hd']
    exact ⟨hphase, hbytes ▸ h.complete, hbytes ▸ h.fault⟩
  | finish => exact h

/-- From then on every call of `next` and of `finish` fails, and no call gives a
frame. -/
lemma Stuck.answers (h : Stuck e d) (calls : List Call) :
    ∀ a ∈ answers d calls, (∀ f, a.2 ≠ .ok (some f)) ∧ (a.1 = .next → a.2 = .error e) ∧
      (a.1 = .finish → ∃ e', a.2 = .error e') := by
  induction calls generalizing d with
  | nil => simp [NetworkProtocol.answers]
  | cons c calls ih =>
    intro a ha
    rcases mem_cons.mp ha with rfl | ha
    · cases c with
      | append bytes =>
        refine ⟨fun f => ?_, nofun, nofun⟩
        unfold NetworkProtocol.call
        dsimp only
        cases d.append bytes <;> exact nofun
      | next =>
        obtain ⟨d', hnext, -⟩ := next_failed h.phase h.complete h.fault
        have hanswer : (NetworkProtocol.call d .next).1 = .error e := congrArg Prod.fst hnext
        refine ⟨fun f => ?_, fun _ => hanswer, nofun⟩
        rw [hanswer]
        exact nofun
      | finish =>
        have hne : d.bytes ≠ [] := by
          intro hnil
          have := h.complete
          rw [hnil] at this
          exact absurd this (by decide)
        have hanswer : (NetworkProtocol.call d .finish).1 =
            .error (parseError "truncated stdio protocol frame at end of input") := by
          unfold NetworkProtocol.call finish
          rw [h.phase]
          rw [if_pos hne]
          rfl
        refine ⟨fun f => ?_, nofun, fun _ => ⟨_, hanswer⟩⟩
        rw [hanswer]
        exact nofun
    · exact ih (h.call c) a ha

/-! ## The law of the stream -/

/-- A piece of a frame that is not all of it. -/
def PartialFrame (tail : List (BitVec 8)) : Prop :=
  tail = [] ∨ ∃ f t, f.payload.length ≤ maximumPayloadSize ∧ t ≠ [] ∧ tail ++ t = encodeFrame f

lemma takeFrame_nil : takeFrame [] = .more := rfl

lemma PartialFrame.more (h : PartialFrame tail) : ∀ p t, p ++ t = tail → takeFrame p = .more := by
  intro p t hp
  rcases h with rfl | ⟨f, t', hf, hne, heq⟩
  · rw [(List.append_eq_nil_iff.mp hp).1]
    exact takeFrame_nil
  · refine takeFrame_start f p (t ++ t') hf ?_ ?_
    · rw [← append_assoc, hp, heq]
    · exact append_ne_nil_of_right_ne_nil _ hne

lemma takeFrame_of_fault (hlen : headerSize ≤ l.length) (h : headerFault l = some e) :
    takeFrame l = .refused e := by
  obtain ⟨d, hnext, -⟩ := next_failed (d := { bytes := l }) rfl hlen h
  unfold takeFrame
  rw [hnext]

lemma fault_of_refused (h : takeFrame l = .refused e) :
    headerSize ≤ l.length ∧ headerFault l = some e := by
  rcases Nat.lt_or_ge l.length headerSize with hshort | hlen
  · unfold takeFrame at h
    rw [next_short (d := { bytes := l }) rfl hshort] at h
    cases h
  cases hfault : headerFault l with
  | some e' =>
    rw [takeFrame_of_fault hlen hfault] at h
    cases h
    exact ⟨hlen, rfl⟩
  | none =>
    unfold takeFrame at h
    rw [next_passed (d := { bytes := l }) rfl hlen hfault] at h
    unfold nextPayload at h
    dsimp only at h
    split_ifs at h

lemma ends_of_fault {junk : List (BitVec 8)} (hlen : headerSize ≤ junk.length)
    (h : headerFault junk = some e) : Ends junk := by
  intro p t hp
  rcases Nat.lt_or_ge p.length headerSize with hshort | hlong
  · left
    unfold takeFrame
    rw [next_short (d := { bytes := p }) rfl hshort]
  · refine .inr ⟨e, takeFrame_of_fault hlong ?_, takeFrame_of_fault hlen h⟩
    rw [← headerFault_append hlong t, hp, h]

def chunksFit (frames : List Frame) (chunks : List (List (BitVec 8))) : Bool :=
  SelfDelimiting.fits maximumBufferedSize (SelfDelimiting.lengths frameCode frames) 0
    (chunks.map List.length)

lemma finish_ok_iff (h : Tracks d) : d.finish = .ok () ↔ d.bytes = [] := by
  unfold finish
  cases hphase : d.phase with
  | header =>
    by_cases hnil : d.bytes = []
    · simp [hnil]
    · simp [hnil]
  | payload =>
    have hlen := (h hphase).1
    refine ⟨nofun, fun hnil => ?_⟩
    rw [hnil] at hlen
    exact absurd hlen (by decide)

lemma length_encodeFrame (f : Frame) :
    (encodeFrame f).length = headerSize + f.payload.length := by
  rw [encodeFrame, length_append, length_headerOf]

lemma PartialFrame.length_lt (h : PartialFrame tail) :
    tail.length < headerSize + maximumPayloadSize := by
  rcases h with rfl | ⟨f, t, hf, hne, heq⟩
  · decide
  have hlen := congrArg List.length heq
  have hpos := List.length_pos_iff.mpr hne
  rw [length_append, length_encodeFrame] at hlen
  omega

section

variable (hframes : ∀ f ∈ frames, f.payload.length ≤ maximumPayloadSize)
include hframes

lemma chunksFit_of_small {chunks : List (List (BitVec 8))} (htail : PartialFrame tail)
    (hstream : chunks.flatten = encodeAll frameCode frames ++ tail)
    (hsmall : ∀ chunk ∈ chunks, chunk.length ≤ 4096) : chunksFit frames chunks = true := by
  have hcapacity : headerSize + maximumPayloadSize + 4096 ≤ maximumBufferedSize + 1 := by decide
  refine fits_of_small hcapacity htail.length_lt _ ?_ ?_ (by decide) ?_
  · intro c hc
    obtain ⟨chunk, hchunk, rfl⟩ := mem_map.mp hc
    exact hsmall chunk hchunk
  · intro z hz
    obtain ⟨f, hf, rfl⟩ := mem_map.mp hz
    show (encodeFrame f).length ≤ _
    rw [length_encodeFrame]
    exact Nat.add_le_add_left (hframes f hf) _
  · have hlen := congrArg List.length hstream
    rw [length_flatten, length_append] at hlen
    rw [sum_lengths, Nat.zero_add]
    exact Nat.le_of_eq hlen

lemma mapM_writeFrame :
    frames.mapM writeFrame = .ok (frames.map encodeFrame) := by
  induction frames with
  | nil => rfl
  | cons f frames ih =>
    have hf : writeFrame f = .ok (encodeFrame f) :=
      if_neg (Nat.not_lt.mpr (hframes f mem_cons_self))
    rw [mapM_cons, hf, ih fun g hg => hframes g (mem_cons_of_mem _ hg)]
    rfl

end

/-- **A stream of frames survives every cut.** The frames come out in order and
without an error exactly when every chunk fits into the buffer, as chunks of 4096
bytes always do, and `finish` then succeeds exactly when no piece of a frame is left.
A bad header is reported when it is reached, and from then on no call gives a frame
and `next` and `finish` fail, while `append` takes what there is room for. -/
theorem frames_survive_every_cut (frames : List Frame)
    (hframes : ∀ f ∈ frames, f.payload.length ≤ maximumPayloadSize)
    (chunks : List (List (BitVec 8))) :
    ∃ encodings, frames.mapM writeFrame = .ok encodings ∧
    (∀ tail, PartialFrame tail → chunks.flatten = encodings.flatten ++ tail →
      ((∀ e, .error e ∉ (receive {} chunks).1) ↔ chunksFit frames chunks = true) ∧
      (chunksFit frames chunks = true →
        (receive {} chunks).1 = frames.map .frame ∧
          ((receive {} chunks).2.finish = .ok () ↔ tail = [])) ∧
      ((∀ chunk ∈ chunks, chunk.length ≤ 4096) → chunksFit frames chunks = true)) ∧
    (∀ junk e, headerSize ≤ junk.length → headerFault junk = some e →
      chunks.flatten = encodings.flatten ++ junk → chunksFit frames chunks = true →
      (receive {} chunks).1 = frames.map .frame ++ [.error e] ∧
        ∀ calls, ∀ a ∈ answers (receive {} chunks).2 calls, (∀ f, a.2 ≠ .ok (some f)) ∧
          (a.1 = .next → a.2 = .error e) ∧ (a.1 = .finish → ∃ e', a.2 = .error e')) ∧
    ∀ (d : FrameDecoder) (chunk : List (BitVec 8)),
      d.bytes.length + chunk.length ≤ maximumBufferedSize →
      d.append chunk = .ok { d with bytes := d.bytes ++ chunk } := by
  have hstart : Tracks {} := nofun
  refine ⟨_, mapM_writeFrame hframes, ?_, ?_, fun _ _ => append_ok⟩
  · intro tail htail hstream
    have hends : Ends tail := fun p t hp => .inl (htail.more p t hp)
    have hmore : takeFrame tail = .more := htail.more tail [] (List.append_nil _)
    have hgood : chunksFit frames chunks = true →
        (receive {} chunks).1 = frames.map .frame ∧
          ((receive {} chunks).2.finish = .ok () ↔ tail = []) := by
      intro hfits
      obtain ⟨d', hreceive, htracks, hbytes, -⟩ :=
        receive_of_fits hends chunks hframes hstart takeFrame_nil hstream hfits
      rw [hreceive, hmore]
      refine ⟨List.append_nil _, ?_⟩
      rw [finish_ok_iff htracks, hbytes hmore]
    refine ⟨⟨fun hnone => ?_, fun hfits e he => ?_⟩, hgood, chunksFit_of_small hframes htail hstream⟩
    · cases hfits : chunksFit frames chunks with
      | true => rfl
      | false =>
        obtain ⟨e, he⟩ := receive_of_not_fits hends chunks hframes hstart (Nat.zero_le _)
          hstream hfits
        exact absurd he (hnone e)
    · rw [(hgood hfits).1] at he
      obtain ⟨f, -, hf⟩ := List.mem_map.mp he
      cases hf
  · intro junk e hlen hfault hstream hfits
    have hrefused := takeFrame_of_fault hlen hfault
    obtain ⟨d', hreceive, -, -, hstuck⟩ :=
      receive_of_fits (ends_of_fault hlen hfault) chunks hframes hstart takeFrame_nil hstream hfits
    obtain ⟨hfront, hphase⟩ := hstuck e hrefused
    rw [hreceive, hrefused]
    obtain ⟨hcomplete, hfault'⟩ := fault_of_refused hfront
    exact ⟨rfl, fun calls => Stuck.answers ⟨hphase, hcomplete, hfault'⟩ calls⟩

/-- A frame with the largest payload. -/
def fullFrame : Frame := ⟨1, 0, List.replicate maximumPayloadSize 0⟩

/-- Two of the largest frames do not go through the buffer in one chunk. And after a
bad header it is only `next` and `finish` that fail. -/
theorem a_chunk_may_be_too_large :
    (receive {} [encodeFrame fullFrame ++ encodeFrame fullFrame]).1 =
        [.error (parseError "stdio protocol input buffer exceeds its limit")] ∧
      ((receive {} [List.replicate 16 0]).1 =
          [.error (parseError "invalid stdio protocol magic")] ∧
        (answers (receive {} [List.replicate 16 0]).2 [.append [0], .next]).map Prod.snd =
          [.ok none, .error (parseError "invalid stdio protocol magic")]) := by
  refine ⟨?_, by decide⟩
  have hlarge : maximumBufferedSize <
      ({} : FrameDecoder).bytes.length + (encodeFrame fullFrame ++ encodeFrame fullFrame).length := by
    rw [List.length_append, length_encodeFrame, fullFrame, List.length_replicate]
    decide
  rw [receive, append_error hlarge (Nat.zero_le _)]

/-- A frame in two chunks and a piece of the next. -/
theorem a_frame_in_two_chunks :
    (receive {} [(encodeFrame ⟨3, 7, [1, 2]⟩).take 5,
        (encodeFrame ⟨3, 7, [1, 2]⟩).drop 5 ++ [0x46]]).1 = [.frame ⟨3, 7, [1, 2]⟩] ∧
      (receive {} [(encodeFrame ⟨3, 7, [1, 2]⟩).take 5,
        (encodeFrame ⟨3, 7, [1, 2]⟩).drop 5 ++ [0x46]]).2.finish ≠ .ok () := by
  obtain ⟨encodings, hencodings, hgood, -⟩ :=
    frames_survive_every_cut [⟨3, 7, [1, 2]⟩] (by decide)
      [(encodeFrame ⟨3, 7, [1, 2]⟩).take 5, (encodeFrame ⟨3, 7, [1, 2]⟩).drop 5 ++ [0x46]]
  cases hencodings
  have hpiece : PartialFrame [0x46] :=
    .inr ⟨⟨0, 0, []⟩, (encodeFrame ⟨0, 0, []⟩).drop 1, by decide, by decide, by decide⟩
  obtain ⟨-, hframes, hfits⟩ := hgood [0x46] hpiece (by decide)
  obtain ⟨hreports, hfinish⟩ := hframes (hfits (by decide))
  exact ⟨hreports, fun hok => absurd (hfinish.mp hok) (by decide)⟩

end Fil.Cli.NetworkProtocol
