-- Classic CAN frames: what makes a frame valid, how many bits it takes on the
-- wire with its checksum and stuff bits, and which of two frames wins the
-- arbitration.
import Mathlib.Data.List.Basic

namespace Fil.Devices

/-! ## Frames -/

structure CanFrame where
  id : BitVec 32 := 0
  extended : Bool := false
  fd : Bool := false
  brs : Bool := false
  dlc : BitVec 8 := 0
  /-- The payload. Bytes after the end of the list are zero. -/
  data : List (BitVec 8) := []
  deriving DecidableEq

inductive ErrorCategory
  | invalidArgument
  | runtime
  | unsupported
  deriving DecidableEq

structure CanError where
  category : ErrorCategory
  message : String
  deriving DecidableEq

def dlcToLength (dlc : BitVec 8) : Nat :=
  [0, 1, 2, 3, 4, 5, 6, 7, 8, 12, 16, 20, 24, 32, 48, 64].getD (dlc &&& 0x0f).toNat 0

def validate (frame : CanFrame) : Except CanError Unit :=
  if 15 < frame.dlc then .error ⟨.invalidArgument, "CAN DLC exceeds 15"⟩
  else if (if frame.extended then 0x1fffffff < frame.id else 0x7ff < frame.id) then
    .error ⟨.invalidArgument, "CAN identifier exceeds selected format"⟩
  else if !frame.fd && 8 < frame.dlc then
    .error ⟨.invalidArgument, "classic CAN frame payload exceeds 8 bytes"⟩
  else if !frame.fd && frame.brs then
    .error ⟨.invalidArgument, "classic CAN frame cannot enable bit-rate switching"⟩
  else .ok ()

/-! ## Bits on the wire -/

def classicCrcPolynomial : BitVec 16 := 0x4599

def classicCrcMask : BitVec 16 := 0x7fff

/-- The low `width` bits of a value, highest first. -/
def appendBits {w : Nat} (value : BitVec w) (width : Nat) : List Bool :=
  (List.range width).map fun i => value.getLsbD (width - 1 - i)

/-- The bits from the start of the frame to the end of its payload. -/
def headerAndPayload (frame : CanFrame) : List Bool :=
  let header :=
    if frame.extended then
      appendBits ((frame.id >>> 18) &&& 0x7ff) 11 ++ [true, true] ++
        appendBits (frame.id &&& 0x3ffff) 18 ++ [false, false, false]
    else appendBits frame.id 11 ++ [false, false, false]
  let payload := (List.range (dlcToLength frame.dlc)).flatMap fun byte =>
    appendBits (frame.data.getD byte 0) 8
  [false] ++ header ++ appendBits frame.dlc 4 ++ payload

def crcStep (crc : BitVec 16) (bit : Bool) : BitVec 16 :=
  let feedback := bit != crc.getLsbD 14
  let crc := (crc <<< 1) &&& classicCrcMask
  if feedback then crc ^^^ classicCrcPolynomial else crc

/-- The stuff bits after the first bit: after five equal bits comes one of the
other value, which counts as the first of its own run. -/
def stuffBits (previous : Bool) (run : Nat) : List Bool → Nat
  | [] => 0
  | bit :: bits =>
    let run := if bit = previous then run + 1 else 1
    if run = 5 then stuffBits (!bit) 1 bits + 1 else stuffBits bit run bits

/-- Stuffed bits from the start to the end of the frame. The delimiters, the
acknowledge slot and the end of frame are not stuffed. -/
def classicCanStuffedFrameBits (frame : CanFrame) : Except CanError Nat :=
  match validate frame with
  | .error e => .error e
  | .ok () =>
    if frame.fd then
      .error ⟨.invalidArgument, "classic CAN duration is undefined for CAN-FD frames"⟩
    else
      let body := headerAndPayload frame
      let bits := body ++ appendBits (body.foldl crcStep 0) 15
      .ok (bits.length + stuffBits (bits.headD false) 1 bits.tail + 10)

/-! ## Arbitration -/

/-- The bits that fight for the bus. A dominant bit is `false` and wins. -/
def arbitrationKey (frame : CanFrame) : List Bool :=
  if !frame.extended then appendBits frame.id 11 ++ [false, false]
  else
    appendBits ((frame.id >>> 18) &&& 0x7ff) 11 ++ [true, true] ++
      appendBits (frame.id &&& 0x3ffff) 18 ++ [false]

lemma stuffedFrameBits_of_valid {frame : CanFrame} (hvalid : validate frame = .ok ())
    (hfd : frame.fd = false) : ∃ bits, classicCanStuffedFrameBits frame = .ok bits := by
  unfold classicCanStuffedFrameBits
  rw [hvalid]
  simp [hfd]

example : classicCanStuffedFrameBits { id := 0x123, dlc := 1, data := [0x55] } = .ok 53 := by
  decide +kernel

end Fil.Devices
