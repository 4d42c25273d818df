-- The register banks of the chip's peripherals. An access of any width is
-- split into lanes, one for each word it touches, in address order.
import Fil.MemoryMap
import Mathlib.Logic.Function.Basic

namespace Fil.Stm32g4

/-- A part of an access that lies in one word. -/
structure Lane where
  consumed : Nat
  count : Nat
  deriving DecidableEq

/-- The lanes from byte `consumed` of the access on. -/
def lanesFrom (offset width : Nat) : Nat → Nat → List Lane
  | 0, _ => []
  | fuel + 1, consumed =>
    if width ≤ consumed then []
    else
      let count := min (width - consumed) (4 - (offset + consumed) % 4)
      ⟨consumed, count⟩ :: lanesFrom offset width fuel (consumed + count)

/-- The lanes of an access. Every lane takes a byte or more. -/
def lanes (offset width : Nat) : List Lane := lanesFrom offset width width 0

/-- An aligned word is one lane. -/
example : lanes 0x90 4 = [⟨0, 4⟩] ∧ lanes 0x93 4 = [⟨0, 1⟩, ⟨1, 3⟩] := by decide

namespace Lane

def word (lane : Lane) (offset : Nat) : Nat :=
  offset + lane.consumed - (offset + lane.consumed) % 4

def shift (lane : Lane) (offset : Nat) : Nat := (offset + lane.consumed) % 4 * 8

def lowMask (lane : Lane) : BitVec 64 := (1#64 <<< (lane.count * 8)) - 1

def mask (lane : Lane) (offset : Nat) : BitVec 32 :=
  lane.lowMask.setWidth 32 <<< lane.shift offset

/-- The bits of a value that the lane writes, in place. -/
def bits (lane : Lane) (offset : Nat) (value : BitVec 64) : BitVec 32 :=
  ((value >>> (lane.consumed * 8)) &&& lane.lowMask).setWidth 32 <<< lane.shift offset

/-- The word after the lane was written. -/
def merge (lane : Lane) (offset : Nat) (value : BitVec 64) (previous : BitVec 32) : BitVec 32 :=
  (previous &&& ~~~(lane.mask offset)) ||| (lane.bits offset value &&& lane.mask offset)

/-- The part of a read value that comes from the word of the lane. -/
def extract (lane : Lane) (offset : Nat) (word : BitVec 32) : BitVec 64 :=
  ((word.setWidth 64 >>> lane.shift offset) &&& lane.lowMask) <<< (lane.consumed * 8)

end Lane

/-- Whether an access lies in a block. -/
def rangeFits (offset width size : Nat) : Bool := width ≤ size && offset ≤ size - width

/-- What a write does to one word: its bits, and which of them count. -/
structure Store where
  word : Nat
  bits : BitVec 32
  mask : BitVec 32
  deriving DecidableEq

/-- The word after the store. -/
def Store.merged (s : Store) (previous : BitVec 32) : BitVec 32 :=
  (previous &&& ~~~s.mask) ||| (s.bits &&& s.mask)

/-- The stores of a write to a block of `blockSize` bytes. -/
def stores (blockSize offset : Nat) (size : Mem.AccessSize) (value : BitVec 64) : List Store :=
  if rangeFits offset (Mem.byteCount size) blockSize then
    (lanes offset (Mem.byteCount size)).map fun lane =>
      ⟨lane.word offset, lane.bits offset value, lane.mask offset⟩
  else []

end Fil.Stm32g4
