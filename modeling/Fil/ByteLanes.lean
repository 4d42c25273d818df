-- Words as little-endian bytes. A word is known by its bytes, a masked
-- difference is zero when one byte agrees, and reading bytes back in order
-- gives the bits that were stored.
import Mathlib.Algebra.Group.Nat.Defs
import Mathlib.Data.List.Basic
import Mathlib.Tactic.IntervalCases

open BitVec (eq_of_getLsbD_eq getLsbD_and getLsbD_of_ge getLsbD_or getLsbD_setWidth getLsbD_xor
  ofNat toNat toNat_ofNat twoPow)

namespace ByteLanes

/-- Byte number `i` of a word, counted from the low end. -/
def byteAt {w : Nat} (v : BitVec w) (i : Nat) : BitVec 8 := (v >>> (i * 8)).setWidth 8

/-- The word whose bytes stand at `address` and after, low byte first. -/
def littleEndian (bytes : BitVec 32 → BitVec 8) (address : BitVec 32) (width : Nat) : BitVec 64 :=
  (List.range width).foldl
    (fun value i => value ||| ((bytes (address + BitVec.ofNat 32 i)).setWidth 64 <<< (i * 8))) 0

lemma getLsbD_byteAt {w : Nat} (v : BitVec w) (i k : Nat) :
    (byteAt v i).getLsbD k = (decide (k < 8) && v.getLsbD (i * 8 + k)) := by
  simp [byteAt]

lemma getLsbD_lane {i : Nat} (hi : i < 4) (k : Nat) :
    (0xff#32 <<< (i * 8)).getLsbD k = decide (i * 8 ≤ k ∧ k < i * 8 + 8) := by
  rcases Nat.lt_or_ge k 32 with hk | hk
  · have table : ∀ i < 4, ∀ k < 32,
        (0xff#32 <<< (i * 8)).getLsbD k = decide (i * 8 ≤ k ∧ k < i * 8 + 8) := by decide
    exact table i hi k hk
  · rw [getLsbD_of_ge _ _ hk]
    simp only [Bool.false_eq, decide_eq_false_iff_not]
    omega

lemma lane_zero_iff (x y : BitVec 32) {i : Nat} (hi : i < 4) :
    (x ^^^ y) &&& (0xff#32 <<< (i * 8)) = 0 ↔ byteAt x i = byteAt y i := by
  constructor
  · intro h
    apply eq_of_getLsbD_eq
    intro k hk
    have hbit := congrArg (fun b => b.getLsbD (i * 8 + k)) h
    have hin : i * 8 ≤ i * 8 + k ∧ i * 8 + k < i * 8 + 8 := by omega
    simp only [getLsbD_and, getLsbD_xor, getLsbD_lane hi, hin, decide_true,
      Bool.and_true, BitVec.ofNat_eq_ofNat, BitVec.getLsbD_zero, and_self] at hbit
    simp only [getLsbD_byteAt, hk, decide_true, Bool.true_and]
    simpa using hbit
  · intro h
    apply eq_of_getLsbD_eq
    intro k _
    simp only [getLsbD_and, getLsbD_xor, getLsbD_lane hi]
    by_cases hin : i * 8 ≤ k ∧ k < i * 8 + 8
    · have hbit := congrArg (fun b => b.getLsbD (k - i * 8)) h
      have h1 : i * 8 + (k - i * 8) = k := by omega
      have h2 : k - i * 8 < 8 := by omega
      simp only [getLsbD_byteAt, h1, h2, decide_true, Bool.true_and] at hbit
      simp [hbit]
    · simp [hin]

lemma littleEndian_congr {f g : BitVec 32 → BitVec 8} {a c : BitVec 32} {n : Nat}
    (h : ∀ i < n, f (a + ofNat 32 i) = g (c + ofNat 32 i)) :
    littleEndian f a n = littleEndian g c n := by
  unfold littleEndian
  refine List.foldl_ext _ _ _ fun value i hi => ?_
  rw [h i (List.mem_range.mp hi)]

variable (bytes : BitVec 32 → BitVec 8) (a : BitVec 32)

/-- Bit `k` of a word read from memory is bit `k % 8` of its byte `k / 8`. -/
lemma getLsbD_littleEndian {n : Nat} (hn : n ≤ 8) (k : Nat) :
    (littleEndian bytes a n).getLsbD k =
      (decide (k < n * 8) && (bytes (a + ofNat 32 (k / 8))).getLsbD (k % 8)) := by
  induction n with
  | zero => simp [littleEndian]
  | succ n ih =>
    have hsucc : littleEndian bytes a (n + 1) = littleEndian bytes a n |||
        ((bytes (a + ofNat 32 n)).setWidth 64 <<< (n * 8)) := by
      simp [littleEndian, List.range_succ]
    rw [hsucc, getLsbD_or, ih (by omega), BitVec.getLsbD_shiftLeft, getLsbD_setWidth]
    rcases Nat.lt_or_ge k (n * 8) with h | h
    · have h' : k < (n + 1) * 8 := by omega
      simp [h, h']
    rcases Nat.lt_or_ge k ((n + 1) * 8) with h2 | h2
    · have e1 : k / 8 = n := by omega
      have e2 : k - n * 8 = k % 8 := by omega
      have e3 : k < 64 := by omega
      have e4 : k % 8 < 64 := by omega
      simp [h2, e1, e2, e3, e4, Nat.not_lt.mpr h]
    · have e5 : 8 ≤ k - n * 8 := by omega
      rw [getLsbD_of_ge _ _ e5]
      simp [Nat.not_lt.mpr h, Nat.not_lt.mpr h2]

/-- Reading a word gives back the bytes it is made of. -/
lemma byteAt_littleEndian {i : Nat} (hi : i < 4) :
    byteAt ((littleEndian bytes a 4).setWidth 32) i = bytes (a + ofNat 32 i) := by
  apply eq_of_getLsbD_eq
  intro k hk
  have e1 : i * 8 + k < 32 := by omega
  have e2 : (i * 8 + k) / 8 = i := by omega
  have e3 : (i * 8 + k) % 8 = k := by omega
  simp only [getLsbD_byteAt, getLsbD_setWidth, getLsbD_littleEndian bytes a (by omega : 4 ≤ 8),
    e1, e2, e3, hk, decide_true, Bool.true_and]

/-- Addresses less than a full turn apart are different. -/
lemma add_ofNat_inj {i j : Nat} (hi : i < 2 ^ 32) (hj : j < 2 ^ 32)
    (h : a + ofNat 32 i = a + ofNat 32 j) : i = j := by
  have hbits := BitVec.add_right_inj a |>.mp h
  have hnat := congrArg toNat hbits
  rwa [toNat_ofNat, toNat_ofNat, Nat.mod_eq_of_lt hi, Nat.mod_eq_of_lt hj] at hnat

/-- Bit `k` of some bytes packed into a word is bit `k % 8` of byte `k / 8`, if that
byte is there. -/
lemma getLsbD_packed (p : Nat → Prop) [DecidablePred p] (b : Nat → BitVec 8) {n : Nat}
    (hn : n ≤ 4) (k : Nat) :
    ((List.range n).foldl
      (fun word i => if p i then word ||| ((b i).setWidth 32 <<< (i * 8)) else word)
        (0 : BitVec 32)).getLsbD k =
      (decide (k < n * 8) && (decide (p (k / 8)) && (b (k / 8)).getLsbD (k % 8))) := by
  induction n with
  | zero => simp
  | succ n ih =>
    rw [List.range_succ, List.foldl_append, List.foldl_cons, List.foldl_nil]
    have hbit : ((b n).setWidth 32 <<< (n * 8)).getLsbD k =
        (decide (n * 8 ≤ k ∧ k < (n + 1) * 8) && (b (k / 8)).getLsbD (k % 8)) := by
      rw [BitVec.getLsbD_shiftLeft, getLsbD_setWidth]
      by_cases hin : n * 8 ≤ k ∧ k < (n + 1) * 8
      · have e1 : k / 8 = n := by omega
        have e2 : k - n * 8 = k % 8 := by omega
        have e3 : k < 32 := by omega
        have e4 : k % 8 < 32 := by omega
        simp [hin, e1, e2, e3, e4, Nat.not_lt.mpr hin.1]
      · rcases Nat.lt_or_ge k (n * 8) with hlow | hhigh
        · simp [hin, hlow]
        · rw [getLsbD_of_ge _ _ (by omega : 8 ≤ k - n * 8)]
          simp [hin]
    by_cases hlast : n * 8 ≤ k ∧ k < (n + 1) * 8
    · have e1 : k / 8 = n := by omega
      have e2 : ¬k < n * 8 := by omega
      have e3 : k < (n + 1) * 8 := by omega
      by_cases hp : p n
      · rw [if_pos hp, getLsbD_or, ih (by omega), hbit]
        simp [hlast, e1, e2, hp]
      · rw [if_neg hp, ih (by omega)]
        simp [e1, e2, hp]
    · have e1 : (k < n * 8) ↔ k < (n + 1) * 8 := by omega
      split
      · rw [getLsbD_or, ih (by omega), hbit]
        simp [hlast, e1]
      · rw [ih (by omega)]
        simp [e1]

/-- A word meets a single bit when it has that bit. -/
lemma and_twoPow_ne_zero (v : BitVec 32) {k : Nat} (hk : k < 32) :
    v &&& twoPow 32 k ≠ 0 ↔ v.getLsbD k = true := by
  rw [BitVec.and_twoPow]
  cases v.getLsbD k
  · simp
  · have hne : twoPow 32 k ≠ 0#32 := by
      intro h
      simpa [hk] using congrArg (fun v => v.getLsbD k) h
    simpa using hne

lemma word_of_bytes (v : BitVec 32) :
    (byteAt v 0).setWidth 32 ||| (byteAt v 1).setWidth 32 <<< 8 |||
      (byteAt v 2).setWidth 32 <<< 16 ||| (byteAt v 3).setWidth 32 <<< 24 = v := by
  apply eq_of_getLsbD_eq
  intro k hk
  interval_cases k <;> simp [byteAt]

end ByteLanes
