-- Slots of a ring, used one after the other. A queue that takes the next slot
-- at its end and gives slots back at its front always holds a run of slots.
-- The laws here are about such runs, in a ring of any size.
import Mathlib.Data.List.Range
import Mathlib.Data.Nat.ModEq

open List

namespace RingSlots

/-- The run of `fill` slots from slot `start` on, in a ring of `n`. -/
def turn (n start fill : Nat) : List Nat := (List.range fill).map fun i => (start + i) % n

variable (n start fill : Nat)

@[simp] lemma length_turn : (turn n start fill).length = fill := by
  simp [turn]

lemma turn_succ : turn n start (fill + 1) = start % n :: turn n (start + 1) fill := by
  simp only [turn, range_succ_eq_map, map_cons, map_map, Nat.add_zero]
  congr 2
  funext i
  simp only [Function.comp_apply, Nat.succ_eq_add_one]
  congr 1
  omega

lemma turn_push : turn n start (fill + 1) = turn n start fill ++ [(start + fill) % n] := by
  simp [turn, range_succ]

/-- Only the place in the ring counts. -/
lemma turn_mod : turn n (start % n) fill = turn n start fill := by
  simp [turn]

lemma turn_tail : (turn n start fill).tail = turn n (start + 1) (fill - 1) := by
  cases fill with
  | zero => rfl
  | succ fill => rw [turn_succ, tail_cons, Nat.add_sub_cancel]

/-- A run of one turn or less uses no slot twice. -/
lemma slot_inj {n start i j : Nat} (hi : i < n) (hj : j < n)
    (h : (start + i) % n = (start + j) % n) : i = j := by
  have hmod : i ≡ j [MOD n] := Nat.ModEq.add_left_cancel' start h
  rwa [Nat.ModEq, Nat.mod_eq_of_lt hi, Nat.mod_eq_of_lt hj] at hmod

def ahead (n start slot : Nat) : Nat := (slot + n - start) % n

lemma add_ahead {n start slot : Nat} (hstart : start < n) (hslot : slot < n) :
    (start + ahead n start slot) % n = slot := by
  unfold ahead
  rw [Nat.add_mod_mod, show start + (slot + n - start) = slot + n by omega, Nat.add_mod_right,
    Nat.mod_eq_of_lt hslot]

/-- A slot is in a run when it is less than the length of the run ahead. -/
lemma mem_turn {n start fill slot : Nat} (hstart : start < n) (hfill : fill ≤ n) :
    slot ∈ turn n start fill ↔ slot < n ∧ ahead n start slot < fill := by
  simp only [turn, mem_map, mem_range]
  constructor
  · rintro ⟨i, hi, rfl⟩
    have hslot : (start + i) % n < n := Nat.mod_lt _ (by omega)
    refine ⟨hslot, ?_⟩
    have hsame := add_ahead hstart hslot
    have hahead : ahead n start ((start + i) % n) < n := Nat.mod_lt _ (by omega)
    rw [slot_inj hahead (by omega) hsame]
    exact hi
  · rintro ⟨hslot, hahead⟩
    exact ⟨ahead n start slot, hahead, add_ahead hstart hslot⟩

/-- Looking for the slot `k` ahead passes the `k` slots before it. -/
lemma dropWhile_turn {n k fill : Nat} (hfill : fill ≤ n) (hk : k < fill) :
    (turn n start fill).dropWhile (fun slot => decide (slot ≠ (start + k) % n)) =
      turn n (start + k) (fill - k) := by
  induction k generalizing start fill with
  | zero =>
    obtain ⟨m, rfl⟩ : ∃ m, fill = m + 1 := ⟨fill - 1, by omega⟩
    rw [turn_succ, dropWhile_cons, Nat.add_zero, Nat.sub_zero, turn_succ]
    simp
  | succ k ih =>
    obtain ⟨m, rfl⟩ : ∃ m, fill = m + 1 := ⟨fill - 1, by omega⟩
    have hne : start % n ≠ (start + (k + 1)) % n := by
      intro h
      have := slot_inj (n := n) (i := 0) (by omega) (by omega) h
      omega
    have hnext : (start + (k + 1)) % n = (start + 1 + k) % n := by
      congr 1
      omega
    rw [turn_succ, dropWhile_cons, if_pos (by simpa using hne), hnext,
      ih (start + 1) (by omega) (by omega), show start + 1 + k = start + (k + 1) by omega,
      show m + 1 - (k + 1) = m - k by omega]

end RingSlots
