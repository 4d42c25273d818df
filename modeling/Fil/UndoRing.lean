-- A map that remembers the old values of its last writes in a fixed ring.
-- The laws here say when the ring still holds what is needed to take the
-- writes back one by one. They hold for any keys, values and ring size.
import Mathlib.Logic.Function.Basic
import Mathlib.Data.Nat.ModEq

open Function
open Function (update)

namespace UndoRing

/-- What one write replaced. -/
structure Entry (K V : Type) where
  key : K
  old : V

/-- A map, the number of writes it stands at, and the ring of old values. -/
structure Log (K V : Type) where
  mem : K → V
  seq : Nat
  slot : Nat → Entry K V

variable {K V : Type} [DecidableEq K]

/-- One write: the old value goes to the slot of the current number. -/
def Log.write (cap : Nat) (l : Log K V) (k : K) (v : V) : Log K V where
  mem := Function.update l.mem k v
  seq := l.seq + 1
  slot := Function.update l.slot (l.seq % cap) ⟨k, l.mem k⟩

/-- Several writes in order. -/
def Log.writes (cap : Nat) (l : Log K V) (ws : List (K × V)) : Log K V :=
  ws.foldl (fun l w => l.write cap w.1 w.2) l

lemma Log.writes_append (cap : Nat) (l : Log K V) (us ws : List (K × V)) :
    l.writes cap (us ++ ws) = (l.writes cap us).writes cap ws :=
  List.foldl_append

lemma Log.writes_seq (cap : Nat) (l : Log K V) (ws : List (K × V)) :
    (l.writes cap ws).seq = l.seq + ws.length := by
  induction ws generalizing l with
  | nil => rfl
  | cons w ws ih =>
    have := ih (l.write cap w.1 w.2)
    simp [Log.writes] at this ⊢
    rw [this]
    simp only [Log.write]
    omega

/-- The ring still knows every write from number `low` on, and `past s` is the
map as it stood at number `s`. Every key it knows satisfies `ok`. -/
structure Intact (cap : Nat) (ok : K → Prop) (l : Log K V) (past : Nat → K → V) (low : Nat) :
    Prop where
  now : past l.seq = l.mem
  low_le : low ≤ l.seq
  room : l.seq ≤ low + cap
  back : ∀ s, low ≤ s → s < l.seq →
    past s = Function.update (past (s + 1)) (l.slot (s % cap)).key (l.slot (s % cap)).old
  keys : ∀ s, low ≤ s → s < l.seq → ok (l.slot (s % cap)).key

variable {cap low : Nat} {ok : K → Prop} {l : Log K V} {past : Nat → K → V}

lemma slot_ne {a b : Nat} (hab : a < b) (hb : b < a + cap) : a % cap ≠ b % cap := by
  intro h
  obtain ⟨k, hk⟩ := (Nat.modEq_iff_dvd' hab.le).mp h
  rcases Nat.eq_zero_or_pos k with rfl | hpos
  · omega
  · have : cap ≤ cap * k := Nat.le_mul_of_pos_right cap hpos
    omega

lemma intact_start (l : Log K V) : Intact cap ok l (fun _ => l.mem) l.seq :=
  ⟨rfl, le_rfl, Nat.le_add_right _ _, fun s h1 h2 => by omega, fun s h1 h2 => by omega⟩

section

variable (h : Intact cap ok l past low)
include h

lemma intact_write {k : K} (hk : ok k) (hroom : l.seq < low + cap) (v : V) :
    Intact cap ok (l.write cap k v)
      (update past (l.seq + 1) (update l.mem k v)) low := by
  have other : ∀ s, low ≤ s → s < l.seq → (l.write cap k v).slot (s % cap) = l.slot (s % cap) := by
    intro s hs hlt
    exact update_of_ne (slot_ne hlt (by omega)) _ _
  have last : (l.write cap k v).slot (l.seq % cap) = ⟨k, l.mem k⟩ := update_self ..
  have seq_eq : (l.write cap k v).seq = l.seq + 1 := rfl
  refine ⟨by simp [Log.write], by have := h.low_le; omega, by omega, ?_, ?_⟩
  · intro s hs hlt
    rcases Nat.lt_or_ge s l.seq with hold | hnew
    · rw [other s hs hold, update_of_ne (by omega), update_of_ne (by omega)]
      exact h.back s hs hold
    obtain rfl : s = l.seq := by omega
    rw [last, update_self, update_of_ne (by omega), update_idem,
      h.now, update_eq_self]
  · intro s hs hlt
    rcases Nat.lt_or_ge s l.seq with hold | hnew
    · rw [other s hs hold]
      exact h.keys s hs hold
    obtain rfl : s = l.seq := by omega
    rw [last]
    exact hk

/-- Writes that all fit in the ring keep everything known, and what stood at
the start still stands in the record. -/
lemma intact_writes {ws : List (K × V)} (hok : ∀ w ∈ ws, ok w.1)
    (hroom : (l.writes cap ws).seq ≤ low + cap) :
    ∃ past', Intact cap ok (l.writes cap ws) past' low ∧ past' low = past low := by
  induction ws generalizing l past with
  | nil => exact ⟨past, h, rfl⟩
  | cons w ws ih =>
    have hlen := Log.writes_seq cap l (w :: ws)
    simp at hlen
    have hlow := h.low_le
    obtain ⟨past', hp, he⟩ := ih (intact_write h (hok w (by simp)) (by omega) w.2)
      (fun x hx => hok x (by simp [hx])) hroom
    refine ⟨past', hp, ?_⟩
    rw [he, update_of_ne (by omega)]

/-- Taking the last write back and clearing its slot keeps everything known
before it. -/
lemma intact_undo {n : Nat} {c : Entry K V} (hseq : l.seq = n + 1) (hn : low ≤ n) :
    Intact cap ok
      { mem := update l.mem (l.slot (n % cap)).key (l.slot (n % cap)).old
        seq := n
        slot := update l.slot (n % cap) c } past low := by
  have other : ∀ s, low ≤ s → s < n → s % cap ≠ n % cap := by
    intro s hs hlt
    exact slot_ne hlt (by have := h.room; omega)
  refine ⟨?_, hn, by have := h.room; dsimp only; omega, ?_, ?_⟩
  · rw [h.back n hn (by omega), ← h.now, hseq]
  · intro s hs hlt
    simp only [update_of_ne (other s hs hlt)]
    exact h.back s hs (by dsimp only at hlt; omega)
  · intro s hs hlt
    simp only [update_of_ne (other s hs hlt)]
    exact h.keys s hs (by dsimp only at hlt; omega)

/-- A key that holds again what its first write since `low` replaced, or that had
no write, holds what it held then. -/
lemma Intact.restored_at {k : K}
    (hfirst : ∀ s, low ≤ s → s < l.seq → (l.slot (s % cap)).key = k →
      (∀ t, low ≤ t → t < s → (l.slot (t % cap)).key ≠ k) → l.mem k = (l.slot (s % cap)).old) :
    l.mem k = past low k := by
  -- downwards from now: a key without a write before `s` stood at `s` as it stands now
  have hback : ∀ n s, low ≤ s → s + n = l.seq →
      (∀ t, low ≤ t → t < s → (l.slot (t % cap)).key ≠ k) → past s k = l.mem k := by
    intro n
    induction n with
    | zero =>
      rintro s - hs -
      rw [← h.now, ← hs, Nat.add_zero]
    | succ n ih =>
      intro s hs hn hnone
      rw [h.back s hs (by omega)]
      by_cases hk : (l.slot (s % cap)).key = k
      · rw [hfirst s hs (by omega) hk hnone, ← hk, update_self]
      rw [update_of_ne (Ne.symm hk)]
      refine ih (s + 1) (by omega) (by omega) fun t h1 h2 => ?_
      rcases Nat.lt_succ_iff_lt_or_eq.mp h2 with hlt | rfl
      · exact hnone t h1 hlt
      · exact hk
  have hlow := h.low_le
  exact (hback (l.seq - low) low le_rfl (by omega) (fun t h1 h2 => by omega)).symm

/-- When every key known since `low` holds again what its first write replaced,
the whole map is back. -/
lemma Intact.restored
    (hfirst : ∀ s, low ≤ s → s < l.seq →
      (∀ t, low ≤ t → t < s → (l.slot (t % cap)).key ≠ (l.slot (s % cap)).key) →
      l.mem (l.slot (s % cap)).key = (l.slot (s % cap)).old) :
    l.mem = past low := by
  funext k
  apply h.restored_at
  rintro s hs hlt rfl hnone
  exact hfirst s hs hlt hnone

end

end UndoRing
