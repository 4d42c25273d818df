-- A set of keys in a table of fixed size, with open addressing. A slot counts
-- only while it carries the current stamp, so a new stamp empties the table.
-- The laws here say that an insertion tells a new key from one it has. They
-- hold for any keys, stamps, hash and size.
import Mathlib.Data.Finset.Card
import Mathlib.Data.Finset.Range
import Mathlib.Logic.Function.Basic

open Function

namespace OpenAddressing

structure Slot (K S : Type) where
  key : K
  stamp : S
  deriving DecidableEq

variable {K S : Type} [DecidableEq S]

/-- Walks from slot `index` on, over `fuel` slots at most. A slot without the
current stamp takes the key. The flag says whether the key is new. -/
def insertFrom [DecidableEq K] (size : Nat) (current : S) (key : K) :
    Nat → Nat → (Nat → Slot K S) → Bool × (Nat → Slot K S)
  | 0, _, slots => (false, slots)
  | fuel + 1, index, slots =>
    if (slots index).stamp ≠ current then (true, Function.update slots index ⟨key, current⟩)
    else if (slots index).key = key then (false, slots)
    else insertFrom size current key fuel ((index + 1) % size) slots

/-- An insertion writes nothing but the key under the current stamp. -/
lemma insertFrom_slot [DecidableEq K] (size : Nat) (current : S) (key : K) (fuel index : Nat)
    (slots : Nat → Slot K S) (i : Nat) :
    (insertFrom size current key fuel index slots).2 i = slots i ∨
      (insertFrom size current key fuel index slots).2 i = ⟨key, current⟩ := by
  induction fuel generalizing index with
  | zero => exact .inl rfl
  | succ fuel ih =>
    unfold insertFrom
    split_ifs
    · by_cases hi : i = index
      · subst hi
        exact .inr (update_self ..)
      · exact .inl (update_of_ne hi _ _)
    · exact .inl rfl
    · exact ih _

/-! ## What the table holds -/

/-- The slot that is `d` steps from `home`. -/
def spot (size home d : Nat) : Nat := (home + d) % size

lemma spot_lt {size : Nat} (hsize : 0 < size) (home d : Nat) : spot size home d < size :=
  Nat.mod_lt _ hsize

lemma spot_succ (size home d : Nat) : (spot size home d + 1) % size = spot size home (d + 1) := by
  unfold spot
  rw [Nat.mod_add_mod, Nat.add_assoc]

/-- A walk of one full turn visits every slot. -/
lemma exists_spot {size i : Nat} (home : Nat) (hi : i < size) :
    ∃ d < size, spot size home d = i := by
  have hhome := Nat.mod_lt home (Nat.zero_lt_of_lt hi)
  refine ⟨(i + (size - home % size)) % size, Nat.mod_lt _ (by omega), ?_⟩
  unfold spot
  rw [Nat.add_mod_mod, ← Nat.mod_add_mod,
    show home % size + (i + (size - home % size)) = i + size by omega, Nat.add_mod_right,
    Nat.mod_eq_of_lt hi]

def taken (size : Nat) (current : S) (slots : Nat → Slot K S) : Finset Nat :=
  (Finset.range size).filter fun i => (slots i).stamp = current

/-- The table holds `keys` under the current stamp: each can be reached from
its home over slots that are all taken. -/
structure Holds (size : Nat) (home : K → Nat) (current : S) (slots : Nat → Slot K S)
    (keys : List K) : Prop where
  reached : ∀ k ∈ keys, ∃ d, slots (spot size (home k) d) = ⟨k, current⟩ ∧
    ∀ e < d, (slots (spot size (home k) e)).stamp = current
  only : ∀ i < size, (slots i).stamp = current → (slots i).key ∈ keys
  count : (taken size current slots).card ≤ keys.length

variable {size : Nat} {home : K → Nat} {current : S} {slots : Nat → Slot K S} {keys : List K}

/-- A stamp that no slot carries stands for the empty set. -/
lemma holds_nil (h : ∀ i, (slots i).stamp ≠ current) : Holds size home current slots [] where
  reached k hk := by simp at hk
  only i _ hi := absurd hi (h i)
  count := by simp [taken, h]

/-- A free slot that a walk from the home of `k` reaches first can take `k`. -/
lemma Holds.insert {k : K} {d : Nat} (h : Holds size home current slots keys)
    (hfree : (slots (spot size (home k) d)).stamp ≠ current)
    (hwalk : ∀ e < d, (slots (spot size (home k) e)).stamp = current) :
    Holds size home current
      (Function.update slots (spot size (home k) d) ⟨k, current⟩) (k :: keys) := by
  have hkeep : ∀ i, (slots i).stamp = current →
      Function.update slots (spot size (home k) d) ⟨k, current⟩ i = slots i := by
    intro i hi
    apply update_of_ne
    rintro rfl
    exact hfree hi
  refine ⟨?_, ?_, ?_⟩
  · intro k' hk'
    rcases List.mem_cons.mp hk' with rfl | hold
    · refine ⟨d, update_self .., fun e he => ?_⟩
      rw [hkeep _ (hwalk e he)]
      exact hwalk e he
    · obtain ⟨d', hd', hwalk'⟩ := h.reached k' hold
      refine ⟨d', ?_, fun e he => ?_⟩
      · rw [hkeep _ (by rw [hd']), hd']
      · rw [hkeep _ (hwalk' e he)]
        exact hwalk' e he
  · intro i hi hs
    by_cases hat : i = spot size (home k) d
    · subst hat
      rw [update_self]
      simp
    · rw [update_of_ne hat] at hs ⊢
      exact List.mem_cons_of_mem _ (h.only i hi hs)
  · have hsub : taken size current (Function.update slots (spot size (home k) d) ⟨k, current⟩) ⊆
        Insert.insert (spot size (home k) d) (taken size current slots) := by
      intro i hi
      rw [taken, Finset.mem_filter] at hi
      rw [Finset.mem_insert, taken, Finset.mem_filter]
      by_cases hat : i = spot size (home k) d
      · exact .inl hat
      · rw [update_of_ne hat] at hi
        exact .inr hi
    calc (taken size current _).card
        ≤ (Insert.insert (spot size (home k) d) (taken size current slots)).card :=
          Finset.card_le_card hsub
      _ ≤ (taken size current slots).card + 1 := Finset.card_insert_le _ _
      _ ≤ (k :: keys).length := Nat.succ_le_succ h.count

/-- A walk that meets neither a free slot nor the key ends before the table
does, as long as there are fewer keys than slots. -/
lemma Holds.walk_short (h : Holds size home current slots keys) (hroom : keys.length < size)
    (k : K) : ∃ d < size, (slots (spot size (home k) d)).stamp ≠ current := by
  by_contra hall
  push Not at hall
  have hfull : taken size current slots = Finset.range size := by
    apply Finset.filter_true_of_mem
    intro i hi
    obtain ⟨d, hd, rfl⟩ := exists_spot (home k) (Finset.mem_range.mp hi)
    exact hall d hd
  have hcount := h.count
  rw [hfull, Finset.card_range] at hcount
  omega

/-- What an insertion of `k` came to. -/
inductive Outcome (size : Nat) (home : K → Nat) (current : S) (slots : Nat → Slot K S)
    (keys : List K) (k : K) : Bool × (Nat → Slot K S) → Prop
  | known (h : k ∈ keys) : Outcome size home current slots keys k (false, slots)
  | added {slots' : Nat → Slot K S} (h : k ∉ keys)
      (holds : Holds size home current slots' (k :: keys)) :
      Outcome size home current slots keys k (true, slots')

section

variable [DecidableEq K] {k : K} (h : Holds size home current slots keys)
  (hroom : keys.length < size)
include h hroom

/-- A walk that has passed taken slots without the key goes on to the end. -/
lemma insertFrom_outcome (fuel d : Nat) (hfuel : fuel + d = size)
    (hpassed : ∀ e < d, (slots (spot size (home k) e)).stamp = current ∧
      (slots (spot size (home k) e)).key ≠ k) :
    Outcome size home current slots keys k
      (insertFrom size current k fuel (spot size (home k) d) slots) := by
  induction fuel generalizing d with
  | zero =>
    obtain ⟨e, he, hfree⟩ := h.walk_short hroom k
    exact absurd (hpassed e (by omega)).1 hfree
  | succ fuel ih =>
    unfold insertFrom
    split_ifs with hfree hkey
    · refine .added (fun hk => ?_) (h.insert hfree fun e he => (hpassed e he).1)
      -- the slot of a known key lies neither behind, nor here, nor past a free slot
      obtain ⟨d', hd', hwalk⟩ := h.reached k hk
      rcases Nat.lt_trichotomy d' d with hlt | rfl | hgt
      · exact (hpassed d' hlt).2 (by rw [hd'])
      · exact hfree (by rw [hd'])
      · exact hfree (hwalk d hgt)
    · rw [not_not] at hfree
      have hin := h.only _ (spot_lt (by omega) (home k) d) hfree
      rw [hkey] at hin
      exact .known hin
    · rw [not_not] at hfree
      rw [spot_succ]
      refine ih (d + 1) (by omega) fun e he => ?_
      rcases Nat.lt_succ_iff_lt_or_eq.mp he with hlt | rfl
      · exact hpassed e hlt
      · exact ⟨hfree, hkey⟩

/-- **Insertion.** As long as there are fewer keys than slots, an insertion says
new exactly for the keys that are not there, and the table then holds the key. -/
lemma insertion_tells_new_keys (hhome : home k < size) :
    Outcome size home current slots keys k (insertFrom size current k size (home k) slots) := by
  have hstart : spot size (home k) 0 = home k := Nat.mod_eq_of_lt hhome
  have hwalk := insertFrom_outcome (k := k) h hroom size 0 rfl fun e he => absurd he (by omega)
  rwa [hstart] at hwalk

end

end OpenAddressing
