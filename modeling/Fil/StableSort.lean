-- Stable sorts, told by what they keep: of elements that the order does not
-- tell apart, a stable sort keeps the given order. A list that is in order is
-- known by its ties, so two ways to the same ties give the same list. The place
-- of an element in the sorted list is its rank, a new key without gaps.
import Mathlib.Data.List.Sort
import Mathlib.Data.List.Nodup

open List

namespace Fil.StableSort

variable {α : Type} (r : α → α → Prop) [DecidableRel r]

/-- The elements of a list that the order does not tell apart from `a`, as they stand. -/
def ties (a : α) (l : List α) : List α := l.filter fun x => r a x ∧ r x a

lemma mem_ties {a x : α} {l : List α} : x ∈ ties r a l ↔ x ∈ l ∧ r a x ∧ r x a := by
  simp [ties]

lemma ties_append (a : α) (l m : List α) : ties r a (l ++ m) = ties r a l ++ ties r a m :=
  filter_append ..

lemma ties_cons_of_tied {a x : α} (h : r a x ∧ r x a) (l : List α) :
    ties r a (x :: l) = x :: ties r a l :=
  filter_cons_of_pos (by simpa using h)

lemma ties_cons_of_apart {a x : α} (h : ¬ (r a x ∧ r x a)) (l : List α) :
    ties r a (x :: l) = ties r a l :=
  filter_cons_of_neg (by simpa using h)

/-- A list in which ties stand in order is not disturbed by sorting as far as its
ties go. -/
lemma ties_insertionSort_of_sorted [Std.Total r] [IsTrans α r] {q : α → α → Prop}
    [DecidableRel q] {a : α} {l : List α} (h : (ties q a l).Pairwise r) :
    ties q a (l.insertionSort r) = ties q a l := by
  have hsub : (ties q a l).Sublist (l.insertionSort r) :=
    sublist_insertionSort h filter_sublist
  have hties : ties q a (ties q a l) = ties q a l := by
    simp [ties, filter_filter]
  have hinside : (ties q a l).Sublist (ties q a (l.insertionSort r)) := by
    rw [← hties]
    exact hsub.filter _
  have hlength : (ties q a (l.insertionSort r)).length = (ties q a l).length :=
    ((perm_insertionSort r l).filter _).length_eq
  exact (hinside.eq_of_length hlength.symm).symm

lemma ties_sorted [IsTrans α r] (a : α) (l : List α) : (ties r a l).Pairwise r := by
  refine pairwise_of_forall_mem_list fun x hx y hy => ?_
  exact Trans.trans ((mem_ties r).mp hx).2.2 ((mem_ties r).mp hy).2.1

lemma ties_insertionSort [Std.Total r] [IsTrans α r] (a : α) (l : List α) :
    ties r a (l.insertionSort r) = ties r a l :=
  ties_insertionSort_of_sorted r (ties_sorted r a l)

lemma eq_of_ties [Std.Total r] {l m : List α} (hl : l.Pairwise r) (hm : m.Pairwise r)
    (h : ∀ a, ties r a l = ties r a m) : l = m := by
  have hrefl : ∀ a, r a a := fun a => (Std.Total.total a a).elim id id
  have hmem : ∀ {l m : List α} {a : α}, ties r a l = ties r a m → a ∈ l → a ∈ m := by
    intro l m a heq ha
    have hin : a ∈ ties r a m := heq ▸ (mem_ties r).mpr ⟨ha, hrefl a, hrefl a⟩
    exact ((mem_ties r).mp hin).1
  induction l generalizing m with
  | nil =>
    cases m with
    | nil => rfl
    | cons b m => exact absurd (hmem (h b).symm mem_cons_self) not_mem_nil
  | cons a l ih =>
    cases m with
    | nil => exact absurd (hmem (h a) mem_cons_self) not_mem_nil
    | cons b m =>
      obtain ⟨hal, hltail⟩ := List.pairwise_cons.mp hl
      obtain ⟨hbm, hmtail⟩ := List.pairwise_cons.mp hm
      have hba : r b a := by
        rcases mem_cons.mp (hmem (h a) mem_cons_self) with rfl | hin
        · exact hrefl a
        · exact hbm a hin
      have hab : r a b := by
        rcases mem_cons.mp (hmem (h b).symm mem_cons_self) with rfl | hin
        · exact hrefl b
        · exact hal b hin
      -- the two heads are tied, so they head the same list of ties
      have hheads := h a
      rw [ties_cons_of_tied r ⟨hrefl a, hrefl a⟩, ties_cons_of_tied r ⟨hab, hba⟩] at hheads
      obtain ⟨rfl, -⟩ := List.cons_eq_cons.mp hheads
      refine congrArg _ (ih hltail hmtail fun c => ?_)
      by_cases hc : r c a ∧ r a c
      · have htails := h c
        rw [ties_cons_of_tied r hc, ties_cons_of_tied r hc] at htails
        exact (List.cons_eq_cons.mp htails).2
      · have htails := h c
        rwa [ties_cons_of_apart r hc, ties_cons_of_apart r hc] at htails

end Fil.StableSort

namespace Ranking

variable {α β : Type}

def sources (key : α → Nat) (l : List α) : List (α × Nat) :=
  l.zipIdx.insertionSort fun a b => key a.1 ≤ key b.1

def rank (key : α → Nat) (l : List α) (place : Nat) : Nat :=
  ((sources key l).map Prod.snd).idxOf place

def relabel (key : α → Nat) (label : Nat → α → β) (l : List α) : List β :=
  l.mapIdx fun place a => label (rank key l place) a

variable {key : α → Nat} {l : List α}

lemma places_perm : ((sources key l).map Prod.snd).Perm (range l.length) := by
  have h := (perm_insertionSort (fun a b : α × Nat => key a.1 ≤ key b.1) l.zipIdx).map Prod.snd
  rw [zipIdx_map_snd, ← range_eq_range'] at h
  exact h

lemma mem_places {i : Nat} : i ∈ (sources key l).map Prod.snd ↔ i < l.length := by
  rw [places_perm.mem_iff, mem_range]

lemma rank_inj {i j : Nat} (hi : i < l.length) (h : rank key l i = rank key l j) : i = j :=
  (idxOf_inj (mem_places.mpr hi)).mp h

lemma rank_lt {i : Nat} (hi : i < l.length) : rank key l i < l.length := by
  have hmem : i ∈ (sources key l).map Prod.snd := mem_places.mpr hi
  have h := idxOf_lt_length_of_mem hmem
  rw [places_perm.length_eq, length_range] at h
  exact h

end Ranking
