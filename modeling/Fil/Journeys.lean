-- Things that go through stages, told by a ledger of notes about them. The
-- rules say which note may begin a journey and what each note makes of a
-- stage. A ledger that is written along with the moves of a system tells where
-- every thing is, and that it was led through the rules once.
import Mathlib.Data.List.Nodup
import Mathlib.Data.List.Perm.Basic

open List

namespace Journeys

/-- How notes lead a thing through its stages. -/
structure Rules (K S N : Type) where
  key : N → K
  begins : N → Option S
  next : S → N → Option S
  «over» : S → Prop

variable {K S N : Type} [DecidableEq K] (R : Rules K S N)

/-- The stage of a thing after a ledger, the newest note first. `some none` is a
thing that no note names, and `none` one whose notes break the rules. -/
def stage (k : K) : List N → Option (Option S)
  | [] => some none
  | n :: ledger =>
    if R.key n = k then
      match stage k ledger with
      | none => none
      | some none => (R.begins n).map some
      | some (some s) => (R.next s n).map some
    else stage k ledger

variable {R} {k : K} {n : N}

lemma stage_other (h : R.key n ≠ k) (ledger : List N) :
    stage R k (n :: ledger) = stage R k ledger := if_neg h

variable {ledger : List N}

lemma stage_begin {s : S}
    (hnone : stage R (R.key n) ledger = some none) (hs : R.begins n = some s) :
    stage R (R.key n) (n :: ledger) = some (some s) := by
  rw [stage, if_pos rfl, hnone]
  simp [hs]

lemma stage_next {s s' : S}
    (hs : stage R (R.key n) ledger = some (some s)) (hn : R.next s n = some s') :
    stage R (R.key n) (n :: ledger) = some (some s') := by
  rw [stage, if_pos rfl, hs]
  simp [hn]

/-- A thing that no note names has not begun. -/
lemma stage_unnamed (h : ∀ n ∈ ledger, R.key n ≠ k) : stage R k ledger = some none := by
  induction ledger with
  | nil => rfl
  | cons n ledger ih =>
    rw [stage_other (h n (by simp))]
    exact ih fun m hm => h m (by simp [hm])

/-- The notes about a thing, the oldest first. -/
def story (k : K) (ledger : List N) : List N := (ledger.filter fun n => R.key n = k).reverse

lemma story_same (h : R.key n = k) (ledger : List N) :
    story (R := R) k (n :: ledger) = story (R := R) k ledger ++ [n] := by
  simp [story, h]

lemma story_other (h : R.key n ≠ k) (ledger : List N) :
    story (R := R) k (n :: ledger) = story (R := R) k ledger := by
  simp [story, h]

/-- What the rules make of a story: a thing that has not begun has none, and what
holds of a first note and is kept by every next one holds of every story. -/
lemma stage_story {P : S → List N → Prop}
    (hbegins : ∀ n s, R.key n = k → R.begins n = some s → P s [n])
    (hnext : ∀ s n s' notes, R.key n = k → R.next s n = some s' → P s notes → P s' (notes ++ [n]))
    (ledger : List N) :
    (stage R k ledger = some none → story (R := R) k ledger = []) ∧
      ∀ s, stage R k ledger = some (some s) → P s (story (R := R) k ledger) := by
  induction ledger with
  | nil => exact ⟨fun _ => rfl, fun s hs => by cases hs⟩
  | cons n ledger ih =>
    by_cases hk : R.key n = k
    · rw [stage, if_pos hk, story_same hk]
      cases hstage : stage R k ledger with
      | none => simp
      | some place =>
        cases place with
        | none =>
          rw [ih.1 hstage]
          refine ⟨by simp, fun s hs => ?_⟩
          obtain ⟨s', hs', heq⟩ := Option.map_eq_some_iff.mp hs
          cases heq
          exact hbegins n s hk hs'
        | some old =>
          refine ⟨by simp, fun s hs => ?_⟩
          obtain ⟨s', hs', heq⟩ := Option.map_eq_some_iff.mp hs
          cases heq
          exact hnext old n s _ hk hs' (ih.2 old hstage)
    · rw [stage_other hk, story_other hk]
      exact ih

/-- A ledger tells of the things at hand where they are, and of all others that
they have not begun or are over. -/
structure Tells (held : List (K × S)) (ledger : List N) : Prop where
  once : (held.map Prod.fst).Nodup
  here : ∀ k s, (k, s) ∈ held → stage R k ledger = some (some s)
  gone : ∀ k, k ∉ held.map Prod.fst → stage R k ledger = some none ∨
    ∃ s, stage R k ledger = some (some s) ∧ R.over s

lemma tells_nothing : Tells (R := R) ([] : List (K × S)) [] :=
  ⟨by simp, by simp, fun _ _ => .inl rfl⟩

variable {held held' rest : List (K × S)} {ledger : List N} {n : N} {s s' : S}

section

variable (h : Tells (R := R) held ledger)
include h

lemma Tells.perm (hp : held.Perm held') :
    Tells (R := R) held' ledger where
  once := (hp.map Prod.fst).nodup_iff.mp h.once
  here k s hk := h.here k s (hp.mem_iff.mpr hk)
  gone k hk := h.gone k fun hmem => hk ((hp.map Prod.fst).mem_iff.mp hmem)

/-- Every thing has followed the rules so far. -/
lemma Tells.follows (k : K) : ∃ place, stage R k ledger = some place := by
  by_cases hk : k ∈ held.map Prod.fst
  · obtain ⟨⟨k', s⟩, hmem, rfl⟩ := mem_map.mp hk
    exact ⟨_, h.here _ s hmem⟩
  rcases h.gone k hk with h | ⟨s, h, -⟩
  · exact ⟨_, h⟩
  · exact ⟨_, h⟩

lemma Tells.named (hk : (k, s) ∈ held) : ∃ n ∈ ledger, R.key n = k := by
  by_contra hnone
  have hunnamed : stage R k ledger = some none :=
    stage_unnamed fun n hn hkey => hnone ⟨n, hn, hkey⟩
  rw [h.here k s hk] at hunnamed
  cases hunnamed

lemma Tells.enter
    (hnew : stage R (R.key n) ledger = some none) (hs : R.begins n = some s) :
    Tells (R := R) ((R.key n, s) :: held) (n :: ledger) where
  once := by
    rw [map_cons, nodup_cons]
    refine ⟨fun hmem => ?_, h.once⟩
    obtain ⟨⟨k, s'⟩, hk, he⟩ := mem_map.mp hmem
    have hhere := h.here k s' hk
    rw [show k = R.key n from he, hnew] at hhere
    cases hhere
  here k s' hk := by
    rcases mem_cons.mp hk with heq | hmem
    · cases heq
      exact stage_begin hnew hs
    have hhere := h.here k s' hmem
    rw [stage_other _ ledger, hhere]
    rintro rfl
    rw [hnew] at hhere
    cases hhere
  gone k hk := by
    rw [map_cons, mem_cons, not_or] at hk
    rw [stage_other (Ne.symm hk.1)]
    exact h.gone k hk.2

end

section

variable (h : Tells (R := R) ((R.key n, s) :: rest) ledger)
include h

/-- The other things are where they were. -/
lemma Tells.others {s' : S} (hk : (k, s') ∈ rest) : stage R k (n :: ledger) = some (some s') := by
  have honce := h.once
  rw [map_cons, nodup_cons] at honce
  rw [stage_other, h.here k s' (by simp [hk])]
  rintro rfl
  exact honce.1 (mem_map.mpr ⟨_, hk, rfl⟩)

lemma Tells.move
    (hn : R.next s n = some s') : Tells (R := R) ((R.key n, s') :: rest) (n :: ledger) where
  once := h.once
  here k s'' hk := by
    rcases mem_cons.mp hk with heq | hmem
    · cases heq
      exact stage_next (h.here _ s (by simp)) hn
    · exact h.others hmem
  gone k hk := by
    have hne : R.key n ≠ k := fun he => hk (by simp [he])
    rw [stage_other hne]
    exact h.gone k hk

lemma Tells.leave
    (hn : R.next s n = some s') (hover : R.over s') : Tells (R := R) rest (n :: ledger) where
  once := (nodup_cons.mp h.once).2
  here _ _ hk := h.others hk
  gone k hk := by
    by_cases he : R.key n = k
    · subst he
      exact .inr ⟨s', stage_next (h.here _ s (by simp)) hn, hover⟩
    · rw [stage_other he]
      exact h.gone k (by simpa [Ne.symm he] using hk)

end

/-- Several things at hand come to their end, each by a note of its own. -/
lemma Tells.leaveAll {ι : Type} (key : ι → K) (stageOf : ι → S) (note : ι → N)
    (hkey : ∀ i, R.key (note i) = key i) {l : List ι}
    (hn : ∀ i ∈ l, ∃ s', R.next (stageOf i) (note i) = some s' ∧ R.over s')
    (h : Tells (R := R) (l.map (fun i => (key i, stageOf i)) ++ rest) ledger) :
    Tells (R := R) rest ((l.map note).reverse ++ ledger) := by
  induction l generalizing ledger with
  | nil => exact h
  | cons i l ih =>
    obtain ⟨s', hnext, hover⟩ := hn i (by simp)
    rw [map_cons, cons_append, ← hkey i] at h
    have hrest := h.leave hnext hover
    rw [map_cons, reverse_cons, append_assoc]
    exact ih (fun j hj => hn j (by simp [hj])) hrest

end Journeys
