-- Components with one alarm. The alarm is set for some time or not set, and
-- when it rings the component changes and may set it again. Also relations
-- between two computations that may fail, for comparing two such components.
import Mathlib.Logic.Basic
import Mathlib.Tactic.Common

namespace Fil

/-! ## Two computations that may fail -/

section Agree

variable {ε α β γ δ : Type}

/-- Both have results that are related, or both fail with one error. -/
def Agree (R : α → β → Prop) : Except ε α → Except ε β → Prop
  | .ok a, .ok b => R a b
  | .error e, .error e' => e = e'
  | _, _ => False

namespace Agree

variable {R : α → β → Prop} {S : γ → δ → Prop} {x : Except ε α} {y : Except ε β}

lemma bind {f : α → Except ε γ} {g : β → Except ε δ} (h : Agree R x y)
    (hfg : ∀ a b, x = .ok a → R a b → Agree S (f a) (g b)) : Agree S (x >>= f) (y >>= g) := by
  rcases x with e | a <;> rcases y with e' | b
  · exact h
  · exact h.elim
  · exact h.elim
  · exact hfg a b rfl h

lemma mono {R' : α → β → Prop} (h : Agree R x y) (hR : ∀ a b, x = .ok a → R a b → R' a b) :
    Agree R' x y := by
  rcases x with e | a <;> rcases y with e' | b
  · exact h
  · exact h
  · exact h
  · exact hR a b rfl h

lemma cases_on (h : Agree R x y) :
    (∃ e, x = .error e ∧ y = .error e) ∨ ∃ a b, x = .ok a ∧ y = .ok b ∧ R a b := by
  rcases x with e | a <;> rcases y with e' | b
  · exact .inl ⟨e, rfl, by rw [show e = e' from h]⟩
  · exact h.elim
  · exact h.elim
  · exact .inr ⟨a, b, rfl, rfl, h⟩

lemma refl (x : Except ε α) : Agree Eq x x := by
  cases x <;> rfl

lemma ite {c c' : Prop} [Decidable c] [Decidable c'] {x' : Except ε α} {y' : Except ε β}
    (hc : c = c') (hthen : c → Agree R x y) (helse : ¬ c → Agree R x' y') :
    Agree R (if c then x else x') (if c' then y else y') := by
  subst hc
  split_ifs with h
  · exact hthen h
  · exact helse h

lemma foldlM {ι : Type} {f : α → ι → Except ε α} {g : β → ι → Except ε β} {l : List ι}
    (step : ∀ i ∈ l, ∀ a b, R a b → Agree R (f a i) (g b i)) {a : α} {b : β} (h : R a b) :
    Agree R (l.foldlM f a : Except ε α) (l.foldlM g b) := by
  induction l generalizing a b with
  | nil => exact h
  | cons i l ih =>
    simp only [List.foldlM_cons]
    apply Agree.bind (step i (by simp) a b h)
    intro a' b' _ h'
    exact ih (fun j hj => step j (by simp [hj])) h'

end Agree

end Agree

/-! ## The alarm -/

structure Alarm (σ ε : Type) where
  due : σ → Option Nat
  ring : σ → Except ε σ

namespace Alarm

variable {σ τ ε : Type} (a : Alarm σ ε)

/-- Rings the alarm while it is due, at most `fuel` times. -/
def settle (now : Nat) : Nat → σ → Except ε σ
  | 0, s => .ok s
  | fuel + 1, s =>
    match a.due s with
    | none => .ok s
    | some t => if t ≤ now then a.ring s >>= settle now fuel else .ok s

variable {a} {now fuel t : Nat} {s : σ}

lemma settle_unset (h : a.due s = none) : a.settle now fuel s = .ok s := by
  cases fuel <;> simp [settle, h]

lemma settle_later (h : a.due s = some t) (ht : now < t) : a.settle now fuel s = .ok s := by
  cases fuel with
  | zero => rfl
  | succ fuel => simp [settle, h, Nat.not_le.mpr ht]

lemma settle_due (h : a.due s = some t) (ht : t ≤ now) :
    a.settle now (fuel + 1) s = a.ring s >>= a.settle now fuel := by
  simp [settle, h, ht]

end Alarm

end Fil
