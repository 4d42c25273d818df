-- Programs that ask questions and go on with the answers. What such a program
-- does to a state is known from what each question does to it: related
-- answerers give related runs, and what every question keeps a run keeps.
import Mathlib.Control.Basic

namespace Dialogue

/-- A program that asks `q` and is answered `a`, and ends with `α`. -/
inductive Prog (q a α : Type) : Type
  | done (x : α)
  | ask (request : q) (next : a → Prog q a α)

namespace Prog

variable {q a α β σ τ : Type}

def bind : Prog q a α → (α → Prog q a β) → Prog q a β
  | done x, f => f x
  | ask request next, f => ask request fun v => (next v).bind f

instance : Monad (Prog q a) where
  pure := done
  bind := bind

/-- Asks one question and ends with the answer. -/
def query (request : q) : Prog q a a := ask request done

/-- Runs a program against an answerer that keeps a state. -/
def run (answer : q → σ → a × σ) : Prog q a α → σ → α × σ
  | done x, s => (x, s)
  | ask request next, s => run answer (next (answer request s).1) (answer request s).2

variable (answer : q → σ → a × σ)

@[simp] lemma run_pure (x : α) (s : σ) : run answer (pure x : Prog q a α) s = (x, s) := rfl

@[simp] lemma run_done (x : α) (s : σ) : run answer (done x : Prog q a α) s = (x, s) := rfl

@[simp] lemma run_query (request : q) (s : σ) :
    run answer (query request) s = answer request s := rfl

@[simp] lemma run_bind (p : Prog q a α) (f : α → Prog q a β) (s : σ) :
    run answer (p >>= f) s = run answer (f (run answer p s).1) (run answer p s).2 := by
  induction p generalizing s with
  | done x => rfl
  | ask request next ih => exact ih _ _

/-- Two answerers that agree on related states: a run ends with the same
value and in related states. -/
lemma run_sim {answer : q → σ → a × σ} {answer' : q → τ → a × τ} {R : σ → τ → Prop}
    (hanswer : ∀ request s t, R s t →
      (answer request s).1 = (answer' request t).1 ∧ R (answer request s).2 (answer' request t).2)
    (p : Prog q a α) {s : σ} {t : τ} (h : R s t) :
    (run answer p s).1 = (run answer' p t).1 ∧ R (run answer p s).2 (run answer' p t).2 := by
  induction p generalizing s t with
  | done x => exact ⟨rfl, h⟩
  | ask request next ih =>
    obtain ⟨hval, hst⟩ := hanswer request s t h
    unfold run
    rw [hval]
    exact ih _ hst

/-- A reflexive and transitive relation that every question keeps relates the
two ends of a run. -/
lemma run_rel {answer : q → σ → a × σ} {R : σ → σ → Prop} (refl : ∀ s, R s s)
    (trans : ∀ {s t u}, R s t → R t u → R s u)
    (hanswer : ∀ request s, R s (answer request s).2) (p : Prog q a α) (s : σ) :
    R s (run answer p s).2 := by
  induction p generalizing s with
  | done x => exact refl s
  | ask request next ih => exact trans (hanswer request s) (ih _ _)

/-! ## What holds of all questions and all ends -/

/-- Every question that the program can ask is in `P`, and every end it can come
to is in `Q`. -/
def Every (P : q → Prop) (Q : α → Prop) : Prog q a α → Prop
  | done x => Q x
  | ask request next => P request ∧ ∀ v, Every P Q (next v)

variable {P : q → Prop} {Q : α → Prop} {p : Prog q a α} {f : α → Prog q a β}

lemma Every.bind {Q' : β → Prop} (hp : Every P Q p)
    (hf : ∀ x, Q x → Every P Q' (f x)) : Every P Q' (p >>= f) := by
  induction p with
  | done x => exact hf x hp
  | ask request next ih => exact ⟨hp.1, fun v => ih v (hp.2 v)⟩

lemma Every.mono {Q' : α → Prop} (hp : Every P Q p) (h : ∀ x, Q x → Q' x) : Every P Q' p := by
  induction p with
  | done x => exact h x hp
  | ask request next ih => exact ⟨hp.1, fun v => ih v (hp.2 v)⟩

variable {request : q}

lemma Every.query {f : a → Prog q a α} (hp : P request)
    (hf : ∀ v, Every P Q (f v)) : Every P Q (query request >>= f) := ⟨hp, hf⟩

lemma Every.ends (hp : Every P Q p) (answer : q → σ → a × σ) (s : σ) : Q (run answer p s).1 := by
  induction p generalizing s with
  | done x => exact hp
  | ask request next ih => exact ih _ (hp.2 _) _

/-! ## Programs that stop at the first refusal -/

/-- The program asks these questions in order and goes on after an answer that is
`ok`. It ends as `failed` at the first one that is not, else as `good`. -/
inductive Asks (ok : a → Prop) (good failed : α → Prop) : Prog q a α → List q → Prop
  | done {x : α} (h : good x) : Asks ok good failed (done x) []
  | ask {request : q} {rest : List q} {next : a → Prog q a α}
      (go : ∀ v, ok v → Asks ok good failed (next v) rest)
      (stop : ∀ v, ¬ok v → ∃ x, failed x ∧ next v = .done x) :
      Asks ok good failed (ask request next) (request :: rest)

variable {ok : a → Prop} {good failed : α → Prop} {good' failed' : β → Prop}

lemma Asks.query {f : a → Prog q a α} {rest : List q}
    (go : ∀ v, ok v → Asks ok good failed (f v) rest)
    (stop : ∀ v, ¬ok v → ∃ x, failed x ∧ f v = .done x) :
    Asks ok good failed (query request >>= f) (request :: rest) := .ask go stop

lemma Asks.bind {first rest : List q}
    (hp : Asks ok good failed p first) (go : ∀ x, good x → Asks ok good' failed' (f x) rest)
    (stop : ∀ x, failed x → ∃ y, failed' y ∧ f x = .done y) :
    Asks ok good' failed' (p >>= f) (first ++ rest) := by
  induction hp with
  | done h => exact go _ h
  | ask _ hstop ih =>
    refine .ask ih fun v hv => ?_
    obtain ⟨x, hx, hnext⟩ := hstop v hv
    obtain ⟨y, hy, hf⟩ := stop x hx
    refine ⟨y, hy, ?_⟩
    rw [hnext]
    exact hf

variable {requests : List q}

/-- A program that ends with what another one ends with. -/
lemma Asks.thenDone
    (hp : Asks ok good failed p requests) (go : ∀ x, good x → ∃ y, good' y ∧ f x = .done y)
    (stop : ∀ x, failed x → ∃ y, failed' y ∧ f x = .done y) :
    Asks ok good' failed' (p >>= f) requests := by
  rw [← List.append_nil requests]
  refine hp.bind (fun x hx => ?_) stop
  obtain ⟨y, hy, hf⟩ := go x hx
  rw [hf]
  exact .done hy

/-- Asks the questions until one is refused. Gives the refusal if there is one,
and the state then. -/
def inquire (ok : a → Prop) [DecidablePred ok] (answer : q → σ → a × σ) :
    List q → σ → Option a × σ
  | [], s => (none, s)
  | request :: rest, s =>
    if ok (answer request s).1 then inquire ok answer rest (answer request s).2
    else (some (answer request s).1, (answer request s).2)

lemma Asks.run_eq [DecidablePred ok]
    (hp : Asks ok good failed p requests) (answer : q → σ → a × σ) (s : σ) :
    (run answer p s).2 = (inquire ok answer requests s).2 ∧
      ((inquire ok answer requests s).1 = none → good (run answer p s).1) ∧
      ((inquire ok answer requests s).1 ≠ none → failed (run answer p s).1) := by
  induction hp generalizing s with
  | done h => exact ⟨rfl, fun _ => h, fun hne => absurd rfl hne⟩
  | @ask request rest next _ stop ih =>
    rw [run, inquire]
    split
    · rename_i hok
      exact ih _ hok _
    · rename_i hok
      obtain ⟨x, hx, hnext⟩ := stop _ hok
      rw [hnext]
      exact ⟨rfl, by simp, fun _ => hx⟩

end Prog

end Dialogue
